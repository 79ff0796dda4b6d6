import AuthokSpa.Cache.Invariant

/-!
# The manifest against the store

A cache that cannot list its keys gets a second copy of the key set, the
manifest, which `set`, `get` and `clear` each update by hand. `Complete` says
the copy is good: every token entry is listed, nothing is listed twice, and so
a `clear` leaves no token behind.

`get` breaks it. When it finds an expired entry with a refresh token under
another key than the requested one, it stores the stripped copy under the
requested key and leaves the manifest alone, where `set` would have called
`add`. The copy is unlisted, and `clear` does not remove it
(`clear_leaves_unlisted_copy`). `set` breaks it as well for an entry whose key
is the manifest's own, which overwrites the list.

`SyncStep` is the condition that neither happens, and `run_complete` the
statement for every run whose steps meet it.
-/

namespace AuthokSpa.Cache

open Js (OrdMap setAdd setFrom setDelete setAdd_nodup mem_setAdd setFrom_eq_self)

/-- A value that holds a token entry. -/
def Cacheable.IsToken : Cacheable → Prop
  | .wrapped _ => True
  | .manifest _ => False

instance (v : Cacheable) : Decidable v.IsToken :=
  match v with
  | .wrapped _ => isTrue trivial
  | .manifest _ => isFalse id

/-- The store holds no token entry. -/
def Tokenless (s : Store) : Prop := s.All (fun _ v => ¬ v.IsToken)

/-- Every token entry is listed, no key is listed twice. -/
def Complete (cid : String) (s : Store) : Prop :=
  s.All (fun key v => v.IsToken → key ∈ listed cid s) ∧ (listed cid s).Nodup

instance (s : Store) : Decidable (Tokenless s) :=
  inferInstanceAs (Decidable (s.All fun _ v => ¬ v.IsToken))

instance (cid : String) (s : Store) : Decidable (Complete cid s) :=
  inferInstanceAs (Decidable (s.All (fun key v => v.IsToken → key ∈ listed cid s) ∧
    (listed cid s).Nodup))

/-- The step does not go wrong: an entry is not stored over a manifest that
lists something, and `get` makes no stripped copy under a new key. The runs are
those of `clear()` without a client id. -/
def SyncStep (m : Manager) (cid : String) (s : Store) : Op → Prop
  | .set e _ => (CacheKey.ofEntry e).toKey = manifestKey cid → Tokenless s
  | .get k adj now => s.get k.toKey = none → ∀ c w, m.findEntry k s = some c →
      c.value = .wrapped w → w.expired adj now → w.body.refresh_token.truthy = false
  | .clear clientId => clientId = none

/-- The invariant: complete, and the manifest's key never holds a token entry. -/
structure Synced (cid : String) (s : Store) : Prop where
  valid : s.Valid
  complete : Complete cid s
  own : ∀ c, s.get (manifestKey cid) = some c → ¬ c.value.IsToken

theorem synced_empty (cid : String) : Synced cid {} :=
  ⟨Store.valid_empty, ⟨fun b hb => by simp at hb, List.nodup_nil⟩, fun c hc => by cases hc⟩

theorem mem_removeAll {keys : List String} {s : Store} {b : String × Cell} :
    b ∈ (Manager.removeAll keys s).slots ↔ b ∈ s.slots ∧ b.1 ∉ keys := by
  unfold Manager.removeAll
  induction keys generalizing s with
  | nil => simp
  | cons key keys ih =>
    rw [List.foldl_cons, ih]
    show b ∈ s.slots.erase key ∧ _ ↔ _
    rw [OrdMap.mem_erase, List.mem_cons, not_or, and_assoc]

/-- The built-in caches are emptied. -/
theorem clearSync_slots (s : Store) : (Manager.clearSync none s).slots = [] := by
  refine List.eq_nil_iff_forall_not_mem.mpr fun b hb => ?_
  obtain ⟨hmem, hnot⟩ := mem_removeAll.mp hb
  exact hnot (OrdMap.mem_keys_of_mem hmem)

/-! ## `set` -/

/-- Adding a key makes the manifest good when that key was all it missed. -/
theorem synced_manifestAdd {cid key : String} {s : Store} (hs : s.Valid)
    (hn : (listed cid s).Nodup)
    (h : s.All (fun k v => v.IsToken → k = key ∨ k ∈ listed cid s)) :
    Synced cid (manifestAdd cid key s) := by
  have hadd : manifestAdd cid key s =
      s.put (manifestKey cid) (.manifest (setAdd (listed cid s) key)) := by
    show s.put _ (.manifest (setAdd (setFrom (listed cid s)) key)) = _
    rw [setFrom_eq_self hn]
  rw [hadd]
  refine ⟨hs.put _ _, ⟨?_, ?_⟩, fun c hc => ?_⟩
  · rw [listed_put_manifest]
    refine Store.All.put hs ?_ (fun ht => ht.elim)
    exact fun b hb ht => mem_setAdd.mpr (h b hb ht)
  · rw [listed_put_manifest]
    exact setAdd_nodup hn key
  · rw [Store.get_put, if_pos rfl] at hc
    obtain rfl := Option.some.inj hc
    exact id

/-- Storing an entry and adding its key keeps the manifest in step. -/
theorem Synced.set {cid : String} {m : Manager} (hm : m.keyManifest = some cid) {s : Store}
    (h : Synced cid s) {e : CacheEntry} {now : Js.Num}
    (hok : SyncStep m cid s (.set e now)) : Synced cid (m.set e now s) := by
  unfold Manager.set
  simp only [hm]
  generalize hkey : (CacheKey.ofEntry e).toKey = key
  by_cases hown : key = manifestKey cid
  · -- over the manifest itself: nothing else was stored, and the entry is gone at once
    have hnone : Tokenless s := hok (hkey.trans hown)
    have hl : listed cid (s.put key (.wrapped (wrapCacheEntry e now))) = [] := by
      unfold listed manifestKeys
      rw [Store.get_put, if_pos hown]
      rfl
    refine synced_manifestAdd (h.valid.put _ _) (by rw [hl]; exact List.nodup_nil) ?_
    refine Store.All.put h.valid ?_ (fun _ => Or.inl rfl)
    exact fun b hb ht => absurd ht (hnone b hb)
  · have hl : listed cid (s.put key (.wrapped (wrapCacheEntry e now))) = listed cid s :=
      listed_congr (by rw [Store.get_put, if_neg hown])
    refine synced_manifestAdd (h.valid.put _ _) (by rw [hl]; exact h.complete.2) ?_
    rw [hl]
    refine Store.All.put h.valid ?_ (fun _ => Or.inl rfl)
    exact fun b hb ht => Or.inr (h.complete.1 b hb ht)

/-! ## `get` -/

/-- Where a token entry was found is not where the manifest is. -/
theorem Synced.find_ne {cid : String} {m : Manager} (hm : m.keyManifest = some cid) {s : Store}
    (h : Synced cid s) {k : CacheKey} {c : Cell} {w : WrappedCacheEntry}
    (hfind : m.findEntry k s = some c) (hw : c.value = .wrapped w) :
    k.toKey ≠ manifestKey cid := by
  intro he
  rcases m.findEntry_cases hfind with hc | ⟨keys, key, hnone, hkeys, -, -⟩
  · exact h.own c (he ▸ hc) (by rw [hw]; trivial)
  · unfold Manager.getCacheKeys at hkeys
    simp only [hm] at hkeys
    unfold manifestKeys at hkeys
    rw [← he, hnone] at hkeys
    simp at hkeys

/-- Stripping an entry under its own key. -/
theorem Synced.stripUnder {cid : String} {m : Manager} {s : Store} (h : Synced cid s)
    {k : CacheKey} {c : Cell} {w : WrappedCacheEntry} (hc : s.get k.toKey = some c) (hw : c.value = .wrapped w) :
    Synced cid (m.stripUnder k.toKey c w s) := by
  have htok : c.value.IsToken := by rw [hw]; trivial
  have hne : k.toKey ≠ manifestKey cid := fun he => h.own c (he ▸ hc) htok
  have hmem := Store.get_mem hc
  -- the manifest is another object, so the assignment does not reach it
  have hman : (m.stripUnder k.toKey c w s).get (manifestKey cid) = s.get (manifestKey cid) := by
    unfold Manager.stripUnder
    split
    · rw [Store.get_bind, if_neg hne, Store.get_assign]
      cases hmk : s.get (manifestKey cid) with
      | none => rfl
      | some c' =>
        have hr : c'.ref ≠ c.ref := by
          intro hr
          have := h.valid.shared _ (Store.get_mem hmk) _ hmem hr
          exact h.own c' hmk (this ▸ htok)
        rw [Option.map_some, if_neg hr]
    · rw [Store.get_put, if_neg hne]
  refine ⟨stripUnder_valid h.valid hc w, ⟨?_, ?_⟩, ?_⟩
  · rw [listed_congr hman]
    exact stripUnder_all h.valid h.complete.1 hc hw (fun _ hk _ => hk trivial)
      (fun _ => h.complete.1 _ hmem htok)
  · rw [listed_congr hman]
    exact h.complete.2
  · intro c' hc'
    rw [hman] at hc'
    exact h.own c' hc'

/-- Dropping an expired entry from the store and from the manifest. -/
theorem Synced.dropUnder {cid : String} {m : Manager} (hm : m.keyManifest = some cid) {s : Store}
    (h : Synced cid s) {key : String} (hne : key ≠ manifestKey cid) :
    Synced cid (m.dropUnder key s) := by
  have hval := dropUnder_valid (m := m) h.valid key
  have hget : (s.remove key).get (manifestKey cid) = s.get (manifestKey cid) := by
    rw [Store.get_remove, if_neg hne]
  -- a token entry that stays is listed, and not under the dropped key
  have hstay : (s.remove key).All (fun k' v => v.IsToken → k' ∈ setDelete (listed cid s) key) := by
    intro b hb ht
    obtain ⟨hb', hbk⟩ := OrdMap.mem_erase.mp hb
    exact List.mem_filter.mpr ⟨h.complete.1 b hb' ht, by simpa using hbk⟩
  unfold Manager.dropUnder manifestRemove at hval ⊢
  simp only [hm, hget] at hval ⊢
  cases hmk : s.get (manifestKey cid) with
  | none =>
    simp only [hmk] at hval ⊢
    have hl : listed cid (s.remove key) = listed cid s := listed_congr hget
    refine ⟨hval, ⟨?_, hl ▸ h.complete.2⟩, fun c hc => ?_⟩
    · intro b hb ht
      rw [hl]
      exact h.complete.1 b (OrdMap.mem_erase.mp hb).1 ht
    · rw [hget, hmk] at hc
      cases hc
  | some c =>
    have hl : c.value.keys.getD [] = listed cid s := by
      unfold listed manifestKeys
      rw [hmk]
      rfl
    simp only [hmk, hl, setFrom_eq_self h.complete.2] at hval ⊢
    split
    next hnil =>
      simp only [hnil] at hval
      have hnone : ((s.remove key).remove (manifestKey cid)).get (manifestKey cid) = none := by
        rw [Store.get_remove, if_pos rfl]
      have hempty : listed cid ((s.remove key).remove (manifestKey cid)) = [] := by
        unfold listed manifestKeys
        rw [hnone]
        rfl
      refine ⟨hval, ⟨?_, by rw [hempty]; exact List.nodup_nil⟩, fun c hc => ?_⟩
      · intro b hb ht
        have := hstay b (OrdMap.mem_erase.mp hb).1 ht
        rw [hnil] at this
        simp at this
      · rw [hnone] at hc
        cases hc
    next k' ks hcons =>
      simp only [hcons] at hval
      refine ⟨hval, ⟨?_, ?_⟩, fun c hc => ?_⟩
      · rw [listed_put_manifest, ← hcons]
        exact Store.All.put (h.valid.remove key) hstay (fun ht => ht.elim)
      · rw [listed_put_manifest, ← hcons]
        exact h.complete.2.filter _
      · rw [Store.get_put, if_pos rfl] at hc
        obtain rfl := Option.some.inj hc
        exact id

theorem Synced.get {cid : String} {m : Manager} (hm : m.keyManifest = some cid) {s : Store}
    (h : Synced cid s) {k : CacheKey} {adj now : Js.Num}
    (hok : SyncStep m cid s (.get k adj now)) : Synced cid (m.get k adj now s).1 := by
  rcases m.get_cases k adj now s with
    hg | ⟨c, w, hfind, hw, ⟨-, hg⟩ | ⟨hexp, hr, hg⟩ | ⟨-, -, hg⟩⟩
  · rw [hg]; exact h
  · rw [hg]; exact h
  · rw [hg]
    rcases m.findEntry_cases hfind with hc | ⟨-, -, hnone, -, -, -⟩
    · exact h.stripUnder hc hw
    · rw [hok hnone c w hfind hw hexp] at hr
      cases hr
  · rw [hg]
    exact h.dropUnder hm (h.find_ne hm hfind hw)

/-! ## `clear` -/

/-- With a good manifest, `clear()` leaves no token entry. -/
theorem Complete.clear_tokenless {cid : String} {m : Manager} (hm : m.keyManifest = some cid)
    {s : Store} (h : Complete cid s) : Tokenless (m.clear none s) := by
  unfold Manager.clear Manager.getCacheKeys
  simp only [hm]
  cases hk : manifestKeys cid s with
  | none =>
    have hl : listed cid s = [] := by
      unfold listed
      rw [hk]
      rfl
    intro b hb ht
    have := h.1 b hb ht
    rw [hl] at this
    simp at this
  | some keys =>
    have hl : listed cid s = keys := by
      unfold listed
      rw [hk]
      rfl
    intro b hb ht
    obtain ⟨hb', -⟩ := OrdMap.mem_erase.mp hb
    obtain ⟨hb'', hnot⟩ := mem_removeAll.mp hb'
    exact hnot (hl ▸ h.1 b hb'' ht)

theorem Synced.clear {cid : String} {m : Manager} (hm : m.keyManifest = some cid) {s : Store}
    (h : Synced cid s) : Synced cid (m.clear none s) := by
  have hnone := h.complete.clear_tokenless hm
  refine ⟨clear_valid h.valid none, ⟨fun b hb ht => absurd ht (hnone b hb), ?_⟩, ?_⟩
  · unfold Manager.clear Manager.getCacheKeys
    simp only [hm]
    cases hk : manifestKeys cid s with
    | none => exact h.complete.2
    | some keys =>
      show (listed cid (Store.remove _ (manifestKey cid))).Nodup
      unfold listed manifestKeys
      rw [Store.get_remove, if_pos rfl]
      exact List.nodup_nil
  · intro c hc
    exact hnone.get hc

/-- One step under the condition keeps the manifest in step with the store. -/
theorem Synced.step {cid : String} {m : Manager} (hm : m.keyManifest = some cid) (s : Store)
    (op : Op) (h : Synced cid s) (hok : SyncStep m cid s op) :
    Synced cid (m.machine.step s op).1 := by
  cases op with
  | set e now => exact h.set hm hok
  | get k adj now => exact h.get hm hok
  | clear clientId =>
    obtain rfl : clientId = none := hok
    exact h.clear hm

/-- **The manifest is complete** in every state reached by steps that store no
entry over it and strip no entry to a new key; a `clear()` there leaves no
token entry at all. -/
theorem run_complete {m : Manager} {cid : String} (hm : m.keyManifest = some cid) {ops : List Op}
    (hops : m.machine.Meets (SyncStep m cid) {} ops) :
    Complete cid (m.machine.run {} ops) ∧ Tokenless (m.clear none (m.machine.run {} ops)) := by
  have h := Machine.run_guarded (fun s op => Synced.step hm s op) ops {} (synced_empty cid) hops
  exact ⟨h.complete, h.complete.clear_tokenless hm⟩

/-- A run that meets the condition, expiry and all: an entry with a refresh
token expires and is stripped under its own key. -/
theorem run_complete_own_key :
    Complete "client" ((⟨false, some "client"⟩ : Manager).machine.run {}
        [.set (sampleEntry "a b" 60 (.str "r")) (.fin 0),
         .get (sampleKey "a b") (.fin 0) (.fin 65000)]) ∧
      Tokenless ((⟨false, some "client"⟩ : Manager).clear none
        ((⟨false, some "client"⟩ : Manager).machine.run {}
          [.set (sampleEntry "a b" 60 (.str "r")) (.fin 0),
           .get (sampleKey "a b") (.fin 0) (.fin 65000)])) := by
  refine run_complete rfl ⟨fun h => absurd h ?_, fun h => absurd h ?_, trivial⟩
  · show (sampleKey "a b").toKey ≠ manifestKey "client"
    decide
  · rw [← Option.not_isSome_iff_eq_none, not_not]
    decide +kernel

/-- The defect: an expired entry for `a b` with a refresh token, asked for as
`a`. The stripped copy under `a` is not listed, and survives `clear()`. -/
theorem clear_leaves_unlisted_copy :
    ¬ (Complete "client" ((⟨false, some "client"⟩ : Manager).machine.run {}
        [.set (sampleEntry "a b" 60 (.str "r")) (.fin 0),
         .get (sampleKey "a") (.fin 0) (.fin 65000)])) ∧
      ¬ Tokenless ((⟨false, some "client"⟩ : Manager).clear none
        ((⟨false, some "client"⟩ : Manager).machine.run {}
          [.set (sampleEntry "a b" 60 (.str "r")) (.fin 0),
           .get (sampleKey "a") (.fin 0) (.fin 65000)])) := by
  decide +kernel

end AuthokSpa.Cache
