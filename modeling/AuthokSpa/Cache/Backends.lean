import AuthokSpa.Cache.Isolation
import AuthokSpa.Cache.Lifetime
import AuthokSpa.Cache.ManifestSync
import AuthokSpa.Cache.Reads

/-!
# One manager over three caches

The manager's tests run every case over `InMemoryCache`, over `LocalStorageCache` and
over asynchronous caches, as if the cache made no difference. It makes none as long as
each object is bound to one key and the manifest lists what is stored. `Mirrors` is
that relation between the in-memory store and a store of copies, and every
`PlainStep` keeps it.

A read that finds an expired entry with a refresh token under another key than its
own is the step that breaks it. In memory the entry it found is stripped, because the
object is now bound to both keys; a store of copies keeps that entry whole, and a
manifest does not learn of the second key (`stripping_read_differs`).
-/

namespace AuthokSpa.Cache

open Js (OrdMap setAdd setFrom setDelete setFrom_eq_self)

/-- A manager over `LocalStorageCache`. -/
def localStorage : Manager := ⟨false, none⟩

/-- A manager over an asynchronous cache that keeps copies and cannot list its keys. -/
def recorded (cid : String) : Manager := ⟨false, some cid⟩

/-- `LocalStorageCache.allKeys`: other keys of the page's storage are left out. -/
def localKeys (s : Store) : List String :=
  s.allKeys.filter fun key => Js.startsWith key CACHE_KEY_PREFIX

/-- The step treats all caches alike: it stores nothing over the manifest, strips no
entry but the one under the key it asks for, and a read under the manifest's own key
finds no live entry. The runs are those of `clear()` without a client id. -/
def PlainStep (cid : String) (s : Store) : Op → Prop
  | .set e _ => (CacheKey.ofEntry e).toKey ≠ manifestKey cid
  | .get k adj now => ∀ c w, inMemory.findEntry k s = some c → c.value = .wrapped w →
      (w.expired adj now → w.body.refresh_token.truthy = true → s.get k.toKey ≠ none) ∧
        (¬ w.expired adj now → k.toKey ≠ manifestKey cid)
  | .clear clientId => clientId = none

/-! ## The in-memory store -/

/-- No object is bound to two keys, and the keys are those `LocalStorageCache` lists. -/
structure Unshared (s : Store) : Prop where
  valid : s.Valid
  alone : ∀ b ∈ s.slots, ∀ b' ∈ s.slots, b.2.ref = b'.2.ref → b.1 = b'.1
  listable : ∀ key ∈ s.slots.keys, Js.startsWith key CACHE_KEY_PREFIX = true

theorem startsWith_toKey (e : CacheEntry) :
    Js.startsWith (CacheKey.ofEntry e).toKey CACHE_KEY_PREFIX = true := by
  unfold Js.startsWith CacheKey.toKey
  rw [decide_eq_true_eq, String.toList_append]
  exact List.prefix_append ..

theorem unshared_empty : Unshared {} :=
  ⟨Store.valid_empty, fun b hb => by simp at hb, fun key hkey => by simp [OrdMap.keys] at hkey⟩

section Unshared

variable {s : Store}

theorem Unshared.apart (h : Unshared s) (p : String → Bool) : Apart p s :=
  ⟨h.valid, fun b hb b' hb' hr => by rw [h.alone b hb b' hb' hr]⟩

/-- An object that is never on both sides of a border has one key. -/
theorem alone_of_apart (h : ∀ p, Apart p s) :
    ∀ b ∈ s.slots, ∀ b' ∈ s.slots, b.2.ref = b'.2.ref → b.1 = b'.1 := by
  intro b hb b' hb' hr
  have hside := (h fun key => decide (key = b.1)).apart b hb b' hb' hr
  exact (of_decide_eq_true (hside.symm.trans (decide_eq_true rfl))).symm

theorem Unshared.put (h : Unshared s) {key : String}
    (hkey : Js.startsWith key CACHE_KEY_PREFIX = true) (v : Cacheable) :
    Unshared (s.put key v) := by
  refine ⟨h.valid.put key v, alone_of_apart fun p => (h.apart p).put key v, ?_⟩
  intro key' hkey'
  have hkeys : (s.put key v).slots.keys = setAdd s.slots.keys key := OrdMap.keys_insert ..
  rw [hkeys, Js.mem_setAdd] at hkey'
  rcases hkey' with rfl | hold
  · exact hkey
  · exact h.listable key' hold

theorem Unshared.remove (h : Unshared s) (key : String) : Unshared (s.remove key) := by
  refine ⟨h.valid.remove key, alone_of_apart fun p => (h.apart p).remove key, ?_⟩
  intro key' hkey'
  have hkeys : (s.remove key).slots.keys = setDelete s.slots.keys key := OrdMap.keys_erase ..
  rw [hkeys] at hkey'
  exact h.listable key' (List.mem_filter.mp hkey').1

/-- Stripping the object under its only key changes that key alone. -/
theorem Unshared.get_strip (h : Unshared s) {key : String} {c : Cell} {w : WrappedCacheEntry}
    (hc : s.get key = some c) (key' : String) :
    (inMemory.stripUnder key c w s).get key' =
      if key = key' then some ⟨c.ref, .wrapped w.strip⟩ else s.get key' := by
  show ((s.assign c.ref (.wrapped w.strip)).bind key ⟨c.ref, .wrapped w.strip⟩).get key' = _
  rw [get_strip_byReference]
  split
  · rfl
  next hne =>
    cases hc' : s.get key' with
    | none => rfl
    | some c' =>
      have hr : c'.ref ≠ c.ref := fun hr =>
        hne (h.alone _ (Store.get_mem hc) _ (Store.get_mem hc') hr.symm)
      rw [Option.map_some, if_neg hr]

theorem keys_strip {key : String} {c : Cell} (hc : s.get key = some c) (w : WrappedCacheEntry) :
    (inMemory.stripUnder key c w s).slots.keys = s.slots.keys := by
  have hmem : key ∈ s.slots.keys := OrdMap.mem_keys_of_mem (Store.get_mem hc)
  show ((s.assign c.ref (.wrapped w.strip)).slots.insert key _).keys = _
  rw [OrdMap.keys_insert, Store.keys_assign, if_pos hmem]

theorem Unshared.strip (h : Unshared s) {key : String} {c : Cell} (hc : s.get key = some c)
    (w : WrappedCacheEntry) : Unshared (inMemory.stripUnder key c w s) := by
  refine ⟨stripUnder_valid h.valid hc w,
    alone_of_apart fun p => (h.apart p).stripUnder hc rfl w, ?_⟩
  rw [keys_strip hc]
  exact h.listable

end Unshared

/-! ## A store of copies -/

/-- The key is not where the manager keeps its manifest. -/
def Manager.Free (m : Manager) (key : String) : Prop :=
  ∀ cid, m.keyManifest = some cid → key ≠ manifestKey cid

/-- The store of copies `t` of the manager `m` shows what the in-memory store `s` shows:
the same values, and the same keys in the same order. The manifest has its key to
itself. -/
structure Mirrors (m : Manager) (s t : Store) : Prop where
  values : ∀ key, m.Free key → (t.get key).map Cell.value = (s.get key).map Cell.value
  keys : keyList m t = s.slots.keys
  own : ∀ cid, m.keyManifest = some cid → s.get (manifestKey cid) = none ∧
    ∀ c, t.get (manifestKey cid) = some c → ¬ c.value.IsToken

theorem mirrors_empty (m : Manager) : Mirrors m {} {} := by
  refine ⟨fun _ _ => rfl, ?_, fun cid _ => ⟨rfl, fun c hc => by cases hc⟩⟩
  unfold keyList
  cases m.keyManifest with
  | none => rfl
  | some cid => rfl

section Mirrors

variable {m : Manager} {s t : Store}

/-- A stored key is not the manifest's. -/
theorem Mirrors.free_of_get (h : Mirrors m s t) {key : String} {c : Cell}
    (hc : s.get key = some c) : m.Free key := by
  rintro cid hm rfl
  rw [(h.own cid hm).1] at hc
  cases hc

/-- What a read finds has the same value in both stores. -/
theorem Mirrors.find (h : Mirrors m s t) {k : CacheKey} (hk : m.Free k.toKey) :
    (m.findEntry k t).map Cell.value = (inMemory.findEntry k s).map Cell.value := by
  have hkeys : keyList inMemory s = s.slots.keys := rfl
  have hown := h.values k.toKey hk
  rw [findEntry_eq, findEntry_eq, h.keys, hkeys]
  cases hs : s.get k.toKey with
  | some c =>
    rw [hs] at hown
    obtain ⟨d, hd, hv⟩ := Option.map_eq_some_iff.mp hown
    rw [hd, Option.map_some, Option.map_some, hv]
  | none =>
    rw [hs] at hown
    rw [Option.map_eq_none_iff.mp hown]
    dsimp only
    cases hmatch : matchExistingCacheKey k s.slots.keys with
    | none => rfl
    | some key =>
      -- a listed key is a stored one
      have hmem := (matchExistingCacheKey_some hmatch).1
      obtain ⟨c, hc⟩ := Option.isSome_iff_exists.mp (OrdMap.find_isSome_iff.mpr hmem)
      rw [Option.bind_some, Option.bind_some]
      exact h.values key (h.free_of_get hc)

/-- A read under the manifest's own key finds nothing in the store of copies. -/
theorem Mirrors.get_own (h : Mirrors m s t) {k : CacheKey} {cid : String}
    (hm : m.keyManifest = some cid) (hk : k.toKey = manifestKey cid) (adj now : Js.Num) :
    m.get k adj now t = (t, none) := by
  unfold Manager.get
  rw [findEntry_eq, hk]
  cases ht : t.get (manifestKey cid) with
  | some c =>
    dsimp only
    have hvalue := (h.own cid hm).2 c ht
    cases hv : c.value with
    | manifest keys => rfl
    | wrapped w => exact absurd (by rw [hv]; trivial) hvalue
  | none =>
    have hnil : keyList m t = [] := by
      unfold keyList listed manifestKeys
      rw [hm]
      dsimp only
      rw [ht]
      rfl
    rw [hnil]
    rfl

/-- A write under a free key, the same in both stores. -/
theorem Mirrors.write (h : Mirrors m s t) {s' t' : Store} {key : String} {v : Option Cacheable}
    (hkey : m.Free key)
    (hs : ∀ key', (s'.get key').map Cell.value =
      if key = key' then v else (s.get key').map Cell.value)
    (ht : ∀ key', m.Free key' → (t'.get key').map Cell.value =
      if key = key' then v else (t.get key').map Cell.value)
    (hown : ∀ cid, m.keyManifest = some cid → ∀ c, t'.get (manifestKey cid) = some c →
      ¬ c.value.IsToken)
    (hkeys : keyList m t' = s'.slots.keys) : Mirrors m s' t' := by
  refine ⟨fun key' hfree => ?_, hkeys, fun cid hm => ⟨?_, hown cid hm⟩⟩
  · rw [hs, ht key' hfree, h.values key' hfree]
  · have hnone := hs (manifestKey cid)
    rw [if_neg (hkey cid hm), (h.own cid hm).1] at hnone
    exact Option.map_eq_none_iff.mp hnone

/-! ## The operations -/

theorem value_put (key key' : String) (v : Cacheable) (s : Store) :
    ((s.put key v).get key').map Cell.value =
      if key = key' then some v else (s.get key').map Cell.value := by
  rw [Store.get_put]
  split
  · rfl
  · rfl

theorem Mirrors.keys_nodup (h : Mirrors m s t) (hs : Unshared s) : (keyList m t).Nodup := by
  rw [h.keys]
  exact hs.valid.nodup

theorem keyList_set {e : CacheEntry} (hkey : m.Free (CacheKey.ofEntry e).toKey)
    (hnodup : (keyList m t).Nodup) (now : Js.Num) :
    keyList m (m.set e now t) = setAdd (keyList m t) (CacheKey.ofEntry e).toKey := by
  unfold keyList at hnodup ⊢
  cases hm : m.keyManifest with
  | none =>
    unfold Manager.set
    rw [hm]
    exact OrdMap.keys_insert ..
  | some cid =>
    rw [hm] at hnodup
    dsimp only at hnodup ⊢
    rw [listed_set hm (hkey cid hm), setFrom_eq_self hnodup]

/-- Storing an entry. -/
theorem Mirrors.set (h : Mirrors m s t) (hs : Unshared s) {e : CacheEntry}
    (hkey : m.Free (CacheKey.ofEntry e).toKey) (now : Js.Num) :
    Mirrors m (inMemory.set e now s) (m.set e now t) := by
  refine h.write hkey (fun key' => value_put _ _ (.wrapped (wrapCacheEntry e now)) s) ?_ ?_ ?_
  · intro key' hfree
    unfold Manager.set
    cases hm : m.keyManifest with
    | none => exact value_put ..
    | some cid =>
      dsimp only
      unfold manifestAdd
      rw [value_put, if_neg (hfree cid hm).symm, value_put]
  · intro cid hm c hc
    unfold Manager.set manifestAdd at hc
    rw [hm] at hc
    dsimp only at hc
    rw [Store.get_put, if_pos rfl] at hc
    obtain rfl := Option.some.inj hc
    exact id
  · have hkeys : (inMemory.set e now s).slots.keys =
        setAdd s.slots.keys (CacheKey.ofEntry e).toKey := OrdMap.keys_insert ..
    rw [keyList_set hkey (h.keys_nodup hs), h.keys, hkeys]

/-- Stripping an entry under its own key. -/
theorem Mirrors.strip (h : Mirrors m s t) (hs : Unshared s) (hm : m.byReference = false)
    {key : String} {c d : Cell} (hc : s.get key = some c) (hd : t.get key = some d)
    (w : WrappedCacheEntry) :
    Mirrors m (inMemory.stripUnder key c w s) (m.stripUnder key d w t) := by
  have hfree := h.free_of_get hc
  have hput : m.stripUnder key d w t = t.put key (.wrapped w.strip) := by
    unfold Manager.stripUnder
    rw [hm, if_neg Bool.false_ne_true]
  have hlist : ∀ cid, m.keyManifest = some cid →
      (t.put key (.wrapped w.strip)).get (manifestKey cid) = t.get (manifestKey cid) := by
    intro cid hcid
    rw [Store.get_put, if_neg (hfree cid hcid)]
  rw [hput]
  refine h.write hfree (fun key' => ?_) (fun key' _ => value_put ..) ?_ ?_
  · show _ = if key = key' then some (Cacheable.wrapped w.strip) else _
    rw [hs.get_strip hc]
    split
    · rfl
    · rfl
  · intro cid hcid c' hc'
    rw [hlist cid hcid] at hc'
    exact (h.own cid hcid).2 c' hc'
  · rw [keys_strip hc, ← h.keys]
    unfold keyList
    cases hcid : m.keyManifest with
    | none =>
      have hmem : key ∈ t.slots.keys := OrdMap.mem_keys_of_mem (Store.get_mem hd)
      exact (OrdMap.keys_insert ..).trans (if_pos hmem)
    | some cid => exact listed_congr (hlist cid hcid)

theorem keyList_dropUnder {key : String} (hkey : m.Free key) (hnodup : (keyList m t).Nodup) :
    keyList m (m.dropUnder key t) = setDelete (keyList m t) key := by
  unfold keyList at hnodup ⊢
  cases hm : m.keyManifest with
  | none =>
    unfold Manager.dropUnder
    rw [hm]
    exact OrdMap.keys_erase ..
  | some cid =>
    rw [hm] at hnodup
    dsimp only at hnodup ⊢
    rw [listed_dropUnder hm (hkey cid hm), setFrom_eq_self hnodup]

theorem value_dropUnder_eq {key key' : String} (hfree : m.Free key') :
    ((m.dropUnder key t).get key').map Cell.value =
      if key = key' then none else (t.get key').map Cell.value := by
  split
  next he =>
    rw [he]
    exact value_dropUnder_self fun cid hcid => (hfree cid hcid).symm
  next hne => exact value_dropUnder hne fun cid hcid => (hfree cid hcid).symm

/-- What a drop leaves under the manifest's key is a manifest. -/
theorem own_dropUnder {key cid : String} (hm : m.keyManifest = some cid) {c : Cell}
    (hc : (m.dropUnder key t).get (manifestKey cid) = some c) : ¬ c.value.IsToken := by
  have hvalue := congrArg (Option.map Cell.value) hc
  unfold Manager.dropUnder at hvalue
  rw [hm] at hvalue
  dsimp only at hvalue
  rw [value_manifestRemove, if_pos rfl, Option.map_some] at hvalue
  unfold manifestWithout at hvalue
  split at hvalue
  · cases hvalue
  · split at hvalue
    · cases hvalue
    · rw [← Option.some.inj hvalue]
      exact id

/-- Dropping an expired entry. -/
theorem Mirrors.drop (h : Mirrors m s t) (hs : Unshared s) {key : String} (hkey : m.Free key) :
    Mirrors m (inMemory.dropUnder key s) (m.dropUnder key t) := by
  refine h.write hkey (fun key' => ?_) (fun key' hfree => value_dropUnder_eq hfree) ?_ ?_
  · exact value_dropUnder_eq fun cid hcid => by cases hcid
  · exact fun cid hcid c hc => own_dropUnder hcid hc
  · have hkeys : (inMemory.dropUnder key s).slots.keys = setDelete s.slots.keys key :=
      OrdMap.keys_erase ..
    rw [keyList_dropUnder hkey (h.keys_nodup hs), h.keys, hkeys]

/-- Dropping under a key that is not stored changes nothing in memory. -/
theorem drop_absent {key : String} (hkey : s.get key = none) : inMemory.dropUnder key s = s := by
  have hnot := OrdMap.find_eq_none_iff.mp hkey
  show ({ s with slots := s.slots.erase key } : Store) = s
  have herase : s.slots.erase key = s.slots := by
    refine List.filter_eq_self.mpr fun b hb => decide_eq_true ?_
    rintro rfl
    exact hnot (OrdMap.mem_keys_of_mem hb)
  rw [herase]

theorem get_removeAll (keys : List String) (key : String) (s : Store) :
    (Manager.removeAll keys s).get key = if key ∈ keys then none else s.get key := by
  unfold Manager.removeAll
  induction keys generalizing s with
  | nil => rfl
  | cons key' keys ih =>
    rw [List.foldl_cons, ih, Store.get_remove]
    by_cases hmem : key ∈ keys
    · rw [if_pos hmem, if_pos (List.mem_cons_of_mem _ hmem)]
    · by_cases he : key' = key
      · rw [if_neg hmem, if_pos he, if_pos (List.mem_cons.mpr (Or.inl he.symm))]
      · rw [if_neg hmem, if_neg he, if_neg]
        rw [List.mem_cons, not_or]
        exact ⟨fun h => he h.symm, hmem⟩

theorem clear_of_listing (hm : m.keyManifest = none) (clientId : Option String) (t : Store) :
    m.clear clientId t = Manager.clearSync clientId t := by
  unfold Manager.clear Manager.getCacheKeys
  rw [hm]
  rfl

theorem not_mem_keysToClear_nil (clientId : Option String) (key : String) :
    key ∉ Manager.keysToClear clientId [] := by
  unfold Manager.keysToClear
  cases clientId with
  | none => exact List.not_mem_nil
  | some id =>
    dsimp only
    split <;> exact List.not_mem_nil

/-- `clear` removes the selected keys, and the manifest when there is one. -/
theorem get_clear {key : String} (hfree : m.Free key) (clientId : Option String) (t : Store) :
    (m.clear clientId t).get key =
      if key ∈ Manager.keysToClear clientId (keyList m t) then none else t.get key := by
  cases hm : m.keyManifest with
  | none =>
    rw [clear_of_listing hm, show keyList m t = t.allKeys by unfold keyList; rw [hm]; rfl]
    exact get_removeAll ..
  | some cid =>
    have hkeys : keyList m t = (manifestKeys cid t).getD [] := by
      unfold keyList
      rw [hm]
      rfl
    unfold Manager.clear Manager.getCacheKeys
    rw [hm, hkeys]
    dsimp only
    rcases Option.eq_none_or_eq_some (manifestKeys cid t) with hman | ⟨keys, hman⟩
    · rw [hman]
      exact (if_neg (not_mem_keysToClear_nil clientId key)).symm
    · rw [hman]
      dsimp only
      unfold manifestClear
      rw [Store.get_remove, if_neg (hfree cid hm).symm]
      exact get_removeAll ..

/-- After `clear` there is no manifest, or there was none to read before. -/
theorem manifestKeys_clear {cid : String} (hm : m.keyManifest = some cid)
    (clientId : Option String) (t : Store) :
    (m.clear clientId t).get (manifestKey cid) = none ∨
      manifestKeys cid t = none ∧ m.clear clientId t = t := by
  unfold Manager.clear Manager.getCacheKeys
  rw [hm]
  dsimp only
  cases hkeys : manifestKeys cid t with
  | none => exact Or.inr ⟨rfl, rfl⟩
  | some keys =>
    refine Or.inl ?_
    dsimp only
    unfold manifestClear
    rw [Store.get_remove, if_pos rfl]

theorem Mirrors.clear (h : Mirrors m s t) :
    Mirrors m (inMemory.clear none s) (m.clear none t) := by
  have hslots : (inMemory.clear none s).slots = [] := clearSync_slots s
  have hnone : ∀ key, (inMemory.clear none s).get key = none := by
    intro key
    unfold Store.get
    rw [hslots]
    rfl
  refine ⟨fun key hfree => ?_, ?_, fun cid hm => ⟨hnone _, fun c hc => ?_⟩⟩
  · rw [hnone key, get_clear hfree]
    split
    · rfl
    next hnot =>
      change key ∉ keyList m t at hnot
      rw [h.keys] at hnot
      rw [h.values key hfree, show s.get key = none from OrdMap.find_eq_none_iff.mpr hnot]
  · rw [hslots]
    unfold keyList
    cases hm : m.keyManifest with
    | none =>
      dsimp only
      rw [clear_of_listing hm, clearSync_slots]
    | some cid =>
      dsimp only
      unfold listed
      rcases manifestKeys_clear hm none t with hgone | ⟨hunread, hsame⟩
      · unfold manifestKeys
        rw [hgone]
        rfl
      · rw [hsame, hunread]
        rfl
  · rcases manifestKeys_clear hm none t with hgone | ⟨-, hsame⟩
    · rw [hgone] at hc
      cases hc
    · rw [hsame] at hc
      exact (h.own cid hm).2 c hc

/-! ## Steps and runs -/

/-- The two stores go together. -/
def Together (m : Manager) (s t : Store) : Prop := Unshared s ∧ Mirrors m s t

theorem free_of_ne {cid key : String} (hm : m.keyManifest = none ∨ m.keyManifest = some cid)
    (hne : key ≠ manifestKey cid) : m.Free key := by
  rintro cid' hcid'
  rcases hm with hm | hm
  · rw [hm] at hcid'
    cases hcid'
  · rw [hm] at hcid'
    obtain rfl := Option.some.inj hcid'
    exact hne

/-- A plain read gives the same answer in both, and keeps them together. -/
theorem Together.get (h : Together m s t) {cid : String} (hcopy : m.byReference = false)
    (hm : m.keyManifest = none ∨ m.keyManifest = some cid) {k : CacheKey} {adj now : Js.Num}
    (hok : PlainStep cid s (.get k adj now)) :
    Together m (inMemory.get k adj now s).1 (m.get k adj now t).1 ∧
      (m.get k adj now t).2 = (inMemory.get k adj now s).2 := by
  obtain ⟨hs, ht⟩ := h
  by_cases hfree : m.Free k.toKey
  · have hfind := ht.find hfree
    unfold Manager.get
    cases hc : inMemory.findEntry k s with
    | none =>
      rw [hc] at hfind
      rw [Option.map_eq_none_iff.mp hfind]
      exact ⟨⟨hs, ht⟩, rfl⟩
    | some c =>
      rw [hc] at hfind
      obtain ⟨d, hd, hv⟩ := Option.map_eq_some_iff.mp hfind
      rw [hd]
      dsimp only
      rw [hv]
      cases hw : c.value with
      | manifest keys => exact ⟨⟨hs, ht⟩, rfl⟩
      | wrapped w =>
        dsimp only
        split
        next hexp =>
          split
          next hr =>
            -- the entry is under the key asked for, in both stores
            have hstored := (hok c w hc hw).1 hexp hr
            obtain ⟨c', hown⟩ := Option.ne_none_iff_exists'.mp hstored
            have hc' : inMemory.findEntry k s = some c' := by
              unfold Manager.findEntry
              rw [hown]
            obtain rfl : c' = c := Option.some.inj (hc'.symm.trans hc)
            obtain ⟨d', hd', -⟩ := Option.map_eq_some_iff.mp
              ((ht.values k.toKey hfree).trans (congrArg (Option.map Cell.value) hown))
            have hfound : m.findEntry k t = some d' := by
              unfold Manager.findEntry
              rw [hd']
            obtain rfl : d' = d := Option.some.inj (hfound.symm.trans hd)
            exact ⟨⟨hs.strip hown w, ht.strip hs hcopy hown hd' w⟩, rfl⟩
          next => exact ⟨⟨hs.remove _, ht.drop hs hfree⟩, rfl⟩
        next => exact ⟨⟨hs, ht⟩, rfl⟩
  · -- the manifest's own key: in memory nothing is stored there
    obtain ⟨cid', hcid', hkey⟩ : ∃ cid', m.keyManifest = some cid' ∧ k.toKey = manifestKey cid' := by
      unfold Manager.Free at hfree
      push Not at hfree
      exact hfree
    obtain rfl : cid' = cid := by
      rcases hm with hm | hm
      · rw [hm] at hcid'
        cases hcid'
      · exact Option.some.inj (hcid'.symm.trans hm)
    have habsent : s.get k.toKey = none := by
      rw [hkey]
      exact (ht.own _ hcid').1
    rw [ht.get_own hcid' hkey]
    rcases inMemory.get_cases k adj now s with
      hg | ⟨c, w, hc, hw, ⟨hlive, -⟩ | ⟨hexp, hr, -⟩ | ⟨-, -, hg⟩⟩
    · rw [hg]
      exact ⟨⟨hs, ht⟩, rfl⟩
    · exact absurd hkey ((hok c w hc hw).2 hlive)
    · exact absurd habsent ((hok c w hc hw).1 hexp hr)
    · rw [hg, drop_absent habsent]
      exact ⟨⟨hs, ht⟩, rfl⟩

theorem Unshared.clear (h : Unshared s) : Unshared (inMemory.clear none s) := by
  have hslots : (inMemory.clear none s).slots = [] := clearSync_slots s
  refine ⟨clear_valid h.valid none, fun b hb => ?_, fun key hkey => ?_⟩
  · rw [hslots] at hb
    cases hb
  · rw [hslots] at hkey
    cases hkey

/-- One plain step: the same answer, and the stores stay together. -/
theorem Together.step {cid : String} (hcopy : m.byReference = false)
    (hm : m.keyManifest = none ∨ m.keyManifest = some cid) (s t : Store) (op : Op)
    (h : Together m s t) (hok : PlainStep cid s op) :
    Together m (inMemory.machine.step s op).1 (m.machine.step t op).1 ∧
      (m.machine.step t op).2 = (inMemory.machine.step s op).2 := by
  cases op with
  | set e now =>
    exact ⟨⟨h.1.put (startsWith_toKey e) _, h.2.set h.1 (free_of_ne hm hok) now⟩, rfl⟩
  | get k adj now => exact h.get hcopy hm hok
  | clear clientId =>
    obtain rfl : clientId = none := hok
    exact ⟨⟨h.1.clear, h.2.clear⟩, rfl⟩

/-- `LocalStorageCache` lists every key of a store that goes with one in memory. -/
theorem Together.localKeys (h : Together localStorage s t) : localKeys t = t.allKeys := by
  have hkeys : t.allKeys = s.slots.keys := h.2.keys
  unfold Cache.localKeys
  rw [hkeys]
  exact List.filter_eq_self.mpr h.1.listable

end Mirrors

theorem together_empty (m : Manager) : Together m {} {} := ⟨unshared_empty, mirrors_empty m⟩

/-- **One manager over three caches.** In a run of plain steps the reads give the same
results in memory, in `localStorage` and with a manifest. The listing of `localStorage`
leaves nothing out on the way. -/
theorem backends_agree (cid : String) (ops : List Op)
    (hops : inMemory.machine.Meets (PlainStep cid) {} ops) :
    localStorage.machine.trace {} ops = inMemory.machine.trace {} ops ∧
      (recorded cid).machine.trace {} ops = inMemory.machine.trace {} ops ∧
      localStorage.machine.Meets (fun t _ => localKeys t = t.allKeys) {} ops := by
  have hlocal := @Together.step localStorage cid rfl (Or.inl rfl)
  have hrecorded := @Together.step (recorded cid) cid rfl (Or.inr rfl)
  refine ⟨?_, ?_, ?_⟩
  · exact Machine.trace_related hlocal ops {} {} (together_empty _) hops
  · exact Machine.trace_related hrecorded ops {} {} (together_empty _) hops
  · exact Machine.meets_related (fun s t op h hok => (hlocal s t op h hok).1)
      (fun _ _ _ h _ => h.localKeys) ops {} {} (together_empty _) hops

/-- An entry for `a b` is stripped under its own key, then found for `a`, then cleared. -/
def ownKeyRun : List Op :=
  [.set (sampleEntry "a b" 60 (.str "r")) (.fin 0),
   .get (sampleKey "a b") (.fin 60) (.fin 30000),
   .get (sampleKey "a") (.fin 0) (.fin 30000),
   .clear none]

theorem backends_agree_own_key :
    localStorage.machine.trace {} ownKeyRun = inMemory.machine.trace {} ownKeyRun ∧
      (recorded "client").machine.trace {} ownKeyRun = inMemory.machine.trace {} ownKeyRun := by
  have hplain : inMemory.machine.Meets (PlainStep "client") {} ownKeyRun := by
    refine ⟨?_, fun c w _ _ => ⟨fun _ _ => ?_, fun _ => ?_⟩, fun c w hc hw => ⟨fun hexp => ?_, ?_⟩,
      rfl, trivial⟩
    · show (sampleKey "a b").toKey ≠ manifestKey "client"
      decide
    · rw [← Option.isSome_iff_ne_none]
      decide +kernel
    · decide
    · -- what is found for `a` is not expired
      have hlive : (inMemory.findEntry (sampleKey "a")
          (inMemory.machine.run {} (ownKeyRun.take 2))).all (fun c => c.value.casesOn
            (fun w => !decide (w.expired (.fin 0) (.fin 30000))) fun _ => true) = true := by
        decide +kernel
      have hfound : inMemory.findEntry (sampleKey "a")
          (inMemory.machine.run {} (ownKeyRun.take 2)) = some c := hc
      rw [hfound] at hlive
      simp only [Option.all_some, hw, hexp, decide_true, Bool.not_true] at hlive
      cases hlive
    · intro _
      decide
  obtain ⟨hlocal, hrecorded, -⟩ := backends_agree "client" ownKeyRun hplain
  exact ⟨hlocal, hrecorded⟩

/-- An entry for `a b` that ends in thirty seconds, and a read for `a` that wants a
minute. The stripped object is stored for `a`, then each key is read, and what was
stored for `a` once more after a `clear()`. -/
def strippingRun : List Op :=
  [.set (sampleEntry "a b" 60 (.str "r")) (.fin 0),
   .get (sampleKey "a") (.fin 60) (.fin 30000),
   .get (sampleKey "a b") (.fin 0) (.fin 30000),
   .clear none,
   .get (sampleKey "a") (.fin 0) (.fin 30000)]

/-- The defect: in memory the entry for `a b` has lost its access token, in
`localStorage` it has not; with a manifest the stripped copy survives the `clear()`. -/
theorem stripping_read_differs :
    localStorage.machine.trace {} strippingRun ≠ inMemory.machine.trace {} strippingRun ∧
      (recorded "client").machine.trace {} strippingRun ≠
        localStorage.machine.trace {} strippingRun := by
  constructor
  · intro h
    have htokens := congrArg (List.map fun x => decide (HasAccessToken x.2)) h
    revert htokens
    decide +kernel
  · intro h
    have hfound := congrArg (List.map fun x => x.2.isSome) h
    revert hfound
    decide +kernel

end AuthokSpa.Cache
