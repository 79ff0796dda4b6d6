import AuthokSpa.Cache.Reads

/-!
# Where an expired entry stays (`cache-manager.ts`)

An expired entry should lose its tokens where it is, and go altogether when it has
no refresh token. `get` writes, removes and tells the manifest under the key it was
*asked* for; the entry may have been found under another key, one with more scopes.
There nothing changes: the tokens stay under that key, past their time, and so does
an entry without a refresh token, listed as before.

`evicts_iff`: over a store that keeps copies, a read evicts what it finds exactly
when it finds it under its own key, or there was nothing left to evict.
-/

namespace AuthokSpa.Cache

open Js (setFrom setDelete)

/-- `body.id_token`. -/
def Body.id_token : Body → Js.Value
  | .entry e => e.id_token
  | .refreshOnly _ => .undefined

/-- An access token or an ID token is there. -/
def Cacheable.HoldsTokens : Cacheable → Prop
  | .wrapped w => w.body.access_token ≠ .undefined ∨ w.body.id_token ≠ .undefined
  | .manifest _ => False

/-- The read finds an entry under this key, and judges it expired. -/
structure FindsExpired (m : Manager) (k : CacheKey) (adj now : Js.Num) (s : Store) (key : String)
    (w : WrappedCacheEntry) : Prop where
  under : m.foundUnder k s = some key
  stored : (s.get key).map Cell.value = some (.wrapped w)
  expired : w.expired adj now

/-- The entry is evicted from its key. -/
structure Evicted (m : Manager) (key : String) (w : WrappedCacheEntry) (s : Store) : Prop where
  tokens : ∀ v, (s.get key).map Cell.value = some v → ¬ v.HoldsTokens
  gone : w.body.refresh_token.truthy = false → s.get key = none
  unlisted : w.body.refresh_token.truthy = false →
    ∀ cid, m.keyManifest = some cid → key ∉ listed cid s

/-- The read finds the entry where it was asked for it, or there are no tokens in it
and there is a refresh token to keep it for. -/
def InPlace (k : CacheKey) (key : String) (w : WrappedCacheEntry) : Prop :=
  key = k.toKey ∨ (w.body.refresh_token.truthy = true ∧ ¬ (Cacheable.wrapped w).HoldsTokens)

variable {m : Manager} {k : CacheKey} {adj now : Js.Num} {s : Store} {key : String}
  {w : WrappedCacheEntry}

/-- What the read does to the store. -/
theorem FindsExpired.get_eq (h : FindsExpired m k adj now s key w) :
    ∃ c, c.value = .wrapped w ∧
      (m.get k adj now s).1 =
        if w.body.refresh_token.truthy then m.stripUnder k.toKey c w s
        else m.dropUnder k.toKey s := by
  obtain ⟨c, hc, hvalue⟩ := Option.map_eq_some_iff.mp h.stored
  have hfind : m.findEntry k s = some c := by
    rw [findEntry_eq_bind, h.under, Option.bind_some, hc]
  refine ⟨c, hvalue, ?_⟩
  unfold Manager.get
  rw [hfind]
  dsimp only
  rw [hvalue]
  dsimp only
  rw [if_pos h.expired]
  split
  · rfl
  · rfl

/-- A stripped entry has no tokens. -/
theorem not_holdsTokens_strip (w : WrappedCacheEntry) :
    ¬ (Cacheable.wrapped w.strip).HoldsTokens := by
  rintro (h | h)
  · exact h rfl
  · exact h rfl

/-- What is found under another key than its own is under no manifest's. -/
theorem FindsExpired.ne_manifestKey (h : FindsExpired m k adj now s key w) (hne : key ≠ k.toKey) :
    ∀ cid, m.keyManifest = some cid → manifestKey cid ≠ key := by
  intro cid hcid he
  have hunder := h.under
  unfold Manager.foundUnder at hunder
  cases hown : s.get k.toKey with
  | some c =>
    rw [hown] at hunder
    exact hne (Option.some.inj hunder).symm
  | none =>
    rw [hown] at hunder
    dsimp only at hunder
    -- the listed keys come from that very binding, which holds an entry
    obtain ⟨keys, hkeys, -⟩ := Option.bind_eq_some_iff.mp hunder
    unfold Manager.getCacheKeys manifestKeys at hkeys
    rw [hcid] at hkeys
    dsimp only at hkeys
    rw [bind_value _ Cacheable.keys, he, h.stored] at hkeys
    cases hkeys

/-! ## Under its own key -/

theorem evicted_strip (hcopy : m.byReference = false) (c : Cell)
    (hr : w.body.refresh_token.truthy = true) :
    Evicted m k.toKey w (m.stripUnder k.toKey c w s) := by
  have hget : ((m.stripUnder k.toKey c w s).get k.toKey).map Cell.value =
      some (.wrapped w.strip) := by
    unfold Manager.stripUnder
    rw [hcopy, if_neg Bool.false_ne_true, Store.get_put, if_pos rfl]
    rfl
  refine
    { tokens := ?_
      gone := fun h => absurd (hr.symm.trans h) (by simp)
      unlisted := fun h => absurd (hr.symm.trans h) (by simp) }
  intro v hv
  rw [hget] at hv
  obtain rfl := Option.some.inj hv
  exact not_holdsTokens_strip w

/-- What is dropped is not stored, -/
theorem get_dropUnder_self (m : Manager) (key : String) (s : Store) :
    (m.dropUnder key s).get key = none := by
  have hremoved : (s.remove key).get key = none := by
    rw [Store.get_remove, if_pos rfl]
  unfold Manager.dropUnder
  cases hcid : m.keyManifest with
  | none => exact hremoved
  | some cid =>
    dsimp only
    by_cases hman : manifestKey cid = key
    · unfold manifestRemove
      rw [hman, hremoved]
      exact hremoved
    · rw [← Option.map_eq_none_iff (f := Cell.value), value_manifestRemove, if_neg hman,
        hremoved]
      rfl

/-- and not listed. -/
theorem not_listed_dropUnder {cid : String} (hcid : m.keyManifest = some cid) (key : String)
    (s : Store) : key ∉ listed cid (m.dropUnder key s) := by
  unfold Manager.dropUnder
  rw [hcid]
  dsimp only
  rw [listed_manifestRemove]
  intro hmem
  unfold setDelete at hmem
  have hne := (List.mem_filter.mp hmem).2
  simp at hne

theorem evicted_drop (m : Manager) (k : CacheKey) (w : WrappedCacheEntry) (s : Store) :
    Evicted m k.toKey w (m.dropUnder k.toKey s) where
  tokens := fun v hv => by
    rw [get_dropUnder_self] at hv
    cases hv
  gone := fun _ => get_dropUnder_self m k.toKey s
  unlisted := fun _ _ hcid => not_listed_dropUnder hcid k.toKey s

/-! ## Under another key -/

/-- What the read found under another key is there afterwards, as it was. -/
theorem FindsExpired.kept (h : FindsExpired m k adj now s key w) (hcopy : m.byReference = false)
    (hne : key ≠ k.toKey) :
    ((m.get k adj now s).1.get key).map Cell.value = some (.wrapped w) := by
  obtain ⟨c, -, hget⟩ := h.get_eq
  rw [hget]
  split
  · unfold Manager.stripUnder
    rw [hcopy, if_neg Bool.false_ne_true, Store.get_put, if_neg hne.symm]
    exact h.stored
  · rw [value_dropUnder hne.symm (h.ne_manifestKey hne)]
    exact h.stored

/-- One read. -/
theorem FindsExpired.evicted_iff (h : FindsExpired m k adj now s key w)
    (hcopy : m.byReference = false) :
    Evicted m key w (m.get k adj now s).1 ↔ InPlace k key w := by
  by_cases hown : key = k.toKey
  · subst hown
    obtain ⟨c, -, hget⟩ := h.get_eq
    refine ⟨fun _ => Or.inl rfl, fun _ => ?_⟩
    rw [hget]
    split
    next hr => exact evicted_strip hcopy c hr
    next => exact evicted_drop m k w s
  · have hkept := h.kept hcopy hown
    constructor
    · intro hevicted
      refine Or.inr ⟨?_, hevicted.tokens _ hkept⟩
      by_contra hr
      rw [hevicted.gone (by simpa using hr)] at hkept
      cases hkept
    · rintro (hsame | ⟨hr, htokens⟩)
      · exact absurd hsame hown
      · refine
          { tokens := ?_
            gone := fun hr' => absurd (hr.symm.trans hr') (by simp)
            unlisted := fun hr' => absurd (hr.symm.trans hr') (by simp) }
        intro v hv
        obtain rfl := Option.some.inj (hkept.symm.trans hv)
        exact htokens

/-! ## Runs -/

/-- An operation that reads evicts what it finds expired. -/
def Evicts (m : Manager) (s : Store) : Op → Prop
  | .get k adj now => ∀ key w, FindsExpired m k adj now s key w →
      Evicted m key w (m.get k adj now s).1
  | _ => True

/-- An operation that reads finds what is expired in its place. -/
def FindsInPlace (m : Manager) (s : Store) : Op → Prop
  | .get k adj now => ∀ key w, FindsExpired m k adj now s key w → InPlace k key w
  | _ => True

theorem evicts_step_iff (hcopy : m.byReference = false) (s : Store) (op : Op) :
    Evicts m s op ↔ FindsInPlace m s op := by
  cases op with
  | get k adj now =>
    show (∀ key w, FindsExpired m k adj now s key w → Evicted m key w (m.get k adj now s).1) ↔
      ∀ key w, FindsExpired m k adj now s key w → InPlace k key w
    refine forall_congr' fun key => forall_congr' fun w => ?_
    exact forall_congr' fun h => h.evicted_iff hcopy
  | set e now => exact Iff.rfl
  | clear clientId => exact Iff.rfl

/-- **An expired entry is evicted where it is found** exactly when that is the key it
was asked for, or nothing is left in it to evict: for a read in any state that is
reached, and for all the reads of a run. -/
theorem evicts_iff (m : Manager) (hcopy : m.byReference = false) (ops : List Op) :
    (∀ k adj now key w, FindsExpired m k adj now (m.machine.run {} ops) key w →
      (Evicted m key w (m.get k adj now (m.machine.run {} ops)).1 ↔ InPlace k key w)) ∧
    (m.machine.Meets (Evicts m) {} ops ↔ m.machine.Meets (FindsInPlace m) {} ops) := by
  constructor
  · intro k adj now key w h
    exact h.evicted_iff hcopy
  · exact m.machine.meets_congr (evicts_step_iff hcopy) {} ops

/-- A cache with a manifest, and an entry for `a b` without a refresh token. -/
def listing : Manager := ⟨false, some "client"⟩

def storedRun : List Op := [.set (sampleEntry "a b" 60 .undefined) (.fin 0)]

/-- The entry as it is stored. -/
def storedEntry : WrappedCacheEntry :=
  wrapCacheEntry (sampleEntry "a b" 60 .undefined) (.fin 0)

theorem stored_storedRun :
    ((listing.machine.run {} storedRun).get (sampleKey "a b").toKey).map Cell.value =
      some (.wrapped storedEntry) := by
  have hkey : ∀ cid, listing.keyManifest = some cid →
      manifestKey cid ≠ (sampleKey "a b").toKey := by
    intro cid hcid
    obtain rfl := Option.some.inj hcid
    exact manifestKey_ne_toKey rfl rfl
  have hset := Manager.set_get (m := listing) (e := sampleEntry "a b" 60 .undefined)
    (k := sampleKey "a b") rfl hkey (.fin 0) {}
  exact congrArg (Option.map Cell.value) hset

theorem expired_storedEntry : storedEntry.expired (.fin 0) (.fin 65000) := by
  decide +kernel

/-- A minute later it is found expired, asked for with both scopes or with one. -/
theorem finds_storedEntry {k : CacheKey}
    (hunder : listing.foundUnder k (listing.machine.run {} storedRun) =
      some (sampleKey "a b").toKey) :
    FindsExpired listing k (.fin 0) (.fin 65000) (listing.machine.run {} storedRun)
      (sampleKey "a b").toKey storedEntry :=
  ⟨hunder, stored_storedRun, expired_storedEntry⟩

/-- Asked for under its own key, the entry goes. -/
theorem evicts_own_key :
    Evicted listing (sampleKey "a b").toKey storedEntry
      (listing.get (sampleKey "a b") (.fin 0) (.fin 65000)
        (listing.machine.run {} storedRun)).1 := by
  have hfinds := finds_storedEntry (k := sampleKey "a b") (by decide +kernel)
  exact ((evicts_iff listing rfl storedRun).1 _ _ _ _ _ hfinds).mpr (Or.inl rfl)

/-- The defect: asked for with one of its scopes, the expired entry stays stored and
listed, with its tokens. -/
theorem expired_entry_stays :
    FindsExpired listing (sampleKey "a") (.fin 0) (.fin 65000)
        (listing.machine.run {} storedRun) (sampleKey "a b").toKey storedEntry ∧
      ¬ Evicted listing (sampleKey "a b").toKey storedEntry
        (listing.get (sampleKey "a") (.fin 0) (.fin 65000)
          (listing.machine.run {} storedRun)).1 := by
  have hfinds := finds_storedEntry (k := sampleKey "a") (by decide +kernel)
  refine ⟨hfinds, fun hevicted => ?_⟩
  have hkept := hfinds.kept rfl (by decide)
  rw [hevicted.gone rfl] at hkept
  cases hkept

end AuthokSpa.Cache
