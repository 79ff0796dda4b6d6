import AuthokSpa.Cache.Completeness
import AuthokSpa.Cache.Invariant

/-!
# What one read does to another (`cache-manager.ts`)

`get` writes, so a read for one key may change what another key shows. `Sees` is
the entry a key shows at a time, without adjustment. A read that strips an
expired object hides it from every key that found it and puts the stripped object
under the key it was for (`sees_stripUnder`); a read that drops one removes what is
under that key. `shows_get_iff` says when an entry is still there after a read.
-/

namespace AuthokSpa.Cache

open Js (OrdMap setFrom setDelete)

/-- The entry that a stored object shows at a time. -/
def Cacheable.shows (now : Js.Num) : Cacheable → Option CacheEntry
  | .wrapped ⟨.entry e, expiresAt⟩ =>
    if (⟨.entry e, expiresAt⟩ : WrappedCacheEntry).expired (.fin 0) now then none else some e
  | _ => none

namespace Manager

variable (m : Manager)

/-- The key that `get` finds an entry under. -/
def foundUnder (k : CacheKey) (s : Store) : Option String :=
  match s.get k.toKey with
  | some _ => some k.toKey
  | none => (m.getCacheKeys s).bind (matchExistingCacheKey k)

/-- The entry that a key shows at a time. -/
def sees (k : CacheKey) (now : Js.Num) (s : Store) : Option CacheEntry :=
  (m.findEntry k s).bind fun c => c.value.shows now

end Manager

variable {m : Manager} {k u : CacheKey} {s : Store} {c : Cell} {w : WrappedCacheEntry}
  {now : Js.Num}

theorem findEntry_eq_bind : m.findEntry k s = (m.foundUnder k s).bind s.get := by
  unfold Manager.findEntry Manager.foundUnder
  cases hown : s.get k.toKey with
  | some c =>
    simp only [Option.bind_some, hown]
  | none =>
    cases m.getCacheKeys s with
    | none => rfl
    | some keys => rfl

theorem shows_of_expired (h : w.expired (.fin 0) now) : (Cacheable.wrapped w).shows now = none := by
  obtain ⟨body, expiresAt⟩ := w
  cases body with
  | refreshOnly r => rfl
  | entry e => exact if_pos h

theorem bind_value {β : Type} (o : Option Cell) (g : Cacheable → Option β) :
    (o.bind fun c => g c.value) = (o.map Cell.value).bind g := by
  cases o <;> rfl

/-- What `get` answers, as far as the entry goes. -/
theorem get_entry_iff {e : CacheEntry} :
    (m.get k (.fin 0) now s).2 = some (.entry e) ↔ m.sees k now s = some e := by
  unfold Manager.get Manager.sees
  cases m.findEntry k s with
  | none => simp
  | some c =>
    obtain ⟨ref, value⟩ := c
    cases value with
    | manifest keys => simp [Cacheable.shows]
    | wrapped w =>
      obtain ⟨body, expiresAt⟩ := w
      cases body with
      | refreshOnly r =>
        simp only [Option.bind_some, Cacheable.shows]
        split
        · split <;> simp [WrappedCacheEntry.strip]
        · simp
      | entry e' =>
        simp only [Option.bind_some, Cacheable.shows]
        split
        · split <;> simp [WrappedCacheEntry.strip]
        · simp

/-! ## Stripping -/

/-- The read for `k` has hit the object that `u` shows, or its own key is `u`'s. -/
def Touched (m : Manager) (k u : CacheKey) (c : Cell) (s : Store) : Prop :=
  k.toKey = u.toKey ∨
    ∃ key cell, m.foundUnder u s = some key ∧ s.get key = some cell ∧
      (key = k.toKey ∨ m.byReference = true ∧ cell.ref = c.ref)

/-- What is under a key after the stripping. -/
theorem get_stripUnder (key' : String) :
    ∃ ref, (m.stripUnder k.toKey c w s).get key' =
      if k.toKey = key' then some ⟨ref, .wrapped w.strip⟩
      else (s.get key').map fun cell =>
        if m.byReference = true ∧ cell.ref = c.ref then ⟨c.ref, .wrapped w.strip⟩ else cell := by
  unfold Manager.stripUnder
  cases hb : m.byReference with
  | true =>
    refine ⟨c.ref, ?_⟩
    rw [if_pos rfl, Store.get_bind, Store.get_assign]
    simp only [true_and]
  | false =>
    refine ⟨s.next, ?_⟩
    rw [if_neg Bool.false_ne_true, Store.get_put]
    simp only [Bool.false_eq_true, false_and, if_false, Option.map_id']

/-- The listed keys after the stripping: at most one more, at the end. -/
theorem getCacheKeys_stripUnder (hs : s.Valid) (hfind : m.findEntry k s = some c)
    (hw : c.value = .wrapped w)
    (hk : ∀ cid, m.keyManifest = some cid → manifestKey cid ≠ k.toKey) :
    m.getCacheKeys (m.stripUnder k.toKey c w s) = m.getCacheKeys s ∨
      m.getCacheKeys (m.stripUnder k.toKey c w s) = (m.getCacheKeys s).map (· ++ [k.toKey]) := by
  unfold Manager.getCacheKeys
  cases hcid : m.keyManifest with
  | none =>
    have hkeys : (m.stripUnder k.toKey c w s).allKeys =
        if k.toKey ∈ s.allKeys then s.allKeys else s.allKeys ++ [k.toKey] := by
      unfold Manager.stripUnder Store.allKeys
      split
      · unfold Store.bind
        rw [OrdMap.keys_insert, Store.keys_assign]
      · unfold Store.put
        rw [OrdMap.keys_insert]
    dsimp only
    rw [hkeys]
    split
    · exact Or.inl rfl
    · exact Or.inr rfl
  | some cid =>
    refine Or.inl ?_
    obtain ⟨ref, hget⟩ := get_stripUnder (m := m) (k := k) (c := c) (w := w) (s := s)
      (manifestKey cid)
    dsimp only
    unfold manifestKeys
    rw [hget, if_neg (hk cid hcid).symm]
    cases hman : s.get (manifestKey cid) with
    | none => rfl
    | some cell =>
      rw [Option.map_some, Option.bind_some, Option.bind_some]
      split
      next hsame =>
        -- an alias of the object is no manifest, before or after
        obtain ⟨key, hc, -⟩ := m.findEntry_mem hfind
        have hvalue := hs.shared _ (Store.get_mem hman) _ (Store.get_mem hc) hsame.2
        dsimp only at hvalue
        rw [hvalue, hw]
        rfl
      next => rfl

theorem match_append {keys : List String} {key extra : String}
    (h : matchExistingCacheKey k keys = some key) :
    matchExistingCacheKey k (keys ++ [extra]) = some key := by
  unfold matchExistingCacheKey at h ⊢
  rw [List.filter_append, List.head?_append, h]
  rfl

theorem match_append_none {keys : List String} {key extra : String}
    (hnone : matchExistingCacheKey k keys = none)
    (h : matchExistingCacheKey k (keys ++ [extra]) = some key) : key = extra := by
  unfold matchExistingCacheKey at hnone h
  rw [List.filter_append, List.head?_append, hnone, Option.none_or] at h
  obtain ⟨hmem, -⟩ := List.mem_filter.mp (List.mem_of_mem_head? h)
  exact List.mem_singleton.mp hmem

theorem sees_eq_bind :
    m.sees k now s = (m.foundUnder k s).bind fun key =>
      (s.get key).bind fun c => c.value.shows now := by
  unfold Manager.sees
  rw [findEntry_eq_bind, Option.bind_assoc]

section Strip

variable (hs : s.Valid) (hfind : m.findEntry k s = some c) (hw : c.value = .wrapped w)
  (hk : ∀ cid, m.keyManifest = some cid → manifestKey cid ≠ k.toKey)

include hs hfind hw hk

/-- A key is found where it was, or it finds the stripped object now. -/
theorem foundUnder_stripUnder (u : CacheKey) :
    (k.toKey ≠ u.toKey ∧ m.foundUnder u (m.stripUnder k.toKey c w s) = m.foundUnder u s) ∨
      (m.foundUnder u (m.stripUnder k.toKey c w s) = some k.toKey ∧
        (k.toKey = u.toKey ∨ m.foundUnder u s = none)) := by
  obtain ⟨ref, hget⟩ := get_stripUnder (m := m) (k := k) (c := c) (w := w) (s := s) u.toKey
  by_cases hku : k.toKey = u.toKey
  · refine Or.inr ⟨?_, Or.inl hku⟩
    unfold Manager.foundUnder
    rw [hget, if_pos hku, hku]
  · rw [if_neg hku] at hget
    unfold Manager.foundUnder
    rw [hget]
    cases hown : s.get u.toKey with
    | some cell => exact Or.inl ⟨hku, rfl⟩
    | none =>
      dsimp only [Option.map_none]
      rcases getCacheKeys_stripUnder hs hfind hw hk with hkeys | hkeys
      · exact Or.inl ⟨hku, by rw [hkeys]⟩
      · rw [hkeys]
        cases m.getCacheKeys s with
        | none => exact Or.inl ⟨hku, rfl⟩
        | some keys =>
          simp only [Option.map_some, Option.bind_some]
          cases hmatch : matchExistingCacheKey u keys with
          | some key => exact Or.inl ⟨hku, match_append hmatch⟩
          | none =>
            cases happend : matchExistingCacheKey u (keys ++ [k.toKey]) with
            | none => exact Or.inl ⟨hku, rfl⟩
            | some key => exact Or.inr ⟨by rw [match_append_none hmatch happend], Or.inr rfl⟩

omit hs hfind hw hk

/-- What an untouched key holds is what it held. -/
theorem shows_stripUnder {key : String} (hkey : key ≠ k.toKey)
    (hcell : ∀ cell, s.get key = some cell → ¬ (m.byReference = true ∧ cell.ref = c.ref)) :
    (m.stripUnder k.toKey c w s).get key = s.get key := by
  obtain ⟨ref, hget⟩ := get_stripUnder (m := m) (k := k) (c := c) (w := w) (s := s) key
  rw [hget, if_neg hkey.symm]
  cases hold : s.get key with
  | none => rfl
  | some cell => rw [Option.map_some, if_neg (hcell cell hold)]

theorem hidden_stripUnder {key : String} (h : key = k.toKey ∨
      ∃ cell, s.get key = some cell ∧ m.byReference = true ∧ cell.ref = c.ref) :
    ((m.stripUnder k.toKey c w s).get key).bind (fun c => c.value.shows now) = none := by
  obtain ⟨ref, hget⟩ := get_stripUnder (m := m) (k := k) (c := c) (w := w) (s := s) key
  rw [hget]
  split
  · rfl
  · next hne =>
    rcases h with rfl | ⟨cell, hcell, halias⟩
    · exact absurd rfl hne
    · rw [hcell, Option.map_some, if_pos halias]
      rfl

include hs hfind hw hk

/-- **A stripping read hides what it touches and nothing else.** -/
theorem sees_stripUnder (u : CacheKey) (now : Js.Num) :
    (Touched m k u c s → m.sees u now (m.stripUnder k.toKey c w s) = none) ∧
      (¬ Touched m k u c s → m.sees u now (m.stripUnder k.toKey c w s) = m.sees u now s) := by
  rw [sees_eq_bind, sees_eq_bind]
  rcases foundUnder_stripUnder hs hfind hw hk u with ⟨hku, hfound⟩ | ⟨hfound, hold⟩
  · rw [hfound]
    cases hkey : m.foundUnder u s with
    | none => exact ⟨fun _ => rfl, fun _ => rfl⟩
    | some key =>
      simp only [Option.bind_some]
      constructor
      · rintro (htouch | ⟨key', cell, hkey', hcell, htouch⟩)
        · exact absurd htouch hku
        · obtain rfl : key = key' := Option.some.inj (hkey.symm.trans hkey')
          refine hidden_stripUnder (htouch.imp_right fun h => ⟨cell, hcell, h⟩)
      · intro hspared
        cases hcell : s.get key with
        | none =>
          by_cases hown : key = k.toKey
          · rw [hidden_stripUnder (Or.inl hown)]
            rfl
          · have habsent : ∀ cell, s.get key = some cell →
                ¬ (m.byReference = true ∧ cell.ref = c.ref) := by
              intro cell h
              rw [hcell] at h
              cases h
            rw [shows_stripUnder hown habsent, hcell]
        | some cell =>
          have hnot : ¬ (key = k.toKey ∨ m.byReference = true ∧ cell.ref = c.ref) :=
            fun h => hspared (Or.inr ⟨key, cell, hkey, hcell, h⟩)
          rw [not_or] at hnot
          rw [shows_stripUnder hnot.1 fun cell' h => ?_, hcell]
          obtain rfl : cell = cell' := Option.some.inj (hcell.symm.trans h)
          exact hnot.2
  · rw [hfound, Option.bind_some, hidden_stripUnder (Or.inl rfl)]
    refine ⟨fun _ => rfl, fun hspared => ?_⟩
    rcases hold with hku | hnone
    · exact absurd (Or.inl hku) hspared
    · rw [hnone]
      rfl

end Strip

/-! ## Dropping -/

/-- What a key shows depends on the values under the keys and on their list. -/
theorem sees_congr {s' : Store} (hget : ∀ key, (s'.get key).map Cell.value = (s.get key).map Cell.value)
    (hkeys : m.getCacheKeys s' = m.getCacheKeys s) : m.sees u now s' = m.sees u now s := by
  have hfound : m.foundUnder u s' = m.foundUnder u s := by
    have hown := hget u.toKey
    unfold Manager.foundUnder
    rw [hkeys]
    cases hs : s.get u.toKey with
    | none =>
      rw [hs, Option.map_none, Option.map_eq_none_iff] at hown
      rw [hown]
    | some c =>
      rw [hs, Option.map_some, Option.map_eq_some_iff] at hown
      obtain ⟨c', hc', -⟩ := hown
      rw [hc']
  rw [sees_eq_bind, sees_eq_bind, hfound]
  simp only [bind_value _ (Cacheable.shows now), hget]

/-- What removing a key makes of the manifest; `none` is no manifest. -/
def manifestWithout (key : String) : Option Cacheable → Option Cacheable
  | none => none
  | some v =>
    match setDelete (setFrom (v.keys.getD [])) key with
    | [] => none
    | k :: ks => some (.manifest (k :: ks))

theorem manifestWithout_twice (key : String) (v : Option Cacheable) :
    manifestWithout key (manifestWithout key v) = manifestWithout key v := by
  cases v with
  | none => rfl
  | some v =>
    unfold manifestWithout
    dsimp only
    cases hl : setDelete (setFrom (v.keys.getD [])) key with
    | nil => rfl
    | cons k ks =>
      have hnodup : (k :: ks).Nodup := by
        rw [← hl]
        exact (Js.setFrom_nodup _).filter _
      have hagain : setDelete (setFrom (((Cacheable.manifest (k :: ks)).keys).getD [])) key =
          k :: ks := by
        show setDelete (setFrom (k :: ks)) key = k :: ks
        rw [Js.setFrom_eq_self hnodup, ← hl]
        unfold setDelete
        rw [List.filter_filter]
        simp
      dsimp only
      rw [hagain]

theorem value_manifestRemove (cid key key' : String) (s : Store) :
    ((manifestRemove cid key s).get key').map Cell.value =
      if manifestKey cid = key' then manifestWithout key ((s.get (manifestKey cid)).map Cell.value)
      else (s.get key').map Cell.value := by
  unfold manifestRemove
  cases hman : s.get (manifestKey cid) with
  | none =>
    dsimp only
    by_cases he : manifestKey cid = key'
    · rw [if_pos he, ← he, hman]
      rfl
    · rw [if_neg he]
  | some c =>
    unfold manifestWithout
    dsimp only [Option.map_some]
    cases setDelete (setFrom (c.value.keys.getD [])) key with
    | nil =>
      dsimp only
      rw [Store.get_remove]
      split
      · rfl
      · rfl
    | cons k ks =>
      dsimp only
      rw [Store.get_put]
      split
      · rfl
      · rfl

/-- Dropping a key again changes nothing that can be seen. -/
theorem sees_dropUnder_twice {key : String}
    (hk : ∀ cid, m.keyManifest = some cid → manifestKey cid ≠ key) :
    m.sees u now (m.dropUnder key (m.dropUnder key s)) = m.sees u now (m.dropUnder key s) := by
  unfold Manager.dropUnder
  cases hcid : m.keyManifest with
  | none =>
    have hsame : (s.remove key).remove key = s.remove key := by
      unfold Store.remove OrdMap.erase
      simp only [List.filter_filter, Bool.and_self]
    dsimp only
    rw [hsame]
  | some cid =>
    dsimp only
    -- neither the key nor its place in the list is there for the second drop
    have hvalues : ∀ key', ((manifestRemove cid key
        ((manifestRemove cid key (s.remove key)).remove key)).get key').map Cell.value =
          ((manifestRemove cid key (s.remove key)).get key').map Cell.value := by
      intro key'
      have hne := hk cid hcid
      rw [value_manifestRemove, Store.get_remove, if_neg hne.symm, value_manifestRemove,
        if_pos rfl, manifestWithout_twice, value_manifestRemove]
      split
      · rfl
      · rw [Store.get_remove]
        split
        next he =>
          subst he
          rw [Store.get_remove, if_pos rfl]
        next hne' =>
          rw [value_manifestRemove, if_neg (by assumption)]
    refine sees_congr hvalues ?_
    unfold Manager.getCacheKeys manifestKeys
    rw [hcid]
    dsimp only
    rw [bind_value _ Cacheable.keys, hvalues, bind_value _ Cacheable.keys]

/-- The first match stays the first when another key is taken out of the list. -/
theorem match_setDelete {keys : List String} {key other : String}
    (h : matchExistingCacheKey k keys = some key) (hne : key ≠ other) :
    matchExistingCacheKey k (setDelete (setFrom keys) other) = some key := by
  obtain ⟨before, after, rfl, hbefore, hkey⟩ := matchExistingCacheKey_eq_some_iff.mp h
  have hfresh : key ∉ setFrom before := by
    intro hmem
    have hno := hbefore key (Js.mem_setFrom.mp hmem)
    rw [hkey] at hno
    cases hno
  obtain ⟨rest, hrest⟩ : ∃ rest, setFrom (before ++ key :: after) =
      setFrom before ++ key :: rest := by
    have hhead : setFrom (key :: after) =
        [key] ++ (setFrom after).filter fun y => decide (y ∉ [key]) :=
      Js.foldl_setAdd [key] after
    rw [Js.setFrom_append, Js.foldl_setAdd, hhead, List.filter_append]
    exact ⟨_, by rw [List.filter_cons_of_pos (by simpa using hfresh)]; rfl⟩
  rw [hrest]
  unfold setDelete
  rw [List.filter_append, List.filter_cons_of_pos (by simpa using hne)]
  refine matchExistingCacheKey_eq_some_iff.mpr ⟨_, _, rfl, fun key' hmem => ?_, hkey⟩
  exact hbefore key' (Js.mem_setFrom.mp (List.mem_filter.mp hmem).1)

theorem value_dropUnder {key key' : String} (hne : key ≠ key')
    (hman : ∀ cid, m.keyManifest = some cid → manifestKey cid ≠ key') :
    ((m.dropUnder key s).get key').map Cell.value = (s.get key').map Cell.value := by
  unfold Manager.dropUnder
  cases hcid : m.keyManifest with
  | none =>
    dsimp only
    rw [Store.get_remove, if_neg hne]
  | some cid =>
    dsimp only
    rw [value_manifestRemove, if_neg (hman cid hcid), Store.get_remove, if_neg hne]

theorem value_dropUnder_self {key : String}
    (hman : ∀ cid, m.keyManifest = some cid → manifestKey cid ≠ key) :
    ((m.dropUnder key s).get key).map Cell.value = none := by
  unfold Manager.dropUnder
  cases hcid : m.keyManifest with
  | none =>
    dsimp only
    rw [Store.get_remove, if_pos rfl]
    rfl
  | some cid =>
    dsimp only
    rw [value_manifestRemove, if_neg (hman cid hcid), Store.get_remove, if_pos rfl]
    rfl

/-- The first listed match stays listed when another key is dropped. -/
theorem getCacheKeys_dropUnder (hs : s.Valid) {key other : String} {keys : List String}
    (hother : ∀ cid, m.keyManifest = some cid → manifestKey cid ≠ other)
    (hkeys : m.getCacheKeys s = some keys) (h : matchExistingCacheKey k keys = some key)
    (hne : key ≠ other) :
    (m.getCacheKeys (m.dropUnder other s)).bind (matchExistingCacheKey k) = some key := by
  have hmatch := match_setDelete h hne
  unfold Manager.getCacheKeys Manager.dropUnder at *
  cases hcid : m.keyManifest with
  | none =>
    rw [hcid] at hkeys
    obtain rfl := Option.some.inj hkeys
    have hdeleted : (s.remove other).allKeys = setDelete s.allKeys other := OrdMap.keys_erase ..
    dsimp only
    rw [Option.bind_some, hdeleted]
    rwa [show setFrom s.allKeys = s.allKeys from Js.setFrom_eq_self hs.nodup] at hmatch
  | some cid =>
    rw [hcid] at hkeys
    dsimp only at hkeys ⊢
    unfold manifestKeys at hkeys ⊢
    obtain ⟨c, hc, hlist⟩ := Option.bind_eq_some_iff.mp hkeys
    have hvalue := value_manifestRemove cid other (manifestKey cid) (s.remove other)
    rw [if_pos rfl, Store.get_remove, if_neg (hother cid hcid).symm, hc] at hvalue
    have hbind : (((manifestRemove cid other (s.remove other)).get (manifestKey cid)).bind
        fun c => c.value.keys) = some (setDelete (setFrom keys) other) := by
      rw [bind_value _ Cacheable.keys, hvalue]
      unfold manifestWithout
      dsimp only [Option.map_some]
      rw [hlist, Option.getD_some]
      cases hl : setDelete (setFrom keys) other with
      | nil =>
        rw [hl] at hmatch
        cases hmatch
      | cons x xs => rfl
    rw [hbind]
    exact hmatch

/-- What is found elsewhere is found there when a key is dropped. -/
theorem sees_dropUnder (hs : s.Valid) {key : String} {e : CacheEntry}
    (hkey : ∀ cid, m.keyManifest = some cid → manifestKey cid ≠ key)
    (hu : ∀ cid, m.keyManifest = some cid → manifestKey cid ≠ u.toKey)
    (hother : m.foundUnder u s ≠ some key) (hsees : m.sees u now s = some e) :
    m.sees u now (m.dropUnder key s) = some e := by
  rw [sees_eq_bind] at hsees ⊢
  obtain ⟨key', hfound, hshows⟩ := Option.bind_eq_some_iff.mp hsees
  obtain ⟨cell, hcell, hshows⟩ := Option.bind_eq_some_iff.mp hshows
  have hne : key ≠ key' := fun h => hother (h ▸ hfound)
  have hman : ∀ cid, m.keyManifest = some cid → manifestKey cid ≠ key' := by
    intro cid hcid he
    unfold Manager.foundUnder at hfound
    split at hfound
    · exact hu cid hcid (he.trans (Option.some.inj hfound).symm)
    · -- a listed key is not the one of the list itself, which shows no entry
      unfold Manager.getCacheKeys at hfound
      rw [hcid] at hfound
      obtain ⟨keys, hkeys, -⟩ := Option.bind_eq_some_iff.mp hfound
      unfold manifestKeys at hkeys
      dsimp only at hkeys
      rw [he, hcell, Option.bind_some] at hkeys
      obtain ⟨ref, value⟩ := cell
      cases value with
      | wrapped w => cases hkeys
      | manifest keys => cases hshows
  have hvalue := value_dropUnder (s := s) hne hman
  rw [hcell, Option.map_some, Option.map_eq_some_iff] at hvalue
  obtain ⟨cell', hcell', hsame⟩ := hvalue
  have hfound' : m.foundUnder u (m.dropUnder key s) = some key' := by
    unfold Manager.foundUnder at hfound ⊢
    cases hown : s.get u.toKey with
    | some c =>
      rw [hown] at hfound
      obtain rfl := Option.some.inj hfound
      rw [hcell']
    | none =>
      rw [hown] at hfound
      have hnone : (m.dropUnder key s).get u.toKey = none := by
        rw [← Option.map_eq_none_iff (f := Cell.value)]
        by_cases hku : key = u.toKey
        · subst hku
          exact value_dropUnder_self hkey
        · rw [value_dropUnder hku hu, hown]
          rfl
      rw [hnone]
      obtain ⟨keys, hkeys, hmatch⟩ := Option.bind_eq_some_iff.mp hfound
      exact getCacheKeys_dropUnder hs hkey hkeys hmatch hne.symm
  rw [hfound', Option.bind_some, hcell', Option.bind_some, hsame]
  exact hshows

/-! ## Reading -/

/-- The store after a `get`, when the object found is known. -/
theorem get_of_found (hfind : m.findEntry k s = some c) (hw : c.value = .wrapped w)
    (adj now : Js.Num) :
    (m.get k adj now s).1 =
      if w.expired adj now then
        if w.body.refresh_token.truthy then m.stripUnder k.toKey c w s else m.dropUnder k.toKey s
      else s := by
  unfold Manager.get
  rw [hfind]
  dsimp only
  rw [hw]
  dsimp only
  split
  · split
    · rfl
    · rfl
  · rfl

/-- What the read for `k` meets leaves what is shown: an object that it strips is
not the one shown under `u`, and an entry that it drops is not needed. -/
def Spares (m : Manager) (k u : CacheKey) (adj now : Js.Num) (shown : Store → Prop) (s : Store) :
    Prop :=
  ∀ c w, m.findEntry k s = some c → c.value = .wrapped w → w.expired adj now →
    if w.body.refresh_token.truthy then ¬ Touched m k u c s else shown (m.dropUnder k.toKey s)

/-- The key shows an entry with this `f`. -/
def Shown {α : Type} (m : Manager) (u : CacheKey) (now : Js.Num) (f : CacheEntry → α) (x : α)
    (s : Store) : Prop :=
  (m.sees u now s).map f = some x

section Shown

variable {α : Type} {f : CacheEntry → α} {x : α} {adj : Js.Num} (hs : s.Valid)
  (hk : ∀ cid, m.keyManifest = some cid → manifestKey cid ≠ k.toKey)

include hs hk

/-- **What a key shows is there after a read exactly when the read spares it.** -/
theorem shown_get_iff (hx : Shown m u now f x s) :
    Shown m u now f x (m.get k adj now s).1 ↔ Spares m k u adj now (Shown m u now f x) s := by
  cases hfind : m.findEntry k s with
  | none =>
    refine ⟨fun _ c w hc => ?_, fun _ => ?_⟩
    · rw [hfind] at hc
      cases hc
    · unfold Manager.get
      rw [hfind]
      exact hx
  | some c =>
    cases hv : c.value with
    | manifest keys =>
      refine ⟨fun _ c' w hc hw => ?_, fun _ => ?_⟩
      · obtain rfl : c = c' := Option.some.inj (hfind.symm.trans hc)
        rw [hv] at hw
        cases hw
      · unfold Manager.get
        simp only [hfind, hv]
        exact hx
    | wrapped w =>
      -- what is found is one object, so sparing is a matter of that object
      have honly : Spares m k u adj now (Shown m u now f x) s ↔ (w.expired adj now →
          if w.body.refresh_token.truthy then ¬ Touched m k u c s
          else Shown m u now f x (m.dropUnder k.toKey s)) := by
        refine ⟨fun h => h c w hfind hv, fun h c' w' hc hw => ?_⟩
        obtain rfl : c = c' := Option.some.inj (hfind.symm.trans hc)
        obtain rfl : w = w' := Cacheable.wrapped.inj (hv.symm.trans hw)
        exact h
      rw [honly, get_of_found hfind hv]
      by_cases hexp : w.expired adj now
      · rw [if_pos hexp]
        cases hr : w.body.refresh_token.truthy with
        | false => simp [hexp]
        | true =>
          obtain ⟨hhidden, hsame⟩ := sees_stripUnder hs hfind hv hk u now
          simp only [hexp, if_true, forall_const]
          constructor
          · intro hshown htouch
            unfold Shown at hshown
            rw [hhidden htouch] at hshown
            cases hshown
          · intro hspared
            unfold Shown
            rw [hsame hspared]
            exact hx
      · rw [if_neg hexp]
        exact ⟨fun _ h => absurd h hexp, fun _ => hx⟩

/-- Only dropping an entry can make another one show. -/
theorem shown_of_get (h : Shown m u now f x (m.get k adj now s).1) :
    Shown m u now f x s ∨
      (m.get k adj now s).1 = m.dropUnder k.toKey s ∧
        ∃ c w, m.findEntry k s = some c ∧ c.value = .wrapped w ∧
          w.body.refresh_token.truthy = false := by
  rcases m.get_cases k adj now s with hg | ⟨c, w, hfind, hw, hlive | hstrip | hdrop⟩
  · rw [hg] at h
    exact Or.inl h
  · rw [hlive.2] at h
    exact Or.inl h
  · rw [hstrip.2.2] at h
    obtain ⟨hhidden, hsame⟩ := sees_stripUnder hs hfind hw hk u now
    unfold Shown at h ⊢
    by_cases htouch : Touched m k u c s
    · rw [hhidden htouch] at h
      cases h
    · rw [hsame htouch] at h
      exact Or.inl h
  · rw [hdrop.2.2]
    exact Or.inr ⟨rfl, c, w, hfind, hw, hdrop.2.1⟩

/-- A second read for the same key does not bring back what the first has hidden. -/
theorem shown_of_shown_twice {adj' : Js.Num} (hx : Shown m u now f x s)
    (h : Shown m u now f x (m.get k adj' now (m.get k adj now s).1).1) :
    Shown m u now f x (m.get k adj now s).1 := by
  have hs' := @get_valid m s hs k adj now
  rcases shown_of_get hs' hk h with hshown | ⟨hdrop, c₂, w₂, hfind₂, hw₂, hr₂⟩
  · exact hshown
  rw [hdrop] at h
  rcases m.get_cases k adj now s with hg | ⟨c, w, hfind, hw, hlive | hstrip | hdropped⟩
  · rw [hg]
    exact hx
  · rw [hlive.2]
    exact hx
  · -- the stripped object is found under the key itself and keeps its refresh token
    rw [hstrip.2.2] at hfind₂
    obtain ⟨ref, hget⟩ := get_stripUnder (m := m) (k := k) (c := c) (w := w) (s := s) k.toKey
    rw [if_pos rfl] at hget
    unfold Manager.findEntry at hfind₂
    rw [hget] at hfind₂
    obtain rfl := Option.some.inj hfind₂
    obtain rfl := Cacheable.wrapped.inj hw₂
    exact absurd (hstrip.2.1.symm.trans hr₂) (by simp)
  · rw [hdropped.2.2] at h ⊢
    unfold Shown at h ⊢
    rw [sees_dropUnder_twice hk] at h
    exact h

/-- A read without adjustment spares what is not expired, unless two different keys
print alike. -/
theorem spares_zero (hu : ∀ cid, m.keyManifest = some cid → manifestKey cid ≠ u.toKey)
    (hku : k.toKey = u.toKey → k = u) (hx : Shown m u now f x s) :
    Spares m k u (.fin 0) now (Shown m u now f x) s := by
  intro c w hfind hw hexp
  obtain ⟨e, hsees, hfe⟩ := Option.map_eq_some_iff.mp hx
  obtain ⟨cell, hcell, hshows⟩ := Option.bind_eq_some_iff.mp hsees
  -- the object shown is not expired, the one that was found is
  have hdiffer : cell.value ≠ c.value := by
    intro he
    rw [he, hw, shows_of_expired hexp] at hshows
    cases hshows
  have hother : m.foundUnder u s ≠ some k.toKey := by
    intro he
    rw [findEntry_eq_bind, he, Option.bind_some] at hcell
    have hown : m.findEntry k s = some cell := by
      unfold Manager.findEntry
      rw [hcell]
    exact hdiffer (congrArg Cell.value (Option.some.inj (hown.symm.trans hfind)))
  split
  · rintro (hsame | ⟨key, cell', hkey, hcell', hown | ⟨-, halias⟩⟩)
    · obtain rfl := hku hsame
      exact hdiffer (congrArg Cell.value (Option.some.inj (hcell.symm.trans hfind)))
    · exact hother (hown ▸ hkey)
    · rw [findEntry_eq_bind, hkey, Option.bind_some, hcell'] at hcell
      obtain rfl := Option.some.inj hcell
      obtain ⟨key', hc, -⟩ := m.findEntry_mem hfind
      exact hdiffer (hs.shared _ (Store.get_mem hcell') _ (Store.get_mem hc) halias)
  · unfold Shown
    rw [sees_dropUnder hs hk hu hother hsees, Option.map_some, hfe]

end Shown

end AuthokSpa.Cache
