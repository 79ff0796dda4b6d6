import AuthokSpa.Cache.Invariant

/-!
# Isolation between clients and audiences

All clients and audiences share one store, one ordered key list and one
manifest. Still, what `get` answers for one (client, audience) pair depends
only on the operations for that pair: deleting the others from a run changes
no remaining answer.

`ofPair` picks the keys of the pair. Every operation writes under keys of its
own pair and finds entries under such keys (`ofPair_of_matches`), so two facts
suffice. First, no object is bound both inside and outside the pair (`Apart`),
or an assignment outside would show inside. Second, two stores that agree on
the pair (`Agree`: the same keys in the same order, the same values, the same
aliases, the same listed keys) answer alike and still agree after an operation
of the pair on both, or an operation of another pair on one.
-/

namespace AuthokSpa.Cache

open Js (OrdMap setAdd setFrom setDelete setAdd_nodup mem_setAdd setFrom_eq_self)

/-! ## Keys of a pair -/

/-- The key reads as one of the client and audience. -/
def ofPair (client audience : String) (key : String) : Bool :=
  let p := CacheKey.fromKey key
  p.keyPrefix = some CACHE_KEY_PREFIX && p.client_id = some client && p.audience = some audience

/-- The request is for the client and audience. -/
def CacheKey.isFor (client audience : String) (k : CacheKey) : Bool :=
  decide (k.client_id = client ∧ k.audience = audience)

theorem ofPair_toKey {client audience : String} {k : CacheKey} (h : k.WellFormed) :
    ofPair client audience k.toKey = k.isFor client audience := by
  unfold ofPair CacheKey.isFor
  rw [fromKey_toKey h]
  simp

theorem ofPair_of_matches {client audience : String} {k : CacheKey} {key : String}
    (h : matchesKey k key = true) : ofPair client audience key = k.isFor client audience := by
  unfold matchesKey at h
  unfold ofPair CacheKey.isFor
  dsimp only at h ⊢
  split at h
  · cases h
  · simp only [Bool.and_eq_true, decide_eq_true_eq] at h
    obtain ⟨⟨⟨-, hp⟩, hc⟩, ha⟩ := h
    simp [hp, hc, ha]

/-- The manifest's key has no audience, so it belongs to no pair. -/
theorem ofPair_manifestKey {client audience cid : String} (h : Js.includes cid "::" = false) :
    ofPair client audience (manifestKey cid) = false := by
  unfold ofPair CacheKey.fromKey manifestKey
  rw [Js.split_append _ (by decide) fieldOk_keyPrefix.sepFree, Js.split_of_not_includes h]
  simp

/-! ## Filtering key lists -/

theorem filter_setAdd_of_pos {p : String → Bool} {x : String} (hx : p x = true) (l : List String) :
    (setAdd l x).filter p = setAdd (l.filter p) x := by
  unfold setAdd
  by_cases h : x ∈ l
  · rw [if_pos h, if_pos (List.mem_filter.mpr ⟨h, hx⟩)]
  · rw [if_neg h, if_neg (fun h' => h (List.mem_filter.mp h').1)]
    simp [hx]

theorem filter_setAdd_of_neg {p : String → Bool} {x : String} (hx : p x = false)
    (l : List String) : (setAdd l x).filter p = l.filter p := by
  unfold setAdd
  split
  · rfl
  · simp [hx]

theorem filter_setDelete (p : String → Bool) (l : List String) (x : String) :
    (setDelete l x).filter p = setDelete (l.filter p) x := by
  unfold setDelete
  rw [List.filter_filter, List.filter_filter]
  exact List.filter_congr fun y _ => Bool.and_comm ..

theorem filter_setDelete_of_neg {p : String → Bool} {x : String} (hx : p x = false)
    (l : List String) : (setDelete l x).filter p = l.filter p := by
  unfold setDelete
  rw [List.filter_filter]
  refine List.filter_congr fun y _ => ?_
  by_cases hy : y = x
  · simp [hy, hx]
  · simp [hy]

/-- Two listings without repetition that show the same on `p`. -/
structure SameListing (p : String → Bool) (l l' : List String) : Prop where
  left : l.Nodup
  right : l'.Nodup
  filtered : l.filter p = l'.filter p

section SameListing

variable {p : String → Bool} {l l' : List String} {x : String}

theorem SameListing.add (h : SameListing p l l') (hx : p x = true) :
    SameListing p (setAdd l x) (setAdd l' x) := by
  refine ⟨setAdd_nodup h.left x, setAdd_nodup h.right x, ?_⟩
  rw [filter_setAdd_of_pos hx, filter_setAdd_of_pos hx, h.filtered]

theorem SameListing.add_left (h : SameListing p l l') (hx : p x = false) :
    SameListing p (setAdd l x) l' := by
  refine ⟨setAdd_nodup h.left x, h.right, ?_⟩
  rw [filter_setAdd_of_neg hx, h.filtered]

theorem SameListing.delete (h : SameListing p l l') (x : String) :
    SameListing p (setDelete l x) (setDelete l' x) := by
  refine ⟨h.left.filter _, h.right.filter _, ?_⟩
  rw [filter_setDelete, filter_setDelete, h.filtered]

theorem SameListing.delete_left (h : SameListing p l l') (hx : p x = false) :
    SameListing p (setDelete l x) l' := by
  refine ⟨h.left.filter _, h.right, ?_⟩
  rw [filter_setDelete_of_neg hx, h.filtered]

end SameListing

/-! ## The keys a lookup goes through -/

/-- The listed keys, or all keys of a cache that can list them. -/
def keyList (m : Manager) (s : Store) : List String :=
  match m.keyManifest with
  | some cid => listed cid s
  | none => s.slots.keys

/-- An absent key list and an empty one make no difference. -/
theorem findEntry_eq (m : Manager) (k : CacheKey) (s : Store) :
    m.findEntry k s =
      match s.get k.toKey with
      | some c => some c
      | none => (matchExistingCacheKey k (keyList m s)).bind s.get := by
  unfold Manager.findEntry keyList Manager.getCacheKeys Store.allKeys listed
  cases s.get k.toKey with
  | some c => rfl
  | none =>
    cases m.keyManifest with
    | none => rfl
    | some cid =>
      dsimp only
      cases manifestKeys cid s with
      | none => rfl
      | some keys => rfl

/-! ## Objects do not cross the border -/

/-- The store is sound and no object is bound on both sides of `p`. -/
structure Apart (p : String → Bool) (s : Store) : Prop where
  valid : s.Valid
  apart : ∀ b ∈ s.slots, ∀ b' ∈ s.slots, b.2.ref = b'.2.ref → p b.1 = p b'.1

section Apart

variable {p : String → Bool} {s : Store}

theorem apart_empty : Apart p {} :=
  ⟨Store.valid_empty, fun b hb => by simp at hb⟩

theorem Apart.put (h : Apart p s) (key : String) (v : Cacheable) : Apart p (s.put key v) := by
  refine ⟨h.valid.put key v, ?_⟩
  intro b hb b' hb' hr
  rcases OrdMap.mem_insert h.valid.nodup hb with rfl | ⟨hb1, -⟩ <;>
    rcases OrdMap.mem_insert h.valid.nodup hb' with rfl | ⟨hb2, -⟩
  · rfl
  · exact absurd hr (Nat.ne_of_gt (h.valid.fresh b' hb2))
  · exact absurd hr (Nat.ne_of_lt (h.valid.fresh b hb1))
  · exact h.apart b hb1 b' hb2 hr

theorem Apart.remove (h : Apart p s) (key : String) : Apart p (s.remove key) := by
  refine ⟨h.valid.remove key, ?_⟩
  intro b hb b' hb' hr
  exact h.apart b (OrdMap.mem_erase.mp hb).1 b' (OrdMap.mem_erase.mp hb').1 hr

/-- Stripping under a key on the side where the object was found. -/
theorem Apart.stripUnder (h : Apart p s) {m : Manager} {key key' : String} {c : Cell}
    (hc : s.get key' = some c) (hside : p key' = p key) (w : WrappedCacheEntry) :
    Apart p (m.stripUnder key c w s) := by
  refine ⟨stripUnder_valid h.valid hc w, ?_⟩
  unfold Manager.stripUnder
  split
  · -- every binding afterwards is on the side of a binding of the same object before
    have hback : ∀ b ∈ ((s.assign c.ref (.wrapped w.strip)).bind key
        ⟨c.ref, .wrapped w.strip⟩).slots, ∃ b₀ ∈ s.slots, p b.1 = p b₀.1 ∧ b.2.ref = b₀.2.ref := by
      intro b hb
      rcases OrdMap.mem_insert (h.valid.assign _ _).nodup hb with rfl | ⟨hb1, -⟩
      · exact ⟨(key', c), Store.get_mem hc, hside.symm, rfl⟩
      · obtain ⟨b₀, hb₀, hk, hr, -⟩ := Store.mem_assign hb1
        exact ⟨b₀, hb₀, by rw [hk], hr⟩
    intro b hb b' hb' hr
    obtain ⟨b₀, hb₀, hp₀, hr₀⟩ := hback b hb
    obtain ⟨b₁, hb₁, hp₁, hr₁⟩ := hback b' hb'
    rw [hp₀, hp₁]
    exact h.apart b₀ hb₀ b₁ hb₁ (by rw [← hr₀, ← hr₁, hr])
  · exact (h.put key _).apart

/-- An object bound on one side is not bound on the other. -/
theorem Apart.ref_ne (h : Apart p s) {key key' : String} {c c' : Cell} (hc : s.get key = some c)
    (hc' : s.get key' = some c') (hp : p key ≠ p key') : c.ref ≠ c'.ref :=
  fun hr => hp (h.apart _ (Store.get_mem hc) _ (Store.get_mem hc') hr)

end Apart

/-! ## Stores that look the same on one side -/

/-- The two stores show the same on `p`: values, aliases and key order. -/
structure SameView (p : String → Bool) (s t : Store) : Prop where
  left : Apart p s
  right : Apart p t
  values : ∀ key, p key = true → (s.get key).map Cell.value = (t.get key).map Cell.value
  aliases : ∀ key key' c c' d d', p key = true → p key' = true →
    s.get key = some c → s.get key' = some c' → t.get key = some d → t.get key' = some d' →
    (c.ref = c'.ref ↔ d.ref = d'.ref)
  order : s.slots.keys.filter p = t.slots.keys.filter p

section SameView

variable {p : String → Bool} {m : Manager} {s t : Store}

theorem sameView_refl (h : Apart p s) : SameView p s s := by
  refine ⟨h, h, fun _ _ => rfl, ?_, rfl⟩
  intro key key' c c' d d' _ _ h1 h2 h3 h4
  rw [Option.some.inj (h1.symm.trans h3), Option.some.inj (h2.symm.trans h4)]

theorem SameView.symm (h : SameView p s t) : SameView p t s := by
  refine ⟨h.right, h.left, fun key hp => (h.values key hp).symm, ?_, h.order.symm⟩
  intro key key' c c' d d' hp hp' h1 h2 h3 h4
  exact (h.aliases key key' d d' c c' hp hp' h3 h4 h1 h2).symm

/-- A change that does not show on `p`. -/
theorem SameView.hidden_left (h : SameView p s t) {s' : Store} (ha : Apart p s')
    (hget : ∀ key, p key = true → s'.get key = s.get key)
    (hkeys : s'.slots.keys.filter p = s.slots.keys.filter p) : SameView p s' t := by
  refine ⟨ha, h.right, ?_, ?_, hkeys.trans h.order⟩
  · intro key hp
    rw [hget key hp]
    exact h.values key hp
  · intro key key' c c' d d' hp hp' h1 h2 h3 h4
    rw [hget key hp] at h1
    rw [hget key' hp'] at h2
    exact h.aliases key key' c c' d d' hp hp' h1 h2 h3 h4

theorem ne_of_sides {key key' : String} (hk : p key = false) (hk' : p key' = true) : key ≠ key' := by
  rintro rfl
  rw [hk] at hk'
  cases hk'

/-- A write outside `p` does not show. -/
theorem SameView.put_left (h : SameView p s t) {key : String} (hk : p key = false)
    (v : Cacheable) : SameView p (s.put key v) t := by
  refine h.hidden_left (h.left.put key v) (fun key' hp => ?_) ?_
  · rw [Store.get_put, if_neg (ne_of_sides hk hp)]
  · show (s.slots.insert key _).keys.filter p = _
    rw [OrdMap.keys_insert]
    split
    · rfl
    · simp [hk]

theorem SameView.remove_left (h : SameView p s t) {key : String} (hk : p key = false) :
    SameView p (s.remove key) t := by
  refine h.hidden_left (h.left.remove key) (fun key' hp => ?_) ?_
  · rw [Store.get_remove, if_neg (ne_of_sides hk hp)]
  · show (s.slots.erase key).keys.filter p = _
    rw [OrdMap.keys_erase, List.filter_filter]
    refine List.filter_congr fun y _ => ?_
    by_cases hy : y = key
    · simp [hy, hk]
    · simp [hy]

/-- The key order after binding a key of the side in both stores. -/
theorem SameView.order_insert (h : SameView p s t) {key : String} (hk : p key = true)
    (c d : Cell) :
    (s.slots.insert key c).keys.filter p = (t.slots.insert key d).keys.filter p := by
  have hmem : key ∈ s.slots.keys ↔ key ∈ t.slots.keys := by
    have := congrArg (fun l => key ∈ l) h.order
    simpa [hk] using this
  rw [OrdMap.keys_insert, OrdMap.keys_insert]
  by_cases hs : key ∈ s.slots.keys
  · rw [if_pos hs, if_pos (hmem.mp hs), h.order]
  · rw [if_neg hs, if_neg (fun ht => hs (hmem.mpr ht)), List.filter_append, List.filter_append,
      h.order]

/-- Storing a new object under a key of the side in both. -/
theorem SameView.put (h : SameView p s t) {key : String} (hk : p key = true) (v : Cacheable) :
    SameView p (s.put key v) (t.put key v) := by
  have hfresh : ∀ {u : Store}, u.Valid → ∀ {key' : String} {c : Cell}, u.get key' = some c →
      u.next ≠ c.ref := fun hu _ _ hc => Nat.ne_of_gt (hu.fresh _ (Store.get_mem hc))
  refine ⟨h.left.put key v, h.right.put key v, ?_, ?_, h.order_insert hk _ _⟩
  · intro key' hp
    rw [Store.get_put, Store.get_put]
    split
    · rfl
    · exact h.values key' hp
  · intro key₁ key₂ c c' d d' hp hp' h1 h2 h3 h4
    rw [Store.get_put] at h1 h2 h3 h4
    by_cases e1 : key = key₁ <;> by_cases e2 : key = key₂
    · rw [if_pos e1, Option.some.injEq] at h1 h3
      rw [if_pos e2, Option.some.injEq] at h2 h4
      rw [← h1, ← h2, ← h3, ← h4]
      exact iff_of_true rfl rfl
    · rw [if_pos e1, Option.some.injEq] at h1 h3
      rw [if_neg e2] at h2 h4
      rw [← h1, ← h3]
      exact iff_of_false (hfresh h.left.valid h2) (hfresh h.right.valid h4)
    · rw [if_neg e1] at h1 h3
      rw [if_pos e2, Option.some.injEq] at h2 h4
      rw [← h2, ← h4]
      exact iff_of_false (hfresh h.left.valid h1).symm (hfresh h.right.valid h3).symm
    · rw [if_neg e1] at h1 h3
      rw [if_neg e2] at h2 h4
      exact h.aliases _ _ _ _ _ _ hp hp' h1 h2 h3 h4

theorem SameView.remove (h : SameView p s t) (key : String) :
    SameView p (s.remove key) (t.remove key) := by
  refine ⟨h.left.remove key, h.right.remove key, ?_, ?_, ?_⟩
  · intro key' hp
    rw [Store.get_remove, Store.get_remove]
    split
    · rfl
    · exact h.values key' hp
  · intro key₁ key₂ c c' d d' hp hp' h1 h2 h3 h4
    rw [Store.get_remove] at h1 h2 h3 h4
    by_cases e1 : key = key₁
    · rw [if_pos e1] at h1
      cases h1
    · by_cases e2 : key = key₂
      · rw [if_pos e2] at h2
        cases h2
      · rw [if_neg e1] at h1 h3
        rw [if_neg e2] at h2 h4
        exact h.aliases _ _ _ _ _ _ hp hp' h1 h2 h3 h4
  · show (s.slots.erase key).keys.filter p = (t.slots.erase key).keys.filter p
    rw [OrdMap.keys_erase, OrdMap.keys_erase]
    have hcomm : ∀ l : List String, (l.filter (fun k' => decide (k' ≠ key))).filter p =
        (l.filter p).filter (fun k' => decide (k' ≠ key)) := by
      intro l
      rw [List.filter_filter, List.filter_filter]
      exact List.filter_congr fun y _ => Bool.and_comm ..
    rw [hcomm, hcomm, h.order]

/-- Stripping outside `p` does not show: neither the object nor the key is on
that side. -/
theorem SameView.strip_left (h : SameView p s t) {key key' : String} {c : Cell}
    (hc : s.get key' = some c) (hk' : p key' = false) (hk : p key = false)
    (w : WrappedCacheEntry) : SameView p (m.stripUnder key c w s) t := by
  have ha : Apart p (m.stripUnder key c w s) := h.left.stripUnder hc (by rw [hk, hk']) w
  unfold Manager.stripUnder at ha ⊢
  split at ha
  next hby =>
    rw [if_pos hby]
    refine h.hidden_left ha (fun key₁ hp => ?_) ?_
    · rw [Store.get_bind, if_neg (ne_of_sides hk hp), Store.get_assign]
      cases hc₁ : s.get key₁ with
      | none => rfl
      | some c₁ =>
        have hr : c₁.ref ≠ c.ref := h.left.ref_ne hc₁ hc (by rw [hp, hk']; simp)
        rw [Option.map_some, if_neg hr]
    · show ((s.assign c.ref (.wrapped w.strip)).slots.insert key _).keys.filter p = _
      rw [OrdMap.keys_insert, Store.keys_assign]
      split
      · rfl
      · simp [hk]
  next hby =>
    rw [if_neg hby]
    exact h.put_left hk _

/-- The cell shown by a key of the side after stripping the object found under
`key'`: the stripped one for `key` and its aliases, else the old one. -/
theorem get_strip_byReference (key key₁ : String) (c : Cell) (w : WrappedCacheEntry) :
    ((s.assign c.ref (.wrapped w.strip)).bind key ⟨c.ref, .wrapped w.strip⟩).get key₁ =
      if key = key₁ then some ⟨c.ref, .wrapped w.strip⟩
      else (s.get key₁).map (fun c₁ => if c₁.ref = c.ref then ⟨c.ref, .wrapped w.strip⟩ else c₁) := by
  rw [Store.get_bind, Store.get_assign]

/-- Stripping on the side, in both stores: aliases are the same in both, so the
same keys show the stripped entry. -/
theorem SameView.strip (h : SameView p s t) {key key' : String} {c d : Cell}
    (hk' : p key' = true) (hk : p key = true) (hc : s.get key' = some c)
    (hd : t.get key' = some d) (w : WrappedCacheEntry) :
    SameView p (m.stripUnder key c w s) (m.stripUnder key d w t) := by
  have hl : Apart p (m.stripUnder key c w s) := h.left.stripUnder hc (by rw [hk, hk']) w
  have hr : Apart p (m.stripUnder key d w t) := h.right.stripUnder hd (by rw [hk, hk']) w
  unfold Manager.stripUnder at hl hr ⊢
  cases hby : m.byReference with
  | false =>
    simp only [Bool.false_eq_true, if_false]
    exact h.put hk _
  | true =>
    simp only [hby, if_true] at hl hr ⊢
    -- every key of the side shows, in both stores, the object some key showed before
    have hback : ∀ key₁ c₁ d₁, p key₁ = true →
        ((s.assign c.ref (.wrapped w.strip)).bind key ⟨c.ref, .wrapped w.strip⟩).get key₁ = some c₁ →
        ((t.assign d.ref (.wrapped w.strip)).bind key ⟨d.ref, .wrapped w.strip⟩).get key₁ = some d₁ →
        ∃ key₀ c₀ d₀, p key₀ = true ∧ s.get key₀ = some c₀ ∧ t.get key₀ = some d₀ ∧
          c₁.ref = c₀.ref ∧ d₁.ref = d₀.ref := by
      intro key₁ c₁ d₁ hp h1 h2
      rw [get_strip_byReference] at h1 h2
      by_cases e : key = key₁
      · rw [if_pos e, Option.some.injEq] at h1 h2
        exact ⟨key', c, d, hk', hc, hd, by rw [← h1], by rw [← h2]⟩
      · rw [if_neg e] at h1 h2
        obtain ⟨c₀, hc₀, rfl⟩ := Option.map_eq_some_iff.mp h1
        obtain ⟨d₀, hd₀, rfl⟩ := Option.map_eq_some_iff.mp h2
        refine ⟨key₁, c₀, d₀, hp, hc₀, hd₀, ?_, ?_⟩
        · split
          next he => exact he.symm
          next => rfl
        · split
          next he => exact he.symm
          next => rfl
    refine ⟨hl, hr, ?_, ?_, ?_⟩
    · intro key₁ hp
      rw [get_strip_byReference, get_strip_byReference]
      by_cases e : key = key₁
      · rw [if_pos e, if_pos e]
        rfl
      · rw [if_neg e, if_neg e]
        have hv := h.values key₁ hp
        cases hc₁ : s.get key₁ with
        | none =>
          rw [hc₁] at hv
          rw [Option.map_eq_none_iff.mp hv.symm]
          rfl
        | some c₁ =>
          rw [hc₁] at hv
          obtain ⟨d₁, hd₁, hval⟩ := Option.map_eq_some_iff.mp hv.symm
          have hal := h.aliases key₁ key' c₁ c d₁ d hp hk' hc₁ hc hd₁ hd
          rw [hd₁, Option.map_some, Option.map_some, Option.map_some, Option.map_some]
          by_cases hr₁ : c₁.ref = c.ref
          · rw [if_pos hr₁, if_pos (hal.mp hr₁)]
          · rw [if_neg hr₁, if_neg (fun hh => hr₁ (hal.mpr hh)), hval]
    · intro key₁ key₂ c₁ c₂ d₁ d₂ hp hp' h1 h2 h3 h4
      obtain ⟨k₁, a₁, b₁, hpk₁, ha₁, hb₁, hra₁, hrb₁⟩ := hback key₁ c₁ d₁ hp h1 h3
      obtain ⟨k₂, a₂, b₂, hpk₂, ha₂, hb₂, hra₂, hrb₂⟩ := hback key₂ c₂ d₂ hp' h2 h4
      rw [hra₁, hra₂, hrb₁, hrb₂]
      exact h.aliases k₁ k₂ a₁ a₂ b₁ b₂ hpk₁ hpk₂ ha₁ ha₂ hb₁ hb₂
    · have hord : (s.assign c.ref (.wrapped w.strip)).slots.keys.filter p =
          (t.assign d.ref (.wrapped w.strip)).slots.keys.filter p := by
        rw [Store.keys_assign, Store.keys_assign, h.order]
      have hmem : key ∈ s.slots.keys ↔ key ∈ t.slots.keys := by
        have := congrArg (fun l => key ∈ l) h.order
        simpa [hk] using this
      show (OrdMap.insert _ key _).keys.filter p = (OrdMap.insert _ key _).keys.filter p
      rw [OrdMap.keys_insert, OrdMap.keys_insert, Store.keys_assign, Store.keys_assign]
      by_cases hs : key ∈ s.slots.keys
      · rw [if_pos hs, if_pos (hmem.mp hs), h.order]
      · rw [if_neg hs, if_neg (fun ht => hs (hmem.mpr ht)), List.filter_append,
          List.filter_append, h.order]

end SameView

/-! ## Managers that agree on one side -/

/-- The stores show the same on `p`, and list the same keys of `p`. -/
structure Agree (p : String → Bool) (m : Manager) (s t : Store) : Prop extends SameView p s t where
  listing : ∀ cid, m.keyManifest = some cid → SameListing p (listed cid s) (listed cid t)

section Agree

variable {p : String → Bool} {m : Manager} {s t : Store}

/-- An object found on the agreed side has a counterpart with the same value. -/
theorem Agree.counterpart (h : Agree p m s t) {key : String} (hp : p key = true) {c : Cell}
    (hc : s.get key = some c) : ∃ d, t.get key = some d ∧ d.value = c.value := by
  have hv := h.values key hp
  rw [hc] at hv
  exact Option.map_eq_some_iff.mp hv.symm

theorem Agree.get_none (h : Agree p m s t) {key : String} (hp : p key = true)
    (hc : s.get key = none) : t.get key = none := by
  have hv := h.values key hp
  rw [hc] at hv
  exact Option.map_eq_none_iff.mp hv.symm

theorem Agree.keyList (h : Agree p m s t) :
    (keyList m s).filter p = (keyList m t).filter p := by
  unfold Cache.keyList
  cases hm : m.keyManifest with
  | none => exact h.order
  | some cid => exact (h.listing cid hm).filtered

/-- A lookup whose matches are all on the agreed side goes the same way. -/
theorem Agree.match_eq (h : Agree p m s t) {k : CacheKey}
    (hk : ∀ key, matchesKey k key = true → p key = true) :
    matchExistingCacheKey k (Cache.keyList m s) = matchExistingCacheKey k (Cache.keyList m t) := by
  have hsub : ∀ keys : List String,
      keys.filter (matchesKey k) = (keys.filter p).filter (matchesKey k) := by
    intro keys
    rw [List.filter_filter]
    refine List.filter_congr fun key _ => ?_
    cases hmk : matchesKey k key with
    | false => rfl
    | true => rw [hk key hmk]; rfl
  unfold matchExistingCacheKey
  rw [hsub, hsub (Cache.keyList m t), h.keyList]

/-- Both stores find objects of the same value under one key of the side. -/
theorem Agree.find (h : Agree p m s t) {k : CacheKey} (hown : p k.toKey = true)
    (hk : ∀ key, matchesKey k key = true → p key = true) :
    (m.findEntry k s = none ∧ m.findEntry k t = none) ∨
    ∃ key c d, p key = true ∧ s.get key = some c ∧ t.get key = some d ∧
      m.findEntry k s = some c ∧ m.findEntry k t = some d ∧ d.value = c.value := by
  rw [findEntry_eq, findEntry_eq]
  cases hc : s.get k.toKey with
  | some c =>
    obtain ⟨d, hd, hv⟩ := h.counterpart hown hc
    rw [hd]
    exact Or.inr ⟨k.toKey, c, d, hown, hc, hd, rfl, rfl, hv⟩
  | none =>
    rw [h.get_none hown hc]
    dsimp only
    rw [h.match_eq hk]
    cases hmatch : matchExistingCacheKey k (Cache.keyList m t) with
    | none => exact Or.inl ⟨rfl, rfl⟩
    | some key =>
      have hpk := hk key (matchExistingCacheKey_some hmatch).2
      rw [Option.bind_some, Option.bind_some]
      cases hck : s.get key with
      | none => exact Or.inl ⟨rfl, h.get_none hpk hck⟩
      | some c =>
        obtain ⟨d, hd, hv⟩ := h.counterpart hpk hck
        exact Or.inr ⟨key, c, d, hpk, hck, hd, rfl, hd, hv⟩

/-! ## Operations -/

/-- The manager's manifest, if any, is under a key outside `p`. -/
def ManifestOutside (p : String → Bool) (m : Manager) : Prop :=
  ∀ cid, m.keyManifest = some cid → p (manifestKey cid) = false

/-- Stripping an entry leaves the listing alone. -/
theorem listed_stripUnder {cid key key' : String} {c : Cell} {w : WrappedCacheEntry} (hs : s.Valid)
    (hne : key ≠ manifestKey cid) (hc : s.get key' = some c) (hw : c.value = .wrapped w) :
    listed cid (m.stripUnder key c w s) = listed cid s := by
  unfold Manager.stripUnder
  split
  · unfold listed manifestKeys
    rw [Store.get_bind, if_neg hne, Store.get_assign]
    cases hman : s.get (manifestKey cid) with
    | none => rfl
    | some c' =>
      rw [Option.map_some]
      split
      next hr =>
        -- the same object holds a token entry, before and after
        have hv : c'.value = c.value := hs.shared _ (Store.get_mem hman) _ (Store.get_mem hc) hr
        simp [hv, hw, Cacheable.keys]
      next => rfl
  · exact listed_congr (by rw [Store.get_put, if_neg hne])

/-- What `set` does to the listing, for a key that is not the manifest's. -/
theorem listed_set {cid : String} (hm : m.keyManifest = some cid) {e : CacheEntry}
    (hne : (CacheKey.ofEntry e).toKey ≠ manifestKey cid) (now : Js.Num) (s : Store) :
    listed cid (m.set e now s) = setAdd (setFrom (listed cid s)) (CacheKey.ofEntry e).toKey := by
  unfold Manager.set
  simp only [hm]
  rw [listed_manifestAdd, listed_congr]
  rw [Store.get_put, if_neg hne]

/-- What dropping an expired entry does to it. -/
theorem listed_dropUnder {cid key : String} (hm : m.keyManifest = some cid)
    (hne : key ≠ manifestKey cid) (s : Store) :
    listed cid (m.dropUnder key s) = setDelete (setFrom (listed cid s)) key := by
  unfold Manager.dropUnder
  simp only [hm]
  rw [listed_manifestRemove, listed_congr]
  rw [Store.get_remove, if_neg hne]

/-- The manifest's own writes do not show outside the listing. -/
theorem SameView.manifestAdd_left (h : SameView p s t) {cid : String}
    (hout : p (manifestKey cid) = false) (key : String) : SameView p (manifestAdd cid key s) t :=
  h.put_left hout _

theorem SameView.manifestRemove_left (h : SameView p s t) {cid : String}
    (hout : p (manifestKey cid) = false) (key : String) :
    SameView p (manifestRemove cid key s) t := by
  unfold manifestRemove
  split
  · exact h
  · split
    · exact h.remove_left hout
    · exact h.put_left hout _

/-- `set` for a key of the side, in both stores. -/
theorem Agree.set (h : Agree p m s t) (hout : ManifestOutside p m) {e : CacheEntry}
    (hown : p (CacheKey.ofEntry e).toKey = true) (now : Js.Num) :
    Agree p m (m.set e now s) (m.set e now t) := by
  have hview := h.toSameView.put hown (.wrapped (wrapCacheEntry e now))
  refine ⟨?_, ?_⟩
  · unfold Manager.set
    cases hm : m.keyManifest with
    | none => exact hview
    | some cid =>
      have hman := hout cid hm
      exact ((hview.manifestAdd_left hman _).symm.manifestAdd_left hman _).symm
  · intro cid hm
    have hne := (ne_of_sides (hout cid hm) hown).symm
    have hl := h.listing cid hm
    rw [listed_set hm hne, listed_set hm hne, setFrom_eq_self hl.left, setFrom_eq_self hl.right]
    exact hl.add hown

/-- `set` for a key outside, in the left store only. -/
theorem Agree.set_left (h : Agree p m s t) (hout : ManifestOutside p m) {e : CacheEntry}
    (hother : p (CacheKey.ofEntry e).toKey = false)
    (hne : ∀ cid, m.keyManifest = some cid → (CacheKey.ofEntry e).toKey ≠ manifestKey cid)
    (now : Js.Num) : Agree p m (m.set e now s) t := by
  have hview := h.toSameView.put_left hother (.wrapped (wrapCacheEntry e now))
  refine ⟨?_, ?_⟩
  · unfold Manager.set
    cases hm : m.keyManifest with
    | none => exact hview
    | some cid => exact hview.manifestAdd_left (hout cid hm) _
  · intro cid hm
    have hl := h.listing cid hm
    rw [listed_set hm (hne cid hm), setFrom_eq_self hl.left]
    exact hl.add_left hother

/-- Dropping under a key of the side, in both stores. -/
theorem Agree.dropUnder (h : Agree p m s t) (hout : ManifestOutside p m) {key : String}
    (hown : p key = true) : Agree p m (m.dropUnder key s) (m.dropUnder key t) := by
  have hview := h.toSameView.remove key
  refine ⟨?_, ?_⟩
  · unfold Manager.dropUnder
    cases hm : m.keyManifest with
    | none => exact hview
    | some cid =>
      have hman := hout cid hm
      exact ((hview.manifestRemove_left hman _).symm.manifestRemove_left hman _).symm
  · intro cid hm
    have hne := (ne_of_sides (hout cid hm) hown).symm
    have hl := h.listing cid hm
    rw [listed_dropUnder hm hne, listed_dropUnder hm hne, setFrom_eq_self hl.left,
      setFrom_eq_self hl.right]
    exact hl.delete key

/-- Dropping under a key outside, in the left store only. -/
theorem Agree.dropUnder_left (h : Agree p m s t) (hout : ManifestOutside p m) {key : String}
    (hother : p key = false) (hne : ∀ cid, m.keyManifest = some cid → key ≠ manifestKey cid) :
    Agree p m (m.dropUnder key s) t := by
  have hview := h.toSameView.remove_left hother
  refine ⟨?_, ?_⟩
  · unfold Manager.dropUnder
    cases hm : m.keyManifest with
    | none => exact hview
    | some cid => exact hview.manifestRemove_left (hout cid hm) _
  · intro cid hm
    have hl := h.listing cid hm
    rw [listed_dropUnder hm (hne cid hm), setFrom_eq_self hl.left]
    exact hl.delete_left hother

/-- Stripping under a key of the side, in both stores. -/
theorem Agree.stripUnder (h : Agree p m s t) (hout : ManifestOutside p m) {key key' : String}
    {c d : Cell} {w : WrappedCacheEntry} (hk : p key = true) (hk' : p key' = true)
    (hc : s.get key' = some c) (hd : t.get key' = some d) (hcw : c.value = .wrapped w)
    (hdw : d.value = .wrapped w) :
    Agree p m (m.stripUnder key c w s) (m.stripUnder key d w t) := by
  refine ⟨h.toSameView.strip hk' hk hc hd w, fun cid hm => ?_⟩
  have hne := (ne_of_sides (hout cid hm) hk).symm
  rw [listed_stripUnder h.left.valid hne hc hcw, listed_stripUnder h.right.valid hne hd hdw]
  exact h.listing cid hm

/-- Stripping under a key outside, in the left store only. -/
theorem Agree.stripUnder_left (h : Agree p m s t) {key key' : String} {c : Cell}
    {w : WrappedCacheEntry} (hk : p key = false) (hk' : p key' = false)
    (hne : ∀ cid, m.keyManifest = some cid → key ≠ manifestKey cid)
    (hc : s.get key' = some c) (hcw : c.value = .wrapped w) :
    Agree p m (m.stripUnder key c w s) t := by
  refine ⟨h.toSameView.strip_left hc hk' hk w, fun cid hm => ?_⟩
  rw [listed_stripUnder h.left.valid (hne cid hm) hc hcw]
  exact h.listing cid hm

/-- `get` for a key of the side: the answers are the same and the stores still
agree. -/
theorem Agree.get (h : Agree p m s t) (hout : ManifestOutside p m) {k : CacheKey}
    (hown : p k.toKey = true) (hk : ∀ key, matchesKey k key = true → p key = true)
    (adj now : Js.Num) :
    Agree p m (m.get k adj now s).1 (m.get k adj now t).1 ∧
      (m.get k adj now s).2 = (m.get k adj now t).2 := by
  unfold Manager.get
  rcases h.find hown hk with ⟨hs, ht⟩ | ⟨key, c, d, hp, hc, hd, hs, ht, hval⟩
  · rw [hs, ht]
    exact ⟨h, rfl⟩
  · rw [hs, ht]
    dsimp only
    rw [hval]
    cases hw : c.value with
    | manifest keys => exact ⟨h, rfl⟩
    | wrapped w =>
      dsimp only
      split
      · split
        · exact ⟨h.stripUnder hout hown hp hc hd hw (hval.trans hw), rfl⟩
        · exact ⟨h.dropUnder hout hown, rfl⟩
      · exact ⟨h, rfl⟩

/-- `get` for a key outside, in the left store only. -/
theorem Agree.get_left (h : Agree p m s t) (hout : ManifestOutside p m) {k : CacheKey}
    (hother : p k.toKey = false) (hk : ∀ key, matchesKey k key = true → p key = false)
    (hne : ∀ cid, m.keyManifest = some cid → k.toKey ≠ manifestKey cid) (adj now : Js.Num) :
    Agree p m (m.get k adj now s).1 t := by
  rcases m.get_cases k adj now s with
    hg | ⟨c, w, hfind, hw, ⟨-, hg⟩ | ⟨-, -, hg⟩ | ⟨-, -, hg⟩⟩
  · rw [hg]; exact h
  · rw [hg]; exact h
  · rw [hg]
    obtain ⟨key, hc, hkey⟩ := m.findEntry_mem hfind
    have hside : p key = false := by
      rcases hkey with rfl | hmatch
      · exact hother
      · exact hk key hmatch
    exact h.stripUnder_left hother hside hne hc hw
  · rw [hg]
    exact h.dropUnder_left hout hother hne

end Agree

/-! ## Runs -/

/-- The operation is for the client and audience. -/
def Op.isFor (client audience : String) : Op → Bool
  | .set e _ => (CacheKey.ofEntry e).isFor client audience
  | .get k _ _ => k.isFor client audience
  | .clear _ => false

/-- A `set` or `get` whose key is readable. -/
def Op.Readable : Op → Prop
  | .set e _ => (CacheKey.ofEntry e).WellFormed
  | .get k _ _ => k.WellFormed
  | .clear _ => False

/-- A readable key is not the manifest's: it has an audience. -/
theorem toKey_ne_manifestKey {k : CacheKey} (hk : k.WellFormed) {cid : String}
    (hcid : Js.includes cid "::" = false) : k.toKey ≠ manifestKey cid := by
  intro he
  have h1 := @ofPair_toKey k.client_id k.audience k hk
  rw [he, ofPair_manifestKey hcid] at h1
  simp [CacheKey.isFor] at h1

/-- **Isolation.** In a run of readable `set`s and `get`s, deleting the
operations for other pairs changes no answer of the remaining ones. -/
theorem trace_isFor (m : Manager) (hm : ∀ cid, m.keyManifest = some cid → FieldOk cid)
    (client audience : String) (ops : List Op) (hops : ∀ op ∈ ops, op.Readable) :
    (m.machine.trace {} ops).filter (fun x => x.1.isFor client audience) =
      m.machine.trace {} (ops.filter (Op.isFor client audience)) := by
  have hout : ManifestOutside (ofPair client audience) m :=
    fun cid hcid => ofPair_manifestKey (hm cid hcid).1
  have hne : ∀ {k : CacheKey}, k.WellFormed → ∀ cid, m.keyManifest = some cid →
      k.toKey ≠ manifestKey cid := fun hk cid hcid => toKey_ne_manifestKey hk (hm cid hcid).1
  refine Machine.trace_filter (R := Agree (ofPair client audience) m) ?_ ?_ ops {} {} ?_ hops
  · intro s t op hR hok hp
    cases op with
    | set e now => exact ⟨hR.set hout ((ofPair_toKey hok).trans hp) now, rfl⟩
    | get k adj now =>
      exact hR.get hout ((ofPair_toKey hok).trans hp)
        (fun key hmatch => (ofPair_of_matches hmatch).trans hp) adj now
    | clear clientId => exact hok.elim
  · intro s t op hR hok hp
    cases op with
    | set e now => exact hR.set_left hout ((ofPair_toKey hok).trans hp) (hne hok) now
    | get k adj now =>
      exact hR.get_left hout ((ofPair_toKey hok).trans hp)
        (fun key hmatch => (ofPair_of_matches hmatch).trans hp) (hne hok) adj now
    | clear clientId => exact hok.elim
  · refine ⟨sameView_refl apart_empty, fun cid _ => ?_⟩
    exact ⟨List.nodup_nil, List.nodup_nil, rfl⟩

/-- A run with a shared manifest, in which both audiences have an expired entry
for the same scope. -/
def twoAudiences : List Op :=
  [.set (sampleEntry "a" 60 (.str "r")) (.fin 0),
   .set { sampleEntry "a" 60 .undefined with audience := "other" } (.fin 0),
   .get { sampleKey "a" with audience := "other" } (.fin 0) (.fin 65000),
   .get (sampleKey "a") (.fin 0) (.fin 65000)]

theorem trace_isFor_twoAudiences :
    (twoAudiences.filter (Op.isFor "client" "api")).length = 2 ∧
      ((⟨true, some "client"⟩ : Manager).machine.trace {} twoAudiences).filter
          (fun x => x.1.isFor "client" "api") =
        (⟨true, some "client"⟩ : Manager).machine.trace {}
          (twoAudiences.filter (Op.isFor "client" "api")) := by
  have hwf : ∀ audience, FieldOk audience →
      ({ sampleKey "a" with audience := audience } : CacheKey).WellFormed :=
    fun audience ha => ⟨rfl, show FieldOk "client" by decide, ha,
      show Js.includes "a" "::" = false by decide⟩
  refine ⟨by decide, trace_isFor _ ?_ _ _ _ ?_⟩
  · intro cid hcid
    obtain rfl : "client" = cid := Option.some.inj hcid
    decide
  · intro op hop
    simp only [twoAudiences, List.mem_cons, List.not_mem_nil, or_false] at hop
    rcases hop with rfl | rfl | rfl | rfl
    · exact hwf "api" (by decide)
    · exact hwf "other" (by decide)
    · exact hwf "other" (by decide)
    · exact hwf "api" (by decide)

end AuthokSpa.Cache
