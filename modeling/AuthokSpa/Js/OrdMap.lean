import Mathlib.Data.List.Nodup

/-!
# Insertion-ordered maps

The one mutable container of the language: a plain object used as a dictionary,
a `Map`, `localStorage`. Rebinding a key keeps its place, a new key goes to the
end, deleting and rebinding moves it to the end. A map is its list of bindings;
keys are expected to be distinct (`KeysNodup`), which every operation keeps.

Besides reading through a write, the rules say how the *order* behaves: a
restriction of the map to some keys (`restrict`) commutes with a write of a
kept key and ignores a write of a dropped one. Two-run arguments rest on these.
-/

namespace Js

/-- Bindings in insertion order. -/
abbrev OrdMap (κ ν : Type) := List (κ × ν)

namespace OrdMap

variable {κ ν : Type}

/-- The bound keys, in order. -/
def keys (m : OrdMap κ ν) : List κ := m.map Prod.fst

/-- The bindings of the keys in `p`. -/
def restrict (p : κ → Bool) (m : OrdMap κ ν) : OrdMap κ ν := m.filter (fun b => p b.1)

/-- No key is bound twice. -/
def KeysNodup (m : OrdMap κ ν) : Prop := (keys m).Nodup

@[simp] theorem keys_cons (b : κ × ν) (m : OrdMap κ ν) : keys (b :: m) = b.1 :: keys m := rfl

theorem mem_keys_of_mem {m : OrdMap κ ν} {b : κ × ν} (h : b ∈ m) : b.1 ∈ keys m :=
  List.mem_map_of_mem h

theorem keys_restrict (p : κ → Bool) (m : OrdMap κ ν) :
    keys (restrict p m) = (keys m).filter p := by
  unfold keys restrict
  rw [List.filter_map]
  rfl

variable [DecidableEq κ]

/-- The value bound to a key. -/
def find : OrdMap κ ν → κ → Option ν
  | [], _ => none
  | (k', v) :: m, k => if k' = k then some v else find m k

/-- Binding a key: in place when it is bound, else at the end. -/
def insert : OrdMap κ ν → κ → ν → OrdMap κ ν
  | [], k, v => [(k, v)]
  | (k', v') :: m, k, v => if k' = k then (k, v) :: m else (k', v') :: insert m k v

/-- Unbinding a key. -/
def erase (m : OrdMap κ ν) (k : κ) : OrdMap κ ν := m.filter (fun b => decide (b.1 ≠ k))

@[simp] theorem find_nil (k : κ) : find ([] : OrdMap κ ν) k = none := rfl

theorem find_cons (b : κ × ν) (m : OrdMap κ ν) (k : κ) :
    find (b :: m) k = if b.1 = k then some b.2 else find m k := rfl

theorem insert_cons (b : κ × ν) (m : OrdMap κ ν) (k : κ) (v : ν) :
    insert (b :: m) k v = if b.1 = k then (k, v) :: m else b :: insert m k v := rfl

theorem find_insert (k k' : κ) (v : ν) :
    ∀ m : OrdMap κ ν, find (insert m k v) k' = if k = k' then some v else find m k'
  | [] => rfl
  | (kb, vb) :: m => by
    unfold insert
    by_cases hk : kb = k
    · subst hk
      rw [if_pos rfl, find_cons, find_cons]
      by_cases h : kb = k' <;> simp [h]
    · rw [if_neg hk, find_cons, find_cons, find_insert k k' v m]
      by_cases h : kb = k'
      · subst h
        simp [Ne.symm hk]
      · simp [h]

theorem find_erase (k k' : κ) :
    ∀ m : OrdMap κ ν, find (erase m k) k' = if k = k' then none else find m k'
  | [] => by simp [erase]
  | (kb, vb) :: m => by
    have ih := find_erase k k' m
    unfold erase at ih ⊢
    rw [List.filter_cons, find_cons]
    by_cases hk : kb = k
    · subst hk
      by_cases h : kb = k'
      · simpa [h] using ih
      · simpa [h] using ih
    · by_cases h : kb = k'
      · subst h
        simp [hk, Ne.symm hk, find_cons]
      · simpa [hk, h, find_cons] using ih

theorem find_mem {m : OrdMap κ ν} {k : κ} {v : ν} (h : find m k = some v) : (k, v) ∈ m := by
  induction m with
  | nil => simp at h
  | cons b m ih =>
    rw [find_cons] at h
    split at h
    · next hb =>
      obtain rfl : b.2 = v := by simpa using h
      exact hb ▸ List.mem_cons_self ..
    · exact List.mem_cons_of_mem _ (ih h)

theorem find_isSome_iff {m : OrdMap κ ν} {k : κ} : (find m k).isSome ↔ k ∈ keys m := by
  induction m with
  | nil => simp [keys]
  | cons b m ih =>
    rw [find_cons]
    by_cases h : b.1 = k
    · simp [h, keys]
    · rw [if_neg h, ih]
      simp [keys, Ne.symm h]

theorem find_eq_none_iff {m : OrdMap κ ν} {k : κ} : find m k = none ↔ k ∉ keys m := by
  rw [← find_isSome_iff, Option.not_isSome_iff_eq_none]

/-- With distinct keys, membership is lookup. -/
theorem find_of_mem {m : OrdMap κ ν} (hm : KeysNodup m) {b : κ × ν} (h : b ∈ m) :
    find m b.1 = some b.2 := by
  induction m with
  | nil => simp at h
  | cons c m ih =>
    unfold KeysNodup at hm ih
    rw [keys, List.map_cons, List.nodup_cons] at hm
    rw [find_cons]
    rcases List.mem_cons.mp h with rfl | h'
    · rw [if_pos rfl]
    · have hne : c.1 ≠ b.1 := fun he => hm.1 (he ▸ mem_keys_of_mem h')
      rw [if_neg hne]
      exact ih hm.2 h'

/-- With distinct keys, the order does not matter to a lookup. -/
theorem find_reverse {m : OrdMap κ ν} (hm : KeysNodup m) (k : κ) :
    find m.reverse k = find m k := by
  have hm' : KeysNodup m.reverse := by
    unfold KeysNodup keys at hm ⊢
    rw [List.map_reverse, List.nodup_reverse]
    exact hm
  cases h : find m k with
  | some v =>
    have hmem : (k, v) ∈ m.reverse := List.mem_reverse.mpr (find_mem h)
    exact find_of_mem hm' hmem
  | none =>
    rw [find_eq_none_iff] at h ⊢
    unfold keys at h ⊢
    rw [List.map_reverse, List.mem_reverse]
    exact h

theorem keys_insert (k : κ) (v : ν) :
    ∀ m : OrdMap κ ν, keys (insert m k v) = if k ∈ keys m then keys m else keys m ++ [k]
  | [] => by simp [insert, keys]
  | (kb, vb) :: m => by
    have ih := keys_insert k v m
    unfold insert
    by_cases hk : kb = k
    · subst hk
      simp [keys]
    · have hmem : k ∈ keys ((kb, vb) :: m) ↔ k ∈ keys m := by simp [Ne.symm hk]
      rw [if_neg hk, keys_cons, ih]
      by_cases hm : k ∈ keys m
      · rw [if_pos hm, if_pos (hmem.mpr hm), keys_cons]
      · rw [if_neg hm, if_neg (fun h => hm (hmem.mp h)), keys_cons, List.cons_append]

theorem keysNodup_insert {m : OrdMap κ ν} (h : KeysNodup m) (k : κ) (v : ν) :
    KeysNodup (insert m k v) := by
  unfold KeysNodup
  rw [keys_insert]
  split
  · exact h
  · next hk => exact List.nodup_append.mpr ⟨h, by simp, fun a ha b hb => by
      obtain rfl : b = k := by simpa using hb
      exact fun he => hk (he ▸ ha)⟩

theorem keys_erase (m : OrdMap κ ν) (k : κ) :
    keys (erase m k) = (keys m).filter (fun k' => decide (k' ≠ k)) := by
  unfold keys erase
  rw [List.filter_map]
  rfl

theorem keysNodup_erase {m : OrdMap κ ν} (h : KeysNodup m) (k : κ) : KeysNodup (erase m k) := by
  unfold KeysNodup
  rw [keys_erase]
  exact h.filter _

/-- A binding after a write is the written one or an old one of another key. -/
theorem mem_insert {m : OrdMap κ ν} (hm : KeysNodup m) {k : κ} {v : ν} {b : κ × ν}
    (h : b ∈ insert m k v) : b = (k, v) ∨ (b ∈ m ∧ b.1 ≠ k) := by
  have hf := find_of_mem (keysNodup_insert hm k v) h
  rw [find_insert] at hf
  split at hf
  · next hk =>
    exact Or.inl (Prod.ext hk.symm (by simpa using hf.symm))
  · next hk => exact Or.inr ⟨find_mem hf, fun he => hk he.symm⟩

theorem mem_erase {m : OrdMap κ ν} {k : κ} {b : κ × ν} : b ∈ erase m k ↔ b ∈ m ∧ b.1 ≠ k := by
  unfold erase
  rw [List.mem_filter, decide_eq_true_eq]

/-- A binding after a write, with no assumption on the keys. -/
theorem mem_of_mem_insert {k : κ} {v : ν} {b : κ × ν} :
    ∀ {m : OrdMap κ ν}, b ∈ insert m k v → b = (k, v) ∨ b ∈ m
  | [], h => Or.inl (List.mem_singleton.mp h)
  | c :: m, h => by
    rw [insert_cons] at h
    split at h
    · rcases List.mem_cons.mp h with rfl | h'
      · exact Or.inl rfl
      · exact Or.inr (List.mem_cons_of_mem _ h')
    · rcases List.mem_cons.mp h with rfl | h'
      · exact Or.inr (List.mem_cons_self ..)
      · rcases mem_of_mem_insert h' with rfl | h''
        · exact Or.inl rfl
        · exact Or.inr (List.mem_cons_of_mem _ h'')

/-! ## Restriction to some of the keys -/

theorem find_restrict_of_pos {p : κ → Bool} {k : κ} (hk : p k = true) :
    ∀ m : OrdMap κ ν, find (restrict p m) k = find m k
  | [] => rfl
  | b :: m => by
    have ih := find_restrict_of_pos hk m
    unfold restrict at ih ⊢
    rw [List.filter_cons, find_cons]
    by_cases hb : b.1 = k
    · have hp : p b.1 = true := hb ▸ hk
      rw [if_pos hp, find_cons, if_pos hb, if_pos hb]
    · rw [if_neg hb, ← ih]
      split
      · rw [find_cons, if_neg hb]
      · rfl

theorem restrict_insert_of_pos {p : κ → Bool} {k : κ} (hk : p k = true) (v : ν) :
    ∀ m : OrdMap κ ν, restrict p (insert m k v) = insert (restrict p m) k v
  | [] => by simp [restrict, insert, hk]
  | b :: m => by
    have ih := restrict_insert_of_pos hk v m
    rw [insert_cons]
    unfold restrict at ih ⊢
    by_cases hb : b.1 = k
    · have hp : p b.1 = true := hb ▸ hk
      rw [if_pos hb, List.filter_cons, if_pos hk, List.filter_cons, if_pos hp, insert_cons,
        if_pos hb]
    · rw [if_neg hb, List.filter_cons, List.filter_cons]
      split
      · rw [ih, insert_cons, if_neg hb]
      · exact ih

theorem restrict_insert_of_neg {p : κ → Bool} {k : κ} (hk : p k = false) (v : ν) :
    ∀ m : OrdMap κ ν, restrict p (insert m k v) = restrict p m
  | [] => by simp [restrict, insert, hk]
  | b :: m => by
    have ih := restrict_insert_of_neg hk v m
    rw [insert_cons]
    unfold restrict at ih ⊢
    by_cases hb : b.1 = k
    · have hp : p b.1 = false := hb ▸ hk
      rw [if_pos hb, List.filter_cons, List.filter_cons]
      simp [hk, hp]
    · rw [if_neg hb, List.filter_cons, List.filter_cons, ih]

end OrdMap

end Js
