import Mathlib.Data.List.Induction
import Mathlib.Data.List.Infix
import Mathlib.Tactic.Tauto

/-!
# `Set`

A `Set` is its elements in insertion order, without repetition: those of the list it
was made of, in the order of their first occurrence (`firstOccurrences_setFrom`).
-/

namespace Js

variable {α : Type} [DecidableEq α]

/-- `set.add(x)`. -/
def setAdd (l : List α) (x : α) : List α := if x ∈ l then l else l ++ [x]

/-- `[...new Set(l)]`. -/
def setFrom (l : List α) : List α := l.foldl setAdd []

/-- `set.delete(x)`. -/
def setDelete (l : List α) (x : α) : List α := l.filter (fun y => decide (y ≠ x))

theorem setAdd_nodup {l : List α} (h : l.Nodup) (x : α) : (setAdd l x).Nodup := by
  unfold setAdd
  split
  · exact h
  · next hx =>
    refine List.nodup_append.mpr ⟨h, by simp, fun a ha b hb => ?_⟩
    obtain rfl : b = x := by simpa using hb
    exact fun he => hx (he ▸ ha)

theorem mem_setAdd {l : List α} {x y : α} : y ∈ setAdd l x ↔ y = x ∨ y ∈ l := by
  unfold setAdd
  split
  · next hx =>
    constructor
    · exact Or.inr
    · rintro (rfl | h)
      · exact hx
      · exact h
  · rw [List.mem_append, List.mem_singleton]
    exact Or.comm

/-- A list without repetition is already a set. -/
theorem setFrom_eq_self {l : List α} (h : l.Nodup) : setFrom l = l := by
  unfold setFrom
  suffices hgen : ∀ (xs acc : List α), (acc ++ xs).Nodup → xs.foldl setAdd acc = acc ++ xs from
    hgen l [] h
  intro xs
  induction xs with
  | nil => intro acc _; simp
  | cons x xs ih =>
    intro acc hn
    have hx : x ∉ acc := fun hmem => by
      rw [List.nodup_append] at hn
      exact hn.2.2 x hmem x (List.mem_cons_self ..) rfl
    rw [List.foldl_cons, setAdd, if_neg hx, ih (acc ++ [x]) (by simpa using hn)]
    simp

/-! ## Repetitions that do not matter

Equality of `setFrom` is the equivalence under which a list of tokens stands
for the set they make, order of first occurrence included. -/

theorem foldl_setAdd_nodup {acc : List α} (h : acc.Nodup) (xs : List α) :
    (xs.foldl setAdd acc).Nodup := by
  induction xs generalizing acc with
  | nil => exact h
  | cons x xs ih => exact ih (setAdd_nodup h x)

theorem setFrom_nodup (xs : List α) : (setFrom xs).Nodup := foldl_setAdd_nodup List.nodup_nil xs

theorem mem_foldl_setAdd {acc xs : List α} {y : α} :
    y ∈ xs.foldl setAdd acc ↔ y ∈ acc ∨ y ∈ xs := by
  induction xs generalizing acc with
  | nil => simp
  | cons x xs ih =>
    rw [List.foldl_cons, ih, mem_setAdd, List.mem_cons]
    tauto

theorem mem_setFrom {xs : List α} {y : α} : y ∈ setFrom xs ↔ y ∈ xs := by
  unfold setFrom
  rw [mem_foldl_setAdd]
  simp

theorem setFrom_setFrom (xs : List α) : setFrom (setFrom xs) = setFrom xs :=
  setFrom_eq_self (setFrom_nodup xs)

theorem setFrom_append (xs ys : List α) : setFrom (xs ++ ys) = ys.foldl setAdd (setFrom xs) := by
  unfold setFrom
  rw [List.foldl_append]

/-- Adding in sequence adds what is new, in the order of the added set. -/
theorem foldl_setAdd (acc ys : List α) :
    ys.foldl setAdd acc = acc ++ (setFrom ys).filter (fun y => decide (y ∉ acc)) := by
  induction ys using List.reverseRecOn with
  | nil => simp [setFrom]
  | append_singleton ys y ih =>
    rw [List.foldl_append, setFrom_append, ih, List.foldl_cons, List.foldl_nil, List.foldl_cons,
      List.foldl_nil]
    unfold setAdd
    by_cases hacc : y ∈ acc
    · rw [if_pos (List.mem_append_left _ hacc)]
      by_cases hys : y ∈ setFrom ys
      · rw [if_pos hys]
      · rw [if_neg hys, List.filter_append]
        simp [hacc]
    · by_cases hys : y ∈ setFrom ys
      · rw [if_pos (List.mem_append_right _ (by simp [hys, hacc])), if_pos hys]
      · rw [if_neg (by simp [hys, hacc]), if_neg hys, List.filter_append]
        simp [hacc]

/-! ## First occurrences -/

/-- The elements of `xs`, each once, in the order in which they occur first. -/
structure FirstOccurrences (xs ys : List α) : Prop where
  nodup : ys.Nodup
  mem : ∀ x, x ∈ ys ↔ x ∈ xs
  ordered : ys.Pairwise fun x y => xs.idxOf x < xs.idxOf y

/-- A set keeps its elements where they came first. -/
theorem firstOccurrences_setFrom (xs : List α) : FirstOccurrences xs (setFrom xs) where
  nodup := setFrom_nodup xs
  mem _ := mem_setFrom
  ordered := by
    induction xs using List.reverseRecOn with
    | nil => exact List.Pairwise.nil
    | append_singleton xs x ih =>
      have hold : (setFrom xs).Pairwise fun y z => (xs ++ [x]).idxOf y < (xs ++ [x]).idxOf z := by
        refine ih.imp_of_mem fun hy hz hlt => ?_
        rwa [List.idxOf_append_of_mem (mem_setFrom.mp hy),
          List.idxOf_append_of_mem (mem_setFrom.mp hz)]
      rw [setFrom_append, List.foldl_cons, List.foldl_nil]
      unfold setAdd
      split
      next => exact hold
      next hnew =>
        -- what is new comes after all that is there
        have hx : x ∉ xs := fun hmem => hnew (mem_setFrom.mpr hmem)
        refine List.pairwise_append.mpr ⟨hold, List.pairwise_singleton .., fun y hy z hz => ?_⟩
        obtain rfl := List.mem_singleton.mp hz
        have hlt := List.idxOf_lt_length_of_mem (mem_setFrom.mp hy)
        rw [List.idxOf_append_of_mem (mem_setFrom.mp hy), List.idxOf_append_of_notMem hx]
        omega

/-! ## Merging -/

theorem setFrom_append_congr {xs xs' ys ys' : List α} (hx : setFrom xs = setFrom xs')
    (hy : setFrom ys = setFrom ys') : setFrom (xs ++ ys) = setFrom (xs' ++ ys') := by
  rw [setFrom_append, setFrom_append, foldl_setAdd, foldl_setAdd, hx, hy]

/-- What is there already adds nothing. -/
theorem setFrom_append_of_subset {xs ys : List α} (h : ∀ y ∈ ys, y ∈ xs) :
    setFrom (xs ++ ys) = setFrom xs := by
  have hnone : (setFrom ys).filter (fun y => decide (y ∉ setFrom xs)) = [] := by
    rw [List.filter_eq_nil_iff]
    intro y hy
    have hin : y ∈ setFrom xs := mem_setFrom.mpr (h y (mem_setFrom.mp hy))
    simp [hin]
  rw [setFrom_append, foldl_setAdd, hnone, List.append_nil]

theorem setFrom_append_setFrom (xs ys : List α) : setFrom (xs ++ setFrom ys) = setFrom (xs ++ ys) :=
  setFrom_append_congr rfl (setFrom_setFrom ys)

/-- A list repeated in front of itself changes nothing. -/
theorem setFrom_append_repeat (xs ys : List α) : setFrom (xs ++ (xs ++ ys)) = setFrom (xs ++ ys) := by
  rw [← List.append_assoc]
  exact setFrom_append_congr (setFrom_append_of_subset fun _ h => h) rfl

/-- Merging parts of a set into it changes nothing: `d` is there already, and so
is `t'` in front of `t`. -/
theorem setFrom_merge {t t' : List α} (ht : setFrom (t' ++ t) = setFrom t) (d s : List α) :
    setFrom (d ++ (t' ++ setFrom (d ++ (t ++ s)))) = setFrom (d ++ (t ++ s)) := by
  have hd : setFrom ((d ++ t') ++ d) = setFrom (d ++ t') :=
    setFrom_append_of_subset fun _ h => List.mem_append_left _ h
  calc setFrom (d ++ (t' ++ setFrom (d ++ (t ++ s))))
      = setFrom ((d ++ t') ++ setFrom (d ++ (t ++ s))) := by rw [List.append_assoc]
    _ = setFrom ((d ++ t') ++ (d ++ (t ++ s))) := setFrom_append_setFrom _ _
    _ = setFrom (((d ++ t') ++ d) ++ (t ++ s)) := by rw [List.append_assoc (d ++ t')]
    _ = setFrom ((d ++ t') ++ (t ++ s)) := setFrom_append_congr hd rfl
    _ = setFrom ((d ++ (t' ++ t)) ++ s) := by simp only [List.append_assoc]
    _ = setFrom ((d ++ t) ++ s) := setFrom_append_congr (setFrom_append_congr rfl ht) rfl
    _ = setFrom (d ++ (t ++ s)) := by rw [List.append_assoc]

end Js
