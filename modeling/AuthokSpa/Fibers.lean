import Mathlib.Data.Set.Card

/-!
# How many lists a pointwise map takes to one

If `f` takes at most `m` arguments to one value, then it takes at most `m ^ n` lists of
arguments to one list of `n` values. So it is as hard to meet a list of values by chance
as it is to meet all of them at once.
-/

namespace Fibers

variable {α β : Type} {f : α → β}

/-- What `f` takes to `b`. -/
def fiber (f : α → β) (b : β) : Set α := {a | f a = b}

/-- What `f` takes to `bs`, element by element. -/
def lists (f : α → β) (bs : List β) : Set (List α) := {as | as.map f = bs}

theorem lists_nil (f : α → β) : lists f [] = {[]} := by
  ext as
  exact List.map_eq_nil_iff

theorem lists_cons (f : α → β) (b : β) (bs : List β) :
    lists f (b :: bs) = (fun p : α × List α => p.1 :: p.2) '' (fiber f b ×ˢ lists f bs) := by
  ext as
  constructor
  · intro h
    obtain ⟨a, rest, rfl, ha, hrest⟩ := List.map_eq_cons_iff.mp h
    exact ⟨(a, rest), ⟨ha, hrest⟩, rfl⟩
  · rintro ⟨⟨a, rest⟩, ⟨ha, hrest⟩, rfl⟩
    exact List.map_eq_cons_iff.mpr ⟨a, rest, rfl, ha, hrest⟩

theorem finite_lists (hf : ∀ b, (fiber f b).Finite) (bs : List β) : (lists f bs).Finite := by
  induction bs with
  | nil =>
    rw [lists_nil]
    exact Set.finite_singleton _
  | cons b bs ih =>
    rw [lists_cons]
    exact ((hf b).prod ih).image _

/-- **The lists that are taken to one list.** -/
theorem ncard_lists_le {m : ℕ} (hf : ∀ b, (fiber f b).Finite) (hm : ∀ b, (fiber f b).ncard ≤ m)
    (bs : List β) : (lists f bs).ncard ≤ m ^ bs.length := by
  induction bs with
  | nil =>
    rw [lists_nil, Set.ncard_singleton]
    exact Nat.le_refl 1
  | cons b bs ih =>
    have hfinite := (hf b).prod (finite_lists hf bs)
    rw [lists_cons]
    calc ((fun p : α × List α => p.1 :: p.2) '' (fiber f b ×ˢ lists f bs)).ncard
        ≤ (fiber f b ×ˢ lists f bs).ncard := Set.ncard_image_le hfinite
      _ = (fiber f b).ncard * (lists f bs).ncard := Set.ncard_prod
      _ ≤ m * m ^ bs.length := Nat.mul_le_mul (hm b) ih
      _ = m ^ (b :: bs).length := by rw [List.length_cons, Nat.pow_succ, Nat.mul_comm]

end Fibers
