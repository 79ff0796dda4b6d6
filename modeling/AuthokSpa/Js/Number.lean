import Mathlib.Data.Rat.Floor
import Mathlib.Tactic.Linarith

/-!
# JavaScript numbers, up to rounding

A `number` is `NaN`, an infinity or a finite value. Finite values are exact
rationals: the arithmetic modelled with them (`floor`, `+`, `-`, `Math.min`,
comparison) acts on second and millisecond counts far below 2^53, where a
double is exact. What the exact model keeps, because programs trip over it, is
`NaN`: every operation absorbs it and every comparison with it is `false`, so
`¬ a < b` does not give `b ≤ a` (`not_lt_iff` is the version that holds).
-/

namespace Js

/-- A JavaScript `number`. An absent value used in arithmetic is `nan`. -/
inductive Num where
  | nan
  | negInf
  | fin (q : ℚ)
  | posInf
  deriving DecidableEq

namespace Num

/-- The `+` operator on numbers. -/
def add : Num → Num → Num
  | nan, _ => nan
  | _, nan => nan
  | fin a, fin b => fin (a + b)
  | posInf, negInf => nan
  | negInf, posInf => nan
  | posInf, _ => posInf
  | _, posInf => posInf
  | negInf, _ => negInf
  | _, negInf => negInf

/-- Unary minus. -/
def neg : Num → Num
  | nan => nan
  | negInf => posInf
  | fin a => fin (-a)
  | posInf => negInf

instance : Add Num := ⟨add⟩
instance : Neg Num := ⟨neg⟩
instance : Sub Num := ⟨fun a b => a.add b.neg⟩

/-- The `<` operator: `false` as soon as one side is `NaN`. -/
def blt : Num → Num → Bool
  | nan, _ => false
  | _, nan => false
  | fin a, fin b => decide (a < b)
  | negInf, negInf => false
  | negInf, _ => true
  | fin _, posInf => true
  | _, _ => false

/-- The `<=` operator: also `false` on `NaN`, so it is not the negation of `>`. -/
def ble (a b : Num) : Bool := a ≠ nan && b ≠ nan && !blt b a

instance : LT Num := ⟨fun a b => blt a b = true⟩
instance : LE Num := ⟨fun a b => ble a b = true⟩
instance (a b : Num) : Decidable (a < b) := inferInstanceAs (Decidable (blt a b = true))
instance (a b : Num) : Decidable (a ≤ b) := inferInstanceAs (Decidable (ble a b = true))

/-- `Math.min` of two numbers. -/
def min (a b : Num) : Num :=
  if a = nan ∨ b = nan then nan else if b < a then b else a

/-- `Math.floor`. -/
def floor : Num → Num
  | fin a => fin ⌊a⌋
  | a => a

/-- Division by a positive constant. -/
def divBy (a : Num) (k : ℚ) : Num :=
  match a with
  | fin q => fin (q / k)
  | b => b

/-- ToBoolean: `0` and `NaN` are the falsy numbers. -/
def truthy (a : Num) : Bool := a ≠ nan && a ≠ fin 0

/-- Whole seconds of a reading in milliseconds: `Math.floor(now / 1000)`. -/
def seconds (now : Num) : Num := (now.divBy 1000).floor

/-- The value is a number in the sense of arithmetic: not `NaN`. -/
def IsNum (a : Num) : Prop := a ≠ nan

instance (a : Num) : Decidable a.IsNum := inferInstanceAs (Decidable (a ≠ nan))

/-- The value is finite. -/
def IsFin (a : Num) : Prop := ∃ q, a = fin q

@[simp] theorem fin_add_fin (a b : ℚ) : fin a + fin b = fin (a + b) := rfl

@[simp] theorem fin_sub_fin (a b : ℚ) : fin a - fin b = fin (a - b) := by
  show fin (a + -b) = fin (a - b)
  rw [sub_eq_add_neg]

@[simp] theorem fin_lt_fin (a b : ℚ) : fin a < fin b ↔ a < b := by
  show decide (a < b) = true ↔ a < b
  exact decide_eq_true_iff

/-- On numbers other than `NaN` the order is total: failing `<` is `>=`. -/
theorem not_lt_iff {a b : Num} (ha : a.IsNum) (hb : b.IsNum) : ¬ a < b ↔ b ≤ a := by
  show ¬ blt a b = true ↔ ble b a = true
  unfold ble
  simp [show a ≠ nan from ha, show b ≠ nan from hb]

@[simp] theorem fin_le_fin (a b : ℚ) : fin a ≤ fin b ↔ a ≤ b := by
  rw [← not_lt_iff (by simp [IsNum]) (by simp [IsNum]), fin_lt_fin, not_lt]

theorem IsFin.isNum {a : Num} (h : a.IsFin) : a.IsNum := by
  obtain ⟨q, rfl⟩ := h
  simp [IsNum]

/-- Adding a finite number keeps a number a number. -/
theorem isNum_add_of_fin {a b : Num} (ha : a.IsFin) (hb : b.IsNum) : (a + b).IsNum := by
  obtain ⟨q, rfl⟩ := ha
  cases b with
  | nan => exact absurd rfl hb
  | negInf => show negInf ≠ nan; simp
  | fin r => show fin (q + r) ≠ nan; simp
  | posInf => show posInf ≠ nan; simp

/-- Subtracting a finite number keeps a number a number. -/
theorem isNum_sub_of_fin {a b : Num} (ha : a.IsNum) (hb : b.IsFin) : (a - b).IsNum := by
  obtain ⟨q, rfl⟩ := hb
  cases a with
  | nan => exact absurd rfl ha
  | negInf => show negInf ≠ nan; simp
  | fin r => show fin (r + -q) ≠ nan; simp
  | posInf => show posInf ≠ nan; simp

/-- The minimum of two numbers is one of them, so a number. -/
theorem isNum_min {a b : Num} (ha : a.IsNum) (hb : b.IsNum) : (min a b).IsNum := by
  unfold min
  rw [if_neg (by simp [show a ≠ nan from ha, show b ≠ nan from hb])]
  split
  · exact hb
  · exact ha

/-- Adding to a finite number is associative; `posInf`, `negInf` and a third
number would not be. -/
theorem fin_add_assoc (a : ℚ) (b c : Num) : fin a + b + c = fin a + (b + c) := by
  cases b <;> cases c <;> first | rfl | exact congrArg fin (add_assoc ..)

/-- A finite sum has finite terms. -/
theorem exists_of_add_eq_fin {a b : Num} {r : ℚ} (h : a + b = fin r) :
    ∃ p q, a = fin p ∧ b = fin q := by
  cases a with
  | fin p =>
    cases b with
    | fin q => exact ⟨p, q, rfl, rfl⟩
    | nan => cases h
    | negInf => cases h
    | posInf => cases h
  | nan => cases h
  | negInf => cases b <;> cases h
  | posInf => cases b <;> cases h

theorem exists_of_sub_eq_fin {a b : Num} {r : ℚ} (h : a - b = fin r) :
    ∃ p q, a = fin p ∧ b = fin q := by
  obtain ⟨p, q, rfl, hneg⟩ := exists_of_add_eq_fin (b := b.neg) h
  cases b with
  | fin q => exact ⟨p, q, rfl, rfl⟩
  | nan => cases hneg
  | negInf => cases hneg
  | posInf => cases hneg

theorem seconds_fin (q : ℚ) : (fin q).seconds = fin ⌊q / 1000⌋ := rfl

/-- The whole seconds of a finite reading are finite. -/
theorem isFin_seconds {a : Num} (h : a.IsFin) : a.seconds.IsFin := by
  obtain ⟨q, rfl⟩ := h
  exact ⟨_, seconds_fin q⟩

end Num

end Js
