import AuthokSpa.Js.Number

/-!
# Dates

A `Date` is its time value: whole milliseconds within 8.64e15 of the epoch, or
`NaN`. Comparing two dates compares these numbers, so a date out of range is
neither before nor after any other.
-/

namespace Js

/-- ToIntegerOrInfinity of a finite number: truncation towards zero. -/
def trunc (q : ℚ) : Int := if 0 ≤ q then ⌊q⌋ else ⌈q⌉

/-- The last representable time value. -/
def maxTime : Int := 8640000000000000

/-- `new Date(n)`. -/
def dateOf : Num → Num
  | .fin q => if -maxTime ≤ q ∧ q ≤ maxTime then .fin (trunc q) else .nan
  | _ => .nan

/-- `d.setUTCSeconds(s)` on `new Date(0)`. -/
def dateOfSeconds : Num → Num
  | .fin q => dateOf (.fin ((trunc q : ℚ) * 1000))
  | _ => .nan

theorem trunc_intCast (z : Int) : trunc z = z := by
  unfold trunc
  split
  · exact Int.floor_intCast z
  · exact Int.ceil_intCast z

theorem trunc_mono {p q : ℚ} (h : p ≤ q) : trunc p ≤ trunc q := by
  unfold trunc
  by_cases hp : 0 ≤ p
  · rw [if_pos hp, if_pos (le_trans hp h)]
    exact Int.floor_le_floor h
  · rw [if_neg hp]
    have hpneg : ⌈p⌉ ≤ 0 := Int.ceil_le.mpr (by push_cast; linarith)
    by_cases hq : 0 ≤ q
    · rw [if_pos hq]
      exact le_trans hpneg (Int.floor_nonneg.mpr hq)
    · rw [if_neg hq]
      exact Int.ceil_le_ceil h

/-- A date out of range compares with nothing. -/
theorem not_nan_lt (a : Num) : ¬ Num.nan < a := by
  intro h
  cases h

theorem not_lt_nan (a : Num) : ¬ a < Num.nan := by
  intro h
  cases a <;> cases h

/-- The seconds in range give that many milliseconds. -/
theorem dateOfSeconds_fin {q : ℚ} (hlo : -maxTime ≤ trunc q * 1000)
    (hhi : trunc q * 1000 ≤ maxTime) : dateOfSeconds (.fin q) = .fin (trunc q * 1000 : Int) := by
  have hcast : ((trunc q : ℚ) * 1000) = ((trunc q * 1000 : Int) : ℚ) := by push_cast; rfl
  have hlo' : -(maxTime : ℚ) ≤ ((trunc q * 1000 : Int) : ℚ) := by exact_mod_cast hlo
  have hhi' : ((trunc q * 1000 : Int) : ℚ) ≤ (maxTime : ℚ) := by exact_mod_cast hhi
  unfold dateOfSeconds dateOf
  simp only [hcast]
  rw [if_pos ⟨hlo', hhi'⟩, trunc_intCast]

/-- The seconds of no date. -/
theorem dateOfSeconds_outside {q : ℚ}
    (h : trunc q * 1000 < -maxTime ∨ maxTime < trunc q * 1000) :
    dateOfSeconds (.fin q) = .nan := by
  unfold dateOfSeconds dateOf
  dsimp only
  rw [if_neg]
  rintro ⟨hlo, hhi⟩
  have hlo' : -maxTime ≤ trunc q * 1000 := by exact_mod_cast hlo
  have hhi' : trunc q * 1000 ≤ maxTime := by exact_mod_cast hhi
  omega

/-- A date of seconds is not before `t` exactly when its whole seconds reach
`t`; a date out of range is before nothing, and late enough anyway. -/
theorem not_dateOfSeconds_lt_iff {q t : ℚ} (hq : 0 ≤ q) (ht : t ≤ maxTime) :
    ¬ dateOfSeconds (.fin q) < .fin t ↔ t ≤ ⌊q⌋ * 1000 := by
  have hfloor : 0 ≤ ⌊q⌋ := Int.floor_nonneg.mpr hq
  have htrunc : trunc q = ⌊q⌋ := if_pos hq
  by_cases hhi : ⌊q⌋ * 1000 ≤ maxTime
  · have hlo : -maxTime ≤ ⌊q⌋ * 1000 := by
      unfold maxTime
      omega
    rw [dateOfSeconds_fin (by rwa [htrunc]) (by rwa [htrunc]), htrunc, Num.fin_lt_fin, not_lt]
    push_cast
    rfl
  · have hnan : dateOfSeconds (.fin q) = .nan :=
      dateOfSeconds_outside (Or.inr (by rw [htrunc]; omega))
    have hbig : (maxTime : ℚ) ≤ ⌊q⌋ * 1000 := by exact_mod_cast (le_of_not_ge hhi)
    rw [hnan]
    exact ⟨fun _ => le_trans ht hbig, fun _ h => by cases h⟩

/-- A date is `NaN` or whole milliseconds in range. -/
theorem dateOf_cases (n : Num) :
    dateOf n = .nan ∨ ∃ z : Int, dateOf n = .fin z ∧ -maxTime ≤ z ∧ z ≤ maxTime := by
  unfold dateOf
  cases n with
  | nan => exact Or.inl rfl
  | negInf => exact Or.inl rfl
  | posInf => exact Or.inl rfl
  | fin q =>
    dsimp only
    split
    next h =>
      refine Or.inr ⟨trunc q, rfl, ?_⟩
      obtain ⟨hlo, hhi⟩ := h
      have hlo' : ((-maxTime : Int) : ℚ) ≤ q := by push_cast; exact hlo
      unfold trunc
      split
      · exact ⟨Int.le_floor.mpr hlo', Int.floor_le_iff.mpr (by linarith)⟩
      · refine ⟨?_, Int.ceil_le.mpr hhi⟩
        have := le_trans hlo' (Int.le_ceil q)
        exact_mod_cast this
    next => exact Or.inl rfl

/-! ## Dates and the clock -/

/-- The seconds are those of a date, and the clock is past it. -/
def Passed : Num → Num → Prop
  | .fin q, .fin now =>
    now ≤ maxTime ∧ -maxTime ≤ trunc q * 1000 ∧ trunc q * 1000 < ⌊now⌋
  | _, _ => False

/-- The seconds are those of a date, and the clock is not there yet. -/
def Ahead : Num → Num → Prop
  | .fin q, .fin now =>
    now ≤ maxTime ∧ trunc q * 1000 ≤ maxTime ∧ ⌊now⌋ < trunc q * 1000
  | _, _ => False

/-- The seconds are before the first date there is. -/
def TooEarly : Num → Prop
  | .fin q => trunc q * 1000 < -maxTime
  | _ => False

/-- The seconds are after the last date there is. -/
def TooLate : Num → Prop
  | .fin q => maxTime < trunc q * 1000
  | _ => False

theorem passed_iff {s now : Num} :
    Passed s now ↔ ∃ q t, s = .fin q ∧ now = .fin t ∧
      t ≤ maxTime ∧ -maxTime ≤ trunc q * 1000 ∧ trunc q * 1000 < ⌊t⌋ := by
  constructor
  · intro h
    cases s with
    | fin q =>
      cases now with
      | fin t => exact ⟨q, t, rfl, rfl, h⟩
      | nan => exact h.elim
      | negInf => exact h.elim
      | posInf => exact h.elim
    | nan => exact h.elim
    | negInf => exact h.elim
    | posInf => exact h.elim
  · rintro ⟨q, t, rfl, rfl, h⟩
    exact h

theorem ahead_iff {s now : Num} :
    Ahead s now ↔ ∃ q t, s = .fin q ∧ now = .fin t ∧
      t ≤ maxTime ∧ trunc q * 1000 ≤ maxTime ∧ ⌊t⌋ < trunc q * 1000 := by
  constructor
  · intro h
    cases s with
    | fin q =>
      cases now with
      | fin t => exact ⟨q, t, rfl, rfl, h⟩
      | nan => exact h.elim
      | negInf => exact h.elim
      | posInf => exact h.elim
    | nan => exact h.elim
    | negInf => exact h.elim
    | posInf => exact h.elim
  · rintro ⟨q, t, rfl, rfl, h⟩
    exact h

theorem floor_le_maxTime {t : ℚ} (h : t ≤ maxTime) : ⌊t⌋ ≤ maxTime :=
  Int.floor_le_iff.mpr (by linarith)

/-- On whole seconds and whole milliseconds. -/
theorem passed_int_iff (s t : Int) :
    Passed (.fin s) (.fin t) ↔ t ≤ maxTime ∧ -maxTime ≤ s * 1000 ∧ s * 1000 < t := by
  show (t : ℚ) ≤ maxTime ∧ -maxTime ≤ trunc s * 1000 ∧ trunc s * 1000 < ⌊(t : ℚ)⌋ ↔ _
  rw [trunc_intCast, Int.floor_intCast, Int.cast_le]

/-- A clock that is a number after the epoch is finite or infinite. -/
theorem clock_cases {now : Num} (hnow : .fin 0 < now) :
    (∃ t, now = .fin t ∧ 0 < t) ∨ now = .posInf := by
  cases now with
  | nan => cases hnow
  | negInf => cases hnow
  | fin t => exact Or.inl ⟨t, rfl, (Num.fin_lt_fin _ _).mp hnow⟩
  | posInf => exact Or.inr rfl

/-- A clock that reads a date reads its whole milliseconds. -/
theorem dateOf_clock {t : ℚ} (hpos : 0 < t) (hle : t ≤ maxTime) : dateOf (.fin t) = .fin ⌊t⌋ := by
  have hlo : -(maxTime : ℚ) ≤ t := by
    have hneg : -(maxTime : ℚ) ≤ 0 := by
      unfold maxTime
      norm_num
    linarith
  unfold dateOf
  dsimp only
  rw [if_pos ⟨hlo, hle⟩, show trunc t = ⌊t⌋ from if_pos (le_of_lt hpos)]

theorem exists_of_dateOf {now : Num} (hnow : .fin 0 < now) (h : dateOf now ≠ .nan) :
    ∃ t, now = .fin t ∧ 0 < t ∧ t ≤ maxTime := by
  rcases clock_cases hnow with ⟨t, rfl, hpos⟩ | rfl
  · refine ⟨t, rfl, hpos, ?_⟩
    by_contra hgt
    exact h (if_neg fun hin => hgt hin.2)
  · exact absurd rfl h

/-- The seconds of a date. -/
theorem exists_of_dateOfSeconds {s : Num} (h : dateOfSeconds s ≠ .nan) :
    ∃ q, s = .fin q ∧ -maxTime ≤ trunc q * 1000 ∧ trunc q * 1000 ≤ maxTime := by
  cases s with
  | fin q =>
    by_cases hout : trunc q * 1000 < -maxTime ∨ maxTime < trunc q * 1000
    · exact absurd (dateOfSeconds_outside hout) h
    · exact ⟨q, rfl, by omega, by omega⟩
  | nan => exact absurd rfl h
  | negInf => exact absurd rfl h
  | posInf => exact absurd rfl h

theorem dateOfSeconds_lt_dateOf_iff (s : Num) {now : Num} (hnow : .fin 0 < now) :
    dateOfSeconds s < dateOf now ↔ Passed s now := by
  constructor
  · intro h
    obtain ⟨q, rfl, hlo, hhi⟩ := exists_of_dateOfSeconds fun hnan => not_nan_lt _ (hnan ▸ h)
    obtain ⟨t, rfl, hpos, hle⟩ := exists_of_dateOf hnow fun hnan => not_lt_nan _ (hnan ▸ h)
    rw [dateOfSeconds_fin hlo hhi, dateOf_clock hpos hle, Num.fin_lt_fin, Int.cast_lt] at h
    exact passed_iff.mpr ⟨q, t, rfl, rfl, hle, hlo, h⟩
  · intro h
    obtain ⟨q, t, rfl, rfl, hle, hlo, hlt⟩ := passed_iff.mp h
    have hmax := floor_le_maxTime hle
    rw [dateOfSeconds_fin hlo (by omega), dateOf_clock ((Num.fin_lt_fin _ _).mp hnow) hle,
      Num.fin_lt_fin, Int.cast_lt]
    exact hlt

theorem dateOf_lt_dateOfSeconds_iff (s : Num) {now : Num} (hnow : .fin 0 < now) :
    dateOf now < dateOfSeconds s ↔ Ahead s now := by
  constructor
  · intro h
    obtain ⟨q, rfl, hlo, hhi⟩ := exists_of_dateOfSeconds fun hnan => not_lt_nan _ (hnan ▸ h)
    obtain ⟨t, rfl, hpos, hle⟩ := exists_of_dateOf hnow fun hnan => not_nan_lt _ (hnan ▸ h)
    rw [dateOfSeconds_fin hlo hhi, dateOf_clock hpos hle, Num.fin_lt_fin, Int.cast_lt] at h
    exact ahead_iff.mpr ⟨q, t, rfl, rfl, hle, hhi, h⟩
  · intro h
    obtain ⟨q, t, rfl, rfl, hle, hhi, hlt⟩ := ahead_iff.mp h
    have hpos : 0 < t := (Num.fin_lt_fin _ _).mp hnow
    have hmin : 0 ≤ ⌊t⌋ := Int.floor_nonneg.mpr (le_of_lt hpos)
    have hmax : 0 < maxTime := by decide
    rw [dateOfSeconds_fin (by omega) hhi, dateOf_clock hpos hle, Num.fin_lt_fin, Int.cast_lt]
    exact hlt

/-! ## Moving a date -/

/-- A leeway that can be added is finite. -/
theorem leeway_fin {l₁ : Num} {b : ℚ} (hpos : .fin 0 ≤ l₁) (hle : l₁ ≤ .fin b) :
    ∃ a, l₁ = .fin a ∧ a ≤ b := by
  cases l₁ with
  | fin a => exact ⟨a, rfl, (Num.fin_le_fin _ _).mp hle⟩
  | nan => cases hpos
  | negInf => cases hpos
  | posInf => cases hle

/-- A date that the clock has passed, the clock has passed with less leeway too. -/
theorem passed_of_le {s l₁ l₂ now : Num} (hpos : .fin 0 ≤ l₁) (hle : l₁ ≤ l₂)
    (hin : ¬ TooEarly (s + l₁)) (h : Passed (s + l₂) now) : Passed (s + l₁) now := by
  obtain ⟨r, t, hsum, rfl, hnow, -, hlt⟩ := passed_iff.mp h
  obtain ⟨q, b, rfl, rfl⟩ := Num.exists_of_add_eq_fin hsum
  obtain rfl := Num.fin.inj hsum
  obtain ⟨a, rfl, hab⟩ := leeway_fin hpos hle
  have hmono : trunc (q + a) ≤ trunc (q + b) := trunc_mono (by linarith)
  have hlo : -maxTime ≤ trunc (q + a) * 1000 := not_lt.mp hin
  exact passed_iff.mpr ⟨q + a, t, rfl, rfl, hnow, hlo, by omega⟩

/-- A date that the clock has not reached, it has not reached with less leeway. -/
theorem ahead_of_le {s l₁ l₂ now : Num} (hpos : .fin 0 ≤ l₁) (hle : l₁ ≤ l₂)
    (hin : ¬ TooLate (s - l₁)) (h : Ahead (s - l₂) now) : Ahead (s - l₁) now := by
  obtain ⟨r, t, hdiff, rfl, hnow, -, hlt⟩ := ahead_iff.mp h
  obtain ⟨q, b, rfl, rfl⟩ := Num.exists_of_sub_eq_fin hdiff
  obtain rfl := Num.fin.inj hdiff
  obtain ⟨a, rfl, hab⟩ := leeway_fin hpos hle
  have hmono : trunc (q + -b) ≤ trunc (q + -a) := trunc_mono (by linarith)
  have hhi : trunc (q + -a) * 1000 ≤ maxTime := not_lt.mp hin
  exact ahead_iff.mpr ⟨q + -a, t, rfl, rfl, hnow, hhi, by omega⟩

end Js
