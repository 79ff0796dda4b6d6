import AuthokSpa.Js.Json
import Mathlib.Tactic.FieldSimp
import Mathlib.Tactic.Ring

/-!
# JSON round trip

`JSON.parse` reads back what `JSON.stringify` prints, for every value JSON can
say: `parse_stringify`. The induction is on the value, elements and members
included; what carries it is that the text's own length is enough fuel, since
every bracket, comma and quote spends a character.

A number is read back from any of the four layouts its digits are printed in.
The text of a number says all of it when a decimal of at most 17 digits is its
value, which every double has (`Num.Exact`).
-/

namespace Js

/-! ## Decimals -/

/-- The number is told by its text: it is in range, and either whole and small or
a decimal of at most 17 digits. -/
structure Num.Exact (q : ℚ) : Prop where
  inRange : |q| < doubleLimit
  decimal : (q.den = 1 ∧ q.num.natAbs < 10 ^ 21) ∨
    ∃ (s : Nat) (e : Int), s < 10 ^ 17 ∧ |q| = s * (10 : ℚ) ^ e

/-- Nothing that goes on with a number. -/
def Stops (rest : List Char) : Prop :=
  ∀ c ∈ rest.head?, isDigit c = false ∧ c ≠ '.' ∧ c ≠ 'e' ∧ c ≠ 'E'

theorem stops_nil : Stops [] := by
  intro c hc
  cases hc

theorem stops_cons {c : Char} {cs : List Char}
    (h : isDigit c = false ∧ c ≠ '.' ∧ c ≠ 'e' ∧ c ≠ 'E') : Stops (c :: cs) := by
  intro d hd
  obtain rfl : c = d := by simpa using hd
  exact h

theorem Stops.noDigit {rest : List Char} (h : Stops rest) : NoDigit rest :=
  fun c hc => (h c hc).1

theorem Stops.fraction {rest : List Char} (h : Stops rest) :
    parseFraction rest = some ([], rest) := by
  unfold parseFraction
  split
  next cs => exact absurd rfl (h '.' rfl).2.1
  next => rfl

theorem Stops.exponent {rest : List Char} (h : Stops rest) :
    parseExponent rest = some (0, rest) := by
  cases rest with
  | nil => rfl
  | cons c cs =>
    obtain ⟨-, -, he, hE⟩ := h c rfl
    unfold parseExponent
    dsimp only
    rw [if_neg (not_or.mpr ⟨he, hE⟩)]

/-- A number from its three parts. -/
theorem parseUnsigned_parts (negative : Bool) {cs ds fs t t' rest : List Char} {e : Int} {q : ℚ}
    (hspan : spanDigits cs = (ds, t)) (hne : ds ≠ [])
    (hlead : ¬ (1 < ds.length ∧ ds.head? = some '0'))
    (hfrac : parseFraction t = some (fs, t')) (hexp : parseExponent t' = some (e, rest))
    (hq : digitsVal (ds ++ fs) * (10 : ℚ) ^ (e - fs.length) = q) :
    parseUnsigned negative cs =
      some (.num (Num.ofDecimal (if negative then -q else q)), rest) := by
  unfold parseUnsigned
  simp only [hspan]
  rw [if_neg (not_or.mpr ⟨hne, hlead⟩)]
  simp only [hfrac, hexp, hq, Option.bind_eq_bind, Option.bind_some]

/-- Leading zeros count for nothing. -/
theorem digitsVal_zeros (ds : List Char) : ∀ n, digitsVal (List.replicate n '0' ++ ds) = digitsVal ds
  | 0 => rfl
  | n + 1 => digitsVal_zeros ds n

/-- An exponent as it is printed. -/
theorem parseExponent_print (e : Int) {rest : List Char} (hrest : Stops rest) :
    parseExponent ('e' :: (if 0 ≤ e then '+' else '-') :: Nat.toDigits 10 e.natAbs ++ rest) =
      some (e, rest) := by
  have hspan := spanDigits_append hrest.noDigit (Nat.toDigits 10 e.natAbs)
    (fun d hd => isDigit_of_mem_toDigits hd)
  have hdigits : ∀ negative, parseExponentDigits negative (Nat.toDigits 10 e.natAbs ++ rest) =
      some (if negative then -(e.natAbs : Int) else (e.natAbs : Int), rest) := by
    intro negative
    unfold parseExponentDigits
    simp only [hspan]
    rw [if_neg Nat.toDigits_ne_nil, digitsVal_toDigits]
  by_cases he : 0 ≤ e
  · rw [if_pos he]
    show parseExponentDigits false (Nat.toDigits 10 e.natAbs ++ rest) = _
    rw [hdigits, if_neg (by simp), Int.natAbs_of_nonneg he]
  · rw [if_neg he]
    show parseExponentDigits true (Nat.toDigits 10 e.natAbs ++ rest) = _
    rw [hdigits, if_pos rfl, show -(e.natAbs : Int) = e by omega]

/-- A fraction in front of what no digit starts. -/
theorem parseFraction_print {ds rest : List Char} (hds : ∀ d ∈ ds, isDigit d = true) (hne : ds ≠ [])
    (hrest : NoDigit rest) : parseFraction ('.' :: (ds ++ rest)) = some (ds, rest) := by
  have hspan := spanDigits_append hrest ds hds
  unfold parseFraction
  simp only [hspan]
  rw [if_neg hne]

theorem noDigit_cons {c : Char} {cs : List Char} (h : isDigit c = false) : NoDigit (c :: cs) := by
  intro d hd
  obtain rfl : c = d := by simpa using hd
  exact h

/-- The first digits of a number have no leading zero either. -/
theorem take_no_leading_zero {ds : List Char} (h : ¬ (1 < ds.length ∧ ds.head? = some '0'))
    (n : Nat) (hn : 0 < n) : ¬ (1 < (ds.take n).length ∧ (ds.take n).head? = some '0') := by
  rintro ⟨hlen, hhead⟩
  refine h ⟨?_, ?_⟩
  · rw [List.length_take] at hlen
    omega
  · rwa [List.head?_take, if_neg (by omega)] at hhead

/-- **Each layout reads back**: `k` digits with the point after `n` of them are
the number `s * 10^(n - k)`. -/
theorem parseUnsigned_layout (negative : Bool) {s k : Nat} {n : Int} {q : ℚ}
    (hk : (Nat.toDigits 10 s).length = k) (hq : s * (10 : ℚ) ^ (n - k) = q) {rest : List Char}
    (hrest : Stops rest) (hplain : ¬ (k ≤ n ∧ n ≤ 21)) :
    parseUnsigned negative (layout s k n ++ rest) =
      some (.num (Num.ofDecimal (if negative then -q else q)), rest) := by
  have hdigit : ∀ d ∈ Nat.toDigits 10 s, isDigit d = true := fun d hd => isDigit_of_mem_toDigits hd
  have hlead := toDigits_no_leading_zero s
  have hkpos : 0 < k := hk ▸ Nat.length_toDigits_pos
  have hval := digitsVal_toDigits s
  have htake : ∀ d ∈ List.take n.toNat (Nat.toDigits 10 s), isDigit d = true :=
    fun d hd => hdigit d (List.mem_of_mem_take hd)
  have hdrop : ∀ i, ∀ d ∈ List.drop i (Nat.toDigits 10 s), isDigit d = true :=
    fun i d hd => hdigit d (List.mem_of_mem_drop hd)
  unfold layout
  simp only [if_neg hplain]
  split
  next hpoint =>
    -- the point among the digits
    have hlen : ((Nat.toDigits 10 s).drop n.toNat).length = k - n.toNat := by
      rw [List.length_drop, hk]
    have hnk : n.toNat < k := by omega
    rw [List.append_assoc, List.cons_append]
    refine parseUnsigned_parts negative (spanDigits_append (noDigit_cons (by decide)) _ htake)
      ?_ (take_no_leading_zero hlead _ (by omega))
      (parseFraction_print (hdrop _) ?_ hrest.noDigit) hrest.exponent ?_
    · refine List.ne_nil_of_length_pos ?_
      rw [List.length_take, hk]
      omega
    · refine List.ne_nil_of_length_pos ?_
      omega
    · rw [List.take_append_drop, hval, hlen, ← hq]
      congr 2
      omega
  next hpoint =>
    split
    next hsmall =>
      -- zeros between the point and the digits
      have hfrac : ∀ d ∈ List.replicate (-n).toNat '0' ++ Nat.toDigits 10 s, isDigit d = true := by
        intro d hd
        rcases List.mem_append.mp hd with hd | hd
        · rw [List.eq_of_mem_replicate hd]
          decide
        · exact hdigit d hd
      rw [List.cons_append, List.cons_append, List.cons_append, List.cons_append]
      refine parseUnsigned_parts negative
        (spanDigits_append (noDigit_cons (by decide)) ['0'] (by simp [isDigit])) (by simp) (by simp)
        (parseFraction_print hfrac (by simp) hrest.noDigit) hrest.exponent ?_
      rw [List.singleton_append, show '0' :: (List.replicate (-n).toNat '0' ++ Nat.toDigits 10 s) =
        List.replicate ((-n).toNat + 1) '0' ++ Nat.toDigits 10 s from rfl, digitsVal_zeros, hval,
        List.length_append, List.length_replicate, hk, ← hq]
      congr 2
      omega
    next hsmall =>
      -- an exponent
      have hexp := parseExponent_print (n - 1) hrest
      have hnd : ∀ cs, NoDigit ('e' :: cs) := fun _ => noDigit_cons (by decide)
      split
      next hone =>
        rw [List.append_assoc]
        refine parseUnsigned_parts negative (spanDigits_append (hnd _) _ hdigit)
          Nat.toDigits_ne_nil hlead rfl hexp ?_
        rw [List.append_nil, hval, ← hq, hone, List.length_nil, Nat.cast_zero, sub_zero,
          Nat.cast_one]
      next hone =>
        have hlen : ((Nat.toDigits 10 s).drop 1).length = k - 1 := by
          rw [List.length_drop, hk]
        rw [List.append_assoc, List.append_assoc, List.cons_append]
        refine parseUnsigned_parts negative
          (spanDigits_append (noDigit_cons (by decide)) _
            (fun d hd => hdigit d (List.mem_of_mem_take hd)))
          ?_ (take_no_leading_zero hlead _ (by omega))
          (parseFraction_print (hdrop 1) ?_ (hnd _)) hexp ?_
        · refine List.ne_nil_of_length_pos ?_
          rw [List.length_take, hk]
          omega
        · refine List.ne_nil_of_length_pos ?_
          omega
        · rw [List.take_append_drop, hval, hlen, ← hq]
          congr 2
          omega

/-! ## Numbers -/

/-- A number of `k` digits. -/
theorem length_toDigits {d k : Nat} (hk : 0 < k) (hlo : 10 ^ (k - 1) ≤ d) (hhi : d < 10 ^ k) :
    (Nat.toDigits 10 d).length = k := by
  have hle := (Nat.length_toDigits_le_iff (by norm_num) hk).mpr hhi
  by_contra hne
  have hpos := @Nat.length_toDigits_pos 10 d
  have hlt := (Nat.length_toDigits_le_iff (n := d) (b := 10) (by norm_num)
    (show 0 < k - 1 by omega)).mp (by omega)
  omega

/-- The digits of a positive number up to `k` places, all of them. -/
theorem digits_of_exact {q : ℚ} (hq : 0 < q) {d k : Nat} (hk : 0 < k)
    (hd : (d : ℚ) = q * (10 : ℚ) ^ ((k : Int) - (Int.log 10 q + 1))) :
    (d : ℚ) * (10 : ℚ) ^ (Int.log 10 q + 1 - (k : Int)) = q ∧ (Nat.toDigits 10 d).length = k := by
  have hten : (10 : ℚ) ≠ 0 := by norm_num
  have hlo : (10 : ℚ) ^ Int.log 10 q ≤ q := by
    exact_mod_cast Int.zpow_log_le_self (b := 10) (by norm_num) hq
  have hhi : q < (10 : ℚ) ^ (Int.log 10 q + 1) := by
    exact_mod_cast Int.lt_zpow_succ_log_self (b := 10) (by norm_num) q
  have hpos : (0 : ℚ) < (10 : ℚ) ^ ((k : Int) - (Int.log 10 q + 1)) :=
    zpow_pos (by norm_num) _
  refine ⟨?_, length_toDigits hk ?_ ?_⟩
  · rw [hd, mul_assoc, ← zpow_add₀ hten]
    simp
  · have h : (10 : ℚ) ^ ((k : Int) - 1) ≤ d := by
      calc (10 : ℚ) ^ ((k : Int) - 1)
          = (10 : ℚ) ^ Int.log 10 q * (10 : ℚ) ^ ((k : Int) - (Int.log 10 q + 1)) := by
            rw [← zpow_add₀ hten]
            congr 1
            omega
        _ ≤ q * (10 : ℚ) ^ ((k : Int) - (Int.log 10 q + 1)) :=
            mul_le_mul_of_nonneg_right hlo hpos.le
        _ = d := hd.symm
    rw [show (k : Int) - 1 = ((k - 1 : Nat) : Int) by omega, zpow_natCast] at h
    exact_mod_cast h
  · have h : (d : ℚ) < (10 : ℚ) ^ (k : Int) := by
      calc (d : ℚ) = q * (10 : ℚ) ^ ((k : Int) - (Int.log 10 q + 1)) := hd
        _ < (10 : ℚ) ^ (Int.log 10 q + 1) * (10 : ℚ) ^ ((k : Int) - (Int.log 10 q + 1)) :=
            mul_lt_mul_of_pos_right hhi hpos
        _ = (10 : ℚ) ^ (k : Int) := by
            rw [← zpow_add₀ hten]
            congr 1
            omega
    rw [zpow_natCast] at h
    exact_mod_cast h

/-- A decimal of at most 17 digits has nothing after its seventeenth place. -/
theorem floor_seventeen {q : ℚ} (hq : 0 < q) {s : Nat} {e : Int} (hs : s < 10 ^ 17)
    (hval : q = s * (10 : ℚ) ^ e) :
    ((⌊q * (10 : ℚ) ^ ((17 : Int) - (Int.log 10 q + 1))⌋₊ : Nat) : ℚ) =
      q * (10 : ℚ) ^ ((17 : Int) - (Int.log 10 q + 1)) := by
  have hten : (10 : ℚ) ≠ 0 := by norm_num
  have hlo : (10 : ℚ) ^ Int.log 10 q ≤ q := by
    exact_mod_cast Int.zpow_log_le_self (b := 10) (by norm_num) hq
  have hlt : (10 : ℚ) ^ Int.log 10 q < (10 : ℚ) ^ ((17 : Int) + e) := by
    calc (10 : ℚ) ^ Int.log 10 q ≤ s * (10 : ℚ) ^ e := hval ▸ hlo
      _ < (10 : ℚ) ^ 17 * (10 : ℚ) ^ e :=
          mul_lt_mul_of_pos_right (by exact_mod_cast hs) (zpow_pos (by norm_num) _)
      _ = (10 : ℚ) ^ ((17 : Int) + e) := by
          rw [zpow_add₀ hten]
          norm_num
  have hexp : Int.log 10 q < 17 + e := (zpow_lt_zpow_iff_right₀ (by norm_num)).mp hlt
  obtain ⟨i, hi⟩ : ∃ i : Nat, e + ((17 : Int) - (Int.log 10 q + 1)) = i :=
    ⟨(e + ((17 : Int) - (Int.log 10 q + 1))).toNat, by omega⟩
  have hwhole : q * (10 : ℚ) ^ ((17 : Int) - (Int.log 10 q + 1)) = ((s * 10 ^ i : Nat) : ℚ) := by
    calc q * (10 : ℚ) ^ ((17 : Int) - (Int.log 10 q + 1))
        = s * (10 : ℚ) ^ (e + ((17 : Int) - (Int.log 10 q + 1))) := by
          rw [zpow_add₀ hten, ← mul_assoc, ← hval]
      _ = ((s * 10 ^ i : Nat) : ℚ) := by
          rw [hi, zpow_natCast]
          push_cast
          rfl
  rw [hwhole, Nat.floor_natCast]

/-- **The shortest decimal** of a number that has one of 17 digits is the number. -/
theorem shortest_spec {q : ℚ} (hq : 0 < q) {s : Nat} {e : Int} (hs : s < 10 ^ 17)
    (hval : q = s * (10 : ℚ) ^ e) :
    ((shortest q).1 : ℚ) * (10 : ℚ) ^ ((shortest q).2.2 - ((shortest q).2.1 : Int)) = q ∧
      (Nat.toDigits 10 (shortest q).1).length = (shortest q).2.1 := by
  unfold shortest
  dsimp only
  split
  next i hi =>
    have hfound := List.find?_some hi
    exact digits_of_exact hq (Nat.succ_pos i) (by simpa using hfound)
  next => exact digits_of_exact hq (by norm_num) (floor_seventeen hq hs hval)

/-- A positive number reads back from its text. -/
theorem parseUnsigned_positiveText (negative : Bool) {q : ℚ} (hq : 0 < q)
    (hexact : (q.den = 1 ∧ q.num.natAbs < 10 ^ 21) ∨
      ∃ (s : Nat) (e : Int), s < 10 ^ 17 ∧ q = s * (10 : ℚ) ^ e) {rest : List Char}
    (hrest : Stops rest) :
    parseUnsigned negative (positiveText q ++ rest) =
      some (.num (Num.ofDecimal (if negative then -q else q)), rest) := by
  unfold positiveText
  split
  next hwhole =>
    have hnum : ((q.num.natAbs : Nat) : ℚ) = q := by
      have hint : ((q.num.natAbs : Nat) : Int) = q.num :=
        Int.natAbs_of_nonneg (Rat.num_nonneg.mpr hq.le)
      rw [← Int.cast_natCast, hint, Rat.coe_int_num_of_den_eq_one hwhole.1]
    refine parseUnsigned_parts negative (spanDigits_append hrest.noDigit _
      (fun d hd => isDigit_of_mem_toDigits hd)) Nat.toDigits_ne_nil (toDigits_no_leading_zero _)
      hrest.fraction hrest.exponent ?_
    rw [List.append_nil, digitsVal_toDigits, hnum, List.length_nil, Nat.cast_zero, sub_zero,
      zpow_zero, mul_one]
  next hwhole =>
    obtain ⟨s, e, hs, hval⟩ := hexact.resolve_left hwhole
    obtain ⟨hread, hlen⟩ := shortest_spec hq hs hval
    refine parseUnsigned_layout negative hlen hread hrest ?_
    -- the plain layout is the one of small whole numbers
    rintro ⟨hle, h21⟩
    obtain ⟨j, hj⟩ : ∃ j : Nat, (shortest q).2.2 - ((shortest q).2.1 : Int) = j :=
      ⟨((shortest q).2.2 - ((shortest q).2.1 : Int)).toNat, by omega⟩
    have hq' : q = (((shortest q).1 * 10 ^ j : Nat) : ℚ) := by
      rw [hj, zpow_natCast] at hread
      push_cast
      exact hread.symm
    have hsmall : (shortest q).1 < 10 ^ (shortest q).2.1 :=
      (Nat.length_toDigits_le_iff (by norm_num) (hlen ▸ Nat.length_toDigits_pos)).mp hlen.le
    refine hwhole ⟨by rw [hq']; exact Rat.den_natCast _, ?_⟩
    rw [hq', Rat.num_natCast, Int.natAbs_natCast]
    calc (shortest q).1 * 10 ^ j < 10 ^ (shortest q).2.1 * 10 ^ j :=
          Nat.mul_lt_mul_of_pos_right hsmall (by positivity)
      _ = 10 ^ ((shortest q).2.1 + j) := (pow_add ..).symm
      _ ≤ 10 ^ 21 := Nat.pow_le_pow_right (by norm_num) (by omega)

/-! ## Values -/

mutual

/-- A value JSON can say: nothing absent, no function, numbers their text tells
and objects of distinct names. -/
def IsJson : Value → Prop
  | .undefined => False
  | .fn _ => False
  | .null => True
  | .bool _ => True
  | .num (.fin q) => Num.Exact q
  | .num _ => False
  | .str _ => True
  | .arr xs => ElementsJson xs
  | .obj ms => OrdMap.KeysNodup ms ∧ MembersJson ms

def ElementsJson : List Value → Prop
  | [] => True
  | x :: xs => IsJson x ∧ ElementsJson xs

def MembersJson : List (String × Value) → Prop
  | [] => True
  | (_, v) :: ms => IsJson v ∧ MembersJson ms

end

/-- The text of a value: it is told apart from a closing bracket by its first
character, and it reads as the value in front of anything that does not go on
with a number. -/
structure ReadsAs (t : List Char) (v : Value) : Prop where
  starts : ∃ c cs, t = c :: cs ∧ isJsonSpace c = false ∧ c ≠ ']'
  reads : ∀ fuel rest, t.length ≤ fuel → Stops rest →
    parseValue (fuel + 1) (t ++ rest) = some (v, rest)

/-- What a value prints reads as the value. -/
def Round (v : Value) : Prop := ∃ t, stringify v = some t ∧ ReadsAs t v

theorem digit_not_space {c : Char} (h : isDigit c = true ∨ c = '-') :
    isJsonSpace c = false ∧ c ≠ ']' := by
  have hplain : ∀ d : Char, isDigit d = false → d ≠ '-' → c ≠ d := by
    rintro d hd hm rfl
    rcases h with h | h
    · rw [hd] at h
      cases h
    · exact hm h
  refine ⟨?_, hplain ']' (by decide) (by decide)⟩
  unfold isJsonSpace
  simp [hplain ' ' (by decide) (by decide), hplain '\t' (by decide) (by decide),
    hplain '\n' (by decide) (by decide), hplain '\r' (by decide) (by decide)]

/-- A positive number starts with a digit. -/
theorem positiveText_starts (q : ℚ) : ∃ c cs, positiveText q = c :: cs ∧ isDigit c = true := by
  have hdigits : ∀ s, ∃ c cs, Nat.toDigits 10 s = c :: cs ∧ isDigit c = true := by
    intro s
    obtain ⟨c, cs, hcs⟩ := List.exists_cons_of_ne_nil (Nat.toDigits_ne_nil (n := s) (b := 10))
    exact ⟨c, cs, hcs, isDigit_of_mem_toDigits (hcs ▸ List.mem_cons_self ..)⟩
  unfold positiveText
  split
  next => exact hdigits _
  next =>
    obtain ⟨c, cs, hcs, hc⟩ := hdigits (shortest q).1
    unfold layout
    simp only [hcs]
    split
    next => exact ⟨c, _, rfl, hc⟩
    next =>
      split
      next hpoint =>
        obtain ⟨i, hi⟩ : ∃ i, (shortest q).2.2.toNat = i + 1 :=
          ⟨(shortest q).2.2.toNat - 1, by omega⟩
        rw [hi]
        exact ⟨c, _, rfl, hc⟩
      next =>
        split
        next => exact ⟨'0', _, rfl, by decide⟩
        next =>
          split
          next => exact ⟨c, _, rfl, hc⟩
          next => exact ⟨c, _, rfl, hc⟩

/-- Only a minus sign is not read as part of the digits. -/
theorem parseNumber_digit {c : Char} (hc : isDigit c = true) (cs : List Char) :
    parseNumber (c :: cs) = parseUnsigned false (c :: cs) := by
  unfold parseNumber
  split
  next heq => exact absurd (List.cons.inj heq).1 (digit_plain hc).2.1
  next => rfl

theorem Num.Exact.ofDecimal {q : ℚ} (h : Num.Exact q) : Num.ofDecimal q = .fin q := by
  have hrange := abs_lt.mp h.inRange
  unfold Num.ofDecimal
  rw [if_neg (not_le.mpr hrange.2), if_neg (not_le.mpr hrange.1)]

theorem parseUnsigned_zero {rest : List Char} (hrest : Stops rest) :
    parseUnsigned false ('0' :: rest) = some (.num (.fin 0), rest) := by
  have h := parseUnsigned_parts (q := 0) false (spanDigits_append hrest.noDigit ['0'] (by simp [isDigit]))
    (by simp) (by simp) hrest.fraction hrest.exponent (by simp [digitsVal])
  rw [if_neg (by simp), ofDecimal_of_small (by norm_num) (by norm_num)] at h
  exact h

/-- **A number reads back from its text.** -/
theorem round_num {q : ℚ} (h : Num.Exact q) : Round (.num (.fin q)) := by
  refine ⟨(Num.fin q).toText, by rw [stringify], ?_⟩
  unfold Num.toText
  dsimp only
  by_cases hneg : q < 0
  · rw [if_pos hneg]
    refine ⟨⟨'-', _, rfl, by decide, by decide⟩, fun fuel rest _ hrest => ?_⟩
    have habs : |q| = -q := abs_of_neg hneg
    have hdec := h.decimal
    rw [habs] at hdec
    have hread := parseUnsigned_positiveText true (q := -q) (by linarith)
      (hdec.imp_left fun hw => by simpa using hw) hrest
    rw [List.cons_append, parseValue_number fuel (Or.inr rfl)]
    show parseUnsigned true (positiveText (-q) ++ rest) = _
    rw [hread, if_pos rfl, neg_neg, h.ofDecimal]
  · rw [if_neg hneg]
    obtain ⟨c, cs, hcs, hc⟩ := positiveText_starts q
    refine ⟨⟨c, cs, hcs, digit_not_space (Or.inl hc)⟩, fun fuel rest _ hrest => ?_⟩
    have hread : parseUnsigned false (positiveText q ++ rest) = some (.num (.fin q), rest) := by
      by_cases hzero : q = 0
      · rw [hzero]
        exact parseUnsigned_zero hrest
      · have hpos : 0 < q := lt_of_le_of_ne (not_lt.mp hneg) (Ne.symm hzero)
        have hdec := h.decimal
        rw [abs_of_pos hpos] at hdec
        rw [parseUnsigned_positiveText false hpos hdec hrest, if_neg (by simp), h.ofDecimal]
    rw [hcs, List.cons_append] at hread ⊢
    rw [parseValue_number fuel (Or.inl hc), parseNumber_digit hc, hread]

theorem round_str (s : String) : Round (.str s) :=
  ⟨quote s.toList, by rw [stringify], ⟨'"', _, rfl, by decide, by decide⟩,
    fun fuel rest _ _ => parseValue_quote fuel s rest⟩

/-! ## Arrays and objects -/

theorem joinWith_cons (sep : Char) (x : List Char) {xs : List (List Char)} (h : xs ≠ []) :
    joinWith sep (x :: xs) = x ++ sep :: joinWith sep xs := by
  obtain ⟨y, ys, rfl⟩ := List.exists_cons_of_ne_nil h
  rfl

theorem stops_after (c : Char) (cs : List Char) (hc : c = ',' ∨ c = ']' ∨ c = '\x7d') :
    Stops (c :: cs) := by
  apply stops_cons
  rcases hc with rfl | rfl | rfl <;> decide

/-- An element in front of a comma. -/
theorem parseElements_comma {t : List Char} {v : Value} (h : ReadsAs t v) {fuel : Nat}
    (hfuel : t.length ≤ fuel) (acc : List Value) (rest : List Char) :
    parseElements (fuel + 2) acc (t ++ ',' :: rest) = parseElements (fuel + 1) (acc ++ [v]) rest := by
  have hread := h.reads fuel (',' :: rest) hfuel (stops_after _ _ (Or.inl rfl))
  rw [parseElements]
  simp only [hread, skipSpace_of_not (show isJsonSpace ',' = false by decide)]

/-- The last element. -/
theorem parseElements_close {t : List Char} {v : Value} (h : ReadsAs t v) {fuel : Nat}
    (hfuel : t.length ≤ fuel) (acc : List Value) (rest : List Char) :
    parseElements (fuel + 2) acc (t ++ ']' :: rest) = some (acc ++ [v], rest) := by
  have hread := h.reads fuel (']' :: rest) hfuel (stops_after _ _ (Or.inr (Or.inl rfl)))
  rw [parseElements]
  simp only [hread, skipSpace_of_not (show isJsonSpace ']' = false by decide)]

/-- The elements after a bracket; each comma spends one of the fuel. -/
theorem parseElements_texts : ∀ (xs : List Value), (∀ x ∈ xs, Round x) → xs ≠ [] →
    ∀ (fuel : Nat) (acc : List Value) (rest : List Char),
      (joinWith ',' (elementTexts xs)).length < fuel →
      parseElements (fuel + 1) acc (joinWith ',' (elementTexts xs) ++ ']' :: rest) =
        some (acc ++ xs, rest)
  | [], _, hne, _, _, _, _ => absurd rfl hne
  | x :: xs, h, _, fuel, acc, rest, hfuel => by
    obtain ⟨t, ht, hreads⟩ := h x (List.mem_cons_self ..)
    obtain ⟨fuel, rfl⟩ : ∃ n, fuel = n + 1 := ⟨fuel - 1, by omega⟩
    rw [elementTexts, ht, Option.getD_some] at hfuel ⊢
    cases xs with
    | nil =>
      rw [elementTexts, joinWith] at hfuel ⊢
      exact parseElements_close hreads (by omega) acc rest
    | cons y ys =>
      have hne : elementTexts (y :: ys) ≠ [] := by
        rw [elementTexts]
        simp
      rw [joinWith_cons _ _ hne] at hfuel ⊢
      rw [List.length_append, List.length_cons] at hfuel
      rw [List.append_assoc, List.cons_append, parseElements_comma hreads (by omega) acc,
        parseElements_texts (y :: ys) (fun z hz => h z (List.mem_cons_of_mem _ hz)) (by simp)
          fuel _ rest (by omega), List.append_assoc, List.singleton_append]

/-- A printed member up to its value. -/
theorem member_shape (k : String) (t rest : List Char) :
    quote k.toList ++ ':' :: t ++ rest =
      '"' :: (k.toList.flatMap quoteChar ++ ('"' :: ':' :: (t ++ rest))) := by
  unfold quote
  simp

/-- A member in front of a comma. -/
theorem parseMembers_comma {t : List Char} {v : Value} (h : ReadsAs t v) (k : String) {fuel : Nat}
    (hfuel : t.length ≤ fuel) (acc : Obj) (rest : List Char) :
    parseMembers (fuel + 2) acc (quote k.toList ++ ':' :: t ++ ',' :: rest) =
      parseMembers (fuel + 1) (Obj.set acc k v) rest := by
  have hread := h.reads fuel (',' :: rest) hfuel (stops_after _ _ (Or.inl rfl))
  rw [member_shape, parseMembers, skipSpace_of_not (by decide)]
  simp only [parseString_quote, hread, skipSpace_of_not (show isJsonSpace ',' = false by decide),
    skipSpace_of_not (show isJsonSpace ':' = false by decide)]

/-- The last member. -/
theorem parseMembers_close {t : List Char} {v : Value} (h : ReadsAs t v) (k : String) {fuel : Nat}
    (hfuel : t.length ≤ fuel) (acc : Obj) (rest : List Char) :
    parseMembers (fuel + 2) acc (quote k.toList ++ ':' :: t ++ '\x7d' :: rest) =
      some (Obj.set acc k v, rest) := by
  have hread := h.reads fuel ('\x7d' :: rest) hfuel (stops_after _ _ (Or.inr (Or.inr rfl)))
  rw [member_shape, parseMembers, skipSpace_of_not (by decide)]
  simp only [parseString_quote, hread, skipSpace_of_not (show isJsonSpace '\x7d' = false by decide),
    skipSpace_of_not (show isJsonSpace ':' = false by decide)]

theorem parseMembers_texts : ∀ (ms : List (String × Value)), (∀ m ∈ ms, Round m.2) → ms ≠ [] →
    ∀ (fuel : Nat) (acc : Obj) (rest : List Char),
      (joinWith ',' (memberTexts ms)).length < fuel →
      parseMembers (fuel + 1) acc (joinWith ',' (memberTexts ms) ++ '\x7d' :: rest) =
        some (Obj.spread acc ms, rest)
  | [], _, hne, _, _, _, _ => absurd rfl hne
  | (k, v) :: ms, h, _, fuel, acc, rest, hfuel => by
    obtain ⟨t, ht, hreads⟩ : Round v := h (k, v) (List.mem_cons_self ..)
    obtain ⟨fuel, rfl⟩ : ∃ n, fuel = n + 1 := ⟨fuel - 1, by omega⟩
    have htexts : memberTexts ((k, v) :: ms) = (quote k.toList ++ ':' :: t) :: memberTexts ms := by
      rw [memberTexts, ht]
    rw [htexts] at hfuel ⊢
    cases ms with
    | nil =>
      rw [memberTexts, joinWith, List.length_append, List.length_cons] at hfuel
      rw [memberTexts, joinWith]
      exact parseMembers_close hreads k (by omega) acc rest
    | cons m ms =>
      have hne : memberTexts (m :: ms) ≠ [] := by
        obtain ⟨t', ht', -⟩ := h m (by simp)
        rw [memberTexts, ht']
        simp
      rw [joinWith_cons _ _ hne, List.length_append, List.length_append, List.length_cons,
        List.length_cons] at hfuel
      rw [joinWith_cons _ _ hne, List.append_assoc, List.cons_append (a := ','),
        parseMembers_comma hreads k (by omega) acc]
      exact parseMembers_texts (m :: ms) (fun z hz => h z (List.mem_cons_of_mem _ hz)) (by simp)
        fuel (Obj.set acc k v) rest (by omega)

/-- An array with a first element. -/
theorem parseValue_bracket (fuel : Nat) {c : Char} (hspace : isJsonSpace c = false) (hc : c ≠ ']')
    (cs : List Char) :
    parseValue (fuel + 1) ('[' :: c :: cs) =
      (parseElements fuel [] (c :: cs)).map (fun p => (Value.arr p.1, p.2)) := by
  rw [parseValue, skipSpace_of_not (by decide)]
  simp only [skipSpace_of_not hspace]
  split
  next heq => exact absurd (List.cons.inj heq).1 hc
  next => rfl

theorem round_arr {xs : List Value} (h : ∀ x ∈ xs, Round x) : Round (.arr xs) := by
  refine ⟨_, by rw [stringify], ⟨'[', _, rfl, by decide, by decide⟩, fun fuel rest hfuel _ => ?_⟩
  rw [List.length_cons, List.length_append, List.length_singleton] at hfuel
  rw [List.cons_append, List.append_assoc, List.singleton_append]
  cases xs with
  | nil => rfl
  | cons x xs =>
    obtain ⟨t, ht, hreads⟩ := h x (List.mem_cons_self ..)
    obtain ⟨c, cs, hcs, hspace, hclose⟩ := hreads.starts
    obtain ⟨fuel, rfl⟩ : ∃ n, fuel = n + 1 := ⟨fuel - 1, by omega⟩
    have hread := parseElements_texts (x :: xs) h (by simp) fuel [] rest (by omega)
    -- the first element does not look like the end
    obtain ⟨tail, htail⟩ : ∃ tail, joinWith ',' (elementTexts (x :: xs)) ++ ']' :: rest = c :: tail := by
      rw [elementTexts, ht, Option.getD_some, hcs]
      cases elementTexts xs with
      | nil => exact ⟨_, rfl⟩
      | cons y ys => exact ⟨_, rfl⟩
    rw [htail] at hread ⊢
    rw [parseValue_bracket _ hspace hclose, hread]
    rfl

theorem round_obj {ms : List (String × Value)} (hnodup : OrdMap.KeysNodup ms)
    (h : ∀ m ∈ ms, Round m.2) : Round (.obj ms) := by
  refine ⟨_, by rw [stringify], ⟨'\x7b', _, rfl, by decide, by decide⟩, fun fuel rest hfuel _ => ?_⟩
  rw [List.length_cons, List.length_append, List.length_singleton] at hfuel
  rw [List.cons_append, List.append_assoc, List.singleton_append]
  cases ms with
  | nil => rfl
  | cons m ms =>
    obtain ⟨t, ht, hreads⟩ := h m (List.mem_cons_self ..)
    obtain ⟨fuel, rfl⟩ : ∃ n, fuel = n + 1 := ⟨fuel - 1, by omega⟩
    have hread := parseMembers_texts (m :: ms) h (by simp) fuel [] rest (by omega)
    obtain ⟨tail, htail⟩ : ∃ tail,
        joinWith ',' (memberTexts (m :: ms)) ++ '\x7d' :: rest = '"' :: tail := by
      rw [memberTexts, ht]
      dsimp only
      unfold quote
      cases memberTexts ms with
      | nil => exact ⟨_, rfl⟩
      | cons y ys => exact ⟨_, rfl⟩
    rw [htail] at hread ⊢
    rw [parseValue_open, hread, Obj.spread_nodup (m :: ms) [] hnodup]
    rfl

/-! ## The round trip -/

mutual

theorem round_of_json : ∀ v : Value, IsJson v → Round v
  | .undefined, h => h.elim
  | .fn _, h => h.elim
  | .null, _ =>
    ⟨"null".toList, by rw [stringify], ⟨'n', _, rfl, by decide, by decide⟩, fun _ _ _ _ => rfl⟩
  | .bool true, _ =>
    ⟨"true".toList, by rw [stringify], ⟨'t', _, rfl, by decide, by decide⟩, fun _ _ _ _ => rfl⟩
  | .bool false, _ =>
    ⟨"false".toList, by rw [stringify], ⟨'f', _, rfl, by decide, by decide⟩, fun _ _ _ _ => rfl⟩
  | .num (.fin _), h => round_num h
  | .num .nan, h => h.elim
  | .num .negInf, h => h.elim
  | .num .posInf, h => h.elim
  | .str s, _ => round_str s
  | .arr xs, h => round_arr (round_of_elements xs h)
  | .obj ms, h => round_obj h.1 (round_of_members ms h.2)

theorem round_of_elements : ∀ xs : List Value, ElementsJson xs → ∀ x ∈ xs, Round x
  | [], _, _, hx => (List.not_mem_nil hx).elim
  | y :: xs, h, x, hx => by
    rcases List.mem_cons.mp hx with heq | hx
    · exact heq ▸ round_of_json y h.1
    · exact round_of_elements xs h.2 x hx

theorem round_of_members : ∀ ms : List (String × Value), MembersJson ms → ∀ m ∈ ms, Round m.2
  | [], _, _, hm => (List.not_mem_nil hm).elim
  | (k, v) :: ms, h, m, hm => by
    rcases List.mem_cons.mp hm with heq | hm
    · exact heq ▸ round_of_json v h.1
    · exact round_of_members ms h.2 m hm

end

/-- **`JSON.parse(JSON.stringify(v))` is `v`**, for every value JSON can say. -/
theorem parse_stringify {v : Value} (h : IsJson v) :
    ∃ t, stringify v = some t ∧ parse (String.ofList t) = some v := by
  obtain ⟨t, ht, hreads⟩ := round_of_json v h
  refine ⟨t, ht, ?_⟩
  have hread := hreads.reads t.length [] (Nat.le_refl _) stops_nil
  rw [List.append_nil] at hread
  unfold parse
  rw [String.toList_ofList, hread]
  rfl

end Js
