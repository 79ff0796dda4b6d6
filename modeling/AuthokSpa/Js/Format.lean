import AuthokSpa.Js.Value
import AuthokSpa.Js.Text
import AuthokSpa.Js.Uri
import Mathlib.Data.Int.Log
import Mathlib.Data.Nat.Digits.Defs

/-!
# Text of numbers and values

`String(n)`, `parseInt(s)`, `parseInt(s, 10)` and `String(v)`. A finite number is printed from
its shortest decimal: the digits and the place of the point. A number with no
decimal of at most 17 digits, which a double always has, is cut off there.

`parseInt_toText` is what callers need: a whole number below 10^21 survives
being printed and read. Above that the text has an exponent, and reading it
stops at the first digit.
-/

namespace Js

/-! ## Decimal digits -/

/-- The value of a list of decimal digits. -/
def digitsVal (ds : List Char) : Nat := ds.foldl (fun n d => 10 * n + (d.toNat - 48)) 0

theorem digitChar_toNat : ∀ d, d < 10 → (Nat.digitChar d).toNat - 48 = d := by decide

theorem digitsVal_concat (ds : List Char) (d : Char) :
    digitsVal (ds ++ [d]) = 10 * digitsVal ds + (d.toNat - 48) := by
  unfold digitsVal
  rw [List.foldl_append]
  rfl

/-- Printing a natural number and reading its digits. -/
theorem digitsVal_toDigits (n : Nat) : digitsVal (Nat.toDigits 10 n) = n := by
  induction n using Nat.strongRecOn with
  | ind n ih =>
    by_cases h : n < 10
    · rw [Nat.toDigits_of_lt_base h]
      show 10 * 0 + ((Nat.digitChar n).toNat - 48) = n
      rw [digitChar_toNat n h]
      omega
    · rw [Nat.toDigits_of_base_le (by omega) (by omega), digitsVal_concat, ih (n / 10) (by omega),
        digitChar_toNat (n % 10) (by omega)]
      omega

/-- A character is a decimal digit. -/
def isDigit (c : Char) : Bool := 48 ≤ c.toNat && c.toNat ≤ 57

theorem isDigit_of_mem_toDigits {n : Nat} {c : Char} (h : c ∈ Nat.toDigits 10 n) :
    isDigit c = true := by
  have hd := Nat.isDigit_of_mem_toDigits (by omega) (by omega) h
  simpa [isDigit, Char.isDigit, UInt32.le_iff_toNat_le] using hd

/-- The digits in front of a text, and the rest. -/
def spanDigits : List Char → List Char × List Char
  | [] => ([], [])
  | c :: cs => if isDigit c then (c :: (spanDigits cs).1, (spanDigits cs).2) else ([], c :: cs)

/-- The text does not go on with a digit. -/
def NoDigit (cs : List Char) : Prop := ∀ c ∈ cs.head?, isDigit c = false

theorem spanDigits_append {rest : List Char} (hrest : NoDigit rest) :
    ∀ ds : List Char, (∀ d ∈ ds, isDigit d = true) → spanDigits (ds ++ rest) = (ds, rest)
  | [], _ => by
    cases rest with
    | nil => rfl
    | cons c cs =>
      have hc : isDigit c = false := hrest c rfl
      rw [List.nil_append, spanDigits, hc]
      rfl
  | d :: ds, h => by
    have hd := h d (List.mem_cons_self ..)
    have ih := spanDigits_append hrest ds (fun x hx => h x (List.mem_cons_of_mem _ hx))
    rw [List.cons_append, spanDigits, if_pos hd, ih]

/-! ## Numbers -/

/-- The shortest decimal `(s, k, n)` of a positive number: `s` has `k` digits
and the number is `0.s * 10^n`. -/
def shortest (q : ℚ) : Nat × Nat × Int :=
  let n := Int.log 10 q + 1
  let digits (k : Nat) : Nat := ⌊q * (10 : ℚ) ^ ((k : Int) - n)⌋₊
  match (List.range 17).find? (fun i => (digits (i + 1) : ℚ) = q * (10 : ℚ) ^ ((i + 1 : Int) - n)) with
  | some i => (digits (i + 1), i + 1, n)
  | none => (digits 17, 17, n)

/-- The layout of a decimal: plain, with a point, or with an exponent. -/
def layout (s k : Nat) (n : Int) : List Char :=
  let ds := Nat.toDigits 10 s
  if k ≤ n ∧ n ≤ 21 then ds ++ List.replicate (n - k).toNat '0'
  else if 0 < n ∧ n ≤ 21 then ds.take n.toNat ++ '.' :: ds.drop n.toNat
  else if -6 < n ∧ n ≤ 0 then '0' :: '.' :: List.replicate (-n).toNat '0' ++ ds
  else
    let e := n - 1
    let mantissa := if k = 1 then ds else ds.take 1 ++ '.' :: ds.drop 1
    mantissa ++ 'e' :: (if 0 ≤ e then '+' else '-') :: Nat.toDigits 10 e.natAbs

/-- The text of a positive number. -/
def positiveText (q : ℚ) : List Char :=
  if q.den = 1 ∧ q.num.natAbs < 10 ^ 21 then Nat.toDigits 10 q.num.natAbs
  else
    let d := shortest q
    layout d.1 d.2.1 d.2.2

/-- `String(n)`. -/
def Num.toText : Num → List Char
  | nan => "NaN".toList
  | negInf => "-Infinity".toList
  | posInf => "Infinity".toList
  | fin q => if q < 0 then '-' :: positiveText (-q) else positiveText q

/-- Characters that `trim`, `parseInt` and `\s` take as whitespace. -/
def isSpace (c : Char) : Bool :=
  let n := c.toNat
  (9 ≤ n && n ≤ 13) || n = 0x20 || n = 0xa0 || n = 0x1680 || (0x2000 ≤ n && n ≤ 0x200a) ||
    n = 0x2028 || n = 0x2029 || n = 0x202f || n = 0x205f || n = 0x3000 || n = 0xfeff

/-- The number of a run of digits; `NaN` when there is none. -/
def numberOfDigits (negative : Bool) (cs : List Char) : Num :=
  let ds := (spanDigits cs).1
  if ds = [] then .nan
  else .fin (if negative then -(digitsVal ds : ℚ) else (digitsVal ds : ℚ))

/-- The number of a run of hexadecimal digits. -/
def numberOfHexDigits (negative : Bool) (cs : List Char) : Num :=
  let ds := (cs.takeWhile fun c => (hexVal c).isSome).filterMap hexVal
  let n : Nat := ds.foldl (fun n d => 16 * n + d) 0
  if ds = [] then .nan
  else .fin (if negative then -(n : ℚ) else (n : ℚ))

/-- A text that starts with `0x` is hexadecimal. -/
def numberOfText (negative : Bool) : List Char → Num
  | '0' :: 'x' :: cs => numberOfHexDigits negative cs
  | '0' :: 'X' :: cs => numberOfHexDigits negative cs
  | cs => numberOfDigits negative cs

/-- Blanks and a sign in front of a number. -/
def signed (number : Bool → List Char → Num) (s : List Char) : Num :=
  match s.dropWhile isSpace with
  | '-' :: cs => number true cs
  | '+' :: cs => number false cs
  | cs => number false cs

/-- `parseInt(s)`. -/
def parseInt (s : List Char) : Num := signed numberOfText s

/-- `parseInt(s, 10)`. -/
def parseIntDecimal (s : List Char) : Num := signed numberOfDigits s

theorem noDigit_nil : NoDigit [] := by
  intro c hc
  cases hc

theorem numberOfDigits_toDigits (negative : Bool) (n : Nat) :
    numberOfDigits negative (Nat.toDigits 10 n) =
      .fin (if negative then -(n : ℚ) else (n : ℚ)) := by
  have hspan : spanDigits (Nat.toDigits 10 n) = (Nat.toDigits 10 n, []) := by
    have h := spanDigits_append noDigit_nil (Nat.toDigits 10 n)
      (fun d hd => isDigit_of_mem_toDigits hd)
    rwa [List.append_nil] at h
  unfold numberOfDigits
  rw [hspan]
  dsimp only
  rw [if_neg Nat.toDigits_ne_nil, digitsVal_toDigits]

/-- A digit is neither whitespace nor a sign. -/
theorem digit_plain {c : Char} (h : isDigit c = true) :
    isSpace c = false ∧ c ≠ '-' ∧ c ≠ '+' := by
  obtain ⟨hlo, hhi⟩ : 48 ≤ c.toNat ∧ c.toNat ≤ 57 := by simpa [isDigit] using h
  refine ⟨?_, ?_, ?_⟩
  · simp only [isSpace, Bool.or_eq_false_iff, Bool.and_eq_false_iff, decide_eq_false_iff_not]
    omega
  · rintro rfl
    exact absurd hlo (by decide)
  · rintro rfl
    exact absurd hlo (by decide)

/-- Digits say no radix. -/
theorem numberOfText_of_digits {cs : List Char} (h : ∀ c ∈ cs, isDigit c = true) (negative : Bool) :
    numberOfText negative cs = numberOfDigits negative cs := by
  unfold numberOfText
  split
  · exact absurd (h 'x' (by simp)) (by decide)
  · exact absurd (h 'X' (by simp)) (by decide)
  · rfl

theorem numberOfText_toDigits (negative : Bool) (n : Nat) :
    numberOfText negative (Nat.toDigits 10 n) = .fin (if negative then -(n : ℚ) else (n : ℚ)) := by
  rw [numberOfText_of_digits fun c hc => isDigit_of_mem_toDigits hc, numberOfDigits_toDigits]

/-- A digit in front: no blanks and no sign. -/
theorem signed_of_digit (number : Bool → List Char → Num) {c : Char} (hc : isDigit c = true)
    (cs : List Char) : signed number (c :: cs) = number false (c :: cs) := by
  obtain ⟨hsp, hminus, hplus⟩ := digit_plain hc
  unfold signed
  rw [List.dropWhile_cons, hsp]
  simp only [Bool.false_eq_true, if_false]
  split
  next heq => exact absurd (List.cons.inj heq).1 hminus
  next heq => exact absurd (List.cons.inj heq).1 hplus
  next => rfl

theorem parseInt_toDigits (n : Nat) : parseInt (Nat.toDigits 10 n) = .fin (n : ℚ) := by
  have hnum := numberOfText_toDigits false n
  have hmem := @isDigit_of_mem_toDigits n
  unfold parseInt
  cases hds : Nat.toDigits 10 n with
  | nil => exact absurd hds Nat.toDigits_ne_nil
  | cons c cs =>
    rw [hds] at hnum hmem
    rw [signed_of_digit _ (hmem (List.mem_cons_self ..)), hnum]
    rfl

theorem parseInt_minus_toDigits (n : Nat) :
    parseInt ('-' :: Nat.toDigits 10 n) = .fin (-(n : ℚ)) := by
  have hnum := numberOfText_toDigits true n
  rw [if_pos rfl] at hnum
  rw [← hnum]
  unfold parseInt signed
  rw [List.dropWhile_cons]
  have hsp : isSpace '-' = false := by decide
  rw [hsp]
  rfl

/-- The text of a whole number below 10^21. -/
theorem toText_ofInt {z : Int} (hz : z.natAbs < 10 ^ 21) :
    (Num.fin z).toText = if z < 0 then '-' :: Nat.toDigits 10 z.natAbs
      else Nat.toDigits 10 z.natAbs := by
  unfold Num.toText positiveText
  by_cases hneg : z < 0
  · have hq : ((z : ℤ) : ℚ) < 0 := by exact_mod_cast hneg
    rw [if_pos hneg]
    simp only [if_pos hq]
    have hnat : (-(z : ℚ)).num.natAbs = z.natAbs := by simp
    have hden : (-(z : ℚ)).den = 1 := by simp
    rw [if_pos ⟨hden, by rw [hnat]; exact hz⟩, hnat]
  · have hq : ¬ ((z : ℤ) : ℚ) < 0 := by exact_mod_cast hneg
    rw [if_neg hneg]
    simp only [if_neg hq]
    have hnat : ((z : ℤ) : ℚ).num.natAbs = z.natAbs := by simp
    have hden : ((z : ℤ) : ℚ).den = 1 := by simp
    rw [if_pos ⟨hden, by rw [hnat]; exact hz⟩, hnat]

/-- A whole number below 10^21 is read back from its text. -/
theorem parseInt_toText {z : Int} (hz : z.natAbs < 10 ^ 21) :
    parseInt (Num.fin z).toText = .fin z := by
  rw [toText_ofInt hz]
  split
  next hneg =>
    rw [parseInt_minus_toDigits]
    congr 1
    have habs : (z.natAbs : Int) = -z := by omega
    rw [← Int.cast_natCast, habs, Int.cast_neg, neg_neg]
  next hpos =>
    rw [parseInt_toDigits]
    congr 1
    have habs : (z.natAbs : Int) = z := by omega
    rw [← Int.cast_natCast, habs]

/-! ## Values -/

/-- `v == null`. -/
def Value.isNullish : Value → Bool
  | .undefined => true
  | .null => true
  | _ => false

mutual

/-- `String(v)`. Objects print their default text, functions their source. -/
def Value.toText : Value → List Char
  | .undefined => "undefined".toList
  | .null => "null".toList
  | .bool true => "true".toList
  | .bool false => "false".toList
  | .num n => n.toText
  | .str s => s.toList
  | .arr xs => elementsText xs
  | .obj _ => "[object Object]".toList
  | .fn source => source.toList

/-- `xs.join(',')`: an absent element prints nothing. -/
def elementsText : List Value → List Char
  | [] => []
  | [x] => if x.isNullish then [] else x.toText
  | x :: y :: xs => (if x.isNullish then [] else x.toText) ++ ',' :: elementsText (y :: xs)

end

theorem Value.toText_num (n : Num) : (Value.num n).toText = n.toText := rfl

/-- `String(v)` as a string. -/
def Value.text (v : Value) : String := String.ofList v.toText

theorem Value.text_str (s : String) : (Value.str s).text = s := String.ofList_toList

end Js
