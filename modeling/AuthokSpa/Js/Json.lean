import AuthokSpa.Js.Format
import AuthokSpa.Js.Uri

/-!
# JSON

`JSON.stringify` and `JSON.parse`. Printing skips what JSON cannot say: a
member that is `undefined` or a function is left out, an array element of that
kind and a number that is not finite print as `null`.

The parser is the usual recursive descent over characters, `fuel` bounding the
nesting and the members still to come; the text's own length is always enough.
A string is read as code units first, since `\u` escapes may split a character
in two; half of one, which no `Char` can hold, reads as U+FFFD. Of two members
of one name the last wins.

`parse_object` reads back an object of scalar members from its text.
-/

namespace Js

/-! ## Printing -/

/-- One character of a quoted string. -/
def quoteChar (c : Char) : List Char :=
  if c = '"' then ['\\', '"']
  else if c = '\\' then ['\\', '\\']
  else if c.toNat = 8 then ['\\', 'b']
  else if c.toNat = 12 then ['\\', 'f']
  else if c.toNat = 10 then ['\\', 'n']
  else if c.toNat = 13 then ['\\', 'r']
  else if c.toNat = 9 then ['\\', 't']
  else if c.toNat < 32 then
    ['\\', 'u', '0', '0', hexDigit (c.toNat / 16), hexDigit (c.toNat % 16)]
  else [c]

/-- A quoted string. -/
def quote (s : List Char) : List Char := '"' :: (s.flatMap quoteChar ++ ['"'])

mutual

/-- `JSON.stringify(v)`; `none` is `undefined`. -/
def stringify : Value → Option (List Char)
  | .undefined => none
  | .fn _ => none
  | .null => some "null".toList
  | .bool true => some "true".toList
  | .bool false => some "false".toList
  | .num (.fin q) => some (Num.fin q).toText
  | .num _ => some "null".toList
  | .str s => some (quote s.toList)
  | .arr xs => some ('[' :: (joinWith ',' (elementTexts xs) ++ [']']))
  | .obj ms => some ('\x7b' :: (joinWith ',' (memberTexts ms) ++ ['\x7d']))

def elementTexts : List Value → List (List Char)
  | [] => []
  | x :: xs => (stringify x).getD "null".toList :: elementTexts xs

def memberTexts : List (String × Value) → List (List Char)
  | [] => []
  | (k, v) :: ms =>
    match stringify v with
    | none => memberTexts ms
    | some t => (quote k.toList ++ ':' :: t) :: memberTexts ms

end

/-- Members that do not print can be left out. -/
theorem memberTexts_without {ks : List String} :
    ∀ {o : Obj}, (∀ m ∈ o, m.1 ∈ ks → stringify m.2 = none) →
      memberTexts (o.without ks) = memberTexts o
  | [], _ => rfl
  | (k, v) :: o, h => by
    have ih := memberTexts_without fun m hm => h m (List.mem_cons_of_mem _ hm)
    have hcons : Obj.without ((k, v) :: o) ks =
        if k ∈ ks then Obj.without o ks else (k, v) :: Obj.without o ks := by
      unfold Obj.without OrdMap.restrict
      rw [List.filter_cons]
      by_cases hk : k ∈ ks <;> simp [hk]
    rw [hcons]
    split
    next hk => rw [ih, memberTexts, h (k, v) (List.mem_cons_self ..) hk]
    next hk => rw [memberTexts, memberTexts, ih]

/-! ## Parsing -/

def isJsonSpace (c : Char) : Bool := c = ' ' || c = '\t' || c = '\n' || c = '\r'

def skipSpace (cs : List Char) : List Char := cs.dropWhile isJsonSpace

/-- The code units of a string after its opening quote, and the rest. -/
def parseUnits : List Char → Option (List Nat × List Char)
  | [] => none
  | '"' :: cs => some ([], cs)
  | '\\' :: 'u' :: a :: b :: c :: d :: cs =>
    match hexVal a, hexVal b, hexVal c, hexVal d with
    | some w, some x, some y, some z =>
      (parseUnits cs).map fun p => ((((w * 16 + x) * 16 + y) * 16 + z) :: p.1, p.2)
    | _, _, _, _ => none
  | '\\' :: e :: cs =>
    match e with
    | '"' => (parseUnits cs).map fun p => (34 :: p.1, p.2)
    | '\\' => (parseUnits cs).map fun p => (92 :: p.1, p.2)
    | '/' => (parseUnits cs).map fun p => (47 :: p.1, p.2)
    | 'b' => (parseUnits cs).map fun p => (8 :: p.1, p.2)
    | 'f' => (parseUnits cs).map fun p => (12 :: p.1, p.2)
    | 'n' => (parseUnits cs).map fun p => (10 :: p.1, p.2)
    | 'r' => (parseUnits cs).map fun p => (13 :: p.1, p.2)
    | 't' => (parseUnits cs).map fun p => (9 :: p.1, p.2)
    | _ => none
  | c :: cs =>
    if c.toNat < 32 ∨ c = '\\' then none else (parseUnits cs).map fun p => (c.toNat :: p.1, p.2)

/-- The characters of some code units. -/
def charsOfUnits : List Nat → List Char
  | [] => []
  | [u] => [if 0xd800 ≤ u ∧ u < 0xe000 then Char.ofNat 0xfffd else Char.ofNat u]
  | u :: v :: us =>
    if 0xd800 ≤ u ∧ u < 0xdc00 ∧ 0xdc00 ≤ v ∧ v < 0xe000 then
      Char.ofNat (0x10000 + (u - 0xd800) * 0x400 + (v - 0xdc00)) :: charsOfUnits us
    else
      (if 0xd800 ≤ u ∧ u < 0xe000 then Char.ofNat 0xfffd else Char.ofNat u) :: charsOfUnits (v :: us)

/-- A string after its opening quote. -/
def parseString (cs : List Char) : Option (String × List Char) :=
  (parseUnits cs).map fun p => (String.ofList (charsOfUnits p.1), p.2)

/-- Where rounding to a double gives an infinity: 2^1024 less half of the last
place. -/
def doubleLimit : ℚ := 2 ^ 970 * (2 ^ 54 - 1)

/-- A double holds the value, or it overflows to an infinity. -/
def Num.ofDecimal (q : ℚ) : Num :=
  if doubleLimit ≤ q then .posInf else if q ≤ -doubleLimit then .negInf else .fin q

/-- The digits after a point, if there is one. -/
def parseFraction : List Char → Option (List Char × List Char)
  | '.' :: cs => if (spanDigits cs).1 = [] then none else some (spanDigits cs)
  | cs => some ([], cs)

/-- The digits of an exponent. -/
def parseExponentDigits (negative : Bool) (cs : List Char) : Option (Int × List Char) :=
  let p := spanDigits cs
  if p.1 = [] then none
  else some (if negative then -(digitsVal p.1 : Int) else (digitsVal p.1 : Int), p.2)

/-- The exponent, if there is one. -/
def parseExponent : List Char → Option (Int × List Char)
  | c :: cs =>
    if c = 'e' ∨ c = 'E' then
      match cs with
      | '-' :: cs => parseExponentDigits true cs
      | '+' :: cs => parseExponentDigits false cs
      | cs => parseExponentDigits false cs
    else some (0, c :: cs)
  | [] => some (0, [])

/-- A number without its sign. -/
def parseUnsigned (negative : Bool) (cs : List Char) : Option (Value × List Char) :=
  let p := spanDigits cs
  if p.1 = [] ∨ (1 < p.1.length ∧ p.1.head? = some '0') then none
  else do
    let f ← parseFraction p.2
    let e ← parseExponent f.2
    let q : ℚ := digitsVal (p.1 ++ f.1) * (10 : ℚ) ^ (e.1 - f.1.length)
    some (.num (Num.ofDecimal (if negative then -q else q)), e.2)

def parseNumber : List Char → Option (Value × List Char)
  | '-' :: cs => parseUnsigned true cs
  | cs => parseUnsigned false cs

mutual

def parseValue : Nat → List Char → Option (Value × List Char)
  | 0, _ => none
  | fuel + 1, cs =>
    match skipSpace cs with
    | '\x7b' :: cs =>
      match skipSpace cs with
      | '\x7d' :: cs => some (.obj [], cs)
      | _ => (parseMembers fuel [] cs).map fun p => (.obj p.1, p.2)
    | '[' :: cs =>
      match skipSpace cs with
      | ']' :: cs => some (.arr [], cs)
      | _ => (parseElements fuel [] cs).map fun p => (.arr p.1, p.2)
    | '"' :: cs => (parseString cs).map fun p => (.str p.1, p.2)
    | 't' :: 'r' :: 'u' :: 'e' :: cs => some (.bool true, cs)
    | 'f' :: 'a' :: 'l' :: 's' :: 'e' :: cs => some (.bool false, cs)
    | 'n' :: 'u' :: 'l' :: 'l' :: cs => some (.null, cs)
    | cs => parseNumber cs

/-- The members still to come, with those read so far. -/
def parseMembers : Nat → Obj → List Char → Option (Obj × List Char)
  | 0, _, _ => none
  | fuel + 1, acc, cs =>
    match skipSpace cs with
    | '"' :: cs =>
      match parseString cs with
      | none => none
      | some (k, cs) =>
        match skipSpace cs with
        | ':' :: cs =>
          match parseValue fuel cs with
          | none => none
          | some (v, cs) =>
            match skipSpace cs with
            | ',' :: cs => parseMembers fuel (Obj.set acc k v) cs
            | '\x7d' :: cs => some (Obj.set acc k v, cs)
            | _ => none
        | _ => none
    | _ => none

/-- The elements still to come, with those read so far. -/
def parseElements : Nat → List Value → List Char → Option (List Value × List Char)
  | 0, _, _ => none
  | fuel + 1, acc, cs =>
    match parseValue fuel cs with
    | none => none
    | some (v, cs) =>
      match skipSpace cs with
      | ',' :: cs => parseElements fuel (acc ++ [v]) cs
      | ']' :: cs => some (acc ++ [v], cs)
      | _ => none

end

/-- `JSON.parse`; `none` is a thrown `SyntaxError`. -/
def parse (s : String) : Option Value :=
  match parseValue (s.toList.length + 1) s.toList with
  | none => none
  | some (v, rest) => if skipSpace rest = [] then some v else none

/-! ## Reading back -/

/-- What may follow a value inside an object. -/
def Ends (rest : List Char) : Prop := ∀ c ∈ rest.head?, c = ',' ∨ c = '\x7d'

/-- The text reads as the value, whatever follows it. -/
def Reads (t : List Char) (v : Value) : Prop :=
  ∀ fuel rest, Ends rest → parseValue (fuel + 1) (t ++ rest) = some (v, rest)

/-- Reading one printed character. -/
theorem parseUnits_quoteChar (c : Char) (rest : List Char) :
    parseUnits (quoteChar c ++ rest) = (parseUnits rest).map fun p => (c.toNat :: p.1, p.2) := by
  unfold quoteChar
  -- the escapes of `quoteChar`, in its order
  by_cases h1 : c = '"'
  · rw [if_pos h1, h1]
    rfl
  rw [if_neg h1]
  by_cases h2 : c = '\\'
  · rw [if_pos h2, h2]
    rfl
  rw [if_neg h2]
  by_cases h3 : c.toNat = 8
  · rw [if_pos h3, h3]
    rfl
  rw [if_neg h3]
  by_cases h4 : c.toNat = 12
  · rw [if_pos h4, h4]
    rfl
  rw [if_neg h4]
  by_cases h5 : c.toNat = 10
  · rw [if_pos h5, h5]
    rfl
  rw [if_neg h5]
  by_cases h6 : c.toNat = 13
  · rw [if_pos h6, h6]
    rfl
  rw [if_neg h6]
  by_cases h7 : c.toNat = 9
  · rw [if_pos h7, h7]
    rfl
  rw [if_neg h7]
  by_cases h8 : c.toNat < 32
  · rw [if_pos h8]
    -- four digits, the first two of which are zero
    have hhi := hexVal_hexDigit (c.toNat / 16) (by omega)
    have hlo := hexVal_hexDigit (c.toNat % 16) (by omega)
    have hzero : hexVal '0' = some 0 := by decide
    have hval : ((0 * 16 + 0) * 16 + c.toNat / 16) * 16 + c.toNat % 16 = c.toNat := by omega
    simp only [List.cons_append, List.nil_append, parseUnits, hzero, hhi, hlo, hval]
  · rw [if_neg h8, List.cons_append, List.nil_append, parseUnits.eq_def]
    -- a character that is printed as it is starts no escape
    split
    next heq => cases heq
    next heq => exact absurd (List.cons.inj heq).1 h1
    next heq => exact absurd (List.cons.inj heq).1 h2
    next heq => exact absurd (List.cons.inj heq).1 h2
    next heq =>
      obtain ⟨rfl, rfl⟩ := List.cons.inj heq
      rw [if_neg (by simp [h8, h2])]

theorem parseUnits_quote (rest : List Char) :
    ∀ s : List Char, parseUnits (s.flatMap quoteChar ++ ('"' :: rest)) =
      some (s.map Char.toNat, rest)
  | [] => rfl
  | c :: s => by
    rw [List.flatMap_cons, List.append_assoc, parseUnits_quoteChar, parseUnits_quote rest s]
    rfl

/-- A character is not half of one. -/
theorem not_surrogate (c : Char) : ¬ (0xd800 ≤ c.toNat ∧ c.toNat < 0xe000) := by
  have hvalid : c.toNat < 0xd800 ∨ (0xdfff < c.toNat ∧ c.toNat < 0x110000) := c.valid
  omega

theorem charsOfUnits_map : ∀ s : List Char, charsOfUnits (s.map Char.toNat) = s
  | [] => rfl
  | [c] => by
    rw [List.map_cons, List.map_nil, charsOfUnits, if_neg (not_surrogate c), Char.ofNat_toNat]
  | c :: d :: s => by
    have hpair : ¬ (0xd800 ≤ c.toNat ∧ c.toNat < 0xdc00 ∧ 0xdc00 ≤ d.toNat ∧ d.toNat < 0xe000) := by
      have := not_surrogate c
      omega
    have ih := charsOfUnits_map (d :: s)
    rw [List.map_cons] at ih
    rw [List.map_cons, List.map_cons, charsOfUnits, if_neg hpair, if_neg (not_surrogate c),
      Char.ofNat_toNat, ih]

/-- A quoted string is read back. -/
theorem parseString_quote (s : String) (rest : List Char) :
    parseString (s.toList.flatMap quoteChar ++ ('"' :: rest)) = some (s, rest) := by
  unfold parseString
  rw [parseUnits_quote, Option.map_some, charsOfUnits_map, String.ofList_toList]

theorem skipSpace_of_not {c : Char} (h : isJsonSpace c = false) (cs : List Char) :
    skipSpace (c :: cs) = c :: cs := by
  unfold skipSpace
  rw [List.dropWhile_cons, h]
  rfl

/-- A quote starts a string and nothing else. -/
theorem parseValue_quote (fuel : Nat) (s : String) (rest : List Char) :
    parseValue (fuel + 1) (quote s.toList ++ rest) = some (.str s, rest) := by
  unfold quote
  rw [List.cons_append, List.append_assoc, parseValue, skipSpace_of_not (by decide)]
  show (parseString (s.toList.flatMap quoteChar ++ ('"' :: rest))).map _ = _
  rw [parseString_quote]
  rfl

theorem reads_quote (s : String) : Reads (quote s.toList) (.str s) := by
  intro fuel rest _
  exact parseValue_quote fuel s rest

/-- A digit or a minus sign starts a number and nothing else. -/
theorem parseValue_number (fuel : Nat) {c : Char} (hc : isDigit c = true ∨ c = '-')
    (cs : List Char) : parseValue (fuel + 1) (c :: cs) = parseNumber (c :: cs) := by
  have hplain : ∀ d : Char, isDigit d = false → d ≠ '-' → c ≠ d := by
    rintro d hd hm rfl
    rcases hc with h | h
    · rw [hd] at h
      cases h
    · exact hm h
  have hspace : isJsonSpace c = false := by
    unfold isJsonSpace
    simp [hplain ' ' (by decide) (by decide), hplain '\t' (by decide) (by decide),
      hplain '\n' (by decide) (by decide), hplain '\r' (by decide) (by decide)]
  rw [parseValue, skipSpace_of_not hspace]
  split
  next heq => exact absurd (List.cons.inj heq).1 (hplain _ (by decide) (by decide))
  next heq => exact absurd (List.cons.inj heq).1 (hplain _ (by decide) (by decide))
  next heq => exact absurd (List.cons.inj heq).1 (hplain _ (by decide) (by decide))
  next heq => exact absurd (List.cons.inj heq).1 (hplain _ (by decide) (by decide))
  next heq => exact absurd (List.cons.inj heq).1 (hplain _ (by decide) (by decide))
  next heq => exact absurd (List.cons.inj heq).1 (hplain _ (by decide) (by decide))
  next => rfl

/-- Nothing that may follow a value continues a number. -/
theorem Ends.number {rest : List Char} (h : Ends rest) :
    NoDigit rest ∧ parseFraction rest = some ([], rest) ∧ parseExponent rest = some (0, rest) := by
  cases rest with
  | nil => exact ⟨noDigit_nil, rfl, rfl⟩
  | cons c cs =>
    rcases h c rfl with rfl | rfl
    · refine ⟨fun d hd => ?_, rfl, rfl⟩
      obtain rfl : ',' = d := by simpa using hd
      decide
    · refine ⟨fun d hd => ?_, rfl, rfl⟩
      obtain rfl : '\x7d' = d := by simpa using hd
      decide

/-- Digits print without a leading zero. -/
theorem toDigits_no_leading_zero (n : Nat) :
    ¬ (1 < (Nat.toDigits 10 n).length ∧ (Nat.toDigits 10 n).head? = some '0') := by
  induction n using Nat.strongRecOn with
  | ind n ih =>
    by_cases h : n < 10
    · rw [Nat.toDigits_of_lt_base h]
      simp
    · rw [Nat.toDigits_of_base_le (by omega) (by omega)]
      rintro ⟨-, hhead⟩
      have hne : Nat.toDigits 10 (n / 10) ≠ [] := Nat.toDigits_ne_nil
      rw [List.head?_append_of_ne_nil _ hne] at hhead
      by_cases h' : n / 10 < 10
      · rw [Nat.toDigits_of_lt_base h'] at hhead
        have hzero : ∀ d, d < 10 → 0 < d → Nat.digitChar d ≠ '0' := by decide
        exact hzero (n / 10) h' (by omega) (Option.some.inj hhead)
      · refine ih (n / 10) (by omega) ⟨?_, hhead⟩
        rw [Nat.toDigits_of_base_le (by omega) (by omega), List.length_append]
        have := @Nat.length_toDigits_pos 10 (n / 10 / 10)
        simp only [List.length_singleton]
        omega

theorem lt_doubleLimit : (10 : ℚ) ^ 21 < doubleLimit := by
  have hpow : (2 : ℚ) ^ 70 ≤ 2 ^ 970 := pow_le_pow_right₀ (by norm_num) (by norm_num)
  unfold doubleLimit
  calc (10 : ℚ) ^ 21 < 2 ^ 70 * 1 := by norm_num
    _ ≤ 2 ^ 970 * (2 ^ 54 - 1) := by
      refine mul_le_mul hpow (by norm_num) (by norm_num) (le_trans (by norm_num) hpow)

theorem ofDecimal_of_small {q : ℚ} (hlo : -(10 ^ 21) ≤ q) (hhi : q ≤ 10 ^ 21) :
    Num.ofDecimal q = .fin q := by
  have hbig := lt_doubleLimit
  unfold Num.ofDecimal
  rw [if_neg (by linarith), if_neg (by linarith)]

theorem parseUnsigned_toDigits (negative : Bool) {n : Nat} (hn : n < 10 ^ 21) {rest : List Char}
    (hrest : Ends rest) :
    parseUnsigned negative (Nat.toDigits 10 n ++ rest) =
      some (.num (.fin (if negative then -(n : ℚ) else n)), rest) := by
  obtain ⟨hnd, hfrac, hexp⟩ := hrest.number
  have hspan := spanDigits_append hnd (Nat.toDigits 10 n) (fun d hd => isDigit_of_mem_toDigits hd)
  have hq : (n : ℚ) ≤ 10 ^ 21 := by exact_mod_cast Nat.le_of_lt hn
  have hq0 : (0 : ℚ) ≤ n := Nat.cast_nonneg n
  unfold parseUnsigned
  simp only [hspan, hfrac, hexp, Option.bind_eq_bind, Option.bind_some]
  rw [if_neg (not_or.mpr ⟨Nat.toDigits_ne_nil, toDigits_no_leading_zero n⟩)]
  simp only [List.append_nil, digitsVal_toDigits, List.length_nil, Nat.cast_zero, sub_zero,
    zpow_zero, mul_one]
  cases negative with
  | true =>
    simp only [if_true]
    rw [ofDecimal_of_small (by linarith) (by linarith)]
  | false =>
    simp only [Bool.false_eq_true, if_false]
    rw [ofDecimal_of_small (by linarith) hq]

/-- A whole number below 10^21 is read back. -/
theorem reads_toText {z : Int} (hz : z.natAbs < 10 ^ 21) :
    Reads (Num.fin z).toText (.num (.fin z)) := by
  intro fuel rest hrest
  rw [toText_ofInt hz]
  split
  next hneg =>
    -- a sign in front of the digits
    rw [List.cons_append, parseValue_number fuel (Or.inr rfl), parseNumber,
      parseUnsigned_toDigits true hz hrest]
    have habs : (z.natAbs : Int) = -z := by omega
    rw [if_pos rfl, ← Int.cast_natCast, habs, Int.cast_neg, neg_neg]
  next hpos =>
    -- a first digit, which is no sign
    have hmem := @isDigit_of_mem_toDigits z.natAbs
    have hread := parseUnsigned_toDigits false hz hrest
    cases hds : Nat.toDigits 10 z.natAbs with
    | nil => exact absurd hds Nat.toDigits_ne_nil
    | cons c cs =>
      rw [hds] at hmem hread
      have hc := hmem (List.mem_cons_self ..)
      rw [List.cons_append] at hread ⊢
      rw [parseValue_number fuel (Or.inl hc)]
      have hnum : parseNumber (c :: (cs ++ rest)) = parseUnsigned false (c :: (cs ++ rest)) := by
        unfold parseNumber
        split
        next heq => exact absurd (List.cons.inj heq).1 (digit_plain hc).2.1
        next => rfl
      rw [hnum, hread]
      have habs : (z.natAbs : Int) = z := by omega
      rw [if_neg (by simp), ← Int.cast_natCast, habs]

/-! ## Objects of scalars -/

/-- A member of scalar value with its text. -/
structure Member where
  name : String
  text : List Char
  value : Value
  reads : Reads text value

/-- The printed member. -/
def Member.print (m : Member) : List Char := quote m.name.toList ++ ':' :: m.text

/-- The printed object. -/
def printObject (ms : List Member) : List Char :=
  '\x7b' :: (joinWith ',' (ms.map Member.print) ++ ['\x7d'])

/-- The object the members make. -/
def objectOf (acc : Obj) (ms : List Member) : Obj :=
  ms.foldl (fun acc m => Obj.set acc m.name m.value) acc

/-- Reading one printed member, up to what follows its value. -/
theorem parseMembers_print (fuel : Nat) (acc : Obj) (m : Member) {rest : List Char}
    (hrest : Ends rest) :
    parseMembers (fuel + 2) acc (m.print ++ rest) =
      match skipSpace rest with
      | ',' :: cs => parseMembers (fuel + 1) (Obj.set acc m.name m.value) cs
      | '\x7d' :: cs => some (Obj.set acc m.name m.value, cs)
      | _ => none := by
  have hshape : m.print ++ rest =
      '"' :: (m.name.toList.flatMap quoteChar ++ ('"' :: ':' :: (m.text ++ rest))) := by
    unfold Member.print quote
    simp
  rw [hshape, parseMembers, skipSpace_of_not (by decide)]
  simp only [parseString_quote]
  rw [skipSpace_of_not (by decide)]
  simp only [m.reads fuel rest hrest]

theorem parseMembers_join : ∀ (ms : List Member) (fuel : Nat) (acc : Obj) (rest : List Char),
    ms ≠ [] → ms.length ≤ fuel →
    parseMembers (fuel + 1) acc (joinWith ',' (ms.map Member.print) ++ '\x7d' :: rest) =
      some (objectOf acc ms, rest)
  | [], _, _, _, hne, _ => absurd rfl hne
  | [m], fuel, acc, rest, _, hfuel => by
    obtain ⟨fuel, rfl⟩ : ∃ n, fuel = n + 1 := ⟨fuel - 1, by simp at hfuel; omega⟩
    -- the last member ends at the brace, the others at a comma
    have hends : Ends ('\x7d' :: rest) := by
      intro c hc
      right
      simpa using hc.symm
    rw [List.map_cons, List.map_nil, joinWith, parseMembers_print fuel acc m hends,
      skipSpace_of_not (by decide)]
    rfl
  | m :: m' :: ms, fuel, acc, rest, _, hfuel => by
    obtain ⟨fuel, rfl⟩ : ∃ n, fuel = n + 1 := ⟨fuel - 1, by simp at hfuel; omega⟩
    have ih := parseMembers_join (m' :: ms) fuel (Obj.set acc m.name m.value) rest (by simp)
      (by simpa using hfuel)
    have hends : Ends (',' :: (joinWith ',' ((m' :: ms).map Member.print) ++ '\x7d' :: rest)) := by
      intro c hc
      left
      simpa using hc.symm
    rw [List.map_cons, List.map_cons, joinWith, ← List.map_cons, List.append_assoc,
      List.cons_append, parseMembers_print fuel acc m hends, skipSpace_of_not (by decide)]
    exact ih

theorem length_le_joinWith : ∀ ms : List Member,
    ms.length ≤ (joinWith ',' (ms.map Member.print)).length
  | [] => Nat.zero_le _
  | [m] => by
    rw [List.map_cons, List.map_nil, joinWith, Member.print, List.length_append, List.length_cons,
      List.length_nil, List.length_cons]
    omega
  | m :: m' :: ms => by
    have ih := length_le_joinWith (m' :: ms)
    rw [List.map_cons, List.map_cons, joinWith, ← List.map_cons, List.length_append,
      List.length_cons, List.length_cons (a := ',')]
    omega

/-- An object with a first member. -/
theorem parseValue_open (fuel : Nat) (cs : List Char) :
    parseValue (fuel + 1) ('\x7b' :: '"' :: cs) =
      (parseMembers fuel [] ('"' :: cs)).map (fun p => (Value.obj p.1, p.2)) := by
  rw [parseValue]
  rfl

/-- A printed object is read back. -/
theorem parse_object {ms : List Member} (hne : ms ≠ []) :
    parse (String.ofList (printObject ms)) = some (.obj (objectOf [] ms)) := by
  have hlen := length_le_joinWith ms
  have hread := parseMembers_join ms ((joinWith ',' (ms.map Member.print)).length + 1) [] [] hne
    (by omega)
  have hfuel : (printObject ms).length = (joinWith ',' (ms.map Member.print)).length + 2 := by
    simp [printObject]
  have hopen : ∃ cs, joinWith ',' (ms.map Member.print) ++ ['\x7d'] = '"' :: cs := by
    obtain ⟨m, ms, rfl⟩ := List.exists_cons_of_ne_nil hne
    cases ms with
    | nil => exact ⟨_, rfl⟩
    | cons m' ms => exact ⟨_, rfl⟩
  have hvalue : parseValue ((printObject ms).length + 1) (printObject ms) =
      some (.obj (objectOf [] ms), []) := by
    obtain ⟨cs, hcs⟩ := hopen
    rw [hcs] at hread
    rw [hfuel, printObject, hcs, parseValue_open, hread]
    rfl
  unfold parse
  rw [String.toList_ofList, hvalue]
  rfl

end Js
