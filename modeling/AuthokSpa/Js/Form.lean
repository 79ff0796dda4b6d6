import AuthokSpa.Js.Text
import AuthokSpa.Js.Uri

/-!
# `URLSearchParams`

The parser and the serializer of `application/x-www-form-urlencoded`. Both work
on bytes: the parser reads escapes and pluses and then decodes UTF-8 with the
replacement character for what is not UTF-8, so every text is a form; the
serializer leaves letters, digits and `*-._` alone, writes a space as a plus and
escapes the rest.
-/

namespace Js

/-! ## Decoding that never fails -/

/-- In the middle of a character: what is known of it, how many bytes are
missing, and the range of the next one. -/
structure Utf8State where
  codePoint : Nat
  needed : Nat
  lower : Nat := 0x80
  upper : Nat := 0xBF

/-- The first byte of a character. -/
def utf8Lead (b : UInt8) : List Char × Option Utf8State :=
  let n := b.toNat
  if n < 0x80 then ([Char.ofNat n], none)
  else if n < 0xC2 then (['\uFFFD'], none)
  else if n < 0xE0 then ([], some { codePoint := n - 0xC0, needed := 1 })
  else if n < 0xF0 then
    ([], some { codePoint := n - 0xE0, needed := 2, lower := if n = 0xE0 then 0xA0 else 0x80,
                upper := if n = 0xED then 0x9F else 0xBF })
  else if n < 0xF5 then
    ([], some { codePoint := n - 0xF0, needed := 3, lower := if n = 0xF0 then 0x90 else 0x80,
                upper := if n = 0xF4 then 0x8F else 0xBF })
  else (['\uFFFD'], none)

/-- UTF-8 decode without BOM: a byte that does not continue a character is read
again as the first of one. -/
def utf8DecodeLossy : Option Utf8State → List UInt8 → List Char
  | none, [] => []
  | some _, [] => ['\uFFFD']
  | none, b :: bytes => (utf8Lead b).1 ++ utf8DecodeLossy (utf8Lead b).2 bytes
  | some st, b :: bytes =>
    if st.lower ≤ b.toNat ∧ b.toNat ≤ st.upper then
      let codePoint := 64 * st.codePoint + (b.toNat - 0x80)
      if st.needed = 1 then Char.ofNat codePoint :: utf8DecodeLossy none bytes
      else utf8DecodeLossy (some { codePoint := codePoint, needed := st.needed - 1 }) bytes
    else '\uFFFD' :: ((utf8Lead b).1 ++ utf8DecodeLossy (utf8Lead b).2 bytes)

/-! ## The parser -/

/-- The bytes of escapes; a percent sign that starts none stays. -/
def percentDecode : List UInt8 → List UInt8
  | 37 :: a :: b :: bytes =>
    match hexVal (Char.ofNat a.toNat), hexVal (Char.ofNat b.toNat) with
    | some x, some y => UInt8.ofNat (16 * x + y) :: percentDecode bytes
    | _, _ => 37 :: percentDecode (a :: b :: bytes)
  | b :: bytes => b :: percentDecode bytes
  | [] => []

/-- A name or a value. -/
def formDecode (bytes : List UInt8) : String :=
  String.ofList (utf8DecodeLossy none
    (percentDecode (bytes.map fun b => if b = 43 then 32 else b)))

/-- One pair, cut at the first `=`. -/
def formPair (bytes : List UInt8) : String × String :=
  (formDecode (bytes.takeWhile (· ≠ 61)), formDecode ((bytes.dropWhile (· ≠ 61)).drop 1))

/-- The pairs of `new URLSearchParams(text)`, which drops a leading `?`. -/
def formParse (text : String) : List (String × String) :=
  let bytes := utf8Encode (if text.toList.head? = some '?' then text.toList.tail else text.toList)
  ((bytes.splitOn 38).filter (· ≠ [])).map formPair

/-! ## The serializer -/

/-- A byte that is not escaped. -/
def isFormSafe (b : UInt8) : Bool :=
  (48 ≤ b && b ≤ 57) || (65 ≤ b && b ≤ 90) || (97 ≤ b && b ≤ 122) || b = 42 || b = 45 || b = 46 ||
    b = 95

def formEncodeByte (b : UInt8) : List Char :=
  if b = 32 then ['+']
  else if isFormSafe b then [Char.ofNat b.toNat]
  else (escapeByte b).map Char.toUpper

def formEncode (s : String) : List Char := (utf8Encode s.toList).flatMap formEncodeByte

/-- `new URLSearchParams(pairs).toString()`. -/
def formSerialize (pairs : List (String × String)) : String :=
  String.ofList (joinWith '&' (pairs.map fun p => formEncode p.1 ++ '=' :: formEncode p.2))

example : formParse "?a=1%202+3&&b&c=%C3%A9%ff" =
    [("a", "1 2 3"), ("b", ""), ("c", "é\uFFFD")] := by decide

example : formSerialize [("a", "1 2"), ("b*", "é~")] = "a=1+2&b*=%C3%A9%7E" := by decide

end Js
