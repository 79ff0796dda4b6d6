import Mathlib.Data.List.Infix

/-!
# UTF-8 and percent-encoding

`encodeURIComponent`, `decodeURIComponent` and the UTF-8 they are built on. A
string is its list of characters (Unicode scalar values), so lone surrogates,
on which both functions throw, do not occur.

`decodeURIComponent` reads a maximal run of `%XX` escapes as one UTF-8 text and
fails when it is not one; other characters stand for themselves. The run read
so far is kept reversed. `decodeChars_escapes` is the fact the token decoder
needs: the escapes of the bytes of a text decode to the text.
-/

namespace Js

/-! ## UTF-8 -/

/-- The UTF-8 bytes of a text. -/
def utf8Encode (cs : List Char) : List UInt8 := cs.flatMap String.utf8EncodeChar

/-- Strict decoding; `fuel` bounds the number of characters. -/
def utf8DecodeAux : Nat → List UInt8 → Option (List Char)
  | _, [] => some []
  | 0, _ :: _ => none
  | fuel + 1, b :: bs =>
    match (b :: bs).toByteArray.utf8DecodeChar? 0 with
    | none => none
    | some c => (utf8DecodeAux fuel ((b :: bs).drop c.utf8Size)).map (fun cs => c :: cs)

def utf8Decode (bytes : List UInt8) : Option (List Char) := utf8DecodeAux bytes.length bytes

theorem utf8DecodeAux_encode (cs : List Char) :
    ∀ fuel, (utf8Encode cs).length ≤ fuel → utf8DecodeAux fuel (utf8Encode cs) = some cs := by
  induction cs with
  | nil =>
    intro fuel _
    cases fuel <;> rfl
  | cons c cs ih =>
    intro fuel hfuel
    have hsplit : utf8Encode (c :: cs) = String.utf8EncodeChar c ++ utf8Encode cs := rfl
    have hlen := String.length_utf8EncodeChar c
    have hpos := c.utf8Size_pos
    rw [hsplit, List.length_append] at hfuel
    -- the first character is read whatever bytes follow it
    have hdec : (String.utf8EncodeChar c ++ utf8Encode cs).toByteArray.utf8DecodeChar? 0 = some c := by
      rw [List.toByteArray_append]
      exact ByteArray.utf8DecodeChar?_utf8EncodeChar_append
    rw [hsplit]
    cases hbytes : String.utf8EncodeChar c ++ utf8Encode cs with
    | nil =>
      have := congrArg List.length hbytes
      rw [List.length_append, List.length_nil] at this
      omega
    | cons b bs =>
      cases fuel with
      | zero => omega
      | succ fuel =>
        rw [utf8DecodeAux, ← hbytes, hdec]
        dsimp only
        rw [← hlen, List.drop_left, ih fuel (by omega)]
        rfl

/-- Decoding inverts encoding. -/
theorem utf8Decode_encode (cs : List Char) : utf8Decode (utf8Encode cs) = some cs :=
  utf8DecodeAux_encode cs _ (Nat.le_refl _)

/-! ## Escapes -/

/-- A hexadecimal digit, in lower case as `toString(16)` prints it. -/
def hexDigit (n : Nat) : Char := Nat.digitChar n

/-- The value of a hexadecimal digit of either case. -/
def hexVal (c : Char) : Option Nat :=
  if '0' ≤ c ∧ c ≤ '9' then some (c.toNat - 48)
  else if 'a' ≤ c ∧ c ≤ 'f' then some (c.toNat - 87)
  else if 'A' ≤ c ∧ c ≤ 'F' then some (c.toNat - 55)
  else none

theorem hexVal_hexDigit : ∀ n, n < 16 → hexVal (hexDigit n) = some n := by decide

/-- `%xx` in lower case. -/
def escapeByte (b : UInt8) : List Char :=
  ['%', hexDigit (b.toNat / 16), hexDigit (b.toNat % 16)]

/-- The characters `encodeURIComponent` leaves alone. -/
def isUnreserved (c : Char) : Bool :=
  c.isAlphanum || "-_.!~*'()".toList.contains c

/-- `encodeURIComponent` on characters; its escapes are in upper case. -/
def encodeChars (cs : List Char) : List Char :=
  cs.flatMap fun c =>
    if isUnreserved c then [c]
    else (String.utf8EncodeChar c).flatMap fun b => (escapeByte b).map Char.toUpper

/-- `encodeURIComponent`. -/
def encodeURIComponent (s : String) : String := String.ofList (encodeChars s.toList)

/-- `decodeURIComponent` on characters; `run` holds the bytes of the escapes
read last, in reverse. -/
def decodeChars : List UInt8 → List Char → Option (List Char)
  | run, [] => utf8Decode run.reverse
  | run, '%' :: cs =>
    match cs with
    | a :: b :: cs =>
      match hexVal a, hexVal b with
      | some x, some y => decodeChars (UInt8.ofNat (16 * x + y) :: run) cs
      | _, _ => none
    | _ => none
  | run, c :: cs => do
    let pre ← utf8Decode run.reverse
    let rest ← decodeChars [] cs
    some (pre ++ c :: rest)

/-- `decodeURIComponent`; `none` is a thrown `URIError`. -/
def decodeURIComponent (s : String) : Option String :=
  (decodeChars [] s.toList).map String.ofList

/-- The escapes of some bytes are read as these bytes. -/
theorem decodeChars_escapes :
    ∀ (bytes run : List UInt8), decodeChars run (bytes.flatMap escapeByte) =
      utf8Decode (run.reverse ++ bytes)
  | [], run => by
    rw [List.flatMap_nil, decodeChars, List.append_nil]
  | b :: bytes, run => by
    have hhi := hexVal_hexDigit (b.toNat / 16) (by have := b.toNat_lt; omega)
    have hlo := hexVal_hexDigit (b.toNat % 16) (by omega)
    have hb : UInt8.ofNat (16 * (b.toNat / 16) + b.toNat % 16) = b := by
      rw [Nat.div_add_mod]
      exact UInt8.ofNat_toNat
    rw [List.flatMap_cons, escapeByte, List.cons_append, List.cons_append, List.cons_append,
      List.nil_append, decodeChars]
    simp only [hhi, hlo, hb]
    rw [decodeChars_escapes bytes (b :: run)]
    simp

end Js
