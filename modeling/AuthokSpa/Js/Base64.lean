import Mathlib.Data.List.Infix

/-!
# Base64

`btoa` and `atob`. A binary string (every character below 256) is its list of
bytes. Three bytes are four sextets; what is left at the end is two or three
sextets, which `btoa` pads with `=` to four characters and `atob` accepts with
or without the padding. It also accepts ASCII whitespace anywhere.

The URL alphabet replaces `+`, `/` and drops the padding; `atob_urlChars` says
that undoing the replacement is enough to read the bytes back.
-/

namespace Js

/-! ## Sextets -/

/-- The sextets of some bytes, the last one filled with zero bits. -/
def sextets : List UInt8 → List Nat
  | [] => []
  | [a] => [a.toNat / 4, a.toNat % 4 * 16]
  | [a, b] => [a.toNat / 4, a.toNat % 4 * 16 + b.toNat / 16, b.toNat % 16 * 4]
  | a :: b :: c :: bs =>
    a.toNat / 4 :: (a.toNat % 4 * 16 + b.toNat / 16) :: (b.toNat % 16 * 4 + c.toNat / 64) ::
      c.toNat % 64 :: sextets bs

/-- The bytes of some sextets; the bits left over at the end are dropped. -/
def bytesOf : List Nat → Option (List UInt8)
  | [] => some []
  | [_] => none
  | [x, y] => some [UInt8.ofNat (x * 4 + y / 16)]
  | [x, y, z] => some [UInt8.ofNat (x * 4 + y / 16), UInt8.ofNat (y % 16 * 16 + z / 4)]
  | x :: y :: z :: w :: rest =>
    (bytesOf rest).map fun bs =>
      UInt8.ofNat (x * 4 + y / 16) :: UInt8.ofNat (y % 16 * 16 + z / 4) ::
        UInt8.ofNat (z % 4 * 64 + w) :: bs

theorem sextets_lt : ∀ (bs : List UInt8), ∀ x ∈ sextets bs, x < 64
  | [], x, hx => by simp [sextets] at hx
  | [a], x, hx => by
    have ha := a.toNat_lt
    simp only [sextets, List.mem_cons, List.not_mem_nil, or_false] at hx
    omega
  | [a, b], x, hx => by
    have ha := a.toNat_lt
    have hb := b.toNat_lt
    simp only [sextets, List.mem_cons, List.not_mem_nil, or_false] at hx
    omega
  | a :: b :: c :: bs, x, hx => by
    have ha := a.toNat_lt
    have hb := b.toNat_lt
    have hc := c.toNat_lt
    rw [sextets, List.mem_cons, List.mem_cons, List.mem_cons, List.mem_cons] at hx
    rcases hx with h | h | h | h | h
    · omega
    · omega
    · omega
    · omega
    · exact sextets_lt bs x h

theorem ofNat_of_eq_toNat {n : Nat} {b : UInt8} (h : n = b.toNat) : UInt8.ofNat n = b := by
  rw [h]
  exact UInt8.ofNat_toNat

/-- The sextets of some bytes give the bytes back. -/
theorem bytesOf_sextets : ∀ bs : List UInt8, bytesOf (sextets bs) = some bs
  | [] => rfl
  | [a] => by
    have ha := a.toNat_lt
    rw [sextets, bytesOf, ofNat_of_eq_toNat (b := a) (by omega)]
  | [a, b] => by
    have ha := a.toNat_lt
    have hb := b.toNat_lt
    rw [sextets, bytesOf, ofNat_of_eq_toNat (b := a) (by omega),
      ofNat_of_eq_toNat (b := b) (by omega)]
  | a :: b :: c :: bs => by
    have ha := a.toNat_lt
    have hb := b.toNat_lt
    have hc := c.toNat_lt
    rw [sextets, bytesOf, bytesOf_sextets bs, Option.map_some,
      ofNat_of_eq_toNat (b := a) (by omega), ofNat_of_eq_toNat (b := b) (by omega),
      ofNat_of_eq_toNat (b := c) (by omega)]

/-- There is never a single sextet at the end. -/
theorem sextets_length : ∀ bs : List UInt8, (sextets bs).length % 4 ≠ 1
  | [] => by simp [sextets]
  | [a] => by simp [sextets]
  | [a, b] => by simp [sextets]
  | a :: b :: c :: bs => by
    have ih := sextets_length bs
    rw [sextets]
    simp only [List.length_cons]
    omega

/-! ## Characters -/

def base64Alphabet : List Char :=
  "ABCDEFGHIJKLMNOPQRSTUVWXYZabcdefghijklmnopqrstuvwxyz0123456789+/".toList

/-- The character of a sextet. -/
def base64Char (n : Nat) : Char := base64Alphabet.getD n 'A'

/-- The sextet of a character. -/
def base64Val (c : Char) : Option Nat := base64Alphabet.findIdx? (fun d => d == c)

def sextetsOf : List Char → Option (List Nat)
  | [] => some []
  | c :: cs => do
    let x ← base64Val c
    let xs ← sextetsOf cs
    some (x :: xs)

/-- `btoa` on the characters of a binary string. -/
def btoaChars (bytes : List UInt8) : List Char :=
  (sextets bytes).map base64Char ++ List.replicate ((3 - bytes.length % 3) % 3) '='

/-- `btoa`; `none` is the exception thrown on a character above 255. -/
def btoa (s : String) : Option String :=
  if s.toList.all (fun c => c.toNat < 256) then
    some (String.ofList (btoaChars (s.toList.map fun c => UInt8.ofNat c.toNat)))
  else none

/-- ASCII whitespace, which `atob` skips. -/
def isAsciiWhitespace (c : Char) : Bool := " \t\n\x0c\r".toList.contains c

/-- Remove one or two trailing `=`. -/
def dropPadding (cs : List Char) : List Char :=
  match cs.reverse with
  | '=' :: '=' :: rest => rest.reverse
  | '=' :: rest => rest.reverse
  | _ => cs

/-- `atob`, with the bytes of the binary string it returns; `none` is the
exception thrown on text that is not Base64. -/
def atobChars (cs : List Char) : Option (List UInt8) :=
  let cs := cs.filter (fun c => !isAsciiWhitespace c)
  let cs := if cs.length % 4 = 0 then dropPadding cs else cs
  if cs.length % 4 = 1 then none else (sextetsOf cs).bind bytesOf

theorem base64Val_base64Char : ∀ n, n < 64 → base64Val (base64Char n) = some n := by
  decide +kernel

theorem base64Char_ne : ∀ n, n < 64 →
    isAsciiWhitespace (base64Char n) = false ∧ base64Char n ≠ '=' := by
  decide +kernel

theorem sextetsOf_map : ∀ (xs : List Nat), (∀ x ∈ xs, x < 64) →
    sextetsOf (xs.map base64Char) = some xs
  | [], _ => rfl
  | x :: xs, h => by
    rw [List.map_cons, sextetsOf, base64Val_base64Char x (h x (List.mem_cons_self ..)),
      sextetsOf_map xs (fun y hy => h y (List.mem_cons_of_mem _ hy))]
    rfl

theorem dropPadding_of_not_mem {cs : List Char} (h : '=' ∉ cs) : dropPadding cs = cs := by
  unfold dropPadding
  split
  next rest heq => exact absurd (List.mem_reverse.mp (heq ▸ List.mem_cons_self ..)) h
  next rest _ heq => exact absurd (List.mem_reverse.mp (heq ▸ List.mem_cons_self ..)) h
  next => rfl

/-- Unpadded Base64 is read back. -/
theorem atobChars_map_sextets (bytes : List UInt8) :
    atobChars ((sextets bytes).map base64Char) = some bytes := by
  have hlt := sextets_lt bytes
  have hws : ((sextets bytes).map base64Char).filter (fun c => !isAsciiWhitespace c) =
      (sextets bytes).map base64Char := by
    rw [List.filter_eq_self]
    intro c hc
    obtain ⟨x, hx, rfl⟩ := List.mem_map.mp hc
    rw [(base64Char_ne x (hlt x hx)).1]
    rfl
  have hpad : '=' ∉ (sextets bytes).map base64Char := by
    intro hmem
    obtain ⟨x, hx, he⟩ := List.mem_map.mp hmem
    exact (base64Char_ne x (hlt x hx)).2 he
  have hlen := sextets_length bytes
  unfold atobChars
  simp only [hws, dropPadding_of_not_mem hpad, ite_self, List.length_map]
  rw [if_neg hlen, sextetsOf_map _ hlt, Option.bind_some, bytesOf_sextets]

/-! ## The URL alphabet -/

/-- To the URL alphabet: `+` and `/` replaced, padding dropped. -/
def urlEncodeB64 (cs : List Char) : List Char :=
  cs.filterMap fun c =>
    if c = '+' then some '-' else if c = '/' then some '_' else if c = '=' then none else some c

/-- Back from the URL alphabet. -/
def urlDecodeChars (cs : List Char) : List Char :=
  cs.map fun c => if c = '_' then '/' else if c = '-' then '+' else c

/-- A Base64 character in the URL alphabet and back. -/
theorem urlDecode_urlEncode_char : ∀ n, n < 64 →
    (urlEncodeB64 [base64Char n]).map (fun c => if c = '_' then '/' else if c = '-' then '+' else c)
      = [base64Char n] := by
  decide +kernel

theorem urlDecodeChars_urlEncodeB64 : ∀ (xs : List Nat), (∀ x ∈ xs, x < 64) →
    urlDecodeChars (urlEncodeB64 (xs.map base64Char)) = xs.map base64Char
  | [], _ => rfl
  | x :: xs, h => by
    have hx := urlDecode_urlEncode_char x (h x (List.mem_cons_self ..))
    have ih := urlDecodeChars_urlEncodeB64 xs (fun y hy => h y (List.mem_cons_of_mem _ hy))
    have hsplit : urlEncodeB64 (base64Char x :: xs.map base64Char) =
        urlEncodeB64 [base64Char x] ++ urlEncodeB64 (xs.map base64Char) := by
      unfold urlEncodeB64
      rw [← List.filterMap_append]
      rfl
    rw [List.map_cons, hsplit]
    unfold urlDecodeChars at ih ⊢
    rw [List.map_append, ih, hx]
    rfl

/-- In the URL alphabet and back, only the padding is lost. -/
theorem urlDecodeChars_btoaChars (bytes : List UInt8) :
    urlDecodeChars (urlEncodeB64 (btoaChars bytes)) = (sextets bytes).map base64Char := by
  have hpad : ∀ n, urlEncodeB64 (List.replicate n '=') = [] := by
    intro n
    induction n with
    | zero => rfl
    | succ n ih => exact ih
  have hdrop : urlEncodeB64 (btoaChars bytes) = urlEncodeB64 ((sextets bytes).map base64Char) := by
    unfold btoaChars
    rw [urlEncodeB64, List.filterMap_append, ← urlEncodeB64, ← urlEncodeB64, hpad, List.append_nil]
  rw [hdrop, urlDecodeChars_urlEncodeB64 _ (sextets_lt bytes)]

/-- `btoa` in the URL alphabet loses nothing. -/
theorem atob_urlChars (bytes : List UInt8) :
    atobChars (urlDecodeChars (urlEncodeB64 (btoaChars bytes))) = some bytes := by
  rw [urlDecodeChars_btoaChars, atobChars_map_sextets]

end Js
