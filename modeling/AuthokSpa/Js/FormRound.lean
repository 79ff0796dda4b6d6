import AuthokSpa.Js.Form
import AuthokSpa.Js.UriRound

/-!
# Forms, both ways

`URLSearchParams` works on bytes; on a text it is told character by character,
since no byte of a character beyond ASCII is a delimiter: the bytes split where
the characters split (`splitOn_utf8Encode`). Where `decodeURIComponent` reads a
text, the form reads the same text, up to the pluses (`formText_of_decode`), and
what the serializer wrote is read back (`formParse_formSerialize`).
-/

namespace Js

/-! ## Bytes of characters -/

theorem utf8EncodeChar_ascii {c : Char} (h : c.toNat < 128) :
    String.utf8EncodeChar c = [UInt8.ofNat c.toNat] := by
  unfold String.utf8EncodeChar
  exact if_pos (show c.toNat ≤ 0x7f by omega)

/-- The bytes of a character beyond ASCII, by how many they are. -/
theorem utf8EncodeChar_high {c : Char} (h : 128 ≤ c.toNat) :
    (c.toNat < 0x800 ∧ String.utf8EncodeChar c =
      [UInt8.ofNat (c.toNat / 64 + 0xC0), UInt8.ofNat (c.toNat % 64 + 0x80)]) ∨
    (0x800 ≤ c.toNat ∧ c.toNat < 0x10000 ∧ String.utf8EncodeChar c =
      [UInt8.ofNat (c.toNat / 4096 + 0xE0), UInt8.ofNat (c.toNat / 64 % 64 + 0x80),
        UInt8.ofNat (c.toNat % 64 + 0x80)]) ∨
    (0x10000 ≤ c.toNat ∧ c.toNat < 0x110000 ∧ String.utf8EncodeChar c =
      [UInt8.ofNat (c.toNat / 262144 + 0xF0), UInt8.ofNat (c.toNat / 4096 % 64 + 0x80),
        UInt8.ofNat (c.toNat / 64 % 64 + 0x80), UInt8.ofNat (c.toNat % 64 + 0x80)]) := by
  have hval : c.val.toNat = c.toNat := rfl
  have hvalid : c.toNat < 0xd800 ∨ (0xdfff < c.toNat ∧ c.toNat < 0x110000) := c.valid
  unfold String.utf8EncodeChar
  simp only [hval]
  rw [if_neg (by omega)]
  by_cases h2 : c.toNat ≤ 0x7ff
  · rw [if_pos h2, Nat.mod_eq_of_lt (show c.toNat / 64 < 0x20 by omega)]
    exact Or.inl ⟨by omega, rfl⟩
  rw [if_neg h2]
  by_cases h3 : c.toNat ≤ 0xffff
  · rw [if_pos h3, Nat.mod_eq_of_lt (show c.toNat / 4096 < 0x10 by omega)]
    exact Or.inr (Or.inl ⟨by omega, by omega, rfl⟩)
  · rw [if_neg h3, Nat.mod_eq_of_lt (show c.toNat / 262144 < 0x08 by omega)]
    exact Or.inr (Or.inr ⟨by omega, by omega, rfl⟩)

theorem toNat_ofNat {n : Nat} (h : n < 256) : (UInt8.ofNat n).toNat = n := by
  rw [UInt8.toNat_ofNat']
  omega

/-- No byte of a character beyond ASCII is an ASCII one. -/
theorem high_of_mem {c : Char} (h : 128 ≤ c.toNat) {b : UInt8} (hb : b ∈ String.utf8EncodeChar c) :
    128 ≤ b.toNat := by
  rcases utf8EncodeChar_high h with ⟨hlt, heq⟩ | ⟨-, hlt, heq⟩ | ⟨-, hlt, heq⟩
  · rw [heq] at hb
    simp only [List.mem_cons, List.not_mem_nil, or_false] at hb
    rcases hb with rfl | rfl
    all_goals
      rw [toNat_ofNat (by omega)]
      omega
  · rw [heq] at hb
    simp only [List.mem_cons, List.not_mem_nil, or_false] at hb
    rcases hb with rfl | rfl | rfl
    all_goals
      rw [toNat_ofNat (by omega)]
      omega
  · rw [heq] at hb
    simp only [List.mem_cons, List.not_mem_nil, or_false] at hb
    rcases hb with rfl | rfl | rfl | rfl
    all_goals
      rw [toNat_ofNat (by omega)]
      omega

/-- The byte of an ASCII character. -/
def asciiByte (c : Char) : UInt8 := UInt8.ofNat c.toNat

/-- It is in no other character. -/
theorem asciiByte_not_mem {c d : Char} (hc : c.toNat < 128) (hne : d ≠ c) :
    asciiByte c ∉ String.utf8EncodeChar d := by
  have hbyte : (asciiByte c).toNat = c.toNat := toNat_ofNat (by omega)
  intro hmem
  by_cases hd : d.toNat < 128
  · rw [utf8EncodeChar_ascii hd, List.mem_singleton] at hmem
    have hnat := congrArg UInt8.toNat hmem
    rw [hbyte, toNat_ofNat (by omega)] at hnat
    exact hne (Char.toNat_inj.mp hnat.symm)
  · have hhigh := high_of_mem (by omega) hmem
    omega

theorem utf8Encode_cons (c : Char) (cs : List Char) :
    utf8Encode (c :: cs) = String.utf8EncodeChar c ++ utf8Encode cs := rfl

theorem utf8Encode_cons_ascii {c : Char} (hc : c.toNat < 128) (cs : List Char) :
    utf8Encode (c :: cs) = asciiByte c :: utf8Encode cs := by
  rw [utf8Encode_cons, utf8EncodeChar_ascii hc]
  rfl

theorem utf8Encode_eq_nil {cs : List Char} : utf8Encode cs = [] ↔ cs = [] := by
  cases cs with
  | nil => exact ⟨fun _ => rfl, fun _ => rfl⟩
  | cons c cs =>
    have hlen := String.length_utf8EncodeChar c
    have hpos := c.utf8Size_pos
    rw [utf8Encode_cons, List.append_eq_nil_iff, ← List.length_eq_zero_iff]
    constructor
    · rintro ⟨h, -⟩
      omega
    · intro h
      cases h

/-! ## Bytes split where characters split -/

theorem splitOn_append_of_not_mem {α : Type} [BEq α] [LawfulBEq α] {a : α} :
    ∀ {xs : List α}, a ∉ xs → ∀ ys : List α,
      (xs ++ ys).splitOn a = (ys.splitOn a).modifyHead (fun w => xs ++ w)
  | [], _, ys => by
    have hid : (fun w : List α => [] ++ w) = id := funext fun _ => rfl
    rw [hid, List.modifyHead_id, id]
    rfl
  | x :: xs, h, ys => by
    rw [List.mem_cons, not_or] at h
    rw [List.cons_append, List.splitOn_cons_eq_if_modifyHead,
      if_neg (by simpa using Ne.symm h.1), splitOn_append_of_not_mem h.2, List.modifyHead_modifyHead]
    rfl

theorem splitOn_utf8Encode {c : Char} (hc : c.toNat < 128) : ∀ cs : List Char,
    (utf8Encode cs).splitOn (asciiByte c) = (cs.splitOn c).map utf8Encode
  | [] => rfl
  | d :: cs => by
    have ih := splitOn_utf8Encode hc cs
    rw [List.splitOn_cons_eq_if_modifyHead]
    by_cases hd : d = c
    · subst hd
      rw [utf8Encode_cons_ascii hc, List.splitOn_cons_eq_if_modifyHead, if_pos BEq.rfl,
        if_pos BEq.rfl, ih]
      rfl
    · rw [utf8Encode_cons, splitOn_append_of_not_mem (asciiByte_not_mem hc hd), ih,
        if_neg (by simpa using hd)]
      cases cs.splitOn c with
      | nil => rfl
      | cons w ws => rfl

/-- Up to the first byte of a delimiter. -/
theorem takeWhile_utf8Encode {c : Char} (hc : c.toNat < 128) : ∀ cs : List Char,
    (utf8Encode cs).takeWhile (fun b => b ≠ asciiByte c) = utf8Encode (cs.takeWhile fun d => d ≠ c)
  | [] => rfl
  | d :: cs => by
    have ih := takeWhile_utf8Encode hc cs
    by_cases hd : d = c
    · subst hd
      rw [utf8Encode_cons_ascii hc, List.takeWhile_cons_of_neg (by simp),
        List.takeWhile_cons_of_neg (by simp)]
      rfl
    · have hall : ∀ b ∈ String.utf8EncodeChar d, decide (b ≠ asciiByte c) = true := fun b hb =>
        decide_eq_true fun heq => asciiByte_not_mem hc hd (heq ▸ hb)
      rw [utf8Encode_cons, List.takeWhile_append_of_pos hall, ih,
        List.takeWhile_cons_of_pos (by simpa using hd), utf8Encode_cons]

theorem dropWhile_utf8Encode {c : Char} (hc : c.toNat < 128) : ∀ cs : List Char,
    (utf8Encode cs).dropWhile (fun b => b ≠ asciiByte c) = utf8Encode (cs.dropWhile fun d => d ≠ c)
  | [] => rfl
  | d :: cs => by
    have ih := dropWhile_utf8Encode hc cs
    by_cases hd : d = c
    · subst hd
      rw [utf8Encode_cons_ascii hc, List.dropWhile_cons_of_neg (by simp),
        List.dropWhile_cons_of_neg (by simp), utf8Encode_cons_ascii hc]
    · have hall : ∀ b ∈ String.utf8EncodeChar d, decide (b ≠ asciiByte c) = true := fun b hb =>
        decide_eq_true fun heq => asciiByte_not_mem hc hd (heq ▸ hb)
      rw [utf8Encode_cons, List.dropWhile_append_of_pos hall, ih,
        List.dropWhile_cons_of_pos (by simpa using hd)]

/-- After the delimiter. -/
theorem drop_dropWhile_utf8Encode {c : Char} (hc : c.toNat < 128) (cs : List Char) :
    ((utf8Encode cs).dropWhile (fun b => b ≠ asciiByte c)).drop 1 =
      utf8Encode ((cs.dropWhile fun d => d ≠ c).drop 1) := by
  rw [dropWhile_utf8Encode hc]
  cases hdw : cs.dropWhile (fun d => d ≠ c) with
  | nil => rfl
  | cons d ds =>
    have hd : d = c := by
      have hne : cs.dropWhile (fun d => d ≠ c) ≠ [] := by
        rw [hdw]
        simp
      have hhead := List.head_dropWhile_not (fun d => decide (d ≠ c)) hne
      simp only [hdw, List.head_cons] at hhead
      simpa using hhead
    rw [hd, utf8Encode_cons_ascii hc]
    rfl

/-! ## Forms of a text -/

/-- A name or a value, as characters. -/
def formText (cs : List Char) : String := formDecode (utf8Encode cs)

/-- A pair of characters, cut at the first `=`. -/
def formPairChars (cs : List Char) : String × String :=
  (formText (cs.takeWhile fun c => c ≠ '='), formText ((cs.dropWhile fun c => c ≠ '=').drop 1))

/-- `new URLSearchParams` on characters. -/
theorem formParse_chars (text : String) :
    formParse text =
      (((if text.toList.head? = some '?' then text.toList.tail else text.toList).splitOn '&').filter
        (fun p => p ≠ [])).map formPairChars := by
  unfold formParse
  generalize (if text.toList.head? = some '?' then text.toList.tail else text.toList) = cs
  have hamp := splitOn_utf8Encode (c := '&') (by decide) cs
  have heq := @takeWhile_utf8Encode '=' (by decide)
  have hdrop := @drop_dropWhile_utf8Encode '=' (by decide)
  have hpair : ∀ p, formPair (utf8Encode p) = formPairChars p := by
    intro p
    unfold formPair formPairChars formText
    rw [← heq, ← hdrop]
    rfl
  show (((utf8Encode cs).splitOn (asciiByte '&')).filter (fun x => decide (x ≠ []))).map formPair = _
  rw [hamp, List.filter_map, List.map_map]
  have hcomp : formPair ∘ utf8Encode = formPairChars := funext hpair
  rw [hcomp]
  congr 1
  refine List.filter_congr fun p _ => ?_
  exact decide_eq_decide.mpr (not_congr utf8Encode_eq_nil)

/-! ## Decoding valid UTF-8 -/

/-- Reading a byte that continues a character. -/
theorem lossy_continue {st : Utf8State} {b : UInt8} (hlo : st.lower ≤ b.toNat)
    (hhi : b.toNat ≤ st.upper) (hneeded : st.needed ≠ 1) (bytes : List UInt8) :
    utf8DecodeLossy (some st) (b :: bytes) =
      utf8DecodeLossy (some { codePoint := 64 * st.codePoint + (b.toNat - 0x80),
                              needed := st.needed - 1 }) bytes := by
  rw [utf8DecodeLossy, if_pos ⟨hlo, hhi⟩, if_neg hneeded]

/-- Reading the last byte of a character. -/
theorem lossy_last {st : Utf8State} {b : UInt8} (hlo : st.lower ≤ b.toNat) (hhi : b.toNat ≤ st.upper)
    (hneeded : st.needed = 1) {c : Char} (hc : 64 * st.codePoint + (b.toNat - 0x80) = c.toNat)
    (bytes : List UInt8) :
    utf8DecodeLossy (some st) (b :: bytes) = c :: utf8DecodeLossy none bytes := by
  rw [utf8DecodeLossy, if_pos ⟨hlo, hhi⟩, if_pos hneeded, hc, Char.ofNat_toNat]

/-- One character is read from its bytes. -/
theorem lossy_char (c : Char) (bytes : List UInt8) :
    utf8DecodeLossy none (String.utf8EncodeChar c ++ bytes) = c :: utf8DecodeLossy none bytes := by
  have hvalid : c.toNat < 0xd800 ∨ (0xdfff < c.toNat ∧ c.toNat < 0x110000) := c.valid
  by_cases hascii : c.toNat < 128
  · have hlead : utf8Lead (UInt8.ofNat c.toNat) = ([c], none) := by
      unfold utf8Lead
      simp only [toNat_ofNat (show c.toNat < 256 by omega)]
      rw [if_pos hascii, Char.ofNat_toNat]
    rw [utf8EncodeChar_ascii hascii, List.singleton_append, utf8DecodeLossy, hlead]
    rfl
  rcases utf8EncodeChar_high (c := c) (by omega) with ⟨hlt, heq⟩ | ⟨hge, hlt, heq⟩ | ⟨hge, hlt, heq⟩
  · -- two bytes
    have hlead : utf8Lead (UInt8.ofNat (c.toNat / 64 + 0xC0)) =
        ([], some { codePoint := c.toNat / 64, needed := 1 }) := by
      have hb := toNat_ofNat (show c.toNat / 64 + 0xC0 < 256 by omega)
      unfold utf8Lead
      simp only [hb]
      rw [if_neg (by omega), if_neg (by omega), if_pos (by omega), Nat.add_sub_cancel]
    have hb := toNat_ofNat (show c.toNat % 64 + 0x80 < 256 by omega)
    rw [heq, List.cons_append, List.cons_append, utf8DecodeLossy, hlead, List.nil_append,
      List.nil_append]
    refine lossy_last ?_ ?_ rfl ?_ bytes
    all_goals
      simp only [hb]
      omega
  · -- three bytes
    have hlead : utf8Lead (UInt8.ofNat (c.toNat / 4096 + 0xE0)) =
        ([], some { codePoint := c.toNat / 4096, needed := 2,
                    lower := if c.toNat / 4096 + 0xE0 = 0xE0 then 0xA0 else 0x80,
                    upper := if c.toNat / 4096 + 0xE0 = 0xED then 0x9F else 0xBF }) := by
      have hb := toNat_ofNat (show c.toNat / 4096 + 0xE0 < 256 by omega)
      unfold utf8Lead
      simp only [hb]
      rw [if_neg (by omega), if_neg (by omega), if_neg (by omega), if_pos (by omega),
        Nat.add_sub_cancel]
    have hb := toNat_ofNat (show c.toNat / 64 % 64 + 0x80 < 256 by omega)
    have hb' := toNat_ofNat (show c.toNat % 64 + 0x80 < 256 by omega)
    rw [heq, List.cons_append, List.cons_append, List.cons_append, utf8DecodeLossy, hlead,
      List.nil_append, List.nil_append, lossy_continue ?_ ?_ ?_]
    · refine lossy_last ?_ ?_ rfl ?_ bytes
      all_goals
        simp only [hb, hb']
        omega
    · simp only [hb]
      split <;> omega
    · simp only [hb]
      split <;> omega
    · exact (by decide : (2 : Nat) ≠ 1)
  · -- four bytes
    have hlead : utf8Lead (UInt8.ofNat (c.toNat / 262144 + 0xF0)) =
        ([], some { codePoint := c.toNat / 262144, needed := 3,
                    lower := if c.toNat / 262144 + 0xF0 = 0xF0 then 0x90 else 0x80,
                    upper := if c.toNat / 262144 + 0xF0 = 0xF4 then 0x8F else 0xBF }) := by
      have hb := toNat_ofNat (show c.toNat / 262144 + 0xF0 < 256 by omega)
      unfold utf8Lead
      simp only [hb]
      rw [if_neg (by omega), if_neg (by omega), if_neg (by omega), if_neg (by omega),
        if_pos (by omega), Nat.add_sub_cancel]
    have hb := toNat_ofNat (show c.toNat / 4096 % 64 + 0x80 < 256 by omega)
    have hb' := toNat_ofNat (show c.toNat / 64 % 64 + 0x80 < 256 by omega)
    have hb'' := toNat_ofNat (show c.toNat % 64 + 0x80 < 256 by omega)
    rw [heq, List.cons_append, List.cons_append, List.cons_append, List.cons_append, utf8DecodeLossy,
      hlead, List.nil_append, List.nil_append, lossy_continue ?_ ?_ ?_,
      lossy_continue ?_ ?_ ?_]
    · refine lossy_last ?_ ?_ rfl ?_ bytes
      all_goals
        simp only [hb, hb', hb'']
        omega
    · simp only [hb']
      omega
    · simp only [hb']
      omega
    · exact (by decide : (2 : Nat) ≠ 1)
    · simp only [hb]
      split <;> omega
    · simp only [hb]
      split <;> omega
    · exact (by decide : (3 : Nat) ≠ 1)

/-- The lossy decoder loses nothing of a text. -/
theorem utf8DecodeLossy_encode : ∀ cs : List Char, utf8DecodeLossy none (utf8Encode cs) = cs
  | [] => rfl
  | c :: cs => by rw [utf8Encode_cons, lossy_char, utf8DecodeLossy_encode cs]

/-- What decodes strictly is the UTF-8 of what it decodes to. -/
theorem utf8DecodeAux_sound : ∀ (fuel : Nat) (bytes : List UInt8) (cs : List Char),
    utf8DecodeAux fuel bytes = some cs → utf8Encode cs = bytes
  | fuel, [], cs, h => by
    cases fuel <;> (cases h; rfl)
  | 0, b :: bytes, cs, h => by cases h
  | fuel + 1, b :: bytes, cs, h => by
    rw [utf8DecodeAux] at h
    cases hdec : (b :: bytes).toByteArray.utf8DecodeChar? 0 with
    | none =>
      rw [hdec] at h
      cases h
    | some c =>
      rw [hdec] at h
      obtain ⟨ds, hds, rfl⟩ := Option.map_eq_some_iff.mp h
      have hrest := utf8DecodeAux_sound fuel _ ds hds
      obtain ⟨l, hl⟩ := ByteArray.exists_of_utf8DecodeChar?_eq_some hdec
      have hlist : b :: bytes = String.utf8EncodeChar c ++ l.data.toList := by
        have h := congrArg (fun x : ByteArray => x.data.toList) hl
        simpa using h
      rw [hlist, ← String.length_utf8EncodeChar, List.drop_left] at hrest
      rw [utf8Encode_cons, hrest, hlist]

/-- Strict decoding has one preimage. -/
theorem utf8Decode_sound {bytes : List UInt8} {cs : List Char} (h : utf8Decode bytes = some cs) :
    utf8Encode cs = bytes := utf8DecodeAux_sound _ _ _ h

/-! ## The form of a text that `decodeURIComponent` reads -/

/-- A hexadecimal digit is ASCII. -/
theorem hexVal_ascii {c : Char} {n : Nat} (h : hexVal c = some n) : c.toNat < 128 := by
  have hle : ∀ {a b : Char}, a ≤ b → a.toNat ≤ b.toNat := fun h => h
  unfold hexVal at h
  split at h
  next hc =>
    have := hle hc.2
    exact Nat.lt_of_le_of_lt this (by decide)
  next =>
    split at h
    next hc =>
      have := hle hc.2
      exact Nat.lt_of_le_of_lt this (by decide)
    next =>
      split at h
      next hc =>
        have := hle hc.2
        exact Nat.lt_of_le_of_lt this (by decide)
      next => cases h

theorem percentDecode_cons {b : UInt8} (hb : b ≠ 37) (bytes : List UInt8) :
    percentDecode (b :: bytes) = b :: percentDecode bytes := by
  rw [percentDecode.eq_def]
  split
  next heq => exact absurd (List.cons.inj heq).1 hb
  next heq =>
    obtain ⟨rfl, rfl⟩ := List.cons.inj heq
    rfl
  next heq => cases heq

/-- Bytes other than a percent sign stand for themselves. -/
theorem percentDecode_append : ∀ {bytes : List UInt8}, (37 : UInt8) ∉ bytes → ∀ rest,
    percentDecode (bytes ++ rest) = bytes ++ percentDecode rest
  | [], _, _ => rfl
  | b :: bytes, h, rest => by
    rw [List.mem_cons, not_or] at h
    rw [List.cons_append, percentDecode_cons (Ne.symm h.1), percentDecode_append h.2,
      List.cons_append]

/-- An escape is one byte. -/
theorem percentDecode_escape {a b : Char} {x y : Nat} (ha : hexVal a = some x) (hb : hexVal b = some y)
    (bytes : List UInt8) :
    percentDecode (asciiByte '%' :: asciiByte a :: asciiByte b :: bytes) =
      UInt8.ofNat (16 * x + y) :: percentDecode bytes := by
  have hread : ∀ {c : Char} {n : Nat}, hexVal c = some n →
      Char.ofNat (asciiByte c).toNat = c := by
    intro c n hc
    unfold asciiByte
    rw [toNat_ofNat (by have := hexVal_ascii hc; omega), Char.ofNat_toNat]
  show percentDecode (37 :: asciiByte a :: asciiByte b :: bytes) = _
  rw [percentDecode]
  simp only [hread ha, hread hb, ha, hb]

theorem decodeChars_plain_some {c : Char} (hc : c ≠ '%') {run : List UInt8} {cs t : List Char}
    (h : decodeChars run (c :: cs) = some t) :
    ∃ pre rest, utf8Decode run.reverse = some pre ∧ decodeChars [] cs = some rest ∧
      t = pre ++ c :: rest := by
  rw [decodeChars_plain hc] at h
  obtain ⟨pre, hpre, hmap⟩ := Option.bind_eq_some_iff.mp h
  obtain ⟨rest, hrest, heq⟩ := Option.map_eq_some_iff.mp hmap
  exact ⟨pre, rest, hpre, hrest, heq.symm⟩

/-- The readings of `decodeChars` that succeed, after the bytes of the escapes
right before the text. What holds of every text that decodes is proved by
induction on its reading. -/
inductive Decodes : List UInt8 → List Char → List Char → Prop
  | stop {run : List UInt8} {t : List Char} (h : utf8Decode run.reverse = some t) :
      Decodes run [] t
  | escape {run : List UInt8} {a b : Char} {x y : Nat} {cs t : List Char}
      (ha : hexVal a = some x) (hb : hexVal b = some y)
      (h : Decodes (UInt8.ofNat (16 * x + y) :: run) cs t) : Decodes run ('%' :: a :: b :: cs) t
  | plain {run : List UInt8} {c : Char} {cs pre rest : List Char} (hc : c ≠ '%')
      (hpre : utf8Decode run.reverse = some pre) (h : Decodes [] cs rest) :
      Decodes run (c :: cs) (pre ++ c :: rest)

theorem decodes_of_decodeChars (run : List UInt8) (cs : List Char) : ∀ {t : List Char},
    decodeChars run cs = some t → Decodes run cs t := by
  fun_induction decodeChars run cs with
  | case1 run =>
    intro t h
    exact Decodes.stop h
  | case2 run a b cs x y hb ha ih =>
    intro t h
    exact Decodes.escape ha hb (ih h)
  | case3 => exact fun h => nomatch h
  | case4 => exact fun h => nomatch h
  | case5 run c cs hc ih =>
    intro t h
    have hread : decodeChars run (c :: cs) = some t := by
      rw [decodeChars]
      · exact h
      · exact hc
    obtain ⟨pre, rest, hpre, hrest, rfl⟩ := decodeChars_plain_some hc hread
    exact Decodes.plain hc hpre (ih hrest)

/-- Where the strict decoder reads a text, the bytes of the text without its
escapes are the UTF-8 of what it reads. -/
theorem Decodes.percentDecode_eq {run : List UInt8} {cs t : List Char} (h : Decodes run cs t) :
    run.reverse ++ percentDecode (utf8Encode cs) = utf8Encode t := by
  induction h with
  | stop h =>
    rw [utf8Decode_sound h]
    exact List.append_nil _
  | escape ha hb h ih =>
    rw [utf8Encode_cons_ascii (by decide), utf8Encode_cons_ascii (hexVal_ascii ha),
      utf8Encode_cons_ascii (hexVal_ascii hb), percentDecode_escape ha hb]
    rwa [List.reverse_cons, List.append_assoc, List.singleton_append] at ih
  | plain hc hpre h ih =>
    rw [List.reverse_nil, List.nil_append] at ih
    rw [utf8Encode_cons, percentDecode_append (asciiByte_not_mem (by decide) (fun heq => hc heq)),
      ih, ← utf8Decode_sound hpre, utf8Encode_append, utf8Encode_cons]

/-! ## Decoding around a delimiter -/

/-- A delimiter, which no escape contains, cuts what is decoded. -/
theorem decodeChars_append_cons {c : Char} (hc : c ≠ '%') (hx : hexVal c = none)
    (run : List UInt8) (a : List Char) : ∀ b : List Char,
    decodeChars run (a ++ c :: b) =
      (decodeChars run a).bind fun t => (decodeChars [] b).map fun u => t ++ c :: u := by
  fun_induction decodeChars run a with
  | case1 run =>
    intro b
    exact decodeChars_plain hc run b
  | case2 run x y cs m n hy hxx ih =>
    intro b
    rw [← ih b, List.cons_append, List.cons_append, List.cons_append, decodeChars]
    simp only [hxx, hy]
  | case3 run x y cs hno =>
    intro b
    rw [List.cons_append, List.cons_append, List.cons_append, decodeChars]
    split
    next m n hm hn => exact (hno m n hm hn).elim
    next => rfl
  | case4 run cs hno =>
    intro b
    rw [List.cons_append]
    cases cs with
    | nil =>
      cases b with
      | nil => rfl
      | cons d b =>
        rw [List.nil_append, decodeChars]
        simp only [hx]
        rfl
    | cons x cs =>
      cases cs with
      | nil =>
        rw [List.singleton_append, decodeChars]
        simp only [hx]
        cases hexVal x <;> rfl
      | cons y cs => exact (hno x y cs rfl).elim
  | case5 run d cs hd ih =>
    intro b
    rw [List.cons_append, decodeChars_plain hd, ih b]
    cases utf8Decode run.reverse with
    | none => rfl
    | some pre =>
      cases decodeChars [] cs with
      | none => rfl
      | some t =>
        cases decodeChars [] b with
        | none => rfl
        | some u => simp

theorem length_utf8 {bytes : List UInt8} {cs : List Char} (h : utf8Decode bytes = some cs) :
    cs.length ≤ bytes.length := by
  rw [← utf8Decode_sound h]
  clear h
  induction cs with
  | nil => exact Nat.le_refl _
  | cons c cs ih =>
    have hpos := c.utf8Size_pos
    rw [utf8Encode_cons, List.length_append, String.length_utf8EncodeChar, List.length_cons]
    omega

/-- An escape is longer than what it stands for. -/
theorem Decodes.length {run : List UInt8} {cs t : List Char} (h : Decodes run cs t) :
    t.length ≤ run.length + cs.length ∧ ('%' ∈ cs → t.length < run.length + cs.length) := by
  induction h with
  | stop h =>
    have hlen := length_utf8 h
    rw [List.length_reverse] at hlen
    exact ⟨hlen, fun hmem => (List.not_mem_nil hmem).elim⟩
  | escape ha hb h ih =>
    have hlen := ih.1
    simp only [List.length_cons] at hlen ⊢
    omega
  | plain hc hpre h ih =>
    obtain ⟨hle, hlt⟩ := ih
    have hlen := length_utf8 hpre
    rw [List.length_reverse] at hlen
    rw [List.length_append, List.length_cons, List.length_cons, List.mem_cons]
    rw [List.length_nil] at hle hlt
    refine ⟨by omega, ?_⟩
    rintro (heq | hmem)
    · exact absurd heq.symm hc
    · have := hlt hmem
      omega

/-- A text without escapes stands for itself. -/
theorem decodeChars_of_not_mem : ∀ {cs : List Char}, '%' ∉ cs → decodeChars [] cs = some cs
  | [], _ => by rw [decodeChars]; rfl
  | c :: cs, h => by
    rw [List.mem_cons, not_or] at h
    rw [decodeChars_plain (Ne.symm h.1), decodeChars_of_not_mem h.2]
    rfl

/-- A plus is a space in a form. -/
def spaceChar (c : Char) : Char := if c = '+' then ' ' else c

theorem map_utf8Encode_space : ∀ cs : List Char,
    (utf8Encode cs).map (fun b => if b = 43 then 32 else b) = utf8Encode (cs.map spaceChar)
  | [] => rfl
  | c :: cs => by
    have ih := map_utf8Encode_space cs
    rw [List.map_cons]
    by_cases hc : c = '+'
    · subst hc
      rw [utf8Encode_cons_ascii (by decide), List.map_cons, ih]
      rfl
    · have hsame : (String.utf8EncodeChar c).map (fun b => if b = 43 then 32 else b) =
          String.utf8EncodeChar c := by
        refine (List.map_congr_left fun b hb => ?_).trans (List.map_id' _)
        have hne : b ≠ asciiByte '+' := fun heq => asciiByte_not_mem (by decide) hc (heq ▸ hb)
        exact if_neg hne
      rw [utf8Encode_cons, List.map_append, ih, hsame]
      unfold spaceChar
      rw [if_neg hc, utf8Encode_cons]

theorem formText_of_bytes {cs t : List Char}
    (h : percentDecode (utf8Encode (cs.map spaceChar)) = utf8Encode t) :
    formText cs = String.ofList t := by
  unfold formText formDecode
  rw [map_utf8Encode_space, h, utf8DecodeLossy_encode]

theorem spaceChar_of_ne {c : Char} (h : c ≠ '+') : spaceChar c = c := if_neg h

theorem hexVal_space {c : Char} {n : Nat} (h : hexVal c = some n) : spaceChar c = c := by
  refine spaceChar_of_ne fun heq => ?_
  rw [heq] at h
  cases h

theorem spaceChar_ne_percent {c : Char} (h : c ≠ '%') : spaceChar c ≠ '%' := by
  unfold spaceChar
  split
  · decide
  · exact h

/-- With spaces for pluses a text is read with spaces for pluses. -/
theorem Decodes.space {run : List UInt8} {cs t : List Char} (h : Decodes run cs t) :
    ∃ t', decodeChars run (cs.map spaceChar) = some t' ∧ t'.length = t.length ∧
      ('+' ∈ cs → t' ≠ t) := by
  induction h with
  | @stop run t h =>
    exact ⟨t, by rw [List.map_nil, decodeChars]; exact h, rfl,
      fun hmem => (List.not_mem_nil hmem).elim⟩
  | escape ha hb h ih =>
    obtain ⟨t', ht', hlen, hne⟩ := ih
    refine ⟨t', ?_, hlen, fun hmem => hne ?_⟩
    · rw [List.map_cons, List.map_cons, List.map_cons, hexVal_space ha, hexVal_space hb,
        spaceChar_of_ne (by decide), decodeChars]
      simp only [ha, hb]
      exact ht'
    · rw [List.mem_cons, List.mem_cons, List.mem_cons] at hmem
      rcases hmem with heq | heq | heq | hmem
      · exact absurd heq (by decide)
      · rw [← heq] at ha
        cases ha
      · rw [← heq] at hb
        cases hb
      · exact hmem
  | @plain run c cs pre rest hc hpre h ih =>
    obtain ⟨rest', hrest', hlen, hne⟩ := ih
    refine ⟨pre ++ spaceChar c :: rest', ?_, ?_, fun hmem heq => ?_⟩
    · rw [List.map_cons, decodeChars_plain (spaceChar_ne_percent hc), hpre, hrest']
      rfl
    · rw [List.length_append, List.length_append, List.length_cons, List.length_cons, hlen]
    · -- the first plus is where the texts differ
      obtain ⟨hchar, htail⟩ := List.cons.inj (List.append_cancel_left heq)
      rcases List.mem_cons.mp hmem with hplus | hmem
      · rw [← hplus] at hchar
        exact absurd hchar (by decide)
      · exact hne hmem htail

/-- **A form reads what `decodeURIComponent` reads**, with spaces for pluses. -/
theorem formText_of_decode {cs t : List Char} (h : decodeChars [] (cs.map spaceChar) = some t) :
    formText cs = String.ofList t := by
  have hbytes := (decodes_of_decodeChars [] _ h).percentDecode_eq
  rw [List.reverse_nil, List.nil_append] at hbytes
  exact formText_of_bytes hbytes

/-! ## What was written is read -/

theorem map_space_of_not_mem {cs : List Char} (h : '+' ∉ cs) : cs.map spaceChar = cs := by
  refine (List.map_congr_left fun c hc => ?_).trans (List.map_id' _)
  have hne : c ≠ '+' := fun heq => h (heq ▸ hc)
  exact if_neg hne

/-- A form reads percent-encoding. -/
theorem formText_encodeChars (cs : List Char) : formText (encodeChars cs) = String.ofList cs := by
  refine formText_of_decode ?_
  rw [map_space_of_not_mem (not_mem_encodeChars (by decide) (by decide) cs), decodeChars_encodeChars]

/-- Neither a delimiter nor anything beyond ASCII is written for a byte. -/
theorem formEncodeByte_chars : ∀ n, n < 256 →
    ∀ c ∈ formEncodeByte (UInt8.ofNat n), c.toNat < 128 ∧ c ≠ '&' ∧ c ≠ '=' ∧ c ≠ '?' := by
  have hall : ∀ n, n < 256 → (formEncodeByte (UInt8.ofNat n)).all
      (fun c => c.toNat < 128 ∧ c ≠ '&' ∧ c ≠ '=' ∧ c ≠ '?') = true := by
    decide +kernel
  intro n hn c hc
  exact of_decide_eq_true (List.all_eq_true.mp (hall n hn) c hc)

/-- A byte that is not escaped is an ASCII character, no plus and no percent sign. -/
theorem isFormSafe_char : ∀ n, n < 256 → isFormSafe (UInt8.ofNat n) = true →
    n < 128 ∧ Char.ofNat n ≠ '+' ∧ n ≠ 37 ∧ (Char.ofNat n).toNat = n := by
  decide +kernel

/-- Each byte written is read. -/
theorem percentDecode_formEncodeByte (b : UInt8) (rest : List UInt8) :
    percentDecode (utf8Encode ((formEncodeByte b).map spaceChar) ++ rest) = b :: percentDecode rest := by
  have hlt := b.toNat_lt
  unfold formEncodeByte
  by_cases hspace : b = 32
  · subst hspace
    rfl
  rw [if_neg hspace]
  by_cases hsafe : isFormSafe b = true
  · obtain ⟨hascii, hplus, hpercent, hnat⟩ :=
      isFormSafe_char b.toNat hlt (by rwa [UInt8.ofNat_toNat])
    have hne : b ≠ 37 := fun heq => hpercent (congrArg UInt8.toNat heq)
    rw [if_pos hsafe, List.map_cons, List.map_nil, spaceChar_of_ne hplus,
      utf8Encode_cons_ascii (by omega)]
    unfold asciiByte
    rw [hnat, UInt8.ofNat_toNat, List.cons_append]
    exact percentDecode_cons hne _
  · have hhi := (hexVal_upper (b.toNat / 16) (by omega)).1
    have hlo := (hexVal_upper (b.toNat % 16) (by omega)).1
    have hb : UInt8.ofNat (16 * (b.toNat / 16) + b.toNat % 16) = b := by
      rw [Nat.div_add_mod]
      exact UInt8.ofNat_toNat
    rw [if_neg hsafe]
    show percentDecode (utf8Encode [spaceChar '%', spaceChar (hexDigit (b.toNat / 16)).toUpper,
      spaceChar (hexDigit (b.toNat % 16)).toUpper] ++ rest) = _
    rw [spaceChar_of_ne (by decide), hexVal_space hhi, hexVal_space hlo, utf8Encode_cons_ascii (by decide),
      utf8Encode_cons_ascii (hexVal_ascii hhi), utf8Encode_cons_ascii (hexVal_ascii hlo)]
    show percentDecode (asciiByte '%' :: asciiByte _ :: asciiByte _ :: rest) = _
    rw [percentDecode_escape hhi hlo, hb]

theorem percentDecode_formEncode : ∀ bytes : List UInt8,
    percentDecode (utf8Encode ((bytes.flatMap formEncodeByte).map spaceChar)) = bytes
  | [] => rfl
  | b :: bytes => by
    rw [List.flatMap_cons, List.map_append, utf8Encode_append, percentDecode_formEncodeByte,
      percentDecode_formEncode bytes]

/-- A name or a value is read as it was written. -/
theorem formText_formEncode (s : String) : formText (formEncode s) = s := by
  unfold formEncode
  rw [formText_of_bytes (percentDecode_formEncode _), String.ofList_toList]

theorem not_mem_formEncode {c : Char} (hc : c = '&' ∨ c = '=' ∨ c = '?') (s : String) :
    c ∉ formEncode s := by
  intro h
  obtain ⟨b, -, hb⟩ := List.mem_flatMap.mp h
  have hchars := formEncodeByte_chars b.toNat b.toNat_lt c (by rwa [UInt8.ofNat_toNat])
  obtain ⟨-, hamp, heq, hmark⟩ := hchars
  rcases hc with rfl | rfl | rfl
  · exact hamp rfl
  · exact heq rfl
  · exact hmark rfl

/-- A pair cut where it was put together. -/
theorem formPairChars_append {k : List Char} (hk : '=' ∉ k) (v : List Char) :
    formPairChars (k ++ '=' :: v) = (formText k, formText v) := by
  have hall : ∀ c ∈ k, decide (c ≠ '=') = true := fun c hc =>
    decide_eq_true fun heq => hk (heq ▸ hc)
  unfold formPairChars
  rw [List.takeWhile_append_of_pos hall, List.dropWhile_append_of_pos hall,
    List.takeWhile_cons_of_neg (by simp), List.dropWhile_cons_of_neg (by simp), List.append_nil]
  rfl

/-- **A form of pairs**: what is joined from encoded names and values, neither of
which has a delimiter, is read as the names and values. -/
theorem formParse_join (enc : String → List Char) (hread : ∀ s, formText (enc s) = s)
    (hfree : ∀ s, '&' ∉ enc s ∧ '=' ∉ enc s ∧ '?' ∉ enc s) (pairs : List (String × String)) :
    formParse (String.ofList (joinWith '&' (pairs.map fun p => enc p.1 ++ '=' :: enc p.2))) = pairs := by
  rw [formParse_chars, String.toList_ofList]
  cases pairs with
  | nil => rfl
  | cons p ps =>
    have hne : ((p :: ps).map fun p => enc p.1 ++ '=' :: enc p.2) ≠ [] := by simp
    have hamp : ∀ x ∈ (p :: ps).map fun p => enc p.1 ++ '=' :: enc p.2, '&' ∉ x := by
      intro x hx
      obtain ⟨q, -, rfl⟩ := List.mem_map.mp hx
      rw [List.mem_append, List.mem_cons]
      rintro (h | h | h)
      · exact (hfree q.1).1 h
      · exact absurd h (by decide)
      · exact (hfree q.2).1 h
    have hhead : (joinWith '&' ((p :: ps).map fun p => enc p.1 ++ '=' :: enc p.2)).head? ≠ some '?' := by
      have hstart : (enc p.1 ++ '=' :: enc p.2).head? ≠ some '?' := by
        cases hk : enc p.1 with
        | nil => simp
        | cons c cs =>
          rintro h
          obtain rfl : c = '?' := by simpa using h
          exact (hfree p.1).2.2 (hk ▸ List.mem_cons_self ..)
      obtain ⟨c, cs, hcs⟩ : ∃ c cs, enc p.1 ++ '=' :: enc p.2 = c :: cs :=
        List.exists_cons_of_ne_nil (by simp)
      rw [hcs] at hstart
      rw [List.map_cons, hcs]
      cases ps with
      | nil => exact hstart
      | cons q qs => exact hstart
    have hpairs : ∀ q : String × String, formPairChars (enc q.1 ++ '=' :: enc q.2) = q := by
      intro q
      rw [formPairChars_append (hfree q.1).2.1, hread, hread]
    rw [if_neg hhead, splitOn_joinWith hne hamp, List.filter_map, List.map_map]
    have hkeep : (p :: ps).filter ((fun x : List Char => decide (x ≠ [])) ∘
        fun q => enc q.1 ++ '=' :: enc q.2) = p :: ps := by
      rw [List.filter_eq_self]
      intro q _
      exact decide_eq_true (by simp)
    rw [hkeep]
    exact (List.map_congr_left fun q _ => hpairs q).trans (List.map_id' _)

/-- **`URLSearchParams` reads what it wrote.** -/
theorem formParse_formSerialize (pairs : List (String × String)) :
    formParse (formSerialize pairs) = pairs :=
  formParse_join formEncode formText_formEncode
    (fun s => ⟨not_mem_formEncode (Or.inl rfl) s, not_mem_formEncode (Or.inr (Or.inl rfl)) s,
      not_mem_formEncode (Or.inr (Or.inr rfl)) s⟩) pairs

/-- **`URLSearchParams` reads percent-encoding.** -/
theorem formParse_encodeChars (pairs : List (String × String)) :
    formParse (String.ofList (joinWith '&' (pairs.map fun p =>
      encodeChars p.1.toList ++ '=' :: encodeChars p.2.toList))) = pairs := by
  have hread : ∀ s : String, formText (encodeChars s.toList) = s := by
    intro s
    rw [formText_encodeChars, String.ofList_toList]
  have hfree : ∀ (c : Char), isUnreserved c = false → c ≠ '%' → ∀ s : String,
      c ∉ encodeChars s.toList := fun c hu hp s => not_mem_encodeChars hu hp _
  exact formParse_join (fun s => encodeChars s.toList) hread
    (fun s => ⟨hfree '&' (by decide) (by decide) s, hfree '=' (by decide) (by decide) s,
      hfree '?' (by decide) (by decide) s⟩) pairs

end Js
