import AuthokSpa.Js.Text
import AuthokSpa.Js.Uri

/-!
# Splitting and percent-encoding, both ways

`split` on one character is `List.splitOn`, so that a text joined from pieces
without the separator comes apart into the pieces. `decodeURIComponent` inverts
`encodeURIComponent`: the bytes escaped last are always the UTF-8 of whole
characters, which is the invariant of the induction (`decodeChars_encode`).
-/

namespace Js

/-! ## Splitting on one character -/

theorem splitChars_single (c : Char) : ∀ cs acc : List Char,
    splitChars [c] 0 acc cs = (cs.splitOn c).modifyHead (fun w => acc.reverse ++ w)
  | [], acc => by
    rw [splitChars, List.splitOn_nil, List.modifyHead_cons, List.append_nil]
  | d :: cs, acc => by
    rw [splitChars, List.splitOn_cons_eq_if_modifyHead]
    by_cases hd : d = c
    · subst hd
      have hid : (fun w : List Char => [].reverse ++ w) = id := funext fun _ => rfl
      have hpre : [d] <+: d :: cs := List.prefix_append [d] cs
      rw [if_pos hpre, if_pos BEq.rfl, List.modifyHead_cons, List.append_nil]
      show _ :: splitChars [d] 0 [] cs = _
      rw [splitChars_single d cs [], hid, List.modifyHead_id, id]
    · have hpre : ¬ [c] <+: d :: cs := by
        rw [List.cons_prefix_cons]
        exact fun h => hd h.1.symm
      rw [if_neg hpre, if_neg (by simpa using hd), splitChars_single c cs (d :: acc),
        List.modifyHead_modifyHead]
      congr 1
      funext w
      simp

/-- `split` on one character. -/
theorem split_single {sep : String} {c : Char} (hsep : sep.toList = [c]) (s : String) :
    split sep s = (s.toList.splitOn c).map String.ofList := by
  have hid : (fun w : List Char => [].reverse ++ w) = id := funext fun _ => rfl
  unfold split
  rw [hsep, splitChars_single, hid, List.modifyHead_id, id]

/-- Joined pieces come apart again. -/
theorem splitOn_joinWith {c : Char} {pieces : List (List Char)} (hne : pieces ≠ [])
    (h : ∀ p ∈ pieces, c ∉ p) : (joinWith c pieces).splitOn c = pieces := by
  rw [joinWith_eq_intercalate]
  exact List.splitOn_intercalate c h hne

/-- Splitting and putting the pieces side by side drops the separators. -/
theorem flatten_splitOn (c : Char) : ∀ cs : List Char,
    (cs.splitOn c).flatten = cs.filter (fun d => d ≠ c)
  | [] => rfl
  | d :: cs => by
    have ih := flatten_splitOn c cs
    rw [List.splitOn_cons_eq_if_modifyHead, List.filter_cons]
    by_cases hd : d = c
    · rw [if_pos (by simpa using hd), if_neg (by simpa using hd), List.flatten_cons, List.nil_append,
        ih]
    · rw [if_neg (by simpa using hd), if_pos (by simpa using hd), ← ih]
      cases hs : cs.splitOn c with
      | nil => exact absurd hs (List.splitOn_ne_nil c cs)
      | cons w ws => rfl

/-! ## Escapes in upper case -/

theorem hexVal_upper : ∀ n, n < 16 →
    hexVal (hexDigit n).toUpper = some n ∧ isUnreserved (hexDigit n).toUpper = true := by
  decide

/-- One escape is one byte more. -/
theorem decodeChars_escape (b : UInt8) (run : List UInt8) (cs : List Char) :
    decodeChars run ((escapeByte b).map Char.toUpper ++ cs) = decodeChars (b :: run) cs := by
  have hhi := (hexVal_upper (b.toNat / 16) (by have := b.toNat_lt; omega)).1
  have hlo := (hexVal_upper (b.toNat % 16) (by omega)).1
  have hb : UInt8.ofNat (16 * (b.toNat / 16) + b.toNat % 16) = b := by
    rw [Nat.div_add_mod]
    exact UInt8.ofNat_toNat
  have hshape : (escapeByte b).map Char.toUpper ++ cs =
      '%' :: (hexDigit (b.toNat / 16)).toUpper :: (hexDigit (b.toNat % 16)).toUpper :: cs := rfl
  rw [hshape, decodeChars]
  simp only [hhi, hlo, hb]

theorem decodeChars_flatMap_escape : ∀ (bytes run : List UInt8) (cs : List Char),
    decodeChars run (bytes.flatMap (fun b => (escapeByte b).map Char.toUpper) ++ cs) =
      decodeChars (bytes.reverse ++ run) cs
  | [], run, cs => rfl
  | b :: bytes, run, cs => by
    rw [List.flatMap_cons, List.append_assoc, decodeChars_escape, decodeChars_flatMap_escape,
      List.reverse_cons, List.append_assoc]
    rfl

theorem utf8Encode_append (cs ds : List Char) :
    utf8Encode (cs ++ ds) = utf8Encode cs ++ utf8Encode ds := List.flatMap_append

theorem utf8Encode_singleton (c : Char) : utf8Encode [c] = String.utf8EncodeChar c :=
  List.flatMap_singleton ..

/-- A character that is no percent sign ends the run of escapes. -/
theorem decodeChars_plain {c : Char} (hc : c ≠ '%') (run : List UInt8) (cs : List Char) :
    decodeChars run (c :: cs) =
      (utf8Decode run.reverse).bind fun pre => (decodeChars [] cs).map fun rest => pre ++ c :: rest := by
  rw [decodeChars]
  · cases utf8Decode run.reverse with
    | none => rfl
    | some pre =>
      cases decodeChars [] cs with
      | none => rfl
      | some rest => rfl
  · exact fun h => hc h

theorem unreserved_ne {c d : Char} (hc : isUnreserved c = true) (hd : isUnreserved d = false) :
    c ≠ d := by
  rintro rfl
  rw [hc] at hd
  cases hd

/-- The run holds the UTF-8 of the characters escaped last. -/
theorem decodeChars_encode : ∀ cs pre : List Char,
    decodeChars (utf8Encode pre).reverse (encodeChars cs) = some (pre ++ cs)
  | [], pre => by
    show decodeChars (utf8Encode pre).reverse [] = _
    rw [decodeChars, List.reverse_reverse, utf8Decode_encode, List.append_nil]
  | c :: cs, pre => by
    have hcons : encodeChars (c :: cs) =
        (if isUnreserved c then [c]
          else (String.utf8EncodeChar c).flatMap fun b => (escapeByte b).map Char.toUpper) ++
        encodeChars cs := rfl
    rw [hcons]
    by_cases hc : isUnreserved c = true
    · have ih := decodeChars_encode cs []
      rw [if_pos hc, List.singleton_append, decodeChars_plain (unreserved_ne hc (by decide)),
        List.reverse_reverse, utf8Decode_encode, Option.bind_some]
      rw [show (utf8Encode []).reverse = [] from rfl, List.nil_append] at ih
      rw [ih, Option.map_some]
    · have ih := decodeChars_encode cs (pre ++ [c])
      rw [if_neg hc, decodeChars_flatMap_escape]
      rw [utf8Encode_append, utf8Encode_singleton, List.reverse_append, List.append_assoc,
        List.singleton_append] at ih
      exact ih

/-- **`decodeURIComponent` inverts `encodeURIComponent`.** -/
theorem decodeChars_encodeChars (cs : List Char) : decodeChars [] (encodeChars cs) = some cs :=
  decodeChars_encode cs []

/-- What an encoded text is made of. -/
theorem mem_encodeChars {c : Char} {cs : List Char} (h : c ∈ encodeChars cs) :
    isUnreserved c = true ∨ c = '%' := by
  obtain ⟨d, -, hd⟩ := List.mem_flatMap.mp h
  by_cases hu : isUnreserved d = true
  · rw [if_pos hu, List.mem_singleton] at hd
    exact Or.inl (hd ▸ hu)
  · rw [if_neg hu] at hd
    obtain ⟨b, -, hb⟩ := List.mem_flatMap.mp hd
    have hlt := b.toNat_lt
    unfold escapeByte at hb
    simp only [List.map_cons, List.map_nil, List.mem_cons, List.not_mem_nil, or_false] at hb
    rcases hb with rfl | rfl | rfl
    · exact Or.inr (by decide)
    · exact Or.inl (hexVal_upper _ (by omega)).2
    · exact Or.inl (hexVal_upper _ (by omega)).2

/-- No delimiter stands in an encoded text. -/
theorem not_mem_encodeChars {c : Char} (hu : isUnreserved c = false) (hp : c ≠ '%') (cs : List Char) :
    c ∉ encodeChars cs := by
  intro h
  rcases mem_encodeChars h with h' | h'
  · rw [hu] at h'
    cases h'
  · exact hp h'

theorem encodeChars_unreserved : ∀ {cs : List Char}, (∀ c ∈ cs, isUnreserved c = true) →
    encodeChars cs = cs
  | [], _ => rfl
  | c :: cs, h => by
    have hc := h c (List.mem_cons_self ..)
    have ih := encodeChars_unreserved fun d hd => h d (List.mem_cons_of_mem _ hd)
    unfold encodeChars at ih ⊢
    rw [List.flatMap_cons, if_pos hc, ih]
    rfl

end Js
