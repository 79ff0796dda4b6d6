import Mathlib.Data.List.Infix

/-!
# JavaScript string operations

The `String.prototype` methods used on keys and scopes: `split` on a non-empty
separator, `includes`, `endsWith`. `split` scans from the left and never
overlaps two separators, so splitting a joined text gives the pieces back only
when no separator starts early. `SepFree sep w` says exactly that about a piece
`w` in front of a separator; `split_append` is the rule every parser proof
uses, `sepFree_singleton` decides it for a separator of one character and
`sepFree_colons` for the separator `::`.
-/

namespace Js

/-- `split`, on character lists. `skip` counts the separator characters still
to be passed over, `acc` is the piece being read, reversed. -/
def splitChars (sep : List Char) : Nat → List Char → List Char → List (List Char)
  | _, acc, [] => [acc.reverse]
  | skip + 1, acc, _ :: cs => splitChars sep skip acc cs
  | 0, acc, c :: cs =>
    if sep <+: c :: cs then acc.reverse :: splitChars sep (sep.length - 1) [] cs
    else splitChars sep 0 (c :: acc) cs

/-- `s.split(sep)` for a non-empty separator. -/
def split (sep s : String) : List String :=
  (splitChars sep.toList 0 [] s.toList).map String.ofList

/-- `s.includes(t)`. -/
def includes (s t : String) : Bool := decide (t.toList <:+: s.toList)

/-- `s.endsWith(t)`. -/
def endsWith (s t : String) : Bool := decide (t.toList <:+ s.toList)

/-- `s.startsWith(t)`. -/
def startsWith (s t : String) : Bool := decide (t.toList <+: s.toList)

/-- The pieces joined with a separator. -/
def joinWith (sep : Char) : List (List Char) → List Char
  | [] => []
  | [x] => x
  | x :: y :: xs => x ++ sep :: joinWith sep (y :: xs)

theorem joinWith_eq_intercalate (c : Char) : ∀ pieces : List (List Char),
    joinWith c pieces = [c].intercalate pieces
  | [] => rfl
  | [x] => by simp [joinWith]
  | x :: y :: xs => by
    rw [joinWith, joinWith_eq_intercalate c (y :: xs), List.intercalate_cons_cons]
    simp

/-- No occurrence of `sep` starts inside `w` when `w` is followed by `sep`. -/
def SepFree (sep w : List Char) : Prop :=
  ∀ v rest, v ≠ [] → v <:+ w → ¬ sep <+: v ++ (sep ++ rest)

theorem SepFree.of_cons {sep w : List Char} {c : Char} (h : SepFree sep (c :: w)) :
    SepFree sep w :=
  fun v rest hv hs => h v rest hv (hs.trans (List.suffix_cons c w))

/-- Passing over `n` characters. -/
theorem splitChars_skip (sep : List Char) :
    ∀ (n : Nat) (acc xs rest : List Char), xs.length = n →
      splitChars sep n acc (xs ++ rest) = splitChars sep 0 acc rest
  | 0, acc, xs, rest, h => by
    rw [List.length_eq_zero_iff] at h
    rw [h, List.nil_append]
  | n + 1, acc, [], rest, h => by simp at h
  | n + 1, acc, x :: xs, rest, h => by
    rw [List.cons_append, splitChars]
    exact splitChars_skip sep n acc xs rest (by simpa using h)

/-- A piece in front of a separator is cut off whole. -/
theorem splitChars_append {sep : List Char} (hsep : sep ≠ []) :
    ∀ (w acc rest : List Char), SepFree sep w →
      splitChars sep 0 acc (w ++ (sep ++ rest)) =
        (acc.reverse ++ w) :: splitChars sep 0 [] rest
  | [], acc, rest, _ => by
    obtain ⟨d, ds, rfl⟩ := List.exists_cons_of_ne_nil hsep
    rw [List.nil_append, List.append_nil, List.cons_append, splitChars,
      if_pos (by rw [← List.cons_append]; exact List.prefix_append _ _)]
    rw [splitChars_skip _ _ _ ds rest (by simp)]
  | c :: w, acc, rest, h => by
    have hno : ¬ sep <+: c :: (w ++ (sep ++ rest)) :=
      h (c :: w) rest (by simp) (List.suffix_refl _)
    rw [List.cons_append, splitChars, if_neg hno,
      splitChars_append hsep w (c :: acc) rest h.of_cons]
    simp

/-- A text without the separator is one piece. -/
theorem splitChars_of_no_sep {sep : List Char} :
    ∀ (w acc : List Char), ¬ sep <:+: w → splitChars sep 0 acc w = [acc.reverse ++ w]
  | [], acc, _ => by rw [splitChars, List.append_nil]
  | c :: w, acc, h => by
    rw [splitChars, if_neg (fun hp => h hp.isInfix),
      splitChars_of_no_sep w (c :: acc) (fun hi => h (hi.trans (List.suffix_cons c w).isInfix))]
    simp

/-- A piece without a character is safe in front of it. -/
theorem sepFree_singleton {c : Char} {w : List Char} (h : c ∉ w) : SepFree [c] w := by
  intro v rest hv hs hp
  obtain ⟨d, v', rfl⟩ := List.exists_cons_of_ne_nil hv
  rw [List.cons_append, List.cons_prefix_cons] at hp
  refine h (hs.subset ?_)
  rw [hp.1]
  exact List.mem_cons_self ..

/-- A piece without `::` that does not end in `:` is safe in front of `::`. -/
theorem sepFree_colons {w : List Char} (hinf : ¬ [':', ':'] <:+: w) (hend : ¬ [':'] <:+ w) :
    SepFree [':', ':'] w := by
  intro v rest hv hs hp
  match v, hv with
  | [c], _ =>
    have hc : c = ':' := by
      have := hp
      simp only [List.cons_append, List.cons_prefix_cons] at this
      exact this.1.symm
    exact hend (hc ▸ hs)
  | c :: d :: v', _ =>
    simp only [List.cons_append, List.cons_prefix_cons, List.nil_prefix, and_true] at hp
    obtain ⟨rfl, rfl⟩ := hp
    have h2 : [':', ':'] <+: ':' :: ':' :: v' := ⟨v', rfl⟩
    exact hinf (h2.isInfix.trans hs.isInfix)

theorem toList_ne_nil {s : String} (h : s ≠ "") : s.toList ≠ [] := by
  intro hnil
  exact h (String.toList_inj.mp (by rw [hnil]; rfl))

/-- `split` of a safe piece, the separator and a rest. -/
theorem split_append {sep w : String} (rest : String) (hsep : sep ≠ "")
    (h : SepFree sep.toList w.toList) :
    split sep (w ++ (sep ++ rest)) = w :: split sep rest := by
  unfold split
  rw [String.toList_append, String.toList_append, splitChars_append (toList_ne_nil hsep) _ _ _ h]
  simp

/-- Whether a separator starts inside a piece does not depend on the rest. -/
theorem prefix_sep_congr {sep v rest : List Char} (h : sep <+: v ++ (sep ++ rest))
    (rest' : List Char) : sep <+: v ++ (sep ++ rest') := by
  have hsep : sep <+: v ++ sep := by
    refine List.prefix_of_prefix_length_le h ?_ ?_
    · rw [← List.append_assoc]
      exact List.prefix_append ..
    · rw [List.length_append]
      omega
  rw [← List.append_assoc]
  exact hsep.trans (List.prefix_append ..)

/-- A piece that is cut off whole was safe. -/
theorem sepFree_of_head {sep : List Char} : ∀ (w acc rest : List Char),
    (splitChars sep 0 acc (w ++ (sep ++ rest)))[0]? = some (acc.reverse ++ w) → SepFree sep w
  | [], _, _, _ => fun _ _ hv hs => absurd (List.suffix_nil.mp hs) hv
  | c :: w, acc, rest, h => by
    rw [List.cons_append, splitChars] at h
    split at h
    next =>
      -- the piece would have been cut in front of `c`
      have hlen := congrArg List.length (Option.some.inj h)
      rw [List.length_append, List.length_cons] at hlen
      omega
    next hno =>
      have hrest : SepFree sep w := by
        refine sepFree_of_head w (c :: acc) rest ?_
        rw [h, List.reverse_cons, List.append_assoc, List.singleton_append]
      intro v rest' hv hs hp
      rcases List.suffix_cons_iff.mp hs with rfl | hs
      · exact hno (prefix_sep_congr hp rest)
      · exact hrest v rest' hv hs hp

theorem no_sep_of_head {sep : List Char} (hsep : sep ≠ []) : ∀ (w acc : List Char),
    (splitChars sep 0 acc w)[0]? = some (acc.reverse ++ w) → ¬ sep <:+: w
  | [], _, _, hi => hsep (List.infix_nil.mp hi)
  | c :: w, acc, h, hi => by
    rw [splitChars] at h
    split at h
    next =>
      have hlen := congrArg List.length (Option.some.inj h)
      rw [List.length_append, List.length_cons] at hlen
      omega
    next hno =>
      have hrest : ¬ sep <:+: w := by
        refine no_sep_of_head hsep w (c :: acc) ?_
        rw [h, List.reverse_cons, List.append_assoc, List.singleton_append]
      rcases List.infix_cons_iff.mp hi with hp | hi
      · exact hno hp
      · exact hrest hi

/-- No separator is in a safe piece. -/
theorem SepFree.not_infix {sep w : List Char} (h : SepFree sep w) (hsep : sep ≠ []) :
    ¬ sep <:+: w := by
  rintro ⟨s, t, rfl⟩
  refine h (sep ++ t) [] ?_ ?_ ?_
  · exact fun hnil => hsep (List.append_eq_nil_iff.mp hnil).1
  · rw [List.append_assoc]
    exact List.suffix_append ..
  · rw [List.append_assoc]
    exact List.prefix_append ..

/-- `sepFree_colons` is exact. -/
theorem sepFree_colons_iff {w : List Char} :
    SepFree [':', ':'] w ↔ ¬ [':', ':'] <:+: w ∧ ¬ [':'] <:+ w := by
  constructor
  · intro h
    refine ⟨h.not_infix (by simp), fun hend => ?_⟩
    exact h [':'] [] (by simp) hend ⟨[':'], rfl⟩
  · rintro ⟨hinf, hend⟩
    exact sepFree_colons hinf hend

/-- A first piece is read back exactly when it is safe. -/
theorem split_append_iff {sep w : String} (rest : String) (hsep : sep ≠ "") :
    (split sep (w ++ (sep ++ rest)))[0]? = some w ↔ SepFree sep.toList w.toList := by
  constructor
  · intro h
    unfold split at h
    rw [String.toList_append, String.toList_append, List.getElem?_map] at h
    obtain ⟨piece, hpiece, rfl⟩ := Option.map_eq_some_iff.mp h
    rw [String.toList_ofList] at hpiece ⊢
    exact sepFree_of_head _ [] _ hpiece
  · intro h
    rw [split_append rest hsep h, List.getElem?_cons_zero]

/-- `split` of a text without the separator. -/
theorem split_of_not_includes {sep s : String} (h : includes s sep = false) :
    split sep s = [s] := by
  unfold split
  rw [splitChars_of_no_sep _ _ (by simpa [includes] using h)]
  simp

theorem split_eq_self_iff {sep s : String} (hsep : sep ≠ "") :
    (split sep s)[0]? = some s ↔ includes s sep = false := by
  constructor
  · intro h
    unfold split at h
    rw [List.getElem?_map] at h
    obtain ⟨piece, hpiece, rfl⟩ := Option.map_eq_some_iff.mp h
    unfold includes
    rw [String.toList_ofList] at hpiece ⊢
    rw [decide_eq_false_iff_not]
    exact no_sep_of_head (toList_ne_nil hsep) _ [] hpiece
  · intro h
    rw [split_of_not_includes h, List.getElem?_cons_zero]

end Js
