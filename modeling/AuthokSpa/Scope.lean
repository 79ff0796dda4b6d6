import AuthokSpa.Js.Format
import AuthokSpa.Js.Sets
import Mathlib.Data.List.TakeWhile

/-!
# Scope strings (`scope.ts`)

`getUniqueScopes` joins its arguments with blanks, trims, splits at runs of
whitespace and drops repetitions. An absent argument (`undefined` or `null`)
joins as nothing.

Only the words of the arguments count (`getUniqueScopes_eq`), and a result passed on
counts as the words it was made of (`words_getUniqueScopes`). The laws of nesting, on
which every cache key depends, are laws of sets of words (`getUniqueScopes_algebra`).
-/

namespace AuthokSpa

open Js (Value isSpace setFrom joinWith)

/-- `s.trim()`. -/
def trim (cs : List Char) : List Char :=
  ((cs.dropWhile isSpace).reverse.dropWhile isSpace).reverse

/-- `s.split(/\s+/)`. `skipping` is true inside a run of whitespace; `acc` is
the piece being read, in reverse. -/
def splitSpaces : Bool → List Char → List Char → List (List Char)
  | _, acc, [] => [acc.reverse]
  | true, acc, c :: cs =>
    if isSpace c then splitSpaces true acc cs else splitSpaces false (c :: acc) cs
  | false, acc, c :: cs =>
    if isSpace c then acc.reverse :: splitSpaces true [] cs else splitSpaces false (c :: acc) cs

/-- The text of an argument in `scopes.join(' ')`. -/
def scopeText (v : Value) : List Char := if v.isNullish then [] else v.toText

/-- `getUniqueScopes`. -/
def getUniqueScopes (scopes : List Value) : String :=
  let joined := joinWith ' ' (scopes.map scopeText)
  String.ofList (joinWith ' ' (setFrom (splitSpaces false [] (trim joined))))

/-- The order of first occurrence is kept and an absent argument adds nothing. -/
example : getUniqueScopes [.str "openid", .undefined, .str " profile\topenid  email "] =
    "openid profile email" := by decide

/-! ## The words of a scope

`getUniqueScopes` is a matter of words: the maximal runs of other characters
than whitespace. -/

/-- The words of a text; `acc` is the word being read, in reverse. -/
def wordsFrom : List Char → List Char → List (List Char)
  | acc, [] => if acc = [] then [] else [acc.reverse]
  | acc, c :: cs =>
    if isSpace c then (if acc = [] then [] else [acc.reverse]) ++ wordsFrom [] cs
    else wordsFrom (c :: acc) cs

def words (cs : List Char) : List (List Char) := wordsFrom [] cs

/-- The words of the arguments of `getUniqueScopes`, in order. -/
def scopeWords (scopes : List Value) : List (List Char) := scopes.flatMap fun v => words (scopeText v)

theorem wordsFrom_append_space {c : Char} (hc : isSpace c = true) (ds : List Char) :
    ∀ cs acc, wordsFrom acc (cs ++ c :: ds) = wordsFrom acc cs ++ words ds
  | [], acc => by
    rw [List.nil_append, wordsFrom, wordsFrom, if_pos hc]
    rfl
  | d :: cs, acc => by
    rw [List.cons_append, wordsFrom, wordsFrom]
    split
    · rw [wordsFrom_append_space hc ds cs [], List.append_assoc]
    · exact wordsFrom_append_space hc ds cs (d :: acc)

theorem words_cons_space {c : Char} (hc : isSpace c = true) (ds : List Char) :
    words (c :: ds) = words ds :=
  wordsFrom_append_space hc ds [] []

theorem words_dropWhile (cs : List Char) : words (cs.dropWhile isSpace) = words cs := by
  induction cs with
  | nil => rfl
  | cons c cs ih =>
    rw [List.dropWhile_cons]
    split
    next hc => rw [ih, words_cons_space hc]
    next => rfl

/-- Whitespace at the end adds no word. -/
theorem words_append_spaces (cs : List Char) {sps : List Char} (h : ∀ c ∈ sps, isSpace c = true) :
    words (cs ++ sps) = words cs := by
  cases sps with
  | nil => rw [List.append_nil]
  | cons c sps =>
    have hnil : words sps = [] := by
      rw [← words_dropWhile, List.dropWhile_eq_nil_iff.mpr fun x hx => h x (List.mem_cons_of_mem _ hx)]
      rfl
    unfold words
    rw [wordsFrom_append_space (h c (List.mem_cons_self ..)), hnil, List.append_nil]

theorem words_trim (cs : List Char) : words (trim cs) = words cs := by
  have hsplit := List.takeWhile_append_dropWhile (p := isSpace) (l := (cs.dropWhile isSpace).reverse)
  have htext : cs.dropWhile isSpace =
      trim cs ++ ((cs.dropWhile isSpace).reverse.takeWhile isSpace).reverse := by
    unfold trim
    rw [← List.reverse_append, hsplit, List.reverse_reverse]
  rw [← words_dropWhile cs, htext, words_append_spaces]
  intro c hc
  exact List.mem_takeWhile_imp (List.mem_reverse.mp hc)

/-- Inside a text that does not end in whitespace the split gives the words. -/
theorem splitSpaces_eq_wordsFrom : ∀ (cs acc : List Char),
    (∀ c ∈ cs.getLast?, isSpace c = false) →
    (acc ≠ [] → splitSpaces false acc cs = wordsFrom acc cs) ∧
    (cs ≠ [] → splitSpaces true [] cs = wordsFrom [] cs)
  | [], acc, _ => by
    refine ⟨fun hacc => ?_, fun h => absurd rfl h⟩
    rw [splitSpaces, wordsFrom, if_neg hacc]
  | c :: cs, acc, hlast => by
    have hrest : ∀ x ∈ cs.getLast?, isSpace x = false := by
      intro x hx
      refine hlast x ?_
      cases cs with
      | nil => simp at hx
      | cons d cs => simpa using hx
    -- a blank is not the last character
    have hmore : isSpace c = true → cs ≠ [] := by
      rintro hc rfl
      have := hlast c (by simp)
      rw [hc] at this
      cases this
    rw [splitSpaces, splitSpaces, wordsFrom, wordsFrom]
    by_cases hc : isSpace c = true
    · obtain ⟨-, hskip⟩ := splitSpaces_eq_wordsFrom cs [] hrest
      simp only [if_pos hc]
      refine ⟨fun hacc => ?_, fun _ => hskip (hmore hc)⟩
      rw [if_neg hacc, hskip (hmore hc)]
      rfl
    · simp only [if_neg hc]
      exact ⟨fun _ => (splitSpaces_eq_wordsFrom cs (c :: acc) hrest).1 (by simp),
        fun _ => (splitSpaces_eq_wordsFrom cs [c] hrest).1 (by simp)⟩

theorem dropWhile_head (cs : List Char) : ∀ c ∈ (cs.dropWhile isSpace).head?, isSpace c = false := by
  intro c hc
  have := List.head?_dropWhile_not isSpace cs
  rw [Option.mem_def] at hc
  rw [hc] at this
  simpa using this

theorem trim_getLast (cs : List Char) : ∀ c ∈ (trim cs).getLast?, isSpace c = false := by
  unfold trim
  rw [List.getLast?_reverse]
  exact dropWhile_head _

theorem trim_head (cs : List Char) : ∀ c ∈ (trim cs).head?, isSpace c = false := by
  intro c hc
  refine dropWhile_head cs c ?_
  -- the trimmed text is a beginning of the text without leading blanks
  have hpre : trim cs <+: cs.dropWhile isSpace := by
    unfold trim
    rw [← List.reverse_suffix, List.reverse_reverse]
    exact List.dropWhile_suffix _
  obtain ⟨rest, hrest⟩ := hpre
  cases ht : trim cs with
  | nil =>
    rw [ht] at hc
    cases hc
  | cons d ds =>
    rw [ht] at hc hrest
    rw [← hrest]
    simpa using hc

/-- Splitting gives at least one piece. -/
theorem splitSpaces_ne_nil (b : Bool) (acc xs : List Char) : splitSpaces b acc xs ≠ [] := by
  induction xs generalizing b acc with
  | nil => simp [splitSpaces]
  | cons x xs ih =>
    cases b <;> rw [splitSpaces] <;> split <;> simp [ih]

/-- The pieces `getUniqueScopes` dedupes, up to one empty piece when there are no
words. -/
theorem splitSpaces_trim (cs : List Char) :
    splitSpaces false [] (trim cs) = if words cs = [] then [[]] else words cs := by
  rw [← words_trim cs]
  have hlast := trim_getLast cs
  have hhead := trim_head cs
  cases ht : trim cs with
  | nil => rfl
  | cons c ds =>
    rw [ht] at hlast hhead
    have hc : isSpace c = false := hhead c (by simp)
    have hall := (splitSpaces_eq_wordsFrom (c :: ds) [] hlast).2 (by simp)
    rw [splitSpaces, if_neg (by simp [hc])] at hall
    rw [splitSpaces, if_neg (by simp [hc]), hall]
    have hne : words (c :: ds) ≠ [] := by
      unfold words
      rw [← hall]
      exact splitSpaces_ne_nil _ _ _
    rw [if_neg hne]
    rfl

theorem words_joinWith (xs : List (List Char)) : words (joinWith ' ' xs) = xs.flatMap words := by
  have hsp : isSpace ' ' = true := by decide
  induction xs with
  | nil => rfl
  | cons x xs ih =>
    cases xs with
    | nil => simp [joinWith]
    | cons y ys =>
      rw [joinWith, List.flatMap_cons, ← ih]
      exact wordsFrom_append_space hsp _ x []

/-- `getUniqueScopes` is the set of words of its arguments. -/
theorem getUniqueScopes_eq (scopes : List Value) :
    getUniqueScopes scopes = String.ofList (joinWith ' ' (setFrom (scopeWords scopes))) := by
  have hwords : words (joinWith ' ' (scopes.map scopeText)) = scopeWords scopes := by
    rw [words_joinWith, List.flatMap_map]
    rfl
  unfold getUniqueScopes
  simp only
  rw [splitSpaces_trim, hwords]
  split
  next hnil => rw [hnil]; rfl
  next => rfl

/-- A word is not empty and has no blank. -/
def IsWord (w : List Char) : Prop := w ≠ [] ∧ ∀ c ∈ w, isSpace c = false

theorem isWord_of_mem_wordsFrom : ∀ {cs acc w : List Char}, (∀ c ∈ acc, isSpace c = false) →
    w ∈ wordsFrom acc cs → IsWord w
  | [], acc, w, hacc, hw => by
    rw [wordsFrom] at hw
    split at hw
    · cases hw
    · next hne =>
      obtain rfl : w = acc.reverse := List.mem_singleton.mp hw
      exact ⟨by simpa using hne, fun c hc => hacc c (List.mem_reverse.mp hc)⟩
  | d :: cs, acc, w, hacc, hw => by
    rw [wordsFrom] at hw
    split at hw
    · rcases List.mem_append.mp hw with h | h
      · split at h
        · cases h
        · next hne =>
          obtain rfl : w = acc.reverse := List.mem_singleton.mp h
          exact ⟨by simpa using hne, fun c hc => hacc c (List.mem_reverse.mp hc)⟩
      · exact isWord_of_mem_wordsFrom (by simp) h
    · next hd =>
      refine @isWord_of_mem_wordsFrom cs (d :: acc) w ?_ hw
      intro c hc
      rcases List.mem_cons.mp hc with rfl | h
      · simpa using hd
      · exact hacc c h

theorem wordsFrom_of_no_space : ∀ {w acc : List Char}, (∀ c ∈ w, isSpace c = false) →
    wordsFrom acc w = if acc.reverse ++ w = [] then [] else [acc.reverse ++ w]
  | [], acc, _ => by simp [wordsFrom]
  | c :: w, acc, h => by
    rw [wordsFrom, if_neg (by simp [h c (List.mem_cons_self ..)]),
      wordsFrom_of_no_space fun d hd => h d (List.mem_cons_of_mem _ hd)]
    simp

theorem words_of_isWord {w : List Char} (h : IsWord w) : words w = [w] := by
  unfold words
  rw [wordsFrom_of_no_space h.2]
  simp [h.1]

theorem flatMap_words_of_isWord {ws : List (List Char)} (h : ∀ w ∈ ws, IsWord w) :
    ws.flatMap words = ws := by
  induction ws with
  | nil => rfl
  | cons w ws ih =>
    rw [List.flatMap_cons, words_of_isWord (h w (List.mem_cons_self ..)),
      ih fun x hx => h x (List.mem_cons_of_mem _ hx)]
    rfl

theorem isWord_of_mem_scopeWords {scopes : List Value} {w : List Char}
    (h : w ∈ setFrom (scopeWords scopes)) : IsWord w := by
  obtain ⟨v, -, hv⟩ := List.mem_flatMap.mp (Js.mem_setFrom.mp h)
  exact isWord_of_mem_wordsFrom (by simp) hv

/-- A result of `getUniqueScopes` passed on counts as its words. -/
theorem words_getUniqueScopes (scopes : List Value) :
    words (scopeText (.str (getUniqueScopes scopes))) = setFrom (scopeWords scopes) := by
  show words (getUniqueScopes scopes).toList = _
  rw [getUniqueScopes_eq, String.toList_ofList, words_joinWith,
    flatMap_words_of_isWord fun _ hw => isWord_of_mem_scopeWords hw]

/-! ## The words, said otherwise -/

/-- The tokens of a text: what stands between two characters of whitespace, where
anything does. -/
def tokens (cs : List Char) : List (List Char) := (cs.splitOnP isSpace).filter fun w => w ≠ []

theorem wordsFrom_eq_filter : ∀ cs acc : List Char,
    wordsFrom acc cs = (cs.splitOnPPrepend isSpace acc).filter fun w => w ≠ []
  | [], acc => by
    rw [wordsFrom, List.splitOnPPrepend_nil]
    by_cases hacc : acc = []
    · rw [if_pos hacc, hacc]
      rfl
    · rw [if_neg hacc, List.filter_cons_of_pos (by simpa using hacc), List.filter_nil]
  | c :: cs, acc => by
    rw [wordsFrom]
    by_cases hc : isSpace c = true
    · rw [if_pos hc, List.splitOnPPrepend_cons_pos hc, wordsFrom_eq_filter cs []]
      by_cases hacc : acc = []
      · rw [if_pos hacc, hacc, List.nil_append]
        exact (List.filter_cons_of_neg (by simp)).symm
      · rw [if_neg hacc, List.filter_cons_of_pos (by simpa using hacc), List.singleton_append]
        rfl
    · rw [if_neg hc, List.splitOnPPrepend_cons_neg (by simpa using hc)]
      exact wordsFrom_eq_filter cs (c :: acc)

theorem words_eq_tokens (cs : List Char) : words cs = tokens cs := wordsFrom_eq_filter cs []

/-! ## Joined words -/

theorem head_joinWith {ws : List (List Char)} (h : ∀ w ∈ ws, IsWord w) :
    ∀ c ∈ (joinWith ' ' ws).head?, isSpace c = false := by
  intro c hc
  cases ws with
  | nil => cases hc
  | cons w ws =>
    obtain ⟨hne, hword⟩ := h w (List.mem_cons_self ..)
    obtain ⟨d, ds, rfl⟩ := List.exists_cons_of_ne_nil hne
    have hd : c = d := by
      cases ws with
      | nil => exact (Option.some.inj hc).symm
      | cons x xs => exact (Option.some.inj hc).symm
    rw [hd]
    exact hword d (List.mem_cons_self ..)

theorem getLast_joinWith : ∀ {ws : List (List Char)}, (∀ w ∈ ws, IsWord w) →
    ∀ c ∈ (joinWith ' ' ws).getLast?, isSpace c = false
  | [], _, c, hc => by cases hc
  | [w], h, c, hc => (h w (List.mem_cons_self ..)).2 c (List.mem_of_getLast? hc)
  | w :: x :: ws, h, c, hc => by
    have hrest := getLast_joinWith fun y hy => h y (List.mem_cons_of_mem w hy)
    -- the blank is not the last character, since a word follows
    have hne : joinWith ' ' (x :: ws) ≠ [] := by
      obtain ⟨hx, -⟩ := h x (List.mem_cons_of_mem w (List.mem_cons_self ..))
      cases ws with
      | nil => exact hx
      | cons y ys =>
        intro hnil
        exact hx (List.append_eq_nil_iff.mp hnil).1
    refine hrest c ?_
    rw [joinWith, List.getLast?_append_of_ne_nil _ (by simp)] at hc
    rwa [List.getLast?_cons_of_ne_nil hne] at hc

/-- Arguments with the same set of words give the same scope. -/
theorem getUniqueScopes_congr {xs ys : List Value}
    (h : setFrom (scopeWords xs) = setFrom (scopeWords ys)) :
    getUniqueScopes xs = getUniqueScopes ys := by
  rw [getUniqueScopes_eq, getUniqueScopes_eq, h]

theorem scopeWords_cons (v : Value) (vs : List Value) :
    scopeWords (v :: vs) = words (scopeText v) ++ scopeWords vs := rfl

@[simp] theorem scopeWords_nil : scopeWords [] = [] := rfl

theorem scopeWords_append (vs ws : List Value) : scopeWords (vs ++ ws) = scopeWords vs ++ scopeWords ws :=
  List.flatMap_append

/-! ## Nesting -/

/-- **A merged argument counts as what was merged.** -/
theorem getUniqueScopes_nest (vs ws us : List Value) :
    getUniqueScopes (vs ++ .str (getUniqueScopes ws) :: us) = getUniqueScopes (vs ++ (ws ++ us)) := by
  refine getUniqueScopes_congr ?_
  rw [scopeWords_append, scopeWords_append, scopeWords_append, scopeWords_cons,
    words_getUniqueScopes]
  exact Js.setFrom_append_congr rfl (Js.setFrom_append_congr (Js.setFrom_setFrom _) rfl)

/-- The words of `t` begin with those of `b`, as far as the set of them tells. -/
def Begins (b t : Value) : Prop :=
  setFrom (words (scopeText b) ++ words (scopeText t)) = setFrom (words (scopeText t))

theorem begins_refl (t : Value) : Begins t t := Js.setFrom_append_of_subset fun _ h => h

theorem begins_merged (b x : Value) : Begins b (.str (getUniqueScopes [b, x])) := by
  unfold Begins
  rw [words_getUniqueScopes]
  simp only [scopeWords_cons, scopeWords_nil, List.append_nil]
  rw [Js.setFrom_append_setFrom, Js.setFrom_append_repeat, Js.setFrom_setFrom]

/-- What a merged scope begins with is absorbed by it. -/
theorem getUniqueScopes_absorb {b t : Value} (h : Begins b t) (a c : Value) :
    getUniqueScopes [a, b, .str (getUniqueScopes [a, t, c])] = getUniqueScopes [a, t, c] := by
  refine getUniqueScopes_congr ?_
  simp only [scopeWords_cons, scopeWords_nil, List.append_nil, words_getUniqueScopes]
  exact Js.setFrom_merge h _ _

/-- **The algebra of `getUniqueScopes`**: the tokens of the arguments, each once and
where it came first, are joined by single blanks; merging twice is merging once, a
merged argument counts as what was merged, and a scope absorbs what it was built from. -/
theorem getUniqueScopes_algebra :
    (∀ scopes : List Value, ∃ ts,
      Js.FirstOccurrences (scopes.flatMap fun v => tokens (scopeText v)) ts ∧
        (getUniqueScopes scopes).toList = [' '].intercalate ts ∧
        (∀ c ∈ (getUniqueScopes scopes).toList.head?, isSpace c = false) ∧
        ∀ c ∈ (getUniqueScopes scopes).toList.getLast?, isSpace c = false) ∧
      (∀ scopes : List Value,
        getUniqueScopes [.str (getUniqueScopes scopes)] = getUniqueScopes scopes) ∧
      (∀ a b c d : Value,
        getUniqueScopes [a, b, .str (getUniqueScopes [c, d])] = getUniqueScopes [a, b, c, d]) ∧
      ∀ a b c x : Value,
        getUniqueScopes [a, b, .str (getUniqueScopes [a, .str (getUniqueScopes [b, x]), c])] =
          getUniqueScopes [a, .str (getUniqueScopes [b, x]), c] := by
  refine ⟨fun scopes => ⟨setFrom (scopeWords scopes), ?_, ?_, ?_, ?_⟩, fun scopes => ?_,
    fun a b c d => ?_, fun a b c x => ?_⟩
  · simp only [← words_eq_tokens]
    exact Js.firstOccurrences_setFrom (scopeWords scopes)
  · rw [getUniqueScopes_eq, String.toList_ofList, Js.joinWith_eq_intercalate]
  · rw [getUniqueScopes_eq, String.toList_ofList]
    exact head_joinWith fun _ hw => isWord_of_mem_scopeWords hw
  · rw [getUniqueScopes_eq, String.toList_ofList]
    exact getLast_joinWith fun _ hw => isWord_of_mem_scopeWords hw
  · have hnest := getUniqueScopes_nest [] scopes []
    rwa [List.append_nil, List.nil_append, List.nil_append] at hnest
  · exact getUniqueScopes_nest [a, b] [c, d] []
  · exact getUniqueScopes_absorb (begins_merged b x) a c

end AuthokSpa
