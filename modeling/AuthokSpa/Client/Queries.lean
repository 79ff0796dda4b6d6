import AuthokSpa.Client.Callback
import AuthokSpa.Js.FormRound
import AuthokSpa.Worker.Messages

/-!
# The two query decoders (`utils.ts`, `token.worker.ts`)

`parseQueryResult` cuts a query string by hand, `formDataToObject` leaves it to
`URLSearchParams`. They differ in what they do with a name (only the form decodes
it), with a value (by hand it ends at its second `=`, and a plus stays a plus) and
with a leading `?` (only the form drops it). A name given twice hides what was
said of it before, so only the last value of a name counts.

`decoders_agree_iff` is the exact condition. What carries the direction from
agreement to plain names is that an escape is longer than what it stands for: a
name that only one decoder knows would have to be the decoding of a longer one.
-/

namespace AuthokSpa

open Js (Value Obj ProtoObj OrdMap)

/-! ## Objects of assigned texts -/

/-- A text assigned; `__proto__` takes none. -/
def setText (o : Obj) (p : String × String) : Obj :=
  if p.1 = "__proto__" then o else Obj.set o p.1 (.str p.2)

/-- Texts assigned one after the other. -/
def textsOf (pairs : List (String × String)) : Obj := pairs.foldl setText []

/-- What a name was given last. -/
def lastValue {α : Type} : List (String × α) → String → Option α
  | [], _ => none
  | (n, v) :: ps, k => (lastValue ps k).or (if n = k then some v else none)

theorem lastValue_isSome {α : Type} (k : String) : ∀ pairs : List (String × α),
    (lastValue pairs k).isSome ↔ k ∈ pairs.map Prod.fst
  | [] => by simp [lastValue]
  | (n, v) :: ps => by
    rw [lastValue, Option.isSome_or, Bool.or_eq_true, lastValue_isSome k ps, List.map_cons,
      List.mem_cons]
    by_cases hn : n = k
    · simp [hn]
    · simp [hn, Ne.symm hn]

theorem lastValue_map {α β : Type} (f : α → β) (k : String) : ∀ pairs : List (String × α),
    lastValue (pairs.map fun p => (p.1, f p.2)) k = (lastValue pairs k).map f
  | [] => rfl
  | (n, v) :: ps => by
    rw [List.map_cons, lastValue, lastValue, lastValue_map f k ps]
    cases lastValue ps k with
    | some w => rfl
    | none => by_cases hn : n = k <;> simp [hn]

/-- What is given again counts as given later. -/
theorem lastValue_cons_of_mem {α : Type} {n : String} {ps : List (String × α)} (v : α) {k : String}
    (h : n = k → k ∈ ps.map Prod.fst) : lastValue ((n, v) :: ps) k = lastValue ps k := by
  rw [lastValue]
  by_cases hn : n = k
  · obtain ⟨w, hw⟩ := Option.isSome_iff_exists.mp ((lastValue_isSome k ps).mpr (h hn))
    rw [hw, Option.some_or]
  · rw [if_neg hn, Option.or_none]

theorem find_setText {k : String} (hk : k ≠ "__proto__") (o : Obj) (n v : String) :
    OrdMap.find (setText o (n, v)) k = if n = k then some (.str v) else OrdMap.find o k := by
  unfold setText
  by_cases hn : n = "__proto__"
  · have hne : n ≠ k := by
      intro heq
      exact hk (heq.symm.trans hn)
    rw [if_pos hn, if_neg hne]
  · rw [if_neg hn]
    unfold Obj.set
    rw [OrdMap.find_insert]

theorem find_foldl_setText {k : String} (hk : k ≠ "__proto__") :
    ∀ (pairs : List (String × String)) (o : Obj),
    OrdMap.find (pairs.foldl setText o) k =
      ((lastValue pairs k).map Value.str).or (OrdMap.find o k)
  | [], _ => rfl
  | (n, v) :: ps, o => by
    rw [List.foldl_cons, find_foldl_setText hk ps, lastValue, find_setText hk]
    cases lastValue ps k with
    | some w => rfl
    | none => by_cases hn : n = k <;> simp [hn]

theorem find_textsOf {k : String} (hk : k ≠ "__proto__") (pairs : List (String × String)) :
    OrdMap.find (textsOf pairs) k = (lastValue pairs k).map Value.str := by
  unfold textsOf
  rw [find_foldl_setText hk]
  exact Option.or_none

/-- `__proto__` is no member. -/
theorem find_textsOf_proto (pairs : List (String × String)) :
    OrdMap.find (textsOf pairs) "__proto__" = none := by
  have hfold : ∀ (ps : List (String × String)) (o : Obj), OrdMap.find o "__proto__" = none →
      OrdMap.find (ps.foldl setText o) "__proto__" = none := by
    intro ps
    induction ps with
    | nil => exact fun o h => h
    | cons p ps ih =>
      intro o h
      refine ih _ ?_
      unfold setText
      split
      next => exact h
      next hn =>
        unfold Obj.set
        rw [OrdMap.find_insert, if_neg hn, h]
  exact hfold pairs [] rfl

/-- By hand the texts are assigned to an object, which is the same. -/
theorem foldl_assign : ∀ (pairs : List (String × String)) (o : Obj),
    pairs.foldl (fun (o : ProtoObj) p => o.assign p.1 (.str p.2)) { own := o } =
      { own := pairs.foldl setText o }
  | [], _ => rfl
  | (n, v) :: ps, o => by
    rw [List.foldl_cons, List.foldl_cons, ← foldl_assign ps]
    congr 1
    unfold ProtoObj.assign setText
    by_cases hn : n = "__proto__"
    · rw [if_pos hn, if_pos hn]
    · rw [if_neg hn, if_neg hn]

/-- Numbering the expiry touches no other member. -/
theorem numberExpiry_own {o : ProtoObj} {k : String} (hk : k ≠ "expires_in") :
    OrdMap.find (numberExpiry o).own k = OrdMap.find o.own k := by
  unfold numberExpiry
  split
  · unfold ProtoObj.assign
    rw [if_neg (by decide)]
    show OrdMap.find (OrdMap.insert _ _ _) k = _
    rw [OrdMap.find_insert, if_neg (Ne.symm hk)]
  · rfl

theorem numberExpiry_isSome {o : Obj} :
    (OrdMap.find (numberExpiry { own := o }).own "expires_in").isSome =
      (OrdMap.find o "expires_in").isSome := by
  unfold numberExpiry
  split
  next htruthy =>
    unfold ProtoObj.assign
    rw [if_neg (by decide)]
    show (OrdMap.find (OrdMap.insert _ _ _) "expires_in").isSome = _
    rw [OrdMap.find_insert, if_pos rfl]
    unfold ProtoObj.get at htruthy
    cases hfind : OrdMap.find o "expires_in" with
    | some v => rfl
    | none =>
      rw [show ({ own := o } : ProtoObj).own = o from rfl, hfind] at htruthy
      cases htruthy
  next => rfl

theorem numberExpiry_proto {o : ProtoObj} : (numberExpiry o).proto = o.proto := by
  unfold numberExpiry
  split
  · unfold ProtoObj.assign
    rw [if_neg (by decide)]
  · rfl

/-! ## Parameters -/

/-- The name of a parameter as it is written. -/
def rawName (p : List Char) : List Char := p.takeWhile fun c => c ≠ '='

/-- The value of a parameter as it is written: all that follows the first `=`. -/
def rawValue (p : List Char) : List Char := (p.dropWhile fun c => c ≠ '=').drop 1

/-- What `decodeURIComponent` reads. -/
def uriText (cs : List Char) : List Char := (Js.decodeChars [] cs).getD []

/-- A parameter with a name and an `=`, whose escapes are UTF-8. -/
structure Param (p : List Char) : Prop where
  hasValue : '=' ∈ p
  hasName : rawName p ≠ []
  decodes : (Js.decodeChars [] p).isSome

/-- How it is read by hand. -/
def handPair (p : List Char) : String × String :=
  (String.ofList (rawName p),
    String.ofList (uriText ((rawValue p).takeWhile fun c => c ≠ '=')))

theorem param_cut {p : List Char} (h : '=' ∈ p) : p = rawName p ++ '=' :: rawValue p := by
  have hsplit := List.takeWhile_append_dropWhile (p := fun c : Char => decide (c ≠ '=')) (l := p)
  have hne : p.dropWhile (fun c => c ≠ '=') ≠ [] := by
    intro hnil
    rw [List.dropWhile_eq_nil_iff] at hnil
    exact absurd (hnil '=' h) (by decide)
  have hhead := List.head_dropWhile_not (fun c : Char => decide (c ≠ '=')) hne
  unfold rawName rawValue
  cases hdrop : p.dropWhile (fun c => c ≠ '=') with
  | nil => exact absurd hdrop hne
  | cons c cs =>
    simp only [hdrop, List.head_cons] at hhead
    obtain rfl : c = '=' := by simpa using hhead
    rw [hdrop] at hsplit
    exact hsplit.symm

theorem not_mem_takeWhile (c : Char) (cs : List Char) : c ∉ cs.takeWhile fun d => d ≠ c := by
  intro h
  have := List.mem_takeWhile_imp h
  simp at this

namespace Param

variable {p : List Char} (h : Param p)
include h

theorem decodes_parts :
    (∃ t, Js.decodeChars [] (rawName p) = some t) ∧ (∃ t, Js.decodeChars [] (rawValue p) = some t) := by
  obtain ⟨t, ht⟩ := Option.isSome_iff_exists.mp h.decodes
  rw [param_cut h.hasValue, Js.decodeChars_append_cons (by decide) (by decide)] at ht
  obtain ⟨n, hn, hmap⟩ := Option.bind_eq_some_iff.mp ht
  obtain ⟨v, hv, -⟩ := Option.map_eq_some_iff.mp hmap
  exact ⟨⟨n, hn⟩, v, hv⟩

/-- By hand. -/
theorem parseParam_eq : parseParam (String.ofList p) = some (handPair p) := by
  obtain ⟨-, t, ht⟩ := h.decodes_parts
  have hname : '=' ∉ rawName p := not_mem_takeWhile '=' p
  unfold parseParam handPair
  rw [Js.split_single (c := '=') rfl, String.toList_ofList]
  conv_lhs => rw [param_cut h.hasValue]
  rw [List.splitOn_append_cons_self_of_not_mem hname]
  by_cases heq : '=' ∈ rawValue p
  · -- the value goes on after a second `=`
    have hcut := param_cut heq
    have hfirst : '=' ∉ rawName (rawValue p) := not_mem_takeWhile '=' _
    have hdec : ∃ u, Js.decodeChars [] (rawName (rawValue p)) = some u := by
      rw [hcut, Js.decodeChars_append_cons (by decide) (by decide)] at ht
      obtain ⟨u, hu, -⟩ := Option.bind_eq_some_iff.mp ht
      exact ⟨u, hu⟩
    obtain ⟨u, hu⟩ := hdec
    conv_lhs => rw [hcut]
    rw [List.splitOn_append_cons_self_of_not_mem hfirst, List.map_cons, List.map_cons]
    show (Js.decodeURIComponent (String.ofList (rawName (rawValue p)))).map _ = _
    unfold Js.decodeURIComponent uriText
    rw [String.toList_ofList, hu]
    show _ = some (_, String.ofList ((Js.decodeChars [] (rawName (rawValue p))).getD []))
    rw [hu]
    rfl
  · have hall : (rawValue p).takeWhile (fun c => c ≠ '=') = rawValue p :=
      List.takeWhile_eq_self_iff.mpr fun c hc => decide_eq_true fun he => heq (he ▸ hc)
    rw [List.splitOn_eq_singleton heq, List.map_cons, List.map_cons, List.map_nil]
    show (Js.decodeURIComponent (String.ofList (rawValue p))).map _ = _
    unfold Js.decodeURIComponent uriText
    rw [String.toList_ofList, hall, ht]
    rfl

end Param

/-! ## Names and values in a form -/

/-- A name without escapes and pluses is its own decoding. -/
def PlainName (n : List Char) : Prop := '%' ∉ n ∧ '+' ∉ n

instance (n : List Char) : Decidable (PlainName n) :=
  inferInstanceAs (Decidable ('%' ∉ n ∧ '+' ∉ n))

theorem formText_plain {n : List Char} (h : PlainName n) : Js.formText n = String.ofList n := by
  refine Js.formText_of_decode ?_
  rw [Js.map_space_of_not_mem h.2, Js.decodeChars_of_not_mem h.1]

/-- A form reads a name as a shorter one, or as a plain one. -/
theorem formText_name {n t : List Char} (h : Js.decodeChars [] n = some t) :
    ∃ m, Js.formText n = String.ofList m ∧ (PlainName m ∨ m.length < n.length) := by
  have hread := Js.decodes_of_decodeChars [] n h
  obtain ⟨m, hm, hlen, -⟩ := hread.space
  refine ⟨m, Js.formText_of_decode hm, ?_⟩
  by_cases hpercent : '%' ∈ n
  · have hlt := hread.length.2 hpercent
    rw [List.length_nil] at hlt
    exact Or.inr (by omega)
  · left
    have hmap : '%' ∉ n.map Js.spaceChar := by
      intro hmem
      obtain ⟨c, hc, heq⟩ := List.mem_map.mp hmem
      refine Js.spaceChar_ne_percent ?_ heq
      rintro rfl
      exact hpercent hc
    rw [Js.decodeChars_of_not_mem hmap] at hm
    obtain rfl := Option.some.inj hm
    refine ⟨hmap, fun hmem => ?_⟩
    obtain ⟨c, -, heq⟩ := List.mem_map.mp hmem
    unfold Js.spaceChar at heq
    split at heq
    next => exact absurd heq (by decide)
    next hne => exact hne heq

/-- What by hand is read of a value. -/
def handText (v : List Char) : String := String.ofList (uriText (v.takeWhile fun c => c ≠ '='))

/-- A value without `=` and pluses. -/
def PlainValue (v : List Char) : Prop := '=' ∉ v ∧ '+' ∉ v

instance (v : List Char) : Decidable (PlainValue v) :=
  inferInstanceAs (Decidable ('=' ∉ v ∧ '+' ∉ v))

/-- **Both read the same value** exactly when it is plain. -/
theorem handText_eq_iff {v t : List Char} (h : Js.decodeChars [] v = some t) :
    handText v = Js.formText v ↔ PlainValue v := by
  obtain ⟨t', ht', hlen, hne⟩ := (Js.decodes_of_decodeChars [] v h).space
  rw [Js.formText_of_decode ht']
  unfold handText
  by_cases heq : '=' ∈ v
  · -- by hand the rest is lost
    refine iff_of_false (fun hsame => ?_) (fun hp => hp.1 heq)
    have hcut := param_cut heq
    have hread := h
    rw [hcut, Js.decodeChars_append_cons (by decide) (by decide)] at hread
    obtain ⟨a, ha, hmap⟩ := Option.bind_eq_some_iff.mp hread
    obtain ⟨b, -, rfl⟩ := Option.map_eq_some_iff.mp hmap
    have hhand : uriText (v.takeWhile fun c => c ≠ '=') = a := by
      unfold uriText
      show (Js.decodeChars [] (rawName v)).getD [] = a
      rw [ha]
      rfl
    rw [hhand] at hsame
    have hsize := congrArg List.length (String.ofList_injective hsame)
    rw [hlen, List.length_append, List.length_cons] at hsize
    omega
  · have hall : v.takeWhile (fun c => c ≠ '=') = v :=
      List.takeWhile_eq_self_iff.mpr fun c hc => decide_eq_true fun he => heq (he ▸ hc)
    have hhand : uriText v = t := by
      unfold uriText
      rw [h]
      rfl
    rw [hall, hhand]
    by_cases hplus : '+' ∈ v
    · refine iff_of_false (fun hsame => ?_) (fun hp => hp.2 hplus)
      exact hne hplus (String.ofList_injective hsame).symm
    · refine iff_of_true ?_ ⟨heq, hplus⟩
      rw [Js.map_space_of_not_mem hplus, h] at ht'
      rw [Option.some.inj ht']

/-! ## Whole queries -/

/-- The parameters as they are written. -/
def rawParams (cs : List Char) : List (String × List Char) :=
  (cs.splitOn '&').map fun p => (String.ofList (rawName p), rawValue p)

/-- A query string: no fragment, escapes that are UTF-8, a name and an `=` in
every parameter. -/
structure IsQuery (q : String) : Prop where
  noFragment : '#' ∉ q.toList
  decodes : (Js.decodeURIComponent q).isSome
  params : ∀ p ∈ q.toList.splitOn '&', '=' ∈ p ∧ rawName p ≠ []

/-- What decodes as a whole decodes in pieces. -/
theorem decodes_pieces : ∀ pieces : List (List Char),
    (Js.decodeChars [] (Js.joinWith '&' pieces)).isSome →
    ∀ p ∈ pieces, (Js.decodeChars [] p).isSome
  | [], _, _, hp => (List.not_mem_nil hp).elim
  | [x], h, p, hp => by
    obtain rfl := List.mem_singleton.mp hp
    exact h
  | x :: y :: xs, h, p, hp => by
    obtain ⟨t, ht⟩ := Option.isSome_iff_exists.mp h
    rw [Js.joinWith, Js.decodeChars_append_cons (by decide) (by decide)] at ht
    obtain ⟨a, ha, hmap⟩ := Option.bind_eq_some_iff.mp ht
    obtain ⟨b, hb, -⟩ := Option.map_eq_some_iff.mp hmap
    rcases List.mem_cons.mp hp with rfl | hp
    · exact Option.isSome_iff_exists.mpr ⟨a, ha⟩
    · exact decodes_pieces (y :: xs) (Option.isSome_iff_exists.mpr ⟨b, hb⟩) p hp

theorem IsQuery.param {q : String} (h : IsQuery q) : ∀ p ∈ q.toList.splitOn '&', Param p := by
  intro p hp
  have hdec : (Js.decodeChars [] (Js.joinWith '&' (q.toList.splitOn '&'))).isSome := by
    rw [Js.joinWith_eq_intercalate, List.intercalate_splitOn]
    have hq := h.decodes
    unfold Js.decodeURIComponent at hq
    rwa [Option.isSome_map] at hq
  exact ⟨(h.params p hp).1, (h.params p hp).2, decodes_pieces _ hdec p hp⟩

/-- The parameters read by hand. -/
def handParams (cs : List Char) : List (String × String) :=
  (rawParams cs).map fun p => (p.1, handText p.2)

theorem parseQueryResult_eq {q : String} (h : IsQuery q) :
    parseQueryResult q = some (numberExpiry { own := textsOf (handParams q.toList) }) := by
  have hmap : ∀ pieces : List (List Char), (∀ p ∈ pieces, Param p) →
      (pieces.map String.ofList).mapM parseParam = some (pieces.map handPair) := by
    intro pieces
    induction pieces with
    | nil => exact fun _ => rfl
    | cons p pieces ih =>
      intro hp
      rw [List.map_cons, List.mapM_cons, (hp p (List.mem_cons_self ..)).parseParam_eq,
        ih fun x hx => hp x (List.mem_cons_of_mem _ hx)]
      rfl
  have hread := parseQueryResult_of_params h.noFragment (Or.inl rfl)
    (hmap _ h.param)
  rw [List.append_nil, String.ofList_toList, foldl_assign] at hread
  rw [hread]
  unfold textsOf handParams rawParams
  rw [List.map_map]
  rfl

/-- A form is read without a leading `?`. -/
def formChars (cs : List Char) : List Char := if cs.head? = some '?' then cs.tail else cs

/-- The parameters a form has. -/
def formParams (cs : List Char) : List (String × String) :=
  (rawParams (formChars cs)).map fun p => (Js.formText p.1.toList, Js.formText p.2)

theorem formDataToObject_eq {q : String} (h : ∀ p ∈ (formChars q.toList).splitOn '&', '=' ∈ p) :
    Worker.formDataToObject q = textsOf (formParams q.toList) := by
  unfold Worker.formDataToObject textsOf formParams rawParams
  rw [Js.formParse_chars]
  have hkeep : ((formChars q.toList).splitOn '&').filter (fun p => p ≠ []) =
      (formChars q.toList).splitOn '&' := by
    rw [List.filter_eq_self]
    intro p hp
    refine decide_eq_true fun hnil => ?_
    have heq := h p hp
    rw [hnil] at heq
    exact List.not_mem_nil heq
  show List.foldl setText [] (((formChars q.toList).splitOn '&').filter (fun p => p ≠ []) |>.map
    Js.formPairChars) = _
  rw [hkeep, List.map_map]
  congr 1
  refine List.map_congr_left fun p _ => ?_
  show _ = (Js.formText (String.ofList (rawName p)).toList, Js.formText (rawValue p))
  rw [String.toList_ofList]
  rfl

/-- A leading question mark belongs to the first piece. -/
theorem splitOn_mark (cs : List Char) : ∃ p ps, ('?' :: cs).splitOn '&' = ('?' :: p) :: ps ∧
    cs.splitOn '&' = p :: ps := by
  rw [List.splitOn_cons_eq_if_modifyHead, if_neg (by decide)]
  cases hs : cs.splitOn '&' with
  | nil => exact absurd hs (List.splitOn_ne_nil _ _)
  | cons p ps => exact ⟨p, ps, rfl, rfl⟩

theorem rawName_mark (p : List Char) : rawName ('?' :: p) = '?' :: rawName p ∧
    rawValue ('?' :: p) = rawValue p := by
  unfold rawName rawValue
  rw [List.takeWhile_cons_of_pos (by decide), List.dropWhile_cons_of_pos (by decide)]
  exact ⟨rfl, rfl⟩

/-- The object parsed by hand and the form's have the same members but for the
value of `expires_in`. -/
structure SameParams (d : ProtoObj) (o : Obj) : Prop where
  others : ∀ k, k ≠ "expires_in" → OrdMap.find d.own k = OrdMap.find o k
  expiry : (OrdMap.find d.own "expires_in").isSome = (OrdMap.find o "expires_in").isSome
  plain : d.proto = []

/-- Both decoders give the same map, `expires_in` apart. -/
def DecodersAgree (q : String) : Prop :=
  ∃ d, parseQueryResult q = some d ∧ SameParams d (Worker.formDataToObject q)

/-- Last values that count in the comparison. -/
structure SameLast (ps ps' : List (String × String)) : Prop where
  others : ∀ k, k ≠ "expires_in" → k ≠ "__proto__" → lastValue ps k = lastValue ps' k
  expiry : (lastValue ps "expires_in").isSome = (lastValue ps' "expires_in").isSome

theorem sameParams_iff (ps ps' : List (String × String)) :
    SameParams (numberExpiry { own := textsOf ps }) (textsOf ps') ↔ SameLast ps ps' := by
  have hexp : ∀ ps, (OrdMap.find (textsOf ps) "expires_in").isSome =
      (lastValue ps "expires_in").isSome := by
    intro ps
    rw [find_textsOf (by decide), Option.isSome_map]
  constructor
  · rintro ⟨hothers, hexpiry, -⟩
    refine ⟨fun k hk hproto => ?_, ?_⟩
    · have h := hothers k hk
      rw [numberExpiry_own hk, find_textsOf hproto, find_textsOf hproto] at h
      refine Option.map_injective ?_ h
      exact fun _ _ heq => Value.str.inj heq
    · rwa [numberExpiry_isSome, hexp, hexp] at hexpiry
  · rintro ⟨hothers, hexpiry⟩
    refine ⟨fun k hk => ?_, ?_, numberExpiry_proto⟩
    · rw [numberExpiry_own hk]
      by_cases hproto : k = "__proto__"
      · rw [hproto, find_textsOf_proto, find_textsOf_proto]
      · rw [find_textsOf hproto, find_textsOf hproto, hothers k hk hproto]
    · rw [numberExpiry_isSome, hexp, hexp, hexpiry]

theorem toList_mark (n : String) : ("?" ++ n).toList = '?' :: n.toList := by
  rw [String.toList_append]
  rfl

theorem mark_ne (n : String) : ("?" ++ n) ≠ n := by
  intro hn
  have hlen := congrArg List.length (congrArg String.toList hn)
  rw [toList_mark, List.length_cons] at hlen
  omega

theorem mark_inj {n m : String} (h : ("?" ++ n) = ("?" ++ m)) : n = m := by
  have hlist := congrArg String.toList h
  rw [toList_mark, toList_mark] at hlist
  exact String.toList_inj.mp (List.cons.inj hlist).2

/-- A first name that starts with `?` starts the text. -/
theorem head_of_rawParams {cs : List Char} {n : String} {v : List Char}
    {rest : List (String × List Char)} (h : rawParams cs = ("?" ++ n, v) :: rest) :
    cs.head? = some '?' := by
  have hname : ∀ {p : List Char}, String.ofList (rawName p) = "?" ++ n →
      rawName p = '?' :: n.toList := by
    intro p hp
    have hlist := congrArg String.toList hp
    rwa [String.toList_ofList, toList_mark] at hlist
  unfold rawParams at h
  cases cs with
  | nil =>
    obtain ⟨hfirst, -⟩ := List.cons.inj h
    exact nomatch hname (Prod.ext_iff.mp hfirst).1
  | cons c cs =>
    rw [List.splitOn_cons_eq_if_modifyHead] at h
    by_cases hamp : c = '&'
    · rw [if_pos (by simpa using hamp)] at h
      obtain ⟨hfirst, -⟩ := List.cons.inj h
      exact nomatch hname (Prod.ext_iff.mp hfirst).1
    · rw [if_neg (by simpa using hamp)] at h
      cases hs : cs.splitOn '&' with
      | nil => exact absurd hs (List.splitOn_ne_nil _ _)
      | cons p ps =>
        rw [hs] at h
        obtain ⟨hfirst, -⟩ := List.cons.inj h
        have hraw := hname (Prod.ext_iff.mp hfirst).1
        unfold rawName at hraw
        rw [List.takeWhile_cons] at hraw
        split at hraw
        · rw [(List.cons.inj hraw).1]
          rfl
        · cases hraw

/-- The pieces a form reads are the pieces, the first one perhaps without `?`. -/
theorem form_pieces {cs : List Char} (h : ∀ p ∈ cs.splitOn '&', '=' ∈ p ∧ rawName p ≠ []) :
    (∀ p ∈ (formChars cs).splitOn '&', '=' ∈ p) ∧
    ((rawParams (formChars cs) = rawParams cs ∧
        ∀ n v rest, rawParams cs ≠ ("?" ++ n, v) :: rest) ∨
      ∃ n v rest, rawParams cs = ("?" ++ n, v) :: rest ∧ rawParams (formChars cs) = (n, v) :: rest) := by
  unfold formChars
  by_cases hmark : cs.head? = some '?'
  · obtain ⟨cs, rfl⟩ := List.head?_eq_some_iff.mp hmark
    obtain ⟨p, ps, hp, hp'⟩ := splitOn_mark cs
    rw [if_pos hmark, List.tail_cons]
    unfold rawParams
    rw [hp] at h ⊢
    rw [hp']
    constructor
    · intro x hx
      rcases List.mem_cons.mp hx with rfl | hx
      · have heq := (h ('?' :: x) (List.mem_cons_self ..)).1
        exact (List.mem_cons.mp heq).resolve_left (by decide)
      · exact (h x (List.mem_cons_of_mem _ hx)).1
    · right
      refine ⟨String.ofList (rawName p), rawValue p, _, ?_, rfl⟩
      rw [List.map_cons, (rawName_mark p).1, (rawName_mark p).2]
      congr 2
      rw [← String.toList_inj]
      simp
  · rw [if_neg hmark]
    refine ⟨fun p hp => (h p hp).1, Or.inl ⟨rfl, fun n v rest hraw => hmark ?_⟩⟩
    exact head_of_rawParams hraw

/-- The maps agree when the last values do. -/
theorem decodersAgree_iff {q : String} (h : IsQuery q) :
    DecodersAgree q ↔ SameLast (handParams q.toList) (formParams q.toList) := by
  have hform := formDataToObject_eq (form_pieces h.params).1
  unfold DecodersAgree
  rw [parseQueryResult_eq h, hform, ← sameParams_iff]
  constructor
  · rintro ⟨d, hd, hsame⟩
    obtain rfl := Option.some.inj hd
    exact hsame
  · exact fun hsame => ⟨_, rfl, hsame⟩

/-- **When the decoders agree**: names are written without escapes and pluses, the
last value of each name (`expires_in` and `__proto__` apart) without `=` and
pluses, and a first name that starts with `?` is given again with and without it. -/
structure Readable (q : String) : Prop where
  names : ∀ p ∈ rawParams q.toList, PlainName p.1.toList
  values : ∀ k v, k ≠ "expires_in" → k ≠ "__proto__" →
    lastValue (rawParams q.toList) k = some v → PlainValue v
  mark : ∀ n v rest, rawParams q.toList = ("?" ++ n, v) :: rest →
    ("?" ++ n) ∈ rest.map Prod.fst ∧ (n = "__proto__" ∨ n ∈ rest.map Prod.fst)

theorem plainName_cons {c : Char} {n : List Char} (h : PlainName (c :: n)) : PlainName n :=
  ⟨fun hmem => h.1 (List.mem_cons_of_mem _ hmem), fun hmem => h.2 (List.mem_cons_of_mem _ hmem)⟩

/-- Names stay plain without the `?`. -/
theorem plain_unmarked {n : String} {v : List Char} {rest : List (String × List Char)}
    (h : ∀ p ∈ ("?" ++ n, v) :: rest, PlainName p.1.toList) :
    ∀ p ∈ (n, v) :: rest, PlainName p.1.toList := by
  intro p hp
  rcases List.mem_cons.mp hp with rfl | hp
  · have hfirst := h ("?" ++ n, v) (List.mem_cons_self ..)
    rw [toList_mark] at hfirst
    exact plainName_cons hfirst
  · exact h p (List.mem_cons_of_mem _ hp)

theorem exists_longest : ∀ names : List String, ∃ b, ∀ n ∈ names, n.toList.length ≤ b
  | [] => ⟨0, fun _ h => (List.not_mem_nil h).elim⟩
  | n :: names => by
    obtain ⟨b, hb⟩ := exists_longest names
    refine ⟨max n.toList.length b, fun m hm => ?_⟩
    rcases List.mem_cons.mp hm with rfl | hm
    · exact Nat.le_max_left ..
    · exact (hb m hm).trans (Nat.le_max_right ..)

/-- A name that is not plain is read off a longer one, and so on without end. -/
theorem plain_of_names {names names' : List String}
    (hdec : ∀ n ∈ names', ∃ t, Js.decodeChars [] n.toList = some t)
    (hold : ∀ n ∈ names', n ∈ names ∨ ("?" ++ n) ∈ names)
    (hread : ∀ n ∈ names, n ≠ "__proto__" → ∃ n' ∈ names', Js.formText n'.toList = n) :
    ∀ n ∈ names, PlainName n.toList := by
  intro n hn
  by_contra hbad
  have hlonger : ∀ k : Nat, ∃ m ∈ names, ¬ PlainName m.toList ∧ k ≤ m.toList.length := by
    intro k
    induction k with
    | zero => exact ⟨n, hn, hbad, Nat.zero_le _⟩
    | succ k ih =>
      obtain ⟨m, hm, hmbad, hk⟩ := ih
      have hproto : m ≠ "__proto__" := by
        rintro rfl
        exact hmbad ⟨by decide, by decide⟩
      obtain ⟨n', hn', hform⟩ := hread m hm hproto
      obtain ⟨t, ht⟩ := hdec n' hn'
      obtain ⟨x, hx, hshort⟩ := formText_name ht
      have hxm : x = m.toList := by
        rw [← hform, hx, String.toList_ofList]
      have hlt : m.toList.length < n'.toList.length := by
        rcases hshort with hplain | hlt
        · exact absurd (hxm ▸ hplain) hmbad
        · exact hxm ▸ hlt
      have hbad' : ¬ PlainName n'.toList := by
        intro hplain
        rw [formText_plain hplain, String.ofList_toList] at hform
        rw [hform] at hlt
        exact Nat.lt_irrefl _ hlt
      rcases hold n' hn' with hmem | hmem
      · exact ⟨n', hmem, hbad', by omega⟩
      · refine ⟨"?" ++ n', hmem, fun hplain => hbad' ?_, ?_⟩
        · rw [toList_mark] at hplain
          exact plainName_cons hplain
        · rw [toList_mark, List.length_cons]
          omega
  obtain ⟨b, hb⟩ := exists_longest names
  obtain ⟨m, hm, -, hlong⟩ := hlonger (b + 1)
  have hle := hb m hm
  omega

/-! ## The condition is exact -/

theorem map_fst_handParams (cs : List Char) :
    (handParams cs).map Prod.fst = (rawParams cs).map Prod.fst := by
  unfold handParams
  rw [List.map_map]
  rfl

theorem lastValue_handParams (cs : List Char) (k : String) :
    lastValue (handParams cs) k = (lastValue (rawParams cs) k).map handText :=
  lastValue_map handText k _

/-- With plain names a form has the names that are written. -/
theorem formParams_plain {cs : List Char} (h : ∀ p ∈ rawParams (formChars cs), PlainName p.1.toList) :
    formParams cs = (rawParams (formChars cs)).map fun p => (p.1, Js.formText p.2) := by
  unfold formParams
  refine List.map_congr_left fun p hp => ?_
  rw [formText_plain (h p hp), String.ofList_toList]

/-- A last value stands in a parameter. -/
theorem lastValue_mem {α : Type} {k : String} {v : α} : ∀ {ps : List (String × α)},
    lastValue ps k = some v → (k, v) ∈ ps
  | [], h => nomatch h
  | (n, w) :: ps, h => by
    rw [lastValue] at h
    rcases Option.or_eq_some_iff.mp h with h | ⟨-, h⟩
    · exact List.mem_cons_of_mem _ (lastValue_mem h)
    · by_cases hn : n = k
      · rw [if_pos hn] at h
        obtain rfl := Option.some.inj h
        rw [hn]
        exact List.mem_cons_self ..
      · rw [if_neg hn] at h
        cases h

namespace IsQuery

variable {q : String} (h : IsQuery q)
include h

theorem decodes_raw : ∀ p ∈ rawParams q.toList,
    (∃ t, Js.decodeChars [] p.1.toList = some t) ∧ ∃ t, Js.decodeChars [] p.2 = some t := by
  intro p hp
  obtain ⟨x, hx, rfl⟩ := List.mem_map.mp hp
  have hparts := (h.param x hx).decodes_parts
  rw [String.toList_ofList]
  exact hparts

/-- The last values agree exactly when they are plain. -/
theorem value_iff {k : String} :
    (lastValue (rawParams q.toList) k).map handText =
        (lastValue (rawParams q.toList) k).map Js.formText ↔
      ∀ v, lastValue (rawParams q.toList) k = some v → PlainValue v := by
  cases hlast : lastValue (rawParams q.toList) k with
  | none => simp
  | some v =>
    obtain ⟨t, ht⟩ := (h.decodes_raw _ (lastValue_mem hlast)).2
    rw [Option.map_some, Option.map_some, Option.some_inj, handText_eq_iff ht]
    constructor
    · rintro hplain w hw
      exact Option.some.inj hw ▸ hplain
    · exact fun hall => hall v rfl

/-- From agreement, plain names. -/
theorem names_of_sameLast (hsame : SameLast (handParams q.toList) (formParams q.toList)) :
    ∀ p ∈ rawParams q.toList, PlainName p.1.toList := by
  obtain ⟨-, hform⟩ := form_pieces h.params
  have hold : ∀ n ∈ (rawParams (formChars q.toList)).map Prod.fst,
      n ∈ (rawParams q.toList).map Prod.fst ∨ ("?" ++ n) ∈ (rawParams q.toList).map Prod.fst := by
    intro n hn
    rcases hform with ⟨heq, -⟩ | ⟨m, v, rest, hraw, heq⟩
    · exact Or.inl (heq ▸ hn)
    · rw [heq, List.map_cons, List.mem_cons] at hn
      rw [hraw, List.map_cons]
      rcases hn with rfl | hn
      · exact Or.inr (List.mem_cons_self ..)
      · exact Or.inl (List.mem_cons_of_mem _ hn)
  have hdec : ∀ n ∈ (rawParams (formChars q.toList)).map Prod.fst,
      ∃ t, Js.decodeChars [] n.toList = some t := by
    intro n hn
    rcases hold n hn with hmem | hmem
    · obtain ⟨p, hp, rfl⟩ := List.mem_map.mp hmem
      exact (h.decodes_raw p hp).1
    · obtain ⟨p, hp, hname⟩ := List.mem_map.mp hmem
      obtain ⟨t, ht⟩ := (h.decodes_raw p hp).1
      rw [hname, toList_mark] at ht
      obtain ⟨-, rest, -, hrest, -⟩ := Js.decodeChars_plain_some (by decide) ht
      exact ⟨rest, hrest⟩
  have hread : ∀ n ∈ (rawParams q.toList).map Prod.fst, n ≠ "__proto__" →
      ∃ n' ∈ (rawParams (formChars q.toList)).map Prod.fst, Js.formText n'.toList = n := by
    intro n hn hproto
    have hhand : (lastValue (handParams q.toList) n).isSome := by
      rw [lastValue_isSome, map_fst_handParams]
      exact hn
    have hsome : (lastValue (formParams q.toList) n).isSome := by
      by_cases hexp : n = "expires_in"
      · subst hexp
        rw [← hsame.expiry]
        exact hhand
      · rw [← hsame.others n hexp hproto]
        exact hhand
    rw [lastValue_isSome] at hsome
    obtain ⟨p, hp, hname⟩ := List.mem_map.mp hsome
    obtain ⟨r, hr, rfl⟩ := List.mem_map.mp hp
    exact ⟨r.1, List.mem_map.mpr ⟨r, hr, rfl⟩, hname⟩
  intro p hp
  exact plain_of_names hdec hold hread p.1 (List.mem_map.mpr ⟨p, hp, rfl⟩)

/-- With plain names and a repeated first one, a form gives each name its last
value. -/
theorem lastValue_formParams (hnames : ∀ p ∈ rawParams q.toList, PlainName p.1.toList)
    (hmark : ∀ n v rest, rawParams q.toList = ("?" ++ n, v) :: rest →
      ("?" ++ n) ∈ rest.map Prod.fst ∧ (n = "__proto__" ∨ n ∈ rest.map Prod.fst))
    {k : String} (hk : k ≠ "__proto__") :
    lastValue (formParams q.toList) k = (lastValue (rawParams q.toList) k).map Js.formText := by
  obtain ⟨-, hform⟩ := form_pieces h.params
  rcases hform with ⟨heq, -⟩ | ⟨n, v, rest, hraw, heq⟩
  · rw [formParams_plain (by rwa [heq]), heq]
    exact lastValue_map Js.formText k _
  · have hplain : ∀ p ∈ rawParams (formChars q.toList), PlainName p.1.toList := by
      rw [heq]
      exact plain_unmarked (hraw ▸ hnames)
    obtain ⟨hagain, hwithout⟩ := hmark n v rest hraw
    rw [formParams_plain hplain, heq]
    refine (lastValue_map Js.formText k _).trans ?_
    congr 1
    rw [hraw, lastValue_cons_of_mem v, lastValue_cons_of_mem v]
    · rintro rfl
      exact hagain
    · rintro rfl
      exact hwithout.resolve_left hk

/-- A form drops the `?` of a first name. -/
theorem rawParams_marked {n : String} {v : List Char} {rest : List (String × List Char)}
    (hraw : rawParams q.toList = ("?" ++ n, v) :: rest) :
    rawParams (formChars q.toList) = (n, v) :: rest := by
  rcases (form_pieces h.params).2 with ⟨-, hno⟩ | ⟨m, w, rest', hraw', heq⟩
  · exact absurd hraw (hno n v rest)
  · rw [hraw] at hraw'
    obtain ⟨hfirst, rfl⟩ := List.cons.inj hraw'
    obtain ⟨hname, rfl⟩ := Prod.ext_iff.mp hfirst
    rw [heq, mark_inj hname]

/-- From agreement, a first name with `?` is repeated. -/
theorem mark_of_sameLast (hsame : SameLast (handParams q.toList) (formParams q.toList))
    {n : String} {v : List Char} {rest : List (String × List Char)}
    (hraw : rawParams q.toList = ("?" ++ n, v) :: rest) :
    ("?" ++ n) ∈ rest.map Prod.fst ∧ (n = "__proto__" ∨ n ∈ rest.map Prod.fst) := by
  have hplain := h.names_of_sameLast hsame
  have heq := h.rawParams_marked hraw
  have hnames : ∀ p ∈ rawParams (formChars q.toList), PlainName p.1.toList := by
    rw [heq]
    exact plain_unmarked (hraw ▸ hplain)
  have hhand : ∀ k, (lastValue (handParams q.toList) k).isSome ↔
      k = "?" ++ n ∨ k ∈ rest.map Prod.fst := by
    intro k
    rw [lastValue_isSome, map_fst_handParams, hraw, List.map_cons, List.mem_cons]
  have hformed : ∀ k, (lastValue (formParams q.toList) k).isSome ↔
      k = n ∨ k ∈ rest.map Prod.fst := by
    intro k
    rw [lastValue_isSome, formParams_plain hnames, heq, List.map_map, List.map_cons, List.mem_cons]
    rfl
  have hkeys : ∀ k, k ≠ "__proto__" →
      ((lastValue (handParams q.toList) k).isSome ↔ (lastValue (formParams q.toList) k).isSome) := by
    intro k hk
    by_cases hexp : k = "expires_in"
    · rw [hexp, hsame.expiry]
    · rw [hsame.others k hexp hk]
  constructor
  · have hproto : ("?" ++ n) ≠ "__proto__" := by
      intro hp
      have hlist := congrArg String.toList hp
      rw [toList_mark] at hlist
      exact absurd (List.cons.inj hlist).1 (by decide)
    have hmem := (hformed _).mp ((hkeys _ hproto).mp ((hhand _).mpr (Or.inl rfl)))
    exact hmem.resolve_left (mark_ne n)
  · by_cases hproto : n = "__proto__"
    · exact Or.inl hproto
    · have hmem := (hhand n).mp ((hkeys n hproto).mpr ((hformed n).mpr (Or.inl rfl)))
      exact Or.inr (hmem.resolve_left fun hn => mark_ne n hn.symm)

/-- The values agree when they are plain. -/
theorem sameLast_iff : SameLast (handParams q.toList) (formParams q.toList) ↔ Readable q := by
  constructor
  · intro hsame
    have hnames := h.names_of_sameLast hsame
    have hmark : ∀ n v rest, rawParams q.toList = ("?" ++ n, v) :: rest →
        ("?" ++ n) ∈ rest.map Prod.fst ∧ (n = "__proto__" ∨ n ∈ rest.map Prod.fst) :=
      fun n v rest hraw => h.mark_of_sameLast hsame hraw
    refine ⟨hnames, fun k v hexp hproto => ?_, hmark⟩
    have hlast := hsame.others k hexp hproto
    rw [lastValue_handParams, h.lastValue_formParams hnames hmark hproto] at hlast
    exact h.value_iff.mp hlast v
  · rintro ⟨hnames, hvalues, hmark⟩
    constructor
    · intro k hexp hproto
      rw [lastValue_handParams, h.lastValue_formParams hnames hmark hproto]
      exact h.value_iff.mpr fun v => hvalues k v hexp hproto
    · rw [lastValue_handParams, h.lastValue_formParams hnames hmark (by decide), Option.isSome_map,
        Option.isSome_map]

end IsQuery

/-- `expires_in` as a number, where there is a text. -/
def numbered (v : Value) : Value := if v.truthy then .num (Js.parseInt v.toText) else v

theorem numberExpiry_value (o : Obj) :
    OrdMap.find (numberExpiry { own := o }).own "expires_in" =
      (OrdMap.find o "expires_in").map numbered := by
  have hget : ProtoObj.get { own := o } "expires_in" = (OrdMap.find o "expires_in").getD .undefined := by
    unfold ProtoObj.get
    cases OrdMap.find o "expires_in" <;> rfl
  unfold numberExpiry
  rw [hget]
  cases hfind : OrdMap.find o "expires_in" with
  | none => exact hfind
  | some v =>
    rw [Option.getD_some, Option.map_some]
    unfold numbered
    by_cases htruthy : v.truthy = true
    · rw [if_pos htruthy, if_pos htruthy]
      unfold ProtoObj.assign
      rw [if_neg (by decide)]
      show OrdMap.find (OrdMap.insert _ _ _) "expires_in" = _
      rw [OrdMap.find_insert, if_pos rfl]
    · rw [if_neg htruthy, if_neg htruthy]
      exact hfind

/-- **The two decoders agree** on a query exactly when it is readable; and where
the last `expires_in` is plain as well, it is the number of what the form reads. -/
theorem decoders_agree_iff {q : String} (h : IsQuery q) :
    (DecodersAgree q ↔ Readable q) ∧
    (Readable q →
      (∀ v, lastValue (rawParams q.toList) "expires_in" = some v → PlainValue v) →
      ∀ d, parseQueryResult q = some d →
        OrdMap.find d.own "expires_in" =
          (OrdMap.find (Worker.formDataToObject q) "expires_in").map numbered) := by
  refine ⟨(decodersAgree_iff h).trans h.sameLast_iff, fun hreadable hplain d hd => ?_⟩
  rw [parseQueryResult_eq h] at hd
  obtain rfl := Option.some.inj hd
  rw [numberExpiry_value, formDataToObject_eq (form_pieces h.params).1, find_textsOf (by decide),
    find_textsOf (by decide), lastValue_handParams,
    h.lastValue_formParams hreadable.names hreadable.mark (by decide), h.value_iff.mpr hplain]

/-- A response in percent-encoding is read by both. -/
theorem decoders_agree_encoded : DecodersAgree "code=a%20b&state=Y%3D%3D" := by
  refine (decoders_agree_iff ⟨by decide, by decide, by decide⟩).1.mpr ⟨by decide, ?_, ?_⟩
  · intro k v _ _ hlast
    have hplain : ∀ p ∈ rawParams "code=a%20b&state=Y%3D%3D".toList, PlainValue p.2 := by decide
    exact hplain _ (lastValue_mem hlast)
  · intro n v rest hraw
    have hhead := head_of_rawParams hraw
    exact absurd hhead (by decide)

/-- The padding of a state is lost by hand. -/
theorem padding_lost : ¬ ∀ q, IsQuery q → DecodersAgree q := by
  intro h
  have hquery : IsQuery "state=YQ==" := ⟨by decide, by decide, by decide⟩
  have hreadable := hquery.sameLast_iff.mp ((decodersAgree_iff hquery).mp (h _ hquery))
  have hplain := hreadable.values "state" ['Y', 'Q', '=', '='] (by decide) (by decide) (by decide)
  exact hplain.1 (by decide)

end AuthokSpa
