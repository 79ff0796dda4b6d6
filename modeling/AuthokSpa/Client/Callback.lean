import AuthokSpa.Client.Requests
import AuthokSpa.Client.Session
import AuthokSpa.Js.UriRound

/-!
# Query strings, written and read (`utils.ts`, `AuthokClient.ts`)

`createQueryParams` writes a map in percent-encoding, and no `?`, `#`, `&` or
`=` is left in what it writes of a name or a value. So the callback URL is cut
where it was put together: `handleRedirectCallback` finds the map
(`callback_inverts`).
-/

namespace AuthokSpa

open Js (Value Obj ProtoObj OrdMap)

/-- The object of some names and texts. -/
def textObj (params : List (String × String)) : Obj := params.map fun p => (p.1, .str p.2)

/-- A parameter as `createQueryParams` writes it. -/
def paramChars (p : String × String) : List Char :=
  Js.encodeChars p.1.toList ++ '=' :: Js.encodeChars p.2.toList

theorem keys_textObj (params : List (String × String)) :
    OrdMap.keys (textObj params) = params.map Prod.fst := by
  unfold OrdMap.keys textObj
  rw [List.map_map]
  rfl

theorem queryChars_textObj (params : List (String × String)) :
    queryChars (textObj params) = Js.joinWith '&' (params.map paramChars) := by
  have hall : (textObj params).filter (fun m => !m.2.isUndefined) = textObj params := by
    rw [List.filter_eq_self]
    intro m hm
    obtain ⟨p, -, rfl⟩ := List.mem_map.mp hm
    rfl
  unfold queryChars
  rw [hall]
  unfold textObj
  rw [List.map_map]
  rfl

/-- A delimiter other than `=` does not occur in a parameter. -/
theorem not_mem_paramChars {c : Char} (hu : Js.isUnreserved c = false) (hp : c ≠ '%') (he : c ≠ '=')
    (p : String × String) : c ∉ paramChars p := by
  unfold paramChars
  rw [List.mem_append, List.mem_cons]
  rintro (h | h | h)
  · exact Js.not_mem_encodeChars hu hp _ h
  · exact he h
  · exact Js.not_mem_encodeChars hu hp _ h

/-- Nor one other than `&` and `=` in a query string. -/
theorem not_mem_queryChars {c : Char} (hu : Js.isUnreserved c = false) (hp : c ≠ '%') (he : c ≠ '=')
    (ha : c ≠ '&') (params : List (String × String)) : c ∉ queryChars (textObj params) := by
  rw [queryChars_textObj, Js.joinWith_eq_intercalate]
  induction params with
  | nil => simp
  | cons p params ih =>
    cases params with
    | nil => simpa using not_mem_paramChars hu hp he p
    | cons q params =>
      rw [List.map_cons, List.map_cons, List.intercalate_cons_cons, List.mem_append, List.mem_append,
        List.mem_singleton, ← List.map_cons]
      rintro ((h | h) | h)
      · exact not_mem_paramChars hu hp he p h
      · exact ha h
      · exact ih h

/-! ## The callback URL -/

/-- A parameter is read as its raw name and its value. -/
theorem parseParam_paramChars (p : String × String) :
    parseParam (String.ofList (paramChars p)) =
      some (String.ofList (Js.encodeChars p.1.toList), p.2) := by
  have hname : '=' ∉ Js.encodeChars p.1.toList :=
    Js.not_mem_encodeChars (by decide) (by decide) _
  have hvalue : '=' ∉ Js.encodeChars p.2.toList :=
    Js.not_mem_encodeChars (by decide) (by decide) _
  unfold parseParam
  rw [Js.split_single (c := '=') rfl, String.toList_ofList]
  unfold paramChars
  rw [List.splitOn_append_cons_self_of_not_mem hname, List.splitOn_eq_singleton hvalue]
  show (Js.decodeURIComponent (String.ofList (Js.encodeChars p.2.toList))).map _ = _
  unfold Js.decodeURIComponent
  rw [String.toList_ofList, Js.decodeChars_encodeChars, Option.map_some, String.ofList_toList]
  rfl

theorem mapM_parseParam : ∀ params : List (String × String),
    (∀ p ∈ params, ∀ c ∈ p.1.toList, Js.isUnreserved c = true) →
    (params.map fun p => String.ofList (paramChars p)).mapM parseParam = some params
  | [], _ => rfl
  | p :: params, h => by
    have hp := h p (List.mem_cons_self ..)
    rw [List.map_cons, List.mapM_cons, parseParam_paramChars, Js.encodeChars_unreserved hp,
      String.ofList_toList, mapM_parseParam params fun q hq => h q (List.mem_cons_of_mem _ hq)]
    rfl

/-- Texts under distinct names are assigned as they are. -/
theorem assign_all : ∀ (params : List (String × String)) (o : ProtoObj),
    (∀ p ∈ params, p.1 ≠ "__proto__") →
    params.foldl (fun (o : ProtoObj) p => o.assign p.1 (.str p.2)) o =
      { o with own := Obj.spread o.own (textObj params) }
  | [], _, _ => rfl
  | p :: params, o, h => by
    rw [List.foldl_cons, assign_all params _ fun q hq => h q (List.mem_cons_of_mem _ hq)]
    unfold ProtoObj.assign
    rw [if_neg (h p (List.mem_cons_self ..))]
    rfl

/-- What `parseQueryResult` does last: `expires_in` becomes a number. -/
def numberExpiry (o : ProtoObj) : ProtoObj :=
  if (o.get "expires_in").truthy then
    o.assign "expires_in" (.num (Js.parseInt (o.get "expires_in").toText))
  else o

/-- `parseQueryResult` in front of a fragment, once the parameters are read. -/
theorem parseQueryResult_of_params {cs rest : List Char} {params : List (String × String)}
    (hcs : '#' ∉ cs) (hrest : rest = [] ∨ rest.head? = some '#')
    (h : ((cs.splitOn '&').map String.ofList).mapM parseParam = some params) :
    parseQueryResult (String.ofList (cs ++ rest)) = some (numberExpiry
      (params.foldl (fun (o : ProtoObj) p => o.assign p.1 (.str p.2)) { own := [] })) := by
  have hcut : (cs ++ rest).takeWhile (fun c => c ≠ '#') = cs := by
    have hhash : ∀ c ∈ cs, decide (c ≠ '#') = true := by
      intro c hc
      exact decide_eq_true fun heq => hcs (heq ▸ hc)
    rw [List.takeWhile_append_of_pos hhash]
    rcases hrest with rfl | hrest
    · simp
    · obtain ⟨tail, rfl⟩ := List.head?_eq_some_iff.mp hrest
      simp
  have hsplit : Js.split "&" (String.ofList cs) = (cs.splitOn '&').map String.ofList := by
    rw [Js.split_single (c := '&') rfl, String.toList_ofList]
  unfold parseQueryResult
  simp only [String.toList_ofList, hcut, hsplit, h, Option.bind_eq_bind, Option.bind_some]
  rfl

/-- **Parsing a query string** that `createQueryParams` wrote. -/
theorem parseQueryResult_queryChars {params : List (String × String)} (hne : params ≠ [])
    (hchars : ∀ p ∈ params, ∀ c ∈ p.1.toList, Js.isUnreserved c = true)
    (hnames : ∀ p ∈ params, p.1 ≠ "expires_in" ∧ p.1 ≠ "__proto__")
    (hnodup : (params.map Prod.fst).Nodup) (rest : List Char) (hrest : rest = [] ∨ rest.head? = some '#') :
    parseQueryResult (String.ofList (queryChars (textObj params) ++ rest)) =
      some { own := textObj params } := by
  have hpieces : (queryChars (textObj params)).splitOn '&' = params.map paramChars := by
    rw [queryChars_textObj]
    refine Js.splitOn_joinWith (by simpa using hne) fun x hx => ?_
    obtain ⟨p, -, rfl⟩ := List.mem_map.mp hx
    exact not_mem_paramChars (by decide) (by decide) (by decide) p
  have hown : Obj.spread [] (textObj params) = textObj params :=
    Obj.spread_nodup _ [] (by
      unfold OrdMap.KeysNodup
      rw [List.nil_append, keys_textObj]
      exact hnodup)
  have hexpires : ProtoObj.get { own := textObj params } "expires_in" = .undefined := by
    have hnone : OrdMap.find (textObj params) "expires_in" = none := by
      rw [OrdMap.find_eq_none_iff, keys_textObj]
      intro hmem
      obtain ⟨p, hp, hname⟩ := List.mem_map.mp hmem
      exact (hnames p hp).1 hname
    unfold ProtoObj.get
    rw [hnone]
    rfl
  have hhash : '#' ∉ queryChars (textObj params) :=
    not_mem_queryChars (by decide) (by decide) (by decide) (by decide) params
  have hmap : ((queryChars (textObj params)).splitOn '&' |>.map String.ofList).mapM parseParam =
      some params := by
    rw [hpieces, List.map_map]
    exact mapM_parseParam params hchars
  rw [parseQueryResult_of_params hhash hrest hmap, assign_all params _ fun p hp => (hnames p hp).2, hown]
  unfold numberExpiry
  rw [hexpires]
  rfl

/-- What is joined after `split('?')`: the text without its question marks. -/
theorem join_fragments (cs : List Char) :
    String.join ((cs.splitOn '?').map String.ofList) = String.ofList (cs.filter fun c => c ≠ '?') := by
  rw [← Js.flatten_splitOn, ← String.toList_inj, String.toList_ofList]
  generalize cs.splitOn '?' = pieces
  induction pieces with
  | nil => rfl
  | cons p ps ih =>
    rw [List.map_cons, String.join_cons, String.toList_append, ih, String.toList_ofList,
      List.flatten_cons]

/-- **The callback is read as it was written**: whatever comes before the query
string and whatever comes after it in a fragment, the parameters are the map. -/
theorem callback_inverts (base fragment : String) (hbase : '?' ∉ base.toList)
    (params : List (String × String)) (hne : params ≠ [])
    (hchars : ∀ p ∈ params, ∀ c ∈ p.1.toList, Js.isUnreserved c = true)
    (hnames : ∀ p ∈ params, p.1 ≠ "expires_in" ∧ p.1 ≠ "__proto__")
    (hnodup : (params.map Prod.fst).Nodup) :
    callbackParams (base ++ ("?" ++ (createQueryParams (textObj params) ++ ("#" ++ fragment)))) =
      some { own := textObj params } := by
  have htext : (base ++ ("?" ++ (createQueryParams (textObj params) ++ ("#" ++ fragment)))).toList =
      base.toList ++ '?' :: (queryChars (textObj params) ++ '#' :: fragment.toList) := by
    unfold createQueryParams
    simp
  have hquery : (queryChars (textObj params)).filter (fun c => c ≠ '?') =
      queryChars (textObj params) := by
    rw [List.filter_eq_self]
    intro c hc
    have hno := not_mem_queryChars (c := '?') (by decide) (by decide) (by decide) (by decide) params
    exact decide_eq_true fun heq => hno (heq ▸ hc)
  have hdrop : ∃ f fs, (Js.split "?" (base ++ ("?" ++ (createQueryParams (textObj params) ++
      ("#" ++ fragment))))).drop 1 = f :: fs ∧
      f :: fs = ((queryChars (textObj params) ++ '#' :: fragment.toList).splitOn '?').map
        String.ofList := by
    rw [Js.split_single (c := '?') rfl, htext, List.splitOn_append_cons_self_of_not_mem hbase]
    rw [List.map_cons, List.drop_one, List.tail_cons]
    cases hs : (queryChars (textObj params) ++ '#' :: fragment.toList).splitOn '?' with
    | nil => exact absurd hs (List.splitOn_ne_nil _ _)
    | cons f fs => exact ⟨_, _, rfl, rfl⟩
  obtain ⟨f, fs, hfs, hjoin⟩ := hdrop
  unfold callbackParams
  rw [hfs]
  show parseQueryResult (String.join (f :: fs)) = _
  -- the question marks of the fragment are lost, but so is all of it
  rw [hjoin, join_fragments, List.filter_append, hquery, List.filter_cons_of_pos (by decide)]
  exact parseQueryResult_queryChars hne hchars hnames hnodup _ (Or.inr rfl)

/-- A state with every delimiter in it, and a fragment made of delimiters. -/
theorem callback_inverts_delimiters :
    callbackParams ("https://app.example/cb" ++ ("?" ++
      (createQueryParams (textObj [("code", "a b"), ("state", "=?&#+%é")]) ++ ("#" ++ "?x=y&state=z#")))) =
      some { own := [("code", .str "a b"), ("state", .str "=?&#+%é")] } :=
  callback_inverts "https://app.example/cb" "?x=y&state=z#" (by decide) _ (by simp)
    (by simp [Js.isUnreserved]) (by decide) (by decide)

end AuthokSpa
