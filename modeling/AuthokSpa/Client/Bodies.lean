import AuthokSpa.Client.Callback
import AuthokSpa.Js.FormRound
import AuthokSpa.Js.JsonRound
import AuthokSpa.Worker.Messages

/-!
# The two bodies of a token request (`api.ts`, `utils.ts`, `token.worker.ts`)

With `useFormData` the request is posted as a form, else as JSON. A flat request
(texts, or nothing, under distinct names) says the same either way: the form is
written in percent-encoding, which `URLSearchParams` reads, and JSON leaves the
absent members out as the form does. The worker reads either body, adds the
refresh token it keeps and writes the body again, and the two still agree
(`bodies_agree`).
-/

namespace AuthokSpa

open Js (Value Obj OrdMap)

/-- A flat request: texts or `undefined`, under distinct names other than
`__proto__`. -/
structure Flat (o : Obj) : Prop where
  nodup : OrdMap.KeysNodup o
  values : ∀ m ∈ o, m.2 = .undefined ∨ ∃ s, m.2 = .str s
  names : "__proto__" ∉ OrdMap.keys o

/-- The members that are there. -/
def definedMembers (o : Obj) : Obj := o.filter fun m => !m.2.isUndefined

/-- The JSON body. -/
def jsonBody (o : Obj) : String := String.ofList ((Js.stringify (.obj o)).getD [])

/-- What `oauthToken` posts is one of the two bodies. -/
theorem tokenBody_eq (options : Obj) :
    String.ofList (tokenBodyChars options) =
      if (options.get "useFormData").truthy then createQueryParams (options.without transportNames)
      else jsonBody (options.without transportNames) := by
  unfold tokenBodyChars
  dsimp only
  split
  · rfl
  · rfl

/-! ## Texts under distinct names -/

/-- The names and texts of an object. -/
def textPairs (o : Obj) : List (String × String) := o.map fun m => (m.1, m.2.text)

/-- An object of texts is told by them. -/
theorem textObj_textPairs : ∀ {o : Obj}, (∀ m ∈ o, ∃ s, m.2 = .str s) → textObj (textPairs o) = o
  | [], _ => rfl
  | (k, v) :: o, h => by
    obtain ⟨s, rfl⟩ : ∃ s, v = .str s := h (k, v) (List.mem_cons_self ..)
    have ih := textObj_textPairs fun m hm => h m (List.mem_cons_of_mem _ hm)
    show (k, Value.str (Value.str s).text) :: textObj (textPairs o) = _
    rw [ih, Value.text_str]

/-- `formDataToObject` of pairs under distinct names. -/
theorem foldl_set_pairs : ∀ (pairs : List (String × String)) (o : Obj),
    (∀ p ∈ pairs, p.1 ≠ "__proto__") →
    pairs.foldl (fun o p => if p.1 = "__proto__" then o else Obj.set o p.1 (.str p.2)) o =
      Obj.spread o (textObj pairs)
  | [], _, _ => rfl
  | p :: pairs, o, h => by
    rw [List.foldl_cons, if_neg (h p (List.mem_cons_self ..)),
      foldl_set_pairs pairs _ fun q hq => h q (List.mem_cons_of_mem _ hq)]
    rfl

/-- A form of texts under distinct names is read as the object. -/
theorem formDataToObject_of_pairs {text : String} {o : Obj} (hread : Js.formParse text = textPairs o)
    (hnodup : OrdMap.KeysNodup o) (htext : ∀ m ∈ o, ∃ s, m.2 = .str s)
    (hnames : "__proto__" ∉ OrdMap.keys o) : Worker.formDataToObject text = o := by
  have hproto : ∀ p ∈ textPairs o, p.1 ≠ "__proto__" := by
    intro p hp heq
    obtain ⟨m, hm, rfl⟩ := List.mem_map.mp hp
    exact hnames (heq ▸ OrdMap.mem_keys_of_mem hm)
  unfold Worker.formDataToObject
  rw [hread, foldl_set_pairs _ _ hproto, textObj_textPairs htext]
  exact Obj.spread_nodup o [] hnodup

/-- JSON of texts under distinct names is read as the object. -/
theorem parse_jsonBody_of_texts {o : Obj} (hnodup : OrdMap.KeysNodup o)
    (htext : ∀ m ∈ o, ∃ s, m.2 = .str s) : Js.parse (jsonBody o) = some (.obj o) := by
  have hmembers : ∀ {ms : Obj}, (∀ m ∈ ms, ∃ s, m.2 = .str s) → Js.MembersJson ms := by
    intro ms
    induction ms with
    | nil => exact fun _ => trivial
    | cons m ms ih =>
      obtain ⟨k, v⟩ := m
      intro h
      obtain ⟨s, rfl⟩ : ∃ s, v = .str s := h (k, v) (List.mem_cons_self ..)
      exact ⟨trivial, ih fun m hm => h m (List.mem_cons_of_mem _ hm)⟩
  obtain ⟨t, ht, hparse⟩ := Js.parse_stringify (v := .obj o) ⟨hnodup, hmembers htext⟩
  unfold jsonBody
  rw [ht]
  exact hparse

/-! ## The members that are there -/

theorem eq_undefined {v : Value} (h : v.isUndefined = true) : v = .undefined := by
  cases v with
  | undefined => rfl
  | _ => cases h

/-- `JSON.stringify` leaves out the members that are `undefined`. -/
theorem memberTexts_definedMembers : ∀ o : Obj, Js.memberTexts (definedMembers o) = Js.memberTexts o
  | [] => rfl
  | (k, v) :: o => by
    have ih := memberTexts_definedMembers o
    unfold definedMembers at ih ⊢
    cases hv : v.isUndefined with
    | true =>
      obtain rfl := eq_undefined hv
      rw [List.filter_cons_of_neg (by simp [Value.isUndefined]), ih, Js.memberTexts, Js.stringify]
    | false =>
      rw [List.filter_cons_of_pos (by simp [hv]), Js.memberTexts, Js.memberTexts, ih]

theorem keysNodup_definedMembers {o : Obj} (ho : OrdMap.KeysNodup o) :
    OrdMap.KeysNodup (definedMembers o) := (List.filter_sublist.map Prod.fst).nodup ho

/-- Reading does not tell an absent member from one that is `undefined`. -/
theorem get_definedMembers {o : Obj} (ho : OrdMap.KeysNodup o) (k : String) :
    (definedMembers o).get k = o.get k := by
  have hsub := keysNodup_definedMembers ho
  unfold Obj.get
  cases hfind : OrdMap.find o k with
  | none =>
    have hout : k ∉ OrdMap.keys (definedMembers o) := fun hmem =>
      OrdMap.find_eq_none_iff.mp hfind ((List.filter_sublist.map Prod.fst).subset hmem)
    rw [OrdMap.find_eq_none_iff.mpr hout]
  | some v =>
    have hmem := OrdMap.find_mem hfind
    cases hv : v.isUndefined with
    | true =>
      obtain rfl := eq_undefined hv
      cases hrest : OrdMap.find (definedMembers o) k with
      | none => rfl
      | some w =>
        obtain ⟨hin, hdefined⟩ := List.mem_filter.mp (OrdMap.find_mem hrest)
        have hw := (OrdMap.find_of_mem ho hin).symm.trans hfind
        rw [Option.some.inj hw] at hdefined
        cases hdefined
    | false =>
      rw [OrdMap.find_of_mem hsub (b := (k, v)) (List.mem_filter.mpr ⟨hmem, by simp [hv]⟩)]

namespace Flat

variable {o : Obj} (h : Flat o)
include h

theorem texts_defined : ∀ m ∈ definedMembers o, ∃ s, m.2 = .str s := by
  intro m hm
  obtain ⟨hmem, hdef⟩ := List.mem_filter.mp hm
  rcases h.values m hmem with hu | hs
  · rw [hu] at hdef
    cases hdef
  · exact hs

theorem names_defined : "__proto__" ∉ OrdMap.keys (definedMembers o) := fun hmem =>
  h.names ((List.filter_sublist.map Prod.fst).subset hmem)

end Flat

/-- `createQueryParams` writes the members that are there. -/
theorem queryChars_defined (o : Obj) :
    queryChars o = Js.joinWith '&' ((textPairs (definedMembers o)).map paramChars) := by
  unfold queryChars textPairs definedMembers
  rw [List.map_map]
  congr 1
  refine List.map_congr_left fun m _ => ?_
  unfold queryParam
  show _ = Js.encodeChars m.1.toList ++ '=' :: Js.encodeChars m.2.text.toList
  unfold Value.text
  rw [String.toList_ofList]

theorem formParse_createQueryParams (o : Obj) :
    Js.formParse (createQueryParams o) = textPairs (definedMembers o) := by
  unfold createQueryParams
  rw [queryChars_defined]
  exact Js.formParse_encodeChars _

theorem jsonBody_defined (o : Obj) : jsonBody (definedMembers o) = jsonBody o := by
  unfold jsonBody
  rw [Js.stringify, Js.stringify, memberTexts_definedMembers]

/-! ## The request as it is sent -/

/-- The form says what the request says. -/
theorem formDataToObject_createQueryParams {o : Obj} (h : Flat o) :
    Worker.formDataToObject (createQueryParams o) = definedMembers o :=
  formDataToObject_of_pairs (formParse_createQueryParams o) (keysNodup_definedMembers h.nodup) h.texts_defined
    h.names_defined

/-- So does the JSON body. -/
theorem parse_jsonBody {o : Obj} (h : Flat o) :
    Js.parse (jsonBody o) = some (.obj (definedMembers o)) := by
  rw [← jsonBody_defined o]
  exact parse_jsonBody_of_texts (keysNodup_definedMembers h.nodup) h.texts_defined

/-! ## The request as the worker rewrites it -/

/-- The request with a refresh token. -/
def refreshed (o : Obj) (t : String) : Obj := Obj.set (definedMembers o) "refresh_token" (.str t)

theorem texts_refreshed {o : Obj} (h : Flat o) (t : String) : ∀ m ∈ refreshed o t, ∃ s, m.2 = .str s := by
  intro m hm
  rcases OrdMap.mem_of_mem_insert hm with rfl | hm
  · exact ⟨t, rfl⟩
  · exact h.texts_defined m hm

theorem names_refreshed {o : Obj} (h : Flat o) (t : String) :
    "__proto__" ∉ OrdMap.keys (refreshed o t) := by
  intro hmem
  obtain ⟨m, hm, hname⟩ := List.mem_map.mp hmem
  rcases OrdMap.mem_of_mem_insert hm with rfl | hm
  · exact absurd hname (show "refresh_token" ≠ "__proto__" by decide)
  · exact h.names_defined (hname ▸ OrdMap.mem_keys_of_mem hm)

theorem keysNodup_refreshed {o : Obj} (h : Flat o) (t : String) : OrdMap.KeysNodup (refreshed o t) :=
  OrdMap.keysNodup_insert (keysNodup_definedMembers h.nodup) _ _

/-- The request asks the worker for its refresh token. -/
def WantsRefreshToken (o : Obj) : Prop :=
  (o.get "refresh_token").truthy = false ∧ o.get "grant_type" = .str "refresh_token"

/-- What is sent for a body that was read as the request. -/
theorem requestBody_refreshed {E : Worker.EngineErrors} {refreshTokens : RefreshTokens}
    {m : Worker.Message} {o : Obj} (h : Flat o)
    (hbody : Worker.parseBody E m = .ok (.obj (definedMembers o))) (hwants : WantsRefreshToken o)
    {t : String}
    (htoken : refreshTokens.find (Worker.cacheKey m.audience m.scope) = some (.str t)) (ht : t ≠ "") :
    Worker.requestBody E refreshTokens m = .ok (Worker.printBody m.useFormData (refreshed o t)) := by
  have hrequest : Worker.request refreshTokens m.audience m.scope (o.get "refresh_token") =
      some (.str t) := by
    unfold Worker.request
    rw [hwants.1, htoken]
    simp [ht]
  unfold Worker.requestBody
  rw [hbody]
  show (if _ then _ else _) = _
  rw [get_definedMembers h.nodup, get_definedMembers h.nodup, hwants.1, hwants.2, if_pos (by decide), hrequest]
  rfl

/-- **Form and JSON say the same**: a flat request is read from either body as
its members, and from either body that the worker has rewritten as its members
with the refresh token. -/
theorem bodies_agree (E : Worker.EngineErrors) {o : Obj} (h : Flat o) :
    Worker.formDataToObject (createQueryParams o) = definedMembers o ∧
    Js.parse (jsonBody o) = some (.obj (definedMembers o)) ∧
    ∀ (refreshTokens : RefreshTokens) (audience scope : Value) (fetchUrl t : String),
      WantsRefreshToken o → t ≠ "" →
      refreshTokens.find (Worker.cacheKey audience scope) = some (.str t) →
      (∃ text, Worker.requestBody E refreshTokens
          ⟨audience, scope, fetchUrl, some (createQueryParams o), true⟩ = .ok (some text) ∧
        Worker.formDataToObject text = refreshed o t) ∧
      (∃ text, Worker.requestBody E refreshTokens
          ⟨audience, scope, fetchUrl, some (jsonBody o), false⟩ = .ok (some text) ∧
        Js.parse text = some (.obj (refreshed o t))) := by
  refine ⟨formDataToObject_createQueryParams h, parse_jsonBody h, ?_⟩
  intro refreshTokens audience scope fetchUrl t hwants ht htoken
  constructor
  · have hbody : Worker.parseBody E ⟨audience, scope, fetchUrl, some (createQueryParams o), true⟩ =
        .ok (.obj (definedMembers o)) := by
      unfold Worker.parseBody
      rw [if_pos rfl, Option.getD_some, formDataToObject_createQueryParams h]
    refine ⟨_, requestBody_refreshed h hbody hwants htoken ht, ?_⟩
    exact formDataToObject_of_pairs (Js.formParse_formSerialize _) (keysNodup_refreshed h t)
      (texts_refreshed h t) (names_refreshed h t)
  · have hbody : Worker.parseBody E ⟨audience, scope, fetchUrl, some (jsonBody o), false⟩ =
        .ok (.obj (definedMembers o)) := by
      unfold Worker.parseBody
      rw [if_neg (by simp), Option.getD_some, parse_jsonBody h]
    refine ⟨jsonBody (refreshed o t), ?_, parse_jsonBody_of_texts (keysNodup_refreshed h t)
      (texts_refreshed h t)⟩
    rw [requestBody_refreshed h hbody hwants htoken ht]
    unfold Worker.printBody jsonBody
    rw [if_neg (by simp), Js.stringify]
    rfl

/-- A request for a refresh, with a member that is not there. -/
def sampleRequest : Obj :=
  [("client_id", .str "c&1"), ("grant_type", .str "refresh_token"), ("refresh_token", .undefined)]

theorem flat_sampleRequest : Flat sampleRequest where
  nodup := by
    unfold OrdMap.KeysNodup
    decide
  values := by simp [sampleRequest]
  names := by decide

/-- It is sent with the token kept for its audience and scope. -/
theorem bodies_agree_sample :
    ∃ text, Worker.requestBody ⟨fun t => t, fun k => k⟩ [("a|s", .str "r =é")]
        ⟨.str "a", .str "s", "/oauth/token", some (createQueryParams sampleRequest), true⟩ =
          .ok (some text) ∧
      Worker.formDataToObject text = refreshed sampleRequest "r =é" :=
  ((bodies_agree ⟨fun t => t, fun k => k⟩ flat_sampleRequest).2.2 [("a|s", .str "r =é")] (.str "a")
    (.str "s") "/oauth/token" "r =é" ⟨rfl, rfl⟩ (by decide) (by rfl)).1

end AuthokSpa
