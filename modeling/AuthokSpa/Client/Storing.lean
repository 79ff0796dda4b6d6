import AuthokSpa.Client.Detailed
import AuthokSpa.Http

/-!
# What a token response can write over (`AuthokClient.ts`)

The entry that a flow hands to the cache is an object literal with the whole token
response spread into it. The members that decide where the entry is stored, and whose
it is, have to be written after the response. Every flow does that for the audience,
the scope and the decoded token, and the logins for the client id.

`_getTokenSilently` writes the client id *before* the result of the flow, which has
the response in it: a response with a member `client_id` replaces it, and the entry is
stored for another client. `hand_protected_iff`.
-/

namespace AuthokSpa

open Js (Value Obj OrdMap)

/-- A member of such an object: JSON, or the decoded token. -/
inductive Field where
  | json (v : Value)
  | decoded (d : DecodedToken)

/-- The object that is handed to `CacheManager.set`. -/
abbrev EntryObject := OrdMap String Field

/-- An object literal, with its members in the order they are written: a later one
replaces an earlier one of its name. -/
def literal (members : List (String × Field)) : EntryObject :=
  members.foldl (fun o m => o.insert m.1 m.2) []

/-- `...r` in a literal. -/
def spreadOf (r : Obj) : List (String × Field) := r.map fun m => (m.1, .json m.2)

namespace AuthokClient

variable (c : AuthokClient)

/-- The entry of `handleRedirectCallback`. -/
def redirectEntry (transaction : Transaction) (authResult : Obj) (decodedToken : DecodedToken) :
    EntryObject :=
  literal (spreadOf authResult ++
    [("decodedToken", .decoded decodedToken), ("audience", .json transaction.audience),
      ("scope", .json transaction.scope)] ++
    (if (authResult.get "scope").truthy then [("oauthTokenScope", .json (authResult.get "scope"))]
      else []) ++
    [("client_id", .json (c.options.get "client_id"))])

/-- The entry of `loginWithPopup`. -/
def popupEntry (params authResult : Obj) (decodedToken : DecodedToken) : EntryObject :=
  literal (spreadOf authResult ++
    [("decodedToken", .decoded decodedToken), ("scope", .json (params.get "scope")),
      ("audience", .json ((params.get "audience").or (.str "default"))),
      ("client_id", .json (c.options.get "client_id"))])

/-- What `_getTokenFromIFrame` returns for its `params`, and
`_getTokenUsingRefreshToken` for its `options`. -/
def silentResult (params tokenResult : Obj) (decodedToken : DecodedToken) : EntryObject :=
  literal (spreadOf tokenResult ++
    [("decodedToken", .decoded decodedToken), ("scope", .json (params.get "scope")),
      ("oauthTokenScope", .json (tokenResult.get "scope")),
      ("audience", .json ((params.get "audience").or (.str "default")))])

/-- The entry of `_getTokenSilently`. -/
def silentEntry (authResult : EntryObject) : EntryObject :=
  literal (("client_id", .json (c.options.get "client_id")) :: authResult)

end AuthokClient

namespace Route

variable (c : AuthokClient) (call : Obj) (g : Given)

/-- What `verify` makes of the ID token of the response. -/
def verify (clock : Clock) (authResult : Obj) : Route → Except JwtError DecodedToken
  | redirect reloaded =>
    let transaction := Flow.transaction reloaded c call g
    c.verifyIdToken clock (authResult.get "id_token") transaction.nonce transaction.organizationId
  | popup =>
    c.verifyIdToken clock (authResult.get "id_token") (.str g.secrets.nonceIn)
      ((call.get "organization").or (c.options.get "organization"))
  | tokenWithPopup =>
    c.verifyIdToken clock (authResult.get "id_token") (.str g.secrets.nonceIn)
      (((c.popupCallOptions call).get "organization").or (c.options.get "organization"))
  | iframe | refreshIframe =>
    c.verifyIdToken clock (authResult.get "id_token") (.str g.secrets.nonceIn) .undefined
  | refresh => c.verifyIdToken clock (authResult.get "id_token") .undefined .undefined

/-- The entry made of a response and its decoded token. -/
def entryObject (authResult : Obj) (decodedToken : DecodedToken) : Route → EntryObject
  | redirect reloaded =>
    c.redirectEntry (Flow.transaction reloaded c call g) authResult decodedToken
  | popup => c.popupEntry (c.popupParams g.browser call g.secrets) authResult decodedToken
  | tokenWithPopup =>
    c.popupEntry (c.popupParams g.browser (c.popupCallOptions call) g.secrets) authResult
      decodedToken
  | iframe =>
    c.silentEntry (AuthokClient.silentResult
      (c.iframeParams g.browser (c.silentOptions call) g.secrets g.orgIdHint) authResult
      decodedToken)
  | refresh =>
    c.silentEntry (AuthokClient.silentResult (c.refreshOptions (c.silentOptions call)) authResult
      decodedToken)
  | refreshIframe =>
    c.silentEntry (AuthokClient.silentResult
      (c.iframeParams g.browser (c.refreshOptions (c.silentOptions call)) g.secrets g.orgIdHint)
      authResult decodedToken)

/-- The entry that is handed to the cache, or the error that keeps it from being. -/
def hand (clock : Clock) (authResult : Obj) (r : Route) : Except JwtError EntryObject := do
  let decodedToken ← r.verify c call g clock authResult
  .ok (r.entryObject c call g authResult decodedToken)

/-- What was requested: the query of the `/authorize` request, or the options of the
refresh. -/
def request : Route → Obj
  | redirect _ => c.redirectParams g.browser (AuthokClient.redirectOptions call) g.secrets
  | popup => c.popupQuery g.browser call g.secrets
  | tokenWithPopup => c.popupQuery g.browser (c.popupCallOptions call) g.secrets
  | iframe => c.iframeQuery g.browser (c.silentOptions call) g.secrets g.orgIdHint
  | refresh => c.refreshOptions (c.silentOptions call)
  | refreshIframe =>
    c.iframeQuery g.browser (c.refreshOptions (c.silentOptions call)) g.secrets g.orgIdHint

/-- A value kept until the response: a transaction read by a new page has been JSON. -/
def keep (v : Value) : Route → Value
  | redirect true => jsonCopy v
  | _ => v

end Route

/-- The members that say whose an entry is and where it is stored. -/
structure Members (o : EntryObject) (client_id audience scope : Value)
    (decodedToken : DecodedToken) : Prop where
  client_id : o.find "client_id" = some (.json client_id)
  audience : o.find "audience" = some (.json audience)
  scope : o.find "scope" = some (.json scope)
  decodedToken : o.find "decodedToken" = some (.decoded decodedToken)

/-- The entry is the client's own, for what was requested, with the verified token. -/
def Protected (c : AuthokClient) (call : Obj) (g : Given) (clock : Clock) (r : Route)
    (authResult : Obj) (o : EntryObject) : Prop :=
  ∃ d, r.verify c call g clock authResult = .ok d ∧
    Members o (c.options.get "client_id")
      (r.keep (((r.request c call g).get "audience").or (.str "default")))
      (r.keep ((r.request c call g).get "scope")) d

/-! ## Literals -/

theorem literal_append (ms ms' : List (String × Field)) :
    literal (ms ++ ms') = ms'.foldl (fun o m => o.insert m.1 m.2) (literal ms) :=
  List.foldl_append ..

/-- The last member of a name counts. -/
theorem find_literal (ms : List (String × Field)) (k : String) :
    (literal ms).find k = OrdMap.find ms.reverse k := by
  induction ms using List.reverseRecOn with
  | nil => rfl
  | append_singleton ms m ih =>
    rw [literal_append, List.foldl_cons, List.foldl_nil, OrdMap.find_insert, ih,
      List.reverse_append, List.reverse_singleton, List.singleton_append, OrdMap.find_cons]

theorem find_append {ms ms' : OrdMap String Field} (k : String) :
    OrdMap.find (ms ++ ms') k = (OrdMap.find ms k).or (OrdMap.find ms' k) := by
  induction ms with
  | nil => rfl
  | cons m ms ih =>
    rw [List.cons_append, OrdMap.find_cons, OrdMap.find_cons, ih]
    split <;> rfl

/-- A member that is written after `ms`. -/
theorem find_literal_append (ms ms' : List (String × Field)) (k : String) :
    (literal (ms ++ ms')).find k = (OrdMap.find ms'.reverse k).or ((literal ms).find k) := by
  rw [find_literal, find_literal, List.reverse_append, find_append]

theorem find_spreadOf (r : Obj) (k : String) :
    OrdMap.find (spreadOf r) k = (OrdMap.find r k).map .json := by
  induction r with
  | nil => rfl
  | cons m r ih =>
    show OrdMap.find ((m.1, Field.json m.2) :: spreadOf r) k = _
    rw [OrdMap.find_cons, OrdMap.find_cons, ih]
    split <;> rfl

theorem keysNodup_literal (ms : List (String × Field)) : OrdMap.KeysNodup (literal ms) := by
  induction ms using List.reverseRecOn with
  | nil => exact List.nodup_nil
  | append_singleton ms m ih =>
    rw [literal_append]
    exact OrdMap.keysNodup_insert ih _ _

/-- A response alone. -/
theorem find_literal_spreadOf {r : Obj} (hr : OrdMap.KeysNodup r) (k : String) :
    (literal (spreadOf r)).find k = (OrdMap.find r k).map .json := by
  have hnodup : OrdMap.KeysNodup (spreadOf r) := by
    unfold OrdMap.KeysNodup OrdMap.keys spreadOf
    rw [List.map_map]
    exact hr
  rw [find_literal, OrdMap.find_reverse hnodup, find_spreadOf]

/-! ## What the flows hand over -/

section Hand

variable {c : AuthokClient} {call : Obj} {g : Given} {clock : Clock} {authResult : Obj}
  {d : DecodedToken}

/-- A silent entry takes the members of the result, its client id included. -/
theorem find_silentEntry {result : EntryObject} (hresult : OrdMap.KeysNodup result) (k : String) :
    (c.silentEntry result).find k =
      (result.find k).or
        (if "client_id" = k then some (.json (c.options.get "client_id")) else none) := by
  unfold AuthokClient.silentEntry
  rw [find_literal, List.reverse_cons, find_append, OrdMap.find_reverse hresult,
    OrdMap.find_cons, OrdMap.find_nil]

/-- The members of a result that are written after the response. -/
theorem find_silentResult {params : Obj} {k : String} {v : Field}
    (h : OrdMap.find [("audience", .json ((params.get "audience").or (.str "default"))),
      ("oauthTokenScope", .json (authResult.get "scope")), ("scope", .json (params.get "scope")),
      ("decodedToken", .decoded d)] k = some v) :
    (AuthokClient.silentResult params authResult d).find k = some v := by
  unfold AuthokClient.silentResult
  rw [find_literal_append]
  exact congrArg (fun found => Option.or found _) h

theorem find_silentResult_client_id (hauth : OrdMap.KeysNodup authResult) (params : Obj) :
    (AuthokClient.silentResult params authResult d).find "client_id" =
      (OrdMap.find authResult "client_id").map .json := by
  unfold AuthokClient.silentResult
  rw [find_literal_append, find_literal_spreadOf hauth]
  rfl

/-- The silent entry has the response's client id, where it has one. -/
theorem members_silentEntry (hauth : OrdMap.KeysNodup authResult) (params : Obj) :
    Members (c.silentEntry (AuthokClient.silentResult params authResult d))
      ((OrdMap.find authResult "client_id").getD (c.options.get "client_id"))
      ((params.get "audience").or (.str "default")) (params.get "scope") d := by
  have hresult : OrdMap.KeysNodup (AuthokClient.silentResult params authResult d) :=
    keysNodup_literal _
  refine ⟨?_, ?_, ?_, ?_⟩
  · rw [find_silentEntry hresult, find_silentResult_client_id hauth, if_pos rfl]
    cases OrdMap.find authResult "client_id" with
    | none => rfl
    | some v => rfl
  · rw [find_silentEntry hresult, find_silentResult rfl]
    rfl
  · rw [find_silentEntry hresult, find_silentResult rfl]
    rfl
  · rw [find_silentEntry hresult, find_silentResult rfl]
    rfl

theorem members_popupEntry (params : Obj) :
    Members (c.popupEntry params authResult d) (c.options.get "client_id")
      ((params.get "audience").or (.str "default")) (params.get "scope") d := by
  unfold AuthokClient.popupEntry
  refine ⟨?_, ?_, ?_, ?_⟩
  · rw [find_literal_append]
    rfl
  · rw [find_literal_append]
    rfl
  · rw [find_literal_append]
    rfl
  · rw [find_literal_append]
    rfl

theorem members_redirectEntry (transaction : AuthokClient.Transaction) :
    Members (c.redirectEntry transaction authResult d) (c.options.get "client_id")
      transaction.audience transaction.scope d := by
  unfold AuthokClient.redirectEntry
  -- the granted scope, where there is one, has a name of its own
  have hother : ∀ {k : String}, k ≠ "oauthTokenScope" → OrdMap.find
      (if (authResult.get "scope").truthy then
        [("oauthTokenScope", Field.json (authResult.get "scope"))] else []).reverse k = none := by
    intro k hk
    split
    · exact OrdMap.find_eq_none_iff.mpr (by simpa [OrdMap.keys] using hk)
    · rfl
  refine ⟨?_, ?_, ?_, ?_⟩
  · rw [find_literal_append]
    rfl
  · rw [find_literal_append, find_literal_append, hother (by decide), find_literal_append]
    rfl
  · rw [find_literal_append, find_literal_append, hother (by decide), find_literal_append]
    rfl
  · rw [find_literal_append, find_literal_append, hother (by decide), find_literal_append]
    rfl

/-- A transaction keeps the audience and the scope of the query. -/
theorem transaction_keeps (c : AuthokClient) (call : Obj) (g : Given) (reloaded : Bool) :
    (Flow.transaction reloaded c call g).audience =
        (Route.redirect reloaded).keep
          ((((Route.redirect reloaded).request c call g).get "audience").or (.str "default")) ∧
      (Flow.transaction reloaded c call g).scope =
        (Route.redirect reloaded).keep (((Route.redirect reloaded).request c call g).get "scope") := by
  unfold Flow.transaction Route.request Route.keep
  cases reloaded with
  | true =>
    simp only [if_true, AuthokClient.Transaction.reload, AuthokClient.redirectTransaction,
      and_self]
  | false => simp only [Bool.false_eq_true, if_false, AuthokClient.redirectTransaction, and_self]

/-- What is added to the parameters of a popup leaves the request as it is. -/
theorem popupQuery_request (c : AuthokClient) (g : Given) (options : Obj) :
    (c.popupQuery g.browser options g.secrets).get "audience" =
        (c.popupParams g.browser options g.secrets).get "audience" ∧
      (c.popupQuery g.browser options g.secrets).get "scope" =
        (c.popupParams g.browser options g.secrets).get "scope" := by
  unfold AuthokClient.popupQuery
  exact ⟨Js.Obj.get_spread_of_not_mem (by decide), Js.Obj.get_spread_of_not_mem (by decide)⟩

theorem iframeQuery_request (c : AuthokClient) (g : Given) (options : Obj) :
    (c.iframeQuery g.browser options g.secrets g.orgIdHint).get "audience" =
        (c.iframeParams g.browser options g.secrets g.orgIdHint).get "audience" ∧
      (c.iframeQuery g.browser options g.secrets g.orgIdHint).get "scope" =
        (c.iframeParams g.browser options g.secrets g.orgIdHint).get "scope" := by
  have hmodes : ∀ k ∈ ["audience", "scope"], k ∉ OrdMap.keys
      [("prompt", Value.str "none"), ("response_mode", Value.str "web_message")] := by decide
  unfold AuthokClient.iframeQuery
  exact ⟨Js.Obj.get_spread_of_not_mem (hmodes _ (by decide)),
    Js.Obj.get_spread_of_not_mem (hmodes _ (by decide))⟩

end Hand

namespace Route

variable {c : AuthokClient} {call : Obj} {g : Given} {clock : Clock} {authResult : Obj}
  {d : DecodedToken}

/-- The client id of the entry. -/
def storedClientId (c : AuthokClient) (authResult : Obj) (r : Route) : Value :=
  if r.isSilent then (OrdMap.find authResult "client_id").getD (c.options.get "client_id")
  else c.options.get "client_id"

/-- The entry of every flow, for any response: all but the client id is the flow's own. -/
theorem members_entryObject (hauth : OrdMap.KeysNodup authResult) (r : Route) :
    Members (r.entryObject c call g authResult d) (r.storedClientId c authResult)
      (r.keep (((r.request c call g).get "audience").or (.str "default")))
      (r.keep ((r.request c call g).get "scope")) d := by
  cases r with
  | redirect reloaded =>
    obtain ⟨haudience, hscope⟩ := transaction_keeps c call g reloaded
    rw [← haudience, ← hscope]
    exact members_redirectEntry _
  | popup =>
    show Members _ _ (((c.popupQuery g.browser call g.secrets).get "audience").or _)
      ((c.popupQuery g.browser call g.secrets).get "scope") d
    rw [(popupQuery_request c g _).1, (popupQuery_request c g _).2]
    exact members_popupEntry _
  | tokenWithPopup =>
    show Members _ _
      (((c.popupQuery g.browser (c.popupCallOptions call) g.secrets).get "audience").or _)
      ((c.popupQuery g.browser (c.popupCallOptions call) g.secrets).get "scope") d
    rw [(popupQuery_request c g _).1, (popupQuery_request c g _).2]
    exact members_popupEntry _
  | iframe =>
    show Members _ _
      (((c.iframeQuery g.browser (c.silentOptions call) g.secrets g.orgIdHint).get "audience").or _)
      ((c.iframeQuery g.browser (c.silentOptions call) g.secrets g.orgIdHint).get "scope") d
    rw [(iframeQuery_request c g _).1, (iframeQuery_request c g _).2]
    exact members_silentEntry hauth _
  | refresh => exact members_silentEntry hauth _
  | refreshIframe =>
    show Members _ _
      (((c.iframeQuery g.browser (c.refreshOptions (c.silentOptions call)) g.secrets
        g.orgIdHint).get "audience").or _)
      ((c.iframeQuery g.browser (c.refreshOptions (c.silentOptions call)) g.secrets
        g.orgIdHint).get "scope") d
    rw [(iframeQuery_request c g _).1, (iframeQuery_request c g _).2]
    exact members_silentEntry hauth _

/-- The object handed over is the entry that the cache's model takes. -/
theorem accept_of_hand (hauth : OrdMap.KeysNodup authResult) {r : Route} {o : EntryObject}
    (h : r.hand c call g clock authResult = .ok o) :
    ∃ e client_id audience scope, r.accept c call g clock authResult = .ok e ∧
      Members o client_id audience scope e.decodedToken ∧
      e.client_id = client_id.text ∧ e.audience = audience.text ∧ e.scope = scope.text := by
  obtain ⟨d, hverify, ho⟩ := bind_ok_iff.mp h
  obtain rfl := Except.ok.inj ho
  cases r with
  | redirect reloaded =>
    exact ⟨_, _, _, _, bind_ok_iff.mpr ⟨d, hverify, rfl⟩, members_redirectEntry _, rfl, rfl, rfl⟩
  | popup =>
    exact ⟨_, _, _, _, bind_ok_iff.mpr ⟨d, hverify, rfl⟩, members_popupEntry _, rfl, rfl, rfl⟩
  | tokenWithPopup =>
    exact ⟨_, _, _, _, bind_ok_iff.mpr ⟨d, hverify, rfl⟩, members_popupEntry _, rfl, rfl, rfl⟩
  | iframe =>
    exact ⟨_, _, _, _, bind_ok_iff.mpr ⟨d, hverify, rfl⟩, members_silentEntry hauth _, rfl, rfl, rfl⟩
  | refresh =>
    exact ⟨_, _, _, _, bind_ok_iff.mpr ⟨d, hverify, rfl⟩, members_silentEntry hauth _, rfl, rfl, rfl⟩
  | refreshIframe =>
    exact ⟨_, _, _, _, bind_ok_iff.mpr ⟨d, hverify, rfl⟩, members_silentEntry hauth _, rfl, rfl, rfl⟩

end Route

/-- The entry has the client's own id exactly when no response has another in a silent
flow. -/
theorem storedClientId_eq_iff {c : AuthokClient} {authResult : Obj} (r : Route) :
    r.storedClientId c authResult = c.options.get "client_id" ↔
      (r.isSilent = true → ∀ v, OrdMap.find authResult "client_id" = some v →
        v = c.options.get "client_id") := by
  unfold Route.storedClientId
  by_cases hsilent : r.isSilent = true
  · rw [if_pos hsilent]
    cases OrdMap.find authResult "client_id" with
    | none => simp
    | some v => simp [hsilent]
  · rw [if_neg hsilent]
    exact ⟨fun _ h => absurd h hsilent, fun _ => rfl⟩

/-- **A token response does not decide where it is stored**: the entry that any flow
hands to the cache is the client's own, for what was requested, with the verified
token, unless the flow is silent and the response names another client. -/
theorem hand_protected_iff (c : AuthokClient) (call : Obj) (g : Given) (clock : Clock) (r : Route)
    (url : String) (json authResult : Obj) (o : EntryObject) (hjson : OrdMap.KeysNodup json)
    (hdata : Http.readJson url true json = .ok authResult)
    (hhand : r.hand c call g clock authResult = .ok o) :
    Protected c call g clock r authResult o ↔
      (r.isSilent = true → ∀ v, OrdMap.find json "client_id" = some v →
        v = c.options.get "client_id") := by
  obtain rfl : json.without ["error", "error_description"] = authResult := Except.ok.inj hdata
  obtain ⟨d, hverify, ho⟩ := bind_ok_iff.mp hhand
  obtain rfl := Except.ok.inj ho
  have hmembers := @Route.members_entryObject c call g _ d
    (Js.Obj.keysNodup_without hjson ["error", "error_description"]) r
  have hfind : OrdMap.find (json.without ["error", "error_description"]) "client_id" =
      OrdMap.find json "client_id" := Js.Obj.find_without (by decide)
  rw [← hfind, ← storedClientId_eq_iff]
  constructor
  · rintro ⟨d', -, hprotected⟩
    exact Field.json.inj (Option.some.inj (hmembers.client_id.symm.trans hprotected.client_id))
  · intro hown
    rw [hown] at hmembers
    exact ⟨d, hverify, hmembers⟩

/-! ## A response that names a client -/

/-- The sample response, with a client id. -/
def namingResponse (client_id : String) : Obj :=
  sampleResponse "access" .undefined ++ [("client_id", .str client_id)]

theorem keysNodup_namingResponse (client_id : String) :
    OrdMap.KeysNodup (namingResponse client_id) := by
  show ["id_token", "access_token", "expires_in", "refresh_token", "client_id"].Nodup
  decide

theorem hand_namingResponse (client_id : String) :
    Route.iframe.hand (sampleClient false) [] sampleGiven sampleClock (namingResponse client_id) =
      .ok (Route.iframe.entryObject (sampleClient false) [] sampleGiven (namingResponse client_id)
        sampleClaims.decoded) :=
  bind_ok_iff.mpr ⟨sampleClaims.decoded, sample_verify false false fun _ => rfl, rfl⟩

/-- The client's own id does no harm. -/
theorem hand_protected_own :
    Protected (sampleClient false) [] sampleGiven sampleClock .iframe (namingResponse "client")
      (Route.iframe.entryObject (sampleClient false) [] sampleGiven (namingResponse "client")
        sampleClaims.decoded) := by
  refine (hand_protected_iff _ _ _ _ .iframe "https://idp/oauth/token" _ _ _
    (keysNodup_namingResponse "client") rfl (hand_namingResponse "client")).mpr ?_
  intro _ v hv
  exact (Option.some.inj hv).symm

/-- The defect: the response names another client, and the entry is stored for it. -/
theorem named_client_stored :
    Route.iframe.hand (sampleClient false) [] sampleGiven sampleClock (namingResponse "other") =
        .ok (Route.iframe.entryObject (sampleClient false) [] sampleGiven (namingResponse "other")
          sampleClaims.decoded) ∧
      ¬ Protected (sampleClient false) [] sampleGiven sampleClock .iframe (namingResponse "other")
        (Route.iframe.entryObject (sampleClient false) [] sampleGiven (namingResponse "other")
          sampleClaims.decoded) := by
  refine ⟨hand_namingResponse "other", ?_⟩
  rintro ⟨d, -, hprotected⟩
  have hmembers := @Route.members_entryObject (sampleClient false) [] sampleGiven _
    sampleClaims.decoded (keysNodup_namingResponse "other") .iframe
  have hsame := Field.json.inj
    (Option.some.inj (hmembers.client_id.symm.trans hprotected.client_id))
  exact absurd (Value.str.inj hsame) (by decide)

end AuthokSpa
