import AuthokSpa.Client.Requests
import AuthokSpa.Jwt

/-!
# From the token response to the cache entry (`AuthokClient.ts`)

Each flow ends the same way: the ID token of the response is verified and the
response, with the decoded token, becomes the entry that is cached. What
differs is what the check is given. A login passes the organization that was
asked for, a silent request does not, a refresh passes neither organization nor
nonce. The maximum age is always the client's.

A redirect keeps what it needs in its transaction, which crosses the reload as
JSON in the session storage.
-/

namespace AuthokSpa

open Js (Value Obj)

/-- The two clocks a verification may read. -/
structure Clock where
  nowProvider : Js.Num
  dateNow : Js.Num

/-- `_parseNumber`. -/
def parseNumber : Value → Value
  | .str s =>
    let n := Js.parseIntDecimal s.toList
    if n.truthy then .num n else .undefined
  | v => v

/-! ## The stored transaction -/

/-- A member of a JSON text written and read again: what does not print is gone. -/
def jsonCopy (v : Value) : Value :=
  match Js.stringify v with
  | none => .undefined
  | some t => (Js.parse (String.ofList t)).getD .undefined

/-- The transaction a new page reads from the storage. -/
def AuthokClient.Transaction.reload (t : AuthokClient.Transaction) : AuthokClient.Transaction where
  nonce := jsonCopy t.nonce
  code_verifier := jsonCopy t.code_verifier
  appState := jsonCopy t.appState
  scope := jsonCopy t.scope
  audience := jsonCopy t.audience
  redirect_uri := jsonCopy t.redirect_uri
  state := jsonCopy t.state
  organizationId := jsonCopy t.organizationId

@[simp] theorem jsonCopy_undefined : jsonCopy .undefined = .undefined := rfl

@[simp] theorem jsonCopy_str (s : String) : jsonCopy (.str s) = .str s := by
  have hread := Js.reads_quote s (Js.quote s.toList).length [] (by intro c hc; cases hc)
  rw [List.append_nil] at hread
  unfold jsonCopy Js.parse
  simp only [Js.stringify, String.toList_ofList, hread]
  rfl

/-! ## Entries -/

/-- The entry made from a token response. -/
def entryOf (response : Obj) (decodedToken : DecodedToken) (audience scope : Value)
    (client_id : String) (oauthTokenScope : Value) : CacheEntry where
  id_token := response.get "id_token"
  access_token := response.get "access_token"
  expires_in := (response.get "expires_in").asNum
  decodedToken := decodedToken
  audience := audience.text
  scope := scope.text
  client_id := client_id
  refresh_token := response.get "refresh_token"
  oauthTokenScope := oauthTokenScope

namespace AuthokClient

variable (c : AuthokClient) (b : Browser)

/-- The options `_verifyIdToken` passes to `verify`. -/
def verifyOptions (clock : Clock) (id_token nonce organizationId : Value) : JWTVerifyOptions where
  iss := c.tokenIssuer
  aud := c.options.get "client_id"
  id_token := id_token
  nonce := nonce
  leeway := c.options.get "leeway"
  max_age := parseNumber (c.options.get "max_age")
  organizationId := organizationId
  now := clock.nowProvider

/-- `_verifyIdToken`. -/
def verifyIdToken (clock : Clock) (id_token nonce organizationId : Value) :
    Except JwtError DecodedToken :=
  verify (c.verifyOptions clock id_token nonce organizationId) clock.dateNow

/-- The end of `handleRedirectCallback`. -/
def finishRedirect (clock : Clock) (transaction : Transaction) (authResult : Obj) :
    Except JwtError CacheEntry := do
  let decodedToken ← c.verifyIdToken clock (authResult.get "id_token") transaction.nonce
    transaction.organizationId
  .ok (entryOf authResult decodedToken transaction.audience transaction.scope c.client_id
    ((authResult.get "scope").or (authResult.get "oauthTokenScope")))

/-- The end of `loginWithPopup`. -/
def finishPopup (clock : Clock) (options : Obj) (x : Secrets) (authResult : Obj) :
    Except JwtError CacheEntry := do
  let params := c.popupParams b options x
  let organizationId := (options.get "organization").or (c.options.get "organization")
  let decodedToken ← c.verifyIdToken clock (authResult.get "id_token") (.str x.nonceIn)
    organizationId
  .ok (entryOf authResult decodedToken ((params.get "audience").or (.str "default"))
    (params.get "scope") c.client_id (authResult.get "oauthTokenScope"))

/-- The client id of a silent entry: a response that has one replaces it. -/
def silentClientId (tokenResult : Obj) : String :=
  ((tokenResult.find "client_id").getD (c.options.get "client_id")).text

/-- The end of `_getTokenFromIFrame`, with the entry `_getTokenSilently` makes
of its result. -/
def finishIframe (clock : Clock) (options : Obj) (x : Secrets) (orgIdHint : Value)
    (tokenResult : Obj) : Except JwtError CacheEntry := do
  let params := c.iframeParams b options x orgIdHint
  let decodedToken ← c.verifyIdToken clock (tokenResult.get "id_token") (.str x.nonceIn) .undefined
  .ok (entryOf tokenResult decodedToken ((params.get "audience").or (.str "default"))
    (params.get "scope") (c.silentClientId tokenResult) (tokenResult.get "scope"))

/-- The end of `_getTokenUsingRefreshToken`, with the entry made of its result. -/
def finishRefresh (clock : Clock) (options : Obj) (tokenResult : Obj) :
    Except JwtError CacheEntry := do
  let decodedToken ← c.verifyIdToken clock (tokenResult.get "id_token") .undefined .undefined
  .ok (entryOf tokenResult decodedToken ((options.get "audience").or (.str "default"))
    (options.get "scope") (c.silentClientId tokenResult) (tokenResult.get "scope"))

end AuthokClient

/-! ## Flows -/

/-- The ways to get tokens. A redirect normally ends on a new page; the callback
may also be handled by the client that built the URL. -/
inductive Flow where
  | redirect (reloaded : Bool)
  | popup
  | iframe
  | refresh

namespace Flow

/-- The transaction a redirect ends with. -/
def transaction (reloaded : Bool) (c : AuthokClient) (call : Obj) (g : Given) :
    AuthokClient.Transaction :=
  let t := c.redirectTransaction g.browser (AuthokClient.redirectOptions call) g.secrets
  if reloaded then t.reload else t

/-- The entry a flow caches for a token response, or the error that keeps it
from caching one. -/
def accept (f : Flow) (c : AuthokClient) (call : Obj) (g : Given) (clock : Clock)
    (authResult : Obj) : Except JwtError CacheEntry :=
  match f with
  | redirect reloaded => c.finishRedirect clock (transaction reloaded c call g) authResult
  | popup => c.finishPopup g.browser clock call g.secrets authResult
  | iframe => c.finishIframe g.browser clock (c.silentOptions call) g.secrets g.orgIdHint authResult
  | refresh => c.finishRefresh clock (c.refreshOptions (c.silentOptions call)) authResult

/-- The query of the flow's `/authorize` request; a refresh makes none. -/
def query (f : Flow) (c : AuthokClient) (call : Obj) (g : Given) : Option Obj :=
  match f with
  | redirect _ => some (c.redirectParams g.browser (AuthokClient.redirectOptions call) g.secrets)
  | popup => some (c.popupQuery g.browser call g.secrets)
  | iframe => some (c.iframeQuery g.browser (c.silentOptions call) g.secrets g.orgIdHint)
  | refresh => none

/-! ### What the query carries -/

/-- A parameter that the flow does not set itself: the call's member where it
has one, else the client's. -/
def given (c : AuthokClient) (call : Obj) (k : String) : Value :=
  (call.find k).getD (c.options.get k)

/-- The members the code of the flows names itself. -/
def ownNames : List String :=
  AuthokClient.clientOptionNames ++
    ["scope", "response_type", "response_mode", "state", "nonce", "redirect_uri", "code_challenge",
      "code_challenge_method", "appState", "redirectMethod", "detailedResponse", "ignoreCache",
      "audience", "prompt"]

section Query

variable {c : AuthokClient} {call : Obj} {g : Given} {k : String}

theorem getParams_get {b : Browser} {a : Obj} {x : Secrets} {r : Value}
    (ha : Js.OrdMap.KeysNodup a) (hk : k ∉ ownNames) :
    (c.getParams b a x r).get k = given c a k := by
  have hlogin : k ∉ AuthokClient.clientOptionNames := fun h => hk (List.mem_append_left _ h)
  have hfixed : k ∉ ["scope", "response_type", "response_mode", "state", "nonce", "redirect_uri",
      "code_challenge", "code_challenge_method"] := by
    intro h
    exact hk (List.mem_append_right _ ((List.prefix_append _ _).subset h))
  unfold AuthokClient.getParams given
  rw [Js.Obj.get_spread_of_not_mem hfixed, Js.Obj.get_spread_nodup ha, Js.Obj.get_without hlogin]

theorem not_own {ks : List String} (hks : ∀ n ∈ ks, n ∈ ownNames) (hk : k ∉ ownNames) : k ∉ ks :=
  fun h => hk (hks k h)

theorem given_without {ks : List String} (hk : k ∉ ks) (c : AuthokClient) (call : Obj) :
    given c (call.without ks) k = given c call k := by
  unfold given
  rw [Js.Obj.find_without hk]

theorem redirectParams_given (hcall : Js.OrdMap.KeysNodup call) (hk : k ∉ ownNames) :
    (c.redirectParams g.browser (AuthokClient.redirectOptions call) g.secrets).get k =
      given c call k := by
  unfold AuthokClient.redirectParams AuthokClient.redirectOptions
  rw [getParams_get (Js.Obj.keysNodup_without (Js.Obj.keysNodup_without hcall _) _) hk,
    given_without (not_own (by decide) hk), given_without (not_own (by decide) hk)]

theorem popupQuery_given (hcall : Js.OrdMap.KeysNodup call) (hk : k ∉ ownNames) :
    (c.popupQuery g.browser call g.secrets).get k = given c call k := by
  have hmode : k ∉ ["response_mode"] := not_own (by decide) hk
  unfold AuthokClient.popupQuery AuthokClient.popupParams
  rw [Js.Obj.get_spread_of_not_mem hmode, getParams_get hcall hk]

/-- `getTokenSilently` passes a call's members on. -/
theorem silentOptions_given (hcall : Js.OrdMap.KeysNodup call) (hk : k ∉ ownNames) :
    given c (c.silentOptions call) k = given c call k := by
  have hscope : ∀ v : Value, Js.OrdMap.find [("scope", v)] k = none := fun v =>
    Js.OrdMap.find_eq_none_iff.mpr (show k ∉ ["scope"] from not_own (by decide) hk)
  have hdefaults : ∀ v w : Value, Js.OrdMap.find [("audience", v), ("ignoreCache", w)] k = none :=
    fun v w => Js.OrdMap.find_eq_none_iff.mpr
      (show k ∉ ["audience", "ignoreCache"] from not_own (by decide) hk)
  unfold AuthokClient.silentOptions
  dsimp only
  rw [given_without (not_own (by decide) hk)]
  unfold given
  rw [Js.Obj.find_spread, Js.Obj.find_spread, Js.OrdMap.find_reverse hcall,
    List.reverse_singleton, hscope, hdefaults, Option.none_or, Option.or_none]

theorem keysNodup_silentOptions (c : AuthokClient) (call : Obj) :
    Js.OrdMap.KeysNodup (c.silentOptions call) := by
  have hdefaults : Js.OrdMap.KeysNodup
      [("audience", c.options.get "audience"), ("ignoreCache", Value.bool false)] := by
    show ["audience", "ignoreCache"].Nodup
    decide
  exact Js.Obj.keysNodup_without
    (Js.Obj.keysNodup_spread (Js.Obj.keysNodup_spread hdefaults _) _) _

/-- An iframe adds the organization hint where no organization is given. -/
theorem iframeQuery_given (hcall : Js.OrdMap.KeysNodup call) (hk : k ∉ ownNames) :
    (c.iframeQuery g.browser (c.silentOptions call) g.secrets g.orgIdHint).get k =
      if k = "organization" ∧ g.orgIdHint.truthy = true ∧
          (given c call "organization").truthy = false then g.orgIdHint
      else given c call k := by
  have hmodes : k ∉ ["prompt", "response_mode"] := not_own (by decide) hk
  have hparams : ∀ {n : String}, n ∉ ownNames →
      (c.getParams g.browser ((c.silentOptions call).without ["detailedResponse"]) g.secrets
        (c.silentRedirectUri g.browser (c.silentOptions call))).get n = given c call n := by
    intro n hn
    rw [getParams_get (Js.Obj.keysNodup_without (keysNodup_silentOptions c call) _) hn,
      given_without (not_own (by decide) hn), silentOptions_given hcall hn]
  have horg := hparams (show "organization" ∉ ownNames by decide)
  unfold AuthokClient.iframeQuery AuthokClient.iframeParams
  rw [Js.Obj.get_spread_of_not_mem hmodes]
  dsimp only
  rw [horg]
  by_cases hhint : (g.orgIdHint.truthy && !(given c call "organization").truthy) = true
  · rw [if_pos hhint, Js.Obj.get_set]
    simp only [Bool.and_eq_true, Bool.not_eq_true'] at hhint
    by_cases hname : "organization" = k
    · rw [if_pos hname, if_pos ⟨hname.symm, hhint⟩]
    · rw [if_neg hname, if_neg (fun h => hname h.1.symm), hparams hk]
  · rw [if_neg hhint, hparams hk, if_neg]
    simp only [Bool.and_eq_true, Bool.not_eq_true'] at hhint
    exact fun h => hhint h.2

end Query

/-! ### What the check is given -/

/-- The nonce the ID token is checked for. -/
def nonce (f : Flow) (c : AuthokClient) (call : Obj) (g : Given) : Value :=
  match f with
  | redirect reloaded => (transaction reloaded c call g).nonce
  | popup | iframe => .str g.secrets.nonceIn
  | refresh => .undefined

/-- The organization the ID token is checked for. -/
def organizationId (f : Flow) (c : AuthokClient) (call : Obj) (g : Given) : Value :=
  match f with
  | redirect reloaded => (transaction reloaded c call g).organizationId
  | popup => (call.get "organization").or (c.options.get "organization")
  | iframe | refresh => .undefined

section Accept

variable {f : Flow} {c : AuthokClient} {call : Obj} {g : Given} {clock : Clock} {authResult : Obj}

/-- Every flow ends alike: it checks the ID token and puts what it decodes to into the
entry. -/
theorem verified_of_entry {x : Except JwtError DecodedToken} {entry : DecodedToken → CacheEntry}
    {e : CacheEntry} (hentry : ∀ d, (entry d).decodedToken = d)
    (h : (x >>= fun d => pure (entry d)) = .ok e) : x = .ok e.decodedToken := by
  obtain ⟨d, hd, he⟩ := bind_ok_iff.mp h
  rw [hd, ← Except.ok.inj he, hentry]

/-- A cached entry has a verified token. -/
theorem accept_verified {e : CacheEntry} (h : f.accept c call g clock authResult = .ok e) :
    c.verifyIdToken clock (authResult.get "id_token") (f.nonce c call g)
      (f.organizationId c call g) = .ok e.decodedToken := by
  cases f with
  | redirect reloaded => exact verified_of_entry (fun _ => rfl) h
  | popup => exact verified_of_entry (fun _ => rfl) h
  | iframe => exact verified_of_entry (fun _ => rfl) h
  | refresh => exact verified_of_entry (fun _ => rfl) h

/-- A verified token is cached. -/
theorem accept_of_verified {d : DecodedToken}
    (h : c.verifyIdToken clock (authResult.get "id_token") (f.nonce c call g)
      (f.organizationId c call g) = .ok d) :
    ∃ e, f.accept c call g clock authResult = .ok e ∧ e.decodedToken = d := by
  cases f with
  | redirect reloaded => exact ⟨_, bind_ok_iff.mpr ⟨d, h, rfl⟩, rfl⟩
  | popup => exact ⟨_, bind_ok_iff.mpr ⟨d, h, rfl⟩, rfl⟩
  | iframe => exact ⟨_, bind_ok_iff.mpr ⟨d, h, rfl⟩, rfl⟩
  | refresh => exact ⟨_, bind_ok_iff.mpr ⟨d, h, rfl⟩, rfl⟩

end Accept

/-- A transaction keeps its nonce across a reload. -/
theorem nonce_eq (f : Flow) (c : AuthokClient) (call : Obj) (g : Given)
    (h : (f.nonce c call g).truthy = true) : f.nonce c call g = .str g.secrets.nonceIn := by
  cases f with
  | redirect reloaded =>
    cases reloaded with
    | true =>
      simp only [nonce, transaction, if_true, AuthokClient.Transaction.reload,
        AuthokClient.redirectTransaction, jsonCopy_str]
    | false =>
      simp only [nonce, transaction, AuthokClient.redirectTransaction]
      rfl
  | popup => rfl
  | iframe => rfl
  | refresh => cases h

end Flow

end AuthokSpa
