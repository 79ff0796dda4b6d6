import AuthokSpa.Client.Flows
import AuthokSpa.Machine

/-!
# The code flows of one client (`AuthokClient.ts`, `transaction-manager.ts`)

A client can have any number of popups and iframes waiting for their
authorization response and one redirect under way, whose data sits in the
transaction slot: in memory and, as JSON, in the session storage (or a cookie),
where the next page finds it. A step of the session is one thing that happens
to the client: a call that starts a flow, a response that arrives (a URL to
`handleRedirectCallback`, a message to a waiting popup or iframe), the answer of
the token endpoint to an exchange, a reload.

Messages are whatever anybody posts, in any order and any number; a message
event that several listeners see is several steps. A response that is not
accepted ends the flow it was delivered to, as the rejected promise does.

`history` is not part of the program: it records the flows started, the code
exchanges made (the calls of `oauthToken`) and the entries cached.
-/

namespace AuthokSpa

open Js (Value Obj ProtoObj)

/-! ## The callback URL -/

/-- One parameter of a query string; `decodeURIComponent(undefined)` is the text
`undefined`, and `none` the exception on a malformed escape. -/
def parseParam (qp : String) : Option (String × String) :=
  match Js.split "=" qp with
  | key :: val :: _ => (Js.decodeURIComponent val).map fun v => (key, v)
  | [key] => some (key, "undefined")
  | [] => none

/-- `parseQueryResult`. -/
def parseQueryResult (queryString : String) : Option ProtoObj := do
  let queryString := String.ofList (queryString.toList.takeWhile (fun c => c ≠ '#'))
  let params ← (Js.split "&" queryString).mapM parseParam
  let parsedQuery := params.foldl (fun (o : ProtoObj) p => o.assign p.1 (.str p.2)) { own := [] }
  let expires_in := parsedQuery.get "expires_in"
  some (if expires_in.truthy then parsedQuery.assign "expires_in" (.num (Js.parseInt expires_in.toText))
    else parsedQuery)

/-- The parameters of a callback URL; `none` when reading them throws. -/
def callbackParams (url : String) : Option ProtoObj :=
  match (Js.split "?" url).drop 1 with
  | [] => none
  | fragments => parseQueryResult (String.join fragments)

/-! ## Flows under way -/

/-- The values `createRandomString` gives a starting flow. -/
structure Draws where
  forState : RandomValues
  forNonce : RandomValues
  forVerifier : RandomValues

def Draws.secrets (d : Draws) : Secrets := newSecrets d.forState d.forNonce d.forVerifier

/-- The random strings drawn. -/
def Draws.strings (d : Draws) : List String :=
  [createRandomString d.forState, createRandomString d.forNonce, createRandomString d.forVerifier]

inductive CodeFlow where
  | redirect | popup | iframe
  deriving DecidableEq

/-- A flow that was started, with the query of its `/authorize` URL. -/
structure Start where
  flow : CodeFlow
  secrets : Secrets
  query : Obj
  url : String

/-- A call of `oauthToken` for a code: the state of the response that led to it
and the options it was made with. -/
structure Exchange where
  flow : CodeFlow
  state : Value
  options : Obj

inductive Event where
  | start (f : Start)
  | exchange (x : Exchange)
  | cached (x : Exchange) (e : CacheEntry)

/-- A popup or an iframe that waits for its response: its closure. -/
inductive Waiting where
  | popup (options : Obj) (x : Secrets)
  | iframe (options : Obj) (x : Secrets) (orgIdHint : Value)

/-- An exchange that waits for the token endpoint. -/
inductive Pending where
  | redirect (transaction : AuthokClient.Transaction)
  | waiting (w : Waiting)

structure Session where
  transaction : Option AuthokClient.Transaction := none
  storage : Option AuthokClient.Transaction := none
  waiting : List Waiting := []
  pending : List (Exchange × Pending) := []
  history : List Event := []

/-- What can happen to a client. -/
inductive SessionOp where
  | buildAuthorizeUrl (options : Obj) (d : Draws)
  | handleRedirectCallback (url : String)
  | loginWithPopup (options : Obj) (d : Draws)
  | getTokenFromIFrame (options : Obj) (orgIdHint : Value) (d : Draws)
  | response (i : Nat) (response : Obj)
  | abandon (i : Nat)
  | tokenResponse (i : Nat) (clock : Clock) (authResult : Option Obj)
  | reload
  | expire

namespace Waiting

def flow : Waiting → CodeFlow
  | popup .. => .popup
  | iframe .. => .iframe

def secrets : Waiting → Secrets
  | popup _ x => x
  | iframe _ x _ => x

/-- The query of the URL it was sent to. -/
def query (c : AuthokClient) (b : Browser) : Waiting → Obj
  | popup options x => c.popupQuery b options x
  | iframe options x orgIdHint => c.iframeQuery b options x orgIdHint

def tokenOptions (c : AuthokClient) (b : Browser) (code : Value) : Waiting → Obj
  | popup options x => c.popupTokenOptions b options x code
  | iframe options x orgIdHint => c.iframeTokenOptions b options x orgIdHint code

end Waiting

/-- The end of the flow, once the token endpoint has answered. -/
def Pending.finish (c : AuthokClient) (b : Browser) (clock : Clock) (authResult : Obj) :
    Pending → Except JwtError CacheEntry
  | redirect transaction => c.finishRedirect clock transaction authResult
  | waiting (.popup options x) => c.finishPopup b clock options x authResult
  | waiting (.iframe options x orgIdHint) => c.finishIframe b clock options x orgIdHint authResult

namespace Session

variable (c : AuthokClient) (b : Browser)

def record (s : Session) (e : Event) : Session := { s with history := s.history ++ [e] }

/-- `oauthToken` is called. -/
def send (s : Session) (x : Exchange) (p : Pending) : Session :=
  { s.record (.exchange x) with pending := s.pending ++ [(x, p)] }

/-- `buildAuthorizeUrl`; `transactionManager.create` writes the slot. Nothing is
stored when building the URL throws. -/
def buildAuthorizeUrl (s : Session) (options : Obj) (x : Secrets) : Session :=
  let query := c.redirectParams b options x
  match c.authorizeUrl query with
  | none => s
  | some url =>
    let transaction := c.redirectTransaction b options x
    { s.record (.start ⟨.redirect, x, query, url⟩) with
      transaction := some transaction, storage := some transaction }

/-- `handleRedirectCallback` up to the token request. The transaction is gone
as soon as the URL could be read, whatever the URL says. -/
def handleRedirectCallback (s : Session) (url : String) : Session :=
  match callbackParams url with
  | none => s
  | some params =>
    match s.transaction with
    | none => s
    | some transaction =>
      -- removed before anything is checked
      let s := { s with transaction := none, storage := none }
      if (params.get "error").truthy then s
      else if !transaction.code_verifier.truthy ||
          (transaction.state.truthy && !transaction.state.strictEq (params.get "state")) then s
      else
        s.send ⟨.redirect, params.get "state",
          c.redirectTokenOptions transaction (params.get "code")⟩ (.redirect transaction)

/-- `loginWithPopup` or `_getTokenFromIFrame` up to the authorization response. -/
def await (s : Session) (w : Waiting) : Session :=
  match c.authorizeUrl (w.query c b) with
  | none => s
  | some url =>
    { s.record (.start ⟨w.flow, w.secrets, w.query c b, url⟩) with waiting := s.waiting ++ [w] }

/-- The authorization response of a waiting flow. -/
def response (s : Session) (i : Nat) (response : Obj) : Session :=
  match s.waiting[i]? with
  | none => s
  | some w =>
    -- the listener is gone with the first response
    let s := { s with waiting := s.waiting.eraseIdx i }
    if (response.get "error").truthy then s
    else if !(Value.str w.secrets.stateIn).strictEq (response.get "state") then s
    else
      s.send ⟨w.flow, response.get "state", w.tokenOptions c b (response.get "code")⟩ (.waiting w)

/-- The token endpoint's answer to an exchange; `none` is a failed request. -/
def tokenResponse (s : Session) (i : Nat) (clock : Clock) (authResult : Option Obj) : Session :=
  match s.pending[i]? with
  | none => s
  | some (x, p) =>
    let s := { s with pending := s.pending.eraseIdx i }
    match authResult.map (fun r => p.finish c b clock r) with
    | some (.ok e) => s.record (.cached x e)
    | _ => s

/-- A new page: the closures are gone, the transaction is read from the storage. -/
def reload (s : Session) : Session :=
  { s with
    transaction := s.storage.map AuthokClient.Transaction.reload, waiting := [], pending := [] }

/-- One step. -/
def step (s : Session) : SessionOp → Session
  | .buildAuthorizeUrl options d => s.buildAuthorizeUrl c b options d.secrets
  | .handleRedirectCallback url => s.handleRedirectCallback c url
  | .loginWithPopup options d => s.await c b (.popup options d.secrets)
  | .getTokenFromIFrame options orgIdHint d => s.await c b (.iframe options d.secrets orgIdHint)
  | .response i response => s.response c b i response
  | .abandon i => { s with waiting := s.waiting.eraseIdx i }
  | .tokenResponse i clock authResult => s.tokenResponse c b i clock authResult
  | .reload => s.reload
  | .expire => { s with storage := none }

/-- The session as a machine; its answers are not looked at. -/
def machine : Machine Session SessionOp Unit where
  step s op := (s.step c b op, ())

end Session

end AuthokSpa
