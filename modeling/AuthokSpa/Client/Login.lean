import AuthokSpa.Client.Silent
import AuthokSpa.Commit
import AuthokSpa.Http
import AuthokSpa.Storage
import AuthokSpa.Windows

/-!
# Whole logins (`handleRedirectCallback`, `loginWithPopup`)

A login from its call to its end, on everything of the client that it may write:
the cache with the key manifest in it, the cookies, the transaction. What it
awaits is given: the events the popup sees, the answer of the token endpoint, the
clock. Any of them may fail or never come. The cookies are whatever `es-cookie` makes
of them, a `CookieApi` of which nothing is assumed here.

A call is an `EStateM`: a failure does not undo what was written before it. That
nothing is written before the last check is what `rejected_login_no_trace` says.

The transaction has an item of its own in the session storage, or a cookie of
its own; it is removed before anything is checked and is not part of the trace.
-/

namespace AuthokSpa

open Js (Value Obj OrdMap ProtoObj)
open AuthokClient (Transaction)
open Commit (Reads Commits)

/-! ## What a login works on -/

structure ClientData (J : Type) where
  store : Cache.Store := {}
  cookies : J
  transaction : Option Transaction := none
  storage : Option Transaction := none

/-- What the rejection of a login carries. -/
inductive LoginError where
  /-- `new Error(message)`. -/
  | error (message : String)
  /-- `decodeURIComponent` on a malformed escape. -/
  | uriError
  /-- `btoa` on a text that is not Latin-1. -/
  | invalidCharacterError
  /-- The popup did not open. -/
  | typeError
  | authenticationError (error error_description state appState : Value)
  | popup (e : Windows.Rejection)
  | token (e : Http.Thrown)
  | idToken (e : JwtError)
  | nowProvider (reason : Value)

/-- A login that does not resolve: it waits for ever, or it rejects. -/
inductive Stopped where
  | pending
  | rejected (e : LoginError)

abbrev LoginM (J : Type) := EStateM Stopped (ClientData J)

def reject {J α : Type} (e : LoginError) : LoginM J α := throw (.rejected e)

/-- What a login gets from outside. `nowProvider` is asked once for the
verification and once for the expiry, and may reject; the cookies are set by the
browser's own clock. -/
structure Outside where
  oauthToken : Obj → Http.Promise Obj
  verifyNow : Except Value Clock
  expiryNow : Except Value Js.Num
  cookieNow : ℚ := 0

/-- `window.location.protocol` is `https:`. -/
def Browser.https (b : Browser) : Bool := Js.startsWith b.origin "https:"

namespace AuthokClient

variable (c : AuthokClient)

/-- `buildOrganizationHintCookieName`. -/
def orgHintCookieName : String := "authok." ++ (c.client_id ++ ".organization_hint")

/-- `buildIsAuthenticatedCookieName`. -/
def isAuthenticatedCookieName : String := "authok." ++ (c.client_id ++ ".is.authenticated")

/-- `DEFAULT_SESSION_CHECK_EXPIRY_DAYS` is 1. -/
def sessionCheckExpiryDays : Value := (c.options.get "sessionCheckExpiryDays").or (.num (.fin 1))

/-- `this.cookieStorage` is `CookieStorage`. -/
def plainCookies : Bool := (c.options.get "legacySameSiteCookie").strictEq (.bool false)

/-- `this.cookieStorage`. -/
def cookieStorage {J : Type} (A : CookieApi J) (https : Bool) : ClientStorage J :=
  if c.plainCookies then CookieStorage A https else CookieStorageWithLegacySameSite A https

variable {σ : Type} (C : ClientStorage σ)

/-- `this.cookieStorage.save`, with the client's `daysUntilExpire`. -/
def saveCookie (key : String) (value : Value) (now : ℚ) (x : σ) : σ :=
  C.save x now key value c.sessionCheckExpiryDays

/-- `_processOrgIdHint`. -/
def processOrgIdHint (organizationId : Value) (now : ℚ) (x : σ) : σ :=
  if organizationId.truthy then c.saveCookie C c.orgHintCookieName organizationId now x
  else C.remove x c.orgHintCookieName

end AuthokClient

/-! ## The calls -/

namespace Login

variable {J : Type} (A : CookieApi J) (S : Setup) (out : Outside)

/-- An answer that is awaited. -/
def awaited {α : Type} : Http.Promise α → LoginM J α
  | none => throw .pending
  | some (.error e) => reject (.token e)
  | some (.ok a) => pure a

/-- `await this.nowProvider()`. -/
def clock {α : Type} : Except Value α → LoginM J α
  | .error reason => reject (.nowProvider reason)
  | .ok now => pure now

/-- `_verifyIdToken` and the entry made of its result. -/
def verified : Except JwtError CacheEntry → LoginM J CacheEntry
  | .error e => reject (.idToken e)
  | .ok e => pure e

/-- `await this.cacheManager.set(entry)`, whose clock reading comes first. -/
def cache (e : CacheEntry) : LoginM J PUnit := do
  let now ← clock out.expiryNow
  modify fun s => { s with store := S.manager.set e now s.store }

/-- The end of a login. -/
def complete (e : CacheEntry) : LoginM J PUnit := do
  let C := S.client.cookieStorage A S.browser.https
  cache S out e
  modify fun s =>
    { s with
      cookies := S.client.saveCookie C S.client.isAuthenticatedCookieName (.bool true) out.cookieNow
        s.cookies }
  modify fun s =>
    { s with
      cookies := S.client.processOrgIdHint C (e.decodedToken.claims.get "org_id") out.cookieNow
        s.cookies }

/-! ### `handleRedirectCallback` -/

/-- The parameters of the URL. -/
def readUrl (url : String) : LoginM J ProtoObj :=
  match callbackParams url with
  | some params => pure params
  | none =>
    if ((Js.split "?" url).drop 1).isEmpty then
      reject (.error "There are no query params available for parsing.")
    else reject .uriError

/-- `transactionManager.get()`, then `remove()`. -/
def takeTransaction : LoginM J Transaction := do
  let s ← get
  match s.transaction with
  | none => reject (.error "Invalid state, transaction not found")
  | some transaction =>
    modify fun s => { s with transaction := none, storage := none }
    pure transaction

/-- The checks before the code is exchanged. -/
def checkCallback (params : ProtoObj) (transaction : Transaction) : LoginM J PUnit :=
  if (params.get "error").truthy then
    reject (.authenticationError (params.get "error") (params.get "error_description")
      (params.get "state") (if transaction.appState.isUndefined then .null else transaction.appState))
  else if !transaction.code_verifier.truthy ||
      (transaction.state.truthy && !transaction.state.strictEq (params.get "state")) then
    reject (.error "Invalid state, state not match")
  else pure ⟨⟩

/-- `handleRedirectCallback`; it resolves with the `appState`. -/
def handleRedirectCallback (url : String) : LoginM J Value := do
  let params ← readUrl url
  let transaction ← takeTransaction
  checkCallback params transaction
  let authResult ← awaited (out.oauthToken
    (S.client.redirectTokenOptions transaction (params.get "code")))
  let now ← clock out.verifyNow
  let e ← verified (S.client.finishRedirect now transaction authResult)
  complete A S out e
  pure transaction.appState

/-! ### `loginWithPopup` -/

/-- The popup is sent to the `/authorize` URL. -/
def openUrl (popup : Bool) (query : Obj) : LoginM J PUnit :=
  match S.client.authorizeUrl query with
  | none => reject .invalidCharacterError
  | some _ => if popup then pure ⟨⟩ else reject .typeError

/-- `await runPopup(...)`. -/
def awaitPopup (events : List Windows.Popup.Event) : LoginM J Value :=
  match (Windows.Popup.runPopup events).promise with
  | none => throw .pending
  | some (.rejected e) => reject (.popup e)
  | some (.resolved codeResult) => pure codeResult

def checkState (stateIn : String) (codeResult : Value) : LoginM J PUnit :=
  if (Value.str stateIn).strictEq (Windows.member codeResult "state") then pure ⟨⟩
  else reject (.error "Invalid state")

/-- `loginWithPopup`; `popup` says whether there is one. -/
def loginWithPopup (options : Obj) (popup : Bool) (d : Draws)
    (events : List Windows.Popup.Event) : LoginM J PUnit := do
  let x := d.secrets
  openUrl S popup (S.client.popupQuery S.browser options x)
  let codeResult ← awaitPopup events
  checkState x.stateIn codeResult
  let authResult ← awaited (out.oauthToken
    (S.client.popupTokenOptions S.browser options x (Windows.member codeResult "code")))
  let now ← clock out.verifyNow
  let e ← verified (S.client.finishPopup S.browser now options x authResult)
  complete A S out e

/-! ## Nothing is written before the last check -/

/-- What a rejected login must leave alone. -/
def trace (s : ClientData J) : Cache.Store × J := (s.store, s.cookies)

variable {A S out}

theorem reads_reject {α : Type} (e : LoginError) : Reads trace (reject e : LoginM J α) :=
  Commit.reads_throw _

theorem reads_awaited {α : Type} (p : Http.Promise α) : Reads trace (awaited p : LoginM J α) := by
  match p with
  | none => exact Commit.reads_throw _
  | some (.error e) => exact reads_reject _
  | some (.ok a) => exact Commit.reads_pure a

theorem reads_clock {α : Type} (now : Except Value α) : Reads trace (clock now : LoginM J α) := by
  cases now with
  | error reason => exact reads_reject _
  | ok now => exact Commit.reads_pure now

theorem reads_verified (r : Except JwtError CacheEntry) : Reads trace (verified r : LoginM J CacheEntry) := by
  cases r with
  | error e => exact reads_reject _
  | ok e => exact Commit.reads_pure e

theorem reads_readUrl (url : String) : Reads trace (readUrl url : LoginM J ProtoObj) := by
  unfold readUrl
  split
  · exact Commit.reads_pure _
  · split
    · exact reads_reject _
    · exact reads_reject _

/-- The transaction is removed, which is not part of the trace. -/
theorem reads_takeTransaction : Reads trace (takeTransaction : LoginM J Transaction) := by
  refine Reads.bind (fun s => rfl) fun s => ?_
  cases s.transaction with
  | none => exact reads_reject _
  | some transaction =>
    exact Reads.bind (Commit.reads_modify fun s => rfl) fun _ => Commit.reads_pure _

theorem reads_checkCallback (params : ProtoObj) (transaction : Transaction) :
    Reads trace (checkCallback params transaction : LoginM J PUnit) := by
  unfold checkCallback
  split
  · exact reads_reject _
  · split
    · exact reads_reject _
    · exact Commit.reads_pure _

theorem reads_openUrl (popup : Bool) (query : Obj) :
    Reads trace (openUrl S popup query : LoginM J PUnit) := by
  unfold openUrl
  split
  · exact reads_reject _
  · split
    · exact Commit.reads_pure _
    · exact reads_reject _

theorem reads_awaitPopup (events : List Windows.Popup.Event) :
    Reads trace (awaitPopup events : LoginM J Value) := by
  unfold awaitPopup
  split
  · exact Commit.reads_throw _
  · exact reads_reject _
  · exact Commit.reads_pure _

theorem reads_checkState (stateIn : String) (codeResult : Value) :
    Reads trace (checkState stateIn codeResult : LoginM J PUnit) := by
  unfold checkState
  split
  · exact Commit.reads_pure _
  · exact reads_reject _

/-! ## What is written then -/

/-- The entry that a login has stored: under its own key, with the token that
`verify` gave for the ID token in it. -/
def Stored (S : Setup) (before after : Cache.Store) : Prop :=
  ∃ e now, after = S.manager.set e now before ∧
    after.get (Cache.CacheKey.ofEntry e).toKey =
      some ⟨before.next, .wrapped (Cache.wrapCacheEntry e now)⟩ ∧
    ∃ (o : JWTVerifyOptions) (dateNow : Js.Num), o.iss = S.client.tokenIssuer ∧
      o.aud = S.client.options.get "client_id" ∧ o.id_token = e.id_token ∧
      verify o dateNow = .ok e.decodedToken

/-- The entry is one of the client, with a token that it has verified. -/
def Verified (S : Setup) (e : CacheEntry) : Prop :=
  e.client_id = S.client.client_id ∧
    ∃ now nonce organizationId,
      S.client.verifyIdToken now e.id_token nonce organizationId = .ok e.decodedToken

theorem verified_finishRedirect {now : Clock} {transaction : Transaction} {authResult : Obj}
    {e : CacheEntry} (h : S.client.finishRedirect now transaction authResult = .ok e) :
    Verified S e := by
  obtain ⟨d, hd, he⟩ := bind_ok_iff.mp h
  obtain rfl := Except.ok.inj he
  exact ⟨rfl, now, _, _, hd⟩

theorem verified_finishPopup {now : Clock} {options : Obj} {x : Secrets} {authResult : Obj}
    {e : CacheEntry} (h : S.client.finishPopup S.browser now options x authResult = .ok e) :
    Verified S e := by
  obtain ⟨d, hd, he⟩ := bind_ok_iff.mp h
  obtain rfl := Except.ok.inj he
  exact ⟨rfl, now, _, _, hd⟩

theorem Verified.stored {e : CacheEntry} (h : Verified S e) (now : Js.Num) (store : Cache.Store) :
    Stored S store (S.manager.set e now store) := by
  obtain ⟨hclient, clock, nonce, organizationId, hverify⟩ := h
  have hmanifest : ∀ cid, S.manager.keyManifest = some cid →
      Cache.manifestKey cid ≠ (Cache.CacheKey.ofEntry e).toKey := by
    intro cid hcid
    exact Cache.manifestKey_ne_toKey (k := Cache.CacheKey.ofEntry e) rfl
      (hclient.trans (Setup.keyManifest_eq hcid))
  exact ⟨e, now, rfl, Cache.Manager.set_get rfl hmanifest now store,
    S.client.verifyOptions clock e.id_token nonce organizationId, clock.dateNow, rfl, rfl, rfl,
    hverify⟩

/-- What the trace is after a login, if it was `t` before. -/
def Entered (S : Setup) (t t' : Cache.Store × J) : Prop := Stored S t.1 t'.1

/-- The writes at the end: only the clock reading before them can fail. -/
theorem commits_complete {e : CacheEntry} (h : Verified S e) :
    Commits trace (Entered S) (complete A S out e) := by
  unfold complete cache
  rw [bind_assoc]
  refine Reads.bind_commits (reads_clock _) fun _ now _ _ => ?_
  exact Commit.commits_of_ok (fun s => ⟨_, rfl⟩) fun s => h.stored now s.store

theorem verified_ok {r : Except JwtError CacheEntry} {e : CacheEntry} {s s' : ClientData J}
    (h : verified r s = .ok e s') : r = .ok e := by
  cases r with
  | error e' => cases h
  | ok e' =>
    cases h
    rfl

/-! ## Both logins -/

theorem commits_handleRedirectCallback (url : String) :
    Commits trace (Entered S) (handleRedirectCallback A S out url) := by
  refine Reads.bind_commits (reads_readUrl url) fun _ params _ _ => ?_
  refine Reads.bind_commits reads_takeTransaction fun _ transaction _ _ => ?_
  refine Reads.bind_commits (reads_checkCallback params transaction) fun _ _ _ _ => ?_
  refine Reads.bind_commits (reads_awaited _) fun _ authResult _ _ => ?_
  refine Reads.bind_commits (reads_clock _) fun _ now _ _ => ?_
  refine Reads.bind_commits (reads_verified _) fun _ e _ he => ?_
  exact (commits_complete (verified_finishRedirect (verified_ok he))).bind_pure _

theorem commits_loginWithPopup (options : Obj) (popup : Bool) (d : Draws)
    (events : List Windows.Popup.Event) :
    Commits trace (Entered S) (loginWithPopup A S out options popup d events) := by
  refine Reads.bind_commits (reads_openUrl popup _) fun _ _ _ _ => ?_
  refine Reads.bind_commits (reads_awaitPopup events) fun _ codeResult _ _ => ?_
  refine Reads.bind_commits (reads_checkState _ codeResult) fun _ _ _ _ => ?_
  refine Reads.bind_commits (reads_awaited _) fun _ authResult _ _ => ?_
  refine Reads.bind_commits (reads_clock _) fun _ now _ _ => ?_
  refine Reads.bind_commits (reads_verified _) fun _ e _ he => ?_
  exact commits_complete (verified_finishPopup (verified_ok he))

end Login

/-- A login of the client. -/
inductive LoginCall where
  | handleRedirectCallback (url : String)
  | loginWithPopup (options : Obj) (popup : Bool) (d : Draws) (events : List Windows.Popup.Event)

def LoginCall.run {J : Type} (A : CookieApi J) (S : Setup) (out : Outside) :
    LoginCall → LoginM J PUnit
  | handleRedirectCallback url => do
    let _appState ← Login.handleRedirectCallback A S out url
    pure ⟨⟩
  | loginWithPopup options popup d events => Login.loginWithPopup A S out options popup d events

/-- **A rejected login leaves no trace.** A login that does not resolve leaves the
cache, with the manifest in it, and the cookies as they were. One that resolves
has stored one entry, whose decoded token is what `verify` returned for its own ID
token, checked for the issuer and the client id of the client. -/
theorem rejected_login_no_trace {J : Type} (A : CookieApi J) (S : Setup) (out : Outside)
    (call : LoginCall) (s : ClientData J) :
    match call.run A S out s with
    | .error _ s' => s'.store = s.store ∧ s'.cookies = s.cookies
    | .ok _ s' =>
      ∃ e now, s'.store = S.manager.set e now s.store ∧
        s'.store.get (Cache.CacheKey.ofEntry e).toKey =
          some ⟨s.store.next, .wrapped (Cache.wrapCacheEntry e now)⟩ ∧
        ∃ (o : JWTVerifyOptions) (dateNow : Js.Num), o.iss = S.client.tokenIssuer ∧
          o.aud = S.client.options.get "client_id" ∧ o.id_token = e.id_token ∧
          verify o dateNow = .ok e.decodedToken := by
  have hcommits : Commits Login.trace (Login.Entered S) (call.run A S out) := by
    cases call with
    | handleRedirectCallback url => exact (Login.commits_handleRedirectCallback url).bind_pure _
    | loginWithPopup options popup d events =>
      exact Login.commits_loginWithPopup options popup d events
  have hs := hcommits s
  cases hrun : call.run A S out s with
  | ok u s' =>
    rw [hrun] at hs
    exact hs
  | error e s' =>
    rw [hrun] at hs
    exact ⟨congrArg Prod.fst hs, congrArg Prod.snd hs⟩

end AuthokSpa
