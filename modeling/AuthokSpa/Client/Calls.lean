import AuthokSpa.Client.Failures
import AuthokSpa.Client.SessionCookies
import AuthokSpa.Follow

/-!
# Silent token requests from their call to their end (`AuthokClient.ts`)

`_getTokenSilently`, `_getTokenUsingRefreshToken` and `_getTokenFromIFrame` as they
stand in the source, one after the other, with nothing else running. What a call
meets is given (`Surroundings`): the readings of the clock, the answers of the lock,
of the iframe and of the token endpoint, any of which may never come.

`Client.Silent` has the same methods as flights, cut where they await something. The
flights follow the calls (`getTokenSilently_follows`): however a call ends, a flight
that runs alone can end the same way, with the same result, the same cache, the same
memory of the worker and the same events. So what is shown of every flight is true
of the methods as they are written.
-/

namespace AuthokSpa

open Js (Value Obj OrdMap)
open Cache (Store Body CacheKey)
open Follow (bind_ok bind_error)

/-- A call that does not resolve: it waits for ever, or it rejects with an error
whose member `error` is this. -/
inductive Unresolved where
  | pending
  | rejected (error : Value)

/-- What a call works on. The cookies are the moments at which it touched them, the
log is not part of the program. -/
structure Tab where
  store : Store
  refreshTokens : RefreshTokens
  moments : List CookieCall := []
  log : List TokenEvent := []

abbrev CallM := EStateM Unresolved Tab

/-- What a call meets. `resent` is how often `getJSON` sends a refresh again. -/
structure Surroundings where
  firstNow : Js.Num
  acquireLock : Nat → Bool
  secondNow : Js.Num
  refreshNow : Js.Num
  resent : Nat
  refreshAnswer : Obj → Option (Except String TokenAnswer)
  draws : Draws
  orgIdHint : Value
  crossOriginIsolated : Bool
  events : List Windows.Iframe.Event
  exchangeAnswer : Obj → Option (Except String TokenAnswer)
  clock : Clock
  storeNow : Js.Num
  cookieNow : ℚ

namespace Calls

variable (S : Setup) (w : Surroundings)

/-! ## Pieces -/

def rejectWith {α : Type} (error : Value) : CallM α := throw (.rejected error)

/-- What is awaited; it may never come. -/
def awaited {α : Type} : Option α → CallM α
  | none => throw .pending
  | some a => pure a

def note (e : TokenEvent) : CallM PUnit := modifyGet fun t => (⟨⟩, { t with log := t.log ++ [e] })

def touchCookies (m : CookieCall) : CallM PUnit :=
  modifyGet fun t => (⟨⟩, { t with moments := t.moments ++ [m] })

/-- `this.cacheManager.get`. -/
def cacheGet (k : CacheKey) (expiryAdjustmentSeconds now : Js.Num) : CallM (Option Body) :=
  modifyGet fun t =>
    let found := S.manager.get k expiryAdjustmentSeconds now t.store
    (found.2, { t with store := found.1 })

/-- `retryPromise`, on the answers of its callback from the `i`-th on. -/
def retryPromise (cb : Nat → Bool) : (maxNumberOfRetries i : Nat) → Bool
  | 0, _ => false
  | left + 1, i => if cb i then true else retryPromise cb left (i + 1)

/-- `_getEntryFromCache`. -/
def getEntryFromCache (options : Obj) (getDetailedEntry : Bool) (now : Js.Num) :
    CallM (Option TokenResult) := do
  match ← cacheGet S (S.client.requestKey options) (.fin 60) now with
  | some (.entry e) =>
    pure (if e.access_token.truthy then some (.ofEntry getDetailedEntry e) else none)
  | _ => pure none

/-- `this.logout({ localOnly: true })`. With a custom cache it is asynchronous, and the
`catch` of `_getTokenFromIFrame` does not await it; here it is done at once. -/
def logoutLocally : CallM PUnit := do
  modifyGet fun t => (⟨⟩,
    { t with
      store :=
        if S.hasCustomCache then S.manager.clear none t.store
        else Cache.Manager.clearSync none t.store })
  touchCookies .logout

/-- A token response on its way to the page: a worker keeps the refresh token. -/
def receive (options json : Obj) : CallM Obj := do
  note (.received json)
  if S.hasWorker then
    modifyGet fun t =>
      let r := Worker.response t.refreshTokens (workerAudience options) (options.get "scope") json
      (r.2, { t with refreshTokens := r.1 })
  else pure json

/-- The `error` of the error `getJSON` makes of a response that is not ok. -/
def errorOf (json : Obj) : Value := (json.get "error").or (.str "request_error")

/-- `_verifyIdToken`, whose errors have no member `error`. -/
def verified : Except JwtError CacheEntry → CallM CacheEntry
  | .error _ => rejectWith .undefined
  | .ok e => pure e

/-! ## `_getTokenFromIFrame` -/

/-- `await runIframe(...)`. -/
def awaitIframe : CallM Value :=
  match (Windows.Iframe.runIframe S.client.domainUrl w.events).promise with
  | none => throw .pending
  | some (.rejected e) => rejectWith e.error
  | some (.resolved codeResult) => pure codeResult

/-- The entry made of the response to a code. -/
def exchanged (options : Obj) (x : Secrets) : Except String TokenAnswer → CallM (CacheEntry × Obj)
  | .error _ => rejectWith .undefined
  | .ok answer => do
    let json ← receive S options answer.json
    if answer.ok then
      let e ← verified (S.client.finishIframe S.browser w.clock options x w.orgIdHint
        (json.without ["error", "error_description"]))
      touchCookies (.processOrgIdHint (e.decodedToken.claims.get "org_id") w.cookieNow)
      pure (e, answer.json)
    else rejectWith (errorOf json)

/-- The token request for a code. -/
def exchangeCode (options : Obj) (x : Secrets) (code : Value) : CallM (CacheEntry × Obj) := do
  let answer ← awaited (w.exchangeAnswer
    (S.client.iframeTokenOptions S.browser options x w.orgIdHint code))
  exchanged S w options x answer

/-- The inside of the `try`. -/
def iframeTokens (options : Obj) (x : Secrets) : CallM (CacheEntry × Obj) := do
  if w.crossOriginIsolated then rejectWith (.str "login_required")
  else
    let codeResult ← awaitIframe S w
    if (Value.str x.stateIn).strictEq (Windows.member codeResult "state") then
      note .authorized
      exchangeCode S w options x (Windows.member codeResult "code")
    else rejectWith .undefined

/-- The `catch`: the error goes on, after a logout when a login is required. -/
def iframeFailed (reason : Unresolved) : CallM (CacheEntry × Obj) :=
  match reason with
  | .pending => throw .pending
  | .rejected error => do
    if error.strictEq (.str "login_required") then
      logoutLocally S
      rejectWith error
    else rejectWith error

def getTokenFromIFrame (options : Obj) : CallM (CacheEntry × Obj) :=
  let x := w.draws.secrets
  match S.client.authorizeUrl (S.client.iframeQuery S.browser options x w.orgIdHint) with
  -- `btoa` throws before the `try`
  | none => rejectWith .undefined
  | some _ => tryCatch (iframeTokens S w options x) (iframeFailed S)

/-! ## `_getTokenUsingRefreshToken` -/

/-- The refresh request is sent, and `getJSON` may send it again. -/
def send (token : Value) : Nat → CallM PUnit
  | 0 => note (.sent token)
  | n + 1 => do
    note (.sent token)
    send token n

/-- The token a refresh is made with, of the worker if there is one. -/
def tokenFor (options : Obj) (refresh_token : Value) : CallM (Option Value) :=
  modifyGet fun t =>
    (if S.hasWorker then
        Worker.request t.refreshTokens (workerAudience options) (options.get "scope") refresh_token
      else some refresh_token, t)

/-- The answer to a refresh, or the iframe in its place. -/
def refreshed (options : Obj) : Except String TokenAnswer → CallM (CacheEntry × Obj)
  | .error message =>
    if fallsBack message then getTokenFromIFrame S w options else rejectWith .undefined
  | .ok answer => do
    let json ← receive S options answer.json
    if answer.ok then
      let e ← verified (S.client.finishRefresh w.clock options
        (json.without ["error", "error_description"]))
      pure (e, answer.json)
    else if fallsBack (errorMessage S json) then getTokenFromIFrame S w options
    else rejectWith (errorOf json)

/-- The refresh request; without a token the worker's answer is that it has none. -/
def refresh (options : Obj) (refresh_token : Value) : CallM (CacheEntry × Obj) := do
  match ← tokenFor S options refresh_token with
  | none => getTokenFromIFrame S w options
  | some token =>
    send token w.resent
    let answer ← awaited (w.refreshAnswer (S.client.refreshTokenOptions S.browser options
      refresh_token))
    refreshed S w options answer

def getTokenUsingRefreshToken (options : Obj) : CallM (CacheEntry × Obj) := do
  let o := S.client.refreshOptions options
  let cache ← cacheGet S (S.client.requestKey o) (.fin 0) w.refreshNow
  let refresh_token := (cache.map Body.refresh_token).getD .undefined
  if !refresh_token.truthy && !S.hasWorker then getTokenFromIFrame S w o
  else refresh S w o refresh_token

/-! ## `_getTokenSilently` -/

/-- The entry is stored and the session marked. -/
def storeTokens (detailedResponse : Bool) (authResult : CacheEntry × Obj) : CallM Outcome := do
  modifyGet fun t => (⟨⟩, { t with store := S.manager.set authResult.1 w.storeNow t.store })
  note (.stored authResult.1 w.storeNow)
  touchCookies (.authenticated w.cookieNow)
  pure ⟨.ofEntry detailedResponse authResult.1, some authResult.2⟩

/-- A look into the cache, unless it is ignored. -/
def lookUp (options : Obj) (ignoreCache detailedResponse : Bool) (now : Js.Num) :
    CallM (Option TokenResult) :=
  if ignoreCache then pure none else getEntryFromCache S options detailedResponse now

/-- The inside of the `try`, with the lock held. -/
def underLock (options : Obj) (ignoreCache detailedResponse : Bool) : CallM Outcome := do
  match ← lookUp S options ignoreCache detailedResponse w.secondNow with
  | some entry => pure ⟨entry, none⟩
  | none =>
    let authResult ←
      if S.useRefreshTokens then getTokenUsingRefreshToken S w options
      else getTokenFromIFrame S w options
    storeTokens S w detailedResponse authResult

/-- `finally { await lock.releaseLock(...) }`. -/
def releasing (x : CallM Outcome) : CallM Outcome := do
  let r ← tryCatch x fun reason =>
    match reason with
    | .pending => throw .pending
    | .rejected error => do
      note .unlocked
      rejectWith error
  note .unlocked
  pure r

def getTokenSilently (options : Obj) (ignoreCache detailedResponse : Bool) : CallM Outcome := do
  match ← lookUp S options ignoreCache detailedResponse w.firstNow with
  | some entry => pure ⟨entry, none⟩
  | none =>
    if retryPromise w.acquireLock 10 0 then
      note .locked
      releasing (underLock S w options ignoreCache detailedResponse)
    else rejectWith (.str "timeout")

/-! ## Flights beside calls -/

/-- A flight that runs alone, with what it has left behind. -/
structure Config where
  shared : Shared
  flight : Flight
  log : List TokenEvent

def Config.after (k : Config) (p : Progress) : Config := ⟨p.shared, p.flight, k.log ++ p.events⟩

def Config.Step (S : Setup) (k k' : Config) : Prop :=
  ∃ op, k' = k.after (k.flight.step S k.shared op)

/-- What a moment does to the mark of the session. -/
def marks : CookieCall → Option Bool
  | .authenticated _ => some true
  | .logout => some false
  | _ => none

/-- The session is marked after these moments. -/
def marked (before : Bool) (moments : List CookieCall) : Bool :=
  (Machine.lastSaid marks moments).getD before

theorem marked_concat (before : Bool) (moments : List CookieCall) (m : CookieCall) :
    marked before (moments ++ [m]) = (marks m).getD (marked before moments) := by
  unfold marked
  rw [Machine.lastSaid_concat]
  cases marks m with
  | none => rfl
  | some b => rfl

/-- What flights share, as the call has it. -/
def shared (before : Bool) (t : Tab) : Shared :=
  ⟨t.store, t.refreshTokens, marked before t.moments⟩

/-- A moment that leaves the mark as it is. -/
theorem shared_touched {before : Bool} {t : Tab} {m : CookieCall} (hm : marks m = none) :
    shared before { t with moments := t.moments ++ [m] } = shared before t := by
  unfold shared
  rw [marked_concat, hm]
  rfl

/-- The call and the flight have the same data, and the flight stands at `f`. -/
def At (before : Bool) (f : Flight) (t : Tab) (k : Config) : Prop :=
  k = ⟨shared before t, f, t.log⟩

/-- The rejection of a flight for the error of a call. -/
def rejection (error : Value) : Rejection :=
  if error.strictEq (.str "login_required") then .loginRequired else .other

/-- The flight has the data of the call, and has not settled. -/
def Waits (before : Bool) (t : Tab) (k : Config) : Prop :=
  ∃ f, At before f t k ∧ ∀ r, f.stage ≠ .settled r

/-- Where the flight is when the call does not resolve. -/
def Stuck (before : Bool) (f : Flight) : Unresolved → Tab → Config → Prop
  | .pending => Waits before
  | .rejected error => At before (f.goTo (.releasing (.error (rejection error))))

variable {S w} {before : Bool} {f f' : Flight} {t t' : Tab} {k : Config}

abbrev Moves (S : Setup) : Config → Config → Prop := Relation.ReflTransGen (Config.Step S)

/-- One step of a flight. -/
theorem At.step (h : At before f t k) {g : Flight} {u : Tab} (op : FlightOp)
    {events : List TokenEvent}
    (hstep : f.step S (shared before t) op = ⟨shared before u, g, events⟩)
    (hlog : u.log = t.log ++ events) : ∃ k', Moves S k k' ∧ At before g u k' := by
  subst h
  refine ⟨_, .single ⟨op, rfl⟩, ?_⟩
  unfold At Config.after
  rw [hstep, hlog]

/-! ### Reading and logging out -/

/-- The tab after the arrival of a token response. -/
def received (S : Setup) (before : Bool) (f : Flight) (json : Obj) (t : Tab) : Tab :=
  { t with
    refreshTokens := (f.receive S (shared before t) json).1.refreshTokens
    log := t.log ++ [.received json] }

theorem receive_apply (before : Bool) (f : Flight) (json : Obj) :
    receive S f.options json t =
      .ok (f.receive S (shared before t) json).2 (received S before f json t) := by
  unfold receive received Flight.receive
  show (EStateM.bind (note (.received json)) _) t = _
  unfold EStateM.bind
  cases S.hasWorker with
  | true => rfl
  | false => rfl

theorem shared_received (json : Obj) :
    shared before (received S before f json t) = (f.receive S (shared before t) json).1 := by
  unfold received Flight.receive
  cases S.hasWorker with
  | true => rfl
  | false => rfl

/-- The tab after a local logout. -/
def loggedOut (S : Setup) (t : Tab) : Tab :=
  { t with
    store :=
      if S.hasCustomCache then S.manager.clear none t.store
      else Cache.Manager.clearSync none t.store
    moments := t.moments ++ [.logout] }

theorem shared_loggedOut : shared before (loggedOut S t) = (shared before t).logout S := by
  unfold shared loggedOut Shared.logout
  rw [marked_concat]
  rfl

/-- The tab after the `catch` of `_getTokenFromIFrame`. -/
def afterCatch (S : Setup) (error : Value) (t : Tab) : Tab :=
  if error.strictEq (.str "login_required") then loggedOut S t else t

theorem shared_afterCatch (error : Value) :
    shared before (afterCatch S error t) =
      if rejection error = .loginRequired then (shared before t).logout S else shared before t := by
  unfold afterCatch rejection
  cases error.strictEq (.str "login_required") with
  | true => exact shared_loggedOut
  | false => rfl

theorem log_afterCatch (error : Value) : (afterCatch S error t).log = t.log := by
  unfold afterCatch
  split
  · rfl
  · rfl

/-! ### How a call ends -/

/-- The call and the flight end together here. -/
theorem ends_ok {α : Type} {post : α → Tab → Config → Prop}
    {fail : Unresolved → Tab → Config → Prop} {a : α} {x : EStateM.Result Unresolved Tab α}
    (hx : x = .ok a t) (h : ∃ k', Moves S k k' ∧ post a t k') :
    Follow.Ends (Config.Step S) k post fail x := by
  rw [hx]
  exact h

theorem ends_error {α : Type} {post : α → Tab → Config → Prop}
    {fail : Unresolved → Tab → Config → Prop} {e : Unresolved} {x : EStateM.Result Unresolved Tab α}
    (hx : x = .error e t) (h : ∃ k', Moves S k k' ∧ fail e t k') :
    Follow.Ends (Config.Step S) k post fail x := by
  rw [hx]
  exact h

/-! ### Through the iframe -/

/-- Where the flight is when the inside of the `try` throws: it has logged out
already, if the `catch` will. -/
def Caught (S : Setup) (before : Bool) (f : Flight) : Unresolved → Tab → Config → Prop
  | .pending => Waits before
  | .rejected error => fun t =>
    At before (f.goTo (.releasing (.error (rejection error)))) (afterCatch S error t)

/-- The flight has the entry and the response it was made of. -/
def Got (before : Bool) (f : Flight) (r : CacheEntry × Obj) : Tab → Config → Prop :=
  At before (f.goTo (.storing r.1 r.2))

theorem rejection_errorOf (json : Obj) : rejection (errorOf json) = rejectionOf json := by
  unfold rejection errorOf rejectionOf Value.or
  split
  · rfl
  next h =>
    have hne : (json.get "error").strictEq (.str "login_required") = false := by
      rw [Bool.eq_false_iff]
      intro heq
      rw [(Value.strictEq_str _ _).mp heq] at h
      exact h rfl
    rw [hne]
    rfl

/-- A code is exchanged. -/
def exchanging (w : Surroundings) (f : Flight) (x : Secrets) : Flight :=
  f.goTo (.exchanging (.waiting (.iframe f.options x w.orgIdHint)))

/-- A silent flight ends by giving the lock back. -/
theorem exchanging_leave (hlogin : f.isLogin = false) (x : Secrets) (r : Settlement) :
    (exchanging w f x).leave r = .releasing r := by
  unfold Flight.leave
  rw [show (exchanging w f x).isLogin = false from hlogin]
  rfl

theorem step_failed (hlogin : f.isLogin = false) (x : Secrets) (sh : Shared) (message : String) :
    (exchanging w f x).step S sh (.tokenAnswer w.clock (.error message)) =
      ⟨sh, f.goTo (.releasing (.error .other)), []⟩ := by
  rw [← exchanging_leave hlogin x]
  rfl

theorem step_accepted {x : Secrets} {sh : Shared} {json : Obj} {e : CacheEntry}
    (he : S.client.finishIframe S.browser w.clock f.options x w.orgIdHint
      (((exchanging w f x).receive S sh json).2.without ["error", "error_description"]) = .ok e) :
    (exchanging w f x).step S sh (.tokenAnswer w.clock (.ok ⟨true, json⟩)) =
      ⟨((exchanging w f x).receive S sh json).1, f.goTo (.storing e json), [.received json]⟩ := by
  show (exchanging w f x).exchangeAnswer S sh (.waiting (.iframe f.options x w.orgIdHint)) w.clock
    (.ok ⟨true, json⟩) = _
  unfold Flight.exchangeAnswer Pending.finish
  dsimp only
  rw [if_pos rfl, he]
  rfl

theorem step_unverified (hlogin : f.isLogin = false) {x : Secrets} {sh : Shared} {json : Obj}
    {reason : JwtError} (he : S.client.finishIframe S.browser w.clock f.options x w.orgIdHint
      (((exchanging w f x).receive S sh json).2.without ["error", "error_description"]) =
        .error reason) :
    (exchanging w f x).step S sh (.tokenAnswer w.clock (.ok ⟨true, json⟩)) =
      ⟨((exchanging w f x).receive S sh json).1, f.goTo (.releasing (.error .other)),
        [.received json]⟩ := by
  show (exchanging w f x).exchangeAnswer S sh (.waiting (.iframe f.options x w.orgIdHint)) w.clock
    (.ok ⟨true, json⟩) = _
  unfold Flight.exchangeAnswer Pending.finish
  dsimp only
  rw [if_pos rfl, he, exchanging_leave hlogin]
  rfl

theorem step_rejected (hlogin : f.isLogin = false) (x : Secrets) (sh : Shared) (json : Obj) :
    (exchanging w f x).step S sh (.tokenAnswer w.clock (.ok ⟨false, json⟩)) =
      ⟨if rejectionOf ((exchanging w f x).receive S sh json).2 = .loginRequired then
          ((exchanging w f x).receive S sh json).1.logout S
        else ((exchanging w f x).receive S sh json).1,
        f.goTo (.releasing (.error (rejectionOf ((exchanging w f x).receive S sh json).2))),
        [.received json]⟩ := by
  show (exchanging w f x).exchangeAnswer S sh (.waiting (.iframe f.options x w.orgIdHint)) w.clock
    (.ok ⟨false, json⟩) = _
  unfold Flight.exchangeAnswer
  dsimp only
  rw [if_neg Bool.false_ne_true, show (exchanging w f x).isLogin = false from hlogin]
  cases hr : rejectionOf ((exchanging w f x).receive S sh json).2 with
  | loginRequired =>
    rw [exchanging_leave hlogin]
    rfl
  | other =>
    rw [exchanging_leave hlogin, exchanging_leave hlogin]
    rfl

/-- The flight gets the answer to the exchange of the code. -/
theorem exchanged_ends (hlogin : f.isLogin = false) (x : Secrets)
    (answer : Except String TokenAnswer) (h : At before (exchanging w f x) t k) :
    Follow.Ends (Config.Step S) k (Got before f) (Caught S before f)
      (exchanged S w f.options x answer t) := by
  cases answer with
  | error message =>
    exact h.step (u := t) (.tokenAnswer w.clock (.error message))
      (step_failed hlogin x _ message) (List.append_nil _).symm
  | ok answer =>
    obtain ⟨ok, json⟩ := answer
    unfold exchanged
    dsimp only
    have hreceive : receive S f.options json t = _ :=
      receive_apply before (exchanging w f x) json
    rw [bind_ok hreceive]
    set r := (exchanging w f x).receive S (shared before t) json with hr
    set t' := received S before (exchanging w f x) json t with ht'
    have hshared : shared before t' = r.1 := shared_received json
    cases ok with
    | false =>
      refine h.step (u := afterCatch S (errorOf r.2) t') (.tokenAnswer w.clock (.ok ⟨false, json⟩)) ?_
        (log_afterCatch _)
      rw [step_rejected hlogin, shared_afterCatch, rejection_errorOf, hshared]
    | true =>
      rw [if_pos rfl]
      cases he : S.client.finishIframe S.browser w.clock f.options x w.orgIdHint
          (r.2.without ["error", "error_description"]) with
      | error reason =>
        refine h.step (u := t') (.tokenAnswer w.clock (.ok ⟨true, json⟩)) ?_ rfl
        rw [step_unverified hlogin he, hshared]
        rfl
      | ok e =>
        refine h.step (u := { t' with moments := t'.moments ++ [_] })
          (.tokenAnswer w.clock (.ok ⟨true, json⟩)) ?_ rfl
        rw [step_accepted he, shared_touched rfl, hshared]

theorem exchangeCode_ends (hlogin : f.isLogin = false) (x : Secrets) (code : Value)
    (h : At before (exchanging w f x) t k) :
    Follow.Ends (Config.Step S) k (Got before f) (Caught S before f)
      (exchangeCode S w f.options x code t) := by
  unfold exchangeCode
  cases w.exchangeAnswer
      (S.client.iframeTokenOptions S.browser f.options x w.orgIdHint code) with
  | none => exact ⟨k, .refl, _, h, fun r hr => (nomatch hr)⟩
  | some answer =>
    have hawait : awaited (some answer) t = .ok answer t := rfl
    rw [bind_ok hawait]
    exact exchanged_ends hlogin x answer h

/-- The iframe ends without a code. -/
theorem refused (error : Value) (h : At before (f.goTo .authorizing) t k) :
    ∃ k', Moves S k k' ∧ Caught S before f (.rejected error) t k' := by
  have hlog : (afterCatch S error t).log = t.log ++ [] := by
    rw [log_afterCatch, List.append_nil]
  refine h.step (.authorizeFailed (rejection error)) ?_ hlog
  rw [shared_afterCatch]
  rfl

/-- The inside of the `try`. -/
theorem iframeTokens_ends (hlogin : f.isLogin = false) (x : Secrets)
    (h : At before (f.goTo .authorizing) t k) :
    Follow.Ends (Config.Step S) k (Got before f) (Caught S before f)
      (iframeTokens S w f.options x t) := by
  unfold iframeTokens
  split
  · exact ends_error rfl (refused _ h)
  cases hiframe : (Windows.Iframe.runIframe S.client.domainUrl w.events).promise with
  | none =>
    have hawait : awaitIframe S w t = .error .pending t := by
      unfold awaitIframe
      rw [hiframe]
      rfl
    rw [bind_error hawait]
    exact ⟨k, .refl, _, h, fun r hr => (nomatch hr)⟩
  | some promise =>
    cases promise with
    | rejected e =>
      have hawait : awaitIframe S w t = .error (.rejected e.error) t := by
        unfold awaitIframe
        rw [hiframe]
        rfl
      rw [bind_error hawait]
      exact refused _ h
    | resolved codeResult =>
      have hawait : awaitIframe S w t = .ok codeResult t := by
        unfold awaitIframe
        rw [hiframe]
        rfl
      rw [bind_ok hawait]
      split
      · -- the code has come
        obtain ⟨k', hk', h'⟩ := h.step (u := { t with log := t.log ++ [.authorized] })
          (g := exchanging w f x) (.authorize x w.orgIdHint) rfl rfl
        exact (exchangeCode_ends hlogin x _ h').trans hk'
      · exact ends_error rfl (refused _ h)

/-- The `catch` takes the tab to where the flight is. -/
theorem iframeFailed_ends (reason : Unresolved) (h : Caught S before f reason t k) :
    Follow.Ends (Config.Step S) k (Got before f) (Stuck before f) (iframeFailed S reason t) := by
  cases reason with
  | pending => exact ⟨k, .refl, h⟩
  | rejected error =>
    have hfailed : iframeFailed S (.rejected error) t =
        .error (.rejected error) (afterCatch S error t) := by
      unfold iframeFailed afterCatch
      dsimp only
      split
      · rfl
      · rfl
    rw [hfailed]
    exact ⟨k, .refl, h⟩

theorem getTokenFromIFrame_ends (hlogin : f.isLogin = false)
    (h : At before (f.goTo .authorizing) t k) :
    Follow.Ends (Config.Step S) k (Got before f) (Stuck before f)
      (getTokenFromIFrame S w f.options t) := by
  unfold getTokenFromIFrame
  cases S.client.authorizeUrl (S.client.iframeQuery S.browser f.options w.draws.secrets
      w.orgIdHint) with
  | none => exact ends_error rfl (refused .undefined h)
  | some url =>
    exact (iframeTokens_ends hlogin w.draws.secrets h).tryCatch
      fun reason _ _ hcaught => iframeFailed_ends reason hcaught

/-! ### With a refresh token -/

theorem send_apply (token : Value) (n : Nat) :
    ∀ t, send token n t = .ok ⟨⟩ { t with log := t.log ++ List.replicate (n + 1) (.sent token) } := by
  induction n with
  | zero => exact fun t => rfl
  | succ n ih =>
    intro t
    show (note (.sent token) >>= fun _ => send token n) t = _
    have hnote : note (.sent token) t = .ok ⟨⟩ { t with log := t.log ++ [.sent token] } := rfl
    rw [bind_ok hnote, ih]
    dsimp only
    rw [List.append_assoc]
    rfl

/-- A refresh has been sent. -/
def sent (f : Flight) (refresh_token : Value) : Flight := f.goTo (.refreshSent refresh_token)

theorem sent_fallsBack {refresh_token : Value} {message : String} (hfalls : fallsBack message = true)
    (sh : Shared) : (sent f refresh_token).step S sh (.tokenAnswer w.clock (.error message)) =
      ⟨sh, f.goTo .authorizing, []⟩ := by
  show (sent f refresh_token).refreshAnswer S sh w.clock (.error message) = _
  unfold Flight.refreshAnswer
  dsimp only
  rw [if_pos hfalls]
  rfl

theorem sent_failed {refresh_token : Value} {message : String} (hfalls : ¬ fallsBack message = true)
    (sh : Shared) : (sent f refresh_token).step S sh (.tokenAnswer w.clock (.error message)) =
      ⟨sh, f.goTo (.releasing (.error .other)), []⟩ := by
  show (sent f refresh_token).refreshAnswer S sh w.clock (.error message) = _
  unfold Flight.refreshAnswer
  dsimp only
  rw [if_neg hfalls]
  rfl

theorem sent_accepted {refresh_token : Value} {sh : Shared} {json : Obj} {e : CacheEntry}
    (he : S.client.finishRefresh w.clock f.options
      (((sent f refresh_token).receive S sh json).2.without ["error", "error_description"]) =
        .ok e) :
    (sent f refresh_token).step S sh (.tokenAnswer w.clock (.ok ⟨true, json⟩)) =
      ⟨((sent f refresh_token).receive S sh json).1, f.goTo (.storing e json),
        [.received json]⟩ := by
  show (sent f refresh_token).refreshAnswer S sh w.clock (.ok ⟨true, json⟩) = _
  unfold Flight.refreshAnswer
  dsimp only
  rw [if_pos rfl, show (sent f refresh_token).options = f.options from rfl, he]
  rfl

theorem sent_unverified {refresh_token : Value} {sh : Shared} {json : Obj} {reason : JwtError}
    (he : S.client.finishRefresh w.clock f.options
      (((sent f refresh_token).receive S sh json).2.without ["error", "error_description"]) =
        .error reason) :
    (sent f refresh_token).step S sh (.tokenAnswer w.clock (.ok ⟨true, json⟩)) =
      ⟨((sent f refresh_token).receive S sh json).1, f.goTo (.releasing (.error .other)),
        [.received json]⟩ := by
  show (sent f refresh_token).refreshAnswer S sh w.clock (.ok ⟨true, json⟩) = _
  unfold Flight.refreshAnswer
  dsimp only
  rw [if_pos rfl, show (sent f refresh_token).options = f.options from rfl, he]
  rfl

theorem sent_rejected (refresh_token : Value) (sh : Shared) (json : Obj) :
    (sent f refresh_token).step S sh (.tokenAnswer w.clock (.ok ⟨false, json⟩)) =
      ⟨((sent f refresh_token).receive S sh json).1,
        f.goTo (if fallsBack (errorMessage S ((sent f refresh_token).receive S sh json).2) then
          .authorizing
        else .releasing (.error (rejectionOf ((sent f refresh_token).receive S sh json).2))),
        [.received json]⟩ := by
  show (sent f refresh_token).refreshAnswer S sh w.clock (.ok ⟨false, json⟩) = _
  unfold Flight.refreshAnswer
  dsimp only
  rw [if_neg Bool.false_ne_true]
  split
  · rfl
  · rfl

/-- The flight gets the answer to its refresh. -/
theorem refreshed_ends (hlogin : f.isLogin = false) (refresh_token : Value)
    (answer : Except String TokenAnswer) (h : At before (sent f refresh_token) t k) :
    Follow.Ends (Config.Step S) k (Got before f) (Stuck before f)
      (refreshed S w f.options answer t) := by
  unfold refreshed
  cases answer with
  | error message =>
    dsimp only
    split
    next hfalls =>
      obtain ⟨k', hk', h'⟩ := h.step (u := t) (.tokenAnswer w.clock (.error message))
        (sent_fallsBack hfalls _) (List.append_nil _).symm
      exact (getTokenFromIFrame_ends hlogin h').trans hk'
    next hfalls =>
      exact h.step (u := t) (.tokenAnswer w.clock (.error message)) (sent_failed hfalls _)
        (List.append_nil _).symm
  | ok answer =>
    obtain ⟨ok, json⟩ := answer
    have hreceive : receive S f.options json t = _ :=
      receive_apply before (sent f refresh_token) json
    dsimp only
    rw [bind_ok hreceive]
    set r := (sent f refresh_token).receive S (shared before t) json with hr
    set t' := received S before (sent f refresh_token) json t
    have hshared : shared before t' = r.1 := shared_received json
    cases ok with
    | false =>
      rw [if_neg Bool.false_ne_true]
      split
      next hfalls =>
        obtain ⟨k', hk', h'⟩ := h.step (u := t') (g := f.goTo .authorizing)
          (.tokenAnswer w.clock (.ok ⟨false, json⟩))
          (by rw [sent_rejected, ← hr, if_pos hfalls, hshared]) rfl
        exact (getTokenFromIFrame_ends hlogin h').trans hk'
      next hfalls =>
        refine h.step (u := t') (.tokenAnswer w.clock (.ok ⟨false, json⟩)) ?_ rfl
        rw [sent_rejected, ← hr, if_neg hfalls, hshared, rejection_errorOf]
    | true =>
      rw [if_pos rfl]
      cases he : S.client.finishRefresh w.clock f.options
          (r.2.without ["error", "error_description"]) with
      | error reason =>
        refine h.step (u := t') (.tokenAnswer w.clock (.ok ⟨true, json⟩)) ?_ rfl
        rw [sent_unverified he, hshared]
        rfl
      | ok e =>
        refine h.step (u := t') (.tokenAnswer w.clock (.ok ⟨true, json⟩)) ?_ rfl
        rw [sent_accepted he, hshared]

/-- The token of a refresh, as the flight finds it. -/
theorem attempt_of_token (before : Bool) {refresh_token : Value} {token : Option Value}
    (htoken : tokenFor S f.options refresh_token t = .ok token t) :
    f.attempt S (shared before t) refresh_token =
      ⟨shared before t, f.goTo (if token.isSome then .refreshSent refresh_token else .authorizing),
        token.toList.map .sent⟩ := by
  unfold tokenFor at htoken
  obtain ⟨rfl, -⟩ := EStateM.Result.ok.inj htoken
  unfold Flight.attempt
  dsimp only [shared]
  split
  next hnone =>
    rw [hnone]
    rfl
  next v hsome =>
    rw [hsome]
    rfl

theorem tokenFor_log {options : Obj} {refresh_token : Value} {token : Option Value}
    (htoken : tokenFor S options refresh_token t = .ok token t) (log : List TokenEvent) :
    tokenFor S options refresh_token { t with log := log } = .ok token { t with log := log } := by
  unfold tokenFor at htoken ⊢
  exact congrArg (EStateM.Result.ok · _) (EStateM.Result.ok.inj htoken).1

/-- The request is posted again. -/
theorem resent_moves {token refresh_token : Value} (n : Nat) :
    ∀ {t k}, tokenFor S f.options refresh_token t = .ok (some token) t →
      At before (sent f refresh_token) t k →
      ∃ k', Moves S k k' ∧ At before (sent f refresh_token)
        { t with log := t.log ++ List.replicate n (.sent token) } k' := by
  induction n with
  | zero =>
    intro t k htoken h
    refine ⟨k, .refl, ?_⟩
    rw [show List.replicate 0 (TokenEvent.sent token) = [] from rfl, List.append_nil]
    exact h
  | succ n ih =>
    intro t k htoken h
    obtain ⟨k₁, hk₁, h₁⟩ := h.step (u := { t with log := t.log ++ [.sent token] }) .attempt
      (attempt_of_token before (f := sent f refresh_token) htoken) rfl
    obtain ⟨k₂, hk₂, h₂⟩ := ih (tokenFor_log htoken _) h₁
    refine ⟨k₂, hk₁.trans hk₂, ?_⟩
    rw [List.append_assoc] at h₂
    exact h₂

theorem tokenFor_apply (options : Obj) (refresh_token : Value) :
    ∃ token, tokenFor S options refresh_token t = .ok token t :=
  ⟨_, rfl⟩

theorem refresh_ends (hlogin : f.isLogin = false) (refresh_token : Value)
    (h : At before (f.goTo (.refreshing refresh_token)) t k) :
    Follow.Ends (Config.Step S) k (Got before f) (Stuck before f)
      (refresh S w f.options refresh_token t) := by
  unfold refresh
  obtain ⟨token, htoken⟩ := tokenFor_apply (S := S) (t := t) f.options refresh_token
  have hattempt := attempt_of_token before (f := f.goTo (.refreshing refresh_token)) htoken
  rw [bind_ok htoken]
  cases token with
  | none =>
    obtain ⟨k', hk', h'⟩ := h.step (u := t) .attempt hattempt (List.append_nil _).symm
    exact (getTokenFromIFrame_ends hlogin h').trans hk'
  | some token =>
    dsimp only
    rw [bind_ok (send_apply token w.resent t)]
    -- the first request, and those that `getJSON` sends after it
    obtain ⟨k₁, hk₁, h₁⟩ := h.step (u := { t with log := t.log ++ [.sent token] }) .attempt
      hattempt rfl
    obtain ⟨k₂, hk₂, h₂⟩ := resent_moves w.resent (tokenFor_log htoken _) h₁
    rw [List.append_assoc] at h₂
    refine Follow.Ends.trans (hk₁.trans hk₂) ?_
    cases w.refreshAnswer (S.client.refreshTokenOptions S.browser f.options refresh_token) with
    | none => exact ⟨k₂, .refl, _, h₂, fun r hr => (nomatch hr)⟩
    | some answer => exact refreshed_ends hlogin refresh_token answer h₂

/-- The flight of a refresh: its options are those with the scope widened. -/
def refreshing (S : Setup) (f : Flight) : Flight :=
  { f with options := S.client.refreshOptions f.options }

/-- Where a flight goes with this refresh token, or without one. -/
def chosen (S : Setup) (refresh_token : Value) : Stage :=
  if !refresh_token.truthy && !S.hasWorker then .authorizing else .refreshing refresh_token

theorem choose_apply (huse : S.useRefreshTokens = true) (sh : Shared) (now : Js.Num) :
    f.choose S sh now =
      ⟨{ sh with store := (f.cachedRefreshToken S sh now).1 },
        (refreshing S f).goTo (chosen S (f.cachedRefreshToken S sh now).2), []⟩ := by
  unfold Flight.choose chosen Flight.cachedRefreshToken
  rw [if_pos huse]
  dsimp only
  split
  · rfl
  · rfl

theorem getTokenUsingRefreshToken_ends (huse : S.useRefreshTokens = true)
    (hlogin : f.isLogin = false) (h : At before (f.goTo .choosing) t k) :
    Follow.Ends (Config.Step S) k (Got before (refreshing S f)) (Stuck before (refreshing S f))
      (getTokenUsingRefreshToken S w f.options t) := by
  obtain ⟨k', hk', h'⟩ := h.step (.choose w.refreshNow)
    (u := { t with store := (f.cachedRefreshToken S (shared before t) w.refreshNow).1 })
    (choose_apply huse _ _) (List.append_nil _).symm
  refine Follow.Ends.trans hk' ?_
  unfold getTokenUsingRefreshToken
  dsimp only
  have hget : cacheGet S (S.client.requestKey (S.client.refreshOptions f.options)) (.fin 0)
      w.refreshNow t = .ok _ _ := rfl
  rw [bind_ok hget]
  unfold chosen at h'
  split
  next hnone =>
    rw [if_pos (by exact hnone)] at h'
    exact getTokenFromIFrame_ends (f := refreshing S f) hlogin h'
  next hsome =>
    rw [if_neg (by exact hsome)] at h'
    exact refresh_ends (f := refreshing S f) hlogin _ h'

/-! ### The whole request -/

/-- After a look into the cache. -/
def Looked (before : Bool) (f : Flight) (hit : Settlement → Stage) (next : Stage) :
    Option TokenResult → Tab → Config → Prop
  | some entry => At before (f.goTo (hit (.ok ⟨entry, none⟩)))
  | none => At before (f.goTo next)

theorem getEntryFromCache_hit {options : Obj} {d : Bool} {now : Js.Num} {found : Store × Option Body}
    (hfound : found = S.manager.get (S.client.requestKey options) (.fin 60) now t.store)
    {e : CacheEntry} (he : found.2 = some (.entry e)) (ht : e.access_token.truthy = true) :
    getEntryFromCache S options d now t = .ok (some (.ofEntry d e)) { t with store := found.1 } := by
  have hget : cacheGet S (S.client.requestKey options) (.fin 60) now t =
      .ok (some (.entry e)) { t with store := found.1 } := by
    rw [← he, hfound]
    rfl
  unfold getEntryFromCache
  rw [bind_ok hget]
  dsimp only
  rw [if_pos ht]
  rfl

theorem getEntryFromCache_miss {options : Obj} {d : Bool} {now : Js.Num}
    {found : Store × Option Body}
    (hfound : found = S.manager.get (S.client.requestKey options) (.fin 60) now t.store)
    (hmiss : ¬ Cache.HasAccessToken found.2) :
    getEntryFromCache S options d now t = .ok none { t with store := found.1 } := by
  have hget : cacheGet S (S.client.requestKey options) (.fin 60) now t =
      .ok found.2 { t with store := found.1 } := by
    rw [hfound]
    rfl
  unfold getEntryFromCache
  rw [bind_ok hget]
  cases hbody : found.2 with
  | none => rfl
  | some body =>
    cases body with
    | refreshOnly r => rfl
    | entry e =>
      rw [hbody] at hmiss
      dsimp only
      rw [if_neg (by exact hmiss)]
      rfl

/-- A look into the cache does not throw. -/
theorem lookUp_ends {now : Js.Num} {hit : Settlement → Stage} {next : Stage}
    (hstep : ∀ sh, f.step S sh (.check now) = f.cacheCheck S sh now hit next)
    {fail : Unresolved → Tab → Config → Prop} (h : At before f t k) :
    Follow.Ends (Config.Step S) k (Looked before f hit next) fail
      (lookUp S f.options f.ignoreCache f.detailedResponse now t) := by
  have hcheck := hstep (shared before t)
  rcases @Flight.cacheCheck_cases S (shared before t) f now hit next with
    ⟨hignore, hp⟩ | ⟨hignore, found, hfound, ⟨e, he, ht, hp⟩ | ⟨hmiss, hp⟩⟩
  · rw [hp] at hcheck
    unfold lookUp
    rw [if_pos hignore]
    exact h.step (u := t) (.check now) hcheck (List.append_nil _).symm
  · rw [hp] at hcheck
    unfold lookUp
    rw [if_neg (ne_true_of_eq_false hignore), getEntryFromCache_hit hfound he ht]
    exact h.step (u := { t with store := found.1 }) (.check now) hcheck (List.append_nil _).symm
  · rw [hp] at hcheck
    unfold lookUp
    rw [if_neg (ne_true_of_eq_false hignore), getEntryFromCache_miss hfound hmiss]
    exact h.step (u := { t with store := found.1 }) (.check now) hcheck (List.append_nil _).symm

/-- The flight has this outcome and the lock still. -/
def Holds (before : Bool) (o : Outcome) (t : Tab) (k : Config) : Prop :=
  ∃ f : Flight, At before (f.goTo (.releasing (.ok o))) t k

/-- The flight has this error and the lock still, or it waits for ever. -/
def HoldsError (before : Bool) : Unresolved → Tab → Config → Prop
  | .pending => Waits before
  | .rejected error => fun t k =>
    ∃ f : Flight, At before (f.goTo (.releasing (.error (rejection error)))) t k

theorem Stuck.holdsError {reason : Unresolved} (h : Stuck before f reason t k) :
    HoldsError before reason t k := by
  cases reason with
  | pending => exact h
  | rejected error => exact ⟨f, h⟩

theorem storeTokens_ends (hlogin : f.isLogin = false) (r : CacheEntry × Obj)
    (h : Got before f r t k) :
    Follow.Ends (Config.Step S) k (Holds before) (HoldsError before)
      (storeTokens S w f.detailedResponse r t) := by
  let t₁ : Tab :=
    { t with
      store := S.manager.set r.1 w.storeNow t.store
      log := t.log ++ [.stored r.1 w.storeNow] }
  let t₂ : Tab := { t₁ with moments := t₁.moments ++ [.authenticated w.cookieNow] }
  let o : Outcome := ⟨.ofEntry f.detailedResponse r.1, some r.2⟩
  obtain ⟨k₁, hk₁, h₁⟩ := h.step (u := t₁) (g := f.goTo (.saving o)) (.store w.storeNow) rfl rfl
  have hsave : (f.goTo (.saving o)).step S (shared before t₁) .save =
      ⟨shared before t₂, f.goTo (.releasing (.ok o)), []⟩ := by
    show (⟨_, (f.goTo (.saving o)).goTo ((f.goTo (.saving o)).leave (.ok o)), []⟩ : Progress) = _
    unfold Flight.leave
    rw [show (f.goTo (.saving o)).isLogin = false from hlogin]
    unfold shared
    rw [marked_concat]
    rfl
  obtain ⟨k₂, hk₂, h₂⟩ := h₁.step (u := t₂) .save hsave (List.append_nil _).symm
  exact ⟨k₂, hk₁.trans hk₂, f, h₂⟩

/-- The flight goes on with the tokens, whatever became of its options. -/
theorem storing_follows {g : Flight} (hlogin : g.isLogin = false)
    (hd : g.detailedResponse = f.detailedResponse) {x : CallM (CacheEntry × Obj)}
    (hx : Follow.Ends (Config.Step S) k (Got before g) (Stuck before g) (x t)) :
    Follow.Ends (Config.Step S) k (Holds before) (HoldsError before)
      ((x >>= storeTokens S w f.detailedResponse) t) := by
  rw [← hd]
  exact hx.bind (fun _ _ _ hstuck => hstuck.holdsError)
    fun r _ _ hgot => storeTokens_ends hlogin r hgot

theorem underLock_ends (hlogin : f.isLogin = false) (h : At before (f.goTo .secondCheck) t k) :
    Follow.Ends (Config.Step S) k (Holds before) (HoldsError before)
      (underLock S w f.options f.ignoreCache f.detailedResponse t) := by
  have hlook : Follow.Ends (Config.Step S) k (Looked before f .releasing .choosing)
      (HoldsError before) (lookUp S f.options f.ignoreCache f.detailedResponse w.secondNow t) :=
    lookUp_ends (f := f.goTo .secondCheck) (fun _ => rfl) h
  unfold underLock
  refine hlook.bind (fun _ _ _ hfail => hfail) fun found t' k' hlooked => ?_
  cases found with
  | some entry => exact ⟨k', .refl, f, hlooked⟩
  | none =>
    dsimp only
    cases huse : S.useRefreshTokens with
    | true =>
      exact storing_follows (f := f) (g := refreshing S f) hlogin rfl
        (getTokenUsingRefreshToken_ends huse hlogin hlooked)
    | false =>
      have hchoose : (f.goTo .choosing).step S (shared before t') (.choose w.refreshNow) =
          ⟨shared before t', f.goTo .authorizing, []⟩ := by
        show (f.goTo .choosing).choose S (shared before t') w.refreshNow = _
        unfold Flight.choose
        rw [if_neg (ne_true_of_eq_false huse)]
        rfl
      obtain ⟨k₂, hk₂, h₂⟩ := At.step hlooked (u := t') (.choose w.refreshNow) hchoose
        (List.append_nil _).symm
      exact (storing_follows (f := f) hlogin rfl (getTokenFromIFrame_ends hlogin h₂)).trans hk₂

/-- The flight has settled as the call has. -/
def Resolved (before : Bool) (o : Outcome) (t : Tab) (k : Config) : Prop :=
  ∃ f : Flight, At before (f.goTo (.settled (.ok o))) t k

def Rejected (before : Bool) : Unresolved → Tab → Config → Prop
  | .pending => Waits before
  | .rejected error => fun t k =>
    ∃ f : Flight, At before (f.goTo (.settled (.error (rejection error)))) t k

/-- The lock is given back. -/
theorem released {r : Settlement} (h : At before (f.goTo (.releasing r)) t k) :
    ∃ k', Moves S k k' ∧
      At before (f.goTo (.settled r)) { t with log := t.log ++ [.unlocked] } k' :=
  h.step .release rfl rfl

theorem releasing_ok {x : CallM Outcome} {o : Outcome} (h : x t = .ok o t') :
    releasing x t = .ok o { t' with log := t'.log ++ [.unlocked] } := by
  show EStateM.bind (EStateM.tryCatch x _) _ t = _
  unfold EStateM.bind EStateM.tryCatch
  rw [h]
  rfl

theorem releasing_pending {x : CallM Outcome} (h : x t = .error .pending t') :
    releasing x t = .error .pending t' := by
  show EStateM.bind (EStateM.tryCatch x _) _ t = _
  unfold EStateM.bind EStateM.tryCatch
  rw [h]
  rfl

theorem releasing_rejected {x : CallM Outcome} {error : Value}
    (h : x t = .error (.rejected error) t') :
    releasing x t = .error (.rejected error) { t' with log := t'.log ++ [.unlocked] } := by
  show EStateM.bind (EStateM.tryCatch x _) _ t = _
  unfold EStateM.bind EStateM.tryCatch
  rw [h]
  rfl

theorem releasing_ends {x : CallM Outcome}
    (hx : Follow.Ends (Config.Step S) k (Holds before) (HoldsError before) (x t)) :
    Follow.Ends (Config.Step S) k (Resolved before) (Rejected before) (releasing x t) := by
  cases hr : x t with
  | ok o t' =>
    rw [hr] at hx
    obtain ⟨k', hk', f, h⟩ := hx
    obtain ⟨k₂, hk₂, h₂⟩ := released (S := S) h
    exact ends_ok (releasing_ok hr) ⟨k₂, hk'.trans hk₂, f, h₂⟩
  | error reason t' =>
    rw [hr] at hx
    obtain ⟨k', hk', h⟩ := hx
    cases reason with
    | pending => exact ends_error (releasing_pending hr) ⟨k', hk', h⟩
    | rejected error =>
      obtain ⟨f, h⟩ := h
      obtain ⟨k₂, hk₂, h₂⟩ := released (S := S) h
      exact ends_error (releasing_rejected hr) ⟨k₂, hk'.trans hk₂, f, h₂⟩

/-- The lock is asked for until it is had, ten times at most. -/
theorem locking_moves (cb : Nat → Bool) (left : Nat) :
    ∀ {i k}, i + left = 9 → At before (f.goTo (.locking i)) t k →
      ∃ k', Moves S k k' ∧ if retryPromise cb (left + 1) i then
          At before (f.goTo .secondCheck) { t with log := t.log ++ [.locked] } k'
        else At before (f.goTo (.settled (.error .other))) t k' := by
  induction left with
  | zero =>
    intro i k hi h
    unfold retryPromise
    cases hcb : cb i with
    | true => exact h.step (.lock true) rfl rfl
    | false =>
      have hlast : (f.goTo (.locking i)).step S (shared before t) (.lock false) =
          ⟨shared before t, f.goTo (.settled (.error .other)), []⟩ := by
        show (f.goTo (.locking i)).lock (shared before t) i false = _
        unfold Flight.lock
        rw [if_neg Bool.false_ne_true, if_neg (by omega)]
        rfl
      exact h.step (.lock false) hlast (List.append_nil _).symm
  | succ left ih =>
    intro i k hi h
    unfold retryPromise
    cases hcb : cb i with
    | true => exact h.step (.lock true) rfl rfl
    | false =>
      have hagain : (f.goTo (.locking i)).step S (shared before t) (.lock false) =
          ⟨shared before t, f.goTo (.locking (i + 1)), []⟩ := by
        show (f.goTo (.locking i)).lock (shared before t) i false = _
        unfold Flight.lock
        rw [if_neg Bool.false_ne_true, if_pos (by omega)]
        rfl
      obtain ⟨k₁, hk₁, h₁⟩ := h.step (u := t) (.lock false) hagain (List.append_nil _).symm
      obtain ⟨k₂, hk₂, h₂⟩ := ih (by omega) h₁
      exact ⟨k₂, hk₁.trans hk₂, h₂⟩

theorem getTokenSilently_ends (hlogin : f.isLogin = false)
    (h : At before (f.goTo .firstCheck) t k) :
    Follow.Ends (Config.Step S) k (Resolved before) (Rejected before)
      (getTokenSilently S w f.options f.ignoreCache f.detailedResponse t) := by
  have hlook : Follow.Ends (Config.Step S) k (Looked before f .settled (.locking 0))
      (Rejected before) (lookUp S f.options f.ignoreCache f.detailedResponse w.firstNow t) :=
    lookUp_ends (f := f.goTo .firstCheck) (fun _ => rfl) h
  unfold getTokenSilently
  refine hlook.bind (fun _ _ _ hfail => hfail) fun found t' k' hlooked => ?_
  cases found with
  | some entry => exact ⟨k', .refl, f, hlooked⟩
  | none =>
    obtain ⟨k₂, hk₂, h₂⟩ := locking_moves (S := S) w.acquireLock 9 rfl hlooked
    refine Follow.Ends.trans hk₂ ?_
    dsimp only
    split
    next hlocked =>
      rw [if_pos hlocked] at h₂
      exact releasing_ends (underLock_ends hlogin h₂)
    next htimeout =>
      rw [if_neg htimeout] at h₂
      exact ⟨k₂, .refl, f, h₂⟩

/-- The steps of a flight that runs alone are a run of it. -/
theorem Moves.exists_run {k k' : Config} (h : Moves S k k') :
    ∃ ops, k' = k.after (k.flight.run S k.shared ops) := by
  induction h using Relation.ReflTransGen.head_induction_on with
  | refl => exact ⟨[], by unfold Config.after Flight.run; rw [List.append_nil]⟩
  | head hstep _ ih =>
    obtain ⟨op, rfl⟩ := hstep
    obtain ⟨ops, hops⟩ := ih
    refine ⟨op :: ops, ?_⟩
    rw [hops]
    unfold Config.after
    rw [Flight.run, List.append_assoc]

/-- What a flight that runs alone has come to is what the call has. -/
structure Agree (before : Bool) (t t' : Tab) (p : Progress) : Prop where
  shared : p.shared = Calls.shared before t'
  log : t'.log = t.log ++ p.events

/-- The flight settles as the call does; a call that does not settle leaves the
flight unsettled, too. -/
def Alike (before : Bool) (t : Tab) (p : Progress) : EStateM.Result Unresolved Tab Outcome → Prop
  | .ok o t' => Agree before t t' p ∧ p.flight.stage = .settled (.ok o)
  | .error (.rejected error) t' =>
    Agree before t t' p ∧ p.flight.stage = .settled (.error (rejection error))
  | .error .pending t' => Agree before t t' p ∧ ∀ r, p.flight.stage ≠ .settled r

theorem agree_of_at {f₀ : Flight} {p : Progress}
    (h : At before f t' (Config.after ⟨shared before t, f₀, t.log⟩ p)) :
    Agree before t t' p ∧ p.flight = f := by
  unfold At Config.after at h
  obtain ⟨hshared, hflight, hlog⟩ := Config.mk.inj h
  exact ⟨⟨hshared, hlog.symm⟩, hflight⟩

theorem alike_of_ends {r : EStateM.Result Unresolved Tab Outcome}
    (h : Follow.Ends (Config.Step S) ⟨shared before t, f, t.log⟩
      (Resolved before) (Rejected before) r) :
    ∃ ops, Alike before t (f.run S (shared before t) ops) r := by
  cases r with
  | ok o t' =>
    obtain ⟨k', hk', g, h⟩ := h
    obtain ⟨ops, rfl⟩ := Moves.exists_run hk'
    obtain ⟨hagree, hflight⟩ := agree_of_at h
    exact ⟨ops, hagree, congrArg Flight.stage hflight⟩
  | error reason t' =>
    obtain ⟨k', hk', h⟩ := h
    obtain ⟨ops, rfl⟩ := Moves.exists_run hk'
    cases reason with
    | pending =>
      obtain ⟨g, h, hunsettled⟩ := h
      obtain ⟨hagree, hflight⟩ := agree_of_at h
      exact ⟨ops, hagree, hflight ▸ hunsettled⟩
    | rejected error =>
      obtain ⟨g, h⟩ := h
      obtain ⟨hagree, hflight⟩ := agree_of_at h
      exact ⟨ops, hagree, congrArg Flight.stage hflight⟩

/-- However a call of `_getTokenSilently` ends, a flight can end so. -/
theorem getTokenSilently_follows (S : Setup) (w : Surroundings) (before : Bool) (t : Tab)
    (call : Obj) :
    let f := S.silentFlight call
    ∃ ops, Alike before t (f.run S (shared before t) ops)
      (getTokenSilently S w f.options f.ignoreCache f.detailedResponse t) :=
  alike_of_ends (getTokenSilently_ends rfl rfl)

end Calls

end AuthokSpa
