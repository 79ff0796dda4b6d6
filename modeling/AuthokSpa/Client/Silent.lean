import AuthokSpa.Cache.Completeness
import AuthokSpa.Client.Keys
import AuthokSpa.Client.Session
import AuthokSpa.Worker

/-!
# Silent token requests (`AuthokClient.ts`, `promise-utils.ts`)

`getTokenSilently` as it runs among others. A call joins the promise under its
key (`singlePromise`) or starts a flight, one run of `_getTokenSilently`. A
flight goes through the cache, the lock, the cache again, and then to the token
endpoint by a refresh token or through an iframe; each stage ends where the
code awaits something, so the steps of several flights interleave in any order.
A login takes part from its token request on, as a flight of its own.

`Flight.step` is one step of one flight, on what all flights share: the cache,
the memory of the worker and the `is.authenticated` cookie. `ClientState` is a
client with its flights. The lock is a package of its own and its answers are
arbitrary here, as are those of the token endpoint; the calls of the cache
manager are whole, as in `Cache.Manager`.

Events are not part of the program. They record the lock taken and given back,
the responses of `/authorize` and of the token endpoint, the refresh tokens
sent and the entries stored.
-/

namespace AuthokSpa

open Js (Value Obj OrdMap ProtoObj)
open Cache (Store Body CacheKey)

/-- `INVALID_REFRESH_TOKEN_ERROR_MESSAGE`. -/
def INVALID_REFRESH_TOKEN_ERROR_MESSAGE : String := "invalid refresh token"

/-! ## The constructor's choices -/

/-- How the object under the `cache` option behaves. -/
structure CustomCache where
  byReference : Bool
  hasAllKeys : Bool

/-- A client in its surroundings. -/
structure Setup where
  client : AuthokClient
  browser : Browser
  cache : CustomCache
  /-- `window.Worker` is there and the browser is not IE11. -/
  supportsWorker : Bool

namespace Setup

variable (S : Setup)

def hasCustomCache : Bool := (S.client.options.get "cache").truthy

/-- `this.cacheLocation`, which stays `undefined` with a custom cache. -/
def cacheLocation : Value :=
  if S.hasCustomCache then .undefined
  else (S.client.options.get "cacheLocation").or (.str "memory")

def useRefreshTokens : Bool := (S.client.options.get "useRefreshTokens").truthy

/-- `this.worker` is set. -/
def hasWorker : Bool :=
  S.supportsWorker && S.useRefreshTokens && S.cacheLocation.strictEq (.str "memory")

/-- `this.cacheManager`. -/
def manager : Cache.Manager :=
  if S.hasCustomCache then
    ⟨S.cache.byReference, if S.cache.hasAllKeys then none else some S.client.client_id⟩
  else ⟨S.cacheLocation.strictEq (.str "memory"), none⟩

/-- The manifest, where there is one, is the client's own. -/
theorem keyManifest_eq {S : Setup} {cid : String} (h : S.manager.keyManifest = some cid) :
    S.client.client_id = cid := by
  unfold manager at h
  split at h
  · split at h
    · cases h
    · exact Option.some.inj h
  · cases h

/-- The key `singlePromise` merges calls by. -/
def promiseKey (o : Obj) : String :=
  S.client.client_id ++ ("::" ++ ((o.get "audience").text ++ ("::" ++ (o.get "scope").text)))

end Setup

/-! ## Results -/

/-- What `getTokenSilently` resolves to. -/
inductive TokenResult where
  | bare (access_token : Value)
  | detailed (id_token access_token scope : Value) (expires_in : Js.Num)

namespace TokenResult

def access_token : TokenResult → Value
  | bare access_token => access_token
  | detailed _ access_token _ _ => access_token

def isDetailed : TokenResult → Bool
  | bare _ => false
  | detailed .. => true

/-- The result made of an entry, cached or just received. -/
def ofEntry (detailedResponse : Bool) (e : CacheEntry) : TokenResult :=
  if detailedResponse then
    detailed e.id_token e.access_token
      (if e.oauthTokenScope.truthy then e.oauthTokenScope else .undefined) e.expires_in
  else bare e.access_token

theorem access_token_ofEntry (d : Bool) (e : CacheEntry) :
    (ofEntry d e).access_token = e.access_token := by
  cases d <;> rfl

theorem isDetailed_ofEntry (d : Bool) (e : CacheEntry) : (ofEntry d e).isDetailed = d := by
  cases d <;> rfl

end TokenResult

/-- A result, with the token response it was made of; none when it was read from
the cache. -/
structure Outcome where
  result : TokenResult
  response : Option Obj

/-- Why a request was rejected: `error.error === 'login_required'` or not. -/
inductive Rejection where
  | loginRequired
  | other
  deriving DecidableEq

/-- How a promise settles. -/
abbrev Settlement := Except Rejection Outcome

/-! ## Flights -/

/-- Where a flight stands. The lock is held from `secondCheck` to `releasing`. -/
inductive Stage where
  | firstCheck
  | locking (tries : Nat)
  | secondCheck
  | choosing
  | refreshing (refresh_token : Value)
  | refreshSent (refresh_token : Value)
  | authorizing
  | exchanging (p : Pending)
  | storing (e : CacheEntry) (response : Obj)
  | saving (o : Outcome)
  | releasing (r : Settlement)
  | settled (r : Settlement)

/-- The request has failed or goes on without a token. -/
def Stage.Plain : Stage → Prop
  | .authorizing => True
  | .releasing (.error _) => True
  | .settled (.error _) => True
  | _ => False

/-- One run of `_getTokenSilently`, or a login. -/
structure Flight where
  key : String
  isLogin : Bool
  options : Obj
  ignoreCache : Bool
  detailedResponse : Bool
  stage : Stage

inductive TokenEvent where
  | locked
  | unlocked
  | authorized
  | sent (refresh_token : Value)
  | received (json : Obj)
  | stored (e : CacheEntry) (now : Js.Num)

/-- What flights share. -/
structure Shared where
  store : Store := {}
  refreshTokens : RefreshTokens := []
  isAuthenticated : Bool := false

/-- What a step of a flight leaves behind. -/
structure Progress where
  shared : Shared
  flight : Flight
  events : List TokenEvent

/-- An answer of the token endpoint. -/
structure TokenAnswer where
  ok : Bool
  json : Obj

/-- What a flight can meet next. A request for a token that fails for good has
an error message for an answer. -/
inductive FlightOp where
  | check (now : Js.Num)
  | lock (acquired : Bool)
  | choose (now : Js.Num)
  | attempt
  | authorize (x : Secrets) (orgIdHint : Value)
  | authorizeFailed (rejection : Rejection)
  | tokenAnswer (clock : Clock) (answer : Except String TokenAnswer)
  | store (now : Js.Num)
  | save
  | release

/-- The error messages that send a refresh to the iframe. -/
def fallsBack (message : String) : Bool :=
  message = MISSING_REFRESH_TOKEN_ERROR_MESSAGE ||
    Js.includes message INVALID_REFRESH_TOKEN_ERROR_MESSAGE

/-- The error message `getJSON` makes of a response that is not ok. -/
def errorMessage (S : Setup) (json : Obj) : String :=
  ((json.get "error_description").or
    (.str ("HTTP error. Unable to fetch " ++ (S.client.domainUrl ++ "/oauth/token")))).text

/-- The rejection for a response that is not ok. -/
def rejectionOf (json : Obj) : Rejection :=
  if (json.get "error").strictEq (.str "login_required") then .loginRequired else .other

/-- `logout({localOnly: true})`, as far as what flights share goes. With a custom cache it
is asynchronous, and the flight does not await it; here it is done at once. -/
def Shared.logout (S : Setup) (sh : Shared) : Shared :=
  { sh with
    store :=
      if S.hasCustomCache then S.manager.clear none sh.store
      else Cache.Manager.clearSync none sh.store
    isAuthenticated := false }

/-- The audience `oauthToken` gives to the worker. -/
def workerAudience (o : Obj) : Value := (o.get "audience").or (.str "default")

/-- The tokens of an entry are those of the response it is made of. -/
structure TokensOf (r : Obj) (e : CacheEntry) : Prop where
  access_token : e.access_token = r.get "access_token"
  refresh_token : e.refresh_token = r.get "refresh_token"

theorem finishRefresh_tokens {c : AuthokClient} {clock : Clock} {options r : Obj} {e : CacheEntry}
    (h : c.finishRefresh clock options r = .ok e) : TokensOf r e := by
  obtain ⟨d, -, he⟩ := bind_ok_iff.mp h
  rw [← Except.ok.inj he]
  exact ⟨rfl, rfl⟩

theorem finishIframe_tokens {c : AuthokClient} {b : Browser} {clock : Clock} {options r : Obj}
    {x : Secrets} {orgIdHint : Value} {e : CacheEntry}
    (h : c.finishIframe b clock options x orgIdHint r = .ok e) : TokensOf r e := by
  obtain ⟨d, -, he⟩ := bind_ok_iff.mp h
  rw [← Except.ok.inj he]
  exact ⟨rfl, rfl⟩

theorem Pending.finish_tokens {c : AuthokClient} {b : Browser} {clock : Clock} {r : Obj}
    {p : Pending} {e : CacheEntry} (h : p.finish c b clock r = .ok e) : TokensOf r e := by
  cases p with
  | redirect transaction =>
    obtain ⟨d, -, he⟩ := bind_ok_iff.mp h
    rw [← Except.ok.inj he]
    exact ⟨rfl, rfl⟩
  | waiting w =>
    cases w with
    | popup options x =>
      obtain ⟨d, -, he⟩ := bind_ok_iff.mp h
      rw [← Except.ok.inj he]
      exact ⟨rfl, rfl⟩
    | iframe options x orgIdHint => exact finishIframe_tokens h

namespace Flight

variable (S : Setup) (sh : Shared) (f : Flight)

def goTo (stage : Stage) : Flight := { f with stage := stage }

/-- The end of a flight: a silent one gives the lock back first. -/
def leave (r : Settlement) : Stage := if f.isLogin then .settled r else .releasing r

/-- A look into the cache for an access token (`_getEntryFromCache`); without
one the flight goes on. -/
def cacheCheck (now : Js.Num) (hit : Settlement → Stage) (next : Stage) : Progress :=
  if f.ignoreCache then ⟨sh, f.goTo next, []⟩
  else
    let found := S.manager.get (S.client.requestKey f.options) (.fin 60) now sh.store
    let sh := { sh with store := found.1 }
    match found.2 with
    | some (.entry e) =>
      if e.access_token.truthy then
        ⟨sh, f.goTo (hit (.ok ⟨.ofEntry f.detailedResponse e, none⟩)), []⟩
      else ⟨sh, f.goTo next, []⟩
    -- nothing found, or a stripped entry, which has no access token
    | _ => ⟨sh, f.goTo next, []⟩

/-- An answer of `acquireLock`, inside `retryPromise` with 10 tries. -/
def lock (tries : Nat) (acquired : Bool) : Progress :=
  if acquired then ⟨sh, f.goTo .secondCheck, [.locked]⟩
  else if tries + 1 < 10 then ⟨sh, f.goTo (.locking (tries + 1)), []⟩
  -- `throw new TimeoutError()`, outside the `try` that releases the lock
  else ⟨sh, f.goTo (.settled (.error .other)), []⟩

/-- The start of `_getTokenUsingRefreshToken` or `_getTokenFromIFrame`. -/
def choose (now : Js.Num) : Progress :=
  if S.useRefreshTokens then
    let o := S.client.refreshOptions f.options
    let found := S.manager.get (S.client.requestKey o) (.fin 0) now sh.store
    let refresh_token := (found.2.map Body.refresh_token).getD .undefined
    let sh := { sh with store := found.1 }
    -- with a worker the token may be in its memory
    if !refresh_token.truthy && !S.hasWorker then
      ⟨sh, { f with options := o, stage := .authorizing }, []⟩
    else ⟨sh, { f with options := o, stage := .refreshing refresh_token }, []⟩
  else ⟨sh, f.goTo .authorizing, []⟩

/-- A refresh request is posted, for the first time or again. -/
def attempt (refresh_token : Value) : Progress :=
  let token :=
    if S.hasWorker then
      Worker.request sh.refreshTokens (workerAudience f.options) (f.options.get "scope")
        refresh_token
    else some refresh_token
  match token with
  -- the worker has no token and says so; that falls back to the iframe
  | none => ⟨sh, f.goTo .authorizing, []⟩
  | some t => ⟨sh, f.goTo (.refreshSent refresh_token), [.sent t]⟩

/-- A token response arrives: in the worker first, if there is one. The second
component is what `getJSON` sees. -/
def receive (json : Obj) : Shared × Obj :=
  if S.hasWorker then
    let r := Worker.response sh.refreshTokens (workerAudience f.options) (f.options.get "scope") json
    ({ sh with refreshTokens := r.1 }, r.2)
  else (sh, json)

/-- The token response of a refresh request. -/
def refreshAnswer (clock : Clock) (answer : Except String TokenAnswer) : Progress :=
  match answer with
  | .error message =>
    if fallsBack message then ⟨sh, f.goTo .authorizing, []⟩
    else ⟨sh, f.goTo (.releasing (.error .other)), []⟩
  | .ok answer =>
    let r := f.receive S sh answer.json
    if answer.ok then
      match S.client.finishRefresh clock f.options (r.2.without ["error", "error_description"]) with
      | .ok e => ⟨r.1, f.goTo (.storing e answer.json), [.received answer.json]⟩
      | .error _ => ⟨r.1, f.goTo (.releasing (.error .other)), [.received answer.json]⟩
    -- a token the server does not accept is answered by the iframe, too
    else if fallsBack (errorMessage S r.2) then
      ⟨r.1, f.goTo .authorizing, [.received answer.json]⟩
    else ⟨r.1, f.goTo (.releasing (.error (rejectionOf r.2))), [.received answer.json]⟩

/-- The iframe ends without a code, which logs out when a login is required. -/
def authorizeFailed (rejection : Rejection) : Progress :=
  ⟨if rejection = .loginRequired then sh.logout S else sh, f.goTo (.releasing (.error rejection)), []⟩

/-- The token response of a code exchange. A silent one that says
`login_required` logs out. -/
def exchangeAnswer (p : Pending) (clock : Clock) (answer : Except String TokenAnswer) : Progress :=
  match answer with
  | .error _ => ⟨sh, f.goTo (f.leave (.error .other)), []⟩
  | .ok answer =>
    let r := f.receive S sh answer.json
    if answer.ok then
      match p.finish S.client S.browser clock (r.2.without ["error", "error_description"]) with
      | .ok e => ⟨r.1, f.goTo (.storing e answer.json), [.received answer.json]⟩
      | .error _ => ⟨r.1, f.goTo (f.leave (.error .other)), [.received answer.json]⟩
    -- only `_getTokenFromIFrame` has the `catch` that logs out
    else if !f.isLogin && rejectionOf r.2 = .loginRequired then
      ⟨r.1.logout S, f.goTo (f.leave (.error .loginRequired)), [.received answer.json]⟩
    else ⟨r.1, f.goTo (f.leave (.error (rejectionOf r.2))), [.received answer.json]⟩

/-- The entry is stored. -/
def store (e : CacheEntry) (response : Obj) (now : Js.Num) : Progress :=
  ⟨{ sh with store := S.manager.set e now sh.store },
    f.goTo (.saving ⟨.ofEntry f.detailedResponse e, some response⟩), [.stored e now]⟩

/-- One step of a flight; what it does not wait for does nothing. -/
def step (op : FlightOp) : Progress :=
  match f.stage, op with
  | .firstCheck, .check now => f.cacheCheck S sh now .settled (.locking 0)
  | .locking tries, .lock acquired => f.lock sh tries acquired
  | .secondCheck, .check now => f.cacheCheck S sh now .releasing .choosing
  | .choosing, .choose now => f.choose S sh now
  | .refreshing t, .attempt => f.attempt S sh t
  -- `getJSON` tries again when there is no answer
  | .refreshSent t, .attempt => f.attempt S sh t
  | .refreshSent _, .tokenAnswer clock answer => f.refreshAnswer S sh clock answer
  | .authorizing, .authorize x orgIdHint =>
    ⟨sh, f.goTo (.exchanging (.waiting (.iframe f.options x orgIdHint))), [.authorized]⟩
  | .authorizing, .authorizeFailed rejection => f.authorizeFailed S sh rejection
  | .exchanging p, .tokenAnswer clock answer => f.exchangeAnswer S sh p clock answer
  | .storing e response, .store now => f.store S sh e response now
  | .saving o, .save => ⟨{ sh with isAuthenticated := true }, f.goTo (f.leave (.ok o)), []⟩
  | .releasing r, .release => ⟨sh, f.goTo (.settled r), [.unlocked]⟩
  | _, _ => ⟨sh, f, []⟩

/-- The steps of a flight that runs alone. -/
def run (S : Setup) (sh : Shared) (f : Flight) : List FlightOp → Progress
  | [] => ⟨sh, f, []⟩
  | op :: ops =>
    let p := f.step S sh op
    let q := run S p.shared p.flight ops
    ⟨q.shared, q.flight, p.events ++ q.events⟩

/-! ### What a step can do -/

variable {S sh f}

/-- A check that is skipped, one that hits, one that does not. -/
theorem cacheCheck_cases (now : Js.Num) (hit : Settlement → Stage) (next : Stage) :
    (f.ignoreCache = true ∧ f.cacheCheck S sh now hit next = ⟨sh, f.goTo next, []⟩) ∨
    (f.ignoreCache = false ∧ ∃ found : Store × Option Body,
      found = S.manager.get (S.client.requestKey f.options) (.fin 60) now sh.store ∧
      ((∃ e, found.2 = some (.entry e) ∧ e.access_token.truthy = true ∧
          f.cacheCheck S sh now hit next = ⟨{ sh with store := found.1 },
            f.goTo (hit (.ok ⟨.ofEntry f.detailedResponse e, none⟩)), []⟩) ∨
        (¬ Cache.HasAccessToken found.2 ∧
          f.cacheCheck S sh now hit next = ⟨{ sh with store := found.1 }, f.goTo next, []⟩))) := by
  unfold cacheCheck
  cases hi : f.ignoreCache with
  | true => exact Or.inl ⟨rfl, by simp⟩
  | false =>
    refine Or.inr ⟨rfl, _, rfl, ?_⟩
    simp only [Bool.false_eq_true, if_false]
    cases hfound : (S.manager.get (S.client.requestKey f.options) (.fin 60) now sh.store).2 with
    | none => exact Or.inr ⟨id, rfl⟩
    | some body =>
      cases body with
      | refreshOnly r => exact Or.inr ⟨by simp [Cache.HasAccessToken, Body.access_token], rfl⟩
      | entry e =>
        by_cases ht : e.access_token.truthy = true
        · exact Or.inl ⟨e, rfl, ht, by simp only [ht, if_true]⟩
        · exact Or.inr ⟨by simpa [Cache.HasAccessToken, Body.access_token] using ht,
            by simp only [ht, Bool.false_eq_true, if_false]⟩

/-- The refresh token `_getTokenUsingRefreshToken` reads from the cache. -/
def cachedRefreshToken (S : Setup) (sh : Shared) (f : Flight) (now : Js.Num) : Store × Value :=
  let found := S.manager.get (S.client.requestKey (S.client.refreshOptions f.options)) (.fin 0) now
    sh.store
  (found.1, (found.2.map Body.refresh_token).getD .undefined)

/-- The iframe at once, the iframe for want of a refresh token, or a refresh. -/
theorem choose_cases (now : Js.Num) :
    (S.useRefreshTokens = false ∧ f.choose S sh now = ⟨sh, f.goTo .authorizing, []⟩) ∨
    (S.useRefreshTokens = true ∧ ∃ found, found = cachedRefreshToken S sh f now ∧
      ((found.2.truthy = false ∧ S.hasWorker = false ∧
          f.choose S sh now = ⟨{ sh with store := found.1 },
            { f with options := S.client.refreshOptions f.options, stage := .authorizing }, []⟩) ∨
        ((found.2.truthy = true ∨ S.hasWorker = true) ∧
          f.choose S sh now = ⟨{ sh with store := found.1 },
            { f with options := S.client.refreshOptions f.options,
                     stage := .refreshing found.2 }, []⟩))) := by
  unfold choose
  cases hu : S.useRefreshTokens with
  | false => exact Or.inl ⟨rfl, by simp⟩
  | true =>
    refine Or.inr ⟨rfl, _, rfl, ?_⟩
    unfold cachedRefreshToken
    simp only [if_true]
    generalize (Option.map Body.refresh_token _).getD Value.undefined = t
    cases ht : t.truthy <;> cases hw : S.hasWorker <;> simp

/-- A refresh is sent, with the token of the cache or of the worker, or the
worker has none. -/
theorem attempt_cases (refresh_token : Value) :
    f.attempt S sh refresh_token = ⟨sh, f.goTo .authorizing, []⟩ ∨
    ∃ t, f.attempt S sh refresh_token = ⟨sh, f.goTo (.refreshSent refresh_token), [.sent t]⟩ ∧
      ((S.hasWorker = false ∧ t = refresh_token) ∨
        (S.hasWorker = true ∧ Worker.request sh.refreshTokens (workerAudience f.options)
          (f.options.get "scope") refresh_token = some t)) := by
  unfold attempt
  cases hw : S.hasWorker with
  | false => exact Or.inr ⟨refresh_token, by simp, Or.inl ⟨rfl, rfl⟩⟩
  | true =>
    simp only [if_true]
    cases hreq : Worker.request sh.refreshTokens (workerAudience f.options) (f.options.get "scope")
        refresh_token with
    | none => exact Or.inl rfl
    | some t => exact Or.inr ⟨t, rfl, Or.inr ⟨trivial, rfl⟩⟩

theorem plain_leave (f : Flight) (rejection : Rejection) : (f.leave (.error rejection)).Plain := by
  unfold leave
  split <;> trivial

/-- The page sees the response as it came, but for the refresh token, which a
worker keeps. -/
theorem receive_find (json : Obj) {k : String} (hk : k ≠ "refresh_token") :
    (f.receive S sh json).2.find k = json.find k := by
  unfold receive
  split
  · exact Worker.response_find _ _ _ _ hk
  · rfl

theorem receive_get (json : Obj) {k : String} (hk : k ≠ "refresh_token") :
    (f.receive S sh json).2.get k = json.get k := by
  unfold Obj.get
  rw [receive_find json hk]

/-- The worker keeps nothing of a response but its refresh token. -/
theorem receive_store (json : Obj) : (f.receive S sh json).1.store = sh.store := by
  unfold receive
  split
  · rfl
  · rfl

/-- The ways a token request ends with an answer; `finish` makes the entry of an
ok response. -/
inductive Answered (S : Setup) (sh : Shared) (f : Flight)
    (finish : Obj → Except JwtError CacheEntry) (answer : Except String TokenAnswer) :
    Progress → Prop
  | failed {stage : Stage} : stage.Plain → Answered S sh f finish answer ⟨sh, f.goTo stage, []⟩
  | rejected {json : Obj} {stage : Stage} : stage.Plain →
    Answered S sh f finish answer ⟨(f.receive S sh json).1, f.goTo stage, [.received json]⟩
  | loggedOut {json : Obj} {stage : Stage} : stage.Plain →
    Answered S sh f finish answer
      ⟨(f.receive S sh json).1.logout S, f.goTo stage, [.received json]⟩
  | accepted {json : Obj} {e : CacheEntry} : answer = .ok ⟨true, json⟩ →
    finish ((f.receive S sh json).2.without ["error", "error_description"]) = .ok e →
    Answered S sh f finish answer
      ⟨(f.receive S sh json).1, f.goTo (.storing e json), [.received json]⟩

theorem refreshAnswer_answered (clock : Clock) (answer : Except String TokenAnswer) :
    Answered S sh f (S.client.finishRefresh clock f.options) answer
      (f.refreshAnswer S sh clock answer) := by
  unfold refreshAnswer
  cases answer with
  | error message =>
    dsimp only
    split
    · exact .failed trivial
    · exact .failed trivial
  | ok answer =>
    obtain ⟨ok, json⟩ := answer
    dsimp only
    split
    next hok =>
      obtain rfl : ok = true := hok
      split
      next e he => exact .accepted rfl he
      next => exact .rejected trivial
    next =>
      split
      · exact .rejected trivial
      · exact .rejected trivial

theorem exchangeAnswer_answered (p : Pending) (clock : Clock) (answer : Except String TokenAnswer) :
    Answered S sh f (fun r => p.finish S.client S.browser clock r) answer
      (f.exchangeAnswer S sh p clock answer) := by
  unfold exchangeAnswer
  cases answer with
  | error message => exact .failed (plain_leave f _)
  | ok answer =>
    obtain ⟨ok, json⟩ := answer
    dsimp only
    split
    next hok =>
      obtain rfl : ok = true := hok
      split
      next e he => exact .accepted rfl he
      next => exact .rejected (plain_leave f _)
    next =>
      split
      · exact .loggedOut (plain_leave f _)
      · exact .rejected (plain_leave f _)

/-- To show something of every step, show it of the step of each stage. -/
theorem step_elim {P : Progress → Prop} (op : FlightOp) (idle : P ⟨sh, f, []⟩)
    (first : ∀ now, op = .check now → f.stage = .firstCheck →
      P (f.cacheCheck S sh now .settled (.locking 0)))
    (lock : ∀ tries acquired, op = .lock acquired → f.stage = .locking tries →
      P (f.lock sh tries acquired))
    (second : ∀ now, op = .check now → f.stage = .secondCheck →
      P (f.cacheCheck S sh now .releasing .choosing))
    (choose : ∀ now, op = .choose now → f.stage = .choosing → P (f.choose S sh now))
    (attempt : ∀ t, f.stage = .refreshing t ∨ f.stage = .refreshSent t → P (f.attempt S sh t))
    (refreshAnswer : ∀ t clock answer, op = .tokenAnswer clock answer → f.stage = .refreshSent t →
      P (f.refreshAnswer S sh clock answer))
    (authorize : ∀ x orgIdHint, f.stage = .authorizing →
      P ⟨sh, f.goTo (.exchanging (.waiting (.iframe f.options x orgIdHint))), [.authorized]⟩)
    (authorizeFailed : ∀ rejection, f.stage = .authorizing → P (f.authorizeFailed S sh rejection))
    (exchangeAnswer : ∀ p clock answer, op = .tokenAnswer clock answer → f.stage = .exchanging p →
      P (f.exchangeAnswer S sh p clock answer))
    (store : ∀ e response now, f.stage = .storing e response → P (f.store S sh e response now))
    (save : ∀ o, f.stage = .saving o →
      P ⟨{ sh with isAuthenticated := true }, f.goTo (f.leave (.ok o)), []⟩)
    (release : ∀ r, f.stage = .releasing r → P ⟨sh, f.goTo (.settled r), [.unlocked]⟩) :
    P (f.step S sh op) := by
  unfold step
  split
  next now h => exact first now rfl h
  next tries acquired h => exact lock tries acquired rfl h
  next now h => exact second now rfl h
  next now h => exact choose now rfl h
  next t h => exact attempt t (Or.inl h)
  next t h => exact attempt t (Or.inr h)
  next t clock answer h => exact refreshAnswer t clock answer rfl h
  next x orgIdHint h => exact authorize x orgIdHint h
  next rejection h => exact authorizeFailed rejection h
  next p clock answer h => exact exchangeAnswer p clock answer rfl h
  next e response now h => exact store e response now h
  next o h => exact save o h
  next r h => exact release r h
  next => exact idle

end Flight

/-! ## The client -/

/-- A call of `getTokenSilently`, with the flight it waits for. -/
structure Call where
  flight : Nat
  ignoreCache : Bool
  detailedResponse : Bool

/-- A client with its flights, the promises under their keys and the calls made. -/
structure ClientState where
  shared : Shared := {}
  flights : List Flight := []
  promises : OrdMap String Nat := []
  calls : List Call := []
  history : List TokenEvent := []

/-- What can happen to a client. -/
inductive ClientOp where
  | getTokenSilently (options : Obj)
  | login (p : Pending) (audience scope : Value)
  | getUser (options : Obj) (now : Js.Num)
  | logout
  | flight (i : Nat) (op : FlightOp)
  | cleanup (i : Nat)

/-- The flight of a login: `audience` and `scope` are those of its token request. -/
def loginFlight (p : Pending) (audience scope : Value) : Flight :=
  ⟨"", true, [("audience", audience), ("scope", scope)], false, false, .exchanging p⟩

namespace ClientState

variable (S : Setup)

/-- `getTokenSilently`, up to the first check. -/
def getTokenSilently (s : ClientState) (options : Obj) : ClientState :=
  let o := S.client.silentOptions options
  let ignoreCache := (options.get "ignoreCache").truthy
  let detailedResponse := (o.get "detailedResponse").truthy
  let key := S.promiseKey o
  match s.promises.find key with
  | some i => { s with calls := s.calls ++ [⟨i, ignoreCache, detailedResponse⟩] }
  | none =>
    let i := s.flights.length
    { s with
      flights := s.flights ++ [⟨key, false, o, ignoreCache, detailedResponse, .firstCheck⟩]
      promises := s.promises.insert key i
      calls := s.calls ++ [⟨i, ignoreCache, detailedResponse⟩] }

/-- A login, once it has its code. -/
def login (s : ClientState) (p : Pending) (audience scope : Value) : ClientState :=
  { s with
    flights := s.flights ++ [loginFlight p audience scope]
    history := s.history ++ [.authorized] }

/-- `getUser`. -/
def getUser (s : ClientState) (options : Obj) (now : Js.Num) : ClientState × Option ProtoObj :=
  let found := S.manager.get (S.client.userKey options) (.fin 0) now s.shared.store
  ({ s with shared := { s.shared with store := found.1 } },
    (found.2.bind Body.decodedToken).map DecodedToken.user)

/-- The flight `i` has made a step. -/
def advance (s : ClientState) (i : Nat) (p : Progress) : ClientState :=
  { s with
    shared := p.shared, flights := s.flights.set i p.flight, history := s.history ++ p.events }

/-- `finally` in `singlePromise`, which runs once: the promise is then gone. -/
def cleanup (s : ClientState) (i : Nat) (f : Flight) : ClientState :=
  match f.stage with
  | .settled _ =>
    if s.promises.find f.key = some i then { s with promises := s.promises.erase f.key } else s
  | _ => s

/-- One step; only `getUser` answers at once. -/
def step (s : ClientState) (op : ClientOp) : ClientState × Option ProtoObj :=
  match op with
  | .getTokenSilently options => (s.getTokenSilently S options, none)
  | .login p audience scope => (s.login p audience scope, none)
  | .getUser options now => s.getUser S options now
  | .logout => ({ s with shared := s.shared.logout S }, none)
  | .flight i op =>
    match s.flights[i]? with
    | some f => (s.advance i (f.step S s.shared op), none)
    | none => (s, none)
  | .cleanup i =>
    match s.flights[i]? with
    | some f => (s.cleanup i f, none)
    | none => (s, none)

def machine : Machine ClientState ClientOp (Option ProtoObj) where
  step s op := s.step S op

/-! ### Calls and logins step by step -/

theorem step_getTokenSilently (s : ClientState) (options : Obj) :
    ((machine S).step s (.getTokenSilently options)).1 = s.getTokenSilently S options := rfl

/-- A call that starts a flight. -/
theorem getTokenSilently_start {s : ClientState} {options : Obj} {key : String}
    (hkey : S.promiseKey (S.client.silentOptions options) = key)
    (hnone : s.promises.find key = none) :
    s.getTokenSilently S options =
      { s with
        flights := s.flights ++ [⟨key, false, S.client.silentOptions options,
          (options.get "ignoreCache").truthy,
          ((S.client.silentOptions options).get "detailedResponse").truthy, .firstCheck⟩]
        promises := s.promises.insert key s.flights.length
        calls := s.calls ++ [⟨s.flights.length, (options.get "ignoreCache").truthy,
          ((S.client.silentOptions options).get "detailedResponse").truthy⟩] } := by
  unfold getTokenSilently
  dsimp only
  rw [hkey, hnone]

/-- A call that joins one. -/
theorem getTokenSilently_join {s : ClientState} {options : Obj} {i : Nat}
    (hsome : s.promises.find (S.promiseKey (S.client.silentOptions options)) = some i) :
    s.getTokenSilently S options =
      { s with calls := s.calls ++ [⟨i, (options.get "ignoreCache").truthy,
        ((S.client.silentOptions options).get "detailedResponse").truthy⟩] } := by
  unfold getTokenSilently
  dsimp only
  rw [hsome]

theorem run_cons (s : ClientState) (op : ClientOp) (ops : List ClientOp) :
    (machine S).run s (op :: ops) = (machine S).run (s.step S op).1 ops := rfl

/-- A run of the flight that was added last. -/
theorem run_last {i : Nat} {flights : List Flight} (hi : i = flights.length) (sh : Shared)
    (f : Flight) (promises : OrdMap String Nat) (calls : List Call) (history : List TokenEvent)
    (ops : List FlightOp) :
    (machine S).run ⟨sh, flights ++ [f], promises, calls, history⟩ (ops.map (.flight i)) =
      ⟨(f.run S sh ops).shared, flights ++ [(f.run S sh ops).flight], promises, calls,
        history ++ (f.run S sh ops).events⟩ := by
  subst hi
  induction ops generalizing sh f history with
  | nil => simp [Flight.run, Machine.run]
  | cons op ops ih =>
    have hstep : (⟨sh, flights ++ [f], promises, calls, history⟩ : ClientState).step S
        (.flight flights.length op) =
        (⟨(f.step S sh op).shared, flights ++ [(f.step S sh op).flight], promises, calls,
          history ++ (f.step S sh op).events⟩, none) := by
      simp only [step, List.getElem?_concat_length, advance,
        List.set_append_right _ _ (Nat.le_refl _), Nat.sub_self, List.set_cons_zero]
    rw [List.map_cons, run_cons, hstep, ih, Flight.run, List.append_assoc]

variable {S}

/-- The end of a login whose response is accepted. -/
theorem run_login {sh sh' : Shared} {p : Pending} {audience scope : Value} {clock : Clock}
    {json r : Obj} {e : CacheEntry} (now : Js.Num)
    (hreceive : (loginFlight p audience scope).receive S sh json = (sh', r))
    (hfin : p.finish S.client S.browser clock (r.without ["error", "error_description"]) = .ok e) :
    (loginFlight p audience scope).run S sh
        [.tokenAnswer clock (.ok ⟨true, json⟩), .store now, .save] =
      ⟨{ sh' with store := S.manager.set e now sh'.store, isAuthenticated := true },
        (loginFlight p audience scope).goTo (.settled (.ok ⟨.ofEntry false e, some json⟩)),
        [.received json, .stored e now]⟩ := by
  have hanswer : (loginFlight p audience scope).step S sh (.tokenAnswer clock (.ok ⟨true, json⟩)) =
      ⟨sh', (loginFlight p audience scope).goTo (.storing e json), [.received json]⟩ := by
    show Flight.exchangeAnswer S sh _ p clock (.ok ⟨true, json⟩) = _
    simp only [Flight.exchangeAnswer, if_true, hreceive, hfin]
  rw [Flight.run, hanswer]
  simp only [Flight.run, Flight.step, Flight.goTo, Flight.store, Flight.leave, loginFlight,
    List.append_nil, List.singleton_append, if_true]

end ClientState

/-! ## A client for concrete runs -/

def sampleClient (useRefreshTokens : Bool) : AuthokClient where
  options := [("client_id", .str "client"), ("domain", .str "idp"),
    ("useRefreshTokens", .bool useRefreshTokens)]

/-- It has the built-in memory cache. -/
def sampleSetup (useRefreshTokens supportsWorker : Bool) : Setup where
  client := sampleClient useRefreshTokens
  browser := ⟨"https://app", fun _ => []⟩
  cache := ⟨false, false⟩
  supportsWorker := supportsWorker

def sampleClock : Clock := ⟨.fin 1700000000000, .fin 1700000000000⟩

/-- An ID token for it, for the nonce `nonce`. -/
def sampleClaims : IssuedClaims :=
  .lasting "https://idp/" "client" "nonce" "org" (.fin 60) (Js.reads_quote "")

/-- A token response with that ID token. -/
def sampleResponse (access_token : String) (refresh_token : Value) : Obj :=
  [("id_token", .str sampleClaims.token), ("access_token", .str access_token),
    ("expires_in", .num (.fin 86400)), ("refresh_token", refresh_token)]

/-- A popup login that has its code. -/
def sampleLogin : Pending := .waiting (.popup [] ⟨"state", "nonce", "verifier"⟩)

/-- The scope it was for. -/
def sampleScope (useRefreshTokens : Bool) : String :=
  if useRefreshTokens then "openid profile email offline_access" else "openid profile email"

/-- The entry stored for a response to the login. -/
def sampleStored (useRefreshTokens : Bool) (r : Obj) : CacheEntry :=
  entryOf r sampleClaims.decoded (.str "default") (.str (sampleScope useRefreshTokens)) "client"
    (r.get "oauthTokenScope")

theorem sample_verify (u w : Bool) {nonce : Value}
    (hnonce : nonce.truthy = true → nonce = .str "nonce") :
    (sampleSetup u w).client.verifyIdToken sampleClock (.str sampleClaims.token) nonce .undefined =
      .ok sampleClaims.decoded := by
  have hiss : (sampleClient u).tokenIssuer = "https://idp/" := by
    cases u <;> decide
  exact IssuedClaims.verify_token _ rfl hiss (by decide) rfl (by decide) hnonce
    (fun h => by cases h) rfl (fun h => by cases h) (fun h => by cases h)

/-- The login is accepted. -/
theorem sample_finish (u w : Bool) {r : Obj} (hr : r.get "id_token" = .str sampleClaims.token) :
    sampleLogin.finish (sampleSetup u w).client (sampleSetup u w).browser sampleClock r =
      .ok (sampleStored u r) := by
  refine bind_ok_iff.mpr ⟨sampleClaims.decoded, ?_, ?_⟩
  · rw [hr]
    exact sample_verify u w fun _ => rfl
  · have hempty : OrdMap.KeysNodup ([] : Obj) := List.nodup_nil
    have haud : ((sampleClient u).popupParams (sampleSetup u w).browser []
        ⟨"state", "nonce", "verifier"⟩).get "audience" = .undefined := by
      unfold AuthokClient.popupParams
      rw [getParams_audience hempty]
      rfl
    have hscope : ((sampleClient u).popupParams (sampleSetup u w).browser []
        ⟨"state", "nonce", "verifier"⟩).get "scope" = .str (sampleScope u) := by
      unfold AuthokClient.popupParams
      rw [getParams_scope]
      cases u <;> exact congrArg Value.str (by decide)
    show Except.ok (entryOf r _ (((sampleClient u).popupParams _ _ _).get "audience" |>.or _)
      (((sampleClient u).popupParams _ _ _).get "scope") _ _) = _
    rw [haud, hscope]
    rfl

/-- The steps of the login, with its token response. -/
def sampleLoginOps (useRefreshTokens : Bool) (json : Obj) : List ClientOp :=
  .login sampleLogin .undefined (.str (sampleScope useRefreshTokens)) ::
    [.tokenAnswer sampleClock (.ok ⟨true, json⟩), .store sampleClock.nowProvider, .save].map
      (.flight 0)

/-- The client after the login; `sh` and `r` are what the worker and the page
have of the response. -/
def sampleState (S : Setup) (useRefreshTokens : Bool) (sh : Shared) (json r : Obj) :
    ClientState where
  shared :=
    { sh with
      store := S.manager.set (sampleStored useRefreshTokens r) sampleClock.nowProvider sh.store
      isAuthenticated := true }
  flights := [(loginFlight sampleLogin .undefined (.str (sampleScope useRefreshTokens))).goTo
    (.settled (.ok ⟨.ofEntry false (sampleStored useRefreshTokens r), some json⟩))]
  history := [.authorized, .received json,
    .stored (sampleStored useRefreshTokens r) sampleClock.nowProvider]

theorem run_sampleLogin (u w : Bool) {json r : Obj} {sh : Shared}
    (hreceive : (loginFlight sampleLogin .undefined (.str (sampleScope u))).receive
      (sampleSetup u w) {} json = (sh, r))
    (hr : (r.without ["error", "error_description"]) = r)
    (htoken : r.get "id_token" = .str sampleClaims.token) :
    (ClientState.machine (sampleSetup u w)).run {} (sampleLoginOps u json) =
      sampleState (sampleSetup u w) u sh json r := by
  have hfin : sampleLogin.finish (sampleSetup u w).client (sampleSetup u w).browser sampleClock
      (r.without ["error", "error_description"]) = .ok (sampleStored u r) := by
    rw [hr]
    exact sample_finish u w htoken
  unfold sampleLoginOps
  rw [ClientState.run_cons]
  show (ClientState.machine _).run ⟨{}, [] ++ [_], [], [], [.authorized]⟩ _ = _
  rw [@ClientState.run_last (sampleSetup u w) 0 [] rfl, ClientState.run_login _ hreceive hfin]
  rfl

end AuthokSpa
