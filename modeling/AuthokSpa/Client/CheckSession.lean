import AuthokSpa.Client.Calls

/-!
# When the session is checked (`AuthokClient.ts`)

`checkSession` asks for a token only if a cookie tells it that there may be a
session, and swallows the errors an application has to expect at its start. A
visit is a client's data and the cookies of its origin, which other clients use,
too; its methods run one after the other.

Over any run of a visit, `checkSession` is a silent token request while the client is
marked as logged in and nothing otherwise (`checkSession_heeds`). And it is nothing
from the moment the server has said in the iframe that a login is required until
tokens are stored again (`login_required_silences`).
-/

namespace AuthokSpa

open Js (Value Obj)

/-- `RECOVERABLE_ERRORS`. -/
def RECOVERABLE_ERRORS : List String :=
  ["login_required", "consent_required", "interaction_required", "account_selection_required",
    "access_denied"]

/-! ## A login is required -/

namespace Flight

variable {S : Setup} {sh : Shared} {f : Flight}

/-- Where a flight without refresh tokens may stand: it ends with `login_required`
only when it has logged out. -/
def SoundStage (isAuthenticated : Bool) : Stage → Prop
  | .refreshing _ => False
  | .refreshSent _ => False
  | .releasing (.error .loginRequired) => isAuthenticated = false
  | .settled (.error .loginRequired) => isAuthenticated = false
  | _ => True

structure Sound (sh : Shared) (f : Flight) : Prop where
  isLogin : f.isLogin = false
  stage : SoundStage sh.isAuthenticated f.stage

theorem Sound.goTo (h : f.Sound sh) {sh' : Shared} {stage : Stage}
    (hstage : SoundStage sh'.isAuthenticated stage) : (f.goTo stage).Sound sh' :=
  ⟨h.isLogin, hstage⟩

theorem Sound.leave (h : f.Sound sh) (r : Settlement) : f.leave r = .releasing r := by
  unfold Flight.leave
  rw [h.isLogin]
  rfl

theorem Sound.cacheCheck (h : f.Sound sh) (now : Js.Num) {hit : Settlement → Stage} {next : Stage}
    (hhit : ∀ b o, SoundStage b (hit (.ok o))) (hnext : ∀ b, SoundStage b next) :
    (f.cacheCheck S sh now hit next).flight.Sound (f.cacheCheck S sh now hit next).shared := by
  rcases @cacheCheck_cases S sh f now hit next with
    ⟨-, hp⟩ | ⟨-, found, -, ⟨e, -, -, hp⟩ | ⟨-, hp⟩⟩
  · rw [hp]
    exact h.goTo (hnext _)
  · rw [hp]
    exact h.goTo (hhit _ _)
  · rw [hp]
    exact h.goTo (hnext _)

theorem Sound.exchangeAnswer (h : f.Sound sh) (p : Pending) (clock : Clock)
    (answer : Except String TokenAnswer) :
    (f.exchangeAnswer S sh p clock answer).flight.Sound
      (f.exchangeAnswer S sh p clock answer).shared := by
  unfold Flight.exchangeAnswer
  simp only [h.leave]
  cases answer with
  | error message => exact h.goTo trivial
  | ok answer =>
    dsimp only
    split
    · split
      · exact h.goTo trivial
      · exact h.goTo trivial
    · split
      · exact h.goTo rfl
      next hne =>
        rw [h.isLogin] at hne
        cases hr : rejectionOf (f.receive S sh answer.json).2 with
        | loginRequired => exact absurd (by rw [hr]; rfl) hne
        | other => exact h.goTo trivial

theorem Sound.step (huse : S.useRefreshTokens = false) (h : f.Sound sh) (op : FlightOp) :
    (f.step S sh op).flight.Sound (f.step S sh op).shared := by
  refine step_elim (P := fun p => p.flight.Sound p.shared) op h ?_ ?_ ?_ ?_ ?_ ?_ ?_ ?_ ?_ ?_ ?_ ?_
  · intro now _ _
    exact h.cacheCheck now (fun _ _ => trivial) fun _ => trivial
  · intro tries acquired _ _
    unfold Flight.lock
    split
    · exact h.goTo trivial
    · split
      · exact h.goTo trivial
      · exact h.goTo trivial
  · intro now _ _
    exact h.cacheCheck now (fun _ _ => trivial) fun _ => trivial
  · intro now _ _
    unfold Flight.choose
    rw [if_neg (ne_true_of_eq_false huse)]
    exact h.goTo trivial
  · intro t hstage
    have hstands := h.stage
    rcases hstage with hstage | hstage
    · rw [hstage] at hstands
      exact hstands.elim
    · rw [hstage] at hstands
      exact hstands.elim
  · intro t clock answer _ hstage
    have hstands := h.stage
    rw [hstage] at hstands
    exact hstands.elim
  · intro x orgIdHint _
    exact h.goTo trivial
  · intro rejection _
    unfold Flight.authorizeFailed
    cases rejection with
    | loginRequired => exact h.goTo rfl
    | other => exact h.goTo trivial
  · intro p clock answer _ _
    exact h.exchangeAnswer p clock answer
  · intro e response now _
    exact h.goTo trivial
  · intro o _
    rw [h.leave]
    exact h.goTo trivial
  · intro r hstage
    have hstands := h.stage
    rw [hstage] at hstands
    cases r with
    | ok o => exact h.goTo trivial
    | error rejection =>
      cases rejection with
      | loginRequired => exact h.goTo hstands
      | other => exact h.goTo trivial

theorem Sound.run (huse : S.useRefreshTokens = false) (ops : List FlightOp) :
    ∀ {sh f}, Sound sh f → (f.run S sh ops).flight.Sound (f.run S sh ops).shared := by
  induction ops with
  | nil => exact fun h => h
  | cons op ops ih => exact fun h => ih (h.step huse op)

end Flight

/-- A call that finds no session ends one. -/
theorem Calls.login_required_marks {S : Setup} {w : Surroundings} {t t' : Tab} {call : Obj}
    (huse : S.useRefreshTokens = false)
    (hr : Calls.getTokenSilently S w (S.silentFlight call).options (S.silentFlight call).ignoreCache
      (S.silentFlight call).detailedResponse t = .error (.rejected (.str "login_required")) t') :
    Calls.marked true t'.moments = false := by
  obtain ⟨ops, halike⟩ := Calls.alike_of_ends (f := S.silentFlight call)
    (@Calls.getTokenSilently_ends S w true (S.silentFlight call) t _ rfl rfl)
  rw [hr] at halike
  obtain ⟨hagree, hstage⟩ := halike
  have hstart : (S.silentFlight call).Sound (Calls.shared true t) := ⟨rfl, trivial⟩
  have hsound := hstart.run huse ops
  have hstands := hsound.stage
  rw [hstage, hagree.shared] at hstands
  exact hstands

/-- A visit to a page, with one client in view. The history is not part of the
program: it has all moments at which the cookies were touched. -/
structure Visit (σ : Type) where
  cookies : σ
  tab : Tab
  history : List (AuthokClient × CookieCall)

/-- What is done on a page: other clients use their cookies, a login ends, and the
client's methods are called. -/
inductive VisitOp where
  | other (client : AuthokClient) (call : CookieCall)
  | login (e : CacheEntry) (now : Js.Num) (cookieNow : ℚ)
  | logout
  | getTokenSilently (w : Surroundings) (call : Obj)
  | checkSession (w : Surroundings) (now : ℚ) (call : Obj)

namespace Visit

variable {σ : Type} (C : AuthokClient → ClientStorage σ) (S : Setup)

/-- The cookies are touched at these moments. -/
def touch (p : Visit σ) (moments : List (AuthokClient × CookieCall)) : Visit σ :=
  { p with
    cookies := (sessionCookies C).run p.cookies moments
    history := p.history ++ moments }

/-- A method of the client has run and left this tab. -/
def leave (p : Visit σ) (t : Tab) : Visit σ :=
  { p.touch C (t.moments.map fun m => (S.client, m)) with tab := { t with moments := [] } }

/-- A method of the client runs. -/
def perform {α : Type} (p : Visit σ) (x : CallM α) : Visit σ × Except Unresolved α :=
  match x { p.tab with moments := [] } with
  | .ok a t => (p.leave C S t, .ok a)
  | .error reason t => (p.leave C S t, .error reason)

/-- The end of a login: the entry is stored and the session marked. -/
def finishLogin (e : CacheEntry) (now : Js.Num) (cookieNow : ℚ) : CallM Unit := do
  modifyGet fun t => ((), { t with store := S.manager.set e now t.store })
  Calls.touchCookies (.authenticated cookieNow)
  Calls.touchCookies (.processOrgIdHint (e.decodedToken.claims.get "org_id") cookieNow)

/-- `getTokenSilently`. -/
def request (p : Visit σ) (w : Surroundings) (call : Obj) : Visit σ × Except Unresolved Outcome :=
  let f := S.silentFlight call
  p.perform C S (Calls.getTokenSilently S w f.options f.ignoreCache f.detailedResponse)

/-- The `catch` of `checkSession`. -/
def recovered : Except Unresolved Outcome → Except Unresolved Unit
  | .ok _ => .ok ()
  | .error .pending => .error .pending
  | .error (.rejected error) =>
    if RECOVERABLE_ERRORS.any fun code => error.strictEq (.str code) then .ok ()
    else .error (.rejected error)

/-- `checkSession`. -/
def checkSession (p : Visit σ) (w : Surroundings) (now : ℚ) (call : Obj) :
    Visit σ × Except Unresolved Unit :=
  let q := p.touch C [(S.client, .checkSession now)]
  match (S.client.checkCookies (C S.client) p.cookies now).2 with
  -- a cookie that is not JSON
  | none => (q, .error (.rejected .undefined))
  | some goesOn =>
    if goesOn.truthy then
      let r := q.request C S w call
      (r.1, recovered r.2)
    else (q, .ok ())

def step (p : Visit σ) : VisitOp → Visit σ
  | .other client call => p.touch C [(client, call)]
  | .login e now cookieNow => (p.perform C S (finishLogin S e now cookieNow)).1
  | .logout => (p.perform C S (Calls.logoutLocally S)).1
  | .getTokenSilently w call => (p.request C S w call).1
  | .checkSession w now call => (p.checkSession C S w now call).1

def machine : Machine (Visit σ) VisitOp Unit where
  step p op := (p.step C S op, ())

/-- A page that has just been opened. -/
def opened (cookies : σ) (t : Tab) : Visit σ := ⟨cookies, t, []⟩

/-! ## What a page keeps -/

variable {C S} {x : σ} {p : Visit σ}

/-- The cookies are what the moments so far have made of them. -/
def Kept (C : AuthokClient → ClientStorage σ) (x : σ) (p : Visit σ) : Prop :=
  p.cookies = (sessionCookies C).run x p.history

theorem Kept.touch (h : Kept C x p) (moments : List (AuthokClient × CookieCall)) :
    Kept C x (p.touch C moments) := by
  show (sessionCookies C).run p.cookies moments = (sessionCookies C).run x (p.history ++ moments)
  rw [Machine.run_append, show p.cookies = _ from h]

theorem Kept.leave (h : Kept C x p) (t : Tab) : Kept C x (p.leave C S t) := h.touch _

theorem Kept.perform {α : Type} (h : Kept C x p) (y : CallM α) :
    Kept C x (p.perform C S y).1 := by
  unfold Visit.perform
  split
  · exact h.leave _
  · exact h.leave _

theorem Kept.checkSession (h : Kept C x p) (w : Surroundings) (now : ℚ) (call : Obj) :
    Kept C x (p.checkSession C S w now call).1 := by
  unfold Visit.checkSession
  dsimp only
  split
  · exact h.touch _
  · split
    · exact (h.touch _).perform _
    · exact h.touch _

theorem Kept.step (h : Kept C x p) (op : VisitOp) : Kept C x (p.step C S op) := by
  cases op with
  | other client call => exact h.touch _
  | login e now cookieNow => exact h.perform _
  | logout => exact h.perform _
  | getTokenSilently w call => exact h.perform _
  | checkSession w now call => exact h.checkSession w now call

theorem Kept.run (ops : List VisitOp) (t : Tab) :
    Kept C x ((machine C S).run (opened x t) ops) :=
  Machine.run_guarded (M := machine C S) (C := fun _ _ => True)
    (fun _ op h _ => h.step op) ops _ rfl (Machine.meets_of_forall _ _ fun _ _ _ => trivial)

/-! ## `checkSession` -/

section Checked

variable {ok : StorageOp → Prop} {sees : Value → Bool} {R : σ → StoredValues → Prop}

/-- The client is marked as logged in, by these moments. -/
def Marked (S : Setup) (history : List (AuthokClient × CookieCall)) (now : ℚ) : Prop :=
  (lastOf mark S.client.client_id history).any (fun b => b.inForce now) = true

/-- What a method does does not depend on the moments before it. -/
theorem perform_touch {α : Type} (p : Visit σ) (moments : List (AuthokClient × CookieCall))
    (y : CallM α) :
    ((p.touch C moments).perform C S y).1.tab = (p.perform C S y).1.tab ∧
      ((p.touch C moments).perform C S y).2 = (p.perform C S y).2 := by
  unfold perform
  rw [show (p.touch C moments).tab = p.tab from rfl]
  cases y { p.tab with moments := [] } with
  | ok a t => exact ⟨rfl, rfl⟩
  | error reason t => exact ⟨rfl, rfl⟩

/-- A check of the cookies after a run finds the mark of the session. -/
theorem checkCookies_run (hC : (C S.client).Refines ok sees R)
    (hsees : ∀ v : Value, v.truthy = true → sees v = true)
    (hx : Stands R S.client.client_id x none none) (t : Tab) (ops : List VisitOp) {now : ℚ}
    (hhistory : ∀ op ∈ ((machine C S).run (opened x t) ops).history, Suits C S.client ok R op)
    (hcheck : ∀ o ∈ S.client.storageOps (.checkSession now), ok o) :
    (S.client.checkCookies (C S.client) ((machine C S).run (opened x t) ops).cookies now).2 =
      some (.bool ((lastOf mark S.client.client_id
        ((machine C S).run (opened x t) ops).history).any fun b => b.inForce now)) := by
  rw [show ((machine C S).run (opened x t) ops).cookies = _ from Kept.run ops t]
  exact checks_eq hC hsees hhistory hx hcheck

theorem checkSession_unmarked {w : Surroundings} {now : ℚ} {call : Obj}
    (h : (S.client.checkCookies (C S.client) p.cookies now).2 = some (.bool false)) :
    (p.checkSession C S w now call).1.tab = p.tab ∧ (p.checkSession C S w now call).2 = .ok () := by
  unfold checkSession
  rw [h]
  exact ⟨rfl, rfl⟩

/-- **`checkSession` heeds the mark of the session.** For a client with one of the
SDK's caches, on a page without the cookie of older versions, after any run, it does what
a silent request does if the last time the client stored a token or logged out it stored
one, not longer ago than its days; otherwise it sends nothing, touches no token, and
resolves. -/
theorem checkSession_heeds (_hcache : S.hasCustomCache = false)
    (hC : (C S.client).Refines ok sees R) (hsees : ∀ v : Value, v.truthy = true → sees v = true)
    (hx : Stands R S.client.client_id x none none) (t : Tab) (ops : List VisitOp)
    (w : Surroundings) {now : ℚ} (call : Obj)
    (hhistory : ∀ op ∈ ((machine C S).run (opened x t) ops).history, Suits C S.client ok R op)
    (hcheck : ∀ o ∈ S.client.storageOps (.checkSession now), ok o) :
    let p := (machine C S).run (opened x t) ops
    (Marked S p.history now →
      (p.checkSession C S w now call).1.tab = (p.request C S w call).1.tab ∧
        (p.checkSession C S w now call).2 = recovered (p.request C S w call).2) ∧
    (¬ Marked S p.history now →
      (p.checkSession C S w now call).1.tab = p.tab ∧ (p.checkSession C S w now call).2 = .ok ()) := by
  intro p
  have hgoes := checkCookies_run hC hsees hx t ops hhistory hcheck
  constructor
  · intro hmarked
    rw [show Option.any _ _ = true from hmarked] at hgoes
    unfold checkSession
    rw [hgoes]
    obtain ⟨htab, hanswer⟩ := perform_touch (C := C) (S := S) p [(S.client, .checkSession now)]
      (Calls.getTokenSilently S w (S.silentFlight call).options (S.silentFlight call).ignoreCache
        (S.silentFlight call).detailedResponse)
    exact ⟨htab, congrArg recovered hanswer⟩
  · intro hunmarked
    rw [show Option.any _ _ = false from Bool.eq_false_iff.mpr hunmarked] at hgoes
    exact checkSession_unmarked hgoes

/-- The moments of a method that ends the session end it. -/
theorem lastSaid_of_marked {c : AuthokClient} {moments : List CookieCall}
    (h : Calls.marked true moments = false) : Machine.lastSaid (mark c) moments = some none := by
  have hmarks : Machine.lastSaid Calls.marks (moments.map id) =
      (Machine.lastSaid (mark c) moments).map Option.isSome := by
    refine Machine.lastSaid_map (fun m => ?_) moments
    cases m with
    | authenticated now => rfl
    | processOrgIdHint organizationId now => rfl
    | logout => rfl
    | checkSession now => rfl
    | orgIdHint now => rfl
  rw [List.map_id] at hmarks
  unfold Calls.marked at h
  rw [hmarks] at h
  cases hsaid : Machine.lastSaid (mark c) moments with
  | none => rw [hsaid] at h; cases h
  | some b =>
    cases b with
    | none => rfl
    | some b => rw [hsaid] at h; cases h

/-- Only a stored token marks the session. -/
theorem stored_of_mark {c : AuthokClient} {call : CookieCall} {b : Expiring.Binding Value ℚ}
    (h : mark c call = some (some b)) : ∃ now, call = .authenticated now := by
  cases call with
  | authenticated now => exact ⟨now, rfl⟩
  | processOrgIdHint organizationId now => cases h
  | logout => cases h
  | checkSession now => cases h
  | orgIdHint now => cases h

/-- The end of the session lasts as long as no token is stored. -/
theorem not_marked {history more : List (AuthokClient × CookieCall)} {moments : List CookieCall}
    (h : Calls.marked true moments = false)
    (hmore : ∀ m ∈ more, m.1.client_id = S.client.client_id → ∀ now, m.2 ≠ .authenticated now)
    (now : ℚ) : ¬ Marked S (history ++ moments.map (fun m => (S.client, m)) ++ more) now := by
  intro hmarked
  unfold Marked lastOf at hmarked
  set said : AuthokClient × CookieCall → Option (Option (Expiring.Binding Value ℚ)) :=
    fun op => if op.1.client_id = S.client.client_id then mark op.1 op.2 else none with hsaid
  obtain ⟨b, hb, -⟩ := (Option.any_eq_true _ _).mp hmarked
  rw [Option.join_eq_some_iff, Machine.lastSaid_append] at hb
  rcases Option.or_eq_some_iff.mp hb with hlate | ⟨-, hearly⟩
  · obtain ⟨m, hm, hsays⟩ := Machine.exists_of_lastSaid hlate
    rw [hsaid] at hsays
    dsimp only at hsays
    split at hsays
    next hid =>
      obtain ⟨now', hnow'⟩ := stored_of_mark hsays
      exact hmore m hm hid now' hnow'
    next => cases hsays
  · -- the method itself has ended the session
    have hmoments : Machine.lastSaid said (moments.map fun m => (S.client, m)) = some none := by
      have hsays : ∀ m, said (S.client, m) = (mark S.client m).map id := by
        intro m
        simp [hsaid]
      rw [Machine.lastSaid_map hsays moments, lastSaid_of_marked h]
      rfl
    rw [Machine.lastSaid_append, hmoments] at hearly
    cases hearly

theorem perform_of_error {α : Type} {p : Visit σ} {y : CallM α} {reason : Unresolved} {t' : Tab}
    (h : y { p.tab with moments := [] } = .error reason t') :
    p.perform C S y = (p.leave C S t', .error reason) := by
  unfold perform
  rw [h]

theorem perform_error {α : Type} {p : Visit σ} {y : CallM α} {reason : Unresolved}
    (h : (p.perform C S y).2 = .error reason) :
    ∃ t', y { p.tab with moments := [] } = .error reason t' ∧
      (p.perform C S y).1 = p.leave C S t' := by
  unfold perform at h ⊢
  cases hr : y { p.tab with moments := [] } with
  | ok a t' =>
    rw [hr] at h
    cases h
  | error reason' t' =>
    rw [hr] at h
    cases h
    exact ⟨t', rfl, rfl⟩

/-- **`login_required` silences `checkSession`.** For a client with one of the SDK's
caches that uses no refresh tokens, on a page without the cookie of older versions: once a
silent request was rejected because the server wants a login, `checkSession` sends nothing
and resolves, whatever happens on the page, until this client stores tokens. -/
theorem login_required_silences (_hcache : S.hasCustomCache = false)
    (hC : (C S.client).Refines ok sees R)
    (hsees : ∀ v : Value, v.truthy = true → sees v = true)
    (hx : Stands R S.client.client_id x none none) (t : Tab) (huse : S.useRefreshTokens = false)
    (ops later : List VisitOp) (w w' : Surroundings) {now : ℚ} (call call' : Obj) :
    let p := (machine C S).run (opened x t) ops
    let r := p.request C S w call
    let q := (machine C S).run r.1 later
    r.2 = .error (.rejected (.str "login_required")) →
    ∀ more, q.history = r.1.history ++ more →
    (∀ m ∈ more, m.1.client_id = S.client.client_id → ∀ now, m.2 ≠ .authenticated now) →
    (∀ op ∈ q.history, Suits C S.client ok R op) →
    (∀ o ∈ S.client.storageOps (.checkSession now), ok o) →
    (q.checkSession C S w' now call').1.tab = q.tab ∧
      (q.checkSession C S w' now call').2 = .ok () := by
  intro p r q hrequired more hmore hstores hhistory hcheck
  have hreached : (machine C S).run (opened x t) (ops ++ .getTokenSilently w call :: later) = q := by
    rw [Machine.run_append, Machine.run_cons]
    rfl
  have hgoes := checkCookies_run hC hsees hx t (ops ++ .getTokenSilently w call :: later)
    (by rw [hreached]; exact hhistory) hcheck
  obtain ⟨t', hr, hleave⟩ := perform_error hrequired
  have hunmarked : ¬ Marked S q.history now := by
    rw [hmore, show r.1 = _ from hleave]
    exact not_marked (Calls.login_required_marks huse hr) hstores now
  rw [hreached, show Option.any _ _ = false from Bool.eq_false_iff.mpr hunmarked] at hgoes
  exact checkSession_unmarked hgoes

end Checked

/-! ### A page in a context where iframes do not work -/

def isolatedSetup : Setup where
  client := clientNamed "a"
  browser := ⟨"https://app.example", fun _ => []⟩
  cache := ⟨true, true⟩
  supportsWorker := false

def zeros : RandomValues := ⟨List.replicate 43 0, rfl⟩

/-- Nothing but the lock is there. -/
def isolated : Surroundings where
  firstNow := .fin 0
  acquireLock _ := true
  secondNow := .fin 0
  refreshNow := .fin 0
  resent := 0
  refreshAnswer _ := none
  draws := ⟨zeros, zeros, zeros⟩
  orgIdHint := .undefined
  crossOriginIsolated := true
  events := []
  exchangeAnswer _ := none
  clock := ⟨.fin 0, .fin 0⟩
  storeNow := .fin 0
  cookieNow := 0

theorem isolated_rejected (t : Tab) :
    Calls.getTokenFromIFrame isolatedSetup isolated
        (isolatedSetup.silentFlight []).options t =
      .error (.rejected (.str "login_required")) (Calls.loggedOut isolatedSetup t) := by
  have hurl : ∀ o, isolatedSetup.client.authorizeUrl o = some _ := fun o => by
    unfold AuthokClient.authorizeUrl
    rw [show isolatedSetup.client.options.get "authokClient" = .undefined from rfl,
      clientInfo_undefined]
    rfl
  unfold Calls.getTokenFromIFrame
  rw [hurl]
  rfl

/-- A page without anything. -/
def empty : Visit (Expiring.Store String String ℚ) := opened Expiring.empty ⟨{}, [], [], []⟩

/-- What the request leaves behind. -/
def isolatedTab : Tab :=
  let t := Calls.loggedOut isolatedSetup ⟨{}, [], [], [.locked]⟩
  { t with log := t.log ++ [.unlocked] }

theorem isolated_request :
    empty.request oldBrowserCookies isolatedSetup isolated [] =
      (empty.leave oldBrowserCookies isolatedSetup isolatedTab,
        .error (.rejected (.str "login_required"))) := by
  have hlook : ∀ log now, Calls.lookUp isolatedSetup (isolatedSetup.silentFlight []).options false
      false now ⟨{}, [], [], log⟩ = .ok none ⟨{}, [], [], log⟩ := fun _ _ => rfl
  have hunder : Calls.underLock isolatedSetup isolated (isolatedSetup.silentFlight []).options false
      false ⟨{}, [], [], [.locked]⟩ = .error (.rejected (.str "login_required"))
        (Calls.loggedOut isolatedSetup ⟨{}, [], [], [.locked]⟩) := by
    unfold Calls.underLock
    rw [Follow.bind_ok (hlook _ _)]
    exact Follow.bind_error (isolated_rejected _)
  have hcall : Calls.getTokenSilently isolatedSetup isolated (isolatedSetup.silentFlight []).options
      false false ⟨{}, [], [], []⟩ = .error (.rejected (.str "login_required")) isolatedTab := by
    unfold Calls.getTokenSilently
    rw [Follow.bind_ok (hlook _ _)]
    exact Calls.releasing_rejected hunder
  exact perform_of_error (C := oldBrowserCookies) (S := isolatedSetup) (p := empty) hcall

theorem isolated_history : ∀ op ∈ ((machine oldBrowserCookies isolatedSetup).run
    (empty.request oldBrowserCookies isolatedSetup isolated []).1 [.logout]).history,
      Suits oldBrowserCookies (clientNamed "a") (FitsOld (clientNamed "a"))
        (ShowsOld (clientNamed "a")) op := by
  rw [isolated_request]
  intro op hop
  have hlogout : op = (isolatedSetup.client, .logout) := by
    rcases List.mem_cons.mp hop with hfirst | hrest
    · exact hfirst
    · exact List.mem_singleton.mp hrest
  rw [hlogout]
  exact suits_named "a" "a" trivial

/-- The page is told to log in, logs out, and looks for a session. -/
theorem login_required_sample :
    let r := empty.request oldBrowserCookies isolatedSetup isolated []
    let q := (machine oldBrowserCookies isolatedSetup).run r.1 [.logout]
    (q.checkSession oldBrowserCookies isolatedSetup isolated 20 []).1.tab = q.tab ∧
      (q.checkSession oldBrowserCookies isolatedSetup isolated 20 []).2 = .ok () := by
  refine login_required_silences (S := isolatedSetup) rfl (clientNamed_refines "a")
    (cookiesSee_truthy rfl) (stands_empty_old "a") _ rfl [] [.logout] isolated isolated [] []
    (congrArg Prod.snd isolated_request) [(isolatedSetup.client, .logout)] rfl
    (fun m hm _ now => ?_) isolated_history (clientNamed_fit "a" trivial)
  rw [List.mem_singleton.mp hm]
  exact fun h => by cases h

/-- A login, another client that logs in and looks, a logout, and a second login. -/
def sampleVisit : List VisitOp :=
  [.login (Cache.sampleEntry "openid" 100 .undefined) (.fin 0) 0,
    .other (plainNamed "b") (.authenticated 5), .logout,
    .other (plainNamed "b") (.checkSession 10),
    .login (Cache.sampleEntry "openid" 100 .undefined) (.fin 15) 15]

theorem sampleVisit_history :
    ∀ op ∈ ((machine oldBrowserCookies isolatedSetup).run empty sampleVisit).history,
      Suits oldBrowserCookies (clientNamed "a") (FitsOld (clientNamed "a"))
        (ShowsOld (clientNamed "a")) op := by
  have hhistory : ((machine oldBrowserCookies isolatedSetup).run empty sampleVisit).history =
      [(clientNamed "a", .authenticated 0), (clientNamed "a", .processOrgIdHint .undefined 0),
        (plainNamed "b", .authenticated 5), (clientNamed "a", .logout),
        (plainNamed "b", .checkSession 10), (clientNamed "a", .authenticated 15),
        (clientNamed "a", .processOrgIdHint .undefined 15)] := rfl
  rw [hhistory]
  have hnone : CookieCall.Json (.processOrgIdHint .undefined 0) := fun h => by cases h
  have hnone' : CookieCall.Json (.processOrgIdHint .undefined 15) := fun h => by cases h
  simp only [List.forall_mem_cons]
  exact ⟨suits_named "a" "a" trivial, suits_named "a" "a" hnone, suits_plain (by decide) trivial,
    suits_named "a" "a" trivial, suits_plain (by decide) trivial, suits_named "a" "a" trivial,
    suits_named "a" "a" hnone', fun op h => by cases h⟩

theorem checkSession_sample :
    let p := (machine oldBrowserCookies isolatedSetup).run empty sampleVisit
    (Marked isolatedSetup p.history 20 →
      (p.checkSession oldBrowserCookies isolatedSetup isolated 20 []).1.tab =
          (p.request oldBrowserCookies isolatedSetup isolated []).1.tab ∧
        (p.checkSession oldBrowserCookies isolatedSetup isolated 20 []).2 =
          recovered (p.request oldBrowserCookies isolatedSetup isolated []).2) ∧
    (¬ Marked isolatedSetup p.history 20 →
      (p.checkSession oldBrowserCookies isolatedSetup isolated 20 []).1.tab = p.tab ∧
        (p.checkSession oldBrowserCookies isolatedSetup isolated 20 []).2 = .ok ()) :=
  checkSession_heeds (S := isolatedSetup) rfl (clientNamed_refines "a") (cookiesSee_truthy rfl)
    (stands_empty_old "a") _ sampleVisit isolated [] sampleVisit_history
    (clientNamed_fit "a" trivial)

end Visit

end AuthokSpa
