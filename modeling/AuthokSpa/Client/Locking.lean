import AuthokSpa.Client.Silent
import AuthokSpa.LockLog

/-!
# One token request per miss (`AuthokClient.ts`)

Clients in any number of pages share one cache and one lock, and run
`_getTokenSilently` for the same client id, audience and scope. Each run is a
`Flight`; the steps of all of them interleave in any order, and other
operations on the cache may come in between. A step of a flight is a move of
`LockLog`, so the rules there say what a run can be told from its history: a
call that makes a token request has looked into the cache under the lock since
anything was acquired, and found no access token.

That the entry of the earlier acquisition was there to be found, under the same
key, depends on the token responses: the entry of a silent request is
`{ client_id, ...authResult }`, so a response with a `client_id` of its own is
stored for another client.
-/

namespace AuthokSpa

open Js (Value Obj)
open Cache (Store CacheKey)

/-- The phase of a flight in its locked section. -/
def Stage.phase : Stage → LockLog.Phase
  | .firstCheck => .waiting
  | .locking _ => .waiting
  | .secondCheck => .checking
  | .choosing => .fetching
  | .refreshing _ => .fetching
  | .refreshSent _ => .fetching
  | .authorizing => .fetching
  | .exchanging _ => .fetching
  | .storing _ _ => .fetching
  | .saving _ => .closing
  | .releasing _ => .closing
  | .settled _ => .finished

/-- Where an exception thrown at the current `await` leads: the lock is given
back in `finally`. -/
def Stage.rejected : Stage → Stage
  | .firstCheck => .settled (.error .other)
  | .locking _ => .settled (.error .other)
  | .releasing r => .releasing r
  | .settled r => .settled r
  | _ => .releasing (.error .other)

/-- A cache check under the lock: the store it looks into and the time. -/
structure Lookout where
  store : Store
  now : Js.Num

/-- An entry stored, with the store after. -/
structure Acquisition where
  entry : CacheEntry
  now : Js.Num
  store : Store

abbrev LockEvent := LockLog.Event Lookout Acquisition

/-- What an event of a flight is for the lock. -/
def TokenEvent.lockEvents (after : Store) : TokenEvent → List LockEvent
  | .locked => [.locked]
  | .unlocked => [.unlocked]
  | .authorized => [.requested]
  | .sent _ => [.requested]
  | .received _ => []
  | .stored e now => [.acquired ⟨e, now, after⟩]

/-- What a step of a flight adds to the history of the lock. -/
def observe (sh : Shared) (f : Flight) (op : FlightOp) (p : Progress) : List LockEvent :=
  match f.stage, op, p.flight.stage with
  | .secondCheck, .check now, .choosing => [.missed ⟨sh.store, now⟩]
  | _, _, _ => p.events.flatMap (TokenEvent.lockEvents p.shared.store)

/-! ## Pages -/

/-- A client in its page, with what the page does not share. -/
structure Page where
  setup : Setup
  refreshTokens : RefreshTokens := []
  isAuthenticated : Bool := false

/-- What the flights of the page see. -/
def Page.shared (p : Page) (store : Store) : Shared := ⟨store, p.refreshTokens, p.isAuthenticated⟩

def Page.update (p : Page) (sh : Shared) : Page :=
  { p with refreshTokens := sh.refreshTokens, isAuthenticated := sh.isAuthenticated }

/-- The start of `_getTokenSilently`. -/
def Page.flight (p : Page) (options : Obj) : Flight :=
  let o := p.setup.client.silentOptions options
  ⟨p.setup.promiseKey o, false, o, (options.get "ignoreCache").truthy,
    (o.get "detailedResponse").truthy, .firstCheck⟩

/-- Pages with their calls, each with its page. -/
structure Pages where
  store : Store := {}
  pages : List Page := []
  calls : List (Nat × Flight) := []
  history : List (Nat × LockEvent) := []

inductive PagesOp where
  | load (setup : Setup)
  | call (page : Nat) (options : Obj)
  | flight (i : Nat) (op : FlightOp)
  /-- The call `i` meets an exception. -/
  | reject (i : Nat)
  /-- Any other operation on the cache. -/
  | other (store : Store)

namespace Pages

def callAt (s : Pages) (i : Nat) : Option (Nat × Page × Flight) :=
  s.calls[i]?.bind fun c => s.pages[c.1]?.map fun p => (c.1, p, c.2)

def advance (s : Pages) (i page : Nat) (p : Page) (f : Flight) (op : FlightOp) : Pages :=
  let q := f.step p.setup (p.shared s.store) op
  { store := q.shared.store
    pages := s.pages.set page (p.update q.shared)
    calls := s.calls.set i (page, q.flight)
    history := s.history ++ (observe (p.shared s.store) f op q).map (Prod.mk i) }

def step (s : Pages) (op : PagesOp) : Pages :=
  match op with
  | .load setup => { s with pages := s.pages ++ [{ setup := setup }] }
  | .call page options =>
    match s.pages[page]? with
    | some p => { s with calls := s.calls ++ [(page, p.flight options)] }
    | none => s
  | .flight i op =>
    match s.callAt i with
    | some (page, p, f) => s.advance i page p f op
    | none => s
  | .reject i =>
    match s.calls[i]? with
    | some (page, f) => { s with calls := s.calls.set i (page, f.goTo f.stage.rejected) }
    | none => s
  | .other store => { s with store := store }

def machine : Machine Pages PagesOp Unit where
  step s op := (s.step op, ())

/-! ## Conditions on steps -/

/-- The calls are for the key `K`, without `ignoreCache`. -/
def SameKey (K : CacheKey) (s : Pages) : PagesOp → Prop
  | .call page options => ∀ p, s.pages[page]? = some p →
    AudienceTyped p.setup.client options ∧ p.setup.client.userKey options = K ∧
      (options.get "ignoreCache").truthy = false
  | _ => True

/-- `acquireLock` succeeds only when no call has the lock. -/
def Exclusive (s : Pages) : PagesOp → Prop
  | .flight _ (.lock true) => ∀ c ∈ s.calls, c.2.stage.phase.holds = false
  | _ => True

/-- A token response that names a client names the one that asked. -/
def OwnClientId (s : Pages) : PagesOp → Prop
  | .flight i (.tokenAnswer _ (.ok answer)) => ∀ page p f, s.callAt i = some (page, p, f) →
    ∀ v, answer.json.find "client_id" = some v → v.text = p.setup.client.client_id
  | _ => True

end Pages

/-! ## A step is a move -/

/-- The entry is in the store, whole. -/
def Acquisition.HeldBy (a : Acquisition) (store : Store) : Prop :=
  (store.get (CacheKey.ofEntry a.entry).toKey).map Cache.Cell.value =
    some (.wrapped (Cache.wrapCacheEntry a.entry a.now))

/-- What a miss says: nothing under `K` is good for another minute. -/
def Lookout.Miss (K : CacheKey) (l : Lookout) : Prop :=
  ∀ c, l.store.get K.toKey = some c → ¬ c.value.Live (.fin 60) l.now

/-- What was acquired for `K` is in the store under `K`. -/
def Acquisition.Got (K : CacheKey) (a : Acquisition) : Prop :=
  CacheKey.ofEntry a.entry = K ∧ a.HeldBy a.store

abbrev KeyMove (K : CacheKey) : LockLog.Phase → List LockEvent → LockLog.Phase → Prop :=
  LockLog.Move (Lookout.Miss K) (Acquisition.Got K)

/-- A flight of the calls in question. -/
structure Flight.For (K : CacheKey) (S : Setup) (f : Flight) : Prop where
  isLogin : f.isLogin = false
  ignoreCache : f.ignoreCache = false
  call : ∃ call, AudienceTyped S.client call ∧ S.client.userKey call = K ∧
    Merged S.client call f.options
  exchanging : ∀ p, f.stage = .exchanging p →
    ∃ x orgIdHint, p = .waiting (.iframe f.options x orgIdHint)
  storing : ∀ e response, f.stage = .storing e response → CacheKey.ofEntry e = K

/-- Nothing is known of a stage that carries no exchange and no entry. -/
def Stage.Bare : Stage → Prop
  | .exchanging _ => False
  | .storing _ _ => False
  | _ => True

theorem Stage.Bare.exchanging {stage : Stage} {P : Pending → Prop} (h : stage.Bare) :
    ∀ p, stage = .exchanging p → P p := by
  rintro p rfl
  exact h.elim

theorem Stage.Bare.storing {stage : Stage} {P : CacheEntry → Prop} (h : stage.Bare) :
    ∀ e response, stage = .storing e response → P e := by
  rintro e response rfl
  exact h.elim

namespace Flight

variable {K : CacheKey} {S : Setup} {sh : Shared} {f : Flight}

theorem For.goTo (h : f.For K S) {stage : Stage} (hs : stage.Bare) : (f.goTo stage).For K S :=
  ⟨h.isLogin, h.ignoreCache, h.call, hs.exchanging, hs.storing⟩

theorem For.requestKey (h : f.For K S) : S.client.requestKey f.options = K := by
  obtain ⟨call, htyped, hK, hm⟩ := h.call
  rw [hm.requestKey htyped, hK]

theorem For.leave (h : f.For K S) (r : Settlement) : f.leave r = .releasing r := by
  unfold Flight.leave
  rw [h.isLogin]
  rfl

/-- The manifest of the client is not under a key of its own. -/
theorem For.manifestKey_ne (h : f.For K S) (cid : String)
    (hcid : S.manager.keyManifest = some cid) : Cache.manifestKey cid ≠ K.toKey := by
  obtain ⟨call, -, rfl, -⟩ := h.call
  exact Cache.manifestKey_ne_toKey (k := S.client.userKey call) rfl (Setup.keyManifest_eq hcid)

/-- The entry made of a response that names no other client. -/
theorem entry_key {finish : Obj → Except JwtError CacheEntry}
    (hfinish : ∀ r e, finish r = .ok e → S.client.silentClientId r = S.client.client_id →
      CacheKey.ofEntry e = K)
    {json : Obj} {e : CacheEntry}
    (hown : ∀ v, json.find "client_id" = some v → v.text = S.client.client_id)
    (he : finish ((f.receive S sh json).2.without ["error", "error_description"]) = .ok e) :
    CacheKey.ofEntry e = K := by
  refine hfinish _ e he ?_
  unfold AuthokClient.silentClientId
  rw [Js.Obj.find_without (by decide), receive_find json (by decide)]
  cases hv : json.find "client_id" with
  | none => rfl
  | some v => exact hown v hv

/-- A request that fails does not skip the release of the lock. -/
theorem refreshAnswer_unsettled (clock : Clock) (answer : Except String TokenAnswer)
    (r : Settlement) : (f.refreshAnswer S sh clock answer).flight.stage ≠ .settled r := by
  unfold refreshAnswer
  cases answer with
  | error message =>
    dsimp only
    split <;> exact (fun h => nomatch h)
  | ok answer =>
    dsimp only
    split
    · split <;> exact (fun h => nomatch h)
    · split <;> exact (fun h => nomatch h)

theorem For.exchangeAnswer_unsettled (h : f.For K S) (p : Pending) (clock : Clock)
    (answer : Except String TokenAnswer) (r : Settlement) :
    (f.exchangeAnswer S sh p clock answer).flight.stage ≠ .settled r := by
  unfold Flight.exchangeAnswer
  simp only [h.leave]
  cases answer with
  | error message => exact (fun h => nomatch h)
  | ok answer =>
    dsimp only
    split
    · split <;> exact (fun h => nomatch h)
    · split <;> exact (fun h => nomatch h)

/-- What a step must come to: a flight of the same calls, by a move. -/
def Moved (K : CacheKey) (S : Setup) (sh : Shared) (f : Flight) (op : FlightOp) (p : Progress) :
    Prop :=
  p.flight.For K S ∧ KeyMove K f.stage.phase (observe sh f op p) p.flight.stage.phase

/-- Outside the second check, the history gets the events of the step. -/
theorem observe_eq {op : FlightOp} {p : Progress} (h : f.stage ≠ .secondCheck) :
    observe sh f op p = p.events.flatMap (TokenEvent.lockEvents p.shared.store) := by
  unfold observe
  split
  next hstage _ => exact absurd hstage h
  next => rfl

/-- A step to a plain stage that is not the end, with nothing but a response to
record. -/
theorem moved_plain {op : FlightOp} {sh' : Shared} {stage : Stage} {events : List TokenEvent}
    (h : f.For K S) (hphase : f.stage.phase = .fetching) (hplain : stage.Plain)
    (hlock : ∀ r, stage ≠ .settled r)
    (hevents : events.flatMap (TokenEvent.lockEvents sh'.store) = []) :
    Moved K S sh f op ⟨sh', f.goTo stage, events⟩ := by
  have hne : f.stage ≠ .secondCheck := by
    intro he
    rw [he] at hphase
    cases hphase
  unfold Moved
  rw [observe_eq hne, hevents, hphase]
  cases stage with
  | authorizing => exact ⟨h.goTo (by trivial), .stay⟩
  | releasing r => exact ⟨h.goTo (by trivial), .close rfl⟩
  | settled r => exact absurd rfl (hlock r)
  | _ => exact hplain.elim

/-- The end of a token request. -/
theorem moved_answered {op : FlightOp} {finish : Obj → Except JwtError CacheEntry}
    {answer : Except String TokenAnswer} {p : Progress} (h : f.For K S)
    (hphase : f.stage.phase = .fetching)
    (hfinish : ∀ r e, finish r = .ok e → S.client.silentClientId r = S.client.client_id →
      CacheKey.ofEntry e = K)
    (hown : ∀ json, answer = .ok ⟨true, json⟩ →
      ∀ v, json.find "client_id" = some v → v.text = S.client.client_id)
    (hlock : ∀ r, p.flight.stage ≠ .settled r) (ha : Answered S sh f finish answer p) :
    Moved K S sh f op p := by
  cases ha with
  | failed hplain => exact moved_plain h hphase hplain hlock rfl
  | rejected hplain => exact moved_plain h hphase hplain hlock rfl
  | loggedOut hplain => exact moved_plain h hphase hplain hlock rfl
  | accepted hok he =>
    have hkey := entry_key hfinish (hown _ hok) he
    have hne : f.stage ≠ .secondCheck := by
      intro he
      rw [he] at hphase
      cases hphase
    refine ⟨⟨h.isLogin, h.ignoreCache, h.call, fun p hp => (nomatch hp), ?_⟩, ?_⟩
    · intro e' r hstage
      obtain ⟨rfl, -⟩ := Stage.storing.inj hstage
      exact hkey
    · rw [observe_eq hne, hphase]
      exact .stay

/-- A check that finds no access token finds nothing of use under `K`. -/
theorem For.miss (h : f.For K S) {now : Js.Num}
    (hmiss : ¬ Cache.HasAccessToken
      (S.manager.get (S.client.requestKey f.options) (.fin 60) now sh.store).2) :
    Lookout.Miss K ⟨sh.store, now⟩ := by
  intro c hc hlive
  refine hmiss (Cache.hasAccessToken_get_iff.mpr ⟨c, ?_, hlive⟩)
  unfold Cache.Manager.findEntry
  rw [h.requestKey, hc]

/-- A check moves on or ends the flight, without events. -/
theorem For.moved_first (h : f.For K S) {op : FlightOp} (now : Js.Num)
    (hstage : f.stage = .firstCheck) :
    Moved K S sh f op (f.cacheCheck S sh now .settled (.locking 0)) := by
  unfold Moved
  rw [observe_eq (by rw [hstage]; exact (fun h => nomatch h)), hstage]
  rcases @cacheCheck_cases S sh f now .settled (.locking 0) with
    ⟨hi, -⟩ | ⟨-, found, -, ⟨e, -, -, heq⟩ | ⟨-, heq⟩⟩
  · rw [h.ignoreCache] at hi
    cases hi
  · rw [heq]
    exact ⟨h.goTo (by trivial), .quit⟩
  · rw [heq]
    exact ⟨h.goTo (by trivial), .stay⟩

theorem For.moved_second (h : f.For K S) (now : Js.Num) (hstage : f.stage = .secondCheck) :
    Moved K S sh f (.check now) (f.cacheCheck S sh now .releasing .choosing) := by
  unfold Moved observe
  rw [hstage]
  rcases @cacheCheck_cases S sh f now .releasing .choosing with
    ⟨hi, -⟩ | ⟨-, found, rfl, ⟨e, -, -, heq⟩ | ⟨hmiss, heq⟩⟩
  · rw [h.ignoreCache] at hi
    cases hi
  · rw [heq]
    exact ⟨h.goTo (by trivial), .close rfl⟩
  · rw [heq]
    exact ⟨h.goTo (by trivial), .miss (h.miss hmiss)⟩

theorem For.moved_lock (h : f.For K S) {op : FlightOp} {tries : Nat} (acquired : Bool)
    (hstage : f.stage = .locking tries) : Moved K S sh f op (f.lock sh tries acquired) := by
  unfold Moved
  rw [observe_eq (by rw [hstage]; exact (fun h => nomatch h)), hstage]
  unfold Flight.lock
  split
  · exact ⟨h.goTo (by trivial), .lock⟩
  · split
    · exact ⟨h.goTo (by trivial), .stay⟩
    · exact ⟨h.goTo (by trivial), .quit⟩

/-- The refresh changes the options, but not what they are for. -/
theorem For.refreshOptions (h : f.For K S) {stage : Stage} (hs : stage.Bare) :
    For K S { f with options := S.client.refreshOptions f.options, stage := stage } := by
  obtain ⟨call, htyped, hK, hm⟩ := h.call
  exact ⟨h.isLogin, h.ignoreCache, ⟨call, htyped, hK, hm.refreshOptions⟩, hs.exchanging, hs.storing⟩

theorem For.moved_choose (h : f.For K S) {op : FlightOp} (now : Js.Num)
    (hstage : f.stage = .choosing) : Moved K S sh f op (f.choose S sh now) := by
  unfold Moved
  rw [observe_eq (by rw [hstage]; exact (fun h => nomatch h)), hstage]
  rcases @choose_cases S sh f now with
    ⟨-, heq⟩ | ⟨-, found, -, ⟨-, -, heq⟩ | ⟨-, heq⟩⟩
  · rw [heq]
    exact ⟨h.goTo (by trivial), .stay⟩
  · rw [heq]
    exact ⟨h.refreshOptions (by trivial), .stay⟩
  · rw [heq]
    exact ⟨h.refreshOptions (by trivial), .stay⟩

theorem For.moved_attempt (h : f.For K S) {op : FlightOp} {t : Value}
    (hstage : f.stage = .refreshing t ∨ f.stage = .refreshSent t) :
    Moved K S sh f op (f.attempt S sh t) := by
  have hphase : f.stage.phase = .fetching := by rcases hstage with h | h <;> rw [h] <;> rfl
  have hne : f.stage ≠ .secondCheck := by rcases hstage with h | h <;> rw [h] <;> simp
  rcases @attempt_cases S sh f t with heq | ⟨t', heq, -⟩
  · rw [heq]
    exact moved_plain h hphase trivial (fun r hr => nomatch hr) rfl
  · unfold Moved
    rw [heq, observe_eq hne, hphase]
    exact ⟨h.goTo (by trivial), .request⟩

theorem For.moved_store (h : f.For K S) {op : FlightOp} {e : CacheEntry} {response : Obj}
    (now : Js.Num) (hstage : f.stage = .storing e response) :
    Moved K S sh f op (f.store S sh e response now) := by
  have hkey := h.storing e response hstage
  have hget : (S.manager.set e now sh.store).get (CacheKey.ofEntry e).toKey =
      some ⟨sh.store.next, .wrapped (Cache.wrapCacheEntry e now)⟩ :=
    Cache.Manager.set_get rfl (by rw [hkey]; exact h.manifestKey_ne) now sh.store
  unfold Moved
  rw [observe_eq (by rw [hstage]; exact (fun h => nomatch h)), hstage]
  refine ⟨h.goTo (by trivial), .acquire ⟨hkey, ?_⟩⟩
  unfold Acquisition.HeldBy
  dsimp only [Flight.store]
  rw [hget]
  rfl

/-- Every step of such a flight is a move. -/
theorem For.moved (h : f.For K S) {op : FlightOp}
    (hown : ∀ clock json, op = .tokenAnswer clock (.ok ⟨true, json⟩) →
      ∀ v, json.find "client_id" = some v → v.text = S.client.client_id) :
    Moved K S sh f op (f.step S sh op) := by
  obtain ⟨call, htyped, hK, hm⟩ := h.call
  apply @step_elim S sh f _ op
  case idle =>
    -- a step that does nothing is not observed either: the second check is no idle step
    refine ⟨h, ?_⟩
    unfold observe
    split
    next now hs hc =>
      rw [hs] at hc
      cases hc
    next => exact .stay
  case first => exact fun now _ hstage => h.moved_first now hstage
  case lock => exact fun tries acquired _ hstage => h.moved_lock acquired hstage
  case second =>
    rintro now rfl hstage
    exact h.moved_second now hstage
  case choose => exact fun now _ hstage => h.moved_choose now hstage
  case attempt => exact fun t hstage => h.moved_attempt hstage
  case refreshAnswer =>
    rintro t clock answer rfl hstage
    refine moved_answered h (by rw [hstage]; rfl) ?_ ?_ (refreshAnswer_unsettled clock answer)
      (refreshAnswer_answered clock answer)
    · -- the entry goes under the key of the call, unless the response names another client
      intro r e he hid
      rw [finishRefresh_key htyped hm hid he, hK]
    · rintro json rfl
      exact hown clock json rfl
  case authorize =>
    intro x orgIdHint hstage
    unfold Moved
    rw [observe_eq (by rw [hstage]; exact (fun h => nomatch h)), hstage]
    refine ⟨⟨h.isLogin, h.ignoreCache, h.call, ?_, fun e r hp => (nomatch hp)⟩, .request⟩
    intro p hp
    exact ⟨x, orgIdHint, (Stage.exchanging.inj hp).symm⟩
  case authorizeFailed =>
    exact fun rejection hstage =>
      moved_plain h (by rw [hstage]; rfl) (by trivial) (fun r hr => nomatch hr) rfl
  case exchangeAnswer =>
    rintro p clock answer rfl hstage
    obtain ⟨x, orgIdHint, rfl⟩ := h.exchanging p hstage
    refine moved_answered h (by rw [hstage]; rfl) ?_ ?_
      (h.exchangeAnswer_unsettled _ clock answer) (exchangeAnswer_answered _ clock answer)
    · intro r e he hid
      rw [finishIframe_key htyped hm hid he, hK]
    · rintro json rfl
      exact hown clock json rfl
  case store => exact fun e response now hstage => h.moved_store now hstage
  case save =>
    intro o hstage
    unfold Moved
    rw [observe_eq (by rw [hstage]; exact (fun h => nomatch h)), hstage, h.leave]
    exact ⟨h.goTo (by trivial), .stay⟩
  case release =>
    intro r hstage
    unfold Moved
    rw [observe_eq (by rw [hstage]; exact (fun h => nomatch h)), hstage]
    exact ⟨h.goTo (by trivial), .release⟩

/-- An exception, too. -/
theorem For.moved_rejected (h : f.For K S) :
    (f.goTo f.stage.rejected).For K S ∧ KeyMove K f.stage.phase [] f.stage.rejected.phase := by
  cases hstage : f.stage with
  | firstCheck => exact ⟨h.goTo (by trivial), .quit⟩
  | locking n => exact ⟨h.goTo (by trivial), .quit⟩
  | settled r => exact ⟨h.goTo (by trivial), .stay⟩
  | _ => exact ⟨h.goTo (by trivial), .close rfl⟩

end Flight

/-! ## Runs -/

namespace Pages

/-- The phases of the calls. -/
def phases (s : Pages) : List LockLog.Phase := s.calls.map fun c => c.2.stage.phase

/-- All calls are for `K`, and the history is that of their locked sections. -/
structure Inv (K : CacheKey) (s : Pages) : Prop where
  calls : ∀ c ∈ s.calls, ∃ p, s.pages[c.1]? = some p ∧ c.2.For K p.setup
  ledger : LockLog.Ledger (Lookout.Miss K) (Acquisition.Got K) s.phases s.history

/-- What is asked of a step. -/
def Allowed (K : CacheKey) (s : Pages) (op : PagesOp) : Prop :=
  (SameKey K s op ∧ Exclusive s op) ∧ OwnClientId s op

variable {K : CacheKey} {s : Pages}

theorem callAt_some {i page : Nat} {p : Page} {f : Flight} (h : s.callAt i = some (page, p, f)) :
    s.calls[i]? = some (page, f) ∧ s.pages[page]? = some p := by
  obtain ⟨c, hc, h⟩ := Option.bind_eq_some_iff.mp h
  obtain ⟨p', hp, h⟩ := Option.map_eq_some_iff.mp h
  obtain ⟨j, g⟩ := c
  obtain ⟨hj, h⟩ := Prod.mk.inj h
  obtain ⟨rfl, hg⟩ := Prod.mk.inj h
  dsimp only at hj hg hp
  subst hj hg
  exact ⟨hc, hp⟩

theorem phases_getElem? {i page : Nat} {f : Flight} (h : s.calls[i]? = some (page, f)) :
    s.phases[i]? = some f.stage.phase := by
  unfold phases
  rw [List.getElem?_map, h]
  rfl

/-- A flight comes inside only by the lock. -/
theorem lock_of_holds {S : Setup} {sh : Shared} {f : Flight} {op : FlightOp}
    (hphase : f.stage.phase = .waiting)
    (hq : (f.step S sh op).flight.stage.phase.holds = true) : op = .lock true := by
  cases hstage : f.stage with
  | firstCheck =>
    cases op with
    | check now =>
      -- a check settles the call or comes to the lock
      have hstep : f.step S sh (.check now) = f.cacheCheck S sh now .settled (.locking 0) := by
        unfold Flight.step
        rw [hstage]
      rw [hstep] at hq
      rcases @Flight.cacheCheck_cases S sh f now .settled (.locking 0) with
        ⟨-, heq⟩ | ⟨-, found, -, ⟨e, -, -, heq⟩ | ⟨-, heq⟩⟩ <;> rw [heq] at hq <;> cases hq
    | _ => simp [Flight.step, hstage, Stage.phase, LockLog.Phase.holds] at hq
  | locking tries =>
    cases op with
    | lock acquired =>
      cases acquired with
      | true => rfl
      | false =>
        have hstep : f.step S sh (.lock false) = f.lock sh tries false := by
          unfold Flight.step
          rw [hstage]
        rw [hstep] at hq
        unfold Flight.lock at hq
        rw [if_neg (by simp)] at hq
        split at hq <;> cases hq
    | _ => simp [Flight.step, hstage, Stage.phase, LockLog.Phase.holds] at hq
  | _ => simp [hstage, Stage.phase] at hphase

theorem getElem?_pages {page : Nat} {p : Page} (hp : s.pages[page]? = some p) (q : Page)
    (hsetup : q.setup = p.setup) {j : Nat} {r : Page} (hr : s.pages[j]? = some r) :
    ∃ r', (s.pages.set page q)[j]? = some r' ∧ r'.setup = r.setup := by
  by_cases hj : page = j
  · subst hj
    obtain rfl : p = r := by
      rw [hp] at hr
      exact Option.some.inj hr
    exact ⟨q, List.getElem?_set_self (List.getElem?_eq_some_iff.mp hp).1, hsetup⟩
  · exact ⟨r, by rw [List.getElem?_set_ne hj]; exact hr, rfl⟩

theorem Inv.advance (h : Inv K s) {i page : Nat} {p : Page} {f : Flight} {op : FlightOp}
    (hcall : s.callAt i = some (page, p, f)) (hallow : Allowed K s (.flight i op)) :
    Inv K (s.advance i page p f op) := by
  obtain ⟨hi, hp⟩ := callAt_some hcall
  obtain ⟨p', hp', hf⟩ := h.calls _ (List.mem_of_getElem? hi)
  obtain rfl : p = p' := by
    rw [hp] at hp'
    exact Option.some.inj hp'
  -- a token response of this call names no other client
  have hmoved := @Flight.For.moved _ _ (p.shared s.store) _ hf op (by
    rintro clock json rfl v hv
    exact hallow.2 page p f hcall v hv)
  refine ⟨?_, ?_⟩
  · intro c hc
    rcases List.mem_or_eq_of_mem_set hc with hold | rfl
    · obtain ⟨r, hr, hfor⟩ := h.calls c hold
      obtain ⟨r', hr', hsetup⟩ := getElem?_pages hp (p.update _) rfl hr
      exact ⟨r', hr', by rw [hsetup]; exact hfor⟩
    · obtain ⟨r', hr', hsetup⟩ := getElem?_pages hp (p.update _) rfl hp
      exact ⟨r', hr', by rw [hsetup]; exact hmoved.1⟩
  · -- a call that comes inside does so by the lock, which excludes the others
    have hstep := h.ledger.move (phases_getElem? hi) hmoved.2 (by
      intro hwait hq j r hj
      obtain rfl := lock_of_holds hwait hq
      unfold phases at hj
      rw [List.getElem?_map] at hj
      obtain ⟨c, hc, rfl⟩ := Option.map_eq_some_iff.mp hj
      exact hallow.1.2 c (List.mem_of_getElem? hc))
    unfold Pages.advance phases
    rw [List.map_set]
    exact hstep

theorem Inv.reject (h : Inv K s) {i page : Nat} {f : Flight} (hi : s.calls[i]? = some (page, f)) :
    Inv K { s with calls := s.calls.set i (page, f.goTo f.stage.rejected) } := by
  obtain ⟨p, hp, hf⟩ := h.calls _ (List.mem_of_getElem? hi)
  obtain ⟨hfor, hmove⟩ := hf.moved_rejected
  refine ⟨?_, ?_⟩
  · intro c hc
    rcases List.mem_or_eq_of_mem_set hc with hold | rfl
    · exact h.calls c hold
    · exact ⟨p, hp, hfor⟩
  · -- an exception leads outside, or keeps the call where it is
    have hstep := h.ledger.move (phases_getElem? hi) hmove (by
      intro hwait hq
      cases hstage : f.stage with
      | firstCheck =>
        rw [hstage] at hq
        cases hq
      | locking n =>
        rw [hstage] at hq
        cases hq
      | _ =>
        rw [hstage] at hwait
        cases hwait)
    rw [List.map_nil, List.append_nil] at hstep
    unfold phases
    rw [List.map_set]
    exact hstep

/-- One step. -/
theorem Inv.step (h : Inv K s) {op : PagesOp} (hallow : Allowed K s op) : Inv K (s.step op) := by
  cases op with
  | load setup =>
    refine ⟨?_, h.ledger⟩
    intro c hc
    obtain ⟨p, hp, hf⟩ := h.calls c hc
    exact ⟨p, List.getElem?_append_left (List.getElem?_eq_some_iff.mp hp).1 ▸ hp, hf⟩
  | call page options =>
    unfold Pages.step
    dsimp only
    split
    next p hp =>
      -- a new call waits, with options for the key
      obtain ⟨htyped, hK, hignore⟩ := hallow.1.1 p hp
      refine ⟨?_, ?_⟩
      · intro c hc
        rcases List.mem_append.mp hc with hold | hnew
        · exact h.calls c hold
        · obtain rfl := List.mem_singleton.mp hnew
          exact ⟨p, hp, rfl, hignore, ⟨options, htyped, hK, merged_silent htyped.distinct⟩,
            fun p hp => (nomatch hp), fun e r hp => (nomatch hp)⟩
      · unfold phases
        rw [List.map_append]
        exact h.ledger.join
    next => exact h
  | flight i op =>
    unfold Pages.step
    dsimp only
    split
    next page p f hcall => exact h.advance hcall hallow
    next => exact h
  | reject i =>
    unfold Pages.step
    dsimp only
    split
    next page f hi => exact h.reject hi
    next => exact h
  | other store => exact ⟨h.calls, h.ledger⟩

theorem run_inv {ops : List PagesOp} (h : machine.Meets (Allowed K) {} ops) :
    Inv K (machine.run {} ops) :=
  Machine.run_guarded (P := Inv K) (fun _ _ hs hallow => hs.step hallow) ops {}
    ⟨fun _ hc => (nomatch hc), LockLog.Ledger.start⟩ h

end Pages

/-- An entry that was acquired and is missed later is gone from its key, has no
access token or is about to expire. -/
theorem Acquisition.Got.missed {K : CacheKey} {a : Acquisition} {l : Lookout} (ha : a.Got K)
    (hl : l.Miss K) :
    ¬ a.HeldBy l.store ∨ a.entry.access_token.truthy = false ∨
      (Cache.wrapCacheEntry a.entry a.now).expired (.fin 60) l.now := by
  by_cases hheld : a.HeldBy l.store
  · unfold Acquisition.HeldBy at hheld
    obtain ⟨c, hc, hv⟩ := Option.map_eq_some_iff.mp hheld
    rw [ha.1] at hc
    have hdead := hl c hc
    rw [hv] at hdead
    by_cases ht : a.entry.access_token.truthy = true
    · refine Or.inr (Or.inr (not_not.mp fun hlive => hdead ⟨ht, hlive⟩))
    · exact Or.inr (Or.inl (by simpa using ht))
  · exact Or.inl hheld

/-- **One token request per miss.** In a run of calls for one key, whose token
responses name no other client, under a lock that excludes: between an
acquisition and any later request or acquisition, the call that makes it has
looked into the cache under the lock, and the entry acquired (which was in the
store) was no longer there, or had no access token, or was within 60 seconds of
its expiry. Each call has taken and given back the lock as often as its phase
says. -/
theorem one_request_per_miss {K : CacheKey} {ops : List PagesOp}
    (h : Pages.machine.Meets (Pages.Allowed K) {} ops) :
    (∀ before j a between i e after,
      (Pages.machine.run {} ops).history =
        before ++ (j, .acquired a) :: between ++ (i, e) :: after → e.fetches = true →
      a.HeldBy a.store ∧ ∃ l : Lookout, (i, .missed l) ∈ between ∧
        (¬ a.HeldBy l.store ∨ a.entry.access_token.truthy = false ∨
          (Cache.wrapCacheEntry a.entry a.now).expired (.fin 60) l.now)) ∧
    (∀ i c, (Pages.machine.run {} ops).calls[i]? = some c →
      LockLog.Balanced (LockLog.locks i (Pages.machine.run {} ops).history)
        (LockLog.unlocks i (Pages.machine.run {} ops).history) (some c.2.stage.phase)) := by
  have hinv := Pages.run_inv h
  constructor
  · intro before j a between i e after hcut he
    have hgot : a.Got K := by
      rw [List.append_assoc] at hcut
      exact hinv.ledger.got hcut
    obtain ⟨l, hmem, hmiss⟩ := hinv.ledger.miss_between hcut he
    exact ⟨hgot.2, l, hmem, hgot.missed hmiss⟩
  · intro i c hc
    obtain ⟨page, f⟩ := c
    have hb := hinv.ledger.balanced i
    rw [Pages.phases_getElem? hc] at hb
    exact hb

/-! ## Two calls in one page -/

namespace Flight

/-- What the steps of a flight add to the history of the lock. -/
def observed (S : Setup) (sh : Shared) (f : Flight) : List FlightOp → List LockEvent
  | [] => []
  | op :: ops =>
    let p := f.step S sh op
    observe sh f op p ++ observed S p.shared p.flight ops

end Flight

namespace Pages

/-- A run of the call that was made last, in the only page. -/
theorem run_last {i : Nat} {calls : List (Nat × Flight)} (hi : i = calls.length) (p : Page)
    (store : Store) (f : Flight) (history : List (Nat × LockEvent)) (ops : List FlightOp) :
    machine.run ⟨store, [p], calls ++ [(0, f)], history⟩ (ops.map (.flight i)) =
      ⟨(f.run p.setup (p.shared store) ops).shared.store,
        [p.update (f.run p.setup (p.shared store) ops).shared],
        calls ++ [(0, (f.run p.setup (p.shared store) ops).flight)],
        history ++ (f.observed p.setup (p.shared store) ops).map (Prod.mk i)⟩ := by
  subst hi
  induction ops generalizing p store f history with
  | nil => simp [Flight.run, Flight.observed, Machine.run, Page.shared, Page.update]
  | cons op ops ih =>
    have hcall : (⟨store, [p], calls ++ [(0, f)], history⟩ : Pages).callAt calls.length =
        some (0, p, f) := by
      unfold callAt
      rw [List.getElem?_concat_length]
      rfl
    have hstep : (⟨store, [p], calls ++ [(0, f)], history⟩ : Pages).step
        (.flight calls.length op) =
        ⟨(f.step p.setup (p.shared store) op).shared.store,
          [p.update (f.step p.setup (p.shared store) op).shared],
          calls ++ [(0, (f.step p.setup (p.shared store) op).flight)],
          history ++ (observe (p.shared store) f op (f.step p.setup (p.shared store) op)).map
            (Prod.mk calls.length)⟩ := by
      simp only [step, hcall, advance, List.set_cons_zero,
        List.set_append_right _ _ (Nat.le_refl _), Nat.sub_self]
    have hrun : machine.run ⟨store, [p], calls ++ [(0, f)], history⟩
        (.flight calls.length op :: ops.map (.flight calls.length)) =
        machine.run ((⟨store, [p], calls ++ [(0, f)], history⟩ : Pages).step
          (.flight calls.length op)) (ops.map (.flight calls.length)) := rfl
    have hshared : (p.update (f.step p.setup (p.shared store) op).shared).shared
        (f.step p.setup (p.shared store) op).shared.store =
        (f.step p.setup (p.shared store) op).shared := rfl
    have hsetup : (p.update (f.step p.setup (p.shared store) op).shared).setup = p.setup := rfl
    rw [List.map_cons, hrun, hstep, ih, hsetup, hshared, Flight.run, Flight.observed,
      List.map_append, List.append_assoc]
    rfl

/-- The steps of one call: only the lock needs to be free. -/
theorem meets_exclusive {i : Nat} {calls : List (Nat × Flight)} (hi : i = calls.length) (p : Page)
    (store : Store) {f : Flight} (history : List (Nat × LockEvent)) {now : Js.Num}
    {ops : List FlightOp} (hcalls : ∀ c ∈ calls, c.2.stage.phase.holds = false)
    (hf : f.stage = .firstCheck) (hops : .lock true ∉ ops) :
    machine.Meets Exclusive ⟨store, [p], calls ++ [(0, f)], history⟩
      ((.check now :: .lock true :: ops).map (.flight i)) := by
  have hrest : ∀ op ∈ ops.map (PagesOp.flight i), ∀ s : Pages, Exclusive s op := by
    intro op hop s
    obtain ⟨op', hop', rfl⟩ := List.mem_map.mp hop
    cases op' with
    | lock acquired =>
      cases acquired with
      | true => exact absurd hop' hops
      | false => trivial
    | _ => trivial
  refine ⟨trivial, ?_, machine.meets_of_forall _ hrest⟩
  have hrun := run_last hi p store f history [.check now]
  have hstate : (machine.step ⟨store, [p], calls ++ [(0, f)], history⟩
      (.flight i (.check now))).1 = machine.run ⟨store, [p], calls ++ [(0, f)], history⟩
        ([.check now].map (.flight i)) := rfl
  rw [hstate, hrun]
  intro c hc
  rcases List.mem_append.mp hc with hc | hc
  · exact hcalls c hc
  · obtain rfl := List.mem_singleton.mp hc
    have hwait : f.stage.phase = .waiting := by
      rw [hf]
      rfl
    cases hholds : (f.step p.setup (p.shared store) (.check now)).flight.stage.phase.holds with
    | true => cases lock_of_holds hwait hholds
    | false => exact hholds

end Pages

/-- The key of calls without options. -/
def lockKey : CacheKey := ⟨"client", "default", "openid profile email", Cache.CACHE_KEY_PREFIX⟩

def lockPage : Page := { setup := sampleSetup false false }

/-- The flight of such a call. -/
def lockFlight (stage : Stage) : Flight :=
  ⟨"client::undefined::openid profile email", false, (sampleClient false).silentOptions [], false,
    false, stage⟩

/-- The steps of a call that finds nothing and gets the response `json`. -/
def askOps : List FlightOp :=
  [.check sampleClock.nowProvider, .lock true, .check sampleClock.nowProvider,
    .choose sampleClock.nowProvider, .authorize ⟨"state", "nonce", "verifier"⟩ .undefined]

def acquireOps (json : Obj) : List FlightOp :=
  [.tokenAnswer sampleClock (.ok ⟨true, json⟩), .store sampleClock.nowProvider, .save, .release]

def firstCall (json : Obj) : List PagesOp :=
  .load (sampleSetup false false) :: .call 0 [] :: (askOps ++ acquireOps json).map (.flight 0)

def secondCall (json : Obj) : List PagesOp :=
  .call 0 [] :: (askOps ++ acquireOps json).map (.flight 1)

/-- The entry stored for a response to the call. -/
def lockEntry (json : Obj) : CacheEntry :=
  entryOf json sampleClaims.decoded (.str "default") (.str "openid profile email")
    ((sampleClient false).silentClientId json) (json.get "scope")

/-- The exchange of the call. -/
def lockPending : Pending :=
  .waiting (.iframe ((sampleClient false).silentOptions []) ⟨"state", "nonce", "verifier"⟩
    .undefined)

theorem lock_finish {r : Obj} (hr : r.get "id_token" = .str sampleClaims.token) :
    lockPending.finish (sampleSetup false false).client (sampleSetup false false).browser
      sampleClock r = .ok (lockEntry r) := by
  refine bind_ok_iff.mpr ⟨sampleClaims.decoded, ?_, ?_⟩
  · rw [hr]
    exact sample_verify false false fun _ => rfl
  · have hm : Merged (sampleClient false) [] ((sampleClient false).silentOptions []) :=
      merged_silent List.nodup_nil
    obtain ⟨haud, hscope⟩ := hm.iframeParams (sampleSetup false false).browser
      ⟨"state", "nonce", "verifier"⟩ .undefined
    have hfull : (sampleClient false).fullScope (Obj.get [] "scope") = "openid profile email" := by
      decide
    show Except.ok (entryOf r _ (((sampleClient false).iframeParams _ _ _ _).get "audience" |>.or _)
      (((sampleClient false).iframeParams _ _ _ _).get "scope") _ _) = _
    rw [haud, hscope, hfull]
    rfl

/-- What the call acquires. -/
def lockAcquisition (json : Obj) (store : Store) : Acquisition where
  entry := lockEntry json
  now := sampleClock.nowProvider
  store := (sampleSetup false false).manager.set (lockEntry json) sampleClock.nowProvider store

theorem lock_typed : AudienceTyped (sampleClient false) [] :=
  ⟨List.nodup_nil, Or.inl rfl, Or.inl rfl⟩

theorem lock_key : (sampleClient false).userKey [] = lockKey := by decide

theorem lock_set_get {json : Obj} {k : CacheKey}
    (hk : k.toKey = (CacheKey.ofEntry (lockEntry json)).toKey) (store : Store) :
    (lockAcquisition json store).store.get k.toKey =
      some ⟨store.next, .wrapped
        (Cache.wrapCacheEntry (lockEntry json) sampleClock.nowProvider)⟩ := by
  have hmanager : (sampleSetup false false).manager.keyManifest = none := rfl
  refine Cache.Manager.set_get hk ?_ _ _
  intro cid hcid
  rw [hmanager] at hcid
  cases hcid

/-- What a call that finds nothing does. -/
def lockEvents (json : Obj) (store : Store) : List LockEvent :=
  [.locked, .missed ⟨store, sampleClock.nowProvider⟩, .requested,
    .acquired (lockAcquisition json store), .unlocked]

section Call

variable {sh : Shared} {store : Store} {json : Obj}
  (hfirst : (sampleSetup false false).manager.get lockKey (.fin 60) sampleClock.nowProvider
    sh.store = (store, none))
  (hsecond : (sampleSetup false false).manager.get lockKey (.fin 60) sampleClock.nowProvider
    store = (store, none))
  (hjson : json.without ["error", "error_description"] = json)
  (htoken : json.get "id_token" = .str sampleClaims.token)

include hfirst hsecond hjson htoken

/-- A call that finds nothing acquires its tokens. -/
theorem run_call :
    (lockFlight .firstCheck).run (sampleSetup false false) sh (askOps ++ acquireOps json) =
        ⟨{ sh with store := (lockAcquisition json store).store, isAuthenticated := true },
          lockFlight (.settled (.ok ⟨.ofEntry false (lockEntry json), some json⟩)),
          [.locked, .authorized, .received json,
            .stored (lockEntry json) sampleClock.nowProvider, .unlocked]⟩ ∧
      (lockFlight .firstCheck).observed (sampleSetup false false) sh
        (askOps ++ acquireOps json) = lockEvents json store := by
  have hkey : (sampleClient false).requestKey ((sampleClient false).silentOptions []) =
      lockKey := by
    rw [(merged_silent lock_typed.distinct).requestKey lock_typed, lock_key]
  have hclient : (sampleSetup false false).client = sampleClient false := rfl
  have huse : (sampleSetup false false).useRefreshTokens = false := rfl
  have hworker : (sampleSetup false false).hasWorker = false := rfl
  have hfin : Pending.finish (sampleClient false) (sampleSetup false false).browser sampleClock json
      (.waiting (.iframe ((sampleClient false).silentOptions []) ⟨"state", "nonce", "verifier"⟩
        .undefined)) = .ok (lockEntry json) := lock_finish htoken
  constructor
  · simp only [askOps, acquireOps, List.cons_append, Flight.run, Flight.step, Flight.cacheCheck,
      Flight.goTo, Flight.lock, Flight.choose, Flight.exchangeAnswer, Flight.receive, Flight.store,
      Flight.leave, lockFlight, hclient, huse, hworker, hkey, hfirst, hsecond, hjson, hfin,
      Bool.false_eq_true, if_false, if_true, List.nil_append, List.append_nil, lockAcquisition]
  · simp only [askOps, acquireOps, List.cons_append, Flight.observed, observe, Flight.step,
      Flight.cacheCheck, Flight.goTo, Flight.lock, Flight.choose, Flight.exchangeAnswer,
      Flight.receive, Flight.store, Flight.leave, lockFlight, hclient, huse, hworker, hkey, hfirst,
      hsecond, hjson, hfin, Bool.false_eq_true, if_false, if_true, List.nil_append,
      List.append_nil, List.flatMap_cons, List.flatMap_nil, TokenEvent.lockEvents,
      lockAcquisition, lockEvents]

end Call

theorem lockPage_flight {p : Page} (hp : p.setup = sampleSetup false false) :
    p.flight [] = lockFlight .firstCheck := by
  have hkey : (sampleSetup false false).promiseKey ((sampleClient false).silentOptions []) =
      "client::undefined::openid profile email" := by decide
  have hdetailed : (((sampleClient false).silentOptions []).get "detailedResponse").truthy =
      false := by decide
  have hclient : (sampleSetup false false).client = sampleClient false := rfl
  unfold Page.flight
  simp only [hp, hclient, hkey, hdetailed]
  rfl

/-- The state after the first call. -/
def afterFirst (json : Obj) : Pages where
  store := (lockAcquisition json {}).store
  pages := [⟨sampleSetup false false, [], true⟩]
  calls := [(0, lockFlight (.settled (.ok ⟨.ofEntry false (lockEntry json), some json⟩)))]
  history := (lockEvents json {}).map (Prod.mk 0)

theorem Pages.step_call {s : Pages} {page : Nat} {p : Page} (hp : s.pages[page]? = some p)
    (options : Obj) :
    (machine.step s (.call page options)).1 =
      { s with calls := s.calls ++ [(page, p.flight options)] } := by
  show s.step (.call page options) = _
  unfold Pages.step
  simp only [hp]

/-- What happens between the two acquisitions. -/
def lockBetween (store : Store) : List (Nat × LockEvent) :=
  [(0, .unlocked), (1, .locked), (1, .missed ⟨store, sampleClock.nowProvider⟩), (1, .requested)]

section TwoCalls

variable {json : Obj} (hjson : json.without ["error", "error_description"] = json)
  (htoken : json.get "id_token" = .str sampleClaims.token)

include hjson htoken

theorem run_firstCall : Pages.machine.run {} (firstCall json) = afterFirst json := by
  have hempty := @Cache.Manager.get_of_empty (sampleSetup false false).manager rfl {} rfl lockKey
    (.fin 60) sampleClock.nowProvider
  obtain ⟨hrun, hobs⟩ := @run_call {} {} json hempty hempty hjson htoken
  have hlast := @Pages.run_last 0 [] rfl lockPage {} (lockFlight .firstCheck) []
    (askOps ++ acquireOps json)
  have hshared : lockPage.shared {} = {} := rfl
  have hsetup : lockPage.setup = sampleSetup false false := rfl
  rw [hshared, hsetup, hrun, hobs] at hlast
  have hload : (Pages.machine.step {} (.load (sampleSetup false false))).1 =
      ⟨{}, [lockPage], [], []⟩ := rfl
  unfold firstCall
  rw [Machine.run_cons, hload, Machine.run_cons, Pages.step_call rfl, lockPage_flight rfl]
  exact hlast

/-- The history of two calls, the second of which does not find what the first
one has stored. -/
theorem twoCalls_history {store : Store}
    (hfirst : (sampleSetup false false).manager.get lockKey (.fin 60) sampleClock.nowProvider
      (lockAcquisition json {}).store = (store, none))
    (hsecond : (sampleSetup false false).manager.get lockKey (.fin 60) sampleClock.nowProvider
      store = (store, none)) :
    (Pages.machine.run {} (firstCall json ++ secondCall json)).history =
      [(0, .locked), (0, .missed ⟨{}, sampleClock.nowProvider⟩), (0, .requested)] ++
        (0, .acquired (lockAcquisition json {})) :: lockBetween store ++
          (1, .acquired (lockAcquisition json store)) :: [(1, .unlocked)] := by
  obtain ⟨hrun, hobs⟩ := @run_call ⟨(lockAcquisition json {}).store, [], true⟩ store json hfirst
    hsecond hjson htoken
  have hlast := @Pages.run_last 1 (afterFirst json).calls rfl ⟨sampleSetup false false, [], true⟩
    (afterFirst json).store (lockFlight .firstCheck) (afterFirst json).history
    (askOps ++ acquireOps json)
  have hshared : Page.shared ⟨sampleSetup false false, [], true⟩ (afterFirst json).store =
      ⟨(lockAcquisition json {}).store, [], true⟩ := rfl
  rw [hshared, hobs] at hlast
  unfold secondCall
  rw [Machine.run_append, run_firstCall hjson htoken, Machine.run_cons, Pages.step_call rfl,
    lockPage_flight rfl]
  exact congrArg Pages.history hlast

/-- Every condition on the two calls is one on the first steps of each, and on
their responses. -/
theorem twoCalls_meets {C : Pages → PagesOp → Prop}
    (hload : C {} (.load (sampleSetup false false)))
    (hcall : ∀ s p, s.pages = [p] → p.setup = sampleSetup false false → C s (.call 0 []))
    (hflight : ∀ i p store calls history, i = calls.length → p.setup = sampleSetup false false →
      (∀ c ∈ calls, c.2.stage.phase.holds = false) →
      Pages.machine.Meets C ⟨store, [p], calls ++ [(0, lockFlight .firstCheck)], history⟩
        ((askOps ++ acquireOps json).map (.flight i))) :
    Pages.machine.Meets C {} (firstCall json ++ secondCall json) := by
  rw [Machine.meets_append, run_firstCall hjson htoken]
  refine ⟨⟨hload, hcall _ _ rfl rfl, ?_⟩, hcall _ _ rfl rfl, ?_⟩
  · have hstart : (Pages.machine.step (Pages.machine.step {} (.load (sampleSetup false false))).1
        (.call 0 [])).1 = ⟨{}, [lockPage], [] ++ [(0, lockFlight .firstCheck)], []⟩ := by
      rw [Pages.step_call rfl, lockPage_flight rfl]
      rfl
    rw [hstart]
    exact hflight 0 lockPage {} [] [] rfl rfl fun _ hc => (nomatch hc)
  · rw [Pages.step_call rfl, lockPage_flight rfl]
    refine hflight 1 _ _ (afterFirst json).calls _ rfl rfl ?_
    intro c hc
    obtain rfl := List.mem_singleton.mp hc
    rfl

theorem twoCalls_sameKey :
    Pages.machine.Meets (Pages.SameKey lockKey) {} (firstCall json ++ secondCall json) := by
  refine twoCalls_meets hjson htoken trivial ?_ ?_
  · intro s p hs hp q hq
    rw [hs] at hq
    obtain rfl : p = q := Option.some.inj hq
    rw [hp]
    exact ⟨lock_typed, lock_key, rfl⟩
  · intro i p store calls history _ _ _
    refine Pages.machine.meets_of_forall _ ?_
    intro op hop s
    obtain ⟨op', -, rfl⟩ := List.mem_map.mp hop
    trivial

theorem twoCalls_exclusive :
    Pages.machine.Meets Pages.Exclusive {} (firstCall json ++ secondCall json) := by
  refine twoCalls_meets hjson htoken trivial (fun _ _ _ _ => trivial) ?_
  intro i p store calls history hi _ hcalls
  exact Pages.meets_exclusive hi p store history hcalls rfl (by simp [acquireOps])

theorem twoCalls_ownClientId (hid : json.find "client_id" = none) :
    Pages.machine.Meets Pages.OwnClientId {} (firstCall json ++ secondCall json) := by
  refine twoCalls_meets hjson htoken trivial (fun _ _ _ _ => trivial) ?_
  intro i p store calls history _ _ _
  refine Pages.machine.meets_of_forall _ ?_
  intro op hop s
  obtain ⟨op', hop', rfl⟩ := List.mem_map.mp hop
  simp only [askOps, acquireOps, List.cons_append, List.nil_append, List.mem_cons,
    List.not_mem_nil, or_false] at hop'
  rcases hop' with rfl | rfl | rfl | rfl | rfl | rfl | rfl | rfl | rfl <;> try trivial
  intro page p f _ v hv
  rw [hid] at hv
  cases hv

end TwoCalls

/-! ### A response that expires at once, and one for another client -/

/-- A response whose tokens last for half a minute. -/
def shortResponse : Obj :=
  [("id_token", .str sampleClaims.token), ("access_token", .str "access"),
    ("expires_in", .num (.fin 30))]

/-- One with a client id of its own. -/
def foreignResponse : Obj :=
  [("id_token", .str sampleClaims.token), ("access_token", .str "access"),
    ("expires_in", .num (.fin 86400)), ("client_id", .str "other")]

/-- The first call's entry is dropped by the checks of the second one: it is
acquired again. -/
theorem one_request_per_miss_short :
    Pages.machine.Meets (Pages.Allowed lockKey) {}
      (firstCall shortResponse ++ secondCall shortResponse) ∧
    ∃ l : Lookout, (1, .missed l) ∈
        lockBetween ((lockAcquisition shortResponse {}).store.remove lockKey.toKey) ∧
      (¬ (lockAcquisition shortResponse {}).HeldBy l.store ∨
        (lockEntry shortResponse).access_token.truthy = false ∨
        (Cache.wrapCacheEntry (lockEntry shortResponse) sampleClock.nowProvider).expired (.fin 60)
          l.now) := by
  have hjson : shortResponse.without ["error", "error_description"] = shortResponse := rfl
  have hmeets : Pages.machine.Meets (Pages.Allowed lockKey) {}
      (firstCall shortResponse ++ secondCall shortResponse) :=
    Pages.machine.meets_and
      (Pages.machine.meets_and (twoCalls_sameKey hjson rfl) (twoCalls_exclusive hjson rfl))
      (twoCalls_ownClientId hjson rfl rfl)
  have hkey : (CacheKey.ofEntry (lockEntry shortResponse)).toKey = lockKey.toKey := by
    decide +kernel
  have hexpired : (Cache.wrapCacheEntry (lockEntry shortResponse)
      sampleClock.nowProvider).expired (.fin 60) sampleClock.nowProvider := by decide +kernel
  have hget : (lockAcquisition shortResponse {}).store.get lockKey.toKey =
      some ⟨0, .wrapped (Cache.wrapCacheEntry (lockEntry shortResponse) sampleClock.nowProvider)⟩ :=
    lock_set_get hkey.symm {}
  have hfirst : (sampleSetup false false).manager.get lockKey (.fin 60) sampleClock.nowProvider
      (lockAcquisition shortResponse {}).store =
      ((lockAcquisition shortResponse {}).store.remove lockKey.toKey, none) := by
    unfold Cache.Manager.get Cache.Manager.findEntry
    simp only [hget, hexpired, if_true]
    rfl
  have hempty : ((lockAcquisition shortResponse {}).store.remove lockKey.toKey).slots = [] := by
    unfold lockAcquisition Cache.Manager.set Store.remove Store.put
    dsimp only
    rw [hkey]
    rfl
  have hsecond := @Cache.Manager.get_of_empty (sampleSetup false false).manager rfl _ hempty lockKey
    (.fin 60) sampleClock.nowProvider
  have hhistory := twoCalls_history hjson rfl hfirst hsecond
  obtain ⟨-, l, hmem, hgone⟩ := (one_request_per_miss hmeets).1 _ _ _ _ _ _ _ hhistory rfl
  exact ⟨hmeets, l, hmem, hgone⟩

/-- The defect: the second call asks for tokens again although the first one's
entry is still there, whole and good for a day. It is there for another client. -/
theorem stored_for_other_client :
    Pages.machine.Meets (fun s op => Pages.SameKey lockKey s op ∧ Pages.Exclusive s op) {}
      (firstCall foreignResponse ++ secondCall foreignResponse) ∧
    ∃ before j a between i b after,
      (Pages.machine.run {} (firstCall foreignResponse ++ secondCall foreignResponse)).history =
        before ++ (j, .acquired a) :: between ++ (i, .acquired b) :: after ∧
      ∀ l : Lookout, (i, .missed l) ∈ between → a.HeldBy l.store ∧
        a.entry.access_token.truthy = true ∧
        ¬ (Cache.wrapCacheEntry a.entry a.now).expired (.fin 60) l.now := by
  have hjson : foreignResponse.without ["error", "error_description"] = foreignResponse := rfl
  have hkey : (CacheKey.ofEntry (lockEntry foreignResponse)).toKey =
      "@@authokspajs@@::other::default::openid profile email" := by decide
  have hslots : (lockAcquisition foreignResponse {}).store.slots =
      [("@@authokspajs@@::other::default::openid profile email",
        ⟨0, .wrapped (Cache.wrapCacheEntry (lockEntry foreignResponse)
          sampleClock.nowProvider)⟩)] := by
    unfold lockAcquisition Cache.Manager.set Store.put
    dsimp only
    rw [hkey]
    rfl
  have hfind : (sampleSetup false false).manager.findEntry lockKey
      (lockAcquisition foreignResponse {}).store = none := by
    have hmanager : (sampleSetup false false).manager.keyManifest = none := rfl
    have hown : Js.OrdMap.find ([("@@authokspajs@@::other::default::openid profile email",
        (⟨0, .wrapped (Cache.wrapCacheEntry (lockEntry foreignResponse)
          sampleClock.nowProvider)⟩ : Cache.Cell))]) lockKey.toKey = none :=
      if_neg (by decide)
    have hmatch : Cache.matchExistingCacheKey lockKey
        ["@@authokspajs@@::other::default::openid profile email"] = none := by decide
    unfold Cache.Manager.findEntry Cache.Manager.getCacheKeys Store.get Store.allKeys
    rw [hslots, hown, hmanager]
    dsimp only
    show Option.bind (Cache.matchExistingCacheKey lockKey
      ["@@authokspajs@@::other::default::openid profile email"]) _ = _
    rw [hmatch]
    rfl
  have hmiss : (sampleSetup false false).manager.get lockKey (.fin 60) sampleClock.nowProvider
      (lockAcquisition foreignResponse {}).store =
      ((lockAcquisition foreignResponse {}).store, none) := by
    unfold Cache.Manager.get
    rw [hfind]
  have hhistory := twoCalls_history hjson rfl hmiss hmiss
  refine ⟨Pages.machine.meets_and (twoCalls_sameKey hjson rfl) (twoCalls_exclusive hjson rfl),
    _, _, _, _, _, _, _, hhistory, ?_⟩
  intro l hl
  obtain rfl : l = ⟨(lockAcquisition foreignResponse {}).store, sampleClock.nowProvider⟩ := by
    simpa [lockBetween] using hl
  refine ⟨?_, rfl, by decide +kernel⟩
  exact congrArg (Option.map Cache.Cell.value) (lock_set_get rfl {})

end AuthokSpa
