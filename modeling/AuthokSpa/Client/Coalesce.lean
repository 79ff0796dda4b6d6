import AuthokSpa.Client.Silent

/-!
# Merged calls (`getTokenSilently`, `singlePromise`)

Calls with the same client, audience and scope that overlap share one flight and
so one result. The key they are merged by leaves out `detailedResponse` and
`ignoreCache`, so a call can get an object where it asked for a string, or a
cached token where it asked for a new one.

`JoinOk` is the condition on a call that joins a flight under which it cannot:
same shape, and a flight that no longer looks into the cache if the call must
not. `coalesced_results` says that in every run whose calls meet it every call
gets what it asked for. The invariant is in two halves: a flight's result fits
the flight's own options (`Flight.Fits`), and a call fits the flight it waits
for (`Coalesced.joined`).
-/

namespace AuthokSpa

open Js (Value Obj OrdMap)

/-- A result fits the options of its flight; `h` is the history. -/
structure Outcome.Fits (h : List TokenEvent) (ignoreCache detailedResponse : Bool) (o : Outcome) :
    Prop where
  shape : o.result.isDetailed = detailedResponse
  cached : o.response = none → ignoreCache = false
  fetched : ∀ json, o.response = some json →
    TokenEvent.received json ∈ h ∧ o.result.access_token = json.get "access_token"

/-- What a flight has got so far fits its options. -/
def Flight.Fits (h : List TokenEvent) (f : Flight) : Prop :=
  match f.stage with
  | .storing e json => TokenEvent.received json ∈ h ∧ e.access_token = json.get "access_token"
  | .saving o => o.Fits h f.ignoreCache f.detailedResponse
  | .releasing (.ok o) => o.Fits h f.ignoreCache f.detailedResponse
  | .settled (.ok o) => o.Fits h f.ignoreCache f.detailedResponse
  | _ => True

/-- The flight no longer looks for an access token in the cache. -/
def Stage.pastCache : Stage → Bool
  | .firstCheck => false
  | .locking _ => false
  | .secondCheck => false
  | .saving o => o.response.isSome
  | .releasing (.ok o) => o.response.isSome
  | .settled (.ok o) => o.response.isSome
  | _ => true

/-- The flight gets its token from the token endpoint, if it gets one. -/
def Flight.Fetches (f : Flight) : Prop := f.ignoreCache = true ∨ f.stage.pastCache = true

/-- A call that joins a flight wants the same shape, and if it ignores the cache
the flight does so too or is past it. -/
def JoinOk (S : Setup) (s : ClientState) : ClientOp → Prop
  | .getTokenSilently options =>
    ∀ i f, s.promises.find (S.promiseKey (S.client.silentOptions options)) = some i →
      s.flights[i]? = some f →
      ((S.client.silentOptions options).get "detailedResponse").truthy = f.detailedResponse ∧
        ((options.get "ignoreCache").truthy = true → f.Fetches)
  | _ => True

/-- The invariant. -/
structure Coalesced (s : ClientState) : Prop where
  fits : ∀ f ∈ s.flights, f.Fits s.history
  promised : ∀ key i, s.promises.find key = some i → i < s.flights.length
  joined : ∀ c ∈ s.calls, ∃ f, s.flights[c.flight]? = some f ∧
    c.detailedResponse = f.detailedResponse ∧ (c.ignoreCache = true → f.Fetches)

/-! ## Flights -/

section Flight

variable {S : Setup} {sh : Shared} {f : Flight} {h : List TokenEvent}

theorem Outcome.Fits.mono {o : Outcome} {i d : Bool} (ho : o.Fits h i d) (es : List TokenEvent) :
    o.Fits (h ++ es) i d where
  shape := ho.shape
  cached := ho.cached
  fetched json hjson :=
    ⟨List.mem_append_left _ (ho.fetched json hjson).1, (ho.fetched json hjson).2⟩

theorem Flight.Fits.mono (hf : f.Fits h) (es : List TokenEvent) : f.Fits (h ++ es) := by
  unfold Flight.Fits at hf ⊢
  split at hf
  · exact ⟨List.mem_append_left _ hf.1, hf.2⟩
  · exact hf.mono es
  · exact hf.mono es
  · exact hf.mono es
  · trivial

/-- What a step of a flight keeps. -/
structure Keeps (h : List TokenEvent) (f : Flight) (p : Progress) : Prop where
  shape : p.flight.detailedResponse = f.detailedResponse
  fetches : f.Fetches → p.flight.Fetches
  fits : p.flight.Fits (h ++ p.events)

/-- Moving to a stage without a token, past the cache or not. -/
theorem keeps_plain {stage : Stage} (hs : stage.Plain) (sh : Shared) (es : List TokenEvent) :
    Keeps h f ⟨sh, f.goTo stage, es⟩ := by
  refine ⟨rfl, fun _ => Or.inr ?_, ?_⟩
  · show stage.pastCache = true
    unfold Stage.Plain at hs
    split at hs <;> first | rfl | cases hs
  · unfold Flight.Fits Flight.goTo
    unfold Stage.Plain at hs
    split at hs <;> trivial

/-- A result that fits settles a flight, at once or after the lock is given back. -/
theorem keeps_result {o : Outcome} (ho : o.Fits h f.ignoreCache f.detailedResponse)
    (hpast : f.stage.pastCache = true → o.response.isSome = true) (sh : Shared)
    (es : List TokenEvent) {stage : Stage}
    (hs : stage = .saving o ∨ stage = .releasing (.ok o) ∨ stage = .settled (.ok o)) :
    Keeps h f ⟨sh, f.goTo stage, es⟩ := by
  have hresponse : f.Fetches → o.response.isSome = true := by
    rintro (hignore | hp)
    · cases hr : o.response with
      | none => rw [ho.cached hr] at hignore; cases hignore
      | some json => rfl
    · exact hpast hp
  refine ⟨rfl, fun hf => Or.inr ?_, ?_⟩
  · rcases hs with rfl | rfl | rfl <;> exact hresponse hf
  · rcases hs with rfl | rfl | rfl <;> exact ho.mono es

/-- A stage before the cache is left for another one before it or for `choosing`. -/
theorem keeps_before {stage : Stage} (hf : f.stage.pastCache = false)
    (hs : (∃ n, stage = .locking n) ∨ stage = .secondCheck ∨ stage = .choosing) (sh : Shared)
    (es : List TokenEvent) : Keeps h f ⟨sh, f.goTo stage, es⟩ := by
  refine ⟨rfl, ?_, ?_⟩
  · rintro (hignore | hp)
    · exact Or.inl hignore
    · rw [hf] at hp
      cases hp
  · rcases hs with ⟨n, rfl⟩ | rfl | rfl <;> trivial

theorem keeps_check (hf : f.stage.pastCache = false) {next : Stage}
    (hnext : (∃ n, next = .locking n) ∨ next = .secondCheck ∨ next = .choosing)
    {hit : Settlement → Stage} (hhit : hit = .releasing ∨ hit = .settled) (now : Js.Num) :
    Keeps h f (f.cacheCheck S sh now hit next) := by
  rcases @Flight.cacheCheck_cases S sh f now hit next with
    ⟨-, hp⟩ | ⟨hignore, found, -, ⟨e, -, -, hp⟩ | ⟨-, hp⟩⟩
  · rw [hp]
    exact keeps_before hf hnext _ _
  · rw [hp]
    have ho : Outcome.Fits h f.ignoreCache f.detailedResponse
        ⟨.ofEntry f.detailedResponse e, none⟩ :=
      ⟨TokenResult.isDetailed_ofEntry _ _, fun _ => hignore, fun _ hjson => nomatch hjson⟩
    refine keeps_result ho ?_ _ _ ?_
    · intro hpast
      rw [hf] at hpast
      cases hpast
    · rcases hhit with rfl | rfl
      · exact Or.inr (Or.inl rfl)
      · exact Or.inr (Or.inr rfl)
  · rw [hp]
    exact keeps_before hf hnext _ _

theorem keeps_answered {finish : Obj → Except JwtError CacheEntry}
    {answer : Except String TokenAnswer} {p : Progress}
    (htokens : ∀ r e, finish r = .ok e → TokensOf r e)
    (hp : Flight.Answered S sh f finish answer p) :
    Keeps h f p := by
  cases hp with
  | failed hs => exact keeps_plain hs _ _
  | rejected hs => exact keeps_plain hs _ _
  | loggedOut hs => exact keeps_plain hs _ _
  | accepted _ he =>
    refine ⟨rfl, fun _ => Or.inr rfl, List.mem_append_right _ (List.mem_singleton_self _), ?_⟩
    rw [(htokens _ _ he).access_token, Js.Obj.get_without (by decide),
      Flight.receive_get _ (by decide)]

/-- Every step of a flight keeps its result fitting. -/
theorem step_keeps (hf : f.Fits h) (op : FlightOp) : Keeps h f (f.step S sh op) := by
  apply @Flight.step_elim S sh f _ op
  case idle => exact ⟨rfl, id, hf.mono []⟩
  case first =>
    intro now _ hs
    exact keeps_check (by rw [hs]; rfl) (Or.inl ⟨0, rfl⟩) (Or.inr rfl) now
  case lock =>
    intro tries acquired _ hs
    have hbefore : f.stage.pastCache = false := by rw [hs]; rfl
    unfold Flight.lock
    split
    · exact keeps_before hbefore (Or.inr (Or.inl rfl)) _ _
    · split
      · exact keeps_before hbefore (Or.inl ⟨_, rfl⟩) _ _
      · exact keeps_plain (by trivial) _ _
  case second =>
    intro now _ hs
    exact keeps_check (by rw [hs]; rfl) (Or.inr (Or.inr rfl)) (Or.inl rfl) now
  case choose =>
    intro now _ _
    rcases @Flight.choose_cases S sh f now with
      ⟨-, hp⟩ | ⟨-, found, -, ⟨-, -, hp⟩ | ⟨-, hp⟩⟩
    · rw [hp]
      exact keeps_plain (by trivial) _ _
    · rw [hp]
      exact ⟨rfl, fun _ => Or.inr rfl, trivial⟩
    · rw [hp]
      exact ⟨rfl, fun _ => Or.inr rfl, trivial⟩
  case attempt =>
    intro t _
    rcases @Flight.attempt_cases S sh f t with hp | ⟨t', hp, -⟩
    · rw [hp]
      exact keeps_plain (by trivial) _ _
    · rw [hp]
      exact ⟨rfl, fun _ => Or.inr rfl, trivial⟩
  case refreshAnswer =>
    intro t clock answer _ _
    exact keeps_answered (fun _ _ => finishRefresh_tokens) (Flight.refreshAnswer_answered ..)
  case authorize =>
    intro x orgIdHint _
    exact ⟨rfl, fun _ => Or.inr rfl, trivial⟩
  case authorizeFailed =>
    intro rejection _
    exact keeps_plain (by trivial) _ _
  case exchangeAnswer =>
    intro p clock answer _ _
    exact keeps_answered (fun _ _ => Pending.finish_tokens) (Flight.exchangeAnswer_answered ..)
  case store =>
    intro e response now hs
    unfold Flight.Fits at hf
    rw [hs] at hf
    -- the answer is made of the entry, and the entry of the response
    have ho : Outcome.Fits h f.ignoreCache f.detailedResponse
        ⟨.ofEntry f.detailedResponse e, some response⟩ := by
      refine ⟨TokenResult.isDetailed_ofEntry _ _, (fun hr => nomatch hr), ?_⟩
      intro json hjson
      obtain rfl := Option.some.inj hjson
      exact ⟨hf.1, (TokenResult.access_token_ofEntry _ _).trans hf.2⟩
    exact keeps_result ho (fun _ => rfl) _ _ (Or.inl rfl)
  case save =>
    intro o hs
    unfold Flight.Fits at hf
    rw [hs] at hf
    refine keeps_result hf (fun hp => by rw [hs] at hp; exact hp) _ _ ?_
    unfold Flight.leave
    split
    · exact Or.inr (Or.inr rfl)
    · exact Or.inr (Or.inl rfl)
  case release =>
    intro r hs
    cases r with
    | error rejection => exact keeps_plain (by trivial) _ _
    | ok o =>
      unfold Flight.Fits at hf
      rw [hs] at hf
      exact keeps_result hf (fun hp => by rw [hs] at hp; exact hp) _ _ (Or.inr (Or.inr rfl))

end Flight

/-! ## Runs -/

section Runs

variable {S : Setup} {s : ClientState}

theorem Coalesced.init : Coalesced {} where
  fits f hf := by cases hf
  promised key i h := by cases h
  joined c hc := by cases hc

/-- A flight that is added leaves the others where they are. -/
theorem getElem_append_flight {flights : List Flight} {i : Nat} {f : Flight}
    (h : flights[i]? = some f) (g : Flight) : (flights ++ [g])[i]? = some f := by
  obtain ⟨hi, rfl⟩ := List.getElem?_eq_some_iff.mp h
  rw [List.getElem?_append_left hi, List.getElem?_eq_getElem hi]

theorem Coalesced.getTokenSilently (h : Coalesced s) {options : Obj}
    (hok : JoinOk S s (.getTokenSilently options)) : Coalesced (s.getTokenSilently S options) := by
  unfold ClientState.getTokenSilently
  dsimp only
  split
  next i hi =>
    -- the call joins the flight that is promised under its key
    have hlt := h.promised _ i hi
    have hf : s.flights[i]? = some s.flights[i] := List.getElem?_eq_getElem hlt
    refine ⟨h.fits, h.promised, ?_⟩
    intro c hc
    rcases List.mem_append.mp hc with hold | hnew
    · exact h.joined c hold
    · obtain rfl := List.mem_singleton.mp hnew
      exact ⟨_, hf, hok i _ hi hf⟩
  next hnone =>
    -- a flight of its own, at the end of the list
    refine ⟨?_, ?_, ?_⟩
    · intro f hf
      rcases List.mem_append.mp hf with hold | hnew
      · exact h.fits f hold
      · obtain rfl := List.mem_singleton.mp hnew
        trivial
    · intro key i hi
      rw [OrdMap.find_insert] at hi
      rw [List.length_append, List.length_singleton]
      split at hi
      · obtain rfl := Option.some.inj hi
        omega
      · have := h.promised key i hi
        omega
    · intro c hc
      rcases List.mem_append.mp hc with hold | hnew
      · obtain ⟨f, hf, hjoin⟩ := h.joined c hold
        exact ⟨f, getElem_append_flight hf _, hjoin⟩
      · obtain rfl := List.mem_singleton.mp hnew
        exact ⟨_, List.getElem?_concat_length, rfl, fun hi => Or.inl hi⟩

theorem Coalesced.login (h : Coalesced s) (p : Pending) (audience scope : Value) :
    Coalesced (s.login p audience scope) := by
  refine ⟨?_, ?_, ?_⟩
  · intro f hf
    rcases List.mem_append.mp hf with hold | hnew
    · exact (h.fits f hold).mono _
    · obtain rfl := List.mem_singleton.mp hnew
      trivial
  · intro key i hi
    have := h.promised key i hi
    show i < (s.flights ++ [_]).length
    rw [List.length_append]
    omega
  · intro c hc
    obtain ⟨f, hf, hjoin⟩ := h.joined c hc
    exact ⟨f, getElem_append_flight hf _, hjoin⟩

theorem Coalesced.advance (h : Coalesced s) {i : Nat} {f : Flight} (hf : s.flights[i]? = some f)
    {p : Progress} (hp : Keeps s.history f p) : Coalesced (s.advance i p) := by
  refine ⟨?_, ?_, ?_⟩
  · intro g hg
    rcases List.mem_or_eq_of_mem_set hg with hold | rfl
    · exact (h.fits g hold).mono _
    · exact hp.fits
  · intro key j hj
    have := h.promised key j hj
    show j < (s.flights.set i p.flight).length
    rwa [List.length_set]
  · intro c hc
    obtain ⟨g, hg, hshape, hfetch⟩ := h.joined c hc
    show ∃ f', (s.flights.set i p.flight)[c.flight]? = some f' ∧ _
    obtain ⟨hi, -⟩ := List.getElem?_eq_some_iff.mp hf
    rw [List.getElem?_set]
    by_cases hc' : i = c.flight
    · -- the call waits for the flight that made the step
      obtain rfl : f = g := by
        rw [hc'] at hf
        exact Option.some.inj (hf.symm.trans hg)
      rw [if_pos hc', if_pos hi]
      exact ⟨p.flight, rfl, hshape.trans hp.shape.symm, fun hig => hp.fetches (hfetch hig)⟩
    · rw [if_neg hc']
      exact ⟨g, hg, hshape, hfetch⟩

theorem Coalesced.cleanup (h : Coalesced s) (i : Nat) (f : Flight) : Coalesced (s.cleanup i f) := by
  unfold ClientState.cleanup
  split
  · split
    · refine ⟨h.fits, ?_, h.joined⟩
      intro key j hj
      rw [OrdMap.find_erase] at hj
      split at hj
      · cases hj
      · exact h.promised key j hj
    · exact h
  · exact h

/-- Every step of the client keeps the invariant when a joining call may join. -/
theorem Coalesced.step (s : ClientState) (op : ClientOp) (h : Coalesced s) (hok : JoinOk S s op) :
    Coalesced ((ClientState.machine S).step s op).1 := by
  show Coalesced (s.step S op).1
  unfold ClientState.step
  cases op with
  | getTokenSilently options => exact h.getTokenSilently hok
  | login p audience scope => exact h.login p audience scope
  | getUser options now => exact ⟨h.fits, h.promised, h.joined⟩
  | logout => exact ⟨h.fits, h.promised, h.joined⟩
  | flight i op =>
    dsimp only
    split
    next f hf => exact h.advance hf (step_keeps (h.fits f (List.mem_of_getElem? hf)) op)
    next => exact h
  | cleanup i =>
    dsimp only
    split
    next f hf => exact h.cleanup i f
    next => exact h

end Runs

/-- **Merged calls get what they asked for**, in every run in which calls join
only flights that suit them: an object exactly when they passed
`detailedResponse`, and with `ignoreCache` a token of a response of the token
endpoint. -/
theorem coalesced_results (S : Setup) {ops : List ClientOp}
    (h : (ClientState.machine S).Meets (JoinOk S) {} ops) {c : Call} {f : Flight} {o : Outcome}
    (hc : c ∈ ((ClientState.machine S).run {} ops).calls)
    (hf : ((ClientState.machine S).run {} ops).flights[c.flight]? = some f)
    (ho : f.stage = .settled (.ok o)) :
    o.result.isDetailed = c.detailedResponse ∧
      (c.ignoreCache = true → ∃ json, o.response = some json ∧
        TokenEvent.received json ∈ ((ClientState.machine S).run {} ops).history ∧
        o.result.access_token = json.get "access_token") := by
  have hinv : Coalesced ((ClientState.machine S).run {} ops) :=
    Machine.run_guarded Coalesced.step ops {} Coalesced.init h
  obtain ⟨g, hg, hshape, hfetch⟩ := hinv.joined c hc
  obtain rfl : f = g := Option.some.inj (hf.symm.trans hg)
  have hfits := hinv.fits f (List.mem_of_getElem? hf)
  unfold Flight.Fits at hfits
  rw [ho] at hfits
  refine ⟨hfits.shape.trans hshape.symm, fun hignore => ?_⟩
  -- a flight that fetches has a response behind its result
  have hsome : o.response.isSome = true := by
    rcases hfetch hignore with hi | hp
    · cases hr : o.response with
      | none => rw [hfits.cached hr] at hi; cases hi
      | some json => rfl
    · rw [ho] at hp
      exact hp
  obtain ⟨json, hjson⟩ := Option.isSome_iff_exists.mp hsome
  exact ⟨json, hjson, hfits.fetched json hjson⟩

/-! ## Two calls -/

/-- A call for the details, a second call while the first is under way, and the
look into the cache that answers both. -/
def sharedCalls (second : Obj) : List ClientOp :=
  [.getTokenSilently [("detailedResponse", .bool true)], .getTokenSilently second,
    .flight 1 (.check sampleClock.nowProvider)]

def sharedEntry : CacheEntry := sampleStored false (sampleResponse "access" .undefined)

/-- The flight of the calls. -/
def sharedFlight (stage : Stage) : Flight :=
  ⟨"client::undefined::openid profile email", false,
    (sampleClient false).silentOptions [("detailedResponse", .bool true)], false, true, stage⟩

/-- The client after the login. -/
def sharedStart : ClientState :=
  sampleState (sampleSetup false false) false {} (sampleResponse "access" .undefined)
    (sampleResponse "access" .undefined)

/-- The client after the two calls, with their flight at a stage. -/
def sharedState (second : Obj) (stage : Stage) : ClientState :=
  { sharedStart with
    flights := sharedStart.flights ++ [sharedFlight stage]
    promises := [("client::undefined::openid profile email", 1)]
    calls := [⟨1, false, true⟩, ⟨1, (second.get "ignoreCache").truthy,
      (((sampleClient false).silentOptions second).get "detailedResponse").truthy⟩] }

theorem run_sharedStart :
    (ClientState.machine (sampleSetup false false)).run {}
        (sampleLoginOps false (sampleResponse "access" .undefined)) = sharedStart :=
  run_sampleLogin false false rfl rfl rfl

/-- The flight finds the token of the login in the cache. -/
theorem shared_check :
    (sharedFlight .firstCheck).cacheCheck (sampleSetup false false) sharedStart.shared
        sampleClock.nowProvider .settled (.locking 0) =
      ⟨sharedStart.shared, sharedFlight (.settled (.ok ⟨.ofEntry true sharedEntry, none⟩)), []⟩ := by
  have hlive : ¬ (Cache.wrapCacheEntry sharedEntry sampleClock.nowProvider).expired (.fin 60)
      sampleClock.nowProvider := by decide +kernel
  have hget : (sampleSetup false false).manager.get ((sampleSetup false false).client.requestKey
      (sharedFlight .firstCheck).options) (.fin 60) sampleClock.nowProvider
      sharedStart.shared.store = (sharedStart.shared.store, some (.entry sharedEntry)) :=
    Cache.Manager.get_set (by decide) (by intro cid h; cases h) hlive {}
  have htoken : sharedEntry.access_token.truthy = true := by decide
  unfold Flight.cacheCheck
  rw [if_neg (by decide)]
  simp only [hget, htoken, if_true]
  rfl

theorem run_shared (second : Obj)
    (hkey : (sampleSetup false false).promiseKey ((sampleClient false).silentOptions second) =
      "client::undefined::openid profile email") :
    (ClientState.machine (sampleSetup false false)).run {}
        (sampleLoginOps false (sampleResponse "access" .undefined) ++ sharedCalls second) =
      sharedState second (.settled (.ok ⟨.ofEntry true sharedEntry, none⟩)) := by
  have hfirst : (sampleSetup false false).promiseKey
      ((sampleClient false).silentOptions [("detailedResponse", .bool true)]) =
      "client::undefined::openid profile email" := by decide
  have hclient : (sampleSetup false false).client = sampleClient false := rfl
  rw [Machine.run_append, run_sharedStart]
  unfold sharedCalls
  rw [ClientState.run_cons, ClientState.run_cons, ClientState.run_cons]
  simp only [ClientState.step]
  rw [ClientState.getTokenSilently_start _ hfirst rfl,
    ClientState.getTokenSilently_join _ (i := 1) (by rw [hclient, hkey]; rfl)]
  show (ClientState.machine _).run (ClientState.advance _ 1 ((sharedFlight .firstCheck).cacheCheck
    _ sharedStart.shared _ _ _)) [] = _
  rw [shared_check]
  rfl

/-- Two calls for the details share one result, which is what both asked for. -/
theorem coalesced_results_twice :
    (ClientState.machine (sampleSetup false false)).Meets (JoinOk (sampleSetup false false)) {}
        (sampleLoginOps false (sampleResponse "access" .undefined) ++ sharedCalls [("detailedResponse", .bool true)]) ∧
      (TokenResult.ofEntry true sharedEntry).isDetailed = true := by
  have hkey : (sampleSetup false false).promiseKey
      ((sampleClient false).silentOptions [("detailedResponse", .bool true)]) =
      "client::undefined::openid profile email" := by decide
  have hrun := run_shared [("detailedResponse", .bool true)] hkey
  have hmeets : (ClientState.machine (sampleSetup false false)).Meets
      (JoinOk (sampleSetup false false)) {}
      (sampleLoginOps false (sampleResponse "access" .undefined) ++ sharedCalls [("detailedResponse", .bool true)]) := by
    refine (Machine.meets_append _ _ _ _).mpr ⟨⟨trivial, trivial, trivial, trivial, trivial⟩, ?_⟩
    rw [run_sharedStart]
    refine ⟨(fun i f hi => nomatch hi), ?_, trivial, trivial⟩
    -- the second call meets the flight of the first
    rw [ClientState.step_getTokenSilently, ClientState.getTokenSilently_start _ hkey rfl]
    intro i f hi hf
    rw [show (sampleSetup false false).client = sampleClient false from rfl, hkey] at hi
    obtain rfl : 1 = i := Option.some.inj hi
    rw [← Option.some.inj hf]
    exact ⟨rfl, fun h => by cases h⟩
  refine ⟨hmeets, ?_⟩
  have hresult := @coalesced_results (sampleSetup false false) _ hmeets ⟨1, false, true⟩
    (sharedFlight (.settled (.ok ⟨.ofEntry true sharedEntry, none⟩)))
    ⟨.ofEntry true sharedEntry, none⟩
  rw [hrun] at hresult
  exact (hresult (List.mem_cons_self ..) rfl rfl).1

/-- The defect: a call that wants a new token, as a string, joins a call for the
details. It gets the object, with a token read from the cache. -/
theorem joined_call_misled :
    ∃ c f o, c ∈ ((ClientState.machine (sampleSetup false false)).run {}
        (sampleLoginOps false (sampleResponse "access" .undefined) ++ sharedCalls [("ignoreCache", .bool true)])).calls ∧
      ((ClientState.machine (sampleSetup false false)).run {}
        (sampleLoginOps false (sampleResponse "access" .undefined) ++ sharedCalls [("ignoreCache", .bool true)])).flights[c.flight]? = some f ∧
      f.stage = .settled (.ok o) ∧ c.ignoreCache = true ∧ c.detailedResponse = false ∧
      o.result.isDetailed = true ∧ o.response = none := by
  have hkey : (sampleSetup false false).promiseKey
      ((sampleClient false).silentOptions [("ignoreCache", .bool true)]) =
      "client::undefined::openid profile email" := by decide
  rw [run_shared _ hkey]
  exact ⟨⟨1, true, false⟩, sharedFlight (.settled (.ok ⟨.ofEntry true sharedEntry, none⟩)),
    ⟨.ofEntry true sharedEntry, none⟩, List.mem_cons_of_mem _ (List.mem_cons_self ..), rfl, rfl,
    rfl, rfl, rfl, rfl⟩

end AuthokSpa
