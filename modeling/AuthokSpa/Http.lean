import AuthokSpa.Worker.Messages

/-!
# Requests for JSON (`http.ts`, `worker/worker.utils.ts`)

`getJSON` tries a request three times and makes an error or data of what it
gets. An attempt is a `fetch` of the page, or a message to the worker which
answers on a port. The two classify failures in different places: without the
worker the body is read inside the call that is retried, with it the handler
posts `error` for a failed `fetch` and a response that is not ok for all else.

`worker_agrees` says when the two give the same. They do not when a body is not
JSON, which is retried on one side only, nor when `fetch` rejects with an empty
message, which `sendMessage` does not see as an error.
-/

namespace AuthokSpa.Http

open Js (Value Obj)
open Worker (Fetch Message Reply)

/-- `DEFAULT_SILENT_TOKEN_RETRY_COUNT`. -/
def DEFAULT_SILENT_TOKEN_RETRY_COUNT : Nat := 3

/-- What comes of one attempt on the network. -/
inductive NetworkOutcome where
  /-- `fetch` rejects with an `Error`. -/
  | rejected (message : String)
  | noAnswer
  | object (ok : Bool) (json : Obj)
  /-- The body is not JSON; the text is the one of the `SyntaxError`. -/
  | notJson (ok : Bool) (message : String)

inductive ErrorClass where
  | error
  | typeError
  | syntaxError
  | genericError
  | mfaRequiredError
deriving DecidableEq

/-- An error; `error` is the code that a `GenericError` has. -/
structure Thrown where
  errorClass : ErrorClass
  error : Value := .undefined
  message : String
  mfa_token : Value := .undefined

/-- What `switchFetch` resolves to. -/
inductive Resolved where
  | answer (ok : Bool) (json : Value)
  /-- A reply `{error: ''}`. -/
  | emptyError

/-- A promise: pending, rejected or resolved. -/
abbrev Promise (α : Type) := Option (Except Thrown α)

/-- Messages of the errors that the JavaScript engine throws. -/
structure EngineErrors extends Worker.EngineErrors where
  /-- Destructuring `undefined` or `null`. -/
  destructure : String

/-! ## One attempt -/

section Attempt

variable (E : EngineErrors) (network : Nat → NetworkOutcome) (m : Message)

/-- `fetchWithoutWorker`, the attempt `i`. -/
def fetchWithoutWorker (i : Nat) (fetches : List Fetch) : List Fetch × Promise Resolved :=
  (fetches ++ [⟨m.fetchUrl, m.body⟩],
    some (match network i with
      | .rejected message => .error { errorClass := .error, message }
      | .noAnswer =>
        .error { errorClass := .error, message := "Timeout when executing 'fetch'" }
      | .object ok json => .ok (.answer ok (.obj json))
      | .notJson _ message => .error { errorClass := .syntaxError, message }))

/-- The handler of a reply in `sendMessage`. -/
def onmessage : Reply → Except Thrown Resolved
  | .error message =>
    -- an empty message is no error: the reply is resolved as it is
    if message ≠ "" then .error { errorClass := .error, message } else .ok .emptyError
  | .answer ok json => .ok (.answer ok json)

/-- What happens to the run `k` of the worker's handler. -/
def NetworkOutcome.ops (k : Nat) : NetworkOutcome → List Worker.Op
  | .rejected message => [.raced k (.rejected message)]
  | .noAnswer => [.raced k .timeout]
  | .object ok json => [.raced k (.response ok), .json k (.ok (.obj json))]
  | .notJson ok message => [.raced k (.response ok), .json k (.error message)]

/-- `fetchWithWorker`, the attempt `i`: the message is handled, and the reply is
the one the handler posts. -/
def fetchWithWorker (i : Nat) (w : Worker.State) : Worker.State × Promise Resolved :=
  let w' := (Worker.machine E.toEngineErrors).run w
    (.message m :: (network i).ops w.activations.length)
  (w', (w'.posted.drop w.posted.length).head?.map fun posted => onmessage posted.2)

end Attempt

/-! ## `getJSON` -/

section GetJSON

variable {σ : Type} (E : EngineErrors) (switchFetch : Nat → σ → σ × Promise Resolved)

/-- The loop: `left` attempts remain after the attempt `i`. -/
def attempts : (left i : Nat) → σ → σ × Promise Resolved
  | 0, i, s => switchFetch i s
  | left + 1, i, s =>
    match switchFetch i s with
    | (s', some (.error _)) => attempts left (i + 1) s'
    | settled => settled

/-- The members a destructuring reads; bodies are objects here. -/
def members : Value → Option Obj
  | .undefined => none
  | .null => none
  | .obj o => some o
  | _ => some []

/-- Data or an error from the body of a response. -/
def readJson (url : String) (ok : Bool) (json : Obj) : Except Thrown Obj :=
  let error := json.get "error"
  let error_description := json.get "error_description"
  let data := json.without ["error", "error_description"]
  if !ok then
    let message := (error_description.or (.str ("HTTP error. Unable to fetch " ++ url))).text
    -- the only error with a class of its own
    if error.strictEq (.str "mfa_required") then
      .error { errorClass := .mfaRequiredError, error, message, mfa_token := data.get "mfa_token" }
    else .error { errorClass := .genericError, error := error.or (.str "request_error"), message }
  else .ok data

/-- After the loop. -/
def finish (url : String) : Except Thrown Resolved → Except Thrown Obj
  | .error fetchError =>
    .error { fetchError with
      message := if fetchError.message ≠ "" then fetchError.message else "Failed to fetch" }
  | .ok .emptyError => .error { errorClass := .typeError, message := E.destructure }
  | .ok (.answer ok json) =>
    match members json with
    | none => .error { errorClass := .typeError, message := E.destructure }
    | some o => readJson url ok o

/-- `getJSON`. -/
def getJSON (url : String) (s : σ) : σ × Promise Obj :=
  let r := attempts switchFetch (DEFAULT_SILENT_TOKEN_RETRY_COUNT - 1) 0 s
  (r.1, r.2.map (finish E url))

end GetJSON

/-! ## The two paths -/

/-- A request for tokens with an authorization code. -/
def CodeRequest (E : EngineErrors) (m : Message) : Prop :=
  ∃ body, Worker.parseBody E.toEngineErrors m = .ok (.obj body) ∧
    Obj.get body "grant_type" = .str "authorization_code"

/-- The same data up to the refresh token, or the same error. -/
def SameSettled : Promise Obj → Promise Obj → Prop
  | some (.ok data), some (.ok data') =>
    data.without ["refresh_token"] = data'.without ["refresh_token"]
  | some (.error e), some (.error e') =>
    e.errorClass = e'.errorClass ∧ e.error = e'.error ∧ e.message = e'.message
  | _, _ => False

/-- The same number of fetches, and settled in the same way. -/
def SameResult (fetches fetches' : Nat) (p p' : Promise Obj) : Prop :=
  fetches = fetches' ∧ SameSettled p p'

/-- The attempt is repeated on both sides. -/
def NetworkOutcome.retried : NetworkOutcome → Bool
  | .rejected _ => true
  | .noAnswer => true
  | _ => false

/-- The outcome is the same thing on both sides: its body is JSON, and a
rejection says something. -/
def NetworkOutcome.plain : NetworkOutcome → Bool
  | .rejected message => message ≠ ""
  | .notJson _ _ => false
  | _ => true

section Agree

variable {E : EngineErrors} {network : Nat → NetworkOutcome} {m : Message}

/-- The worker sends such a request as it is. -/
theorem CodeRequest.requestBody (h : CodeRequest E m) (refreshTokens : RefreshTokens) :
    Worker.requestBody E.toEngineErrors refreshTokens m = .ok m.body := by
  obtain ⟨body, hparse, hgrant⟩ := h
  have hne : (Value.str "authorization_code").strictEq (.str "refresh_token") = false := by decide
  simp only [Worker.requestBody, hparse, bind, Except.bind, Worker.member, hgrant, hne,
    Bool.and_false, Bool.false_eq_true, if_false]

/-- The worker after the message. -/
theorem CodeRequest.message (h : CodeRequest E m) (w : Worker.State) :
    w.message E.toEngineErrors m =
      { w with
        activations := w.activations ++ [.fetching m.audience m.scope]
        fetches := w.fetches ++ [⟨m.fetchUrl, m.body⟩] } := by
  unfold Worker.State.message
  rw [h.requestBody]

/-- What the page gets of an outcome through the worker. -/
def received (refreshTokens : RefreshTokens) (m : Message) : NetworkOutcome → Except Thrown Resolved
  | .rejected message => onmessage (.error message)
  | .noAnswer => onmessage (.error "Timeout when executing 'fetch'")
  | .object ok json =>
    .ok (.answer ok (.obj (Worker.response refreshTokens m.audience m.scope json).2))
  | .notJson _ message => onmessage (Worker.failure message)

/-- One attempt through the worker: a single fetch, and a reply. -/
theorem fetchWithWorker_spec (h : CodeRequest E m) (i : Nat) (w : Worker.State) :
    (fetchWithWorker E network m i w).1.fetches = w.fetches ++ [⟨m.fetchUrl, m.body⟩] ∧
      (fetchWithWorker E network m i w).2 = some (received w.refreshTokens m (network i)) := by
  -- the message is taken first, whatever the network does then
  have hrun : ∀ ops, (Worker.machine E.toEngineErrors).run w (.message m :: ops) =
      (Worker.machine E.toEngineErrors).run
        { w with
          activations := w.activations ++ [.fetching m.audience m.scope]
          fetches := w.fetches ++ [⟨m.fetchUrl, m.body⟩] } ops := by
    intro ops
    rw [Machine.run_cons, ← h.message w]
    rfl
  unfold fetchWithWorker
  rw [hrun]
  cases network i with
  | rejected message =>
    simp [NetworkOutcome.ops, Machine.run, Worker.machine, Worker.State.step, Worker.State.raced,
      Worker.State.post, received]
  | noAnswer =>
    simp [NetworkOutcome.ops, Machine.run, Worker.machine, Worker.State.step, Worker.State.raced,
      Worker.State.post, received]
  | object ok json =>
    simp [NetworkOutcome.ops, Machine.run, Worker.machine, Worker.State.step, Worker.State.raced,
      Worker.State.json, Worker.State.post, Worker.receive, received, onmessage]
  | notJson ok message =>
    simp [NetworkOutcome.ops, Machine.run, Worker.machine, Worker.State.step, Worker.State.raced,
      Worker.State.json, Worker.State.post, received]

/-! ### The loop -/

theorem attempts_retry {σ : Type} {switchFetch : Nat → σ → σ × Promise Resolved} {i : Nat}
    {s : σ} (s' : σ) {e : Thrown} (h : switchFetch i s = (s', some (.error e))) (left : Nat) :
    attempts switchFetch (left + 1) i s = attempts switchFetch left (i + 1) s' := by
  rw [attempts, h]

theorem attempts_stop {σ : Type} {switchFetch : Nat → σ → σ × Promise Resolved} {i : Nat}
    {s : σ} (s' : σ) {r : Resolved} (h : switchFetch i s = (s', some (.ok r))) (left : Nat) :
    attempts switchFetch left i s = (s', some (.ok r)) := by
  cases left with
  | zero => exact h
  | succ left => rw [attempts, h]

/-- The page fetches at least once. -/
theorem lt_length_attempts (left i : Nat) (fetches : List Fetch) :
    fetches.length < (attempts (fetchWithoutWorker network m) left i fetches).1.length := by
  induction left generalizing i fetches with
  | zero => simp [attempts, fetchWithoutWorker]
  | succ left ih =>
    have hnext := ih (i + 1) (fetches ++ [⟨m.fetchUrl, m.body⟩])
    rw [List.length_append, List.length_singleton] at hnext
    cases hout : network i with
    | object ok json =>
      rw [attempts_stop (fetches ++ [⟨m.fetchUrl, m.body⟩]) (r := .answer ok (.obj json))
        (by simp only [fetchWithoutWorker, hout])]
      simp
    | _ =>
      rw [attempts_retry (fetches ++ [⟨m.fetchUrl, m.body⟩])
        (by simp only [fetchWithoutWorker, hout]; rfl)]
      omega

/-- The outcomes that are reached are plain: the first `left + 1` from `i` on, up
to the first that is not repeated. -/
def PlainFrom (network : Nat → NetworkOutcome) (left i : Nat) : Prop :=
  ∀ k ≤ left, (∀ j < k, (network (i + j)).retried = true) → (network (i + k)).plain = true

theorem plainFrom_zero (i : Nat) : PlainFrom network 0 i ↔ (network i).plain = true := by
  refine ⟨fun h => h 0 (Nat.le_refl 0) (fun j hj => absurd hj (Nat.not_lt_zero j)), ?_⟩
  intro h k hk _
  obtain rfl := Nat.le_zero.mp hk
  exact h

theorem plainFrom_succ (left i : Nat) :
    PlainFrom network (left + 1) i ↔
      (network i).plain = true ∧ ((network i).retried = true → PlainFrom network left (i + 1)) := by
  constructor
  · intro h
    refine ⟨h 0 (Nat.zero_le _) (fun j hj => absurd hj (Nat.not_lt_zero j)), ?_⟩
    intro hretried k hk hbefore
    have hnext := h (k + 1) (Nat.succ_le_succ hk)
    rw [show i + (k + 1) = i + 1 + k by omega] at hnext
    refine hnext fun j hj => ?_
    cases j with
    | zero => exact hretried
    | succ j =>
      rw [show i + (j + 1) = i + 1 + j by omega]
      exact hbefore j (by omega)
  · rintro ⟨hplain, hrest⟩ k hk hbefore
    cases k with
    | zero => exact hplain
    | succ k =>
      rw [show i + (k + 1) = i + 1 + k by omega]
      refine hrest (hbefore 0 (Nat.succ_pos k)) k (by omega) fun j hj => ?_
      rw [show i + 1 + j = i + (j + 1) by omega]
      exact hbefore (j + 1) (by omega)

/-! ### Settling -/

theorem SameSettled.refl (r : Except Thrown Obj) : SameSettled (some r) (some r) := by
  cases r with
  | ok data => exact rfl
  | error e => exact ⟨rfl, rfl, rfl⟩

/-- The worker takes the refresh token out of a response and nothing else. -/
theorem same_response (refreshTokens : RefreshTokens) (audience scope : Value) (json : Obj) :
    Obj.Same ["refresh_token"] json (Worker.response refreshTokens audience scope json).2 := by
  unfold Worker.response
  split
  · exact Obj.same_without _ json
  · exact Obj.Same.refl _ _

theorem SameSettled.readJson {json json' : Obj} (h : Obj.Same ["refresh_token"] json json')
    (url : String) (ok : Bool) :
    SameSettled (some (readJson url ok json)) (some (readJson url ok json')) := by
  unfold Http.readJson
  rw [h.get (k := "error") (by decide), h.get (k := "error_description") (by decide)]
  dsimp only
  split
  · split
    · exact ⟨rfl, rfl, rfl⟩
    · exact ⟨rfl, rfl, rfl⟩
  · exact h.without _

/-! ### Both loops -/

/-- Both loops from the attempt `i` on, counted from the fetches before it. -/
def SameLoop (E : EngineErrors) (network : Nat → NetworkOutcome) (m : Message) (left i : Nat)
    (fetches : List Fetch) (w : Worker.State) : Prop :=
  let r := attempts (fetchWithoutWorker network m) left i fetches
  let r' := attempts (fetchWithWorker E network m) left i w
  SameResult (r.1.length + w.fetches.length) (r'.1.fetches.length + fetches.length)
    (r.2.map (finish E m.fetchUrl)) (r'.2.map (finish E m.fetchUrl))

/-- Both go on to the next attempt. -/
theorem sameLoop_retry (h : CodeRequest E m) {left i : Nat} {fetches : List Fetch}
    {w : Worker.State} {e e' : Thrown}
    (hpage : (fetchWithoutWorker network m i fetches).2 = some (.error e))
    (hworker : received w.refreshTokens m (network i) = .error e') :
    SameLoop E network m (left + 1) i fetches w ↔
      SameLoop E network m left (i + 1) (fetches ++ [⟨m.fetchUrl, m.body⟩])
        (fetchWithWorker E network m i w).1 := by
  obtain ⟨hfetches, hreply⟩ := @fetchWithWorker_spec E network m h i w
  rw [hworker] at hreply
  unfold SameLoop
  rw [attempts_retry (fetches ++ [⟨m.fetchUrl, m.body⟩]) (Prod.ext rfl hpage),
    attempts_retry (fetchWithWorker E network m i w).1 (Prod.ext rfl hreply)]
  simp only [SameResult, hfetches, List.length_append, List.length_singleton]
  constructor
  · exact fun ⟨hn, hs⟩ => ⟨by omega, hs⟩
  · exact fun ⟨hn, hs⟩ => ⟨by omega, hs⟩

/-- Only the page goes on: it fetches more often. -/
theorem not_sameLoop (h : CodeRequest E m) {left i : Nat} {fetches : List Fetch}
    {w : Worker.State} {e : Thrown} {r : Resolved}
    (hpage : (fetchWithoutWorker network m i fetches).2 = some (.error e))
    (hworker : received w.refreshTokens m (network i) = .ok r) :
    ¬SameLoop E network m (left + 1) i fetches w := by
  obtain ⟨hfetches, hreply⟩ := @fetchWithWorker_spec E network m h i w
  rw [hworker] at hreply
  unfold SameLoop
  rw [attempts_retry (fetches ++ [⟨m.fetchUrl, m.body⟩]) (Prod.ext rfl hpage),
    attempts_stop (fetchWithWorker E network m i w).1 (Prod.ext rfl hreply)]
  rintro ⟨hn, _⟩
  have hmore := @lt_length_attempts network m left (i + 1)
    (fetches ++ [⟨m.fetchUrl, m.body⟩])
  simp only [hfetches, List.length_append, List.length_singleton] at hn hmore
  omega

/-- Both stop here. -/
theorem sameLoop_stop (h : CodeRequest E m) (left : Nat) {i : Nat} {fetches : List Fetch}
    {w : Worker.State} {r r' : Resolved}
    (hpage : (fetchWithoutWorker network m i fetches).2 = some (.ok r))
    (hworker : received w.refreshTokens m (network i) = .ok r') :
    SameLoop E network m left i fetches w ↔
      SameSettled (some (finish E m.fetchUrl (.ok r))) (some (finish E m.fetchUrl (.ok r'))) := by
  obtain ⟨hfetches, hreply⟩ := @fetchWithWorker_spec E network m h i w
  rw [hworker] at hreply
  unfold SameLoop
  rw [attempts_stop (fetches ++ [⟨m.fetchUrl, m.body⟩]) (Prod.ext rfl hpage),
    attempts_stop (fetchWithWorker E network m i w).1 (Prod.ext rfl hreply)]
  simp only [SameResult, hfetches, List.length_append, List.length_singleton, Option.map_some]
  exact and_iff_right (by omega)

/-- The last attempt. -/
theorem sameLoop_zero (h : CodeRequest E m) (i : Nat) (fetches : List Fetch) (w : Worker.State) :
    SameLoop E network m 0 i fetches w ↔
      SameSettled ((fetchWithoutWorker network m i fetches).2.map (finish E m.fetchUrl))
        (some (finish E m.fetchUrl (received w.refreshTokens m (network i)))) := by
  obtain ⟨hfetches, hreply⟩ := @fetchWithWorker_spec E network m h i w
  have hpage : (fetchWithoutWorker network m i fetches).1.length = fetches.length + 1 := by
    simp [fetchWithoutWorker]
  unfold SameLoop
  simp only [attempts, SameResult, hreply, hfetches, List.length_append, List.length_singleton,
    Option.map_some]
  exact and_iff_right (by omega)

/-- The two loops give the same exactly when what they meet is plain. -/
theorem sameLoop_iff (h : CodeRequest E m) (left i : Nat) (fetches : List Fetch)
    (w : Worker.State) :
    SameLoop E network m left i fetches w ↔ PlainFrom network left i := by
  induction left generalizing i fetches w with
  | zero =>
    rw [sameLoop_zero h, plainFrom_zero]
    cases hout : network i with
    | rejected message =>
      by_cases hmessage : message = ""
      · simp [fetchWithoutWorker, hout, hmessage, received, onmessage, finish, SameSettled,
          NetworkOutcome.plain]
      · simp [fetchWithoutWorker, hout, hmessage, received, onmessage, finish, SameSettled,
          NetworkOutcome.plain]
    | noAnswer =>
      simp [fetchWithoutWorker, hout, received, onmessage, finish, SameSettled,
        NetworkOutcome.plain]
    | object ok json =>
      simp only [fetchWithoutWorker, hout, received, Option.map_some, finish, members,
        NetworkOutcome.plain, iff_true]
      exact SameSettled.readJson (same_response _ _ _ json) _ ok
    | notJson ok message =>
      -- a `SyntaxError` of the page, a `GenericError` through the worker
      simp only [fetchWithoutWorker, hout, received, NetworkOutcome.plain, Bool.false_eq_true,
        iff_false]
      exact fun hsame => nomatch hsame.1
  | succ left ih =>
    rw [plainFrom_succ]
    cases hout : network i with
    | rejected message =>
      have hpage : (fetchWithoutWorker network m i fetches).2 =
          some (.error { errorClass := .error, message }) := by
        simp only [fetchWithoutWorker, hout]
      by_cases hmessage : message = ""
      · simp only [hmessage, NetworkOutcome.plain, ne_eq, not_true_eq_false, decide_false,
          Bool.false_eq_true, false_and, iff_false]
        exact not_sameLoop h hpage (by rw [hout, hmessage]; rfl)
      · rw [sameLoop_retry h hpage (by rw [hout, received, onmessage, if_pos hmessage]), ih]
        simp [NetworkOutcome.plain, NetworkOutcome.retried, hmessage]
    | noAnswer =>
      rw [sameLoop_retry h (by simp only [fetchWithoutWorker, hout]; rfl) (by rw [hout]; rfl), ih]
      simp [NetworkOutcome.plain, NetworkOutcome.retried]
    | object ok json =>
      rw [sameLoop_stop h (left + 1) (by simp only [fetchWithoutWorker, hout]; rfl)
        (by rw [hout]; rfl)]
      simp only [NetworkOutcome.plain, NetworkOutcome.retried, Bool.false_eq_true, false_imp_iff,
        and_true, iff_true]
      exact SameSettled.readJson (same_response _ _ _ json) _ ok
    | notJson ok message =>
      simp only [NetworkOutcome.plain, Bool.false_eq_true, false_and, iff_false]
      exact not_sameLoop h (by simp only [fetchWithoutWorker, hout]; rfl) (by rw [hout]; rfl)

end Agree

/-- **Worker and page agree.** `getJSON` for an authorization code gives the same
with the worker, in any state, and without: the same number of fetches, and the
same data up to the refresh token or an error of the same class, code and
message. It does so exactly when no attempt it makes, one after another as long
as they are rejected or time out, meets a body that is not JSON or a rejection
with an empty message. -/
theorem worker_agrees (E : EngineErrors) (network : Nat → NetworkOutcome) (m : Message)
    (hm : CodeRequest E m) (w : Worker.State) :
    SameResult
        ((getJSON E (fetchWithoutWorker network m) m.fetchUrl []).1.length + w.fetches.length)
        (getJSON E (fetchWithWorker E network m) m.fetchUrl w).1.fetches.length
        (getJSON E (fetchWithoutWorker network m) m.fetchUrl []).2
        (getJSON E (fetchWithWorker E network m) m.fetchUrl w).2 ↔
      ∀ i < DEFAULT_SILENT_TOKEN_RETRY_COUNT,
        (∀ j < i, (network j).retried = true) → (network i).plain = true := by
  have hloop := @sameLoop_iff E network m hm (DEFAULT_SILENT_TOKEN_RETRY_COUNT - 1) 0 [] w
  refine hloop.trans ?_
  simp only [PlainFrom, Nat.zero_add, DEFAULT_SILENT_TOKEN_RETRY_COUNT, Nat.lt_succ_iff]

/-- A code exchange, as `oauthToken` makes it with `useFormData`. -/
def codeExchange : Message :=
  ⟨.str "default", .str "openid", "https://idp/oauth/token",
    some "grant_type=authorization_code&code=c", true⟩

def plainErrors : EngineErrors where
  toEngineErrors := Worker.plainErrors
  destructure := "Cannot destructure property 'error' of undefined"

theorem codeRequest_codeExchange : CodeRequest plainErrors codeExchange := by
  refine ⟨Worker.formDataToObject "grant_type=authorization_code&code=c", rfl, ?_⟩
  exact (Value.strictEq_str _ _).mp (by decide +kernel)

/-- A request that is rejected once and then answered. -/
def offlineOnce : Nat → NetworkOutcome
  | 0 => .rejected "offline"
  | _ => .object true [("access_token", .str "access"), ("refresh_token", .str "refresh")]

theorem worker_agrees_offline :
    SameResult
      (getJSON plainErrors (fetchWithoutWorker offlineOnce codeExchange)
        codeExchange.fetchUrl []).1.length
      (getJSON plainErrors (fetchWithWorker plainErrors offlineOnce codeExchange)
        codeExchange.fetchUrl {}).1.fetches.length
      (getJSON plainErrors (fetchWithoutWorker offlineOnce codeExchange)
        codeExchange.fetchUrl []).2
      (getJSON plainErrors (fetchWithWorker plainErrors offlineOnce codeExchange)
        codeExchange.fetchUrl {}).2 := by
  refine (worker_agrees plainErrors offlineOnce codeExchange codeRequest_codeExchange {}).mpr ?_
  intro i _ _
  cases i with
  | zero => decide
  | succ i => rfl

/-- A proxy that answers with a page of HTML. -/
def badGateway : Nat → NetworkOutcome :=
  fun _ => .notJson false "Unexpected token < in JSON at position 0"

/-- The page asks three times, the worker once. -/
theorem bad_gateway_differs :
    ¬SameResult
      (getJSON plainErrors (fetchWithoutWorker badGateway codeExchange)
        codeExchange.fetchUrl []).1.length
      (getJSON plainErrors (fetchWithWorker plainErrors badGateway codeExchange)
        codeExchange.fetchUrl {}).1.fetches.length
      (getJSON plainErrors (fetchWithoutWorker badGateway codeExchange)
        codeExchange.fetchUrl []).2
      (getJSON plainErrors (fetchWithWorker plainErrors badGateway codeExchange)
        codeExchange.fetchUrl {}).2 := by
  have hpage : (getJSON plainErrors (fetchWithoutWorker badGateway codeExchange)
      codeExchange.fetchUrl []).1.length = 3 := by decide +kernel
  have hworker : (getJSON plainErrors (fetchWithWorker plainErrors badGateway codeExchange)
      codeExchange.fetchUrl {}).1.fetches.length = 1 := by decide +kernel
  rintro ⟨hn, _⟩
  rw [hpage, hworker] at hn
  cases hn

end AuthokSpa.Http
