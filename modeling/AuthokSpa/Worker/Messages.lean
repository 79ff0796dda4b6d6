import AuthokSpa.Js.Form
import AuthokSpa.Js.Json
import AuthokSpa.Machine
import AuthokSpa.Worker

/-!
# The message handler of the worker (`worker/token.worker.ts`)

`messageHandler` runs once for every message and stops twice on its way: for the
answer of `fetch`, raced against the timeout, and for the body of the response.
The runs share the memory of refresh tokens and interleave in any order.

A response is posted back without its refresh token, and the stored one goes
into the bodies of later requests only. `worker_noninterference` says that what
is posted does not depend on it: of two runs whose responses differ in the
refresh tokens alone, the ports see the same.

The texts of the errors that the engine throws are parameters.
-/

namespace AuthokSpa.Worker

open Js (Value Obj)

/-- Messages of the errors that the JavaScript engine throws. -/
structure EngineErrors where
  /-- `JSON.parse` on a text that is not JSON. -/
  syntaxError : String → String
  /-- Reading a member of `null`. -/
  nullMember : String → String

/-- `WorkerRefreshTokenMessage`, as far as it is read. -/
structure Message where
  audience : Value
  scope : Value
  fetchUrl : String
  body : Option String
  useFormData : Bool

/-- What is posted on a port. -/
inductive Reply where
  | error (message : String)
  | answer (ok : Bool) (json : Value)

/-- A call of `fetch`. -/
structure Fetch where
  url : String
  body : Option String

/-- Where a run of the handler stands. -/
inductive Activation where
  | fetching (audience scope : Value)
  | reading (audience scope : Value) (ok : Bool)
  | finished

/-- How the race between `fetch` and the timeout ends. -/
inductive RaceResult where
  | rejected (message : String)
  | timeout
  | response (ok : Bool)

/-- The worker: its memory, the runs of its handler, the requests made and the
replies posted, each with its run. -/
structure State where
  refreshTokens : RefreshTokens := []
  activations : List Activation := []
  fetches : List Fetch := []
  posted : List (Nat × Reply) := []

inductive Op where
  | message (m : Message)
  | raced (i : Nat) (r : RaceResult)
  /-- `response.json()` settles. -/
  | json (i : Nat) (json : Except String Value)

variable (E : EngineErrors)

/-- `formDataToObject`; assigning a string to `__proto__` does nothing. -/
def formDataToObject (formData : String) : Obj :=
  (Js.formParse formData).foldl
    (fun o p => if p.1 = "__proto__" then o else Obj.set o p.1 (.str p.2)) []

/-- The body of a request, parsed; `undefined` is read as the text it prints as. -/
def parseBody (m : Message) : Except String Value :=
  if m.useFormData then .ok (.obj (formDataToObject (m.body.getD "")))
  else
    match Js.parse (m.body.getD "undefined") with
    | some v => .ok v
    | none => .error (E.syntaxError (m.body.getD "undefined"))

/-- Reading a member of a parsed value; only `null` throws. -/
def member (v : Value) (k : String) : Except String Value :=
  match v with
  | .null => .error (E.nullMember k)
  | .obj o => .ok (Obj.get o k)
  | _ => .ok .undefined

/-- `{...body, refresh_token: refreshToken}`. -/
def withRefreshToken (body : Value) (refreshToken : Value) : Obj :=
  match body with
  | .obj o => Obj.set o "refresh_token" refreshToken
  | _ => [("refresh_token", refreshToken)]

/-- The text of a rewritten body. -/
def printBody (useFormData : Bool) (body : Obj) : Option String :=
  if useFormData then some (Js.formSerialize (body.map fun m => (m.1, m.2.text)))
  else (Js.stringify (.obj body)).map String.ofList

/-- The body that is sent: with the refresh token in memory if the request wants
one and has none. -/
def requestBody (refreshTokens : RefreshTokens) (m : Message) : Except String (Option String) := do
  let body ← parseBody E m
  let refresh_token ← member E body "refresh_token"
  let grant_type ← member E body "grant_type"
  if !refresh_token.truthy && grant_type.strictEq (.str "refresh_token") then
    match request refreshTokens m.audience m.scope refresh_token with
    -- thrown, and so answered by the outer `catch`
    | none => .error MISSING_REFRESH_TOKEN_ERROR_MESSAGE
    | some t => .ok (printBody m.useFormData (withRefreshToken body t))
  else .ok m.body

/-- The reply of the outer `catch`. -/
def failure (message : String) : Reply :=
  .answer false (.obj [("error_description", .str message)])

/-- The memory after a response, and what is posted of it. -/
def receive (refreshTokens : RefreshTokens) (audience scope json : Value) :
    RefreshTokens × Except String Value :=
  match json with
  | .null => (refreshTokens, .error (E.nullMember "refresh_token"))
  | .obj o =>
    let r := response refreshTokens audience scope o
    (r.1, .ok (.obj r.2))
  -- a body without members brings no refresh token, so the slot is emptied
  | v => (refreshTokens.erase (cacheKey audience scope), .ok v)

namespace State

variable (s : State)

/-- A message arrives. -/
def message (m : Message) : State :=
  match requestBody E s.refreshTokens m with
  | .error e =>
    { s with
      activations := s.activations ++ [.finished]
      posted := s.posted ++ [(s.activations.length, failure e)] }
  | .ok body =>
    { s with
      activations := s.activations ++ [.fetching m.audience m.scope]
      fetches := s.fetches ++ [⟨m.fetchUrl, body⟩] }

/-- The run `i` posts a reply and ends. -/
def post (i : Nat) (reply : Reply) : State :=
  { s with activations := s.activations.set i .finished, posted := s.posted ++ [(i, reply)] }

/-- The race of the run `i` is decided. -/
def raced (i : Nat) (r : RaceResult) : State :=
  match s.activations[i]? with
  | some (.fetching audience scope) =>
    match r with
    | .rejected message => s.post i (.error message)
    -- the fetch is aborted; its own end is not heard any more
    | .timeout => s.post i (.error "Timeout when executing 'fetch'")
    | .response ok =>
      { s with activations := s.activations.set i (.reading audience scope ok) }
  | _ => s

/-- The body of the response of the run `i`. -/
def json (i : Nat) (json : Except String Value) : State :=
  match s.activations[i]? with
  | some (.reading audience scope ok) =>
    match json with
    | .error e => s.post i (failure e)
    | .ok v =>
      let r := receive E s.refreshTokens audience scope v
      { s with refreshTokens := r.1 }.post i
        (match r.2 with
          | .error e => failure e
          | .ok v => .answer ok v)
  | _ => s

def step (op : Op) : State :=
  match op with
  | .message m => s.message E m
  | .raced i r => s.raced i r
  | .json i json => s.json E i json

end State

/-- `token.worker.ts`. -/
def machine : Machine State Op Unit where
  step s op := (s.step E op, ())

/-! ## Two runs -/

/-- Two refresh tokens that cannot be told apart by asking whether there is one. -/
inductive SameToken : Value → Value → Prop
  | refl (v : Value) : SameToken v v
  | token {t t' : String} : t ≠ "" → t' ≠ "" → SameToken (.str t) (.str t')

/-- Two responses that differ at most in their refresh tokens, which are
non-empty strings where they do. -/
inductive SameResponse : Value → Value → Prop
  | refl (v : Value) : SameResponse v v
  | token {o o' : Obj} {t t' : String} :
    o.without ["refresh_token"] = o'.without ["refresh_token"] →
    Obj.get o "refresh_token" = .str t → Obj.get o' "refresh_token" = .str t' → t ≠ "" → t' ≠ "" →
    SameResponse (.obj o) (.obj o')

/-- The same happens in both runs, but for refresh tokens in the responses. -/
inductive SameOp : Op → Op → Prop
  | message (m : Message) : SameOp (.message m) (.message m)
  | raced (i : Nat) (r : RaceResult) : SameOp (.raced i r) (.raced i r)
  | jsonFailed (i : Nat) (e : String) : SameOp (.json i (.error e)) (.json i (.error e))
  | json (i : Nat) {v v' : Value} : SameResponse v v' → SameOp (.json i (.ok v)) (.json i (.ok v'))

/-- The same slots are taken, by tokens that cannot be told apart. -/
def SameMemory (m m' : RefreshTokens) : Prop :=
  ∀ key, Option.Rel SameToken (m.find key) (m'.find key)

/-- What the two runs have in common. -/
structure Agree (s s' : State) : Prop where
  memory : SameMemory s.refreshTokens s'.refreshTokens
  activations : s.activations = s'.activations
  posted : s.posted = s'.posted

variable {E}

theorem SameToken.truthy {v v' : Value} (h : SameToken v v') : v.truthy = v'.truthy := by
  cases h with
  | refl => rfl
  | token ht ht' => simp [ht, ht']

theorem SameMemory.insert {m m' : RefreshTokens} (h : SameMemory m m') (key : String)
    {v v' : Value} (hv : SameToken v v') : SameMemory (m.insert key v) (m'.insert key v') := by
  intro k
  rw [Js.OrdMap.find_insert, Js.OrdMap.find_insert]
  split
  · exact .some hv
  · exact h k

theorem SameMemory.erase {m m' : RefreshTokens} (h : SameMemory m m') (key : String) :
    SameMemory (m.erase key) (m'.erase key) := by
  intro k
  rw [Js.OrdMap.find_erase, Js.OrdMap.find_erase]
  split
  · exact .none
  · exact h k

/-- Both runs send a request, or neither has a token. -/
theorem SameMemory.request {m m' : RefreshTokens} (h : SameMemory m m')
    (audience scope refresh_token : Value) :
    (Worker.request m audience scope refresh_token).isSome =
      (Worker.request m' audience scope refresh_token).isSome := by
  have hfind := h (cacheKey audience scope)
  unfold Worker.request
  split
  · rfl
  · generalize Js.OrdMap.find m (cacheKey audience scope) = x at hfind
    generalize Js.OrdMap.find m' (cacheKey audience scope) = x' at hfind
    cases hfind with
    | none => rfl
    | some hv =>
      dsimp only
      rw [hv.truthy]
      split <;> rfl

/-- What becomes of a message does not depend on the tokens. -/
theorem SameMemory.requestBody {m m' : RefreshTokens} (h : SameMemory m m') (msg : Message) :
    (∃ e, Worker.requestBody E m msg = .error e ∧ Worker.requestBody E m' msg = .error e) ∨
      ∃ body body', Worker.requestBody E m msg = .ok body ∧
        Worker.requestBody E m' msg = .ok body' := by
  unfold Worker.requestBody
  cases hbody : parseBody E msg with
  | error e => exact Or.inl ⟨e, rfl, rfl⟩
  | ok body =>
    simp only [bind, Except.bind]
    cases hr : member E body "refresh_token" with
    | error e => exact Or.inl ⟨e, rfl, rfl⟩
    | ok refresh_token =>
      dsimp only
      cases hg : member E body "grant_type" with
      | error e => exact Or.inl ⟨e, rfl, rfl⟩
      | ok grant_type =>
        dsimp only
        split
        · -- whether there is a token is the same in both memories
          have hsome := h.request msg.audience msg.scope refresh_token
          cases hreq : Worker.request m msg.audience msg.scope refresh_token with
          | none =>
            rw [hreq] at hsome
            have hnone : Worker.request m' msg.audience msg.scope refresh_token = none :=
              Option.not_isSome_iff_eq_none.mp (by simp [← hsome])
            rw [hnone]
            exact Or.inl ⟨_, rfl, rfl⟩
          | some t =>
            rw [hreq] at hsome
            obtain ⟨t', ht'⟩ := Option.isSome_iff_exists.mp hsome.symm
            rw [ht']
            exact Or.inr ⟨_, _, rfl, rfl⟩
        · exact Or.inr ⟨_, _, rfl, rfl⟩

/-- What is posted of a response does not depend on its token. -/
theorem SameMemory.receive {m m' : RefreshTokens} (h : SameMemory m m') (audience scope : Value)
    {v v' : Value} (hv : SameResponse v v') :
    SameMemory (Worker.receive E m audience scope v).1 (Worker.receive E m' audience scope v').1 ∧
      (Worker.receive E m audience scope v).2 = (Worker.receive E m' audience scope v').2 := by
  cases hv with
  | refl v =>
    cases v with
    | null => exact ⟨h, rfl⟩
    | obj o =>
      simp only [Worker.receive, response]
      split
      · exact ⟨h.insert _ (.refl _), rfl⟩
      · exact ⟨h.erase _, rfl⟩
    | _ => exact ⟨h.erase _, rfl⟩
  | @token o o' t t' hrest ht ht' hne hne' =>
    have htruthy : (Value.str t).truthy = true := by simpa using hne
    have htruthy' : (Value.str t').truthy = true := by simpa using hne'
    simp only [Worker.receive, response, ht, ht', htruthy, htruthy', if_true, hrest, and_true]
    exact h.insert _ (.token hne hne')

theorem Agree.post {s s' : State} (h : Agree s s') (i : Nat) (reply : Reply) :
    Agree (s.post i reply) (s'.post i reply) := by
  refine ⟨h.memory, ?_, ?_⟩
  · show s.activations.set i _ = s'.activations.set i _
    rw [h.activations]
  · show s.posted ++ _ = s'.posted ++ _
    rw [h.posted]

theorem Agree.message {s s' : State} (h : Agree s s') (m : Message) :
    Agree (s.message E m) (s'.message E m) := by
  unfold State.message
  rcases h.memory.requestBody (E := E) m with ⟨e, he, he'⟩ | ⟨body, body', hb, hb'⟩
  · rw [he, he']
    exact ⟨h.memory, by simp only [h.activations], by simp only [h.activations, h.posted]⟩
  · rw [hb, hb']
    exact ⟨h.memory, by simp only [h.activations], h.posted⟩

theorem Agree.raced {s s' : State} (h : Agree s s') (i : Nat) (r : RaceResult) :
    Agree (s.raced i r) (s'.raced i r) := by
  unfold State.raced
  rw [← h.activations]
  split
  · cases r with
    | rejected message => exact h.post i _
    | timeout => exact h.post i _
    | response ok => exact ⟨h.memory, by simp only [h.activations], h.posted⟩
  · exact h

theorem Agree.json {s s' : State} (h : Agree s s') (i : Nat) {v v' : Value}
    (hv : SameResponse v v') : Agree (s.json E i (.ok v)) (s'.json E i (.ok v')) := by
  unfold State.json
  rw [← h.activations]
  split
  next audience scope ok _ =>
    obtain ⟨hmemory, hposted⟩ := h.memory.receive (E := E) audience scope hv
    dsimp only
    rw [hposted]
    have hreceived : Agree { s with refreshTokens := (receive E s.refreshTokens audience scope v).1 }
        { s' with
          refreshTokens := (receive E s'.refreshTokens audience scope v').1
          activations := s.activations } :=
      ⟨hmemory, rfl, h.posted⟩
    exact hreceived.post i _
  next => exact h

/-- One step of both runs. -/
theorem Agree.step {s s' : State} (h : Agree s s') {op op' : Op} (hop : SameOp op op') :
    Agree (s.step E op) (s'.step E op') := by
  cases hop with
  | message m => exact h.message m
  | raced i r => exact h.raced i r
  | json i hv => exact h.json i hv
  | jsonFailed i e =>
    unfold State.step State.json
    dsimp only
    rw [← h.activations]
    split
    · exact h.post i _
    · exact h

/-- **Refresh tokens stay inside the worker.** Of two runs with the same messages
in the same interleaving, whose responses differ at most in the non-empty
strings that are their refresh tokens, the ports see the same. -/
theorem worker_noninterference (E : EngineErrors) {ops ops' : List Op}
    (h : List.Forall₂ SameOp ops ops') :
    ((machine E).run {} ops).posted = ((machine E).run {} ops').posted := by
  have hstart : Agree {} {} := ⟨fun _ => .none, rfl, rfl⟩
  exact (Machine.run_related (M := machine E) (N := machine E) (R := Agree) (Q := SameOp)
    (fun _ _ _ _ hs hop => hs.step hop) h hstart).posted

/-- A login and a refresh, with `secret` for a refresh token. -/
def secretOps (secret : String) : List Op :=
  [.message ⟨.str "api", .str "openid", "https://idp/oauth/token",
      some "grant_type=authorization_code", true⟩,
    .raced 0 (.response true),
    .json 0 (.ok (.obj [("access_token", .str "access"), ("refresh_token", .str secret)])),
    .message ⟨.str "api", .str "openid", "https://idp/oauth/token",
      some "grant_type=refresh_token", true⟩,
    .raced 1 (.rejected "offline")]

def plainErrors : EngineErrors where
  syntaxError text := "Unexpected token in JSON: " ++ text
  nullMember name := "Cannot read properties of null, reading " ++ name

/-- The refresh is sent with the secret, and nothing of it is posted. -/
theorem worker_noninterference_refresh :
    ((machine plainErrors).run {} (secretOps "a")).posted =
        ((machine plainErrors).run {} (secretOps "b")).posted ∧
      ((machine plainErrors).run {} (secretOps "a")).fetches.map Fetch.body =
        [some "grant_type=authorization_code", some "grant_type=refresh_token&refresh_token=a"] := by
  refine ⟨worker_noninterference plainErrors ?_, by decide +kernel⟩
  refine .cons (.message _) (.cons (.raced _ _) (.cons (.json _ ?_) (.cons (.message _)
    (.cons (.raced _ _) .nil))))
  exact .token rfl rfl rfl (by decide) (by decide)

end AuthokSpa.Worker
