import AuthokSpa.Worker.Messages

/-!
# The slots of the worker's memory

The memory of the worker has one slot for every audience and scope. A run of the
handler reads its slot when the message arrives and writes it when the body of
the response is there, with any number of other runs in between.

The memory is what the responses of a run make of it, one after another
(`run_refreshTokens`), and a response touches no slot but its own as long as
audiences have no `|` (`cacheKey_inj`). So what a request finds is decided by the
last response for its audience and scope: `slot_semantics`.

A response writes the slot whether it is ok or not. `failure_keeps_tokens_iff`
says for which failures the memory stays as it was.
-/

namespace AuthokSpa.Worker

open Js (Value Obj OrdMap)

variable {E : EngineErrors}

/-! ## Responses -/

/-- A response that the handler has read, as far as it concerns the memory. -/
structure Received where
  audience : Value
  scope : Value
  token : Option Value

/-- `json.refresh_token`, if there is one. -/
def tokenOf : Value → Option Value
  | .obj o => if (Obj.get o "refresh_token").truthy then some (Obj.get o "refresh_token") else none
  | _ => none

/-- The response that a step brings. The handler throws on `null` as it does on a
body that is not JSON: such a response is not processed. -/
def received (s : State) : Op → List Received
  | .json i (.ok v) =>
    match s.activations[i]? with
    | some (.reading audience scope _) =>
      match v with
      | .null => []
      | v => [⟨audience, scope, tokenOf v⟩]
    | _ => []
  | _ => []

/-- The responses processed in a run, in their order. -/
def responses (E : EngineErrors) : State → List Op → List Received
  | _, [] => []
  | s, op :: ops => received s op ++ responses E (s.step E op) ops

/-- `setRefreshToken` or `deleteRefreshToken`. -/
def Received.write (refreshTokens : RefreshTokens) (r : Received) : RefreshTokens :=
  match r.token with
  | some t => refreshTokens.insert (cacheKey r.audience r.scope) t
  | none => refreshTokens.erase (cacheKey r.audience r.scope)

theorem receive_write (refreshTokens : RefreshTokens) (audience scope v : Value)
    (hv : v ≠ .null) :
    (receive E refreshTokens audience scope v).1 =
      Received.write refreshTokens ⟨audience, scope, tokenOf v⟩ := by
  cases v with
  | null => exact absurd rfl hv
  | obj o =>
    simp only [receive, response, Received.write, tokenOf]
    cases (Obj.get o "refresh_token").truthy <;> rfl
  | _ => rfl

theorem received_null (s : State) (i : Nat) : received s (.json i (.ok .null)) = [] := by
  unfold received
  dsimp only
  split <;> rfl

theorem received_reading {s : State} {i : Nat} {audience scope v : Value} {ok : Bool}
    (hi : s.activations[i]? = some (.reading audience scope ok)) (hv : v ≠ .null) :
    received s (.json i (.ok v)) = [⟨audience, scope, tokenOf v⟩] := by
  unfold received
  simp only [hi]

/-- The memory after a step: only a response that is read touches it. -/
theorem step_refreshTokens (s : State) (op : Op) :
    (s.step E op).refreshTokens = (received s op).foldl Received.write s.refreshTokens := by
  cases op with
  | message m =>
    show (s.message E m).refreshTokens = s.refreshTokens
    unfold State.message
    split <;> rfl
  | raced i r =>
    show (s.raced i r).refreshTokens = s.refreshTokens
    unfold State.raced
    split
    · cases r <;> rfl
    · rfl
  | json i json =>
    show (s.json E i json).refreshTokens = _
    cases json with
    | error e =>
      unfold State.json
      split <;> rfl
    | ok v =>
      cases hi : s.activations[i]? with
      | none => simp only [State.json, received, hi, List.foldl_nil]
      | some activation =>
        cases activation with
        | fetching audience scope => simp only [State.json, received, hi, List.foldl_nil]
        | finished => simp only [State.json, received, hi, List.foldl_nil]
        | reading audience scope ok =>
          -- a body `null` throws in the handler before anything is written
          by_cases hv : v = .null
          · subst hv
            rw [received_null]
            simp only [State.json, hi, receive, State.post, List.foldl_nil]
          · rw [received_reading hi hv, List.foldl_cons, List.foldl_nil,
              ← receive_write (E := E) _ _ _ _ hv]
            simp only [State.json, hi, State.post]

/-- The memory after a run is what its responses made of it, one after another. -/
theorem run_refreshTokens (ops : List Op) (s : State) :
    ((machine E).run s ops).refreshTokens =
      (responses E s ops).foldl Received.write s.refreshTokens := by
  induction ops generalizing s with
  | nil => rfl
  | cons op ops ih =>
    rw [Machine.run_cons, ih, responses, List.foldl_append, ← step_refreshTokens]
    rfl

/-! ## Slots -/

/-- The audience can be read back from a key. -/
def Addressed (audience scope : Value) : Prop :=
  ∃ a sc : String, audience = .str a ∧ scope = .str sc ∧ '|' ∉ a.toList

/-- Two audiences without `|` share a key only with themselves. -/
theorem cacheKey_inj {a a' sc sc' : String} (ha : '|' ∉ a.toList) (ha' : '|' ∉ a'.toList)
    (h : cacheKey (.str a) (.str sc) = cacheKey (.str a') (.str sc')) : a = a' ∧ sc = sc' := by
  unfold cacheKey at h
  simp only [Value.text_str] at h
  have hsplit := congrArg (Js.split "|") h
  rw [Js.split_append sc (show "|" ≠ "" by decide) (Js.sepFree_singleton ha),
    Js.split_append sc' (show "|" ≠ "" by decide) (Js.sepFree_singleton ha')] at hsplit
  obtain rfl := (List.cons.inj hsplit).1
  refine ⟨rfl, ?_⟩
  have hlist := congrArg String.toList h
  simp only [String.toList_append] at hlist
  exact String.toList_inj.mp (List.append_cancel_left (List.append_cancel_left hlist))

/-- The response answers a message for `(audience, scope)`. -/
def Received.isFor (audience scope : String) (r : Received) : Bool :=
  r.audience.strictEq (.str audience) && r.scope.strictEq (.str scope)

/-- The refresh token of the last response for `(audience, scope)`. -/
def lastToken (audience scope : String) (rs : List Received) : Option Value :=
  (rs.filter (Received.isFor audience scope)).getLast?.bind Received.token

theorem Received.isFor_iff {audience scope : String} {r : Received} :
    r.isFor audience scope = true ↔ r.audience = .str audience ∧ r.scope = .str scope := by
  unfold Received.isFor
  rw [Bool.and_eq_true, Value.strictEq_str, Value.strictEq_str]

/-- A response writes its own slot and no other. -/
theorem find_write {audience scope : String} (haudience : '|' ∉ audience.toList) {r : Received}
    (hr : Addressed r.audience r.scope) (refreshTokens : RefreshTokens) :
    (r.write refreshTokens).find (cacheKey (.str audience) (.str scope)) =
      if r.isFor audience scope then r.token
      else refreshTokens.find (cacheKey (.str audience) (.str scope)) := by
  obtain ⟨a, sc, ha, hsc, hbar⟩ := hr
  have hkey : cacheKey r.audience r.scope = cacheKey (.str audience) (.str scope) ↔
      r.isFor audience scope = true := by
    rw [Received.isFor_iff, ha, hsc]
    constructor
    · intro h
      obtain ⟨rfl, rfl⟩ := cacheKey_inj hbar haudience h
      exact ⟨rfl, rfl⟩
    · rintro ⟨h, h'⟩
      rw [h, h']
  unfold Received.write
  cases htoken : r.token with
  | some t =>
    dsimp only
    rw [OrdMap.find_insert]
    simp only [hkey]
  | none =>
    dsimp only
    rw [OrdMap.find_erase]
    simp only [hkey]

/-- After some responses a slot holds the token of the last one for it. -/
theorem find_foldl_write {audience scope : String} (haudience : '|' ∉ audience.toList)
    (rs : List Received) (hrs : ∀ r ∈ rs, Addressed r.audience r.scope) :
    (rs.foldl Received.write []).find (cacheKey (.str audience) (.str scope)) =
      lastToken audience scope rs := by
  induction rs using List.reverseRecOn with
  | nil => rfl
  | append_singleton rs r ih =>
    have hlast : Addressed r.audience r.scope := hrs r (by simp)
    have hfirst := ih fun x hx => hrs x (List.mem_append_left _ hx)
    rw [List.foldl_append, List.foldl_cons, List.foldl_nil, find_write haudience hlast, hfirst]
    unfold lastToken
    rw [List.filter_append, List.filter_singleton]
    cases r.isFor audience scope with
    | true => simp
    | false => simp

/-! ## Whole runs -/

/-- The messages of a run name an audience and a scope. -/
def AllAddressed (ops : List Op) : Prop :=
  ∀ m, Op.message m ∈ ops → Addressed m.audience m.scope

/-- What the runs of the handler remember of their messages. -/
def State.Addressed (s : State) : Prop :=
  ∀ audience scope, (Activation.fetching audience scope ∈ s.activations ∨
    ∃ ok, Activation.reading audience scope ok ∈ s.activations) → Worker.Addressed audience scope

theorem State.Addressed.set {s : State} (h : s.Addressed) (i : Nat) (activation : Activation)
    (hnew : ∀ audience scope ok, activation = .reading audience scope ok →
      Worker.Addressed audience scope)
    (hfetch : ∀ audience scope, activation ≠ .fetching audience scope) :
    State.Addressed { s with activations := s.activations.set i activation } := by
  rintro audience scope (hmem | ⟨ok, hmem⟩)
  · rcases List.mem_or_eq_of_mem_set hmem with hold | hsame
    · exact h audience scope (Or.inl hold)
    · exact absurd hsame.symm (hfetch audience scope)
  · rcases List.mem_or_eq_of_mem_set hmem with hold | hsame
    · exact h audience scope (Or.inr ⟨ok, hold⟩)
    · exact hnew audience scope ok hsame.symm

theorem State.Addressed.finish {s : State} (h : s.Addressed) (i : Nat) :
    State.Addressed { s with activations := s.activations.set i .finished } :=
  h.set i .finished (fun _ _ _ hc => Activation.noConfusion hc)
    (fun _ _ hc => Activation.noConfusion hc)

theorem State.Addressed.step {s : State} (h : s.Addressed) {op : Op}
    (hop : ∀ m, op = .message m → Worker.Addressed m.audience m.scope) :
    (s.step E op).Addressed := by
  cases op with
  | message m =>
    show (s.message E m).Addressed
    unfold State.message
    split
    · rintro audience scope (hmem | ⟨ok, hmem⟩)
      · exact h audience scope (Or.inl (by simpa using hmem))
      · exact h audience scope (Or.inr ⟨ok, by simpa using hmem⟩)
    · rintro audience scope (hmem | ⟨ok, hmem⟩)
      · rcases List.mem_append.mp hmem with hold | hnew
        · exact h audience scope (Or.inl hold)
        · obtain ⟨rfl, rfl⟩ := Activation.fetching.inj (List.mem_singleton.mp hnew)
          exact hop m rfl
      · exact h audience scope (Or.inr ⟨ok, by simpa using hmem⟩)
  | raced i r =>
    show (s.raced i r).Addressed
    unfold State.raced
    split
    next audience scope hi =>
      cases r with
      | rejected message => exact h.finish i
      | timeout => exact h.finish i
      | response ok =>
        -- the activation that reads the response is the one that fetched it
        refine h.set i _ ?_ (fun _ _ hc => Activation.noConfusion hc)
        intro audience' scope' ok' hsame
        obtain ⟨rfl, rfl, -⟩ := Activation.reading.inj hsame
        exact h audience scope (Or.inl (List.mem_of_getElem? hi))
    next => exact h
  | json i json =>
    show (s.json E i json).Addressed
    unfold State.json
    split
    · cases json with
      | error e => exact h.finish i
      | ok v => exact h.finish i
    · exact h

theorem addressed_received {s : State} (h : s.Addressed) {op : Op} {r : Received}
    (hr : r ∈ received s op) : Addressed r.audience r.scope := by
  cases op with
  | message m => exact absurd hr List.not_mem_nil
  | raced i x => exact absurd hr List.not_mem_nil
  | json i json =>
    cases json with
    | error e => exact absurd hr List.not_mem_nil
    | ok v =>
      cases hi : s.activations[i]? with
      | none => simp [received, hi] at hr
      | some activation =>
        cases activation with
        | fetching audience scope => simp [received, hi] at hr
        | finished => simp [received, hi] at hr
        | reading audience scope ok =>
          by_cases hv : v = .null
          · subst hv
            rw [received_null] at hr
            exact absurd hr List.not_mem_nil
          · rw [received_reading hi hv, List.mem_singleton] at hr
            rw [hr]
            exact h audience scope (Or.inr ⟨ok, List.mem_of_getElem? hi⟩)

theorem addressed_responses (ops : List Op) {s : State} (h : s.Addressed)
    (hops : AllAddressed ops) : ∀ r ∈ responses E s ops, Addressed r.audience r.scope := by
  induction ops generalizing s with
  | nil => exact fun r hr => absurd hr List.not_mem_nil
  | cons op ops ih =>
    intro r hr
    rcases List.mem_append.mp hr with hnow | hlater
    · exact addressed_received h hnow
    · refine ih (h.step fun m hm => hops m ?_) (fun m hm => hops m (List.mem_cons_of_mem _ hm)) r
        hlater
      rw [hm]
      exact List.mem_cons_self ..

theorem addressed_start : State.Addressed {} := by
  rintro audience scope (hmem | ⟨ok, hmem⟩)
  · exact absurd hmem List.not_mem_nil
  · exact absurd hmem List.not_mem_nil

/-- After every run a slot holds the token of the last response for it. -/
theorem find_run {audience scope : String} (haudience : '|' ∉ audience.toList) {ops : List Op}
    (hops : AllAddressed ops) :
    ((machine E).run {} ops).refreshTokens.find (cacheKey (.str audience) (.str scope)) =
      lastToken audience scope (responses E {} ops) := by
  rw [run_refreshTokens]
  exact find_foldl_write haudience _ (addressed_responses ops addressed_start hops)

theorem tokenOf_truthy {v t : Value} (h : tokenOf v = some t) : t.truthy = true := by
  unfold tokenOf at h
  split at h
  next o =>
    split at h
    next htruthy =>
      obtain rfl := Option.some.inj h
      exact htruthy
    next => cases h
  next => cases h

theorem responses_truthy (ops : List Op) {s : State} :
    ∀ r ∈ responses E s ops, ∀ t, r.token = some t → t.truthy = true := by
  induction ops generalizing s with
  | nil => exact fun r hr => absurd hr List.not_mem_nil
  | cons op ops ih =>
    intro r hr t ht
    rcases List.mem_append.mp hr with hnow | hlater
    · unfold received at hnow
      split at hnow
      · split at hnow
        · split at hnow
          · exact absurd hnow List.not_mem_nil
          · rw [List.mem_singleton.mp hnow] at ht
            exact tokenOf_truthy ht
        · exact absurd hnow List.not_mem_nil
      · exact absurd hnow List.not_mem_nil
    · exact ih r hlater t ht

theorem lastToken_truthy {audience scope : String} {ops : List Op} {s : State} {t : Value}
    (h : lastToken audience scope (responses E s ops) = some t) : t.truthy = true := by
  unfold lastToken at h
  obtain ⟨r, hr, ht⟩ := Option.bind_eq_some_iff.mp h
  have hmem := List.mem_of_getLast? hr
  exact responses_truthy ops r (List.mem_filter.mp hmem).1 t ht

/-- A request for tokens with a refresh token that the page does not have. -/
structure RefreshGrant (E : EngineErrors) (m : Message) (body : Obj) : Prop where
  parsed : parseBody E m = .ok (.obj body)
  grant_type : Obj.get body "grant_type" = .str "refresh_token"
  refresh_token : (Obj.get body "refresh_token").truthy = false

/-- Such a request takes the token of its slot. -/
theorem RefreshGrant.requestBody {m : Message} {body : Obj} (h : RefreshGrant E m body)
    (refreshTokens : RefreshTokens) :
    Worker.requestBody E refreshTokens m =
      match request refreshTokens m.audience m.scope (Obj.get body "refresh_token") with
      | none => .error MISSING_REFRESH_TOKEN_ERROR_MESSAGE
      | some t => .ok (printBody m.useFormData (withRefreshToken (.obj body) t)) := by
  have hgrant : (Value.str "refresh_token").strictEq (.str "refresh_token") = true := by decide
  cases hrequest : request refreshTokens m.audience m.scope (Obj.get body "refresh_token") <;>
    simp only [Worker.requestBody, h.parsed, bind, Except.bind, member, h.grant_type, hgrant,
      h.refresh_token, Bool.not_false, Bool.and_self, if_true, hrequest]

/-- What a request for `(audience, scope)` finds is the last response's. -/
theorem request_run {audience scope : String} (haudience : '|' ∉ audience.toList) {ops : List Op}
    (hops : AllAddressed ops) {refresh_token : Value} (hnone : refresh_token.truthy = false) :
    request ((machine E).run {} ops).refreshTokens (.str audience) (.str scope) refresh_token =
      lastToken audience scope (responses E {} ops) := by
  unfold request
  rw [hnone, if_neg (by simp), find_run haudience hops]
  cases hlast : lastToken audience scope (responses E {} ops) with
  | none => rfl
  | some t =>
    dsimp only
    rw [lastToken_truthy hlast, if_pos rfl]

/-- **A slot is its last response.** After any run of the worker, a request of the
grant `refresh_token` that brings no token is sent with the refresh token of the
last response processed for its audience and scope, or else, exactly when there is
none, is answered with an error and not sent. Two runs with the same responses for
the audience and scope treat it alike. -/
theorem slot_semantics (E : EngineErrors) (ops : List Op) (hops : AllAddressed ops)
    (audience scope : String) (haudience : '|' ∉ audience.toList) (m : Message)
    (hm : m.audience = .str audience ∧ m.scope = .str scope) (body : Obj)
    (hgrant : RefreshGrant E m body) :
    (∀ t, lastToken audience scope (responses E {} ops) = some t →
      (((machine E).run {} ops).message E m).fetches =
          ((machine E).run {} ops).fetches ++
            [⟨m.fetchUrl, printBody m.useFormData (Obj.set body "refresh_token" t)⟩] ∧
        (((machine E).run {} ops).message E m).posted = ((machine E).run {} ops).posted) ∧
    (lastToken audience scope (responses E {} ops) = none ↔
      (((machine E).run {} ops).message E m).fetches = ((machine E).run {} ops).fetches ∧
        (((machine E).run {} ops).message E m).posted =
          ((machine E).run {} ops).posted ++
            [(((machine E).run {} ops).activations.length,
              failure MISSING_REFRESH_TOKEN_ERROR_MESSAGE)]) ∧
    (∀ ops', AllAddressed ops' →
      (responses E {} ops').filter (Received.isFor audience scope) =
        (responses E {} ops).filter (Received.isFor audience scope) →
      requestBody E ((machine E).run {} ops').refreshTokens m =
        requestBody E ((machine E).run {} ops).refreshTokens m) := by
  -- the body that is sent depends on the last response for the slot alone
  have hbody : ∀ ops', AllAddressed ops' →
      requestBody E ((machine E).run {} ops').refreshTokens m =
        match lastToken audience scope (responses E {} ops') with
        | none => .error MISSING_REFRESH_TOKEN_ERROR_MESSAGE
        | some t => .ok (printBody m.useFormData (withRefreshToken (.obj body) t)) := by
    intro ops' hops'
    rw [hgrant.requestBody, hm.1, hm.2, request_run haudience hops' hgrant.refresh_token]
  refine ⟨fun t ht => ?_, ?_, fun ops' hops' hsame => ?_⟩
  · unfold State.message
    rw [hbody ops hops, ht]
    exact ⟨rfl, rfl⟩
  · unfold State.message
    rw [hbody ops hops]
    cases hlast : lastToken audience scope (responses E {} ops) with
    | none => exact ⟨fun _ => ⟨rfl, rfl⟩, fun _ => rfl⟩
    | some t =>
      refine ⟨fun h => (nomatch h), fun h => ?_⟩
      exact absurd h.1 (by simp)
  · rw [hbody ops' hops', hbody ops hops]
    unfold lastToken
    rw [hsame]

/-- A login for `(api, openid)`, overtaken by one for another scope. -/
def overtakenOps : List Op :=
  [.message ⟨.str "api", .str "openid", "https://idp/oauth/token",
      some "grant_type=authorization_code", true⟩,
    .message ⟨.str "api", .str "openid|email", "https://idp/oauth/token",
      some "grant_type=authorization_code", true⟩,
    .raced 0 (.response true),
    .raced 1 (.response true),
    .json 0 (.ok (.obj [("refresh_token", .str "first")])),
    .json 1 (.ok (.obj [("refresh_token", .str "second")]))]

def refreshMessage : Message :=
  ⟨.str "api", .str "openid", "https://idp/oauth/token", some "grant_type=refresh_token", true⟩

theorem addressed_overtakenOps : AllAddressed overtakenOps := by
  intro m hm
  simp only [overtakenOps, List.mem_cons, List.not_mem_nil, or_false, reduceCtorEq,
    Op.message.injEq] at hm
  rcases hm with rfl | rfl
  · exact ⟨"api", "openid", rfl, rfl, by decide⟩
  · exact ⟨"api", "openid|email", rfl, rfl, by decide⟩

theorem refreshGrant_refreshMessage :
    RefreshGrant plainErrors refreshMessage [("grant_type", .str "refresh_token")] :=
  ⟨rfl, rfl, rfl⟩

theorem slot_semantics_overtaken :
    AllAddressed overtakenOps ∧
      (((machine plainErrors).run {} overtakenOps).message plainErrors refreshMessage).fetches =
        ((machine plainErrors).run {} overtakenOps).fetches ++
          [⟨"https://idp/oauth/token",
            printBody true [("grant_type", .str "refresh_token"), ("refresh_token", .str "first")]⟩] :=
  ⟨addressed_overtakenOps,
    ((slot_semantics plainErrors overtakenOps addressed_overtakenOps "api" "openid" (by decide)
      refreshMessage ⟨rfl, rfl⟩ _ refreshGrant_refreshMessage).1 (.str "first") rfl).1⟩

/-! ## Failures -/

/-- How a request that is sent comes out. -/
inductive Outcome where
  | rejected (message : String)
  | timeout
  | notJson (ok : Bool) (message : String)
  | json (ok : Bool) (v : Value)

/-- The steps of the run `i` of the handler. -/
def Outcome.ops (i : Nat) : Outcome → List Op
  | .rejected message => [.raced i (.rejected message)]
  | .timeout => [.raced i .timeout]
  | .notJson ok message => [.raced i (.response ok), .json i (.error message)]
  | .json ok v => [.raced i (.response ok), .json i (.ok v)]

/-- The request does not give tokens. -/
def Outcome.fails : Outcome → Bool
  | .json ok _ => !ok
  | _ => true

/-- The worker handles a message from beginning to end. -/
def handle (E : EngineErrors) (s : State) (m : Message) (outcome : Outcome) : State :=
  (machine E).run s (.message m :: outcome.ops s.activations.length)

/-- The memories have the same tokens. -/
def SameTokens (refreshTokens refreshTokens' : RefreshTokens) : Prop :=
  ∀ key, refreshTokens.find key = refreshTokens'.find key

/-- The memory is not written, or with what it holds: the message is answered
without a request, or there is no JSON to read a token from, or the slot holds the
token of the response already, which is none where the response has none. -/
def KeepsTokens (E : EngineErrors) (s : State) (m : Message) : Outcome → Prop
  | .json _ v =>
    (∃ e, requestBody E s.refreshTokens m = .error e) ∨ v = .null ∨
      s.refreshTokens.find (cacheKey m.audience m.scope) = tokenOf v
  | _ => True

theorem sameTokens_write (refreshTokens : RefreshTokens) (r : Received) :
    SameTokens (r.write refreshTokens) refreshTokens ↔
      refreshTokens.find (cacheKey r.audience r.scope) = r.token := by
  have hfind : ∀ key, (r.write refreshTokens).find key =
      if cacheKey r.audience r.scope = key then r.token else refreshTokens.find key := by
    intro key
    unfold Received.write
    cases r.token with
    | some t => exact OrdMap.find_insert ..
    | none => exact OrdMap.find_erase ..
  constructor
  · intro h
    have hslot := h (cacheKey r.audience r.scope)
    rw [hfind, if_pos rfl] at hslot
    exact hslot.symm
  · intro h key
    rw [hfind]
    split
    next hkey => rw [← hkey, h]
    next => rfl

theorem handle_refreshTokens (s : State) (m : Message) (outcome : Outcome) :
    (handle E s m outcome).refreshTokens =
      (responses E (s.message E m) (outcome.ops s.activations.length)).foldl Received.write
        s.refreshTokens := by
  unfold handle
  rw [run_refreshTokens]
  rfl

/-- A message that is answered at once: nothing is read later. -/
theorem responses_of_error {s : State} {m : Message} {e : String}
    (h : requestBody E s.refreshTokens m = .error e) (ok : Bool) (v : Value) :
    responses E (s.message E m) ((Outcome.json ok v).ops s.activations.length) = [] := by
  have hmessage : (s.message E m).activations[s.activations.length]? = some .finished := by
    simp [State.message, h]
  have hraced : (s.message E m).raced s.activations.length (.response ok) = s.message E m := by
    simp only [State.raced, hmessage]
  simp only [Outcome.ops, responses, received, State.step, hraced, hmessage, List.append_nil]

theorem responses_json (s : State) (m : Message) (ok : Bool) (v : Value) :
    responses E (s.message E m) ((Outcome.json ok v).ops s.activations.length) =
      received ((s.message E m).raced s.activations.length (.response ok))
        (.json s.activations.length (.ok v)) := by
  simp only [Outcome.ops, responses, State.step, List.append_nil]
  rfl

/-- A message that is sent: its response is read. -/
theorem responses_of_ok {s : State} {m : Message} {body : Option String}
    (h : requestBody E s.refreshTokens m = .ok body) (ok : Bool) {v : Value} (hv : v ≠ .null) :
    responses E (s.message E m) ((Outcome.json ok v).ops s.activations.length) =
      [⟨m.audience, m.scope, tokenOf v⟩] := by
  have hreading : ((s.message E m).raced s.activations.length (.response ok)).activations[
      s.activations.length]? = some (.reading m.audience m.scope ok) := by
    simp [State.raced, State.message, h]
  rw [responses_json, received_reading hreading hv]

/-- **When a failure keeps the tokens.** A request that fails leaves the memory as it
was unless it is a response that is not ok with a JSON body: that one writes its
slot as a success does, and an error body has no refresh token. -/
theorem failure_keeps_tokens_iff (E : EngineErrors) (s : State) (m : Message) (outcome : Outcome) :
    SameTokens (handle E s m outcome).refreshTokens s.refreshTokens ↔ KeepsTokens E s m outcome := by
  rw [handle_refreshTokens]
  cases outcome with
  | rejected message => exact ⟨fun _ => trivial, fun _ _ => rfl⟩
  | timeout => exact ⟨fun _ => trivial, fun _ _ => rfl⟩
  | notJson ok message => exact ⟨fun _ => trivial, fun _ _ => rfl⟩
  | json ok v =>
    unfold KeepsTokens
    cases hbody : requestBody E s.refreshTokens m with
    | error e =>
      rw [responses_of_error hbody]
      exact ⟨fun _ => Or.inl ⟨e, rfl⟩, fun _ _ => rfl⟩
    | ok body =>
      by_cases hv : v = .null
      · subst hv
        rw [responses_json, received_null]
        exact ⟨fun _ => Or.inr (Or.inl rfl), fun _ _ => rfl⟩
      · rw [responses_of_ok hbody ok hv, List.foldl_cons, List.foldl_nil, sameTokens_write]
        simp [hv]

/-- A worker that holds the refresh token of a login. -/
def loggedIn : State where
  refreshTokens := [(cacheKey (.str "api") (.str "openid"), .str "refresh")]

/-- A response `{error: 'mfa_required'}`, which is not ok. -/
def mfaRequired : Outcome := .json false (.obj [("error", .str "mfa_required")])

/-- After it the worker has forgotten the refresh token. -/
theorem mfa_required_loses_token :
    mfaRequired.fails = true ∧
      ¬ SameTokens (handle plainErrors loggedIn refreshMessage mfaRequired).refreshTokens
        loggedIn.refreshTokens := by
  refine ⟨rfl, fun h => ?_⟩
  have hslot := h (cacheKey (.str "api") (.str "openid"))
  have hlost : (none : Option Value) = some (.str "refresh") := hslot
  exact absurd hlost (by simp)

end AuthokSpa.Worker
