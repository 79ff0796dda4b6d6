import AuthokSpa.Client.Silent

/-!
# Users that were verified (`AuthokClient.ts`)

`getUser`, `getIdTokenClaims` and `isAuthenticated` believe the cache, and so do silent
requests. They may: whatever calls and logins overlap, an entry gets into the cache
only with the result of `verify`, and the tokens of a response stay together from its
arrival to the last reader.

> Everything that is stored, on its way to be stored, or handed out is an entry made
> of one response, at one step of the run, in which `verify` accepted its ID token: with
> the clock of that step and the nonce and the organization of the flight that got it.

That is `VouchedBy`, of a run so far. What holds in a state (`VouchedState`) is stated for
any set `V` of entries that are believed: a step keeps it when it believes what was
believed before it and the entry it accepts, if any. `nothing_unverified` reads off it
what a caller can be told.
-/

namespace AuthokSpa

open Js (Value Obj ProtoObj)
open Cache (Store Body Cacheable WrappedCacheEntry)

namespace ClientState

variable (S : Setup)

/-- `getIdTokenClaims`. -/
def getIdTokenClaims (s : ClientState) (options : Obj) (now : Js.Num) :
    ClientState × Option ProtoObj :=
  let found := S.manager.get (S.client.userKey options) (.fin 0) now s.shared.store
  ({ s with shared := { s.shared with store := found.1 } },
    (found.2.bind Body.decodedToken).map DecodedToken.claims)

/-- `isAuthenticated`. -/
def isAuthenticated (s : ClientState) (now : Js.Num) : ClientState × Bool :=
  let r := s.getUser S [] now
  (r.1, r.2.isSome)

end ClientState

/-! ## What is vouched for -/

/-- The nonce and the organization that `verify` is given once the answer comes. -/
def Pending.expects (c : AuthokClient) : Pending → Value × Value
  | redirect transaction => (transaction.nonce, transaction.organizationId)
  | waiting (.popup options x) =>
    (.str x.nonceIn, (options.get "organization").or (c.options.get "organization"))
  | waiting (.iframe _ x _) => (.str x.nonceIn, .undefined)

/-- The same for a stage, none if it waits for no answer. -/
def Stage.expects (c : AuthokClient) : Stage → Option (Value × Value)
  | exchanging p => some (p.expects c)
  -- a refreshed ID token has no nonce
  | refreshSent _ => some (.undefined, .undefined)
  | _ => none

/-- The flight gets a response, and `verify` accepts its ID token for the entry made of it. -/
structure Flight.Accepts (S : Setup) (f : Flight) (op : FlightOp) (e : CacheEntry) (json : Obj) :
    Prop where
  id_token : e.id_token = json.get "id_token"
  access_token : e.access_token = json.get "access_token"
  verified : ∃ clock nonce organizationId,
    op = .tokenAnswer clock (.ok ⟨true, json⟩) ∧
    f.stage.expects S.client = some (nonce, organizationId) ∧
    S.client.verifyIdToken clock e.id_token nonce organizationId = .ok e.decodedToken

/-- The tokens are those of a response that came in the run, and the flight that got it has
accepted it then. -/
structure VouchedBy (S : Setup) (ops : List ClientOp) (e : CacheEntry) (json : Obj) : Prop where
  received : TokenEvent.received json ∈ ((ClientState.machine S).run {} ops).history
  accepted : ∃ before after i f op, ops = before ++ .flight i op :: after ∧
    ((ClientState.machine S).run {} before).flights[i]? = some f ∧ f.Accepts S op e json

def Vouched (S : Setup) (ops : List ClientOp) (e : CacheEntry) : Prop :=
  ∃ json, VouchedBy S ops e json

/-- A result is of a believed entry. -/
def VouchedOutcome (V : CacheEntry → Prop) (o : Outcome) : Prop :=
  ∃ e detailedResponse, V e ∧ o.result = .ofEntry detailedResponse e

def VouchedBody (V : CacheEntry → Prop) : Body → Prop
  | .entry e => V e
  | .refreshOnly _ => True

def VouchedCell (V : CacheEntry → Prop) : String → Cacheable → Prop
  | _, .wrapped w => VouchedBody V w.body
  | _, .manifest _ => True

structure VouchedStore (V : CacheEntry → Prop) (s : Store) : Prop where
  valid : s.Valid
  cells : s.All (VouchedCell V)

/-- What a flight holds at a stage. -/
def VouchedStage (V : CacheEntry → Prop) : Stage → Prop
  | .storing e _ => V e
  | .saving o => VouchedOutcome V o
  | .releasing (.ok o) => VouchedOutcome V o
  | .settled (.ok o) => VouchedOutcome V o
  | _ => True

structure VouchedState (V : CacheEntry → Prop) (s : ClientState) : Prop where
  store : VouchedStore V s.shared.store
  flights : ∀ f ∈ s.flights, VouchedStage V f.stage

/-! ### Believing more -/

section Mono

variable {V V' : CacheEntry → Prop} (hV : ∀ e, V e → V' e)
include hV

theorem VouchedOutcome.mono {o : Outcome} : VouchedOutcome V o → VouchedOutcome V' o
  | ⟨e, d, he, ho⟩ => ⟨e, d, hV e he, ho⟩

theorem VouchedStore.mono {s : Store} (hs : VouchedStore V s) : VouchedStore V' s where
  valid := hs.valid
  cells b hb := by
    have hcell := hs.cells b hb
    cases hv : b.2.value with
    | manifest keys => trivial
    | wrapped w =>
      rw [hv] at hcell
      show VouchedBody V' w.body
      have hbody : VouchedBody V w.body := hcell
      cases hw : w.body with
      | entry e =>
        rw [hw] at hbody
        exact hV e hbody
      | refreshOnly t => trivial

theorem VouchedStage.mono {stage : Stage} (hs : VouchedStage V stage) : VouchedStage V' stage := by
  unfold VouchedStage at hs ⊢
  split at hs
  · exact hV _ hs
  · exact VouchedOutcome.mono hV hs
  · exact VouchedOutcome.mono hV hs
  · exact VouchedOutcome.mono hV hs
  · trivial

theorem VouchedState.mono {s : ClientState} (hs : VouchedState V s) : VouchedState V' s where
  store := hs.store.mono hV
  flights f hf := (hs.flights f hf).mono hV

end Mono

/-! ## The cache -/

section Cache

variable {S : Setup} {V : CacheEntry → Prop} {s : Store}

theorem vouchedBody_strip (w : WrappedCacheEntry) : VouchedBody V w.strip.body := trivial

theorem VouchedStore.get (hs : VouchedStore V s) (k : Cache.CacheKey) (adj now : Js.Num) :
    VouchedStore V (S.manager.get k adj now s).1 where
  valid := Cache.get_valid hs.valid k adj now
  cells := Cache.get_all hs.valid hs.cells (fun _ _ _ => trivial)
    (fun _ w _ => @vouchedBody_strip V w) (fun _ w _ _ => @vouchedBody_strip V w) adj now

/-- What `get` hands out is believed. -/
theorem VouchedStore.get_body (hs : VouchedStore V s) {k : Cache.CacheKey} {adj now : Js.Num}
    {b : Body} (hb : (S.manager.get k adj now s).2 = some b) : VouchedBody V b := by
  rcases S.manager.get_cases k adj now s with hg | ⟨c, w, hfind, hw, hcases⟩
  · rw [hg] at hb
    cases hb
  · obtain ⟨key, hkey, -⟩ := Cache.Manager.findEntry_mem hfind
    have hvouched : VouchedBody V w.body := by
      have hcell := hs.cells.get hkey
      rw [hw] at hcell
      exact hcell
    rcases hcases with ⟨-, hg⟩ | ⟨-, -, hg⟩ | ⟨-, -, hg⟩
    · rw [hg] at hb
      exact Option.some.inj hb ▸ hvouched
    · rw [hg] at hb
      exact Option.some.inj hb ▸ vouchedBody_strip w
    · rw [hg] at hb
      cases hb

theorem VouchedStore.set (hs : VouchedStore V s) {e : CacheEntry} (he : V e) (now : Js.Num) :
    VouchedStore V (S.manager.set e now s) where
  valid := Cache.set_valid hs.valid e now
  cells := Cache.set_all hs.valid hs.cells (fun _ _ _ => trivial) he

theorem VouchedStore.logout {sh : Shared} (hs : VouchedStore V sh.store) :
    VouchedStore V (sh.logout S).store := by
  show VouchedStore V (if _ then _ else _)
  split
  · exact ⟨Cache.clear_valid hs.valid none, Cache.clear_all hs.cells none⟩
  · exact ⟨Cache.removeAll_valid hs.valid _, Cache.removeAll_all hs.cells _⟩

end Cache

/-! ## Flights -/

section Flight

variable {S : Setup} {V V' : CacheEntry → Prop} {sh : Shared} {f : Flight}

/-- What a step of a flight leaves behind is believed. -/
structure VouchedProgress (V : CacheEntry → Prop) (p : Progress) : Prop where
  store : VouchedStore V p.shared.store
  stage : VouchedStage V p.flight.stage

/-- A step that brings nothing new. -/
theorem vouched_quiet (hs : VouchedStore V sh.store) (hf : VouchedStage V f.stage)
    (es : List TokenEvent) : VouchedProgress V ⟨sh, f, es⟩ :=
  ⟨hs, hf⟩

theorem vouchedStage_plain {stage : Stage} (hs : stage.Plain) : VouchedStage V stage := by
  unfold Stage.Plain at hs
  split at hs <;> trivial

/-- An entry that a flow makes has the ID token that `verify` has accepted, with the nonce
and the organization that the flow expects. -/
structure Checked (S : Setup) (clock : Clock) (expects : Value × Value) (r : Obj)
    (e : CacheEntry) : Prop where
  id_token : e.id_token = r.get "id_token"
  verified : S.client.verifyIdToken clock e.id_token expects.1 expects.2 = .ok e.decodedToken

theorem finishRefresh_checked {clock : Clock} {options r : Obj} {e : CacheEntry}
    (h : S.client.finishRefresh clock options r = .ok e) :
    Checked S clock (.undefined, .undefined) r e := by
  obtain ⟨d, hd, he⟩ := bind_ok_iff.mp h
  obtain rfl := Except.ok.inj he
  exact ⟨rfl, hd⟩

theorem Pending.finish_checked {clock : Clock} {r : Obj} {p : Pending} {e : CacheEntry}
    (h : p.finish S.client S.browser clock r = .ok e) :
    Checked S clock (p.expects S.client) r e := by
  cases p with
  | redirect transaction =>
    obtain ⟨d, hd, he⟩ := bind_ok_iff.mp h
    obtain rfl := Except.ok.inj he
    exact ⟨rfl, hd⟩
  | waiting w =>
    cases w with
    | popup options x =>
      obtain ⟨d, hd, he⟩ := bind_ok_iff.mp h
      obtain rfl := Except.ok.inj he
      exact ⟨rfl, hd⟩
    | iframe options x orgIdHint =>
      obtain ⟨d, hd, he⟩ := bind_ok_iff.mp h
      obtain rfl := Except.ok.inj he
      exact ⟨rfl, hd⟩

theorem vouched_check (hs : VouchedStore V sh.store) {next : Stage} (hnext : VouchedStage V next)
    {hit : Settlement → Stage} (hhit : ∀ o, VouchedOutcome V o → VouchedStage V (hit (.ok o)))
    (now : Js.Num) : VouchedProgress V (f.cacheCheck S sh now hit next) := by
  rcases @Flight.cacheCheck_cases S sh f now hit next with
    ⟨-, hp⟩ | ⟨-, found, rfl, ⟨e, he, -, hp⟩ | ⟨-, hp⟩⟩
  · rw [hp]
    exact vouched_quiet hs hnext []
  · rw [hp]
    have hentry : V e := hs.get_body he
    exact vouched_quiet (hs.get _ _ _) (hhit _ ⟨e, f.detailedResponse, hentry, rfl⟩) []
  · rw [hp]
    exact vouched_quiet (hs.get _ _ _) hnext []

/-- An answer: the entry that is accepted, if one is, is the new one. -/
theorem vouched_answered (hs : VouchedStore V sh.store) {clock : Clock} {expects : Value × Value}
    {finish : Obj → Except JwtError CacheEntry} {answer : Except String TokenAnswer} {p : Progress}
    (htokens : ∀ r e, finish r = .ok e → TokensOf r e)
    (hchecked : ∀ r e, finish r = .ok e → Checked S clock expects r e)
    (hstage : f.stage.expects S.client = some expects)
    (hnew : ∀ e json, f.Accepts S (.tokenAnswer clock answer) e json → V e)
    (hp : Flight.Answered S sh f finish answer p) : VouchedProgress V p := by
  have hreceive : ∀ json, VouchedStore V (f.receive S sh json).1.store := by
    intro json
    rw [Flight.receive_store]
    exact hs
  cases hp with
  | failed hplain => exact vouched_quiet hs (vouchedStage_plain hplain) []
  | rejected hplain => exact vouched_quiet (hreceive _) (vouchedStage_plain hplain) _
  | loggedOut hplain => exact vouched_quiet (hreceive _).logout (vouchedStage_plain hplain) _
  | @accepted json e hanswer he =>
    refine ⟨hreceive json, hnew e json ⟨?_, ?_, ?_⟩⟩
    · rw [(hchecked _ _ he).id_token, Js.Obj.get_without (by decide),
        Flight.receive_get _ (by decide)]
    · rw [(htokens _ _ he).access_token, Js.Obj.get_without (by decide),
        Flight.receive_get _ (by decide)]
    · exact ⟨clock, expects.1, expects.2, by rw [hanswer], hstage, (hchecked _ _ he).verified⟩

/-- A step of a flight leaves only what was believed before it and what it accepts. -/
theorem step_vouched (hs : VouchedStore V sh.store) (hf : VouchedStage V f.stage)
    (hV : ∀ e, V e → V' e) (op : FlightOp) (hnew : ∀ e json, f.Accepts S op e json → V' e) :
    VouchedProgress V' (f.step S sh op) := by
  replace hs := hs.mono hV
  replace hf := hf.mono hV
  apply @Flight.step_elim S sh f _ op
  case idle => exact vouched_quiet hs hf []
  case first =>
    intro now _ _
    exact vouched_check hs (by trivial) (fun _ ho => by exact ho) now
  case lock =>
    intro tries acquired _ _
    unfold Flight.lock
    split
    · exact vouched_quiet hs (by trivial) _
    · split
      · exact vouched_quiet hs (by trivial) _
      · exact vouched_quiet hs (by trivial) _
  case second =>
    intro now _ _
    exact vouched_check hs (by trivial) (fun _ ho => by exact ho) now
  case choose =>
    intro now _ _
    rcases @Flight.choose_cases S sh f now with
      ⟨-, hp⟩ | ⟨-, found, rfl, ⟨-, -, hp⟩ | ⟨-, hp⟩⟩
    · rw [hp]
      exact vouched_quiet hs (by trivial) []
    · rw [hp]
      exact vouched_quiet (hs.get _ _ _) (by trivial) []
    · rw [hp]
      exact vouched_quiet (hs.get _ _ _) (by trivial) []
  case attempt =>
    intro t _
    rcases @Flight.attempt_cases S sh f t with hp | ⟨t', hp, -⟩
    · rw [hp]
      exact vouched_quiet hs (by trivial) []
    · rw [hp]
      exact vouched_quiet hs (by trivial) _
  case refreshAnswer =>
    intro t clock answer hop hstage
    subst hop
    exact vouched_answered hs (fun _ _ => finishRefresh_tokens) (fun _ _ => finishRefresh_checked)
      (by rw [hstage]; rfl) hnew (Flight.refreshAnswer_answered ..)
  case authorize =>
    intro x orgIdHint _
    exact vouched_quiet hs (by trivial) _
  case authorizeFailed =>
    intro rejection _
    unfold Flight.authorizeFailed
    split
    · exact vouched_quiet hs.logout (by trivial) []
    · exact vouched_quiet hs (by trivial) []
  case exchangeAnswer =>
    intro p clock answer hop hstage
    subst hop
    exact vouched_answered hs (fun _ _ => Pending.finish_tokens) (fun _ _ => Pending.finish_checked)
      (by rw [hstage]; rfl) hnew (Flight.exchangeAnswer_answered ..)
  case store =>
    intro e json now hstage
    rw [hstage] at hf
    have hentry : V' e := hf
    exact vouched_quiet (hs.set hentry now) (by exact ⟨e, f.detailedResponse, hentry, rfl⟩) _
  case save =>
    intro o hstage
    rw [hstage] at hf
    have hsaved : VouchedStore V' { sh with isAuthenticated := true }.store := hs
    refine vouched_quiet hsaved ?_ []
    show VouchedStage V' (f.leave (.ok o))
    unfold Flight.leave
    split
    · exact hf
    · exact hf
  case release =>
    intro r hstage
    rw [hstage] at hf
    refine vouched_quiet hs ?_ _
    cases r with
    | error rejection => trivial
    | ok o => exact hf

/-- A response that is accepted has come in the same step. -/
theorem Flight.Accepts.received {op : FlightOp} {e : CacheEntry} {json : Obj}
    (h : f.Accepts S op e json) : TokenEvent.received json ∈ (f.step S sh op).events := by
  obtain ⟨clock, nonce, organizationId, rfl, hexpects, -⟩ := h.verified
  unfold Flight.step
  cases hstage : f.stage with
  | refreshSent t =>
    show _ ∈ (f.refreshAnswer S sh clock (.ok ⟨true, json⟩)).events
    unfold Flight.refreshAnswer
    dsimp only
    rw [if_pos rfl]
    split
    · exact List.mem_singleton_self _
    · exact List.mem_singleton_self _
  | exchanging p =>
    show _ ∈ (f.exchangeAnswer S sh p clock (.ok ⟨true, json⟩)).events
    unfold Flight.exchangeAnswer
    dsimp only
    rw [if_pos rfl]
    split
    · exact List.mem_singleton_self _
    · exact List.mem_singleton_self _
  | _ =>
    rw [hstage] at hexpects
    cases hexpects

end Flight

/-! ## Runs -/

namespace VouchedState

variable {S : Setup} {V V' : CacheEntry → Prop} {s : ClientState}

theorem getTokenSilently (h : VouchedState V s) (options : Obj) :
    VouchedState V (s.getTokenSilently S options) := by
  unfold ClientState.getTokenSilently
  dsimp only
  split
  next => exact ⟨h.store, h.flights⟩
  next =>
    refine ⟨h.store, fun f hf => ?_⟩
    rcases List.mem_append.mp hf with hold | hnew
    · exact h.flights f hold
    · obtain rfl := List.mem_singleton.mp hnew
      trivial

theorem login (h : VouchedState V s) (p : Pending) (audience scope : Value) :
    VouchedState V (s.login p audience scope) := by
  refine ⟨h.store, fun f hf => ?_⟩
  rcases List.mem_append.mp hf with hold | hnew
  · exact h.flights f hold
  · obtain rfl := List.mem_singleton.mp hnew
    trivial

theorem cleanup (h : VouchedState V s) (i : Nat) (f : Flight) : VouchedState V (s.cleanup i f) := by
  unfold ClientState.cleanup
  split
  · split
    · exact ⟨h.store, h.flights⟩
    · exact h
  · exact h

theorem advance (h : VouchedState V s) (hV : ∀ e, V e → V' e) {i : Nat} {f : Flight}
    (hf : s.flights[i]? = some f) {op : FlightOp} (hnew : ∀ e json, f.Accepts S op e json → V' e) :
    VouchedState V' (s.advance i (f.step S s.shared op)) := by
  have hp := step_vouched h.store (h.flights f (List.mem_of_getElem? hf)) hV op hnew
  refine ⟨hp.store, fun g hg => ?_⟩
  rcases List.mem_or_eq_of_mem_set hg with hold | rfl
  · exact (h.flights g hold).mono hV
  · exact hp.stage

/-- One step, which believes besides what the flight that makes it accepts. -/
theorem step (h : VouchedState V s) (hV : ∀ e, V e → V' e) (op : ClientOp)
    (hnew : ∀ i f op' e json, op = .flight i op' → s.flights[i]? = some f →
      f.Accepts S op' e json → V' e) : VouchedState V' (s.step S op).1 := by
  unfold ClientState.step
  cases op with
  | getTokenSilently options => exact (h.mono hV).getTokenSilently options
  | login p audience scope => exact (h.mono hV).login p audience scope
  | getUser options now => exact ⟨(h.mono hV).store.get _ _ _, (h.mono hV).flights⟩
  | logout => exact ⟨(h.mono hV).store.logout, (h.mono hV).flights⟩
  | flight i op' =>
    dsimp only
    split
    next f hf => exact h.advance hV hf (fun e json => hnew i f op' e json rfl hf)
    next => exact h.mono hV
  | cleanup i =>
    dsimp only
    split
    next f hf => exact (h.mono hV).cleanup i f
    next => exact h.mono hV

end VouchedState

namespace ClientState

variable {S : Setup}

/-- A step adds to the history. -/
theorem history_step (s : ClientState) (op : ClientOp) : s.history <+: (s.step S op).1.history := by
  unfold step
  cases op with
  | getTokenSilently options =>
    show _ <+: (s.getTokenSilently S options).history
    unfold getTokenSilently
    dsimp only
    split
    · exact List.prefix_rfl
    · exact List.prefix_rfl
  | login p audience scope => exact List.prefix_append ..
  | getUser options now => exact List.prefix_rfl
  | logout => exact List.prefix_rfl
  | flight i op =>
    dsimp only
    split
    · exact List.prefix_append ..
    · exact List.prefix_rfl
  | cleanup i =>
    dsimp only
    split
    · unfold cleanup
      split
      · split
        · exact List.prefix_rfl
        · exact List.prefix_rfl
      · exact List.prefix_rfl
    · exact List.prefix_rfl

end ClientState

section Run

variable {S : Setup} {past : List ClientOp} {op : ClientOp} {e : CacheEntry} {json : Obj}

/-- Whoever is believed stays so. -/
theorem VouchedBy.later (h : VouchedBy S past e json) (op : ClientOp) :
    VouchedBy S (past ++ [op]) e json where
  received := by
    rw [Machine.run_concat]
    exact (ClientState.history_step _ op).subset h.received
  accepted := by
    obtain ⟨before, after, i, f, op', rfl, hf, haccepts⟩ := h.accepted
    exact ⟨before, after ++ [op], i, f, op', by simp, hf, haccepts⟩

/-- What the last step of a run has accepted. -/
theorem VouchedBy.accept {i : Nat} {f : Flight} {op : FlightOp}
    (hf : ((ClientState.machine S).run {} past).flights[i]? = some f)
    (h : f.Accepts S op e json) : VouchedBy S (past ++ [.flight i op]) e json where
  received := by
    rw [Machine.run_concat]
    show _ ∈ (ClientState.step S _ (.flight i op)).1.history
    unfold ClientState.step
    dsimp only
    rw [hf]
    exact List.mem_append_right _ h.received
  accepted := ⟨past, [], i, f, op, rfl, hf, h⟩

theorem VouchedState.fresh (V : CacheEntry → Prop) : VouchedState V {} where
  store := ⟨Store.valid_empty, fun b hb => by cases hb⟩
  flights f hf := by cases hf

/-- In every state of a run, what is believed has been accepted in that run. -/
theorem VouchedState.run (S : Setup) (ops : List ClientOp) :
    VouchedState (Vouched S ops) ((ClientState.machine S).run {} ops) := by
  suffices h : (ClientState.machine S).run {} ops = (ClientState.machine S).run {} ops ∧
      VouchedState (Vouched S ops) ((ClientState.machine S).run {} ops) from h.2
  refine Machine.run_history (M := ClientState.machine S)
    (P := fun past s => s = (ClientState.machine S).run {} past ∧ VouchedState (Vouched S past) s)
    ⟨rfl, VouchedState.fresh _⟩ ops fun past op s _ hs => ?_
  obtain ⟨rfl, hs⟩ := hs
  refine ⟨(Machine.run_concat (ClientState.machine S) _ past op).symm, hs.step ?_ op ?_⟩
  · rintro e ⟨json, he⟩
    exact ⟨json, he.later op⟩
  · rintro i f op' e json rfl hf haccepts
    exact ⟨json, VouchedBy.accept hf haccepts⟩

end Run

/-- `getUser` and `getIdTokenClaims` tell of the same believed entry, or of none. -/
theorem VouchedState.told {S : Setup} {V : CacheEntry → Prop} {s : ClientState}
    (h : VouchedState V s) (options : Obj) (now : Js.Num) :
    ((s.getUser S options now).2 = none ∧ (s.getIdTokenClaims S options now).2 = none) ∨
    ∃ e, V e ∧
      (s.getUser S options now).2 = some e.decodedToken.user ∧
      (s.getIdTokenClaims S options now).2 = some e.decodedToken.claims := by
  unfold ClientState.getUser ClientState.getIdTokenClaims
  dsimp only
  cases hfound : (S.manager.get (S.client.userKey options) (.fin 0) now s.shared.store).2 with
  | none => exact Or.inl ⟨rfl, rfl⟩
  | some b =>
    cases b with
    | refreshOnly t => exact Or.inl ⟨rfl, rfl⟩
    | entry e =>
      have he : V e := h.store.get_body hfound
      exact Or.inr ⟨e, he, rfl, rfl⟩

/-- **Nothing unverified is handed out.** Whatever calls, logins and logouts overlap: a
silent request or a login resolves with the tokens of one response that came;
`getUser` and `getIdTokenClaims` tell of one such response, the same both, or of none;
and `isAuthenticated` says yes only if there is one. In each case the flight that got the
response has accepted its ID token when it came. -/
theorem nothing_unverified (S : Setup) (ops : List ClientOp) :
    let s := (ClientState.machine S).run {} ops
    (∀ f ∈ s.flights, ∀ o, f.stage = .settled (.ok o) →
      ∃ e json detailedResponse, VouchedBy S ops e json ∧
        o.result = .ofEntry detailedResponse e) ∧
    (∀ options now,
      ((s.getUser S options now).2 = none ∧ (s.getIdTokenClaims S options now).2 = none) ∨
      ∃ e json, VouchedBy S ops e json ∧
        (s.getUser S options now).2 = some e.decodedToken.user ∧
        (s.getIdTokenClaims S options now).2 = some e.decodedToken.claims) ∧
    ∀ now, (s.isAuthenticated S now).2 = true → ∃ e json, VouchedBy S ops e json ∧
      (s.getUser S [] now).2 = some e.decodedToken.user := by
  intro s
  have hs : VouchedState (Vouched S ops) s := VouchedState.run S ops
  refine ⟨fun f hf o hstage => ?_, fun options now => ?_, fun now hauthenticated => ?_⟩
  · have hsettled := hs.flights f hf
    rw [hstage] at hsettled
    obtain ⟨e, d, ⟨json, he⟩, ho⟩ : VouchedOutcome (Vouched S ops) o := hsettled
    exact ⟨e, json, d, he, ho⟩
  · rcases hs.told options now with hnone | ⟨e, ⟨json, he⟩, htold⟩
    · exact Or.inl hnone
    · exact Or.inr ⟨e, json, he, htold⟩
  · rcases hs.told [] now with ⟨hnone, -⟩ | ⟨e, ⟨json, he⟩, huser, -⟩
    · have hsome : (s.getUser S [] now).2.isSome = true := hauthenticated
      rw [hnone] at hsome
      cases hsome
    · exact ⟨e, json, he, huser⟩

end AuthokSpa
