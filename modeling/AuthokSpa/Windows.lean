import AuthokSpa.Js.Format
import AuthokSpa.Machine

/-!
# Waiting for another window (`runPopup`, `runIframe` in `utils.ts`)

Both functions wait for a message of type `authorization_response` and give up
after a timeout; `runPopup` also looks every second whether the popup is closed.
Each is a machine here. Its state says what is armed and whether the promise is
settled, its operations are the events of the browser, in any order. An event
reaches a handler only while the timer or the listener behind it is armed, and a
handler runs to its end or to the statement that throws.

Mirroring notes:

* The data of a message is a structured clone, so it has no functions. It may
  still have any shape. Reading a member of `undefined` or `null` throws, and so
  does making the text of an object that has a member `toString` of its own,
  which `Error` does with an `error_description`.
* `runPopup` disarms everything before it reads the response and `runIframe`
  reads it first. A response that throws leaves the first waiting for nothing
  (`popup_settles_iff`) and the second waiting for the next event.
* `runIframe` compares the origin of a message, `runPopup` does not
  (`foreign_windows_cannot_decide` says when that makes no difference).
* The popup and the source of a message are windows: `close` does not throw.
-/

namespace AuthokSpa.Windows

open Js (Value Obj)

/-! ## What a promise is settled with -/

inductive ErrorClass where
  | genericError
  | timeoutError
  | popupTimeoutError
  | popupCancelledError
deriving DecidableEq

/-- An error of `errors.ts`. -/
structure Rejection where
  errorClass : ErrorClass
  error : Value
  error_description : Value

/-- `new TimeoutError()`. -/
def timeoutError : Rejection := ⟨.timeoutError, .str "timeout", .str "Timeout"⟩

/-- `new PopupTimeoutError(popup)`. -/
def popupTimeoutError : Rejection := ⟨.popupTimeoutError, .str "timeout", .str "Timeout"⟩

/-- `new PopupCancelledError(popup)`. -/
def popupCancelledError : Rejection :=
  ⟨.popupCancelledError, .str "cancelled", .str "Popup closed"⟩

inductive Settled where
  | resolved (response : Value)
  | rejected (e : Rejection)

/-! ## Messages -/

/-- A message to the page; `source` says whether the event names its window. -/
structure MessageEvent where
  origin : String
  data : Value
  source : Bool := true

/-- `v.k`, for a value that is not `undefined` or `null`. -/
def member : Value → String → Value
  | .obj o, k => Obj.get o k
  | _, _ => .undefined

mutual

/-- `String(v)` gives a text. A member `toString` of a plain object hides the
inherited one, and the inherited `valueOf` gives the object again. -/
def convertible : Value → Bool
  | .obj o => (Js.OrdMap.find o "toString").isNone
  | .arr xs => convertibleAll xs
  | _ => true

def convertibleAll : List Value → Bool
  | [] => true
  | x :: xs => convertible x && convertibleAll xs

end

/-- `!e.data || e.data.type !== 'authorization_response'` is false. -/
def MessageEvent.isResponse (e : MessageEvent) : Bool :=
  e.data.truthy && (member e.data "type").strictEq (.str "authorization_response")

/-- `e.data.response`, when the message is a response. -/
def MessageEvent.response (e : MessageEvent) : Value := member e.data "response"

/-- `GenericError.fromPayload(response)`; `none` is a throw. -/
def fromPayload (response : Value) : Option Rejection :=
  if response.isNullish then none
  else
    let error := member response "error"
    let error_description := member response "error_description"
    if convertible error_description then some ⟨.genericError, error, error_description⟩ else none

/-- What the response settles the promise with; `none` is a throw. -/
def answer (response : Value) : Option Settled :=
  if response.isNullish then none
  else if (member response "error").truthy then (fromPayload response).map .rejected
  else some (.resolved response)

/-- The response can be read: it is there, and an error that it carries has a
description with a text. -/
def readable (response : Value) : Bool :=
  !response.isNullish &&
    (!(member response "error").truthy || convertible (member response "error_description"))

/-- The response, or its error. -/
def outcome (response : Value) : Settled :=
  if (member response "error").truthy then
    .rejected ⟨.genericError, member response "error", member response "error_description"⟩
  else .resolved response

theorem answer_eq (response : Value) :
    answer response = if readable response then some (outcome response) else none := by
  unfold answer readable outcome fromPayload
  cases hn : response.isNullish with
  | true => simp
  | false =>
    cases he : (member response "error").truthy with
    | false => simp
    | true =>
      cases hc : convertible (member response "error_description") <;> simp [hc]

theorem answer_of_readable {response : Value} (h : readable response = true) :
    answer response = some (outcome response) := by
  rw [answer_eq, if_pos h]

theorem answer_of_not_readable {response : Value} (h : readable response = false) :
    answer response = none := by
  rw [answer_eq, if_neg (by simp [h])]

/-- A message with a response from the window at `origin`. -/
def responseFrom (origin code : String) : MessageEvent :=
  { origin
    data := .obj [("type", .str "authorization_response"),
      ("response", .obj [("state", .str "s"), ("code", .str code)])] }

/-! ## `runPopup` -/

/-- What `runPopup` has armed, and its promise. -/
structure Popup where
  timeoutId : Bool := true
  popupTimer : Bool := true
  listening : Bool := true
  closeCalled : Bool := false
  promise : Option Settled := none

namespace Popup

inductive Event where
  | message (e : MessageEvent)
  | poll (closed : Bool)
  | timeout

def clearTimeout (s : Popup) : Popup := { s with timeoutId := false }

def clearInterval (s : Popup) : Popup := { s with popupTimer := false }

def removeEventListener (s : Popup) : Popup := { s with listening := false }

/-- `resolve` and `reject`: only the first call counts. -/
def settle (s : Popup) (r : Settled) : Popup := { s with promise := s.promise.or (some r) }

/-- The callback of the interval. -/
def onPoll (s : Popup) (closed : Bool) : Popup :=
  if closed then
    s.clearInterval.clearTimeout.removeEventListener.settle (.rejected popupCancelledError)
  else s

/-- The callback of the timeout. -/
def onTimeout (s : Popup) : Popup :=
  (({ s with timeoutId := false }.clearInterval).settle
    (.rejected popupTimeoutError)).removeEventListener

/-- `popupEventListener`. -/
def popupEventListener (s : Popup) (e : MessageEvent) : Popup :=
  if e.isResponse then
    let s' := { s.clearTimeout.clearInterval.removeEventListener with closeCalled := true }
    match answer e.response with
    -- the handler throws here, with everything disarmed
    | none => s'
    | some r => s'.settle r
  else s

def step (s : Popup) : Event → Popup
  -- what is disarmed is not called any more
  | .message e => if s.listening then s.popupEventListener e else s
  | .poll closed => if s.popupTimer then s.onPoll closed else s
  | .timeout => if s.timeoutId then s.onTimeout else s

def machine : Machine Popup Event Unit := ⟨fun s a => (s.step a, ())⟩

/-- `runPopup`: the state after the events. -/
def runPopup (events : List Event) : Popup := machine.run {} events

def Disarmed (s : Popup) : Prop :=
  s.timeoutId = false ∧ s.popupTimer = false ∧ s.listening = false

/-- Everything is armed and nothing has happened. -/
def Waiting (s : Popup) : Prop :=
  s.timeoutId = true ∧ s.popupTimer = true ∧ s.listening = true ∧ s.promise = none

/-- A response that reaches the listener can be read. -/
def Readable (s : Popup) (a : Event) : Prop :=
  ∀ e, a = .message e → s.listening = true → e.isResponse = true → readable e.response = true

/-- A message from elsewhere that reaches the listener is not a response. -/
def Quiet (domainUrl : String) (s : Popup) (a : Event) : Prop :=
  ∀ e, a = .message e → s.listening = true → e.origin ≠ domainUrl → e.isResponse = false

variable {s : Popup}

/-! ### Steps -/

theorem machine_step (s : Popup) (a : Event) : (machine.step s a).1 = s.step a := rfl

theorem step_of_disarmed (h : s.Disarmed) (a : Event) : s.step a = s := by
  obtain ⟨htimeout, htimer, hlistening⟩ := h
  cases a with
  | message e => rw [step, hlistening, if_neg (by simp)]
  | poll closed => rw [step, htimer, if_neg (by simp)]
  | timeout => rw [step, htimeout, if_neg (by simp)]

/-- Nothing happens to a popup that waits for nothing. -/
theorem run_of_disarmed (h : s.Disarmed) (later : List Event) : machine.run s later = s := by
  induction later with
  | nil => rfl
  | cons a later ih => rw [Machine.run_cons, machine_step, step_of_disarmed h a, ih]

/-- An event leaves a waiting popup as it is, or it disarms everything. Then the
promise is settled, but for a response that cannot be read. -/
theorem step_of_waiting (h : s.Waiting) (a : Event) :
    s.step a = s ∨
      (s.step a).Disarmed ∧
        ((s.step a).promise.isSome = true ∨
          ∃ e, a = .message e ∧ e.isResponse = true ∧ readable e.response = false ∧
            (s.step a).promise = none) := by
  obtain ⟨htimeout, htimer, hlistening, hpromise⟩ := h
  cases a with
  | message e =>
    rw [step, hlistening, if_pos rfl, popupEventListener]
    cases hresponse : e.isResponse with
    | false => exact Or.inl rfl
    | true =>
      refine Or.inr ?_
      -- the handlers are taken away before the response is looked at
      cases hread : readable e.response with
      | true =>
        rw [if_pos rfl, answer_of_readable hread]
        exact ⟨⟨rfl, rfl, rfl⟩, Or.inl (by simp [settle])⟩
      | false =>
        rw [if_pos rfl, answer_of_not_readable hread]
        exact ⟨⟨rfl, rfl, rfl⟩, Or.inr ⟨e, rfl, hresponse, hread, hpromise⟩⟩
  | poll closed =>
    rw [step, htimer, if_pos rfl, onPoll]
    cases closed with
    | false => exact Or.inl rfl
    | true => exact Or.inr ⟨⟨rfl, rfl, rfl⟩, Or.inl (by simp [settle])⟩
  | timeout =>
    rw [step, htimeout, if_pos rfl, onTimeout]
    exact Or.inr ⟨⟨rfl, rfl, rfl⟩, Or.inl (by simp [settle, removeEventListener])⟩

/-! ### Settled exactly when disarmed -/

/-- No hang and no leak: what is disarmed has been settled, and what is settled is
disarmed and stays as it is. -/
def Orderly (s : Popup) : Prop :=
  (s.Disarmed → s.promise.isSome = true) ∧
    (s.promise.isSome = true → s.Disarmed ∧ ∀ later, machine.run s later = s)

theorem Waiting.not_disarmed (h : s.Waiting) : ¬ s.Disarmed := by
  intro hd
  have htrue : s.timeoutId = true := h.1
  rw [hd.1] at htrue
  exact Bool.noConfusion htrue

theorem Waiting.orderly (h : s.Waiting) : s.Orderly := by
  refine ⟨fun hd => absurd hd h.not_disarmed, fun hsettled => ?_⟩
  rw [h.2.2.2] at hsettled
  exact Bool.noConfusion hsettled

theorem orderly_of_disarmed (h : s.Disarmed) (hsettled : s.promise.isSome = true) : s.Orderly :=
  ⟨fun _ => hsettled, fun _ => ⟨h, run_of_disarmed h⟩⟩

/-- The states of a popup whose responses can be read. -/
def Sound (s : Popup) : Prop := s.Waiting ∨ s.Disarmed ∧ s.promise.isSome = true

theorem Sound.orderly (h : s.Sound) : s.Orderly := by
  rcases h with hw | ⟨hd, hsettled⟩
  · exact hw.orderly
  · exact orderly_of_disarmed hd hsettled

theorem Sound.step (h : s.Sound) {a : Event} (hread : s.Readable a) : (s.step a).Sound := by
  rcases h with hw | ⟨hd, hsettled⟩
  · rcases step_of_waiting hw a with hsame | ⟨hd, hsettled | ⟨e, rfl, hresponse, hbad, _⟩⟩
    · rw [hsame]
      exact Or.inl hw
    · exact Or.inr ⟨hd, hsettled⟩
    · have hgood := hread e rfl hw.2.2.1 hresponse
      rw [hbad] at hgood
      exact Bool.noConfusion hgood
  · rw [step_of_disarmed hd]
    exact Or.inr ⟨hd, hsettled⟩

/-- When every state of the run is in order, every response that reached the
listener could be read: one that cannot leaves a popup that waits for nothing. -/
theorem meets_of_orderly :
    ∀ (events : List Event) (s : Popup), s.Sound →
      (∀ past, past <+: events → (machine.run s past).Orderly) → machine.Meets Readable s events
  | [], _, _, _ => trivial
  | a :: events, s, hs, horderly => by
    have hread : s.Readable a := by
      intro e ha hlistening hresponse
      subst ha
      rcases hs with hw | ⟨hd, _⟩
      · by_contra hbad
        rw [Bool.not_eq_true] at hbad
        have hnext : (s.step (.message e)).Orderly :=
          horderly [.message e] (by simp)
        -- a response that cannot be read ends the waiting and settles nothing
        have hstep : s.step (.message e) =
            { s.clearTimeout.clearInterval.removeEventListener with closeCalled := true } := by
          rw [step, hlistening, if_pos rfl, popupEventListener, hresponse, if_pos rfl,
            answer_of_not_readable hbad]
        have hsettled := hnext.1 (by rw [hstep]; exact ⟨rfl, rfl, rfl⟩)
        have hnone : (s.step (.message e)).promise = none := by
          rw [hstep]
          exact hw.2.2.2
        rw [hnone] at hsettled
        exact Bool.noConfusion hsettled
      · rw [hd.2.2] at hlistening
        exact Bool.noConfusion hlistening
    refine ⟨hread, meets_of_orderly events _ (hs.step hread) ?_⟩
    intro past hpast
    exact horderly (a :: past) (List.cons_prefix_cons.mpr ⟨rfl, hpast⟩)

theorem sound_run (events : List Event) (h : machine.Meets Readable {} events) :
    (runPopup events).Sound :=
  Machine.run_guarded (P := Sound) (fun _ _ hs hread => hs.step hread) events {}
    (Or.inl ⟨rfl, rfl, rfl, rfl⟩) h

/-- At every point of a run the promise is settled exactly when everything is
disarmed, if and only if every response that reaches the listener can be read. -/
theorem popup_settles_iff (events : List Event) :
    (∀ past, past <+: events → (runPopup past).Orderly) ↔ machine.Meets Readable {} events := by
  constructor
  · intro h
    exact meets_of_orderly events {} (Or.inl ⟨rfl, rfl, rfl, rfl⟩) h
  · intro h past hpast
    obtain ⟨rest, rfl⟩ := hpast
    exact (sound_run past ((Machine.meets_append machine {} past rest).mp h).1).orderly

/-- A message `{type: 'authorization_response'}` and nothing else. -/
def emptyResponse : MessageEvent :=
  { origin := "https://tenant.authok.cn"
    data := .obj [("type", .str "authorization_response")] }

/-- It disarms everything and the promise stays pending. -/
theorem empty_response_hangs :
    ¬ ∀ events, ∀ past, past <+: events → (runPopup past).Orderly := by
  intro h
  have hbad := (h [.message emptyResponse] [.message emptyResponse] (List.prefix_refl _)).1
    ⟨rfl, rfl, rfl⟩
  exact Bool.noConfusion hbad

end Popup

/-! ## `runIframe` -/

/-- What `runIframe` has armed, its element and its promise. `cleanups` counts the
timers that will call `removeIframe`. -/
structure Iframe where
  timeoutSetTimeoutId : Bool := true
  cleanups : Nat := 0
  listening : Bool := true
  attached : Bool := true
  sourceCloses : Nat := 0
  promise : Option Settled := none

namespace Iframe

inductive Event where
  | message (e : MessageEvent)
  | timeout
  | cleanup

/-- `res` and `rej`: only the first call counts. -/
def settle (s : Iframe) (r : Settled) : Iframe := { s with promise := s.promise.or (some r) }

def removeIframe (s : Iframe) : Iframe :=
  if s.attached then { s with attached := false, listening := false } else s

/-- The callback of the timeout. -/
def onTimeout (s : Iframe) : Iframe :=
  ({ s with timeoutSetTimeoutId := false }.settle (.rejected timeoutError)).removeIframe

/-- `iframeEventHandler`. -/
def iframeEventHandler (eventOrigin : String) (s : Iframe) (e : MessageEvent) : Iframe :=
  if e.origin ≠ eventOrigin then s
  else if e.isResponse then
    let s' := if e.source then { s with sourceCloses := s.sourceCloses + 1 } else s
    match answer e.response with
    -- the handler throws here, with everything still armed
    | none => s'
    | some r =>
      { s'.settle r with
        timeoutSetTimeoutId := false, listening := false, cleanups := s'.cleanups + 1 }
  else s

def step (eventOrigin : String) (s : Iframe) : Event → Iframe
  | .message e => if s.listening then s.iframeEventHandler eventOrigin e else s
  | .timeout => if s.timeoutSetTimeoutId then s.onTimeout else s
  | .cleanup =>
    match s.cleanups with
    | 0 => s
    | n + 1 => { s with cleanups := n }.removeIframe

def machine (eventOrigin : String) : Machine Iframe Event Unit :=
  ⟨fun s a => (s.step eventOrigin a, ())⟩

/-- `runIframe`: the state after the events. -/
def runIframe (eventOrigin : String) (events : List Event) : Iframe :=
  (machine eventOrigin).run {} events

/-- The message is the one that is waited for. -/
def relevant (eventOrigin : String) (e : MessageEvent) : Bool :=
  decide (e.origin = eventOrigin) && e.isResponse

/-- What the first event of the run that counts makes of the promise. -/
def decides (eventOrigin : String) : Event → Option Settled
  | .timeout => some (.rejected timeoutError)
  | .message e => if relevant eventOrigin e then some (outcome e.response) else none
  | .cleanup => none

variable {eventOrigin : String} {s : Iframe}

theorem machine_step (eventOrigin : String) (s : Iframe) (a : Event) :
    ((machine eventOrigin).step s a).1 = s.step eventOrigin a := rfl

/-! ### Steps -/

theorem step_of_not_relevant {e : MessageEvent} (h : relevant eventOrigin e = false) (s : Iframe) :
    s.step eventOrigin (.message e) = s := by
  rw [step]
  split
  · rw [iframeEventHandler]
    by_cases horigin : e.origin = eventOrigin
    · have hresponse : e.isResponse = false := by simpa [relevant, horigin] using h
      rw [if_neg (by simp [horigin]), hresponse, if_neg (by simp)]
    · rw [if_pos horigin]
  · rfl

/-- The phases of a run. The element of a run that a message settled goes with the
second timer. -/
inductive Phase : Iframe → Prop where
  | waiting (closes : Nat) : Phase { sourceCloses := closes }
  | answered (closes : Nat) (r : Settled) : Phase ⟨false, 1, false, true, closes, some r⟩
  | cleaned (closes : Nat) (r : Settled) : Phase ⟨false, 0, false, false, closes, some r⟩

/-- The events the run is about: a response from the right window carries a response
object, that is one that can be read. -/
def Carries (eventOrigin : String) (a : Event) : Prop :=
  ∀ e, a = .message e → relevant eventOrigin e = true → readable e.response = true

theorem step_relevant {e : MessageEvent} (hrelevant : relevant eventOrigin e = true)
    (hread : readable e.response = true) (closes : Nat) :
    ({ sourceCloses := closes } : Iframe).step eventOrigin (.message e) =
      ⟨false, 1, false, true, if e.source then closes + 1 else closes,
        some (outcome e.response)⟩ := by
  obtain ⟨horigin, hresponse⟩ : e.origin = eventOrigin ∧ e.isResponse = true := by
    simpa [relevant] using hrelevant
  rw [step, if_pos rfl, iframeEventHandler, if_neg (by simp [horigin]), if_pos hresponse,
    answer_of_readable hread]
  cases e.source with
  | true => rfl
  | false => rfl

/-- A settled run does not hear messages. -/
theorem Phase.step_message_of_settled (h : Phase s) (hsettled : s.promise.isSome = true)
    (e : MessageEvent) : s.step eventOrigin (.message e) = s := by
  cases h with
  | waiting closes => exact Bool.noConfusion hsettled
  | answered closes r => rfl
  | cleaned closes r => rfl

/-- One event: the phases are kept, and a promise that is pending takes what the
event decides. -/
theorem Phase.step (h : Phase s) {a : Event} (ha : Carries eventOrigin a) :
    Phase (s.step eventOrigin a) ∧
      (s.step eventOrigin a).promise = s.promise.or (decides eventOrigin a) := by
  cases h with
  | waiting closes =>
    cases a with
    | timeout => exact ⟨.cleaned closes _, rfl⟩
    | cleanup => exact ⟨.waiting closes, rfl⟩
    | message e =>
      cases hrelevant : relevant eventOrigin e with
      | false =>
        rw [step_of_not_relevant hrelevant, decides, hrelevant]
        exact ⟨.waiting closes, rfl⟩
      | true =>
        rw [step_relevant hrelevant (ha e rfl hrelevant), decides, hrelevant]
        exact ⟨.answered _ _, rfl⟩
  | answered closes r =>
    cases a with
    | message e => exact ⟨.answered closes r, rfl⟩
    | timeout => exact ⟨.answered closes r, rfl⟩
    | cleanup => exact ⟨.cleaned closes r, rfl⟩
  | cleaned closes r =>
    cases a with
    | message e => exact ⟨.cleaned closes r, rfl⟩
    | timeout => exact ⟨.cleaned closes r, rfl⟩
    | cleanup => exact ⟨.cleaned closes r, rfl⟩

theorem Phase.run :
    ∀ (events : List Event) {s : Iframe}, Phase s → (∀ a ∈ events, Carries eventOrigin a) →
      Phase ((machine eventOrigin).run s events) ∧
        ((machine eventOrigin).run s events).promise =
          s.promise.or (events.findSome? (decides eventOrigin))
  | [], s, h, _ => ⟨h, by cases hp : s.promise <;> simp [Machine.run, hp]⟩
  | a :: events, s, h, hall => by
    obtain ⟨hphase, hpromise⟩ := h.step (hall a (List.mem_cons_self ..))
    obtain ⟨hphase', hpromise'⟩ :=
      Phase.run events hphase fun b hb => hall b (List.mem_cons_of_mem _ hb)
    refine ⟨hphase', ?_⟩
    rw [Machine.run_cons, machine_step, hpromise', hpromise, List.findSome?_cons]
    cases s.promise with
    | some r => rfl
    | none => cases decides eventOrigin a <;> rfl

/-- No timer is pending. -/
def Idle (s : Iframe) : Prop := s.timeoutSetTimeoutId = false ∧ s.cleanups = 0

theorem Phase.removed (h : Phase s) (hidle : s.Idle) : s.listening = false ∧ s.attached = false := by
  cases h with
  | waiting closes => exact Bool.noConfusion hidle.1
  | answered closes r => exact Nat.noConfusion hidle.2
  | cleaned closes r => exact ⟨rfl, rfl⟩

/-- The promise is settled by the first event that counts, all other messages are
inert, and a run without pending timers has left nothing behind. -/
theorem first_event_decides (eventOrigin : String) (events : List Event)
    (hcarries : ∀ a ∈ events, Carries eventOrigin a) :
    (runIframe eventOrigin events).promise = events.findSome? (decides eventOrigin) ∧
      (∀ e, relevant eventOrigin e = false ∨ (runIframe eventOrigin events).promise.isSome = true →
        (runIframe eventOrigin events).step eventOrigin (.message e) =
          runIframe eventOrigin events) ∧
      ((runIframe eventOrigin events).Idle →
        (runIframe eventOrigin events).listening = false ∧
          (runIframe eventOrigin events).attached = false) := by
  obtain ⟨hphase, hpromise⟩ := Phase.run events (.waiting 0) hcarries
  refine ⟨hpromise, ?_, hphase.removed⟩
  rintro e (hother | hsettled)
  · exact step_of_not_relevant hother _
  · exact hphase.step_message_of_settled hsettled e

/-- A forged message, the genuine one, a late timeout and the second timer. -/
def answeredRun : List Event :=
  [.message (responseFrom "https://evil.example" "forged"),
    .message (responseFrom "https://tenant.authok.cn" "genuine"), .timeout, .cleanup]

theorem first_event_decides_answered :
    (∀ a ∈ answeredRun, Carries "https://tenant.authok.cn" a) ∧
      (runIframe "https://tenant.authok.cn" answeredRun).promise =
        some (.resolved (responseFrom "https://tenant.authok.cn" "genuine").response) := by
  have hcarries : ∀ a ∈ answeredRun, Carries "https://tenant.authok.cn" a := by
    intro a ha e he _
    subst he
    simp only [answeredRun, List.mem_cons, List.not_mem_nil, or_false, reduceCtorEq,
      Event.message.injEq] at ha
    rcases ha with rfl | rfl <;> rfl
  exact ⟨hcarries, (first_event_decides _ answeredRun hcarries).1⟩

end Iframe

/-! ## Foreign windows -/

/-- Two runs that differ in foreign messages only. -/
def SameButForeign {α : Type} (foreign : α → Bool) (as bs : List α) : Prop :=
  as.filter (fun a => !foreign a) = bs.filter (fun a => !foreign a)

def Popup.Event.foreign (domainUrl : String) : Popup.Event → Bool
  | .message e => e.origin ≠ domainUrl
  | _ => false

def Iframe.Event.foreign (eventOrigin : String) : Iframe.Event → Bool
  | .message e => e.origin ≠ eventOrigin
  | _ => false

namespace Popup

theorem run_genuine {domainUrl : String} {events : List Event}
    (h : machine.Meets (Quiet domainUrl) {} events) :
    runPopup events = runPopup (events.filter fun a => !a.foreign domainUrl) := by
  refine Machine.run_filter (fun s a ha hquiet => ?_) events ({} : Popup) h
  cases a with
  | poll closed => exact absurd ha (by simp [Event.foreign])
  | timeout => exact absurd ha (by simp [Event.foreign])
  | message e =>
    have horigin : e.origin ≠ domainUrl := by simpa [Event.foreign] using ha
    rw [machine_step, step]
    split
    next hlistening =>
      rw [popupEventListener, hquiet e rfl hlistening horigin, if_neg (by simp)]
    next => rfl

end Popup

theorem Iframe.run_genuine (eventOrigin : String) (events : List Iframe.Event) :
    runIframe eventOrigin events =
      runIframe eventOrigin (events.filter fun a => !a.foreign eventOrigin) := by
  refine Machine.run_filter (C := fun _ _ => True) (fun s a ha _ => ?_) events
    ({} : Iframe) (Machine.meets_of_forall _ _ fun _ _ _ => trivial)
  cases a with
  | timeout => exact absurd ha (by simp [Event.foreign])
  | cleanup => exact absurd ha (by simp [Event.foreign])
  | message e =>
    have horigin : e.origin ≠ eventOrigin := by simpa [Event.foreign] using ha
    exact step_of_not_relevant (by simp [relevant, horigin]) s

/-- Two runs of the popup that differ in foreign messages only settle alike, as
long as no foreign message that reaches a listener is a response. The runs of the
iframe do without the condition. -/
theorem foreign_windows_cannot_decide (domainUrl : String) :
    (∀ events events' : List Popup.Event,
      SameButForeign (Popup.Event.foreign domainUrl) events events' →
      Popup.machine.Meets (Popup.Quiet domainUrl) {} events →
      Popup.machine.Meets (Popup.Quiet domainUrl) {} events' →
        (Popup.runPopup events).promise = (Popup.runPopup events').promise) ∧
    (∀ events events' : List Iframe.Event,
      SameButForeign (Iframe.Event.foreign domainUrl) events events' →
        (Iframe.runIframe domainUrl events).promise =
          (Iframe.runIframe domainUrl events').promise) := by
  constructor
  · intro events events' hsame hquiet hquiet'
    rw [Popup.run_genuine hquiet, Popup.run_genuine hquiet', hsame]
  · intro events events' hsame
    rw [Iframe.run_genuine _ events, Iframe.run_genuine _ events', hsame]

/-- Chatter of another window before the response. -/
def chatter : List Popup.Event :=
  [.message { origin := "https://evil.example", data := .str "hello" }, .poll false,
    .message (responseFrom "https://tenant.authok.cn" "genuine")]

theorem foreign_chatter_cannot_decide :
    SameButForeign (Popup.Event.foreign "https://tenant.authok.cn") chatter (chatter.drop 1) ∧
      (Popup.runPopup chatter).promise = (Popup.runPopup (chatter.drop 1)).promise := by
  have hsame : SameButForeign (Popup.Event.foreign "https://tenant.authok.cn") chatter
      (chatter.drop 1) := rfl
  have hquiet : ∀ a ∈ chatter, ∀ s, Popup.Quiet "https://tenant.authok.cn" s a := by
    intro a ha s e he _ horigin
    subst he
    simp only [chatter, List.mem_cons, List.not_mem_nil, or_false, reduceCtorEq, false_or,
      Popup.Event.message.injEq] at ha
    rcases ha with rfl | rfl
    · rfl
    · exact absurd rfl horigin
  have hquiet' : ∀ a ∈ chatter.drop 1, ∀ s, Popup.Quiet "https://tenant.authok.cn" s a :=
    fun a ha => hquiet a (List.mem_of_mem_drop ha)
  exact ⟨hsame, (foreign_windows_cannot_decide "https://tenant.authok.cn").1 chatter
    (chatter.drop 1) hsame (Machine.meets_of_forall _ _ hquiet)
    (Machine.meets_of_forall _ _ hquiet')⟩

/-- The code that the promise resolves to. -/
def Settled.code : Settled → Value
  | .resolved response => member response "code"
  | .rejected _ => .undefined

/-- A forged response in front of the genuine one decides the login. -/
theorem forged_response_decides :
    ¬ ∀ (domainUrl : String) (events events' : List Popup.Event),
      SameButForeign (Popup.Event.foreign domainUrl) events events' →
        (Popup.runPopup events).promise = (Popup.runPopup events').promise := by
  intro h
  have hsame := h "https://tenant.authok.cn"
    [.message (responseFrom "https://evil.example" "forged"),
      .message (responseFrom "https://tenant.authok.cn" "genuine")]
    [.message (responseFrom "https://tenant.authok.cn" "genuine")] rfl
  have hcode := congrArg (fun p => p.map Settled.code) hsame
  have hforged : some (Value.str "forged") = some (Value.str "genuine") := hcode
  simp at hforged

end AuthokSpa.Windows
