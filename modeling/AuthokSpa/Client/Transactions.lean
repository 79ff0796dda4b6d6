import AuthokSpa.Client.Session

/-!
# Transactions of several clients (`transaction-manager.ts`)

A transaction manager reads the storage once, when it is constructed, and works
on its own copy from then on. It writes through: `create` and `remove` change the
copy and the storage. With one manager for a client id the two never part. With
several, a manager does not see what another one writes: `transaction_copies`
says what `get` answers, how long that is what the storage holds, and for whom a
transaction that was used is gone.

The storage keeps a JSON text. What is written is kept here as it was given, and
a read goes through `reload`. A missing item reads as `undefined` or `null`, which
`handleRedirectCallback` does not tell apart.
-/

namespace AuthokSpa.Transactions

open Js (Value Obj)
open AuthokClient (Transaction)

/-- The storage item of a client id and the copies of its managers, in the order of
their construction. -/
structure System where
  storage : Option Transaction := none
  instances : List (Option Transaction) := []

inductive Op where
  | construct
  | create (i : Nat) (t : Transaction)
  | get (i : Nat)
  | remove (i : Nat)
  | handleRedirectCallback (i : Nat) (url : String)

inductive Answer where
  | done
  | transaction (t : Option Transaction)
  | rejected
  /-- The code is exchanged with the secrets of the transaction. -/
  | exchange (t : Transaction)

namespace System

variable (s : System)

/-- `this.storage.get(this.storageKey)`. -/
def stored : Option Transaction := s.storage.map Transaction.reload

/-- `get`. -/
def get (i : Nat) : Option Transaction := s.instances[i]?.join

/-- The constructor. -/
def construct : System := { s with instances := s.instances ++ [s.stored] }

/-- `create`. -/
def create (i : Nat) (t : Transaction) : System :=
  { storage := some t, instances := s.instances.set i (some t) }

/-- `remove`. -/
def remove (i : Nat) : System := { storage := none, instances := s.instances.set i none }

/-- What a callback URL makes of a transaction. -/
def answer (params : Js.ProtoObj) (t : Transaction) : Answer :=
  if (params.get "error").truthy then .rejected
  else if !t.code_verifier.truthy ||
      (t.state.truthy && !t.state.strictEq (params.get "state")) then .rejected
  else .exchange t

/-- `handleRedirectCallback` up to the token request. -/
def handleRedirectCallback (i : Nat) (url : String) : System × Answer :=
  match callbackParams url with
  | none => (s, .rejected)
  | some params =>
    match s.get i with
    | none => (s, .rejected)
    | some t => (s.remove i, answer params t)

/-- A call on a manager that does not exist is not possible. -/
def step (op : Op) : System × Answer :=
  match op with
  | .construct => (s.construct, .done)
  -- only the managers constructed so far can be called
  | .create i t => if i < s.instances.length then (s.create i t, .done) else (s, .done)
  | .get i => (s, .transaction (s.get i))
  | .remove i => if i < s.instances.length then (s.remove i, .done) else (s, .done)
  | .handleRedirectCallback i url => s.handleRedirectCallback i url

end System

def machine : Machine System Op Answer := ⟨System.step⟩

/-- The manager that the operation may let write. -/
def Op.writer : Op → Option Nat
  | .create i _ => some i
  | .remove i => some i
  | .handleRedirectCallback i _ => some i
  | _ => none

/-- The manager holds what the storage holds, as it was written or as it is read. -/
def System.Agrees (s : System) (i : Nat) : Prop := s.get i = s.storage ∨ s.get i = s.stored

/-- A step that gives the manager `i` its copy. -/
inductive Gives (s : System) : Op → Nat → Option Transaction → Prop
  | construct : Gives s .construct s.instances.length s.stored
  | create {i : Nat} (hi : i < s.instances.length) (t : Transaction) :
      Gives s (.create i t) i (some t)
  | remove {i : Nat} (hi : i < s.instances.length) : Gives s (.remove i) i none
  | consume {i : Nat} {t : Transaction} {url : String} {params : Js.ProtoObj}
      (hurl : callbackParams url = some params) (ht : s.get i = some t) :
      Gives s (.handleRedirectCallback i url) i none

/-! ## Steps -/

variable {s : System} {i j : Nat}

theorem get_set_same (hi : i < s.instances.length) (v : Option Transaction)
    (storage : Option Transaction) :
    System.get { storage, instances := s.instances.set i v } i = v := by
  simp [System.get, hi]

theorem get_set_ne (hne : i ≠ j) (v : Option Transaction) (storage : Option Transaction) :
    System.get { storage, instances := s.instances.set i v } j = s.get j := by
  unfold System.get
  rw [List.getElem?_set_ne hne]

theorem get_construct_old (hi : i < s.instances.length) : s.construct.get i = s.get i := by
  unfold System.construct System.get
  rw [List.getElem?_append_left hi]

theorem get_construct_new : s.construct.get s.instances.length = s.stored := by
  simp [System.construct, System.get]

theorem lt_of_get {t : Transaction} (h : s.get i = some t) : i < s.instances.length := by
  by_contra hge
  unfold System.get at h
  rw [List.getElem?_eq_none (by omega)] at h
  exact absurd h (by simp)

/-- A callback that finds a transaction removes it, any other changes nothing. -/
theorem handleRedirectCallback_cases (s : System) (i : Nat) (url : String) :
    (s.handleRedirectCallback i url = (s, .rejected)) ∨
      ∃ params t, callbackParams url = some params ∧ s.get i = some t ∧
        s.handleRedirectCallback i url = (s.remove i, System.answer params t) := by
  unfold System.handleRedirectCallback
  split
  next => exact Or.inl rfl
  next params hurl =>
    split
    next => exact Or.inl rfl
    next t ht => exact Or.inr ⟨params, t, hurl, ht, rfl⟩

/-- What an operation does to a manager that it does not let write: nothing. -/
theorem step_get_of_not_writer (hi : i < s.instances.length) {op : Op} (hop : op.writer ≠ some i) :
    (s.step op).1.get i = s.get i ∧ i < (s.step op).1.instances.length := by
  cases op with
  | construct =>
    refine ⟨get_construct_old hi, ?_⟩
    show i < (s.instances ++ [s.stored]).length
    rw [List.length_append]
    omega
  | get k => exact ⟨rfl, hi⟩
  | create k t =>
    have hne : k ≠ i := fun h => hop (by rw [h]; rfl)
    unfold System.step
    dsimp only
    split
    · exact ⟨get_set_ne hne _ _, by simpa [System.create] using hi⟩
    · exact ⟨rfl, hi⟩
  | remove k =>
    have hne : k ≠ i := fun h => hop (by rw [h]; rfl)
    unfold System.step
    dsimp only
    split
    · exact ⟨get_set_ne hne _ _, by simpa [System.remove] using hi⟩
    · exact ⟨rfl, hi⟩
  | handleRedirectCallback k url =>
    have hne : k ≠ i := fun h => hop (by rw [h]; rfl)
    rcases handleRedirectCallback_cases s k url with hsame | ⟨params, t, -, -, hused⟩
    · have hstep : (s.step (.handleRedirectCallback k url)).1 = s := congrArg Prod.fst hsame
      rw [hstep]
      exact ⟨rfl, hi⟩
    · have hstep : (s.step (.handleRedirectCallback k url)).1 = s.remove k := congrArg Prod.fst hused
      rw [hstep]
      exact ⟨get_set_ne hne _ _, by simpa [System.remove] using hi⟩

/-- A step that gives a copy gives it, and the storage holds the same. -/
theorem Gives.step {op : Op} {v : Option Transaction} (h : Gives s op i v) :
    (s.step op).1.get i = v ∧ i < (s.step op).1.instances.length ∧ (s.step op).1.Agrees i := by
  cases h with
  | construct =>
    refine ⟨get_construct_new, ?_, Or.inr get_construct_new⟩
    show s.instances.length < (s.instances ++ [s.stored]).length
    rw [List.length_append, List.length_singleton]
    omega
  | create hi t =>
    have hstep : (s.step (.create i t)).1 = s.create i t := by
      unfold System.step
      dsimp only
      rw [if_pos hi]
    rw [hstep]
    have hget := get_set_same hi (some t) (some t)
    exact ⟨hget, by simpa [System.create] using hi, Or.inl hget⟩
  | remove hi =>
    have hstep : (s.step (.remove i)).1 = s.remove i := by
      unfold System.step
      dsimp only
      rw [if_pos hi]
    rw [hstep]
    have hget := get_set_same hi none none
    exact ⟨hget, by simpa [System.remove] using hi, Or.inl hget⟩
  | @consume _ t url params hurl ht =>
    have hi := lt_of_get ht
    have hstep : (s.step (.handleRedirectCallback i url)).1 = s.remove i := by
      show (s.handleRedirectCallback i url).1 = _
      unfold System.handleRedirectCallback
      rw [hurl, ht]
    rw [hstep]
    have hget := get_set_same hi none none
    exact ⟨hget, by simpa [System.remove] using hi, Or.inl hget⟩

/-- A manager that holds what the storage holds does so until another one writes. -/
theorem step_agrees (hi : i < s.instances.length) (h : s.Agrees i) {op : Op}
    (hop : op.writer = none ∨ op.writer = some i) :
    i < (s.step op).1.instances.length ∧ (s.step op).1.Agrees i := by
  cases op with
  | construct =>
    have hquiet : Op.construct.writer ≠ some i := by simp [Op.writer]
    -- the storage is not written, and neither is this copy
    obtain ⟨hget, hlt⟩ := step_get_of_not_writer hi hquiet
    refine ⟨hlt, ?_⟩
    unfold System.Agrees at h ⊢
    rw [hget]
    exact h
  | get k => exact ⟨hi, h⟩
  | create k t =>
    obtain rfl : k = i := by simpa [Op.writer] using hop
    exact (Gives.create hi t).step.2
  | remove k =>
    obtain rfl : k = i := by simpa [Op.writer] using hop
    exact (Gives.remove hi).step.2
  | handleRedirectCallback k url =>
    obtain rfl : k = i := by simpa [Op.writer] using hop
    rcases handleRedirectCallback_cases s k url with hsame | ⟨params, t, hurl, ht, -⟩
    · have hstep : (s.step (.handleRedirectCallback k url)).1 = s := congrArg Prod.fst hsame
      rw [hstep]
      exact ⟨hi, h⟩
    · exact (Gives.consume hurl ht).step.2

/-! ## Runs -/

theorem run_get (hi : i < s.instances.length) (after : List Op)
    (hafter : ∀ op ∈ after, op.writer ≠ some i) : (machine.run s after).get i = s.get i := by
  refine (Machine.run_guarded (M := machine) (C := fun _ op => op.writer ≠ some i)
    (P := fun s' => s'.get i = s.get i ∧ i < s'.instances.length) ?_ after s ⟨rfl, hi⟩
    (Machine.meets_of_forall _ _ fun op hop _ => hafter op hop)).1
  rintro s' op ⟨hget, hlt⟩ hop
  obtain ⟨hget', hlt'⟩ := step_get_of_not_writer hlt hop
  exact ⟨hget'.trans hget, hlt'⟩

theorem run_agrees (hi : i < s.instances.length) (h : s.Agrees i) (after : List Op)
    (hafter : ∀ op ∈ after, op.writer = none ∨ op.writer = some i) :
    (machine.run s after).Agrees i :=
  (Machine.run_guarded (M := machine) (C := fun _ op => op.writer = none ∨ op.writer = some i)
    (P := fun s' => i < s'.instances.length ∧ s'.Agrees i)
    (fun _ _ hs hop => step_agrees hs.1 hs.2 hop) after s ⟨hi, h⟩
    (Machine.meets_of_forall _ _ fun op hop _ => hafter op hop)).2

/-- The operation creates the transaction, or one that a new page reads as it. -/
def Op.Creates (t : Transaction) (op : Op) : Prop :=
  ∃ k u, op = .create k u ∧ (u = t ∨ u.reload = t)

/-- The transaction is not stored, and the managers in `P` do not have it. -/
def System.Spent (t : Transaction) (P : Nat → Prop) (s : System) : Prop :=
  s.stored ≠ some t ∧ ∀ j, P j → s.get j ≠ some t

theorem spent_remove {t : Transaction} {P : Nat → Prop} (h : ∀ j, P j → s.get j ≠ some t) (k : Nat) :
    (s.remove k).Spent t P := by
  refine ⟨fun hc => (nomatch hc), fun j hj => ?_⟩
  by_cases hk : k = j
  · subst hk
    by_cases hlt : k < s.instances.length
    · rw [show (s.remove k).get k = none from get_set_same hlt none none]
      exact fun hc => (nomatch hc)
    · have hsame : s.instances.set k none = s.instances := List.set_eq_of_length_le (by omega)
      unfold System.remove System.get
      rw [hsame]
      exact h k hj
  · rw [show (s.remove k).get j = s.get j from get_set_ne hk none none]
    exact h j hj

/-- Without `create` it does not come back: a manager constructed now does not find it. -/
theorem step_spent {t : Transaction} {P : Nat → Prop} (h : s.Spent t P) {op : Op}
    (hop : ¬ op.Creates t) : (s.step op).1.Spent t P := by
  cases op with
  | create k u =>
    have hother : u ≠ t ∧ u.reload ≠ t :=
      ⟨fun hu => hop ⟨k, u, rfl, Or.inl hu⟩, fun hu => hop ⟨k, u, rfl, Or.inr hu⟩⟩
    unfold System.step
    dsimp only
    split
    next hlt =>
      refine ⟨fun hc => hother.2 (Option.some.inj hc), fun j hj => ?_⟩
      by_cases hk : k = j
      · subst hk
        rw [show (s.create k u).get k = some u from get_set_same hlt _ _]
        exact fun hc => hother.1 (Option.some.inj hc)
      · rw [show (s.create k u).get j = s.get j from get_set_ne hk _ _]
        exact h.2 j hj
    next => exact h
  | get k => exact h
  | construct =>
    -- the new manager reads the storage, where it is not
    refine ⟨h.1, fun j hj => ?_⟩
    show (s.instances ++ [s.stored])[j]?.join ≠ some t
    rcases Nat.lt_trichotomy j s.instances.length with hlt | rfl | hgt
    · rw [List.getElem?_append_left hlt]
      exact h.2 j hj
    · rw [List.getElem?_concat_length]
      exact h.1
    · rw [List.getElem?_eq_none (by simp; omega)]
      intro hc
      cases hc
  | remove k =>
    unfold System.step
    dsimp only
    split
    · exact spent_remove h.2 k
    · exact h
  | handleRedirectCallback k url =>
    rcases handleRedirectCallback_cases s k url with hsame | ⟨params, u, -, -, hused⟩
    · have hstep : (s.step (.handleRedirectCallback k url)).1 = s := congrArg Prod.fst hsame
      rw [hstep]
      exact h
    · have hstep : (s.step (.handleRedirectCallback k url)).1 = s.remove k := congrArg Prod.fst hused
      rw [hstep]
      exact spent_remove h.2 k

/-- What is exchanged is the manager's transaction. -/
theorem exchange_of_answer {params : Js.ProtoObj} {t u : Transaction}
    (h : System.answer params u = .exchange t) : u = t := by
  unfold System.answer at h
  split at h
  · exact (nomatch h)
  · split at h
    · exact (nomatch h)
    · cases h
      rfl

/-- A manager that does not have it does not exchange it. -/
theorem not_exchange_of_spent {t : Transaction} {P : Nat → Prop} (h : s.Spent t P) {i : Nat}
    (hi : P i) (url : String) : (s.step (.handleRedirectCallback i url)).2 ≠ .exchange t := by
  rcases handleRedirectCallback_cases s i url with hsame | ⟨params, u, -, hu, hused⟩
  · have hstep : (s.step (.handleRedirectCallback i url)).2 = .rejected := congrArg Prod.snd hsame
    rw [hstep]
    exact fun hc => (nomatch hc)
  · have hstep : (s.step (.handleRedirectCallback i url)).2 = System.answer params u :=
      congrArg Prod.snd hused
    rw [hstep]
    intro hc
    rw [exchange_of_answer hc] at hu
    exact h.2 i hi hu

/-- **What a manager knows of its transaction.** Whatever happens among the managers of
a client id: `get` answers what the manager itself last created or removed, or else
what the storage held when it was constructed; that is what the storage holds as
long as no other manager writes; and once `handleRedirectCallback` has used a
transaction, neither the same manager nor any that is constructed later uses one that was
not created since, above all not the one that was used. -/
theorem transaction_copies (s : System) :
    (∀ op i v, Gives s op i v → ∀ after : List Op, (∀ op' ∈ after, op'.writer ≠ some i) →
      (machine.step (machine.run (machine.step s op).1 after) (.get i)).2 = .transaction v) ∧
    (∀ op i v, Gives s op i v → ∀ after : List Op,
      (∀ op' ∈ after, op'.writer = none ∨ op'.writer = some i) →
        (machine.run (machine.step s op).1 after).Agrees i) ∧
    (∀ i url t, (machine.step s (.handleRedirectCallback i url)).2 = .exchange t →
      ∀ (after : List Op) t', (∀ op' ∈ after, ¬ op'.Creates t') →
      ∀ j, j = i ∨ s.instances.length ≤ j → ∀ url',
        (machine.step (machine.run (machine.step s (.handleRedirectCallback i url)).1 after)
          (.handleRedirectCallback j url')).2 ≠ .exchange t') := by
  refine ⟨?_, ?_, ?_⟩
  · intro op i v hgives after hafter
    obtain ⟨hget, hlt, -⟩ := hgives.step
    have hrun := run_get hlt after hafter
    exact congrArg Answer.transaction (hrun.trans hget)
  · intro op i v hgives after hafter
    obtain ⟨-, hlt, hagrees⟩ := hgives.step
    exact run_agrees hlt hagrees after hafter
  · intro i url t hexchange after t' hafter j hj url'
    -- an exchange takes a transaction, and removes it
    have hused : ∃ t₀, s.get i = some t₀ ∧
        (machine.step s (.handleRedirectCallback i url)).1 = s.remove i := by
      rcases handleRedirectCallback_cases s i url with hsame | ⟨params, t₀, -, ht₀, hused⟩
      · have hstep : (machine.step s (.handleRedirectCallback i url)).2 = .rejected :=
          congrArg Prod.snd hsame
        rw [hstep] at hexchange
        exact (nomatch hexchange)
      · exact ⟨t₀, ht₀, congrArg Prod.fst hused⟩
    obtain ⟨t₀, ht₀, hstep⟩ := hused
    have hi := lt_of_get ht₀
    -- neither the storage nor these managers have one after that
    have hspent : (s.remove i).Spent t' fun j => j = i ∨ s.instances.length ≤ j := by
      refine ⟨fun hc => (nomatch hc), ?_⟩
      rintro k (rfl | hk)
      · rw [show (s.remove k).get k = none from get_set_same hi none none]
        exact fun hc => (nomatch hc)
      · unfold System.remove System.get
        rw [List.getElem?_eq_none (by simpa using hk)]
        exact fun hc => (nomatch hc)
    rw [hstep]
    have hrun := Machine.run_guarded (M := machine) (C := fun _ op => ¬ op.Creates t')
      (P := fun s' => s'.Spent t' fun j => j = i ∨ s.instances.length ≤ j)
      (fun _ _ hs hop => step_spent hs hop) after (s.remove i) hspent
      (Machine.meets_of_forall _ _ fun op hop _ => hafter op hop)
    exact not_exchange_of_spent hrun hj url'

/-! ## Two clients on a page -/

def loginTransaction : Transaction where
  nonce := .str "nonce"
  code_verifier := .str "verifier"
  appState := .undefined
  scope := .str "openid"
  audience := .str "default"
  redirect_uri := .str "https://app"
  state := .str "state"
  organizationId := .undefined

def callbackUrl : String := "https://app?code=code&state=state"

theorem callbackParams_callbackUrl :
    callbackParams callbackUrl =
      some { own := [("code", .str "code"), ("state", .str "state")] } := by
  rfl

theorem reload_loginTransaction : loginTransaction.reload = loginTransaction := by
  simp [AuthokClient.Transaction.reload, loginTransaction]

/-- A later login of the second client. -/
def otherTransaction : Transaction := { loginTransaction with state := .str "later" }

theorem reload_otherTransaction : otherTransaction.reload = otherTransaction := by
  simp [AuthokClient.Transaction.reload, otherTransaction, loginTransaction]

/-- The first client starts a login, then a second one is constructed. -/
def twoClients : System := { storage := some loginTransaction,
                             instances := [some loginTransaction, some loginTransaction] }

theorem run_twoClients :
    machine.run {} [.construct, .create 0 loginTransaction, .construct] = twoClients := by
  show (⟨some loginTransaction, [some loginTransaction, some loginTransaction.reload]⟩ : System) = _
  rw [reload_loginTransaction]
  rfl

/-- The first client's callback uses the transaction. -/
theorem twoClients_callback :
    machine.step twoClients (.handleRedirectCallback 0 callbackUrl) =
      (⟨none, [none, some loginTransaction]⟩, .exchange loginTransaction) := by
  show twoClients.handleRedirectCallback 0 callbackUrl = _
  unfold System.handleRedirectCallback
  rw [callbackParams_callbackUrl]
  rfl

/-- Another login of the page does not bring the transaction back to a client constructed
after the callback. -/
theorem transaction_copies_later :
    (machine.step twoClients (.handleRedirectCallback 0 callbackUrl)).2 =
        .exchange loginTransaction ∧
      (machine.step (machine.run
        (machine.step twoClients (.handleRedirectCallback 0 callbackUrl)).1
          [.create 1 otherTransaction, .construct])
            (.handleRedirectCallback 2 callbackUrl)).2 ≠ .exchange loginTransaction := by
  have hexchange : (machine.step twoClients (.handleRedirectCallback 0 callbackUrl)).2 =
      .exchange loginTransaction := congrArg Prod.snd twoClients_callback
  refine ⟨hexchange, (transaction_copies twoClients).2.2 0 callbackUrl loginTransaction hexchange
    [.create 1 otherTransaction, .construct] loginTransaction ?_ 2 (Or.inr (by decide)) callbackUrl⟩
  intro op hop
  rcases List.mem_cons.mp hop with rfl | hop
  · rintro ⟨k, u, hu, hsame⟩
    cases hu
    rw [reload_otherTransaction, or_self] at hsame
    exact absurd (congrArg Transaction.state hsame) (by simp [otherTransaction, loginTransaction])
  · rintro ⟨k, u, hu, -⟩
    rw [List.mem_singleton.mp hop] at hu
    exact (nomatch hu)

/-- The other client of the page does: it holds the transaction that the storage no
longer has, and exchanges the code a second time. -/
theorem transaction_used_twice :
    machine.run {} [.construct, .create 0 loginTransaction, .construct] = twoClients ∧
      (machine.step twoClients (.handleRedirectCallback 0 callbackUrl)).2 =
        .exchange loginTransaction ∧
      (machine.step twoClients (.handleRedirectCallback 0 callbackUrl)).1.storage = none ∧
      (machine.step (machine.step twoClients (.handleRedirectCallback 0 callbackUrl)).1
        (.get 1)).2 = .transaction (some loginTransaction) ∧
      (machine.step (machine.step twoClients (.handleRedirectCallback 0 callbackUrl)).1
        (.handleRedirectCallback 1 callbackUrl)).2 = .exchange loginTransaction := by
  rw [twoClients_callback]
  refine ⟨run_twoClients, rfl, rfl, rfl, ?_⟩
  show (System.handleRedirectCallback ⟨none, [none, some loginTransaction]⟩ 1 callbackUrl).2 = _
  unfold System.handleRedirectCallback
  rw [callbackParams_callbackUrl]
  rfl

end AuthokSpa.Transactions
