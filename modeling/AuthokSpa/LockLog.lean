import Mathlib.Data.List.Basic

/-!
# Requests under a lock

Any number of parties share a lock, and each goes once through the same
section: take the lock, look whether there is something to fetch, on a miss
make requests until something is acquired or the party gives up, and give the
lock back. `Move` is what a party can do in one step; `Miss` and `Got` are
whatever is known of a miss and of something acquired.

The parties write one history. `Ledger` ties the phases to it: at most one
party is inside, a party that fetches has missed since the last acquisition,
and the lock has been taken and given back as often as the phase says. The
step rules are `Ledger.join` and `Ledger.move`; `Ledger.miss_between` and
`Ledger.balanced` are what a run can be told from its history.
-/

namespace LockLog

inductive Phase where
  | waiting
  | checking
  | fetching
  | closing
  | finished
  deriving DecidableEq

/-- The party is inside the section. -/
def Phase.holds : Phase → Bool
  | .checking => true
  | .fetching => true
  | .closing => true
  | _ => false

inductive Event (μ α : Type) where
  | locked
  | unlocked
  | missed (m : μ)
  | requested
  | acquired (a : α)

namespace Event

variable {μ α : Type}

def isLocked : Event μ α → Bool
  | .locked => true
  | _ => false

def isUnlocked : Event μ α → Bool
  | .unlocked => true
  | _ => false

def isAcquired : Event μ α → Bool
  | .acquired _ => true
  | _ => false

/-- A request or its success. -/
def fetches : Event μ α → Bool
  | .requested => true
  | .acquired _ => true
  | _ => false

end Event

variable {μ α : Type} (Miss : μ → Prop) (Got : α → Prop)

/-- One step of a party, with what it adds to the history. -/
inductive Move : Phase → List (Event μ α) → Phase → Prop
  | stay {p : Phase} : Move p [] p
  | quit : Move .waiting [] .finished
  | lock : Move .waiting [.locked] .checking
  | miss {m : μ} : Miss m → Move .checking [.missed m] .fetching
  | request : Move .fetching [.requested] .fetching
  | acquire {a : α} : Got a → Move .fetching [.acquired a] .closing
  | close {p : Phase} : p.holds = true → Move p [] .closing
  | release : Move .closing [.unlocked] .finished

/-- `i` has missed, and nothing has been acquired since. -/
def MissSince (i : Nat) (history : List (Nat × Event μ α)) : Prop :=
  ∃ past m since, history = past ++ (i, .missed m) :: since ∧ Miss m ∧
    ∀ x ∈ since, x.2.isAcquired = false

/-- What must have come before an event. -/
def Sound (past : List (Nat × Event μ α)) (i : Nat) : Event μ α → Prop
  | .missed m => Miss m
  | .requested => MissSince Miss i past
  | .acquired a => Got a ∧ MissSince Miss i past
  | _ => True

def locks (i : Nat) (history : List (Nat × Event μ α)) : Nat :=
  history.countP fun x => x.1 = i && x.2.isLocked

def unlocks (i : Nat) (history : List (Nat × Event μ α)) : Nat :=
  history.countP fun x => x.1 = i && x.2.isUnlocked

/-- How often a party has taken and given back the lock. -/
def Balanced (locks unlocks : Nat) : Option Phase → Prop
  | none => locks = 0 ∧ unlocks = 0
  | some .waiting => locks = 0 ∧ unlocks = 0
  | some .finished => locks = unlocks ∧ locks ≤ 1
  | some _ => locks = 1 ∧ unlocks = 0

structure Ledger (phases : List Phase) (history : List (Nat × Event μ α)) : Prop where
  one : ∀ (i j : Nat) (p q : Phase), phases[i]? = some p → phases[j]? = some q → p.holds = true →
    q.holds = true → i = j
  fetching : ∀ i, phases[i]? = some .fetching → MissSince Miss i history
  balanced : ∀ i, Balanced (locks i history) (unlocks i history) phases[i]?
  log : ∀ past i e rest, history = past ++ (i, e) :: rest → Sound Miss Got past i e

/-! ## One more event -/

section Append

variable {Miss : μ → Prop} {Got : α → Prop} {history : List (Nat × Event μ α)}

theorem MissSince.concat {i j : Nat} {e : Event μ α} (h : MissSince Miss i history)
    (he : e.isAcquired = false) : MissSince Miss i (history ++ [(j, e)]) := by
  obtain ⟨past, m, since, rfl, hm, hnone⟩ := h
  refine ⟨past, m, since ++ [(j, e)], by simp, hm, ?_⟩
  intro x hx
  rcases List.mem_append.mp hx with hx | hx
  · exact hnone x hx
  · obtain rfl := List.mem_singleton.mp hx
    exact he

/-- An event of a longer history is the new one or an old one. -/
theorem log_concat {i : Nat} {e : Event μ α}
    (h : ∀ past i e rest, history = past ++ (i, e) :: rest → Sound Miss Got past i e)
    (hnew : Sound Miss Got history i e) :
    ∀ past j e' rest, history ++ [(i, e)] = past ++ (j, e') :: rest →
      Sound Miss Got past j e' := by
  intro past j e' rest heq
  rcases List.eq_nil_or_concat rest with rfl | ⟨rest', last, rfl⟩
  · obtain ⟨rfl, hlast⟩ := List.append_inj' heq rfl
    obtain ⟨rfl, rfl⟩ := Prod.mk.inj (List.singleton_inj.mp hlast)
    exact hnew
  · rw [List.concat_eq_append, ← List.cons_append, ← List.append_assoc] at heq
    exact h past j e' rest' (List.append_inj' heq rfl).1

theorem locks_concat (i j : Nat) (e : Event μ α) :
    locks i (history ++ [(j, e)]) =
      locks i history + if j = i ∧ e.isLocked = true then 1 else 0 := by
  unfold locks
  rw [List.countP_append, List.countP_singleton]
  simp only [Bool.and_eq_true, decide_eq_true_eq]

theorem unlocks_concat (i j : Nat) (e : Event μ α) :
    unlocks i (history ++ [(j, e)]) =
      unlocks i history + if j = i ∧ e.isUnlocked = true then 1 else 0 := by
  unfold unlocks
  rw [List.countP_append, List.countP_singleton]
  simp only [Bool.and_eq_true, decide_eq_true_eq]

/-- Of two cuts of a history, the one at an event that does not recur is first. -/
theorem mem_of_cuts {β : Type} {P : β → Prop} {a b c d : List β} {x y : β}
    (h : a ++ x :: b = c ++ y :: d) (hx : P x) (hy : ¬ P y) (hd : ∀ z ∈ d, ¬ P z) : y ∈ b := by
  rcases List.append_eq_append_iff.mp h with ⟨mid, hc, hxb⟩ | ⟨mid, ha, hyd⟩
  · -- the cut at `x` is first
    cases mid with
    | nil =>
      rw [List.nil_append] at hxb
      exact absurd ((List.cons.inj hxb).1 ▸ hx) hy
    | cons z mid =>
      rw [List.cons_append] at hxb
      rw [(List.cons.inj hxb).2]
      simp
  · cases mid with
    | nil =>
      rw [List.nil_append] at hyd
      exact absurd ((List.cons.inj hyd).1 ▸ hx) hy
    | cons z mid =>
      rw [List.cons_append] at hyd
      have hmem : x ∈ d := by
        rw [(List.cons.inj hyd).2]
        simp
      exact absurd hx (hd x hmem)

end Append

/-! ## Steps -/

section Steps

variable {Miss : μ → Prop} {Got : α → Prop} {phases : List Phase}
  {history : List (Nat × Event μ α)} {i : Nat} {p q : Phase} {events : List (Event μ α)}

theorem Ledger.start : Ledger Miss Got [] [] where
  one i j p q hi := by simp at hi
  fetching i hi := by simp at hi
  balanced i := by simp [Balanced, locks, unlocks]
  log past i e rest h := by simp at h

/-- A new party waits. -/
theorem Ledger.join (h : Ledger Miss Got phases history) :
    Ledger Miss Got (phases ++ [.waiting]) history := by
  have hold : ∀ (j : Nat) (r : Phase), (phases ++ [Phase.waiting])[j]? = some r →
      phases[j]? = some r ∨ (phases[j]? = none ∧ r = .waiting) := by
    intro j r hj
    rcases Nat.lt_trichotomy j phases.length with hlt | rfl | hgt
    · rw [List.getElem?_append_left hlt] at hj
      exact Or.inl hj
    · rw [List.getElem?_concat_length] at hj
      exact Or.inr ⟨List.getElem?_eq_none (Nat.le_refl _), (Option.some.inj hj).symm⟩
    · rw [List.getElem?_eq_none (by rw [List.length_append, List.length_singleton]; omega)] at hj
      cases hj
  -- a party that waits neither holds nor fetches, and has not counted yet
  refine ⟨?_, ?_, ?_, h.log⟩
  · intro j k r t hj hk hr ht
    rcases hold j r hj with hj | ⟨-, rfl⟩
    · rcases hold k t hk with hk | ⟨-, rfl⟩
      · exact h.one j k r t hj hk hr ht
      · cases ht
    · cases hr
  · intro j hj
    rcases hold j _ hj with hj | ⟨-, hr⟩
    · exact h.fetching j hj
    · cases hr
  · intro j
    have hb := h.balanced j
    cases hj : (phases ++ [Phase.waiting])[j]? with
    | none =>
      have hnone : phases[j]? = none := by
        rw [List.getElem?_eq_none_iff] at hj ⊢
        rw [List.length_append] at hj
        omega
      rw [hnone] at hb
      exact hb
    | some r =>
      rcases hold j r hj with hj | ⟨hnone, rfl⟩
      · rw [hj] at hb
        exact hb
      · rw [hnone] at hb
        exact hb

/-- A party that is inside after a step was inside or has just come in. -/
theorem Move.holds (h : Move Miss Got p events q) (hq : q.holds = true) :
    p.holds = true ∨ p = .waiting := by
  cases h with
  | stay => exact Or.inl hq
  | quit => cases hq
  | lock => exact Or.inr rfl
  | miss => exact Or.inl rfl
  | request => exact Or.inl rfl
  | acquire => exact Or.inl rfl
  | close hp => exact Or.inl hp
  | release => exact Or.inl rfl

/-- The phases after a step of `i`. -/
theorem getElem?_set_cases {j : Nat} {r : Phase} (hj : (phases.set i q)[j]? = some r) :
    (j = i ∧ r = q) ∨ (j ≠ i ∧ phases[j]? = some r) := by
  by_cases hij : j = i
  · subst hij
    have hlen : j < phases.length := by
      have := (List.getElem?_eq_some_iff.mp hj).1
      rwa [List.length_set] at this
    rw [List.getElem?_set_self hlen] at hj
    exact Or.inl ⟨rfl, (Option.some.inj hj).symm⟩
  · rw [List.getElem?_set_ne (fun h => hij h.symm)] at hj
    exact Or.inr ⟨hij, hj⟩

/-- The lock of `i` after its own step. -/
theorem Move.balanced (h : Move Miss Got p events q)
    (hb : Balanced (locks i history) (unlocks i history) (some p)) :
    Balanced (locks i (history ++ events.map (Prod.mk i)))
      (unlocks i (history ++ events.map (Prod.mk i))) (some q) := by
  cases h with
  | stay =>
    -- no event, no count
    rw [List.map_nil, List.append_nil]
    exact hb
  | quit =>
    rw [List.map_nil, List.append_nil]
    exact ⟨hb.1.trans hb.2.symm, by rw [hb.1]; omega⟩
  | lock =>
    rw [List.map_singleton, locks_concat, unlocks_concat, hb.1, hb.2]
    simp [Balanced, Event.isLocked, Event.isUnlocked]
  | miss =>
    rw [List.map_singleton, locks_concat, unlocks_concat, hb.1, hb.2]
    simp [Balanced, Event.isLocked, Event.isUnlocked]
  | request =>
    rw [List.map_singleton, locks_concat, unlocks_concat, hb.1, hb.2]
    simp [Balanced, Event.isLocked, Event.isUnlocked]
  | acquire =>
    rw [List.map_singleton, locks_concat, unlocks_concat, hb.1, hb.2]
    simp [Balanced, Event.isLocked, Event.isUnlocked]
  | close hp =>
    rw [List.map_nil, List.append_nil]
    cases p with
    | waiting => cases hp
    | finished => cases hp
    | checking => exact hb
    | fetching => exact hb
    | closing => exact hb
  | release =>
    rw [List.map_singleton, locks_concat, unlocks_concat, hb.1, hb.2]
    simp [Balanced, Event.isLocked, Event.isUnlocked]

/-- A step of `i` does not count for another party. -/
theorem counts_other {j : Nat} (hji : j ≠ i) :
    locks j (history ++ events.map (Prod.mk i)) = locks j history ∧
      unlocks j (history ++ events.map (Prod.mk i)) = unlocks j history := by
  have hnone : ∀ x ∈ events.map (Prod.mk i), x.1 ≠ j := by
    intro x hx
    obtain ⟨e, -, rfl⟩ := List.mem_map.mp hx
    exact fun he => hji he.symm
  unfold locks unlocks
  rw [List.countP_append, List.countP_append]
  constructor
  · exact Nat.add_eq_left.mpr (List.countP_eq_zero.mpr fun x hx => by simp [hnone x hx])
  · exact Nat.add_eq_left.mpr (List.countP_eq_zero.mpr fun x hx => by simp [hnone x hx])

theorem Move.missSince (h : Move Miss Got p events q)
    (hp : p = .fetching → MissSince Miss i history) (hq : q = .fetching) :
    MissSince Miss i (history ++ events.map (Prod.mk i)) := by
  cases h with
  | stay =>
    rw [List.map_nil, List.append_nil]
    exact hp hq
  | miss hm => exact ⟨history, _, [], rfl, hm, fun x hx => nomatch hx⟩
  | request => exact (hp rfl).concat rfl
  | quit => cases hq
  | lock => cases hq
  | acquire => cases hq
  | close => cases hq
  | release => cases hq

theorem Move.log (h : Move Miss Got p events q)
    (hp : p = .fetching → MissSince Miss i history)
    (hlog : ∀ past j e rest, history = past ++ (j, e) :: rest → Sound Miss Got past j e) :
    ∀ past j e rest, history ++ events.map (Prod.mk i) = past ++ (j, e) :: rest →
      Sound Miss Got past j e := by
  cases h with
  | stay => simpa using hlog
  | quit => simpa using hlog
  | close => simpa using hlog
  | lock => exact log_concat hlog trivial
  | release => exact log_concat hlog trivial
  | miss hm => exact log_concat hlog hm
  | request => exact log_concat hlog (hp rfl)
  | acquire hg => exact log_concat hlog ⟨hg, hp rfl⟩

/-- A party makes a step; it takes the lock only when nobody is inside. -/
theorem Ledger.move (h : Ledger Miss Got phases history) (hi : phases[i]? = some p)
    (hmove : Move Miss Got p events q)
    (hfree : p = .waiting → q.holds = true →
      ∀ (j : Nat) (r : Phase), phases[j]? = some r → r.holds = false) :
    Ledger Miss Got (phases.set i q) (history ++ events.map (Prod.mk i)) := by
  have hp : p = .fetching → MissSince Miss i history := fun hp => h.fetching i (hp ▸ hi)
  -- while `i` is inside, nobody else is
  have halone : ∀ (j : Nat) (r : Phase), q.holds = true → j ≠ i → phases[j]? = some r →
      r.holds = true → False := by
    intro j r hq hji hj hr
    rcases hmove.holds hq with hin | hwait
    · exact hji (h.one j i r p hj hi hr hin)
    · rw [hfree hwait hq j r hj] at hr
      cases hr
  refine ⟨?_, ?_, ?_, hmove.log hp h.log⟩
  · intro j k r t hj hk hr ht
    rcases getElem?_set_cases hj with ⟨rfl, rfl⟩ | ⟨hji, hj⟩
    · rcases getElem?_set_cases hk with ⟨rfl, -⟩ | ⟨hki, hk⟩
      · rfl
      · exact (halone k t hr hki hk ht).elim
    · rcases getElem?_set_cases hk with ⟨rfl, rfl⟩ | ⟨-, hk⟩
      · exact (halone j r ht hji ‹_› hr).elim
      · exact h.one j k r t hj hk hr ht
  · intro j hj
    rcases getElem?_set_cases hj with ⟨rfl, hq⟩ | ⟨hji, hjold⟩
    · exact hmove.missSince hp hq.symm
    · cases hmove with
      | stay => simpa using h.fetching j hjold
      | quit => simpa using h.fetching j hjold
      | close => simpa using h.fetching j hjold
      | lock => exact (h.fetching j hjold).concat rfl
      | release => exact (h.fetching j hjold).concat rfl
      | miss => exact (h.fetching j hjold).concat rfl
      | request => exact (h.fetching j hjold).concat rfl
      | acquire => exact (halone j _ rfl hji hjold rfl).elim
  · intro j
    by_cases hji : j = i
    · subst hji
      have hb := h.balanced j
      rw [hi] at hb
      rw [List.getElem?_set_self (List.getElem?_eq_some_iff.mp hi).1]
      exact hmove.balanced hb
    · obtain ⟨hl, hu⟩ := @counts_other _ _ history i events j hji
      rw [hl, hu, List.getElem?_set_ne (fun he => hji he.symm)]
      exact h.balanced j

/-- Between something acquired and the next request there is a miss of the party
that makes it. -/
theorem Ledger.miss_between (h : Ledger Miss Got phases history)
    {before between after : List (Nat × Event μ α)} {j : Nat} {a : α} {e : Event μ α}
    (hcut : history = before ++ (j, .acquired a) :: between ++ (i, e) :: after)
    (he : e.fetches = true) :
    ∃ m, (i, .missed m) ∈ between ∧ Miss m := by
  have hsince : MissSince Miss i (before ++ (j, .acquired a) :: between) := by
    have hsound := h.log _ i e after hcut
    cases e with
    | requested => exact hsound
    | acquired b => exact hsound.2
    | locked => cases he
    | unlocked => cases he
    | missed m => cases he
  obtain ⟨past, m, since, heq, hm, hsince⟩ := hsince
  refine ⟨m, ?_, hm⟩
  exact mem_of_cuts (P := fun x => x.2.isAcquired = true) heq rfl (by simp [Event.isAcquired])
    fun x hx => by simp [hsince x hx]

/-- What was acquired. -/
theorem Ledger.got (h : Ledger Miss Got phases history)
    {before after : List (Nat × Event μ α)} {j : Nat} {a : α}
    (hcut : history = before ++ (j, .acquired a) :: after) : Got a :=
  (h.log _ j _ after hcut).1

end Steps

end LockLog
