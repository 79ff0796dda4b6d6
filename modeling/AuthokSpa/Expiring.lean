import Mathlib.Order.Basic

/-!
# Stores whose bindings end

A store binds keys to values, each for good or until a time. Nothing is deleted
when its time comes; it is only no longer read. So what a read finds depends on
what its key is bound to and on the time of the read, on nothing else
(`Store.at_congr`), and a key is bound as its last write says (`step_at`).
-/

namespace Expiring

variable {κ ν τ : Type}

/-- A value with the time it ends at, if there is one. -/
structure Binding (ν τ : Type) where
  value : ν
  ends : Option τ

/-- The binding is still read at time `t`. -/
def Binding.inForce [LT τ] [DecidableLT τ] (b : Binding ν τ) (t : τ) : Bool :=
  b.ends.all fun e => decide (t < e)

/-- The bindings, ended ones included. -/
abbrev Store (κ ν τ : Type) := κ → Option (Binding ν τ)

/-- The store nothing was written to. -/
def empty : Store κ ν τ := fun _ => none

/-- A write of a binding, or of none; a read at a time. -/
inductive Op (κ ν τ : Type) where
  | write (key : κ) (b : Option (Binding ν τ))
  | read (key : κ) (now : τ)

section Reads

variable [LT τ] [DecidableLT τ]

/-- What is found under `key` at time `t`. -/
def Store.at (s : Store κ ν τ) (key : κ) (t : τ) : Option ν :=
  match s key with
  | some b => if b.inForce t then some b.value else none
  | none => none

/-- Bindings that agree are read alike. -/
theorem Store.at_congr {κ' : Type} {s : Store κ ν τ} {s' : Store κ' ν τ} {key : κ} {key' : κ'}
    (h : s key = s' key') (t : τ) : s.at key t = s'.at key' t := by
  unfold Store.at
  rw [h]

/-- What is found is bound. -/
theorem Store.bound_of_at {s : Store κ ν τ} {key : κ} {t : τ} {v : ν} (h : v ∈ s.at key t) :
    ∃ b, s key = some b ∧ b.inForce t = true ∧ b.value = v := by
  unfold Store.at at h
  cases hb : s key with
  | none =>
    rw [hb] at h
    cases h
  | some b =>
    rw [hb] at h
    dsimp only at h
    split at h
    next hf => exact ⟨b, rfl, hf, Option.some.inj h⟩
    next => cases h

end Reads

variable [DecidableEq κ]

def Store.write (s : Store κ ν τ) (key : κ) (b : Option (Binding ν τ)) : Store κ ν τ :=
  fun k => if key = k then b else s k

theorem Store.write_self (s : Store κ ν τ) (key : κ) (b : Option (Binding ν τ)) :
    s.write key b key = b := if_pos rfl

theorem Store.write_ne (s : Store κ ν τ) {key k : κ} (b : Option (Binding ν τ)) (h : key ≠ k) :
    s.write key b k = s k := if_neg h

section Reads

variable [LT τ] [DecidableLT τ]

theorem Store.at_write_some (s : Store κ ν τ) (key : κ) (b : Binding ν τ) (t : τ) :
    (s.write key (some b)).at key t = if b.inForce t then some b.value else none := by
  unfold Store.at
  rw [Store.write_self]

theorem Store.at_write_none (s : Store κ ν τ) (key : κ) (t : τ) :
    (s.write key none).at key t = none := by
  unfold Store.at
  rw [Store.write_self]

theorem Store.at_write_ne (s : Store κ ν τ) {key k : κ} (b : Option (Binding ν τ)) (h : key ≠ k)
    (t : τ) : (s.write key b).at k t = s.at k t :=
  Store.at_congr (Store.write_ne s b h) t

end Reads

/-- What an operation leaves under `key`, if it writes there. -/
def Op.written (key : κ) : Op κ ν τ → Option (Option (Binding ν τ))
  | .write k b => if k = key then some b else none
  | .read _ _ => none

section Runs

variable [LT τ] [DecidableLT τ]

def step (s : Store κ ν τ) : Op κ ν τ → Store κ ν τ × Option ν
  | .write key b => (s.write key b, none)
  | .read key now => (s, s.at key now)

theorem step_at (s : Store κ ν τ) (op : Op κ ν τ) (key : κ) :
    (step s op).1 key = (op.written key).getD (s key) := by
  cases op with
  | write k b =>
    show (if k = key then b else s key) = (if k = key then some b else none).getD (s key)
    split
    next => rfl
    next => rfl
  | read k now => rfl

end Runs

end Expiring
