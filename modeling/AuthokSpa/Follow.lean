import Mathlib.Logic.Relation

/-!
# Sequential programs followed by transition systems

The same work is often written twice: as a program that runs from its start to its
end, and as a transition system whose steps may be interleaved with others. The
system follows the program from `k` when, wherever the program ends, the system
can get from `k` to a configuration that is related to the state the program ended in:
by `post` if it returned, by `fail` if it threw.

The rules follow the program. The system may move before a part of the program
does (`Ends.trans`), so that one step of the program may stand for many of the system
and the other way round.
-/

namespace Follow

open Relation (ReflTransGen)

variable {ε σ α β κ : Type}

/-! ## Programs -/

/-- A program whose first part has returned. -/
theorem bind_ok {x : EStateM ε σ α} {f : α → EStateM ε σ β} {s s' : σ} {a : α}
    (h : x s = .ok a s') : (x >>= f) s = f a s' := by
  show EStateM.bind x f s = _
  unfold EStateM.bind
  rw [h]

/-- A program whose first part has thrown. -/
theorem bind_error {x : EStateM ε σ α} {f : α → EStateM ε σ β} {s s' : σ} {e : ε}
    (h : x s = .error e s') : (x >>= f) s = .error e s' := by
  show EStateM.bind x f s = _
  unfold EStateM.bind
  rw [h]

/-! ## Systems -/

/-- The system gets from `k` to where the program has ended. -/
def Ends (Step : κ → κ → Prop) (k : κ) (post : α → σ → κ → Prop) (fail : ε → σ → κ → Prop) :
    EStateM.Result ε σ α → Prop
  | .ok a s => ∃ k', ReflTransGen Step k k' ∧ post a s k'
  | .error e s => ∃ k', ReflTransGen Step k k' ∧ fail e s k'

variable {Step : κ → κ → Prop} {k k' : κ} {x : EStateM ε σ α} {s : σ} {post : α → σ → κ → Prop}
  {fail fail' : ε → σ → κ → Prop}

/-- The system has moved before. -/
theorem Ends.trans (hk : ReflTransGen Step k k') {r : EStateM.Result ε σ α}
    (h : Ends Step k' post fail r) : Ends Step k post fail r := by
  cases r with
  | ok a s =>
    obtain ⟨k₂, hk₂, hpost⟩ := h
    exact ⟨k₂, hk.trans hk₂, hpost⟩
  | error e s =>
    obtain ⟨k₂, hk₂, hfail⟩ := h
    exact ⟨k₂, hk.trans hk₂, hfail⟩

/-- The rest of a program goes on from where its first part returned. -/
theorem Ends.bind {f : α → EStateM ε σ β} {last : β → σ → κ → Prop}
    (hx : Ends Step k post fail' (x s)) (hfail : ∀ e s' k', fail' e s' k' → fail e s' k')
    (hf : ∀ a s' k', post a s' k' → Ends Step k' last fail (f a s')) :
    Ends Step k last fail ((x >>= f) s) := by
  cases hr : x s with
  | ok a s' =>
    rw [hr] at hx
    obtain ⟨k', hk', hpost⟩ := hx
    rw [bind_ok hr]
    exact (hf a s' k' hpost).trans hk'
  | error e s' =>
    rw [hr] at hx
    obtain ⟨k', hk', hfailed⟩ := hx
    rw [bind_error hr]
    exact ⟨k', hk', hfail e s' k' hfailed⟩

/-- A handler goes on from where the program threw. -/
theorem Ends.tryCatch {handle : ε → EStateM ε σ α} (hx : Ends Step k post fail' (x s))
    (hhandle : ∀ e s' k', fail' e s' k' → Ends Step k' post fail (handle e s')) :
    Ends Step k post fail (MonadExcept.tryCatch x handle s) := by
  show Ends Step k post fail (EStateM.tryCatch x handle s)
  unfold EStateM.tryCatch
  cases hr : x s with
  | ok a s' =>
    rw [hr] at hx
    exact hx
  | error e s' =>
    rw [hr] at hx
    obtain ⟨k', hk', hfailed⟩ := hx
    exact (hhandle e s' k' hfailed).trans hk'

end Follow
