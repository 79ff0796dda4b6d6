import AuthokSpa.Follow

/-!
# Calls that write all or nothing

A call reads and writes a state and may fail halfway; what it wrote before it
failed stays written. For a part of the state that is watched, a call `Commits`
to a relation when that part is as before wherever the call fails, and related to
what it was where the call succeeds.

That holds when everything before the first write only `Reads` and nothing after
it fails. The rules below follow `>>=`.
-/

namespace AuthokSpa.Commit

variable {ε σ τ α β : Type}

/-- The call leaves the watched part alone, however it ends. -/
def Reads (view : σ → τ) (x : EStateM ε σ α) : Prop :=
  ∀ s, match x s with
    | .ok _ s' => view s' = view s
    | .error _ s' => view s' = view s

def Commits (view : σ → τ) (R : τ → τ → Prop) (x : EStateM ε σ α) : Prop :=
  ∀ s, match x s with
    | .ok _ s' => R (view s) (view s')
    | .error _ s' => view s' = view s

variable {view : σ → τ} {R : τ → τ → Prop} {x : EStateM ε σ α} {f : α → EStateM ε σ β}

/-! ## Reading -/

theorem Reads.of_ok (hx : Reads view x) {s s' : σ} {a : α} (h : x s = .ok a s') :
    view s' = view s := by
  have hs := hx s
  rw [h] at hs
  exact hs

theorem Reads.of_error (hx : Reads view x) {s s' : σ} {e : ε} (h : x s = .error e s') :
    view s' = view s := by
  have hs := hx s
  rw [h] at hs
  exact hs

theorem reads_pure (a : α) : Reads view (pure a : EStateM ε σ α) := fun _ => rfl

theorem reads_throw (e : ε) : Reads view (throw e : EStateM ε σ α) := fun _ => rfl

theorem reads_modify {g : σ → σ} (hg : ∀ s, view (g s) = view s) :
    Reads view (modify g : EStateM ε σ PUnit) := hg

theorem Reads.bind (hx : Reads view x) (hf : ∀ a, Reads view (f a)) : Reads view (x >>= f) := by
  intro s
  cases h : x s with
  | error e mid =>
    rw [Follow.bind_error h]
    exact hx.of_error h
  | ok a mid =>
    rw [Follow.bind_ok h, ← hx.of_ok h]
    exact hf a mid

/-! ## Writing -/

/-- Writes that cannot fail. -/
theorem commits_of_ok {g : σ → σ} (hx : ∀ s, ∃ a, x s = .ok a (g s))
    (hR : ∀ s, R (view s) (view (g s))) : Commits view R x := by
  intro s
  obtain ⟨a, h⟩ := hx s
  rw [h]
  exact hR s

/-- What only reads may come first. -/
theorem Reads.bind_commits (hx : Reads view x)
    (hf : ∀ s a s', x s = .ok a s' → Commits view R (f a)) : Commits view R (x >>= f) := by
  intro s
  cases h : x s with
  | error e mid =>
    rw [Follow.bind_error h]
    exact hx.of_error h
  | ok a mid =>
    rw [Follow.bind_ok h, ← hx.of_ok h]
    exact hf s a mid h mid

/-- The result may be replaced at the end. -/
theorem Commits.bind_pure (hx : Commits view R x) (g : α → β) :
    Commits view R (x >>= fun a => pure (g a)) := by
  intro s
  have hs := hx s
  cases h : x s with
  | error e mid =>
    rw [h] at hs
    rw [Follow.bind_error h]
    exact hs
  | ok a mid =>
    rw [h] at hs
    rw [Follow.bind_ok h]
    exact hs

end AuthokSpa.Commit
