import Mathlib.Data.List.Infix

/-!
# Runs of a machine

A machine answers each operation and moves to a new state. A run is a list of
operations. The rules here are the ones the developments above it use:

* `run_history`: an invariant that may mention the operations done so far,
  established step by step;
* `run_guarded`: an invariant that a step keeps only under a condition on the
  state before it, for runs whose steps all meet the condition;
* `trace_guarded`: what such a step says of its answer, for all answers of a run;
* `run_related`: a relation between the states of two machines, kept by a step of
  both on related operations;
* `trace_related`, `meets_related`: such a relation kept under a condition on one of
  the machines, with the same answers, for runs of the same operations;
* `trace_mapped`: the same, where one machine's answers are seen through a function;
* `run_lastSaid`: a part of the state that each operation sets or leaves, after a run;
* `run_filter`: deleting operations that leave the state as it is, under a condition
  on the state before them;
* `trace_filter`: deleting operations from a run does not change the answers to
  the remaining ones, when a relation between the two states is kept by a step
  of both on a kept operation and by a step of one on a deleted operation.
-/

/-- A deterministic machine with states `σ`, operations `α` and answers `β`. -/
structure Machine (σ α β : Type) where
  step : σ → α → σ × β

namespace Machine

variable {σ α β : Type} (M : Machine σ α β)

/-- The state after a run. -/
def run (s : σ) : List α → σ
  | [] => s
  | a :: as => run (M.step s a).1 as

/-- The operations of a run with their answers. -/
def trace (s : σ) : List α → List (α × β)
  | [] => []
  | a :: as => (a, (M.step s a).2) :: trace (M.step s a).1 as

/-- Every step of the run meets `C` in the state before it. -/
def Meets (C : σ → α → Prop) (s : σ) : List α → Prop
  | [] => True
  | a :: as => C s a ∧ Meets C (M.step s a).1 as

instance Meets.decidable (C : σ → α → Prop) [∀ s a, Decidable (C s a)] :
    (s : σ) → (as : List α) → Decidable (M.Meets C s as)
  | _, [] => isTrue trivial
  | s, a :: as =>
    have := Meets.decidable C (M.step s a).1 as
    inferInstanceAs (Decidable (C s a ∧ M.Meets C (M.step s a).1 as))

theorem run_cons (s : σ) (a : α) (as : List α) :
    M.run s (a :: as) = M.run (M.step s a).1 as := rfl

theorem run_append (s : σ) (as bs : List α) :
    M.run s (as ++ bs) = M.run (M.run s as) bs := by
  induction as generalizing s with
  | nil => rfl
  | cons a as ih => exact ih (M.step s a).1

theorem run_concat (s : σ) (as : List α) (a : α) :
    M.run s (as ++ [a]) = (M.step (M.run s as) a).1 := by
  rw [run_append]
  rfl

theorem meets_append {C : σ → α → Prop} (s : σ) (as bs : List α) :
    M.Meets C s (as ++ bs) ↔ M.Meets C s as ∧ M.Meets C (M.run s as) bs := by
  induction as generalizing s with
  | nil => simp [Meets, run]
  | cons a as ih =>
    rw [List.cons_append, Meets, Meets, ih, and_assoc]
    rfl

theorem meets_of_forall {C : σ → α → Prop} :
    ∀ {as : List α} (s : σ), (∀ a ∈ as, ∀ s, C s a) → M.Meets C s as
  | [], _, _ => trivial
  | a :: _, s, h =>
    ⟨h a (List.mem_cons_self ..) s,
      meets_of_forall _ fun b hb => h b (List.mem_cons_of_mem _ hb)⟩

/-- Conditions that agree on every step agree on every run. -/
theorem meets_congr {C D : σ → α → Prop} (h : ∀ s a, C s a ↔ D s a) (s : σ) (as : List α) :
    M.Meets C s as ↔ M.Meets D s as := by
  induction as generalizing s with
  | nil => exact Iff.rfl
  | cons a as ih => exact and_congr (h s a) (ih (M.step s a).1)

theorem meets_and {C D : σ → α → Prop} :
    ∀ {as : List α} {s : σ}, M.Meets C s as → M.Meets D s as →
      M.Meets (fun s a => C s a ∧ D s a) s as
  | [], _, _, _ => trivial
  | _ :: _, _, hc, hd => ⟨⟨hc.1, hd.1⟩, meets_and hc.2 hd.2⟩

/-- What the last operation that says something says. -/
def lastSaid {γ : Type} (said : α → Option γ) : List α → Option γ
  | [] => none
  | a :: as => (lastSaid said as).or (said a)

theorem lastSaid_append {γ : Type} (said : α → Option γ) (as bs : List α) :
    lastSaid said (as ++ bs) = (lastSaid said bs).or (lastSaid said as) := by
  induction as with
  | nil =>
    rw [List.nil_append, lastSaid, Option.or_none]
  | cons a as ih => rw [List.cons_append, lastSaid, lastSaid, ih, Option.or_assoc]

theorem lastSaid_concat {γ : Type} (said : α → Option γ) (as : List α) (a : α) :
    lastSaid said (as ++ [a]) = (said a).or (lastSaid said as) := by
  rw [lastSaid_append, lastSaid, lastSaid, Option.none_or]

/-- What is said last is said. -/
theorem exists_of_lastSaid {γ : Type} {said : α → Option γ} {as : List α} {c : γ}
    (h : lastSaid said as = some c) : ∃ a ∈ as, said a = some c := by
  induction as with
  | nil => cases h
  | cons a as ih =>
    rw [lastSaid, Option.or_eq_some_iff] at h
    rcases h with h | ⟨-, h⟩
    · obtain ⟨b, hb, hsaid⟩ := ih h
      exact ⟨b, List.mem_cons_of_mem _ hb, hsaid⟩
    · exact ⟨a, List.mem_cons_self .., h⟩

/-- What is said of other things, through functions. -/
theorem lastSaid_map {δ γ κ : Type} {said : α → Option γ} {said' : δ → Option κ} {f : α → δ}
    {g : γ → κ} (h : ∀ a, said' (f a) = (said a).map g) (as : List α) :
    lastSaid said' (as.map f) = (lastSaid said as).map g := by
  induction as with
  | nil => rfl
  | cons a as ih =>
    rw [List.map_cons, lastSaid, lastSaid, ih, h]
    cases lastSaid said as with
    | none => rfl
    | some b => rfl

variable {M}

/-- A part `f` of the state that every operation sets to what it says, if anything,
is after a run what the last one said. -/
theorem run_lastSaid {γ : Type} {P : σ → Prop} {f : σ → γ} {said : α → Option γ}
    (hstep : ∀ s a, P s → P (M.step s a).1 ∧ f (M.step s a).1 = (said a).getD (f s)) :
    ∀ (ops : List α) (s : σ), P s → f (M.run s ops) = (lastSaid said ops).getD (f s)
  | [], _, _ => rfl
  | a :: ops, s, hs => by
    obtain ⟨hnext, hf⟩ := hstep s a hs
    rw [run_cons, run_lastSaid hstep ops _ hnext, hf, lastSaid]
    cases lastSaid said ops with
    | none => rfl
    | some b => rfl

/-- Induction along a run, with the past operations in hand. -/
theorem run_history {s₀ : σ} {P : List α → σ → Prop} (h0 : P [] s₀) (ops : List α)
    (hstep : ∀ past a s, past ++ [a] <+: ops → P past s → P (past ++ [a]) (M.step s a).1) :
    P ops (M.run s₀ ops) := by
  suffices h : ∀ rest past s, past ++ rest = ops → P past s → P ops (M.run s rest) from
    h ops [] s₀ rfl h0
  intro rest
  induction rest with
  | nil =>
    intro past s hops hP
    rw [List.append_nil] at hops
    exact hops ▸ hP
  | cons a rest ih =>
    intro past s hops hP
    have hcut : (past ++ [a]) ++ rest = ops := by simpa using hops
    exact ih (past ++ [a]) _ hcut (hstep past a s ⟨rest, hcut⟩ hP)

/-- A guarded invariant holds at the end of a run that meets the guard. -/
theorem run_guarded {C : σ → α → Prop} {P : σ → Prop}
    (hstep : ∀ s a, P s → C s a → P (M.step s a).1) :
    ∀ (ops : List α) (s : σ), P s → M.Meets C s ops → P (M.run s ops)
  | [], _, hs, _ => hs
  | a :: ops, s, hs, hm => run_guarded hstep ops _ (hstep s a hs hm.1) hm.2

/-- A guarded invariant and what it makes of the answers. -/
theorem trace_guarded {C : σ → α → Prop} {P : σ → Prop} {Q : α → β → Prop}
    (hstep : ∀ s a, P s → C s a → P (M.step s a).1 ∧ Q a (M.step s a).2) :
    ∀ (ops : List α) (s : σ), P s → M.Meets C s ops → ∀ x ∈ M.trace s ops, Q x.1 x.2
  | [], _, _, _, x, hx => absurd hx (List.not_mem_nil)
  | a :: ops, s, hs, hm, x, hx => by
    obtain ⟨hnext, hans⟩ := hstep s a hs hm.1
    rcases List.mem_cons.mp hx with rfl | hx
    · exact hans
    · exact trace_guarded hstep ops _ hnext hm.2 x hx

/-- Operations outside `p` that do nothing can be left out. -/
theorem run_filter {C : σ → α → Prop} {p : α → Bool}
    (hdrop : ∀ s a, p a = false → C s a → (M.step s a).1 = s) :
    ∀ (ops : List α) (s : σ), M.Meets C s ops → M.run s ops = M.run s (ops.filter p)
  | [], _, _ => rfl
  | a :: ops, s, hm => by
    rw [run_cons, run_filter hdrop ops _ hm.2, List.filter_cons]
    cases hp : p a with
    | true => rfl
    | false => rw [hdrop s a hp hm.1, if_neg (by simp)]

/-- Two machines that keep a relation step by step, on related operations. -/
theorem run_related {τ γ δ : Type} {N : Machine τ γ δ} {R : σ → τ → Prop} {Q : α → γ → Prop}
    (hstep : ∀ s t a b, R s t → Q a b → R (M.step s a).1 (N.step t b).1) {as : List α}
    {bs : List γ} (h : List.Forall₂ Q as bs) :
    ∀ {s : σ} {t : τ}, R s t → R (M.run s as) (N.run t bs) := by
  induction h with
  | nil => exact fun hR => hR
  | cons hab _ ih => exact fun hR => ih (hstep _ _ _ _ hR hab)

/-- A relation that a step of both machines keeps, under a condition on the first. -/
theorem meets_related {τ γ : Type} {N : Machine τ α γ} {C : σ → α → Prop} {D : τ → α → Prop}
    {R : σ → τ → Prop} (hstep : ∀ s t a, R s t → C s a → R (M.step s a).1 (N.step t a).1)
    (hD : ∀ s t a, R s t → C s a → D t a) :
    ∀ (ops : List α) (s : σ) (t : τ), R s t → M.Meets C s ops → N.Meets D t ops
  | [], _, _, _, _ => trivial
  | a :: ops, s, t, hR, hm =>
    ⟨hD s t a hR hm.1, meets_related hstep hD ops _ _ (hstep s t a hR hm.1) hm.2⟩

/-- Two machines that such a relation keeps together give the same answers. -/
theorem trace_related {τ : Type} {N : Machine τ α β} {C : σ → α → Prop} {R : σ → τ → Prop}
    (hstep : ∀ s t a, R s t → C s a →
      R (M.step s a).1 (N.step t a).1 ∧ (N.step t a).2 = (M.step s a).2) :
    ∀ (ops : List α) (s : σ) (t : τ), R s t → M.Meets C s ops → N.trace t ops = M.trace s ops
  | [], _, _, _, _ => rfl
  | a :: ops, s, t, hR, hm => by
    obtain ⟨hnext, hans⟩ := hstep s t a hR hm.1
    rw [trace, trace, hans, trace_related hstep ops _ _ hnext hm.2]

/-- The same for answers that are those of the other machine seen through `f`. -/
theorem trace_mapped {τ γ : Type} {N : Machine τ α γ} {C : σ → α → Prop} {R : σ → τ → Prop}
    {f : γ → β}
    (hstep : ∀ s t a, R s t → C s a →
      R (M.step s a).1 (N.step t a).1 ∧ (M.step s a).2 = f (N.step t a).2) :
    ∀ (ops : List α) (s : σ) (t : τ), R s t → M.Meets C s ops →
      M.trace s ops = (N.trace t ops).map fun x => (x.1, f x.2)
  | [], _, _, _, _ => rfl
  | a :: ops, s, t, hR, hm => by
    obtain ⟨hnext, hans⟩ := hstep s t a hR hm.1
    rw [trace, trace, List.map_cons, hans, trace_mapped hstep ops _ _ hnext hm.2]

/-- Deleting the operations outside `p` leaves the other answers alone. -/
theorem trace_filter {p : α → Bool} {ok : α → Prop} {R : σ → σ → Prop}
    (hkeep : ∀ s t a, R s t → ok a → p a = true →
      R (M.step s a).1 (M.step t a).1 ∧ (M.step s a).2 = (M.step t a).2)
    (hdrop : ∀ s t a, R s t → ok a → p a = false → R (M.step s a).1 t) :
    ∀ (ops : List α) (s t : σ), R s t → (∀ a ∈ ops, ok a) →
      (M.trace s ops).filter (fun x => p x.1) = M.trace t (ops.filter p)
  | [], _, _, _, _ => rfl
  | a :: ops, s, t, hR, hok => by
    have hoka := hok a (List.mem_cons_self ..)
    have hrest : ∀ x ∈ ops, ok x := fun x hx => hok x (List.mem_cons_of_mem _ hx)
    rw [trace, List.filter_cons, List.filter_cons]
    cases hp : p a with
    | true =>
      obtain ⟨hR', hans⟩ := hkeep s t a hR hoka hp
      rw [if_pos rfl, if_pos rfl, trace, hans, trace_filter hkeep hdrop ops _ _ hR' hrest]
    | false =>
      rw [if_neg (by simp), if_neg (by simp)]
      exact trace_filter hkeep hdrop ops _ _ (hdrop s t a hR hoka hp) hrest

end Machine
