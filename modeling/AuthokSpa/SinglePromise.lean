import AuthokSpa.Js.Value
import AuthokSpa.Machine

/-!
# One promise per key (`promise-utils.ts`)

`singlePromise` calls its callback only when nothing is kept under the key, and
keeps the promise of that run there. Three events follow in the life of a run: the
promise of its callback settles, the `finally` handler deletes the entry under the
run's key, and the promise that was handed out settles in the same way. Calls and
events of any number of runs interleave in any order.

The handler deletes by key and does not look whose entry it deletes. `Inv` says why
that is enough: an entry is there exactly as long as the clean-up of its run is still
to come, so a later run for the key does not start before it.

The map is a plain object, so a key that names a member of `Object.prototype` finds
that member.
-/

namespace AuthokSpa.SinglePromise

open Js (OrdMap)

/-- The names that every plain object inherits. -/
def objectPrototypeNames : List String :=
  ["__defineGetter__", "__defineSetter__", "__lookupGetter__", "__lookupSetter__", "__proto__",
    "constructor", "hasOwnProperty", "isPrototypeOf", "propertyIsEnumerable", "toLocaleString",
    "toString", "valueOf"]

/-- How a promise settles. -/
inductive Outcome (T : Type) where
  | resolved (value : T)
  | rejected (error : Js.Value)

/-- A callback that was called: how its promise settled, whether the `finally`
handler has run, and how the promise that was handed out settled. -/
structure Run (T : Type) where
  key : String
  callback : Option (Outcome T) := none
  cleaned : Bool := false
  promise : Option (Outcome T) := none

/-- The module: its map, which holds the promise of a run, and the runs so far. -/
structure State (T : Type) where
  singlePromiseMap : OrdMap String Nat := []
  runs : List (Run T) := []

/-- What calling `cb()` does. -/
inductive Callback where
  | promise
  | throws

/-- What a call of `singlePromise` gives: the promise of a run, a member of
`Object.prototype`, or the exception of the callback. -/
inductive Returned where
  | promise (run : Nat)
  | inherited
  | thrown

inductive Op (T : Type) where
  | call (key : String) (cb : Callback)
  | settle (run : Nat) (outcome : Outcome T)
  /-- The `finally` handler runs. -/
  | cleanup (run : Nat)
  /-- The promise made by `finally` settles. -/
  | deliver (run : Nat)

namespace State

variable {T : Type} (s : State T)

/-- `singlePromise(cb, key)`. -/
def singlePromise (key : String) (cb : Callback) : State T × Returned :=
  match s.singlePromiseMap.find key with
  | some i => (s, .promise i)
  | none =>
    if key ∈ objectPrototypeNames then (s, .inherited)
    else
      match cb with
      -- nothing was stored yet
      | .throws => (s, .thrown)
      | .promise =>
        ({ singlePromiseMap := s.singlePromiseMap.insert key s.runs.length
           runs := s.runs ++ [{ key := key }] }, .promise s.runs.length)

/-- The callback's promise settles, which it does once. -/
def settle (i : Nat) (outcome : Outcome T) : State T :=
  match s.runs[i]? with
  | some r =>
    match r.callback with
    | none => { s with runs := s.runs.set i { r with callback := some outcome } }
    | some _ => s
  | none => s

/-- `delete singlePromiseMap[key]`, once the callback's promise has settled. -/
def cleanup (i : Nat) : State T :=
  match s.runs[i]? with
  | some r =>
    if r.callback.isSome ∧ r.cleaned = false then
      { singlePromiseMap := s.singlePromiseMap.erase r.key
        runs := s.runs.set i { r with cleaned := true } }
    else s
  | none => s

/-- After its handler, `finally` passes the outcome on. -/
def deliver (i : Nat) : State T :=
  match s.runs[i]? with
  | some r =>
    if r.cleaned = true ∧ r.promise.isNone then
      { s with runs := s.runs.set i { r with promise := r.callback } }
    else s
  | none => s

end State

variable {T : Type}

/-- `promise-utils.ts`, as far as `singlePromise` goes. -/
def machine : Machine (State T) (Op T) (Option Returned) where
  step s
    | .call key cb => ((s.singlePromise key cb).1, some (s.singlePromise key cb).2)
    | .settle i outcome => (s.settle i outcome, none)
    | .cleanup i => (s.cleanup i, none)
    | .deliver i => (s.deliver i, none)

/-! ## The invariant -/

/-- The callback of the run `i` was called for `key` and is not cleaned up after. -/
def State.InFlight (s : State T) (i : Nat) (key : String) : Prop :=
  ∃ r, s.runs[i]? = some r ∧ r.key = key ∧ r.cleaned = false

/-- What the events of a run have come to. -/
structure Run.Valid (r : Run T) : Prop where
  settled : r.cleaned = true → r.callback.isSome
  passed : ∀ o, r.promise = some o → r.cleaned = true ∧ r.callback = some o

/-- An entry is there for the runs in flight, and for no others. -/
structure Inv (s : State T) : Prop where
  entries : ∀ key i, s.singlePromiseMap.find key = some i ↔ s.InFlight i key
  runs : ∀ r ∈ s.runs, r.Valid

theorem inv_empty : Inv ({} : State T) := by
  refine ⟨?_, ?_⟩
  · intro key i
    simp [State.InFlight]
  · intro r hr
    cases hr

section Step

variable {s : State T} {i : Nat} {r r' : Run T}

/-- Replacing a run by one with the same key and the same clean-up. -/
theorem inFlight_set (hr : s.runs[i]? = some r) (hkey : r'.key = r.key)
    (hclean : r'.cleaned = r.cleaned) (m : OrdMap String Nat) (j : Nat) (key : String) :
    (⟨m, s.runs.set i r'⟩ : State T).InFlight j key ↔ s.InFlight j key := by
  unfold State.InFlight
  have hlt : i < s.runs.length := (List.getElem?_eq_some_iff.mp hr).1
  by_cases hj : j = i
  · subst hj
    rw [List.getElem?_set_self hlt, hr]
    constructor
    · rintro ⟨r₀, heq, hk, hc⟩
      obtain rfl := Option.some.inj heq
      exact ⟨r, rfl, hkey ▸ hk, hclean ▸ hc⟩
    · rintro ⟨r₀, heq, hk, hc⟩
      obtain rfl := Option.some.inj heq
      exact ⟨r', rfl, hkey.trans hk, hclean.trans hc⟩
  · rw [List.getElem?_set_ne (fun he => hj he.symm)]

theorem valid_set (h : ∀ r ∈ s.runs, r.Valid) (hr' : r'.Valid) :
    ∀ r ∈ s.runs.set i r', r.Valid := by
  intro r₀ hr₀
  rcases List.mem_or_eq_of_mem_set hr₀ with hold | rfl
  · exact h r₀ hold
  · exact hr'

/-- An update of a run that keeps its key and its clean-up. -/
theorem Inv.set (h : Inv s) (hr : s.runs[i]? = some r) (hkey : r'.key = r.key)
    (hclean : r'.cleaned = r.cleaned) (hr' : r'.Valid) :
    Inv { s with runs := s.runs.set i r' } := by
  refine ⟨?_, valid_set h.runs hr'⟩
  intro key j
  rw [inFlight_set hr hkey hclean]
  exact h.entries key j

/-- A run that is added at the end is in flight for its key. -/
theorem inFlight_concat (m : OrdMap String Nat) (key key' : String) (j : Nat) :
    (⟨m, s.runs ++ [{ key := key }]⟩ : State T).InFlight j key' ↔
      (key = key' ∧ j = s.runs.length) ∨ s.InFlight j key' := by
  unfold State.InFlight
  by_cases hj : j < s.runs.length
  · rw [List.getElem?_append_left hj]
    constructor
    · exact Or.inr
    · rintro (⟨-, he⟩ | hold)
      · omega
      · exact hold
  · have hnone : s.runs[j]? = none := List.getElem?_eq_none (by omega)
    rw [List.getElem?_append_right (by omega), hnone, List.getElem?_singleton]
    constructor
    · rintro ⟨r, heq, hk, -⟩
      split at heq
      next hz =>
        obtain rfl := Option.some.inj heq
        exact Or.inl ⟨hk, by omega⟩
      next => cases heq
    · rintro (⟨hk, he⟩ | ⟨r, heq, -⟩)
      · rw [if_pos (by omega)]
        exact ⟨_, rfl, hk, rfl⟩
      · cases heq

theorem Inv.singlePromise (h : Inv s) (key : String) (cb : Callback) :
    Inv (s.singlePromise key cb).1 := by
  unfold State.singlePromise
  split
  next => exact h
  next hnone =>
    split
    next => exact h
    next =>
      cases cb with
      | throws => exact h
      | promise =>
        refine ⟨?_, ?_⟩
        · intro key' j
          rw [inFlight_concat, OrdMap.find_insert, ← h.entries key' j]
          by_cases hk : key = key'
          · -- nothing was in flight for the key
            subst hk
            rw [if_pos rfl, hnone]
            simp [eq_comm]
          · rw [if_neg hk]
            simp [hk]
        · intro r hr
          rcases List.mem_append.mp hr with hold | hnew
          · exact h.runs r hold
          · obtain rfl := List.mem_singleton.mp hnew
            refine ⟨fun hc => ?_, fun o ho => ?_⟩
            · cases hc
            · cases ho

theorem Inv.settle (h : Inv s) (i : Nat) (outcome : Outcome T) : Inv (s.settle i outcome) := by
  unfold State.settle
  split
  next r hr =>
    split
    next hnone =>
      have hvalid := h.runs r (List.mem_of_getElem? hr)
      refine h.set hr rfl rfl ⟨fun _ => rfl, ?_⟩
      intro o ho
      have hpassed := (hvalid.passed o ho).2
      rw [hnone] at hpassed
      cases hpassed
    next => exact h
  next => exact h

theorem Inv.deliver (h : Inv s) (i : Nat) : Inv (s.deliver i) := by
  unfold State.deliver
  split
  next r hr =>
    split
    next hc =>
      have hvalid := h.runs r (List.mem_of_getElem? hr)
      exact h.set hr rfl rfl ⟨hvalid.settled, fun o ho => ⟨hc.1, ho⟩⟩
    next => exact h
  next => exact h

/-- The entry that a clean-up deletes is its own run's. -/
theorem Inv.cleanup (h : Inv s) (i : Nat) : Inv (s.cleanup i) := by
  unfold State.cleanup
  split
  next r hr =>
    split
    next hc =>
      have hvalid := h.runs r (List.mem_of_getElem? hr)
      have hlt : i < s.runs.length := (List.getElem?_eq_some_iff.mp hr).1
      have hown : s.singlePromiseMap.find r.key = some i :=
        (h.entries r.key i).mpr ⟨r, hr, rfl, hc.2⟩
      refine ⟨?_, valid_set h.runs ⟨fun _ => hc.1, fun o ho => ⟨rfl, (hvalid.passed o ho).2⟩⟩⟩
      intro key j
      rw [OrdMap.find_erase]
      by_cases hj : j = i
      · -- the run itself: its entry is gone, and it is in flight no more
        subst hj
        have hgone : ¬ (⟨s.singlePromiseMap.erase r.key,
            s.runs.set j { r with cleaned := true }⟩ : State T).InFlight j key := by
          rintro ⟨r', heq, -, hclean⟩
          rw [List.getElem?_set_self hlt] at heq
          obtain rfl := Option.some.inj heq
          cases hclean
        refine iff_of_false ?_ hgone
        split
        next =>
          intro he
          cases he
        next hk =>
          intro hfind
          obtain ⟨r', heq, hkey, -⟩ := (h.entries key j).mp hfind
          obtain rfl := Option.some.inj (hr.symm.trans heq)
          exact hk hkey
      · have hset : (⟨s.singlePromiseMap.erase r.key,
            s.runs.set i { r with cleaned := true }⟩ : State T).InFlight j key ↔
              s.InFlight j key := by
          unfold State.InFlight
          rw [List.getElem?_set_ne (fun he => hj he.symm)]
        rw [hset, ← h.entries key j]
        split
        next hk =>
          subst hk
          rw [hown]
          constructor
          · intro he
            cases he
          · intro he
            exact absurd (Option.some.inj he).symm hj
        next => exact Iff.rfl
    next => exact h
  next => exact h

theorem Inv.step (h : Inv s) (op : Op T) : Inv (machine.step s op).1 := by
  cases op with
  | call key cb => exact h.singlePromise key cb
  | settle i outcome => exact h.settle i outcome
  | cleanup i => exact h.cleanup i
  | deliver i => exact h.deliver i

end Step

theorem run_inv (ops : List (Op T)) : Inv (machine.run {} ops) :=
  Machine.run_history (P := fun _ s => Inv s) inv_empty ops fun _ op _ _ h => h.step op

/-! ## What calls and clean-ups do -/

section Inv

variable {s : State T} {key : String} {i j : Nat}

/-- At most one run is in flight for a key. -/
theorem Inv.alone (h : Inv s) (hi : s.InFlight i key) (hj : s.InFlight j key) : i = j := by
  have hfind := (h.entries key i).mpr hi
  rw [(h.entries key j).mpr hj] at hfind
  exact (Option.some.inj hfind).symm

/-- A call joins the run in flight. -/
theorem Inv.joins (h : Inv s) (hi : s.InFlight i key) (cb : Callback) :
    s.singlePromise key cb = (s, .promise i) := by
  unfold State.singlePromise
  rw [(h.entries key i).mpr hi]

/-- Without one it calls its callback. -/
theorem Inv.starts (h : Inv s) (hkey : key ∉ objectPrototypeNames)
    (hnone : ∀ i, ¬ s.InFlight i key) :
    s.singlePromise key .promise =
      ({ singlePromiseMap := s.singlePromiseMap.insert key s.runs.length
         runs := s.runs ++ [{ key := key }] }, .promise s.runs.length) := by
  have hfind : s.singlePromiseMap.find key = none := by
    rw [Option.eq_none_iff_forall_not_mem]
    intro i hi
    exact hnone i ((h.entries key i).mp hi)
  unfold State.singlePromise
  rw [hfind]
  dsimp only
  rw [if_neg hkey]

/-- A clean-up leaves the entries of other runs, also of those for its key. -/
theorem Inv.cleanup_other (h : Inv s) (hj : s.singlePromiseMap.find key = some j) (hne : j ≠ i) :
    (s.cleanup i).singlePromiseMap.find key = some j := by
  obtain ⟨r, hr, hkey, hclean⟩ := (h.entries key j).mp hj
  refine ((h.cleanup i).entries key j).mpr ⟨r, ?_, hkey, hclean⟩
  unfold State.cleanup
  split
  · split
    · rw [List.getElem?_set_ne (fun he => hne he.symm), hr]
    · exact hr
  · exact hr

/-- With nothing in flight there is no entry. -/
theorem Inv.empty (h : Inv s) (hnone : ∀ i key, ¬ s.InFlight i key) : s.singlePromiseMap = [] := by
  cases hm : s.singlePromiseMap with
  | nil => rfl
  | cons b m =>
    have hfind : s.singlePromiseMap.find b.1 = some b.2 := by
      rw [hm, OrdMap.find_cons, if_pos rfl]
    exact absurd ((h.entries b.1 b.2).mp hfind) (hnone b.2 b.1)

end Inv

/-! ## What a promise settles with -/

/-- The run `i` is as before, further along: an outcome stays. -/
def Kept (s s' : State T) : Prop :=
  ∀ (i : Nat) (r : Run T), s.runs[i]? = some r →
    ∃ r', s'.runs[i]? = some r' ∧ r'.key = r.key ∧
      (∀ o, r.callback = some o → r'.callback = some o) ∧
      ∀ o, r.promise = some o → r'.promise = some o

theorem Kept.refl (s : State T) : Kept s s :=
  fun _ r hr => ⟨r, hr, rfl, fun _ ho => ho, fun _ ho => ho⟩

theorem Kept.trans {s s' s'' : State T} (h : Kept s s') (h' : Kept s' s'') : Kept s s'' := by
  intro i r hr
  obtain ⟨r', hr', hkey, hcb, hp⟩ := h i r hr
  obtain ⟨r'', hr'', hkey', hcb', hp'⟩ := h' i r' hr'
  exact ⟨r'', hr'', hkey'.trans hkey, fun o ho => hcb' o (hcb o ho), fun o ho => hp' o (hp o ho)⟩

/-- An update of one run that keeps its key and its outcomes. -/
theorem kept_set {s : State T} {i : Nat} {r : Run T} (r' : Run T)
    (hr : s.runs[i]? = some r) (hkey : r'.key = r.key) (hcb : ∀ o, r.callback = some o → r'.callback = some o)
    (hp : ∀ o, r.promise = some o → r'.promise = some o) (m : OrdMap String Nat) :
    Kept s ⟨m, s.runs.set i r'⟩ := by
  intro j r₀ hr₀
  by_cases hj : j = i
  · subst hj
    obtain rfl := Option.some.inj (hr.symm.trans hr₀)
    have hlt : j < s.runs.length := (List.getElem?_eq_some_iff.mp hr).1
    exact ⟨r', List.getElem?_set_self hlt, hkey, hcb, hp⟩
  · refine ⟨r₀, ?_, rfl, fun _ ho => ho, fun _ ho => ho⟩
    rw [List.getElem?_set_ne (fun he => hj he.symm), hr₀]

theorem kept_step (s : State T) (op : Op T) : Kept s (machine.step s op).1 := by
  cases op with
  | call key cb =>
    show Kept s (s.singlePromise key cb).1
    unfold State.singlePromise
    split
    next => exact Kept.refl s
    next =>
      split
      next => exact Kept.refl s
      next =>
        cases cb with
        | throws => exact Kept.refl s
        | promise =>
          intro i r hr
          have hlt : i < s.runs.length := (List.getElem?_eq_some_iff.mp hr).1
          refine ⟨r, ?_, rfl, fun _ ho => ho, fun _ ho => ho⟩
          rw [List.getElem?_append_left hlt, hr]
  | settle i outcome =>
    show Kept s (s.settle i outcome)
    unfold State.settle
    split
    next r hr =>
      split
      next hnone =>
        refine kept_set { r with callback := some outcome } hr rfl ?_ (fun _ ho => ho) _
        intro o ho
        rw [hnone] at ho
        cases ho
      next => exact Kept.refl s
    next => exact Kept.refl s
  | cleanup i =>
    show Kept s (s.cleanup i)
    unfold State.cleanup
    split
    next r hr =>
      split
      next =>
        exact kept_set { r with cleaned := true } hr rfl (fun _ ho => ho) (fun _ ho => ho) _
      next => exact Kept.refl s
    next => exact Kept.refl s
  | deliver i =>
    show Kept s (s.deliver i)
    unfold State.deliver
    split
    next r hr =>
      split
      next hc =>
        refine kept_set { r with promise := r.callback } hr rfl (fun _ ho => ho) ?_ _
        intro o ho
        rw [ho] at hc
        cases hc.2
      next => exact Kept.refl s
    next => exact Kept.refl s

theorem kept_run (s : State T) (ops : List (Op T)) : Kept s (machine.run s ops) := by
  induction ops generalizing s with
  | nil => exact Kept.refl s
  | cons op ops ih => exact (kept_step s op).trans (ih _)

/-- The promise handed out for the run `i` settles with `o`, if it settles, and does so
once the `finally` handler has run. -/
def State.Gives (s : State T) (i : Nat) (o : Outcome T) : Prop :=
  (∀ (ops : List (Op T)) (r : Run T) (o' : Outcome T),
      (machine.run s ops).runs[i]? = some r → r.promise = some o' → o' = o) ∧
    ∃ r, ((s.cleanup i).deliver i).runs[i]? = some r ∧ r.promise = some o

/-- A promise that was handed out settles as the callback's promise has. -/
theorem Inv.gives {s : State T} (h : Inv s) {i : Nat} {r : Run T} (hr : s.runs[i]? = some r)
    {o : Outcome T} (ho : r.callback = some o) : s.Gives i o := by
  refine ⟨?_, ?_⟩
  · intro ops r' o' hr' ho'
    have hinv : Inv (machine.run s ops) :=
      Machine.run_history (P := fun _ s => Inv s) h ops fun _ op _ _ h => h.step op
    obtain ⟨r'', hr'', -, hcb, -⟩ := kept_run s ops i r hr
    obtain rfl := Option.some.inj (hr'.symm.trans hr'')
    have hpassed := ((hinv.runs r' (List.mem_of_getElem? hr')).passed o' ho').2
    exact Option.some.inj (hpassed.symm.trans (hcb o ho))
  · have hvalid := h.runs r (List.mem_of_getElem? hr)
    have hlt : i < s.runs.length := (List.getElem?_eq_some_iff.mp hr).1
    -- after the handler the run is cleaned up, whether it was before or not
    obtain ⟨r', hr', hclean, hcb, hp⟩ : ∃ r', (s.cleanup i).runs[i]? = some r' ∧
        r'.cleaned = true ∧ r'.callback = some o ∧ r'.promise = r.promise := by
      unfold State.cleanup
      rw [hr]
      dsimp only
      cases hc : r.cleaned with
      | true =>
        rw [if_neg (by simp)]
        exact ⟨r, hr, hc, ho, rfl⟩
      | false =>
        rw [if_pos ⟨by rw [ho]; rfl, rfl⟩]
        exact ⟨_, List.getElem?_set_self hlt, rfl, ho, rfl⟩
    have hlt' : i < (s.cleanup i).runs.length := (List.getElem?_eq_some_iff.mp hr').1
    unfold State.deliver
    rw [hr']
    dsimp only
    cases hprom : r'.promise with
    | none =>
      rw [if_pos ⟨hclean, rfl⟩]
      exact ⟨_, List.getElem?_set_self hlt', hcb⟩
    | some o' =>
      rw [if_neg (by simp)]
      have hpassed := (hvalid.passed o' (hp ▸ hprom)).2
      obtain rfl := Option.some.inj (hpassed.symm.trans ho)
      exact ⟨r', hr', hprom⟩

/-! ## One callback at a time -/

/-- What `singlePromise` promises in a state of the module. -/
structure OneAtATime (s : State T) : Prop where
  /-- No two callbacks are in flight for one key. -/
  alone : ∀ (key : String) (i j : Nat), s.InFlight i key → s.InFlight j key → i = j
  /-- A call joins the run in flight, and nothing else happens. -/
  joins : ∀ (key : String) (cb : Callback) (i : Nat), s.InFlight i key →
    s.singlePromise key cb = (s, .promise i)
  /-- The promise of a run settles as its callback's promise has. -/
  gives : ∀ (i : Nat) (r : Run T) (o : Outcome T), s.runs[i]? = some r → r.callback = some o →
    s.Gives i o
  /-- A call with no run in flight starts one, with a new promise. -/
  starts : ∀ key : String, key ∉ objectPrototypeNames → (∀ i, ¬ s.InFlight i key) →
    (s.singlePromise key .promise).2 = .promise s.runs.length ∧
      (s.singlePromise key .promise).1.runs = s.runs ++ [{ key := key }] ∧
      (s.singlePromise key .promise).1.InFlight s.runs.length key
  /-- A clean-up removes no other run's entry, whatever its key. -/
  cleanup : ∀ (key : String) (i j : Nat), s.singlePromiseMap.find key = some j → j ≠ i →
    (s.cleanup i).singlePromiseMap.find key = some j
  /-- With nothing in flight the map is empty. -/
  empty : (∀ (i : Nat) (key : String), ¬ s.InFlight i key) → s.singlePromiseMap = []

/-- **`singlePromise` runs one callback per key at a time**, in every state that calls,
settlements and clean-ups in any order lead to. -/
theorem one_at_a_time (ops : List (Op T)) : OneAtATime (machine.run ({} : State T) ops) := by
  have h := run_inv ops
  refine ⟨fun key i j => h.alone, fun key cb i hi => h.joins hi cb, fun i r o hr => h.gives hr, ?_,
    fun key i j => h.cleanup_other, h.empty⟩
  intro key hkey hnone
  rw [h.starts hkey hnone]
  exact ⟨rfl, rfl, (inFlight_concat _ _ _ _).mpr (Or.inl ⟨rfl, rfl⟩)⟩

end AuthokSpa.SinglePromise
