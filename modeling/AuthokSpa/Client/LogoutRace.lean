import AuthokSpa.Cache.Async
import AuthokSpa.Client.Silent

/-!
# A logout during a request (`AuthokClient.ts`)

One request, silent or a login, that is under way when `logout({localOnly:
true})` is called. The request is a `Flight` whose `cacheManager.set` takes
several steps here, as does the `clear` of a logout with a custom cache; with a
built-in cache `logout` is synchronous. The steps of the two interleave in any
order.

Nothing tells a request that the user has logged out, and nothing it does later
is undone: which of two writes wins is decided by their order alone
(`logout_race`).
-/

namespace AuthokSpa

open Js (Value Obj)
open Cache (Store CacheKey Task)

/-- One cache operation of a task of the manager. -/
def Cache.Manager.advance (m : Cache.Manager) (now : Js.Num) (s : Store) (t : Task) :
    Store × Task :=
  match m.keyManifest with
  | some cid => t.step cid now s
  | none => t.stepListing now s

/-- How far a logout has come. -/
inductive LogoutStage where
  | idle
  | clearing (t : Task)
  | cleared
  | finished

/-- A request and a logout. -/
structure Race where
  shared : Shared
  flight : Flight
  /-- The `cacheManager.set` of the request, once it has begun. -/
  task : Option Task := none
  logout : LogoutStage := .idle
  /-- The entry the request has stored, and when. -/
  stored : Option (CacheEntry × Js.Num) := none
  /-- The request has saved the cookie. -/
  saved : Bool := false

inductive RaceOp where
  | request (op : FlightOp)
  /-- A cache operation of the request's `set`. -/
  | set (now : Js.Num)
  | logout
  /-- A cache operation of the logout's `clear`. -/
  | clear (now : Js.Num)
  | postCacheClear

namespace Race

variable (S : Setup)

/-- A step of the request outside `cacheManager.set`. -/
def request (s : Race) (op : FlightOp) : Race :=
  match s.flight.stage, op with
  -- the entry is stored by the operations of `set`
  | .storing _ _, _ => s
  | .saving _, .save =>
    let p := s.flight.step S s.shared .save
    { s with shared := p.shared, flight := p.flight, saved := true }
  | _, _ =>
    let p := s.flight.step S s.shared op
    { s with shared := p.shared, flight := p.flight }

/-- A cache operation of `cacheManager.set(e)`, at the stage `t`. -/
def setStep (s : Race) (e : CacheEntry) (response : Obj) (now : Js.Num) (t : Task) : Race :=
  let r := S.manager.advance now s.shared.store t
  { s with
    shared := { s.shared with store := r.1 }
    -- the request goes on when the last operation is over
    flight := if r.2.isFinished then (s.flight.store S s.shared e response now).flight else s.flight
    task := if r.2.isFinished then none else some r.2
    stored := match t with
      | .storing e => some (e, now)
      | _ => s.stored }

def step (s : Race) (op : RaceOp) : Race :=
  match op with
  | .request op => s.request S op
  | .set now =>
    match s.flight.stage with
    | .storing e response => s.setStep S e response now (s.task.getD (.storing e))
    | _ => s
  | .logout =>
    match s.logout with
    | .idle =>
      -- a custom cache is cleared operation by operation, a built-in one at once
      if S.hasCustomCache then { s with logout := .clearing (.clearing none) }
      else { s with shared := s.shared.logout S, logout := .finished }
    | _ => s
  | .clear now =>
    match s.logout with
    | .clearing t =>
      let r := S.manager.advance now s.shared.store t
      { s with
        shared := { s.shared with store := r.1 }
        logout := if r.2.isFinished then .cleared else .clearing r.2 }
    | _ => s
  | .postCacheClear =>
    match s.logout with
    | .cleared =>
      { s with shared := { s.shared with isAuthenticated := false }, logout := .finished }
    | _ => s

def machine : Machine Race RaceOp Unit where
  step s op := (s.step S op, ())

/-- The request at any stage, nothing stored or saved yet. -/
def start (sh : Shared) (f : Flight) : Race := { shared := sh, flight := f }

end Race

/-- The request has nothing more to store. -/
def Stage.Past : Stage → Prop
  | .saving _ => True
  | .releasing _ => True
  | .settled _ => True
  | _ => False

/-- The request has nothing more to save. -/
def Stage.Over : Stage → Prop
  | .releasing _ => True
  | .settled _ => True
  | _ => False

/-- The logout has not read the keys yet. -/
def LogoutStage.Unread : LogoutStage → Prop
  | .idle => True
  | .clearing (.clearing none) => True
  | _ => False

/-- The logout has nothing more to remove from the cache. -/
def LogoutStage.Emptied : LogoutStage → Prop
  | .cleared => True
  | .finished => True
  | _ => False

theorem Stage.Over.past {stage : Stage} (h : stage.Over) : stage.Past := by
  cases stage <;> trivial

/-- The key of an entry. -/
def CacheEntry.key (e : CacheEntry) : String := (CacheKey.ofEntry e).toKey

namespace Flight

variable {S : Setup} {sh : Shared} {f : Flight}

/-- A request that is over leaves the cache and the cookie alone. -/
theorem step_over (h : f.stage.Over) (op : FlightOp) :
    (f.step S sh op).shared = sh ∧ (f.step S sh op).flight.stage.Over := by
  cases hstage : f.stage with
  | releasing r =>
    cases op with
    | release =>
      simp only [Flight.step, hstage]
      exact ⟨trivial, trivial⟩
    | _ =>
      simp only [Flight.step, hstage]
      exact ⟨trivial, trivial⟩
  | settled r =>
    simp only [Flight.step, hstage]
    exact ⟨trivial, trivial⟩
  | _ =>
    rw [hstage] at h
    exact h.elim

/-- The end of a request leaves the cache alone. -/
theorem step_past (h : f.stage.Past) (op : FlightOp) :
    (f.step S sh op).shared.store = sh.store ∧ (f.step S sh op).flight.stage.Past := by
  have hover : f.stage.Over →
      (f.step S sh op).shared.store = sh.store ∧ (f.step S sh op).flight.stage.Past := by
    intro h
    obtain ⟨hshared, hstage⟩ := @step_over S sh f h op
    exact ⟨congrArg Shared.store hshared, hstage.past⟩
  cases hstage : f.stage with
  | saving o =>
    cases op with
    | save =>
      have hstep : f.step S sh .save =
          ⟨{ sh with isAuthenticated := true }, f.goTo (f.leave (.ok o)), []⟩ := by
        unfold Flight.step
        rw [hstage]
      rw [hstep]
      refine ⟨rfl, ?_⟩
      show (f.leave (.ok o)).Past
      unfold Flight.leave
      split <;> trivial
    | _ =>
      simp only [Flight.step, hstage]
      exact ⟨trivial, trivial⟩
  | releasing r => exact hover (by rw [hstage]; trivial)
  | settled r => exact hover (by rw [hstage]; trivial)
  | _ =>
    -- the stages before the entry is stored
    rw [hstage] at h
    exact h.elim

/-- Saving the cookie. -/
theorem step_save {o : Outcome} (h : f.stage = .saving o) :
    (f.step S sh .save).shared.isAuthenticated = true ∧ (f.step S sh .save).flight.stage.Over := by
  have hstep : f.step S sh .save =
      ⟨{ sh with isAuthenticated := true }, f.goTo (f.leave (.ok o)), []⟩ := by
    unfold Flight.step
    rw [h]
  rw [hstep]
  refine ⟨rfl, ?_⟩
  show (f.leave (.ok o)).Over
  unfold Flight.leave
  split <;> trivial

end Flight

namespace Race

variable {S : Setup} {s : Race}

/-- The stages of the request go with what it has stored and saved. -/
structure Ordered (S : Setup) (s : Race) : Prop where
  task : ∀ t, s.task = some t → ∃ e response now, s.flight.stage = .storing e response ∧
    s.stored = some (e, now) ∧ (∃ cid, S.manager.keyManifest = some cid) ∧
      (t = .adding e.key ∨ ∃ keys, t = .writing e.key keys)
  stored : ∀ x, s.stored = some x → s.task = none → s.flight.stage.Past
  saved : s.saved = true → s.flight.stage.Over
  listed : s.logout.Unread → ∀ e now, s.stored = some (e, now) → s.task = none →
    ∀ cid, S.manager.keyManifest = some cid → e.key ∈ Cache.listed cid s.shared.store
  logout : ∀ t, s.logout = .clearing t → t = .clearing none ∨ ∃ keys, t = .removing keys

/-- A step of the request: none while it is in `set`, the one that saves the
cookie, or another one. -/
theorem request_cases (s : Race) (op : FlightOp) :
    s.request S op = s ∨
    (∃ o, s.flight.stage = .saving o ∧ op = .save ∧
      s.request S op = { s with
        shared := (s.flight.step S s.shared .save).shared
        flight := (s.flight.step S s.shared .save).flight
        saved := true }) ∨
    ((∀ e response, s.flight.stage ≠ .storing e response) ∧
      s.request S op = { s with
        shared := (s.flight.step S s.shared op).shared
        flight := (s.flight.step S s.shared op).flight }) := by
  unfold request
  split
  next => exact Or.inl rfl
  next o hstage => exact Or.inr (Or.inl ⟨o, hstage, rfl, rfl⟩)
  next hne _ => exact Or.inr (Or.inr ⟨fun e response h => hne e response h, rfl⟩)

/-- Outside `set` there is no task. -/
theorem Ordered.no_task (h : Ordered S s) (hne : ∀ e response, s.flight.stage ≠ .storing e response) :
    s.task = none := by
  cases htask : s.task with
  | none => rfl
  | some t =>
    obtain ⟨e, response, now, hstage, -⟩ := h.task t htask
    exact absurd hstage (hne e response)

theorem Ordered.request (h : Ordered S s) (op : FlightOp) : Ordered S (s.request S op) := by
  rcases request_cases s op with heq | ⟨o, hstage, rfl, heq⟩ | ⟨hne, heq⟩
  · rw [heq]
    exact h
  · have hpast : s.flight.stage.Past := by
      rw [hstage]
      trivial
    obtain ⟨hstore, hpast'⟩ := @Flight.step_past S s.shared _ hpast .save
    have htask : s.task = none := h.no_task (by rw [hstage]; exact fun e r hr => nomatch hr)
    rw [heq]
    refine ⟨?_, fun _ _ _ => hpast', fun _ => (Flight.step_save hstage).2, ?_, h.logout⟩
    · intro t ht
      rw [htask] at ht
      cases ht
    · -- the entry is stored, so this step leaves the store as it is
      intro hunread e now hstored hnone cid hcid
      rw [hstore]
      exact h.listed hunread e now hstored hnone cid hcid
  · have htask := h.no_task hne
    rw [heq]
    refine ⟨?_, ?_, ?_, ?_, h.logout⟩
    · intro t ht
      rw [htask] at ht
      cases ht
    · intro x hx hnone
      exact (Flight.step_past (h.stored x hx hnone) op).2
    · intro hsaved
      exact (Flight.step_over (h.saved hsaved) op).2
    · intro hunread e now hstored hnone cid hcid
      have hstore := (@Flight.step_past S s.shared _ (h.stored _ hstored hnone) op).1
      dsimp only
      rw [hstore]
      exact h.listed hunread e now hstored hnone cid hcid

/-- The flight when its entry is stored. -/
def afterSet (S : Setup) (s : Race) (e : CacheEntry) (response : Obj) (now : Js.Num) : Flight :=
  (s.flight.store S s.shared e response now).flight

/-- The cache operations of `set`: the entry is stored, then the manifest is read
and written if there is one. -/
inductive SetStep (S : Setup) (s : Race) (e : CacheEntry) (response : Obj) (now : Js.Num) :
    Race → Prop
  | stored {cid : String} : S.manager.keyManifest = some cid → s.task = none →
    SetStep S s e response now
      { s with
        shared := { s.shared with
          store := s.shared.store.put e.key (.wrapped (Cache.wrapCacheEntry e now)) }
        task := some (.adding e.key)
        stored := some (e, now) }
  | storedLast : S.manager.keyManifest = none → s.task = none →
    SetStep S s e response now
      { s with
        shared := { s.shared with
          store := s.shared.store.put e.key (.wrapped (Cache.wrapCacheEntry e now)) }
        flight := s.afterSet S e response now
        stored := some (e, now) }
  | read {cid : String} {keys : List String} {before : Js.Num} :
    S.manager.keyManifest = some cid → s.task = some (.adding e.key) →
    s.stored = some (e, before) →
    SetStep S s e response now { s with task := some (.writing e.key keys) }
  | wrote {cid : String} {keys : List String} {before : Js.Num} :
    S.manager.keyManifest = some cid → s.task = some (.writing e.key keys) →
    s.stored = some (e, before) →
    SetStep S s e response now
      { s with
        shared := { s.shared with
          store := s.shared.store.put (Cache.manifestKey cid) (.manifest (Js.setAdd keys e.key)) }
        flight := s.afterSet S e response now
        task := none }

theorem setStep_elim (h : Ordered S s) {e : CacheEntry} {response : Obj}
    (hstage : s.flight.stage = .storing e response) (now : Js.Num) :
    SetStep S s e response now (s.setStep S e response now (s.task.getD (.storing e))) := by
  cases htask : s.task with
  | none =>
    rw [Option.getD_none]
    cases hm : S.manager.keyManifest with
    | some cid =>
      simp only [setStep, Cache.Manager.advance, hm, Task.step, Task.isFinished, Bool.false_eq_true,
        if_false]
      exact .stored hm htask
    | none =>
      simp only [setStep, Cache.Manager.advance, hm, Task.stepListing, Task.isFinished, if_true]
      rw [← htask]
      exact .storedLast hm htask
  | some t =>
    -- the task belongs to the entry that is being stored
    obtain ⟨e', response', before, hstage', hstored, ⟨cid, hm⟩, ht⟩ := h.task t htask
    obtain ⟨rfl, rfl⟩ : e = e' ∧ response = response' := by
      rw [hstage] at hstage'
      exact Stage.storing.inj hstage'
    rw [Option.getD_some]
    rcases ht with rfl | ⟨keys, rfl⟩
    · simp only [setStep, Cache.Manager.advance, hm, Task.step, Task.isFinished, Bool.false_eq_true,
        if_false]
      exact .read hm htask hstored
    · simp only [setStep, Cache.Manager.advance, hm, Task.step, Task.isFinished, if_true]
      exact .wrote hm htask hstored

/-- A cache operation of the request's `set`. -/
theorem Ordered.setStep (h : Ordered S s) {e : CacheEntry} {response : Obj} {now : Js.Num}
    {s' : Race} (hstage : s.flight.stage = .storing e response)
    (helim : SetStep S s e response now s') : Ordered S s' := by
  have hsaved : s.saved = true → False := by
    intro hs
    have := h.saved hs
    rw [hstage] at this
    exact this
  cases helim with
  | stored hm htask =>
    refine ⟨?_, fun _ _ hnone => (nomatch hnone), fun hs => (hsaved hs).elim,
      fun _ _ _ _ hnone => (nomatch hnone), h.logout⟩
    intro t ht
    obtain rfl := Option.some.inj ht
    exact ⟨e, response, now, hstage, rfl, ⟨_, hm⟩, Or.inl rfl⟩
  | storedLast hm htask =>
    refine ⟨?_, fun _ _ _ => trivial, fun hs => (hsaved hs).elim, ?_, h.logout⟩
    · intro t ht
      rw [htask] at ht
      cases ht
    · intro _ _ _ _ _ cid hcid
      rw [hm] at hcid
      cases hcid
  | @read cid keys before hm htask hstored =>
    refine ⟨?_, fun _ _ hnone => (nomatch hnone), fun hs => (hsaved hs).elim,
      fun _ _ _ _ hnone => (nomatch hnone), h.logout⟩
    intro t ht
    obtain rfl := Option.some.inj ht
    exact ⟨e, response, before, hstage, hstored, ⟨_, hm⟩, Or.inr ⟨keys, rfl⟩⟩
  | @wrote cid keys before hm htask hstored =>
    refine ⟨fun _ ht => (nomatch ht), fun _ _ _ => trivial, fun hs => (hsaved hs).elim, ?_,
      h.logout⟩
    intro _ e' now' he' _ cid' hcid'
    rw [hm] at hcid'
    obtain rfl := Option.some.inj hcid'
    obtain ⟨rfl, -⟩ := Prod.mk.inj (Option.some.inj (hstored.symm.trans he'))
    rw [Cache.listed_put_manifest, Js.mem_setAdd]
    exact Or.inl rfl

/-- The cache operations of `clear`: the keys are read, there are none, the next
one is removed, or all are. -/
inductive ClearStep (m : Cache.Manager) (store : Store) : Task → Store × Task → Prop
  | read {keys : List String} : m.getCacheKeys store = some keys →
    ClearStep m store (.clearing none) (store, .removing keys)
  | nothing : m.getCacheKeys store = none → ClearStep m store (.clearing none) (store, .finished)
  | remove {key : String} {keys : List String} :
    ClearStep m store (.removing (key :: keys)) (store.remove key, .removing keys)
  | last {store' : Store} :
    (∀ key, store'.holdsToken key = true → store.holdsToken key = true) →
    ClearStep m store (.removing []) (store', .finished)

theorem clearStep_elim (m : Cache.Manager) (now : Js.Num) (store : Store) {t : Task}
    (ht : t = .clearing none ∨ ∃ keys, t = .removing keys) :
    ClearStep m store t (m.advance now store t) := by
  have hkeys : m.getCacheKeys store =
      match m.keyManifest with
      | some cid => Cache.manifestKeys cid store
      | none => some store.allKeys := rfl
  unfold Cache.Manager.advance
  cases hm : m.keyManifest with
  | some cid =>
    rw [hm] at hkeys
    rcases ht with rfl | ⟨keys, rfl⟩
    · simp only [Task.step]
      cases hlist : Cache.manifestKeys cid store with
      | none => exact .nothing (hkeys.trans hlist)
      | some keys => exact .read (hkeys.trans hlist)
    · cases keys with
      | nil =>
        refine .last fun key hkey => ?_
        rw [Cache.manifestClear, Cache.Concurrent.holdsToken_remove] at hkey
        split at hkey
        · cases hkey
        · exact hkey
      | cons key keys => exact .remove
  | none =>
    rw [hm] at hkeys
    rcases ht with rfl | ⟨keys, rfl⟩
    · exact .read hkeys
    · cases keys with
      | nil => exact .last fun _ hkey => hkey
      | cons key keys => exact .remove

/-- Steps of the logout leave the request as it is, and once it has read the keys
nothing needs to be listed. -/
theorem Ordered.logoutStep (h : Ordered S s) {sh : Shared} {logout : LogoutStage}
    (hread : logout.Unread → s.logout.Unread ∧ sh.store = s.shared.store)
    (hlogout : ∀ t, logout = .clearing t → t = .clearing none ∨ ∃ keys, t = .removing keys) :
    Ordered S { s with shared := sh, logout := logout } := by
  refine ⟨h.task, h.stored, h.saved, ?_, hlogout⟩
  intro hunread e now hstored hnone cid hcid
  obtain ⟨hold, hstore⟩ := hread hunread
  dsimp only
  rw [hstore]
  exact h.listed hold e now hstored hnone cid hcid

/-- What a cache operation of the logout's `clear` makes of the state. -/
def cleared (s : Race) (r : Store × Task) : Race :=
  { s with
    shared := { s.shared with store := r.1 }
    logout := if r.2.isFinished then .cleared else .clearing r.2 }

/-- Every step of a race, by what it can do. -/
theorem step_elim {P : Race → Prop} (h : Ordered S s) (op : RaceOp) (idle : P s)
    (request : ∀ op, P (s.request S op))
    (set : ∀ e response now s', s.flight.stage = .storing e response →
      SetStep S s e response now s' → P s')
    (logout : s.logout = .idle → S.hasCustomCache = true →
      P { s with logout := .clearing (.clearing none) })
    (logoutSync : s.logout = .idle → S.hasCustomCache = false →
      P { s with shared := s.shared.logout S, logout := .finished })
    (clear : ∀ t r, s.logout = .clearing t → ClearStep S.manager s.shared.store t r →
      P (s.cleared r))
    (postCacheClear : s.logout = .cleared →
      P { s with shared := { s.shared with isAuthenticated := false }, logout := .finished }) :
    P (s.step S op) := by
  cases op with
  | request op => exact request op
  | set now =>
    simp only [Race.step]
    split
    next e response hstage => exact set e response now _ hstage (setStep_elim h hstage now)
    next => exact idle
  | logout =>
    simp only [Race.step]
    split
    next hidle =>
      split
      next hc => exact logout hidle hc
      next hc => exact logoutSync hidle (by simpa using hc)
    next => exact idle
  | clear now =>
    simp only [Race.step]
    split
    next t ht => exact clear t _ ht (clearStep_elim _ now _ (h.logout t ht))
    next => exact idle
  | postCacheClear =>
    simp only [Race.step]
    split
    next hcleared => exact postCacheClear hcleared
    next => exact idle

theorem Ordered.cleared (h : Ordered S s) {t : Task} {r : Store × Task}
    (hr : ClearStep S.manager s.shared.store t r) : Ordered S (s.cleared r) := by
  cases hr with
  | read hkeys =>
    exact h.logoutStep (fun hu => hu.elim) fun t ht =>
      Or.inr ⟨_, (LogoutStage.clearing.inj ht).symm⟩
  | nothing => exact h.logoutStep (fun hu => hu.elim) fun t ht => (nomatch ht)
  | remove =>
    exact h.logoutStep (fun hu => hu.elim) fun t ht =>
      Or.inr ⟨_, (LogoutStage.clearing.inj ht).symm⟩
  | last => exact h.logoutStep (fun hu => hu.elim) fun t ht => (nomatch ht)

theorem Ordered.startClear (h : Ordered S s) (hidle : s.logout = .idle) :
    Ordered S { s with logout := .clearing (.clearing none) } := by
  have hunread : s.logout.Unread := by
    rw [hidle]
    trivial
  -- nothing is read yet, so what is listed stays listed
  exact h.logoutStep (fun _ => ⟨hunread, rfl⟩) fun _ ht => Or.inl (LogoutStage.clearing.inj ht).symm

theorem Ordered.finish (h : Ordered S s) (sh : Shared) :
    Ordered S { s with shared := sh, logout := .finished } :=
  h.logoutStep (fun hu => hu.elim) fun _ ht => (nomatch ht)

theorem Ordered.step (h : Ordered S s) (op : RaceOp) : Ordered S (s.step S op) := by
  apply step_elim (P := Ordered S) h op
  case idle => exact h
  case request => exact h.request
  case set => exact fun e response now s' hstage hs' => h.setStep hstage hs'
  case logout => exact fun hidle _ => h.startClear hidle
  case logoutSync => exact fun _ _ => h.finish _
  case clear => exact fun t r _ hr => h.cleared hr
  case postCacheClear => exact fun _ => h.finish _

/-! ## Who comes last -/

/-- The keys `clear` would read. -/
def keysNow (S : Setup) (store : Store) : List String := (S.manager.getCacheKeys store).getD []

/-- The logout will still remove the key. -/
def removes (S : Setup) (store : Store) (key : String) : LogoutStage → Prop
  | .idle => key ∈ keysNow S store
  | .clearing (.clearing none) => key ∈ keysNow S store
  | .clearing (.removing keys) => key ∈ keys
  | _ => False

/-- The request has stored what it stores, and the logout will remove what is
under the key. -/
structure Doomed (S : Setup) (key : String) (s : Race) : Prop where
  ordered : Ordered S s
  past : s.flight.stage.Past
  doomed : s.shared.store.holdsToken key = true → removes S s.shared.store key s.logout

/-- The logout has removed what it removes, and what the request has stored is
there. -/
structure Kept (S : Setup) (s : Race) : Prop where
  ordered : Ordered S s
  emptied : s.logout.Emptied
  kept : ∀ e now, s.stored = some (e, now) →
    (∀ cid, S.manager.keyManifest = some cid → Cache.manifestKey cid ≠ e.key) →
    (s.shared.store.get e.key).map Cache.Cell.value =
      some (.wrapped (Cache.wrapCacheEntry e now))

/-- The cookie is saved, and not there after the logout. -/
structure CookieDoomed (S : Setup) (s : Race) : Prop where
  ordered : Ordered S s
  saved : s.saved = true
  gone : s.logout = .finished → s.shared.isAuthenticated = false

/-- The logout is over, and the cookie is there if the request has saved it. -/
structure CookieKept (S : Setup) (s : Race) : Prop where
  ordered : Ordered S s
  finished : s.logout = .finished
  kept : s.saved = true → s.shared.isAuthenticated = true

/-- A request whose set is complete does not touch the cache. -/
theorem request_past (h : s.flight.stage.Past) (op : FlightOp) :
    (s.request S op).shared.store = s.shared.store ∧ (s.request S op).flight.stage.Past ∧
      (s.request S op).logout = s.logout ∧ (s.request S op).stored = s.stored := by
  rcases request_cases s op with heq | ⟨o, -, rfl, heq⟩ | ⟨-, heq⟩
  · rw [heq]
    exact ⟨rfl, h, rfl, rfl⟩
  · rw [heq]
    obtain ⟨hstore, hpast⟩ := @Flight.step_past S s.shared _ h .save
    exact ⟨hstore, hpast, rfl, rfl⟩
  · rw [heq]
    obtain ⟨hstore, hpast⟩ := @Flight.step_past S s.shared _ h op
    exact ⟨hstore, hpast, rfl, rfl⟩

theorem not_storing_of_past (h : s.flight.stage.Past) {e : CacheEntry} {response : Obj}
    (hstage : s.flight.stage = .storing e response) : False := by
  rw [hstage] at h
  exact h

/-- A built-in cache is empty after the logout. -/
theorem logout_empty (hc : S.hasCustomCache = false) (sh : Shared) (key : String) :
    (sh.logout S).store.holdsToken key = false := by
  have hstore : (sh.logout S).store = Cache.Manager.clearSync none sh.store := by
    unfold Shared.logout
    simp only [hc, Bool.false_eq_true, if_false]
  have hnone : (sh.logout S).store.get key = none := by
    rw [hstore]
    unfold Cache.Store.get
    rw [Cache.clearSync_slots]
    rfl
  unfold Cache.Store.holdsToken
  rw [hnone]

theorem Doomed.cleared {key : String} (h : Doomed S key s) {t : Task} {r : Store × Task}
    (ht : s.logout = .clearing t) (hr : ClearStep S.manager s.shared.store t r) :
    Doomed S key (s.cleared r) := by
  refine ⟨h.ordered.cleared hr, h.past, ?_⟩
  have hdoomed := h.doomed
  rw [ht] at hdoomed
  cases hr with
  | read hkeys =>
    intro hkey
    have hmem : key ∈ keysNow S s.shared.store := hdoomed hkey
    unfold keysNow at hmem
    rw [hkeys] at hmem
    exact hmem
  | nothing hkeys =>
    intro hkey
    have hmem : key ∈ keysNow S s.shared.store := hdoomed hkey
    unfold keysNow at hmem
    rw [hkeys] at hmem
    cases hmem
  | @remove key' keys =>
    intro hkey
    have hkey : (s.shared.store.remove key').holdsToken key = true := hkey
    rw [Cache.Concurrent.holdsToken_remove] at hkey
    split at hkey
    · cases hkey
    next hne =>
      rcases List.mem_cons.mp (hdoomed hkey) with heq | hmem
      · exact absurd heq.symm hne
      · exact hmem
  | last hsub =>
    intro hkey
    have hmem : key ∈ ([] : List String) := hdoomed (hsub key hkey)
    cases hmem

theorem Doomed.step {key : String} (h : Doomed S key s) (op : RaceOp) :
    Doomed S key (s.step S op) := by
  apply step_elim (P := Doomed S key) h.ordered op
  case idle => exact h
  case request =>
    intro op
    obtain ⟨hstore, hpast, hlogout, -⟩ := @request_past S s h.past op
    exact ⟨h.ordered.request op, hpast, by rw [hstore, hlogout]; exact h.doomed⟩
  case set =>
    intro e response now s' hstage _
    exact (not_storing_of_past h.past hstage).elim
  case logout =>
    -- the keys that `clear` is going to read are those of this store
    intro hidle _
    refine ⟨h.ordered.startClear hidle, h.past, ?_⟩
    have hdoomed := h.doomed
    rw [hidle] at hdoomed
    exact hdoomed
  case logoutSync =>
    intro _ hc
    refine ⟨h.ordered.finish _, h.past, ?_⟩
    intro hkey
    rw [logout_empty hc] at hkey
    cases hkey
  case clear => exact fun t r ht hr => h.cleared ht hr
  case postCacheClear =>
    intro hcleared
    refine ⟨h.ordered.finish _, h.past, ?_⟩
    have hdoomed := h.doomed
    rw [hcleared] at hdoomed
    exact hdoomed

theorem Kept.setStep (h : Kept S s) {e : CacheEntry} {response : Obj} {now : Js.Num} {s' : Race}
    (hstage : s.flight.stage = .storing e response) (hs' : SetStep S s e response now s') :
    Kept S s' := by
  have hordered := h.ordered.setStep hstage hs'
  have hnew : ∀ e' now', some (e, now) = some (e', now') →
      ((s.shared.store.put e.key (.wrapped (Cache.wrapCacheEntry e now))).get e'.key).map
          Cache.Cell.value = some (.wrapped (Cache.wrapCacheEntry e' now')) := by
    intro e' now' hstored
    obtain ⟨rfl, rfl⟩ := Prod.mk.inj (Option.some.inj hstored)
    rw [Cache.Store.get_put, if_pos rfl]
    rfl
  cases hs' with
  | stored hm htask => exact ⟨hordered, h.emptied, fun e' now' hstored _ => hnew e' now' hstored⟩
  | storedLast hm htask =>
    exact ⟨hordered, h.emptied, fun e' now' hstored _ => hnew e' now' hstored⟩
  | read hm htask hstored => exact ⟨hordered, h.emptied, h.kept⟩
  | @wrote cid keys before hm htask hstored =>
    refine ⟨hordered, h.emptied, ?_⟩
    intro e' now' hstored' hne
    dsimp only
    rw [Cache.Store.get_put, if_neg (hne cid hm)]
    exact h.kept e' now' hstored' hne

theorem Kept.request (h : Kept S s) (op : FlightOp) : Kept S (s.request S op) := by
  refine ⟨h.ordered.request op, ?_, ?_⟩
  · rcases request_cases s op with heq | ⟨o, -, -, heq⟩ | ⟨-, heq⟩ <;> rw [heq] <;> exact h.emptied
  · intro e now hstored hne
    -- a step that does something is one outside `set`, so what was stored is complete
    have hsame : s.request S op = s ∨ s.task = none := by
      rcases request_cases s op with heq | ⟨o, hstage, -, -⟩ | ⟨hns, -⟩
      · exact Or.inl heq
      · exact Or.inr (h.ordered.no_task (by rw [hstage]; exact fun e r hr => nomatch hr))
      · exact Or.inr (h.ordered.no_task hns)
    rcases hsame with heq | htask
    · rw [heq] at hstored ⊢
      exact h.kept e now hstored hne
    · cases hs : s.stored with
      | none =>
        have hnone : (s.request S op).stored = none := by
          rcases request_cases s op with heq | ⟨o, -, -, heq⟩ | ⟨-, heq⟩ <;> rw [heq] <;> exact hs
        rw [hnone] at hstored
        cases hstored
      | some x =>
        obtain ⟨hstore, -, -, hst⟩ := @request_past S s (h.ordered.stored x hs htask) op
        rw [hstore]
        exact h.kept e now (hst ▸ hstored) hne

theorem Kept.step (h : Kept S s) (op : RaceOp) : Kept S (s.step S op) := by
  have hemptied := h.emptied
  apply step_elim (P := Kept S) h.ordered op
  case idle => exact h
  case request => exact h.request
  case set => exact fun e response now s' hstage hs' => h.setStep hstage hs'
  -- the logout is past its cache: of its steps only the last one is left
  case logout =>
    intro hidle _
    rw [hidle] at hemptied
    exact hemptied.elim
  case logoutSync =>
    intro hidle _
    rw [hidle] at hemptied
    exact hemptied.elim
  case clear =>
    intro t r ht _
    rw [ht] at hemptied
    exact hemptied.elim
  case postCacheClear => exact fun _ => ⟨h.ordered.finish _, trivial, h.kept⟩

/-- A request that is over makes no difference. -/
theorem request_over (h : s.flight.stage.Over) (op : FlightOp) :
    (s.request S op).shared = s.shared ∧ (s.request S op).saved = s.saved ∧
      (s.request S op).logout = s.logout := by
  rcases request_cases s op with heq | ⟨o, hstage, -, heq⟩ | ⟨-, heq⟩
  · rw [heq]
    exact ⟨rfl, rfl, rfl⟩
  · rw [hstage] at h
    exact h.elim
  · rw [heq]
    exact ⟨(@Flight.step_over S s.shared _ h op).1, rfl, rfl⟩

theorem CookieDoomed.step (h : CookieDoomed S s) (op : RaceOp) : CookieDoomed S (s.step S op) := by
  have hover := h.ordered.saved h.saved
  apply step_elim (P := CookieDoomed S) h.ordered op
  case idle => exact h
  case request =>
    intro op
    obtain ⟨hshared, hsaved, hlogout⟩ := @request_over S s hover op
    exact ⟨h.ordered.request op, hsaved.trans h.saved, by rw [hshared, hlogout]; exact h.gone⟩
  case set =>
    intro e response now s' hstage _
    exact (not_storing_of_past hover.past hstage).elim
  case logout => exact fun hidle _ => ⟨h.ordered.startClear hidle, h.saved, fun hf => (nomatch hf)⟩
  case logoutSync => exact fun _ _ => ⟨h.ordered.finish _, h.saved, fun _ => rfl⟩
  case clear =>
    intro t r ht hr
    refine ⟨h.ordered.cleared hr, h.saved, ?_⟩
    intro hfinished
    unfold Race.cleared at hfinished
    dsimp only at hfinished
    split at hfinished <;> cases hfinished
  case postCacheClear => exact fun _ => ⟨h.ordered.finish _, h.saved, fun _ => rfl⟩

theorem CookieKept.request (h : CookieKept S s) (op : FlightOp) : CookieKept S (s.request S op) := by
  have hfinished := h.finished
  refine ⟨h.ordered.request op, ?_, ?_⟩
  · rcases request_cases s op with heq | ⟨o, -, -, heq⟩ | ⟨-, heq⟩ <;> rw [heq] <;> exact hfinished
  · rcases request_cases s op with heq | ⟨o, hstage, -, heq⟩ | ⟨-, heq⟩
    · rw [heq]
      exact h.kept
    · rw [heq]
      exact fun _ => (Flight.step_save hstage).1
    · -- the cookie was saved before, so the request is over and changes nothing
      rw [heq]
      intro hsaved
      dsimp only
      rw [(@Flight.step_over S s.shared _ (h.ordered.saved hsaved) op).1]
      exact h.kept hsaved

theorem CookieKept.step (h : CookieKept S s) (op : RaceOp) : CookieKept S (s.step S op) := by
  have hfinished := h.finished
  apply step_elim (P := CookieKept S) h.ordered op
  case idle => exact h
  case request => exact h.request
  case set =>
    intro e response now s' hstage hs'
    have hordered := h.ordered.setStep hstage hs'
    cases hs' with
    | stored => exact ⟨hordered, hfinished, h.kept⟩
    | storedLast => exact ⟨hordered, hfinished, h.kept⟩
    | read => exact ⟨hordered, hfinished, h.kept⟩
    | wrote => exact ⟨hordered, hfinished, h.kept⟩
  -- a logout that is over makes no step
  case logout =>
    intro hidle _
    rw [hidle] at hfinished
    cases hfinished
  case logoutSync =>
    intro hidle _
    rw [hidle] at hfinished
    cases hfinished
  case clear =>
    intro t r ht _
    rw [ht] at hfinished
    cases hfinished
  case postCacheClear =>
    intro hcleared
    rw [hcleared] at hfinished
    cases hfinished

/-- An invariant holds from any state on. -/
theorem run_keeps {P : Race → Prop} (hstep : ∀ s op, P s → P (s.step S op)) (h : P s)
    (ops : List RaceOp) : P ((machine S).run s ops) :=
  Machine.run_guarded (C := fun _ _ => True) (fun s op hs _ => hstep s op hs) ops s h
    ((machine S).meets_of_forall _ fun _ _ _ => trivial)

theorem ordered_start (S : Setup) (sh : Shared) (f : Flight) : Ordered S (start sh f) :=
  ⟨fun _ ht => (nomatch ht), fun _ hx => (nomatch hx), fun hs => (nomatch hs),
    fun _ _ _ hx => (nomatch hx), fun _ ht => (nomatch ht)⟩

/-- What is stored and not removed yet is known to the logout. -/
theorem Ordered.doomed (h : Ordered S s) {e : CacheEntry} {now : Js.Num} {key : String}
    (hstored : s.stored = some (e, now)) (htask : s.task = none) (hunread : s.logout.Unread)
    (hkey : S.manager.keyManifest = none ∨ key = e.key) : Doomed S key s := by
  refine ⟨h, h.stored _ hstored htask, ?_⟩
  intro hholds
  have hmem : key ∈ keysNow S s.shared.store := by
    unfold keysNow Cache.Manager.getCacheKeys
    cases hm : S.manager.keyManifest with
    | none =>
      unfold Cache.Store.holdsToken at hholds
      split at hholds
      next c hc => exact Js.OrdMap.mem_keys_of_mem (Js.OrdMap.find_mem hc)
      next => cases hholds
    | some cid =>
      rcases hkey with hnone | rfl
      · rw [hm] at hnone
        cases hnone
      · exact h.listed hunread e now hstored htask cid hm
  cases hl : s.logout with
  | idle => exact hmem
  | clearing t =>
    rw [hl] at hunread
    cases t with
    | clearing c =>
      cases c with
      | none => exact hmem
      | some c => exact hunread.elim
    | _ => exact hunread.elim
  | cleared =>
    rw [hl] at hunread
    exact hunread.elim
  | finished =>
    rw [hl] at hunread
    exact hunread.elim

end Race

/-- **A logout does not cancel a request.** For every interleaving of the two,
cut into what came before (`first`) and after (`rest`) some moment:

* if the request's `set` was complete before the logout had read the keys, then
  its entry is gone after the logout, and with a cache that lists its keys
  everything is;
* if the logout had emptied the cache before the request stored its entry, the
  entry is there;
* if the cookie was saved before the logout was over, it is gone after it;
* if the logout was over before the cookie was saved, it is there. -/
theorem logout_race (S : Setup) (sh : Shared) (f : Flight) (first rest : List RaceOp) :
    let before := (Race.machine S).run (Race.start sh f) first
    let after := (Race.machine S).run before rest
    (∀ e now, before.stored = some (e, now) → before.task = none → before.logout.Unread →
      after.logout = .finished → ∀ key, S.manager.keyManifest = none ∨ key = e.key →
        after.shared.store.holdsToken key = false) ∧
    (before.stored = none → before.logout.Emptied → ∀ e now, after.stored = some (e, now) →
      (∀ cid, S.manager.keyManifest = some cid → Cache.manifestKey cid ≠ e.key) →
      (after.shared.store.get e.key).map Cache.Cell.value =
        some (.wrapped (Cache.wrapCacheEntry e now))) ∧
    (before.saved = true → before.logout ≠ .finished → after.logout = .finished →
      after.shared.isAuthenticated = false) ∧
    (before.saved = false → before.logout = .finished → after.saved = true →
      after.shared.isAuthenticated = true) := by
  have hordered : Race.Ordered S ((Race.machine S).run (Race.start sh f) first) :=
    Race.run_keeps (fun _ op h => h.step op) (Race.ordered_start S sh f) first
  refine ⟨?_, ?_, ?_, ?_⟩
  · -- stored before the keys were read: the key is among them
    intro e now hstored htask hunread hfinished key hkey
    have hdoomed := Race.run_keeps (fun _ op h => h.step op)
      (hordered.doomed hstored htask hunread hkey) rest
    cases hholds : (((Race.machine S).run ((Race.machine S).run (Race.start sh f) first)
        rest).shared.store.holdsToken key) with
    | false => rfl
    | true =>
      have := hdoomed.doomed hholds
      rw [hfinished] at this
      exact this.elim
  · -- the cache was emptied first: what is stored after that stays
    intro hstored hemptied e now hafter hne
    have hkept : Race.Kept S ((Race.machine S).run (Race.start sh f) first) := by
      refine ⟨hordered, hemptied, ?_⟩
      intro e' now' hs
      rw [hstored] at hs
      cases hs
    exact (Race.run_keeps (fun _ op h => h.step op) hkept rest).kept e now hafter hne
  · -- the last thing the logout does is to remove the cookie
    intro hsaved hnot hfinished
    have hgone : Race.CookieDoomed S ((Race.machine S).run (Race.start sh f) first) :=
      ⟨hordered, hsaved, fun hf => absurd hf hnot⟩
    exact (Race.run_keeps (fun _ op h => h.step op) hgone rest).gone hfinished
  · -- a logout that is over removes no cookie
    intro hsaved hfinished hafter
    have hkept : Race.CookieKept S ((Race.machine S).run (Race.start sh f) first) := by
      refine ⟨hordered, hfinished, ?_⟩
      intro hs
      rw [hsaved] at hs
      cases hs
    exact (Race.run_keeps (fun _ op h => h.step op) hkept rest).kept hafter

/-! ## A login that is overtaken -/

/-- The token response of a login arrives, and the login finishes. -/
def overtakenOps (json : Obj) : List RaceOp :=
  [.request (.tokenAnswer sampleClock (.ok ⟨true, json⟩)), .set sampleClock.nowProvider,
    .request .save]

/-- A popup login that waits for its token response. -/
def overtaken : Race :=
  .start {} (loginFlight sampleLogin .undefined (.str (sampleScope false)))

/-- The logout, with nothing in the cache. -/
theorem run_logout (f : Flight) :
    (Race.machine (sampleSetup false false)).run (.start {} f) [.logout] =
      { shared := {}, flight := f, logout := .finished } := by
  have hcustom : (sampleSetup false false).hasCustomCache = false := rfl
  have hempty : (Shared.logout (sampleSetup false false) {}) = {} := rfl
  simp only [Race.start, Machine.run, Race.machine, Race.step, hcustom, hempty, Bool.false_eq_true,
    if_false]

/-- A login that finishes after the logout. -/
theorem run_overtaken {json : Obj} {e : CacheEntry}
    (hjson : json.without ["error", "error_description"] = json)
    (hfin : sampleLogin.finish (sampleSetup false false).client (sampleSetup false false).browser
      sampleClock json = .ok e) :
    (Race.machine (sampleSetup false false)).run overtaken ([.logout] ++ overtakenOps json) =
      { shared :=
          { store := ({} : Store).put e.key
              (.wrapped (Cache.wrapCacheEntry e sampleClock.nowProvider))
            isAuthenticated := true }
        flight := (loginFlight sampleLogin .undefined (.str (sampleScope false))).goTo
          (.settled (.ok ⟨.ofEntry false e, some json⟩))
        logout := .finished
        stored := some (e, sampleClock.nowProvider)
        saved := true } := by
  have hworker : (sampleSetup false false).hasWorker = false := rfl
  have hmanifest : (sampleSetup false false).manager.keyManifest = none := rfl
  unfold overtaken
  rw [Machine.run_append, run_logout]
  simp only [overtakenOps, Machine.run, Race.machine, Race.step, Race.request, Race.setStep,
    loginFlight, hmanifest, hworker, hjson, hfin, Flight.step, Flight.exchangeAnswer, Flight.receive, Flight.goTo, Flight.store,
    Flight.leave, Cache.Manager.advance, Task.stepListing, Task.isFinished, Bool.false_eq_true,
    if_false, if_true, Option.getD_none, CacheEntry.key]

/-- The response of the overtaken login, and its entry. -/
def overtakenResponse : Obj := sampleResponse "access" .undefined

def overtakenEntry : CacheEntry := sampleStored false overtakenResponse

theorem overtaken_finish :
    sampleLogin.finish (sampleSetup false false).client (sampleSetup false false).browser
      sampleClock overtakenResponse = .ok overtakenEntry :=
  sample_finish false false rfl

/-- The login finishes after the logout, with its entry and the cookie. -/
theorem overtaken_login_stays :
    let after := (Race.machine (sampleSetup false false)).run overtaken
      ([.logout] ++ overtakenOps overtakenResponse)
    (∃ r, after.flight.stage = .settled r) ∧ after.logout = .finished ∧
      after.shared.store.holdsToken overtakenEntry.key = true ∧
      after.shared.isAuthenticated = true := by
  dsimp only
  rw [run_overtaken rfl overtaken_finish]
  refine ⟨⟨_, rfl⟩, rfl, ?_, rfl⟩
  rw [Cache.Concurrent.holdsToken_put, if_pos rfl]
  rfl

/-- The same, from what is known of every race. -/
theorem logout_race_overtaken :
    let after := (Race.machine (sampleSetup false false)).run overtaken
      ([.logout] ++ overtakenOps overtakenResponse)
    (after.shared.store.get overtakenEntry.key).map Cache.Cell.value =
        some (.wrapped (Cache.wrapCacheEntry overtakenEntry sampleClock.nowProvider)) ∧
      after.shared.isAuthenticated = true := by
  have hrun := run_overtaken rfl overtaken_finish
  have hbefore := run_logout (loginFlight sampleLogin .undefined (.str (sampleScope false)))
  have hmanifest : (sampleSetup false false).manager.keyManifest = none := rfl
  obtain ⟨-, hstays, -, hcookie⟩ := logout_race (sampleSetup false false) {}
    (loginFlight sampleLogin .undefined (.str (sampleScope false))) [.logout]
    (overtakenOps overtakenResponse)
  unfold overtaken at hrun ⊢
  rw [Machine.run_append, hbefore] at hrun
  rw [hbefore, hrun] at hstays hcookie
  dsimp only
  rw [Machine.run_append, hbefore, hrun]
  refine ⟨hstays rfl trivial _ _ rfl ?_, hcookie rfl rfl rfl⟩
  intro cid hcid
  rw [hmanifest] at hcid
  cases hcid

end AuthokSpa
