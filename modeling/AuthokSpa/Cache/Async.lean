import AuthokSpa.Cache.ManifestSync

/-!
# Concurrent calls over an asynchronous cache

With a cache whose `get`, `set` and `remove` return promises, `CacheManager.set`
and `clear` are not whole any more: every `await` of a cache operation is a
point where other calls go on. A `Task` is such a call, cut at these points; the
steps of any number of tasks interleave in any order. The tasks may belong to
several managers: all that managers of one client id share is the cache.

`set` stores the entry and then reads the manifest, adds its key to what it has
read and writes the result back, whatever the manifest is by then; `clear`
removes the keys it has read and at the end the whole manifest. `Careful` is the
condition that no such write takes the key of a stored entry off the list, and
`async_all_listed` the statement for every run whose steps meet it.
-/

namespace AuthokSpa.Cache

open Js (setAdd setFrom mem_setAdd)

/-- A call, by the cache operation it does next. -/
inductive Task where
  /-- `set`: store the entry. -/
  | storing (e : CacheEntry)
  /-- `add`: read the manifest. -/
  | adding (key : String)
  /-- `add`: write the manifest, which was read as `keys`. -/
  | writing (key : String) (keys : List String)
  /-- `clear`: read the keys. -/
  | clearing (clientId : Option String)
  /-- `clear`: remove the keys one by one, then the manifest. -/
  | removing (keys : List String)
  | finished

namespace Task

/-- One cache operation of a task, with a manifest. -/
def step (cid : String) (now : Js.Num) (s : Store) : Task → Store × Task
  | .storing e =>
    (s.put (CacheKey.ofEntry e).toKey (.wrapped (wrapCacheEntry e now)),
      .adding (CacheKey.ofEntry e).toKey)
  -- the list is read here and written by the next operation
  | .adding key => (s, .writing key (setFrom (listed cid s)))
  | .writing key keys => (s.put (manifestKey cid) (.manifest (setAdd keys key)), .finished)
  | .clearing clientId =>
    match manifestKeys cid s with
    | none => (s, .finished)
    | some keys => (s, .removing (Manager.keysToClear clientId keys))
  | .removing [] => (manifestClear cid s, .finished)
  | .removing (key :: keys) => (s.remove key, .removing keys)
  | .finished => (s, .finished)

/-- The same over a cache that lists its keys, where there is no manifest. -/
def stepListing (now : Js.Num) (s : Store) : Task → Store × Task
  | .storing e =>
    (s.put (CacheKey.ofEntry e).toKey (.wrapped (wrapCacheEntry e now)), .finished)
  | .clearing clientId => (s, .removing (Manager.keysToClear clientId s.allKeys))
  | .removing (key :: keys) => (s.remove key, .removing keys)
  | _ => (s, .finished)

/-- The steps of a task that is not interrupted. -/
def alone (cid : String) (now : Js.Num) : Nat → Store × Task → Store × Task
  | 0, x => x
  | n + 1, x => alone cid now n (x.2.step cid now x.1)

/-- The key the task will still put on the manifest. -/
def willAdd : Task → Option String
  | .storing e => some (CacheKey.ofEntry e).toKey
  | .adding key => some key
  | .writing key _ => some key
  | _ => none

def isFinished : Task → Bool
  | .finished => true
  | _ => false

/-! ## Tasks that are not interrupted -/

section Alone

variable {m : Manager} {cid : String} (hm : m.keyManifest = some cid) (now : Js.Num) (s : Store)

theorem alone_removing (keys : List String) :
    alone cid now (keys.length + 1) (s, .removing keys) =
      (manifestClear cid (Manager.removeAll keys s), .finished) := by
  induction keys generalizing s with
  | nil => rfl
  | cons key keys ih => exact ih (s.remove key)

include hm

/-- The whole of `set`. -/
theorem alone_set (e : CacheEntry) :
    alone cid now 3 (s, .storing e) = (m.set e now s, .finished) := by
  unfold Manager.set
  simp only [hm]
  rfl

/-- The whole of `clear`. -/
theorem alone_clear (clientId : Option String) :
    ∃ n, alone cid now n (s, .clearing clientId) = (m.clear clientId s, .finished) := by
  have hkeys : m.getCacheKeys s = manifestKeys cid s := by
    unfold Manager.getCacheKeys
    rw [hm]
  unfold Manager.clear
  rw [hkeys]
  cases hlist : manifestKeys cid s with
  | none =>
    refine ⟨1, ?_⟩
    simp only [alone, step, hlist]
  | some keys =>
    refine ⟨(Manager.keysToClear clientId keys).length + 1 + 1, ?_⟩
    -- one operation reads the keys, one each removes them, the last one the manifest
    have hstep : alone cid now ((Manager.keysToClear clientId keys).length + 1 + 1)
        (s, .clearing clientId) = alone cid now ((Manager.keysToClear clientId keys).length + 1)
          (s, .removing (Manager.keysToClear clientId keys)) := by
      rw [alone]
      simp only [step, hlist]
    rw [hstep, alone_removing]
    simp only [hm]

end Alone

end Task

/-! ## Interleavings -/

/-- A token entry is stored under the key. -/
def Store.holdsToken (s : Store) (key : String) : Bool :=
  match s.get key with
  | some c => decide c.value.IsToken
  | none => false

/-- A cache with the tasks at work on it. -/
structure Concurrent where
  store : Store := {}
  tasks : List Task := []

inductive ConcurrentOp where
  | set (e : CacheEntry)
  | clear (clientId : Option String)
  /-- The task `i` does its next cache operation. -/
  | advance (i : Nat) (now : Js.Num)

namespace Concurrent

def step (cid : String) (s : Concurrent) : ConcurrentOp → Concurrent
  | .set e => { s with tasks := s.tasks ++ [.storing e] }
  | .clear clientId => { s with tasks := s.tasks ++ [.clearing clientId] }
  | .advance i now =>
    match s.tasks[i]? with
    | some t =>
      let r := t.step cid now s.store
      ⟨r.1, s.tasks.set i r.2⟩
    | none => s

def machine (cid : String) : Machine Concurrent ConcurrentOp Unit where
  step s op := (s.step cid op, ())

/-- Every token entry in the store is listed. -/
def AllListed (cid : String) (s : Concurrent) : Prop :=
  ∀ key, s.store.holdsToken key = true → key ∈ listed cid s.store

/-- A task other than `i` will put the key on the manifest. -/
def pendingElse (s : Concurrent) (i : Nat) (key : String) : Bool :=
  (s.tasks.eraseIdx i).any fun t => decide (t.willAdd = some key)

/-- The task does not take the key of a stored entry off the manifest for good:
when it writes the manifest it has read all such keys, when it removes the
manifest there are none. -/
def CarefulTask (cid : String) (s : Concurrent) (i : Nat) : Task → Prop
  | .writing key keys => ∀ key' ∈ listed cid s.store, s.store.holdsToken key' = true →
    key' ∈ keys ∨ key' = key ∨ s.pendingElse i key' = true
  | .removing [] => ∀ key' ∈ listed cid s.store, s.store.holdsToken key' = true →
    s.pendingElse i key' = true
  | _ => True

/-- The condition on a step. An entry is not stored under the manifest's own key. -/
def Careful (cid : String) (s : Concurrent) : ConcurrentOp → Prop
  | .set e => (CacheKey.ofEntry e).toKey ≠ manifestKey cid
  | .clear _ => True
  | .advance i _ => ∀ t ∈ s.tasks[i]?, s.CarefulTask cid i t

instance (cid : String) (s : Concurrent) (i : Nat) : (t : Task) → Decidable (s.CarefulTask cid i t)
  | .writing key keys =>
    inferInstanceAs (Decidable (∀ key' ∈ listed cid s.store, s.store.holdsToken key' = true →
      key' ∈ keys ∨ key' = key ∨ s.pendingElse i key' = true))
  | .removing [] =>
    inferInstanceAs (Decidable (∀ key' ∈ listed cid s.store, s.store.holdsToken key' = true →
      s.pendingElse i key' = true))
  | .removing (_ :: _) => isTrue trivial
  | .storing _ => isTrue trivial
  | .adding _ => isTrue trivial
  | .clearing _ => isTrue trivial
  | .finished => isTrue trivial

instance (cid : String) (s : Concurrent) : (op : ConcurrentOp) → Decidable (s.Careful cid op)
  | .set e => inferInstanceAs (Decidable ((CacheKey.ofEntry e).toKey ≠ manifestKey cid))
  | .clear _ => isTrue trivial
  | .advance i _ => inferInstanceAs (Decidable (∀ t ∈ s.tasks[i]?, s.CarefulTask cid i t))

end Concurrent

/-! ## The invariant -/

/-- The task does not touch the manifest as if it were a token entry. -/
def Task.Apart (cid : String) : Task → Prop
  | .storing e => (CacheKey.ofEntry e).toKey ≠ manifestKey cid
  | .adding key => key ≠ manifestKey cid
  | .writing key keys => key ≠ manifestKey cid ∧ manifestKey cid ∉ keys
  | .clearing _ => True
  | .removing keys => manifestKey cid ∉ keys
  | .finished => True

namespace Concurrent

/-- The manifest is not listed itself, and no token entry is in its place. -/
structure Separate (cid : String) (s : Store) : Prop where
  list : manifestKey cid ∉ listed cid s
  own : s.holdsToken (manifestKey cid) = false

/-- Every stored key is listed, or some task will put it on the manifest. -/
structure Inv (cid : String) (s : Concurrent) : Prop where
  separate : Separate cid s.store
  apart : ∀ t ∈ s.tasks, t.Apart cid
  covered : ∀ key, s.store.holdsToken key = true → key ∈ listed cid s.store ∨
    ∃ t ∈ s.tasks, t.willAdd = some key

variable {cid : String} {s : Concurrent}

theorem mem_set_of_mem_eraseIdx {i : Nat} {t t' : Task} {tasks : List Task}
    (h : t ∈ tasks.eraseIdx i) : t ∈ tasks.set i t' := by
  obtain ⟨j, hj, hget⟩ := List.mem_eraseIdx_iff_getElem?.mp h
  exact List.mem_of_getElem? (by rw [List.getElem?_set_ne (fun h => hj h.symm)]; exact hget)

/-- A task is the one at `i`, or one of the others. -/
theorem eq_or_mem_eraseIdx {i : Nat} {t t' : Task} {tasks : List Task} (hi : tasks[i]? = some t)
    (h : t' ∈ tasks) : t' = t ∨ t' ∈ tasks.eraseIdx i := by
  obtain ⟨j, hj⟩ := List.mem_iff_getElem?.mp h
  by_cases hji : j = i
  · subst hji
    rw [hi] at hj
    exact Or.inl (Option.some.inj hj).symm
  · exact Or.inr (List.mem_eraseIdx_iff_getElem?.mpr ⟨j, hji, hj⟩)

theorem pendingElse_iff {i : Nat} {key : String} :
    s.pendingElse i key = true ↔ ∃ t ∈ s.tasks.eraseIdx i, t.willAdd = some key := by
  unfold pendingElse
  rw [List.any_eq_true]
  simp only [decide_eq_true_eq]

theorem holdsToken_put (store : Store) (key key' : String) (v : Cacheable) :
    (store.put key v).holdsToken key' =
      if key = key' then decide v.IsToken else store.holdsToken key' := by
  unfold Store.holdsToken
  rw [Store.get_put]
  by_cases h : key = key'
  · rw [if_pos h, if_pos h]
  · rw [if_neg h, if_neg h]

theorem holdsToken_remove (store : Store) (key key' : String) :
    (store.remove key).holdsToken key' =
      if key = key' then false else store.holdsToken key' := by
  unfold Store.holdsToken
  rw [Store.get_remove]
  by_cases h : key = key'
  · rw [if_pos h, if_pos h]
  · rw [if_neg h, if_neg h]

/-- A new task. -/
theorem Inv.call (h : Inv cid s) {t : Task} (ht : t.Apart cid) :
    Inv cid { s with tasks := s.tasks ++ [t] } := by
  refine ⟨h.separate, ?_, ?_⟩
  · intro t' ht'
    rcases List.mem_append.mp ht' with hold | hnew
    · exact h.apart t' hold
    · obtain rfl := List.mem_singleton.mp hnew
      exact ht
  · intro key hkey
    rcases h.covered key hkey with hl | ⟨t', ht', hadd⟩
    · exact Or.inl hl
    · exact Or.inr ⟨t', List.mem_append_left _ ht', hadd⟩

/-- A step of the task at `i`: its new stage is apart, and every key stored
afterwards is listed, its own to add, or was covered without it. -/
theorem Inv.advanced (h : Inv cid s) {i : Nat} {t t' : Task} {store : Store}
    (hi : s.tasks[i]? = some t) (hseparate : Separate cid store) (ht' : t'.Apart cid)
    (hcovered : ∀ key, store.holdsToken key = true →
      key ∈ listed cid store ∨ t'.willAdd = some key ∨ s.pendingElse i key = true) :
    Inv cid ⟨store, s.tasks.set i t'⟩ := by
  have hlen : i < s.tasks.length := (List.getElem?_eq_some_iff.mp hi).1
  refine ⟨hseparate, ?_, ?_⟩
  · intro r hr
    rcases List.mem_or_eq_of_mem_set hr with hold | rfl
    · exact h.apart r hold
    · exact ht'
  · intro key hkey
    rcases hcovered key hkey with hl | hown | helse
    · exact Or.inl hl
    · exact Or.inr ⟨t', List.mem_of_getElem? (List.getElem?_set_self hlen), hown⟩
    · obtain ⟨r, hr, hadd⟩ := pendingElse_iff.mp helse
      exact Or.inr ⟨r, mem_set_of_mem_eraseIdx hr, hadd⟩

/-- What was covered before, seen from the task at `i`. -/
theorem Inv.covered_by (h : Inv cid s) {i : Nat} {t : Task} (hi : s.tasks[i]? = some t)
    {key : String} (hkey : s.store.holdsToken key = true) :
    key ∈ listed cid s.store ∨ t.willAdd = some key ∨ s.pendingElse i key = true := by
  rcases h.covered key hkey with hl | ⟨r, hr, hadd⟩
  · exact Or.inl hl
  · rcases eq_or_mem_eraseIdx hi hr with rfl | helse
    · exact Or.inr (Or.inl hadd)
    · exact Or.inr (Or.inr (pendingElse_iff.mpr ⟨r, helse, hadd⟩))

theorem mem_of_mem_keysToClear {clientId : Option String} {keys : List String} {key : String}
    (h : key ∈ Manager.keysToClear clientId keys) : key ∈ keys := by
  unfold Manager.keysToClear at h
  split at h
  · split at h
    · exact h
    · exact (List.mem_filter.mp h).1
  · exact h

theorem listed_remove_manifest (cid : String) (store : Store) :
    listed cid (store.remove (manifestKey cid)) = [] := by
  unfold listed manifestKeys
  rw [Store.get_remove, if_pos rfl]
  rfl

/-- One cache operation. -/
theorem Inv.advance (h : Inv cid s) {i : Nat} {now : Js.Num} {t : Task} (hi : s.tasks[i]? = some t)
    (hcareful : Careful cid s (.advance i now)) :
    Inv cid ⟨(t.step cid now s.store).1, s.tasks.set i (t.step cid now s.store).2⟩ := by
  have hapart := h.apart t (List.mem_of_getElem? hi)
  have hcareful : s.CarefulTask cid i t := hcareful t hi
  cases t with
  | storing e =>
    have hne : (CacheKey.ofEntry e).toKey ≠ manifestKey cid := hapart
    have hl : listed cid (s.store.put (CacheKey.ofEntry e).toKey
        (.wrapped (wrapCacheEntry e now))) = listed cid s.store :=
      listed_congr (by rw [Store.get_put, if_neg hne])
    refine h.advanced hi ⟨?_, ?_⟩ hne ?_
    · rw [Task.step, hl]
      exact h.separate.list
    · rw [Task.step, holdsToken_put, if_neg hne]
      exact h.separate.own
    · intro key hkey
      rw [Task.step, holdsToken_put] at hkey
      rw [Task.step, hl]
      by_cases hk : (CacheKey.ofEntry e).toKey = key
      · exact Or.inr (Or.inl (congrArg some hk))
      · rw [if_neg hk] at hkey
        exact h.covered_by hi hkey
  | adding key =>
    refine h.advanced hi h.separate ⟨hapart, ?_⟩ fun key' hkey => h.covered_by hi hkey
    rw [Js.mem_setFrom]
    exact h.separate.list
  | writing key keys =>
    -- the only step that replaces the list
    refine h.advanced hi ⟨?_, ?_⟩ trivial ?_
    · rw [Task.step, listed_put_manifest, mem_setAdd]
      rintro (hk | hk)
      · exact hapart.1 hk.symm
      · exact hapart.2 hk
    · rw [Task.step, holdsToken_put, if_pos rfl]
      rfl
    · intro key' hkey
      rw [Task.step, holdsToken_put] at hkey
      rw [Task.step, listed_put_manifest, mem_setAdd]
      by_cases hk : manifestKey cid = key'
      · rw [if_pos hk] at hkey
        cases hkey
      · rw [if_neg hk] at hkey
        rcases h.covered_by hi hkey with hl | hadd | helse
        · rcases hcareful key' hl hkey with hread | hown | helse
          · exact Or.inl (Or.inr hread)
          · exact Or.inl (Or.inl hown)
          · exact Or.inr (Or.inr helse)
        · exact Or.inl (Or.inl (Option.some.inj hadd).symm)
        · exact Or.inr (Or.inr helse)
  | clearing clientId =>
    have hsame : (Task.step cid now s.store (.clearing clientId)).1 = s.store := by
      unfold Task.step
      cases manifestKeys cid s.store with
      | none => rfl
      | some keys => rfl
    have happly : (Task.step cid now s.store (.clearing clientId)).2.Apart cid := by
      unfold Task.step
      cases hkeys : manifestKeys cid s.store with
      | none => trivial
      | some keys =>
        intro hmem
        refine h.separate.list ?_
        unfold listed
        rw [hkeys]
        exact mem_of_mem_keysToClear hmem
    rw [hsame]
    refine h.advanced hi h.separate happly fun key hkey => ?_
    rcases h.covered_by hi hkey with hl | hadd | helse
    · exact Or.inl hl
    · cases hadd
    · exact Or.inr (Or.inr helse)
  | removing keys =>
    cases keys with
    | nil =>
      refine h.advanced hi ⟨?_, ?_⟩ trivial ?_
      · rw [Task.step, manifestClear, listed_remove_manifest]
        exact List.not_mem_nil
      · rw [Task.step, manifestClear, holdsToken_remove, if_pos rfl]
      · intro key hkey
        rw [Task.step, manifestClear, holdsToken_remove] at hkey
        by_cases hk : manifestKey cid = key
        · rw [if_pos hk] at hkey
          cases hkey
        · rw [if_neg hk] at hkey
          rcases h.covered_by hi hkey with hl | hadd | helse
          · exact Or.inr (Or.inr (hcareful key hl hkey))
          · cases hadd
          · exact Or.inr (Or.inr helse)
    | cons key keys =>
      have hne : key ≠ manifestKey cid := fun hk => hapart (hk ▸ List.mem_cons_self ..)
      have hl : listed cid (s.store.remove key) = listed cid s.store :=
        listed_congr (by rw [Store.get_remove, if_neg hne])
      refine h.advanced hi ⟨?_, ?_⟩ (fun hmem => hapart (List.mem_cons_of_mem _ hmem)) ?_
      · rw [Task.step, hl]
        exact h.separate.list
      · rw [Task.step, holdsToken_remove, if_neg hne]
        exact h.separate.own
      · intro key' hkey
        rw [Task.step, holdsToken_remove] at hkey
        rw [Task.step, hl]
        by_cases hk : key = key'
        · rw [if_pos hk] at hkey
          cases hkey
        · rw [if_neg hk] at hkey
          rcases h.covered_by hi hkey with hl | hadd | helse
          · exact Or.inl hl
          · cases hadd
          · exact Or.inr (Or.inr helse)
  | finished =>
    exact h.advanced hi h.separate trivial fun key hkey => h.covered_by hi hkey

/-- One step. -/
theorem Inv.step (h : Inv cid s) {op : ConcurrentOp} (hcareful : Careful cid s op) :
    Inv cid (s.step cid op) := by
  cases op with
  | set e => exact h.call hcareful
  | clear clientId => exact h.call trivial
  | advance i now =>
    unfold Concurrent.step
    dsimp only
    split
    next t hi => exact h.advance hi hcareful
    next => exact h

end Concurrent

/-- **No lost manifest update**, for runs whose steps are careful: from any
cache in which every entry is listed, whenever all calls have completed, every
entry in the cache is listed. -/
theorem async_all_listed {cid : String} {s : Store} (hseparate : Concurrent.Separate cid s)
    (hlisted : Concurrent.AllListed cid ⟨s, []⟩) {ops : List ConcurrentOp}
    (hops : (Concurrent.machine cid).Meets (Concurrent.Careful cid) ⟨s, []⟩ ops)
    (hdone : ∀ t ∈ ((Concurrent.machine cid).run ⟨s, []⟩ ops).tasks, t.isFinished = true) :
    Concurrent.AllListed cid ((Concurrent.machine cid).run ⟨s, []⟩ ops) := by
  have hstart : Concurrent.Inv cid ⟨s, []⟩ :=
    ⟨hseparate, fun t ht => (nomatch ht), fun key hkey => Or.inl (hlisted key hkey)⟩
  have hinv : Concurrent.Inv cid ((Concurrent.machine cid).run ⟨s, []⟩ ops) :=
    Machine.run_guarded (P := Concurrent.Inv cid) (fun _ _ hs hc => hs.step hc) ops _ hstart hops
  intro key hkey
  rcases hinv.covered key hkey with hl | ⟨t, ht, hadd⟩
  · exact hl
  · cases t with
    | finished => cases hadd
    | _ => cases hdone _ ht

/-! ## Two sets at once -/

/-- Two sets overlap, but the second one reads the manifest when the first one
has written it; then a clear. -/
def carefulOps : List ConcurrentOp :=
  [.set (sampleEntry "a" 100 .undefined), .set (sampleEntry "b" 100 .undefined),
    .advance 0 (.fin 0), .advance 1 (.fin 0), .advance 0 (.fin 0), .advance 0 (.fin 0),
    .advance 1 (.fin 0), .advance 1 (.fin 0), .clear none, .advance 2 (.fin 0),
    .advance 2 (.fin 0), .advance 2 (.fin 0), .advance 2 (.fin 0)]

theorem async_all_listed_overlapping :
    (Concurrent.machine "client").Meets (Concurrent.Careful "client") {} carefulOps ∧
      Concurrent.AllListed "client" ((Concurrent.machine "client").run {} carefulOps) := by
  have hseparate : Concurrent.Separate "client" {} := ⟨by decide, by decide⟩
  have hlisted : Concurrent.AllListed "client" {} := fun key hkey => (nomatch hkey)
  have hmeets : (Concurrent.machine "client").Meets (Concurrent.Careful "client") {} carefulOps := by
    decide
  exact ⟨hmeets, async_all_listed hseparate hlisted hmeets (by decide)⟩

/-- The same two sets, but both read the manifest before either writes it. -/
def racingOps : List ConcurrentOp :=
  [.set (sampleEntry "a" 100 .undefined), .set (sampleEntry "b" 100 .undefined),
    .advance 0 (.fin 0), .advance 1 (.fin 0), .advance 0 (.fin 0), .advance 1 (.fin 0),
    .advance 0 (.fin 0), .advance 1 (.fin 0)]

/-- The defect: the second write does not have the key of the first, whose entry
is in the cache and not on the manifest. -/
theorem racing_sets_lose_key :
    (∀ t ∈ ((Concurrent.machine "client").run {} racingOps).tasks, t.isFinished = true) ∧
      ¬ Concurrent.AllListed "client" ((Concurrent.machine "client").run {} racingOps) := by
  refine ⟨by decide, fun h => ?_⟩
  have hunlisted : (sampleKey "a").toKey ∉
      listed "client" ((Concurrent.machine "client").run {} racingOps).store := by decide
  exact hunlisted (h _ (by decide))

end AuthokSpa.Cache
