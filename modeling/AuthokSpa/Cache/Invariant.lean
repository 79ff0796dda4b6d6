import AuthokSpa.Cache.Manager

/-!
# Invariants of the store

`Store.Valid` is what every reachable store satisfies whatever the keys are:
keys are bound once, identities are below the counter, and two bindings of one
object show the same value. `All P` says something about every binding; the
rule `step_all` reduces keeping it to four obligations, one for each way the
manager writes: a new entry, the stripping of an object in place, the copy made
for the requested key, and the manifest.
-/

namespace AuthokSpa.Cache

open Js (OrdMap)

/-- The bookkeeping of a store is sound. -/
structure Store.Valid (s : Store) : Prop where
  nodup : s.slots.KeysNodup
  fresh : ∀ b ∈ s.slots, b.2.ref < s.next
  shared : ∀ b ∈ s.slots, ∀ b' ∈ s.slots, b.2.ref = b'.2.ref → b.2.value = b'.2.value

/-- Every binding satisfies `P`. -/
def Store.All (P : String → Cacheable → Prop) (s : Store) : Prop :=
  ∀ b ∈ s.slots, P b.1 b.2.value

instance {P : String → Cacheable → Prop} [∀ key v, Decidable (P key v)] (s : Store) :
    Decidable (s.All P) :=
  inferInstanceAs (Decidable (∀ b ∈ s.slots, P b.1 b.2.value))

theorem Store.valid_empty : ({} : Store).Valid :=
  ⟨List.nodup_nil, by simp, by simp⟩

theorem Store.get_mem {s : Store} {key : String} {c : Cell} (h : s.get key = some c) :
    (key, c) ∈ s.slots :=
  OrdMap.find_mem h

theorem Store.All.get {P : String → Cacheable → Prop} {s : Store} (h : s.All P) {key : String}
    {c : Cell} (hc : s.get key = some c) : P key c.value :=
  h (key, c) (Store.get_mem hc)

/-! ## The four ways to write -/

theorem Store.Valid.put {s : Store} (h : s.Valid) (key : String) (v : Cacheable) :
    (s.put key v).Valid := by
  have hold : ∀ b ∈ (s.put key v).slots, b = (key, ⟨s.next, v⟩) ∨ b ∈ s.slots := by
    intro b hb
    rcases OrdMap.mem_insert h.nodup hb with rfl | ⟨hb', -⟩
    · exact Or.inl rfl
    · exact Or.inr hb'
  refine ⟨OrdMap.keysNodup_insert h.nodup _ _, ?_, ?_⟩
  · intro b hb
    show b.2.ref < s.next + 1
    rcases hold b hb with rfl | hb'
    · exact Nat.lt_succ_self _
    · exact Nat.lt_succ_of_lt (h.fresh b hb')
  · intro b hb b' hb' hr
    rcases hold b hb with rfl | hb1 <;> rcases hold b' hb' with rfl | hb2
    · rfl
    · exact absurd hr (Nat.ne_of_gt (h.fresh b' hb2))
    · exact absurd hr (Nat.ne_of_lt (h.fresh b hb1))
    · exact h.shared b hb1 b' hb2 hr

theorem Store.Valid.remove {s : Store} (h : s.Valid) (key : String) : (s.remove key).Valid := by
  refine ⟨OrdMap.keysNodup_erase h.nodup _, ?_, ?_⟩
  · intro b hb
    exact h.fresh b (OrdMap.mem_erase.mp hb).1
  · intro b hb b' hb' hr
    exact h.shared b (OrdMap.mem_erase.mp hb).1 b' (OrdMap.mem_erase.mp hb').1 hr

/-- A binding after an assignment: of the assigned object, or an old one. -/
theorem Store.mem_assign {s : Store} {ref : Nat} {v : Cacheable} {b : String × Cell}
    (h : b ∈ (s.assign ref v).slots) :
    ∃ b₀ ∈ s.slots, b.1 = b₀.1 ∧ b.2.ref = b₀.2.ref ∧
      ((b₀.2.ref = ref ∧ b.2.value = v) ∨ (b₀.2.ref ≠ ref ∧ b.2.value = b₀.2.value)) := by
  obtain ⟨b₀, hb₀, rfl⟩ := List.mem_map.mp h
  refine ⟨b₀, hb₀, ?_⟩
  by_cases hr : b₀.2.ref = ref
  · rw [if_pos hr]
    exact ⟨rfl, hr.symm, Or.inl ⟨hr, rfl⟩⟩
  · rw [if_neg hr]
    exact ⟨rfl, rfl, Or.inr ⟨hr, rfl⟩⟩

theorem Store.keys_assign (s : Store) (ref : Nat) (v : Cacheable) :
    (s.assign ref v).slots.keys = s.slots.keys := by
  unfold Store.assign OrdMap.keys
  rw [List.map_map]
  refine List.map_congr_left fun b _ => ?_
  show (if b.2.ref = ref then (b.1, (⟨ref, v⟩ : Cell)) else b).1 = b.1
  split <;> rfl

theorem Store.Valid.assign {s : Store} (h : s.Valid) (ref : Nat) (v : Cacheable) :
    (s.assign ref v).Valid := by
  refine ⟨?_, ?_, ?_⟩
  · show ((s.assign ref v).slots.keys).Nodup
    rw [Store.keys_assign]
    exact h.nodup
  · intro b hb
    obtain ⟨b₀, hb₀, -, href, -⟩ := Store.mem_assign hb
    exact href ▸ h.fresh b₀ hb₀
  · intro b hb b' hb' hr
    obtain ⟨b₀, hb₀, -, href, hv⟩ := Store.mem_assign hb
    obtain ⟨b₁, hb₁, -, href', hv'⟩ := Store.mem_assign hb'
    have hr₀ : b₀.2.ref = b₁.2.ref := by rw [← href, ← href', hr]
    rcases hv with ⟨h1, h2⟩ | ⟨h1, h2⟩ <;> rcases hv' with ⟨h3, h4⟩ | ⟨h3, h4⟩
    · rw [h2, h4]
    · exact absurd (hr₀ ▸ h1) h3
    · exact absurd (hr₀ ▸ h3) h1
    · rw [h2, h4]
      exact h.shared b₀ hb₀ b₁ hb₁ hr₀

/-- Binding a second key to an object that is already bound. -/
theorem Store.Valid.bind {s : Store} (h : s.Valid) {key : String} {c : Cell}
    (hc : ∃ key', (key', c) ∈ s.slots) : (s.bind key c).Valid := by
  obtain ⟨key', hmem⟩ := hc
  have hold : ∀ b ∈ (s.bind key c).slots, ∃ b₀ ∈ s.slots, b.2 = b₀.2 := by
    intro b hb
    rcases OrdMap.mem_insert h.nodup hb with rfl | ⟨hb', -⟩
    · exact ⟨_, hmem, rfl⟩
    · exact ⟨b, hb', rfl⟩
  refine ⟨OrdMap.keysNodup_insert h.nodup _ _, ?_, ?_⟩
  · intro b hb
    obtain ⟨b₀, hb₀, he⟩ := hold b hb
    exact he ▸ h.fresh b₀ hb₀
  · intro b hb b' hb' hr
    obtain ⟨b₀, hb₀, he⟩ := hold b hb
    obtain ⟨b₁, hb₁, he'⟩ := hold b' hb'
    rw [he, he'] at hr ⊢
    exact h.shared b₀ hb₀ b₁ hb₁ hr

theorem Store.All.put {P : String → Cacheable → Prop} {s : Store} (hs : s.Valid) (h : s.All P)
    {key : String} {v : Cacheable} (hv : P key v) : (s.put key v).All P := by
  intro b hb
  rcases OrdMap.mem_insert hs.nodup hb with rfl | ⟨hb', -⟩
  · exact hv
  · exact h b hb'

theorem Store.All.remove {P : String → Cacheable → Prop} {s : Store} (h : s.All P) (key : String) :
    (s.remove key).All P :=
  fun b hb => h b (OrdMap.mem_erase.mp hb).1

/-! ## The manager's writes -/

section Manager

variable {m : Manager} {P : String → Cacheable → Prop} {s : Store}

theorem removeAll_valid (hs : s.Valid) (keys : List String) :
    (Manager.removeAll keys s).Valid := by
  unfold Manager.removeAll
  induction keys generalizing s with
  | nil => exact hs
  | cons key keys ih => exact ih (hs.remove key)

theorem removeAll_all (h : s.All P) (keys : List String) : (Manager.removeAll keys s).All P := by
  unfold Manager.removeAll
  induction keys generalizing s with
  | nil => exact h
  | cons key keys ih => exact ih (h.remove key)

/-- The object that was read is still bound after the assignment to it. -/
theorem mem_assign_self {key : String} {c : Cell} (hc : s.get key = some c) (v : Cacheable) :
    (key, (⟨c.ref, v⟩ : Cell)) ∈ (s.assign c.ref v).slots := by
  refine List.mem_map.mpr ⟨(key, c), Store.get_mem hc, ?_⟩
  rw [if_pos rfl]

theorem stripUnder_valid (hs : s.Valid) {key key' : String} {c : Cell}
    (hc : s.get key' = some c) (w : WrappedCacheEntry) : (m.stripUnder key c w s).Valid := by
  unfold Manager.stripUnder
  split
  · exact (hs.assign _ _).bind ⟨key', mem_assign_self hc _⟩
  · exact hs.put _ _

/-- Stripping keeps `P` when stripping in place does and the copy satisfies it. -/
theorem stripUnder_all (hs : s.Valid) (h : s.All P) {key key' : String} {c : Cell}
    {w : WrappedCacheEntry} (hc : s.get key' = some c) (hw : c.value = .wrapped w)
    (hstrip : ∀ k, P k (.wrapped w) → P k (.wrapped w.strip)) (hcopy : P key (.wrapped w.strip)) :
    (m.stripUnder key c w s).All P := by
  unfold Manager.stripUnder
  split
  · intro b hb
    rcases OrdMap.mem_insert (hs.assign _ _).nodup hb with rfl | ⟨hb', -⟩
    · exact hcopy
    · obtain ⟨b₀, hb₀, hk, -, ⟨hr, hv⟩ | ⟨-, hv⟩⟩ := Store.mem_assign hb'
      · -- an alias of the object that was read: it showed `w`, it shows the stripped `w`
        have hval : b₀.2.value = .wrapped w := by
          rw [← hw]
          exact hs.shared b₀ hb₀ (key', c) (Store.get_mem hc) hr
        rw [hk, hv]
        exact hstrip _ (hval ▸ h b₀ hb₀)
      · rw [hk, hv]
        exact h b₀ hb₀
  · exact h.put hs hcopy

theorem dropUnder_valid (hs : s.Valid) (key : String) : (m.dropUnder key s).Valid := by
  unfold Manager.dropUnder
  split
  · unfold manifestRemove
    split
    · exact hs.remove _
    · split
      · exact (hs.remove _).remove _
      · exact (hs.remove _).put _ _
  · exact hs.remove _

theorem dropUnder_all (hs : s.Valid) (h : s.All P)
    (hman : ∀ cid keys, m.keyManifest = some cid → P (manifestKey cid) (.manifest keys))
    (key : String) : (m.dropUnder key s).All P := by
  unfold Manager.dropUnder
  split
  next cid hcid =>
    unfold manifestRemove
    split
    · exact h.remove _
    · split
      · exact (h.remove _).remove _
      · exact (h.remove _).put (hs.remove _) (hman cid _ hcid)
  next => exact h.remove _

theorem set_valid (hs : s.Valid) (e : CacheEntry) (now : Js.Num) : (m.set e now s).Valid := by
  unfold Manager.set
  cases m.keyManifest with
  | none => exact hs.put _ _
  | some cid => exact (hs.put _ _).put _ _

theorem set_all (hs : s.Valid) (h : s.All P)
    (hman : ∀ cid keys, m.keyManifest = some cid → P (manifestKey cid) (.manifest keys))
    {e : CacheEntry} {now : Js.Num}
    (hnew : P (CacheKey.ofEntry e).toKey (.wrapped (wrapCacheEntry e now))) :
    (m.set e now s).All P := by
  unfold Manager.set
  cases hcid : m.keyManifest with
  | none => exact h.put hs hnew
  | some cid => exact (h.put hs hnew).put (hs.put _ _) (hman cid _ hcid)

theorem clear_valid (hs : s.Valid) (clientId : Option String) : (m.clear clientId s).Valid := by
  unfold Manager.clear
  split
  · exact hs
  · cases m.keyManifest with
    | none => exact removeAll_valid hs _
    | some cid => exact (removeAll_valid hs _).remove _

theorem clear_all (h : s.All P) (clientId : Option String) : (m.clear clientId s).All P := by
  unfold Manager.clear
  split
  · exact h
  · cases m.keyManifest with
    | none => exact removeAll_all h _
    | some cid => exact (removeAll_all h _).remove _

theorem get_valid (hs : s.Valid) (k : CacheKey) (adj now : Js.Num) :
    (m.get k adj now s).1.Valid := by
  rcases m.get_cases k adj now s with hg | ⟨c, w, hfind, -, ⟨-, hg⟩ | ⟨-, -, hg⟩ | ⟨-, -, hg⟩⟩
  · rw [hg]; exact hs
  · rw [hg]; exact hs
  · obtain ⟨key', hc, -⟩ := m.findEntry_mem hfind
    rw [hg]; exact stripUnder_valid hs hc w
  · rw [hg]; exact dropUnder_valid hs _

/-- A `get` keeps `P` when `P` survives stripping, and passes from the key an
entry is found under to the requested one. -/
theorem get_all (hs : s.Valid) (h : s.All P)
    (hman : ∀ cid keys, m.keyManifest = some cid → P (manifestKey cid) (.manifest keys))
    (hstrip : ∀ key w, P key (.wrapped w) → P key (.wrapped w.strip)) {k : CacheKey}
    (hcopy : ∀ key w, P key (.wrapped w) → (key = k.toKey ∨ matchesKey k key = true) →
      P k.toKey (.wrapped w.strip)) (adj now : Js.Num) :
    (m.get k adj now s).1.All P := by
  rcases m.get_cases k adj now s with hg | ⟨c, w, hfind, hw, ⟨-, hg⟩ | ⟨-, -, hg⟩ | ⟨-, -, hg⟩⟩
  · rw [hg]; exact h
  · rw [hg]; exact h
  · obtain ⟨key', hc, hkey⟩ := m.findEntry_mem hfind
    rw [hg]
    exact stripUnder_all hs h hc hw (fun k' => hstrip k' w) (hcopy key' w (hw ▸ h.get hc) hkey)
  · rw [hg]; exact dropUnder_all hs h hman _

/-- Every step keeps the bookkeeping sound. -/
theorem step_valid (hs : s.Valid) (op : Op) : (m.machine.step s op).1.Valid := by
  cases op with
  | set e now => exact set_valid hs e now
  | get k adj now => exact get_valid hs k adj now
  | clear clientId => exact clear_valid hs clientId

/-- Every store reached from a sound one is sound. -/
theorem run_valid (ops : List Op) (hs : s.Valid) : (m.machine.run s ops).Valid :=
  Machine.run_history (P := fun _ s => Store.Valid s) hs ops (fun _ op _ _ h => step_valid h op)

end Manager

end AuthokSpa.Cache
