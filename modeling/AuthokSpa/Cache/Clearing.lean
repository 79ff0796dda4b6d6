import AuthokSpa.Cache.Backends
import AuthokSpa.Cache.Completeness

/-!
# What clearing removes (`cache-manager.ts`)

`clear(id)` should take the entries of one client away and leave all others where
they are and as easy to find. It selects the listed keys whose text contains `id`,
and a key has the audience and the scopes in its text too, so an entry of another
client can be among them (and, in a cache that lists other keys than the SDK's, a key
that is none of the SDK's business). With a manifest it forgets the whole list, so an
entry that stays is no longer found by some of its scopes. Without an id every listed
key goes, the foreign ones included.

`clears_iff` says exactly when none of that happens, for the entries written by any
calls of `set` into a cache with any foreign keys.
-/

namespace AuthokSpa.Cache

open Js (OrdMap)

/-- The entry stored under a key of the SDK. -/
def Held (s : Store) (key : String) (e : CacheEntry) : Prop :=
  Js.startsWith key CACHE_KEY_PREFIX = true ∧
    ∃ expiresAt, (s.get key).map Cell.value = some (.wrapped ⟨.entry e, expiresAt⟩)

/-- None of the keys is the SDK's. -/
def Foreign (s : Store) : Prop :=
  ∀ key, Js.startsWith key CACHE_KEY_PREFIX = true → s.get key = none

/-- The store after these entries have been set, in turn. -/
def Manager.written (m : Manager) (s : Store) (entries : List (CacheEntry × Js.Num)) : Store :=
  m.machine.run s (entries.map fun w => .set w.1 w.2)

/-- From `s` to `s'` the entries of the client went, and nothing else did. -/
structure ClearsClient (m : Manager) (id : String) (s s' : Store) : Prop where
  removed : ∀ key e, Held s key e → e.client_id = id → s'.get key = none
  kept : ∀ key e, Held s key e → e.client_id ≠ id → s'.get key = s.get key
  foreign : ∀ key, Js.startsWith key CACHE_KEY_PREFIX = false → s'.get key = s.get key
  found : ∀ k key e, m.foundUnder k s = some key → Held s key e → e.client_id ≠ id →
    ∀ adj now, (m.get k adj now s').2 = (m.get k adj now s).2

/-- From `s` to `s'` all entries went, and nothing of others did. -/
structure ClearsAll (s s' : Store) : Prop where
  removed : ∀ key e, Held s key e → s'.get key = none
  foreign : ∀ key, Js.startsWith key CACHE_KEY_PREFIX = false → s'.get key = s.get key

/-- What is listed and contains the id is the client's, what is the client's is listed,
and where a manifest has the list, only the client's entries are found by it. -/
structure SelectsClient (m : Manager) (id : String) (s : Store) : Prop where
  selected : ∀ key ∈ keyList m s, (id = "" ∨ Js.includes key id = true) → s.get key ≠ none →
    Js.startsWith key CACHE_KEY_PREFIX = true ∧ ∀ e, Held s key e → e.client_id = id
  listed : ∀ key e, Held s key e → e.client_id = id → key ∈ keyList m s
  matched : m.keyManifest ≠ none → ∀ k key e, s.get k.toKey = none →
    m.foundUnder k s = some key → Held s key e → e.client_id = id

/-- The list has all the entries, and no key but the SDK's. -/
structure ListsOwn (m : Manager) (s : Store) : Prop where
  own : ∀ key ∈ keyList m s, s.get key ≠ none → Js.startsWith key CACHE_KEY_PREFIX = true
  listed : ∀ key e, Held s key e → key ∈ keyList m s

/-! ## What `set` writes -/

/-- What is known of a store that only `set` has written to: each entry is under its own
key, and under the manifest's key is the manifest. -/
structure Written (m : Manager) (s : Store) : Prop where
  key : ∀ key e, Held s key e → key = (CacheKey.ofEntry e).toKey
  manifest : ∀ cid, m.keyManifest = some cid → ∀ c, s.get (manifestKey cid) = some c →
    ∃ keys, c.value = .manifest keys

variable {m : Manager} {s : Store} {id : String}

theorem Held.get_ne_none {key : String} {e : CacheEntry} (h : Held s key e) : s.get key ≠ none := by
  obtain ⟨-, expiresAt, hvalue⟩ := h
  intro hnone
  rw [hnone] at hvalue
  cases hvalue

theorem startsWith_manifestKey (cid : String) :
    Js.startsWith (manifestKey cid) CACHE_KEY_PREFIX = true := by
  unfold Js.startsWith manifestKey
  rw [decide_eq_true_eq, String.toList_append]
  exact List.prefix_append ..

theorem Written.of_foreign (m : Manager) (h : Foreign s) : Written m s where
  key := fun key _ hheld => absurd (h key hheld.1) hheld.get_ne_none
  manifest := fun cid _ c hc => by
    rw [h _ (startsWith_manifestKey cid)] at hc
    cases hc

theorem held_put {e e' : CacheEntry} {now : Js.Num} {key : String}
    (h : Held (s.put (CacheKey.ofEntry e).toKey (.wrapped (wrapCacheEntry e now))) key e') :
    (key = (CacheKey.ofEntry e).toKey ∧ e' = e) ∨ Held s key e' := by
  obtain ⟨hsdk, expiresAt, hvalue⟩ := h
  rw [Store.get_put] at hvalue
  split at hvalue
  next hkey =>
    obtain ⟨rfl, -⟩ : e = e' ∧ _ := by simpa [wrapCacheEntry] using hvalue
    exact Or.inl ⟨hkey.symm, rfl⟩
  next => exact Or.inr ⟨hsdk, expiresAt, hvalue⟩

theorem held_manifestAdd {cid added key : String} {e : CacheEntry}
    (h : Held (manifestAdd cid added s) key e) : Held s key e := by
  obtain ⟨hsdk, expiresAt, hvalue⟩ := h
  unfold manifestAdd at hvalue
  rw [Store.get_put] at hvalue
  split at hvalue
  · cases hvalue
  · exact ⟨hsdk, expiresAt, hvalue⟩

/-- What is held after a `set` is the entry, under its own key, or was held before. -/
theorem held_set {e e' : CacheEntry} {now : Js.Num} {key : String}
    (h : Held (m.set e now s) key e') :
    (key = (CacheKey.ofEntry e).toKey ∧ e' = e) ∨ Held s key e' := by
  unfold Manager.set at h
  cases hcid : m.keyManifest with
  | none =>
    rw [hcid] at h
    exact held_put h
  | some cid =>
    rw [hcid] at h
    exact held_put (held_manifestAdd h)

/-- What is held after a run of `set` is one of the entries. -/
theorem held_written {key : String} {e : CacheEntry} :
    ∀ (entries : List (CacheEntry × Js.Num)) (s : Store), Held (m.written s entries) key e →
      Held s key e ∨ ∃ w ∈ entries, key = (CacheKey.ofEntry w.1).toKey ∧ e = w.1
  | [], _, h => Or.inl h
  | w :: entries, s, h => by
    rcases held_written entries (m.set w.1 w.2 s) h with hset | ⟨w', hw', heq⟩
    · rcases held_set hset with hnew | hold
      · exact Or.inr ⟨w, List.mem_cons_self .., hnew⟩
      · exact Or.inl hold
    · exact Or.inr ⟨w', List.mem_cons_of_mem _ hw', heq⟩

theorem Written.set (h : Written m s) (e : CacheEntry) (now : Js.Num) :
    Written m (m.set e now s) := by
  constructor
  · intro key e' hheld
    rcases held_set hheld with ⟨hkey, rfl⟩ | hold
    · exact hkey
    · exact h.key key e' hold
  · intro cid hcid c hc
    unfold Manager.set manifestAdd at hc
    rw [hcid] at hc
    dsimp only at hc
    rw [Store.get_put, if_pos rfl] at hc
    obtain rfl := Option.some.inj hc
    exact ⟨_, rfl⟩

theorem written_written (m : Manager) {s : Store} (hs : Foreign s)
    (entries : List (CacheEntry × Js.Num)) : Written m (m.written s entries) := by
  have hrun : ∀ (entries : List (CacheEntry × Js.Num)) (s : Store), Written m s →
      Written m (m.written s entries) := by
    intro entries
    induction entries with
    | nil => exact fun _ h => h
    | cons w entries ih => exact fun s h => ih _ (h.set w.1 w.2)
  exact hrun entries s (Written.of_foreign m hs)

/-! ## What `clear` removes -/

theorem mem_keysToClear {keys : List String} {key : String} :
    key ∈ Manager.keysToClear (some id) keys ↔
      key ∈ keys ∧ (id = "" ∨ Js.includes key id = true) := by
  unfold Manager.keysToClear
  dsimp only
  by_cases hid : id = ""
  · rw [if_pos hid]
    simp [hid]
  · rw [if_neg hid, List.mem_filter]
    simp [hid]

theorem keys_removeAll (keys : List String) (s : Store) :
    (Manager.removeAll keys s).allKeys = s.allKeys.filter fun key => decide (key ∉ keys) := by
  unfold Manager.removeAll
  induction keys generalizing s with
  | nil => simp
  | cons key' keys ih =>
    have hkeys : (s.remove key').allKeys = Js.setDelete s.allKeys key' := OrdMap.keys_erase ..
    rw [List.foldl_cons, ih, hkeys]
    unfold Js.setDelete
    rw [List.filter_filter]
    refine List.filter_congr fun key _ => ?_
    by_cases hsame : key = key'
    · simp [hsame]
    · simp [hsame]

/-- The manifest's key is the SDK's. -/
theorem free_of_foreign {key : String} (h : Js.startsWith key CACHE_KEY_PREFIX = false) :
    m.Free key := by
  rintro cid - rfl
  rw [startsWith_manifestKey] at h
  cases h

theorem Written.free (h : Written m s) {key : String} {e : CacheEntry} (hheld : Held s key e) :
    m.Free key := by
  rintro cid hcid rfl
  obtain ⟨-, expiresAt, hvalue⟩ := hheld
  obtain ⟨c, hc, hentry⟩ := Option.map_eq_some_iff.mp hvalue
  obtain ⟨keys, hkeys⟩ := h.manifest cid hcid c hc
  rw [hkeys] at hentry
  cases hentry

/-- A key has the client id of its entry in its text. -/
theorem Written.includes (h : Written m s) {key : String} {e : CacheEntry} (hheld : Held s key e) :
    Js.includes key e.client_id = true := by
  rw [h.key key e hheld]
  unfold Js.includes CacheKey.toKey
  rw [decide_eq_true_eq]
  simp only [String.toList_append]
  refine ⟨(CacheKey.ofEntry e).keyPrefix.toList ++ "::".toList, ?_⟩
  refine ⟨"::".toList ++ (e.audience.toList ++ ("::".toList ++ e.scope.toList)), ?_⟩
  simp only [List.append_assoc]
  rfl

theorem get_clear_of_mem {key : String} (hfree : m.Free key) {clientId : Option String}
    (hmem : key ∈ Manager.keysToClear clientId (keyList m s)) :
    (m.clear clientId s).get key = none := by
  rw [get_clear hfree, if_pos hmem]

theorem get_clear_of_not_mem {key : String} (hfree : m.Free key) {clientId : Option String}
    (hnot : key ∉ Manager.keysToClear clientId (keyList m s)) :
    (m.clear clientId s).get key = s.get key := by
  rw [get_clear hfree, if_neg hnot]

/-- Clearing adds nothing. -/
theorem get_clear_none {key : String} (clientId : Option String) (hnone : s.get key = none) :
    (m.clear clientId s).get key = none := by
  by_cases hfree : m.Free key
  · rw [get_clear hfree, hnone]
    split <;> rfl
  · unfold Manager.Free at hfree
    push Not at hfree
    obtain ⟨cid, hcid, rfl⟩ := hfree
    rcases manifestKeys_clear hcid clientId s with hgone | ⟨-, hsame⟩
    · exact hgone
    · rw [hsame, hnone]

/-- An entry goes exactly when its key is selected. -/
theorem Written.gone_iff (h : Written m s) {key : String} {e : CacheEntry} (hheld : Held s key e)
    {clientId : Option String} :
    (m.clear clientId s).get key = none ↔ key ∈ Manager.keysToClear clientId (keyList m s) := by
  constructor
  · intro hgone
    by_contra hnot
    rw [get_clear_of_not_mem (h.free hheld) hnot] at hgone
    exact hheld.get_ne_none hgone
  · exact get_clear_of_mem (h.free hheld)

theorem Written.kept_iff (h : Written m s) {key : String} {e : CacheEntry} (hheld : Held s key e)
    {clientId : Option String} :
    (m.clear clientId s).get key = s.get key ↔
      key ∉ Manager.keysToClear clientId (keyList m s) := by
  constructor
  · intro hkept hmem
    rw [get_clear_of_mem (h.free hheld) hmem] at hkept
    exact hheld.get_ne_none hkept.symm
  · exact get_clear_of_not_mem (h.free hheld)

/-- What is foreign stays exactly when no stored key of it is selected. -/
theorem foreign_kept_iff {clientId : Option String} :
    (∀ key, Js.startsWith key CACHE_KEY_PREFIX = false →
        (m.clear clientId s).get key = s.get key) ↔
      ∀ key ∈ Manager.keysToClear clientId (keyList m s), s.get key ≠ none →
        Js.startsWith key CACHE_KEY_PREFIX = true := by
  constructor
  · intro hforeign key hmem hsome
    by_contra hsdk
    rw [Bool.not_eq_true] at hsdk
    have hkept := hforeign key hsdk
    rw [get_clear_of_mem (free_of_foreign hsdk) hmem] at hkept
    exact hsome hkept.symm
  · intro hselected key hforeign
    by_cases hnone : s.get key = none
    · rw [hnone]
      exact get_clear_none clientId hnone
    · refine get_clear_of_not_mem (free_of_foreign hforeign) fun hmem => ?_
      rw [hselected key hmem hnone] at hforeign
      cases hforeign

/-! ## What is found -/

/-- The answer of a read depends on what it finds. -/
theorem answer_congr {k : CacheKey} {s' : Store} (h : m.findEntry k s' = m.findEntry k s)
    (adj now : Js.Num) : (m.get k adj now s').2 = (m.get k adj now s).2 := by
  unfold Manager.get
  rw [h]
  cases m.findEntry k s with
  | none => rfl
  | some c =>
    obtain ⟨ref, value⟩ := c
    cases value with
    | manifest keys => rfl
    | wrapped w =>
      dsimp only
      split
      · split <;> rfl
      · rfl

/-- Nothing is expired when the clock reads no time. -/
theorem answer_nan {k : CacheKey} {c : Cell} {w : WrappedCacheEntry}
    (hfind : m.findEntry k s = some c) (hw : c.value = .wrapped w) (adj : Js.Num) :
    (m.get k adj .nan s).2 = some w.body := by
  unfold Manager.get
  rw [hfind]
  dsimp only
  rw [hw]
  dsimp only
  rw [if_neg (show ¬ w.expired adj .nan from Js.not_lt_nan _)]

theorem answer_of_none {k : CacheKey} (hfind : m.findEntry k s = none) (adj now : Js.Num) :
    (m.get k adj now s).2 = none := by
  unfold Manager.get
  rw [hfind]

/-- The first match among fewer keys. -/
theorem match_filter {k : CacheKey} {keys : List String} {key : String} {p : String → Bool}
    (h : matchExistingCacheKey k keys = some key) (hp : p key = true) :
    matchExistingCacheKey k (keys.filter p) = some key := by
  obtain ⟨before, after, rfl, hbefore, hkey⟩ := matchExistingCacheKey_eq_some_iff.mp h
  rw [List.filter_append, List.filter_cons_of_pos hp]
  refine matchExistingCacheKey_eq_some_iff.mpr ⟨_, _, rfl, fun key' hmem => ?_, hkey⟩
  exact hbefore key' (List.mem_filter.mp hmem).1

/-- Without a manifest, what stays is found as before. -/
theorem foundUnder_clear (hm : m.keyManifest = none) {k : CacheKey} {key : String}
    {clientId : Option String} (hfound : m.foundUnder k s = some key)
    (hkept : (m.clear clientId s).get key = s.get key) (hsome : s.get key ≠ none) :
    m.foundUnder k (m.clear clientId s) = some key := by
  unfold Manager.foundUnder at hfound ⊢
  cases hown : s.get k.toKey with
  | some c =>
    rw [hown] at hfound
    obtain rfl := Option.some.inj hfound
    rw [hkept, hown]
  | none =>
    rw [hown] at hfound
    rw [get_clear_none clientId hown]
    dsimp only at hfound ⊢
    have hfree : m.Free key := fun cid hcid => by rw [hm] at hcid; cases hcid
    have hlist : keyList m s = s.allKeys := by
      unfold keyList
      rw [hm]
      rfl
    have hnot : key ∉ Manager.keysToClear clientId s.allKeys := by
      intro hmem
      rw [get_clear_of_mem hfree (by rw [hlist]; exact hmem)] at hkept
      exact hsome hkept.symm
    unfold Manager.getCacheKeys at hfound ⊢
    rw [hm] at hfound ⊢
    dsimp only at hfound ⊢
    rw [Option.bind_some] at hfound ⊢
    rw [clear_of_listing hm]
    show matchExistingCacheKey k (Manager.removeAll _ s).allKeys = some key
    rw [keys_removeAll]
    exact match_filter hfound (by simpa using hnot)

/-- With a manifest, only an entry under the requested key itself is still found. -/
theorem findEntry_clear_of_manifest {cid : String} (hcid : m.keyManifest = some cid) {k : CacheKey}
    (clientId : Option String) (hown : s.get k.toKey = none) :
    m.findEntry k (m.clear clientId s) = none := by
  have hkeys : manifestKeys cid (m.clear clientId s) = none := by
    rcases manifestKeys_clear hcid clientId s with hgone | ⟨hnone, hsame⟩
    · unfold manifestKeys
      rw [hgone]
      rfl
    · rw [hsame]
      exact hnone
  unfold Manager.findEntry Manager.getCacheKeys
  rw [get_clear_none clientId hown, hcid]
  dsimp only
  rw [hkeys]

theorem findEntry_of_foundUnder {k : CacheKey} {key : String} (h : m.foundUnder k s = some key) :
    m.findEntry k s = s.get key := by
  rw [findEntry_eq_bind, h, Option.bind_some]

/-! ## One client -/

/-- What of another client's was found by the manifest is not found any more. -/
theorem lost_of_manifest (hm : m.keyManifest ≠ none) {k : CacheKey} {key : String} {e : CacheEntry}
    (hown : s.get k.toKey = none) (hfound : m.foundUnder k s = some key) (hheld : Held s key e)
    (clientId : Option String) :
    (m.get k (.fin 0) .nan (m.clear clientId s)).2 ≠ (m.get k (.fin 0) .nan s).2 := by
  obtain ⟨cid, hcid⟩ := Option.ne_none_iff_exists'.mp hm
  obtain ⟨-, expiresAt, hvalue⟩ := hheld
  obtain ⟨c, hc, hentry⟩ := Option.map_eq_some_iff.mp hvalue
  have hfind : m.findEntry k s = some c := by rw [findEntry_of_foundUnder hfound, hc]
  rw [answer_nan hfind hentry, answer_of_none (findEntry_clear_of_manifest hcid clientId hown)]
  intro h
  cases h

/-- What stays is found as before, where no manifest has lost it. -/
theorem findEntry_clear {k : CacheKey} {key : String} {clientId : Option String}
    (hm : m.keyManifest = none ∨ s.get k.toKey ≠ none) (hfound : m.foundUnder k s = some key)
    (hkept : (m.clear clientId s).get key = s.get key) (hsome : s.get key ≠ none) :
    m.findEntry k (m.clear clientId s) = m.findEntry k s := by
  rw [findEntry_of_foundUnder hfound, ← hkept]
  refine findEntry_of_foundUnder ?_
  rcases hm with hm | hown
  · exact foundUnder_clear hm hfound hkept hsome
  · obtain ⟨c, hc⟩ := Option.ne_none_iff_exists'.mp hown
    have hkey : k.toKey = key := by
      unfold Manager.foundUnder at hfound
      rw [hc] at hfound
      exact Option.some.inj hfound
    unfold Manager.foundUnder
    rw [hkey, hkept, ← hkey, hc]

theorem ClearsClient.selects (h : Written m s) (hclears : ClearsClient m id s (m.clear (some id) s)) :
    SelectsClient m id s where
  selected := fun key hmem hid hsome => by
    have hgone : key ∈ Manager.keysToClear (some id) (keyList m s) :=
      mem_keysToClear.mpr ⟨hmem, hid⟩
    refine ⟨foreign_kept_iff.mp hclears.foreign key hgone hsome, fun e hheld => ?_⟩
    by_contra hclient
    exact (h.kept_iff hheld).mp (hclears.kept key e hheld hclient) hgone
  listed := fun key e hheld hclient =>
    (mem_keysToClear.mp ((h.gone_iff hheld).mp (hclears.removed key e hheld hclient))).1
  matched := fun hm k key e hown hfound hheld => by
    by_contra hclient
    exact lost_of_manifest hm hown hfound hheld (some id)
      (hclears.found k key e hfound hheld hclient (.fin 0) .nan)

theorem SelectsClient.clears (h : Written m s) (hselects : SelectsClient m id s) :
    ClearsClient m id s (m.clear (some id) s) := by
  have hkept : ∀ key e, Held s key e → e.client_id ≠ id →
      (m.clear (some id) s).get key = s.get key := by
    intro key e hheld hclient
    refine (h.kept_iff hheld).mpr fun hmem => hclient ?_
    obtain ⟨hlisted, hid⟩ := mem_keysToClear.mp hmem
    exact (hselects.selected key hlisted hid hheld.get_ne_none).2 e hheld
  refine ⟨fun key e hheld hclient => ?_, hkept, ?_, ?_⟩
  · refine (h.gone_iff hheld).mpr (mem_keysToClear.mpr ⟨?_, Or.inr ?_⟩)
    · exact hselects.listed key e hheld hclient
    · rw [← hclient]
      exact h.includes hheld
  · refine foreign_kept_iff.mpr fun key hmem hsome => ?_
    obtain ⟨hlisted, hid⟩ := mem_keysToClear.mp hmem
    exact (hselects.selected key hlisted hid hsome).1
  · intro k key e hfound hheld hclient adj now
    refine answer_congr (findEntry_clear ?_ hfound (hkept key e hheld hclient)
      hheld.get_ne_none) adj now
    by_contra hlost
    rw [not_or, not_not] at hlost
    exact hclient (hselects.matched hlost.1 k key e hlost.2 hfound hheld)

theorem clears_client_iff (h : Written m s) :
    ClearsClient m id s (m.clear (some id) s) ↔ SelectsClient m id s :=
  ⟨fun hclears => hclears.selects h, fun hselects => hselects.clears h⟩

/-! ## Everything -/

theorem clears_all_iff (h : Written m s) : ClearsAll s (m.clear none s) ↔ ListsOwn m s := by
  constructor
  · intro hclears
    exact ⟨foreign_kept_iff.mp hclears.foreign,
      fun key e hheld => (h.gone_iff hheld).mp (hclears.removed key e hheld)⟩
  · intro hlists
    exact ⟨fun key e hheld => (h.gone_iff hheld).mpr (hlists.listed key e hheld),
      foreign_kept_iff.mpr hlists.own⟩

/-- **Clearing removes what it should, and no more**, exactly when the listed keys it
selects are the client's, those of its entries are listed, and no manifest had led to
an entry that stays; without an id, exactly when the list has all the entries and no
other key. `clearSync` is for the caches that list their keys. -/
theorem clears_iff (m : Manager) (s : Store) (hs : Foreign s)
    (entries : List (CacheEntry × Js.Num)) (id : String) :
    (ClearsClient m id (m.written s entries) (m.clear (some id) (m.written s entries)) ↔
        SelectsClient m id (m.written s entries)) ∧
      (ClearsAll (m.written s entries) (m.clear none (m.written s entries)) ↔
        ListsOwn m (m.written s entries)) ∧
      (m.keyManifest = none →
        (ClearsClient m id (m.written s entries)
            (Manager.clearSync (some id) (m.written s entries)) ↔
          SelectsClient m id (m.written s entries)) ∧
        (ClearsAll (m.written s entries) (Manager.clearSync none (m.written s entries)) ↔
          ListsOwn m (m.written s entries))) := by
  have hwritten := written_written m hs entries
  refine ⟨clears_client_iff hwritten, clears_all_iff hwritten, fun hm => ?_⟩
  rw [← clear_of_listing hm, ← clear_of_listing hm]
  exact ⟨clears_client_iff hwritten, clears_all_iff hwritten⟩

/-- An entry of another client than the sample's. -/
def otherEntry (client_id : String) : CacheEntry :=
  { sampleEntry "a" 60 .undefined with client_id := client_id }

/-- Two entries in memory, one of each client. -/
def twoClients (client_id : String) : Store :=
  inMemory.written {} [(sampleEntry "a" 60 .undefined, .fin 0), (otherEntry client_id, .fin 0)]

theorem foreign_empty : Foreign {} := fun _ _ => rfl

/-- The client's entry goes, the tenant's stays. -/
theorem clears_two_clients :
    ClearsClient inMemory "client" (twoClients "tenant")
      (inMemory.clear (some "client") (twoClients "tenant")) := by
  refine (clears_iff inMemory {} foreign_empty _ "client").1.mpr ?_
  refine ⟨fun key hmem hid hsome => ⟨?_, fun e hheld => ?_⟩, fun key e hheld _ => ?_, ?_⟩
  · have hkeys : ∀ key ∈ keyList inMemory (twoClients "tenant"),
        Js.startsWith key CACHE_KEY_PREFIX = true := by decide +kernel
    exact hkeys key hmem
  · rcases held_written _ _ hheld with hempty | ⟨w, hw, hkey, rfl⟩
    · exact absurd rfl hempty.get_ne_none
    · rcases List.mem_cons.mp hw with rfl | hw
      · rfl
      · obtain rfl := List.mem_singleton.mp hw
        have hnot : Js.includes (CacheKey.ofEntry (otherEntry "tenant")).toKey "client" = false := by
          decide
        rw [hkey, hnot] at hid
        exact absurd hid (by decide)
  · exact OrdMap.find_isSome_iff.mp (Option.isSome_iff_ne_none.mpr hheld.get_ne_none)
  · exact fun hm => absurd rfl hm

/-- The defect: the key of a client whose id contains the other's goes with it. -/
theorem other_client_cleared :
    ¬ ClearsClient inMemory "client" (twoClients "client-2")
      (inMemory.clear (some "client") (twoClients "client-2")) := by
  intro hclears
  have hheld : Held (twoClients "client-2") (CacheKey.ofEntry (otherEntry "client-2")).toKey
      (otherEntry "client-2") := by
    refine ⟨startsWith_toKey _, expiryOf (otherEntry "client-2") (.fin 0), ?_⟩
    have hset := Manager.set_get (m := inMemory) (e := otherEntry "client-2")
      (k := CacheKey.ofEntry (otherEntry "client-2")) rfl (fun _ h => nomatch h) (.fin 0)
      (inMemory.set (sampleEntry "a" 60 .undefined) (.fin 0) {})
    exact congrArg (Option.map Cell.value) hset
  have hkept := hclears.kept _ _ hheld (by decide)
  have hgone : ((inMemory.clear (some "client") (twoClients "client-2")).get
      (CacheKey.ofEntry (otherEntry "client-2")).toKey).isNone = true := by
    decide +kernel
  rw [hkept, Option.isNone_iff_eq_none] at hgone
  exact hheld.get_ne_none hgone

end AuthokSpa.Cache
