import AuthokSpa.Cache.Store
import AuthokSpa.Machine

/-!
# The cache manager (`cache/cache-manager.ts`)

`set`, `get` and `clear` as functions on the store, with the clock reading as
an argument; each is the whole of one call, run without interruption. `get` is
the operation that needs care, because it writes: an entry judged expired is
stripped to its refresh token and stored under the *requested* key, wherever it
was found, and without telling the manifest.

`get_cases` says once what a `get` can do; the invariants of the modules that
follow are derived from it and from the definitions of `set` and `clear`.
-/

namespace AuthokSpa.Cache

open Js (OrdMap)

/-- A `CacheManager`: how its cache keeps objects, and the client id of its
manifest when it has one (it has none when the cache can list its keys). -/
structure Manager where
  byReference : Bool
  keyManifest : Option String

/-- The key an entry is stored under. -/
def CacheKey.ofEntry (e : CacheEntry) : CacheKey :=
  { client_id := e.client_id, audience := e.audience, scope := e.scope }

/-- The expiry computed by `wrapCacheEntry`. -/
def expiryOf (e : CacheEntry) (now : Js.Num) : Js.Num :=
  Js.Num.min (now.seconds + e.expires_in) e.decodedToken.exp

/-- `wrapCacheEntry`. -/
def wrapCacheEntry (e : CacheEntry) (now : Js.Num) : WrappedCacheEntry :=
  { body := .entry e, expiresAt := expiryOf e now }

/-- The expiry test of `get`. -/
def WrappedCacheEntry.expired (w : WrappedCacheEntry) (adj now : Js.Num) : Prop :=
  w.expiresAt - adj < now.seconds

instance (w : WrappedCacheEntry) (adj now : Js.Num) : Decidable (w.expired adj now) :=
  inferInstanceAs (Decidable (w.expiresAt - adj < now.seconds))

/-- What stripping leaves of an entry; the expiry stays. -/
def WrappedCacheEntry.strip (w : WrappedCacheEntry) : WrappedCacheEntry :=
  { w with body := .refreshOnly w.body.refresh_token }

namespace Manager

variable (m : Manager)

/-- `getCacheKeys`. -/
def getCacheKeys (s : Store) : Option (List String) :=
  match m.keyManifest with
  | some clientId => manifestKeys clientId s
  | none => some s.allKeys

/-- The two lookups at the start of `get`: the requested key, then the first
listed key with at least its scopes. `cache.get(undefined)` finds nothing. -/
def findEntry (k : CacheKey) (s : Store) : Option Cell :=
  match s.get k.toKey with
  | some c => some c
  | none =>
    match m.getCacheKeys s with
    | none => none
    | some keys => (matchExistingCacheKey k keys).bind s.get

/-- The branch of `get` for an expired entry with a refresh token: assign the
stripped body to the object read, store that object under the requested key. -/
def stripUnder (key : String) (c : Cell) (w : WrappedCacheEntry) (s : Store) : Store :=
  if m.byReference then
    (s.assign c.ref (.wrapped w.strip)).bind key ⟨c.ref, .wrapped w.strip⟩
  else s.put key (.wrapped w.strip)

/-- The branch of `get` for an expired entry without one. -/
def dropUnder (key : String) (s : Store) : Store :=
  match m.keyManifest with
  | some clientId => manifestRemove clientId key (s.remove key)
  | none => s.remove key

/-- `CacheManager.get`. A manifest found where an entry is expected has no
`expiresAt`, so it is never expired, and no `body`. -/
def get (k : CacheKey) (adj now : Js.Num) (s : Store) : Store × Option Body :=
  match m.findEntry k s with
  | none => (s, none)
  | some c =>
    match c.value with
    -- `undefined - adj` is `NaN`, and `NaN < now` is false
    | .manifest _ => (s, none)
    | .wrapped w =>
      if w.expired adj now then
        if w.body.refresh_token.truthy then
          (m.stripUnder k.toKey c w s, some w.strip.body)
        else (m.dropUnder k.toKey s, none)
      else (s, some w.body)

/-- `CacheManager.set`. -/
def set (e : CacheEntry) (now : Js.Num) (s : Store) : Store :=
  let key := (CacheKey.ofEntry e).toKey
  let s := s.put key (.wrapped (wrapCacheEntry e now))
  match m.keyManifest with
  | some clientId => manifestAdd clientId key s
  | none => s

/-- The keys `clear` removes: with a client id, those that contain it. -/
def keysToClear (clientId : Option String) (keys : List String) : List String :=
  match clientId with
  | some id => if id = "" then keys else keys.filter (fun key => Js.includes key id)
  | none => keys

/-- `cache.remove` on each key in turn. -/
def removeAll (keys : List String) (s : Store) : Store := keys.foldl Store.remove s

/-- `CacheManager.clear`. -/
def clear (clientId : Option String) (s : Store) : Store :=
  match m.getCacheKeys s with
  -- `if (!keys) return;`
  | none => s
  | some keys =>
    let s := removeAll (keysToClear clientId keys) s
    match m.keyManifest with
    | some id => manifestClear id s
    | none => s

/-- `CacheManager.clearSync`, used with the two built-in caches. -/
def clearSync (clientId : Option String) (s : Store) : Store :=
  removeAll (keysToClear clientId s.allKeys) s

end Manager

/-! ## Runs -/

/-- The operations of a manager, with the clock reading each would see. -/
inductive Op where
  | set (e : CacheEntry) (now : Js.Num)
  | get (k : CacheKey) (adj now : Js.Num)
  | clear (clientId : Option String)

/-- The manager as a machine. -/
def Manager.machine (m : Manager) : Machine Store Op (Option Body) where
  step s
    | .set e now => (m.set e now s, none)
    | .get k adj now => m.get k adj now s
    | .clear clientId => (m.clear clientId s, none)

/-- A stored entry for concrete runs: client `client`, audience `api`, an ID
token that expires at `exp` seconds, a token lifetime of a day. -/
def sampleEntry (scope : String) (exp : ℚ) (refresh_token : Js.Value) : CacheEntry where
  id_token := .str "header.payload.signature"
  access_token := .str ("access " ++ scope)
  expires_in := .fin 86400
  decodedToken :=
    { encoded := ⟨"header", "payload", "signature"⟩
      header := .obj [("alg", .str "RS256")]
      claims := { own := [("sub", .str "user"), ("exp", .num (.fin exp))] }
      user := { own := [("sub", .str "user")] } }
  audience := "api"
  scope := scope
  client_id := "client"
  refresh_token := refresh_token

/-- The key a sample entry is looked up with. -/
def sampleKey (scope : String) : CacheKey :=
  { client_id := "client", audience := "api", scope := scope }

/-! ## What a `get` can do -/

/-- Every way a `get` can go: nothing found, a manifest found, a live entry,
an expired one with a refresh token, an expired one without. -/
theorem Manager.get_cases (m : Manager) (k : CacheKey) (adj now : Js.Num) (s : Store) :
    m.get k adj now s = (s, none) ∨
    ∃ c w, m.findEntry k s = some c ∧ c.value = .wrapped w ∧
      ((¬ w.expired adj now ∧ m.get k adj now s = (s, some w.body)) ∨
       (w.expired adj now ∧ w.body.refresh_token.truthy = true ∧
          m.get k adj now s = (m.stripUnder k.toKey c w s, some w.strip.body)) ∨
       (w.expired adj now ∧ w.body.refresh_token.truthy = false ∧
          m.get k adj now s = (m.dropUnder k.toKey s, none))) := by
  unfold Manager.get
  split
  next => exact Or.inl rfl
  next c hc =>
    split
    next => exact Or.inl rfl
    next w hw =>
      refine Or.inr ⟨c, w, hc, hw, ?_⟩
      split
      next hexp =>
        split
        next hr => exact Or.inr (Or.inl ⟨hexp, hr, rfl⟩)
        next hr => exact Or.inr (Or.inr ⟨hexp, by simpa using hr, rfl⟩)
      next hlive => exact Or.inl ⟨hlive, rfl⟩

/-- An entry is found under the requested key, or under the first listed match. -/
theorem Manager.findEntry_cases {m : Manager} {k : CacheKey} {s : Store} {c : Cell}
    (h : m.findEntry k s = some c) :
    s.get k.toKey = some c ∨
    ∃ keys key, s.get k.toKey = none ∧ m.getCacheKeys s = some keys ∧
      matchExistingCacheKey k keys = some key ∧ s.get key = some c := by
  unfold Manager.findEntry at h
  split at h
  next c' hc =>
    obtain rfl : c' = c := by simpa using h
    exact Or.inl hc
  next hnone =>
    split at h
    next => simp at h
    next keys hkeys =>
      obtain ⟨key, hkey, hget⟩ := Option.bind_eq_some_iff.mp h
      exact Or.inr ⟨keys, key, hnone, hkeys, hkey, hget⟩

/-- Wherever it is found, the entry is bound to a key that is the requested one
or matches it. -/
theorem Manager.findEntry_mem {m : Manager} {k : CacheKey} {s : Store} {c : Cell}
    (h : m.findEntry k s = some c) :
    ∃ key, s.get key = some c ∧ (key = k.toKey ∨ matchesKey k key = true) := by
  rcases m.findEntry_cases h with hc | ⟨keys, key, -, -, hmatch, hget⟩
  · exact ⟨_, hc, Or.inl rfl⟩
  · exact ⟨key, hget, Or.inr (matchExistingCacheKey_some hmatch).2⟩

/-- Nothing is found in an empty cache. -/
theorem Manager.get_of_empty {m : Manager} (hm : m.keyManifest = none) {s : Store}
    (hs : s.slots = []) (k : CacheKey) (adj now : Js.Num) : m.get k adj now s = (s, none) := by
  have hfind : m.findEntry k s = none := by
    unfold Manager.findEntry Manager.getCacheKeys Store.get Store.allKeys
    rw [hm, hs]
    rfl
  unfold Manager.get
  rw [hfind]

/-- What was just stored is there under its own key, and handed out unless it is
expired. -/
theorem Manager.set_get {m : Manager} {e : CacheEntry} {k : CacheKey}
    (hk : k.toKey = (CacheKey.ofEntry e).toKey)
    (hm : ∀ cid, m.keyManifest = some cid → manifestKey cid ≠ k.toKey) (now : Js.Num) (s : Store) :
    (m.set e now s).get k.toKey = some ⟨s.next, .wrapped (wrapCacheEntry e now)⟩ := by
  unfold Manager.set
  cases hcid : m.keyManifest with
  | none =>
    dsimp only
    rw [Store.get_put, if_pos hk.symm]
  | some cid =>
    dsimp only
    unfold manifestAdd
    rw [Store.get_put, if_neg (hm cid hcid), Store.get_put, if_pos hk.symm]

theorem Manager.get_set {m : Manager} {e : CacheEntry} {k : CacheKey}
    (hk : k.toKey = (CacheKey.ofEntry e).toKey)
    (hm : ∀ cid, m.keyManifest = some cid → manifestKey cid ≠ k.toKey) {now adj now' : Js.Num}
    (hlive : ¬ (wrapCacheEntry e now).expired adj now') (s : Store) :
    m.get k adj now' (m.set e now s) = (m.set e now s, some (.entry e)) := by
  unfold Manager.get Manager.findEntry
  rw [Manager.set_get hk hm]
  dsimp only
  rw [if_neg hlive]
  rfl

end AuthokSpa.Cache
