import AuthokSpa.Cache.Key
import AuthokSpa.Global
import AuthokSpa.Js.Sets

/-!
# Cache stores and the key manifest (`cache-memory.ts`, `key-manifest.ts`)

A cache binds keys to objects, in insertion order. Two kinds matter:

* `InMemoryCache` keeps the object it was given. Reading returns that object,
  so a later assignment to one of its members shows under every key bound to
  it; storing it under a second key makes an alias.
* `LocalStorageCache` (and a copying custom cache) serialises, so an object
  read from it is a private copy. Copies are exact: entries are JSON data, and
  the numbers in them are finite.

A `Cell` is a stored object: its identity `ref` and its current value.
`Store.assign` is the visible effect of a member assignment, on all aliases at
once. Identities come from a counter, so a new object is never an alias.

The manifest lives in the same store, under `manifestKey`. Nothing stops a
token key from being that very string, so reading it may find a wrapped entry,
and reading a token key may find a manifest; both readings are modelled.
-/

namespace AuthokSpa.Cache

open Js (OrdMap setAdd setFrom setDelete)

/-- `Partial<CacheEntry>`: the manager stores a whole entry, or what stripping
leaves of it. -/
inductive Body where
  | entry (e : CacheEntry)
  | refreshOnly (refresh_token : Js.Value)

/-- `body.refresh_token`. -/
def Body.refresh_token : Body → Js.Value
  | .entry e => e.refresh_token
  | .refreshOnly r => r

/-- `body.access_token`. -/
def Body.access_token : Body → Js.Value
  | .entry e => e.access_token
  | .refreshOnly _ => .undefined

/-- `body.decodedToken`. -/
def Body.decodedToken : Body → Option DecodedToken
  | .entry e => some e.decodedToken
  | .refreshOnly _ => none

/-- `WrappedCacheEntry`. -/
structure WrappedCacheEntry where
  body : Body
  expiresAt : Js.Num

/-- `Cacheable`: what a cache holds under a key. -/
inductive Cacheable where
  | wrapped (w : WrappedCacheEntry)
  | manifest (keys : List String)

/-- A stored object. -/
structure Cell where
  ref : Nat
  value : Cacheable

/-- The contents of a cache, with the counter that names new objects. -/
structure Store where
  slots : OrdMap String Cell := []
  next : Nat := 0

namespace Store

/-- `cache.get(key)`. -/
def get (s : Store) (key : String) : Option Cell := s.slots.find key

/-- `cache.set(key, object)` for an object that exists already. -/
def bind (s : Store) (key : String) (c : Cell) : Store :=
  { s with slots := s.slots.insert key c }

/-- `cache.set(key, {...})` for a new object. A cache of texts gets an exact copy here; the
JSON of `localStorage` has `null` for an `expiresAt` that is not a number. -/
def put (s : Store) (key : String) (v : Cacheable) : Store :=
  { slots := s.slots.insert key ⟨s.next, v⟩, next := s.next + 1 }

/-- `cache.remove(key)`. -/
def remove (s : Store) (key : String) : Store := { s with slots := s.slots.erase key }

/-- `cache.allKeys()`. -/
def allKeys (s : Store) : List String := s.slots.keys

/-- Give the object `ref` the value `v`, wherever it is bound. -/
def assign (s : Store) (ref : Nat) (v : Cacheable) : Store :=
  { s with slots := s.slots.map fun b => if b.2.ref = ref then (b.1, ⟨ref, v⟩) else b }

theorem get_bind (s : Store) (key key' : String) (c : Cell) :
    (s.bind key c).get key' = if key = key' then some c else s.get key' :=
  OrdMap.find_insert ..

theorem get_put (s : Store) (key key' : String) (v : Cacheable) :
    (s.put key v).get key' = if key = key' then some ⟨s.next, v⟩ else s.get key' :=
  OrdMap.find_insert ..

theorem get_remove (s : Store) (key key' : String) :
    (s.remove key).get key' = if key = key' then none else s.get key' :=
  OrdMap.find_erase ..

theorem get_assign (s : Store) (ref : Nat) (v : Cacheable) (key : String) :
    (s.assign ref v).get key =
      (s.get key).map (fun c => if c.ref = ref then ⟨ref, v⟩ else c) := by
  obtain ⟨slots, next⟩ := s
  unfold get assign
  induction slots with
  | nil => rfl
  | cons b slots ih =>
    simp only [List.map_cons, OrdMap.find_cons] at ih ⊢
    by_cases hr : b.2.ref = ref <;> by_cases hk : b.1 = key <;> simp [hr, hk, ih]

end Store

/-! ## `CacheKeyManifest` -/

/-- `createManifestKeyFrom`. -/
def manifestKey (clientId : String) : String := CACHE_KEY_PREFIX ++ ("::" ++ clientId)

/-- The manifest of a client is not under a key of its own: those are longer. -/
theorem manifestKey_ne_toKey {k : CacheKey} {cid : String} (hk : k.keyPrefix = CACHE_KEY_PREFIX)
    (hcid : k.client_id = cid) : manifestKey cid ≠ k.toKey := by
  subst hcid
  intro he
  have hlen := congrArg String.length he
  unfold manifestKey CacheKey.toKey at hlen
  simp only [String.length_append, hk] at hlen
  have hsep : ("::" : String).length = 2 := rfl
  omega

/-- `value?.keys`: a wrapped entry has no such member. -/
def Cacheable.keys : Cacheable → Option (List String)
  | .manifest keys => some keys
  | .wrapped _ => none

/-- `(await keyManifest.get())?.keys`. -/
def manifestKeys (clientId : String) (s : Store) : Option (List String) :=
  (s.get (manifestKey clientId)).bind (fun c => c.value.keys)

/-- `CacheKeyManifest.add`. -/
def manifestAdd (clientId key : String) (s : Store) : Store :=
  let keys := setFrom ((manifestKeys clientId s).getD [])
  s.put (manifestKey clientId) (.manifest (setAdd keys key))

/-- `CacheKeyManifest.remove`. -/
def manifestRemove (clientId key : String) (s : Store) : Store :=
  match s.get (manifestKey clientId) with
  -- `if (entry)` fails
  | none => s
  | some c =>
    match setDelete (setFrom (c.value.keys.getD [])) key with
    -- an empty list is not kept
    | [] => s.remove (manifestKey clientId)
    | k :: ks => s.put (manifestKey clientId) (.manifest (k :: ks))

/-- `CacheKeyManifest.clear`. -/
def manifestClear (clientId : String) (s : Store) : Store := s.remove (manifestKey clientId)

/-- The keys the manifest lists; none when there is no manifest. -/
def listed (cid : String) (s : Store) : List String := (manifestKeys cid s).getD []

/-- What is listed depends only on the manifest's own binding. -/
theorem listed_congr {cid : String} {s s' : Store}
    (h : s'.get (manifestKey cid) = s.get (manifestKey cid)) : listed cid s' = listed cid s := by
  unfold listed manifestKeys
  rw [h]

theorem listed_put_manifest (cid : String) (s : Store) (keys : List String) :
    listed cid (s.put (manifestKey cid) (.manifest keys)) = keys := by
  unfold listed manifestKeys
  rw [Store.get_put, if_pos rfl]
  rfl

theorem listed_manifestAdd (cid key : String) (s : Store) :
    listed cid (manifestAdd cid key s) = setAdd (setFrom (listed cid s)) key :=
  listed_put_manifest ..

theorem listed_manifestRemove (cid key : String) (s : Store) :
    listed cid (manifestRemove cid key s) = setDelete (setFrom (listed cid s)) key := by
  unfold manifestRemove
  cases hget : s.get (manifestKey cid) with
  | none =>
    have hl : listed cid s = [] := by
      unfold listed manifestKeys
      rw [hget]
      rfl
    simp [hl, setFrom, setDelete]
  | some c =>
    have hl : listed cid s = c.value.keys.getD [] := by
      unfold listed manifestKeys
      rw [hget]
      rfl
    rw [hl]
    simp only
    split
    next hnil =>
      rw [hnil]
      unfold listed manifestKeys
      rw [Store.get_remove, if_pos rfl]
      rfl
    next k ks hcons => rw [listed_put_manifest, hcons]

end AuthokSpa.Cache
