import AuthokSpa.Js.Text

/-!
# Cache keys (`cache/shared.ts`)

A token entry is stored under one string,
`{prefix}::{client_id}::{audience}::{scope}`. `fromKey` splits such a string
again; a field that contains the separator, or ends in half of it, shifts the
later fields. `CacheKey.Readable` is the exact condition under which it does not
(`cacheKey_format`). `CacheKey.WellFormed` is that of a key in the SDK's namespace,
and `fromKey_toKey` the round trip the cache lookups rely on.

`matchExistingCacheKey` (`cache/cache-manager.ts`) is here too: it is a pure
function of the listed keys.
-/

namespace AuthokSpa.Cache

open Js (split includes endsWith)

/-- `CACHE_KEY_PREFIX`. -/
def CACHE_KEY_PREFIX : String := "@@authokspajs@@"

/-- `CacheKey` as the constructor builds it, with its default prefix. -/
structure CacheKey where
  client_id : String
  audience : String
  scope : String
  keyPrefix : String := CACHE_KEY_PREFIX
  deriving DecidableEq

/-- What destructuring the split key yields: a missing piece is `undefined`. -/
structure ParsedKey where
  keyPrefix : Option String
  client_id : Option String
  audience : Option String
  scope : Option String
  deriving DecidableEq

/-- `CacheKey.toKey`. -/
def CacheKey.toKey (k : CacheKey) : String :=
  k.keyPrefix ++ ("::" ++ (k.client_id ++ ("::" ++ (k.audience ++ ("::" ++ k.scope)))))

/-- `CacheKey.fromKey`: pieces beyond the fourth are dropped. -/
def CacheKey.fromKey (key : String) : ParsedKey :=
  let parts := split "::" key
  ⟨parts[0]?, parts[1]?, parts[2]?, parts[3]?⟩

/-- The space-separated scopes of a scope string. -/
def scopesOf (scope : String) : List String := split " " scope

/-- The filter condition of `matchExistingCacheKey`: SDK prefix, same client
and audience, and a non-empty scope with at least all the wanted ones. -/
def matchesKey (keyToMatch : CacheKey) (key : String) : Bool :=
  let cacheKey := CacheKey.fromKey key
  match cacheKey.scope with
  | none => false
  | some scope =>
    scope ≠ "" &&
    (scopesOf keyToMatch.scope).all (fun current => decide (current ∈ scopesOf scope)) &&
    cacheKey.keyPrefix = some CACHE_KEY_PREFIX &&
    cacheKey.client_id = some keyToMatch.client_id &&
    cacheKey.audience = some keyToMatch.audience

/-- `matchExistingCacheKey`: the first listed key that matches. -/
def matchExistingCacheKey (keyToMatch : CacheKey) (allKeys : List String) : Option String :=
  (allKeys.filter (matchesKey keyToMatch)).head?

/-- A field that survives in front of a separator: no `::` inside, no `:` at
the end. -/
def FieldOk (s : String) : Prop := includes s "::" = false ∧ endsWith s ":" = false

instance (s : String) : Decidable (FieldOk s) :=
  inferInstanceAs (Decidable (includes s "::" = false ∧ endsWith s ":" = false))

/-- The fields keep the format readable. -/
structure CacheKey.Readable (k : CacheKey) : Prop where
  keyPrefix : FieldOk k.keyPrefix
  client : FieldOk k.client_id
  audience : FieldOk k.audience
  scope : includes k.scope "::" = false

/-- The same four fields, as `fromKey` gives them. -/
def CacheKey.parsed (k : CacheKey) : ParsedKey :=
  ⟨some k.keyPrefix, some k.client_id, some k.audience, some k.scope⟩

/-- A key in the SDK's namespace whose fields keep the format readable. -/
structure CacheKey.WellFormed (k : CacheKey) : Prop where
  sdk : k.keyPrefix = CACHE_KEY_PREFIX
  client : FieldOk k.client_id
  audience : FieldOk k.audience
  scope : includes k.scope "::" = false

theorem fieldOk_iff {s : String} : FieldOk s ↔ Js.SepFree ("::" : String).toList s.toList := by
  unfold FieldOk includes endsWith
  rw [decide_eq_false_iff_not, decide_eq_false_iff_not]
  exact Js.sepFree_colons_iff.symm

theorem FieldOk.sepFree {s : String} (h : FieldOk s) :
    Js.SepFree ("::" : String).toList s.toList := fieldOk_iff.mp h

theorem fieldOk_keyPrefix : FieldOk CACHE_KEY_PREFIX := by decide

/-- Splitting a readable key gives the four fields. -/
theorem CacheKey.Readable.split_toKey {k : CacheKey} (h : k.Readable) :
    split "::" k.toKey = [k.keyPrefix, k.client_id, k.audience, k.scope] := by
  unfold CacheKey.toKey
  rw [Js.split_append _ (by decide) h.keyPrefix.sepFree,
    Js.split_append _ (by decide) h.client.sepFree,
    Js.split_append _ (by decide) h.audience.sepFree, Js.split_of_not_includes h.scope]

theorem CacheKey.Readable.fromKey_toKey {k : CacheKey} (h : k.Readable) :
    CacheKey.fromKey k.toKey = k.parsed := by
  unfold CacheKey.fromKey
  rw [h.split_toKey]
  rfl

/-- Each field that is read back was readable: the fields are cut off in turn. -/
theorem readable_of_fromKey {k : CacheKey} (h : CacheKey.fromKey k.toKey = k.parsed) :
    k.Readable := by
  have hsep : ("::" : String) ≠ "" := by decide
  unfold CacheKey.fromKey CacheKey.toKey CacheKey.parsed at h
  rw [ParsedKey.mk.injEq] at h
  obtain ⟨hpiece, hclient, haudience, hscope⟩ := h
  have hp := (Js.split_append_iff _ hsep).mp hpiece
  rw [Js.split_append _ hsep hp, List.getElem?_cons_succ] at hclient haudience hscope
  have hc := (Js.split_append_iff _ hsep).mp hclient
  rw [Js.split_append _ hsep hc, List.getElem?_cons_succ] at haudience hscope
  have ha := (Js.split_append_iff _ hsep).mp haudience
  rw [Js.split_append _ hsep ha, List.getElem?_cons_succ] at hscope
  exact ⟨fieldOk_iff.mpr hp, fieldOk_iff.mpr hc, fieldOk_iff.mpr ha,
    (Js.split_eq_self_iff hsep).mp hscope⟩

theorem parsed_inj {k k' : CacheKey} (h : k.parsed = k'.parsed) : k = k' := by
  cases k
  cases k'
  cases h
  rfl

/-- `toKey` is injective on readable keys. -/
theorem CacheKey.Readable.toKey_inj {k k' : CacheKey} (h : k.Readable) (h' : k'.Readable)
    (heq : k.toKey = k'.toKey) : k = k' := by
  refine parsed_inj ?_
  rw [← h.fromKey_toKey, heq, h'.fromKey_toKey]

/-- **The exact domain of the key format**: the four fields are read back exactly when
the first three neither contain the separator nor end in half of it and the last does
not contain it. On such keys `toKey` is injective. -/
theorem cacheKey_format :
    (∀ k : CacheKey, CacheKey.fromKey k.toKey = k.parsed ↔ k.Readable) ∧
      ∀ k k' : CacheKey, k.Readable → k'.Readable → k.toKey = k'.toKey → k = k' :=
  ⟨fun _ => ⟨readable_of_fromKey, fun h => h.fromKey_toKey⟩, fun _ _ h h' => h.toKey_inj h'⟩

/-- An audience with a port is read back, an IPv6 one is not. -/
theorem cacheKey_format_audiences :
    CacheKey.fromKey (CacheKey.toKey ⟨"cid", "http://localhost:3000", "openid", CACHE_KEY_PREFIX⟩) =
        CacheKey.parsed ⟨"cid", "http://localhost:3000", "openid", CACHE_KEY_PREFIX⟩ ∧
      CacheKey.fromKey (CacheKey.toKey ⟨"cid", "http://[::1]:3000", "openid", CACHE_KEY_PREFIX⟩) ≠
        CacheKey.parsed ⟨"cid", "http://[::1]:3000", "openid", CACHE_KEY_PREFIX⟩ := by
  constructor
  · exact (cacheKey_format.1 _).mpr ⟨by decide, by decide, by decide, by decide⟩
  · intro h
    have haudience := ((cacheKey_format.1 _).mp h).audience
    exact absurd haudience (by decide)

theorem CacheKey.WellFormed.readable {k : CacheKey} (h : k.WellFormed) : k.Readable :=
  ⟨h.sdk ▸ fieldOk_keyPrefix, h.client, h.audience, h.scope⟩

/-- `fromKey` reads back what `toKey` wrote. -/
theorem fromKey_toKey {k : CacheKey} (h : k.WellFormed) :
    CacheKey.fromKey k.toKey =
      ⟨some CACHE_KEY_PREFIX, some k.client_id, some k.audience, some k.scope⟩ := by
  rw [h.readable.fromKey_toKey, ← h.sdk]
  rfl

/-- `toKey` is injective on well-formed keys. -/
theorem toKey_inj {k k' : CacheKey} (h : k.WellFormed) (h' : k'.WellFormed)
    (heq : k.toKey = k'.toKey) : k = k' :=
  h.readable.toKey_inj h'.readable heq

/-- Every scope of `small` is one of the scopes of `big`. -/
def ScopeSubset (small big : String) : Prop := ∀ s ∈ scopesOf small, s ∈ scopesOf big

instance (small big : String) : Decidable (ScopeSubset small big) :=
  inferInstanceAs (Decidable (∀ s ∈ scopesOf small, s ∈ scopesOf big))

theorem ScopeSubset.refl (s : String) : ScopeSubset s s := fun _ h => h

theorem ScopeSubset.trans {a b c : String} (hab : ScopeSubset a b) (hbc : ScopeSubset b c) :
    ScopeSubset a c := fun s hs => hbc s (hab s hs)

/-- On a readable key, `matchesKey` is the documented condition. -/
theorem matchesKey_toKey {keyToMatch k : CacheKey} (h : k.WellFormed) :
    matchesKey keyToMatch k.toKey = true ↔
      k.scope ≠ "" ∧ k.client_id = keyToMatch.client_id ∧ k.audience = keyToMatch.audience ∧
        ScopeSubset keyToMatch.scope k.scope := by
  unfold matchesKey
  rw [fromKey_toKey h]
  simp only [Bool.and_eq_true, decide_eq_true_eq, List.all_eq_true, Option.some.injEq,
    ne_eq, ScopeSubset]
  constructor
  · rintro ⟨⟨⟨⟨hne, hsub⟩, -⟩, hc⟩, ha⟩
    exact ⟨hne, hc, ha, hsub⟩
  · rintro ⟨hne, hc, ha, hsub⟩
    exact ⟨⟨⟨⟨hne, hsub⟩, trivial⟩, hc⟩, ha⟩

/-- A matched key is a listed key that satisfies the filter. -/
theorem matchExistingCacheKey_some {keyToMatch : CacheKey} {allKeys : List String} {key : String}
    (h : matchExistingCacheKey keyToMatch allKeys = some key) :
    key ∈ allKeys ∧ matchesKey keyToMatch key = true := by
  have hm := List.mem_of_mem_head? (Option.mem_def.mpr h)
  exact List.mem_filter.mp hm

end AuthokSpa.Cache
