import AuthokSpa.Cache.Invariant

/-!
# When a valid stored token is found

The documentation of `getTokenSilently` promises "if there's a valid token
stored, return it". The lookup under it looks at one entry only: the one under
the requested key, or else the one under the *first* listed key with at least
the wanted scopes. An expired or stripped entry in either place hides a valid
one behind it, and so does a key that `fromKey` misreads (an audience with
`::`), since it is never a match.

`Unshadowed` states the condition on the store before the lookup, and
`found_iff_unshadowed` that it is exact.
-/

namespace AuthokSpa.Cache

open Js (OrdMap)

/-- The stored object is an entry for `k`'s client and audience with at least
its scopes, with an access token, valid for `adj` seconds more. -/
def Cacheable.ValidFor (k : CacheKey) (adj now : Js.Num) : Cacheable → Prop
  | .wrapped ⟨.entry e, expiresAt⟩ =>
    e.client_id = k.client_id ∧ e.audience = k.audience ∧ ScopeSubset k.scope e.scope ∧
      e.access_token.truthy = true ∧ now.seconds ≤ expiresAt - adj
  | .wrapped ⟨.refreshOnly _, _⟩ => False
  | .manifest _ => False

/-- Some stored entry is valid for `k`. -/
def StoredValid (k : CacheKey) (adj now : Js.Num) (s : Store) : Prop :=
  ∃ b ∈ s.slots, b.2.value.ValidFor k adj now

/-- The answer is an entry with an access token. -/
def HasAccessToken : Option Body → Prop
  | some body => body.access_token.truthy = true
  | none => False

/-- The stored object would be handed out whole: an entry with an access
token that the expiry test passes. -/
def Cacheable.Live (adj now : Js.Num) : Cacheable → Prop
  | .wrapped w => w.body.access_token.truthy = true ∧ ¬ w.expired adj now
  | .manifest _ => False

/-- No stale object stands in front: the one under the requested key is live,
or there is none and the one under the first listed match is live. -/
structure Unshadowed (m : Manager) (k : CacheKey) (adj now : Js.Num) (s : Store) : Prop where
  own : ∀ c, s.get k.toKey = some c → c.value.Live adj now
  first : s.get k.toKey = none → ∃ before key after c,
    m.getCacheKeys s = some (before ++ key :: after) ∧
    (∀ key' ∈ before, matchesKey k key' = false) ∧ matchesKey k key = true ∧
    s.get key = some c ∧ c.value.Live adj now

instance (k : CacheKey) (adj now : Js.Num) : (v : Cacheable) → Decidable (v.ValidFor k adj now)
  | .wrapped ⟨.entry _, _⟩ => inferInstanceAs (Decidable (_ ∧ _ ∧ _ ∧ _ ∧ _))
  | .wrapped ⟨.refreshOnly _, _⟩ => isFalse id
  | .manifest _ => isFalse id

instance (k : CacheKey) (adj now : Js.Num) (s : Store) : Decidable (StoredValid k adj now s) :=
  inferInstanceAs (Decidable (∃ b ∈ s.slots, b.2.value.ValidFor k adj now))

instance (o : Option Body) : Decidable (HasAccessToken o) :=
  match o with
  | some body => inferInstanceAs (Decidable (body.access_token.truthy = true))
  | none => isFalse id

/-- The match is the first listed key that satisfies the filter. -/
theorem matchExistingCacheKey_eq_some_iff {k : CacheKey} {key : String} {keys : List String} :
    matchExistingCacheKey k keys = some key ↔
      ∃ before after, keys = before ++ key :: after ∧
        (∀ key' ∈ before, matchesKey k key' = false) ∧ matchesKey k key = true := by
  unfold matchExistingCacheKey
  rw [List.head?_filter, List.find?_eq_some_iff_append]
  constructor
  · rintro ⟨hkey, before, after, heq, hnone⟩
    exact ⟨before, after, heq, fun key' hmem => by simpa using hnone key' hmem, hkey⟩
  · rintro ⟨before, after, heq, hnone, hkey⟩
    exact ⟨hkey, before, after, heq, fun key' hmem => by simpa using hnone key' hmem⟩

/-- `get` answers with an access token exactly when the object it finds is live. -/
theorem hasAccessToken_get_iff {m : Manager} {k : CacheKey} {adj now : Js.Num} {s : Store} :
    HasAccessToken (m.get k adj now s).2 ↔
      ∃ c, m.findEntry k s = some c ∧ c.value.Live adj now := by
  unfold Manager.get
  cases hfind : m.findEntry k s with
  | none => simp [HasAccessToken]
  | some c =>
    unfold Cacheable.Live
    cases hv : c.value with
    | manifest keys => simp [HasAccessToken, hv]
    | wrapped w =>
      by_cases hexp : w.expired adj now
      · by_cases hr : w.body.refresh_token.truthy = true
        · simp [hexp, hr, HasAccessToken, hv, WrappedCacheEntry.strip, Body.access_token]
        · simp [hexp, hr, HasAccessToken, hv]
      · simp [hexp, HasAccessToken, hv]

theorem find_live_iff_unshadowed {m : Manager} {k : CacheKey} {adj now : Js.Num} {s : Store} :
    (∃ c, m.findEntry k s = some c ∧ c.value.Live adj now) ↔ Unshadowed m k adj now s := by
  constructor
  · rintro ⟨c, hfind, hlive⟩
    rcases m.findEntry_cases hfind with hc | ⟨keys, key, hnone, hkeys, hmatch, hget⟩
    · refine ⟨fun c' hc' => ?_, fun hn => ?_⟩
      · obtain rfl : c = c' := Option.some.inj (hc.symm.trans hc')
        exact hlive
      · rw [hc] at hn
        cases hn
    · refine ⟨fun c' hc' => ?_, fun _ => ?_⟩
      · rw [hnone] at hc'
        cases hc'
      · obtain ⟨before, after, rfl, hb, hk⟩ := matchExistingCacheKey_eq_some_iff.mp hmatch
        exact ⟨before, key, after, c, hkeys, hb, hk, hget, hlive⟩
  · intro h
    unfold Manager.findEntry
    cases hc : s.get k.toKey with
    | some c => exact ⟨c, rfl, h.own c hc⟩
    | none =>
      obtain ⟨before, key, after, c, hkeys, hb, hk, hget, hlive⟩ := h.first hc
      have hmatch := matchExistingCacheKey_eq_some_iff.mpr ⟨before, after, rfl, hb, hk⟩
      refine ⟨c, ?_, hlive⟩
      simp only [hkeys, hmatch, Option.bind_some, hget]

/-- **A valid stored token is found exactly when nothing stale stands in front
of it**: in every state a run reaches, for every key, adjustment and time. -/
theorem found_iff_unshadowed (m : Manager) (ops : List Op) (k : CacheKey) (adj now : Js.Num) :
    (StoredValid k adj now (m.machine.run {} ops) →
        HasAccessToken (m.get k adj now (m.machine.run {} ops)).2) ↔
      (StoredValid k adj now (m.machine.run {} ops) →
        Unshadowed m k adj now (m.machine.run {} ops)) := by
  rw [hasAccessToken_get_iff, find_live_iff_unshadowed]

/-- The defect: an expired entry for `a b` stands in front of a valid one for
`a b c`. A request for `a` matches the first, drops it and returns nothing. -/
theorem valid_token_hidden :
    StoredValid (sampleKey "a") (.fin 0) (.fin 65000)
        ((⟨true, none⟩ : Manager).machine.run {}
          [.set (sampleEntry "a b" 60 .undefined) (.fin 0),
           .set (sampleEntry "a b c" 1000 .undefined) (.fin 0)]) ∧
      ¬ HasAccessToken ((⟨true, none⟩ : Manager).get (sampleKey "a") (.fin 0) (.fin 65000)
        ((⟨true, none⟩ : Manager).machine.run {}
          [.set (sampleEntry "a b" 60 .undefined) (.fin 0),
           .set (sampleEntry "a b c" 1000 .undefined) (.fin 0)])).2 := by
  decide +kernel

end AuthokSpa.Cache
