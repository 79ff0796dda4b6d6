import AuthokSpa.Cache.Invariant

/-!
# Where a cached body comes from

`get` returns copies of copies: stripping stores an entry under the requested
key even when it was found under another one, and that copy can be found and
stripped again. `Origin` traces every stored object back to the `set` that
made it. A binding may sit under a key with *fewer* scopes than the entry was
stored with, never under another client or audience, and its expiry is still
the one computed at that `set`; `matchesKey_toKey` makes each further copy keep
this.

The readability of the key format carries the argument, so all keys of the run
are well formed, and expiries are numbers, so that "not expired" is "at most".
-/

namespace AuthokSpa.Cache


/-- The operation's keys are readable and its numbers are numbers. Entries have
a numeric `expires_in`, and a numeric `exp` as `verify` guarantees. -/
def Op.Ok : Op → Prop
  | .set e now =>
    (CacheKey.ofEntry e).WellFormed ∧ e.expires_in.IsNum ∧ e.decodedToken.exp.IsNum ∧ now.IsFin
  | .get k adj now => k.WellFormed ∧ adj.IsFin ∧ now.IsFin
  | .clear _ => True

/-- The key of an entry with another scope. -/
def keyWithScope (e : CacheEntry) (scope : String) : CacheKey :=
  { CacheKey.ofEntry e with scope := scope }

/-- A stored object comes from an earlier `set` of `e` at `t`, for a key with
some of the scopes of `e`; it is `e` itself or its refresh token alone. -/
def Origin (past : List Op) (key : String) : Cacheable → Prop
  | .manifest _ => True
  | .wrapped w => ∃ e t scope, Op.set e t ∈ past ∧ (Op.set e t).Ok ∧
      (keyWithScope e scope).WellFormed ∧ key = (keyWithScope e scope).toKey ∧
      ScopeSubset scope e.scope ∧ w.expiresAt = expiryOf e t ∧
      (w.body = .entry e ∨ w.body = .refreshOnly e.refresh_token)

theorem Origin.mono {past : List Op} {key : String} {v : Cacheable} (h : Origin past key v)
    (op : Op) : Origin (past ++ [op]) key v := by
  cases v with
  | manifest keys => trivial
  | wrapped w =>
    obtain ⟨e, t, scope, hset, hrest⟩ := h
    exact ⟨e, t, scope, List.mem_append_left _ hset, hrest⟩

theorem Origin.strip {past : List Op} {key : String} {w : WrappedCacheEntry}
    (h : Origin past key (.wrapped w)) : Origin past key (.wrapped w.strip) := by
  obtain ⟨e, t, scope, hset, hok, hwf, hkey, hsub, hexp, hbody⟩ := h
  refine ⟨e, t, scope, hset, hok, hwf, hkey, hsub, hexp, Or.inr ?_⟩
  rcases hbody with hb | hb <;> simp [WrappedCacheEntry.strip, hb, Body.refresh_token]

/-- A key that is `k`'s or matches `k`, made from `e`, is for `k`'s client and
audience and has `k`'s scopes. -/
theorem keyWithScope_found {k : CacheKey} (hk : k.WellFormed) {e : CacheEntry} {scope : String}
    (hwf : (keyWithScope e scope).WellFormed)
    (h : (keyWithScope e scope).toKey = k.toKey ∨ matchesKey k (keyWithScope e scope).toKey = true) :
    e.client_id = k.client_id ∧ e.audience = k.audience ∧ ScopeSubset k.scope scope := by
  rcases h with heq | hmatch
  · have hkk := toKey_inj hwf hk heq
    rw [← hkk]
    exact ⟨rfl, rfl, ScopeSubset.refl _⟩
  · obtain ⟨-, hc, ha, hs⟩ := (matchesKey_toKey hwf).mp hmatch
    exact ⟨hc, ha, hs⟩

/-- The copy made for the requested key has the same origin. -/
theorem Origin.copy {past : List Op} {k : CacheKey} (hk : k.WellFormed) {key : String}
    {w : WrappedCacheEntry} (h : Origin past key (.wrapped w))
    (hkey : key = k.toKey ∨ matchesKey k key = true) : Origin past k.toKey (.wrapped w) := by
  obtain ⟨e, t, scope, hset, hok, hwf, rfl, hsub, hexp, hbody⟩ := h
  obtain ⟨hc, ha, hs⟩ := keyWithScope_found hk hwf hkey
  have hkk : keyWithScope e k.scope = k := by
    unfold keyWithScope CacheKey.ofEntry
    rw [hc, ha, ← hk.sdk]
  exact ⟨e, t, k.scope, hset, hok, hkk ▸ hk, by rw [hkk], hs.trans hsub, hexp, hbody⟩

/-- One step keeps every stored object traceable. -/
theorem step_origin {m : Manager} {past : List Op} {s : Store} (hs : s.Valid)
    (h : s.All (Origin past)) {op : Op} (hop : op.Ok) :
    (m.machine.step s op).1.All (Origin (past ++ [op])) := by
  have hmono : s.All (Origin (past ++ [op])) := fun b hb => (h b hb).mono op
  cases op with
  | set e now =>
    refine set_all hs hmono (fun _ _ _ => trivial) ?_
    exact ⟨e, now, e.scope, by simp, hop, hop.1, rfl, ScopeSubset.refl _, rfl, Or.inl rfl⟩
  | get k adj now =>
    exact get_all hs hmono (fun _ _ _ => trivial) (fun _ _ ho => ho.strip)
      (fun _ _ ho hkey => (ho.copy hop.1 hkey).strip) adj now
  | clear clientId => exact clear_all hmono clientId

theorem run_origin {m : Manager} {ops : List Op} (hops : ∀ op ∈ ops, op.Ok) :
    (m.machine.run {} ops).All (Origin ops) := by
  refine (Machine.run_history (M := m.machine)
    (P := fun past s => s.Valid ∧ s.All (Origin past)) ⟨Store.valid_empty, ?_⟩ ops ?_).2
  · intro b hb
    simp at hb
  · intro past op s hcut ⟨hs, ho⟩
    have hop : op ∈ ops := hcut.subset (by simp)
    exact ⟨step_valid hs op, step_origin hs ho (hops op hop)⟩

/-- **Provenance and expiry.** Whatever was done before, a body returned by
`get` is an entry that an earlier `set` stored for the same client and audience
with at least the requested scopes, still within its lifetime less the
adjustment, or it is the refresh token of such an entry and nothing else. -/
theorem get_provenance (m : Manager) {ops : List Op} (hops : ∀ op ∈ ops, op.Ok)
    {k : CacheKey} {adj now : Js.Num} (hget : (Op.get k adj now).Ok) {body : Body}
    (h : (m.get k adj now (m.machine.run {} ops)).2 = some body) :
    ∃ e t, Op.set e t ∈ ops ∧ e.client_id = k.client_id ∧ e.audience = k.audience ∧
      ScopeSubset k.scope e.scope ∧
      ((body = .entry e ∧ now.seconds ≤ expiryOf e t - adj) ∨
        body = .refreshOnly e.refresh_token) := by
  obtain ⟨hk, hadj, hnow⟩ := hget
  rcases m.get_cases k adj now (m.machine.run {} ops) with
    hg | ⟨c, w, hfind, hw, hcase⟩
  · rw [hg] at h
    simp at h
  · obtain ⟨key, hc, hkey⟩ := m.findEntry_mem hfind
    have horigin := (run_origin hops).get hc
    rw [hw] at horigin
    -- the invariant: what is under the key comes from a `set`, maybe stripped
    obtain ⟨e, t, scope, hset, hok, hwf, rfl, hsub, hexp, hbody⟩ := horigin
    obtain ⟨hcl, hau, hsc⟩ := keyWithScope_found hk hwf hkey
    refine ⟨e, t, hset, hcl, hau, hsc.trans hsub, ?_⟩
    rcases hcase with ⟨hlive, hg⟩ | ⟨-, -, hg⟩ | ⟨-, -, hg⟩
    · rw [hg] at h
      obtain rfl : w.body = body := by simpa using h
      rcases hbody with hb | hb
      · refine Or.inl ⟨hb, ?_⟩
        obtain ⟨-, hein, hexpn, ht⟩ := hok
        -- not being earlier is being later only between numbers
        have hnum : (expiryOf e t).IsNum :=
          Js.Num.isNum_min (Js.Num.isNum_add_of_fin (Js.Num.isFin_seconds ht) hein) hexpn
        rw [← hexp] at hnum ⊢
        exact (Js.Num.not_lt_iff (Js.Num.isNum_sub_of_fin hnum hadj)
          (Js.Num.isFin_seconds hnow).isNum).mp hlive
      · exact Or.inr hb
    · rw [hg] at h
      obtain rfl : w.strip.body = body := by simpa using h
      right
      rcases hbody with hb | hb <;> simp [WrappedCacheEntry.strip, hb, Body.refresh_token]
    · rw [hg] at h
      simp at h

/-- The hypotheses of a run of sample operations. -/
theorem sample_set_ok {scope : String} (h : Js.includes scope "::" = false) (exp t : ℚ)
    (r : Js.Value) : (Op.set (sampleEntry scope exp r) (.fin t)).Ok :=
  ⟨⟨rfl, show FieldOk "client" by decide, show FieldOk "api" by decide, h⟩,
    show Js.Num.fin 86400 ≠ .nan by simp, show Js.Num.fin exp ≠ .nan by simp, ⟨t, rfl⟩⟩

theorem sample_get_ok {scope : String} (h : Js.includes scope "::" = false) (adj t : ℚ) :
    (Op.get (sampleKey scope) (.fin adj) (.fin t)).Ok :=
  ⟨⟨rfl, show FieldOk "client" by decide, show FieldOk "api" by decide, h⟩, ⟨adj, rfl⟩, ⟨t, rfl⟩⟩

/-- An expired entry for `a b` with a refresh token, asked for as `a` and then
again as `a`: the second answer is the copy the first one made. -/
theorem get_provenance_of_copy :
    ∃ body, ((⟨false, none⟩ : Manager).get (sampleKey "a") (.fin 0) (.fin 70000)
        ((⟨false, none⟩ : Manager).machine.run {}
          [.set (sampleEntry "a b" 60 (.str "r")) (.fin 0),
           .get (sampleKey "a") (.fin 0) (.fin 65000)])).2 = some body ∧
      ∃ e t, Op.set e t ∈ [Op.set (sampleEntry "a b" 60 (.str "r")) (.fin 0),
          .get (sampleKey "a") (.fin 0) (.fin 65000)] ∧
        e.client_id = "client" ∧ e.audience = "api" ∧ ScopeSubset "a" e.scope ∧
        ((body = .entry e ∧ (Js.Num.fin 70000).seconds ≤ expiryOf e t - .fin 0) ∨
          body = .refreshOnly e.refresh_token) := by
  have hfound : ((⟨false, none⟩ : Manager).get (sampleKey "a") (.fin 0) (.fin 70000)
      ((⟨false, none⟩ : Manager).machine.run {}
        [.set (sampleEntry "a b" 60 (.str "r")) (.fin 0),
         .get (sampleKey "a") (.fin 0) (.fin 65000)])).2.isSome = true := by decide +kernel
  obtain ⟨body, hbody⟩ := Option.isSome_iff_exists.mp hfound
  refine ⟨body, hbody, get_provenance _ ?_ (sample_get_ok (by decide) 0 70000) hbody⟩
  intro op hop
  rcases List.mem_cons.mp hop with rfl | hop'
  · exact sample_set_ok (by decide) 60 0 _
  · obtain rfl : op = _ := List.mem_singleton.mp hop'
    exact sample_get_ok (by decide) 0 65000

end AuthokSpa.Cache
