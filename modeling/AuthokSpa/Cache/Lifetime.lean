import AuthokSpa.Cache.Invariant
import AuthokSpa.Jwt.Valid

/-!
# Entries do not outlive their ID token

The expiry of an entry is the earlier of two moments, the end of the access
token and the `exp` of the ID token. `Math.min` with `NaN` is `NaN`, and a
comparison with `NaN` is false, so an entry with no `expires_in` has no expiry
at all: it is handed out for ever. `entry_ends_iff` says that this is the only
way an entry of the in-memory cache outlives its ID token, whatever is stored,
read and cleared before and after.
-/

namespace AuthokSpa.Cache


/-- `InMemoryCache`, which lists its own keys. -/
def inMemory : Manager := ⟨true, none⟩

/-- The clock of a `set` is a number. -/
def Op.Timed : Op → Prop
  | .set _ now => now.IsFin
  | _ => True

/-! ## Arithmetic -/

theorem min_le_right {a b : Js.Num} (ha : a.IsNum) (hb : b.IsNum) : Js.Num.min a b ≤ b := by
  unfold Js.Num.min
  rw [if_neg (by simp [show a ≠ .nan from ha, show b ≠ .nan from hb])]
  split
  · rw [← Js.Num.not_lt_iff hb hb]
    intro h
    change Js.Num.blt b b = true at h
    cases b <;> simp [Js.Num.blt] at h
  next h => exact (Js.Num.not_lt_iff hb ha).mp h

/-- What is at most `b`, less a non-negative adjustment, is below all that `b` is
below. -/
theorem sub_lt_of_le {a b adj t : Js.Num} (hab : a ≤ b) (hadj : .fin 0 ≤ adj) (hbt : b < t) :
    a - adj < t := by
  change Js.Num.ble a b = true at hab
  change Js.Num.ble (.fin 0) adj = true at hadj
  change Js.Num.blt b t = true at hbt
  change Js.Num.blt (a.add adj.neg) t = true
  cases a <;> cases b <;> cases adj <;> cases t <;>
    simp_all [Js.Num.ble, Js.Num.blt, Js.Num.add, Js.Num.neg]
  linarith

/-! ## Runs -/

section Bounded

variable {e : CacheEntry}

/-- Where `e` is stored, its expiry is at most the `exp` of its ID token. -/
def Ends (e : CacheEntry) (_ : String) : Cacheable → Prop
  | .manifest _ => True
  | .wrapped w => w.body = .entry e → w.expiresAt ≤ e.decodedToken.exp

theorem ends_wrap (hexp : e.decodedToken.exp.IsNum) (hin : e.expires_in.IsNum) (key : String)
    (e' : CacheEntry) {now : Js.Num} (hnow : now.IsFin) :
    Ends e key (.wrapped (wrapCacheEntry e' now)) := by
  intro hbody
  obtain rfl : e' = e := Body.entry.inj hbody
  exact min_le_right (Js.Num.isNum_add_of_fin (Js.Num.isFin_seconds hnow) hin) hexp

theorem ends_strip (key : String) (w : WrappedCacheEntry) : Ends e key (.wrapped w.strip) := by
  intro hbody
  exact Body.noConfusion hbody

/-- A step keeps it: only `set` stores an entry with an access token. -/
theorem step_ends (hexp : e.decodedToken.exp.IsNum) (hin : e.expires_in.IsNum) {m : Manager}
    {s : Store} (hs : s.Valid) (h : s.All (Ends e)) {op : Op} (hop : op.Timed) :
    (m.machine.step s op).1.All (Ends e) := by
  cases op with
  | set e' now => exact set_all hs h (fun _ _ _ => trivial) (ends_wrap hexp hin _ e' hop)
  | get k adj now =>
    exact get_all hs h (fun _ _ _ => trivial) (fun key w _ => ends_strip key w)
      (fun _ w _ _ => ends_strip _ w) adj now
  | clear clientId => exact clear_all h clientId

theorem run_ends (hexp : e.decodedToken.exp.IsNum) (hin : e.expires_in.IsNum) {m : Manager}
    {ops : List Op} (hops : ∀ op ∈ ops, op.Timed) : (m.machine.run {} ops).All (Ends e) := by
  refine (Machine.run_guarded (M := m.machine) (C := fun _ op => op.Timed)
    (P := fun s => s.Valid ∧ s.All (Ends e)) ?_ ops {} ⟨Store.valid_empty, ?_⟩ ?_).2
  · intro s op hs hop
    exact ⟨step_valid hs.1 op, step_ends hexp hin hs.1 hs.2 hop⟩
  · intro b hb
    exact absurd hb List.not_mem_nil
  · exact Machine.meets_of_forall _ _ fun op hop _ => hops op hop

/-- An entry that has ended is expired, whatever the adjustment. -/
theorem get_ne_of_ends {m : Manager} {s : Store} (h : s.All (Ends e)) (k : CacheKey)
    {adj now : Js.Num} (hadj : .fin 0 ≤ adj) (hlate : e.decodedToken.exp < now.seconds) :
    (m.get k adj now s).2 ≠ some (.entry e) := by
  intro hget
  rcases m.get_cases k adj now s with hg | ⟨c, w, hfind, hw, ⟨hlive, hg⟩ | ⟨-, -, hg⟩ | ⟨-, -, hg⟩⟩
  · rw [hg] at hget
    exact absurd hget (by simp)
  · rw [hg] at hget
    obtain ⟨key, hc, -⟩ := m.findEntry_mem hfind
    have hends := h.get hc
    rw [hw] at hends
    exact hlive (sub_lt_of_le (hends (Option.some.inj hget)) hadj hlate)
  · rw [hg] at hget
    exact absurd (Option.some.inj hget) (by simp [WrappedCacheEntry.strip])
  · rw [hg] at hget
    exact absurd hget (by simp)

/-- An entry without `expires_in` never expires. -/
theorem not_expired_of_absent (hin : ¬ e.expires_in.IsNum) (now adj now' : Js.Num) :
    ¬ (wrapCacheEntry e now).expired adj now' := by
  have habsent : e.expires_in = .nan := not_not.mp hin
  have hnan : expiryOf e now = .nan := by
    unfold expiryOf
    rw [habsent, show now.seconds + Js.Num.nan = .nan by cases now.seconds <;> rfl]
    exact if_pos (Or.inl rfl)
  show ¬ expiryOf e now - adj < now'.seconds
  rw [hnan]
  exact Js.not_nan_lt _

/-- There is a time after every moment but infinity. -/
theorem exists_later {exp : Js.Num} (hexp : exp.IsNum) (hinf : exp ≠ .posInf) :
    ∃ now : Js.Num, exp < now.seconds := by
  cases exp with
  | nan => exact absurd rfl hexp
  | posInf => exact absurd rfl hinf
  | negInf => exact ⟨.fin 0, rfl⟩
  | fin q =>
    refine ⟨.fin ((⌊q⌋ + 1 : Int) * 1000), ?_⟩
    have hdiv : ((⌊q⌋ + 1 : Int) : ℚ) * 1000 / 1000 = ((⌊q⌋ + 1 : Int) : ℚ) :=
      mul_div_cancel_right₀ _ (by norm_num)
    rw [Js.Num.seconds_fin, hdiv, Int.floor_intCast, Js.Num.fin_lt_fin]
    push_cast
    exact Int.lt_floor_add_one q

/-- **No credential outlives the ID token** in the in-memory cache, whatever is done
before the entry is stored and after, if and only if the response said how long
the access token lasts (or the ID token never ends). -/
theorem entry_ends_iff (e : CacheEntry) (hexp : e.decodedToken.exp.IsNum) :
    (∀ (before after : List Op) (t : Js.Num), (∀ op ∈ before ++ .set e t :: after, op.Timed) →
      ∀ (k : CacheKey) (adj now : Js.Num), .fin 0 ≤ adj → e.decodedToken.exp < now.seconds →
        (inMemory.get k adj now (inMemory.machine.run {} (before ++ .set e t :: after))).2 ≠
          some (.entry e)) ↔
      e.expires_in.IsNum ∨ e.decodedToken.exp = .posInf := by
  constructor
  · intro h
    by_contra hnot
    obtain ⟨hin, hinf⟩ := not_or.mp hnot
    obtain ⟨now, hnow⟩ := exists_later hexp hinf
    refine h [] [] (.fin 0) ?_ (CacheKey.ofEntry e) (.fin 0) now (by decide +kernel) hnow ?_
    · intro op hop
      obtain rfl := List.mem_singleton.mp hop
      exact ⟨0, rfl⟩
    · show (inMemory.get (CacheKey.ofEntry e) (.fin 0) now (inMemory.set e (.fin 0) {})).2 = _
      rw [Manager.get_set rfl (fun _ hcid => absurd hcid (by simp [inMemory]))
        (not_expired_of_absent hin _ _ _)]
  · rintro (hin | hinf) before after t htimed k adj now hadj hlate
    · exact get_ne_of_ends (run_ends hexp hin htimed) k hadj hlate
    · rw [hinf] at hlate
      change Js.Num.blt .posInf now.seconds = true at hlate
      cases hsec : now.seconds <;> simp [hsec, Js.Num.blt] at hlate

end Bounded

/-- The entry of a token response without `expires_in`. -/
def unlimited : CacheEntry where
  id_token := .str VerifyRequest.hourlyClaims.token
  access_token := .str "access"
  expires_in := .nan
  decodedToken := VerifyRequest.hourlyClaims.decoded
  audience := "default"
  scope := "openid"
  client_id := "client"

theorem entry_ends_iff_unlimited :
    unlimited.decodedToken.exp.IsNum ∧
      ¬ (unlimited.expires_in.IsNum ∨ unlimited.decodedToken.exp = .posInf) ∧
      ¬ ∀ (before after : List Op) (t : Js.Num),
        (∀ op ∈ before ++ .set unlimited t :: after, op.Timed) →
        ∀ (k : CacheKey) (adj now : Js.Num), .fin 0 ≤ adj →
          unlimited.decodedToken.exp < now.seconds →
          (inMemory.get k adj now
            (inMemory.machine.run {} (before ++ .set unlimited t :: after))).2 ≠
              some (.entry unlimited) := by
  have hexp : unlimited.decodedToken.exp = .fin ((1700000000 : Int) : ℚ) := rfl
  have hnum : unlimited.decodedToken.exp.IsNum := by
    rw [hexp]
    simp [Js.Num.IsNum]
  have hnot : ¬ (unlimited.expires_in.IsNum ∨ unlimited.decodedToken.exp = .posInf) := by
    rw [hexp]
    simp [unlimited, Js.Num.IsNum]
  exact ⟨hnum, hnot, fun h => hnot ((entry_ends_iff unlimited hnum).mp h)⟩

/-- `verify` accepts the token, and years after its end the entry is handed out. -/
theorem unlimited_outlives_token :
    verify (VerifyRequest.hourly.options VerifyRequest.hourlyClaims.token) .nan =
        .ok unlimited.decodedToken ∧
      unlimited.decodedToken.exp < (Js.Num.fin 1900000000000).seconds ∧
      (inMemory.get (CacheKey.ofEntry unlimited) (.fin 0) (.fin 1900000000000)
        (inMemory.set unlimited (.fin 1700000060000) {})).2 = some (.entry unlimited) := by
  refine ⟨VerifyRequest.verify_hourly, by decide +kernel, ?_⟩
  have habsent : ¬ unlimited.expires_in.IsNum := by simp [unlimited, Js.Num.IsNum]
  rw [Manager.get_set rfl (fun _ hcid => absurd hcid (by simp [inMemory]))
    (not_expired_of_absent habsent _ _ _)]

end AuthokSpa.Cache
