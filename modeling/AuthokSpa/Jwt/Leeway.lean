import AuthokSpa.Jwt.Issue

/-!
# More leeway

The leeway lengthens the time a token is good for, at both ends, so a token that
one leeway lets through should be let through by every larger one. `verify` keeps
to that but for two things.

`options.leeway || 60` takes a configured `0` for no leeway at all and puts 60 s in
its place, so going from `0` to a leeway below a minute shortens the time
(`Shrinks`). And a date out of range is `NaN`, which no comparison rejects: a
claim so far out that its date is not one passes, until more leeway brings the date
into range, on the wrong side of the clock.

`accepts_more_iff`: with the larger leeway the token is accepted exactly when
neither happens to one of its three dates.
-/

namespace AuthokSpa

open Js (Value)

namespace JWTVerifyOptions

variable (o : JWTVerifyOptions)

/-- The options with this leeway configured. -/
def withLeeway (leeway : Js.Num) : JWTVerifyOptions := { o with leeway := .num leeway }

/-- The leeway that a configured number puts in force. -/
def inForce (leeway : Js.Num) : Js.Num := if leeway = .fin 0 then .fin 60 else leeway

/-- The larger configured leeway is the shorter one in force. -/
def Shrinks (L₁ L₂ : Js.Num) : Prop := L₁ = .fin 0 ∧ .fin 0 < L₂ ∧ L₂ < .fin 60

instance (L₁ L₂ : Js.Num) : Decidable (Shrinks L₁ L₂) :=
  inferInstanceAs (Decidable (L₁ = .fin 0 ∧ .fin 0 < L₂ ∧ L₂ < .fin 60))

/-- The seconds from which `auth_time` is too old, without leeway. -/
def authTimeLimit (claims : IdToken) : Js.Num :=
  Js.parseInt (claims.get "auth_time").toText + addend o.max_age

/-- Where the leeway in force shrinks, or a date was none with the smaller leeway, the
clock is on the right side of the date with the larger one. -/
structure KeepsTimes (claims : IdToken) (L₁ L₂ : Js.Num) : Prop where
  exp : Shrinks L₁ L₂ ∨ Js.TooEarly ((claims.get "exp").asNum + inForce L₁) →
    ¬ Js.Passed ((claims.get "exp").asNum + inForce L₂) o.now
  nbf : (claims.get "nbf").isNumber = true →
    Shrinks L₁ L₂ ∨ Js.TooLate ((claims.get "nbf").asNum - inForce L₁) →
      ¬ Js.Ahead ((claims.get "nbf").asNum - inForce L₂) o.now
  auth_time : (claims.get "auth_time").isNumber = true →
    Shrinks L₁ L₂ ∨ Js.TooEarly (o.authTimeLimit claims + inForce L₁) →
      ¬ Js.Passed (o.authTimeLimit claims + inForce L₂) o.now

variable {o} {dateNow L L₁ L₂ : Js.Num}

/-! ## The leeway in force -/

/-- What is not below `0` is a number, and not below it either. -/
theorem ne_nan_of_le (h : .fin 0 ≤ L) : L ≠ .nan := by
  rintro rfl
  cases h

theorem leewayInForce_withLeeway (h : .fin 0 ≤ L) :
    (o.withLeeway L).leewayInForce = inForce L := by
  show ((Value.num L).or (.num (.fin 60))).asNum = inForce L
  unfold Value.or inForce
  by_cases hzero : L = .fin 0
  · rw [hzero]
    rfl
  · have htruthy : (Value.num L).truthy = true := by
      simp [Value.truthy, Js.Num.truthy, hzero, ne_nan_of_le h]
    rw [if_pos htruthy, if_neg hzero]
    rfl

theorem inForce_nonneg (h : .fin 0 ≤ L) : .fin 0 ≤ inForce L := by
  unfold inForce
  split
  · exact (Js.Num.fin_le_fin _ _).mpr (by norm_num)
  · exact h

/-- Numbers not below `0`, by their constructors. -/
theorem nonneg_cases (h : .fin 0 ≤ L) : (∃ q : ℚ, L = .fin q ∧ 0 ≤ q) ∨ L = .posInf := by
  cases L with
  | nan => cases h
  | negInf => cases h
  | fin q => exact Or.inl ⟨q, rfl, (Js.Num.fin_le_fin _ _).mp h⟩
  | posInf => exact Or.inr rfl

theorem nonneg_of_le (h0 : .fin 0 ≤ L₁) (hle : L₁ ≤ L₂) : .fin 0 ≤ L₂ := by
  rcases nonneg_cases h0 with ⟨a, rfl, ha⟩ | rfl
  · cases L₂ with
    | nan => cases hle
    | negInf => cases hle
    | fin b => exact (Js.Num.fin_le_fin _ _).mpr (le_trans ha ((Js.Num.fin_le_fin _ _).mp hle))
    | posInf => rfl
  · cases L₂ <;> cases hle
    rfl

/-- The leeways in force are in the order of the configured ones, but for a `0`. -/
theorem inForce_mono (h0 : .fin 0 ≤ L₁) (hle : L₁ ≤ L₂) (hkeep : ¬ Shrinks L₁ L₂) :
    inForce L₁ ≤ inForce L₂ := by
  unfold inForce
  by_cases hzero : L₁ = .fin 0
  · rw [if_pos hzero]
    by_cases hzero' : L₂ = .fin 0
    · rw [if_pos hzero']
      exact (Js.Num.fin_le_fin _ _).mpr le_rfl
    · rw [if_neg hzero']
      rcases nonneg_cases (nonneg_of_le h0 hle) with ⟨b, rfl, hb⟩ | rfl
      · -- a leeway above `0` that does not shrink the one in force is a minute at least
        have hbpos : 0 < b := lt_of_le_of_ne hb fun h => hzero' (by rw [h])
        refine (Js.Num.fin_le_fin _ _).mpr (not_lt.mp fun hlt => hkeep ?_)
        exact ⟨hzero, (Js.Num.fin_lt_fin _ _).mpr hbpos, (Js.Num.fin_lt_fin _ _).mpr hlt⟩
      · rfl
  · have hzero' : L₂ ≠ .fin 0 := by
      rintro rfl
      rcases nonneg_cases h0 with ⟨a, rfl, ha⟩ | rfl
      · have hab := (Js.Num.fin_le_fin _ _).mp hle
        exact hzero (by rw [le_antisymm hab ha])
      · cases hle
    rw [if_neg hzero, if_neg hzero']
    exact hle

/-! ## Acceptance -/

/-- What the leeway has a say in. -/
theorem accepts_withLeeway {d : DecodedToken} (h : (o.withLeeway L₁).Accepts d dateNow) :
    (o.withLeeway L₂).Accepts d dateNow ↔
      ¬ (o.withLeeway L₂).expDate d.claims < (o.withLeeway L₂).nowDate dateNow ∧
      ((d.claims.get "nbf").isNumber = true →
        ¬ (o.withLeeway L₂).nowDate dateNow < (o.withLeeway L₂).nbfDate d.claims) ∧
      ((d.claims.get "auth_time").isNumber = true →
        ¬ (o.withLeeway L₂).authTimeDate d.claims < (o.withLeeway L₂).nowDate dateNow) := by
  constructor
  · intro h'
    exact ⟨h'.notExpired, h'.notBefore, h'.notTooOld⟩
  · rintro ⟨hexp, hnbf, hauth⟩
    exact
      { issuer := h.issuer
        subject := h.subject
        algorithm := h.algorithm
        audience := h.audience
        nonce := h.nonce
        authTime := h.authTime
        exp := h.exp
        iat := h.iat
        notExpired := hexp
        notBefore := hnbf
        notTooOld := hauth
        organization := h.organization }

theorem nowDate_withLeeway (hnow : .fin 0 < o.now) :
    (o.withLeeway L).nowDate dateNow = Js.dateOf o.now := by
  have htruthy : o.now.truthy = true := by
    rcases Js.clock_cases hnow with ⟨t, ht, hpos⟩ | hinf
    · rw [ht]
      simp [Js.Num.truthy, ne_of_gt hpos]
    · rw [hinf]
      rfl
  show Js.dateOf (if o.now.truthy then o.now else dateNow) = _
  rw [if_pos htruthy]

theorem expired_iff (hnow : .fin 0 < o.now) (h0 : .fin 0 ≤ L) (claims : IdToken)
    (dateNow : Js.Num) :
    (o.withLeeway L).expDate claims < (o.withLeeway L).nowDate dateNow ↔
      Js.Passed ((claims.get "exp").asNum + inForce L) o.now := by
  rw [nowDate_withLeeway hnow, ← Js.dateOfSeconds_lt_dateOf_iff _ hnow]
  unfold expDate
  rw [leewayInForce_withLeeway h0]

theorem early_iff (hnow : .fin 0 < o.now) (h0 : .fin 0 ≤ L) (claims : IdToken)
    (dateNow : Js.Num) :
    (o.withLeeway L).nowDate dateNow < (o.withLeeway L).nbfDate claims ↔
      Js.Ahead ((claims.get "nbf").asNum - inForce L) o.now := by
  rw [nowDate_withLeeway hnow, ← Js.dateOf_lt_dateOfSeconds_iff _ hnow]
  unfold nbfDate
  rw [leewayInForce_withLeeway h0]

theorem tooOld_iff (hnow : .fin 0 < o.now) (h0 : .fin 0 ≤ L) (claims : IdToken)
    (dateNow : Js.Num) :
    (o.withLeeway L).authTimeDate claims < (o.withLeeway L).nowDate dateNow ↔
      Js.Passed (o.authTimeLimit claims + inForce L) o.now := by
  rw [nowDate_withLeeway hnow, ← Js.dateOfSeconds_lt_dateOf_iff _ hnow]
  unfold authTimeDate
  rw [leewayInForce_withLeeway h0]
  rfl

/-- A date that the clock has not passed it does not pass with more leeway, but where
`KeepsTimes` looks. -/
theorem not_passed_of_keeps {s : Js.Num} (h0 : .fin 0 ≤ L₁) (hle : L₁ ≤ L₂)
    (h : ¬ Js.Passed (s + inForce L₁) o.now)
    (hkeep : Shrinks L₁ L₂ ∨ Js.TooEarly (s + inForce L₁) →
      ¬ Js.Passed (s + inForce L₂) o.now) :
    ¬ Js.Passed (s + inForce L₂) o.now := by
  intro hpassed
  by_cases hcase : Shrinks L₁ L₂ ∨ Js.TooEarly (s + inForce L₁)
  · exact hkeep hcase hpassed
  · rw [not_or] at hcase
    apply h
    exact Js.passed_of_le (inForce_nonneg h0) (inForce_mono h0 hle hcase.1) hcase.2 hpassed

theorem not_ahead_of_keeps {s : Js.Num} (h0 : .fin 0 ≤ L₁) (hle : L₁ ≤ L₂)
    (h : ¬ Js.Ahead (s - inForce L₁) o.now)
    (hkeep : Shrinks L₁ L₂ ∨ Js.TooLate (s - inForce L₁) →
      ¬ Js.Ahead (s - inForce L₂) o.now) :
    ¬ Js.Ahead (s - inForce L₂) o.now := by
  intro hahead
  by_cases hcase : Shrinks L₁ L₂ ∨ Js.TooLate (s - inForce L₁)
  · exact hkeep hcase hahead
  · rw [not_or] at hcase
    apply h
    exact Js.ahead_of_le (inForce_nonneg h0) (inForce_mono h0 hle hcase.1) hcase.2 hahead

/-- **A token that one leeway lets through, a larger one lets through** unless the
leeway in force shrinks past one of its dates, or brings one back into range on the
wrong side of the clock. -/
theorem accepts_more_iff (o : JWTVerifyOptions) (dateNow : Js.Num) (d : DecodedToken)
    (L₁ L₂ : Js.Num) (hnow : .fin 0 < o.now) (h0 : .fin 0 ≤ L₁) (hle : L₁ ≤ L₂)
    (haccepted : verify (o.withLeeway L₁) dateNow = .ok d) :
    verify (o.withLeeway L₂) dateNow = .ok d ↔ o.KeepsTimes d.claims L₁ L₂ := by
  obtain ⟨token, htoken, hne, hdecode, hacc⟩ := (verify_ok_iff _ _ _).mp haccepted
  have h0' := nonneg_of_le h0 hle
  have hverify : verify (o.withLeeway L₂) dateNow = .ok d ↔
      (o.withLeeway L₂).Accepts d dateNow := by
    rw [verify_ok_iff]
    constructor
    · rintro ⟨-, -, -, -, h⟩
      exact h
    · intro h
      exact ⟨token, htoken, hne, hdecode, h⟩
  -- the three dates, with the smaller leeway on the right side of the clock
  have hexp := mt (expired_iff hnow h0 d.claims dateNow).mpr hacc.notExpired
  have hnbf := fun hn => mt (early_iff hnow h0 d.claims dateNow).mpr (hacc.notBefore hn)
  have hauth := fun ha => mt (tooOld_iff hnow h0 d.claims dateNow).mpr (hacc.notTooOld ha)
  rw [hverify, accepts_withLeeway hacc, expired_iff hnow h0', early_iff hnow h0',
    tooOld_iff hnow h0']
  constructor
  · rintro ⟨hexp', hnbf', hauth'⟩
    exact
      { exp := fun _ => hexp'
        nbf := fun hn _ => hnbf' hn
        auth_time := fun ha _ => hauth' ha }
  · intro hkeeps
    exact ⟨not_passed_of_keeps h0 hle hexp hkeeps.exp,
      fun hn => not_ahead_of_keeps h0 hle (hnbf hn) (hkeeps.nbf hn),
      fun ha => not_passed_of_keeps h0 hle (hauth ha) (hkeeps.auth_time ha)⟩

/-! ## A configured leeway of `0` -/

/-- A token that expired half a minute ago. -/
def lateClaims : IssuedClaims where
  iss := "https://idp/"
  aud := "client"
  nonce := ""
  org_id := ""
  exp := 100
  exp_small := by decide
  auth_text := Js.quote "".toList
  auth_time := .str ""
  auth_reads := Js.reads_quote ""

def lateOptions : JWTVerifyOptions where
  iss := "https://idp/"
  aud := .str "client"
  id_token := .str lateClaims.token
  nonce := .undefined
  leeway := .undefined
  max_age := .undefined
  organizationId := .undefined
  now := .fin (130000 : Int)

theorem clock_lateOptions : Js.Num.fin 0 < lateOptions.now :=
  (Js.Num.fin_lt_fin _ _).mpr (by norm_num)

/-- The time that a whole leeway leaves the token. -/
theorem passed_late (s : Int) :
    Js.Passed ((lateClaims.decoded.claims.get "exp").asNum + .fin s) lateOptions.now ↔
      (100 + s) * 1000 < 130000 ∧ -Js.maxTime ≤ (100 + s) * 1000 := by
  have hsum : (lateClaims.decoded.claims.get "exp").asNum + .fin s = .fin ((100 + s : Int) : ℚ) := by
    show Js.Num.fin (((100 : Int) : ℚ) + s) = _
    rw [Int.cast_add]
  rw [hsum]
  refine (Js.passed_int_iff (100 + s) 130000).trans ?_
  have hmax : (130000 : Int) ≤ Js.maxTime := by decide
  omega

theorem verify_late (h0 : .fin 0 ≤ L)
    (h : ¬ Js.Passed ((lateClaims.decoded.claims.get "exp").asNum + inForce L) lateOptions.now) :
    verify (lateOptions.withLeeway L) .nan = .ok lateClaims.decoded := by
  refine lateClaims.verify_current rfl rfl (by decide) rfl (by decide) (fun h => nomatch h)
    (fun h => nomatch h) ?_ (fun h => nomatch h) (fun h => nomatch h)
  rwa [expired_iff clock_lateOptions h0]

/-- With half a minute of leeway the token is accepted, and so with a minute. -/
theorem accepts_more_late :
    verify (lateOptions.withLeeway (.fin (60 : Int))) .nan = .ok lateClaims.decoded := by
  have h0 : Js.Num.fin 0 ≤ .fin ((30 : Int) : ℚ) := (Js.Num.fin_le_fin _ _).mpr (by norm_num)
  have hforce : inForce (.fin ((30 : Int) : ℚ)) = .fin ((30 : Int) : ℚ) := rfl
  have hforce' : inForce (.fin ((60 : Int) : ℚ)) = .fin ((60 : Int) : ℚ) := rfl
  have haccepted : verify (lateOptions.withLeeway (.fin (30 : Int))) .nan =
      .ok lateClaims.decoded := by
    refine verify_late h0 ?_
    rw [hforce, passed_late]
    omega
  refine (accepts_more_iff lateOptions .nan lateClaims.decoded _ _ clock_lateOptions h0
    ((Js.Num.fin_le_fin _ _).mpr (by norm_num)) haccepted).mpr ?_
  exact
    { exp := fun _ => by
        rw [hforce', passed_late]
        omega
      nbf := fun hn => nomatch hn
      auth_time := fun ha => nomatch ha }

/-- A leeway of `0` leaves the token its minute, and a leeway of a second does not. -/
theorem zero_leeway_lasts :
    verify (lateOptions.withLeeway (.fin (0 : Int))) .nan = .ok lateClaims.decoded ∧
      ¬ ∃ d, verify (lateOptions.withLeeway (.fin (1 : Int))) .nan = .ok d := by
  have hforce : inForce (.fin ((0 : Int) : ℚ)) = .fin ((60 : Int) : ℚ) := rfl
  have hforce' : inForce (.fin ((1 : Int) : ℚ)) = .fin ((1 : Int) : ℚ) := rfl
  constructor
  · refine verify_late ((Js.Num.fin_le_fin _ _).mpr (by norm_num)) ?_
    rw [hforce, passed_late]
    omega
  · rintro ⟨d, hd⟩
    obtain ⟨token, htoken, -, hdecode, hacc⟩ := (verify_ok_iff _ _ _).mp hd
    obtain rfl : lateClaims.token = token := Value.str.inj htoken
    rw [lateClaims.decode_token] at hdecode
    obtain rfl := Except.ok.inj hdecode
    apply hacc.notExpired
    rw [expired_iff clock_lateOptions ((Js.Num.fin_le_fin _ _).mpr (by norm_num)), hforce',
      passed_late]
    unfold Js.maxTime
    omega

end JWTVerifyOptions

end AuthokSpa
