import AuthokSpa.Jwt.Issue

/-!
# Valid ID tokens

What an ID token is checked for, in the terms of the specification: whole seconds
for the claims, whole milliseconds for the clock. `verify_valid` says that `verify`
accepts exactly these tokens.

The dates of `verify` are `NaN` when a claim or the maximum age is absent, and a
sum outside the range of a `Date` is `NaN` too; the first is harmless, because each
comparison is guarded or the claim is required, and the second is what
`TimesInRange` rules out. `auth_time` goes through `parseInt`, so it has to be a
number that prints in digits, which every whole number that a double holds
exactly does.
-/

namespace AuthokSpa

open Js (Value Obj ProtoObj)

/-! ## Claims without a prototype -/

/-- The members of the payload of a token, as `decode` reads them. -/
def payloadMembers (token : String) : Option (List (String × Value)) :=
  match Js.split "." token with
  | [_, payload, _] =>
    match decodePart payload with
    | .ok v => entries v
    | .error _ => none
  | _ => none

/-- What `decode` makes of the payload. -/
theorem decode_claims {token : String} {d : DecodedToken} (h : decode token = .ok d) :
    ∃ members, payloadMembers token = some members ∧ d.claims = claimsOf token members ∧
      d.user = userOf members := by
  unfold decode at h
  split at h
  next header payload signature hsplit =>
    split at h
    next => cases h
    next =>
      obtain ⟨payloadJSON, hpayload, hrest⟩ := bind_ok_iff.mp h
      split at hrest
      next => cases hrest
      next members hmembers =>
        obtain ⟨headerJSON, -, hd⟩ := bind_ok_iff.mp hrest
        obtain rfl := Except.ok.inj hd
        refine ⟨members, ?_, rfl, rfl⟩
        simp only [payloadMembers, hsplit, hpayload, hmembers]
  next => cases h

theorem payloadMembers_issue {header payload : List Js.Member} (hp : payload ≠ []) :
    payloadMembers (issueToken header payload) = some (Js.objectOf [] payload) := by
  unfold payloadMembers
  rw [split_issueToken]
  dsimp only
  rw [decodePart_issuePart hp]
  rfl

theorem get_assign {o : ProtoObj} {k : String} (hk : k ≠ "__proto__") (v : Value) (k' : String) :
    (o.assign k v).get k' = if k = k' then v else o.get k' := by
  unfold ProtoObj.assign ProtoObj.get Obj.set
  rw [if_neg hk]
  dsimp only
  rw [Js.OrdMap.find_insert]
  by_cases hsame : k = k'
  · rw [if_pos hsame, if_pos hsame]
  · rw [if_neg hsame, if_neg hsame]

/-- Without a prototype the user has the subject that the claims have. -/
theorem get_sub_fold :
    ∀ (members : List (String × Value)) (claims user : ProtoObj),
      "__proto__" ∉ members.map Prod.fst → claims.get "sub" = user.get "sub" →
      (members.foldl (fun claims m => claims.assign m.1 m.2) claims).get "sub" =
        (members.foldl (fun user m => if m.1 ∈ idTokendecoded then user else user.assign m.1 m.2)
          user).get "sub"
  | [], _, _, _, h => h
  | m :: members, claims, user, hproto, h => by
    rw [List.map_cons, List.mem_cons, not_or] at hproto
    obtain ⟨hm, hrest⟩ := hproto
    rw [List.foldl_cons, List.foldl_cons]
    refine get_sub_fold members _ _ hrest ?_
    rw [get_assign (Ne.symm hm)]
    by_cases hdecoded : m.1 ∈ idTokendecoded
    · rw [if_pos hdecoded, if_neg, h]
      intro hsub
      rw [hsub] at hdecoded
      exact absurd hdecoded (by decide)
    · rw [if_neg hdecoded, get_assign (Ne.symm hm)]
      by_cases hsub : m.1 = "sub"
      · rw [if_pos hsub, if_pos hsub]
      · rw [if_neg hsub, if_neg hsub, h]

/-- The payload has no member `__proto__`. -/
def NoProto (token : String) : Prop :=
  ∀ members, payloadMembers token = some members → "__proto__" ∉ members.map Prod.fst

theorem get_sub {token : String} {d : DecodedToken} (h : decode token = .ok d)
    (hproto : NoProto token) : d.claims.get "sub" = d.user.get "sub" := by
  obtain ⟨members, hmembers, hclaims, huser⟩ := decode_claims h
  rw [hclaims, huser]
  exact get_sub_fold members _ _ (hproto members hmembers) rfl

/-! ## What a token is checked against -/

/-- The options of `verify`, as the claims of a token are compared with them. -/
structure VerifyRequest where
  iss : String
  iss_ne : iss ≠ ""
  aud : String
  aud_ne : aud ≠ ""
  nonce : Option String
  nonce_ne : nonce ≠ some ""
  organizationId : Option String
  organizationId_ne : organizationId ≠ some ""
  leeway : Option Int
  leeway_pos : ∀ l, leeway = some l → 0 < l
  max_age : Option Int
  max_age_pos : ∀ m, max_age = some m → 0 < m
  /-- In milliseconds. -/
  now : Int
  now_pos : 0 < now
  now_le : now ≤ Js.maxTime

/-- An option that is a text or `undefined`. -/
def optionalText : Option String → Value
  | none => .undefined
  | some s => .str s

/-- An option that is a whole number or `undefined`. -/
def optionalInt : Option Int → Value
  | none => .undefined
  | some z => .num (.fin z)

theorem truthy_optionalText {x : Option String} (hx : x ≠ some "") :
    (optionalText x).truthy = true ↔ ∃ s, x = some s := by
  cases x with
  | none => simp [optionalText]
  | some s =>
    have hs : s ≠ "" := fun h => hx (by rw [h])
    simp [optionalText, hs]

theorem truthy_optionalInt {x : Option Int} (hx : ∀ z, x = some z → 0 < z) :
    (optionalInt x).truthy = true ↔ ∃ z, x = some z := by
  cases x with
  | none => simp [optionalInt]
  | some z =>
    have hz : (z : ℚ) ≠ 0 := by exact_mod_cast (ne_of_gt (hx z rfl))
    simp [optionalInt, Value.truthy, Js.Num.truthy, hz]

/-- The second is one of a `Date`. -/
def InDateRange (s : Int) : Prop := -Js.maxTime ≤ s * 1000 ∧ s * 1000 ≤ Js.maxTime

instance (s : Int) : Decidable (InDateRange s) :=
  inferInstanceAs (Decidable (-Js.maxTime ≤ s * 1000 ∧ s * 1000 ≤ Js.maxTime))

theorem dateOfSeconds_int {s : Int} (h : InDateRange s) :
    Js.dateOfSeconds (.fin s) = .fin ((s * 1000 : Int) : ℚ) := by
  rw [Js.dateOfSeconds_fin (by rw [Js.trunc_intCast]; exact h.1)
    (by rw [Js.trunc_intCast]; exact h.2), Js.trunc_intCast]

namespace VerifyRequest

variable (r : VerifyRequest)

/-- The options for a token. -/
def options (token : String) : JWTVerifyOptions where
  iss := r.iss
  aud := .str r.aud
  id_token := .str token
  nonce := optionalText r.nonce
  leeway := optionalInt r.leeway
  max_age := optionalInt r.max_age
  organizationId := optionalText r.organizationId
  now := .fin r.now

/-- The leeway in force, in seconds. -/
def inForce : Int := r.leeway.getD 60

/-- The time claims are whole seconds, and what they are compared as is a `Date`. -/
structure TimesInRange (p : IdToken) : Prop where
  exp : ∀ n, p.get "exp" = .num n → ∃ z : Int, n = .fin z ∧ InDateRange (z + r.inForce)
  nbf : ∀ n, p.get "nbf" = .num n → ∃ z : Int, n = .fin z ∧ InDateRange (z - r.inForce)
  auth_time : ∀ n m, p.get "auth_time" = .num n → r.max_age = some m →
    ∃ z : Int, n = .fin z ∧ z.natAbs < 2 ^ 53 ∧ InDateRange (z + m + r.inForce)

/-- A valid token: its header and its claims. -/
structure Valid (header : Value) (p : IdToken) : Prop where
  iss : p.get "iss" = .str r.iss
  sub : (p.get "sub").truthy = true
  alg : headerAlg header = some (.str "RS256")
  aud : p.get "aud" = .str r.aud ∨
    ∃ auds, p.get "aud" = .arr auds ∧ .str r.aud ∈ auds ∧
      (1 < auds.length → p.get "azp" = .str r.aud)
  nonce : ∀ s, r.nonce = some s → p.get "nonce" = .str s
  exp : ∃ z : Int, p.get "exp" = .num (.fin z) ∧ r.now ≤ (z + r.inForce) * 1000
  iat : (p.get "iat").isNumber = true
  nbf : ∀ z : Int, p.get "nbf" = .num (.fin z) → (z - r.inForce) * 1000 ≤ r.now
  auth_time : ∀ m, r.max_age = some m →
    ∃ z : Int, p.get "auth_time" = .num (.fin z) ∧ r.now ≤ (z + m + r.inForce) * 1000
  org_id : ∀ s, r.organizationId = some s → p.get "org_id" = .str s

variable {r} {token : String} {p : IdToken} {dateNow : Js.Num}

/-! ## The checks, one by one -/

theorem leewayInForce_options : (r.options token).leewayInForce = .fin r.inForce := by
  unfold JWTVerifyOptions.leewayInForce inForce
  show ((optionalInt r.leeway).or (.num (.fin 60))).asNum = _
  cases hl : r.leeway with
  | none => rfl
  | some l =>
    have htruthy : (optionalInt (some l)).truthy = true := by
      rw [← hl]
      exact (truthy_optionalInt r.leeway_pos).mpr ⟨l, hl⟩
    rw [Value.or, if_pos htruthy]
    rfl

theorem nowDate_options : (r.options token).nowDate dateNow = .fin r.now := by
  have hpos : (r.now : ℚ) ≠ 0 := by exact_mod_cast ne_of_gt r.now_pos
  have hnow : (Js.Num.fin r.now).truthy = true := by simp [Js.Num.truthy, hpos]
  have hlo : (-(Js.maxTime : ℚ)) ≤ r.now := by
    have hneg : -Js.maxTime ≤ r.now := by
      have := r.now_pos
      unfold Js.maxTime
      omega
    exact_mod_cast hneg
  have hhi : (r.now : ℚ) ≤ Js.maxTime := by exact_mod_cast r.now_le
  show Js.dateOf (if (Js.Num.fin r.now).truthy then .fin r.now else dateNow) = _
  rw [if_pos hnow]
  unfold Js.dateOf
  dsimp only
  rw [if_pos ⟨hlo, hhi⟩, Js.trunc_intCast]

theorem audienceOk_iff :
    (r.options token).AudienceOk p ↔
      p.get "aud" = .str r.aud ∨
        ∃ auds, p.get "aud" = .arr auds ∧ .str r.aud ∈ auds ∧
          (1 < auds.length → p.get "azp" = .str r.aud) := by
  have hazp : p.get "azp" = .str r.aud → (p.get "azp").truthy = true := by
    intro h
    rw [h]
    simpa using r.aud_ne
  unfold JWTVerifyOptions.AudienceOk
  cases haud : p.get "aud" with
  | str s =>
    show s ≠ "" ∧ (Value.str s).strictEq (.str r.aud) = true ↔ _
    rw [Value.strictEq_str]
    simp only [Value.str.injEq, reduceCtorEq, false_and, exists_false, or_false]
    exact ⟨fun h => h.2, fun h => ⟨h ▸ r.aud_ne, h⟩⟩
  | arr auds =>
    have hmem : (auds.any fun v => v.strictEq (.str r.aud)) = true ↔ .str r.aud ∈ auds := by
      simp only [List.any_eq_true, Value.strictEq_str, exists_eq_right]
    show (auds.any fun v => v.strictEq (.str r.aud)) = true ∧
      (1 < auds.length → (p.get "azp").truthy = true ∧
        (p.get "azp").strictEq (.str r.aud) = true) ↔ _
    rw [hmem, Value.strictEq_str]
    simp only [reduceCtorEq, Value.arr.injEq, exists_eq_left', false_or]
    exact and_congr_right fun _ =>
      ⟨fun h hlen => (h hlen).2, fun h hlen => ⟨hazp (h hlen), h hlen⟩⟩
  | _ => simp

theorem nonce_iff :
    ((r.options token).nonce.truthy = true →
        (p.get "nonce").strictEq (r.options token).nonce = true) ↔
      ∀ s, r.nonce = some s → p.get "nonce" = .str s := by
  show ((optionalText r.nonce).truthy = true →
    (p.get "nonce").strictEq (optionalText r.nonce) = true) ↔ _
  rw [truthy_optionalText r.nonce_ne]
  constructor
  · intro h s hs
    have heq := h ⟨s, hs⟩
    rw [hs] at heq
    exact (Value.strictEq_str _ _).mp heq
  · rintro h ⟨s, hs⟩
    rw [hs]
    exact (Value.strictEq_str _ _).mpr (h s hs)

theorem organization_iff :
    ((r.options token).organizationId.truthy = true →
        (r.options token).organizationId.strictEq (p.get "org_id") = true) ↔
      ∀ s, r.organizationId = some s → p.get "org_id" = .str s := by
  show ((optionalText r.organizationId).truthy = true →
    (optionalText r.organizationId).strictEq (p.get "org_id") = true) ↔ _
  rw [truthy_optionalText r.organizationId_ne]
  constructor
  · intro h s hs
    have heq := h ⟨s, hs⟩
    rw [hs] at heq
    exact Value.str_strictEq heq
  · rintro h ⟨s, hs⟩
    rw [hs, h s hs]
    exact (Value.strictEq_str _ _).mpr rfl

/-- A date of whole seconds against the clock. -/
theorem date_lt_now_iff {s now : Int} (h : InDateRange s) :
    ¬ Js.dateOfSeconds (.fin s) < .fin now ↔ now ≤ s * 1000 := by
  rw [dateOfSeconds_int h, Js.Num.fin_lt_fin, not_lt]
  exact Int.cast_le

theorem now_lt_date_iff {s now : Int} (h : InDateRange s) :
    ¬ .fin now < Js.dateOfSeconds (.fin s) ↔ s * 1000 ≤ now := by
  rw [dateOfSeconds_int h, Js.Num.fin_lt_fin, not_lt]
  exact Int.cast_le

theorem notExpired_iff {z : Int} (hz : p.get "exp" = .num (.fin z))
    (hrange : InDateRange (z + r.inForce)) :
    ¬ (r.options token).expDate p < (r.options token).nowDate dateNow ↔
      r.now ≤ (z + r.inForce) * 1000 := by
  unfold JWTVerifyOptions.expDate
  rw [leewayInForce_options, nowDate_options, hz, ← date_lt_now_iff hrange]
  simp only [Value.asNum, Js.Num.fin_add_fin, Int.cast_add]

theorem notBefore_iff {z : Int} (hz : p.get "nbf" = .num (.fin z))
    (hrange : InDateRange (z - r.inForce)) :
    ¬ (r.options token).nowDate dateNow < (r.options token).nbfDate p ↔
      (z - r.inForce) * 1000 ≤ r.now := by
  unfold JWTVerifyOptions.nbfDate
  rw [leewayInForce_options, nowDate_options, hz, ← now_lt_date_iff hrange]
  simp only [Value.asNum, Js.Num.fin_sub_fin, Int.cast_sub]

theorem notTooOld_iff {z m : Int} (hz : p.get "auth_time" = .num (.fin z))
    (hm : r.max_age = some m) (hexact : z.natAbs < 2 ^ 53)
    (hrange : InDateRange (z + m + r.inForce)) :
    ¬ (r.options token).authTimeDate p < (r.options token).nowDate dateNow ↔
      r.now ≤ (z + m + r.inForce) * 1000 := by
  have hdigits : z.natAbs < 10 ^ 21 := lt_trans hexact (by decide)
  have hage : (r.options token).max_age = .num (.fin m) := by
    show optionalInt r.max_age = _
    rw [hm]
    rfl
  unfold JWTVerifyOptions.authTimeDate
  rw [leewayInForce_options, nowDate_options, hz, hage, Value.toText_num,
    Js.parseInt_toText hdigits, ← date_lt_now_iff hrange]
  simp only [addend, Js.Num.fin_add_fin, Int.cast_add]

/-- Without a maximum age there is no date to be too old against. -/
theorem notTooOld_of_none (hm : r.max_age = none) :
    ¬ (r.options token).authTimeDate p < (r.options token).nowDate dateNow := by
  have hage : (r.options token).max_age = .undefined := by
    show optionalInt r.max_age = _
    rw [hm]
    rfl
  have hnan : ∀ a b : Js.Num, a + Js.Num.nan + b = Js.Num.nan := by
    intro a b
    cases a <;> rfl
  unfold JWTVerifyOptions.authTimeDate
  rw [hage, show addend .undefined = .nan from rfl, hnan]
  exact Js.not_nan_lt _

/-- All the checks together. -/
theorem accepts_iff_valid {d : DecodedToken} (hd : decode token = .ok d) (hproto : NoProto token)
    (htimes : r.TimesInRange d.claims) (dateNow : Js.Num) :
    (r.options token).Accepts d dateNow ↔ r.Valid d.header d.claims := by
  constructor
  · intro h
    obtain ⟨n, hexp⟩ := Value.isNumber_iff.mp h.exp
    obtain ⟨z, rfl, hrange⟩ := htimes.exp n hexp
    refine
      { iss := h.issuer.2
        sub := by rw [get_sub hd hproto]; exact h.subject
        alg := h.algorithm
        aud := audienceOk_iff.mp h.audience
        nonce := nonce_iff.mp h.nonce
        exp := ⟨z, hexp, (notExpired_iff hexp hrange).mp h.notExpired⟩
        iat := h.iat
        nbf := ?_
        auth_time := ?_
        org_id := organization_iff.mp h.organization }
    · intro z' hnbf
      obtain ⟨z'', heq, hrange'⟩ := htimes.nbf _ hnbf
      obtain rfl : z' = z'' := by simpa using heq
      exact (notBefore_iff hnbf hrange').mp (h.notBefore (by rw [hnbf]; rfl))
    · intro m hm
      -- `max_age` is given, so `auth_time` has been checked to be a number
      have hnumber := h.authTime ((truthy_optionalInt r.max_age_pos).mpr ⟨m, hm⟩)
      obtain ⟨n, hauth⟩ := Value.isNumber_iff.mp hnumber
      obtain ⟨z', rfl, hexact, hrange'⟩ := htimes.auth_time n m hauth hm
      exact ⟨z', hauth, (notTooOld_iff hauth hm hexact hrange').mp (h.notTooOld hnumber)⟩
  · intro h
    obtain ⟨z, hexp, hlive⟩ := h.exp
    obtain ⟨z', heq, hrange⟩ := htimes.exp _ hexp
    obtain rfl : z = z' := by simpa using heq
    refine
      { issuer := ⟨r.iss_ne, h.iss⟩
        subject := by rw [← get_sub hd hproto]; exact h.sub
        algorithm := h.alg
        audience := audienceOk_iff.mpr h.aud
        nonce := nonce_iff.mpr h.nonce
        authTime := ?_
        exp := by rw [hexp]; rfl
        iat := h.iat
        notExpired := (notExpired_iff hexp hrange).mpr hlive
        notBefore := ?_
        notTooOld := ?_
        organization := organization_iff.mpr h.org_id }
    · intro htruthy
      obtain ⟨m, hm⟩ := (truthy_optionalInt r.max_age_pos).mp htruthy
      obtain ⟨z', hauth, -⟩ := h.auth_time m hm
      rw [hauth]
      rfl
    · intro hnumber
      obtain ⟨n, hnbf⟩ := Value.isNumber_iff.mp hnumber
      obtain ⟨z', rfl, hrange'⟩ := htimes.nbf n hnbf
      exact (notBefore_iff hnbf hrange').mpr (h.nbf z' hnbf)
    · intro _
      -- without `max_age` the date is not a date, and nothing is late for it
      cases hm : r.max_age with
      | none => exact notTooOld_of_none hm
      | some m =>
        obtain ⟨z', hauth, hold⟩ := h.auth_time m hm
        obtain ⟨z'', heq', hexact, hrange'⟩ := htimes.auth_time _ m hauth hm
        obtain rfl : z' = z'' := by simpa using heq'
        exact (notTooOld_iff hauth hm hexact hrange').mpr hold

/-- **`verify` accepts exactly the valid tokens**, and throws on the others. -/
theorem verify_valid (r : VerifyRequest) (token : String) (d : DecodedToken)
    (hd : decode token = .ok d) (hproto : NoProto token) (htimes : r.TimesInRange d.claims)
    (dateNow : Js.Num) :
    (r.Valid d.header d.claims → verify (r.options token) dateNow = .ok d) ∧
      (¬ r.Valid d.header d.claims → ∃ e, verify (r.options token) dateNow = .error e) := by
  have hne : token ≠ "" := by
    rintro rfl
    exact absurd hd (by simp [show decode "" = .error .undecodable from rfl])
  have hiff := accepts_iff_valid hd hproto htimes dateNow
  constructor
  · intro hvalid
    exact (verify_ok_iff _ _ _).mpr ⟨token, rfl, hne, hd, hiff.mpr hvalid⟩
  · intro hbad
    cases hv : verify (r.options token) dateNow with
    | error e => exact ⟨e, rfl⟩
    | ok d' =>
      obtain ⟨token', htoken, -, hd', hacc⟩ := (verify_ok_iff _ _ _).mp hv
      obtain rfl : token = token' := Value.str.inj htoken
      rw [hd] at hd'
      obtain rfl := Except.ok.inj hd'
      exact absurd (hiff.mp hacc) hbad

/-- A login within the last hour. -/
def hourly : VerifyRequest where
  iss := "https://idp/"
  iss_ne := by decide
  aud := "client"
  aud_ne := by decide
  nonce := some "nonce"
  nonce_ne := by decide
  organizationId := some "org_1"
  organizationId_ne := by decide
  leeway := none
  leeway_pos := fun _ h => (nomatch h)
  max_age := some 3600
  max_age_pos := fun m h => by
    obtain rfl := Option.some.inj h
    decide
  now := 1700000060000
  now_pos := by decide
  now_le := by decide

/-- A token that expires within the leeway. -/
def hourlyClaims : IssuedClaims where
  iss := "https://idp/"
  aud := "client"
  nonce := "nonce"
  org_id := "org_1"
  exp := 1700000000
  exp_small := by decide
  auth_text := (Js.Num.fin ((1699996400 : Int) : ℚ)).toText
  auth_time := .num (.fin ((1699996400 : Int) : ℚ))
  auth_reads := Js.reads_toText (by decide)

theorem noProto_hourly : NoProto hourlyClaims.token := by
  intro members hmembers
  unfold IssuedClaims.token at hmembers
  rw [payloadMembers_issue (by simp [IssuedClaims.payload])] at hmembers
  have hkeys : (Js.objectOf [] hourlyClaims.payload).map Prod.fst =
      ["iss", "sub", "aud", "nonce", "org_id", "exp", "iat", "auth_time"] := rfl
  rw [← Option.some.inj hmembers, hkeys]
  decide

theorem timesInRange_hourly : hourly.TimesInRange hourlyClaims.decoded.claims where
  exp := fun n hn => by
    obtain rfl := Value.num.inj hn
    exact ⟨1700000000, rfl, by decide⟩
  nbf := fun n hn => (nomatch hn)
  auth_time := fun n m hn hm => by
    obtain rfl := Value.num.inj hn
    obtain rfl := Option.some.inj hm
    exact ⟨1699996400, rfl, by decide, by decide⟩

theorem valid_hourly :
    hourly.Valid hourlyClaims.decoded.header hourlyClaims.decoded.claims where
  iss := rfl
  sub := by
    show Value.truthy (.str "user") = true
    decide
  alg := rfl
  aud := Or.inl rfl
  nonce := fun s hs => by
    obtain rfl := Option.some.inj hs
    rfl
  exp := ⟨1700000000, rfl, by decide⟩
  iat := rfl
  nbf := fun z hz => (nomatch hz)
  auth_time := fun m hm => by
    obtain rfl := Option.some.inj hm
    exact ⟨1699996400, rfl, by decide⟩
  org_id := fun s hs => by
    obtain rfl := Option.some.inj hs
    rfl

theorem verify_hourly :
    verify (hourly.options hourlyClaims.token) .nan = .ok hourlyClaims.decoded :=
  (verify_ok_iff _ _ _).mpr ⟨_, rfl, issueToken_ne_empty _ _, hourlyClaims.decode_token,
    (accepts_iff_valid hourlyClaims.decode_token noProto_hourly timesInRange_hourly .nan).mpr
      valid_hourly⟩

theorem verify_valid_hourly :
    hourly.TimesInRange hourlyClaims.decoded.claims ∧
      verify (hourly.options hourlyClaims.token) .nan = .ok hourlyClaims.decoded :=
  ⟨timesInRange_hourly,
    (verify_valid hourly hourlyClaims.token hourlyClaims.decoded hourlyClaims.decode_token
      noProto_hourly timesInRange_hourly .nan).1 valid_hourly⟩

end VerifyRequest

end AuthokSpa
