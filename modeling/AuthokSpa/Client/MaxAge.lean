import AuthokSpa.Client.Acceptance

/-!
# The maximum age of an authentication

A login or an iframe request may carry a `max_age` parameter, set on the client
or on the call. The check of the ID token knows the client's value only, reads
a string with `parseInt`, asks for no `auth_time` when that gives zero, and computes with
dates: seconds are cut to whole ones, and a date out of range makes the
comparison pass.

`max_age_bound_iff` says when the tokens a flow caches are at most the carried
age old, for every `auth_time` that is a whole second of the range of dates.
For other numbers there is no such condition: `-1e400`, which JSON reads as
minus infinity, is accepted by every client.
-/

namespace AuthokSpa

open Js (Value Obj)

/-! ## Durations -/

/-- The value of a decimal text. -/
def decimal (cs : List Char) : Option ℚ :=
  let p := Js.spanDigits cs
  if p.1 = [] then none
  else
    match Js.parseFraction p.2 with
    | some (fs, []) => some (Js.digitsVal (p.1 ++ fs) / 10 ^ fs.length)
    | _ => none

/-- The seconds of a `max_age`: a number that is not negative or a decimal text. -/
def maxAgeSeconds : Value → Option ℚ
  | .num (.fin q) => if 0 ≤ q then some q else none
  | .str s => decimal s.toList
  | _ => none

/-- The last second of the range of dates. -/
def lastSecond : Int := 8640000000000

namespace Flow

variable (f : Flow) (c : AuthokClient) (call : Obj) (g : Given)

/-- The flow's `/authorize` request carries `max_age = m`. -/
def Carries (m : ℚ) : Prop :=
  ∃ q, f.query c call g = some q ∧ maxAgeSeconds (q.get "max_age") = some m

/-- Tokens with `ok` claims are cached only when `auth_time` is a number and the
current time, `t` milliseconds, is at most `m` seconds and the leeway later. -/
def MaxAgeBound (m : ℚ) (ok : IdToken → Prop) : Prop :=
  ∀ (clock : Clock) (t : ℚ), clock.now = .fin t → 0 < t →
    ∀ authResult e, f.accept c call g clock authResult = .ok e → ok e.decodedToken.claims →
      ∃ n, e.decodedToken.claims.get "auth_time" = .num n ∧
        Js.Num.fin (t / 1000) ≤ n + .fin m + c.leeway

end Flow

/-- Where `auth_time` is a number, it is a whole second since the epoch. -/
def WholeAuthTime (claims : IdToken) : Prop :=
  (claims.get "auth_time").isNumber = true →
    ∃ z : Int, claims.get "auth_time" = .num (.fin z) ∧ 0 ≤ z ∧ z ≤ lastSecond

/-- The client's own maximum age is not zero, and whole seconds do not make it
longer than `m`. -/
def AuthokClient.MaxAgeChecked (c : AuthokClient) (m leeway : ℚ) : Prop :=
  ∃ M, c.maxAge = .num (.fin M) ∧ M ≠ 0 ∧ ((min ⌊M + leeway⌋ lastSecond : Int) : ℚ) ≤ m + leeway

/-! ## The client's value -/

theorem numberOfDigits_nonneg (cs : List Char) :
    Js.numberOfDigits false cs = .nan ∨ ∃ n : Nat, Js.numberOfDigits false cs = .fin n := by
  unfold Js.numberOfDigits
  dsimp only
  split
  · exact Or.inl rfl
  · exact Or.inr ⟨_, rfl⟩

/-- A decimal text does not start with a sign or a blank. -/
theorem parseInt_of_decimal {cs : List Char} {q : ℚ} (h : decimal cs = some q) :
    Js.parseIntDecimal cs = Js.numberOfDigits false cs := by
  unfold decimal at h
  dsimp only at h
  split at h
  · cases h
  next hds =>
    cases cs with
    | nil => exact absurd rfl hds
    | cons d cs =>
      have hd : Js.isDigit d = true := by
        by_contra hd
        apply hds
        rw [Js.spanDigits, if_neg hd]
      exact Js.signed_of_digit Js.numberOfDigits hd cs

/-- A client's maximum age, if it has one, is read as a number that is not
negative. -/
theorem parseNumber_seconds {v : Value} {q : ℚ} (h : maxAgeSeconds v = some q) :
    parseNumber v = .undefined ∨ ∃ M : ℚ, 0 ≤ M ∧ parseNumber v = .num (.fin M) := by
  cases v with
  | num n =>
    cases n with
    | fin M =>
      simp only [maxAgeSeconds] at h
      split at h
      next hM => exact Or.inr ⟨M, hM, rfl⟩
      next => cases h
    | nan => cases h
    | posInf => cases h
    | negInf => cases h
  | str s =>
    simp only [parseNumber, parseInt_of_decimal h]
    rcases numberOfDigits_nonneg s.toList with hn | ⟨n, hn⟩
    · rw [hn]
      exact Or.inl rfl
    · rw [hn]
      split
      · exact Or.inr ⟨n, Nat.cast_nonneg n, rfl⟩
      · exact Or.inl rfl
  | _ => cases h

theorem maxAgeSeconds_nonneg {v : Value} {m : ℚ} (h : maxAgeSeconds v = some m) : 0 ≤ m := by
  cases v with
  | num n =>
    cases n with
    | fin q =>
      simp only [maxAgeSeconds] at h
      split at h
      next hq => exact Option.some.inj h ▸ hq
      next => cases h
    | nan => cases h
    | posInf => cases h
    | negInf => cases h
  | str s =>
    simp only [maxAgeSeconds, decimal] at h
    split at h
    · cases h
    · split at h
      · obtain rfl := Option.some.inj h
        positivity
      · cases h
  | _ => cases h

/-! ## An age without a date -/

/-- A number whose exponent is too large reads as an infinity. -/
theorem reads_negInf : Js.Reads "-1e400".toList (.num .negInf) := by
  intro fuel rest hrest
  obtain ⟨hnd, -, -⟩ := hrest.number
  have hspan : Js.spanDigits ('4' :: '0' :: '0' :: rest) = (['4', '0', '0'], rest) :=
    Js.spanDigits_append hnd ['4', '0', '0'] (by simp [Js.isDigit])
  have hfront : Js.spanDigits ('1' :: 'e' :: '4' :: '0' :: '0' :: rest) =
      (['1'], 'e' :: '4' :: '0' :: '0' :: rest) := rfl
  have hexp : Js.parseExponent ('e' :: '4' :: '0' :: '0' :: rest) = some (400, rest) := by
    show Js.parseExponentDigits false ('4' :: '0' :: '0' :: rest) = _
    unfold Js.parseExponentDigits
    rw [hspan]
    rfl
  have hval : Js.Num.ofDecimal (-((Js.digitsVal (['1'] ++ []) : ℚ) * 10 ^ ((400 : Int) - 0))) =
      .negInf := by
    decide +kernel
  have hfrac : Js.parseFraction ('e' :: '4' :: '0' :: '0' :: rest) =
      some ([], 'e' :: '4' :: '0' :: '0' :: rest) := rfl
  show Js.parseValue (fuel + 1) ('-' :: '1' :: 'e' :: '4' :: '0' :: '0' :: rest) = _
  rw [Js.parseValue_number fuel (Or.inr rfl), Js.parseNumber]
  unfold Js.parseUnsigned
  simp only [hfront, hfrac, hexp, Option.bind_eq_bind, Option.bind_some, if_true,
    List.length_nil, Nat.cast_zero, hval]
  rw [if_neg (by decide)]

theorem parseInt_negInf : Js.parseInt (Value.num .negInf).toText = .nan := by decide

/-! ## Exactly the clients that check it -/

namespace Flow

variable {f : Flow} {c : AuthokClient} {call : Obj} {g : Given}

/-- A token with an `auth_time` that is not too old is cached. -/
theorem exists_accepted_auth (h : OptionsTyped c call g) (clock : Clock)
    {auth_text : List Char} {auth_time : Value} (hreads : Js.Reads auth_text auth_time)
    (hauth : c.maxAge.truthy = true → auth_time.isNumber = true)
    (hage : auth_time.isNumber = true →
      ¬ Js.dateOfSeconds (Js.parseInt auth_time.toText + addend c.maxAge + c.leeway) < clock.now) :
    ∃ authResult e, f.accept c call g clock authResult = .ok e ∧
      e.decodedToken.claims.get "auth_time" = auth_time := by
  have horg : ∃ o : String, (f.organizationId c call g).truthy = true →
      f.organizationId c call g = .str o := by
    by_cases ht : (f.organizationId c call g).truthy = true
    · obtain ⟨o, ho⟩ := organizationId_str h ht
      exact ⟨o, fun _ => ho⟩
    · exact ⟨"", fun h => absurd h ht⟩
  obtain ⟨o, ho⟩ := horg
  obtain ⟨r, e, he, -, hauthTime⟩ := exists_accepted (f := f) h clock ho hreads hauth hage
  exact ⟨r, e, he, hauthTime⟩

/-- A valid reading of the clock, in milliseconds. -/
theorem clock_now {z : Int} (hlo : 0 < z) (hhi : z ≤ Js.maxTime) :
    (Clock.mk (.fin z) (.fin z)).now = .fin z := by
  have hlo' : -(Js.maxTime : ℚ) ≤ (z : ℚ) := by
    have : -Js.maxTime ≤ z := by
      unfold Js.maxTime
      omega
    exact_mod_cast this
  have hhi' : (z : ℚ) ≤ (Js.maxTime : ℚ) := by exact_mod_cast hhi
  unfold Clock.now
  simp only [ite_self]
  unfold Js.dateOf
  dsimp only
  rw [if_pos ⟨hlo', hhi'⟩, Js.trunc_intCast]

theorem clock_now_le {clock : Clock} {t : ℚ} (h : clock.now = .fin t) : t ≤ Js.maxTime := by
  rcases Js.dateOf_cases (if clock.nowProvider.truthy then clock.nowProvider else clock.dateNow)
    with hn | ⟨z, hz, -, hhi⟩
  · rw [Clock.now, hn] at h
    cases h
  · rw [Clock.now, hz] at h
    obtain rfl := Js.Num.fin.inj h
    exact_mod_cast hhi

section Bound

variable {m L : ℚ}

/-- A client that checks a maximum age of its own bounds the age. -/
theorem bound_of_checked (hL : c.leeway = .fin L) (hL0 : 0 ≤ L)
    (hM0 : ∀ M, c.maxAge = .num (.fin M) → 0 ≤ M) (hcheck : c.MaxAgeChecked m L) :
    f.MaxAgeBound c call g m WholeAuthTime := by
  obtain ⟨M, hM, hMne, hle⟩ := hcheck
  intro clock t hnow ht authResult e he hok
  obtain ⟨-, -, -, -, hacc⟩ := (verify_ok_iff ..).mp (accept_verified he)
  have htruthy : c.maxAge.truthy = true := by
    rw [hM]
    simpa [Value.truthy, Js.Num.truthy] using hMne
  obtain ⟨z, hz, hz0, hzlast⟩ := hok (hacc.authTime htruthy)
  refine ⟨.fin z, hz, ?_⟩
  have hsmall : z.natAbs < 10 ^ 21 := by
    unfold lastSecond at hzlast
    omega
  have hMnn := hM0 M hM
  have hznn : (0 : ℚ) ≤ z := by exact_mod_cast hz0
  -- the check compares with the whole seconds of the sum
  have hdate : ¬ Js.dateOfSeconds (.fin (z + M + L)) < .fin t := by
    have hold := hacc.notTooOld (hacc.authTime htruthy)
    have hauth : (c.verifyOptions clock (authResult.get "id_token") (f.nonce c call g)
        (f.organizationId c call g)).authTimeDate e.decodedToken.claims =
        Js.dateOfSeconds (Js.parseInt (e.decodedToken.claims.get "auth_time").toText +
          addend c.maxAge + c.leeway) := rfl
    rw [hauth, hz, Value.toText_num, Js.parseInt_toText hsmall, hM, hL] at hold
    rw [← hnow]
    exact hold
  have hreach : t ≤ ⌊(z : ℚ) + M + L⌋ * 1000 :=
    (Js.not_dateOfSeconds_lt_iff (by linarith) (clock_now_le hnow)).mp hdate
  have hfloor : ⌊(z : ℚ) + M + L⌋ = z + ⌊M + L⌋ := by
    rw [add_assoc, Int.floor_intCast_add]
  have htlast : t / 1000 ≤ lastSecond := by
    have := clock_now_le hnow
    unfold Js.maxTime at this
    unfold lastSecond
    push_cast at this ⊢
    linarith
  have hsum : t / 1000 ≤ z + (min ⌊M + L⌋ lastSecond : Int) := by
    rw [hfloor] at hreach
    push_cast at hreach ⊢
    rcases min_choice (⌊M + L⌋ : ℚ) (lastSecond : ℚ) with hmin | hmin
    · rw [hmin]
      linarith
    · rw [hmin]
      linarith
  rw [hL, Js.Num.fin_add_fin, Js.Num.fin_add_fin, Js.Num.fin_le_fin]
  linarith

/-- A client with no maximum age of its own caches tokens without `auth_time`. -/
theorem not_bound_of_falsy (h : OptionsTyped c call g) (hM : c.maxAge.truthy = false) :
    ¬ f.MaxAgeBound c call g m WholeAuthTime := by
  intro hbound
  obtain ⟨r, e, he, hauth⟩ := exists_accepted_auth (f := f) h (Clock.mk (.fin (1 : Int)) (.fin (1 : Int)))
    (Js.reads_quote "") (fun ht => by rw [hM] at ht; cases ht) (fun hn => by cases hn)
  have hwhole : WholeAuthTime e.decodedToken.claims := by
    intro hn
    rw [hauth] at hn
    cases hn
  obtain ⟨n, hn, -⟩ := hbound _ _ (clock_now (by decide) (by decide)) (by norm_num) r e he hwhole
  rw [hauth] at hn
  cases hn

/-- A client whose own maximum age is longer caches tokens that are too old. -/
theorem le_of_bound (h : OptionsTyped c call g) (hL : c.leeway = .fin L) (hL0 : 0 ≤ L)
    (hm : 0 ≤ m) {M : ℚ} (hM : c.maxAge = .num (.fin M)) (hM0 : 0 ≤ M)
    (hbound : f.MaxAgeBound c call g m WholeAuthTime) :
    ((min ⌊M + L⌋ lastSecond : Int) : ℚ) ≤ m + L := by
  by_contra hlong
  rw [not_le] at hlong
  -- authenticated at the epoch, looked at when the client's own time is just over
  let t : Int := min ⌊M + L⌋ lastSecond * 1000
  have hpos : 0 < min ⌊M + L⌋ lastSecond := by
    have : (0 : ℚ) < (min ⌊M + L⌋ lastSecond : Int) := by linarith
    exact_mod_cast this
  have ht0 : 0 < t := by omega
  have htmax : t ≤ Js.maxTime := by
    have hlast : lastSecond * 1000 = Js.maxTime := by decide
    have := min_le_right ⌊M + L⌋ lastSecond
    omega
  have hage : ¬ Js.dateOfSeconds (Js.parseInt (Value.num (.fin (0 : Int))).toText +
      addend c.maxAge + c.leeway) < (Clock.mk (.fin t) (.fin t)).now := by
    have hreach : (t : ℚ) ≤ ⌊M + L⌋ * 1000 := by
      have : t ≤ ⌊M + L⌋ * 1000 := by
        have := min_le_left ⌊M + L⌋ lastSecond
        omega
      exact_mod_cast this
    rw [Value.toText_num, Js.parseInt_toText (by decide), hM, hL, clock_now ht0 htmax,
      Int.cast_zero]
    show ¬ Js.dateOfSeconds (.fin (0 + M + L)) < _
    rw [zero_add, Js.not_dateOfSeconds_lt_iff (by linarith) (by exact_mod_cast htmax)]
    exact hreach
  obtain ⟨r, e, he, hauth⟩ := exists_accepted_auth (f := f) h (Clock.mk (.fin t) (.fin t))
    (Js.reads_toText (z := 0) (by decide)) (fun _ => rfl) (fun _ => hage)
  have hwhole : WholeAuthTime e.decodedToken.claims :=
    fun _ => ⟨0, hauth, le_refl 0, by decide⟩
  obtain ⟨n, hn, hle⟩ := hbound _ _ (clock_now ht0 htmax) (by exact_mod_cast ht0) r e he hwhole
  rw [hauth] at hn
  obtain rfl := Value.num.inj hn
  rw [hL, Js.Num.fin_add_fin, Js.Num.fin_add_fin, Js.Num.fin_le_fin] at hle
  have hback : (t : ℚ) / 1000 = (min ⌊M + L⌋ lastSecond : Int) := by
    push_cast [t]
    ring
  rw [hback, Int.cast_zero] at hle
  linarith

/-- An `auth_time` of minus infinity is not too old for any client. -/
theorem not_bound_of_any (h : OptionsTyped c call g) (hL : c.leeway = .fin L) :
    ¬ f.MaxAgeBound c call g m (fun _ => True) := by
  intro hbound
  have hage : ¬ Js.dateOfSeconds (Js.parseInt (Value.num .negInf).toText + addend c.maxAge +
      c.leeway) < (Clock.mk (.fin (1 : Int)) (.fin (1 : Int))).now := by
    rw [parseInt_negInf]
    intro hlt
    cases hlt
  obtain ⟨r, e, he, hauth⟩ := exists_accepted_auth (f := f) h
    (Clock.mk (.fin (1 : Int)) (.fin (1 : Int))) reads_negInf (fun _ => rfl) (fun _ => hage)
  obtain ⟨n, hn, hle⟩ := hbound _ _ (clock_now (by decide) (by decide)) (by norm_num) r e he trivial
  rw [hauth] at hn
  obtain rfl := Value.num.inj hn
  rw [hL] at hle
  cases hle

end Bound

/-- **When the carried age is bound.** For tokens whose `auth_time`, where it is
a number, is a whole second: exactly when the client's own maximum age is set,
is not zero and is not longer than the carried one. For tokens of any kind:
never. -/
theorem max_age_bound_iff (f : Flow) {m L : ℚ} (h : OptionsTyped c call g)
    (hcarries : f.Carries c call g m)
    (hclient : c.options.get "max_age" = .undefined ∨
      ∃ q, maxAgeSeconds (c.options.get "max_age") = some q)
    (hL : c.leeway = .fin L) (hL0 : 0 ≤ L) :
    (f.MaxAgeBound c call g m WholeAuthTime ↔ c.MaxAgeChecked m L) ∧
      ¬ f.MaxAgeBound c call g m (fun _ => True) := by
  obtain ⟨q, -, hm⟩ := hcarries
  have hmaxAge : c.maxAge = .undefined ∨ ∃ M, 0 ≤ M ∧ c.maxAge = .num (.fin M) := by
    unfold AuthokClient.maxAge
    rcases hclient with hnone | ⟨q, hq⟩
    · exact Or.inl (by rw [hnone]; rfl)
    · exact parseNumber_seconds hq
  have hM0 : ∀ M, c.maxAge = .num (.fin M) → 0 ≤ M := by
    intro M hM
    rcases hmaxAge with hnone | ⟨M', hM', heq⟩
    · rw [hM] at hnone
      cases hnone
    · rw [hM] at heq
      exact Js.Num.fin.inj (Value.num.inj heq) ▸ hM'
  refine ⟨⟨fun hbound => ?_, bound_of_checked hL hL0 hM0⟩, not_bound_of_any h hL⟩
  rcases hmaxAge with hnone | ⟨M, hMnn, hM⟩
  · exact absurd hbound (not_bound_of_falsy h (by rw [hnone]; rfl))
  · by_cases hzero : M = 0
    · exact absurd hbound (not_bound_of_falsy h (by rw [hM, hzero]; decide))
    · exact ⟨M, hM, hzero, le_of_bound h hL hL0 (maxAgeSeconds_nonneg hm) hM hMnn hbound⟩

/-! ## Two clients -/

/-- A client with these options besides the required ones. -/
def clientWith (options : Obj) : AuthokClient where
  options := ("client_id", .str "client") :: ("domain", .str "idp") :: options

def ageGiven : Given where
  browser := ⟨"https://app", fun _ => []⟩
  secrets := ⟨"state", "nonce", "verifier"⟩
  orgIdHint := .undefined
  code := .str "code"
  refresh_token := .undefined

theorem popup_carries {call : Obj} (hcall : Js.OrdMap.KeysNodup call) {m : ℚ}
    (h : maxAgeSeconds (given c call "max_age") = some m) : popup.Carries c call g m := by
  have hname : "max_age" ∉ ownNames := by decide
  refine ⟨c.popupQuery g.browser call g.secrets, by simp only [query], ?_⟩
  rw [popupQuery_given hcall hname]
  exact h

/-- A client with a maximum age of an hour bounds the age in a popup login. -/
theorem max_age_bound_hour :
    let c := clientWith [("max_age", .num (.fin 3600))]
    popup.Carries c [] ageGiven 3600 ∧ popup.MaxAgeBound c [] ageGiven 3600 WholeAuthTime := by
  intro c
  have htyped : OptionsTyped c [] ageGiven :=
    ⟨⟨"client", by decide, rfl⟩, List.nodup_nil, Or.inl rfl, Or.inl rfl, Or.inl rfl⟩
  have hnodup : Js.OrdMap.KeysNodup ([] : Obj) := List.nodup_nil
  have hcarries : popup.Carries c [] ageGiven 3600 := popup_carries hnodup (by decide +kernel)
  refine ⟨hcarries, ?_⟩
  have hiff := max_age_bound_iff (L := 60) popup htyped hcarries
    (Or.inr ⟨3600, by decide +kernel⟩) rfl (by norm_num)
  exact hiff.1.mpr ⟨3600, rfl, by norm_num, by decide +kernel⟩

/-- A token of a user who logged in at the epoch. -/
def oldToken : IssuedClaims :=
  IssuedClaims.lasting "https://idp/" "client" "nonce" "" (.fin 60)
    (Js.reads_toText (z := 0) (by decide))

/-- A popup login that asks for a maximum age of a minute, on a client without
one, caches a token that is more than fifty years old. -/
theorem old_token_cached :
    popup.Carries (clientWith []) [("max_age", .num (.fin 60))] ageGiven 60 ∧
      ∃ e, popup.accept (clientWith []) [("max_age", .num (.fin 60))] ageGiven
          ⟨.fin 1700000000000, .fin 1700000000000⟩ [("id_token", .str oldToken.token)] = .ok e ∧
        e.decodedToken.claims.get "auth_time" = .num (.fin (0 : Int)) ∧
        ¬ Js.Num.fin (1700000000000 / 1000) ≤
          Js.Num.fin (0 : Int) + .fin 60 + (clientWith []).leeway := by
  have hiss : (clientWith []).tokenIssuer = "https://idp/" := by decide
  have hverify : (clientWith []).verifyIdToken ⟨.fin 1700000000000, .fin 1700000000000⟩
      (.str oldToken.token) (.str "nonce") .undefined = .ok oldToken.decoded := by
    refine oldToken.verify_token rfl hiss (by decide) rfl (by decide) (fun _ => rfl)
      (fun h => by cases h) rfl (fun _ => rfl) (fun _ => ?_)
    -- without a maximum age the sum is not a number and the date not a date
    have hdate : ∀ n : Js.Num, Js.dateOfSeconds (n + addend .undefined + .fin 60) = .nan := by
      intro n
      cases n <;> rfl
    have hnan : ((clientWith []).verifyOptions ⟨.fin 1700000000000, .fin 1700000000000⟩
        (.str oldToken.token) (.str "nonce") .undefined).authTimeDate oldToken.decoded.claims =
          .nan := hdate _
    rw [hnan]
    exact Js.not_nan_lt _
  obtain ⟨e, he, hd⟩ := @accept_of_verified popup (clientWith []) [("max_age", .num (.fin 60))]
    ageGiven ⟨.fin 1700000000000, .fin 1700000000000⟩ [("id_token", .str oldToken.token)] _ hverify
  have hnodup : Js.OrdMap.KeysNodup [("max_age", Value.num (.fin 60))] := by
    show ["max_age"].Nodup
    decide
  exact ⟨popup_carries hnodup (by decide +kernel), e, he, by rw [hd]; rfl, by decide +kernel⟩

end Flow

end AuthokSpa
