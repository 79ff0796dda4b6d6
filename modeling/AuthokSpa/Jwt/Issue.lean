import AuthokSpa.Jwt

/-!
# Issued tokens

The other direction of `decode`: an ID token as a provider writes it, with the
claims `verify` reads. `decode_issue` reads it back and `accepts_issue` says
what it takes for `verify` to accept it, so that a statement about every token
response can be refuted by naming the claims of one.

The expiry of an issued token is as late as a `Date` can hold once the leeway
is added, whatever the leeway is (`not_lt_of_late`), so that no clock rejects it.
-/

namespace AuthokSpa

open Js (Value Obj Member)

/-! ## Parts -/

/-- One part of a token: printed, encoded. -/
def issuePart (ms : List Member) : List Char :=
  Js.urlEncodeB64 (Js.btoaChars (Js.utf8Encode (Js.printObject ms)))

/-- A part decodes to what was printed. -/
theorem urlDecodeB64_issuePart (ms : List Member) :
    urlDecodeB64 (String.ofList (issuePart ms)) = some (String.ofList (Js.printObject ms)) := by
  unfold urlDecodeB64 issuePart
  rw [String.toList_ofList, Js.atob_urlChars]
  simp only [Option.bind_eq_bind, Option.bind_some]
  rw [Js.decodeChars_escapes, List.reverse_nil, List.nil_append, Js.utf8Decode_encode]
  rfl

theorem decodePart_issuePart {ms : List Member} (hne : ms ≠ []) :
    decodePart (String.ofList (issuePart ms)) = .ok (.obj (Js.objectOf [] ms)) := by
  unfold decodePart
  rw [urlDecodeB64_issuePart, Option.bind_some, Js.parse_object hne]

/-- The URL alphabet has no dot. -/
theorem urlEncodeB64_ne_dot : ∀ n, n < 64 → '.' ∉ Js.urlEncodeB64 [Js.base64Char n] := by
  decide +kernel

theorem dot_not_mem_issuePart (ms : List Member) : '.' ∉ issuePart ms := by
  intro hdot
  unfold issuePart Js.btoaChars Js.urlEncodeB64 at hdot
  obtain ⟨c, hc, hmap⟩ := List.mem_filterMap.mp hdot
  rcases List.mem_append.mp hc with hc | hc
  · obtain ⟨x, hx, rfl⟩ := List.mem_map.mp hc
    refine urlEncodeB64_ne_dot x (Js.sextets_lt _ x hx) ?_
    exact List.mem_filterMap.mpr ⟨_, List.mem_singleton.mpr rfl, hmap⟩
  · rw [List.eq_of_mem_replicate hc] at hmap
    simp at hmap

/-- A part is not empty: an object prints at least its braces. -/
theorem issuePart_ne_nil (ms : List Member) : issuePart ms ≠ [] := by
  intro hnil
  have hread := Js.atob_urlChars (Js.utf8Encode (Js.printObject ms))
  unfold issuePart at hnil
  rw [hnil] at hread
  have hempty : Js.utf8Encode (Js.printObject ms) = [] := by
    simpa [Js.urlDecodeChars, Js.atobChars, Js.dropPadding, Js.sextetsOf, Js.bytesOf] using
      hread.symm
  have htext := Js.utf8Decode_encode (Js.printObject ms)
  rw [hempty] at htext
  cases htext

theorem sepFree_issuePart (ms : List Member) :
    Js.SepFree ".".toList (String.ofList (issuePart ms)).toList := by
  refine Js.sepFree_singleton ?_
  rw [String.toList_ofList]
  exact dot_not_mem_issuePart ms

/-! ## Tokens -/

/-- A token with these header and payload members. The signature is not looked
at. -/
def issueToken (header payload : List Member) : String :=
  String.ofList (issuePart header) ++ ("." ++ (String.ofList (issuePart payload) ++ ("." ++ "sig")))

theorem issueToken_ne_empty (header payload : List Member) : issueToken header payload ≠ "" := by
  intro h
  have hnil := congrArg String.toList h
  unfold issueToken at hnil
  rw [String.toList_append, String.toList_ofList] at hnil
  exact issuePart_ne_nil header (List.append_eq_nil_iff.mp hnil).1

theorem split_issueToken (header payload : List Member) :
    Js.split "." (issueToken header payload) =
      [String.ofList (issuePart header), String.ofList (issuePart payload), "sig"] := by
  unfold issueToken
  rw [Js.split_append _ (by decide) (sepFree_issuePart header),
    Js.split_append _ (by decide) (sepFree_issuePart payload),
    Js.split_of_not_includes (by decide)]

/-- **An issued token decodes** to its members. -/
theorem decode_issue {header payload : List Member} (hh : header ≠ []) (hp : payload ≠ []) :
    decode (issueToken header payload) =
      .ok { encoded := ⟨String.ofList (issuePart header), String.ofList (issuePart payload), "sig"⟩
            header := .obj (Js.objectOf [] header)
            claims := claimsOf (issueToken header payload) (Js.objectOf [] payload)
            user := userOf (Js.objectOf [] payload) } := by
  unfold decode
  rw [split_issueToken]
  dsimp only
  rw [if_neg (by simp [issuePart_ne_nil]), decodePart_issuePart hp,
    decodePart_issuePart hh]
  rfl

/-! ## Late dates -/

/-- Seconds that, with `s` added, make the last date there is. -/
def lateFor : Js.Num → Int
  | .fin q => if ⌊q⌋.natAbs < 10 ^ 20 then 8640000000000 - ⌊q⌋ else 0
  | _ => 0

theorem lateFor_natAbs (s : Js.Num) : (lateFor s).natAbs < 10 ^ 21 := by
  unfold lateFor
  split
  · split <;> omega
  · decide

/-- Adding the whole part away leaves the fraction. -/
theorem trunc_late {q : ℚ} (hq : ⌊q⌋.natAbs < 10 ^ 20) :
    Js.trunc ((lateFor (.fin q) : Int) + q) = 8640000000000 := by
  have hfloor := Int.floor_le q
  have hlt := Int.lt_floor_add_one q
  have hlate : lateFor (.fin q) = 8640000000000 - ⌊q⌋ := if_pos hq
  rw [hlate]
  push_cast
  unfold Js.trunc
  rw [if_pos (by linarith), Int.floor_eq_iff]
  push_cast
  constructor <;> linarith

/-- Far out there are no dates. -/
theorem dateOfSeconds_far {q : ℚ} (hq : 10 ^ 20 ≤ ⌊q⌋.natAbs) :
    Js.dateOfSeconds (.fin q) = .nan := by
  have hfar : 10 ^ 20 ≤ Js.trunc q ∨ Js.trunc q ≤ -(10 ^ 20) + 1 := by
    have hceil := Int.ceil_le_floor_add_one q
    unfold Js.trunc
    split
    next hpos =>
      have := Int.floor_nonneg.mpr hpos
      omega
    next hneg =>
      have : ⌊q⌋ < 0 := Int.floor_lt.mpr (by push_cast; linarith)
      omega
  refine Js.dateOfSeconds_outside ?_
  unfold Js.maxTime
  omega

/-- The last date is after no other. -/
theorem not_maxTime_lt (now : Js.Num) : ¬ Js.Num.fin (Js.maxTime : Int) < Js.dateOf now := by
  rcases Js.dateOf_cases now with h | ⟨z, h, -, hz⟩
  · rw [h]
    intro hlt
    cases hlt
  · rw [h, Js.Num.fin_lt_fin, not_lt]
    exact_mod_cast hz

/-- No date is after `lateFor` seconds and `s` more. -/
theorem not_lt_of_late (s now : Js.Num) :
    ¬ Js.dateOfSeconds (.fin (lateFor s) + s) < Js.dateOf now := by
  cases s with
  | fin q =>
    by_cases hq : ⌊q⌋.natAbs < 10 ^ 20
    · have htrunc := trunc_late hq
      rw [Js.Num.fin_add_fin,
        Js.dateOfSeconds_fin (by rw [htrunc]; decide) (by rw [htrunc]; decide), htrunc]
      exact not_maxTime_lt now
    · have hzero : lateFor (.fin q) = 0 := if_neg hq
      rw [hzero, Js.Num.fin_add_fin, Int.cast_zero, zero_add, dateOfSeconds_far (by omega)]
      exact Js.not_nan_lt _
  | nan => exact Js.not_nan_lt _
  | negInf => exact Js.not_nan_lt _
  | posInf => exact Js.not_nan_lt _

/-! ## The claims `verify` reads -/

/-- A member with a string value. -/
def textMember (name value : String) : Member :=
  ⟨name, Js.quote value.toList, .str value, Js.reads_quote value⟩

/-- A member with a whole number. -/
def intMember (name : String) (value : Int) (h : value.natAbs < 10 ^ 21) : Member :=
  ⟨name, (Js.Num.fin value).toText, .num (.fin value), Js.reads_toText h⟩

/-- The claims of an issued ID token. `auth_time` may be any value that prints. -/
structure IssuedClaims where
  iss : String
  aud : String
  nonce : String
  org_id : String
  exp : Int
  exp_small : exp.natAbs < 10 ^ 21
  auth_text : List Char
  auth_time : Value
  auth_reads : Js.Reads auth_text auth_time

namespace IssuedClaims

variable (i : IssuedClaims)

def payload : List Member :=
  [textMember "iss" i.iss, textMember "sub" "user", textMember "aud" i.aud,
    textMember "nonce" i.nonce, textMember "org_id" i.org_id, intMember "exp" i.exp i.exp_small,
    intMember "iat" 0 (by decide), ⟨"auth_time", i.auth_text, i.auth_time, i.auth_reads⟩]

/-- The issued token. -/
def token : String := issueToken [textMember "alg" "RS256"] i.payload

/-- What the token decodes to. -/
def decoded : DecodedToken where
  encoded := ⟨String.ofList (issuePart [textMember "alg" "RS256"]),
    String.ofList (issuePart i.payload), "sig"⟩
  header := .obj [("alg", .str "RS256")]
  claims :=
    { own := [("__raw", .str i.token), ("iss", .str i.iss), ("sub", .str "user"),
        ("aud", .str i.aud), ("nonce", .str i.nonce), ("org_id", .str i.org_id),
        ("exp", .num (.fin i.exp)), ("iat", .num (.fin (0 : Int))), ("auth_time", i.auth_time)] }
  user := { own := [("sub", .str "user"), ("org_id", .str i.org_id)] }

theorem decode_token : decode i.token = .ok i.decoded := by
  unfold token
  rw [decode_issue (by simp) (by simp [payload])]
  rfl

/-- **An issued token is accepted** when its claims are the expected ones, it has
not expired and its `auth_time` is not too old. -/
theorem verify_current {o : JWTVerifyOptions} {dateNow : Js.Num}
    (htoken : o.id_token = .str i.token)
    (hiss : o.iss = i.iss) (hiss0 : i.iss ≠ "") (haud : o.aud = .str i.aud) (haud0 : i.aud ≠ "")
    (hnonce : o.nonce.truthy = true → o.nonce = .str i.nonce)
    (horg : o.organizationId.truthy = true → o.organizationId = .str i.org_id)
    (hexp : ¬ o.expDate i.decoded.claims < o.nowDate dateNow)
    (hauth : o.max_age.truthy = true → i.auth_time.isNumber = true)
    (hage : i.auth_time.isNumber = true →
      ¬ o.authTimeDate i.decoded.claims < o.nowDate dateNow) :
    verify o dateNow = .ok i.decoded := by
  refine (verify_ok_iff o dateNow i.decoded).mpr
    ⟨i.token, htoken, issueToken_ne_empty _ _, i.decode_token, ?_⟩
  have haudClaim : i.decoded.claims.get "aud" = .str i.aud := rfl
  exact
    { issuer := ⟨hiss ▸ hiss0, by rw [hiss]; rfl⟩
      subject := by
        show Value.truthy (.str "user") = true
        decide
      algorithm := rfl
      audience := by
        unfold JWTVerifyOptions.AudienceOk
        rw [haudClaim, haud]
        exact ⟨haud0, (Value.strictEq_str _ _).mpr rfl⟩
      nonce := fun h => by
        rw [hnonce h]
        exact (Value.strictEq_str _ _).mpr rfl
      authTime := hauth
      exp := rfl
      iat := rfl
      notExpired := hexp
      notBefore := fun h => by cases h
      notTooOld := hage
      organization := fun h => by
        rw [horg h]
        exact (Value.strictEq_str _ _).mpr rfl }

/-- A token that expires as late as a date can be does not expire. -/
theorem verify_token {o : JWTVerifyOptions} {dateNow : Js.Num} (htoken : o.id_token = .str i.token)
    (hiss : o.iss = i.iss) (hiss0 : i.iss ≠ "") (haud : o.aud = .str i.aud) (haud0 : i.aud ≠ "")
    (hnonce : o.nonce.truthy = true → o.nonce = .str i.nonce)
    (horg : o.organizationId.truthy = true → o.organizationId = .str i.org_id)
    (hexp : i.exp = lateFor o.leewayInForce)
    (hauth : o.max_age.truthy = true → i.auth_time.isNumber = true)
    (hage : i.auth_time.isNumber = true →
      ¬ o.authTimeDate i.decoded.claims < o.nowDate dateNow) :
    verify o dateNow = .ok i.decoded := by
  refine i.verify_current htoken hiss hiss0 haud haud0 hnonce horg ?_ hauth hage
  have hdate : o.expDate i.decoded.claims =
      Js.dateOfSeconds (.fin (lateFor o.leewayInForce) + o.leewayInForce) := by
    rw [← hexp]
    rfl
  rw [hdate]
  exact not_lt_of_late _ _

/-- A token that does not expire, with this `auth_time`. -/
def lasting (iss aud nonce org_id : String) (leeway : Js.Num) {auth_text : List Char}
    {auth_time : Value} (auth_reads : Js.Reads auth_text auth_time) : IssuedClaims where
  iss := iss
  aud := aud
  nonce := nonce
  org_id := org_id
  exp := lateFor leeway
  exp_small := lateFor_natAbs leeway
  auth_text := auth_text
  auth_time := auth_time
  auth_reads := auth_reads

end IssuedClaims

end AuthokSpa
