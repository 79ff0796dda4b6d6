import AuthokSpa.Global
import AuthokSpa.Js.Base64
import AuthokSpa.Js.Date
import AuthokSpa.Js.Json

/-!
# ID tokens (`jwt.ts`)

`decode` splits a token and parses its two JSON parts; `verify` decodes and
then checks the claims one after the other. Both throw on failure; the errors
are kept apart, with the values their messages quote.

The claims are read as JavaScript reads them. Assigning a payload member named
`__proto__` sets the prototype of the claims object, through which later reads
fall; a time claim that is not a number takes part in the date arithmetic as
`NaN`, where every comparison fails and so no error is thrown. `auth_time` is
read by `parseInt`, that is from its text.

`verify_ok_iff` lists what an accepted token has been checked for.
-/

namespace AuthokSpa

open Js (Value Obj ProtoObj)

/-- What `decode` and `verify` throw. `malformed` stands for an exception of
`atob`, `decodeURIComponent` or `JSON.parse`, or of reading a member of `null`. -/
inductive JwtError where
  | missing
  | undecodable
  | malformed
  | issMissing
  | issMismatch (expected : String) (found : Value)
  | subMissing
  | algMismatch (found : Value)
  | audMissing
  | audNotIncluded (expected : Value) (found : List Value)
  | azpMissing
  | azpMismatch (expected found : Value)
  | audMismatch (expected found : Value)
  | nonceMissing
  | nonceMismatch (expected found : Value)
  | authTimeMissing
  | expMissing
  | iatMissing
  | expired (now expDate : Js.Num)
  | notYetValid (now nbfDate : Js.Num)
  | tooOld (now authTimeDate : Js.Num)
  | orgMissing
  | orgMismatch (expected found : Value)

/-- `xs.join(', ')`. -/
def joinComma (xs : List Value) : String :=
  String.intercalate ", " (xs.map fun x => if x.isNullish then "" else x.text)

/-- The message of the thrown `Error`; `dateText` prints a date in local time. -/
def JwtError.message (dateText : Js.Num → String) : JwtError → String
  | missing => "ID token is required but missing"
  | undecodable => "ID token could not be decoded"
  | malformed => "malformed"
  | issMissing => "Issuer (iss) claim must be a string present in the ID token"
  | issMismatch expected found =>
    "Issuer (iss) claim mismatch in the ID token; expected \"" ++ expected ++ "\", found \"" ++
      found.text ++ "\""
  | subMissing => "Subject (sub) claim must be a string present in the ID token"
  | algMismatch found =>
    "Signature algorithm of \"" ++ found.text ++
      "\" is not supported. Expected the ID token to be signed with \"RS256\"."
  | audMissing =>
    "Audience (aud) claim must be a string or array of strings present in the ID token"
  | audNotIncluded expected found =>
    "Audience (aud) claim mismatch in the ID token; expected \"" ++ expected.text ++
      "\" but was not one of \"" ++ joinComma found ++ "\""
  | azpMissing =>
    "Authorized Party (azp) claim must be a string present in the ID token when Audience (aud) claim has multiple values"
  | azpMismatch expected found =>
    "Authorized Party (azp) claim mismatch in the ID token; expected \"" ++ expected.text ++
      "\", found \"" ++ found.text ++ "\""
  | audMismatch expected found =>
    "Audience (aud) claim mismatch in the ID token; expected \"" ++ expected.text ++
      "\" but found \"" ++ found.text ++ "\""
  | nonceMissing => "Nonce (nonce) claim must be a string present in the ID token"
  | nonceMismatch expected found =>
    "Nonce (nonce) claim mismatch in the ID token; expected \"" ++ expected.text ++
      "\", found \"" ++ found.text ++ "\""
  | authTimeMissing =>
    "Authentication Time (auth_time) claim must be a number present in the ID token when Max Age (max_age) is specified"
  | expMissing => "Expiration Time (exp) claim must be a number present in the ID token"
  | iatMissing => "Issued At (iat) claim must be a number present in the ID token"
  | expired now expDate =>
    "Expiration Time (exp) claim error in the ID token; current time (" ++ dateText now ++
      ") is after expiration time (" ++ dateText expDate ++ ")"
  | notYetValid now nbfDate =>
    "Not Before time (nbf) claim in the ID token indicates that this token can't be used just yet. Currrent time (" ++
      dateText now ++ ") is before " ++ dateText nbfDate
  | tooOld now authTimeDate =>
    "Authentication Time (auth_time) claim in the ID token indicates that too much time has passed since the last end-user authentication. Currrent time (" ++
      dateText now ++ ") is after last auth at " ++ dateText authTimeDate
  | orgMissing => "Organization ID (org_id) claim must be a string present in the ID token"
  | orgMismatch expected found =>
    "Organization ID (org_id) claim mismatch in the ID token; expected \"" ++ expected.text ++
      "\", found \"" ++ found.text ++ "\""

/-! ## Decoding -/

/-- `idTokendecoded`: the protocol claims that `user` leaves out. -/
def idTokendecoded : List String :=
  ["iss", "aud", "exp", "nbf", "iat", "jti", "azp", "nonce", "auth_time", "at_hash", "c_hash",
    "acr", "amr", "sub_jwk", "cnf", "sip_from_tag", "sip_date", "sip_callid", "sip_cseq_num",
    "sip_via_branch", "orig", "dest", "mky", "events", "toe", "txn", "rph", "sid", "vot", "vtm"]

/-- `urlDecodeB64`: Base64url to bytes, the bytes read as UTF-8. -/
def urlDecodeB64 (input : String) : Option String := do
  let bytes ← Js.atobChars (Js.urlDecodeChars input.toList)
  let chars ← Js.decodeChars [] (bytes.flatMap Js.escapeByte)
  some (String.ofList chars)

/-- `Object.keys(v)` with the values under them; `none` on `null`. -/
def entries : Value → Option (List (String × Value))
  | .obj ms => some ms
  | .arr xs => some (xs.zipIdx.map fun p => (p.2.repr, p.1))
  | .str s => some (s.toList.zipIdx.map fun p => (p.2.repr, .str (String.ofList [p.1])))
  | .null => none
  | .undefined => none
  | _ => some []

/-- The claims object: `__raw` and the payload's members, assigned in turn. -/
def claimsOf (token : String) (members : List (String × Value)) : ProtoObj :=
  members.foldl (fun claims m => claims.assign m.1 m.2) { own := [("__raw", .str token)] }

/-- The user object: the members that are not protocol claims. -/
def userOf (members : List (String × Value)) : ProtoObj :=
  members.foldl (fun user m => if m.1 ∈ idTokendecoded then user else user.assign m.1 m.2)
    { own := [] }

/-- Parse one part of the token. -/
def decodePart (part : String) : Except JwtError Value :=
  match (urlDecodeB64 part).bind Js.parse with
  | some v => .ok v
  | none => .error .malformed

/-- `decode`. -/
def decode (token : String) : Except JwtError DecodedToken :=
  match Js.split "." token with
  | [header, payload, signature] =>
    -- three parts are there, but one of them is empty
    if header = "" ∨ payload = "" ∨ signature = "" then .error .undecodable
    else do
      let payloadJSON ← decodePart payload
      match entries payloadJSON with
      | none => .error .malformed
      | some members =>
        let headerJSON ← decodePart header
        .ok { encoded := ⟨header, payload, signature⟩
              header := headerJSON
              claims := claimsOf token members
              user := userOf members }
  | _ => .error .undecodable

/-! ## Verifying -/

/-- `JWTVerifyOptions`. -/
structure JWTVerifyOptions where
  iss : String
  aud : Value
  id_token : Value
  nonce : Value
  leeway : Value
  max_age : Value
  organizationId : Value
  now : Js.Num

/-- `decoded.header.alg`; `none` when the header is `null`. -/
def headerAlg : Value → Option Value
  | .obj ms => some (Obj.get ms "alg")
  | .null => none
  | .undefined => none
  | _ => some .undefined

/-- Throw when the condition holds. -/
def throwIf (bad : Bool) (e : JwtError) : Except JwtError Unit := if bad then .error e else .ok ()

/-- A value added to a number. After `_parseNumber` a `max_age` is not a string;
an absent one makes the sum `NaN`. -/
def addend : Value → Js.Num
  | .num n => n
  | .null => .fin 0
  | .bool b => .fin (if b then 1 else 0)
  | _ => .nan

namespace JWTVerifyOptions

variable (o : JWTVerifyOptions)

/-- The leeway in force. -/
def leewayInForce : Js.Num := (o.leeway.or (.num (.fin 60))).asNum

/-- The current time; `dateNow` is what `Date.now()` would read. -/
def nowDate (dateNow : Js.Num) : Js.Num := Js.dateOf (if o.now.truthy then o.now else dateNow)

/-- The end of the time an authentication is good for. -/
def authTimeDate (claims : IdToken) : Js.Num :=
  Js.dateOfSeconds
    (Js.parseInt (claims.get "auth_time").toText + addend o.max_age + o.leewayInForce)

def expDate (claims : IdToken) : Js.Num :=
  Js.dateOfSeconds ((claims.get "exp").asNum + o.leewayInForce)

def nbfDate (claims : IdToken) : Js.Num :=
  Js.dateOfSeconds ((claims.get "nbf").asNum - o.leewayInForce)

def checkIssuer (claims : IdToken) : Except JwtError Unit := do
  throwIf (!(claims.get "iss").truthy) .issMissing
  throwIf (!(claims.get "iss").strictEq (.str o.iss)) (.issMismatch o.iss (claims.get "iss"))

def checkHeader (d : DecodedToken) : Except JwtError Unit := do
  throwIf (!(d.user.get "sub").truthy) .subMissing
  match headerAlg d.header with
  -- `decoded.header.alg` throws on `null`
  | none => .error .malformed
  | some alg => throwIf (!alg.strictEq (.str "RS256")) (.algMismatch alg)

def checkAudience (claims : IdToken) : Except JwtError Unit :=
  match claims.get "aud" with
  | .arr auds => do
    throwIf (!auds.any fun v => v.strictEq o.aud) (.audNotIncluded o.aud auds)
    -- an authorized party is asked for only among several audiences
    if 1 < auds.length then do
      throwIf (!(claims.get "azp").truthy) .azpMissing
      throwIf (!(claims.get "azp").strictEq o.aud) (.azpMismatch o.aud (claims.get "azp"))
    else .ok ()
  | .str s => do
    throwIf (s = "") .audMissing
    throwIf (!(Value.str s).strictEq o.aud) (.audMismatch o.aud (.str s))
  | _ => .error .audMissing

def checkNonce (claims : IdToken) : Except JwtError Unit :=
  if o.nonce.truthy then do
    throwIf (!(claims.get "nonce").truthy) .nonceMissing
    throwIf (!(claims.get "nonce").strictEq o.nonce) (.nonceMismatch o.nonce (claims.get "nonce"))
  else .ok ()

/-- The time claims are numbers, `auth_time` when a maximum age is asked for. -/
def checkNumbers (claims : IdToken) : Except JwtError Unit := do
  throwIf (o.max_age.truthy && !(claims.get "auth_time").isNumber) .authTimeMissing
  throwIf (!(claims.get "exp").isNumber) .expMissing
  throwIf (!(claims.get "iat").isNumber) .iatMissing

/-- The dates against the current time. A comparison with `NaN` never throws. -/
def checkTimes (claims : IdToken) (dateNow : Js.Num) : Except JwtError Unit := do
  let now := o.nowDate dateNow
  throwIf (o.expDate claims < now) (.expired now (o.expDate claims))
  throwIf ((claims.get "nbf").isNumber && now < o.nbfDate claims) (.notYetValid now (o.nbfDate claims))
  throwIf ((claims.get "auth_time").isNumber && o.authTimeDate claims < now)
    (.tooOld now (o.authTimeDate claims))

def checkOrganization (claims : IdToken) : Except JwtError Unit :=
  if o.organizationId.truthy then do
    throwIf (!(claims.get "org_id").truthy) .orgMissing
    -- compared the other way round than the claims above
    throwIf (!o.organizationId.strictEq (claims.get "org_id"))
      (.orgMismatch o.organizationId (claims.get "org_id"))
  else .ok ()

/-- Everything `verify` checks after decoding, in its order. -/
def checkDecoded (d : DecodedToken) (dateNow : Js.Num) : Except JwtError Unit := do
  o.checkIssuer d.claims
  checkHeader d
  o.checkAudience d.claims
  o.checkNonce d.claims
  o.checkNumbers d.claims
  o.checkTimes d.claims dateNow
  o.checkOrganization d.claims

end JWTVerifyOptions

/-- `verify`. -/
def verify (o : JWTVerifyOptions) (dateNow : Js.Num) : Except JwtError DecodedToken :=
  match o.id_token with
  | .str token =>
    if token = "" then .error .missing
    else do
      let decoded ← decode token
      o.checkDecoded decoded dateNow
      .ok decoded
  | v => if v.truthy then .error .malformed else .error .missing

/-! ## Accepted tokens -/

namespace JWTVerifyOptions

variable (o : JWTVerifyOptions)

/-- The audience a token was checked for. -/
def AudienceOk (claims : IdToken) : Prop :=
  match claims.get "aud" with
  | .arr auds => (auds.any fun v => v.strictEq o.aud) = true ∧
      (1 < auds.length →
        (claims.get "azp").truthy = true ∧ (claims.get "azp").strictEq o.aud = true)
  | .str s => s ≠ "" ∧ (Value.str s).strictEq o.aud = true
  | _ => False

/-- What holds of an accepted token. -/
structure Accepts (d : DecodedToken) (dateNow : Js.Num) : Prop where
  issuer : o.iss ≠ "" ∧ d.claims.get "iss" = .str o.iss
  subject : (d.user.get "sub").truthy = true
  algorithm : headerAlg d.header = some (.str "RS256")
  audience : o.AudienceOk d.claims
  nonce : o.nonce.truthy = true → (d.claims.get "nonce").strictEq o.nonce = true
  authTime : o.max_age.truthy = true → (d.claims.get "auth_time").isNumber = true
  exp : (d.claims.get "exp").isNumber = true
  iat : (d.claims.get "iat").isNumber = true
  notExpired : ¬ o.expDate d.claims < o.nowDate dateNow
  notBefore : (d.claims.get "nbf").isNumber = true → ¬ o.nowDate dateNow < o.nbfDate d.claims
  notTooOld : (d.claims.get "auth_time").isNumber = true →
    ¬ o.authTimeDate d.claims < o.nowDate dateNow
  organization : o.organizationId.truthy = true →
    o.organizationId.strictEq (d.claims.get "org_id") = true

end JWTVerifyOptions

/-- A sequence succeeds when both of its parts do. -/
theorem bind_ok_iff {α β : Type} {x : Except JwtError α} {f : α → Except JwtError β} {b : β} :
    (x >>= f) = .ok b ↔ ∃ a, x = .ok a ∧ f a = .ok b := by
  cases x with
  | error e => simp [bind, Except.bind]
  | ok a => simp [bind, Except.bind]

theorem seq_ok_iff {β : Type} {x : Except JwtError Unit} {y : Except JwtError β} {b : β} :
    (x >>= fun _ => y) = .ok b ↔ x = .ok () ∧ y = .ok b := by
  rw [bind_ok_iff]
  constructor
  · rintro ⟨⟨⟩, hx, hy⟩
    exact ⟨hx, hy⟩
  · rintro ⟨hx, hy⟩
    exact ⟨(), hx, hy⟩

@[simp] theorem throwIf_ok_iff (bad : Bool) (e : JwtError) :
    throwIf bad e = .ok () ↔ bad = false := by
  cases bad <;> simp [throwIf]

/-- What is strictly equal to a truthy value is truthy. -/
theorem truthy_of_strictEq {a b : Value} (h : a.strictEq b = true) : a.truthy = b.truthy := by
  cases a <;> cases b <;> simp_all [Value.strictEq, Value.truthy]

namespace JWTVerifyOptions

variable (o : JWTVerifyOptions)

theorem checkIssuer_ok_iff (claims : IdToken) :
    o.checkIssuer claims = .ok () ↔ o.iss ≠ "" ∧ claims.get "iss" = .str o.iss := by
  unfold checkIssuer
  rw [seq_ok_iff, throwIf_ok_iff, throwIf_ok_iff, Bool.not_eq_false', Bool.not_eq_false',
    Value.strictEq_str]
  constructor
  · rintro ⟨htruthy, heq⟩
    rw [heq] at htruthy
    exact ⟨by simpa using htruthy, heq⟩
  · rintro ⟨hne, heq⟩
    rw [heq]
    exact ⟨by simpa using hne, rfl⟩

theorem checkHeader_ok_iff (d : DecodedToken) :
    checkHeader d = .ok () ↔
      (d.user.get "sub").truthy = true ∧ headerAlg d.header = some (.str "RS256") := by
  unfold checkHeader
  rw [seq_ok_iff, throwIf_ok_iff, Bool.not_eq_false']
  refine and_congr_right fun _ => ?_
  cases headerAlg d.header with
  | none => simp
  | some alg => simp

theorem checkAudience_ok_iff (claims : IdToken) :
    o.checkAudience claims = .ok () ↔ o.AudienceOk claims := by
  unfold checkAudience AudienceOk
  cases claims.get "aud" with
  | arr auds =>
    dsimp only
    rw [seq_ok_iff, throwIf_ok_iff, Bool.not_eq_false']
    refine and_congr_right fun _ => ?_
    by_cases hlen : 1 < auds.length
    · rw [if_pos hlen, seq_ok_iff, throwIf_ok_iff, throwIf_ok_iff, Bool.not_eq_false',
        Bool.not_eq_false']
      exact ⟨fun h _ => h, fun h => h hlen⟩
    · simp [hlen]
  | str s =>
    dsimp only
    rw [seq_ok_iff, throwIf_ok_iff, throwIf_ok_iff, Bool.not_eq_false']
    simp
  | _ => simp

theorem checkNonce_ok_iff (claims : IdToken) :
    o.checkNonce claims = .ok () ↔
      (o.nonce.truthy = true → (claims.get "nonce").strictEq o.nonce = true) := by
  unfold checkNonce
  by_cases hn : o.nonce.truthy = true
  · rw [if_pos hn, seq_ok_iff, throwIf_ok_iff, throwIf_ok_iff, Bool.not_eq_false',
      Bool.not_eq_false']
    constructor
    · exact fun h _ => h.2
    · exact fun h => ⟨(truthy_of_strictEq (h hn)).trans hn, h hn⟩
  · simp [hn]

theorem checkNumbers_ok_iff (claims : IdToken) :
    o.checkNumbers claims = .ok () ↔
      (o.max_age.truthy = true → (claims.get "auth_time").isNumber = true) ∧
      (claims.get "exp").isNumber = true ∧ (claims.get "iat").isNumber = true := by
  unfold checkNumbers
  simp [seq_ok_iff]

theorem checkTimes_ok_iff (claims : IdToken) (dateNow : Js.Num) :
    o.checkTimes claims dateNow = .ok () ↔
      ¬ o.expDate claims < o.nowDate dateNow ∧
      ((claims.get "nbf").isNumber = true → ¬ o.nowDate dateNow < o.nbfDate claims) ∧
      ((claims.get "auth_time").isNumber = true →
        ¬ o.authTimeDate claims < o.nowDate dateNow) := by
  unfold checkTimes
  simp [seq_ok_iff]

theorem checkOrganization_ok_iff (claims : IdToken) :
    o.checkOrganization claims = .ok () ↔
      (o.organizationId.truthy = true → o.organizationId.strictEq (claims.get "org_id") = true) := by
  unfold checkOrganization
  by_cases ho : o.organizationId.truthy = true
  · rw [if_pos ho, seq_ok_iff, throwIf_ok_iff, throwIf_ok_iff, Bool.not_eq_false',
      Bool.not_eq_false']
    constructor
    · exact fun h _ => h.2
    · exact fun h => ⟨(truthy_of_strictEq (h ho)).symm.trans ho, h ho⟩
  · simp [ho]

theorem checkDecoded_ok_iff (d : DecodedToken) (dateNow : Js.Num) :
    o.checkDecoded d dateNow = .ok () ↔ o.Accepts d dateNow := by
  unfold checkDecoded
  rw [seq_ok_iff, seq_ok_iff, seq_ok_iff, seq_ok_iff, seq_ok_iff, seq_ok_iff, checkIssuer_ok_iff,
    checkHeader_ok_iff, checkAudience_ok_iff, checkNonce_ok_iff, checkNumbers_ok_iff,
    checkTimes_ok_iff, checkOrganization_ok_iff]
  constructor
  · rintro ⟨hiss, ⟨hsub, halg⟩, haud, hnonce, ⟨hauth, hexp, hiat⟩, ⟨hlive, hnbf, hage⟩, horg⟩
    exact ⟨hiss, hsub, halg, haud, hnonce, hauth, hexp, hiat, hlive, hnbf, hage, horg⟩
  · rintro ⟨hiss, hsub, halg, haud, hnonce, hauth, hexp, hiat, hlive, hnbf, hage, horg⟩
    exact ⟨hiss, ⟨hsub, halg⟩, haud, hnonce, ⟨hauth, hexp, hiat⟩, ⟨hlive, hnbf, hage⟩, horg⟩

end JWTVerifyOptions

/-- **What `verify` accepts**: a non-empty token that decodes and passes every
check. -/
theorem verify_ok_iff (o : JWTVerifyOptions) (dateNow : Js.Num) (d : DecodedToken) :
    verify o dateNow = .ok d ↔
      ∃ token, o.id_token = .str token ∧ token ≠ "" ∧ decode token = .ok d ∧
        o.Accepts d dateNow := by
  have hother : ∀ v : Value, (if v.truthy then Except.error JwtError.malformed
      else Except.error .missing) ≠ .ok d := by
    intro v
    split <;> simp
  unfold verify
  cases o.id_token with
  | str token =>
    dsimp only
    by_cases htoken : token = ""
    · simp [htoken]
    · rw [if_neg htoken, bind_ok_iff]
      constructor
      · rintro ⟨d', hd, hrest⟩
        obtain ⟨hcheck, heq⟩ := seq_ok_iff.mp hrest
        obtain rfl : d' = d := by simpa using heq
        exact ⟨token, rfl, htoken, hd, (o.checkDecoded_ok_iff _ _).mp hcheck⟩
      · rintro ⟨token', heq, -, hd, hacc⟩
        obtain rfl : token = token' := by simpa using heq
        exact ⟨d, hd, seq_ok_iff.mpr ⟨(o.checkDecoded_ok_iff _ _).mpr hacc, rfl⟩⟩
  | _ => simp [hother]

end AuthokSpa
