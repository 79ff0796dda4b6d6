import AuthokSpa.Client.Flows
import AuthokSpa.Jwt.Issue

/-!
# Tokens that a flow accepts

What a provider has to put into an ID token for a flow to cache it. The nonce
and the organization the check is given are the ones of the flow; everything
else that `verify` looks at is fixed by the client. `exists_accepted` builds
the token response, leaving the `org_id` and `auth_time` claims open: these are
the two the modules that follow ask about.
-/

namespace AuthokSpa

open Js (Value Obj)

/-- An optional string, as the options declare it. -/
def OptionalText (v : Value) : Prop := v = .undefined ∨ ∃ s, v = .str s

theorem OptionalText.eq_str {v : Value} (h : OptionalText v) (ht : v.truthy = true) :
    ∃ s, s ≠ "" ∧ v = .str s := by
  rcases h with rfl | ⟨s, rfl⟩
  · cases ht
  · exact ⟨s, by simpa using ht, rfl⟩

/-- What the option types promise of a client, a call and the hint. -/
structure OptionsTyped (c : AuthokClient) (call : Obj) (g : Given) : Prop where
  client_id : ∃ id, id ≠ "" ∧ c.options.get "client_id" = .str id
  distinct : Js.OrdMap.KeysNodup call
  client : OptionalText (c.options.get "organization")
  call : OptionalText (call.get "organization")
  hint : OptionalText g.orgIdHint

theorem getTokenIssuer_ne_empty (issuer : Value) (domainUrl : String) :
    getTokenIssuer issuer domainUrl ≠ "" := by
  unfold getTokenIssuer
  split
  · split
    next h =>
      intro hempty
      rw [hempty] at h
      exact absurd h (by decide)
    next => simp [String.append_eq_empty_iff]
  · simp [String.append_eq_empty_iff]

/-- The current time of a verification. -/
def Clock.now (clock : Clock) : Js.Num :=
  Js.dateOf (if clock.nowProvider.truthy then clock.nowProvider else clock.dateNow)

namespace AuthokClient

variable (c : AuthokClient)

/-- The maximum age in force in every check. -/
def maxAge : Value := parseNumber (c.options.get "max_age")

/-- The leeway in force in every check. -/
def leeway : Js.Num := ((c.options.get "leeway").or (.num (.fin 60))).asNum

end AuthokClient

namespace Flow

variable {f : Flow} {c : AuthokClient} {call : Obj} {g : Given}

/-- The organization a login asks for. -/
def expected (c : AuthokClient) (call : Obj) : Value :=
  (call.get "organization").or (c.options.get "organization")

/-- A login's check is given the organization it asks for, if there is one. -/
theorem redirect_organizationId (reloaded : Bool)
    (htext : OptionalText (expected c call)) :
    (redirect reloaded).organizationId c call g =
      if (expected c call).truthy then expected c call else .undefined := by
  have hget : (AuthokClient.redirectOptions call).get "organization" = call.get "organization" :=
    Js.Obj.get_without (by decide)
  have hmade : (c.redirectTransaction g.browser (AuthokClient.redirectOptions call)
      g.secrets).organizationId =
        if (expected c call).truthy then expected c call else .undefined := by
    simp only [AuthokClient.redirectTransaction, hget, expected]
    rfl
  cases reloaded with
  | false =>
    simp only [organizationId, transaction]
    exact hmade
  | true =>
    simp only [organizationId, transaction, if_true, AuthokClient.Transaction.reload, hmade]
    split
    next ht =>
      obtain ⟨s, -, hs⟩ := htext.eq_str ht
      rw [hs, jsonCopy_str]
    next => rfl

theorem expected_text (h : OptionsTyped c call g) : OptionalText (expected c call) := by
  unfold expected Value.or
  split
  · exact h.call
  · exact h.client

/-- The organization a check is given is a string. -/
theorem organizationId_str (h : OptionsTyped c call g)
    (ht : (f.organizationId c call g).truthy = true) :
    ∃ o, f.organizationId c call g = .str o := by
  cases f with
  | redirect reloaded =>
    rw [redirect_organizationId reloaded (expected_text h)] at ht ⊢
    split at ht
    next hexp =>
      obtain ⟨o, -, ho⟩ := (expected_text h).eq_str hexp
      exact ⟨o, by rw [if_pos hexp, ho]⟩
    next => cases ht
  | popup =>
    obtain ⟨o, -, ho⟩ := (expected_text h).eq_str ht
    exact ⟨o, ho⟩
  | iframe => cases ht
  | refresh => cases ht

/-- **Accepted responses**: a flow caches a token with any `org_id` its check
allows and any `auth_time` that is not too old. -/
theorem exists_accepted (h : OptionsTyped c call g) (clock : Clock) {org_id : String}
    (horg : (f.organizationId c call g).truthy = true → f.organizationId c call g = .str org_id)
    {auth_text : List Char} {auth_time : Value} (hreads : Js.Reads auth_text auth_time)
    (hauth : c.maxAge.truthy = true → auth_time.isNumber = true)
    (hage : auth_time.isNumber = true →
      ¬ Js.dateOfSeconds (Js.parseInt auth_time.toText + addend c.maxAge + c.leeway) < clock.now) :
    ∃ authResult e, f.accept c call g clock authResult = .ok e ∧
      e.decodedToken.claims.get "org_id" = .str org_id ∧
      e.decodedToken.claims.get "auth_time" = auth_time := by
  obtain ⟨id, hid, haud⟩ := h.client_id
  let i := IssuedClaims.lasting c.tokenIssuer id g.secrets.nonceIn org_id c.leeway hreads
  let authResult : Obj := [("id_token", .str i.token)]
  have hverify : c.verifyIdToken clock (authResult.get "id_token") (f.nonce c call g)
      (f.organizationId c call g) = .ok i.decoded :=
    i.verify_token rfl rfl (getTokenIssuer_ne_empty _ _) haud hid (f.nonce_eq c call g) horg rfl
      hauth hage
  obtain ⟨e, he, hd⟩ := accept_of_verified hverify
  exact ⟨authResult, e, he, by rw [hd]; rfl, by rw [hd]; rfl⟩

/-- The `auth_time` that no clock finds too old. -/
theorem exists_accepted_org (h : OptionsTyped c call g) (clock : Clock) {org_id : String}
    (horg : (f.organizationId c call g).truthy = true → f.organizationId c call g = .str org_id) :
    ∃ authResult e, f.accept c call g clock authResult = .ok e ∧
      e.decodedToken.claims.get "org_id" = .str org_id := by
  have hsmall := lateFor_natAbs (addend c.maxAge + c.leeway)
  have hage : ¬ Js.dateOfSeconds
      (Js.parseInt (Value.num (.fin (lateFor (addend c.maxAge + c.leeway)))).toText +
        addend c.maxAge + c.leeway) < clock.now := by
    rw [Value.toText_num, Js.parseInt_toText hsmall, Js.Num.fin_add_assoc]
    exact not_lt_of_late _ _
  obtain ⟨r, e, he, horgId, -⟩ := exists_accepted (f := f) h clock horg (Js.reads_toText hsmall)
    (fun _ => rfl) (fun _ => hage)
  exact ⟨r, e, he, horgId⟩

end Flow

end AuthokSpa
