import AuthokSpa.Client.Acceptance

/-!
# The organization of a flow

An organization can be configured on the client, named in a call, or remembered
in a cookie from the last ID token. The documentation of the option says that
naming one adds a check of the `org_id` claim. The login flows hand the check
one organization, the call's or else the client's; the silent flows hand it
none.

`organization_bound_iff` says when the tokens a flow caches are bound to every
organization in force.
-/

namespace AuthokSpa

open Js (Value Obj)

namespace Flow

variable (f : Flow) (c : AuthokClient) (call : Obj) (g : Given)

/-- The organization applies to the flow: the client is configured with it, or
the `/authorize` request carries it. -/
def InForce (o : String) : Prop :=
  o ≠ "" ∧ (c.options.get "organization" = .str o ∨
    ∃ q, f.query c call g = some q ∧ q.get "organization" = .str o)

/-- Only tokens of the organizations in force are cached. -/
def OrganizationBound (clock : Clock) : Prop :=
  ∀ o, f.InForce c call g o → ∀ authResult e, f.accept c call g clock authResult = .ok e →
    e.decodedToken.claims.get "org_id" = .str o

/-- Where the check sees every organization in force. A login sees one, so the
call and the client must not name two; a silent request sees none. -/
def OrganizationChecked : Prop :=
  match f with
  | redirect _ | popup =>
    (call.get "organization").truthy = true → (c.options.get "organization").truthy = true →
      call.get "organization" = c.options.get "organization"
  | iframe =>
    (c.options.get "organization").truthy = false ∧ (call.get "organization").truthy = false ∧
      g.orgIdHint.truthy = false
  | refresh => (c.options.get "organization").truthy = false

variable {f c call g}

/-- A parameter is given by the call or else by the client. -/
theorem given_cases (c : AuthokClient) (call : Obj) (k : String) :
    given c call k = call.get k ∨
      (call.get k = .undefined ∧ given c call k = c.options.get k) := by
  unfold given Js.Obj.get
  cases call.find k with
  | none => exact Or.inr ⟨rfl, rfl⟩
  | some v => exact Or.inl rfl

/-! ## Logins -/

/-- Of two organizations the call's is asked for. -/
theorem expected_of_call (ht : (call.get "organization").truthy = true) :
    expected c call = call.get "organization" := if_pos ht

theorem expected_of_not_call (ht : (call.get "organization").truthy = false) :
    expected c call = c.options.get "organization" := if_neg (by rw [ht]; simp)

/-- When call and client do not name two organizations, the one in force is the
one asked for. -/
theorem expected_of_inForce {q : Obj} (hq : q.get "organization" = given c call "organization")
    (hagree : (call.get "organization").truthy = true →
      (c.options.get "organization").truthy = true →
      call.get "organization" = c.options.get "organization") {o : String} (ho : o ≠ "")
    (hin : c.options.get "organization" = .str o ∨ q.get "organization" = .str o) :
    expected c call = .str o := by
  have hclient : c.options.get "organization" = .str o → expected c call = .str o := by
    intro hc
    cases ht : (call.get "organization").truthy with
    | true => rw [expected_of_call ht, hagree ht (by rw [hc]; simpa using ho), hc]
    | false => rw [expected_of_not_call ht, hc]
  rcases hin with hc | hsent
  · exact hclient hc
  · rw [hq] at hsent
    rcases given_cases c call "organization" with hcall | ⟨-, hc⟩
    · rw [hcall] at hsent
      rw [expected_of_call (by rw [hsent]; simpa using ho), hsent]
    · exact hclient (hc.symm.trans hsent)

/-- A login that caches for the call's organization caches against the client's. -/
theorem login_agree (h : OptionsTyped c call g) {clock : Clock}
    (horg : f.organizationId c call g =
        (if (expected c call).truthy then expected c call else .undefined) ∨
      f.organizationId c call g = expected c call)
    (hbound : f.OrganizationBound c call g clock)
    (hcall : (call.get "organization").truthy = true)
    (hclient : (c.options.get "organization").truthy = true) :
    call.get "organization" = c.options.get "organization" := by
  obtain ⟨o, -, ho⟩ := h.call.eq_str hcall
  obtain ⟨o', ho'0, ho'⟩ := h.client.eq_str hclient
  have hexp : expected c call = .str o := (expected_of_call hcall).trans ho
  have hgiven : f.organizationId c call g = .str o := by
    rw [hexp] at horg
    rcases horg with horg | horg
    · rw [horg, if_pos (by rw [← ho]; exact hcall)]
    · exact horg
  obtain ⟨r, e, he, horgId⟩ := exists_accepted_org (f := f) h clock (fun _ => hgiven)
  have := hbound o' ⟨ho'0, Or.inl ho'⟩ r e he
  rw [ho, ho', ← horgId, this]

/-! ## Silent requests -/

/-- An unchecked flow caches tokens of another organization. -/
theorem not_bound_of_unchecked (h : OptionsTyped c call g) {clock : Clock}
    (hnone : f.organizationId c call g = .undefined) {o : String} (hin : f.InForce c call g o) :
    ¬ f.OrganizationBound c call g clock := by
  intro hbound
  have hfree : (f.organizationId c call g).truthy = true →
      f.organizationId c call g = .str (o ++ "x") := by
    intro ht
    rw [hnone] at ht
    cases ht
  obtain ⟨r, e, he, horg⟩ := exists_accepted_org (f := f) h clock hfree
  have heq := hbound o hin r e he
  rw [horg] at heq
  have hlen := congrArg String.length (Value.str.inj heq)
  rw [String.length_append] at hlen
  exact absurd hlen (by simp)

/-- The organization an iframe's request carries. -/
theorem iframe_query_organization (h : OptionsTyped c call g) :
    ∃ q, iframe.query c call g = some q ∧ q.get "organization" =
      if g.orgIdHint.truthy = true ∧ (given c call "organization").truthy = false then g.orgIdHint
      else given c call "organization" := by
  have hname : "organization" ∉ ownNames := by decide
  refine ⟨c.iframeQuery g.browser (c.silentOptions call) g.secrets g.orgIdHint, by
    simp only [query], ?_⟩
  rw [iframeQuery_given h.distinct hname]
  simp only [true_and]

/-- Nothing is in force in an iframe exactly when nothing is given. -/
theorem iframe_not_inForce_iff (h : OptionsTyped c call g) :
    (∀ o, ¬ iframe.InForce c call g o) ↔ iframe.OrganizationChecked c call g := by
  obtain ⟨q, hq, hget⟩ := iframe_query_organization h
  constructor
  · intro hnone
    have hclient : (c.options.get "organization").truthy = false := by
      by_contra ht
      obtain ⟨o, ho, heq⟩ := h.client.eq_str (by simpa using ht)
      exact hnone o ⟨ho, Or.inl heq⟩
    have hquery : ∀ o, o ≠ "" → q.get "organization" ≠ .str o := fun o ho heq =>
      hnone o ⟨ho, Or.inr ⟨q, hq, heq⟩⟩
    -- a call's organization goes into the query, over the client's
    have hcall : (call.get "organization").truthy = false := by
      by_contra ht
      obtain ⟨o, ho, heq⟩ := h.call.eq_str (by simpa using ht)
      have hgiven : given c call "organization" = .str o := by
        rcases given_cases c call "organization" with hg | ⟨hg, -⟩
        · exact hg.trans heq
        · rw [hg] at heq
          cases heq
      refine hquery o ho ?_
      rw [hget, hgiven, if_neg (by simp [ho])]
    refine ⟨hclient, hcall, ?_⟩
    by_contra ht
    obtain ⟨o, ho, heq⟩ := h.hint.eq_str (by simpa using ht)
    -- a hint is sent when nothing else is given
    have hgiven : (given c call "organization").truthy = false := by
      rcases given_cases c call "organization" with hg | ⟨-, hg⟩
      · rw [hg, hcall]
      · rw [hg, hclient]
    refine hquery o ho ?_
    rw [hget, if_pos ⟨by simpa using ht, hgiven⟩, heq]
  · rintro ⟨hclient, hcall, hhint⟩ o ⟨ho, hc | ⟨q', hq', hsent⟩⟩
    · rw [hc] at hclient
      exact ho (by simpa using hclient)
    · obtain rfl : q = q' := Option.some.inj (hq.symm.trans hq')
      rw [hget, if_neg (by simp [hhint])] at hsent
      rcases given_cases c call "organization" with hg | ⟨-, hg⟩
      · rw [← hg, hsent] at hcall
        exact ho (by simpa using hcall)
      · rw [← hg, hsent] at hclient
        exact ho (by simpa using hclient)

theorem refresh_not_inForce_iff (h : OptionsTyped c call g) :
    (∀ o, ¬ refresh.InForce c call g o) ↔ refresh.OrganizationChecked c call g := by
  constructor
  · intro hnone
    show (c.options.get "organization").truthy = false
    by_contra ht
    obtain ⟨o, ho, heq⟩ := h.client.eq_str (by simpa using ht)
    exact hnone o ⟨ho, Or.inl heq⟩
  · rintro hclient o ⟨ho, hc | ⟨q, hq, -⟩⟩
    · rw [show refresh.OrganizationChecked c call g ↔
        (c.options.get "organization").truthy = false from Iff.rfl, hc] at hclient
      exact ho (by simpa using hclient)
    · cases hq

/-- **When the organization is bound**: a flow caches only tokens of the
organizations in force exactly when a login names one organization at most and
a silent request none. -/
theorem organization_bound_iff (f : Flow) (h : OptionsTyped c call g) (clock : Clock) :
    f.OrganizationBound c call g clock ↔ f.OrganizationChecked c call g := by
  have hname : "organization" ∉ ownNames := by decide
  constructor
  · intro hbound
    cases f with
    | redirect reloaded =>
      exact login_agree h (Or.inl (redirect_organizationId reloaded (expected_text h))) hbound
    | popup => exact login_agree h (Or.inr rfl) hbound
    | iframe =>
      exact (iframe_not_inForce_iff h).mp fun o hin => not_bound_of_unchecked h rfl hin hbound
    | refresh =>
      exact (refresh_not_inForce_iff h).mp fun o hin => not_bound_of_unchecked h rfl hin hbound
  · intro hcheck o hin authResult e he
    -- what the check was given is the organization in force
    have hgiven : f.organizationId c call g = .str o := by
      cases f with
      | redirect reloaded =>
        have hexp : expected c call = .str o := by
          refine expected_of_inForce (redirectParams_given (g := g) h.distinct hname) hcheck hin.1 ?_
          refine hin.2.imp_right fun ⟨q, hq, hsent⟩ => ?_
          simp only [query, Option.some.injEq] at hq
          rw [hq]
          exact hsent
        rw [redirect_organizationId reloaded (expected_text h), hexp,
          if_pos (by simpa using hin.1)]
      | popup =>
        refine expected_of_inForce (popupQuery_given (g := g) h.distinct hname) hcheck hin.1 ?_
        refine hin.2.imp_right fun ⟨q, hq, hsent⟩ => ?_
        simp only [query, Option.some.injEq] at hq
        rw [hq]
        exact hsent
      | iframe => exact absurd hin ((iframe_not_inForce_iff h).mpr hcheck o)
      | refresh => exact absurd hin ((refresh_not_inForce_iff h).mpr hcheck o)
    obtain ⟨-, -, -, -, hacc⟩ := (verify_ok_iff ..).mp (accept_verified he)
    have hstrict := hacc.organization
    simp only [AuthokClient.verifyOptions, hgiven] at hstrict
    have hne : (Value.str o).truthy = true := by simpa using hin.1
    have heq := hstrict hne
    cases horg : e.decodedToken.claims.get "org_id" <;> rw [horg] at heq <;>
      simp_all [Value.strictEq]

/-! ## One client -/

/-- A client of the organization `org_1`. -/
def orgClient : AuthokClient where
  options := [("client_id", .str "client"), ("domain", .str "idp"), ("organization", .str "org_1")]

def orgGiven : Given where
  browser := ⟨"https://app", fun _ => []⟩
  secrets := ⟨"state", "nonce", "verifier"⟩
  orgIdHint := .undefined
  code := .str "code"
  refresh_token := .undefined

/-- A clock in November 2023. -/
def orgClock : Clock := ⟨.fin 1700000000000, .fin 1700000000000⟩

theorem orgClient_typed : OptionsTyped orgClient [] orgGiven where
  client_id := ⟨"client", by decide, rfl⟩
  distinct := List.nodup_nil
  client := Or.inr ⟨"org_1", rfl⟩
  call := Or.inl rfl
  hint := Or.inl rfl

/-- Logging in by redirect binds the tokens to the client's organization. -/
theorem organization_bound_orgClient :
    OptionsTyped orgClient [] orgGiven ∧
      (redirect true).OrganizationBound orgClient [] orgGiven orgClock :=
  ⟨orgClient_typed, (organization_bound_iff (redirect true) orgClient_typed orgClock).mpr
    (fun h => by cases h)⟩

/-- A token of the organization `org_2`. -/
def foreignToken : String :=
  (IssuedClaims.lasting "https://idp/" "client" "nonce" "org_2" (.fin 60) (Js.reads_quote "")).token

/-- The same client caches a silently obtained token of another organization. -/
theorem silent_foreign_token :
    iframe.InForce orgClient [] orgGiven "org_1" ∧
      ∃ e, iframe.accept orgClient [] orgGiven orgClock [("id_token", .str foreignToken)] = .ok e ∧
        e.decodedToken.claims.get "org_id" = .str "org_2" := by
  have hiss : orgClient.tokenIssuer = "https://idp/" := by decide
  have hverify : orgClient.verifyIdToken orgClock (.str foreignToken) (.str "nonce") .undefined =
      .ok (IssuedClaims.lasting "https://idp/" "client" "nonce" "org_2" (.fin 60)
        (Js.reads_quote "")).decoded :=
    IssuedClaims.verify_token _ rfl hiss (by decide) rfl (by decide) (fun _ => rfl)
      (fun h => by cases h) rfl (fun h => by cases h) (fun h => by cases h)
  obtain ⟨e, he, hd⟩ := @accept_of_verified iframe orgClient [] orgGiven orgClock
    [("id_token", .str foreignToken)] _ hverify
  exact ⟨⟨by decide, Or.inl rfl⟩, e, he, by rw [hd]; rfl⟩

end Flow

end AuthokSpa
