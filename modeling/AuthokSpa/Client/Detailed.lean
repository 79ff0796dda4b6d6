import AuthokSpa.Client.Silent

/-!
# Detailed responses (`AuthokClient.ts`)

With `detailedResponse` a silent call resolves to the token response. The scope
member of a cached entry is the scope that was asked for, so the scope that was
granted is kept beside it as `oauthTokenScope`; both the cached and the fresh
answer are made of that.

Every flow writes its own entry. A redirect and the silent flows write
`oauthTokenScope`, a popup does not: after a popup login the cached answer has
lost the granted scope. `cached_detailed_iff` says that nothing else is lost.
-/

namespace AuthokSpa

open Js (Value Obj)

/-- The detailed answer for a token response: its members, without a scope where
that is absent or empty. -/
def TokenResult.ofResponse (r : Obj) : TokenResult :=
  .detailed (r.get "id_token") (r.get "access_token")
    (if (r.get "scope").truthy then r.get "scope" else .undefined) (r.get "expires_in").asNum

namespace Route

/-- The flow ends in `loginWithPopup`. -/
def isPopup : Route → Bool
  | popup => true
  | tokenWithPopup => true
  | _ => false

/-- The flow is one of `getTokenSilently`. -/
def isSilent : Route → Bool
  | iframe => true
  | refresh => true
  | refreshIframe => true
  | _ => false

end Route

/-! ## What the entry keeps of the response -/

/-- The entry is made of `r`, and remembers this scope as the granted one. -/
structure MadeOf (r : Obj) (oauthTokenScope : Value) (e : CacheEntry) : Prop where
  id_token : e.id_token = r.get "id_token"
  access_token : e.access_token = r.get "access_token"
  expires_in : e.expires_in = (r.get "expires_in").asNum
  scope : e.oauthTokenScope = oauthTokenScope

/-- The scope a flow remembers. -/
def Route.grantedScope (r : Obj) : Route → Value
  | redirect _ => (r.get "scope").or (r.get "oauthTokenScope")
  | popup => r.get "oauthTokenScope"
  | tokenWithPopup => r.get "oauthTokenScope"
  | _ => r.get "scope"

section

variable {c : AuthokClient} {call : Obj} {g : Given} {clock : Clock} {r : Obj} {e : CacheEntry}

theorem MadeOf.of_verified {x : Except JwtError DecodedToken} {scope : Value}
    {entry : DecodedToken → CacheEntry} (hentry : ∀ d, MadeOf r scope (entry d))
    (h : (x >>= fun d => pure (entry d)) = .ok e) : MadeOf r scope e := by
  obtain ⟨d, -, he⟩ := bind_ok_iff.mp h
  rw [← Except.ok.inj he]
  exact hentry d

theorem Route.accept_madeOf (route : Route) (h : route.accept c call g clock r = .ok e) :
    MadeOf r (route.grantedScope r) e := by
  cases route with
  | redirect reloaded => exact .of_verified (fun _ => ⟨rfl, rfl, rfl, rfl⟩) h
  | popup => exact .of_verified (fun _ => ⟨rfl, rfl, rfl, rfl⟩) h
  | tokenWithPopup => exact .of_verified (fun _ => ⟨rfl, rfl, rfl, rfl⟩) h
  | iframe => exact .of_verified (fun _ => ⟨rfl, rfl, rfl, rfl⟩) h
  | refresh => exact .of_verified (fun _ => ⟨rfl, rfl, rfl, rfl⟩) h
  | refreshIframe => exact .of_verified (fun _ => ⟨rfl, rfl, rfl, rfl⟩) h

/-- Two granted scopes print the same detailed answer. -/
theorem MadeOf.ofEntry_eq_iff {scope : Value} (h : MadeOf r scope e) :
    TokenResult.ofEntry true e = .ofResponse r ↔
      (if scope.truthy then scope else .undefined) =
        (if (r.get "scope").truthy then r.get "scope" else .undefined) := by
  unfold TokenResult.ofEntry TokenResult.ofResponse
  rw [if_pos rfl, h.id_token, h.access_token, h.expires_in, h.scope]
  simp only [TokenResult.detailed.injEq, true_and, and_true]

/-- The answer agrees with the response unless a popup lost a scope. -/
theorem Route.ofEntry_eq_iff (route : Route) (hr : r.get "oauthTokenScope" = .undefined)
    (h : route.accept c call g clock r = .ok e) :
    TokenResult.ofEntry true e = .ofResponse r ↔
      (route.isPopup = true → (r.get "scope").truthy = false) := by
  have hlost : (Value.undefined = if (r.get "scope").truthy then r.get "scope" else .undefined) ↔
      (r.get "scope").truthy = false := by
    cases hscope : (r.get "scope").truthy with
    | false => simp
    | true =>
      rw [if_pos rfl]
      refine ⟨fun heq => ?_, fun hf => Bool.noConfusion hf⟩
      rw [← heq] at hscope
      exact Bool.noConfusion hscope
  rw [(route.accept_madeOf h).ofEntry_eq_iff]
  cases route with
  | popup => simpa [grantedScope, isPopup, hr] using hlost
  | tokenWithPopup => simpa [grantedScope, isPopup, hr] using hlost
  | redirect reloaded =>
    simp only [grantedScope, isPopup, hr, Bool.false_eq_true, false_implies, iff_true]
    unfold Value.or
    cases hscope : (r.get "scope").truthy with
    | false => simp
    | true => simp [hscope]
  | iframe => exact iff_of_true rfl fun h => Bool.noConfusion h
  | refresh => exact iff_of_true rfl fun h => Bool.noConfusion h
  | refreshIframe => exact iff_of_true rfl fun h => Bool.noConfusion h

end

/-! ## Served from the cache -/

/-- A detailed call that looks into the cache finds the entry. -/
structure Flight.Served (S : Setup) (sh : Shared) (f : Flight) (now : Js.Num) (e : CacheEntry) :
    Prop where
  ignoreCache : f.ignoreCache = false
  detailedResponse : f.detailedResponse = true
  found : (S.manager.get (S.client.requestKey f.options) (.fin 60) now sh.store).2 =
    some (.entry e)
  access_token : e.access_token.truthy = true

theorem Flight.Served.cacheCheck {S : Setup} {sh : Shared} {f : Flight} {now : Js.Num}
    {e : CacheEntry} (h : f.Served S sh now e) (hit : Settlement → Stage) (next : Stage) :
    (f.cacheCheck S sh now hit next).flight.stage = hit (.ok ⟨.ofEntry true e, none⟩) := by
  rcases Flight.cacheCheck_cases now hit next with
    ⟨hignore, -⟩ | ⟨-, found, rfl, ⟨e', hfound, -, hstep⟩ | ⟨hmiss, -⟩⟩
  · rw [h.ignoreCache] at hignore
    exact Bool.noConfusion hignore
  · rw [h.found] at hfound
    obtain rfl : e = e' := by simpa using hfound
    rw [hstep, h.detailedResponse]
    rfl
  · refine absurd ?_ hmiss
    rw [h.found]
    exact h.access_token

/-- Right after it is stored, the entry of a call serves the next call for the same
audience and scope, unless it is about to expire. -/
theorem Flight.served_stored {S : Setup} {call : Obj} (hcall : AudienceTyped S.client call)
    {route : Route} {g : Given} {clock : Clock} {r : Obj} {e : CacheEntry}
    (hr : r.find "client_id" = none) (he : route.accept S.client call g clock r = .ok e)
    (hmanifest : ∀ cid, S.manager.keyManifest = some cid →
      Cache.manifestKey cid ≠ (S.client.userKey call).toKey)
    {f : Flight} (hignore : f.ignoreCache = false) (hdetailed : f.detailedResponse = true)
    (hkey : S.client.requestKey f.options = S.client.userKey call)
    (htoken : e.access_token.truthy = true) {t now : Js.Num}
    (hlive : ¬ (Cache.wrapCacheEntry e t).expired (.fin 60) now) (sh : Shared) :
    f.Served S { sh with store := S.manager.set e t sh.store } now e := by
  refine ⟨hignore, hdetailed, ?_, htoken⟩
  rw [hkey]
  have hown : (S.client.userKey call).toKey = (Cache.CacheKey.ofEntry e).toKey := by
    rw [route.accept_key hcall hr he]
  rw [Cache.Manager.get_set hown hmanifest hlive]

/-- **The cached answer and the response.** A detailed call that the entry of a token
response serves resolves to the members of that response, if and only if the flow
that stored it was not a popup or no scope was granted in so many words. A silent
flow that gets the response from the network answers with its members always. -/
theorem cached_detailed_iff (S : Setup) (route : Route) (call : Obj) (g : Given) (clock : Clock)
    (r : Obj) (hr : r.get "oauthTokenScope" = .undefined) (e : CacheEntry)
    (he : route.accept S.client call g clock r = .ok e) (sh : Shared) (f : Flight) (now : Js.Num)
    (hserved : f.Served S sh now e) :
    (∃ result, (∀ hit next,
        (f.cacheCheck S sh now hit next).flight.stage = hit (.ok ⟨result, none⟩)) ∧
      (result = .ofResponse r ↔ (route.isPopup = true → (r.get "scope").truthy = false))) ∧
    (∀ (silent : Route) (e' : CacheEntry), silent.isSilent = true →
      silent.accept S.client call g clock r = .ok e' →
        (f.store S sh e' r now).flight.stage = .saving ⟨.ofResponse r, some r⟩) := by
  refine ⟨⟨_, hserved.cacheCheck, route.ofEntry_eq_iff hr he⟩, ?_⟩
  intro silent e' hsilent he'
  have hagree : TokenResult.ofEntry true e' = .ofResponse r := by
    refine (silent.ofEntry_eq_iff hr he').mpr fun hpopup => ?_
    cases silent <;> first | exact Bool.noConfusion hsilent | exact Bool.noConfusion hpopup
  unfold Flight.store Flight.goTo
  rw [hserved.detailedResponse, hagree]

/-! ## A login that was granted less -/

/-- A token response that names the granted scope. -/
def grantedResponse : Obj :=
  [("id_token", .str sampleClaims.token), ("access_token", .str "access"),
    ("expires_in", .num (.fin 86400)), ("scope", .str "openid")]

def sampleGiven : Given where
  browser := ⟨"https://app", fun _ => []⟩
  secrets := ⟨"state", "nonce", "verifier"⟩
  orgIdHint := .undefined
  code := .str "code"
  refresh_token := .undefined

/-- A detailed silent call. -/
def detailedFlight : Flight where
  key := "client::undefined::openid profile email"
  isLogin := false
  options := (sampleClient false).silentOptions [("detailedResponse", .bool true)]
  ignoreCache := false
  detailedResponse := true
  stage := .firstCheck

theorem typed_sampleCall (call : Obj) (hcall : call = [] ∨ call = [("detailedResponse", .bool true)]) :
    AudienceTyped (sampleClient false) call := by
  refine ⟨?_, Or.inl ?_, Or.inl rfl⟩
  · rcases hcall with rfl | rfl
    · exact List.nodup_nil
    · exact List.nodup_singleton _
  · rcases hcall with rfl | rfl <;> rfl

/-- The call looks where the login has stored. -/
theorem detailedFlight_key :
    (sampleClient false).requestKey detailedFlight.options = (sampleClient false).userKey [] :=
  (Lookup.key_eq (typed_sampleCall _ (Or.inr rfl)) .getTokenSilently).trans rfl

/-- The entry of a login serves the call. -/
theorem sample_served {route : Route} {e : CacheEntry} {r : Obj}
    (hr : r.find "client_id" = none)
    (he : route.accept (sampleClient false) [] sampleGiven sampleClock r = .ok e)
    (htoken : r.get "access_token" = .str "access")
    (hin : r.get "expires_in" = .num (.fin 86400)) (hd : e.decodedToken = sampleClaims.decoded)
    (sh : Shared) :
    detailedFlight.Served (sampleSetup false false)
      { sh with store := (sampleSetup false false).manager.set e sampleClock.nowProvider sh.store }
      sampleClock.nowProvider e := by
  have hmade := route.accept_madeOf he
  have htruthy : e.access_token.truthy = true := by
    rw [hmade.access_token, htoken]
    decide
  have hlive : ¬ (Cache.wrapCacheEntry e sampleClock.nowProvider).expired (.fin 60)
      sampleClock.nowProvider := by
    show ¬ Cache.expiryOf e sampleClock.nowProvider - .fin 60 < sampleClock.nowProvider.seconds
    unfold Cache.expiryOf
    rw [hmade.expires_in, hin, hd]
    decide +kernel
  exact @Flight.served_stored (sampleSetup false false) [] (typed_sampleCall _ (Or.inl rfl)) route
    sampleGiven sampleClock r e hr he (fun _ hcid => (nomatch hcid)) detailedFlight rfl rfl
    detailedFlight_key htruthy _ _ hlive sh

/-- The cache after the entry was stored in an empty one. -/
def storedShared (e : CacheEntry) : Shared :=
  { store := (sampleSetup false false).manager.set e sampleClock.nowProvider {} }

/-- After a redirect the cached answer has the granted scope. -/
theorem cached_detailed_redirect :
    ∃ e, (Route.redirect false).accept (sampleClient false) [] sampleGiven sampleClock
        grantedResponse = .ok e ∧
      detailedFlight.Served (sampleSetup false false) (storedShared e) sampleClock.nowProvider e ∧
      (detailedFlight.cacheCheck (sampleSetup false false) (storedShared e) sampleClock.nowProvider
        .settled (.locking 0)).flight.stage =
          .settled (.ok ⟨.ofResponse grantedResponse, none⟩) := by
  obtain ⟨e, he, hd⟩ := @Flow.accept_of_verified (.redirect false) (sampleClient false) []
    sampleGiven sampleClock grantedResponse _ (sample_verify false false fun _ => rfl)
  have hserved := @sample_served (.redirect false) e grantedResponse rfl he rfl rfl hd {}
  obtain ⟨result, hstage, hagree⟩ := (cached_detailed_iff (sampleSetup false false)
    (.redirect false) [] sampleGiven sampleClock grantedResponse rfl e he _ detailedFlight
    sampleClock.nowProvider hserved).1
  refine ⟨e, he, hserved, ?_⟩
  rw [← hagree.mpr fun h => Bool.noConfusion h]
  exact hstage .settled (.locking 0)

/-- After a popup it has none. -/
theorem popup_loses_scope :
    ∃ e, Route.popup.accept (sampleClient false) [] sampleGiven sampleClock grantedResponse =
        .ok e ∧
      detailedFlight.Served (sampleSetup false false) (storedShared e) sampleClock.nowProvider e ∧
      (detailedFlight.cacheCheck (sampleSetup false false) (storedShared e) sampleClock.nowProvider
        .settled (.locking 0)).flight.stage = .settled (.ok ⟨.ofEntry true e, none⟩) ∧
      TokenResult.ofEntry true e ≠ .ofResponse grantedResponse := by
  obtain ⟨e, he, hd⟩ := @Flow.accept_of_verified .popup (sampleClient false) [] sampleGiven
    sampleClock grantedResponse _ (sample_verify false false fun _ => rfl)
  have hserved := @sample_served .popup e grantedResponse rfl he rfl rfl hd {}
  refine ⟨e, he, hserved, hserved.cacheCheck _ _, fun heq => ?_⟩
  have hlost := (Route.popup.ofEntry_eq_iff rfl he).mp heq rfl
  exact absurd hlost (by decide)

end AuthokSpa
