import AuthokSpa.Cache.Manager
import AuthokSpa.Client.Acceptance

/-!
# One cache key for all flows (`AuthokClient.ts`)

Every flow that stores tokens rebuilds the scope by its own nesting of
`getUniqueScopes` and resolves the audience by its own mixture of `||` and
spreads; so does every method that looks tokens up, and so does `oauthToken`
for the slot of the worker. `key_agreement` says that they all arrive at the
same key.

The scopes come together because `getUniqueScopes` depends on the set of words
of its arguments only: merging the default scope and the client's scope into a
scope that has them already changes nothing.
-/

namespace AuthokSpa

open Js (Value Obj)
open Cache (CacheKey)

namespace AuthokClient

variable (c : AuthokClient)

/-! ## Lookups -/

/-- The key that `getUser` and `getIdTokenClaims` look up. -/
def userKey (options : Obj) : CacheKey where
  client_id := c.client_id
  audience := (((options.get "audience").or (c.options.get "audience")).or (.str "default")).text
  scope := getUniqueScopes [.str c.defaultScope, c.scope, options.get "scope"]

/-- The key of options that are merged already: `_getEntryFromCache`,
`_getTokenUsingRefreshToken` and the end of `getTokenWithPopup`. -/
def requestKey (options : Obj) : CacheKey where
  client_id := c.client_id
  audience := ((options.get "audience").or (.str "default")).text
  scope := (options.get "scope").text

/-- The options of `getTokenWithPopup` after its assignments to them. -/
def popupCallOptions (options : Obj) : Obj :=
  let options := Obj.set options "audience" ((options.get "audience").or (c.options.get "audience"))
  Obj.set options "scope"
    (.str (getUniqueScopes [.str c.defaultScope, c.scope, options.get "scope"]))

end AuthokClient

/-- The methods that look tokens up. -/
inductive Lookup where
  | getUser
  | getIdTokenClaims
  | getTokenSilently
  | refreshToken
  | getTokenWithPopup

def Lookup.key (c : AuthokClient) (call : Obj) : Lookup → CacheKey
  | getUser => c.userKey call
  | getIdTokenClaims => c.userKey call
  | getTokenSilently => c.requestKey (c.silentOptions call)
  | refreshToken => c.requestKey (c.refreshOptions (c.silentOptions call))
  | getTokenWithPopup => c.requestKey (c.popupCallOptions call)

/-! ## Routes -/

/-- The ways a call ends in the cache. `refreshIframe` is the iframe that a
refresh falls back to, with the options the refresh has changed. -/
inductive Route where
  | redirect (reloaded : Bool)
  | popup
  | tokenWithPopup
  | iframe
  | refresh
  | refreshIframe

namespace Route

/-- The entry that is stored. -/
def accept (c : AuthokClient) (call : Obj) (g : Given) (clock : Clock) (tokenResult : Obj) :
    Route → Except JwtError CacheEntry
  | redirect reloaded => (Flow.redirect reloaded).accept c call g clock tokenResult
  | popup => Flow.popup.accept c call g clock tokenResult
  | tokenWithPopup => Flow.popup.accept c (c.popupCallOptions call) g clock tokenResult
  | iframe => Flow.iframe.accept c call g clock tokenResult
  | refresh => Flow.refresh.accept c call g clock tokenResult
  | refreshIframe =>
    c.finishIframe g.browser clock (c.refreshOptions (c.silentOptions call)) g.secrets g.orgIdHint
      tokenResult

/-- The options `oauthToken` is called with. -/
def tokenOptions (c : AuthokClient) (call : Obj) (g : Given) : Route → Obj
  | redirect reloaded => c.redirectTokenOptions (Flow.transaction reloaded c call g) g.code
  | popup => c.popupTokenOptions g.browser call g.secrets g.code
  | tokenWithPopup => c.popupTokenOptions g.browser (c.popupCallOptions call) g.secrets g.code
  | iframe => c.iframeTokenOptions g.browser (c.silentOptions call) g.secrets g.orgIdHint g.code
  | refresh =>
    c.refreshTokenOptions g.browser (c.refreshOptions (c.silentOptions call)) g.refresh_token
  | refreshIframe =>
    c.iframeTokenOptions g.browser (c.refreshOptions (c.silentOptions call)) g.secrets g.orgIdHint
      g.code

end Route

/-- A call whose audience is a string or not set, on such a client. -/
structure AudienceText (c : AuthokClient) (call : Obj) : Prop where
  distinct : Js.OrdMap.KeysNodup call
  call : OptionalText (call.get "audience")
  client : OptionalText (c.options.get "audience")

/-- A call whose audience is omitted or a non-empty string, on a client whose
audience is a string or not set. -/
structure AudienceTyped (c : AuthokClient) (call : Obj) : Prop where
  distinct : Js.OrdMap.KeysNodup call
  call : Js.OrdMap.find call "audience" = none ∨
    ∃ a, a ≠ "" ∧ Js.OrdMap.find call "audience" = some (.str a)
  client : OptionalText (c.options.get "audience")

/-! ## Scopes -/

section Scopes

variable (c : AuthokClient) (s : Value)

/-- The scope of every lookup. -/
def AuthokClient.fullScope : String := getUniqueScopes [.str c.defaultScope, c.scope, s]

/-- `_getParams` on a merged scope. -/
theorem fullScope_fullScope : c.fullScope (.str (c.fullScope s)) = c.fullScope s :=
  getUniqueScopes_absorb (begins_refl c.scope) _ s

/-- `_getTokenUsingRefreshToken` merges the client's own scope, without
`offline_access`, into a scope that has both. -/
theorem refreshScope_fullScope :
    getUniqueScopes [.str c.defaultScope, c.options.get "scope", .str (c.fullScope s)] =
      c.fullScope s := by
  refine getUniqueScopes_absorb ?_ _ s
  unfold AuthokClient.scope
  split
  · exact begins_merged ..
  · exact begins_refl _

end Scopes

/-! ## Audiences -/

section Audiences

variable {c : AuthokClient} {call : Obj}

/-- The audience a call asks for, before the default takes its place. -/
def AuthokClient.wantedAudience (c : AuthokClient) (call : Obj) : Value :=
  (Js.OrdMap.find call "audience").getD (c.options.get "audience")

/-- Spreads and `||` resolve the audience alike. -/
theorem AudienceTyped.or_eq (h : AudienceTyped c call) :
    (Obj.get call "audience").or (c.options.get "audience") = c.wantedAudience call := by
  unfold AuthokClient.wantedAudience Obj.get
  rcases h.call with hnone | ⟨a, ha, hsome⟩
  · rw [hnone]
    rfl
  · rw [hsome]
    simp [Value.or, ha]

/-- The audience of the key is a string. -/
theorem AudienceTyped.eq_str (h : AudienceTyped c call) :
    (c.wantedAudience call).or (.str "default") = .str (c.userKey call).audience := by
  have htext : ∃ a, (c.wantedAudience call).or (.str "default") = .str a := by
    unfold AuthokClient.wantedAudience
    rcases h.call with hnone | ⟨a, ha, hsome⟩
    · rw [hnone, Option.getD_none]
      rcases h.client with hu | ⟨a, ha⟩
      · exact ⟨"default", by rw [hu]; rfl⟩
      · by_cases hempty : a = ""
        · exact ⟨"default", by rw [ha, hempty]; rfl⟩
        · exact ⟨a, by rw [ha]; simp [Value.or, hempty]⟩
    · exact ⟨a, by rw [hsome]; simp [Value.or, ha]⟩
  obtain ⟨a, ha⟩ := htext
  unfold AuthokClient.userKey
  dsimp only
  rw [h.or_eq, ha, Value.text_str]

theorem getParams_audience {b : Browser} {a : Obj} {x : Secrets} {r : Value}
    (ha : Js.OrdMap.KeysNodup a) : (c.getParams b a x r).get "audience" = c.wantedAudience a := by
  unfold AuthokClient.getParams AuthokClient.wantedAudience
  have hfixed : "audience" ∉ ["scope", "response_type", "response_mode", "state", "nonce",
      "redirect_uri", "code_challenge", "code_challenge_method"] := by decide
  rw [Js.Obj.get_spread_of_not_mem hfixed, Js.Obj.get_spread_nodup ha,
    Js.Obj.get_without (by decide)]

theorem getParams_scope (b : Browser) (a : Obj) (x : Secrets) (r : Value) :
    (c.getParams b a x r).get "scope" = .str (c.fullScope (a.get "scope")) := by
  unfold AuthokClient.getParams
  exact Js.Obj.get_spread_of_find rfl

/-- A merged call names its audience, if only as `undefined`. -/
theorem silentOptions_audience (hcall : Js.OrdMap.KeysNodup call) :
    (c.silentOptions call).find "audience" = some (c.wantedAudience call) := by
  unfold AuthokClient.silentOptions AuthokClient.wantedAudience
  dsimp only
  rw [Js.Obj.find_without (by decide), Js.Obj.find_spread, Js.Obj.find_spread,
    Js.OrdMap.find_reverse hcall]
  cases Js.OrdMap.find call "audience" with
  | none => rfl
  | some v => rfl

theorem silentOptions_scope (c : AuthokClient) (call : Obj) :
    (c.silentOptions call).get "scope" = .str (c.fullScope (call.get "scope")) := by
  unfold AuthokClient.silentOptions
  dsimp only
  rw [Js.Obj.get_without (by decide)]
  exact Js.Obj.get_spread_of_find rfl

end Audiences

/-! ## Agreement -/

/-- Options as the silent paths pass them on: they name the audience and the
merged scope of the call. -/
structure Merged (c : AuthokClient) (call options : Obj) : Prop where
  distinct : Js.OrdMap.KeysNodup options
  audience : options.find "audience" = some (c.wantedAudience call)
  scope : options.get "scope" = .str (c.fullScope (call.get "scope"))

section Agreement

variable {c : AuthokClient} {call : Obj}

theorem merged_silent (hcall : Js.OrdMap.KeysNodup call) : Merged c call (c.silentOptions call) :=
  ⟨Flow.keysNodup_silentOptions c call, silentOptions_audience hcall, silentOptions_scope c call⟩

/-- The refresh leaves the merged scope as it is. -/
theorem Merged.refreshOptions {options : Obj} (hm : Merged c call options) :
    Merged c call (c.refreshOptions options) := by
  refine ⟨Js.OrdMap.keysNodup_insert hm.distinct _ _, ?_, ?_⟩
  · unfold AuthokClient.refreshOptions Obj.set
    rw [Js.OrdMap.find_insert, if_neg (by decide), hm.audience]
  · unfold AuthokClient.refreshOptions
    rw [Js.Obj.get_set_same, hm.scope, refreshScope_fullScope]

theorem merged_refresh (hcall : Js.OrdMap.KeysNodup call) :
    Merged c call (c.refreshOptions (c.silentOptions call)) :=
  (merged_silent hcall).refreshOptions

theorem merged_popup (h : AudienceTyped c call) : Merged c call (c.popupCallOptions call) := by
  refine ⟨Js.OrdMap.keysNodup_insert (Js.OrdMap.keysNodup_insert h.distinct _ _) _ _, ?_, ?_⟩
  · unfold AuthokClient.popupCallOptions Obj.set
    dsimp only
    rw [Js.OrdMap.find_insert, if_neg (by decide), Js.OrdMap.find_insert, if_pos rfl, h.or_eq]
  · unfold AuthokClient.popupCallOptions
    dsimp only
    rw [Js.Obj.get_set_same, Js.Obj.get_set_ne (by decide)]
    rfl

variable {options : Obj} (hm : Merged c call options)

include hm

theorem Merged.get_audience : options.get "audience" = c.wantedAudience call := by
  unfold Obj.get
  rw [hm.audience]
  rfl

/-- The audience the options name is the one they want. -/
theorem Merged.wanted : c.wantedAudience options = c.wantedAudience call := by
  rw [AuthokClient.wantedAudience, hm.audience]
  rfl

theorem Merged.requestKey (h : AudienceTyped c call) : c.requestKey options = c.userKey call := by
  have haud := h.eq_str
  unfold AuthokClient.requestKey
  rw [hm.get_audience, haud, hm.scope, Value.text_str, Value.text_str]
  unfold AuthokClient.userKey AuthokClient.fullScope
  rfl

/-- The parameters of a flow that starts from merged options. -/
theorem Merged.params (b : Browser) (x : Secrets) (r : Value) {ks : List String}
    (hks : "audience" ∉ ks ∧ "scope" ∉ ks) :
    (c.getParams b (options.without ks) x r).get "audience" = c.wantedAudience call ∧
      (c.getParams b (options.without ks) x r).get "scope" =
        .str (c.fullScope (call.get "scope")) := by
  rw [getParams_audience (Js.Obj.keysNodup_without hm.distinct ks), getParams_scope,
    Js.Obj.get_without hks.2, hm.scope, fullScope_fullScope]
  refine ⟨?_, rfl⟩
  rw [AuthokClient.wantedAudience, Js.Obj.find_without hks.1, hm.audience]
  rfl

theorem Merged.iframeParams (b : Browser) (x : Secrets) (orgIdHint : Value) :
    (c.iframeParams b options x orgIdHint).get "audience" = c.wantedAudience call ∧
      (c.iframeParams b options x orgIdHint).get "scope" =
        .str (c.fullScope (call.get "scope")) := by
  have hparams := @Merged.params c call options hm b x (c.silentRedirectUri b options)
    ["detailedResponse"] (by decide)
  unfold AuthokClient.iframeParams
  dsimp only
  split
  · rw [Js.Obj.get_set_ne (by decide), Js.Obj.get_set_ne (by decide)]
    exact hparams
  · exact hparams

omit hm

/-! ### What is stored -/

theorem wantedAudience_without {ks : List String} (hks : "audience" ∉ ks) :
    c.wantedAudience (call.without ks) = c.wantedAudience call := by
  unfold AuthokClient.wantedAudience
  rw [Js.Obj.find_without hks]

/-- A transaction holds the audience and the scope of the entry, also after a
reload. -/
theorem transaction_holds (hcall : Js.OrdMap.KeysNodup call) {audience : String}
    (haud : (c.wantedAudience call).or (.str "default") = .str audience) (reloaded : Bool)
    (g : Given) :
    (Flow.transaction reloaded c call g).audience = .str audience ∧
      (Flow.transaction reloaded c call g).scope = .str (c.userKey call).scope := by
  have hdistinct : Js.OrdMap.KeysNodup ((AuthokClient.redirectOptions call).without
      ["redirect_uri", "appState"]) :=
    Js.Obj.keysNodup_without (Js.Obj.keysNodup_without hcall _) _
  have hparams : ((c.redirectParams g.browser (AuthokClient.redirectOptions call) g.secrets).get
      "audience").or (.str "default") = .str audience := by
    unfold AuthokClient.redirectParams
    rw [getParams_audience hdistinct, wantedAudience_without (by decide)]
    unfold AuthokClient.redirectOptions
    rw [wantedAudience_without (by decide), haud]
  have hscope : (c.redirectParams g.browser (AuthokClient.redirectOptions call) g.secrets).get
      "scope" = .str (c.userKey call).scope := by
    unfold AuthokClient.redirectParams AuthokClient.redirectOptions
    rw [getParams_scope, Js.Obj.get_without (by decide), Js.Obj.get_without (by decide)]
    rfl
  unfold Flow.transaction
  cases reloaded with
  | true =>
    simp only [if_true, AuthokClient.Transaction.reload, AuthokClient.redirectTransaction, hparams,
      hscope, jsonCopy_str, and_self]
  | false =>
    simp only [Bool.false_eq_true, if_false, AuthokClient.redirectTransaction, hparams, hscope,
      and_self]

/-- An entry made with the key's scope. -/
theorem entryOf_key {r : Obj} {d : DecodedToken} {audience scope oauthTokenScope : Value}
    {client_id a : String} (haud : audience = .str a)
    (hscope : scope = .str (c.userKey call).scope) :
    CacheKey.ofEntry (entryOf r d audience scope client_id oauthTokenScope) =
      { c.userKey call with client_id := client_id, audience := a } := by
  subst haud hscope
  unfold CacheKey.ofEntry entryOf
  simp only [Value.text_str]
  rfl

theorem silentClientId_eq {tokenResult : Obj} (h : tokenResult.find "client_id" = none) :
    c.silentClientId tokenResult = c.client_id := by
  unfold AuthokClient.silentClientId AuthokClient.client_id
  rw [h]
  rfl

section Stored

variable {audience : String} (haud : (c.wantedAudience call).or (.str "default") = .str audience)
  {clock : Clock} {tokenResult : Obj} {e : CacheEntry}

include haud

theorem finishIframe_stored (hm : Merged c call options) {b : Browser} {x : Secrets}
    {orgIdHint : Value} (he : c.finishIframe b clock options x orgIdHint tokenResult = .ok e) :
    CacheKey.ofEntry e =
      { c.userKey call with client_id := c.silentClientId tokenResult, audience := audience } := by
  obtain ⟨d, -, hd⟩ := bind_ok_iff.mp he
  obtain ⟨hwanted, hscope⟩ := hm.iframeParams b x orgIdHint
  rw [← Except.ok.inj hd]
  refine entryOf_key ?_ hscope
  rw [hwanted, haud]

theorem finishRefresh_stored (hm : Merged c call options)
    (he : c.finishRefresh clock options tokenResult = .ok e) :
    CacheKey.ofEntry e =
      { c.userKey call with client_id := c.silentClientId tokenResult, audience := audience } := by
  obtain ⟨d, -, hd⟩ := bind_ok_iff.mp he
  rw [← Except.ok.inj hd]
  refine entryOf_key ?_ hm.scope
  rw [hm.get_audience, haud]

omit haud

theorem finishPopup_stored {b : Browser} {o : Obj} {x : Secrets}
    (haud : ((c.popupParams b o x).get "audience").or (.str "default") = .str audience)
    (hscope : (c.popupParams b o x).get "scope" = .str (c.userKey call).scope)
    (he : c.finishPopup b clock o x tokenResult = .ok e) :
    CacheKey.ofEntry e = { c.userKey call with audience := audience } := by
  obtain ⟨d, -, hd⟩ := bind_ok_iff.mp he
  rw [← Except.ok.inj hd]
  exact entryOf_key haud hscope

end Stored

theorem finishIframe_key (h : AudienceTyped c call) (hm : Merged c call options) {b : Browser}
    {clock : Clock} {x : Secrets} {orgIdHint : Value} {tokenResult : Obj} {e : CacheEntry}
    (hr : c.silentClientId tokenResult = c.client_id)
    (he : c.finishIframe b clock options x orgIdHint tokenResult = .ok e) :
    CacheKey.ofEntry e = c.userKey call := by
  rw [finishIframe_stored h.eq_str hm he, hr]
  rfl

theorem finishRefresh_key (h : AudienceTyped c call) (hm : Merged c call options) {clock : Clock}
    {tokenResult : Obj} {e : CacheEntry} (hr : c.silentClientId tokenResult = c.client_id)
    (he : c.finishRefresh clock options tokenResult = .ok e) :
    CacheKey.ofEntry e = c.userKey call := by
  rw [finishRefresh_stored h.eq_str hm he, hr]
  rfl

theorem popupParams_call (hcall : Js.OrdMap.KeysNodup call) (b : Browser) (x : Secrets) :
    (c.popupParams b call x).get "audience" = c.wantedAudience call ∧
      (c.popupParams b call x).get "scope" = .str (c.fullScope (call.get "scope")) :=
  ⟨getParams_audience hcall, getParams_scope ..⟩

theorem Merged.popupParams (hm : Merged c call options) (b : Browser) (x : Secrets) :
    (c.popupParams b options x).get "audience" = c.wantedAudience call ∧
      (c.popupParams b options x).get "scope" = .str (c.fullScope (call.get "scope")) := by
  unfold AuthokClient.popupParams
  rw [getParams_audience hm.distinct, getParams_scope, hm.wanted, hm.scope, fullScope_fullScope]
  exact ⟨rfl, rfl⟩

/-- `getTokenWithPopup` names the audience of the key. -/
theorem popupCallOptions_params (hcall : Js.OrdMap.KeysNodup call) (b : Browser) (x : Secrets) :
    (c.popupParams b (c.popupCallOptions call) x).get "audience" =
        (call.get "audience").or (c.options.get "audience") ∧
      (c.popupParams b (c.popupCallOptions call) x).get "scope" = .str (c.userKey call).scope := by
  have hdistinct : Js.OrdMap.KeysNodup (c.popupCallOptions call) :=
    Js.OrdMap.keysNodup_insert (Js.OrdMap.keysNodup_insert hcall _ _) _ _
  have haud : Js.OrdMap.find (c.popupCallOptions call) "audience" =
      some ((call.get "audience").or (c.options.get "audience")) := by
    unfold AuthokClient.popupCallOptions Obj.set
    dsimp only
    rw [Js.OrdMap.find_insert, if_neg (by decide), Js.OrdMap.find_insert, if_pos rfl]
  have hscope : (c.popupCallOptions call).get "scope" = .str (c.fullScope (call.get "scope")) := by
    unfold AuthokClient.popupCallOptions
    dsimp only
    rw [Js.Obj.get_set_same, Js.Obj.get_set_ne (by decide)]
    rfl
  unfold AuthokClient.popupParams
  rw [getParams_audience hdistinct, getParams_scope, hscope, fullScope_fullScope]
  refine ⟨?_, rfl⟩
  unfold AuthokClient.wantedAudience
  rw [haud]
  rfl

theorem OptionalText.or_default {v : Value} (h : OptionalText v) :
    v.or (.str "default") = .str (v.or (.str "default")).text := by
  rcases h with rfl | ⟨s, rfl⟩
  · rfl
  · by_cases hs : s = ""
    · subst hs
      rfl
    · simp [Value.or, Value.text_str, hs]

theorem AudienceText.wanted (h : AudienceText c call) : OptionalText (c.wantedAudience call) := by
  have hcall := h.call
  unfold Obj.get at hcall
  unfold AuthokClient.wantedAudience
  cases hfind : Js.OrdMap.find call "audience" with
  | none => exact h.client
  | some v =>
    rw [hfind] at hcall
    exact hcall

theorem AudienceText.asked (h : AudienceText c call) :
    OptionalText ((call.get "audience").or (c.options.get "audience")) := by
  unfold Value.or
  split
  · exact h.call
  · exact h.client

namespace Route

/-- The client id that an entry is stored for. -/
def clientId (c : AuthokClient) (tokenResult : Obj) : Route → String
  | iframe => c.silentClientId tokenResult
  | refresh => c.silentClientId tokenResult
  | refreshIframe => c.silentClientId tokenResult
  | _ => c.client_id

/-- The audience that an entry is stored for. Only `getTokenWithPopup` falls back
to the client's audience by `||`, the others by a spread. -/
def audience (c : AuthokClient) (call : Obj) : Route → String
  | tokenWithPopup => (c.userKey call).audience
  | _ => ((c.wantedAudience call).or (.str "default")).text

/-- The key that every route stores under. -/
theorem accept_stored (h : AudienceText c call) {g : Given} {clock : Clock} {tokenResult : Obj}
    {e : CacheEntry} (r : Route) (he : r.accept c call g clock tokenResult = .ok e) :
    CacheKey.ofEntry e =
      { c.userKey call with
        client_id := r.clientId c tokenResult, audience := r.audience c call } := by
  have hwanted := h.wanted.or_default
  cases r with
  | redirect reloaded =>
    obtain ⟨d, -, hd⟩ := bind_ok_iff.mp he
    obtain ⟨haud, hscope⟩ := transaction_holds h.distinct hwanted reloaded g
    rw [← Except.ok.inj hd]
    exact entryOf_key haud hscope
  | popup =>
    obtain ⟨haud, hscope⟩ := @popupParams_call c call h.distinct g.browser g.secrets
    rw [← haud] at hwanted
    rw [finishPopup_stored hwanted hscope he, haud]
    rfl
  | tokenWithPopup =>
    obtain ⟨haud, hscope⟩ := @popupCallOptions_params c call h.distinct g.browser g.secrets
    have hasked := h.asked.or_default
    rw [← haud] at hasked
    rw [finishPopup_stored hasked hscope he, haud]
    rfl
  | iframe => exact finishIframe_stored hwanted (merged_silent h.distinct) he
  | refresh => exact finishRefresh_stored hwanted (merged_refresh h.distinct) he
  | refreshIframe => exact finishIframe_stored hwanted (merged_refresh h.distinct) he

end Route

theorem AudienceTyped.text (h : AudienceTyped c call) : AudienceText c call := by
  refine ⟨h.distinct, ?_, h.client⟩
  unfold Obj.get
  rcases h.call with hnone | ⟨a, -, hsome⟩
  · rw [hnone]
    exact Or.inl rfl
  · rw [hsome]
    exact Or.inr ⟨a, rfl⟩

theorem Route.clientId_eq {tokenResult : Obj} (hr : tokenResult.find "client_id" = none) (r : Route) :
    r.clientId c tokenResult = c.client_id := by
  cases r <;> first | rfl | exact silentClientId_eq hr

theorem Route.audience_eq (h : AudienceTyped c call) (r : Route) :
    r.audience c call = (c.userKey call).audience := by
  cases r <;> first | rfl | exact (congrArg Value.text h.eq_str).trans (Value.text_str _)

/-- Every route stores under the key that is looked up. -/
theorem Route.accept_key (h : AudienceTyped c call) {g : Given} {clock : Clock} {tokenResult : Obj}
    {e : CacheEntry} (hr : tokenResult.find "client_id" = none) (r : Route)
    (he : r.accept c call g clock tokenResult = .ok e) : CacheKey.ofEntry e = c.userKey call := by
  rw [r.accept_stored h.text he, r.clientId_eq hr, r.audience_eq h]
  rfl

/-- Every lookup uses the same key. -/
theorem Lookup.key_eq (h : AudienceTyped c call) (l : Lookup) : l.key c call = c.userKey call := by
  cases l with
  | getUser => rfl
  | getIdTokenClaims => rfl
  | getTokenSilently => exact (merged_silent h.distinct).requestKey h
  | refreshToken => exact (merged_refresh h.distinct).requestKey h
  | getTokenWithPopup => exact (merged_popup h).requestKey h

/-! ### The slot of the worker -/

theorem redirectTokenOptions_get (t : AuthokClient.Transaction) (code : Value) :
    (c.redirectTokenOptions t code).get "audience" = t.audience ∧
      (c.redirectTokenOptions t code).get "scope" = t.scope := by
  unfold AuthokClient.redirectTokenOptions
  dsimp only
  split
  · exact ⟨rfl, rfl⟩
  · rw [Js.Obj.get_set_ne (by decide), Js.Obj.get_set_ne (by decide)]
    exact ⟨rfl, rfl⟩

theorem popupTokenOptions_get (b : Browser) (o : Obj) (x : Secrets) (code : Value) :
    (c.popupTokenOptions b o x code).get "audience" = (c.popupParams b o x).get "audience" ∧
      (c.popupTokenOptions b o x code).get "scope" = (c.popupParams b o x).get "scope" := by
  unfold AuthokClient.popupTokenOptions
  generalize c.popupParams b o x = params
  exact ⟨rfl, rfl⟩

theorem iframeTokenOptions_get (b : Browser) (o : Obj) (x : Secrets) (orgIdHint code : Value) :
    (c.iframeTokenOptions b o x orgIdHint code).get "audience" = o.get "audience" ∧
      (c.iframeTokenOptions b o x orgIdHint code).get "scope" = o.get "scope" := by
  unfold AuthokClient.iframeTokenOptions
  exact ⟨Js.Obj.get_spread_of_find rfl, Js.Obj.get_spread_of_find rfl⟩

theorem refreshTokenOptions_get (b : Browser) (o : Obj) (refresh_token : Value) :
    (c.refreshTokenOptions b o refresh_token).get "audience" = o.get "audience" ∧
      (c.refreshTokenOptions b o refresh_token).get "scope" = o.get "scope" := by
  unfold AuthokClient.refreshTokenOptions
  dsimp only
  split
  · exact ⟨Js.Obj.get_spread_of_find rfl, Js.Obj.get_spread_of_find rfl⟩
  · exact ⟨Js.Obj.get_spread_of_find rfl, Js.Obj.get_spread_of_find rfl⟩

/-- Token options that carry on merged options are for the audience and scope of the
key. -/
theorem Merged.carried (h : AudienceTyped c call) {o tokenOptions : Obj} (hm : Merged c call o)
    (hget : tokenOptions.get "audience" = o.get "audience" ∧
      tokenOptions.get "scope" = o.get "scope") :
    (tokenOptions.get "audience").or (.str "default") = .str (c.userKey call).audience ∧
      tokenOptions.get "scope" = .str (c.userKey call).scope := by
  refine ⟨?_, hget.2.trans hm.scope⟩
  rw [hget.1, hm.get_audience, h.eq_str]

/-- The token request of every route is for the audience and scope of the key. -/
theorem Route.tokenOptions_key (h : AudienceTyped c call) (g : Given) (r : Route) :
    ((r.tokenOptions c call g).get "audience").or (.str "default") =
        .str (c.userKey call).audience ∧
      (r.tokenOptions c call g).get "scope" = .str (c.userKey call).scope := by
  cases r with
  | redirect reloaded =>
    obtain ⟨haud, hscope⟩ := transaction_holds h.distinct h.eq_str reloaded g
    obtain ⟨ha, hs⟩ := @redirectTokenOptions_get c (Flow.transaction reloaded c call g) g.code
    -- a default in place of an empty audience is there already
    have hor : (Value.str (c.userKey call).audience).or (.str "default") =
        .str (c.userKey call).audience := by
      rw [← h.eq_str]
      cases ht : (c.wantedAudience call).truthy with
      | true => simp [Value.or, ht]
      | false => simp [Value.or, ht]
    refine ⟨?_, hs.trans hscope⟩
    show (Obj.get (c.redirectTokenOptions _ _) "audience").or _ = _
    rw [ha, haud, hor]
  | popup =>
    obtain ⟨haud, hscope⟩ := @popupParams_call c call h.distinct g.browser g.secrets
    obtain ⟨ha, hs⟩ := @popupTokenOptions_get c g.browser call g.secrets g.code
    simp only [Route.tokenOptions, ha, hs, haud, hscope, h.eq_str]
    exact ⟨trivial, rfl⟩
  | tokenWithPopup =>
    obtain ⟨haud, hscope⟩ := (merged_popup h).popupParams g.browser g.secrets
    obtain ⟨ha, hs⟩ := @popupTokenOptions_get c g.browser (c.popupCallOptions call) g.secrets g.code
    simp only [Route.tokenOptions, ha, hs, haud, hscope, h.eq_str]
    exact ⟨trivial, rfl⟩
  | iframe => exact (merged_silent h.distinct).carried h (iframeTokenOptions_get ..)
  | refresh => exact (merged_refresh h.distinct).carried h (refreshTokenOptions_get ..)
  | refreshIframe => exact (merged_refresh h.distinct).carried h (iframeTokenOptions_get ..)

end Agreement

/-- **All flows agree on the key.** Whatever the client's scopes and the scope
of the call: every method looks up the key that every route stores under, and
every token request is for the worker's slot of that key. A typed token
response has no `client_id` of its own. -/
theorem key_agreement {c : AuthokClient} {call : Obj} (h : AudienceTyped c call) (g : Given) :
    (∀ l : Lookup, l.key c call = c.userKey call) ∧
    (∀ (r : Route) (clock : Clock) (tokenResult : Obj) (e : CacheEntry),
      tokenResult.find "client_id" = none → r.accept c call g clock tokenResult = .ok e →
      (CacheKey.ofEntry e).toKey = (c.userKey call).toKey) ∧
    (∀ (r : Route) (request : TokenRequest),
      oauthToken (r.tokenOptions c call g) = some request →
      request.audience = .str (c.userKey call).audience ∧
        request.scope = .str (c.userKey call).scope) := by
  refine ⟨fun l => l.key_eq h, ?_, ?_⟩
  · intro r clock tokenResult e hr he
    rw [r.accept_key h hr he]
  · intro r request hreq
    obtain ⟨info, -, hsome⟩ := Option.bind_eq_some_iff.mp hreq
    obtain rfl := Option.some.inj hsome
    exact r.tokenOptions_key h g

/-- A client with a scope of its own, refresh tokens and a default scope of
`null`. -/
def keyClient : AuthokClient where
  options := [("client_id", .str "client"), ("domain", .str "idp"), ("scope", .str "a b"),
    ("useRefreshTokens", .bool true), ("advancedOptions", .obj [("defaultScope", .null)])]

/-- A call with an audience and scopes in disorder. -/
def keyCall : Obj := [("audience", .str "api"), ("scope", .str " c  a ")]

/-- The refresh looks up what `getUser` looks up, for this client and call. -/
theorem key_agreement_null_default :
    AudienceTyped keyClient keyCall ∧
      (keyClient.userKey keyCall).scope = "openid a b offline_access c" ∧
      Lookup.refreshToken.key keyClient keyCall = keyClient.userKey keyCall := by
  have h : AudienceTyped keyClient keyCall :=
    { distinct := show ["audience", "scope"].Nodup by decide, call := Or.inr ⟨"api", by decide, rfl⟩, client := Or.inl rfl }
  exact ⟨h, by decide, (key_agreement h ⟨⟨"https://app", fun _ => []⟩,
    ⟨"state", "nonce", "verifier"⟩, .undefined, .str "code", .undefined⟩).1 .refreshToken⟩

end AuthokSpa
