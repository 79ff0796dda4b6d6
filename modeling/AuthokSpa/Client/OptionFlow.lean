import AuthokSpa.Client.Requests

/-!
# Which SDK options reach the server

Options addressed to the SDK itself should not show in what is sent. The code
keeps them out with name lists: one in `_getParams` for the client's options,
one in `getCustomInitialOptions`, and one destructuring in each flow for the
call's options. The lists do not agree, and some names are on none of those a
request goes through: `cache` and `issuer` reach the `/authorize` query, `cache`
and three others the body of a silent token request, and call options such as
`fragment` both.

A request is safe against a set of options when any two clients and calls that
differ only there send the same text. `sent_same_iff` says for each request
exactly which sets those are. `nowProvider`, a function, is printed by a form
body but not by a JSON one, so the answer depends on the encoding there.
-/

namespace AuthokSpa

open Js (Value Obj joinWith)
open Js.Obj (Same)

/-! ## Options and requests -/

/-- Client options addressed to the SDK. -/
inductive ConfigOption where
  | cache | cacheLocation | issuer | leeway | authorizeTimeoutInSeconds | nowProvider
  | legacySameSiteCookie | sessionCheckExpiryDays | useCookiesForTransactions
  deriving DecidableEq

/-- Call options addressed to the SDK. -/
inductive CallOption where
  | timeoutInSeconds | detailedResponse | fragment | appState | redirectMethod
  deriving DecidableEq

def ConfigOption.name : ConfigOption → String
  | cache => "cache"
  | cacheLocation => "cacheLocation"
  | issuer => "issuer"
  | leeway => "leeway"
  | authorizeTimeoutInSeconds => "authorizeTimeoutInSeconds"
  | nowProvider => "nowProvider"
  | legacySameSiteCookie => "legacySameSiteCookie"
  | sessionCheckExpiryDays => "sessionCheckExpiryDays"
  | useCookiesForTransactions => "useCookiesForTransactions"

def CallOption.name : CallOption → String
  | timeoutInSeconds => "timeoutInSeconds"
  | detailedResponse => "detailedResponse"
  | fragment => "fragment"
  | appState => "appState"
  | redirectMethod => "redirectMethod"

/-- The texts a client sends: the `/authorize` URL of each flow (without the
fragment, which is not sent) and the body of each token request. -/
inductive Sent where
  | redirectUrl | popupUrl | iframeUrl
  | redirectBody | popupBody | iframeBody | refreshBody
  deriving DecidableEq

/-- The object a request prints: the query of an `/authorize` URL, or the
options of `oauthToken`. -/
def Sent.object (r : Sent) (c : AuthokClient) (call : Obj) (g : Given) : Obj :=
  match r with
  | redirectUrl => c.redirectParams g.browser (AuthokClient.redirectOptions call) g.secrets
  | popupUrl => c.popupQuery g.browser call g.secrets
  | iframeUrl => c.iframeQuery g.browser (c.silentOptions call) g.secrets g.orgIdHint
  | redirectBody => c.redirectTokenOptions
      (c.redirectTransaction g.browser (AuthokClient.redirectOptions call) g.secrets) g.code
  | popupBody => c.popupTokenOptions g.browser call g.secrets g.code
  | iframeBody => c.iframeTokenOptions g.browser (c.silentOptions call) g.secrets g.orgIdHint g.code
  | refreshBody => c.refreshTokenOptions g.browser (c.refreshOptions (c.silentOptions call))
      g.refresh_token

/-- The text is a token request's body. -/
def Sent.isBody : Sent → Bool
  | redirectUrl | popupUrl | iframeUrl => false
  | redirectBody | popupBody | iframeBody | refreshBody => true

/-- The text sent; `none` when building it throws. -/
def Sent.text (r : Sent) (c : AuthokClient) (call : Obj) (g : Given) : Option String :=
  match r.isBody with
  | false => c.authorizeUrl (r.object c call g)
  | true => (oauthToken (r.object c call g)).map TokenRequest.body

/-- The client options `_getParams` leaves out. -/
def queryDrops : List ConfigOption :=
  [.cacheLocation, .leeway, .authorizeTimeoutInSeconds, .nowProvider, .legacySameSiteCookie,
    .sessionCheckExpiryDays, .useCookiesForTransactions]

/-- The client options a request leaves out; `form` is the encoding of the
body. -/
def Sent.dropsConfig (r : Sent) (form : Bool) : List ConfigOption :=
  match r with
  | redirectUrl | popupUrl | iframeUrl => queryDrops
  | redirectBody | popupBody =>
    [.cache, .cacheLocation, .issuer, .leeway, .authorizeTimeoutInSeconds, .nowProvider,
      .legacySameSiteCookie, .sessionCheckExpiryDays, .useCookiesForTransactions]
  | iframeBody | refreshBody =>
    [.cacheLocation, .issuer, .leeway, .authorizeTimeoutInSeconds, .useCookiesForTransactions] ++
      if form then [] else [.nowProvider]

/-- The call options a request leaves out. -/
def Sent.dropsCall : Sent → List CallOption
  | redirectUrl => [.appState, .redirectMethod]
  | popupUrl => []
  | iframeUrl => [.detailedResponse]
  | redirectBody | popupBody =>
    [.timeoutInSeconds, .detailedResponse, .fragment, .appState, .redirectMethod]
  | iframeBody | refreshBody => [.timeoutInSeconds, .detailedResponse]

/-- `nowProvider`, where it is given, is a function. -/
def NowProviderTyped (o : Obj) : Prop :=
  ∀ m ∈ o, m.1 = "nowProvider" → m.2 = .undefined ∨ ∃ source, m.2 = .fn source

/-- The request does not depend on the options in `D` and `E`: any two clients
that differ only in `D` and calls that differ only in `E` send the same. -/
def Sent.Safe (r : Sent) (form : Bool) (D : List ConfigOption) (E : List CallOption) : Prop :=
  ∀ (c c' : AuthokClient) (call call' : Obj) (g : Given),
    NowProviderTyped c.options → NowProviderTyped c'.options →
    NowProviderTyped call → NowProviderTyped call' →
    (c.options.get "useFormData").truthy = form →
    Same (D.map ConfigOption.name) c.options c'.options →
    Same (E.map CallOption.name) call call' →
    r.text c call g = r.text c' call' g

/-! ## What clients that differ only in SDK options share -/

/-- All names of SDK options. -/
def sdkNames : List String :=
  ["cache", "cacheLocation", "issuer", "leeway", "authorizeTimeoutInSeconds", "nowProvider",
    "legacySameSiteCookie", "sessionCheckExpiryDays", "useCookiesForTransactions",
    "timeoutInSeconds", "detailedResponse", "fragment", "appState", "redirectMethod"]

theorem ConfigOption.name_mem (o : ConfigOption) : o.name ∈ sdkNames := by
  cases o <;> decide

theorem CallOption.name_mem (o : CallOption) : o.name ∈ sdkNames := by
  cases o <;> decide

theorem same_of_config {D : List ConfigOption} {o o' : Obj}
    (h : Same (D.map ConfigOption.name) o o') : Same sdkNames o o' := by
  refine h.mono fun k hk => ?_
  obtain ⟨x, -, rfl⟩ := List.mem_map.mp hk
  exact x.name_mem

theorem same_of_call {E : List CallOption} {o o' : Obj}
    (h : Same (E.map CallOption.name) o o') : Same sdkNames o o' := by
  refine h.mono fun k hk => ?_
  obtain ⟨x, -, rfl⟩ := List.mem_map.mp hk
  exact x.name_mem

/-- Two objects agree on every option a request looks up. -/
structure SameReads (o o' : Obj) : Prop where
  advancedOptions : o.get "advancedOptions" = o'.get "advancedOptions"
  audience : o.get "audience" = o'.get "audience"
  authokClient : o.get "authokClient" = o'.get "authokClient"
  client_id : o.get "client_id" = o'.get "client_id"
  domain : o.get "domain" = o'.get "domain"
  organization : o.get "organization" = o'.get "organization"
  redirect_uri : o.get "redirect_uri" = o'.get "redirect_uri"
  scope : o.get "scope" = o'.get "scope"
  useFormData : o.get "useFormData" = o'.get "useFormData"
  useRefreshTokens : o.get "useRefreshTokens" = o'.get "useRefreshTokens"

/-- None of these is addressed to the SDK. -/
theorem reads_of_same {o o' : Obj} (h : Same sdkNames o o') : SameReads o o' where
  advancedOptions := h.get (by decide)
  audience := h.get (by decide)
  authokClient := h.get (by decide)
  client_id := h.get (by decide)
  domain := h.get (by decide)
  organization := h.get (by decide)
  redirect_uri := h.get (by decide)
  scope := h.get (by decide)
  useFormData := h.get (by decide)
  useRefreshTokens := h.get (by decide)

section SharedBase

variable {c c' : AuthokClient} (h : Same sdkNames c.options c'.options)

include h

theorem domainUrl_same : c.domainUrl = c'.domainUrl := by
  unfold AuthokClient.domainUrl
  rw [(reads_of_same h).domain]

theorem defaultScope_same : c.defaultScope = c'.defaultScope := by
  unfold AuthokClient.defaultScope AuthokClient.advancedDefaultScope
  rw [(reads_of_same h).advancedOptions]

theorem scope_same : c.scope = c'.scope := by
  unfold AuthokClient.scope
  rw [(reads_of_same h).useRefreshTokens, (reads_of_same h).scope]

/-- `_getParams` differs where its inputs do. -/
theorem getParams_same {b : Browser} {x : Secrets} {ks : List String} {a a' : Obj}
    (hlogin : Same ks (c.options.without AuthokClient.clientOptionNames)
      (c'.options.without AuthokClient.clientOptionNames))
    (ha : Same ks a a') (hscope : a.get "scope" = a'.get "scope") {r r' : Value} (hr : r = r') :
    Same ks (c.getParams b a x r) (c'.getParams b a' x r') := by
  unfold AuthokClient.getParams
  rw [defaultScope_same h, scope_same h, hscope, hr, (reads_of_same h).redirect_uri]
  exact (hlogin.spread ha).spread (Same.refl _ _)

theorem authorizeUrl_same (o : Obj) : c.authorizeUrl o = c'.authorizeUrl o := by
  unfold AuthokClient.authorizeUrl
  rw [domainUrl_same h, (reads_of_same h).authokClient]

/-- What `getTokenSilently` passes on differs where the call does. -/
theorem silentOptions_same {ks : List String} {call call' : Obj} (hcall : Same ks call call')
    (hks : ∀ k ∈ ks, k ∈ sdkNames) :
    Same ks (c.silentOptions call) (c'.silentOptions call') := by
  have hscope := (reads_of_same (hcall.mono hks)).scope
  unfold AuthokClient.silentOptions
  rw [defaultScope_same h, scope_same h, hscope, (reads_of_same h).audience]
  exact (((Same.refl _ _).spread hcall).spread (Same.refl _ _)).without _

theorem silentRedirectUri_same {b : Browser} {o o' : Obj} (ho : Same sdkNames o o') :
    c.silentRedirectUri b o = c'.silentRedirectUri b o' := by
  unfold AuthokClient.silentRedirectUri
  rw [(reads_of_same h).redirect_uri, (reads_of_same ho).redirect_uri]

theorem loginOptions_same :
    Same sdkNames (c.options.without AuthokClient.clientOptionNames)
      (c'.options.without AuthokClient.clientOptionNames) :=
  h.without _

end SharedBase

/-! ## Dropped options do not show -/

section Safe

variable {c c' : AuthokClient} {call call' : Obj} {g : Given} {form : Bool}
  {D : List ConfigOption} {E : List CallOption}

/-- Names picked from a list of options are in any list that has all of them. -/
theorem names_subset {α : Type} {name : α → String} {X Y : List α} {ks : List String}
    (hY : ∀ y ∈ Y, name y ∈ ks) (hX : ∀ x ∈ X, x ∈ Y) : ∀ k ∈ X.map name, k ∈ ks := by
  intro k hk
  obtain ⟨x, hx, rfl⟩ := List.mem_map.mp hk
  exact hY x (hX x hx)

theorem queryDrops_names : ∀ y ∈ queryDrops, y.name ∈ AuthokClient.clientOptionNames := by
  decide

/-- The client's part of an `/authorize` query. -/
theorem loginOptions_eq (hD : ∀ x ∈ D, x ∈ queryDrops)
    (hc : Same (D.map ConfigOption.name) c.options c'.options) :
    Same [] (c.options.without AuthokClient.clientOptionNames)
      (c'.options.without AuthokClient.clientOptionNames) := by
  rw [hc.drop (names_subset queryDrops_names hD)]
  rfl

theorem safe_redirectUrl (hD : ∀ x ∈ D, x ∈ queryDrops)
    (hE : ∀ x ∈ E, x ∈ Sent.redirectUrl.dropsCall)
    (hc : Same (D.map ConfigOption.name) c.options c'.options)
    (hcall : Same (E.map CallOption.name) call call') :
    Sent.redirectUrl.text c call g = Sent.redirectUrl.text c' call' g := by
  have hbase := same_of_config hc
  have huri : (AuthokClient.redirectOptions call).get "redirect_uri" =
      (AuthokClient.redirectOptions call').get "redirect_uri" :=
    (reads_of_same ((same_of_call hcall).without _)).redirect_uri
  have hauth : (AuthokClient.redirectOptions call).without ["redirect_uri", "appState"] =
      (AuthokClient.redirectOptions call').without ["redirect_uri", "appState"] := by
    unfold AuthokClient.redirectOptions
    rw [Js.Obj.without_without, Js.Obj.without_without]
    exact hcall.drop (names_subset (by decide) hE)
  have hauth' : Same [] ((AuthokClient.redirectOptions call).without ["redirect_uri", "appState"])
      ((AuthokClient.redirectOptions call').without ["redirect_uri", "appState"]) := by
    rw [hauth]
    rfl
  have hparams := getParams_same hbase (b := g.browser) (x := g.secrets)
    (loginOptions_eq hD hc) hauth' (hauth'.get List.not_mem_nil) huri
  simp only [Sent.text, Sent.isBody, Sent.object, AuthokClient.redirectParams]
  rw [hparams.eq, authorizeUrl_same hbase]

theorem safe_popupUrl (hD : ∀ x ∈ D, x ∈ queryDrops)
    (hE : ∀ x ∈ E, x ∈ Sent.popupUrl.dropsCall)
    (hc : Same (D.map ConfigOption.name) c.options c'.options)
    (hcall : Same (E.map CallOption.name) call call') :
    Sent.popupUrl.text c call g = Sent.popupUrl.text c' call' g := by
  have hbase := same_of_config hc
  have hnone : ∀ y ∈ Sent.popupUrl.dropsCall, y.name ∈ ([] : List String) := by decide
  obtain rfl : call = call' := (hcall.mono (names_subset hnone hE)).eq
  have hparams := getParams_same hbase (b := g.browser) (x := g.secrets)
    (loginOptions_eq hD hc) (show Same [] call call from rfl) rfl
    (show (c.options.get "redirect_uri").or (.str g.browser.origin) =
      (c'.options.get "redirect_uri").or (.str g.browser.origin) by
      rw [(reads_of_same hbase).redirect_uri])
  simp only [Sent.text, Sent.isBody, Sent.object, AuthokClient.popupQuery, AuthokClient.popupParams]
  rw [hparams.eq, authorizeUrl_same hbase]

/-- The parameters of an iframe differ where its inputs do. -/
theorem iframeParams_same {ks : List String} (hks : ∀ k ∈ ks, k ∈ sdkNames)
    (hbase : Same sdkNames c.options c'.options)
    (hlogin : Same ks (c.options.without AuthokClient.clientOptionNames)
      (c'.options.without AuthokClient.clientOptionNames))
    {o o' : Obj} (ho : Same sdkNames o o')
    (ha : Same ks (o.without ["detailedResponse"]) (o'.without ["detailedResponse"])) :
    Same ks (c.iframeParams g.browser o g.secrets g.orgIdHint)
      (c'.iframeParams g.browser o' g.secrets g.orgIdHint) := by
  have hparams := getParams_same hbase (b := g.browser) (x := g.secrets) hlogin ha
    (reads_of_same (ha.mono hks)).scope (silentRedirectUri_same hbase (b := g.browser) ho)
  have horg := (reads_of_same (hparams.mono hks)).organization
  unfold AuthokClient.iframeParams
  dsimp only
  rw [horg]
  split
  · exact hparams.set _ _
  · exact hparams

theorem safe_iframeUrl (hD : ∀ x ∈ D, x ∈ queryDrops)
    (hE : ∀ x ∈ E, x ∈ Sent.iframeUrl.dropsCall)
    (hc : Same (D.map ConfigOption.name) c.options c'.options)
    (hcall : Same (E.map CallOption.name) call call') :
    Sent.iframeUrl.text c call g = Sent.iframeUrl.text c' call' g := by
  have hbase := same_of_config hc
  have hsilent := silentOptions_same hbase hcall
    (names_subset (fun y (_ : y ∈ E) => y.name_mem) (fun _ h => h))
  have ha : (c.silentOptions call).without ["detailedResponse"] =
      (c'.silentOptions call').without ["detailedResponse"] :=
    hsilent.drop (names_subset (by decide) hE)
  have ha' : Same [] ((c.silentOptions call).without ["detailedResponse"])
      ((c'.silentOptions call').without ["detailedResponse"]) := by
    rw [ha]
    rfl
  have hparams := iframeParams_same (g := g) (fun _ h => absurd h List.not_mem_nil) hbase
    (loginOptions_eq hD hc) (same_of_call hsilent) ha'
  simp only [Sent.text, Sent.isBody, Sent.object, AuthokClient.iframeQuery]
  rw [hparams.eq, authorizeUrl_same hbase]

/-- The parameters of a login agree, whatever SDK options differ. -/
theorem redirectParams_reads (hbase : Same sdkNames c.options c'.options)
    (hcall : Same sdkNames call call') :
    SameReads (c.redirectParams g.browser (AuthokClient.redirectOptions call) g.secrets)
      (c'.redirectParams g.browser (AuthokClient.redirectOptions call') g.secrets) := by
  have hopt := hcall.without ["redirectMethod"]
  have hauth := hopt.without ["redirect_uri", "appState"]
  exact reads_of_same (getParams_same hbase (loginOptions_same hbase) hauth
    (reads_of_same hauth).scope (reads_of_same hopt).redirect_uri)

theorem safe_redirectBody (hbase : Same sdkNames c.options c'.options)
    (hcall : Same sdkNames call call') :
    Sent.redirectBody.text c call g = Sent.redirectBody.text c' call' g := by
  have hreads := reads_of_same hbase
  have hparams := redirectParams_reads (g := g) hbase hcall
  have hoptions : c.redirectTokenOptions (c.redirectTransaction g.browser
        (AuthokClient.redirectOptions call) g.secrets) g.code =
      c'.redirectTokenOptions (c'.redirectTransaction g.browser
        (AuthokClient.redirectOptions call') g.secrets) g.code := by
    unfold AuthokClient.redirectTokenOptions AuthokClient.redirectTransaction
    dsimp only
    rw [hparams.audience, hparams.scope, hparams.redirect_uri, domainUrl_same hbase,
      hreads.client_id, hreads.authokClient, hreads.useFormData]
  simp only [Sent.text, Sent.isBody, Sent.object, hoptions]

theorem safe_popupBody (hbase : Same sdkNames c.options c'.options)
    (hcall : Same sdkNames call call') :
    Sent.popupBody.text c call g = Sent.popupBody.text c' call' g := by
  have hreads := reads_of_same hbase
  have hparams : SameReads (c.popupParams g.browser call g.secrets)
      (c'.popupParams g.browser call' g.secrets) :=
    reads_of_same (getParams_same hbase (loginOptions_same hbase) hcall (reads_of_same hcall).scope
      (by rw [hreads.redirect_uri]))
  have hoptions : c.popupTokenOptions g.browser call g.secrets g.code =
      c'.popupTokenOptions g.browser call' g.secrets g.code := by
    unfold AuthokClient.popupTokenOptions
    dsimp only
    rw [hparams.audience, hparams.scope, hparams.redirect_uri, domainUrl_same hbase,
      hreads.client_id, hreads.authokClient, hreads.useFormData]
  simp only [Sent.text, Sent.isBody, Sent.object, hoptions]

/-! ### Silent token requests -/

theorem NowProviderTyped.without {o : Obj} (h : NowProviderTyped o) (ks : List String) :
    NowProviderTyped (o.without ks) :=
  fun m hm => h m (List.mem_filter.mp hm).1

/-- An object without such a member. -/
theorem nowProviderTyped_of_keys {o : Obj} (h : "nowProvider" ∉ Js.OrdMap.keys o) :
    NowProviderTyped o := by
  intro m hm hn
  exact absurd (hn ▸ Js.OrdMap.mem_keys_of_mem hm) h

theorem NowProviderTyped.spread {o o' : Obj} (h : NowProviderTyped o) (h' : NowProviderTyped o') :
    NowProviderTyped (o.spread o') := by
  intro m hm hn
  rcases Js.Obj.mem_of_mem_spread o' hm with hm' | hm'
  · exact h m hm' hn
  · exact h' m hm' hn

/-- What may differ in a body: `nowProvider`, when the body is JSON. -/
def unprinted (form : Bool) : List String := if form then [] else ["nowProvider"]

/-- A body shows neither the timeout nor what is unprinted. -/
theorem tokenBodyChars_same {o o' : Obj} (h : Same ("timeout" :: unprinted form) o o')
    (ho : NowProviderTyped o) (ho' : NowProviderTyped o')
    (hform : (o.get "useFormData").truthy = form) : tokenBodyChars o = tokenBodyChars o' := by
  have hform' : (o'.get "useFormData").truthy = form := by
    rw [← hform, Same.get h (k := "useFormData") (by cases form <;> decide)]
  have hrest : Same (unprinted form) (o.without transportNames) (o'.without transportNames) := by
    unfold Same
    rw [Js.Obj.without_without, Js.Obj.without_without]
    exact h.drop (by cases form <;> decide)
  unfold tokenBodyChars
  dsimp only
  rw [hform, hform']
  cases form with
  | true => rw [Same.eq hrest]
  | false =>
    have hquiet : ∀ {a : Obj}, NowProviderTyped a →
        ∀ m ∈ a.without transportNames, m.1 ∈ unprinted false → Js.stringify m.2 = none := by
      intro a ha m hm hn
      have hname : m.1 = "nowProvider" := by simpa [unprinted] using hn
      rcases ha m (List.mem_filter.mp hm).1 hname with hv | ⟨source, hv⟩
      · rw [hv]; rfl
      · rw [hv]; rfl
    have htexts : Js.memberTexts (o.without transportNames) =
        Js.memberTexts (o'.without transportNames) := by
      rw [← Js.memberTexts_without (hquiet ho), ← Js.memberTexts_without (hquiet ho'),
        show Obj.without _ _ = Obj.without _ _ from hrest]
    simp only [Bool.false_eq_true, if_false]
    rw [Js.stringify, Js.stringify, htexts]

/-- The same token options give the same body. -/
theorem oauthToken_body_same {o o' : Obj} (h : Same ("timeout" :: unprinted form) o o')
    (ho : NowProviderTyped o) (ho' : NowProviderTyped o')
    (hform : (o.get "useFormData").truthy = form) :
    (oauthToken o).map TokenRequest.body = (oauthToken o').map TokenRequest.body := by
  have hclient : o.get "authokClient" = o'.get "authokClient" := by
    refine h.get ?_
    cases form <;> decide
  unfold oauthToken
  rw [hclient]
  cases clientInfo (o'.get "authokClient") with
  | none => rfl
  | some info =>
    exact congrArg (fun t => some (String.ofList t)) (tokenBodyChars_same h ho ho' hform)

/-- The client's own part of a silent token request. -/
theorem customOptions_same (hD : ∀ x ∈ D, x ∈ Sent.iframeBody.dropsConfig form)
    (hc : Same (D.map ConfigOption.name) c.options c'.options) :
    Same ("timeout" :: unprinted form) c.customOptions c'.customOptions := by
  have hnames : ∀ y ∈ Sent.iframeBody.dropsConfig form,
      y.name ∈ ("timeout" :: unprinted form) ++ AuthokClient.initialOptionNames := by
    cases form <;> decide
  unfold Same AuthokClient.customOptions
  rw [Js.Obj.without_without, Js.Obj.without_without]
  exact hc.drop (names_subset hnames hD)

theorem silentNames_sdk : ∀ k ∈ ["timeoutInSeconds", "detailedResponse"], k ∈ sdkNames := by
  decide

/-- What a silent call passes on, for two calls that differ in dropped options
only. -/
theorem silentOptions_call (hE : ∀ x ∈ E, x ∈ Sent.iframeBody.dropsCall)
    (hbase : Same sdkNames c.options c'.options)
    (hcall : Same (E.map CallOption.name) call call') :
    Same ["timeoutInSeconds", "detailedResponse"] (c.silentOptions call) (c'.silentOptions call') :=
  silentOptions_same hbase (hcall.mono (names_subset (by decide) hE)) silentNames_sdk

theorem NowProviderTyped.silentOptions {o : Obj} (h : NowProviderTyped o) (c : AuthokClient) :
    NowProviderTyped (c.silentOptions o) := by
  have hdefaults : NowProviderTyped
      [("audience", c.options.get "audience"), ("ignoreCache", .bool false)] :=
    nowProviderTyped_of_keys (show "nowProvider" ∉ ["audience", "ignoreCache"] by decide)
  refine ((hdefaults.spread h).spread (nowProviderTyped_of_keys ?_)).without _
  show "nowProvider" ∉ ["scope"]
  decide

theorem NowProviderTyped.iframeTokenOptions {c : AuthokClient} (hc : NowProviderTyped c.options)
    {o : Obj} (ho : NowProviderTyped o) (g : Given) :
    NowProviderTyped (c.iframeTokenOptions g.browser o g.secrets g.orgIdHint g.code) := by
  refine ((hc.without _).spread (ho.without _)).spread (nowProviderTyped_of_keys ?_)
  show "nowProvider" ∉ ["scope", "audience", "baseUrl", "client_id", "code_verifier", "code",
    "grant_type", "redirect_uri", "authokClient", "useFormData"]
  decide

theorem NowProviderTyped.refreshTokenOptions {c : AuthokClient} (hc : NowProviderTyped c.options)
    {o : Obj} (ho : NowProviderTyped o) (g : Given) :
    NowProviderTyped (c.refreshTokenOptions g.browser o g.refresh_token) := by
  refine ((hc.without _).spread (ho.without _)).spread (nowProviderTyped_of_keys ?_)
  unfold Js.OrdMap.keys
  rw [List.map_append, List.map_append]
  split
  · show "nowProvider" ∉ ["audience", "scope", "baseUrl", "client_id", "grant_type",
      "refresh_token", "redirect_uri", "timeout", "authokClient", "useFormData"]
    decide
  · show "nowProvider" ∉ ["audience", "scope", "baseUrl", "client_id", "grant_type",
      "refresh_token", "redirect_uri", "authokClient", "useFormData"]
    decide

theorem iframeTokenOptions_useFormData (c : AuthokClient) (b : Browser) (o : Obj) (x : Secrets)
    (orgIdHint code : Value) :
    (c.iframeTokenOptions b o x orgIdHint code).get "useFormData" = c.options.get "useFormData" :=
  Js.Obj.get_spread_of_find rfl

theorem refreshTokenOptions_useFormData (c : AuthokClient) (b : Browser) (o : Obj)
    (refresh_token : Value) :
    (c.refreshTokenOptions b o refresh_token).get "useFormData" = c.options.get "useFormData" := by
  refine Js.Obj.get_spread_of_find ?_
  rw [List.reverse_append]
  rfl

theorem safe_iframeBody (hD : ∀ x ∈ D, x ∈ Sent.iframeBody.dropsConfig form)
    (hE : ∀ x ∈ E, x ∈ Sent.iframeBody.dropsCall)
    (hc : Same (D.map ConfigOption.name) c.options c'.options)
    (hcall : Same (E.map CallOption.name) call call')
    (hty : NowProviderTyped c.options) (hty' : NowProviderTyped c'.options)
    (htyc : NowProviderTyped call) (htyc' : NowProviderTyped call')
    (hform : (c.options.get "useFormData").truthy = form) :
    Sent.iframeBody.text c call g = Sent.iframeBody.text c' call' g := by
  have hbase := same_of_config hc
  have hsilent := silentOptions_call hE hbase hcall
  have hsdk : Same sdkNames (c.silentOptions call) (c'.silentOptions call') :=
    hsilent.mono silentNames_sdk
  have hreads := reads_of_same hbase
  have hoptions := reads_of_same hsdk
  have hparams := iframeParams_same (g := g) (fun _ h => h) hbase (loginOptions_same hbase) hsdk
    (hsdk.without _)
  have hcustom : (c.silentOptions call).without AuthokClient.iframeOptionNames =
      (c'.silentOptions call').without AuthokClient.iframeOptionNames := hsilent.drop (by decide)
  have hsame : Same ("timeout" :: unprinted form)
      (c.iframeTokenOptions g.browser (c.silentOptions call) g.secrets g.orgIdHint g.code)
      (c'.iframeTokenOptions g.browser (c'.silentOptions call') g.secrets g.orgIdHint g.code) := by
    unfold AuthokClient.iframeTokenOptions
    dsimp only
    rw [(reads_of_same hparams).redirect_uri, domainUrl_same hbase, hoptions.scope,
      hoptions.audience, hcustom, hreads.client_id, hreads.authokClient, hreads.useFormData]
    exact ((customOptions_same hD hc).spread (Same.refl _ _)).spread (Same.refl _ _)
  have htyped := hty.iframeTokenOptions (htyc.silentOptions c) g
  have htyped' := hty'.iframeTokenOptions (htyc'.silentOptions c') g
  simp only [Sent.text, Sent.isBody, Sent.object]
  refine oauthToken_body_same hsame htyped htyped' ?_
  rw [iframeTokenOptions_useFormData, hform]

/-- The refresh request's own options, with its widened scope. -/
theorem refreshOptions_same (hbase : Same sdkNames c.options c'.options) {ks : List String}
    {o o' : Obj} (ho : Same ks o o') (hscope : o.get "scope" = o'.get "scope") :
    Same ks (c.refreshOptions o) (c'.refreshOptions o') := by
  unfold AuthokClient.refreshOptions
  rw [defaultScope_same hbase, (reads_of_same hbase).scope, hscope]
  exact ho.set _ _

theorem NowProviderTyped.refreshOptions {o : Obj} (h : NowProviderTyped o) (c : AuthokClient) :
    NowProviderTyped (c.refreshOptions o) := by
  intro m hm hn
  rcases Js.OrdMap.mem_of_mem_insert hm with rfl | hm'
  · exact absurd hn (show "scope" ≠ "nowProvider" by decide)
  · exact h m hm' hn

/-- The fixed part of a refresh request, but for the timeout. -/
theorem optional_timeout_same (A B : Obj) (t t' : Value) (ks : List String) :
    Same ("timeout" :: ks) (A ++ (if t.truthy then [("timeout", t)] else []) ++ B)
      (A ++ (if t'.truthy then [("timeout", t')] else []) ++ B) := by
  have hgone : ∀ v : Value, List.filter (fun m : String × Value =>
      decide (m.1 ∉ "timeout" :: ks)) (if v.truthy then [("timeout", v)] else []) = [] := by
    intro v
    split
    · simp
    · rfl
  unfold Same Obj.without Js.OrdMap.restrict
  rw [List.filter_append, List.filter_append, List.filter_append, List.filter_append, hgone, hgone]

theorem safe_refreshBody (hD : ∀ x ∈ D, x ∈ Sent.iframeBody.dropsConfig form)
    (hE : ∀ x ∈ E, x ∈ Sent.iframeBody.dropsCall)
    (hc : Same (D.map ConfigOption.name) c.options c'.options)
    (hcall : Same (E.map CallOption.name) call call')
    (hty : NowProviderTyped c.options) (hty' : NowProviderTyped c'.options)
    (htyc : NowProviderTyped call) (htyc' : NowProviderTyped call')
    (hform : (c.options.get "useFormData").truthy = form) :
    Sent.refreshBody.text c call g = Sent.refreshBody.text c' call' g := by
  have hbase := same_of_config hc
  have hsilent := silentOptions_call hE hbase hcall
  have hsdk := hsilent.mono silentNames_sdk
  have hopt := refreshOptions_same hbase hsilent (reads_of_same hsdk).scope
  generalize hoeq : c.refreshOptions (c.silentOptions call) = o at hopt
  generalize ho'eq : c'.refreshOptions (c'.silentOptions call') = o' at hopt
  have hreads := reads_of_same hbase
  have hoptions := reads_of_same (hopt.mono silentNames_sdk)
  have huri : c.silentRedirectUri g.browser o = c'.silentRedirectUri g.browser o' :=
    silentRedirectUri_same hbase (hopt.mono silentNames_sdk)
  have hcustom : o.without AuthokClient.refreshOptionNames =
      o'.without AuthokClient.refreshOptionNames := hopt.drop (by decide)
  -- member by member, the options agree but for what the body does not print
  have hsame : Same ("timeout" :: unprinted form)
      (c.refreshTokenOptions g.browser o g.refresh_token)
      (c'.refreshTokenOptions g.browser o' g.refresh_token) := by
    unfold AuthokClient.refreshTokenOptions
    dsimp only
    rw [huri, domainUrl_same hbase, hoptions.scope, hoptions.audience, hcustom, hreads.client_id,
      hreads.authokClient, hreads.useFormData]
    exact ((customOptions_same hD hc).spread (Same.refl _ _)).spread (optional_timeout_same ..)
  have htyped : NowProviderTyped (c.refreshTokenOptions g.browser o g.refresh_token) :=
    hty.refreshTokenOptions (hoeq ▸ (htyc.silentOptions c).refreshOptions c) g
  have htyped' : NowProviderTyped (c'.refreshTokenOptions g.browser o' g.refresh_token) :=
    hty'.refreshTokenOptions (ho'eq ▸ (htyc'.silentOptions c').refreshOptions c') g
  simp only [Sent.text, Sent.isBody, Sent.object, hoeq, ho'eq]
  refine oauthToken_body_same hsame htyped htyped' ?_
  rw [refreshTokenOptions_useFormData, hform]

/-- A request does not show the options it drops. -/
theorem Sent.safe_of_drops (r : Sent) (hD : ∀ x ∈ D, x ∈ r.dropsConfig form)
    (hE : ∀ x ∈ E, x ∈ r.dropsCall) : r.Safe form D E := by
  intro c c' call call' g hty hty' htyc htyc' hform hc hcall
  cases r with
  | redirectUrl => exact safe_redirectUrl hD hE hc hcall
  | popupUrl => exact safe_popupUrl hD hE hc hcall
  | iframeUrl => exact safe_iframeUrl hD hE hc hcall
  | redirectBody => exact safe_redirectBody (same_of_config hc) (same_of_call hcall)
  | popupBody => exact safe_popupBody (same_of_config hc) (same_of_call hcall)
  | iframeBody => exact safe_iframeBody hD hE hc hcall hty hty' htyc htyc' hform
  | refreshBody => exact safe_refreshBody hD hE hc hcall hty hty' htyc htyc' hform

end Safe

/-! ## The other options do -/

/-- A value of the option's type. -/
def ConfigOption.sample : ConfigOption → Value
  | cache => .obj [("tokens", .str "t")]
  | cacheLocation => .str "memory"
  | issuer => .str "i"
  | leeway => .num (.fin 1)
  | authorizeTimeoutInSeconds => .num (.fin 1)
  | nowProvider => .fn "f"
  | legacySameSiteCookie => .bool false
  | sessionCheckExpiryDays => .num (.fin 1)
  | useCookiesForTransactions => .bool true

def CallOption.sample : CallOption → Value
  | timeoutInSeconds => .num (.fin 1)
  | detailedResponse => .bool true
  | fragment => .str "f"
  | appState => .str "a"
  | redirectMethod => .str "replace"

/-- A client with nothing but the options every client has. -/
def plainClient (form : Bool) : AuthokClient where
  options := [("client_id", .str "c"), ("domain", .str "d"), ("useFormData", .bool form)]

/-- The same client with one more option. -/
def ConfigOption.client (x : ConfigOption) (form : Bool) : AuthokClient where
  options := (x.name, x.sample) :: (plainClient form).options

def plainGiven : Given where
  browser := ⟨"o", fun _ => []⟩
  secrets := ⟨"s", "n", "v"⟩
  orgIdHint := .undefined
  code := .str "k"
  refresh_token := .str "r"

theorem ofList_inj {cs ds : List Char} (h : String.ofList cs = String.ofList ds) : cs = ds := by
  have := congrArg String.toList h
  rwa [String.toList_ofList, String.toList_ofList] at this

/-- Equal URLs have equal queries. -/
theorem queryChars_of_authorizeUrl {c c' : AuthokClient} {o o' : Obj} {info : String}
    (hdomain : c.domainUrl = c'.domainUrl)
    (hc : clientInfo (c.options.get "authokClient") = some info)
    (hc' : clientInfo (c'.options.get "authokClient") = some info)
    (h : c.authorizeUrl o = c'.authorizeUrl o') : queryChars o = queryChars o' := by
  unfold AuthokClient.authorizeUrl at h
  rw [hc, hc', hdomain] at h
  have heq : createQueryParams o = createQueryParams o' := by
    simpa [String.append_right_inj, String.append_left_inj] using h
  exact ofList_inj heq

theorem tokenBodyChars_of_oauthToken {o o' : Obj} {info : String}
    (ho : clientInfo (o.get "authokClient") = some info)
    (ho' : clientInfo (o'.get "authokClient") = some info)
    (h : (oauthToken o).map TokenRequest.body = (oauthToken o').map TokenRequest.body) :
    tokenBodyChars o = tokenBodyChars o' := by
  unfold oauthToken at h
  rw [ho, ho'] at h
  exact ofList_inj (Option.some.inj h)

/-- The characters a request prints. -/
def Sent.chars (r : Sent) (c : AuthokClient) (call : Obj) (g : Given) : List Char :=
  match r.isBody with
  | false => queryChars (r.object c call g)
  | true => tokenBodyChars (r.object c call g)

/-- Token options carry the client's `authokClient`. -/
theorem redirectTokenOptions_authokClient (c : AuthokClient) (t : AuthokClient.Transaction)
    (code : Value) :
    (c.redirectTokenOptions t code).get "authokClient" = c.options.get "authokClient" := by
  unfold AuthokClient.redirectTokenOptions
  dsimp only
  split
  · rfl
  · exact Js.Obj.get_set_ne (by decide)

theorem iframeTokenOptions_authokClient (c : AuthokClient) (b : Browser) (o : Obj) (x : Secrets)
    (orgIdHint code : Value) :
    (c.iframeTokenOptions b o x orgIdHint code).get "authokClient" = c.options.get "authokClient" :=
  Js.Obj.get_spread_of_find rfl

theorem refreshTokenOptions_authokClient (c : AuthokClient) (b : Browser) (o : Obj)
    (refresh_token : Value) :
    (c.refreshTokenOptions b o refresh_token).get "authokClient" =
      c.options.get "authokClient" := by
  refine Js.Obj.get_spread_of_find ?_
  rw [List.reverse_append]
  rfl

/-- So do those of every body. -/
theorem Sent.object_authokClient {r : Sent} (hr : r.isBody = true) (c : AuthokClient) (call : Obj)
    (g : Given) : (r.object c call g).get "authokClient" = c.options.get "authokClient" := by
  cases r with
  | redirectUrl => cases hr
  | popupUrl => cases hr
  | iframeUrl => cases hr
  | redirectBody => exact redirectTokenOptions_authokClient ..
  | popupBody => rfl
  | iframeBody => exact iframeTokenOptions_authokClient ..
  | refreshBody => exact refreshTokenOptions_authokClient ..

/-- Clients of one domain without an `authokClient` of their own: equal texts
have equal characters. -/
theorem Sent.chars_of_text {r : Sent} {c c' : AuthokClient} {call call' : Obj} {g : Given}
    (hdomain : c.domainUrl = c'.domainUrl) (hc : c.options.get "authokClient" = .undefined)
    (hc' : c'.options.get "authokClient" = .undefined) (h : r.text c call g = r.text c' call' g) :
    r.chars c call g = r.chars c' call' g := by
  have hinfo : clientInfo (c.options.get "authokClient") = some plainInfo := by
    rw [hc]
    exact clientInfo_undefined
  have hinfo' : clientInfo (c'.options.get "authokClient") = some plainInfo := by
    rw [hc']
    exact clientInfo_undefined
  unfold Sent.text at h
  unfold Sent.chars
  cases hr : r.isBody with
  | false =>
    rw [hr] at h
    exact queryChars_of_authorizeUrl hdomain hinfo hinfo' h
  | true =>
    rw [hr] at h
    rw [← r.object_authokClient hr c call g] at hinfo
    rw [← r.object_authokClient hr c' call' g] at hinfo'
    exact tokenBodyChars_of_oauthToken hinfo hinfo' h

/-- A client option that is not dropped shows. -/
theorem config_shows (r : Sent) (form : Bool) (x : ConfigOption) (hx : x ∉ r.dropsConfig form) :
    r.chars (x.client form) [] plainGiven ≠ r.chars (plainClient form) [] plainGiven := by
  cases r <;> cases form <;> cases x <;> first | exact absurd (by decide) hx | decide +kernel

/-- A call option that is not dropped shows. -/
theorem call_shows (r : Sent) (form : Bool) (x : CallOption) (hx : x ∉ r.dropsCall) :
    r.chars (plainClient form) [(x.name, x.sample)] plainGiven ≠
      r.chars (plainClient form) [] plainGiven := by
  cases r <;> cases form <;> cases x <;> first | exact absurd (by decide) hx | decide +kernel

/-! ## Exactly the dropped options -/

theorem same_cons {ks : List String} {k : String} (hk : k ∈ ks) (v : Value) (o : Obj) :
    Same ks ((k, v) :: o) o := by
  unfold Same Obj.without Js.OrdMap.restrict
  rw [List.filter_cons, if_neg (by simpa using hk)]

theorem plainClient_typed (form : Bool) : NowProviderTyped (plainClient form).options :=
  nowProviderTyped_of_keys (show "nowProvider" ∉ ["client_id", "domain", "useFormData"] by decide)

theorem ConfigOption.client_typed (x : ConfigOption) (form : Bool) :
    NowProviderTyped (x.client form).options := by
  intro m hm hn
  rcases List.mem_cons.mp hm with rfl | hm'
  · cases x with
    | nowProvider => exact Or.inr ⟨"f", rfl⟩
    | _ => exact absurd hn (by decide)
  · exact plainClient_typed form m hm' hn

theorem CallOption.call_typed (x : CallOption) : NowProviderTyped [(x.name, x.sample)] := by
  intro m hm hn
  obtain rfl := List.mem_singleton.mp hm
  cases x <;> exact absurd hn (by decide)

/-- **Which options stay out of a request**: a request is the same for any two
clients and calls that differ only in `D` and `E` exactly when it drops all the
options in `D` and `E`. -/
theorem sent_same_iff (r : Sent) (form : Bool) (D : List ConfigOption) (E : List CallOption) :
    r.Safe form D E ↔ (∀ x ∈ D, x ∈ r.dropsConfig form) ∧ (∀ x ∈ E, x ∈ r.dropsCall) := by
  constructor
  · intro hsafe
    have hform : ((plainClient form).options.get "useFormData").truthy = form := rfl
    have hplain := plainClient_typed form
    have hempty : NowProviderTyped [] := fun m hm => absurd hm List.not_mem_nil
    constructor
    · intro x hxD
      by_contra hx
      have hname : x.name ∈ D.map ConfigOption.name := List.mem_map_of_mem hxD
      have hform' : ((x.client form).options.get "useFormData").truthy = form := by
        cases x <;> rfl
      have heq := hsafe (x.client form) (plainClient form) [] [] plainGiven (x.client_typed form)
        hplain hempty hempty hform' (same_cons hname _ _) (Same.refl _ _)
      exact config_shows r form x hx
        (Sent.chars_of_text (by cases x <;> rfl) (by cases x <;> rfl) rfl heq)
    · intro x hxE
      by_contra hx
      have hname : x.name ∈ E.map CallOption.name := List.mem_map_of_mem hxE
      have heq := hsafe (plainClient form) (plainClient form) [(x.name, x.sample)] [] plainGiven
        hplain hplain x.call_typed hempty hform (Same.refl _ _) (same_cons hname _ _)
      exact call_shows r form x hx (Sent.chars_of_text rfl rfl rfl heq)
  · rintro ⟨hD, hE⟩
    exact r.safe_of_drops hD hE

/-- A custom cache, which neither name list has, is sent along by a silent
request: in the query of the iframe and in the body of its token request. -/
theorem cache_reaches_server :
    Same [ConfigOption.cache.name] (ConfigOption.cache.client false).options
        (plainClient false).options ∧
      Sent.iframeUrl.text (ConfigOption.cache.client false) [] plainGiven ≠
        Sent.iframeUrl.text (plainClient false) [] plainGiven ∧
      Sent.iframeBody.text (ConfigOption.cache.client false) [] plainGiven ≠
        Sent.iframeBody.text (plainClient false) [] plainGiven := by
  refine ⟨same_cons (List.mem_singleton.mpr rfl) _ _, fun heq => ?_, fun heq => ?_⟩
  · exact config_shows .iframeUrl false .cache (by decide) (Sent.chars_of_text rfl rfl rfl heq)
  · exact config_shows .iframeBody false .cache (by decide) (Sent.chars_of_text rfl rfl rfl heq)

end AuthokSpa
