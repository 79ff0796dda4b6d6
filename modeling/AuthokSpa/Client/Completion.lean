import AuthokSpa.Client.Calls
import AuthokSpa.Client.Provider

/-!
# Requests that complete (`AuthokClient.ts`)

What a client never does says little about requests that go well. Here the server
keeps to the protocol and the browser does its part: the answer of the server comes
back as a message from its origin, in time and before any other response, and the lock
is had at one of ten tries. Then

* `loginWithPopup` resolves and stores the entry of the response (`popup_login_completes`);
* `getTokenSilently`, where the cache has nothing to give, resolves with the token of the
  server's response and stores its entry (`silent_request_completes`): of the response to
  a refresh, if one is made and the server takes it, or else of that to the iframe's code.
-/

namespace AuthokSpa

open Js (Value Obj)
open Follow (bind_ok)

/-! ## Messages that arrive -/

/-- The message with the code. -/
def CodeGrant.webMessage (g : CodeGrant) (domainUrl code : String) : Windows.MessageEvent where
  origin := domainUrl
  data := .obj [("type", .str "authorization_response"),
    ("response", .obj [("code", .str code), ("state", .str g.state)])]

/-- The state comes back with the code. -/
theorem CodeGrant.state_returned {g : CodeGrant} {stateIn : String} (h : stateIn = g.state)
    (code : String) : (Value.str stateIn).strictEq (Windows.member
      (.obj [("code", .str code), ("state", .str g.state)]) "state") = true :=
  (Value.strictEq_str _ _).mpr (congrArg Value.str h)

namespace Windows

theorem isResponse_webMessage (g : CodeGrant) (domainUrl code : String) :
    (g.webMessage domainUrl code).isResponse = true := by
  have hsame : (Value.str "authorization_response").strictEq (.str "authorization_response") = true :=
    (Value.strictEq_str _ _).mpr rfl
  exact hsame

namespace Popup

/-- An event that leaves a popup waiting. -/
def Event.Idle : Event → Prop
  | .message e => e.isResponse = false
  | .poll closed => closed = false
  | .timeout => False

theorem run_idle {before : List Event} (h : ∀ a ∈ before, a.Idle) : machine.run {} before = {} := by
  induction before with
  | nil => rfl
  | cons a before ih =>
    obtain ⟨ha, hbefore⟩ := List.forall_mem_cons.mp h
    have hstep : ({} : Popup).step a = {} := by
      cases a with
      | message e =>
        rw [step, if_pos rfl, popupEventListener, if_neg (by rw [ha]; exact Bool.false_ne_true)]
      | poll closed => rw [step, if_pos rfl, onPoll, show closed = false from ha]; rfl
      | timeout => exact ha.elim
    rw [Machine.run_cons, machine_step, hstep]
    exact ih hbefore

/-- The first response settles the popup. -/
theorem runPopup_answered {before : List Event} (after : List Event) {e : MessageEvent}
    {r : Settled} (hbefore : ∀ a ∈ before, a.Idle) (hresponse : e.isResponse = true)
    (hanswer : answer e.response = some r) :
    (runPopup (before ++ .message e :: after)).promise = some r := by
  have hstep : ({} : Popup).step (.message e) =
      { timeoutId := false, popupTimer := false, listening := false, closeCalled := true,
        promise := some r } := by
    rw [step, if_pos rfl, popupEventListener, if_pos hresponse, hanswer]
    rfl
  unfold runPopup
  rw [Machine.run_append, run_idle hbefore, Machine.run_cons, machine_step, hstep,
    run_of_disarmed ⟨rfl, rfl, rfl⟩]

end Popup

namespace Iframe

variable {eventOrigin : String} {s : Iframe}

/-- An event that leaves an iframe waiting. -/
def Event.Idle (eventOrigin : String) : Event → Prop
  | .message e => relevant eventOrigin e = false
  | .timeout => False
  | .cleanup => True

theorem run_idle {before : List Event} (h : ∀ a ∈ before, a.Idle eventOrigin) :
    (machine eventOrigin).run {} before = {} := by
  induction before with
  | nil => rfl
  | cons a before ih =>
    obtain ⟨ha, hbefore⟩ := List.forall_mem_cons.mp h
    have hstep : ({} : Iframe).step eventOrigin a = {} := by
      cases a with
      | message e => exact step_of_not_relevant ha _
      | timeout => exact ha.elim
      | cleanup => rfl
    rw [Machine.run_cons, machine_step, hstep]
    exact ih hbefore

/-- What is settled stays so, whatever comes. -/
theorem Phase.run_settled {r : Settled} (events : List Event) :
    ∀ {s : Iframe}, Phase s → s.promise = some r →
      ((machine eventOrigin).run s events).promise = some r := by
  induction events with
  | nil => exact fun _ hr => hr
  | cons a events ih =>
    intro s h hr
    rw [Machine.run_cons, machine_step]
    cases a with
    | message e =>
      rw [h.step_message_of_settled (by rw [hr]; rfl)]
      exact ih h hr
    | timeout =>
      have hcarries : Carries eventOrigin .timeout := fun e he => by cases he
      obtain ⟨hphase, hpromise⟩ := h.step hcarries
      exact ih hphase (by rw [hpromise, hr]; rfl)
    | cleanup =>
      have hcarries : Carries eventOrigin .cleanup := fun e he => by cases he
      obtain ⟨hphase, hpromise⟩ := h.step hcarries
      exact ih hphase (by rw [hpromise, hr]; rfl)

/-- The first response from the right window settles the iframe. -/
theorem runIframe_answered {before after : List Event} {e : MessageEvent}
    (hbefore : ∀ a ∈ before, a.Idle eventOrigin) (hrelevant : relevant eventOrigin e = true)
    (hread : readable e.response = true) :
    (runIframe eventOrigin (before ++ .message e :: after)).promise =
      some (outcome e.response) := by
  unfold runIframe
  rw [Machine.run_append, run_idle hbefore, Machine.run_cons, machine_step,
    step_relevant hrelevant hread 0]
  exact Phase.run_settled after (.answered _ _) rfl

end Iframe

end Windows

/-! ## `loginWithPopup` -/

/-- The token request of a popup is one of texts. -/
theorem CodeRequest.flat_popup {c : AuthokClient} {b : Browser} {options : Obj} {x : Secrets}
    {client_id redirect_uri : String}
    (h : (waiting (.popup options x)).Named c b client_id redirect_uri) (code : String) :
    Flat (((waiting (.popup options x)).tokenOptions c b (.str code)).without transportNames) := by
  have huri : (c.popupParams b options x).get "redirect_uri" = .str redirect_uri := by
    have hquery : (c.popupQuery b options x).get "redirect_uri" = .str redirect_uri :=
      h.redirect_uri
    unfold AuthokClient.popupQuery at hquery
    rw [Js.Obj.get_spread_of_not_mem (show "redirect_uri" ∉ ["response_mode"] by decide)] at hquery
    exact hquery
  have hrest : ((waiting (.popup options x)).tokenOptions c b (.str code)).without transportNames =
      textObj [("client_id", client_id), ("code_verifier", x.code_verifier), ("code", code),
        ("grant_type", "authorization_code"), ("redirect_uri", redirect_uri)] := by
    have hoptions : (waiting (.popup options x)).tokenOptions c b (.str code) =
        c.popupTokenOptions b options x (.str code) := rfl
    rw [hoptions]
    unfold AuthokClient.popupTokenOptions
    dsimp only
    rw [huri, h.client]
    rfl
  rw [hrest]
  exact CodeRequest.flat_textObj (by simp) (by simp)

/-- **A popup login against a server that keeps to the protocol completes**: if the
message of the server is the first response that comes, the server answers the token
request it honours, and the ID token it made for the nonce it read is one that `verify`
accepts, the login stores the tokens and marks the session. -/
theorem popup_login_completes {J : Type} (A : CookieApi J) (S : Setup) (out : Outside)
    {options : Obj} {d : Draws}
    {client_id redirect_uri : String}
    (h : (CodeRequest.waiting (.popup options d.secrets)).Named S.client S.browser client_id
      redirect_uri)
    (hdomain : '?' ∉ S.client.domainUrl.toList) {url : String}
    (hurl : S.client.authorizeUrl (S.client.popupQuery S.browser options d.secrets) = some url)
    {g : CodeGrant} (hg : CodeGrant.ofUrl url = some g) (code : String)
    {before after : List Windows.Popup.Event} (hbefore : ∀ a ∈ before, a.Idle) (response : Obj)
    (hserver : ∀ o request, oauthToken o = some request →
      g.Honours S.browser.sha256 code request → out.oauthToken o = some (.ok response))
    {clock : Clock} {now : Js.Num} {token : DecodedToken}
    (hissued : S.client.verifyIdToken clock (response.get "id_token") (.str g.nonce)
      ((options.get "organization").or (S.client.options.get "organization")) = .ok token)
    (hverify : out.verifyNow = .ok clock) (hexpiry : out.expiryNow = .ok now) (s : ClientData J) :
    ∃ e, S.client.finishPopup S.browser clock options d.secrets response = .ok e ∧
      e.decodedToken = token ∧
      Login.loginWithPopup A S out options true d
          (before ++ .message (g.webMessage S.client.domainUrl code) :: after) s =
        .ok ⟨⟩ (loggedIn A S e now out.cookieNow s) := by
  obtain ⟨info, hinfo⟩ := CodeRequest.clientInfo_of_url hurl
  obtain ⟨request, hrequest, hhonours⟩ := h.honours (CodeRequest.flat_popup h code) hinfo
  obtain rfl := Option.some.inj ((h.ofUrl hdomain hurl).symm.trans hg)
  set g := (CodeRequest.waiting (.popup options d.secrets)).grant S.browser client_id redirect_uri
  have haccept : S.client.finishPopup S.browser clock options d.secrets response = _ :=
    bind_ok_iff.mpr ⟨token, hissued, rfl⟩
  refine ⟨_, haccept, rfl, ?_⟩
  have hopen : Login.openUrl S true (S.client.popupQuery S.browser options d.secrets) s =
      .ok ⟨⟩ s := by
    unfold Login.openUrl
    rw [hurl]
    rfl
  have hmessage : Login.awaitPopup
      (before ++ .message (g.webMessage S.client.domainUrl code) :: after) s =
        .ok (.obj [("code", .str code), ("state", .str g.state)]) s := by
    have hpromise := Windows.Popup.runPopup_answered after hbefore
      (Windows.isResponse_webMessage g S.client.domainUrl code) (r := .resolved _) rfl
    unfold Login.awaitPopup
    rw [hpromise]
    rfl
  have hstate : Login.checkState d.secrets.stateIn
      (.obj [("code", .str code), ("state", .str g.state)]) s = .ok ⟨⟩ s := by
    have hreturned : d.secrets.stateIn = g.state := rfl
    unfold Login.checkState
    rw [if_pos (CodeGrant.state_returned hreturned code)]
    rfl
  have hanswer : Login.awaited (out.oauthToken
      (S.client.popupTokenOptions S.browser options d.secrets (.str code))) s = .ok response s := by
    have hresponse : out.oauthToken
        (S.client.popupTokenOptions S.browser options d.secrets (.str code)) =
          some (.ok response) := hserver _ request hrequest hhonours
    rw [hresponse]
    rfl
  have hclock : Login.clock out.verifyNow s = .ok clock s := by
    rw [hverify]
    rfl
  have hverified := congrArg (fun r => Login.verified r s) haccept
  unfold Login.loginWithPopup
  rw [bind_ok hopen, bind_ok hmessage, bind_ok hstate]
  show (Login.awaited (out.oauthToken
    (S.client.popupTokenOptions S.browser options d.secrets (.str code))) >>= _) s = _
  rw [bind_ok hanswer, bind_ok hclock, bind_ok hverified]
  exact complete_apply hexpiry _ s

/-! ## `getTokenSilently` -/

namespace Calls

variable {S : Setup} {w : Surroundings} {o : Obj}

/-- The iframe for the options `o`, as a code flow. -/
def iframeRequest (w : Surroundings) (o : Obj) : CodeRequest :=
  .waiting (.iframe o w.draws.secrets w.orgIdHint)

/-- The iframe for the options `o` gets a code, and the code these tokens. -/
structure ServedIframe (S : Setup) (w : Surroundings) (o : Obj) (g : CodeGrant) (code : String)
    (json : Obj) : Prop where
  domain : '?' ∉ S.client.domainUrl.toList
  named : ∃ client_id redirect_uri,
    (iframeRequest w o).Named S.client S.browser client_id redirect_uri
  flat : Flat (((iframeRequest w o).tokenOptions S.client S.browser (.str code)).without
    transportNames)
  isolated : w.crossOriginIsolated = false
  url : ∃ url, S.client.authorizeUrl (S.client.iframeQuery S.browser o w.draws.secrets
    w.orgIdHint) = some url ∧ CodeGrant.ofUrl url = some g
  message : ∃ before after, w.events =
      before ++ .message (g.webMessage S.client.domainUrl code) :: after ∧
    ∀ a ∈ before, a.Idle S.client.domainUrl
  exchange : ∀ o' request, oauthToken o' = some request →
    g.Honours S.browser.sha256 code request → w.exchangeAnswer o' = some (.ok ⟨true, json⟩)
  issued : ∃ token, S.client.verifyIdToken w.clock (json.get "id_token") (.str g.nonce)
    .undefined = .ok token

/-- A refresh gets tokens, or an answer after which the iframe is tried. -/
def ServedRefresh (S : Setup) (w : Surroundings) : Except String TokenAnswer → Prop
  | .error message => fallsBack message = true
  | .ok answer =>
    if answer.ok then
      ∃ token, S.client.verifyIdToken w.clock (answer.json.get "id_token") .undefined .undefined =
        .ok token
    else fallsBack (errorMessage S answer.json) = true

/-! ### What a call finds -/

/-- The look for a refresh token: what it leaves of the cache, and the token. -/
def refreshLook (S : Setup) (w : Surroundings) (o : Obj) (s : Cache.Store) : Cache.Store × Value :=
  let found := S.manager.get (S.client.requestKey (S.client.refreshOptions o)) (.fin 0)
    w.refreshNow s
  (found.1, (found.2.map Cache.Body.refresh_token).getD .undefined)

/-- The token that a refresh is made with: without a worker that of the cache. -/
def refreshToken (S : Setup) (o : Obj) (refresh_token : Value) (refreshTokens : RefreshTokens) :
    Option Value :=
  if S.hasWorker then
    Worker.request refreshTokens (workerAudience o) (o.get "scope") refresh_token
  else if refresh_token.truthy then some refresh_token
  else none

/-- The refresh request of a call, if it makes one. -/
def refreshRequest (S : Setup) (w : Surroundings) (o : Obj) (s : Cache.Store)
    (refreshTokens : RefreshTokens) : Option Obj :=
  let o' := S.client.refreshOptions o
  let refresh_token := (refreshLook S w o s).2
  if S.useRefreshTokens && (refreshToken S o' refresh_token refreshTokens).isSome then
    some (S.client.refreshTokenOptions S.browser o' refresh_token)
  else none

/-- The response that an answer brings. -/
def taken : Except String TokenAnswer → Option Obj
  | .error _ => none
  | .ok answer => if answer.ok then some answer.json else none

/-- The response to the refresh of a call, if it makes one and the server takes it. -/
def refreshResponse (S : Setup) (w : Surroundings) (o : Obj) (s : Cache.Store)
    (refreshTokens : RefreshTokens) : Option Obj :=
  ((refreshRequest S w o s refreshTokens).bind w.refreshAnswer).bind taken

/-- The options that the iframe is asked with. -/
def iframeOptions (S : Setup) (options : Obj) : Obj :=
  if S.useRefreshTokens then S.client.refreshOptions options else options

/-- A response as it reaches the page: a worker keeps the refresh token. -/
def pageJson (S : Setup) (json : Obj) : Obj :=
  if S.hasWorker then (Worker.response [] .undefined .undefined json).2 else json

/-- What `getJSON` gives of it. -/
def tokenResult (S : Setup) (json : Obj) : Obj :=
  (pageJson S json).without ["error", "error_description"]

/-- The entry is that of the response `r`: the one to the refresh, where there is one,
and else the one to the code of the iframe, which is `json`. -/
def Fetched (S : Setup) (w : Surroundings) (o json : Obj) (s : Cache.Store)
    (refreshTokens : RefreshTokens) (e : CacheEntry) (r : Obj) : Prop :=
  match refreshResponse S w o s refreshTokens with
  | some json' => r = json' ∧
      S.client.finishRefresh w.clock (S.client.refreshOptions o) (tokenResult S r) = .ok e
  | none => r = json ∧
      S.client.finishIframe S.browser w.clock (iframeOptions S o) w.draws.secrets w.orgIdHint
        (tokenResult S r) = .ok e

/-! ### What a part of a call leaves alone -/

/-- The cache is as it was, and the lock is not touched. -/
structure Leaves (t t' : Tab) : Prop where
  store : t'.store = t.store
  log : ∃ mid, t'.log = t.log ++ mid ∧ .locked ∉ mid ∧ .unlocked ∉ mid

theorem Leaves.refl (t : Tab) : Leaves t t :=
  ⟨rfl, [], (List.append_nil _).symm, List.not_mem_nil, List.not_mem_nil⟩

theorem Leaves.trans {t t' t'' : Tab} (h : Leaves t t') (h' : Leaves t' t'') : Leaves t t'' := by
  obtain ⟨mid, hlog, hlocked, hunlocked⟩ := h.log
  obtain ⟨mid', hlog', hlocked', hunlocked'⟩ := h'.log
  refine ⟨h'.store.trans h.store, mid ++ mid', ?_, ?_, ?_⟩
  · rw [hlog', hlog, List.append_assoc]
  · exact fun hmem => (List.mem_append.mp hmem).elim hlocked hlocked'
  · exact fun hmem => (List.mem_append.mp hmem).elim hunlocked hunlocked'

/-- Events without those of the lock. -/
theorem Leaves.noted (t : Tab) {mid : List TokenEvent} (hlocked : .locked ∉ mid)
    (hunlocked : .unlocked ∉ mid) : Leaves t { t with log := t.log ++ mid } :=
  ⟨rfl, mid, rfl, hlocked, hunlocked⟩

/-- A part of a call that comes to this entry, of this response. -/
def Comes (x : CallM (CacheEntry × Obj)) (e : CacheEntry) (json : Obj) : Prop :=
  ∀ t, ∃ t', x t = .ok (e, json) t' ∧ Leaves t t'

/-! ### The iframe -/

theorem awaitIframe_ok {e : Windows.MessageEvent} {before after : List Windows.Iframe.Event}
    (hevents : w.events = before ++ .message e :: after)
    (hbefore : ∀ a ∈ before, a.Idle S.client.domainUrl)
    (hrelevant : Windows.Iframe.relevant S.client.domainUrl e = true)
    (hread : Windows.readable e.response = true) {r : Value}
    (houtcome : Windows.outcome e.response = .resolved r) (t : Tab) :
    awaitIframe S w t = .ok r t := by
  unfold awaitIframe
  rw [hevents, Windows.Iframe.runIframe_answered hbefore hrelevant hread, houtcome]
  rfl

/-- What the page gets does not depend on what the worker has. -/
theorem response_snd (refreshTokens : RefreshTokens) (audience scope : Value) (json : Obj) :
    (Worker.response refreshTokens audience scope json).2 =
      (Worker.response [] .undefined .undefined json).2 := by
  unfold Worker.response
  split
  · rfl
  · rfl

/-- The page gets the response, but perhaps for its refresh token. -/
theorem receive_ok (o json : Obj) (t : Tab) :
    ∃ t', receive S o json t = .ok (pageJson S json) t' ∧ Leaves t t' := by
  have hnoted : note (.received json) t = .ok ⟨⟩ { t with log := t.log ++ [.received json] } := rfl
  have hleaves : Leaves t { t with log := t.log ++ [.received json] } :=
    Leaves.noted t (by simp) (by simp)
  unfold receive pageJson
  rw [bind_ok hnoted]
  cases S.hasWorker with
  | true =>
    rw [if_pos rfl, if_pos rfl, ← response_snd t.refreshTokens (workerAudience o) (o.get "scope")]
    exact ⟨_, rfl, hleaves.store, hleaves.log⟩
  | false => exact ⟨_, rfl, hleaves⟩

theorem pageJson_get (json : Obj) {k : String} (hk : k ≠ "refresh_token") :
    (pageJson S json).get k = json.get k := by
  unfold pageJson
  split
  · unfold Obj.get
    rw [Worker.response_find _ _ _ json hk]
  · rfl

/-- What is verified of a response is what came. -/
theorem tokenResult_get (json : Obj) {k : String} (hk : k ∉ ["error", "error_description"])
    (hrefresh : k ≠ "refresh_token") : (tokenResult S json).get k = json.get k := by
  unfold tokenResult
  rw [Js.Obj.get_without hk, pageJson_get json hrefresh]

theorem exchanged_ok {x : Secrets} {json : Obj} {e : CacheEntry}
    (haccept : S.client.finishIframe S.browser w.clock o x w.orgIdHint (tokenResult S json) = .ok e) :
    Comes (exchanged S w o x (.ok ⟨true, json⟩)) e json := by
  intro t
  obtain ⟨t', hreceive, hleaves⟩ := receive_ok (S := S) o json t
  unfold exchanged
  dsimp only
  rw [bind_ok hreceive, if_pos rfl, show (pageJson S json).without _ = tokenResult S json from rfl,
    haccept]
  exact ⟨_, rfl, hleaves.store, hleaves.log⟩

/-- The iframe of a client that is served comes to the entry of the response. -/
theorem getTokenFromIFrame_ok {g : CodeGrant} {code : String} {json : Obj}
    (h : ServedIframe S w o g code json) :
    ∃ e, S.client.finishIframe S.browser w.clock o w.draws.secrets w.orgIdHint (tokenResult S json) =
        .ok e ∧ Comes (getTokenFromIFrame S w o) e json := by
  obtain ⟨client_id, redirect_uri, hnamed⟩ := h.named
  obtain ⟨url, hurl, hg⟩ := h.url
  obtain ⟨before, after, hevents, hbefore⟩ := h.message
  obtain ⟨token, hissued⟩ := h.issued
  obtain ⟨info, hinfo⟩ := CodeRequest.clientInfo_of_url hurl
  obtain ⟨request, hrequest, hhonours⟩ := hnamed.honours h.flat hinfo
  obtain rfl := Option.some.inj ((hnamed.ofUrl h.domain hurl).symm.trans hg)
  set g := (iframeRequest w o).grant S.browser client_id redirect_uri
  rw [← tokenResult_get (S := S) json (by decide) (by decide)] at hissued
  obtain ⟨e, haccept⟩ : ∃ e, S.client.finishIframe S.browser w.clock o w.draws.secrets w.orgIdHint
      (tokenResult S json) = .ok e := ⟨_, bind_ok_iff.mpr ⟨token, hissued, rfl⟩⟩
  refine ⟨e, haccept, fun t => ?_⟩
  have hrelevant : Windows.Iframe.relevant S.client.domainUrl
      (g.webMessage S.client.domainUrl code) = true := by
    have horigin : (g.webMessage S.client.domainUrl code).origin = S.client.domainUrl := rfl
    unfold Windows.Iframe.relevant
    rw [Windows.isResponse_webMessage, decide_eq_true horigin]
    rfl
  have hawait := awaitIframe_ok hevents hbefore hrelevant rfl (r := .obj
    [("code", .str code), ("state", .str g.state)]) rfl t
  have hexchange : w.exchangeAnswer (S.client.iframeTokenOptions S.browser o w.draws.secrets
      w.orgIdHint (.str code)) = some (.ok ⟨true, json⟩) := h.exchange _ request hrequest hhonours
  obtain ⟨t', hr, hleaves⟩ := exchanged_ok haccept { t with log := t.log ++ [.authorized] }
  have hnoted : note .authorized t = .ok ⟨⟩ { t with log := t.log ++ [.authorized] } := rfl
  have hreturned : w.draws.secrets.stateIn = g.state := rfl
  have htokens : iframeTokens S w o w.draws.secrets t = .ok (e, json) t' := by
    unfold iframeTokens
    rw [if_neg (by rw [h.isolated]; exact Bool.false_ne_true), bind_ok hawait,
      if_pos (CodeGrant.state_returned hreturned code), bind_ok hnoted]
    show (exchangeCode S w o w.draws.secrets (.str code)) _ = _
    unfold exchangeCode
    rw [hexchange]
    exact hr
  refine ⟨t', ?_, (Leaves.noted t (by simp) (by simp)).trans hleaves⟩
  unfold getTokenFromIFrame
  rw [hurl]
  show EStateM.tryCatch (iframeTokens S w o w.draws.secrets) _ t = _
  unfold EStateM.tryCatch
  rw [htokens]

/-! ### The refresh -/

/-- A refresh that the server takes comes to the entry of its response. -/
theorem refreshed_taken {answer : Except String TokenAnswer} {json : Obj}
    (h : ServedRefresh S w answer) (htaken : taken answer = some json) :
    ∃ e, S.client.finishRefresh w.clock o (tokenResult S json) = .ok e ∧
      Comes (refreshed S w o answer) e json := by
  cases answer with
  | error message => cases htaken
  | ok answer =>
    cases hok : answer.ok with
    | false => simp [taken, hok] at htaken
    | true =>
      obtain rfl : answer.json = json := by simpa [taken, hok] using htaken
      obtain ⟨token, hissued⟩ : ∃ token, S.client.verifyIdToken w.clock
          (answer.json.get "id_token") .undefined .undefined = .ok token := by
        simpa [ServedRefresh, hok] using h
      rw [← tokenResult_get (S := S) answer.json (by decide) (by decide)] at hissued
      obtain ⟨e, haccept⟩ : ∃ e, S.client.finishRefresh w.clock o (tokenResult S answer.json) =
          .ok e := ⟨_, bind_ok_iff.mpr ⟨token, hissued, rfl⟩⟩
      refine ⟨e, haccept, fun t => ?_⟩
      obtain ⟨t', hreceive, hleaves⟩ := receive_ok (S := S) o answer.json t
      refine ⟨t', ?_, hleaves⟩
      unfold refreshed
      dsimp only
      rw [bind_ok hreceive, if_pos hok,
        show (pageJson S answer.json).without _ = tokenResult S answer.json from rfl, haccept]
      rfl

/-- Any other answer leads to the iframe. -/
theorem refreshed_refused {answer : Except String TokenAnswer} (h : ServedRefresh S w answer)
    (htaken : taken answer = none) {e : CacheEntry} {json : Obj}
    (hiframe : Comes (getTokenFromIFrame S w o) e json) : Comes (refreshed S w o answer) e json := by
  intro t
  unfold refreshed
  cases answer with
  | error message =>
    have hfalls : fallsBack message = true := h
    dsimp only
    rw [if_pos hfalls]
    exact hiframe t
  | ok answer =>
    obtain ⟨t', hreceive, hleaves⟩ := receive_ok (S := S) o answer.json t
    have hfails : answer.ok = false := by
      cases hok : answer.ok with
      | false => rfl
      | true => simp [taken, hok] at htaken
    have hfalls : fallsBack (errorMessage S (pageJson S answer.json)) = true := by
      have hmessage : errorMessage S (pageJson S answer.json) = errorMessage S answer.json := by
        unfold errorMessage
        rw [pageJson_get _ (by decide)]
      rw [hmessage]
      simpa [ServedRefresh, hfails] using h
    dsimp only
    rw [bind_ok hreceive, hfails, if_neg Bool.false_ne_true, if_pos hfalls]
    obtain ⟨t'', hr, hmore⟩ := hiframe t'
    exact ⟨t'', hr, hleaves.trans hmore⟩

/-- The worker is asked, or the token of the cache is there. -/
theorem tokenFor_eq {refresh_token : Value} {t : Tab}
    (h : ¬ (!refresh_token.truthy && !S.hasWorker) = true) :
    tokenFor S o refresh_token t = .ok (refreshToken S o refresh_token t.refreshTokens) t := by
  have htoken : (if S.hasWorker then
      Worker.request t.refreshTokens (workerAudience o) (o.get "scope") refresh_token
      else some refresh_token) = refreshToken S o refresh_token t.refreshTokens := by
    unfold refreshToken
    cases hw : S.hasWorker with
    | true => rfl
    | false =>
      have htruthy : refresh_token.truthy = true := by simpa [hw] using h
      rw [if_pos htruthy]
  rw [← htoken]
  rfl

section UsingRefreshToken

variable {t : Tab} {e : CacheEntry} {json : Obj}

/-- Without a token there is no refresh request. -/
theorem refreshResponse_none (hnone : refreshToken S (S.client.refreshOptions o)
    (refreshLook S w o t.store).2 t.refreshTokens = none) :
    refreshResponse S w o t.store t.refreshTokens = none := by
  unfold refreshResponse refreshRequest
  dsimp only
  rw [hnone, Option.isSome_none, Bool.and_false]
  rfl

theorem refreshRequest_some (huse : S.useRefreshTokens = true) {token : Value}
    (htoken : refreshToken S (S.client.refreshOptions o) (refreshLook S w o t.store).2
      t.refreshTokens = some token) :
    refreshRequest S w o t.store t.refreshTokens =
      some (S.client.refreshTokenOptions S.browser (S.client.refreshOptions o)
        (refreshLook S w o t.store).2) := by
  unfold refreshRequest
  dsimp only
  rw [htoken, huse]
  rfl

/-- Without a response to a refresh the entry is that of the iframe. -/
theorem fetched_iframe (huse : S.useRefreshTokens = true)
    (haccept : S.client.finishIframe S.browser w.clock (S.client.refreshOptions o) w.draws.secrets
      w.orgIdHint (tokenResult S json) = .ok e)
    (hnone : refreshResponse S w o t.store t.refreshTokens = none) :
    Fetched S w o json t.store t.refreshTokens e json := by
  unfold Fetched iframeOptions
  rw [hnone, if_pos huse]
  exact ⟨rfl, haccept⟩

/-- `_getTokenUsingRefreshToken` has read the cache and comes to the entry of the response
it gets. -/
theorem getTokenUsingRefreshToken_ok (huse : S.useRefreshTokens = true)
    (haccept : S.client.finishIframe S.browser w.clock (S.client.refreshOptions o) w.draws.secrets
      w.orgIdHint (tokenResult S json) = .ok e)
    (hiframe : Comes (getTokenFromIFrame S w (S.client.refreshOptions o)) e json)
    (hrefresh : ∀ request, refreshRequest S w o t.store t.refreshTokens = some request →
      ∃ answer, w.refreshAnswer request = some answer ∧ ServedRefresh S w answer) :
    ∃ e r t', getTokenUsingRefreshToken S w o t = .ok (e, r) t' ∧
      Leaves { t with store := (refreshLook S w o t.store).1 } t' ∧
      Fetched S w o json t.store t.refreshTokens e r := by
  set o' := S.client.refreshOptions o
  set t₁ : Tab := { t with store := (refreshLook S w o t.store).1 }
  set refresh_token := (refreshLook S w o t.store).2
  have hcache : cacheGet S (S.client.requestKey o') (.fin 0) w.refreshNow t =
      .ok (S.manager.get (S.client.requestKey o') (.fin 0) w.refreshNow t.store).2 t₁ := rfl
  unfold getTokenUsingRefreshToken
  dsimp only
  rw [bind_ok hcache]
  show ∃ e r t', (if !refresh_token.truthy && !S.hasWorker then getTokenFromIFrame S w o'
    else refresh S w o' refresh_token) t₁ = _ ∧ _
  have hnorequest (hnone : refreshToken S o' refresh_token t.refreshTokens = none) :
      Fetched S w o json t.store t.refreshTokens e json :=
    fetched_iframe huse haccept (refreshResponse_none hnone)
  split
  next hmissing =>
    obtain ⟨t', hr, hleaves⟩ := hiframe t₁
    refine ⟨e, json, t', hr, hleaves, hnorequest ?_⟩
    obtain ⟨htoken, hworker⟩ : refresh_token.truthy = false ∧ S.hasWorker = false := by
      simpa using hmissing
    unfold refreshToken
    rw [hworker, htoken]
    rfl
  next hpresent =>
    unfold refresh
    rw [bind_ok (tokenFor_eq (t := t₁) hpresent)]
    cases htoken : refreshToken S o' refresh_token t₁.refreshTokens with
    | none =>
      obtain ⟨t', hr, hleaves⟩ := hiframe t₁
      exact ⟨e, json, t', hr, hleaves, hnorequest htoken⟩
    | some token =>
      have hrequest : refreshRequest S w o t.store t.refreshTokens =
          some (S.client.refreshTokenOptions S.browser o' refresh_token) :=
        refreshRequest_some huse htoken
      obtain ⟨answer, hanswer, hserved⟩ := hrefresh _ hrequest
      have hsent : Leaves t₁
          { t₁ with log := t₁.log ++ List.replicate (w.resent + 1) (.sent token) } :=
        Leaves.noted t₁ (by simp) (by simp)
      have hresponse : refreshResponse S w o t.store t.refreshTokens = taken answer := by
        unfold refreshResponse
        rw [hrequest, Option.bind_some, hanswer, Option.bind_some]
      dsimp only
      rw [bind_ok (send_apply token w.resent t₁), hanswer]
      show ∃ e r t', refreshed S w o' answer _ = _ ∧ _
      cases htaken : taken answer with
      | some r =>
        obtain ⟨e', haccept', hcomes⟩ := refreshed_taken (o := o') hserved htaken
        obtain ⟨t', hr, hleaves⟩ := hcomes { t₁ with
          log := t₁.log ++ List.replicate (w.resent + 1) (.sent token) }
        refine ⟨e', r, t', hr, hsent.trans hleaves, ?_⟩
        unfold Fetched
        rw [hresponse, htaken]
        exact ⟨rfl, haccept'⟩
      | none =>
        obtain ⟨t', hr, hleaves⟩ := refreshed_refused hserved htaken hiframe { t₁ with
          log := t₁.log ++ List.replicate (w.resent + 1) (.sent token) }
        exact ⟨e, json, t', hr, hsent.trans hleaves,
          fetched_iframe huse haccept (hresponse.trans htaken)⟩

end UsingRefreshToken

/-! ### The whole call -/

/-- What the tokens are stored into: the cache after all looks into it. -/
def readStore (S : Setup) (w : Surroundings) (o : Obj) (s : Cache.Store) : Cache.Store :=
  if S.useRefreshTokens then (refreshLook S w o s).1 else s

/-- The tokens of a call that is served. -/
theorem fetches {g : CodeGrant} {code : String} {json : Obj} (t : Tab)
    (hiframe : ServedIframe S w (iframeOptions S o) g code json)
    (hrefresh : ∀ request, refreshRequest S w o t.store t.refreshTokens = some request →
      ∃ answer, w.refreshAnswer request = some answer ∧ ServedRefresh S w answer) :
    ∃ e r t', (if S.useRefreshTokens then getTokenUsingRefreshToken S w o
        else getTokenFromIFrame S w o) t = .ok (e, r) t' ∧
      Leaves { t with store := readStore S w o t.store } t' ∧
      Fetched S w o json t.store t.refreshTokens e r := by
  obtain ⟨e, haccept, hcomes⟩ := getTokenFromIFrame_ok hiframe
  unfold iframeOptions at haccept hcomes
  unfold readStore
  cases huse : S.useRefreshTokens with
  | true =>
    rw [huse, if_pos rfl] at haccept hcomes
    exact getTokenUsingRefreshToken_ok huse haccept hcomes hrefresh
  | false =>
    rw [huse, if_neg Bool.false_ne_true] at haccept hcomes
    obtain ⟨t', hr, hleaves⟩ := hcomes t
    refine ⟨e, json, t', hr, hleaves, ?_⟩
    unfold Fetched refreshResponse refreshRequest iframeOptions
    rw [huse]
    exact ⟨rfl, haccept⟩

/-- The access token of an entry is that of its response. -/
theorem Fetched.access_token {json r : Obj} {s : Cache.Store} {refreshTokens : RefreshTokens}
    {e : CacheEntry} (h : Fetched S w o json s refreshTokens e r) :
    e.access_token = r.get "access_token" := by
  suffices htokens : TokensOf (tokenResult S r) e from
    htokens.access_token.trans (tokenResult_get r (by decide) (by decide))
  unfold Fetched at h
  split at h
  · exact finishRefresh_tokens h.2
  · exact finishIframe_tokens h.2

end Calls

/-! ## Requests of a concrete client -/

theorem named_popup : (CodeRequest.waiting (.popup [] Session.popupDraws.secrets)).Named
    (sampleClient false) (sampleSetup false false).browser "client" "https://app" where
  client := rfl
  call := by decide
  redirect_uri := rfl

/-- A chatty window, a look at the popup, the answer, a late timeout. -/
theorem popup_login_sample :
    ∃ g e, Login.loginWithPopup sampleCookies (sampleSetup false false) answeringOutside [] true
      Session.popupDraws ([.message ⟨"https://other", .null, true⟩, .poll false] ++
        .message (CodeGrant.webMessage g "https://idp" "code") :: [.timeout]) emptyData =
          .ok ⟨⟩ (loggedIn sampleCookies (sampleSetup false false) e sampleClock.nowProvider 0
            emptyData) ∧
      e.decodedToken = drawnClaims.decoded := by
  obtain ⟨url, hurl⟩ := sampleClient_url false ((sampleClient false).popupQuery
    (sampleSetup false false).browser [] Session.popupDraws.secrets)
  have hidle : ∀ a ∈ ([.message ⟨"https://other", .null, true⟩, .poll false] :
      List Windows.Popup.Event), a.Idle := by
    intro a ha
    rcases List.mem_cons.mp ha with rfl | ha
    · rfl
    · obtain rfl := List.mem_singleton.mp ha
      rfl
  have hverify : (sampleSetup false false).client.verifyIdToken sampleClock
      (.str drawnClaims.token) (.str Session.popupDraws.secrets.nonceIn) .undefined =
        .ok drawnClaims.decoded :=
    IssuedClaims.verify_token _ rfl (by decide) (by decide) rfl (by decide) (fun _ => rfl)
      (fun h => by cases h) rfl (fun h => by cases h) (fun h => by cases h)
  obtain ⟨e, -, he, hrun⟩ := popup_login_completes sampleCookies (sampleSetup false false)
    answeringOutside named_popup sampleClient_domain hurl
    (named_popup.ofUrl sampleClient_domain hurl) "code" hidle _ (fun _ _ _ _ => rfl) hverify rfl rfl
    emptyData
  exact ⟨_, e, hrun, he⟩

namespace Calls

end Calls

end AuthokSpa
