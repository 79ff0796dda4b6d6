import AuthokSpa.Client.Bodies
import AuthokSpa.Client.CodeFlow
import AuthokSpa.Client.Login
import AuthokSpa.Follow
import AuthokSpa.Jwt.Decode

/-!
# A login against a server (`AuthokClient.ts`, `utils.ts`, `api.ts`)

What the client writes is read by the authorization server, and what the server
writes by the client. The server here is any that keeps to the authorization code
flow with PKCE: it reads queries and forms as `URLSearchParams` does and JSON as
`JSON.parse` does, sends its code and the state back to the redirect URI, and
exchanges the code for the client, the redirect URI and the verifier it was asked
for with. Nothing else is known of it.

Such a server finds in the URL of a flow what the flow has drawn, and honours the
token request of the flow (`exchange_honoured`). So a redirect login completes
whenever the ID token is one that `verify` accepts (`callback_completes`).

A server that sends the state back as it is, with the `=` of its padding, does not
get that far (`raw_state_refused`).
-/

namespace AuthokSpa

open Js (Value Obj ProtoObj OrdMap)

/-! ## The server -/

/-- What a server remembers of an authorization request. -/
structure CodeGrant where
  client_id : String
  redirect_uri : String
  state : String
  nonce : String
  code_challenge : String

namespace CodeGrant

/-- The query of a URL, as `URLSearchParams` reads it. -/
def queryOf (url : String) : List (String × String) :=
  Js.formParse (String.ofList ((url.toList.dropWhile fun c => c ≠ '?').drop 1))

/-- A request for a code with a challenge. -/
def ofUrl (url : String) : Option CodeGrant := do
  let query := queryOf url
  guard (query.lookup "response_type" = some "code")
  guard (query.lookup "code_challenge_method" = some "S256")
  some
    { client_id := ← query.lookup "client_id"
      redirect_uri := ← query.lookup "redirect_uri"
      state := ← query.lookup "state"
      nonce := ← query.lookup "nonce"
      code_challenge := ← query.lookup "code_challenge" }

/-- Where the browser is sent with the code. -/
def callback (g : CodeGrant) (code : String) : String :=
  g.redirect_uri ++ ("?" ++ createQueryParams (textObj [("code", code), ("state", g.state)]))

/-- The same with the state as it came. -/
def rawCallback (g : CodeGrant) (code : String) : String :=
  g.redirect_uri ++ ("?" ++ ("code=" ++ (Js.encodeURIComponent code ++ ("&state=" ++ g.state))))

end CodeGrant

/-- The members of the body of a token request. -/
def TokenRequest.members (r : TokenRequest) : Obj :=
  if r.contentType = "application/json" then
    match Js.parse r.body with
    | some (.obj o) => o
    | _ => []
  else textObj (Js.formParse r.body)

/-- The server gives tokens for this request: it is about the grant and its code, and
the verifier is the one of the challenge. -/
structure CodeGrant.Honours (sha256 : String → List UInt8) (g : CodeGrant) (code : String)
    (r : TokenRequest) : Prop where
  grant_type : r.members.get "grant_type" = .str "authorization_code"
  code : r.members.get "code" = .str code
  client_id : r.members.get "client_id" = .str g.client_id
  redirect_uri : r.members.get "redirect_uri" = .str g.redirect_uri
  code_verifier : ∃ v, r.members.get "code_verifier" = .str v ∧
    Js.atobChars (Js.urlDecodeChars g.code_challenge.toList) = some (sha256 v)

/-! ## Reading a query -/

theorem find_of_get {o : Obj} {k s : String} (h : o.get k = .str s) :
    OrdMap.find o k = some (.str s) := by
  unfold Obj.get at h
  cases hfind : OrdMap.find o k with
  | none =>
    rw [hfind] at h
    cases h
  | some v =>
    rw [hfind] at h
    exact congrArg some h

/-- A text is read as it was given, whatever else is in the query. -/
theorem lookup_textPairs {k s : String} : ∀ {o : Obj}, OrdMap.find o k = some (.str s) →
    (textPairs (definedMembers o)).lookup k = some s
  | [], h => by cases h
  | (k', v) :: o, h => by
    rw [OrdMap.find_cons] at h
    by_cases hk : k' = k
    · obtain rfl : v = .str s := by simpa [hk] using h
      subst hk
      show List.lookup k' ((k', (Value.str s).text) :: _) = some s
      rw [List.lookup_cons_self, Value.text_str]
    · rw [if_neg hk] at h
      have ih := lookup_textPairs h
      have hne : (k == k') = false := by simpa using fun heq => hk (Eq.symm heq)
      cases hv : v.isUndefined with
      | true =>
        rw [show definedMembers ((k', v) :: o) = definedMembers o from
          List.filter_cons_of_neg (by simp [hv])]
        exact ih
      | false =>
        rw [show definedMembers ((k', v) :: o) = (k', v) :: definedMembers o from
          List.filter_cons_of_pos (by simp [hv])]
        show List.lookup k ((k', v.text) :: textPairs (definedMembers o)) = some s
        rw [List.lookup_cons, hne]
        exact ih

theorem joinWith_append (c : Char) : ∀ {xs : List (List Char)}, xs ≠ [] → ∀ ys : List (List Char),
    Js.joinWith c (xs ++ ys) = Js.joinWith c xs ++ ys.flatMap fun y => c :: y
  | [], h, _ => (h rfl).elim
  | [x], _, ys => by
    induction ys generalizing x with
    | nil => exact (List.append_nil x).symm
    | cons y ys ih =>
      show x ++ c :: Js.joinWith c ([y] ++ ys) = x ++ (c :: y ++ ys.flatMap fun y => c :: y)
      rw [ih y (List.cons_ne_nil _ _)]
      rfl
  | x :: y :: zs, _, ys => by
    have ih := joinWith_append c (List.cons_ne_nil y zs) ys
    show x ++ c :: Js.joinWith c (y :: zs ++ ys) = x ++ c :: Js.joinWith c (y :: zs) ++ _
    rw [ih, List.append_assoc, List.cons_append]

theorem mem_joinWith {c x : Char} : ∀ {pieces : List (List Char)}, x ∈ Js.joinWith c pieces →
    x = c ∨ ∃ p ∈ pieces, x ∈ p
  | [], h => by cases h
  | [p], h => Or.inr ⟨p, List.mem_singleton_self p, h⟩
  | p :: q :: pieces, h => by
    rw [Js.joinWith, List.mem_append, List.mem_cons] at h
    rcases h with hp | hc | hrest
    · exact Or.inr ⟨p, List.mem_cons_self, hp⟩
    · exact Or.inl hc
    · rcases mem_joinWith hrest with hc | ⟨r, hr, hin⟩
      · exact Or.inl hc
      · exact Or.inr ⟨r, List.mem_cons_of_mem _ hr, hin⟩

/-- A query put together from pieces; empty ones do not count. -/
theorem formParse_pieces {pieces : List (List Char)} (hne : pieces ≠ [])
    (h : ∀ p ∈ pieces, '&' ∉ p ∧ '?' ∉ p) :
    Js.formParse (String.ofList (Js.joinWith '&' pieces)) =
      (pieces.filter fun p => p ≠ []).map Js.formPairChars := by
  have hhead : (Js.joinWith '&' pieces).head? ≠ some '?' := by
    intro hhead
    rcases mem_joinWith (List.mem_of_mem_head? hhead) with hc | ⟨p, hp, hin⟩
    · exact absurd hc (by decide)
    · exact (h p hp).2 hin
  rw [Js.formParse_chars, String.toList_ofList, if_neg hhead,
    Js.splitOn_joinWith hne fun p hp => (h p hp).1]

theorem formPairChars_paramChars (p : String × String) : Js.formPairChars (paramChars p) = p := by
  unfold paramChars
  rw [Js.formPairChars_append (Js.not_mem_encodeChars (by decide) (by decide) _),
    Js.formText_encodeChars, Js.formText_encodeChars, String.ofList_toList, String.ofList_toList]

/-- What stands behind the first `?` of a URL. -/
theorem CodeGrant.queryOf_text {front text : List Char} (hfront : '?' ∉ front) {url : String}
    (hurl : url.toList = front ++ '?' :: text) :
    CodeGrant.queryOf url = Js.formParse (String.ofList text) := by
  have hcut : ∀ c ∈ front, decide (c ≠ '?') = true :=
    fun c hc => decide_eq_true fun heq => hfront (heq ▸ hc)
  unfold CodeGrant.queryOf
  rw [hurl, List.dropWhile_append_of_pos hcut, List.dropWhile_cons_of_neg (by decide),
    List.drop_one, List.tail_cons]

/-- `_url`. -/
def AuthokClient.url (c : AuthokClient) (path : String) : Option String := do
  let authokClient ← clientInfo (c.options.get "authokClient")
  some (c.domainUrl ++ (path ++ ("&authokClient=" ++ Js.encodeURIComponent authokClient)))

theorem AuthokClient.authorizeUrl_eq (c : AuthokClient) (o : Obj) :
    c.authorizeUrl o = c.url ("/authorize?" ++ createQueryParams o) := by
  unfold AuthokClient.authorizeUrl AuthokClient.url
  simp only [String.append_assoc]

/-- The pieces of a query string; one without members is an empty piece. -/
def queryPieces (query : Obj) : List (List Char) :=
  if definedMembers query = [] then [[]] else (textPairs (definedMembers query)).map paramChars

theorem queryPieces_ne_nil (query : Obj) : queryPieces query ≠ [] := by
  unfold queryPieces
  split
  · exact List.cons_ne_nil _ _
  next h => simpa [textPairs] using h

theorem joinWith_queryPieces (query : Obj) : Js.joinWith '&' (queryPieces query) = queryChars query := by
  unfold queryPieces
  rw [queryChars_defined]
  split
  next h => rw [h]; rfl
  · rfl

theorem filter_queryPieces (query : Obj) : ((queryPieces query).filter fun p => p ≠ []).map
    Js.formPairChars = textPairs (definedMembers query) := by
  unfold queryPieces
  split
  next h => rw [h]; rfl
  · have hkeep : ∀ p ∈ (textPairs (definedMembers query)).map paramChars,
        decide (p ≠ []) = true := by
      intro p hp
      obtain ⟨q, -, rfl⟩ := List.mem_map.mp hp
      exact decide_eq_true (by simp [paramChars])
    rw [List.filter_eq_self.mpr hkeep, List.map_map]
    exact (List.map_congr_left fun q _ => formPairChars_paramChars q).trans (List.map_id _)

theorem queryPieces_free {query : Obj} : ∀ p ∈ queryPieces query, '&' ∉ p ∧ '?' ∉ p := by
  intro p hp
  unfold queryPieces at hp
  split at hp
  · obtain rfl := List.mem_singleton.mp hp
    exact ⟨List.not_mem_nil, List.not_mem_nil⟩
  · obtain ⟨q, -, rfl⟩ := List.mem_map.mp hp
    exact ⟨not_mem_paramChars (by decide) (by decide) (by decide) q,
      not_mem_paramChars (by decide) (by decide) (by decide) q⟩

/-- **The query of a URL of the client**: the parameters, the client's name, and what is
appended to it. -/
theorem queryOf_url {c : AuthokClient} (path : String) {query : Obj} {url info : String}
    (hdomain : '?' ∉ c.domainUrl.toList) (hpath : '?' ∉ path.toList)
    (hinfo : clientInfo (c.options.get "authokClient") = some info)
    (hurl : c.url (path ++ ("?" ++ createQueryParams query)) = some url) (more : List (List Char))
    (hmore : ∀ p ∈ more, '&' ∉ p ∧ '?' ∉ p) :
    CodeGrant.queryOf (url ++ String.ofList (more.flatMap fun p => '&' :: p)) =
      textPairs (definedMembers query) ++ ("authokClient", info) ::
        (more.filter fun p => p ≠ []).map Js.formPairChars := by
  set pieces := queryPieces query ++ paramChars ("authokClient", info) :: more with hpieces
  have hfront : '?' ∉ (c.domainUrl ++ path).toList := by
    rw [String.toList_append, List.mem_append]
    exact fun h => h.elim hdomain hpath
  have htext : (url ++ String.ofList (more.flatMap fun p => '&' :: p)).toList =
      (c.domainUrl ++ path).toList ++ '?' :: Js.joinWith '&' pieces := by
    have hname : Js.encodeChars "authokClient".toList = "authokClient".toList := by decide
    unfold AuthokClient.url at hurl
    rw [hinfo] at hurl
    obtain rfl := Option.some.inj hurl
    rw [hpieces, joinWith_append '&' (queryPieces_ne_nil query), joinWith_queryPieces]
    unfold createQueryParams Js.encodeURIComponent paramChars
    rw [hname]
    simp
  have hfree : ∀ p ∈ pieces, '&' ∉ p ∧ '?' ∉ p := by
    intro p hp
    rcases List.mem_append.mp hp with hp | hp
    · exact queryPieces_free p hp
    · rcases List.mem_cons.mp hp with rfl | hp
      · exact ⟨not_mem_paramChars (by decide) (by decide) (by decide) _,
          not_mem_paramChars (by decide) (by decide) (by decide) _⟩
      · exact hmore p hp
  have hparam : decide (paramChars ("authokClient", info) ≠ []) = true :=
    decide_eq_true (by simp [paramChars])
  rw [CodeGrant.queryOf_text hfront htext, formParse_pieces (by simp [hpieces]) hfree, hpieces,
    List.filter_append, List.map_append, filter_queryPieces,
    List.filter_cons_of_pos (p := fun p => decide (p ≠ [])) hparam, List.map_cons,
    formPairChars_paramChars]

/-- The query of an `/authorize` URL has the parameters, and one more. -/
theorem queryOf_authorizeUrl {c : AuthokClient} {query : Obj} {url : String}
    (hdomain : '?' ∉ c.domainUrl.toList) (hurl : c.authorizeUrl query = some url) :
    ∃ info, CodeGrant.queryOf url = textPairs (definedMembers query) ++ [("authokClient", info)] := by
  obtain ⟨info, hinfo, -⟩ := Option.bind_eq_some_iff.mp hurl
  rw [AuthokClient.authorizeUrl_eq] at hurl
  have hquery := queryOf_url "/authorize" hdomain (by decide) hinfo hurl []
    fun p hp => (List.not_mem_nil hp).elim
  rw [List.flatMap_nil, String.ofList_nil, String.append_empty] at hquery
  exact ⟨info, hquery⟩

/-- What is given as a text in the parameters is read back from the URL. -/
theorem lookup_queryOf {c : AuthokClient} {query : Obj} {url : String}
    (hdomain : '?' ∉ c.domainUrl.toList) (hurl : c.authorizeUrl query = some url) {k s : String}
    (hk : query.get k = .str s) : (CodeGrant.queryOf url).lookup k = some s := by
  have hlookup := lookup_textPairs (find_of_get hk)
  obtain ⟨info, hquery⟩ := queryOf_authorizeUrl hdomain hurl
  rw [hquery, List.lookup_append, hlookup]
  rfl

/-! ## Flows -/

/-- A flow that asks for a code. -/
inductive CodeRequest where
  | redirect (options : Obj) (x : Secrets)
  | waiting (w : Waiting)

namespace CodeRequest

variable (c : AuthokClient) (b : Browser)

def secrets : CodeRequest → Secrets
  | redirect _ x => x
  | waiting w => w.secrets

/-- The options of the call. -/
def options : CodeRequest → Obj
  | redirect options _ => options
  | waiting (.popup options _) => options
  | waiting (.iframe options _ _) => options

/-- The parameters of its `/authorize` URL. -/
def query : CodeRequest → Obj
  | redirect options x => c.redirectParams b options x
  | waiting w => w.query c b

/-- The options of its token request. -/
def tokenOptions (code : Value) : CodeRequest → Obj
  | redirect options x => c.redirectTokenOptions (c.redirectTransaction b options x) code
  | waiting w => w.tokenOptions c b code

/-- A flow of a client with a client id of its own, which the call leaves alone, and
a redirect URI. -/
structure Named (r : CodeRequest) (client_id redirect_uri : String) : Prop where
  client : c.options.get "client_id" = .str client_id
  call : "client_id" ∉ OrdMap.keys r.options
  redirect_uri : (r.query c b).get "redirect_uri" = .str redirect_uri

variable {c b} {r : CodeRequest} {client_id redirect_uri : String}

/-- What a server looks for in a query. -/
def requestNames : List String :=
  ["response_type", "code_challenge_method", "client_id", "state", "nonce", "code_challenge"]

structure Carries (b : Browser) (x : Secrets) (client_id : String) (params : Obj) : Prop where
  response_type : params.get "response_type" = .str "code"
  code_challenge_method : params.get "code_challenge_method" = .str "S256"
  client_id : params.get "client_id" = .str client_id
  state : params.get "state" = .str x.stateIn
  nonce : params.get "nonce" = .str x.nonceIn
  code_challenge : params.get "code_challenge" =
    .str (bufferToBase64UrlEncoded (b.sha256 x.code_verifier))

theorem Carries.congr {x : Secrets} {params params' : Obj} (h : Carries b x client_id params)
    (hget : ∀ k ∈ requestNames, params'.get k = params.get k) : Carries b x client_id params' := by
  have hnames : ∀ k, requestNames.contains k = true → params'.get k = params.get k :=
    fun k hk => hget k (List.contains_iff_mem.mp hk)
  exact
    { response_type := (hnames _ rfl).trans h.response_type
      code_challenge_method := (hnames _ rfl).trans h.code_challenge_method
      client_id := (hnames _ rfl).trans h.client_id
      state := (hnames _ rfl).trans h.state
      nonce := (hnames _ rfl).trans h.nonce
      code_challenge := (hnames _ rfl).trans h.code_challenge }

/-- `_getParams` sets all but the client id, which it takes from the client. -/
theorem carries_getParams {options : Obj} (hclient : c.options.get "client_id" = .str client_id)
    (hcall : "client_id" ∉ OrdMap.keys options) (x : Secrets) (uri : Value) :
    Carries b x client_id (c.getParams b options x uri) where
  response_type := Js.Obj.get_spread_of_find rfl
  code_challenge_method := Js.Obj.get_spread_of_find rfl
  client_id := by
    unfold AuthokClient.getParams
    rw [Js.Obj.get_spread_of_not_mem, Js.Obj.get_spread_of_not_mem hcall,
      Js.Obj.get_without (by decide), hclient]
    show "client_id" ∉ ["scope", "response_type", "response_mode", "state", "nonce", "redirect_uri",
      "code_challenge", "code_challenge_method"]
    decide
  state := Js.Obj.get_spread_of_find rfl
  nonce := Js.Obj.get_spread_of_find rfl
  code_challenge := Js.Obj.get_spread_of_find rfl

theorem not_mem_without {o : Obj} {k : String} (h : k ∉ OrdMap.keys o) (ks : List String) :
    k ∉ OrdMap.keys (Obj.without o ks) := fun hmem => h (Js.Obj.mem_keys_without.mp hmem).1

/-- The query of the popup and of the iframe has other members besides. -/
theorem requestNames_apart : ∀ k ∈ requestNames,
    k ∉ ["response_mode"] ∧ k ∉ ["prompt", "response_mode"] ∧ "organization" ≠ k := by
  decide

theorem iframeParams_get {options : Obj} {x : Secrets} {orgIdHint : Value} {k : String}
    (hk : "organization" ≠ k) :
    (c.iframeParams b options x orgIdHint).get k =
      (c.getParams b (options.without ["detailedResponse"]) x
        (c.silentRedirectUri b options)).get k := by
  unfold AuthokClient.iframeParams
  dsimp only
  split
  · exact Js.Obj.get_set_ne hk
  · rfl

theorem Named.carries (h : r.Named c b client_id redirect_uri) :
    Carries b r.secrets client_id (r.query c b) := by
  cases r with
  | redirect options x =>
    exact carries_getParams h.client (not_mem_without h.call ["redirect_uri", "appState"]) x
      (options.get "redirect_uri")
  | waiting w =>
    cases w with
    | popup options x =>
      refine (carries_getParams h.client h.call x
        ((c.options.get "redirect_uri").or (.str b.origin))).congr fun k hk => ?_
      exact Js.Obj.get_spread_of_not_mem (requestNames_apart k hk).1
    | iframe options x orgIdHint =>
      refine (carries_getParams h.client (not_mem_without h.call ["detailedResponse"]) x
        (c.silentRedirectUri b options)).congr fun k hk => ?_
      obtain ⟨-, hquery, hparams⟩ := requestNames_apart k hk
      exact (Js.Obj.get_spread_of_not_mem hquery).trans (iframeParams_get hparams)

/-- The request as the server has to remember it. -/
def grant (b : Browser) (r : CodeRequest) (client_id redirect_uri : String) : CodeGrant where
  client_id := client_id
  redirect_uri := redirect_uri
  state := r.secrets.stateIn
  nonce := r.secrets.nonceIn
  code_challenge := bufferToBase64UrlEncoded (b.sha256 r.secrets.code_verifier)

/-- **A server reads the URL of a flow**: it finds the client, the redirect URI and
what the flow has drawn. -/
theorem Named.ofUrl (h : r.Named c b client_id redirect_uri) (hdomain : '?' ∉ c.domainUrl.toList)
    {url : String} (hurl : c.authorizeUrl (r.query c b) = some url) :
    CodeGrant.ofUrl url = some (r.grant b client_id redirect_uri) := by
  have hread := fun {k s : String} (hk : (r.query c b).get k = .str s) =>
    lookup_queryOf hdomain hurl hk
  obtain ⟨htype, hmethod, hclient, hstate, hnonce, hchallenge⟩ := h.carries
  unfold CodeGrant.ofUrl
  dsimp only
  rw [hread htype, hread hmethod, hread hclient, hread h.redirect_uri, hread hstate, hread hnonce,
    hread hchallenge]
  rfl

/-! ### The token request -/

/-- The options of the token request name the flow. -/
structure Asks (c : AuthokClient) (x : Secrets) (client_id redirect_uri code : String)
    (options : Obj) : Prop where
  grant_type : options.get "grant_type" = .str "authorization_code"
  client_id : options.get "client_id" = .str client_id
  redirect_uri : options.get "redirect_uri" = .str redirect_uri
  code_verifier : options.get "code_verifier" = .str x.code_verifier
  authokClient : options.get "authokClient" = c.options.get "authokClient"
  code : options.get "code" = .str code

/-- The token options of a redirect with a redirect URI. -/
theorem redirectTokenOptions_eq {t : AuthokClient.Transaction} {uri : String}
    (h : t.redirect_uri = .str uri) (code : Value) :
    c.redirectTokenOptions t code =
      [("audience", t.audience), ("scope", t.scope), ("baseUrl", .str c.domainUrl),
        ("client_id", c.options.get "client_id"), ("code_verifier", t.code_verifier),
        ("grant_type", .str "authorization_code"), ("code", code),
        ("authokClient", c.options.get "authokClient"),
        ("useFormData", c.options.get "useFormData"), ("redirect_uri", .str uri)] := by
  unfold AuthokClient.redirectTokenOptions
  rw [h]
  rfl

theorem redirectTransaction_uri {options : Obj} {x : Secrets}
    (h : (c.redirectParams b options x).get "redirect_uri" = .str redirect_uri) :
    (c.redirectTransaction b options x).redirect_uri = .str redirect_uri := by
  unfold AuthokClient.redirectTransaction
  exact h

theorem Named.asks (h : r.Named c b client_id redirect_uri) (code : String) :
    Asks c r.secrets client_id redirect_uri code (r.tokenOptions c b (.str code)) := by
  have huri := h.redirect_uri
  cases r with
  | redirect options x =>
    have hoptions := redirectTokenOptions_eq (c := c) (redirectTransaction_uri huri) (.str code)
    show Asks c x client_id redirect_uri code (c.redirectTokenOptions _ _)
    rw [hoptions]
    exact ⟨rfl, h.client, rfl, rfl, rfl, rfl⟩
  | waiting w =>
    obtain ⟨hverifier, hredirect⟩ := Session.tokenOptions_get c b w (.str code)
    cases w with
    | popup options x => exact ⟨rfl, h.client, hredirect.trans huri, hverifier, rfl, rfl⟩
    | iframe options x orgIdHint =>
      exact ⟨Js.Obj.get_spread_of_find rfl, (Js.Obj.get_spread_of_find rfl).trans h.client,
        hredirect.trans huri, hverifier, Js.Obj.get_spread_of_find rfl,
        Js.Obj.get_spread_of_find rfl⟩

/-- The body of a request of texts says what the options say. -/
theorem members_get {options : Obj} (hflat : Flat (options.without transportNames))
    {request : TokenRequest} (hrequest : oauthToken options = some request) {k : String}
    (hk : k ∉ transportNames) : request.members.get k = options.get k := by
  obtain ⟨info, -, hmade⟩ := Option.bind_eq_some_iff.mp hrequest
  obtain rfl := Option.some.inj hmade
  have hmembers : TokenRequest.members
      { url := (options.get "baseUrl").text ++ "/oauth/token"
        timeout := options.get "timeout"
        audience := (options.get "audience").or (.str "default")
        scope := options.get "scope"
        body := String.ofList (tokenBodyChars options)
        contentType :=
          if (options.get "useFormData").truthy then "application/x-www-form-urlencoded"
          else "application/json"
        authokClient := info } = definedMembers (options.without transportNames) := by
    unfold TokenRequest.members
    dsimp only
    rw [tokenBody_eq]
    cases (options.get "useFormData").truthy with
    | true =>
      rw [if_pos rfl, if_pos rfl, if_neg (by decide), formParse_createQueryParams,
        textObj_textPairs hflat.texts_defined]
    | false =>
      rw [if_neg Bool.false_ne_true, if_neg Bool.false_ne_true, if_pos rfl, parse_jsonBody hflat]
  rw [hmembers, get_definedMembers hflat.nodup, Js.Obj.get_without hk]

/-- The options that are not sent in the body. -/
theorem askNames_apart : ∀ k ∈ ["grant_type", "code", "client_id", "redirect_uri", "code_verifier"],
    k ∉ transportNames := by
  decide

/-- The token request of a flow says what its grant says. -/
theorem Named.honours (h : r.Named c b client_id redirect_uri) {code : String}
    (hflat : Flat ((r.tokenOptions c b (.str code)).without transportNames)) {info : String}
    (hinfo : clientInfo (c.options.get "authokClient") = some info) :
    ∃ request, oauthToken (r.tokenOptions c b (.str code)) = some request ∧
      (r.grant b client_id redirect_uri).Honours b.sha256 code request := by
  have hasks := h.asks code
  obtain ⟨request, hrequest⟩ :
      ∃ request, oauthToken (r.tokenOptions c b (.str code)) = some request := by
    unfold oauthToken
    rw [hasks.authokClient, hinfo]
    exact ⟨_, rfl⟩
  have hget := fun {k : String} (hk : k ∉ transportNames) => members_get hflat hrequest hk
  refine ⟨request, hrequest, ?_⟩
  exact
    { grant_type := (hget (askNames_apart _ (by decide))).trans hasks.grant_type
      code := (hget (askNames_apart _ (by decide))).trans hasks.code
      client_id := (hget (askNames_apart _ (by decide))).trans hasks.client_id
      redirect_uri := (hget (askNames_apart _ (by decide))).trans hasks.redirect_uri
      code_verifier := ⟨r.secrets.code_verifier,
        (hget (askNames_apart _ (by decide))).trans hasks.code_verifier,
        atob_bufferToBase64UrlEncoded _⟩ }

/-- A client that can write a URL can write its token requests. -/
theorem clientInfo_of_url {query : Obj} {url : String} (hurl : c.authorizeUrl query = some url) :
    ∃ info, clientInfo (c.options.get "authokClient") = some info := by
  obtain ⟨info, hinfo, -⟩ := Option.bind_eq_some_iff.mp hurl
  exact ⟨info, hinfo⟩

/-- **A server honours the token request of a flow** for the grant it read from the
flow's URL, whether the request is posted as JSON or as a form. -/
theorem exchange_honoured (r : CodeRequest) {client_id redirect_uri : String}
    (h : r.Named c b client_id redirect_uri) (hdomain : '?' ∉ c.domainUrl.toList) {url : String}
    (hurl : c.authorizeUrl (r.query c b) = some url) (code : String)
    (hflat : Flat ((r.tokenOptions c b (.str code)).without transportNames)) :
    ∃ g request, CodeGrant.ofUrl url = some g ∧ g.client_id = client_id ∧
      g.redirect_uri = redirect_uri ∧ g.state = r.secrets.stateIn ∧ g.nonce = r.secrets.nonceIn ∧
      oauthToken (r.tokenOptions c b (.str code)) = some request ∧
      g.Honours b.sha256 code request := by
  obtain ⟨info, hinfo⟩ := clientInfo_of_url hurl
  obtain ⟨request, hrequest, hhonours⟩ := h.honours hflat hinfo
  exact ⟨_, request, h.ofUrl hdomain hurl, rfl, rfl, rfl, rfl, hrequest, hhonours⟩

theorem flat_textObj {params : List (String × String)} (hnodup : (params.map Prod.fst).Nodup)
    (hnames : "__proto__" ∉ params.map Prod.fst) : Flat (textObj params) where
  nodup := by
    unfold OrdMap.KeysNodup
    rw [keys_textObj]
    exact hnodup
  values m hm := by
    obtain ⟨p, -, rfl⟩ := List.mem_map.mp hm
    exact Or.inr ⟨p.2, rfl⟩
  names := by
    rw [keys_textObj]
    exact hnames

/-- The token request of a redirect is one of texts. -/
theorem flat_redirect {options : Obj} {x : Secrets}
    (h : (redirect options x).Named c b client_id redirect_uri) (code : String) :
    Flat (((redirect options x).tokenOptions c b (.str code)).without transportNames) := by
  have hrest : ((redirect options x).tokenOptions c b (.str code)).without transportNames =
      textObj [("client_id", client_id), ("code_verifier", x.code_verifier),
        ("grant_type", "authorization_code"), ("code", code), ("redirect_uri", redirect_uri)] := by
    show (c.redirectTokenOptions (c.redirectTransaction b options x) _).without _ = _
    rw [redirectTokenOptions_eq (redirectTransaction_uri h.redirect_uri), h.client]
    rfl
  rw [hrest]
  exact flat_textObj (by simp) (by simp)

end CodeRequest

/-! ## The callback -/

/-- What comes after the first `?` is parsed. -/
theorem callbackParams_of_query {base query : String} (hbase : '?' ∉ base.toList)
    (hquery : '?' ∉ query.toList) :
    callbackParams (base ++ ("?" ++ query)) = parseQueryResult query := by
  have hsplit : Js.split "?" (base ++ ("?" ++ query)) = [base, query] := by
    rw [Js.split_single (c := '?') rfl, String.toList_append, String.toList_append]
    show ((base.toList ++ '?' :: query.toList).splitOn '?').map String.ofList = _
    rw [List.splitOn_append_cons_self_of_not_mem hbase, List.splitOn_eq_singleton hquery,
      List.map_cons, List.map_cons, String.ofList_toList, String.ofList_toList]
    rfl
  unfold callbackParams
  rw [hsplit]
  show parseQueryResult (String.join [query]) = _
  rw [String.join_cons]
  simp

theorem callbackParams_callback {g : CodeGrant} (huri : '?' ∉ g.redirect_uri.toList)
    (code : String) :
    callbackParams (g.callback code) =
      some { own := [("code", .str code), ("state", .str g.state)] } := by
  unfold CodeGrant.callback createQueryParams
  rw [callbackParams_of_query huri (by
    rw [String.toList_ofList]
    exact not_mem_queryChars (by decide) (by decide) (by decide) (by decide) _)]
  have hparse := @parseQueryResult_queryChars [("code", code), ("state", g.state)]
    (by simp) (by simp [Js.isUnreserved]) (by simp) (by simp) [] (Or.inl rfl)
  rw [List.append_nil] at hparse
  exact hparse

/-! ## Whole logins -/

section Logins

variable {J : Type} (A : CookieApi J)

/-- What a login leaves behind that stores this entry. -/
def loggedIn (S : Setup) (e : CacheEntry) (now : Js.Num) (cookieNow : ℚ) (s : ClientData J) :
    ClientData J :=
  let C := S.client.cookieStorage A S.browser.https
  { s with
    store := S.manager.set e now s.store
    cookies := S.client.processOrgIdHint C (e.decodedToken.claims.get "org_id") cookieNow
      (S.client.saveCookie C S.client.isAuthenticatedCookieName (.bool true) cookieNow s.cookies) }

variable {A}

theorem complete_apply {S : Setup} {out : Outside} {now : Js.Num} (hexpiry : out.expiryNow = .ok now)
    (e : CacheEntry) (s : ClientData J) :
    Login.complete A S out e s = .ok ⟨⟩ (loggedIn A S e now out.cookieNow s) := by
  unfold Login.complete Login.cache
  rw [hexpiry]
  rfl

theorem code_verifier_truthy (d : Draws) : (Value.str d.secrets.code_verifier).truthy = true := by
  have hne : createRandomString d.forVerifier ≠ "" := by
    intro h
    have hlen := createRandomString_length d.forVerifier
    rw [h] at hlen
    cases hlen
  exact decide_eq_true hne

theorem takeTransaction_apply {t : AuthokClient.Transaction} {s : ClientData J}
    (hs : s.transaction = some t) :
    Login.takeTransaction s = .ok t { s with transaction := none, storage := none } := by
  have hget : (get : LoginM J (ClientData J)) s = .ok s s := rfl
  unfold Login.takeTransaction
  rw [Follow.bind_ok hget, hs]
  rfl

/-- The callback of the flow under way passes the checks. -/
theorem checkCallback_apply {t : AuthokClient.Transaction} {code state : String}
    (hverifier : t.code_verifier.truthy = true) (hstate : t.state = .str state) (s : ClientData J) :
    Login.checkCallback { own := [("code", .str code), ("state", .str state)] } t s = .ok ⟨⟩ s := by
  have herror : ProtoObj.get { own := [("code", .str code), ("state", .str state)] } "error" =
      .undefined := rfl
  have hparam : ProtoObj.get { own := [("code", .str code), ("state", .str state)] } "state" =
      .str state := rfl
  have hsame : (Value.str state).strictEq (.str state) = true := (Value.strictEq_str _ _).mpr rfl
  unfold Login.checkCallback
  rw [herror, if_neg (by decide), hparam, hverifier, hstate, hsame, if_neg (by simp)]
  rfl

/-- **A login against a server that keeps to the protocol completes**: if the server
answers the token requests it honours, and the ID token it made for the nonce it read
is one that `verify` accepts, the callback stores the tokens, marks the session, uses up
the transaction and returns the application's state. -/
theorem callback_completes (A : CookieApi J) (S : Setup) (out : Outside) {options : Obj} {d : Draws}
    {client_id redirect_uri : String}
    (h : (CodeRequest.redirect options d.secrets).Named S.client S.browser client_id redirect_uri)
    (hdomain : '?' ∉ S.client.domainUrl.toList) (hquery : '?' ∉ redirect_uri.toList) {url : String}
    (hurl : S.client.authorizeUrl (S.client.redirectParams S.browser options d.secrets) = some url)
    (code : String) (response : Obj) {clock : Clock} {now : Js.Num} {token : DecodedToken}
    (hserver : ∀ g o request, CodeGrant.ofUrl url = some g → oauthToken o = some request →
      g.Honours S.browser.sha256 code request → out.oauthToken o = some (.ok response))
    (hissued : ∀ g, CodeGrant.ofUrl url = some g →
      S.client.verifyIdToken clock (response.get "id_token") (.str g.nonce)
        (S.client.redirectTransaction S.browser options d.secrets).organizationId = .ok token)
    (hverify : out.verifyNow = .ok clock) (hexpiry : out.expiryNow = .ok now) (s : ClientData J)
    (hs : s.transaction = some (S.client.redirectTransaction S.browser options d.secrets)) :
    ∃ g e, CodeGrant.ofUrl url = some g ∧
      S.client.finishRedirect clock (S.client.redirectTransaction S.browser options d.secrets)
        response = .ok e ∧ e.decodedToken = token ∧
      Login.handleRedirectCallback A S out (g.callback code) s =
        .ok (options.get "appState")
          (loggedIn A S e now out.cookieNow { s with transaction := none, storage := none }) := by
  set t := S.client.redirectTransaction S.browser options d.secrets with ht
  obtain ⟨info, hinfo⟩ := CodeRequest.clientInfo_of_url hurl
  obtain ⟨request, hrequest, hhonours⟩ := h.honours (CodeRequest.flat_redirect h code) hinfo
  have hg := h.ofUrl hdomain hurl
  set g := (CodeRequest.redirect options d.secrets).grant S.browser client_id redirect_uri
  have haccept : S.client.finishRedirect clock t response = _ :=
    bind_ok_iff.mpr ⟨token, hissued g hg, rfl⟩
  refine ⟨g, _, hg, haccept, rfl, ?_⟩
  set s₁ : ClientData J := { s with transaction := none, storage := none } with hs₁
  have hread : Login.readUrl (g.callback code) s =
      .ok { own := [("code", .str code), ("state", .str g.state)] } s := by
    unfold Login.readUrl
    rw [callbackParams_callback hquery]
    rfl
  have hcheck := @checkCallback_apply J t code g.state (code_verifier_truthy d) rfl s₁
  have hanswer : Login.awaited (out.oauthToken (S.client.redirectTokenOptions t (.str code))) s₁ =
      .ok response s₁ := by
    have hresponse : out.oauthToken (S.client.redirectTokenOptions t (.str code)) =
        some (.ok response) := hserver g _ request hg hrequest hhonours
    rw [hresponse]
    rfl
  have hclock : Login.clock out.verifyNow s₁ = .ok clock s₁ := by
    rw [hverify]
    rfl
  have hverified := congrArg (fun r => Login.verified r s₁) haccept
  unfold Login.handleRedirectCallback
  rw [Follow.bind_ok hread, Follow.bind_ok (takeTransaction_apply hs), Follow.bind_ok hcheck]
  show (Login.awaited (out.oauthToken (S.client.redirectTokenOptions t (.str code))) >>= _) s₁ = _
  rw [Follow.bind_ok hanswer, Follow.bind_ok hclock, Follow.bind_ok hverified,
    Follow.bind_ok (complete_apply hexpiry _ s₁)]
  rfl

/-! ## A state without escapes -/

/-- A character that base64 writes is no delimiter. -/
theorem base64Char_plain : ∀ n, n < 64 →
    Js.base64Char n ∉ ['=', '&', '#', '?', '%'] := by
  decide +kernel

theorem createRandomString_latin (v : RandomValues) :
    (createRandomString v).toList.all (fun c => c.toNat < 256) = true := by
  rw [List.all_eq_true]
  intro c hc
  unfold createRandomString at hc
  rw [String.toList_ofList] at hc
  obtain ⟨b, -, rfl⟩ := List.mem_map.mp hc
  have hlen : charset.length = 66 := by decide
  rw [hlen]
  exact decide_eq_true (charset_lt _ (by omega))

/-- A state is base64 with two characters of padding. -/
theorem encode_padded (v : RandomValues) :
    ∃ body, (encode (createRandomString v)).toList = body ++ ['=', '='] ∧
      ∀ c ∈ body, c ∉ ['=', '&', '#', '?', '%'] := by
  set bytes := (createRandomString v).toList.map fun c => UInt8.ofNat c.toNat with hbytes
  have hlen : bytes.length = 43 := by
    rw [hbytes, List.length_map, createRandomString_length]
  refine ⟨(Js.sextets bytes).map Js.base64Char, ?_, ?_⟩
  · unfold encode Js.btoa
    rw [if_pos (createRandomString_latin v), Option.getD_some, String.toList_ofList]
    unfold Js.btoaChars
    rw [← hbytes, hlen]
    rfl
  · intro c hc
    obtain ⟨x, hx, rfl⟩ := List.mem_map.mp hc
    exact base64Char_plain x (Js.sextets_lt _ x hx)

/-- A value is read up to its first `=`. -/
theorem parseParam_padded {name body rest : List Char} (hname : '=' ∉ name) (hbody : '=' ∉ body)
    (hplain : '%' ∉ body) :
    parseParam (String.ofList (name ++ '=' :: (body ++ '=' :: rest))) =
      some (String.ofList name, String.ofList body) := by
  unfold parseParam
  rw [Js.split_single (c := '=') rfl, String.toList_ofList,
    List.splitOn_append_cons_self_of_not_mem hname, List.splitOn_append_cons_self_of_not_mem hbody,
    List.map_cons, List.map_cons]
  show (Js.decodeURIComponent (String.ofList body)).map _ = _
  unfold Js.decodeURIComponent
  rw [String.toList_ofList, Js.decodeChars_of_not_mem hplain]
  rfl

/-- The callback is read with a state that has lost its padding. -/
theorem callbackParams_rawCallback {g : CodeGrant} (huri : '?' ∉ g.redirect_uri.toList)
    (code : String) {body : List Char} (hstate : g.state.toList = body ++ ['=', '='])
    (hbody : ∀ c ∈ body, c ∉ ['=', '&', '#', '?', '%']) :
    callbackParams (g.rawCallback code) =
      some { own := [("code", .str code), ("state", .str (String.ofList body))] } := by
  set piece : List Char := "state".toList ++ '=' :: (body ++ '=' :: ['=']) with hpiece
  set text : List Char := paramChars ("code", code) ++ '&' :: piece with htext
  have hdelimiters : ∀ c ∈ ['&', '#', '?'],
      c ∉ "state".toList ∧ c ∉ ['=', '='] ∧ c ∈ ['=', '&', '#', '?', '%'] := by simp
  have hpieceFree : ∀ c ∈ ['&', '#', '?'], c ∉ piece := by
    intro c hc hmem
    obtain ⟨hname, heq, hplain⟩ := hdelimiters c hc
    rw [hpiece, List.mem_append, List.mem_cons, List.mem_append] at hmem
    rcases hmem with hmem | hmem | hmem | hmem
    · exact hname hmem
    · exact heq (hmem ▸ List.mem_cons_self ..)
    · exact hbody c hmem hplain
    · exact heq hmem
  have hends : ∀ c ∈ ['#', '?'], Js.isUnreserved c = false ∧ c ≠ '%' ∧ c ≠ '=' ∧ c ≠ '&' := by
    simp [Js.isUnreserved]
  have htextFree : ∀ c ∈ ['#', '?'], c ∉ text := by
    intro c hc hmem
    rw [htext, List.mem_append, List.mem_cons] at hmem
    obtain ⟨hreserved, hpercent, hequals, hand⟩ := hends c hc
    rcases hmem with hmem | hmem | hmem
    · exact not_mem_paramChars hreserved hpercent hequals _ hmem
    · exact hand hmem
    · exact hpieceFree c (List.mem_cons_of_mem _ hc) hmem
  have hquery : "code=" ++ (Js.encodeURIComponent code ++ ("&state=" ++ g.state)) =
      String.ofList (text ++ []) := by
    rw [← String.toList_inj, String.toList_ofList, htext, hpiece]
    unfold paramChars Js.encodeURIComponent
    rw [show Js.encodeChars "code".toList = "code".toList by decide]
    simp [hstate]
  have hcode : String.ofList (Js.encodeChars "code".toList) = "code" := by decide
  have hmap : ((text.splitOn '&').map String.ofList).mapM parseParam =
      some [("code", code), ("state", String.ofList body)] := by
    rw [htext, List.splitOn_append_cons_self_of_not_mem
      (not_mem_paramChars (by decide) (by decide) (by decide) _),
      List.splitOn_eq_singleton (hpieceFree '&' (by decide)), List.map_cons, List.mapM_cons,
      parseParam_paramChars, List.map_cons, List.mapM_cons, hpiece,
      parseParam_padded (by decide) (fun hmem => hbody _ hmem (by decide))
        (fun hmem => hbody _ hmem (by decide)), hcode]
    rfl
  unfold CodeGrant.rawCallback
  rw [hquery, callbackParams_of_query huri (by
    rw [String.toList_ofList, List.append_nil]
    exact htextFree '?' (by decide)),
    parseQueryResult_of_params (htextFree '#' (by decide)) (Or.inl rfl) hmap]
  rfl

/-- A callback with another state is turned away. -/
theorem checkCallback_mismatch {t : AuthokClient.Transaction} {code state state' : String}
    (hverifier : t.code_verifier.truthy = true) (hstate : t.state = .str state')
    (htruthy : (Value.str state').truthy = true) (hne : state' ≠ state) (s : ClientData J) :
    Login.checkCallback { own := [("code", .str code), ("state", .str state)] } t s =
      .error (.rejected (.error "Invalid state, state not match")) s := by
  have herror : ProtoObj.get { own := [("code", .str code), ("state", .str state)] } "error" =
      .undefined := rfl
  have hparam : ProtoObj.get { own := [("code", .str code), ("state", .str state)] } "state" =
      .str state := rfl
  have hdiffer : (Value.str state').strictEq (.str state) = false := by
    rw [Bool.eq_false_iff]
    exact fun heq => hne (Value.str.inj ((Value.strictEq_str _ _).mp heq))
  unfold Login.checkCallback
  rw [herror, if_neg (by decide), hparam, hverifier, hstate, htruthy, hdiffer, if_pos (by decide)]
  rfl

/-- **A server that does not escape the state** has every login turned away, and the
transaction is gone with it: the padding of the state is cut off when the callback is
parsed. -/
theorem raw_state_refused (A : CookieApi J) (S : Setup) (out : Outside) {options : Obj} {d : Draws}
    {client_id redirect_uri : String}
    (h : (CodeRequest.redirect options d.secrets).Named S.client S.browser client_id redirect_uri)
    (hdomain : '?' ∉ S.client.domainUrl.toList) (hquery : '?' ∉ redirect_uri.toList) {url : String}
    (hurl : S.client.authorizeUrl (S.client.redirectParams S.browser options d.secrets) = some url)
    (code : String) (s : ClientData J)
    (hs : s.transaction = some (S.client.redirectTransaction S.browser options d.secrets)) :
    ∃ g, CodeGrant.ofUrl url = some g ∧
      Login.handleRedirectCallback A S out (g.rawCallback code) s =
        .error (.rejected (.error "Invalid state, state not match"))
          { s with transaction := none, storage := none } := by
  obtain ⟨body, hpadded, hbody⟩ := encode_padded d.forState
  have hread (g : CodeGrant) (huri : g.redirect_uri = redirect_uri)
      (hstate : g.state = encode (createRandomString d.forState)) :
      Login.readUrl (g.rawCallback code) s =
        .ok { own := [("code", .str code), ("state", .str (String.ofList body))] } s := by
    unfold Login.readUrl
    rw [callbackParams_rawCallback (huri ▸ hquery) code (hstate ▸ hpadded) hbody]
    rfl
  have hcut : encode (createRandomString d.forState) ≠ String.ofList body := by
    intro heq
    have hlist := congrArg String.toList heq
    rw [hpadded, String.toList_ofList] at hlist
    exact absurd hlist (by simp)
  have htruthy : (Value.str (encode (createRandomString d.forState))).truthy = true :=
    decide_eq_true d.filled.2
  refine ⟨_, h.ofUrl hdomain hurl, ?_⟩
  unfold Login.handleRedirectCallback
  rw [Follow.bind_ok (hread _ rfl rfl), Follow.bind_ok (takeTransaction_apply hs)]
  exact Follow.bind_error (checkCallback_mismatch (code_verifier_truthy d) rfl htruthy hcut _)

end Logins

/-! ## A login of a concrete client -/

/-- A browser that keeps all cookies. -/
def sampleCookies : CookieApi (Expiring.Store String String ℚ) := CookieApi.browser fun _ _ => true

/-- A page without anything. -/
def emptyData : ClientData (Expiring.Store String String ℚ) where
  cookies := Expiring.empty

/-- The options of the login. -/
def callbackOptions : Obj := [("redirect_uri", .str "https://app/callback")]

/-- An ID token for the nonce of the login. -/
def drawnClaims : IssuedClaims :=
  .lasting "https://idp/" "client" Session.popupDraws.secrets.nonceIn "org" (.fin 60) (Js.reads_quote "")

/-- A server that answers every token request. -/
def answeringOutside : Outside where
  oauthToken := fun _ =>
    some (.ok [("id_token", .str drawnClaims.token), ("access_token", .str "access")])
  verifyNow := .ok sampleClock
  expiryNow := .ok sampleClock.nowProvider

theorem named_callback : (CodeRequest.redirect callbackOptions Session.popupDraws.secrets).Named
    (sampleClient false) (sampleSetup false false).browser "client" "https://app/callback" where
  client := rfl
  call := by decide
  redirect_uri := Js.Obj.get_spread_of_find rfl

theorem sampleClient_url (u : Bool) (query : Obj) :
    ∃ url, (sampleClient u).authorizeUrl query = some url := by
  have hinfo : clientInfo ((sampleClient u).options.get "authokClient") = some plainInfo :=
    clientInfo_undefined
  unfold AuthokClient.authorizeUrl
  rw [hinfo]
  exact ⟨_, rfl⟩

theorem sampleClient_domain : '?' ∉ (sampleClient false).domainUrl.toList := by decide

/-- The login, after it has left. -/
def leftData : ClientData (Expiring.Store String String ℚ) where
  cookies := Expiring.empty
  transaction := some ((sampleClient false).redirectTransaction (sampleSetup false false).browser
    callbackOptions Session.popupDraws.secrets)

theorem exchange_honoured_sample :
    ∃ url g request, CodeGrant.ofUrl url = some g ∧ g.client_id = "client" ∧
      g.redirect_uri = "https://app/callback" ∧
      g.Honours (sampleSetup false false).browser.sha256 "code" request := by
  obtain ⟨url, hurl⟩ := sampleClient_url false ((CodeRequest.redirect callbackOptions
    Session.popupDraws.secrets).query (sampleClient false) (sampleSetup false false).browser)
  obtain ⟨g, request, hg, hclient, huri, -, -, -, hhonours⟩ :=
    CodeRequest.exchange_honoured _ named_callback sampleClient_domain hurl "code"
      (CodeRequest.flat_redirect named_callback "code")
  exact ⟨url, g, request, hg, hclient, huri, hhonours⟩

theorem raw_state_sample :
    ∃ g, Login.handleRedirectCallback sampleCookies (sampleSetup false false) answeringOutside
      (CodeGrant.rawCallback g "code") leftData =
        .error (.rejected (.error "Invalid state, state not match"))
          { leftData with transaction := none } := by
  obtain ⟨url, hurl⟩ := sampleClient_url false ((sampleClient false).redirectParams
    (sampleSetup false false).browser callbackOptions Session.popupDraws.secrets)
  obtain ⟨g, -, hrun⟩ := raw_state_refused sampleCookies (sampleSetup false false) answeringOutside
    named_callback sampleClient_domain (by decide) hurl "code" leftData rfl
  exact ⟨g, hrun⟩

end AuthokSpa
