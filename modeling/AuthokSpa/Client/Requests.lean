import AuthokSpa.Client.Config

/-!
# The requests of each flow (`AuthokClient.ts`, `api.ts`, `utils.ts`)

The `/authorize` URL and the object handed to `oauthToken`, for each flow, as
the object literals and spreads of the source build them. Member order is kept:
it is the order of the query string and of the JSON body.
-/

namespace AuthokSpa

open Js (Value Obj joinWith)

/-- One parameter of a query string. -/
def queryParam (m : String × Value) : List Char :=
  Js.encodeChars m.1.toList ++ '=' :: Js.encodeChars m.2.toText

/-- The characters of a query string. -/
def queryChars (params : Obj) : List Char :=
  joinWith '&' ((params.filter fun m => !m.2.isUndefined).map queryParam)

/-- `createQueryParams`. -/
def createQueryParams (params : Obj) : String := String.ofList (queryChars params)

/-- The `authokClient` parameter and header: `btoa(JSON.stringify(...))`, which
throws when the text is not Latin-1. -/
def clientInfo (authokClient : Value) : Option String :=
  Js.btoa (match Js.stringify (authokClient.or DEFAULT_AUTHOK_CLIENT) with
    | some t => String.ofList t
    | none => "undefined")

/-- The `authokClient` parameter of a client that does not set one. -/
def plainInfo : String := "eyJuYW1lIjoiYXV0aG9rLXNwYS1qcyIsInZlcnNpb24iOiIxLjE5LjQifQ=="

theorem clientInfo_undefined : clientInfo .undefined = some plainInfo := by decide +kernel

/-! ## The token endpoint -/

/-- What `getJSON` is called with. -/
structure TokenRequest where
  url : String
  timeout : Value
  audience : Value
  scope : Value
  body : String
  contentType : String
  authokClient : String

/-- The names `oauthToken` takes out of its options. -/
def transportNames : List String :=
  ["baseUrl", "timeout", "audience", "scope", "authokClient", "useFormData"]

/-- The characters of the body `oauthToken` posts. -/
def tokenBodyChars (options : Obj) : List Char :=
  let rest := options.without transportNames
  if (options.get "useFormData").truthy then queryChars rest
  else (Js.stringify (.obj rest)).getD []

/-- `oauthToken`, up to the network; `none` when building the header throws. -/
def oauthToken (options : Obj) : Option TokenRequest := do
  let authokClient ← clientInfo (options.get "authokClient")
  some
    { url := (options.get "baseUrl").text ++ "/oauth/token"
      timeout := options.get "timeout"
      audience := (options.get "audience").or (.str "default")
      scope := options.get "scope"
      body := String.ofList (tokenBodyChars options)
      contentType :=
        if (options.get "useFormData").truthy then "application/x-www-form-urlencoded"
        else "application/json"
      authokClient := authokClient }

namespace AuthokClient

variable (c : AuthokClient) (b : Browser)

/-! ## `/authorize` -/

/-- The names `_getParams` leaves out of the client's options. -/
def clientOptionNames : List String :=
  ["useRefreshTokens", "useCookiesForTransactions", "useFormData", "authokClient", "cacheLocation",
    "advancedOptions", "detailedResponse", "nowProvider", "authorizeTimeoutInSeconds",
    "legacySameSiteCookie", "sessionCheckExpiryDays", "domain", "leeway"]

/-- `_getParams`. -/
def getParams (authorizeOptions : Obj) (x : Secrets) (redirect_uri : Value) : Obj :=
  let loginOptions := c.options.without clientOptionNames
  (loginOptions.spread authorizeOptions).spread
    [("scope", .str (getUniqueScopes
        [.str c.defaultScope, c.scope, Obj.get authorizeOptions "scope"])),
      ("response_type", .str "code"),
      ("response_mode", .str "query"),
      ("state", .str x.stateIn),
      ("nonce", .str x.nonceIn),
      ("redirect_uri", redirect_uri.or (c.options.get "redirect_uri")),
      ("code_challenge", .str (bufferToBase64UrlEncoded (b.sha256 x.code_verifier))),
      ("code_challenge_method", .str "S256")]

/-- `_authorizeUrl`. -/
def authorizeUrl (authorizeOptions : Obj) : Option String := do
  let authokClient ← clientInfo (c.options.get "authokClient")
  some (c.domainUrl ++ ("/authorize?" ++ (createQueryParams authorizeOptions ++
    ("&authokClient=" ++ Js.encodeURIComponent authokClient))))

/-! ## Redirect -/

/-- The parameters of `buildAuthorizeUrl`. -/
def redirectParams (options : Obj) (x : Secrets) : Obj :=
  c.getParams b (options.without ["redirect_uri", "appState"]) x (options.get "redirect_uri")

/-- The options `loginWithRedirect` passes on to `buildAuthorizeUrl`. -/
def redirectOptions (options : Obj) : Obj := options.without ["redirectMethod"]

/-- The stored transaction of a redirect. -/
structure Transaction where
  nonce : Value
  code_verifier : Value
  appState : Value
  scope : Value
  audience : Value
  redirect_uri : Value
  state : Value
  organizationId : Value

/-- The transaction `buildAuthorizeUrl` creates. -/
def redirectTransaction (options : Obj) (x : Secrets) : Transaction :=
  let params := c.redirectParams b options x
  { nonce := .str x.nonceIn
    code_verifier := .str x.code_verifier
    appState := options.get "appState"
    scope := params.get "scope"
    audience := (params.get "audience").or (.str "default")
    redirect_uri := params.get "redirect_uri"
    state := .str x.stateIn
    organizationId :=
      let organizationId := (options.get "organization").or (c.options.get "organization")
      if organizationId.truthy then organizationId else .undefined }

/-- The token options of `handleRedirectCallback`. -/
def redirectTokenOptions (transaction : Transaction) (code : Value) : Obj :=
  let o : Obj :=
    [("audience", transaction.audience), ("scope", transaction.scope),
      ("baseUrl", .str c.domainUrl), ("client_id", c.options.get "client_id"),
      ("code_verifier", transaction.code_verifier), ("grant_type", .str "authorization_code"),
      ("code", code), ("authokClient", c.options.get "authokClient"),
      ("useFormData", c.options.get "useFormData")]
  match transaction.redirect_uri with
  | .undefined => o
  | redirect_uri => Obj.set o "redirect_uri" redirect_uri

/-! ## Popup -/

def popupParams (options : Obj) (x : Secrets) : Obj :=
  c.getParams b options x ((c.options.get "redirect_uri").or (.str b.origin))

/-- The query of the URL the popup is sent to. -/
def popupQuery (options : Obj) (x : Secrets) : Obj :=
  (c.popupParams b options x).spread [("response_mode", .str "web_message")]

def popupTokenOptions (options : Obj) (x : Secrets) (code : Value) : Obj :=
  let params := c.popupParams b options x
  [("audience", params.get "audience"), ("scope", params.get "scope"),
    ("baseUrl", .str c.domainUrl), ("client_id", c.options.get "client_id"),
    ("code_verifier", .str x.code_verifier), ("code", code),
    ("grant_type", .str "authorization_code"), ("redirect_uri", params.get "redirect_uri"),
    ("authokClient", c.options.get "authokClient"), ("useFormData", c.options.get "useFormData")]

/-! ## Silent requests -/

/-- What `getTokenSilently` hands to `_getTokenFromIFrame` or
`_getTokenUsingRefreshToken`. -/
def silentOptions (options : Obj) : Obj :=
  let defaults : Obj := [("audience", c.options.get "audience"), ("ignoreCache", .bool false)]
  ((defaults.spread options).spread
    [("scope", .str (getUniqueScopes [.str c.defaultScope, c.scope, options.get "scope"]))]).without
      ["ignoreCache"]

/-- The redirect URI of a silent request. -/
def silentRedirectUri (options : Obj) : Value :=
  ((options.get "redirect_uri").or (c.options.get "redirect_uri")).or (.str b.origin)

/-- The parameters of `_getTokenFromIFrame`, with the organization hint read
from its cookie. -/
def iframeParams (options : Obj) (x : Secrets) (orgIdHint : Value) : Obj :=
  let params := c.getParams b (options.without ["detailedResponse"]) x (c.silentRedirectUri b options)
  if orgIdHint.truthy && !(params.get "organization").truthy then
    Obj.set params "organization" orgIdHint
  else params

/-- The query of the URL the iframe is sent to. -/
def iframeQuery (options : Obj) (x : Secrets) (orgIdHint : Value) : Obj :=
  (c.iframeParams b options x orgIdHint).spread
    [("prompt", .str "none"), ("response_mode", .str "web_message")]

/-- The call options `_getTokenFromIFrame` leaves out of the token request. -/
def iframeOptionNames : List String :=
  ["scope", "audience", "redirect_uri", "ignoreCache", "timeoutInSeconds", "detailedResponse"]

/-- The token options of `_getTokenFromIFrame`. -/
def iframeTokenOptions (options : Obj) (x : Secrets) (orgIdHint code : Value) : Obj :=
  let params := c.iframeParams b options x orgIdHint
  (c.customOptions.spread (options.without iframeOptionNames)).spread
    [("scope", options.get "scope"),
      ("audience", options.get "audience"),
      ("baseUrl", .str c.domainUrl),
      ("client_id", c.options.get "client_id"),
      ("code_verifier", .str x.code_verifier),
      ("code", code),
      ("grant_type", .str "authorization_code"),
      ("redirect_uri", params.get "redirect_uri"),
      ("authokClient", c.options.get "authokClient"),
      ("useFormData", c.options.get "useFormData")]

/-- The options of `_getTokenUsingRefreshToken` once it has widened the scope. -/
def refreshOptions (options : Obj) : Obj :=
  Obj.set options "scope" (.str (getUniqueScopes
    [.str c.defaultScope, c.options.get "scope", options.get "scope"]))

/-- `options.timeoutInSeconds * 1000`, or `null` when it is not a number. -/
def refreshTimeout (options : Obj) : Value :=
  match options.get "timeoutInSeconds" with
  | .num (.fin q) => .num (.fin (q * 1000))
  | .num n => .num n
  | _ => .null

/-- The call options `_getTokenUsingRefreshToken` leaves out. -/
def refreshOptionNames : List String :=
  ["scope", "audience", "ignoreCache", "timeoutInSeconds", "detailedResponse"]

/-- The token options of `_getTokenUsingRefreshToken`. -/
def refreshTokenOptions (options : Obj) (refresh_token : Value) : Obj :=
  let timeout := refreshTimeout options
  (c.customOptions.spread (options.without refreshOptionNames)).spread
    ([("audience", options.get "audience"),
      ("scope", options.get "scope"),
      ("baseUrl", .str c.domainUrl),
      ("client_id", c.options.get "client_id"),
      ("grant_type", .str "refresh_token"),
      ("refresh_token", refresh_token),
      ("redirect_uri", c.silentRedirectUri b options)] ++
    (if timeout.truthy then [("timeout", timeout)] else []) ++
    [("authokClient", c.options.get "authokClient"),
      ("useFormData", c.options.get "useFormData")])

end AuthokClient

/-- What a request depends on besides the client and the call. -/
structure Given where
  browser : Browser
  secrets : Secrets
  orgIdHint : Value
  code : Value
  refresh_token : Value

end AuthokSpa
