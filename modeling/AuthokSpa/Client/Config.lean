import AuthokSpa.Js.Base64
import AuthokSpa.Js.Json
import AuthokSpa.Scope

/-!
# Client configuration (`AuthokClient.ts`, `constants.ts`, `utils.ts`)

A client is the options object it was created with; the constructor derives
the rest from it. Options stay an untyped object, since what the code does with
them is mostly to copy them: into the `/authorize` query, into the token
request, minus the names its destructurings list.
-/

namespace AuthokSpa

open Js (Value Obj startsWith)

/-- What the code reads from the browser: `window.location.origin` and the
`SHA-256` digest of WebCrypto. -/
structure Browser where
  origin : String
  sha256 : String → List UInt8

/-! ## Random strings -/

/-- The characters `createRandomString` picks from. -/
def charset : List Char :=
  "0123456789ABCDEFGHIJKLMNOPQRSTUVWXYZabcdefghijklmnopqrstuvwxyz-_~.".toList

/-- What `getRandomValues(new Uint8Array(43))` fills in. -/
structure RandomValues where
  bytes : List UInt8
  size : bytes.length = 43

/-- `createRandomString`. -/
def createRandomString (randomValues : RandomValues) : String :=
  String.ofList (randomValues.bytes.map fun v => charset.getD (v.toNat % charset.length) '0')

/-- `encode`, that is `btoa`; it throws on characters above 255, which random
strings do not have. -/
def encode (value : String) : String := (Js.btoa value).getD ""

/-- `bufferToBase64UrlEncoded`. -/
def bufferToBase64UrlEncoded (input : List UInt8) : String :=
  String.ofList (Js.urlEncodeB64 (Js.btoaChars input))

/-- The values a code flow draws when it starts. -/
structure Secrets where
  stateIn : String
  nonceIn : String
  code_verifier : String
  deriving DecidableEq

/-- The three draws at the start of `buildAuthorizeUrl`, `loginWithPopup` and
`_getTokenFromIFrame`. -/
def newSecrets (forState forNonce forVerifier : RandomValues) : Secrets where
  stateIn := encode (createRandomString forState)
  nonceIn := encode (createRandomString forNonce)
  code_verifier := createRandomString forVerifier

theorem createRandomString_length (v : RandomValues) : (createRandomString v).toList.length = 43 := by
  unfold createRandomString
  rw [String.toList_ofList, List.length_map, v.size]

theorem charset_lt : ∀ n, n < 66 → (charset.getD n '0').toNat < 256 := by
  decide +kernel

/-- A random string encodes to a non-empty one. -/
theorem encode_createRandomString_ne_empty (v : RandomValues) :
    encode (createRandomString v) ≠ "" := by
  have hlatin : (createRandomString v).toList.all (fun c => c.toNat < 256) = true := by
    rw [List.all_eq_true]
    intro c hc
    unfold createRandomString at hc
    rw [String.toList_ofList] at hc
    obtain ⟨b, -, rfl⟩ := List.mem_map.mp hc
    have hlen : charset.length = 66 := by decide
    rw [hlen]
    exact decide_eq_true (charset_lt _ (by omega))
  have hlen := createRandomString_length v
  unfold encode Js.btoa
  rw [if_pos hlatin, Option.getD_some]
  cases hbytes : (createRandomString v).toList.map (fun c => UInt8.ofNat c.toNat) with
  | nil =>
    have := congrArg List.length hbytes
    rw [List.length_map, hlen] at this
    cases this
  | cons a bs =>
    -- the first sextet is there in each of the three layouts
    intro hempty
    have hchars : Js.btoaChars (a :: bs) = [] := by
      have := congrArg String.toList hempty
      simpa using this
    match bs, hchars with
    | [], h => simp [Js.btoaChars, Js.sextets] at h
    | [_], h => simp [Js.btoaChars, Js.sextets] at h
    | _ :: _ :: _, h => simp [Js.btoaChars, Js.sextets] at h

/-! ## The constructor -/

/-- `DEFAULT_SCOPE`. -/
def DEFAULT_SCOPE : String := "openid profile email"

/-- `DEFAULT_AUTHOK_CLIENT`. -/
def DEFAULT_AUTHOK_CLIENT : Value :=
  .obj [("name", .str "authok-spa-js"), ("version", .str "1.19.4")]

/-- `getDomain`. -/
def getDomain (domainUrl : String) : String :=
  if startsWith domainUrl "http://" || startsWith domainUrl "https://" then domainUrl
  else "https://" ++ domainUrl

/-- `getTokenIssuer`. -/
def getTokenIssuer (issuer : Value) (domainUrl : String) : String :=
  if issuer.truthy then
    if startsWith issuer.text "https://" then issuer.text else "https://" ++ (issuer.text ++ "/")
  else domainUrl ++ "/"

/-- An `AuthokClient`. -/
structure AuthokClient where
  options : Obj

namespace AuthokClient

variable (c : AuthokClient)

def client_id : String := (c.options.get "client_id").text

def domainUrl : String := getDomain (c.options.get "domain").text

def tokenIssuer : String := getTokenIssuer (c.options.get "issuer") c.domainUrl

/-- `options?.advancedOptions?.defaultScope`. -/
def advancedDefaultScope : Value :=
  match c.options.get "advancedOptions" with
  | .obj ms => Obj.get ms "defaultScope"
  | _ => .undefined

def defaultScope : String :=
  getUniqueScopes [.str "openid",
    match c.advancedDefaultScope with
    | .undefined => .str DEFAULT_SCOPE
    | v => v]

/-- `this.scope`: with refresh tokens, `offline_access` is asked for too. -/
def scope : Value :=
  if (c.options.get "useRefreshTokens").truthy then
    .str (getUniqueScopes [c.options.get "scope", .str "offline_access"])
  else c.options.get "scope"

/-- The names `getCustomInitialOptions` leaves out. -/
def initialOptionNames : List String :=
  ["advancedOptions", "audience", "authokClient", "authorizeTimeoutInSeconds", "cacheLocation",
    "client_id", "domain", "issuer", "leeway", "max_age", "redirect_uri", "scope",
    "useRefreshTokens", "useCookiesForTransactions", "useFormData"]

/-- `this.customOptions`, by `getCustomInitialOptions`. -/
def customOptions : Obj := c.options.without initialOptionNames

end AuthokClient

end AuthokSpa
