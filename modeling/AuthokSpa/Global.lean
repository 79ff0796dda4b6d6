import AuthokSpa.Js.Value

/-!
# Shared types (`global.ts`, `cache/shared.ts`)

The decoded ID token as `jwt.decode` returns it and as cache entries carry it.
Its claims are whatever the payload holds, so they stay an untyped object;
`exp` is the one claim the cache computes with.
-/

namespace AuthokSpa

/-- `IdToken`: the claims object of a decoded token. -/
abbrev IdToken := Js.ProtoObj

/-- The three dot-separated pieces of a token. -/
structure EncodedToken where
  header : String
  payload : String
  signature : String

/-- What `decode` returns. -/
structure DecodedToken where
  encoded : EncodedToken
  header : Js.Value
  claims : IdToken
  user : Js.ProtoObj

/-- `decodedToken.claims.exp`, a number when the token was verified. -/
def DecodedToken.exp (d : DecodedToken) : Js.Num := (d.claims.get "exp").asNum

/-- `CacheEntry`. The members that come straight from the token response stay
values: nothing checks their types. -/
structure CacheEntry where
  id_token : Js.Value
  access_token : Js.Value
  expires_in : Js.Num
  decodedToken : DecodedToken
  audience : String
  scope : String
  client_id : String
  refresh_token : Js.Value := .undefined
  oauthTokenScope : Js.Value := .undefined

end AuthokSpa
