import AuthokSpa.Js.Format

/-!
# The token worker (`worker/token.worker.ts`)

With refresh tokens and the in-memory cache, token requests go through a web
worker that keeps the refresh tokens to itself: it takes them out of the
responses and puts them into the requests that need one. Nothing but a later
response for the same audience and scope removes one from its memory.

A message is split where it waits for the network: `request` is what is sent,
`response` what is done with the answer.
-/

namespace AuthokSpa

open Js (Value Obj OrdMap)

/-- `MISSING_REFRESH_TOKEN_ERROR_MESSAGE`. -/
def MISSING_REFRESH_TOKEN_ERROR_MESSAGE : String := "The web worker is missing the refresh token"

/-- `refreshTokens`, the memory of the worker. -/
abbrev RefreshTokens := OrdMap String Value

namespace Worker

/-- `cacheKey`. -/
def cacheKey (audience scope : Value) : String := audience.text ++ ("|" ++ scope.text)

/-- The refresh token of a request with `grant_type: 'refresh_token'`: the one in
its body, or else the one in memory; `none` is the error that there is none. -/
def request (refreshTokens : RefreshTokens) (audience scope refresh_token : Value) : Option Value :=
  if refresh_token.truthy then some refresh_token
  else
    match refreshTokens.find (cacheKey audience scope) with
    | some t => if t.truthy then some t else none
    | none => none

/-- The answer of the token endpoint: the refresh token stays in the worker. -/
def response (refreshTokens : RefreshTokens) (audience scope : Value) (json : Obj) :
    RefreshTokens × Obj :=
  if (json.get "refresh_token").truthy then
    (refreshTokens.insert (cacheKey audience scope) (json.get "refresh_token"),
      json.without ["refresh_token"])
  else (refreshTokens.erase (cacheKey audience scope), json)

/-- A request is made with a token that was given or is in memory. -/
theorem request_some {refreshTokens : RefreshTokens} {audience scope refresh_token t : Value}
    (h : request refreshTokens audience scope refresh_token = some t) :
    t.truthy = true ∧ (t = refresh_token ∨ ∃ b ∈ refreshTokens, b.2 = t) := by
  unfold request at h
  split at h
  next ht =>
    obtain rfl := Option.some.inj h
    exact ⟨ht, Or.inl rfl⟩
  next =>
    split at h
    next t' hfind =>
      split at h
      next ht =>
        obtain rfl := Option.some.inj h
        exact ⟨ht, Or.inr ⟨_, OrdMap.find_mem hfind, rfl⟩⟩
      next => cases h
    next => cases h

/-- A token in memory after a response was there before or came with it. -/
theorem mem_response {refreshTokens : RefreshTokens} {audience scope : Value} {json : Obj}
    {b : String × Value} (h : b ∈ (response refreshTokens audience scope json).1) :
    b ∈ refreshTokens ∨ b.2 = json.get "refresh_token" := by
  unfold response at h
  split at h
  · rcases OrdMap.mem_of_mem_insert h with rfl | hold
    · exact Or.inr rfl
    · exact Or.inl hold
  · exact Or.inl (OrdMap.mem_erase.mp h).1

/-- What the page sees of the response: the same but perhaps without the refresh
token. -/
theorem response_find (refreshTokens : RefreshTokens) (audience scope : Value) (json : Obj)
    {k : String} (hk : k ≠ "refresh_token") :
    (response refreshTokens audience scope json).2.find k = json.find k := by
  unfold response
  split
  · exact Js.Obj.find_without (by simpa using hk)
  · rfl

end Worker

end AuthokSpa
