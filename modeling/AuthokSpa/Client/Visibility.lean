import AuthokSpa.Client.Detailed
import AuthokSpa.Jwt.Valid

/-!
# A completed login is visible (`AuthokClient.ts`, `jwt.ts`, `cache-manager.ts`)

`verify` accepts an ID token for some seconds after its `exp`, the leeway. The
cache ends an entry at the `exp` of its ID token or with `expires_in`, whichever
comes first, and knows of no leeway. A token that is accepted within the leeway is
stored and is never handed out: `getUser` finds nobody, and `getTokenWithPopup`,
which reads its token back from the cache, reads a member of `undefined`.

`login_visible_iff` says that this is one of two ways to lose a login. The other is
a key that is not the one looked up: a response to a silent request with a
`client_id` of its own, or an audience that the call names as `''` or `undefined`
on a client that has one.
-/

namespace AuthokSpa

open Js (Value Obj ProtoObj)
open Cache (CacheKey Store)

/-- The answer of `getUser`. -/
def Setup.userIn (S : Setup) (options : Obj) (now : Js.Num) (store : Store) : Option ProtoObj :=
  ((S.manager.get (S.client.userKey options) (.fin 0) now store).2.bind
    Cache.Body.decodedToken).map DecodedToken.user

/-- The end of `getTokenWithPopup`, after the login; `none` is the `TypeError`. -/
def Setup.readBack (S : Setup) (options : Obj) (now : Js.Num) (store : Store) : Option Value :=
  (S.manager.get (S.client.requestKey (S.client.popupCallOptions options)) (.fin 0) now store).2.map
    Cache.Body.access_token

/-- The entry is stored for the client and the audience that are looked up. -/
def Route.SharesKey (c : AuthokClient) (call response : Obj) (r : Route) : Prop :=
  r.clientId c response ++ ("::" ++ r.audience c call) =
    c.client_id ++ ("::" ++ (c.userKey call).audience)

/-! ## Expiry at the time of storing -/

section Expiry

/-- An entry that lasts at all ends now only where its ID token does. -/
theorem min_add_lt_iff {a n exp : Js.Num} (hn : .fin 0 ≤ n) :
    Js.Num.min (a + n) exp < a ↔ exp < a := by
  cases n with
  | nan => exact absurd hn (by decide)
  | negInf => exact absurd hn (by decide)
  | posInf =>
    cases a <;> cases exp <;> rfl
  | fin q =>
    -- the only case with numbers on both sides is the last one
    rw [Js.Num.fin_le_fin] at hn
    cases a with
    | nan => cases exp <;> rfl
    | negInf => cases exp <;> rfl
    | posInf => cases exp <;> rfl
    | fin p =>
      cases exp with
      | nan => rfl
      | negInf => rfl
      | posInf =>
        show Js.Num.fin (p + q) < Js.Num.fin p ↔ Js.Num.posInf < Js.Num.fin p
        rw [Js.Num.fin_lt_fin]
        exact ⟨fun h => absurd h (by linarith), fun h => (nomatch h)⟩
      | fin r =>
        rw [Js.Num.fin_add_fin, Js.Num.fin_lt_fin]
        unfold Js.Num.min
        rw [if_neg (by simp)]
        split
        next => exact Js.Num.fin_lt_fin r p
        next hle =>
          rw [Js.Num.fin_lt_fin] at hle ⊢
          constructor <;> intro h <;> linarith

theorem expired_now_iff {e : CacheEntry} (hn : .fin 0 ≤ e.expires_in) (now : Js.Num) :
    (Cache.wrapCacheEntry e now).expired (.fin 0) now ↔ e.decodedToken.exp < now.seconds := by
  have hzero : ∀ a : Js.Num, a - .fin 0 = a := by
    intro a
    cases a with
    | fin q => rw [Js.Num.fin_sub_fin, sub_zero]
    | nan => rfl
    | negInf => rfl
    | posInf => rfl
  show Cache.expiryOf e now - .fin 0 < now.seconds ↔ _
  rw [hzero]
  exact min_add_lt_iff hn

end Expiry

/-! ## Keys -/

section Key

variable {c : AuthokClient} {call : Obj}

/-- What `getTokenWithPopup` looks up at its end. -/
theorem requestKey_popupCallOptions (c : AuthokClient) (call : Obj) :
    c.requestKey (c.popupCallOptions call) = c.userKey call := by
  unfold AuthokClient.requestKey AuthokClient.popupCallOptions AuthokClient.userKey
  dsimp only
  rw [Js.Obj.get_set_ne (by decide), Js.Obj.get_set_same, Js.Obj.get_set_same,
    Js.Obj.get_set_ne (by decide), Value.text_str]

theorem Route.sharesKey_of_typed {response : Obj} (h : AudienceTyped c call)
    (hr : response.find "client_id" = none) (r : Route) : r.SharesKey c call response := by
  unfold Route.SharesKey
  rw [r.clientId_eq hr, r.audience_eq h]

/-- The same key, as a text, exactly if client and audience are the same text. -/
theorem toKey_eq_iff (k : CacheKey) (client_id audience : String) :
    ({ k with client_id := client_id, audience := audience } : CacheKey).toKey = k.toKey ↔
      client_id ++ ("::" ++ audience) = k.client_id ++ ("::" ++ k.audience) := by
  have hkey : ∀ id aud : String, ({ k with client_id := id, audience := aud } : CacheKey).toKey =
      k.keyPrefix ++ "::" ++ (id ++ ("::" ++ aud) ++ ("::" ++ k.scope)) := by
    intro id aud
    unfold CacheKey.toKey
    simp only [String.append_assoc]
  rw [hkey, show k.toKey = _ from hkey k.client_id k.audience, String.append_right_inj,
    String.append_left_inj]

end Key

/-! ## What is found under the key -/

section Found

variable {S : Setup} {call : Obj} {now : Js.Num} {store : Store} {w : Cache.WrappedCacheEntry}
  {ref : Nat}

theorem get_bound {m : Cache.Manager} {k : CacheKey} (h : store.get k.toKey = some ⟨ref, .wrapped w⟩)
    (adj : Js.Num) :
    (m.get k adj now store).2 =
      if w.expired adj now then
        if w.body.refresh_token.truthy then some w.strip.body else none
      else some w.body := by
  unfold Cache.Manager.get Cache.Manager.findEntry
  rw [h]
  dsimp only
  split
  · split
    · rfl
    · rfl
  · rfl

theorem userIn_bound (h : store.get (S.client.userKey call).toKey = some ⟨ref, .wrapped w⟩) :
    S.userIn call now store =
      if w.expired (.fin 0) now then none else w.body.decodedToken.map DecodedToken.user := by
  unfold Setup.userIn
  rw [get_bound h]
  split
  · split
    · rfl
    · rfl
  · rfl

theorem readBack_bound (h : store.get (S.client.userKey call).toKey = some ⟨ref, .wrapped w⟩)
    (hlive : ¬ w.expired (.fin 0) now) :
    S.readBack call now store = some w.body.access_token := by
  unfold Setup.readBack
  rw [requestKey_popupCallOptions, get_bound h, if_neg hlive]
  rfl

theorem manifestKey_ne_userKey (call : Obj) :
    ∀ cid, S.manager.keyManifest = some cid →
      Cache.manifestKey cid ≠ (S.client.userKey call).toKey := fun _ hcid =>
  Cache.manifestKey_ne_toKey (k := S.client.userKey call) rfl (Setup.keyManifest_eq hcid)

end Found

/-! ## Visible logins -/

section Visible

variable {S : Setup} {call : Obj} {r : Route} {g : Given} {clock : Clock} {response : Obj}
  {e : CacheEntry}

/-- Another user was logged in for the audience. -/
def foreignEntry (S : Setup) (call : Obj) (e : CacheEntry) : CacheEntry :=
  { e with
    client_id := (S.client.userKey call).client_id
    audience := (S.client.userKey call).audience
    scope := (S.client.userKey call).scope
    decodedToken :=
      { e.decodedToken with
        user := { e.decodedToken.user with own := ("other", .null) :: e.decodedToken.user.own } } }

theorem foreign_key (S : Setup) (call : Obj) (e : CacheEntry) :
    CacheKey.ofEntry (foreignEntry S call e) = S.client.userKey call := rfl

theorem foreign_user_ne (S : Setup) (call : Obj) (e : CacheEntry) :
    (foreignEntry S call e).decodedToken.user ≠ e.decodedToken.user := by
  intro h
  have hlen := congrArg (fun u => u.own.length) h
  simp [foreignEntry] at hlen

/-- A store under another key leaves what is under the key. -/
theorem set_get_ne {m : Cache.Manager} {key : String} (hkey : (CacheKey.ofEntry e).toKey ≠ key)
    (hm : ∀ cid, m.keyManifest = some cid → Cache.manifestKey cid ≠ key) (now : Js.Num)
    (store : Store) : (m.set e now store).get key = store.get key := by
  unfold Cache.Manager.set
  cases hcid : m.keyManifest with
  | none =>
    dsimp only
    rw [Store.get_put, if_neg hkey]
  | some cid =>
    dsimp only
    unfold Cache.manifestAdd
    rw [Store.get_put, if_neg (hm cid hcid), Store.get_put, if_neg hkey]

/-- Nobody is seen of a login under another key when somebody else is there. -/
theorem not_visible_of_other_key (hkey : (CacheKey.ofEntry e).toKey ≠ (S.client.userKey call).toKey)
    (now : Js.Num) :
    S.userIn call now (S.manager.set e now (S.manager.set (foreignEntry S call e) now {})) ≠
      some e.decodedToken.user := by
  have hfound : (S.manager.set e now (S.manager.set (foreignEntry S call e) now {})).get
      (S.client.userKey call).toKey =
        some ⟨0, .wrapped (Cache.wrapCacheEntry (foreignEntry S call e) now)⟩ := by
    rw [set_get_ne hkey (manifestKey_ne_userKey call)]
    exact Cache.Manager.set_get (congrArg CacheKey.toKey (foreign_key S call e).symm)
      (manifestKey_ne_userKey call) now {}
  rw [userIn_bound hfound]
  split
  · simp
  · intro h
    exact foreign_user_ne S call e (Option.some.inj h)

/-- Nobody is there, and there is no token to read back, after a login with a token
at its end. -/
theorem lost_of_expired (hkey : CacheKey.ofEntry e = S.client.userKey call) {now : Js.Num}
    (hexpired : (Cache.wrapCacheEntry e now).expired (.fin 0) now)
    (hrefresh : e.refresh_token.truthy = false) (store : Store) :
    S.userIn call now (S.manager.set e now store) = none ∧
      S.readBack call now (S.manager.set e now store) = none := by
  have hfound := Cache.Manager.set_get (congrArg CacheKey.toKey hkey.symm)
    (manifestKey_ne_userKey call) now store
  constructor
  · rw [userIn_bound hfound, if_pos hexpired]
  · unfold Setup.readBack
    rw [requestKey_popupCallOptions, get_bound hfound, if_pos hexpired, if_neg]
    · rfl
    · show ¬ e.refresh_token.truthy = true
      rw [hrefresh]
      exact Bool.false_ne_true

end Visible

/-- **A completed login is visible**, whatever was in the cache before, if and only
if the ID token has not reached its `exp` (in whole seconds, without the leeway)
and the entry is stored for the client and the audience that are looked up. -/
theorem login_visible_iff (S : Setup) {call : Obj} (hcall : AudienceText S.client call) (r : Route)
    (g : Given) {clock : Clock} {response : Obj} {e : CacheEntry} {n : Js.Num}
    (he : r.accept S.client call g clock response = .ok e)
    (hin : response.get "expires_in" = .num n) (hn : .fin 0 ≤ n) :
    (∀ store : Store,
      S.userIn call clock.nowProvider (S.manager.set e clock.nowProvider store) =
          some e.decodedToken.user ∧
        (r = .tokenWithPopup →
          S.readBack call clock.nowProvider (S.manager.set e clock.nowProvider store) =
            some e.access_token)) ↔
      ¬ e.decodedToken.exp < clock.nowProvider.seconds ∧ r.SharesKey S.client call response := by
  have hkey := r.accept_stored hcall he
  have hlasts : .fin 0 ≤ e.expires_in := by
    rw [(r.accept_madeOf he).expires_in, hin]
    exact hn
  have hshares : (CacheKey.ofEntry e).toKey = (S.client.userKey call).toKey ↔
      r.SharesKey S.client call response := by
    rw [hkey]
    exact toKey_eq_iff _ _ _
  have hfound : r.SharesKey S.client call response → ∀ store,
      (S.manager.set e clock.nowProvider store).get (S.client.userKey call).toKey =
        some ⟨store.next, .wrapped (Cache.wrapCacheEntry e clock.nowProvider)⟩ := by
    intro h store
    exact Cache.Manager.set_get (hshares.mpr h).symm (manifestKey_ne_userKey call) _ store
  constructor
  · intro hall
    have hsame : r.SharesKey S.client call response := by
      -- stored elsewhere, the entry leaves another user under the key
      by_contra hother
      exact not_visible_of_other_key (fun h => hother (hshares.mp h)) _ (hall _).1
    refine ⟨fun hexp => ?_, hsame⟩
    -- found under its key, an expired entry is not handed out
    have huser := (hall {}).1
    rw [userIn_bound (hfound hsame {}), if_pos ((expired_now_iff hlasts _).mpr hexp)] at huser
    cases huser
  · rintro ⟨hexp, hsame⟩ store
    have hlive := fun h => hexp ((expired_now_iff hlasts clock.nowProvider).mp h)
    refine ⟨?_, fun _ => readBack_bound (hfound hsame store) hlive⟩
    rw [userIn_bound (hfound hsame store), if_neg hlive]
    rfl

/-! ### A token within its lifetime, and one within the leeway -/

def plainResponse (token : String) : Obj :=
  [("id_token", .str token), ("access_token", .str "access"), ("expires_in", .num (.fin 86400))]

/-- The user of a popup login is there. -/
theorem login_visible_popup :
    ∃ e, Route.popup.accept (sampleClient false) [] sampleGiven sampleClock
        (plainResponse sampleClaims.token) = .ok e ∧
      (sampleSetup false false).userIn [] sampleClock.nowProvider
        ((sampleSetup false false).manager.set e sampleClock.nowProvider {}) =
          some sampleClaims.decoded.user := by
  obtain ⟨e, he, hd⟩ := @Flow.accept_of_verified .popup (sampleClient false) [] sampleGiven
    sampleClock (plainResponse sampleClaims.token) _ (sample_verify false false fun _ => rfl)
  have htyped := typed_sampleCall [] (Or.inl rfl)
  have hexp : ¬ e.decodedToken.exp < sampleClock.nowProvider.seconds := by
    rw [hd]
    decide +kernel
  have hvisible := (@login_visible_iff (sampleSetup false false) [] htyped.text .popup sampleGiven
    sampleClock _ e (.fin 86400) he rfl (by decide +kernel)).mpr
      ⟨hexp, Route.sharesKey_of_typed htyped rfl .popup⟩
  refine ⟨e, he, ?_⟩
  rw [← hd]
  exact (hvisible {}).1

/-- One minute after the end of `VerifyRequest.hourlyClaims`. -/
def leewayClock : Clock := ⟨.fin 1700000060000, .fin 1700000060000⟩

theorem verify_within_leeway {organizationId : Value} (horg : organizationId = .undefined) :
    (sampleClient false).verifyIdToken leewayClock (.str VerifyRequest.hourlyClaims.token)
      (.str "nonce") organizationId = .ok VerifyRequest.hourlyClaims.decoded := by
  subst horg
  have hiss : (sampleClient false).tokenIssuer = "https://idp/" := by decide
  refine IssuedClaims.verify_current _ rfl hiss (by decide) rfl (by decide) (fun _ => rfl)
    (fun h => by cases h) ?_ (fun h => by cases h) fun _ => Js.not_nan_lt _
  decide +kernel

/-- A login with a token of the last minute: it is accepted, nobody is there after
it, and reading the token back fails. -/
theorem login_within_leeway_lost :
    ∃ e, Route.tokenWithPopup.accept (sampleClient false) [] sampleGiven leewayClock
        (plainResponse VerifyRequest.hourlyClaims.token) = .ok e ∧
      (sampleSetup false false).userIn [] leewayClock.nowProvider
        ((sampleSetup false false).manager.set e leewayClock.nowProvider {}) = none ∧
      (sampleSetup false false).readBack [] leewayClock.nowProvider
        ((sampleSetup false false).manager.set e leewayClock.nowProvider {}) = none := by
  obtain ⟨e, he, hd⟩ := @Flow.accept_of_verified .popup (sampleClient false)
    ((sampleClient false).popupCallOptions []) sampleGiven leewayClock
    (plainResponse VerifyRequest.hourlyClaims.token) _ (verify_within_leeway rfl)
  have haccept : Route.tokenWithPopup.accept (sampleClient false) [] sampleGiven leewayClock
      (plainResponse VerifyRequest.hourlyClaims.token) = .ok e := he
  have hkey := Route.accept_key (typed_sampleCall [] (Or.inl rfl)) rfl _ haccept
  have hlasts : .fin 0 ≤ e.expires_in := by
    rw [(Route.accept_madeOf _ haccept).expires_in]
    decide +kernel
  have hexpired : (Cache.wrapCacheEntry e leewayClock.nowProvider).expired (.fin 0)
      leewayClock.nowProvider := by
    rw [expired_now_iff hlasts, hd]
    decide +kernel
  have hrefresh : e.refresh_token.truthy = false := by
    obtain ⟨d, -, hentry⟩ := bind_ok_iff.mp he
    rw [← Except.ok.inj hentry]
    rfl
  exact ⟨e, haccept, @lost_of_expired (sampleSetup false false) [] e hkey _ hexpired hrefresh {}⟩

end AuthokSpa
