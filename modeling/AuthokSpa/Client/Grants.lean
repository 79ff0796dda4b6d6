import AuthokSpa.Client.Silent

/-!
# The grant with and without the worker (`AuthokClient.ts`, `token.worker.ts`)

A client that uses refresh tokens finds them in two places. Without the worker
they are in the cache, where a request may also find one under a key with more
scopes than it asks for, and where an expired entry is stripped down to its
refresh token. With the worker they are in a map that knows the exact audience
and scope only, and an expired entry is gone.

`twins` runs the same calls on both clients. `same_grant` says that they choose
the same grant and present the same refresh token in every run in which no call
depends on the difference: it is answered by both caches, or neither cache has
a live entry to serve it and the requested key itself is cached, or nothing
that serves it is.
-/

namespace AuthokSpa

open Js (Value Obj OrdMap)
open Cache (Store Body Cell Cacheable CacheKey Manager WrappedCacheEntry matchesKey)

/-! ## Refresh tokens in a store -/

/-- The refresh token of a stored object. -/
def Cache.Cacheable.refreshToken : Cacheable → Option Value
  | .wrapped w => some w.body.refresh_token
  | .manifest _ => none

/-- The refresh token stored under a key. -/
def heldToken (s : Store) (key : String) : Option Value :=
  (s.get key).bind fun c => c.value.refreshToken

/-- Every stored object is an entry with a refresh token. -/
def Cache.Store.AllHold (s : Store) : Prop :=
  s.All fun _ v => ∃ w, v = .wrapped w ∧ w.body.refresh_token.truthy = true

/-- Every stored object is an entry without one. -/
def Cache.Store.AllBare (s : Store) : Prop :=
  s.All fun _ v => ∃ w, v = .wrapped w ∧ w.body.refresh_token.truthy = false

/-- A stored object can serve a request: it is under the requested key, or under
one that matches it. -/
def Serves (k : CacheKey) (key : String) : Prop := key = k.toKey ∨ matchesKey k key = true

/-- The requested key is cached, or nothing that matches it is. -/
def OwnKey (k : CacheKey) (s : Store) : Prop :=
  s.get k.toKey = none → ∀ key ∈ s.allKeys, matchesKey k key = false

/-- No stored object that serves the request is handed out at `now`. -/
def Stale (k : CacheKey) (now : Js.Num) (s : Store) : Prop :=
  s.All fun key v => Serves k key → ¬v.Live (.fin 60) now

/-- The object that a lookup finds is handed out at `now`. -/
def Found (m : Manager) (k : CacheKey) (now : Js.Num) (s : Store) : Prop :=
  ∃ c, m.findEntry k s = some c ∧ c.value.Live (.fin 60) now

section Held

variable {m : Manager} {s : Store} {k : CacheKey} {adj now : Js.Num}

/-- Stripping moves no refresh token but the one that is copied. -/
theorem heldToken_stripUnder (hs : s.Valid) {key key' : String} {c : Cell} {w : WrappedCacheEntry}
    (hc : s.get key' = some c) (hw : c.value = .wrapped w) (key₁ : String) :
    heldToken (m.stripUnder key c w s) key₁ =
      if key = key₁ then some w.body.refresh_token else heldToken s key₁ := by
  unfold heldToken Manager.stripUnder
  split
  · rw [Store.get_bind, Store.get_assign]
    by_cases hkey : key = key₁
    · rw [if_pos hkey, if_pos hkey]
      rfl
    · rw [if_neg hkey, if_neg hkey]
      cases hc₁ : s.get key₁ with
      | none => rfl
      | some c₁ =>
        rw [Option.map_some, Option.bind_some, Option.bind_some]
        split
        next href =>
          have hval : c₁.value = .wrapped w := by
            rw [← hw]
            exact hs.shared _ (Store.get_mem hc₁) _ (Store.get_mem hc) href
          rw [hval]
          rfl
        next => rfl
  · rw [Store.get_put]
    by_cases hkey : key = key₁
    · rw [if_pos hkey, if_pos hkey]
      rfl
    · rw [if_neg hkey, if_neg hkey]

theorem Cache.Store.AllHold.get_eq (h : s.AllHold) {key : String} {c : Cell} (hc : s.get key = some c) :
    ∃ w, c.value = .wrapped w ∧ w.body.refresh_token.truthy = true ∧
      heldToken s key = some w.body.refresh_token := by
  obtain ⟨w, hw, ht⟩ := h.get hc
  refine ⟨w, hw, ht, ?_⟩
  unfold heldToken
  rw [hc, Option.bind_some, hw]
  rfl

theorem Cache.Store.AllHold.truthy (h : s.AllHold) {key : String} {t : Value}
    (ht : heldToken s key = some t) : t.truthy = true := by
  obtain ⟨c, hc, hct⟩ := Option.bind_eq_some_iff.mp ht
  obtain ⟨w, hw, htruthy, -⟩ := h.get_eq hc
  rw [hw] at hct
  rw [← Option.some.inj hct]
  exact htruthy

/-- Nothing matches, nothing is found. -/
theorem findEntry_none (hm : m.keyManifest = none) (hown : OwnKey k s)
    (hnone : s.get k.toKey = none) : m.findEntry k s = none := by
  have hmatch : Cache.matchExistingCacheKey k s.allKeys = none := by
    cases hkey : Cache.matchExistingCacheKey k s.allKeys with
    | none => rfl
    | some key =>
      obtain ⟨hmem, hmatches⟩ := Cache.matchExistingCacheKey_some hkey
      rw [hown hnone key hmem] at hmatches
      cases hmatches
  unfold Manager.findEntry Manager.getCacheKeys
  rw [hnone, hm]
  dsimp only
  rw [hmatch]
  rfl

/-- A lookup that depends on the requested key alone leaves the refresh tokens
where they are, and finds the one under that key. -/
theorem OwnKey.get (hown : OwnKey k s) (hm : m.keyManifest = none) (hs : s.Valid)
    (hall : s.AllHold) (adj now : Js.Num) :
    (∀ key, heldToken (m.get k adj now s).1 key = heldToken s key) ∧
      (m.get k adj now s).2.map Body.refresh_token = heldToken s k.toKey ∧
      OwnKey k (m.get k adj now s).1 := by
  cases hc : s.get k.toKey with
  | none =>
    -- nothing under the key, and by assumption no other key that matches
    have hget : m.get k adj now s = (s, none) := by
      unfold Manager.get
      rw [findEntry_none hm hown hc]
    rw [hget]
    refine ⟨fun _ => rfl, ?_, hown⟩
    unfold heldToken
    rw [hc]
    rfl
  | some c =>
    obtain ⟨w, hw, ht, hheld⟩ := hall.get_eq hc
    have hfind : m.findEntry k s = some c := by
      unfold Manager.findEntry
      rw [hc]
    unfold Manager.get
    rw [hfind]
    dsimp only
    rw [hw]
    dsimp only
    rw [if_pos ht]
    split
    · -- stripping keeps the refresh token, which is all that is held
      have hstrip := @heldToken_stripUnder m s hs k.toKey k.toKey c w hc hw
      refine ⟨?_, hheld.symm, ?_⟩
      · intro key
        rw [hstrip]
        split
        next hkey => rw [← hkey, hheld]
        next => rfl
      · intro hnone
        have hgone : heldToken (m.stripUnder k.toKey c w s) k.toKey = none := by
          unfold heldToken
          rw [hnone]
          rfl
        rw [hstrip, if_pos rfl] at hgone
        cases hgone
    · exact ⟨fun _ => rfl, hheld.symm, hown⟩

/-- A read keeps of every entry whether it has a refresh token. -/
theorem refreshTokens_get_step {has : Bool} (hs : s.Valid) (hm : m.keyManifest = none)
    (h : s.All fun _ v => ∃ w, v = .wrapped w ∧ w.body.refresh_token.truthy = has)
    (k : CacheKey) (adj now : Js.Num) :
    (m.get k adj now s).1.All fun _ v => ∃ w, v = .wrapped w ∧ w.body.refresh_token.truthy = has := by
  refine Cache.get_all hs h (fun cid _ hcid => by rw [hm] at hcid; cases hcid) ?_ ?_ adj now
  · rintro key w ⟨w', hw', ht⟩
    cases hw'
    exact ⟨w.strip, rfl, ht⟩
  · rintro key w ⟨w', hw', ht⟩ _
    cases hw'
    exact ⟨w.strip, rfl, ht⟩

theorem Cache.Store.AllHold.get_step (hs : s.Valid) (hm : m.keyManifest = none) (h : s.AllHold)
    (k : CacheKey) (adj now : Js.Num) : (m.get k adj now s).1.AllHold :=
  refreshTokens_get_step hs hm h k adj now

theorem Cache.Store.AllBare.get_step (hs : s.Valid) (hm : m.keyManifest = none) (h : s.AllBare)
    (k : CacheKey) (adj now : Js.Num) : (m.get k adj now s).1.AllBare :=
  refreshTokens_get_step hs hm h k adj now

/-- A cache without refresh tokens gives none. -/
theorem Cache.Store.AllBare.get_token (h : s.AllBare) :
    (((m.get k adj now s).2.map Body.refresh_token).getD .undefined).truthy = false := by
  rcases m.get_cases k adj now s with hg | ⟨c, w, hfind, hw, hg⟩
  · rw [hg]
    rfl
  · obtain ⟨key, hc, -⟩ := m.findEntry_mem hfind
    obtain ⟨w', hw', ht⟩ := h.get hc
    rw [hw] at hw'
    cases hw'
    rcases hg with ⟨-, hg⟩ | ⟨-, ht', -⟩ | ⟨-, -, hg⟩
    · rw [hg]
      exact ht
    · rw [ht] at ht'
      cases ht'
    · rw [hg]
      rfl

theorem Stale.get_step (hs : s.Valid) (hm : m.keyManifest = none) {now' : Js.Num}
    (h : Stale k now' s) (adj now : Js.Num) : Stale k now' (m.get k adj now s).1 := by
  have hgone : ∀ w : WrappedCacheEntry, ¬(Cacheable.wrapped w.strip).Live (.fin 60) now' :=
    fun w hlive => nomatch hlive.1
  refine Cache.get_all hs h (fun cid _ hcid => by rw [hm] at hcid; cases hcid) ?_ ?_ adj now
  · exact fun key w _ _ => hgone w
  · exact fun key w _ _ _ => hgone w

/-- A stale cache has no access token. -/
theorem Stale.not_hasAccessToken (h : Stale k now s) :
    ¬Cache.HasAccessToken (m.get k (.fin 60) now s).2 := by
  rw [Cache.hasAccessToken_get_iff]
  rintro ⟨c, hfind, hlive⟩
  obtain ⟨key, hc, hkey⟩ := m.findEntry_mem hfind
  exact h.get hc hkey hlive

/-- A lookup that finds something to hand out changes nothing. -/
theorem Found.get (h : Found m k now s) :
    ∃ e, m.get k (.fin 60) now s = (s, some (.entry e)) ∧ e.access_token.truthy = true := by
  obtain ⟨c, hfind, hlive⟩ := h
  unfold Manager.get
  rw [hfind]
  dsimp only
  cases hv : c.value with
  | manifest keys =>
    rw [hv] at hlive
    exact hlive.elim
  | wrapped w =>
    rw [hv] at hlive
    obtain ⟨ht, hlive⟩ := hlive
    dsimp only
    rw [if_neg hlive]
    cases hbody : w.body with
    | entry e =>
      rw [hbody] at ht
      exact ⟨e, rfl, ht⟩
    | refreshOnly r =>
      rw [hbody] at ht
      cases ht

end Held

/-! ## Two clients -/

namespace Setup

/-- The same client where `window.Worker` is there. -/
def withWorker (S : Setup) : Setup := { S with supportsWorker := true }

/-- The same client where it is not. -/
def withoutWorker (S : Setup) : Setup := { S with supportsWorker := false }

end Setup

/-- How a silent call gets its tokens. -/
inductive Grant where
  | refreshToken (refresh_token : Value)
  | iframe

def TokenEvent.grant : TokenEvent → Option Grant
  | .sent t => some (.refreshToken t)
  | .authorized => some .iframe
  | _ => none

/-- The grants a call has used. -/
def grants (events : List TokenEvent) : List Grant := events.filterMap TokenEvent.grant

inductive LoginRoute where
  | redirect (reloaded : Bool)
  | popup

/-- A token response, with the clocks at its arrival and at its storing. -/
structure Response where
  clock : Clock
  json : Obj
  now : Js.Num

/-- A call of the application, with what it meets on its way: the clocks of the
cache reads, the random values of an iframe and the organization hint, and the
token response, if it needs one. -/
inductive TokenCall where
  | login (route : LoginRoute) (call : Obj) (x : Secrets) (r : Response)
  | getTokenSilently (call : Obj) (first second choose : Js.Num) (x : Secrets) (orgIdHint : Value)
    (r : Response)

namespace LoginRoute

variable (S : Setup) (call : Obj) (x : Secrets)

/-- The login that waits for its token response. -/
def pending : LoginRoute → Pending
  | redirect reloaded =>
    .redirect (Flow.transaction reloaded S.client call ⟨S.browser, x, .undefined, .undefined, .undefined⟩)
  | popup => .waiting (.popup call x)

/-- The options of its token request. -/
def tokenOptions : LoginRoute → Obj
  | redirect reloaded =>
    S.client.redirectTokenOptions (Flow.transaction reloaded S.client call
      ⟨S.browser, x, .undefined, .undefined, .undefined⟩) .undefined
  | popup => S.client.popupTokenOptions S.browser call x .undefined

/-- A new page has neither the memory cache nor the worker of the old one. -/
def page (sh : Shared) : LoginRoute → Shared
  | redirect true => { isAuthenticated := sh.isAuthenticated }
  | _ => sh

end LoginRoute

/-- The flight of a silent call that joins no other. -/
def silentFlight (S : Setup) (call : Obj) : Flight :=
  let o := S.client.silentOptions call
  ⟨S.promiseKey o, false, o, (call.get "ignoreCache").truthy, (o.get "detailedResponse").truthy,
    .firstCheck⟩

namespace TokenCall

def response : TokenCall → Response
  | login _ _ _ r => r
  | getTokenSilently _ _ _ _ _ _ r => r

def flight (S : Setup) : TokenCall → Flight
  | login route call x _ =>
    let o := route.tokenOptions S call x
    loginFlight (route.pending S call x) (o.get "audience") (o.get "scope")
  | getTokenSilently call .. => silentFlight S call

/-- The steps of the call, whichever way it takes: a step it does not wait for
does nothing. -/
def ops : TokenCall → List FlightOp
  | login _ _ _ r => [.tokenAnswer r.clock (.ok ⟨true, r.json⟩), .store r.now, .save]
  | getTokenSilently _ first second choose x orgIdHint r =>
    [.check first, .lock true, .check second, .choose choose, .attempt, .authorize x orgIdHint,
      .tokenAnswer r.clock (.ok ⟨true, r.json⟩), .store r.now, .save, .release]

/-- The page the call is made on. -/
def page (sh : Shared) : TokenCall → Shared
  | login route .. => route.page sh
  | getTokenSilently .. => sh

/-- The whole call. -/
def perform (S : Setup) (sh : Shared) (c : TokenCall) : Progress :=
  (c.flight S).run S (c.page sh) c.ops

/-- The key the call is about. -/
def key (S : Setup) (c : TokenCall) : CacheKey := S.client.requestKey (c.flight S).options

/-- The slot of the worker it is about. -/
def slot (S : Setup) (c : TokenCall) : String :=
  Worker.cacheKey (workerAudience (c.flight S).options) ((c.flight S).options.get "scope")

end TokenCall

/-- What follows an event. -/
def Progress.after (e : TokenEvent) (p : Progress) : Progress := ⟨p.shared, p.flight, e :: p.events⟩

/-- The call resolves. -/
def Progress.Resolved (p : Progress) : Prop := ∃ o, p.flight.stage = .settled (.ok o)

theorem Progress.resolved_after {e : TokenEvent} {p : Progress} : (p.after e).Resolved ↔ p.Resolved :=
  Iff.rfl

theorem grants_after (e : TokenEvent) (p : Progress) :
    grants (p.after e).events = (e.grant.elim id List.cons) (grants p.events) := by
  show List.filterMap _ (e :: p.events) = _
  rw [List.filterMap_cons]
  cases e.grant with
  | none => rfl
  | some g => rfl

/-- The same calls on the client without the worker and on the one with it. -/
def twins (S : Setup) : Machine (Shared × Shared) TokenCall (List Grant × List Grant) where
  step s c :=
    let p := c.perform S.withoutWorker s.1
    let q := c.perform S.withWorker s.2
    ((p.shared, q.shared), (grants p.events, grants q.events))

theorem twins_step (S : Setup) (n w : Shared) (c : TokenCall) :
    (twins S).step (n, w) c =
      (((c.perform S.withoutWorker n).shared, (c.perform S.withWorker w).shared),
        (grants (c.perform S.withoutWorker n).events, grants (c.perform S.withWorker w).events)) :=
  rfl

/-- The token response of the call is successful, if there is one, and contains
a refresh token. -/
structure Successful (S : Setup) (s : Shared × Shared) (c : TokenCall) : Prop where
  token : (c.response.json.get "refresh_token").truthy = true
  without : (c.perform S.withoutWorker s.1).Resolved
  withWorker : (c.perform S.withWorker s.2).Resolved

/-- The two caches give a silent call the same start. -/
inductive SameStart (m : Manager) (k : CacheKey) (ignoreCache : Bool) (first second : Js.Num)
    (s t : Store) : Prop
  | cached : ignoreCache = false → Found m k first s → Found m k first t →
    SameStart m k ignoreCache first second s t
  | requested :
    (ignoreCache = false → (Stale k first s ∧ Stale k second s) ∧ Stale k first t ∧ Stale k second t) →
    OwnKey k s → SameStart m k ignoreCache first second s t

/-- The call does not depend on where the refresh tokens are kept. -/
def Indifferent (S : Setup) (s : Shared × Shared) (c : TokenCall) : Prop :=
  match c with
  | .login .. => True
  | .getTokenSilently call first second _ _ _ r =>
    S.client.silentClientId r.json = S.client.client_id ∧
      SameStart S.withoutWorker.manager (c.key S) (call.get "ignoreCache").truthy first second
        s.1.store s.2.store

/-! ## The end of a call -/

/-- Two options objects that are about the same key and slot. -/
theorem requestKey_congr {c : AuthokClient} {o o' : Obj} (ha : o.get "audience" = o'.get "audience")
    (hs : o.get "scope" = o'.get "scope") : c.requestKey o = c.requestKey o' := by
  unfold AuthokClient.requestKey
  rw [ha, hs]

/-- The call has stored the tokens of its response, for the key of `o`. -/
structure Completed (S : Setup) (sh : Shared) (f : Flight) (r : Response) (p : Progress) : Prop where
  stored : ∃ e, CacheKey.ofEntry e = S.client.requestKey f.options ∧
    e.refresh_token = (f.receive S sh r.json).2.get "refresh_token" ∧
    p.shared = { (f.receive S sh r.json).1 with
      store := S.manager.set e r.now (f.receive S sh r.json).1.store
      isAuthenticated := true }
  grants : grants p.events = []

section End

variable {S : Setup} {sh : Shared} {f : Flight} {r : Response}

/-- The last steps of a call, from its token response on. -/
def lastOps (f : Flight) (r : Response) : List FlightOp :=
  [.tokenAnswer r.clock (.ok ⟨true, r.json⟩), .store r.now, .save] ++
    if f.isLogin then [] else [.release]

/-- A response that is taken. -/
theorem run_accepted {e : CacheEntry}
    (h : f.step S sh (.tokenAnswer r.clock (.ok ⟨true, r.json⟩)) =
      ⟨(f.receive S sh r.json).1, f.goTo (.storing e r.json), [.received r.json]⟩) :
    (f.run S sh (lastOps f r)).shared = { (f.receive S sh r.json).1 with
      store := S.manager.set e r.now (f.receive S sh r.json).1.store
      isAuthenticated := true } ∧ grants (f.run S sh (lastOps f r)).events = [] ∧
      (f.run S sh (lastOps f r)).Resolved := by
  unfold lastOps
  rw [List.cons_append, Flight.run, h]
  cases hlogin : f.isLogin with
  | true =>
    simp only [Flight.run, Flight.step, Flight.goTo, Flight.store, Flight.leave, hlogin, if_true,
      List.append_nil, List.cons_append, List.nil_append]
    exact ⟨trivial, rfl, _, rfl⟩
  | false =>
    simp only [Flight.run, Flight.step, Flight.goTo, Flight.store, Flight.leave, hlogin,
      Bool.false_eq_true, if_false, List.append_nil, List.cons_append, List.nil_append]
    exact ⟨trivial, rfl, _, rfl⟩

/-- A response that is not ends in a rejection. -/
theorem run_rejected {sh' : Shared} {es : List TokenEvent} {rejection : Rejection}
    (h : f.step S sh (.tokenAnswer r.clock (.ok ⟨true, r.json⟩)) =
      ⟨sh', f.goTo (f.leave (.error rejection)), es⟩) :
    ¬(f.run S sh (lastOps f r)).Resolved := by
  unfold lastOps
  rw [List.cons_append, Flight.run, h]
  rintro ⟨o, ho⟩
  cases hlogin : f.isLogin with
  | true =>
    simp only [Flight.run, Flight.step, Flight.goTo, Flight.leave, hlogin, if_true,
      List.append_nil] at ho
    cases ho
  | false =>
    simp only [Flight.run, Flight.step, Flight.goTo, Flight.leave, hlogin,
      Bool.false_eq_true, if_false, List.append_nil, List.cons_append, List.nil_append] at ho
    cases ho

/-- What the page reads of a response. -/
theorem silentClientId_receive (hid : S.client.silentClientId r.json = S.client.client_id) :
    S.client.silentClientId
        ((f.receive S sh r.json).2.without ["error", "error_description"]) =
      S.client.client_id := by
  unfold AuthokClient.silentClientId at hid ⊢
  rw [Obj.find_without (by decide), Flight.receive_find _ (by decide)]
  exact hid

theorem refresh_token_receive :
    ((f.receive S sh r.json).2.without ["error", "error_description"]).get "refresh_token" =
      (f.receive S sh r.json).2.get "refresh_token" :=
  Obj.get_without (by decide)

/-- The step of a refresh that is answered. -/
theorem step_refresh {t : Value} (hstage : f.stage = .refreshSent t) :
    f.step S sh (.tokenAnswer r.clock (.ok ⟨true, r.json⟩)) =
      match S.client.finishRefresh r.clock f.options
        ((f.receive S sh r.json).2.without ["error", "error_description"]) with
      | .ok e => ⟨(f.receive S sh r.json).1, f.goTo (.storing e r.json), [.received r.json]⟩
      | .error _ => ⟨(f.receive S sh r.json).1, f.goTo (.releasing (.error .other)),
          [.received r.json]⟩ := by
  unfold Flight.step
  rw [hstage]
  rfl

/-- The step of a code exchange that is answered. -/
theorem step_exchange {p : Pending} (hstage : f.stage = .exchanging p) :
    f.step S sh (.tokenAnswer r.clock (.ok ⟨true, r.json⟩)) =
      match p.finish S.client S.browser r.clock
        ((f.receive S sh r.json).2.without ["error", "error_description"]) with
      | .ok e => ⟨(f.receive S sh r.json).1, f.goTo (.storing e r.json), [.received r.json]⟩
      | .error _ => ⟨(f.receive S sh r.json).1, f.goTo (f.leave (.error .other)),
          [.received r.json]⟩ := by
  unfold Flight.step
  rw [hstage]
  rfl

/-- A refresh that resolves. -/
theorem completed_refresh {t : Value} (hstage : f.stage = .refreshSent t)
    (hlogin : f.isLogin = false) (hid : S.client.silentClientId r.json = S.client.client_id)
    (hok : (f.run S sh (lastOps f r)).Resolved) :
    Completed S sh f r (f.run S sh (lastOps f r)) := by
  have hstep := @step_refresh S sh f r t hstage
  cases hfin : S.client.finishRefresh r.clock f.options
      ((f.receive S sh r.json).2.without ["error", "error_description"]) with
  | error e =>
    rw [hfin] at hstep
    have hleave : f.leave (.error .other) = .releasing (.error .other) := by
      rw [Flight.leave, hlogin]
      rfl
    exact absurd hok (@run_rejected S sh f r _ _ .other (by rw [hleave]; exact hstep))
  | ok e =>
    rw [hfin] at hstep
    obtain ⟨hshared, hgrants, -⟩ := run_accepted hstep
    have htokens := finishRefresh_tokens hfin
    obtain ⟨d, -, hd⟩ := bind_ok_iff.mp hfin
    refine ⟨⟨e, ?_, htokens.refresh_token.trans refresh_token_receive, hshared⟩, hgrants⟩
    rw [← Except.ok.inj hd]
    unfold CacheKey.ofEntry entryOf
    dsimp only
    rw [silentClientId_receive hid]
    rfl

/-- A code exchange that resolves. -/
theorem completed_exchange {p : Pending} (hstage : f.stage = .exchanging p)
    (hkey : ∀ e, p.finish S.client S.browser r.clock
      ((f.receive S sh r.json).2.without ["error", "error_description"]) = .ok e →
      CacheKey.ofEntry e = S.client.requestKey f.options)
    (hok : (f.run S sh (lastOps f r)).Resolved) :
    Completed S sh f r (f.run S sh (lastOps f r)) := by
  have hstep := @step_exchange S sh f r p hstage
  cases hfin : p.finish S.client S.browser r.clock
      ((f.receive S sh r.json).2.without ["error", "error_description"]) with
  | error e =>
    rw [hfin] at hstep
    exact absurd hok (@run_rejected S sh f r _ _ .other hstep)
  | ok e =>
    rw [hfin] at hstep
    obtain ⟨hshared, hgrants, -⟩ := run_accepted hstep
    have htokens := Pending.finish_tokens hfin
    exact ⟨⟨e, hkey e hfin, htokens.refresh_token.trans refresh_token_receive, hshared⟩, hgrants⟩

/-- An iframe of a silent call. -/
theorem completed_iframe {call : Obj} (hm : Merged S.client call f.options) {x : Secrets}
    {orgIdHint : Value} (hstage : f.stage = .exchanging (.waiting (.iframe f.options x orgIdHint)))
    (hid : S.client.silentClientId r.json = S.client.client_id)
    (hok : (f.run S sh (lastOps f r)).Resolved) :
    Completed S sh f r (f.run S sh (lastOps f r)) := by
  refine completed_exchange hstage ?_ hok
  intro e he
  obtain ⟨d, -, hd⟩ := bind_ok_iff.mp he
  obtain ⟨haud, hscope⟩ := hm.iframeParams S.browser x orgIdHint
  rw [← Except.ok.inj hd]
  unfold CacheKey.ofEntry entryOf AuthokClient.requestKey
  dsimp only
  rw [silentClientId_receive hid, haud, hscope, hm.get_audience, hm.scope]

end End

/-- A call with one member per name, whose audience is a string or not set. -/
structure TextAudience (c : AuthokClient) (call : Obj) : Prop where
  distinct : OrdMap.KeysNodup call
  text : OptionalText (c.wantedAudience call)

/-- The transaction of a redirect names its audience, also after a reload. -/
theorem transaction_audience {c : AuthokClient} {call : Obj} (h : TextAudience c call)
    (reloaded : Bool) (g : Given) :
    ∃ a, a ≠ "" ∧ (Flow.transaction reloaded c call g).audience = .str a := by
  have hparams : (c.redirectParams g.browser (AuthokClient.redirectOptions call) g.secrets).get
      "audience" = c.wantedAudience call := by
    unfold AuthokClient.redirectParams AuthokClient.redirectOptions
    rw [getParams_audience (Obj.keysNodup_without (Obj.keysNodup_without h.distinct _) _),
      wantedAudience_without (by decide), wantedAudience_without (by decide)]
  have hor : ∃ a, a ≠ "" ∧ (c.wantedAudience call).or (.str "default") = .str a := by
    rcases h.text with hu | ⟨a, ha⟩
    · exact ⟨"default", by decide, by rw [hu]; rfl⟩
    · by_cases hempty : a = ""
      · exact ⟨"default", by decide, by rw [ha, hempty]; rfl⟩
      · exact ⟨a, hempty, by rw [ha]; simp [Value.or, hempty]⟩
  obtain ⟨a, hne, ha⟩ := hor
  refine ⟨a, hne, ?_⟩
  unfold Flow.transaction
  cases reloaded with
  | true =>
    simp only [if_true, AuthokClient.Transaction.reload, AuthokClient.redirectTransaction, hparams,
      ha, jsonCopy_str]
  | false =>
    simp only [Bool.false_eq_true, if_false, AuthokClient.redirectTransaction, hparams, ha]

/-- A login. -/
theorem completed_login {S : Setup} {sh : Shared} {route : LoginRoute} {call : Obj} {x : Secrets}
    {r : Response} (h : TextAudience S.client call)
    (hok : ((TokenCall.login route call x r).flight S |>.run S sh
      (TokenCall.login route call x r).ops).Resolved) :
    Completed S sh ((TokenCall.login route call x r).flight S) r
      ((TokenCall.login route call x r).flight S |>.run S sh
        (TokenCall.login route call x r).ops) := by
  refine @completed_exchange S sh _ r _ rfl ?_ hok
  intro e he
  have hkey : S.client.requestKey ((TokenCall.login route call x r).flight S).options =
      S.client.requestKey (route.tokenOptions S call x) := requestKey_congr rfl rfl
  rw [hkey]
  cases route with
  | redirect reloaded =>
    obtain ⟨d, -, hd⟩ := bind_ok_iff.mp he
    rw [← Except.ok.inj hd]
    obtain ⟨a, hne, ha⟩ := transaction_audience h reloaded
      ⟨S.browser, x, .undefined, .undefined, .undefined⟩
    obtain ⟨haud, hscope⟩ := @redirectTokenOptions_get S.client
      (Flow.transaction reloaded S.client call ⟨S.browser, x, .undefined, .undefined, .undefined⟩)
      .undefined
    unfold CacheKey.ofEntry entryOf AuthokClient.requestKey LoginRoute.tokenOptions
    dsimp only
    rw [haud, hscope, ha]
    simp [Value.or, hne]
  | popup =>
    obtain ⟨d, -, hd⟩ := bind_ok_iff.mp he
    rw [← Except.ok.inj hd]
    rfl

/-! ## The start of a silent call -/

section Start

variable {S : Setup} {sh : Shared} {f : Flight}

theorem run_settled {r : Settlement} (hstage : f.stage = .settled r) (ops : List FlightOp) :
    f.run S sh ops = ⟨sh, f, []⟩ := by
  induction ops with
  | nil => rfl
  | cons op ops ih =>
    have hstep : f.step S sh op = ⟨sh, f, []⟩ := by
      unfold Flight.step
      rw [hstage]
    rw [Flight.run, hstep]
    dsimp only
    rw [ih]
    rfl

/-- A call that the cache answers. -/
theorem run_cached {now : Js.Num} (hstage : f.stage = .firstCheck) (hi : f.ignoreCache = false)
    (hfound : Found S.manager (S.client.requestKey f.options) now sh.store) (ops : List FlightOp) :
    (f.run S sh (.check now :: ops)).shared = sh ∧ (f.run S sh (.check now :: ops)).events = [] := by
  obtain ⟨e, hget, ht⟩ := hfound.get
  have hstep : f.step S sh (.check now) =
      ⟨sh, f.goTo (.settled (.ok ⟨.ofEntry f.detailedResponse e, none⟩)), []⟩ := by
    unfold Flight.step
    rw [hstage]
    simp only [Flight.cacheCheck, hi, Bool.false_eq_true, if_false, hget, ht, if_true]
  rw [Flight.run, hstep]
  dsimp only
  rw [run_settled rfl]
  exact ⟨rfl, rfl⟩

/-- The cache after a check. -/
def afterCheck (S : Setup) (f : Flight) (now : Js.Num) (s : Store) : Store :=
  if f.ignoreCache then s else (S.manager.get (S.client.requestKey f.options) (.fin 60) now s).1

theorem cacheCheck_stale {now : Js.Num} {hit : Settlement → Stage} {next : Stage}
    (h : f.ignoreCache = false → Stale (S.client.requestKey f.options) now sh.store) :
    f.cacheCheck S sh now hit next =
      ⟨{ sh with store := afterCheck S f now sh.store }, f.goTo next, []⟩ := by
  unfold afterCheck
  rcases @Flight.cacheCheck_cases S sh f now hit next with
    ⟨hi, hc⟩ | ⟨hi, found, rfl, ⟨e, hfound, ht, -⟩ | ⟨-, hc⟩⟩
  · rw [hc, hi]
    rfl
  · have hmiss := @Stale.not_hasAccessToken S.manager _ _ _ (h hi)
    rw [hfound] at hmiss
    exact absurd ht hmiss
  · rw [hc, hi]
    rfl

/-- A call that no cache answers comes to its choice. -/
theorem run_stale {first second : Js.Num} (hstage : f.stage = .firstCheck)
    (hm : S.manager.keyManifest = none) (hs : sh.store.Valid)
    (h : f.ignoreCache = false → Stale (S.client.requestKey f.options) first sh.store ∧
      Stale (S.client.requestKey f.options) second sh.store) (ops : List FlightOp) :
    f.run S sh (.check first :: .lock true :: .check second :: ops) =
      ((f.goTo .choosing).run S
        { sh with store := afterCheck S f second (afterCheck S f first sh.store) } ops).after
          .locked := by
  have hfirst : f.step S sh (.check first) =
      ⟨{ sh with store := afterCheck S f first sh.store }, f.goTo (.locking 0), []⟩ := by
    unfold Flight.step
    rw [hstage]
    exact cacheCheck_stale fun hi => (h hi).1
  have hsecond : (f.goTo .secondCheck).step S { sh with store := afterCheck S f first sh.store }
      (.check second) = ⟨{ sh with store := afterCheck S f second (afterCheck S f first sh.store) },
        f.goTo .choosing, []⟩ := by
    refine (@cacheCheck_stale S { sh with store := afterCheck S f first sh.store }
      (f.goTo .secondCheck) second .releasing .choosing ?_).trans rfl
    intro hi
    show Stale _ second (afterCheck S f first sh.store)
    unfold afterCheck
    rw [if_neg (by rw [show f.ignoreCache = false from hi]; simp)]
    exact (h hi).2.get_step hs hm _ _
  rw [Flight.run, hfirst]
  dsimp only
  rw [Flight.run]
  have hlock : (f.goTo (.locking 0)).step S { sh with store := afterCheck S f first sh.store }
      (.lock true) = ⟨{ sh with store := afterCheck S f first sh.store }, f.goTo .secondCheck,
        [.locked]⟩ := rfl
  rw [hlock]
  dsimp only
  rw [Flight.run, hsecond]
  rfl

/-- The refresh token a request can be made with: the one of the cache or, with
a worker, its own. -/
def availableToken (S : Setup) (sh : Shared) (o : Obj) (refresh_token : Value) : Option Value :=
  if S.hasWorker then Worker.request sh.refreshTokens (workerAudience o) (o.get "scope") refresh_token
  else if refresh_token.truthy then some refresh_token else none

/-- A silent flight that has posted a refresh. -/
def Flight.refreshing (f : Flight) (S : Setup) (refresh_token : Value) : Flight :=
  { f with options := S.client.refreshOptions f.options, stage := .refreshSent refresh_token }

/-- A silent flight that exchanges the code of its iframe. -/
def Flight.exchanging (f : Flight) (S : Setup) (x : Secrets) (orgIdHint : Value) : Flight :=
  { f with
    options := S.client.refreshOptions f.options
    stage := .exchanging (.waiting (.iframe (S.client.refreshOptions f.options) x orgIdHint)) }

theorem step_choose (hstage : f.stage = .choosing) (now : Js.Num) :
    f.step S sh (.choose now) = f.choose S sh now := by
  unfold Flight.step
  rw [hstage]

/-- An attempt sends what is available; the flight goes on to the iframe where nothing is. -/
theorem step_attempt {token : Value} (hstage : f.stage = .refreshing token)
    (hor : token.truthy = true ∨ S.hasWorker = true) :
    f.step S sh .attempt =
      match availableToken S sh f.options token with
      | some t => ⟨sh, f.goTo (.refreshSent token), [.sent t]⟩
      | none => ⟨sh, f.goTo .authorizing, []⟩ := by
  unfold Flight.step availableToken
  rw [hstage]
  dsimp only
  unfold Flight.attempt
  cases hw : S.hasWorker with
  | true =>
    simp only [if_true]
    split <;> simp only [*]
  | false =>
    have ht : token.truthy = true := by
      rcases hor with ht | hworker
      · exact ht
      · rw [hw] at hworker
        cases hworker
    simp only [Bool.false_eq_true, if_false, ht, if_true]

/-- A choice with a refresh token. -/
theorem run_choose_refresh {now : Js.Num} {x : Secrets} {orgIdHint t : Value}
    (hstage : f.stage = .choosing) (hu : S.useRefreshTokens = true)
    (ht : availableToken S sh (S.client.refreshOptions f.options)
      (f.cachedRefreshToken S sh now).2 = some t) (ops : List FlightOp) :
    f.run S sh (.choose now :: .attempt :: .authorize x orgIdHint :: ops) =
      ((f.refreshing S (f.cachedRefreshToken S sh now).2).run S
        { sh with store := (f.cachedRefreshToken S sh now).1 } ops).after (.sent t) := by
  have hstep := @step_choose S sh f hstage now
  rcases @Flight.choose_cases S sh f now with
    ⟨hno, -⟩ | ⟨-, found, rfl, ⟨hfalsy, hw, -⟩ | ⟨hor, hc⟩⟩
  · rw [hu] at hno
    cases hno
  · -- without worker and without a token nothing is available
    unfold availableToken at ht
    simp only [hw, hfalsy, Bool.false_eq_true, if_false] at ht
    cases ht
  · have hattempt := @step_attempt S { sh with store := (f.cachedRefreshToken S sh now).1 }
      { f with
        options := S.client.refreshOptions f.options
        stage := .refreshing (f.cachedRefreshToken S sh now).2 } _ rfl hor
    rw [show availableToken S { sh with store := (f.cachedRefreshToken S sh now).1 } _ _ = some t
      from ht] at hattempt
    rw [Flight.run, hstep, hc]
    dsimp only
    rw [Flight.run, hattempt]
    dsimp only
    rw [Flight.run]
    rfl

/-- A choice without one. -/
theorem run_choose_iframe {now : Js.Num} {x : Secrets} {orgIdHint : Value}
    (hstage : f.stage = .choosing) (hu : S.useRefreshTokens = true)
    (ht : availableToken S sh (S.client.refreshOptions f.options)
      (f.cachedRefreshToken S sh now).2 = none) (ops : List FlightOp) :
    f.run S sh (.choose now :: .attempt :: .authorize x orgIdHint :: ops) =
      ((f.exchanging S x orgIdHint).run S
        { sh with store := (f.cachedRefreshToken S sh now).1 } ops).after .authorized := by
  have hstep := @step_choose S sh f hstage now
  rcases @Flight.choose_cases S sh f now with
    ⟨hno, -⟩ | ⟨-, found, rfl, ⟨-, -, hc⟩ | ⟨hor, hc⟩⟩
  · rw [hu] at hno
    cases hno
  · rw [Flight.run, hstep, hc]
    rfl
  · -- the page posts the request and the worker has no token for it
    have hattempt := @step_attempt S { sh with store := (f.cachedRefreshToken S sh now).1 }
      { f with
        options := S.client.refreshOptions f.options
        stage := .refreshing (f.cachedRefreshToken S sh now).2 } _ rfl hor
    rw [show availableToken S { sh with store := (f.cachedRefreshToken S sh now).1 } _ _ = none
      from ht] at hattempt
    rw [Flight.run, hstep, hc]
    dsimp only
    rw [Flight.run, hattempt]
    rfl

end Start

/-! ## Both clients -/

/-- What the two clients have in common, on the keys of the calls of a run. -/
structure Twins (S : Setup) (calls : List TokenCall) (s : Shared × Shared) : Prop where
  valid : s.1.store.Valid
  valid_worker : s.2.store.Valid
  hold : s.1.store.AllHold
  bare : s.2.store.AllBare
  same : ∀ c ∈ calls, heldToken s.1.store (c.key S).toKey = s.2.refreshTokens.find (c.slot S)

/-- No two calls of the run fall together in one of the two encodings only. -/
def NoCollision (S : Setup) (calls : List TokenCall) : Prop :=
  ∀ c ∈ calls, ∀ c' ∈ calls, c.slot S = c'.slot S ↔ (c.key S).toKey = (c'.key S).toKey

theorem memory_manager {S : Setup} (h : S.withWorker.hasWorker = true) :
    S.useRefreshTokens = true ∧ S.manager.keyManifest = none := by
  unfold Setup.hasWorker at h
  simp only [Bool.and_eq_true] at h
  obtain ⟨⟨-, hu⟩, hloc⟩ := h
  refine ⟨hu, ?_⟩
  have hcustom : S.hasCustomCache = false := by
    cases hcustom : S.hasCustomCache with
    | false => rfl
    | true =>
      have hundef : S.withWorker.cacheLocation = .undefined := by
        unfold Setup.cacheLocation
        rw [show S.withWorker.hasCustomCache = true from hcustom]
        rfl
      rw [hundef] at hloc
      cases hloc
  unfold Setup.manager
  rw [hcustom]
  rfl

theorem receive_withoutWorker {S : Setup} {sh : Shared} {f : Flight} {json : Obj} :
    f.receive S.withoutWorker sh json = (sh, json) := by
  unfold Flight.receive
  rw [if_neg]
  unfold Setup.hasWorker Setup.withoutWorker
  simp

theorem receive_withWorker {S : Setup} (hS : S.withWorker.hasWorker = true) {sh : Shared}
    {f : Flight} {json : Obj} (htoken : (json.get "refresh_token").truthy = true) :
    f.receive S.withWorker sh json =
      ({ sh with
          refreshTokens := sh.refreshTokens.insert
            (Worker.cacheKey (workerAudience f.options) (f.options.get "scope"))
            (json.get "refresh_token") },
        json.without ["refresh_token"]) := by
  unfold Flight.receive Worker.response
  rw [if_pos hS, if_pos htoken]

theorem heldToken_set {m : Manager} (hm : m.keyManifest = none) (e : CacheEntry) (now : Js.Num)
    (s : Store) (key : String) :
    heldToken (m.set e now s) key =
      if (CacheKey.ofEntry e).toKey = key then some e.refresh_token else heldToken s key := by
  unfold heldToken Manager.set
  rw [hm]
  dsimp only
  rw [Store.get_put]
  split
  · rfl
  · rfl

section Twins

variable {S : Setup} {calls : List TokenCall} {s : Shared × Shared}

theorem twins_empty (n w : Bool) :
    Twins S calls (({ isAuthenticated := n } : Shared), ({ isAuthenticated := w } : Shared)) :=
  ⟨Store.valid_empty, Store.valid_empty, fun _ h => (nomatch h), fun _ h => (nomatch h),
    fun _ _ => rfl⟩

/-- Both clients store the tokens of a response. -/
theorem Twins.completed (h : Twins S calls s) (hS : S.withWorker.hasWorker = true)
    (hno : NoCollision S calls) {c : TokenCall} (hc : c ∈ calls) {r : Response}
    (htoken : (r.json.get "refresh_token").truthy = true) {f g : Flight} {p q : Progress}
    (hp : Completed S.withoutWorker s.1 f r p) (hq : Completed S.withWorker s.2 g r q)
    (hf : S.client.requestKey f.options = c.key S)
    (hg : Worker.cacheKey (workerAudience g.options) (g.options.get "scope") = c.slot S) :
    Twins S calls (p.shared, q.shared) := by
  obtain ⟨-, hm⟩ := memory_manager hS
  obtain ⟨e, hkey, he, hshared⟩ := hp.stored
  obtain ⟨e', -, he', hshared'⟩ := hq.stored
  rw [receive_withoutWorker] at he hshared
  rw [receive_withWorker hS htoken, hg] at he' hshared'
  -- the page without worker keeps the token in its entry; the worker keeps
  -- it out of the other one
  have hhold : e.refresh_token.truthy = true := by
    rw [he]
    exact htoken
  have hbare : e'.refresh_token.truthy = false := by
    rw [he', Obj.get_without_of_mem (by decide)]
    rfl
  rw [hshared, hshared']
  refine ⟨Cache.set_valid h.valid e _, Cache.set_valid h.valid_worker e' _, ?_, ?_, ?_⟩
  · refine Cache.set_all h.valid h.hold (fun cid _ hcid => ?_) ⟨_, rfl, hhold⟩
    rw [show S.withoutWorker.manager.keyManifest = none from hm] at hcid
    cases hcid
  · refine Cache.set_all h.valid_worker h.bare (fun cid _ hcid => ?_) ⟨_, rfl, hbare⟩
    rw [show S.withWorker.manager.keyManifest = none from hm] at hcid
    cases hcid
  · intro c' hc'
    show heldToken (S.manager.set e _ s.1.store) _ = OrdMap.find (OrdMap.insert _ _ _) _
    rw [heldToken_set hm, OrdMap.find_insert, hkey]
    show (if (S.client.requestKey f.options).toKey = _ then _ else _) = _
    rw [hf, h.same c' hc', he]
    -- slots are told apart exactly as keys are
    by_cases hslot : c.slot S = c'.slot S
    · rw [if_pos hslot, if_pos ((hno c hc c' hc').mp hslot)]
    · rw [if_neg hslot, if_neg (fun heq => hslot ((hno c hc c' hc').mpr heq))]

/-- The cache without the worker after reads for a key that decides alone. -/
structure Kept (k : CacheKey) (s s' : Store) : Prop where
  valid : s'.Valid
  hold : s'.AllHold
  held : ∀ key, heldToken s' key = heldToken s key
  own : OwnKey k s'

theorem Kept.get {m : Manager} (hm : m.keyManifest = none) {k : CacheKey} {s s' : Store}
    (h : Kept k s s') (adj now : Js.Num) : Kept k s (m.get k adj now s').1 := by
  obtain ⟨hheld, -, hown⟩ := h.own.get hm h.valid h.hold adj now
  exact ⟨Cache.get_valid h.valid .., h.hold.get_step h.valid hm k adj now, fun key =>
    (hheld key).trans (h.held key), hown⟩

theorem Kept.afterCheck {S : Setup} (hm : S.manager.keyManifest = none) {f : Flight}
    {s s' : Store} (h : Kept (S.client.requestKey f.options) s s') (now : Js.Num) :
    Kept (S.client.requestKey f.options) s (afterCheck S f now s') := by
  unfold AuthokSpa.afterCheck
  split
  · exact h
  · exact h.get hm _ now

/-- The cache with the worker after reads. -/
theorem bare_afterCheck {S : Setup} (hm : S.manager.keyManifest = none) {f : Flight} {s : Store}
    (hs : s.Valid) (h : s.AllBare) (now : Js.Num) :
    (afterCheck S f now s).Valid ∧ (afterCheck S f now s).AllBare := by
  unfold afterCheck
  split
  · exact ⟨hs, h⟩
  · exact ⟨Cache.get_valid hs .., h.get_step hs hm _ _ now⟩

/-- A refresh is about the same key and slot as the call. -/
theorem refreshOptions_key {c : AuthokClient} {call : Obj} (hcall : OrdMap.KeysNodup call) :
    (c.refreshOptions (c.silentOptions call)).get "audience" =
        (c.silentOptions call).get "audience" ∧
      (c.refreshOptions (c.silentOptions call)).get "scope" =
        (c.silentOptions call).get "scope" := by
  have hm : Merged c call (c.silentOptions call) := merged_silent hcall
  have hr : Merged c call (c.refreshOptions (c.silentOptions call)) := merged_refresh hcall
  exact ⟨hr.get_audience.trans hm.get_audience.symm, hr.scope.trans hm.scope.symm⟩

/-- The steps of a silent call from its choice on. -/
def choiceOps (f : Flight) (now : Js.Num) (x : Secrets) (orgIdHint : Value) (r : Response) :
    List FlightOp :=
  .choose now :: .attempt :: .authorize x orgIdHint :: lastOps f r

/-- The end of a silent call, whichever grant it uses. -/
theorem completed_silent {S : Setup} {sh : Shared} {call : Obj} {f : Flight} {now : Js.Num}
    {x : Secrets} {orgIdHint : Value} {r : Response} (hcall : OrdMap.KeysNodup call)
    (hoptions : f.options = S.client.silentOptions call) (hlogin : f.isLogin = false)
    (hstage : f.stage = .choosing) (hu : S.useRefreshTokens = true)
    (hid : S.client.silentClientId r.json = S.client.client_id)
    (hok : (f.run S sh (choiceOps f now x orgIdHint r)).Resolved) :
    ∃ g p, g.options = S.client.refreshOptions f.options ∧
      Completed S { sh with store := (f.cachedRefreshToken S sh now).1 } g r p ∧
      (f.run S sh (choiceOps f now x orgIdHint r)).shared = p.shared ∧
      grants (f.run S sh (choiceOps f now x orgIdHint r)).events =
        [(availableToken S sh (S.client.refreshOptions f.options)
          (f.cachedRefreshToken S sh now).2).elim .iframe .refreshToken] := by
  unfold choiceOps at hok ⊢
  cases ht : availableToken S sh (S.client.refreshOptions f.options)
      (f.cachedRefreshToken S sh now).2 with
  | some t =>
    rw [run_choose_refresh hstage hu ht] at hok ⊢
    have hlast : lastOps f r = lastOps (f.refreshing S (f.cachedRefreshToken S sh now).2) r := rfl
    rw [hlast] at hok ⊢
    have hdone := @completed_refresh S { sh with store := (f.cachedRefreshToken S sh now).1 }
      (f.refreshing S (f.cachedRefreshToken S sh now).2) r _ rfl hlogin hid
      (Progress.resolved_after.mp hok)
    refine ⟨f.refreshing S (f.cachedRefreshToken S sh now).2, _, rfl, hdone, rfl, ?_⟩
    rw [grants_after, hdone.grants]
    rfl
  | none =>
    rw [run_choose_iframe hstage hu ht] at hok ⊢
    have hlast : lastOps f r = lastOps (f.exchanging S x orgIdHint) r := rfl
    rw [hlast] at hok ⊢
    have hmerged : Merged S.client call (f.exchanging S x orgIdHint).options := by
      show Merged S.client call (S.client.refreshOptions f.options)
      rw [hoptions]
      exact merged_refresh hcall
    have hdone := @completed_iframe S { sh with store := (f.cachedRefreshToken S sh now).1 }
      (f.exchanging S x orgIdHint) r call hmerged x orgIdHint rfl hid
      (Progress.resolved_after.mp hok)
    refine ⟨f.exchanging S x orgIdHint, _, rfl, hdone, rfl, ?_⟩
    rw [grants_after, hdone.grants]
    rfl

/-- The call of a step has one member per name and a text for an audience. -/
def TokenCall.Typed (S : Setup) : TokenCall → Prop
  | .login _ call _ _ => TextAudience S.client call
  | .getTokenSilently call .. => OrdMap.KeysNodup call

theorem Twins.login (h : Twins S calls s) (hS : S.withWorker.hasWorker = true)
    (hno : NoCollision S calls) {route : LoginRoute} {call : Obj} {x : Secrets} {r : Response}
    (hc : TokenCall.login route call x r ∈ calls) (htyped : TextAudience S.client call)
    (hok : Successful S s (.login route call x r)) :
    Twins S calls ((twins S).step s (.login route call x r)).1 ∧
      ((twins S).step s (.login route call x r)).2.1 =
        ((twins S).step s (.login route call x r)).2.2 := by
  have hp := @completed_login S.withoutWorker (route.page s.1) route call x r htyped hok.without
  have hq := @completed_login S.withWorker (route.page s.2) route call x r htyped hok.withWorker
  have hpage : Twins S calls (route.page s.1, route.page s.2) := by
    cases route with
    | popup => exact h
    | redirect reloaded =>
      cases reloaded with
      | true => exact twins_empty _ _
      | false => exact h
  exact ⟨hpage.completed hS hno hc hok.token hp hq rfl rfl, hp.grants.trans hq.grants.symm⟩

/-- What the two clients have to keep in a step. -/
def Twins.Next (S : Setup) (calls : List TokenCall) (p q : Progress) : Prop :=
  Twins S calls (p.shared, q.shared) ∧ grants p.events = grants q.events

theorem Twins.cached (h : Twins S calls s) {call : Obj} {first second choose : Js.Num} {x : Secrets}
    {orgIdHint : Value} {r : Response} (hi : (call.get "ignoreCache").truthy = false)
    (hn : Found S.manager (S.client.requestKey (S.client.silentOptions call)) first s.1.store)
    (hw : Found S.manager (S.client.requestKey (S.client.silentOptions call)) first s.2.store) :
    Twins.Next S calls
      ((TokenCall.getTokenSilently call first second choose x orgIdHint r).perform S.withoutWorker s.1)
      ((TokenCall.getTokenSilently call first second choose x orgIdHint r).perform S.withWorker s.2) := by
  obtain ⟨hp, hpe⟩ := @run_cached S.withoutWorker s.1 (silentFlight S.withoutWorker call) first rfl
    hi hn (TokenCall.getTokenSilently call first second choose x orgIdHint r).ops.tail
  obtain ⟨hq, hqe⟩ := @run_cached S.withWorker s.2 (silentFlight S.withWorker call) first rfl hi hw
    (TokenCall.getTokenSilently call first second choose x orgIdHint r).ops.tail
  refine ⟨?_, (congrArg grants hpe).trans (congrArg grants hqe).symm⟩
  have hpair := congrArg₂ Prod.mk hp hq
  exact hpair ▸ h

/-- A silent call up to its choice; the worker has no part in it. -/
theorem perform_requested (worker : Bool) (hm : S.manager.keyManifest = none) {sh : Shared}
    (hs : sh.store.Valid) {call : Obj} {first second choose : Js.Num} {x : Secrets}
    {orgIdHint : Value} {r : Response}
    (hstale : (call.get "ignoreCache").truthy = false →
      Stale (S.client.requestKey (S.client.silentOptions call)) first sh.store ∧
        Stale (S.client.requestKey (S.client.silentOptions call)) second sh.store) :
    (TokenCall.getTokenSilently call first second choose x orgIdHint r).perform
        { S with supportsWorker := worker } sh =
      (((silentFlight S call).goTo .choosing).run { S with supportsWorker := worker }
        { sh with
          store := afterCheck S (silentFlight S call) second
            (afterCheck S (silentFlight S call) first sh.store) }
        (choiceOps ((silentFlight S call).goTo .choosing) choose x orgIdHint r)).after .locked :=
  @run_stale { S with supportsWorker := worker } sh (silentFlight S call) first second rfl hm hs
    hstale _

/-- Without the worker, the token for a refresh is the one under the key. -/
theorem available_without {sh : Shared} {f : Flight} {call : Obj} (hcall : OrdMap.KeysNodup call)
    (hm : S.manager.keyManifest = none) (hf : f.options = S.client.silentOptions call)
    {s : Store} (h : Kept (S.client.requestKey f.options) s sh.store) (now : Js.Num) :
    availableToken S.withoutWorker sh (S.client.refreshOptions f.options)
        (f.cachedRefreshToken S.withoutWorker sh now).2 =
          heldToken s (S.client.requestKey f.options).toKey ∧
      Kept (S.client.requestKey f.options) s (f.cachedRefreshToken S.withoutWorker sh now).1 := by
  obtain ⟨ha, hs⟩ := @refreshOptions_key S.client call hcall
  have hkey : S.client.requestKey (S.client.refreshOptions f.options) =
      S.client.requestKey f.options := by
    rw [hf]
    exact requestKey_congr ha hs
  have hw : S.withoutWorker.hasWorker = false := by simp [Setup.hasWorker, Setup.withoutWorker]
  have hcached : f.cachedRefreshToken S.withoutWorker sh now =
      ((S.manager.get (S.client.requestKey f.options) (.fin 0) now sh.store).1,
        ((S.manager.get (S.client.requestKey f.options) (.fin 0) now sh.store).2.map
          Body.refresh_token).getD .undefined) := by
    rw [← hkey]
    rfl
  obtain ⟨-, htoken, -⟩ := h.own.get hm h.valid h.hold (.fin 0) now
  rw [hcached]
  refine ⟨?_, h.get hm _ now⟩
  unfold availableToken
  rw [hw, if_neg (by simp), htoken, ← h.held]
  cases hheld : heldToken sh.store (S.client.requestKey f.options).toKey with
  | none => rfl
  | some t => rw [Option.getD_some, if_pos (h.hold.truthy hheld)]

/-- With the worker it is the one in its slot. -/
theorem available_with (hS : S.withWorker.hasWorker = true) {sh : Shared} {f : Flight} {call : Obj}
    (hcall : OrdMap.KeysNodup call) (hf : f.options = S.client.silentOptions call)
    (hbare : sh.store.AllBare)
    (htruthy : ∀ t, sh.refreshTokens.find (Worker.cacheKey (workerAudience f.options)
      (f.options.get "scope")) = some t → t.truthy = true) (now : Js.Num) :
    availableToken S.withWorker sh (S.client.refreshOptions f.options)
        (f.cachedRefreshToken S.withWorker sh now).2 =
      sh.refreshTokens.find (Worker.cacheKey (workerAudience f.options) (f.options.get "scope")) := by
  obtain ⟨ha, hs⟩ := @refreshOptions_key S.client call hcall
  have hfalsy : (f.cachedRefreshToken S.withWorker sh now).2.truthy = false := hbare.get_token
  unfold availableToken Worker.request workerAudience
  rw [if_pos hS, hfalsy, hf, ha, hs, if_neg (by simp), ← hf]
  cases hfind : OrdMap.find sh.refreshTokens (Worker.cacheKey
      ((f.options.get "audience").or (.str "default")) (f.options.get "scope")) with
  | none => rfl
  | some t =>
    dsimp only
    rw [if_pos (htruthy t hfind)]

/-- Both clients from their choice on. -/
theorem Twins.chosen (h : Twins S calls s) (hS : S.withWorker.hasWorker = true)
    (hno : NoCollision S calls) {c : TokenCall} (hc : c ∈ calls) {call : Obj}
    (hcall : OrdMap.KeysNodup call) {f : Flight} (hf : f.options = S.client.silentOptions call)
    (hkey : S.client.requestKey f.options = c.key S)
    (hslot : Worker.cacheKey (workerAudience f.options) (f.options.get "scope") = c.slot S)
    (hlogin : f.isLogin = false) (hstage : f.stage = .choosing) {r : Response}
    (htoken : (r.json.get "refresh_token").truthy = true)
    (hid : S.client.silentClientId r.json = S.client.client_id) {n w : Shared}
    (hn : Kept (S.client.requestKey f.options) s.1.store n.store) (hw : w.store.Valid)
    (hbare : w.store.AllBare) (hmemory : w.refreshTokens = s.2.refreshTokens) {now : Js.Num}
    {x : Secrets} {orgIdHint : Value}
    (hokn : (f.run S.withoutWorker n (choiceOps f now x orgIdHint r)).Resolved)
    (hokw : (f.run S.withWorker w (choiceOps f now x orgIdHint r)).Resolved) :
    Twins.Next S calls (f.run S.withoutWorker n (choiceOps f now x orgIdHint r))
      (f.run S.withWorker w (choiceOps f now x orgIdHint r)) := by
  obtain ⟨hu, hm⟩ := memory_manager hS
  obtain ⟨ha, hs⟩ := @refreshOptions_key S.client call hcall
  obtain ⟨g, p, hg, hp, hpshared, hpgrants⟩ :=
    @completed_silent S.withoutWorker n call f now x orgIdHint r hcall hf hlogin hstage hu hid hokn
  obtain ⟨g', q, hg', hq, hqshared, hqgrants⟩ :=
    @completed_silent S.withWorker w call f now x orgIdHint r hcall hf hlogin hstage hu hid hokw
  obtain ⟨hwithout, hkept⟩ := available_without hcall hm hf hn now
  -- the page without worker holds the token that the worker holds
  have hsame : heldToken s.1.store (S.client.requestKey f.options).toKey =
      w.refreshTokens.find (Worker.cacheKey (workerAudience f.options) (f.options.get "scope")) := by
    rw [hkey, hslot, hmemory]
    exact h.same c hc
  have hwith := available_with hS hcall hf hbare (fun t ht => h.hold.truthy (hsame.trans ht)) now
  -- the two states after the read for a refresh token
  have hbase : Twins S calls
      ({ n with store := (f.cachedRefreshToken S.withoutWorker n now).1 },
        { w with store := (f.cachedRefreshToken S.withWorker w now).1 }) := by
    refine ⟨hkept.valid, Cache.get_valid hw .., hkept.hold, hbare.get_step hw hm _ _ now, ?_⟩
    intro c' hc'
    show heldToken _ _ = w.refreshTokens.find _
    rw [hkept.held, hmemory]
    exact h.same c' hc'
  refine ⟨?_, ?_⟩
  · rw [hpshared, hqshared]
    refine hbase.completed hS hno hc htoken hp hq ?_ ?_
    · rw [hg, ← hkey, hf]
      exact requestKey_congr ha hs
    · rw [hg', ← hslot, hf]
      unfold workerAudience
      show Worker.cacheKey (Value.or (Obj.get (S.client.refreshOptions _) _) _)
        (Obj.get (S.client.refreshOptions _) _) = _
      rw [ha, hs]
  · rw [hpgrants, hqgrants]
    show [Option.elim (availableToken S.withoutWorker n (S.client.refreshOptions _) _) _ _] =
      [Option.elim (availableToken S.withWorker w (S.client.refreshOptions _) _) _ _]
    rw [hwithout, hwith, hsame]

theorem Twins.requested (h : Twins S calls s) (hS : S.withWorker.hasWorker = true)
    (hno : NoCollision S calls) {call : Obj} {first second choose : Js.Num} {x : Secrets}
    {orgIdHint : Value} {r : Response}
    (hc : TokenCall.getTokenSilently call first second choose x orgIdHint r ∈ calls)
    (hcall : OrdMap.KeysNodup call)
    (hok : Successful S s (.getTokenSilently call first second choose x orgIdHint r))
    (hid : S.client.silentClientId r.json = S.client.client_id)
    (hstale : (call.get "ignoreCache").truthy = false →
      (Stale (S.client.requestKey (S.client.silentOptions call)) first s.1.store ∧
        Stale (S.client.requestKey (S.client.silentOptions call)) second s.1.store) ∧
      Stale (S.client.requestKey (S.client.silentOptions call)) first s.2.store ∧
        Stale (S.client.requestKey (S.client.silentOptions call)) second s.2.store)
    (hown : OwnKey (S.client.requestKey (S.client.silentOptions call)) s.1.store) :
    Twins.Next S calls
      ((TokenCall.getTokenSilently call first second choose x orgIdHint r).perform S.withoutWorker s.1)
      ((TokenCall.getTokenSilently call first second choose x orgIdHint r).perform S.withWorker s.2) := by
  obtain ⟨-, hm⟩ := memory_manager hS
  have hokn := hok.without
  have hokw := hok.withWorker
  -- neither cache has an access token: both calls come to their choice
  have hrunn := @perform_requested S false hm s.1 h.valid call first second choose x orgIdHint r
    fun hi => (hstale hi).1
  have hrunw := @perform_requested S true hm s.2 h.valid_worker call first second choose x orgIdHint r
    fun hi => (hstale hi).2
  unfold Setup.withoutWorker at hokn ⊢
  unfold Setup.withWorker at hokw ⊢
  rw [hrunn] at hokn ⊢
  rw [hrunw] at hokw ⊢
  -- the two checks on the way leave the refresh tokens where they were
  have hkept : Kept (S.client.requestKey (S.client.silentOptions call)) s.1.store s.1.store :=
    ⟨h.valid, h.hold, fun _ => rfl, hown⟩
  have hkept₁ := @Kept.afterCheck S hm (silentFlight S call) _ _ hkept first
  have hkept₂ := @Kept.afterCheck S hm (silentFlight S call) _ _ hkept₁ second
  obtain ⟨hvalid₁, hbare₁⟩ := @bare_afterCheck S hm (silentFlight S call) _ h.valid_worker h.bare first
  obtain ⟨hvalid₂, hbare₂⟩ := @bare_afterCheck S hm (silentFlight S call) _ hvalid₁ hbare₁ second
  have hnext := @Twins.chosen S calls s h hS hno _ hc call hcall
    ((silentFlight S call).goTo .choosing) rfl rfl rfl rfl rfl r hok.token hid
    { s.1 with
      store := afterCheck S (silentFlight S call) second
        (afterCheck S (silentFlight S call) first s.1.store) }
    { s.2 with
      store := afterCheck S (silentFlight S call) second
        (afterCheck S (silentFlight S call) first s.2.store) }
    hkept₂ hvalid₂ hbare₂ rfl choose x orgIdHint (Progress.resolved_after.mp hokn)
    (Progress.resolved_after.mp hokw)
  refine ⟨hnext.1, ?_⟩
  rw [grants_after, grants_after]
  exact hnext.2

end Twins

/-- **The worker does not change the grant.** In every run of logins and silent
calls whose token responses are successful and contain a refresh token, the
client without the worker and the client with it use the same grant at every
call and present the same refresh token, as long as every silent call is
indifferent to where the tokens are kept and no two calls fall together in the
keys of the cache or of the worker alone. -/
theorem same_grant (S : Setup) (hS : S.withWorker.hasWorker = true) {calls : List TokenCall}
    (htyped : ∀ c ∈ calls, c.Typed S) (hno : NoCollision S calls)
    (hrun : (twins S).Meets (fun s c => Successful S s c ∧ Indifferent S s c) ({}, {}) calls) :
    ∀ x ∈ (twins S).trace ({}, {}) calls, x.2.1 = x.2.2 := by
  have hmem : (twins S).Meets (fun _ c => c ∈ calls) ({}, {}) calls :=
    (twins S).meets_of_forall _ fun c hc _ => hc
  refine Machine.trace_guarded (P := Twins S calls) (Q := fun _ g => g.1 = g.2) ?_ calls _
    (twins_empty false false) ((twins S).meets_and hrun hmem)
  rintro s c h ⟨⟨hok, hind⟩, hc⟩
  cases c with
  | login route call x r => exact h.login hS hno hc (htyped _ hc) hok
  | getTokenSilently call first second choose x orgIdHint r =>
    obtain ⟨hid, hstart⟩ := hind
    cases hstart with
    | cached hi hn hw => exact h.cached hi hn hw
    | requested hstale hown => exact h.requested hS hno hc (htyped _ hc) hok hid hstale hown

/-! ## A login and a refresh -/

/-- A token response that the sample client takes from any of its flows. -/
def sampleTokens : Response :=
  ⟨sampleClock, sampleResponse "access" (.str "refresh"), sampleClock.nowProvider⟩

def sampleSecrets : Secrets := ⟨"state", "nonce", "verifier"⟩

/-- A popup login. -/
def popupCall (call : Obj) : TokenCall := .login .popup call sampleSecrets sampleTokens

/-- A silent call that has to send a request. -/
def refreshCall : TokenCall :=
  .getTokenSilently [("ignoreCache", .bool true)] sampleClock.nowProvider sampleClock.nowProvider
    sampleClock.nowProvider sampleSecrets .undefined sampleTokens

section Sample

variable {w : Bool} {sh : Shared} {f : Flight}

theorem sampleTokens_idToken :
    ((f.receive (sampleSetup true w) sh sampleTokens.json).2.without
      ["error", "error_description"]).get "id_token" = .str sampleClaims.token := by
  rw [Obj.get_without (by decide), Flight.receive_get _ (by decide)]
  rfl

theorem resolved_exchange {p : Pending} (hstage : f.stage = .exchanging p)
    (hnonce : ∀ r : Obj, r.get "id_token" = .str sampleClaims.token → ∃ e,
      p.finish (sampleSetup true w).client (sampleSetup true w).browser sampleClock r = .ok e) :
    (f.run (sampleSetup true w) sh (lastOps f sampleTokens)).Resolved := by
  obtain ⟨e, he⟩ := hnonce _ sampleTokens_idToken
  have hstep := @step_exchange (sampleSetup true w) sh f sampleTokens p hstage
  rw [show sampleTokens.clock = sampleClock from rfl, he] at hstep
  exact (run_accepted hstep).2.2

theorem resolved_popup {call : Obj} (horg : call.get "organization" = .undefined) :
    ((popupCall call).perform (sampleSetup true w) sh).Resolved := by
  refine @resolved_exchange w sh ((popupCall call).flight (sampleSetup true w)) _ rfl ?_
  intro r hr
  refine ⟨_, bind_ok_iff.mpr ⟨sampleClaims.decoded, ?_, rfl⟩⟩
  rw [hr, horg]
  exact sample_verify true w fun _ => rfl

theorem resolved_refresh {t : Value} (hstage : f.stage = .refreshSent t) :
    (f.run (sampleSetup true w) sh (lastOps f sampleTokens)).Resolved := by
  have hstep := @step_refresh (sampleSetup true w) sh f sampleTokens t hstage
  have hfin : ∃ e, (sampleSetup true w).client.finishRefresh sampleClock f.options
      ((f.receive (sampleSetup true w) sh sampleTokens.json).2.without
        ["error", "error_description"]) = .ok e := by
    refine ⟨_, bind_ok_iff.mpr ⟨sampleClaims.decoded, ?_, rfl⟩⟩
    rw [sampleTokens_idToken]
    exact sample_verify true w fun h => (nomatch h)
  obtain ⟨e, he⟩ := hfin
  rw [show sampleTokens.clock = sampleClock from rfl, he] at hstep
  exact (run_accepted hstep).2.2

/-- The silent call at its choice. -/
def choosingFlight : Flight :=
  (silentFlight (sampleSetup true true) [("ignoreCache", .bool true)]).goTo .choosing

theorem perform_refreshCall (hs : sh.store.Valid) :
    refreshCall.perform (sampleSetup true w) sh =
      (choosingFlight.run (sampleSetup true w) sh
        (choiceOps choosingFlight sampleClock.nowProvider sampleSecrets .undefined
          sampleTokens)).after .locked :=
  @perform_requested (sampleSetup true true) w rfl sh hs _ _ _ _ _ _ _ fun h => (nomatch h)

theorem resolved_choice (hstage : f.stage = .choosing) (now : Js.Num) :
    (f.run (sampleSetup true w) sh
      (choiceOps f now sampleSecrets .undefined sampleTokens)).Resolved := by
  unfold choiceOps
  cases ht : availableToken (sampleSetup true w) sh
      ((sampleSetup true w).client.refreshOptions f.options)
      (f.cachedRefreshToken (sampleSetup true w) sh now).2 with
  | some t =>
    rw [run_choose_refresh hstage rfl ht]
    refine Progress.resolved_after.mpr ?_
    exact @resolved_refresh w _ (f.refreshing (sampleSetup true w)
      (f.cachedRefreshToken (sampleSetup true w) sh now).2) _ rfl
  | none =>
    rw [run_choose_iframe hstage rfl ht]
    refine Progress.resolved_after.mpr ?_
    refine @resolved_exchange w _ (f.exchanging (sampleSetup true w) sampleSecrets .undefined) _ rfl ?_
    intro r hr
    refine ⟨_, bind_ok_iff.mpr ⟨sampleClaims.decoded, ?_, rfl⟩⟩
    rw [hr]
    exact sample_verify true w fun _ => rfl

/-- The two clients after a popup login. -/
theorem shared_popupCall {call : Obj} (hcall : TextAudience (sampleClient true) call)
    (horg : call.get "organization" = .undefined) :
    ∃ e e', CacheKey.ofEntry e = (popupCall call).key (sampleSetup true true) ∧
      e.refresh_token = .str "refresh" ∧ e'.refresh_token = .undefined ∧
      ((popupCall call).perform (sampleSetup true true).withoutWorker {}).shared =
        { store := (sampleSetup true true).manager.set e sampleClock.nowProvider {}
          isAuthenticated := true } ∧
      ((popupCall call).perform (sampleSetup true true).withWorker {}).shared =
        { store := (sampleSetup true true).manager.set e' sampleClock.nowProvider {}
          refreshTokens := [((popupCall call).slot (sampleSetup true true), .str "refresh")]
          isAuthenticated := true } := by
  obtain ⟨e, hkey, htoken, hshared⟩ := (@completed_login (sampleSetup true true).withoutWorker {}
    .popup call sampleSecrets sampleTokens hcall (@resolved_popup false _ _ horg)).stored
  obtain ⟨e', -, htoken', hshared'⟩ := (@completed_login (sampleSetup true true).withWorker {}
    .popup call sampleSecrets sampleTokens hcall (@resolved_popup true _ _ horg)).stored
  rw [receive_withoutWorker] at htoken hshared
  rw [receive_withWorker rfl rfl] at htoken' hshared'
  exact ⟨e, e', hkey, htoken, htoken'.trans (Obj.get_without_of_mem (by decide)), hshared, hshared'⟩

theorem successful_popupCall {call : Obj} (horg : call.get "organization" = .undefined)
    (s : Shared × Shared) : Successful (sampleSetup true true) s (popupCall call) :=
  ⟨rfl, @resolved_popup false _ _ horg, @resolved_popup true _ _ horg⟩

theorem successful_refreshCall {s : Shared × Shared} (hs : s.1.store.Valid) (hs' : s.2.store.Valid) :
    Successful (sampleSetup true true) s refreshCall := by
  refine ⟨rfl, ?_, ?_⟩
  · rw [show refreshCall.perform (sampleSetup true true).withoutWorker s.1 = _ from
      @perform_refreshCall false s.1 hs]
    exact Progress.resolved_after.mpr (resolved_choice rfl _)
  · rw [show refreshCall.perform (sampleSetup true true).withWorker s.2 = _ from
      @perform_refreshCall true s.2 hs']
    exact Progress.resolved_after.mpr (resolved_choice rfl _)

end Sample

/-- After a login with the client's own scope, both clients refresh with its
token. -/
theorem same_grant_refresh :
    ((twins (sampleSetup true true)).trace ({}, {}) [popupCall [], refreshCall]).map
        (fun x => x.2.1) =
      ((twins (sampleSetup true true)).trace ({}, {}) [popupCall [], refreshCall]).map
        (fun x => x.2.2) := by
  refine List.map_congr_left ?_
  have hcall : TextAudience (sampleClient true) [] := ⟨List.nodup_nil, Or.inl rfl⟩
  have hkey : (popupCall []).key (sampleSetup true true) = refreshCall.key (sampleSetup true true) := by
    decide +kernel
  have hslot : (popupCall []).slot (sampleSetup true true) = refreshCall.slot (sampleSetup true true) := by
    decide +kernel
  obtain ⟨e, e', he, -, -, hn, hw⟩ := shared_popupCall hcall rfl
  have hvalid : ∀ e : CacheEntry, ((sampleSetup true true).manager.set e sampleClock.nowProvider
      {}).Valid := fun e => Cache.set_valid Store.valid_empty e _
  refine same_grant _ rfl ?_ ?_ ⟨⟨successful_popupCall rfl _, trivial⟩, ?_, trivial⟩
  · intro c hc
    rcases List.mem_pair.mp hc with rfl | rfl
    · exact hcall
    · show ["ignoreCache"].Nodup
      decide
  · intro c hc c' hc'
    rcases List.mem_pair.mp hc with rfl | rfl <;> rcases List.mem_pair.mp hc' with rfl | rfl
    · exact iff_of_true rfl rfl
    · exact iff_of_true hslot (by rw [hkey])
    · exact iff_of_true hslot.symm (by rw [hkey])
    · exact iff_of_true rfl rfl
  · rw [twins_step, hn, hw]
    refine ⟨successful_refreshCall (hvalid e) (hvalid e'), rfl, .requested (fun h => (nomatch h)) ?_⟩
    intro hnone
    have hsome := @Manager.set_get (sampleSetup true true).manager e
      (refreshCall.key (sampleSetup true true)) (by rw [he, hkey]) (fun cid h => (nomatch h))
      sampleClock.nowProvider {}
    rw [hsome] at hnone
    cases hnone

/-- The grants of the silent call: those of its choice. -/
theorem grants_refreshCall {w : Bool} {sh : Shared} (hs : sh.store.Valid) :
    grants (refreshCall.perform (sampleSetup true w) sh).events =
      [(availableToken (sampleSetup true w) sh
        ((sampleSetup true w).client.refreshOptions choosingFlight.options)
        (choosingFlight.cachedRefreshToken (sampleSetup true w) sh sampleClock.nowProvider).2).elim
          .iframe .refreshToken] := by
  have hcall : OrdMap.KeysNodup [("ignoreCache", Value.bool true)] := by
    show ["ignoreCache"].Nodup
    decide
  obtain ⟨g, p, -, -, -, hgrants⟩ := @completed_silent (sampleSetup true w) sh
    [("ignoreCache", .bool true)] choosingFlight sampleClock.nowProvider sampleSecrets .undefined
    sampleTokens hcall rfl rfl rfl rfl rfl (resolved_choice rfl _)
  rw [perform_refreshCall hs, grants_after, hgrants]
  rfl

/-- A token under a key with more scopes is found. -/
theorem get_of_match {m : Manager} (hm : m.keyManifest = none) {e : CacheEntry} {k : CacheKey}
    (hne : (CacheKey.ofEntry e).toKey ≠ k.toKey)
    (hmatch : matchesKey k (CacheKey.ofEntry e).toKey = true)
    (ht : e.refresh_token.truthy = true) (adj now now' : Js.Num) :
    (m.get k adj now' (m.set e now {})).2.map Body.refresh_token = some e.refresh_token := by
  have hset : m.set e now {} = Store.put {} (CacheKey.ofEntry e).toKey
      (.wrapped (Cache.wrapCacheEntry e now)) := by
    unfold Manager.set
    rw [hm]
  have hfind : m.findEntry k (m.set e now {}) =
      some ⟨0, .wrapped (Cache.wrapCacheEntry e now)⟩ := by
    have hkeys : (m.set e now {}).allKeys = [(CacheKey.ofEntry e).toKey] := by
      rw [hset]
      rfl
    unfold Manager.findEntry Manager.getCacheKeys
    rw [hm]
    dsimp only
    rw [hkeys, hset, Store.get_put, if_neg hne]
    have hfirst : Cache.matchExistingCacheKey k [(CacheKey.ofEntry e).toKey] =
        some (CacheKey.ofEntry e).toKey := by
      simp [Cache.matchExistingCacheKey, hmatch]
    show (Cache.matchExistingCacheKey k _).bind _ = _
    rw [hfirst, Option.bind_some, Store.get_put, if_pos rfl]
  unfold Manager.get
  rw [hfind]
  dsimp only
  split
  · rw [if_pos (show (Cache.wrapCacheEntry e now).body.refresh_token.truthy = true from ht)]
    rfl
  · rfl

/-- Without the worker the call refreshes with a token it finds under a key with
more scopes. -/
theorem grants_match {e : CacheEntry} (htoken : e.refresh_token = .str "refresh")
    (hne : (CacheKey.ofEntry e).toKey ≠ ((sampleSetup true false).client.requestKey
      ((sampleSetup true false).client.refreshOptions choosingFlight.options)).toKey)
    (hmatch : matchesKey ((sampleSetup true false).client.requestKey
      ((sampleSetup true false).client.refreshOptions choosingFlight.options))
      (CacheKey.ofEntry e).toKey = true) {sh : Shared}
    (hstore : sh.store = (sampleSetup true false).manager.set e sampleClock.nowProvider {}) :
    grants (refreshCall.perform (sampleSetup true false) sh).events =
      [.refreshToken (.str "refresh")] := by
  have hget := @get_of_match (sampleSetup true false).manager rfl e _ hne hmatch
    (by rw [htoken]; rfl) (.fin 0) sampleClock.nowProvider sampleClock.nowProvider
  have hcached : (choosingFlight.cachedRefreshToken (sampleSetup true false) sh
      sampleClock.nowProvider).2 = .str "refresh" := by
    unfold Flight.cachedRefreshToken
    rw [hstore]
    dsimp only
    rw [hget, htoken]
    rfl
  rw [grants_refreshCall (by rw [hstore]; exact Cache.set_valid Store.valid_empty e _), hcached]
  rfl

/-- With the worker it uses the iframe unless the worker has a token for it. -/
theorem grants_noSlot {sh : Shared} (hs : sh.store.Valid) (hbare : sh.store.AllBare)
    (hslot : sh.refreshTokens.find (Worker.cacheKey (workerAudience choosingFlight.options)
      (choosingFlight.options.get "scope")) = none) :
    grants (refreshCall.perform (sampleSetup true true) sh).events = [.iframe] := by
  have hcall : OrdMap.KeysNodup [("ignoreCache", Value.bool true)] := by
    show ["ignoreCache"].Nodup
    decide
  have hnone := @available_with (sampleSetup true true) rfl sh choosingFlight
    [("ignoreCache", .bool true)] hcall rfl hbare (fun t ht => by rw [hslot] at ht; cases ht)
    sampleClock.nowProvider
  rw [hslot, show (sampleSetup true true).withWorker = sampleSetup true true from rfl] at hnone
  rw [grants_refreshCall hs, hnone]
  rfl

/-- After a login with one scope more, the client without the worker refreshes
with its token and the client with it uses the iframe. -/
theorem extra_scope_differs :
    (twins (sampleSetup true true)).Meets (Successful (sampleSetup true true)) ({}, {})
        [popupCall [("scope", .str "x")], refreshCall] ∧
      ¬∀ x ∈ (twins (sampleSetup true true)).trace ({}, {})
        [popupCall [("scope", .str "x")], refreshCall], x.2.1 = x.2.2 := by
  have hcall : TextAudience (sampleClient true) [("scope", .str "x")] :=
    ⟨show ["scope"].Nodup by decide, Or.inl rfl⟩
  obtain ⟨e, e', he, htoken, htoken', hn, hw⟩ := shared_popupCall hcall rfl
  have hvalid : ∀ e : CacheEntry, ((sampleSetup true true).manager.set e sampleClock.nowProvider
      {}).Valid := fun e => Cache.set_valid Store.valid_empty e _
  have hstep := twins_step (sampleSetup true true) {} {} (popupCall [("scope", .str "x")])
  refine ⟨⟨successful_popupCall rfl _, ?_, trivial⟩, ?_⟩
  · rw [hstep, hn, hw]
    exact successful_refreshCall (hvalid e) (hvalid e')
  · intro hall
    rw [Machine.trace, Machine.trace, hstep, hn, hw, twins_step] at hall
    have hsame := hall _ (List.mem_cons_of_mem _ (List.mem_cons_self ..))
    dsimp only at hsame
    have hrefresh := @grants_match e htoken (by rw [he]; decide +kernel) (by rw [he]; decide +kernel)
      { store := (sampleSetup true true).manager.set e sampleClock.nowProvider {}
        isAuthenticated := true } rfl
    have hbare : ((sampleSetup true true).manager.set e' sampleClock.nowProvider {}).AllBare :=
      Cache.set_all Store.valid_empty (fun _ h => by cases h) (fun _ _ h => by cases h)
        ⟨_, rfl, by show e'.refresh_token.truthy = false; rw [htoken']; rfl⟩
    have hslot : (popupCall [("scope", .str "x")]).slot (sampleSetup true true) ≠
        Worker.cacheKey (workerAudience choosingFlight.options)
          (choosingFlight.options.get "scope") := by
      decide +kernel
    have hiframe := @grants_noSlot
      { store := (sampleSetup true true).manager.set e' sampleClock.nowProvider {}
        refreshTokens :=
          [((popupCall [("scope", .str "x")]).slot (sampleSetup true true), .str "refresh")]
        isAuthenticated := true } (hvalid e') hbare
      (by rw [OrdMap.find_cons, if_neg hslot]; rfl)
    rw [show (sampleSetup true true).withoutWorker = sampleSetup true false from rfl,
      show (sampleSetup true true).withWorker = sampleSetup true true from rfl, hrefresh,
      hiframe] at hsame
    cases hsame

end AuthokSpa
