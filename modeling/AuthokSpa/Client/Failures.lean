import AuthokSpa.Cache.Reads
import AuthokSpa.Client.Visibility

/-!
# Failed silent requests (`_getTokenSilently`, `getUser`)

Before it can fail, a silent request has read the cache up to three times: before
the lock and under it with an adjustment of sixty seconds, and for the refresh
token with none. A read writes. An entry in its last minute is still a login for
`getUser` and an expired entry for the request, which strips or removes it and may
then fail: the user is gone.

A failed request ends with the store of the first read (the lock was not given) or
of the last one; nothing after the reads writes. `failed_request_keeps_user_iff`
says which entries survive them.
-/

namespace AuthokSpa

open Js (Value Obj ProtoObj)
open Cache (CacheKey Store Spares Shown)

/-- What `getTokenSilently` starts. -/
def Setup.silentFlight (S : Setup) (call : Obj) : Flight where
  key := S.promiseKey (S.client.silentOptions call)
  isLogin := false
  options := S.client.silentOptions call
  ignoreCache := (call.get "ignoreCache").truthy
  detailedResponse := ((S.client.silentOptions call).get "detailedResponse").truthy
  stage := .firstCheck

/-- The cache is read at this time. -/
def FlightOp.At (t : Js.Num) : FlightOp → Prop
  | .check now => now = t
  | .choose now => now = t
  | _ => True

namespace Failures

variable (S : Setup) (call : Obj) (t : Js.Num)

/-- The key of the request. -/
def key : CacheKey := S.client.requestKey (S.client.silentOptions call)

/-- The store after a look for an access token. -/
def afterCheck (s : Store) : Store :=
  if (call.get "ignoreCache").truthy then s else (S.manager.get (key S call) (.fin 60) t s).1

/-- The store after all reads. -/
def afterReads (s : Store) : Store :=
  let s := afterCheck S call t (afterCheck S call t s)
  if S.useRefreshTokens then (S.manager.get (key S call) (.fin 0) t s).1 else s

/-- The reads of the request leave the user that `getUser(o)` returns. -/
structure SparesUser (o : Obj) (user : ProtoObj) (s : Store) : Prop where
  first : (call.get "ignoreCache").truthy = false →
    Spares S.manager (key S call) (S.client.userKey o) (.fin 60) t
      (fun s => S.userIn o t s = some user) s
  second : (call.get "ignoreCache").truthy = false →
    Spares S.manager (key S call) (S.client.userKey o) (.fin 60) t
      (fun s => S.userIn o t s = some user) (afterCheck S call t s)
  refresh : S.useRefreshTokens = true →
    Spares S.manager (key S call) (S.client.userKey o) (.fin 0) t
      (fun s => S.userIn o t s = some user) (afterCheck S call t (afterCheck S call t s))

variable {S call t}

/-! ## Where a failed request leaves the store -/

theorem requestKey_refreshOptions (hcall : Js.OrdMap.KeysNodup call) :
    S.client.requestKey (S.client.refreshOptions (S.client.silentOptions call)) = key S call := by
  have hm : Merged S.client call (S.client.silentOptions call) := merged_silent hcall
  have hr : Merged S.client call (S.client.refreshOptions (S.client.silentOptions call)) :=
    merged_refresh hcall
  unfold key AuthokClient.requestKey
  rw [hm.get_audience, hr.get_audience, hm.scope, hr.scope]

/-- The store at each stage of a request that started with `s`. -/
def StoreAt (S : Setup) (call : Obj) (t : Js.Num) (s : Store) (stage : Stage) (store : Store) :
    Prop :=
  match stage with
  | .firstCheck => store = s
  | .locking _ => store = afterCheck S call t s
  | .secondCheck => store = afterCheck S call t s
  | .choosing => store = afterCheck S call t (afterCheck S call t s)
  | .refreshing _ => store = afterReads S call t s
  | .refreshSent _ => store = afterReads S call t s
  | .authorizing => store = afterReads S call t s
  | .exchanging _ => store = afterReads S call t s
  | .releasing (.error .other) => store = afterReads S call t s
  | .settled (.error .other) => store = afterCheck S call t s ∨ store = afterReads S call t s
  | _ => True

/-- The cache has not been read for the refresh token. -/
def Early : Stage → Prop
  | .firstCheck => True
  | .locking _ => True
  | .secondCheck => True
  | .choosing => True
  | _ => False

structure Inv (S : Setup) (call : Obj) (t : Js.Num) (s : Store) (f : Flight) (sh : Shared) :
    Prop where
  isLogin : f.isLogin = false
  ignoreCache : f.ignoreCache = (call.get "ignoreCache").truthy
  options : Early f.stage → f.options = S.client.silentOptions call
  store : StoreAt S call t s f.stage sh.store

section Step

variable {s : Store} {f : Flight} {sh : Shared} (h : Inv S call t s f sh)

include h

theorem Inv.goTo {stage : Stage} {sh' : Shared} (hearly : Early stage → Early f.stage)
    (hstore : StoreAt S call t s stage sh'.store) : Inv S call t s (f.goTo stage) sh' :=
  ⟨h.isLogin, h.ignoreCache, fun he => h.options (hearly he), hstore⟩

theorem Inv.leave (r : Settlement) : f.leave r = .releasing r := by
  unfold Flight.leave
  rw [h.isLogin]
  rfl

/-- A look for an access token. -/
theorem Inv.cacheCheck {hit : Settlement → Stage} {next : Stage} (hearly : Early f.stage)
    (hhit : ∀ o, StoreAt S call t s (hit (.ok o)) = fun _ => True)
    (hnot : ∀ o, ¬ Early (hit (.ok o)))
    (hnext : StoreAt S call t s next (afterCheck S call t sh.store)) :
    Inv S call t s (f.cacheCheck S sh t hit next).flight (f.cacheCheck S sh t hit next).shared := by
  have hkey : S.client.requestKey f.options = key S call := by
    rw [h.options hearly]
    rfl
  unfold afterCheck at hnext
  rcases Flight.cacheCheck_cases (S := S) t hit next with ⟨hi, hcheck⟩ | ⟨hi, found, rfl, hfound⟩
  · rw [hcheck]
    rw [← h.ignoreCache, hi, if_pos rfl] at hnext
    exact h.goTo (fun _ => hearly) hnext
  · rw [← h.ignoreCache, hi, if_neg Bool.false_ne_true, ← hkey] at hnext
    rcases hfound with ⟨e, -, -, hcheck⟩ | ⟨-, hcheck⟩
    · rw [hcheck]
      refine h.goTo (fun he => absurd he (hnot _)) ?_
      rw [hhit]
      trivial
    · rw [hcheck]
      exact h.goTo (fun _ => hearly) hnext

theorem Inv.lock {tries : Nat} (acquired : Bool) (hstage : f.stage = .locking tries) :
    Inv S call t s (f.lock sh tries acquired).flight (f.lock sh tries acquired).shared := by
  have hearly : Early f.stage := by rw [hstage]; trivial
  have hstore := h.store
  rw [hstage] at hstore
  unfold Flight.lock
  split
  · exact h.goTo (fun _ => hearly) hstore
  · split
    · exact h.goTo (fun _ => hearly) hstore
    · exact h.goTo (fun he => he.elim) (Or.inl hstore)

/-- The read for the refresh token, or none. -/
theorem Inv.choose (hcall : Js.OrdMap.KeysNodup call) (hstage : f.stage = .choosing) :
    Inv S call t s (f.choose S sh t).flight (f.choose S sh t).shared := by
  have hearly : Early f.stage := by rw [hstage]; trivial
  have hstore : sh.store = afterCheck S call t (afterCheck S call t s) := by
    have hat := h.store
    rw [hstage] at hat
    exact hat
  have hreads : afterReads S call t s = if S.useRefreshTokens then
      (S.manager.get (key S call) (.fin 0) t sh.store).1 else sh.store := by
    rw [hstore]
    rfl
  rcases @Flight.choose_cases S sh f t with ⟨hu, hp⟩ | ⟨hu, found, rfl, hfound⟩
  · rw [hp]
    rw [hu, if_neg Bool.false_ne_true] at hreads
    exact h.goTo (fun he => he.elim) hreads.symm
  · have hread : (Flight.cachedRefreshToken S sh f t).1 = afterReads S call t s := by
      unfold Flight.cachedRefreshToken
      dsimp only
      rw [h.options hearly, requestKey_refreshOptions hcall, hreads, hu, if_pos rfl]
    rcases hfound with ⟨-, -, hp⟩ | ⟨-, hp⟩
    · rw [hp]
      exact ⟨h.isLogin, h.ignoreCache, fun he => he.elim, hread⟩
    · rw [hp]
      exact ⟨h.isLogin, h.ignoreCache, fun he => he.elim, hread⟩

omit h

theorem storeAt_plain {stage : Stage} (hplain : stage.Plain) :
    StoreAt S call t s stage (afterReads S call t s) := by
  match stage, hplain with
  | .authorizing, _ => rfl
  | .releasing (.error .other), _ => rfl
  | .releasing (.error .loginRequired), _ => trivial
  | .settled (.error .other), _ => exact Or.inr rfl
  | .settled (.error .loginRequired), _ => trivial

theorem not_early_of_plain {stage : Stage} (hplain : stage.Plain) : ¬ Early stage := by
  match stage, hplain with
  | .authorizing, _ => exact id
  | .releasing (.error _), _ => exact id
  | .settled (.error _), _ => exact id

include h

/-- A request that fails, or goes on without a token, after all reads. -/
theorem Inv.plain {stage : Stage} {sh' : Shared} (hplain : stage.Plain)
    (hstore : sh'.store = afterReads S call t s) : Inv S call t s (f.goTo stage) sh' :=
  h.goTo (fun he => absurd he (not_early_of_plain hplain)) (hstore ▸ storeAt_plain hplain)

theorem Inv.refreshAnswer (hstore : sh.store = afterReads S call t s) (clock : Clock)
    (answer : Except String TokenAnswer) :
    Inv S call t s (f.refreshAnswer S sh clock answer).flight
      (f.refreshAnswer S sh clock answer).shared := by
  unfold Flight.refreshAnswer
  cases answer with
  | error message =>
    dsimp only
    split
    · exact h.plain (by trivial) hstore
    · exact h.plain (by trivial) hstore
  | ok answer =>
    have hreceived := (@Flight.receive_store S sh f answer.json).trans hstore
    dsimp only
    split
    · split
      · exact h.goTo (fun he => he.elim) trivial
      · exact h.plain (by trivial) hreceived
    · split
      · exact h.plain (by trivial) hreceived
      · exact h.plain (by trivial) hreceived

theorem Inv.exchangeAnswer (hstore : sh.store = afterReads S call t s) (p : Pending) (clock : Clock)
    (answer : Except String TokenAnswer) :
    Inv S call t s (f.exchangeAnswer S sh p clock answer).flight
      (f.exchangeAnswer S sh p clock answer).shared := by
  unfold Flight.exchangeAnswer
  cases answer with
  | error message => exact h.plain (Flight.plain_leave f _) hstore
  | ok answer =>
    have hreceived := (@Flight.receive_store S sh f answer.json).trans hstore
    dsimp only
    split
    · split
      · exact h.goTo (fun he => he.elim) trivial
      · exact h.plain (Flight.plain_leave f _) hreceived
    · split
      · -- `login_required` logs out, and is no failure of the kind in question
        rw [h.leave]
        exact h.goTo (fun he => he.elim) trivial
      · exact h.plain (Flight.plain_leave f _) hreceived

theorem Inv.step (hcall : Js.OrdMap.KeysNodup call) {op : FlightOp} (hop : op.At t) :
    Inv S call t s (f.step S sh op).flight (f.step S sh op).shared := by
  have hstore := h.store
  apply @Flight.step_elim S sh f (fun p => Inv S call t s p.flight p.shared) op
  case idle => exact h
  case first =>
    rintro now rfl hstage
    obtain rfl : now = t := hop
    rw [hstage] at hstore
    -- the store is still the one at the start
    refine h.cacheCheck (by rw [hstage]; trivial) (fun _ => rfl) (fun _ he => he) ?_
    rw [show sh.store = s from hstore]
    rfl
  case lock => exact fun tries acquired _ hstage => h.lock acquired hstage
  case second =>
    rintro now rfl hstage
    obtain rfl : now = t := hop
    rw [hstage] at hstore
    refine h.cacheCheck (by rw [hstage]; trivial) (fun _ => rfl) (fun _ he => he) ?_
    rw [show sh.store = afterCheck S call now s from hstore]
    rfl
  case choose =>
    rintro now rfl hstage
    obtain rfl : now = t := hop
    exact h.choose hcall hstage
  case attempt =>
    intro token hstage
    -- all reads are done, whatever token they have found
    have hreads : sh.store = afterReads S call t s := by
      rcases hstage with hstage | hstage <;> rw [hstage] at hstore <;> exact hstore
    rcases @Flight.attempt_cases S sh f token with hp | ⟨t', hp, -⟩
    · rw [hp]
      exact h.plain (by trivial) hreads
    · rw [hp]
      exact h.goTo (fun he => he.elim) hreads
  case refreshAnswer =>
    intro token clock answer _ hstage
    rw [hstage] at hstore
    exact h.refreshAnswer hstore clock answer
  case authorize =>
    intro x orgIdHint hstage
    rw [hstage] at hstore
    exact h.goTo (fun he => he.elim) hstore
  case authorizeFailed =>
    intro rejection hstage
    rw [hstage] at hstore
    unfold Flight.authorizeFailed
    cases rejection with
    | loginRequired => exact h.goTo (fun he => he.elim) trivial
    | other => exact h.plain (by trivial) hstore
  case exchangeAnswer =>
    intro p clock answer _ hstage
    rw [hstage] at hstore
    exact h.exchangeAnswer hstore p clock answer
  case store => exact fun e response now _ => h.goTo (fun he => he.elim) trivial
  case save =>
    intro o _
    rw [h.leave]
    exact h.goTo (fun he => he.elim) trivial
  case release =>
    intro r hstage
    rw [hstage] at hstore
    match r with
    | .ok o => exact h.goTo (fun he => he.elim) trivial
    | .error .loginRequired => exact h.goTo (fun he => he.elim) trivial
    | .error .other => exact h.plain (by trivial) hstore

end Step

theorem Inv.start (S : Setup) (call : Obj) (t : Js.Num) (sh : Shared) :
    Inv S call t sh.store (S.silentFlight call) sh :=
  ⟨rfl, rfl, fun _ => rfl, rfl⟩

theorem Inv.run (hcall : Js.OrdMap.KeysNodup call) {s : Store} (ops : List FlightOp)
    (hops : ∀ op ∈ ops, op.At t) :
    ∀ {f : Flight} {sh : Shared}, Inv S call t s f sh →
      Inv S call t s (f.run S sh ops).flight (f.run S sh ops).shared := by
  induction ops with
  | nil => exact fun h => h
  | cons op ops ih =>
    intro f sh h
    exact ih (fun op' hmem => hops op' (List.mem_cons_of_mem _ hmem))
      (h.step hcall (hops op (List.mem_cons_self ..)))

/-- A failed request leaves the store of its first read or of its last. -/
theorem failed_store (hcall : Js.OrdMap.KeysNodup call) {sh : Shared} {ops : List FlightOp}
    (hops : ∀ op ∈ ops, op.At t)
    (hfailed : ((S.silentFlight call).run S sh ops).flight.stage = .settled (.error .other)) :
    ((S.silentFlight call).run S sh ops).shared.store = afterCheck S call t sh.store ∨
      ((S.silentFlight call).run S sh ops).shared.store = afterReads S call t sh.store := by
  have hstore := (Inv.run hcall ops hops (Inv.start S call t sh)).store
  rw [hfailed] at hstore
  exact hstore

/-! ## Requests that fail -/

/-- The request can fail and leave this store. -/
def Fails (S : Setup) (t : Js.Num) (sh : Shared) (f : Flight) (store : Store) : Prop :=
  ∃ ops : List FlightOp, (∀ op ∈ ops, op.At t) ∧
    (f.run S sh ops).flight.stage = .settled (.error .other) ∧ (f.run S sh ops).shared.store = store

section Fails

variable {f : Flight} {sh : Shared} {store : Store}

theorem Fails.step (op : FlightOp) (hop : op.At t) {p : Progress} (hp : f.step S sh op = p)
    (h : Fails S t p.shared p.flight store) : Fails S t sh f store := by
  subst hp
  obtain ⟨ops, hops, hstage, hstore⟩ := h
  refine ⟨op :: ops, ?_, hstage, hstore⟩
  intro op' hmem
  rcases List.mem_cons.mp hmem with rfl | hmem
  · exact hop
  · exact hops op' hmem

theorem fails_settled (hstage : f.stage = .settled (.error .other)) : Fails S t sh f sh.store :=
  ⟨[], by simp, hstage, rfl⟩

theorem fails_releasing (hstage : f.stage = .releasing (.error .other)) :
    Fails S t sh f sh.store := by
  have hstep : f.step S sh .release = ⟨sh, f.goTo (.settled (.error .other)), [.unlocked]⟩ := by
    unfold Flight.step
    rw [hstage]
  exact Fails.step .release trivial hstep (fails_settled rfl)

/-- The lock is not given. -/
theorem fails_locking (n : Nat) :
    ∀ {f : Flight} {tries : Nat}, tries + n = 9 → f.stage = .locking tries →
      Fails S t sh f sh.store := by
  induction n with
  | zero =>
    intro f tries htries hstage
    have hstep : f.step S sh (.lock false) = ⟨sh, f.goTo (.settled (.error .other)), []⟩ := by
      unfold Flight.step
      rw [hstage]
      show f.lock sh tries false = _
      unfold Flight.lock
      rw [if_neg Bool.false_ne_true, if_neg (by omega)]
    exact Fails.step (.lock false) trivial hstep (fails_settled rfl)
  | succ n ih =>
    intro f tries htries hstage
    have hstep : f.step S sh (.lock false) = ⟨sh, f.goTo (.locking (tries + 1)), []⟩ := by
      unfold Flight.step
      rw [hstage]
      show f.lock sh tries false = _
      unfold Flight.lock
      rw [if_neg Bool.false_ne_true, if_pos (by omega)]
    exact Fails.step (.lock false) trivial hstep (ih (by omega) rfl)

theorem fails_authorizing (hstage : f.stage = .authorizing) : Fails S t sh f sh.store := by
  have hstep : f.step S sh (.authorizeFailed .other) =
      ⟨sh, f.goTo (.releasing (.error .other)), []⟩ := by
    unfold Flight.step
    rw [hstage]
    rfl
  exact Fails.step (.authorizeFailed .other) trivial hstep (fails_releasing rfl)

/-- The refresh request fails on the network. -/
theorem fails_refreshing {token : Value} (hstage : f.stage = .refreshing token) :
    Fails S t sh f sh.store := by
  have hstep : f.step S sh .attempt = f.attempt S sh token := by
    unfold Flight.step
    rw [hstage]
  rcases @Flight.attempt_cases S sh f token with hp | ⟨t', hp, -⟩
  · exact Fails.step .attempt trivial (hstep.trans hp) (fails_authorizing rfl)
  · refine Fails.step .attempt trivial (hstep.trans hp) ?_
    have hanswer : (f.goTo (.refreshSent token)).step S sh (.tokenAnswer ⟨t, t⟩ (.error "")) =
        ⟨sh, f.goTo (.releasing (.error .other)), []⟩ := by
      unfold Flight.step
      show (f.goTo (.refreshSent token)).refreshAnswer S sh _ _ = _
      unfold Flight.refreshAnswer
      dsimp only
      rw [if_neg (by decide)]
      rfl
    exact Fails.step (.tokenAnswer ⟨t, t⟩ (.error "")) trivial hanswer (fails_releasing rfl)

end Fails

/-- The cache has no access token for the request. -/
def Misses (S : Setup) (call : Obj) (t : Js.Num) (s : Store) : Prop :=
  (call.get "ignoreCache").truthy = true ∨
    ¬ Cache.HasAccessToken (S.manager.get (key S call) (.fin 60) t s).2

theorem cacheCheck_of_misses {f : Flight} {sh : Shared}
    (hoptions : f.options = S.client.silentOptions call)
    (hignore : f.ignoreCache = (call.get "ignoreCache").truthy) (h : Misses S call t sh.store)
    (hit : Settlement → Stage) (next : Stage) :
    f.cacheCheck S sh t hit next =
      ⟨{ sh with store := afterCheck S call t sh.store }, f.goTo next, []⟩ := by
  unfold afterCheck
  rcases Flight.cacheCheck_cases (S := S) t hit next with ⟨hi, hcheck⟩ | ⟨hi, found, rfl, hfound⟩
  · rw [hcheck, ← hignore, hi, if_pos rfl]
  · rw [← hignore, hi, if_neg Bool.false_ne_true]
    have hmiss : ¬ Cache.HasAccessToken
        (S.manager.get (S.client.requestKey f.options) (.fin 60) t sh.store).2 := by
      rw [hoptions]
      rcases h with h | h
      · rw [← hignore, hi] at h
        cases h
      · exact h
    rcases hfound with ⟨e, hfound, htoken, -⟩ | ⟨-, hcheck⟩
    · rw [hfound] at hmiss
      exact absurd htoken hmiss
    · rw [hcheck, hoptions]
      rfl

/-- The store after the first read can be the end. -/
theorem fails_first {sh : Shared} (h : Misses S call t sh.store) :
    Fails S t sh (S.silentFlight call) (afterCheck S call t sh.store) := by
  have hstep : (S.silentFlight call).step S sh (.check t) = _ :=
    cacheCheck_of_misses (f := S.silentFlight call) rfl rfl h .settled (.locking 0)
  exact Fails.step (.check t) rfl hstep (fails_locking 9 rfl rfl)

/-- So can the store after all reads. -/
theorem fails_last (hcall : Js.OrdMap.KeysNodup call) {sh : Shared} (h : Misses S call t sh.store)
    (h' : Misses S call t (afterCheck S call t sh.store)) :
    Fails S t sh (S.silentFlight call) (afterReads S call t sh.store) := by
  have hfirst : (S.silentFlight call).step S sh (.check t) = _ :=
    cacheCheck_of_misses (f := S.silentFlight call) rfl rfl h .settled (.locking 0)
  refine Fails.step (.check t) rfl hfirst ?_
  refine Fails.step (.lock true) trivial rfl ?_
  have hsecond : ((S.silentFlight call).goTo .secondCheck).step S
      { sh with store := afterCheck S call t sh.store } (.check t) = _ :=
    cacheCheck_of_misses (f := (S.silentFlight call).goTo .secondCheck) rfl rfl h' .releasing
      .choosing
  refine Fails.step (.check t) rfl hsecond ?_
  -- the last read, with its store from the invariant
  have hinv : Inv S call t sh.store ((S.silentFlight call).goTo .choosing)
      { sh with store := afterCheck S call t (afterCheck S call t sh.store) } :=
    ⟨rfl, rfl, fun _ => rfl, rfl⟩
  have hreads := (hinv.choose hcall rfl).store
  refine Fails.step (.choose t) rfl rfl ?_
  show Fails S t (((S.silentFlight call).goTo .choosing).choose S _ t).shared
    (((S.silentFlight call).goTo .choosing).choose S _ t).flight _
  rcases @Flight.choose_cases S { sh with store := afterCheck S call t (afterCheck S call t sh.store) }
    ((S.silentFlight call).goTo .choosing) t with ⟨-, hp⟩ | ⟨-, found, -, ⟨-, -, hp⟩ | ⟨-, hp⟩⟩
  · rw [hp] at hreads ⊢
    exact hreads ▸ fails_authorizing rfl
  · rw [hp] at hreads ⊢
    exact hreads ▸ fails_authorizing rfl
  · rw [hp] at hreads ⊢
    exact hreads ▸ fails_refreshing rfl

/-! ## What `getUser` shows -/

theorem userIn_eq (S : Setup) (o : Obj) (t : Js.Num) (s : Store) :
    S.userIn o t s =
      (S.manager.sees (S.client.userKey o) t s).map fun e => e.decodedToken.user := by
  unfold Setup.userIn
  cases hsees : S.manager.sees (S.client.userKey o) t s with
  | some e =>
    rw [Cache.get_entry_iff.mpr hsees]
    rfl
  | none =>
    cases hget : (S.manager.get (S.client.userKey o) (.fin 0) t s).2 with
    | none => rfl
    | some body =>
      cases body with
      | refreshOnly r => rfl
      | entry e =>
        rw [Cache.get_entry_iff.mp hget] at hsees
        cases hsees

theorem shown_eq (S : Setup) (o : Obj) (t : Js.Num) (user : ProtoObj) :
    (fun s => S.userIn o t s = some user) =
      Shown S.manager (S.client.userKey o) t (fun e => e.decodedToken.user) user := by
  funext s
  unfold Shown
  rw [userIn_eq]

theorem manifestKey_ne_key (call : Obj) :
    ∀ cid, S.manager.keyManifest = some cid → Cache.manifestKey cid ≠ (key S call).toKey :=
  fun _ hcid => Cache.manifestKey_ne_toKey (k := key S call) rfl (Setup.keyManifest_eq hcid)

section Keeps

variable {o : Obj} {user : ProtoObj} {s : Store}

/-- A read keeps the user exactly when it spares the entry. -/
theorem userIn_get_iff (hs : s.Valid) (huser : S.userIn o t s = some user) (adj : Js.Num) :
    S.userIn o t (S.manager.get (key S call) adj t s).1 = some user ↔
      Spares S.manager (key S call) (S.client.userKey o) adj t
        (fun s => S.userIn o t s = some user) s := by
  have hshown := shown_eq S o t user
  rw [hshown]
  have hx := congrFun hshown s ▸ huser
  rw [← Cache.shown_get_iff hs (manifestKey_ne_key call) hx]
  exact Eq.to_iff (congrFun hshown _)

theorem expired_sixty {w : Cache.WrappedCacheEntry} (h : w.expired (.fin 0) t) :
    w.expired (.fin 60) t := by
  change w.expiresAt - .fin 0 < t.seconds at h
  show w.expiresAt - .fin 60 < t.seconds
  cases hw : w.expiresAt with
  | nan =>
    rw [hw] at h
    exact absurd h (Js.not_nan_lt _)
  | negInf =>
    rw [hw] at h
    exact h
  | posInf =>
    rw [hw] at h
    exact h
  | fin q =>
    rw [hw, Js.Num.fin_sub_fin] at h
    rw [Js.Num.fin_sub_fin]
    cases hsec : t.seconds with
    | fin r =>
      rw [hsec, Js.Num.fin_lt_fin] at h
      rw [Js.Num.fin_lt_fin]
      -- a minute earlier
      linarith
    | nan =>
      rw [hsec] at h
      exact h
    | negInf =>
      rw [hsec] at h
      exact h
    | posInf => rfl

/-- A read that finds an access token finds no expired entry and writes nothing. -/
theorem spares_of_hit {k u : CacheKey} {m : Cache.Manager} {shown : Store → Prop}
    (h : Cache.HasAccessToken (m.get k (.fin 60) t s).2) :
    Spares m k u (.fin 60) t shown s ∧ Spares m k u (.fin 0) t shown s ∧
      (m.get k (.fin 60) t s).1 = s := by
  obtain ⟨c, hfind, hlive⟩ := Cache.hasAccessToken_get_iff.mp h
  obtain ⟨ref, value⟩ := c
  cases value with
  | manifest keys => exact hlive.elim
  | wrapped w =>
    have hnot : ∀ c' w', m.findEntry k s = some c' → c'.value = .wrapped w' →
        ¬ w'.expired (.fin 60) t := by
      intro c' w' hc hw
      obtain rfl := Option.some.inj (hfind.symm.trans hc)
      obtain rfl := Cache.Cacheable.wrapped.inj hw
      exact hlive.2
    refine ⟨fun c' w' hc hw hexp => absurd hexp (hnot c' w' hc hw),
      fun c' w' hc hw hexp => absurd (expired_sixty hexp) (hnot c' w' hc hw), ?_⟩
    rw [Cache.get_of_found hfind rfl, if_neg hlive.2]

theorem afterCheck_of_ignoreCache (h : (call.get "ignoreCache").truthy = true) :
    afterCheck S call t s = s := by
  unfold afterCheck
  rw [if_pos h]

theorem afterCheck_of_check (h : (call.get "ignoreCache").truthy = false) :
    afterCheck S call t s = (S.manager.get (key S call) (.fin 60) t s).1 := by
  unfold afterCheck
  rw [h, if_neg Bool.false_ne_true]

theorem afterCheck_valid (hs : s.Valid) : (afterCheck S call t s).Valid := by
  unfold afterCheck
  split
  · exact hs
  · exact Cache.get_valid hs _ _ _

/-- A look for an access token keeps the user if it spares the entry. -/
theorem userIn_afterCheck (hs : s.Valid) (huser : S.userIn o t s = some user)
    (hspares : (call.get "ignoreCache").truthy = false →
      Spares S.manager (key S call) (S.client.userKey o) (.fin 60) t
        (fun s => S.userIn o t s = some user) s) :
    S.userIn o t (afterCheck S call t s) = some user := by
  unfold afterCheck
  cases hi : (call.get "ignoreCache").truthy with
  | true => exact huser
  | false => exact (userIn_get_iff hs huser _).mpr (hspares hi)

/-- What the reads spare is there after them. -/
theorem SparesUser.kept (h : SparesUser S call t o user s) (hs : s.Valid)
    (huser : S.userIn o t s = some user) :
    S.userIn o t (afterCheck S call t s) = some user ∧
      S.userIn o t (afterReads S call t s) = some user := by
  have hfirst := userIn_afterCheck hs huser h.first
  have hsecond := userIn_afterCheck (afterCheck_valid hs) hfirst h.second
  refine ⟨hfirst, ?_⟩
  unfold afterReads
  dsimp only
  cases hu : S.useRefreshTokens with
  | false => exact hsecond
  | true =>
    exact (userIn_get_iff (afterCheck_valid (afterCheck_valid hs)) hsecond _).mpr (h.refresh hu)

/-- A request that is answered from the cache takes nothing away. -/
theorem sparesUser_of_hit (hi : (call.get "ignoreCache").truthy = false)
    (hhit : Cache.HasAccessToken (S.manager.get (key S call) (.fin 60) t s).2) :
    SparesUser S call t o user s := by
  obtain ⟨hsixty, hzero, hsame⟩ := @spares_of_hit t s (key S call) (S.client.userKey o)
    S.manager (fun s => S.userIn o t s = some user) hhit
  have hstays : afterCheck S call t s = s := (afterCheck_of_check hi).trans hsame
  refine ⟨fun _ => hsixty, fun _ => ?_, fun _ => ?_⟩
  · rw [hstays]
    exact hsixty
  · rw [hstays, hstays]
    exact hzero

/-- The second look and the read for the refresh token. -/
theorem spares_second (hi : (call.get "ignoreCache").truthy = false) (hs : s.Valid)
    (huser : S.userIn o t s = some user)
    (hlast : Misses S call t s →
      S.userIn o t (if S.useRefreshTokens then
        (S.manager.get (key S call) (.fin 0) t (afterCheck S call t s)).1
        else afterCheck S call t s) = some user) :
    Spares S.manager (key S call) (S.client.userKey o) (.fin 60) t
        (fun s => S.userIn o t s = some user) s ∧
      (S.useRefreshTokens = true →
        Spares S.manager (key S call) (S.client.userKey o) (.fin 0) t
          (fun s => S.userIn o t s = some user) (afterCheck S call t s)) := by
  by_cases hhit : Cache.HasAccessToken (S.manager.get (key S call) (.fin 60) t s).2
  · obtain ⟨hsixty, hzero, hsame⟩ := @spares_of_hit t s (key S call) (S.client.userKey o)
      S.manager (fun s => S.userIn o t s = some user) hhit
    refine ⟨hsixty, fun _ => ?_⟩
    rw [(afterCheck_of_check hi).trans hsame]
    exact hzero
  · have hreads := hlast (Or.inr hhit)
    rw [afterCheck_of_check hi] at hreads ⊢
    have hs' := @Cache.get_valid S.manager s hs (key S call) (.fin 60) t
    cases hu : S.useRefreshTokens with
    | false =>
      rw [hu, if_neg Bool.false_ne_true] at hreads
      exact ⟨(userIn_get_iff hs huser _).mp hreads, fun h => by cases h⟩
    | true =>
      rw [hu, if_pos rfl] at hreads
      -- the last read does not bring back what this one has hidden
      have hstill : S.userIn o t (S.manager.get (key S call) (.fin 60) t s).1 = some user := by
        have hshown := shown_eq S o t user
        have h1 := congrFun hshown s ▸ huser
        have h2 := congrFun hshown _ ▸ hreads
        rw [congrFun hshown _]
        exact Cache.shown_of_shown_twice hs (manifestKey_ne_key call) h1 h2
      exact ⟨(userIn_get_iff hs huser _).mp hstill,
        fun _ => (userIn_get_iff hs' hstill _).mp hreads⟩

/-- What is there after the reads of a request that has no token was spared. -/
theorem sparesUser_of_kept (hs : s.Valid) (huser : S.userIn o t s = some user)
    (hfirst : Misses S call t s → S.userIn o t (afterCheck S call t s) = some user)
    (hlast : Misses S call t s → Misses S call t (afterCheck S call t s) →
      S.userIn o t (afterReads S call t s) = some user) : SparesUser S call t o user s := by
  cases hi : (call.get "ignoreCache").truthy with
  | true =>
    refine ⟨fun h => ?_, fun h => ?_, fun hu => ?_⟩
    · rw [hi] at h
      cases h
    · rw [hi] at h
      cases h
    · have hreads := hlast (Or.inl hi) (Or.inl hi)
      unfold afterReads at hreads
      dsimp only at hreads
      rw [hu, if_pos rfl] at hreads
      simp only [afterCheck_of_ignoreCache hi] at hreads ⊢
      exact (userIn_get_iff hs huser _).mp hreads
  | false =>
    by_cases hhit : Cache.HasAccessToken (S.manager.get (key S call) (.fin 60) t s).2
    · exact sparesUser_of_hit hi hhit
    · -- the first check missed, so the lock is taken and the second one made
      have huser' := hfirst (Or.inr hhit)
      have hs' : (afterCheck S call t s).Valid := afterCheck_valid hs
      have hspares : Spares S.manager (key S call) (S.client.userKey o) (.fin 60) t
          (fun s => S.userIn o t s = some user) s := by
        rw [afterCheck_of_check hi] at huser'
        exact (userIn_get_iff hs huser _).mp huser'
      obtain ⟨hsecond, hrefresh⟩ := spares_second hi hs' huser' fun hmiss =>
        hlast (Or.inr hhit) hmiss
      exact ⟨fun _ => hspares, fun _ => hsecond, hrefresh⟩

/-- Where no two keys print alike, the read for the refresh token takes nothing away. -/
theorem sparesUser_iff (hs : s.Valid) (huser : S.userIn o t s = some user)
    (halike : (key S call).toKey = (S.client.userKey o).toKey → key S call = S.client.userKey o) :
    SparesUser S call t o user s ↔ ((call.get "ignoreCache").truthy = false →
      Spares S.manager (key S call) (S.client.userKey o) (.fin 60) t
          (fun s => S.userIn o t s = some user) s ∧
        Spares S.manager (key S call) (S.client.userKey o) (.fin 60) t
          (fun s => S.userIn o t s = some user) (afterCheck S call t s)) := by
  refine ⟨fun h hi => ⟨h.first hi, h.second hi⟩, fun h => ?_⟩
  have hfirst := userIn_afterCheck hs huser fun hi => (h hi).1
  have hsecond := userIn_afterCheck (afterCheck_valid hs) hfirst fun hi => (h hi).2
  refine ⟨fun hi => (h hi).1, fun hi => (h hi).2, fun _ => ?_⟩
  have hshown := shown_eq S o t user
  have hx := congrFun hshown _ ▸ hsecond
  rw [hshown]
  exact Cache.spares_zero (afterCheck_valid (afterCheck_valid hs)) (manifestKey_ne_key call)
    (manifestKey_ne_userKey o) halike hx

end Keeps

end Failures

/-- **A failed silent request keeps the user**, however it fails, if and only if its
reads of the cache spare the entry that `getUser` returns. -/
theorem failed_request_keeps_user_iff (S : Setup) {call : Obj} (hcall : Js.OrdMap.KeysNodup call)
    (o : Obj) (t : Js.Num) (sh : Shared) (hs : sh.store.Valid) (user : ProtoObj)
    (huser : S.userIn o t sh.store = some user) :
    (∀ ops : List FlightOp, (∀ op ∈ ops, op.At t) →
      ((S.silentFlight call).run S sh ops).flight.stage = .settled (.error .other) →
        S.userIn o t ((S.silentFlight call).run S sh ops).shared.store = some user) ↔
      Failures.SparesUser S call t o user sh.store := by
  constructor
  · intro hkept
    have hall : ∀ store, Failures.Fails S t sh (S.silentFlight call) store →
        S.userIn o t store = some user := by
      rintro store ⟨ops, hops, hstage, rfl⟩
      exact hkept ops hops hstage
    refine Failures.sparesUser_of_kept hs huser (fun hmiss => ?_) fun hmiss hmiss' => ?_
    · exact hall _ (Failures.fails_first hmiss)
    · exact hall _ (Failures.fails_last hcall hmiss hmiss')
  · intro hspares ops hops hstage
    obtain ⟨hfirst, hlast⟩ := hspares.kept hs huser
    rcases Failures.failed_store hcall hops hstage with hstore | hstore
    · rw [hstore]
      exact hfirst
    · rw [hstore]
      exact hlast

/-! ### A login in its last minute -/

/-- A login whose ID token ends at `exp` seconds. -/
def loginUntil (exp : ℚ) : CacheEntry :=
  { Cache.sampleEntry "openid profile email" exp .undefined with audience := "default" }

/-- The client after that login, at second 1000. -/
def loggedInUntil (exp : ℚ) : Shared :=
  { store := (sampleSetup false false).manager.set (loginUntil exp) (.fin 1000000) {} }

theorem userIn_loggedInUntil {exp : ℚ} (hexp : ¬ (Cache.wrapCacheEntry (loginUntil exp)
      (.fin 1000000)).expired (.fin 0) (.fin 1000000)) :
    (sampleSetup false false).userIn [] (.fin 1000000) (loggedInUntil exp).store =
      some { own := [("sub", .str "user")] } := by
  have hkey : (sampleClient false).userKey [] =
      { client_id := "client", audience := "default", scope := "openid profile email" } := by
    decide +kernel
  have hown : ((sampleClient false).userKey []).toKey =
      (Cache.CacheKey.ofEntry (loginUntil exp)).toKey := congrArg CacheKey.toKey hkey
  have hfound := Cache.Manager.set_get (m := (sampleSetup false false).manager) hown
    (fun _ hcid => (nomatch hcid)) (.fin 1000000) {}
  exact (@userIn_bound (sampleSetup false false) [] _ _ _ _ hfound).trans (if_neg hexp)

/-- A call that ignores the cache. -/
def ignoringCall : Obj := [("ignoreCache", .bool true)]

/-- A request that ignores the cache can fail in the last minute of a login. -/
theorem failed_request_keeps_ignored_user :
    (sampleSetup false false).userIn [] (.fin 1000000) (loggedInUntil 1030).store =
        some { own := [("sub", .str "user")] } ∧
      ∀ ops : List FlightOp, (∀ op ∈ ops, op.At (.fin 1000000)) →
        (((sampleSetup false false).silentFlight ignoringCall).run (sampleSetup false false)
          (loggedInUntil 1030) ops).flight.stage = .settled (.error .other) →
        (sampleSetup false false).userIn [] (.fin 1000000)
          (((sampleSetup false false).silentFlight ignoringCall).run (sampleSetup false false)
            (loggedInUntil 1030) ops).shared.store = some { own := [("sub", .str "user")] } := by
  have huser := @userIn_loggedInUntil 1030 (by decide +kernel)
  have hvalid : (loggedInUntil 1030).store.Valid :=
    @Cache.set_valid (sampleSetup false false).manager {} Cache.Store.valid_empty _ _
  have hspares : Failures.SparesUser (sampleSetup false false) ignoringCall (.fin 1000000) []
      { own := [("sub", .str "user")] } (loggedInUntil 1030).store :=
    ⟨fun h => absurd h (by decide), fun h => absurd h (by decide), fun h => absurd h (by decide)⟩
  exact ⟨huser, (@failed_request_keeps_user_iff (sampleSetup false false) ignoringCall
    (List.nodup_singleton _) [] (.fin 1000000) (loggedInUntil 1030) hvalid _ huser).mpr hspares⟩

/-- In its last minute the login is lost when the lock is not given. -/
theorem last_minute_user_lost :
    (sampleSetup false false).userIn [] (.fin 1000000) (loggedInUntil 1030).store =
        some { own := [("sub", .str "user")] } ∧
      ∃ ops : List FlightOp, (∀ op ∈ ops, op.At (.fin 1000000)) ∧
        (((sampleSetup false false).silentFlight []).run (sampleSetup false false)
          (loggedInUntil 1030) ops).flight.stage = .settled (.error .other) ∧
        (sampleSetup false false).userIn [] (.fin 1000000)
          (((sampleSetup false false).silentFlight []).run (sampleSetup false false)
            (loggedInUntil 1030) ops).shared.store = none := by
  refine ⟨userIn_loggedInUntil (by decide +kernel), ?_⟩
  have hmiss : Failures.Misses (sampleSetup false false) [] (.fin 1000000)
      (loggedInUntil 1030).store := Or.inr (by decide +kernel)
  obtain ⟨ops, hops, hstage, hstore⟩ := Failures.fails_first hmiss
  refine ⟨ops, hops, hstage, ?_⟩
  rw [hstore, ← Option.isNone_iff_eq_none]
  decide +kernel

end AuthokSpa
