import AuthokSpa.Cache.ManifestSync
import AuthokSpa.Client.Silent

/-!
# What a logout ends

After `logout({localOnly: true})` no token from before may be used again. Tokens
live in three places: the entries of the cache, the copies of refresh tokens
that `get` leaves there, and the memory of the worker. Logging out clears the
first two as far as the cache manager can see them and leaves the third alone.

`Erasable` is the condition on the state before the logout under which nothing
is left, and `logout_final` the consequence for every run from there on:
everything a later request returns or sends was received after the logout, and
before anything is received somebody went through `/authorize`.

The invariant (`Fresh`) says of every token the client holds, wherever it holds
it, that it was received since the logout.
-/

namespace AuthokSpa

open Js (Value Obj OrdMap)
open Cache (Store Body Cacheable WrappedCacheEntry)

/-! ## Freshness -/

/-- The value is a member of a token response in the history. -/
def Received (h : List TokenEvent) (name : String) (v : Value) : Prop :=
  ∃ json, TokenEvent.received json ∈ h ∧ v = json.get name

/-- A refresh token, if it is one, was received. -/
def FreshToken (h : List TokenEvent) (t : Value) : Prop :=
  t.truthy = true → Received h "refresh_token" t

/-- The tokens of a cached body were received. Nothing reads a refresh token from
the cache of a client that does not use them. -/
def FreshBody (S : Setup) (h : List TokenEvent) : Body → Prop
  | .entry e => Received h "access_token" e.access_token ∧ FreshToken h e.refresh_token
  | .refreshOnly t => S.useRefreshTokens = true → FreshToken h t

def FreshCell (S : Setup) (h : List TokenEvent) : String → Cacheable → Prop
  | _, .wrapped w => FreshBody S h w.body
  | _, .manifest _ => True

/-- What flights share holds fresh tokens only. -/
structure FreshShared (S : Setup) (h : List TokenEvent) (sh : Shared) : Prop where
  valid : sh.store.Valid
  cells : sh.store.All (FreshCell S h)
  worker : S.hasWorker = true → ∀ b ∈ sh.refreshTokens, FreshToken h b.2

/-- What a flight holds at a stage. -/
def FreshStage (S : Setup) (h : List TokenEvent) : Stage → Prop
  | .refreshing t => FreshToken h t ∧ (t.truthy = true ∨ S.hasWorker = true)
  | .refreshSent t =>
    FreshToken h t ∧ (t.truthy = true ∨ S.hasWorker = true) ∧ TokenEvent.authorized ∈ h
  | .exchanging _ => TokenEvent.authorized ∈ h
  | .storing e json => TokenEvent.received json ∈ h ∧
      e.access_token = json.get "access_token" ∧ FreshToken h e.refresh_token
  | .saving o => Received h "access_token" o.result.access_token
  | .releasing (.ok o) => Received h "access_token" o.result.access_token
  | .settled (.ok o) => Received h "access_token" o.result.access_token
  | _ => True

/-- What was sent was received before, and nothing is received without a response
of `/authorize`. -/
structure FreshHistory (h : List TokenEvent) : Prop where
  sent : ∀ t, TokenEvent.sent t ∈ h → Received h "refresh_token" t
  authorized : ∀ json, TokenEvent.received json ∈ h → TokenEvent.authorized ∈ h

/-- The invariant of a client since its logout, when it had `n` flights. -/
structure Fresh (S : Setup) (n : Nat) (s : ClientState) : Prop where
  shared : FreshShared S s.history s.shared
  history : FreshHistory s.history
  flights : ∀ i f, s.flights[i]? = some f →
    (i < n ∧ ∃ r, f.stage = .settled r) ∨ FreshStage S s.history f.stage
  old : n ≤ s.flights.length
  promises : ∀ key i, s.promises.find key = some i → n ≤ i
  calls : ∀ c ∈ s.calls, n ≤ c.flight

section Mono

variable {S : Setup} {h : List TokenEvent} (es : List TokenEvent)

theorem Received.mono {name : String} {v : Value} : Received h name v → Received (h ++ es) name v
  | ⟨json, hjson, hv⟩ => ⟨json, List.mem_append_left _ hjson, hv⟩

theorem FreshToken.mono {t : Value} (ht : FreshToken h t) : FreshToken (h ++ es) t :=
  fun htrue => (ht htrue).mono es

theorem FreshBody.mono {b : Body} (hb : FreshBody S h b) : FreshBody S (h ++ es) b := by
  cases b with
  | entry e => exact ⟨hb.1.mono es, hb.2.mono es⟩
  | refreshOnly t => exact fun hu => (hb hu).mono es

theorem FreshShared.mono {sh : Shared} (hs : FreshShared S h sh) : FreshShared S (h ++ es) sh where
  valid := hs.valid
  cells b hb := by
    have hcell := hs.cells b hb
    cases hv : b.2.value with
    | manifest keys => trivial
    | wrapped w =>
      rw [hv] at hcell
      exact FreshBody.mono es hcell
  worker hw b hb := (hs.worker hw b hb).mono es

theorem FreshStage.mono {stage : Stage} (hs : FreshStage S h stage) :
    FreshStage S (h ++ es) stage := by
  unfold FreshStage at hs ⊢
  split at hs
  · exact ⟨hs.1.mono es, hs.2⟩
  · exact ⟨hs.1.mono es, hs.2.1, List.mem_append_left _ hs.2.2⟩
  · exact List.mem_append_left _ hs
  · exact ⟨List.mem_append_left _ hs.1, hs.2.1, hs.2.2.mono es⟩
  · exact hs.mono es
  · exact hs.mono es
  · exact hs.mono es
  · trivial

/-- Events that add nothing unexpected. -/
theorem FreshHistory.append (hh : FreshHistory h)
    (hsent : ∀ t, TokenEvent.sent t ∈ es → Received h "refresh_token" t)
    (hreceived : ∀ json, TokenEvent.received json ∈ es → TokenEvent.authorized ∈ h) :
    FreshHistory (h ++ es) where
  sent t ht := by
    rcases List.mem_append.mp ht with hold | hnew
    · exact (hh.sent t hold).mono es
    · exact (hsent t hnew).mono es
  authorized json hjson := by
    rcases List.mem_append.mp hjson with hold | hnew
    · exact List.mem_append_left _ (hh.authorized json hold)
    · exact List.mem_append_left _ (hreceived json hnew)

end Mono

/-! ## What flights share -/

section Shared

variable {S : Setup} {h : List TokenEvent} {sh : Shared}

theorem Shared.logout_valid (hs : sh.store.Valid) : (sh.logout S).store.Valid := by
  show Store.Valid (if _ then _ else _)
  split
  · exact Cache.clear_valid hs none
  · exact Cache.removeAll_valid hs _

theorem FreshBody.strip {w : WrappedCacheEntry} (hw : FreshBody S h w.body) :
    FreshBody S h w.strip.body := by
  intro hu
  cases hb : w.body with
  | entry e =>
    rw [hb] at hw
    exact hw.2
  | refreshOnly t =>
    rw [hb] at hw
    exact hw hu

theorem FreshShared.get (hs : FreshShared S h sh) (k : Cache.CacheKey) (adj now : Js.Num) :
    FreshShared S h { sh with store := (S.manager.get k adj now sh.store).1 } where
  valid := Cache.get_valid hs.valid k adj now
  cells := Cache.get_all hs.valid hs.cells (fun _ _ _ => trivial) (fun _ _ hw => FreshBody.strip hw)
    (fun _ _ hw _ => FreshBody.strip hw) adj now
  worker := hs.worker

/-- What `get` hands out is fresh. -/
theorem FreshShared.get_body (hs : FreshShared S h sh) {k : Cache.CacheKey} {adj now : Js.Num}
    {b : Body} (hb : (S.manager.get k adj now sh.store).2 = some b) : FreshBody S h b := by
  rcases S.manager.get_cases k adj now sh.store with
    hg | ⟨c, w, hfind, hw, hcases⟩
  · rw [hg] at hb
    cases hb
  · obtain ⟨key, hkey, -⟩ := Cache.Manager.findEntry_mem hfind
    have hfresh : FreshBody S h w.body := by
      have hcell := hs.cells.get hkey
      rw [hw] at hcell
      exact hcell
    rcases hcases with ⟨-, hg⟩ | ⟨-, -, hg⟩ | ⟨-, -, hg⟩
    · rw [hg] at hb
      exact Option.some.inj hb ▸ hfresh
    · rw [hg] at hb
      exact Option.some.inj hb ▸ hfresh.strip
    · rw [hg] at hb
      cases hb

theorem FreshShared.set (hs : FreshShared S h sh) {e : CacheEntry}
    (he : FreshBody S h (.entry e)) (now : Js.Num) :
    FreshShared S h { sh with store := S.manager.set e now sh.store } where
  valid := Cache.set_valid hs.valid e now
  cells := Cache.set_all hs.valid hs.cells (fun _ _ _ => trivial) he
  worker := hs.worker

theorem FreshShared.logout (hs : FreshShared S h sh) : FreshShared S h (sh.logout S) := by
  refine ⟨Shared.logout_valid hs.valid, ?_, hs.worker⟩
  show Store.All _ (if _ then _ else _)
  split
  · exact Cache.clear_all hs.cells none
  · exact Cache.removeAll_all hs.cells _

/-- A response leaves what it brings with the worker and the page. -/
theorem FreshShared.receive (hs : FreshShared S h sh) (f : Flight) (json : Obj) :
    FreshShared S (h ++ [.received json]) (f.receive S sh json).1 := by
  have hnew : TokenEvent.received json ∈ h ++ [TokenEvent.received json] :=
    List.mem_append_right _ (List.mem_singleton_self _)
  unfold Flight.receive
  split
  · refine ⟨hs.valid, (hs.mono _).cells, fun hw b hb => ?_⟩
    rcases Worker.mem_response hb with hold | hval
    · exact (hs.mono _).worker hw b hold
    · exact fun _ => ⟨json, hnew, hval⟩
  · exact hs.mono _

/-- The refresh token the page sees is the one of the response. -/
theorem freshToken_receive {f : Flight} {json : Obj} (hjson : TokenEvent.received json ∈ h) :
    FreshToken h ((f.receive S sh json).2.get "refresh_token") := by
  intro ht
  refine ⟨json, hjson, ?_⟩
  unfold Flight.receive at ht ⊢
  split at ht
  next hw =>
    rw [if_pos hw]
    unfold Worker.response at ht ⊢
    dsimp only at ht ⊢
    split at ht
    · -- the worker has taken it out
      have hnone : (Obj.without json ["refresh_token"]).get "refresh_token" = .undefined := by
        unfold Obj.get Obj.without
        rw [OrdMap.find_eq_none_iff.mpr (by rw [OrdMap.keys_restrict]; simp)]
        rfl
      dsimp only at ht
      rw [hnone] at ht
      cases ht
    · next hfalse => rw [if_neg hfalse]
  next hw => rw [if_neg hw]

end Shared

/-! ## Flights -/

section Flight

variable {S : Setup} {h : List TokenEvent} {sh : Shared} {f : Flight}

/-- A step of a flight leaves fresh tokens only. -/
structure FreshProgress (S : Setup) (h : List TokenEvent) (p : Progress) : Prop where
  shared : FreshShared S (h ++ p.events) p.shared
  history : FreshHistory (h ++ p.events)
  stage : FreshStage S (h ++ p.events) p.flight.stage

theorem freshStage_plain {stage : Stage} (hs : stage.Plain) : FreshStage S h stage := by
  unfold Stage.Plain at hs
  split at hs <;> trivial

/-- A step that neither sends nor receives. -/
theorem fresh_quiet (hs : FreshShared S h sh) (hh : FreshHistory h)
    (hf : FreshStage S h f.stage) {es : List TokenEvent}
    (hsent : ∀ t, TokenEvent.sent t ∉ es) (hreceived : ∀ json, TokenEvent.received json ∉ es) :
    FreshProgress S h ⟨sh, f, es⟩ :=
  ⟨hs.mono es, hh.append es (fun t ht => absurd ht (hsent t))
    (fun json hj => absurd hj (hreceived json)), hf.mono es⟩

theorem fresh_check (hs : FreshShared S h sh) (hh : FreshHistory h) {next : Stage}
    (hnext : FreshStage S h next) {hit : Settlement → Stage}
    (hhit : hit = .releasing ∨ hit = .settled) (now : Js.Num) :
    FreshProgress S h (f.cacheCheck S sh now hit next) := by
  rcases @Flight.cacheCheck_cases S sh f now hit next with
    ⟨-, hp⟩ | ⟨-, found, rfl, ⟨e, he, -, hp⟩ | ⟨-, hp⟩⟩
  · rw [hp]
    exact fresh_quiet hs hh hnext (by simp) (by simp)
  · rw [hp]
    refine fresh_quiet (hs.get _ _ _) hh ?_ (by simp) (by simp)
    have hreceived : Received h "access_token" (TokenResult.ofEntry f.detailedResponse e).access_token := by
      rw [TokenResult.access_token_ofEntry]
      exact (hs.get_body he).1
    rcases hhit with rfl | rfl <;> exact hreceived
  · rw [hp]
    exact fresh_quiet (hs.get _ _ _) hh hnext (by simp) (by simp)

/-- The refresh token read from the cache is fresh. -/
theorem freshToken_cached (hs : FreshShared S h sh) (hu : S.useRefreshTokens = true)
    (now : Js.Num) :
    FreshToken h (Flight.cachedRefreshToken S sh f now).2 := by
  unfold Flight.cachedRefreshToken
  dsimp only
  cases hget : (S.manager.get (S.client.requestKey (S.client.refreshOptions f.options)) (.fin 0) now
      sh.store).2 with
  | none =>
    intro ht
    cases ht
  | some b =>
    have hb := hs.get_body hget
    cases b with
    | entry e => exact hb.2
    | refreshOnly t => exact hb hu

theorem fresh_choose (hs : FreshShared S h sh) (hh : FreshHistory h) (now : Js.Num) :
    FreshProgress S h (f.choose S sh now) := by
  rcases @Flight.choose_cases S sh f now with
    ⟨-, hp⟩ | ⟨hu, found, rfl, ⟨-, -, hp⟩ | ⟨ht, hp⟩⟩
  · rw [hp]
    exact fresh_quiet hs hh (by trivial) (by simp) (by simp)
  · rw [hp]
    exact fresh_quiet (hs.get _ _ _) hh (by trivial) (by simp) (by simp)
  · rw [hp]
    exact fresh_quiet (hs.get _ _ _) hh
      (by exact ⟨freshToken_cached hs hu now, ht⟩) (by simp) (by simp)

theorem fresh_attempt (hs : FreshShared S h sh) (hh : FreshHistory h) {t : Value}
    (ht : FreshToken h t) (hor : t.truthy = true ∨ S.hasWorker = true) :
    FreshProgress S h (f.attempt S sh t) := by
  rcases @Flight.attempt_cases S sh f t with hp | ⟨t', hp, hcases⟩
  · rw [hp]
    exact fresh_quiet hs hh (by trivial) (by simp) (by simp)
  · have hsent : Received h "refresh_token" t' := by
      rcases hcases with ⟨hw, rfl⟩ | ⟨hw, hreq⟩
      · rcases hor with htrue | hworker
        · exact ht htrue
        · rw [hw] at hworker
          cases hworker
      · obtain ⟨htrue, rfl | ⟨b, hb, rfl⟩⟩ := Worker.request_some hreq
        · exact ht htrue
        · exact hs.worker hw b hb htrue
    have hauth : TokenEvent.authorized ∈ h := hsent.elim fun json hj => hh.authorized json hj.1
    rw [hp]
    refine ⟨hs.mono _, hh.append _ ?_ (by simp), ht.mono _, hor, ?_⟩
    · intro r hr
      obtain rfl : r = t' := by simpa using hr
      exact hsent
    · exact List.mem_append_left _ hauth

theorem fresh_answered (hs : FreshShared S h sh) (hh : FreshHistory h)
    (hauth : TokenEvent.authorized ∈ h) {finish : Obj → Except JwtError CacheEntry}
    {answer : Except String TokenAnswer} {p : Progress}
    (htokens : ∀ r e, finish r = .ok e → TokensOf r e)
    (hp : Flight.Answered S sh f finish answer p) :
    FreshProgress S h p := by
  have hhistory : ∀ json, FreshHistory (h ++ [.received json]) :=
    fun json => hh.append _ (by simp) (fun _ _ => hauth)
  cases hp with
  | failed hplain => exact fresh_quiet hs hh (freshStage_plain hplain) (by simp) (by simp)
  | @rejected json _ hplain =>
    exact ⟨hs.receive f json, hhistory json, freshStage_plain hplain⟩
  | @loggedOut json _ hplain =>
    exact ⟨(hs.receive f json).logout, hhistory json, freshStage_plain hplain⟩
  | @accepted json e _ he =>
    have hnew : TokenEvent.received json ∈ h ++ [TokenEvent.received json] :=
      List.mem_append_right _ (List.mem_singleton_self _)
    refine ⟨hs.receive f json, hhistory json, hnew, ?_, ?_⟩
    · rw [(htokens _ _ he).access_token, Js.Obj.get_without (by decide),
        Flight.receive_get _ (by decide)]
    · rw [(htokens _ _ he).refresh_token, Js.Obj.get_without (by decide)]
      exact freshToken_receive hnew

/-- Every step of a flight leaves fresh tokens only. -/
theorem step_fresh (hs : FreshShared S h sh) (hh : FreshHistory h) (hf : FreshStage S h f.stage)
    (op : FlightOp) : FreshProgress S h (f.step S sh op) := by
  apply @Flight.step_elim S sh f _ op
  case idle => exact fresh_quiet hs hh hf (by simp) (by simp)
  case first =>
    intro now _ _
    exact fresh_check hs hh (by trivial) (Or.inr rfl) now
  case lock =>
    intro tries acquired _ _
    unfold Flight.lock
    split
    · exact fresh_quiet hs hh (by trivial) (by simp) (by simp)
    · split
      · exact fresh_quiet hs hh (by trivial) (by simp) (by simp)
      · exact fresh_quiet hs hh (by trivial) (by simp) (by simp)
  case second =>
    intro now _ _
    exact fresh_check hs hh (by trivial) (Or.inl rfl) now
  case choose =>
    intro now _ _
    exact fresh_choose hs hh now
  case attempt =>
    rintro t (hstage | hstage)
    · rw [hstage] at hf
      exact fresh_attempt hs hh hf.1 hf.2
    · rw [hstage] at hf
      exact fresh_attempt hs hh hf.1 hf.2.1
  case refreshAnswer =>
    intro t clock answer _ hstage
    rw [hstage] at hf
    exact fresh_answered hs hh hf.2.2 (fun _ _ => finishRefresh_tokens)
      (Flight.refreshAnswer_answered ..)
  case authorize =>
    intro x orgIdHint _
    refine ⟨hs.mono _, hh.append _ (by simp) (by simp), ?_⟩
    exact List.mem_append_right _ (List.mem_singleton_self _)
  case authorizeFailed =>
    intro rejection _
    unfold Flight.authorizeFailed
    split
    · exact fresh_quiet hs.logout hh (by trivial) (by simp) (by simp)
    · exact fresh_quiet hs hh (by trivial) (by simp) (by simp)
  case exchangeAnswer =>
    intro p clock answer _ hstage
    rw [hstage] at hf
    exact fresh_answered hs hh hf (fun _ _ => Pending.finish_tokens)
      (Flight.exchangeAnswer_answered ..)
  case store =>
    intro e json now hstage
    rw [hstage] at hf
    obtain ⟨hjson, haccess, hrefresh⟩ := hf
    have hreceived : Received h "access_token" e.access_token := ⟨json, hjson, haccess⟩
    refine fresh_quiet (hs.set ⟨hreceived, hrefresh⟩ now) hh ?_ (by simp) (by simp)
    show Received h "access_token" (TokenResult.ofEntry f.detailedResponse e).access_token
    rw [TokenResult.access_token_ofEntry]
    exact hreceived
  case save =>
    intro o hstage
    rw [hstage] at hf
    have hsaved : FreshShared S h { sh with isAuthenticated := true } :=
      ⟨hs.valid, hs.cells, hs.worker⟩
    refine fresh_quiet hsaved hh ?_ (by simp) (by simp)
    show FreshStage S h (f.leave (.ok o))
    unfold Flight.leave
    split
    · exact hf
    · exact hf
  case release =>
    intro r hstage
    rw [hstage] at hf
    refine fresh_quiet hs hh ?_ (by simp) (by simp)
    cases r with
    | error rejection => trivial
    | ok o => exact hf

end Flight

/-! ## Runs after the logout -/

section Runs

variable {S : Setup} {n : Nat} {s : ClientState}

/-- A flight that is added comes after those of the logout. -/
theorem fresh_added {h : List TokenEvent} {flights : List Flight} {g : Flight}
    (hflights : ∀ i f, flights[i]? = some f →
      (i < n ∧ ∃ r, f.stage = .settled r) ∨ FreshStage S h f.stage)
    (hg : FreshStage S h g.stage) (i : Nat) (f : Flight) (hf : (flights ++ [g])[i]? = some f) :
    (i < n ∧ ∃ r, f.stage = .settled r) ∨ FreshStage S h f.stage := by
  by_cases hi : i < flights.length
  · rw [List.getElem?_append_left hi] at hf
    exact hflights i f hf
  · rw [List.getElem?_append_right (by omega)] at hf
    obtain rfl := List.mem_singleton.mp (List.mem_of_getElem? hf)
    exact Or.inr hg

theorem Fresh.getTokenSilently (h : Fresh S n s) (options : Obj) :
    Fresh S n (s.getTokenSilently S options) := by
  have hold := h.old
  unfold ClientState.getTokenSilently
  dsimp only
  split
  next i hi =>
    refine { h with calls := ?_ }
    intro c hc
    rcases List.mem_append.mp hc with hc' | hnew
    · exact h.calls c hc'
    · obtain rfl := List.mem_singleton.mp hnew
      exact h.promises _ i hi
  next hnone =>
    refine ⟨h.shared, h.history, fresh_added h.flights trivial, ?_, ?_, ?_⟩
    · rw [List.length_append]
      omega
    · intro key i hi
      rw [OrdMap.find_insert] at hi
      split at hi
      · obtain rfl := Option.some.inj hi
        exact hold
      · exact h.promises key i hi
    · intro c hc
      rcases List.mem_append.mp hc with hc' | hnew
      · exact h.calls c hc'
      · obtain rfl := List.mem_singleton.mp hnew
        exact hold

theorem Fresh.login (h : Fresh S n s) (p : Pending) (audience scope : Value) :
    Fresh S n (s.login p audience scope) := by
  have hold := h.old
  have hauth : FreshStage S (s.history ++ [.authorized]) (loginFlight p audience scope).stage :=
    List.mem_append_right _ (List.mem_singleton_self _)
  refine ⟨h.shared.mono _, h.history.append _ (by simp) (by simp), ?_, ?_, h.promises, h.calls⟩
  · refine fresh_added (fun i f hf => ?_) hauth
    exact (h.flights i f hf).imp_right fun hs => hs.mono _
  · show n ≤ (s.flights ++ [_]).length
    rw [List.length_append]
    omega

theorem Fresh.advance (h : Fresh S n s) {i : Nat} {f : Flight} (hf : s.flights[i]? = some f)
    (op : FlightOp) : Fresh S n (s.advance i (f.step S s.shared op)) := by
  rcases h.flights i f hf with ⟨hi, r, hr⟩ | hstage
  · -- a flight from before the logout does nothing any more
    have hidle : f.step S s.shared op = ⟨s.shared, f, []⟩ := by
      unfold Flight.step
      rw [hr]
    have hsame : s.advance i ⟨s.shared, f, []⟩ = s := by
      obtain ⟨hlt, hget⟩ := List.getElem?_eq_some_iff.mp hf
      unfold ClientState.advance
      rw [List.append_nil, ← hget, List.set_getElem_self]
    rw [hidle, hsame]
    exact h
  · have hp := step_fresh h.shared h.history hstage op
    refine ⟨hp.shared, hp.history, ?_, ?_, h.promises, h.calls⟩
    · intro j g hg
      rw [ClientState.advance, List.getElem?_set] at hg
      by_cases hij : i = j
      · obtain ⟨hlt, -⟩ := List.getElem?_eq_some_iff.mp hf
        rw [if_pos hij, if_pos hlt] at hg
        rw [← Option.some.inj hg]
        exact Or.inr hp.stage
      · rw [if_neg hij] at hg
        exact (h.flights j g hg).imp_right fun hs => hs.mono _
    · show n ≤ (s.flights.set i _).length
      rw [List.length_set]
      exact h.old

theorem Fresh.cleanup (h : Fresh S n s) (i : Nat) (f : Flight) : Fresh S n (s.cleanup i f) := by
  unfold ClientState.cleanup
  split
  · split
    · refine { h with promises := ?_ }
      intro key j hj
      rw [OrdMap.find_erase] at hj
      split at hj
      · cases hj
      · exact h.promises key j hj
    · exact h
  · exact h

/-- Every step keeps everything fresh. -/
theorem Fresh.step (h : Fresh S n s) (op : ClientOp) :
    Fresh S n ((ClientState.machine S).step s op).1 := by
  show Fresh S n (s.step S op).1
  unfold ClientState.step
  cases op with
  | getTokenSilently options => exact h.getTokenSilently options
  | login p audience scope => exact h.login p audience scope
  | getUser options now => exact { h with shared := h.shared.get _ _ _ }
  | logout => exact { h with shared := h.shared.logout }
  | flight i op =>
    dsimp only
    split
    next f hf => exact h.advance hf op
    next => exact h
  | cleanup i =>
    dsimp only
    split
    next f hf => exact h.cleanup i f
    next => exact h

theorem run_fresh (h : Fresh S n s) (ops : List ClientOp) :
    Fresh S n ((ClientState.machine S).run s ops) :=
  Machine.run_history (P := fun _ s => Fresh S n s) h ops (fun _ op _ _ h => h.step op)

end Runs

/-! ## The logout -/

/-- No operation is in flight. -/
structure ClientState.Idle (s : ClientState) : Prop where
  flights : ∀ f ∈ s.flights, ∃ r, f.stage = .settled r
  promises : s.promises = []

/-- The client could use what is stored: an entry, or a refresh token if it uses
them. -/
def Usable (S : Setup) : Cacheable → Prop
  | .wrapped ⟨.entry _, _⟩ => True
  | .wrapped ⟨.refreshOnly t, _⟩ => S.useRefreshTokens = true ∧ t.truthy = true
  | .manifest _ => False

/-- Logging out reaches every usable token: the worker remembers none, and a
manifest lists the keys of those in the cache. -/
structure Erasable (S : Setup) (sh : Shared) : Prop where
  worker : S.hasWorker = true → sh.refreshTokens = []
  listed : ∀ cid, S.manager.keyManifest = some cid → ∀ b ∈ sh.store.slots,
    Usable S b.2.value → b.1 ∈ Cache.listed cid sh.store

/-- The client after the logout; what is recorded is what happens from here on. -/
def ClientState.afterLogout (S : Setup) (s : ClientState) : ClientState :=
  { s with shared := s.shared.logout S, calls := [], history := [] }

/-- What holds of a state `s` that a run reaches from there. -/
structure LoggedOut (S : Setup) (s : ClientState) : Prop where
  user : (∀ json, TokenEvent.received json ∉ s.history) →
    ∀ options now, (s.getUser S options now).2 = none
  returned : ∀ c ∈ s.calls, ∀ f o, s.flights[c.flight]? = some f → f.stage = .settled (.ok o) →
    Received s.history "access_token" o.result.access_token
  sent : ∀ t, TokenEvent.sent t ∈ s.history → Received s.history "refresh_token" t
  authorized : ∀ json, TokenEvent.received json ∈ s.history → TokenEvent.authorized ∈ s.history

section Logout

variable {S : Setup} {sh : Shared}

section Valid

variable {f : Flight} (hs : sh.store.Valid)

include hs

theorem receive_valid (json : Obj) : (f.receive S sh json).1.store.Valid := by
  unfold Flight.receive
  split
  · exact hs
  · exact hs

theorem cacheCheck_valid (now : Js.Num) (hit : Settlement → Stage) (next : Stage) :
    (f.cacheCheck S sh now hit next).shared.store.Valid := by
  rcases @Flight.cacheCheck_cases S sh f now hit next with
    ⟨-, hp⟩ | ⟨-, found, rfl, ⟨e, -, -, hp⟩ | ⟨-, hp⟩⟩ <;> rw [hp]
  · exact hs
  · exact Cache.get_valid hs _ _ _
  · exact Cache.get_valid hs _ _ _

theorem choose_valid (now : Js.Num) : (f.choose S sh now).shared.store.Valid := by
  rcases @Flight.choose_cases S sh f now with
    ⟨-, hp⟩ | ⟨-, found, rfl, ⟨-, -, hp⟩ | ⟨-, hp⟩⟩ <;> rw [hp]
  · exact hs
  · exact Cache.get_valid hs _ _ _
  · exact Cache.get_valid hs _ _ _

theorem answered_valid {finish : Obj → Except JwtError CacheEntry}
    {answer : Except String TokenAnswer} {p : Progress}
    (hp : Flight.Answered S sh f finish answer p) : p.shared.store.Valid := by
  cases hp with
  | failed _ => exact hs
  | rejected _ => exact receive_valid hs _
  | loggedOut _ => exact Shared.logout_valid (receive_valid hs _)
  | accepted _ _ => exact receive_valid hs _

/-- The bookkeeping of the cache survives a step of a flight. -/
theorem step_store_valid (op : FlightOp) : (f.step S sh op).shared.store.Valid := by
  apply @Flight.step_elim S sh f (fun p => p.shared.store.Valid) op
  case idle => exact hs
  case first => exact fun now _ _ => cacheCheck_valid hs now _ _
  case lock =>
    intro tries acquired _ _
    unfold Flight.lock
    split
    · exact hs
    · split <;> exact hs
  case second => exact fun now _ _ => cacheCheck_valid hs now _ _
  case choose => exact fun now _ _ => choose_valid hs now
  case attempt =>
    intro t _
    rcases @Flight.attempt_cases S sh f t with hp | ⟨t', hp, -⟩ <;> rw [hp] <;> exact hs
  case refreshAnswer => exact fun _ _ _ _ _ => answered_valid hs (Flight.refreshAnswer_answered ..)
  case authorize => exact fun _ _ _ => hs
  case authorizeFailed =>
    intro rejection _
    unfold Flight.authorizeFailed
    split
    · exact Shared.logout_valid hs
    · exact hs
  case exchangeAnswer => exact fun _ _ _ _ _ => answered_valid hs (Flight.exchangeAnswer_answered ..)
  case store => exact fun e _ now _ => Cache.set_valid hs e now
  case save => exact fun _ _ => hs
  case release => exact fun _ _ => hs

end Valid

/-- The bookkeeping of the cache is sound in every reachable state. -/
theorem run_store_valid (ops : List ClientOp) :
    ((ClientState.machine S).run {} ops).shared.store.Valid := by
  refine Machine.run_history (P := fun _ s => ClientState.shared s |>.store.Valid) Store.valid_empty ops ?_
  intro _ op s _ hs
  show (s.step S op).1.shared.store.Valid
  unfold ClientState.step
  cases op with
  | getTokenSilently options =>
    dsimp only
    unfold ClientState.getTokenSilently
    dsimp only
    split <;> exact hs
  | login p audience scope => exact hs
  | getUser options now => exact Cache.get_valid hs _ _ _
  | logout => exact Shared.logout_valid hs
  | flight i op =>
    dsimp only
    split
    next f _ => exact step_store_valid hs op
    next => exact hs
  | cleanup i =>
    dsimp only
    split
    next f _ =>
      unfold ClientState.cleanup
      split
      · split <;> exact hs
      · exact hs
    next => exact hs

/-- The logout leaves nothing that can be used. -/
theorem logout_not_usable (he : Erasable S sh) :
    ∀ b ∈ (sh.logout S).store.slots, ¬ Usable S b.2.value := by
  have hall : ∀ b ∈ (Cache.Manager.clearSync none sh.store).slots, False := by
    rw [Cache.clearSync_slots]
    exact fun b hb => absurd hb List.not_mem_nil
  unfold Shared.logout
  dsimp only
  split
  next hcustom =>
    unfold Cache.Manager.clear Cache.Manager.getCacheKeys
    cases hm : S.manager.keyManifest with
    | none => exact fun b hb _ => hall b hb
    | some cid =>
      have hlisted := he.listed cid hm
      unfold Cache.listed at hlisted
      dsimp only
      cases hk : Cache.manifestKeys cid sh.store with
      | none =>
        rw [hk] at hlisted
        intro b hb hu
        exact absurd (hlisted b hb hu) List.not_mem_nil
      | some keys =>
        rw [hk] at hlisted
        intro b hb hu
        obtain ⟨hmem, hnot⟩ := Cache.mem_removeAll.mp (OrdMap.mem_erase.mp hb).1
        exact hnot (hlisted b hmem hu)
  next => exact fun b hb _ => hall b hb

theorem logout_freshShared (hs : sh.store.Valid) (he : Erasable S sh) :
    FreshShared S [] (sh.logout S) := by
  refine ⟨Shared.logout_valid hs, ?_, ?_⟩
  · intro b hb
    have hnot := logout_not_usable he b hb
    cases hv : b.2.value with
    | manifest keys => trivial
    | wrapped w =>
      obtain ⟨body, expiresAt⟩ := w
      rw [hv] at hnot
      cases body with
      | entry e => exact absurd trivial hnot
      | refreshOnly t => exact fun hu ht => absurd ⟨hu, ht⟩ hnot
  · intro hw b hb
    have hempty : (sh.logout S).refreshTokens = [] := he.worker hw
    rw [hempty] at hb
    cases hb

theorem Fresh.loggedOut {n : Nat} {s : ClientState} (h : Fresh S n s) : LoggedOut S s where
  user hnone options now := by
    unfold ClientState.getUser
    dsimp only
    cases hget : (S.manager.get (S.client.userKey options) (.fin 0) now s.shared.store).2 with
    | none => rfl
    | some b =>
      have hb := h.shared.get_body hget
      cases b with
      | refreshOnly t => rfl
      | entry e =>
        obtain ⟨json, hjson, -⟩ := hb.1
        exact absurd hjson (hnone json)
  returned c hc f o hf ho := by
    rcases h.flights c.flight f hf with ⟨hlt, -⟩ | hstage
    · have := h.calls c hc
      omega
    · rw [ho] at hstage
      exact hstage
  sent := h.history.sent
  authorized := h.history.authorized

end Logout

/-- **Logout is final.** In every run, from every idle state of a client where
the logout reaches all tokens: nobody is logged in until a token response is
received; what a later request returns or sends to the token endpoint was
received after the logout; and nothing is received before a response of
`/authorize`. -/
theorem logout_final (S : Setup) {ops : List ClientOp}
    (hidle : ((ClientState.machine S).run {} ops).Idle)
    (he : Erasable S ((ClientState.machine S).run {} ops).shared) (later : List ClientOp) :
    LoggedOut S ((ClientState.machine S).run
      (((ClientState.machine S).run {} ops).afterLogout S) later) := by
  have hfresh : Fresh S ((ClientState.machine S).run {} ops).flights.length
      (((ClientState.machine S).run {} ops).afterLogout S) := by
    refine ⟨logout_freshShared (run_store_valid ops) he, ⟨?_, ?_⟩, ?_, Nat.le_refl _, ?_, ?_⟩
    · intro t ht
      cases ht
    · intro json hjson
      cases hjson
    · intro i f hf
      obtain ⟨hlt, -⟩ := List.getElem?_eq_some_iff.mp hf
      exact Or.inl ⟨hlt, hidle.flights f (List.mem_of_getElem? hf)⟩
    · intro key i hi
      have hnone : (((ClientState.machine S).run {} ops).afterLogout S).promises = [] :=
        hidle.promises
      rw [hnone] at hi
      cases hi
    · intro c hc
      cases hc
  exact (run_fresh hfresh later).loggedOut

/-! ## Two clients -/

/-- Without refresh tokens a login is gone after a logout. -/
theorem logout_final_plain :
    ((ClientState.machine (sampleSetup false false)).run {}
      (sampleLoginOps false (sampleResponse "access" .undefined))).Idle ∧
    LoggedOut (sampleSetup false false) ((ClientState.machine (sampleSetup false false)).run
      (((ClientState.machine (sampleSetup false false)).run {}
        (sampleLoginOps false (sampleResponse "access" .undefined))).afterLogout
          (sampleSetup false false)) [.getTokenSilently []]) := by
  have hrun := @run_sampleLogin false false (sampleResponse "access" .undefined) _ _ rfl rfl rfl
  have hidle : ((ClientState.machine (sampleSetup false false)).run {}
      (sampleLoginOps false (sampleResponse "access" .undefined))).Idle := by
    rw [hrun]
    refine ⟨fun f hf => ?_, rfl⟩
    obtain rfl := List.mem_singleton.mp hf
    exact ⟨_, rfl⟩
  refine ⟨hidle, logout_final (sampleSetup false false) hidle ?_ _⟩
  exact ⟨(fun hw => nomatch hw), (fun cid hm => nomatch hm)⟩

/-- A refresh after the logout, from the call to the token request. -/
def refreshOps : List ClientOp :=
  .getTokenSilently [] ::
    [.check sampleClock.nowProvider, .lock true, .check sampleClock.nowProvider,
      .choose sampleClock.nowProvider, .attempt].map (.flight 1)

/-- With an empty cache a flight comes to the token request with what the worker
has. -/
theorem run_refresh {sh : Shared} (hs : sh.store.slots = [])
    {t : Value} (ht : Worker.request sh.refreshTokens (.str "default")
      (.str "openid profile email offline_access") .undefined = some t) :
    (Flight.run (sampleSetup true true) sh
      ⟨"client::undefined::openid profile email offline_access", false,
        (sampleClient true).silentOptions [], false, false, .firstCheck⟩
      [.check sampleClock.nowProvider, .lock true, .check sampleClock.nowProvider,
        .choose sampleClock.nowProvider, .attempt]).events = [.locked, .sent t] := by
  have hget := @Cache.Manager.get_of_empty (sampleSetup true true).manager rfl sh.store hs
  have hslot : workerAudience ((sampleClient true).refreshOptions
      ((sampleClient true).silentOptions [])) = .str "default" := rfl
  have hscope : ((sampleClient true).refreshOptions ((sampleClient true).silentOptions [])).get
      "scope" = .str "openid profile email offline_access" := by
    rw [(@merged_refresh (sampleClient true) [] List.nodup_nil).scope]
    exact congrArg Value.str (by decide)
  have hclient : (sampleSetup true true).client = sampleClient true := rfl
  have hworker : (sampleSetup true true).hasWorker = true := rfl
  have huse : (sampleSetup true true).useRefreshTokens = true := rfl
  simp only [Flight.run, Flight.step, Flight.cacheCheck, hget, Flight.goTo, Flight.lock,
    Flight.choose, Flight.attempt, hworker, huse, hclient, Bool.false_eq_true, if_false, if_true,
    Option.map_none, Option.getD_none, Bool.not_true, Bool.and_false, hslot, hscope, ht]
  rfl

/-- The defect: the worker keeps the refresh token of the login, and the first
request after the logout sends it, with nothing received in between. -/
theorem worker_survives_logout :
    ((ClientState.machine (sampleSetup true true)).run {}
      (sampleLoginOps true (sampleResponse "access" (.str "refresh")))).Idle ∧
    ((ClientState.machine (sampleSetup true true)).run
      (((ClientState.machine (sampleSetup true true)).run {}
        (sampleLoginOps true (sampleResponse "access" (.str "refresh")))).afterLogout
          (sampleSetup true true)) refreshOps).history = [.locked, .sent (.str "refresh")] := by
  have hrun := @run_sampleLogin true true (sampleResponse "access" (.str "refresh")) _ _ rfl rfl rfl
  rw [hrun]
  refine ⟨⟨fun f hf => ?_, rfl⟩, ?_⟩
  · obtain rfl := List.mem_singleton.mp hf
    exact ⟨_, rfl⟩
  · have hkey : (sampleSetup true true).promiseKey ((sampleSetup true true).client.silentOptions []) =
        "client::undefined::openid profile email offline_access" := by decide
    unfold refreshOps
    rw [ClientState.run_cons]
    simp only [ClientState.step]
    rw [ClientState.getTokenSilently_start _ hkey rfl, ClientState.run_last (i := 1)]
    · exact run_refresh (Cache.clearSync_slots _) rfl
    · rfl

end AuthokSpa
