import AuthokSpa.Client.Login

/-!
# The cookies of a session (`AuthokClient.ts`)

A client keeps two cookies beside its tokens: `authok.{clientId}.is.authenticated`,
by which `checkSession` knows that there may be a session, and
`authok.{clientId}.organization_hint`, which the next silent request sends along.
A third one, `authok.is.authenticated`, was left by older versions for all clients;
the first client that looks takes it over.

Any number of clients work on the cookies of one page here, each with its own
client id, its own days and the storage it has chosen, in any order. For one of them,
what its storage has under its names stands for its mark and its hint, and what clients
with other ids do has other names (`Stands.cookieCall`, `Stands.other`). From that
follows when `checkSession` goes on to ask for tokens (`checks_eq`), what hint a silent
request carries (`hints_eq`), and that clients do not see each other (`clients_apart`);
all of it without the cookie of older versions, which is taken over once
(`old_cookie_taken_once`).
-/

namespace AuthokSpa

open Js (Value IsJson)
open Cookies (LEGACY_PREFIX)

/-- `OLD_IS_AUTHENTICATED_COOKIE_NAME`. -/
def OLD_IS_AUTHENTICATED_COOKIE_NAME : String := "authok.is.authenticated"

/-! ## What a client does with its cookies -/

/-- The moments of a client's methods at which they touch these cookies:
a token has been stored, `_processOrgIdHint`, the end of `logout`, the start of
`checkSession`, and the reading of the hint in `_getTokenFromIFrame`. -/
inductive CookieCall where
  | authenticated (now : ℚ)
  | processOrgIdHint (organizationId : Value) (now : ℚ)
  | logout
  | checkSession (now : ℚ)
  | orgIdHint (now : ℚ)

namespace AuthokClient

variable {σ : Type} (C : ClientStorage σ) (c : AuthokClient)

/-- `checkSession` up to `getTokenSilently`, and whether it goes on to that; none
when a cookie does not parse. -/
def checkCookies (x : σ) (now : ℚ) : σ × Option Value :=
  match C.get x now c.isAuthenticatedCookieName with
  | none => (x, none)
  | some isAuthenticated =>
    if isAuthenticated.truthy then (x, some (.bool true))
    else
      match C.get x now OLD_IS_AUTHENTICATED_COOKIE_NAME with
      | none => (x, none)
      | some old =>
        if old.truthy then
          -- the existing cookie is migrated to the name scoped by client id
          (C.remove (c.saveCookie C c.isAuthenticatedCookieName (.bool true) now x)
            OLD_IS_AUTHENTICATED_COOKIE_NAME, some (.bool true))
        else (x, some (.bool false))

/-- One moment, on the cookies `x`. -/
def cookieCall (x : σ) : CookieCall → σ × Option Value
  | .authenticated now =>
    (c.saveCookie C c.isAuthenticatedCookieName (.bool true) now x, some .undefined)
  | .processOrgIdHint organizationId now =>
    (c.processOrgIdHint C organizationId now x, some .undefined)
  | .logout => (C.remove (C.remove x c.orgHintCookieName) c.isAuthenticatedCookieName,
      some .undefined)
  | .checkSession now => c.checkCookies C x now
  | .orgIdHint now => (x, C.get x now c.orgHintCookieName)

/-- The calls of the storage that a moment may make. -/
def storageOps : CookieCall → List StorageOp
  | .authenticated now =>
    [.save c.isAuthenticatedCookieName (.bool true) c.sessionCheckExpiryDays now]
  | .processOrgIdHint organizationId now =>
    if organizationId.truthy then
      [.save c.orgHintCookieName organizationId c.sessionCheckExpiryDays now]
    else [.remove c.orgHintCookieName]
  | .logout => [.remove c.orgHintCookieName, .remove c.isAuthenticatedCookieName]
  | .checkSession now =>
    [.get c.isAuthenticatedCookieName now, .get OLD_IS_AUTHENTICATED_COOKIE_NAME now,
      .save c.isAuthenticatedCookieName (.bool true) c.sessionCheckExpiryDays now,
      .remove OLD_IS_AUTHENTICATED_COOKIE_NAME]
  | .orgIdHint now => [.get c.orgHintCookieName now]

end AuthokClient

/-- Clients that share their cookies, each by the storage it has chosen. -/
def sessionCookies {σ : Type} (C : AuthokClient → ClientStorage σ) :
    Machine σ (AuthokClient × CookieCall) (Option Value) where
  step x op := op.1.cookieCall (C op.1) x op.2

/-! ## Names -/

/-- What the cookies are about. -/
inductive SessionKey where
  | isAuthenticated (clientId : String)
  | organizationHint (clientId : String)
  | oldIsAuthenticated
  deriving DecidableEq

def SessionKey.name : SessionKey → String
  | isAuthenticated clientId => "authok." ++ (clientId ++ ".is.authenticated")
  | organizationHint clientId => "authok." ++ (clientId ++ ".organization_hint")
  | oldIsAuthenticated => OLD_IS_AUTHENTICATED_COOKIE_NAME

theorem last_isAuthenticated (clientId : String) :
    (SessionKey.isAuthenticated clientId).name.toList.getLast? = some 'd' := by
  simp only [SessionKey.name, String.toList_append, List.getLast?_append]
  rfl

theorem last_organizationHint (clientId : String) :
    (SessionKey.organizationHint clientId).name.toList.getLast? = some 't' := by
  simp only [SessionKey.name, String.toList_append, List.getLast?_append]
  rfl

theorem isAuthenticated_ne_organizationHint (clientId clientId' : String) :
    (SessionKey.isAuthenticated clientId).name ≠ (SessionKey.organizationHint clientId').name := by
  intro h
  have hlast := last_isAuthenticated clientId
  rw [h, last_organizationHint] at hlast
  exact absurd hlast (by decide)

theorem isAuthenticated_ne_old (clientId : String) :
    (SessionKey.isAuthenticated clientId).name ≠ SessionKey.oldIsAuthenticated.name := by
  intro h
  have hlen := congrArg String.length h
  simp only [SessionKey.name, OLD_IS_AUTHENTICATED_COOKIE_NAME, String.length_append] at hlen
  have h1 : ("authok." : String).length = 7 := rfl
  have h2 : (".is.authenticated" : String).length = 17 := rfl
  have h3 : ("authok.is.authenticated" : String).length = 23 := rfl
  omega

theorem organizationHint_ne_old (clientId : String) :
    (SessionKey.organizationHint clientId).name ≠ SessionKey.oldIsAuthenticated.name := by
  intro h
  have hlast := last_organizationHint clientId
  rw [h] at hlast
  exact absurd hlast (by decide)

/-- No two of them share a name. -/
theorem SessionKey.name_injective : Function.Injective SessionKey.name := by
  intro k k' h
  cases k with
  | isAuthenticated id =>
    cases k' with
    | isAuthenticated id' =>
      exact congrArg _ ((String.append_left_inj _).mp ((String.append_right_inj _).mp h))
    | organizationHint id' => exact absurd h (isAuthenticated_ne_organizationHint id id')
    | oldIsAuthenticated => exact absurd h (isAuthenticated_ne_old id)
  | organizationHint id =>
    cases k' with
    | isAuthenticated id' => exact absurd h.symm (isAuthenticated_ne_organizationHint id' id)
    | organizationHint id' =>
      exact congrArg _ ((String.append_left_inj _).mp ((String.append_right_inj _).mp h))
    | oldIsAuthenticated => exact absurd h (organizationHint_ne_old id)
  | oldIsAuthenticated =>
    cases k' with
    | isAuthenticated id' => exact absurd h.symm (isAuthenticated_ne_old id')
    | organizationHint id' => exact absurd h.symm (organizationHint_ne_old id')
    | oldIsAuthenticated => rfl

/-- None is the name of a cookie for legacy browsers. -/
theorem SessionKey.legacyName_ne (k k' : SessionKey) : legacyName k.name ≠ k'.name := by
  intro h
  have hhead := congrArg (fun s => s.toList.head?) h
  cases k' with
  | isAuthenticated id => exact absurd hhead (by simp [legacyName, LEGACY_PREFIX, SessionKey.name])
  | organizationHint id => exact absurd hhead (by simp [legacyName, LEGACY_PREFIX, SessionKey.name])
  | oldIsAuthenticated =>
    exact absurd hhead
      (by simp [legacyName, LEGACY_PREFIX, SessionKey.name, OLD_IS_AUTHENTICATED_COOKIE_NAME])

/-- The names in use. -/
def IsSessionName (name : String) : Prop := ∃ k : SessionKey, k.name = name

theorem sessionNames_apart : Apart IsSessionName := by
  rintro _ _ ⟨k, rfl⟩ ⟨k', rfl⟩
  exact k.legacyName_ne k'

/-- A name that clients with this id look at. -/
def SessionKey.IsOf (clientId : String) : SessionKey → Prop
  | isAuthenticated id => id = clientId
  | organizationHint id => id = clientId
  | oldIsAuthenticated => True

def IsNameOf (clientId : String) (name : String) : Prop :=
  ∃ k : SessionKey, k.IsOf clientId ∧ k.name = name

theorem IsNameOf.isSessionName {clientId name : String} (h : IsNameOf clientId name) :
    IsSessionName name := by
  obtain ⟨k, -, hname⟩ := h
  exact ⟨k, hname⟩

/-! ## What moments say -/

/-- A value saved at `now`. -/
def AuthokClient.bound (c : AuthokClient) (value : Value) (now : ℚ) : Expiring.Binding Value ℚ :=
  ⟨value, StorageOp.lifetime now c.sessionCheckExpiryDays⟩

/-- What a moment says of the session: it marks it, it ends it, or neither. -/
def mark (c : AuthokClient) : CookieCall → Option (Option (Expiring.Binding Value ℚ))
  | .authenticated now => some (some (c.bound (.bool true) now))
  | .logout => some none
  | _ => none

/-- What a moment says of the organization hint. -/
def hint (c : AuthokClient) : CookieCall → Option (Option (Expiring.Binding Value ℚ))
  | .processOrgIdHint organizationId now =>
    some (if organizationId.truthy then some (c.bound organizationId now) else none)
  | .logout => some none
  | _ => none

/-- What the last moment of a client that says something (`mark` or `hint`) says. -/
def lastOf (said : AuthokClient → CookieCall → Option (Option (Expiring.Binding Value ℚ)))
    (clientId : String) (ops : List (AuthokClient × CookieCall)) :
    Option (Expiring.Binding Value ℚ) :=
  (Machine.lastSaid (fun op => if op.1.client_id = clientId then said op.1 op.2 else none) ops).join

/-- The answer to a moment of a client with this mark and this hint, where there is no
cookie of older versions. -/
def answer (m h : Option (Expiring.Binding Value ℚ)) : CookieCall → Option Value
  | .checkSession now => some (.bool (m.any fun b => b.inForce now))
  | .orgIdHint now =>
    some (((h.filter fun b => b.inForce now).map Expiring.Binding.value).getD .undefined)
  | _ => some .undefined

/-! ## The mark and the hint of one client -/

/-- The call does to what `C` holds what it does to the store, where nothing is bound to
`name`. -/
def ClientStorage.Follows {σ : Type} (C : ClientStorage σ) (R : σ → StoredValues → Prop)
    (name : String) (o : StorageOp) : Prop :=
  ∀ x s, R x s → s name = none → R (C.machine.step x o).1 (Expiring.step s o.expiring).1

/-- What is asked of a moment beside the client `c`: a client with its id has chosen its
storage and makes calls that are `ok`; what the others call follows the store, too. -/
structure Suits {σ : Type} (C : AuthokClient → ClientStorage σ) (c : AuthokClient)
    (ok : StorageOp → Prop) (R : σ → StoredValues → Prop) (op : AuthokClient × CookieCall) :
    Prop where
  own : op.1.client_id = c.client_id → C op.1 = C c ∧ ∀ o ∈ op.1.storageOps op.2, ok o
  other : op.1.client_id ≠ c.client_id →
    ∀ o ∈ op.1.storageOps op.2, (C op.1).Follows R OLD_IS_AUTHENTICATED_COOKIE_NAME o

/-- Clients that have all chosen a storage which refines the store. -/
theorem Suits.of_refines {σ : Type} {C : ClientStorage σ} {c : AuthokClient}
    {ok : StorageOp → Prop} {sees : Value → Bool} {R : σ → StoredValues → Prop}
    (hC : C.Refines ok sees R) {op : AuthokClient × CookieCall}
    (hop : ∀ o ∈ op.1.storageOps op.2, ok o) : Suits (fun _ => C) c ok R op where
  own _ := ⟨rfl, hop⟩
  other _ o ho := fun _ _ hR _ => hC.step hR (hop o ho)

/-- The cookies `x` have this mark and this hint for clients with the id, both truthy, and
no cookie of older versions. -/
structure Stands {σ : Type} (R : σ → StoredValues → Prop) (clientId : String) (x : σ)
    (m h : Option (Expiring.Binding Value ℚ)) : Prop where
  values : ∃ s, R x s ∧ s (SessionKey.isAuthenticated clientId).name = m ∧
    s (SessionKey.organizationHint clientId).name = h ∧
    s OLD_IS_AUTHENTICATED_COOKIE_NAME = none
  markTruthy : ∀ b ∈ m, b.value.truthy = true
  hintTruthy : ∀ b ∈ h, b.value.truthy = true

section Refinement

variable {σ : Type} {C : ClientStorage σ} {ok : StorageOp → Prop} {sees : Value → Bool}
  {R : σ → StoredValues → Prop} {x : σ} {m h : Option (Expiring.Binding Value ℚ)}

theorem isAuthenticated_ne_hint (clientId : String) :
    (SessionKey.isAuthenticated clientId).name ≠ (SessionKey.organizationHint clientId).name :=
  isAuthenticated_ne_organizationHint clientId clientId

/-- A truthy value is read as it is. -/
theorem get_truthy (hC : C.Refines ok sees R) (hsees : ∀ v : Value, v.truthy = true → sees v = true)
    {s : StoredValues} (hR : R x s) {key : String} {b : Option (Expiring.Binding Value ℚ)}
    (hb : s key = b) (htruthy : ∀ b' ∈ b, b'.value.truthy = true) {now : ℚ}
    (hok : ok (.get key now)) :
    C.get x now key =
      some (((b.filter fun b => b.inForce now).map Expiring.Binding.value).getD .undefined) := by
  rw [hC.get hR hok]
  unfold Expiring.Store.at
  rw [hb]
  cases b with
  | none => rfl
  | some b =>
    rw [Option.filter_some]
    dsimp only
    split
    next =>
      rw [Option.filter_some, if_pos (hsees _ (htruthy b rfl))]
      rfl
    next => rfl

/-- Being in force is all that is asked of a mark. -/
theorem truthy_getD (hm : ∀ b ∈ m, b.value.truthy = true) (now : ℚ) :
    (((m.filter fun b => b.inForce now).map Expiring.Binding.value).getD .undefined).truthy =
      m.any fun b => b.inForce now := by
  cases m with
  | none => rfl
  | some b =>
    rw [Option.filter_some, Option.any_some]
    cases hin : b.inForce now with
    | true => exact hm b rfl
    | false => rfl

theorem Stands.save_mark (hC : C.Refines ok sees R) {c : AuthokClient}
    (hs : Stands R c.client_id x m h) {now : ℚ}
    (hok : ok (.save c.isAuthenticatedCookieName (.bool true) c.sessionCheckExpiryDays now)) :
    Stands R c.client_id (c.saveCookie C c.isAuthenticatedCookieName (.bool true) now x)
      (some (c.bound (.bool true) now)) h := by
  obtain ⟨s, hR, -, hhint, hold⟩ := hs.values
  refine ⟨⟨_, hC.step hR hok, Expiring.Store.write_self .., ?_, ?_⟩, ?_, hs.hintTruthy⟩
  · exact (Expiring.Store.write_ne _ _ (isAuthenticated_ne_hint _)).trans hhint
  · exact (Expiring.Store.write_ne _ _ (isAuthenticated_ne_old _)).trans hold
  · rintro b ⟨⟩
    rfl

theorem Stands.remove_mark (hC : C.Refines ok sees R) {c : AuthokClient}
    (hs : Stands R c.client_id x m h) (hok : ok (.remove c.isAuthenticatedCookieName)) :
    Stands R c.client_id (C.remove x c.isAuthenticatedCookieName) none h := by
  obtain ⟨s, hR, -, hhint, hold⟩ := hs.values
  refine ⟨⟨_, hC.step hR hok, Expiring.Store.write_self .., ?_, ?_⟩, ?_, hs.hintTruthy⟩
  · exact (Expiring.Store.write_ne _ _ (isAuthenticated_ne_hint _)).trans hhint
  · exact (Expiring.Store.write_ne _ _ (isAuthenticated_ne_old _)).trans hold
  · rintro b ⟨⟩

theorem Stands.save_hint (hC : C.Refines ok sees R) {c : AuthokClient}
    (hs : Stands R c.client_id x m h) {organizationId : Value} {now : ℚ}
    (ht : organizationId.truthy = true)
    (hok : ok (.save c.orgHintCookieName organizationId c.sessionCheckExpiryDays now)) :
    Stands R c.client_id (c.saveCookie C c.orgHintCookieName organizationId now x) m
      (some (c.bound organizationId now)) := by
  obtain ⟨s, hR, hmark, -, hold⟩ := hs.values
  refine ⟨⟨_, hC.step hR hok, ?_, Expiring.Store.write_self .., ?_⟩, hs.markTruthy, ?_⟩
  · exact (Expiring.Store.write_ne _ _ (isAuthenticated_ne_hint _).symm).trans hmark
  · exact (Expiring.Store.write_ne _ _ (organizationHint_ne_old _)).trans hold
  · rintro b ⟨⟩
    exact ht

theorem Stands.remove_hint (hC : C.Refines ok sees R) {c : AuthokClient}
    (hs : Stands R c.client_id x m h) (hok : ok (.remove c.orgHintCookieName)) :
    Stands R c.client_id (C.remove x c.orgHintCookieName) m none := by
  obtain ⟨s, hR, hmark, -, hold⟩ := hs.values
  refine ⟨⟨_, hC.step hR hok, ?_, Expiring.Store.write_self .., ?_⟩, hs.markTruthy, ?_⟩
  · exact (Expiring.Store.write_ne _ _ (isAuthenticated_ne_hint _).symm).trans hmark
  · exact (Expiring.Store.write_ne _ _ (organizationHint_ne_old _)).trans hold
  · rintro b ⟨⟩

/-- Without the cookie of older versions `checkSession` changes nothing. -/
theorem Stands.checkCookies (hC : C.Refines ok sees R)
    (hsees : ∀ v : Value, v.truthy = true → sees v = true) {c : AuthokClient}
    (hs : Stands R c.client_id x m h) {now : ℚ}
    (hok : ∀ o ∈ c.storageOps (.checkSession now), ok o) :
    c.checkCookies C x now = (x, some (.bool (m.any fun b => b.inForce now))) := by
  obtain ⟨s, hR, hmark, -, hold⟩ := hs.values
  simp only [AuthokClient.storageOps, List.forall_mem_cons] at hok
  obtain ⟨hgetOwn, hgetOld, -, -⟩ := hok
  have hown : C.get x now c.isAuthenticatedCookieName = _ :=
    get_truthy hC hsees hR hmark hs.markTruthy hgetOwn
  have hnone : C.get x now OLD_IS_AUTHENTICATED_COOKIE_NAME = _ :=
    get_truthy hC hsees hR hold (fun b hb => by cases hb) hgetOld
  unfold AuthokClient.checkCookies
  rw [hown]
  dsimp only
  rw [truthy_getD hs.markTruthy]
  cases m.any fun b => b.inForce now with
  | true => rfl
  | false =>
    rw [if_neg Bool.false_ne_true, hnone]
    rfl

theorem Stands.get_hint (hC : C.Refines ok sees R)
    (hsees : ∀ v : Value, v.truthy = true → sees v = true) {c : AuthokClient}
    (hs : Stands R c.client_id x m h) {now : ℚ} (hok : ∀ o ∈ c.storageOps (.orgIdHint now), ok o) :
    C.get x now c.orgHintCookieName = answer m h (.orgIdHint now) := by
  obtain ⟨s, hR, -, hhint, -⟩ := hs.values
  exact get_truthy hC hsees hR hhint hs.hintTruthy (hok _ (List.mem_singleton_self _))

/-- One moment of a client with the id. -/
theorem Stands.cookieCall (hC : C.Refines ok sees R)
    (hsees : ∀ v : Value, v.truthy = true → sees v = true) {c : AuthokClient}
    (hs : Stands R c.client_id x m h) {call : CookieCall} (hok : ∀ o ∈ c.storageOps call, ok o) :
    Stands R c.client_id (c.cookieCall C x call).1 ((mark c call).getD m) ((hint c call).getD h) ∧
      (c.cookieCall C x call).2 = answer m h call := by
  cases call with
  | authenticated now => exact ⟨hs.save_mark hC (hok _ (List.mem_singleton_self _)), rfl⟩
  | processOrgIdHint organizationId now =>
    refine ⟨?_, rfl⟩
    unfold AuthokClient.cookieCall AuthokClient.processOrgIdHint hint
    unfold AuthokClient.storageOps at hok
    by_cases ht : organizationId.truthy = true
    · simp only [if_pos ht] at hok ⊢
      exact hs.save_hint hC ht (hok _ (List.mem_singleton_self _))
    · simp only [if_neg ht] at hok ⊢
      exact hs.remove_hint hC (hok _ (List.mem_singleton_self _))
  | logout =>
    have hfirst := hs.remove_hint hC (hok _ (List.mem_cons_self ..))
    exact ⟨hfirst.remove_mark hC (hok _ (List.mem_cons_of_mem _ (List.mem_singleton_self _))), rfl⟩
  | checkSession now =>
    have hcheck := hs.checkCookies hC hsees hok
    exact ⟨(congrArg Prod.fst hcheck).symm ▸ hs, congrArg Prod.snd hcheck⟩
  | orgIdHint now => exact ⟨hs, hs.get_hint hC hsees hok⟩

/-! ### Another client -/

section Other

variable {clientId name : String} {k : SessionKey}

/-- A write to a name that clients with the id do not look at, or one that unbinds the cookie
of older versions once more. -/
theorem Stands.write (hs : Stands R clientId x m h) {y : σ}
    {b : Option (Expiring.Binding Value ℚ)}
    (hk : ¬ k.IsOf clientId ∨ (k = .oldIsAuthenticated ∧ b = none))
    (hy : ∀ s, R x s → s OLD_IS_AUTHENTICATED_COOKIE_NAME = none → R y (s.write k.name b)) :
    Stands R clientId y m h := by
  obtain ⟨s, hR, hmark, hhint, hold⟩ := hs.values
  have hne : ∀ k' : SessionKey, k'.IsOf clientId → k' ≠ .oldIsAuthenticated → k.name ≠ k'.name := by
    rintro k' hown hk' hname
    obtain rfl := SessionKey.name_injective hname
    rcases hk with hother | ⟨heq, -⟩
    · exact hother hown
    · exact hk' heq
  refine ⟨⟨_, hy s hR hold, ?_, ?_, ?_⟩, hs.markTruthy, hs.hintTruthy⟩
  · rw [Expiring.Store.write_ne _ _ (hne (.isAuthenticated clientId) rfl (by simp))]
    exact hmark
  · rw [Expiring.Store.write_ne _ _ (hne (.organizationHint clientId) rfl (by simp))]
    exact hhint
  · rcases hk with hother | ⟨rfl, rfl⟩
    · rw [Expiring.Store.write_ne _ _ fun hname => hother ?_]
      · exact hold
      · have heq : k = .oldIsAuthenticated := SessionKey.name_injective hname
        rw [heq]
        trivial
    · exact Expiring.Store.write_self ..

theorem Stands.other_save (hs : Stands R clientId x m h) (hk : ¬ k.IsOf clientId)
    {value days : Value} {now : ℚ}
    (ho : C.Follows R OLD_IS_AUTHENTICATED_COOKIE_NAME (.save k.name value days now)) :
    Stands R clientId (C.save x now k.name value days) m h :=
  hs.write (Or.inl hk) fun s hR hold => ho x s hR hold

theorem Stands.other_remove (hs : Stands R clientId x m h)
    (hk : ¬ k.IsOf clientId ∨ k = .oldIsAuthenticated)
    (ho : C.Follows R OLD_IS_AUTHENTICATED_COOKIE_NAME (.remove k.name)) :
    Stands R clientId (C.remove x k.name) m h :=
  hs.write (hk.imp_right fun heq => ⟨heq, rfl⟩) fun s hR hold => ho x s hR hold

/-- One moment of another client: its names are its own. -/
theorem Stands.other (hs : Stands R clientId x m h) {c : AuthokClient}
    (hid : c.client_id ≠ clientId) {call : CookieCall}
    (hfollows : ∀ o ∈ c.storageOps call, C.Follows R OLD_IS_AUTHENTICATED_COOKIE_NAME o) :
    Stands R clientId (c.cookieCall C x call).1 m h := by
  have hmark : ¬ (SessionKey.isAuthenticated c.client_id).IsOf clientId := hid
  have hhint : ¬ (SessionKey.organizationHint c.client_id).IsOf clientId := hid
  cases call with
  | authenticated now => exact hs.other_save hmark (hfollows _ (List.mem_singleton_self _))
  | processOrgIdHint organizationId now =>
    unfold AuthokClient.cookieCall AuthokClient.processOrgIdHint
    unfold AuthokClient.storageOps at hfollows
    by_cases ht : organizationId.truthy = true
    · simp only [if_pos ht] at hfollows ⊢
      exact hs.other_save hhint (hfollows _ (List.mem_singleton_self _))
    · simp only [if_neg ht] at hfollows ⊢
      exact hs.other_remove (Or.inl hhint) (hfollows _ (List.mem_singleton_self _))
  | logout =>
    simp only [AuthokClient.storageOps, List.forall_mem_cons] at hfollows
    obtain ⟨hfirst, hsecond, -⟩ := hfollows
    exact (hs.other_remove (Or.inl hhint) hfirst).other_remove (Or.inl hmark) hsecond
  | checkSession now =>
    simp only [AuthokClient.storageOps, List.forall_mem_cons] at hfollows
    obtain ⟨-, -, hsave, hremove, -⟩ := hfollows
    show Stands R clientId (c.checkCookies C x now).1 m h
    unfold AuthokClient.checkCookies
    split
    · exact hs
    · split
      · exact hs
      · split
        · exact hs
        · split
          · exact (hs.other_save hmark hsave).other_remove (k := .oldIsAuthenticated) (Or.inr rfl)
              hremove
          · exact hs
  | orgIdHint now => exact hs

end Other

/-! ## Runs -/

section Runs

variable {C : AuthokClient → ClientStorage σ} {c : AuthokClient}

/-- A moment of any client. -/
theorem Stands.step (hC : (C c).Refines ok sees R)
    (hsees : ∀ v : Value, v.truthy = true → sees v = true) (hs : Stands R c.client_id x m h)
    {op : AuthokClient × CookieCall} (hop : Suits C c ok R op) :
    Stands R c.client_id ((sessionCookies C).step x op).1
      ((if op.1.client_id = c.client_id then mark op.1 op.2 else none).getD m)
      ((if op.1.client_id = c.client_id then hint op.1 op.2 else none).getD h) ∧
    (op.1.client_id = c.client_id →
      ((sessionCookies C).step x op).2 = answer m h op.2) := by
  unfold sessionCookies
  by_cases hid : op.1.client_id = c.client_id
  · obtain ⟨hsame, hok⟩ := hop.own hid
    have hown : Stands R op.1.client_id x m h := hid ▸ hs
    obtain ⟨hnext, hanswer⟩ := hown.cookieCall (hsame ▸ hC) hsees hok
    rw [if_pos hid, if_pos hid, ← hid]
    exact ⟨hnext, fun _ => hanswer⟩
  · rw [if_neg hid, if_neg hid]
    exact ⟨hs.other hid (hop.other hid), fun h => absurd h hid⟩

/-- After a run the mark and the hint are what the moments of the client said last. -/
theorem Stands.run (hC : (C c).Refines ok sees R)
    (hsees : ∀ v : Value, v.truthy = true → sees v = true) :
    ∀ {ops : List (AuthokClient × CookieCall)} {x : σ} {m h : Option (Expiring.Binding Value ℚ)},
      (∀ op ∈ ops, Suits C c ok R op) → Stands R c.client_id x m h →
      Stands R c.client_id ((sessionCookies C).run x ops)
        ((Machine.lastSaid (fun op => if op.1.client_id = c.client_id then mark op.1 op.2 else none)
          ops).getD m)
        ((Machine.lastSaid (fun op => if op.1.client_id = c.client_id then hint op.1 op.2 else none)
          ops).getD h)
  | [], _, _, _, _, hs => hs
  | op :: ops, _, m, h, hops, hs => by
    obtain ⟨hop, hrest⟩ := List.forall_mem_cons.mp hops
    have hnext := Stands.run hC hsees hrest (hs.step hC hsees hop).1
    rw [Machine.run_cons, Machine.lastSaid, Machine.lastSaid, Option.getD_or, Option.getD_or]
    exact hnext

theorem join_getD {α : Type} (o : Option (Option α)) : o.getD none = o.join := by
  cases o with
  | none => rfl
  | some a => rfl

/-- A run that starts without a session. -/
theorem stands_run (hC : (C c).Refines ok sees R)
    (hsees : ∀ v : Value, v.truthy = true → sees v = true) {ops : List (AuthokClient × CookieCall)}
    (hops : ∀ op ∈ ops, Suits C c ok R op) (hs : Stands R c.client_id x none none) :
    Stands R c.client_id ((sessionCookies C).run x ops) (lastOf mark c.client_id ops)
      (lastOf hint c.client_id ops) := by
  have hrun := hs.run hC hsees hops
  rw [join_getD, join_getD] at hrun
  exact hrun

/-- When `checkSession` goes on. -/
theorem checks_eq (hC : (C c).Refines ok sees R)
    (hsees : ∀ v : Value, v.truthy = true → sees v = true) {ops : List (AuthokClient × CookieCall)}
    (hops : ∀ op ∈ ops, Suits C c ok R op) (hs : Stands R c.client_id x none none) {now : ℚ}
    (hcheck : ∀ o ∈ c.storageOps (.checkSession now), ok o) :
    (c.checkCookies (C c) ((sessionCookies C).run x ops) now).2 =
      some (.bool ((lastOf mark c.client_id ops).any fun b => b.inForce now)) :=
  congrArg Prod.snd ((stands_run hC hsees hops hs).checkCookies hC hsees hcheck)

/-- The hint a silent request reads. -/
theorem hints_eq (hC : (C c).Refines ok sees R)
    (hsees : ∀ v : Value, v.truthy = true → sees v = true) {ops : List (AuthokClient × CookieCall)}
    (hops : ∀ op ∈ ops, Suits C c ok R op) (hs : Stands R c.client_id x none none) {now : ℚ}
    (hhint : ∀ o ∈ c.storageOps (.orgIdHint now), ok o) :
    (C c).get ((sessionCookies C).run x ops) now c.orgHintCookieName =
      some ((((lastOf hint c.client_id ops).filter fun b => b.inForce now).map
        Expiring.Binding.value).getD .undefined) :=
  (stands_run hC hsees hops hs).get_hint hC hsees hhint

/-- **What a run leaves a client with.** In a page without the cookie of older
versions, after any moments of any clients, `checkSession` goes on to ask for tokens
if and only if the last time the client stored a token or logged out it stored one,
and not longer ago than its days; and the hint that a silent request reads is the
organization of its last login or logout, as long as that. -/
theorem session_answers (hC : (C c).Refines ok sees R)
    (hsees : ∀ v : Value, v.truthy = true → sees v = true) {ops : List (AuthokClient × CookieCall)}
    (hops : ∀ op ∈ ops, Suits C c ok R op) (hs : Stands R c.client_id x none none) {now : ℚ}
    (hcheck : ∀ o ∈ c.storageOps (.checkSession now), ok o)
    (hhint : ∀ o ∈ c.storageOps (.orgIdHint now), ok o) :
    (c.checkCookies (C c) ((sessionCookies C).run x ops) now).2 =
        some (.bool ((lastOf mark c.client_id ops).any fun b => b.inForce now)) ∧
      (C c).get ((sessionCookies C).run x ops) now c.orgHintCookieName =
        some ((((lastOf hint c.client_id ops).filter fun b => b.inForce now).map
          Expiring.Binding.value).getD .undefined) :=
  ⟨checks_eq hC hsees hops hs hcheck, hints_eq hC hsees hops hs hhint⟩

/-- **Clients do not see each other's cookies.** In a page without the cookie of older
versions, whatever mark and hint a client has, leaving out all moments of clients with
other ids changes nothing for it. -/
theorem clients_apart (hC : (C c).Refines ok sees R)
    (hsees : ∀ v : Value, v.truthy = true → sees v = true) {ops : List (AuthokClient × CookieCall)}
    (hops : ∀ op ∈ ops, Suits C c ok R op) (hs : Stands R c.client_id x m h) :
    ((sessionCookies C).trace x ops).filter (fun y => decide (y.1.1.client_id = c.client_id)) =
      (sessionCookies C).trace x (ops.filter fun op => decide (op.1.client_id = c.client_id)) := by
  refine Machine.trace_filter (M := sessionCookies C)
    (p := fun op => decide (op.1.client_id = c.client_id))
    (R := fun x y => ∃ m h, Stands R c.client_id x m h ∧ Stands R c.client_id y m h)
    (fun x y op hR hop hid => ?_) (fun x y op hR hop hid => ?_) ops x x ⟨m, h, hs, hs⟩ hops
  · obtain ⟨m, h, hx, hy⟩ := hR
    have hown := of_decide_eq_true hid
    obtain ⟨hx', hxanswer⟩ := hx.step hC hsees hop
    obtain ⟨hy', hyanswer⟩ := hy.step hC hsees hop
    exact ⟨⟨_, _, hx', hy'⟩, (hxanswer hown).trans (hyanswer hown).symm⟩
  · obtain ⟨m, h, hx, hy⟩ := hR
    exact ⟨m, h, hx.other (of_decide_eq_false hid) (hop.other (of_decide_eq_false hid)), hy⟩

end Runs

end Refinement

/-! ## The cookie of older versions -/

section OldCookie

/-- A client without a mark that goes on has taken the old cookie over. -/
theorem removes_old {σ : Type} {C : ClientStorage σ} {c : AuthokClient} {x : σ} {now : ℚ}
    (hunmarked : ∀ v, C.get x now c.isAuthenticatedCookieName = some v → v.truthy = false)
    (hgoes : (c.checkCookies C x now).2 = some (.bool true)) :
    ∃ y, (c.checkCookies C x now).1 = C.remove y OLD_IS_AUTHENTICATED_COOKIE_NAME := by
  unfold AuthokClient.checkCookies at hgoes ⊢
  cases hown : C.get x now c.isAuthenticatedCookieName with
  | none =>
    rw [hown] at hgoes
    cases hgoes
  | some v =>
    rw [hown] at hgoes
    simp only [hunmarked v hown, Bool.false_eq_true, if_false] at hgoes ⊢
    cases hold : C.get x now OLD_IS_AUTHENTICATED_COOKIE_NAME with
    | none =>
      rw [hold] at hgoes
      cases hgoes
    | some old =>
      rw [hold] at hgoes
      dsimp only at hgoes ⊢
      split at hgoes
      next ht =>
        rw [if_pos ht]
        exact ⟨_, rfl⟩
      next => cases hgoes

/-- Without a mark and without the old cookie a client does not go on. -/
theorem stays {σ : Type} {C : ClientStorage σ} {c : AuthokClient} {x : σ} {now : ℚ}
    (hunmarked : ∀ v, C.get x now c.isAuthenticatedCookieName = some v → v.truthy = false)
    (hold : C.get x now OLD_IS_AUTHENTICATED_COOKIE_NAME = some .undefined) :
    (c.checkCookies C x now).2 ≠ some (.bool true) := by
  unfold AuthokClient.checkCookies
  cases hown : C.get x now c.isAuthenticatedCookieName with
  | none => exact fun h => by cases h
  | some v =>
    simp only [hunmarked v hown, hold, Bool.false_eq_true, if_false]
    exact fun h => by cases h

variable {J : Type} {A : CookieApi J} {keeps : String → Cookie → Bool} {https : Bool} {j : J}

/-- There is no cookie of this name, at any time. -/
def Absent (A : CookieApi J) (name : String) (j : J) : Prop := ∀ t, A.get j t name = none

/-- A name that no client gives to a cookie. -/
def Unsaved (name : String) : Prop :=
  ∀ k : SessionKey, k ≠ .oldIsAuthenticated → k.name ≠ name ∧ legacyName k.name ≠ name

theorem unsaved_old : Unsaved OLD_IS_AUTHENTICATED_COOKIE_NAME := fun k hk =>
  ⟨fun h => hk (@SessionKey.name_injective k .oldIsAuthenticated h),
    k.legacyName_ne .oldIsAuthenticated⟩

theorem unsaved_legacyOld : Unsaved (legacyName OLD_IS_AUTHENTICATED_COOKIE_NAME) := fun k hk =>
  ⟨(SessionKey.legacyName_ne .oldIsAuthenticated k).symm,
    fun h => hk (@SessionKey.name_injective k .oldIsAuthenticated (legacyName_injective h))⟩

theorem get_plain_absent {key : String} (h : Absent A key j) (now : ℚ) :
    (CookieStorage A https).get j now key = some .undefined := by
  unfold CookieStorage
  dsimp only
  rw [h now]

/-- Nothing is read where the cookies that are looked at are not there. -/
theorem get_absent {c : AuthokClient} {key : String} (hplain : Absent A key j)
    (hlegacy : c.plainCookies = false → Absent A (legacyName key) j) {now : ℚ} :
    (c.cookieStorage A https).get j now key = some .undefined := by
  unfold AuthokClient.cookieStorage
  cases h : c.plainCookies with
  | true => exact get_plain_absent hplain now
  | false =>
    rw [if_neg Bool.false_ne_true]
    unfold CookieStorageWithLegacySameSite
    dsimp only
    rw [get_plain_absent hplain]
    exact get_plain_absent (hlegacy h) now

section Absent

variable {name : String} (hA : A.Lawful keeps)
include hA

theorem Absent.set (h : Absent A name j) {n : String} (hn : n ≠ name) {cookie : Cookie}
    (hc : cookie.Dated) (now : ℚ) : Absent A name (A.set j now n cookie) := by
  intro t
  rw [hA.get_set hc, if_neg fun he => hn he.1]
  exact h t

theorem Absent.remove (h : Absent A name j) (n : String) : Absent A name (A.remove j n) := by
  intro t
  rw [hA.get_remove]
  split
  · rfl
  · exact h t

theorem absent_remove (j : J) (name : String) : Absent A name (A.remove j name) := by
  intro t
  rw [hA.get_remove, if_pos rfl]

theorem Absent.save (h : Absent A name j) (c : AuthokClient) {k : SessionKey}
    (hn : k.name ≠ name ∧ legacyName k.name ≠ name) (hdays : Days c.sessionCheckExpiryDays)
    (value : Value) (now : ℚ) :
    Absent A name (c.saveCookie (c.cookieStorage A https) k.name value now j) := by
  unfold AuthokClient.saveCookie AuthokClient.cookieStorage
  split
  · exact h.set hA hn.1 (hdays.dated_plain https value) now
  · have hlegacy := h.set hA hn.2 (hdays.dated_legacy https value) now
    exact hlegacy.set hA hn.1 (hdays.dated_plain https value) now

theorem Absent.removeBoth (h : Absent A name j) (c : AuthokClient) (key : String) :
    Absent A name ((c.cookieStorage A https).remove j key) := by
  unfold AuthokClient.cookieStorage
  split
  · exact h.remove hA key
  · exact (h.remove hA key).remove hA (legacyName key)

/-- No client brings it back. -/
theorem Absent.cookieCall (h : Absent A name j) (hname : Unsaved name) (c : AuthokClient)
    (hdays : Days c.sessionCheckExpiryDays) (call : CookieCall) :
    Absent A name (c.cookieCall (c.cookieStorage A https) j call).1 := by
  have hmark := hname (.isAuthenticated c.client_id) (fun h => by cases h)
  have hhint := hname (.organizationHint c.client_id) (fun h => by cases h)
  cases call with
  | authenticated now => exact h.save hA c hmark hdays _ now
  | processOrgIdHint organizationId now =>
    unfold AuthokClient.cookieCall AuthokClient.processOrgIdHint
    dsimp only
    split
    · exact h.save hA c hhint hdays _ now
    · exact h.removeBoth hA c _
  | logout => exact (h.removeBoth hA c _).removeBoth hA c _
  | checkSession now =>
    show Absent A name (c.checkCookies (c.cookieStorage A https) j now).1
    unfold AuthokClient.checkCookies
    split
    · exact h
    · split
      · exact h
      · split
        · exact h
        · split
          · exact (h.save hA c hmark hdays _ now).removeBoth hA c _
          · exact h
  | orgIdHint now => exact h

theorem Absent.run (hname : Unsaved name) {ops : List (AuthokClient × CookieCall)}
    (hdays : ∀ op ∈ ops, Days op.1.sessionCheckExpiryDays) (h : Absent A name j) :
    Absent A name ((sessionCookies fun c => c.cookieStorage A https).run j ops) :=
  Machine.run_guarded (C := fun _ op => Days op.1.sessionCheckExpiryDays)
    (fun _ op h hop => h.cookieCall hA hname op.1 hop op.2) ops j h
    (Machine.meets_of_forall _ _ fun op hop _ => hdays op hop)

/-- **The cookie of older versions serves one client**: after a client without a mark
of its own went on because of it, no other client without one ever does. One that does
without legacy cookies leaves the old one for legacy browsers to those that use them. -/
theorem old_cookie_taken_once {first later : List (AuthokClient × CookieCall)}
    {c c' : AuthokClient} {now now' : ℚ}
    (hlater : ∀ op ∈ later, Days op.1.sessionCheckExpiryDays)
    (hstorage : c.plainCookies = true → c'.plainCookies = true)
    (hunmarked : ∀ v, (c.cookieStorage A https).get
      ((sessionCookies fun c => c.cookieStorage A https).run j first) now
        c.isAuthenticatedCookieName = some v → v.truthy = false)
    (hgoes : (c.checkCookies (c.cookieStorage A https)
      ((sessionCookies fun c => c.cookieStorage A https).run j first) now).2 = some (.bool true))
    (hunmarked' : ∀ v, (c'.cookieStorage A https).get
      ((sessionCookies fun c => c.cookieStorage A https).run j
        (first ++ (c, .checkSession now) :: later)) now' c'.isAuthenticatedCookieName = some v →
      v.truthy = false) :
    (c'.checkCookies (c'.cookieStorage A https)
      ((sessionCookies fun c => c.cookieStorage A https).run j
        (first ++ (c, .checkSession now) :: later)) now').2 ≠ some (.bool true) := by
  refine stays hunmarked' ?_
  rw [Machine.run_append, Machine.run_cons]
  set between := (sessionCookies fun c => c.cookieStorage A https).run j first
  obtain ⟨y, hremoved⟩ := removes_old hunmarked hgoes
  have hnext : ((sessionCookies fun c => c.cookieStorage A https).step between
      (c, .checkSession now)).1 = (c.cookieStorage A https).remove y _ := hremoved
  rw [hnext]
  have hold : Absent A OLD_IS_AUTHENTICATED_COOKIE_NAME
      ((c.cookieStorage A https).remove y OLD_IS_AUTHENTICATED_COOKIE_NAME) := by
    unfold AuthokClient.cookieStorage
    split
    · exact absent_remove hA y _
    · exact (absent_remove hA y _).remove hA _
  refine get_absent (hold.run hA unsaved_old hlater) fun hplain => ?_
  -- the first client has removed both cookies
  have hboth : c.plainCookies = false :=
    Bool.eq_false_iff.mpr fun h => by
      rw [hstorage h] at hplain
      cases hplain
  have hlegacy : Absent A (legacyName OLD_IS_AUTHENTICATED_COOKIE_NAME)
      ((c.cookieStorage A https).remove y OLD_IS_AUTHENTICATED_COOKIE_NAME) := by
    unfold AuthokClient.cookieStorage
    rw [if_neg (ne_true_of_eq_false hboth)]
    exact absent_remove hA _ _
  exact hlegacy.run hA unsaved_legacyOld hlater

end Absent

end OldCookie

/-! ## On cookies -/

/-- A hint that is saved is JSON. -/
def CookieCall.Json : CookieCall → Prop
  | .processOrgIdHint organizationId _ => organizationId.truthy = true → IsJson organizationId
  | _ => True

/-- A browser that treats all plain cookies alike, and all those for legacy browsers. -/
structure Treats (keeps : String → Cookie → Bool) (https plain legacy : Bool) : Prop where
  plain : ∀ name value days, keeps name (plainCookie https value days) = plain
  legacy : ∀ name value days, keeps name (legacyCookie https value days) = legacy

/-- A moment beside the client `c`, on cookies. -/
structure OnCookies (c : AuthokClient) (op : AuthokClient × CookieCall) : Prop where
  storage : op.1.client_id = c.client_id → op.1.plainCookies = c.plainCookies
  days : Days op.1.sessionCheckExpiryDays
  json : op.2.Json

namespace AuthokClient

variable {J : Type} (c : AuthokClient) (A : CookieApi J) (plain legacy : Bool)

/-- The cookies that the client's storage looks at show the store, under the names of its
id. -/
def CookiesShow (j : J) (s : StoredValues) : Prop :=
  (c.plainCookies = true → ShowsPlain A plain (IsNameOf c.client_id) j s) ∧
    (c.plainCookies = false → ShowsBoth A plain legacy (IsNameOf c.client_id) j s)

/-- The browser keeps a cookie of those the client's storage sets. -/
def keepsOne : Bool := if c.plainCookies then plain else plain || legacy

/-- The values that reach a reader. -/
def cookiesSee : Value → Bool := if c.plainCookies then fun _ => plain else seesLegacy plain legacy

end AuthokClient

/-- Truthy values reach a reader where the browser keeps one cookie of the two. -/
theorem seesLegacy_truthy {plain legacy : Bool} (h : (plain || legacy) = true) (v : Value)
    (hv : v.truthy = true) : seesLegacy plain legacy v = true := by
  unfold seesLegacy
  rw [hv, Bool.and_true]
  exact h

theorem cookiesSee_truthy {c : AuthokClient} {plain legacy : Bool}
    (h : c.keepsOne plain legacy = true) (v : Value) (hv : v.truthy = true) :
    c.cookiesSee plain legacy v = true := by
  unfold AuthokClient.keepsOne at h
  unfold AuthokClient.cookiesSee
  cases hplain : c.plainCookies with
  | true =>
    rw [hplain] at h
    exact h
  | false =>
    rw [hplain] at h
    exact seesLegacy_truthy h v hv

section OnCookies

variable {J : Type} {A : CookieApi J} {keeps : String → Cookie → Bool} {https plain legacy : Bool}
  {c : AuthokClient} {j : J} {s : StoredValues}

theorem isNameOf_apart (clientId : String) : Apart (IsNameOf clientId) :=
  fun key key' h h' => sessionNames_apart key key' h.isSessionName h'.isSessionName

/-- The client's storage stands for a store under the names of its id. -/
theorem cookieStorage_refines (hA : A.Lawful keeps) :
    (c.cookieStorage A https).Refines
      (fun op => op.FitsBoth keeps https plain legacy (IsNameOf c.client_id))
      (c.cookiesSee plain legacy) (c.CookiesShow A plain legacy) := by
  unfold AuthokClient.cookieStorage AuthokClient.cookiesSee AuthokClient.CookiesShow
  cases c.plainCookies with
  | true =>
    have hrefines := @cookies_refine J A keeps https plain (IsNameOf c.client_id) hA
    constructor
    · intro j s op hR hop
      exact ⟨fun _ => hrefines.step (hR.1 rfl) hop.toFits, fun h => by cases h⟩
    · intro j s key now hR hop
      exact hrefines.get (hR.1 rfl) hop.toFits
  | false =>
    have hrefines := @legacyCookies_refine J A keeps https plain legacy (IsNameOf c.client_id) hA
      (isNameOf_apart c.client_id)
    constructor
    · intro j s op hR hop
      exact ⟨fun h => absurd h Bool.false_ne_true, fun _ => hrefines.step (hR.2 rfl) hop⟩
    · intro j s key now hR hop
      exact hrefines.get (hR.2 rfl) hop

theorem cookiesShow_empty (hj : ∀ t name, A.get j t name = none) (c : AuthokClient)
    (plain legacy : Bool) : c.CookiesShow A plain legacy j Expiring.empty :=
  ⟨fun _ => (showsBoth_empty hj plain legacy _).showsPlain,
    fun _ => showsBoth_empty hj plain legacy _⟩

theorem stands_empty (hj : ∀ t name, A.get j t name = none) (c : AuthokClient)
    (plain legacy : Bool) : Stands (c.CookiesShow A plain legacy) c.client_id j none none where
  values := ⟨Expiring.empty, cookiesShow_empty hj c plain legacy, rfl, rfl, rfl⟩
  markTruthy b hb := by cases hb
  hintTruthy b hb := by cases hb

/-- The calls of a client are ones both kinds of cookies can serve. -/
theorem storageOps_fit (hkeeps : Treats keeps https plain legacy)
    (hdays : Days c.sessionCheckExpiryDays) {call : CookieCall} (hcall : call.Json) :
    ∀ o ∈ c.storageOps call, o.FitsBoth keeps https plain legacy (IsNameOf c.client_id) := by
  have hauth : IsNameOf c.client_id c.isAuthenticatedCookieName :=
    ⟨.isAuthenticated c.client_id, rfl, rfl⟩
  have hhint : IsNameOf c.client_id c.orgHintCookieName :=
    ⟨.organizationHint c.client_id, rfl, rfl⟩
  have hold : IsNameOf c.client_id OLD_IS_AUTHENTICATED_COOKIE_NAME :=
    ⟨.oldIsAuthenticated, trivial, rfl⟩
  have hsave : ∀ {name : String} {value : Value} {now : ℚ}, IsNameOf c.client_id name →
      IsJson value → (StorageOp.save name value c.sessionCheckExpiryDays now).FitsBoth keeps https
        plain legacy (IsNameOf c.client_id) :=
    fun hname hvalue => ⟨⟨hname, ⟨hvalue, hdays⟩, hkeeps.plain _ _ _⟩, hkeeps.legacy _ _ _⟩
  cases call with
  | authenticated now =>
    simp only [AuthokClient.storageOps, List.forall_mem_singleton]
    exact hsave hauth trivial
  | processOrgIdHint organizationId now =>
    simp only [AuthokClient.storageOps]
    split
    next ht =>
      simp only [List.forall_mem_singleton]
      exact hsave hhint (hcall ht)
    next =>
      simp only [List.forall_mem_singleton]
      exact ⟨⟨hhint, trivial, trivial⟩, trivial⟩
  | logout =>
    simp only [AuthokClient.storageOps, List.forall_mem_cons]
    exact ⟨⟨⟨hhint, trivial, trivial⟩, trivial⟩, ⟨⟨hauth, trivial, trivial⟩, trivial⟩,
      fun o ho => by cases ho⟩
  | checkSession now =>
    simp only [AuthokClient.storageOps, List.forall_mem_cons]
    exact ⟨⟨⟨hauth, trivial, trivial⟩, trivial⟩, ⟨⟨hold, trivial, trivial⟩, trivial⟩,
      hsave hauth trivial, ⟨⟨hold, trivial, trivial⟩, trivial⟩, fun o ho => by cases ho⟩
  | orgIdHint now =>
    simp only [AuthokClient.storageOps, List.forall_mem_singleton]
    exact ⟨⟨hhint, trivial, trivial⟩, trivial⟩

/-! ### Other clients on the same cookies -/

/-- No cookie that is looked at under the names of the id has this name. -/
def Aside (clientId name : String) : Prop :=
  ∀ key, IsNameOf clientId key → name ≠ key ∧ name ≠ legacyName key

theorem aside_name {clientId : String} {k : SessionKey} (h : ¬ k.IsOf clientId) :
    Aside clientId k.name := by
  rintro key ⟨k', hk', rfl⟩
  exact ⟨fun hname => h (SessionKey.name_injective hname ▸ hk'), (k'.legacyName_ne k).symm⟩

theorem aside_legacyName {clientId : String} {k : SessionKey} (h : ¬ k.IsOf clientId) :
    Aside clientId (legacyName k.name) := by
  rintro key ⟨k', hk', rfl⟩
  exact ⟨k.legacyName_ne k',
    fun hname => h (SessionKey.name_injective (legacyName_injective hname) ▸ hk')⟩

theorem CookiesShow.set (hA : A.Lawful keeps) (h : c.CookiesShow A plain legacy j s)
    {name : String} (hname : Aside c.client_id name) {cookie : Cookie} (hc : cookie.Dated)
    (now : ℚ) : c.CookiesShow A plain legacy (A.set j now name cookie) s := by
  refine ⟨fun hp => ?_, fun hp => ?_⟩
  · have hs := h.1 hp
    exact ⟨hs.plain.set_other hA (fun key hkey => (hname key hkey).1) hc now, hs.json⟩
  · have hs := h.2 hp
    exact ⟨hs.plain.set_other hA (fun key hkey => (hname key hkey).1) hc now,
      hs.legacy.set_other hA (fun key hkey => (hname key hkey).2) hc now, hs.json⟩

/-- A cookie is removed that the client does not look at, or that is not there. -/
theorem CookiesShow.remove (hA : A.Lawful keeps) (h : c.CookiesShow A plain legacy j s)
    {name : String}
    (hname : ∀ key, IsNameOf c.client_id key → name = key ∨ name = legacyName key → s key = none) :
    c.CookiesShow A plain legacy (A.remove j name) s := by
  refine ⟨fun hp => ?_, fun hp => ?_⟩
  · have hs := h.1 hp
    exact ⟨hs.plain.remove_absent hA fun key hkey he =>
      keptOf_none (hname key hkey (Or.inl he)), hs.json⟩
  · have hs := h.2 hp
    exact ⟨hs.plain.remove_absent hA fun key hkey he => keptOf_none (hname key hkey (Or.inl he)),
      hs.legacy.remove_absent hA fun key hkey he => keptOf_none (hname key hkey (Or.inr he)),
      hs.json⟩

theorem CookiesShow.congr (h : c.CookiesShow A plain legacy j s) {s' : StoredValues}
    (hs : ∀ key, IsNameOf c.client_id key → s' key = s key) : c.CookiesShow A plain legacy j s' :=
  ⟨fun hp => (h.1 hp).congr hs, fun hp => (h.2 hp).congr hs⟩

theorem follows_save (hA : A.Lawful keeps) {c' : AuthokClient} {k : SessionKey}
    (hk : ¬ k.IsOf c.client_id) {value days : Value} (hdays : Days days) (now : ℚ) :
    (c'.cookieStorage A https).Follows (c.CookiesShow A plain legacy)
      OLD_IS_AUTHENTICATED_COOKIE_NAME (.save k.name value days now) := by
  intro j s h hold
  suffices hsame : c.CookiesShow A plain legacy
      ((c'.cookieStorage A https).save j now k.name value days) s from
    CookiesShow.congr hsame fun key hkey =>
      Expiring.Store.write_ne _ _ ((aside_name hk) key hkey).1
  unfold AuthokClient.cookieStorage
  split
  · exact CookiesShow.set hA h (aside_name hk) (hdays.dated_plain https value) now
  · have hlegacy := CookiesShow.set hA h (aside_legacyName hk) (hdays.dated_legacy https value) now
    exact CookiesShow.set hA hlegacy (aside_name hk) (hdays.dated_plain https value) now

theorem follows_remove (hA : A.Lawful keeps) {c' : AuthokClient} {k : SessionKey}
    (hk : k = .oldIsAuthenticated ∨ ¬ k.IsOf c.client_id) :
    (c'.cookieStorage A https).Follows (c.CookiesShow A plain legacy)
      OLD_IS_AUTHENTICATED_COOKIE_NAME (.remove k.name) := by
  intro j s h hold
  have hplain : ∀ key, IsNameOf c.client_id key → k.name = key ∨ k.name = legacyName key →
      s key = none := by
    rintro key hkey (rfl | he)
    · rcases hk with rfl | hk
      · exact hold
      · exact absurd rfl ((aside_name hk) _ hkey).1
    · exact absurd he.symm (sessionNames_apart _ _ hkey.isSessionName ⟨k, rfl⟩)
  have hlegacy : ∀ key, IsNameOf c.client_id key →
      legacyName k.name = key ∨ legacyName k.name = legacyName key → s key = none := by
    rintro key hkey (he | he)
    · exact absurd he (sessionNames_apart _ _ ⟨k, rfl⟩ hkey.isSessionName)
    · exact hplain key hkey (Or.inl (legacyName_injective he))
  suffices hsame : c.CookiesShow A plain legacy ((c'.cookieStorage A https).remove j k.name) s by
    refine CookiesShow.congr hsame fun key hkey => ?_
    by_cases he : k.name = key
    · subst he
      exact (Expiring.Store.write_self ..).trans (hplain _ hkey (Or.inl rfl)).symm
    · exact Expiring.Store.write_ne _ _ he
  unfold AuthokClient.cookieStorage
  split
  · exact CookiesShow.remove hA h hplain
  · exact CookiesShow.remove hA (CookiesShow.remove hA h hplain) hlegacy

/-- What clients with other ids call follows the store under the names of the client. -/
theorem others_follow (hA : A.Lawful keeps) {c' : AuthokClient}
    (hid : c'.client_id ≠ c.client_id) (hdays : Days c'.sessionCheckExpiryDays)
    (call : CookieCall) : ∀ o ∈ c'.storageOps call,
      (c'.cookieStorage A https).Follows (c.CookiesShow A plain legacy)
        OLD_IS_AUTHENTICATED_COOKIE_NAME o := by
  have hget : ∀ key now, (c'.cookieStorage A https).Follows (c.CookiesShow A plain legacy)
      OLD_IS_AUTHENTICATED_COOKIE_NAME (.get key now) := fun _ _ _ _ h _ => h
  have hmark : ¬ (SessionKey.isAuthenticated c'.client_id).IsOf c.client_id := hid
  have hhint : ¬ (SessionKey.organizationHint c'.client_id).IsOf c.client_id := hid
  cases call with
  | authenticated now =>
    simp only [AuthokClient.storageOps, List.forall_mem_singleton]
    exact follows_save hA hmark hdays now
  | processOrgIdHint organizationId now =>
    simp only [AuthokClient.storageOps]
    split
    · simp only [List.forall_mem_singleton]
      exact follows_save hA hhint hdays now
    · simp only [List.forall_mem_singleton]
      exact follows_remove hA (Or.inr hhint)
  | logout =>
    simp only [AuthokClient.storageOps, List.forall_mem_cons]
    exact ⟨follows_remove hA (Or.inr hhint), follows_remove hA (Or.inr hmark),
      fun o ho => by cases ho⟩
  | checkSession now =>
    simp only [AuthokClient.storageOps, List.forall_mem_cons]
    exact ⟨hget _ _, hget _ _, follows_save hA hmark hdays now,
      follows_remove (k := .oldIsAuthenticated) hA (Or.inl rfl), fun o ho => by cases ho⟩
  | orgIdHint now =>
    simp only [AuthokClient.storageOps, List.forall_mem_singleton]
    exact hget _ _

/-- Moments on cookies are ones the results above are about. -/
theorem suits_cookies (hA : A.Lawful keeps) (hkeeps : Treats keeps https plain legacy)
    {op : AuthokClient × CookieCall} (h : OnCookies c op) :
    Suits (fun c => c.cookieStorage A https) c
      (fun o => o.FitsBoth keeps https plain legacy (IsNameOf c.client_id))
      (c.CookiesShow A plain legacy) op where
  own hid := by
    refine ⟨?_, hid ▸ storageOps_fit hkeeps h.days h.json⟩
    unfold AuthokClient.cookieStorage
    rw [h.storage hid]
  other hid := others_follow hA hid h.days op.2

end OnCookies

/-! ## A page -/

theorem refusesNone_treats : Treats refusesNone true false true where
  plain _ _ _ := rfl
  legacy _ _ _ := rfl

/-- The cookies of a page in an old browser. -/
def oldBrowserCookies (c : AuthokClient) : ClientStorage (Expiring.Store String String ℚ) :=
  c.cookieStorage (CookieApi.browser refusesNone) true

def clientNamed (clientId : String) : AuthokClient where
  options := [("client_id", .str clientId)]

/-- A client that sets no cookies for legacy browsers. -/
def plainNamed (clientId : String) : AuthokClient where
  options := [("client_id", .str clientId), ("legacySameSiteCookie", .bool false)]

/-- The calls of storages for the client `c` in an old browser. -/
abbrev FitsOld (c : AuthokClient) (o : StorageOp) : Prop :=
  o.FitsBoth refusesNone true false true (IsNameOf c.client_id)

/-- What the cookies of an old browser stand for. -/
abbrev ShowsOld (c : AuthokClient) : Expiring.Store String String ℚ → StoredValues → Prop :=
  c.CookiesShow (CookieApi.browser refusesNone) false true

theorem clientNamed_fit (clientId : String) {call : CookieCall} (hcall : call.Json) :
    ∀ o ∈ (clientNamed clientId).storageOps call, FitsOld (clientNamed clientId) o :=
  storageOps_fit refusesNone_treats (Or.inr ⟨1, rfl⟩) hcall

theorem clientNamed_refines (clientId : String) : (oldBrowserCookies (clientNamed clientId)).Refines
    (FitsOld (clientNamed clientId)) ((clientNamed clientId).cookiesSee false true)
    (ShowsOld (clientNamed clientId)) :=
  cookieStorage_refines (CookieApi.browser_lawful refusesNone)

theorem stands_empty_old (clientId : String) :
    Stands (ShowsOld (clientNamed clientId)) (clientNamed clientId).client_id Expiring.empty none
      none :=
  stands_empty (fun _ _ => rfl) (clientNamed clientId) false true

/-- Moments of clients with whatever ids. -/
theorem suits_named (clientId id : String) {call : CookieCall} (hcall : call.Json) :
    Suits oldBrowserCookies (clientNamed clientId) (FitsOld (clientNamed clientId))
      (ShowsOld (clientNamed clientId)) (clientNamed id, call) :=
  suits_cookies (CookieApi.browser_lawful refusesNone) refusesNone_treats
    ⟨fun _ => rfl, Or.inr ⟨1, rfl⟩, hcall⟩

/-- Those of clients that set plain cookies only have other ids. -/
theorem suits_plain {clientId id : String}
    (hid : (plainNamed id).client_id ≠ (clientNamed clientId).client_id) {call : CookieCall}
    (hcall : call.Json) :
    Suits oldBrowserCookies (clientNamed clientId) (FitsOld (clientNamed clientId))
      (ShowsOld (clientNamed clientId)) (plainNamed id, call) :=
  suits_cookies (CookieApi.browser_lawful refusesNone) refusesNone_treats
    ⟨fun h => absurd h hid, Or.inr ⟨1, rfl⟩, hcall⟩

/-- One client logs in, another one, that sets plain cookies only, does so, too, and looks. -/
def sampleMoments : List (AuthokClient × CookieCall) :=
  [(clientNamed "a", .authenticated 0), (clientNamed "a", .processOrgIdHint (.str "org") 0),
    (plainNamed "b", .authenticated 5), (plainNamed "b", .checkSession 10),
    (clientNamed "a", .checkSession 20)]

theorem sampleMoments_suit : ∀ op ∈ sampleMoments, Suits oldBrowserCookies (clientNamed "a")
    (FitsOld (clientNamed "a")) (ShowsOld (clientNamed "a")) op := by
  simp only [sampleMoments, List.forall_mem_cons]
  exact ⟨suits_named "a" "a" trivial, suits_named "a" "a" fun _ => trivial,
    suits_plain (by decide) trivial, suits_plain (by decide) trivial, suits_named "a" "a" trivial,
    fun op h => by cases h⟩

theorem session_answers_sample :
    ((clientNamed "a").checkCookies (oldBrowserCookies (clientNamed "a"))
        ((sessionCookies oldBrowserCookies).run Expiring.empty sampleMoments) 30).2 =
        some (.bool ((lastOf mark "a" sampleMoments).any fun b => b.inForce 30)) ∧
      (oldBrowserCookies (clientNamed "a")).get
          ((sessionCookies oldBrowserCookies).run Expiring.empty sampleMoments) 30
          (clientNamed "a").orgHintCookieName =
        some ((((lastOf hint "a" sampleMoments).filter fun b => b.inForce 30).map
          Expiring.Binding.value).getD .undefined) :=
  session_answers (clientNamed_refines "a") (cookiesSee_truthy rfl) sampleMoments_suit
    (stands_empty_old "a") (clientNamed_fit "a" trivial) (clientNamed_fit "a" trivial)

theorem clients_apart_sample :
    ((sessionCookies oldBrowserCookies).trace Expiring.empty sampleMoments).filter
        (fun y => decide (y.1.1.client_id = "a")) =
      (sessionCookies oldBrowserCookies).trace Expiring.empty
        (sampleMoments.filter fun op => decide (op.1.client_id = "a")) :=
  clients_apart (clientNamed_refines "a") (cookiesSee_truthy rfl) sampleMoments_suit
    (stands_empty_old "a")

/-- A page with the cookies of an older version. -/
def oldVersionCookies : Expiring.Store String String ℚ :=
  (oldBrowserCookies (clientNamed "a")).save Expiring.empty 0 OLD_IS_AUTHENTICATED_COOKIE_NAME
    (.bool true) .undefined

theorem old_cookie_sample :
    ((plainNamed "b").checkCookies (oldBrowserCookies (plainNamed "b"))
      ((sessionCookies oldBrowserCookies).run oldVersionCookies
        ([] ++ (clientNamed "a", .checkSession 10) :: [])) 20).2 ≠ some (.bool true) := by
  refine old_cookie_taken_once (CookieApi.browser_lawful refusesNone)
    (c := clientNamed "a")
    (fun op hop => by cases hop) (fun h => by cases h) ?_ ?_ ?_
  · rintro s ⟨⟩
    rfl
  · rfl
  · rintro s ⟨⟩
    rfl

end AuthokSpa
