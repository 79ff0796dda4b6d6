import AuthokSpa.Client.Calls
import AuthokSpa.Client.Provider

/-!
# The logout endpoint (`AuthokClient.ts`)

`logout` forgets the tokens of the client and then sends the page to `/v1/logout`. What
the endpoint finds in the URL is what the application has given, with the client's id in
the place of an absent one, and without any if it is given as `null`.

`buildLogoutUrl` does so by writing to the object it is given, and `null` is taken out of
it. A second call with the same object finds no `null` any more and names the client
(`logout_urls`). `logout` hands on a copy, so it is not met by this.
-/

namespace AuthokSpa

open Js (Value Obj OrdMap)

namespace AuthokClient

variable (c : AuthokClient)

/-- What `buildLogoutUrl` makes of its argument. -/
def fillClientId (options : Obj) : Obj :=
  if (options.get "client_id").strictEq .null then options.without ["client_id"]
  else options.set "client_id" ((options.get "client_id").or (c.options.get "client_id"))

/-- `buildLogoutUrl`; the argument is left as the call has changed it. -/
def buildLogoutUrl (options : Obj) : Obj × Option String :=
  let options := c.fillClientId options
  let federatedQuery := if (options.get "federated").truthy then "&federated" else ""
  (options, (c.url ("/v1/logout?" ++ createQueryParams (options.without ["federated"]))).map
    fun url => url ++ federatedQuery)

end AuthokClient

/-- What `logout` throws. -/
inductive LogoutError where
  | error (message : String)
  /-- The client's name is not Latin-1. -/
  | btoa

/-- `logout`, with the URL the page is sent to. -/
def Calls.logout (S : Setup) (options : Obj) : EStateM LogoutError Tab (Option String) := do
  let logoutOptions := options.without ["localOnly"]
  if (options.get "localOnly").truthy && (logoutOptions.get "federated").truthy then
    throw (.error "It is invalid to set both the `federated` and `localOnly` options to `true`")
  else
    modify (Calls.loggedOut S)
    if (options.get "localOnly").truthy then pure none
    else
      match (S.client.buildLogoutUrl logoutOptions).2 with
      | none => throw .btoa
      | some url => pure (some url)

/-! ## What the endpoint reads -/

/-- A parameter as a query shows it. -/
def shown (v : Value) : Option String := if v.isUndefined then none else some v.text

/-- A parameter is looked up like a member of the object. -/
theorem lookup_shown (k : String) : ∀ {o : Obj}, OrdMap.KeysNodup o →
    (textPairs (definedMembers o)).lookup k = shown (o.get k)
  | [], _ => rfl
  | (k', v) :: o, h => by
    obtain ⟨hout, ho⟩ := List.nodup_cons.mp h
    have ih := lookup_shown k ho
    have hget : Obj.get ((k', v) :: o) k = if k' = k then v else Obj.get o k := by
      unfold Obj.get
      rw [OrdMap.find_cons]
      split
      · rfl
      · rfl
    have hrest : k' = k → shown (Obj.get o k) = none := by
      rintro rfl
      unfold Obj.get
      rw [OrdMap.find_eq_none_iff.mpr hout]
      rfl
    rw [hget]
    cases hv : v.isUndefined with
    | true =>
      rw [show definedMembers ((k', v) :: o) = definedMembers o from
        List.filter_cons_of_neg (by simp [hv]), ih]
      split
      next hk =>
        rw [hrest hk]
        unfold shown
        rw [if_pos hv]
      · rfl
    | false =>
      rw [show definedMembers ((k', v) :: o) = (k', v) :: definedMembers o from
        List.filter_cons_of_pos (by simp [hv])]
      show List.lookup k ((k', v.text) :: textPairs (definedMembers o)) = _
      rw [List.lookup_cons]
      split
      next hk =>
        rw [if_pos (eq_of_beq hk).symm]
        unfold shown
        rw [hv]
        rfl
      next hk =>
        have hne : k' ≠ k := fun heq => by simp [heq] at hk
        rw [if_neg hne, ih]

section Endpoint

variable {c : AuthokClient} {client_id info : String} {o : Obj}

namespace AuthokClient

theorem get_fillClientId {k : String} (hk : "client_id" ≠ k) : (c.fillClientId o).get k = o.get k := by
  unfold fillClientId
  split
  · exact Js.Obj.get_without (by simpa using hk.symm)
  · exact Js.Obj.get_set_ne hk

theorem keysNodup_fillClientId (ho : OrdMap.KeysNodup o) : OrdMap.KeysNodup (c.fillClientId o) := by
  unfold fillClientId
  split
  · exact Obj.keysNodup_without ho _
  · exact OrdMap.keysNodup_insert ho _ _

/-- The id for the endpoint. -/
theorem client_id_fillClientId (hclient : c.options.get "client_id" = .str client_id) :
    (c.fillClientId o).get "client_id" =
      if (o.get "client_id").strictEq .null then .undefined
      else (o.get "client_id").or (.str client_id) := by
  unfold fillClientId
  rw [hclient]
  split
  · exact Js.Obj.get_without_of_mem (List.mem_singleton_self _)
  · exact Js.Obj.get_set_same _ _ _

end AuthokClient

theorem or_not_null (v : Value) : (v.or (.str client_id)).strictEq .null = false := by
  unfold Value.or
  cases v with
  | null => rfl
  | undefined => rfl
  | bool b => cases b with
    | true => rfl
    | false => rfl
  | num n => split <;> rfl
  | str s => split <;> rfl
  | arr xs => rfl
  | obj members => rfl
  | fn source => rfl

theorem or_or (v w : Value) : (v.or w).or w = v.or w := by
  unfold Value.or
  by_cases hv : v.truthy = true
  · rw [if_pos hv, if_pos hv]
  · rw [if_neg hv, ite_self]

theorem or_of_null {v : Value} (h : v.strictEq .null = true) (w : Value) : v.or w = w := by
  cases v with
  | null => rfl
  | _ => cases h

namespace AuthokClient

/-- The object after `n` calls of `buildLogoutUrl`. -/
def afterLogoutUrls (c : AuthokClient) (o : Obj) (n : ℕ) : Obj :=
  (fun options => (c.buildLogoutUrl options).1)^[n] o

theorem afterLogoutUrls_succ (n : ℕ) :
    c.afterLogoutUrls o (n + 1) = c.fillClientId (c.afterLogoutUrls o n) :=
  Function.iterate_succ_apply' _ n o

theorem keysNodup_afterLogoutUrls (ho : OrdMap.KeysNodup o) (n : ℕ) :
    OrdMap.KeysNodup (c.afterLogoutUrls o n) := by
  induction n with
  | zero => exact ho
  | succ n ih =>
    rw [afterLogoutUrls_succ]
    exact keysNodup_fillClientId ih

theorem get_afterLogoutUrls {k : String} (hk : "client_id" ≠ k) (n : ℕ) :
    (c.afterLogoutUrls o n).get k = o.get k := by
  induction n with
  | zero => rfl
  | succ n ih => rw [afterLogoutUrls_succ, get_fillClientId hk, ih]

/-- The first call takes `null` out, every later one finds an id. -/
theorem client_id_afterLogoutUrls (hclient : c.options.get "client_id" = .str client_id) (n : ℕ) :
    (c.afterLogoutUrls o (n + 1)).get "client_id" =
      if n = 0 ∧ (o.get "client_id").strictEq .null = true then .undefined
      else (o.get "client_id").or (.str client_id) := by
  induction n with
  | zero =>
    rw [afterLogoutUrls_succ, client_id_fillClientId hclient]
    simp only [true_and]
    rfl
  | succ n ih =>
    have hlater : ¬ (n + 1 = 0 ∧ (o.get "client_id").strictEq .null = true) :=
      fun h => Nat.succ_ne_zero n h.1
    rw [afterLogoutUrls_succ, client_id_fillClientId hclient, ih, if_neg hlater]
    by_cases hfirst : n = 0 ∧ (o.get "client_id").strictEq .null = true
    · rw [if_pos hfirst, or_of_null hfirst.2]
      rfl
    · rw [if_neg hfirst, or_not_null, or_or]
      rfl

end AuthokClient

/-- What the endpoint finds: the parameters of `o`, with a client id if there is to be
one, and the flag. -/
structure LogoutQuery (client_id : Option String) (o : Obj) (query : List (String × String)) :
    Prop where
  client_id : query.lookup "client_id" = client_id
  federated : query.lookup "federated" = if (o.get "federated").truthy then some "" else none
  others : ∀ k, k ∉ ["client_id", "federated", "authokClient"] → query.lookup k = shown (o.get k)

theorem queryOf_logoutUrl (hdomain : '?' ∉ c.domainUrl.toList)
    (hinfo : clientInfo (c.options.get "authokClient") = some info) (o : Obj) :
    ∃ url, (c.buildLogoutUrl o).2 = some url ∧ CodeGrant.queryOf url =
      textPairs (definedMembers ((c.fillClientId o).without ["federated"])) ++
        ("authokClient", info) ::
          if ((c.fillClientId o).get "federated").truthy then [("federated", "")] else [] := by
  obtain ⟨url, hurl⟩ : ∃ url, c.url ("/v1/logout" ++ ("?" ++
      createQueryParams ((c.fillClientId o).without ["federated"]))) = some url := by
    unfold AuthokClient.url
    rw [hinfo]
    exact ⟨_, rfl⟩
  have hbuild : ∀ tail, (if ((c.fillClientId o).get "federated").truthy then "&federated" else "") =
      tail → (c.buildLogoutUrl o).2 = some (url ++ tail) := by
    rintro tail rfl
    unfold AuthokClient.buildLogoutUrl
    dsimp only
    rw [show "/v1/logout?" = "/v1/logout" ++ "?" by decide, String.append_assoc, hurl]
    rfl
  have hflag : '&' ∉ "federated".toList ∧ '?' ∉ "federated".toList := by decide
  cases hfederated : ((c.fillClientId o).get "federated").truthy with
  | true =>
    have hquery := queryOf_url "/v1/logout" hdomain (by decide) hinfo hurl ["federated".toList]
      fun p hp => by rw [List.mem_singleton.mp hp]; exact hflag
    exact ⟨_, hbuild "&federated" (by rw [hfederated, if_pos rfl]), hquery⟩
  | false =>
    have hquery := queryOf_url "/v1/logout" hdomain (by decide) hinfo hurl []
      fun p hp => (List.not_mem_nil hp).elim
    exact ⟨_, hbuild "" (by rw [hfederated, if_neg Bool.false_ne_true]), hquery⟩

/-- A call with an object that has become `filled`. -/
theorem logoutQuery_of_filled (hdomain : '?' ∉ c.domainUrl.toList)
    (hinfo : clientInfo (c.options.get "authokClient") = some info) {given : Obj}
    (hnodup : OrdMap.KeysNodup (c.fillClientId given))
    (hsame : ∀ k, "client_id" ≠ k → (c.fillClientId given).get k = o.get k) :
    ∃ url, (c.buildLogoutUrl given).2 = some url ∧
      LogoutQuery (shown ((c.fillClientId given).get "client_id")) o (CodeGrant.queryOf url) := by
  obtain ⟨url, hurl, hquery⟩ := queryOf_logoutUrl hdomain hinfo given
  have hparams : ∀ k, (textPairs (definedMembers
      ((c.fillClientId given).without ["federated"]))).lookup k =
        shown (((c.fillClientId given).without ["federated"]).get k) := fun k =>
    lookup_shown k (Obj.keysNodup_without hnodup _)
  have hother : ∀ k, k ≠ "federated" → k ≠ "authokClient" →
      (CodeGrant.queryOf url).lookup k = shown ((c.fillClientId given).get k) := by
    intro k hfederated hclient
    have htail : List.lookup k (("authokClient", info) ::
        if ((c.fillClientId given).get "federated").truthy then [("federated", "")] else []) =
          none := by
      rw [List.lookup_cons, beq_false_of_ne hclient]
      dsimp only
      split
      · rw [List.lookup_cons, beq_false_of_ne hfederated]
        rfl
      · rfl
    rw [hquery, List.lookup_append, hparams, htail, Option.or_none,
      Js.Obj.get_without (by simpa using hfederated)]
  refine ⟨url, hurl, ?_, ?_, fun k hk => ?_⟩
  · exact hother "client_id" (by decide) (by decide)
  · have hgone : ((c.fillClientId given).without ["federated"]).get "federated" = .undefined :=
      Js.Obj.get_without_of_mem (List.mem_singleton_self _)
    rw [hquery, List.lookup_append, hparams, hgone, hsame "federated" (by decide)]
    show List.lookup "federated" _ = _
    rw [List.lookup_cons, beq_false_of_ne (by decide)]
    dsimp only
    split
    · rfl
    · rfl
  · rw [List.mem_cons, List.mem_cons, List.mem_singleton, not_or, not_or] at hk
    rw [hother k hk.2.1 hk.2.2, hsame k (Ne.symm hk.1)]

/-- **The URLs for one object of options**: the endpoint is told the same by all calls of
`buildLogoutUrl` with it, save for one thing: if the client id is given as `null`, the
first URL names no client, and every later one names the client. -/
theorem logout_urls (hdomain : '?' ∉ c.domainUrl.toList)
    (hclient : c.options.get "client_id" = .str client_id)
    (hinfo : clientInfo (c.options.get "authokClient") = some info) (ho : OrdMap.KeysNodup o) (n : ℕ) :
    ∃ url, (c.buildLogoutUrl (c.afterLogoutUrls o n)).2 = some url ∧
      LogoutQuery
        (if n = 0 ∧ (o.get "client_id").strictEq .null = true then none
          else shown ((o.get "client_id").or (.str client_id))) o (CodeGrant.queryOf url) := by
  have hfilled : c.fillClientId (c.afterLogoutUrls o n) = c.afterLogoutUrls o (n + 1) :=
    (AuthokClient.afterLogoutUrls_succ n).symm
  have hnodup : OrdMap.KeysNodup (c.fillClientId (c.afterLogoutUrls o n)) := by
    rw [hfilled]
    exact AuthokClient.keysNodup_afterLogoutUrls ho _
  obtain ⟨url, hurl, hquery⟩ := logoutQuery_of_filled (o := o) hdomain hinfo hnodup fun k hk => by
    rw [hfilled]
    exact AuthokClient.get_afterLogoutUrls hk _
  rw [hfilled, AuthokClient.client_id_afterLogoutUrls hclient, apply_ite shown] at hquery
  exact ⟨url, hurl, hquery⟩

/-- `logout` sends the page to the endpoint when everything is forgotten. Its options are
its own, so calls with the same object all tell the endpoint the same. -/
theorem logout_tells {S : Setup} (hdomain : '?' ∉ S.client.domainUrl.toList)
    (hclient : S.client.options.get "client_id" = .str client_id)
    (hinfo : clientInfo (S.client.options.get "authokClient") = some info)
    (ho : OrdMap.KeysNodup o) (hlocal : (o.get "localOnly").truthy = false) (t : Tab) :
    ∃ url, Calls.logout S o t = .ok (some url) (Calls.loggedOut S t) ∧
      LogoutQuery
        (if (o.get "client_id").strictEq .null = true then none
          else shown ((o.get "client_id").or (.str client_id))) (o.without ["localOnly"])
        (CodeGrant.queryOf url) := by
  have hgiven : (o.without ["localOnly"]).get "client_id" = o.get "client_id" :=
    Js.Obj.get_without (by decide)
  obtain ⟨url, hurl, hquery⟩ := logoutQuery_of_filled (o := o.without ["localOnly"]) hdomain hinfo
    (AuthokClient.keysNodup_fillClientId (Obj.keysNodup_without ho _))
    fun k hk => AuthokClient.get_fillClientId hk
  rw [AuthokClient.client_id_fillClientId hclient, hgiven, apply_ite shown] at hquery
  refine ⟨url, ?_, hquery⟩
  unfold Calls.logout
  simp only [hlocal, hurl, Bool.false_and, Bool.false_eq_true, if_false]
  rfl

end Endpoint

/-- A client that is not to be named. -/
theorem logout_urls_sample :
    let c := sampleClient false
    let options : Obj := [("client_id", .null), ("federated", .bool true)]
    (∃ url, (c.buildLogoutUrl (c.afterLogoutUrls options 0)).2 = some url ∧
      LogoutQuery none options (CodeGrant.queryOf url)) ∧
    ∃ url, (c.buildLogoutUrl (c.afterLogoutUrls options 1)).2 = some url ∧
      LogoutQuery (some "client") options (CodeGrant.queryOf url) :=
  have hdomain : '?' ∉ (sampleClient false).domainUrl.toList := by decide
  have hnodup : OrdMap.KeysNodup ([("client_id", .null), ("federated", .bool true)] : Obj) := by
    show (["client_id", "federated"] : List String).Nodup
    decide
  ⟨logout_urls hdomain rfl clientInfo_undefined hnodup 0,
    logout_urls hdomain rfl clientInfo_undefined hnodup 1⟩

end AuthokSpa
