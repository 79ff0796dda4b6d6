import AuthokSpa.Client.Keys
import AuthokSpa.Client.Provider
import AuthokSpa.Client.SessionCookies

/-!
# A transaction across the redirect (`transaction-manager.ts`, `storage.ts`)

The page that starts a login is gone when the server sends the browser back. What the
next page knows of the login has been through the storage: the transaction as a JSON text,
in a cookie, in two cookies or in `sessionStorage`, next to those of other clients.

What a storage has to do for that is said by `KeepsTransactions`: it is a store of
transactions under client ids whose entries may end. All three storages are
(`legacyCookies_keep`, `cookies_keep`, `session_keeps`), so a new manager of a client holds
the transaction that was last created for it and not removed since, whatever other
clients do (`handover`). With it the login goes on where it was left
(`honest_login_completes`).
-/

namespace AuthokSpa

open Js (Value Obj OrdMap IsJson)
open AuthokClient (Transaction)
open Cookies (textOf)

/-- The storage key of a client id. -/
def transactionKey (clientId : String) : String := "a0.spajs.txs" ++ ("." ++ clientId)

namespace AuthokClient.Transaction

/-- The object literal in `buildAuthorizeUrl`. -/
def members (t : Transaction) : Obj :=
  [("nonce", t.nonce), ("code_verifier", t.code_verifier), ("appState", t.appState),
    ("scope", t.scope), ("audience", t.audience), ("redirect_uri", t.redirect_uri),
    ("state", t.state)] ++
  if t.organizationId.isUndefined then [] else [("organizationId", t.organizationId)]

/-- What is read from the storage, as `handleRedirectCallback` uses it. -/
def ofValue (v : Value) : Option Transaction :=
  if v.truthy then
    some
      { nonce := Windows.member v "nonce"
        code_verifier := Windows.member v "code_verifier"
        appState := Windows.member v "appState"
        scope := Windows.member v "scope"
        audience := Windows.member v "audience"
        redirect_uri := Windows.member v "redirect_uri"
        state := Windows.member v "state"
        organizationId := Windows.member v "organizationId" }
  else none

/-- Each member is JSON or is not there. -/
structure Storable (t : Transaction) : Prop where
  members : ∀ m ∈ t.members, m.2 = .undefined ∨ IsJson m.2

/-- The value that the text of a transaction says. -/
def item (t : Transaction) : Value := .obj (definedMembers t.members)

theorem keysNodup_members (t : Transaction) : OrdMap.KeysNodup t.members := by
  unfold members OrdMap.KeysNodup
  split
  · show ["nonce", "code_verifier", "appState", "scope", "audience", "redirect_uri", "state"].Nodup
    decide
  · show ["nonce", "code_verifier", "appState", "scope", "audience", "redirect_uri", "state",
      "organizationId"].Nodup
    decide

end AuthokClient.Transaction

/-! ## The text of a transaction -/

theorem membersJson_of_forall : ∀ {o : Obj}, (∀ m ∈ o, IsJson m.2) → Js.MembersJson o
  | [], _ => trivial
  | (_, _) :: _, h =>
    ⟨h _ (List.mem_cons_self ..), membersJson_of_forall fun m hm => h m (List.mem_cons_of_mem _ hm)⟩

namespace AuthokClient.Transaction

variable {t : Transaction}

theorem Storable.item_json (h : t.Storable) : IsJson t.item := by
  refine ⟨keysNodup_definedMembers t.keysNodup_members, membersJson_of_forall ?_⟩
  intro m hm
  obtain ⟨hmem, hdefined⟩ := List.mem_filter.mp hm
  rcases h.members m hmem with hm | hm
  · rw [hm] at hdefined
    cases hdefined
  · exact hm

theorem textOf_members (t : Transaction) : textOf (.obj t.members) = textOf t.item := by
  unfold textOf item
  rw [Js.stringify, Js.stringify, memberTexts_definedMembers]

theorem ofValue_item (t : Transaction) : ofValue t.item = some t := by
  have hget : ∀ k, Windows.member t.item k = t.members.get k :=
    fun k => get_definedMembers t.keysNodup_members k
  unfold ofValue
  simp only [hget]
  unfold members
  cases hid : t.organizationId.isUndefined with
  | true =>
    obtain ⟨nonce, code_verifier, appState, scope, audience, redirect_uri, state, organizationId⟩ := t
    obtain rfl := eq_undefined hid
    rfl
  | false => rfl

end AuthokClient.Transaction

/-! ## Storages of transactions -/

/-- The transactions under the client ids. -/
abbrev HeldTransactions := Expiring.Store String Transaction ℚ

/-- What `C` holds stands for a store of transactions, where one that is created at `now`
ends as `ends` says. -/
structure ClientStorage.KeepsTransactions {σ : Type} (C : ClientStorage σ) (ends : ℚ → Option ℚ)
    (R : σ → HeldTransactions → Prop) : Prop where
  create : ∀ {x : σ} {s : HeldTransactions} {t : Transaction}, R x s → t.Storable →
    ∀ clientId now, R (C.save x now (transactionKey clientId) (.obj t.members) (.num (.fin 1)))
      (s.write clientId (some ⟨t, ends now⟩))
  remove : ∀ {x : σ} {s : HeldTransactions}, R x s →
    ∀ clientId, R (C.remove x (transactionKey clientId)) (s.write clientId none)
  get : ∀ {x : σ} {s : HeldTransactions}, R x s →
    ∀ clientId now, (C.get x now (transactionKey clientId)).map Transaction.ofValue =
      some (s.at clientId now)

theorem transactionKey_injective : Function.Injective transactionKey := fun _ _ h =>
  (String.append_right_inj ".").mp ((String.append_right_inj "a0.spajs.txs").mp h)

def IsTransactionKey (key : String) : Prop := ∃ clientId, transactionKey clientId = key

theorem transactionKeys_apart : Apart IsTransactionKey := by
  rintro _ _ ⟨clientId, rfl⟩ ⟨clientId', rfl⟩ h
  have hhead := congrArg (fun s => s.toList.head?) h
  exact absurd hhead (by simp [legacyName, Cookies.LEGACY_PREFIX, transactionKey])

/-- The items under the keys are those of the transactions. -/
def Items (values : StoredValues) (s : HeldTransactions) : Prop :=
  ∀ clientId, values (transactionKey clientId) = (s clientId).map fun b => ⟨b.value.item, b.ends⟩

theorem Items.write {values : StoredValues} {s : HeldTransactions} (h : Items values s)
    (clientId : String) (b : Option (Expiring.Binding Transaction ℚ)) :
    Items (values.write (transactionKey clientId) (b.map fun b => ⟨b.value.item, b.ends⟩))
      (s.write clientId b) := by
  intro clientId'
  by_cases hid : clientId = clientId'
  · subst hid
    rw [Expiring.Store.write_self, Expiring.Store.write_self]
  · rw [Expiring.Store.write_ne _ _ hid,
      Expiring.Store.write_ne _ _ fun hk => hid (transactionKey_injective hk)]
    exact h clientId'

theorem Items.at {values : StoredValues} {s : HeldTransactions} (h : Items values s)
    (clientId : String) (now : ℚ) :
    values.at (transactionKey clientId) now = (s.at clientId now).map Transaction.item := by
  unfold Expiring.Store.at
  rw [h clientId]
  cases s clientId with
  | none => rfl
  | some b =>
    show (if b.inForce now then some b.value.item else none) =
      (if b.inForce now then some b.value else none).map Transaction.item
    rw [apply_ite (Option.map Transaction.item)]
    rfl

/-- A storage of values whose bindings end keeps transactions for a day, if it goes by
the text of what is saved. -/
theorem keepsTransactions_of_refines {σ : Type} {C : ClientStorage σ} {ok : StorageOp → Prop}
    {sees : Value → Bool} {R : σ → StoredValues → Prop} (hC : C.Refines ok sees R)
    (hsees : ∀ v : Value, v.truthy = true → sees v = true)
    (htext : ∀ x now key days v v', textOf v = textOf v' →
      C.save x now key v days = C.save x now key v' days)
    (hsave : ∀ clientId now (t : Transaction), t.Storable →
      ok (.save (transactionKey clientId) t.item (.num (.fin 1)) now))
    (hremove : ∀ clientId, ok (.remove (transactionKey clientId)))
    (hget : ∀ clientId now, ok (.get (transactionKey clientId) now)) :
    C.KeepsTransactions (fun now => some (now + 86400000))
      fun x s => ∃ values, R x values ∧ Items values s where
  create {x s t} hR ht clientId now := by
    obtain ⟨values, hvalues, hitems⟩ := hR
    have hends : StorageOp.lifetime now (.num (.fin 1)) = some (now + 86400000) := by
      rw [StorageOp.lifetime_days now one_ne_zero, one_mul]
    refine ⟨_, ?_, hitems.write clientId (some ⟨t, some (now + 86400000)⟩)⟩
    have hstep := hC.step hvalues (hsave clientId now t ht)
    rw [htext _ _ _ _ _ _ t.textOf_members, ← hends]
    exact hstep
  remove hR clientId := by
    obtain ⟨values, hvalues, hitems⟩ := hR
    exact ⟨_, hC.step hvalues (hremove clientId), hitems.write clientId none⟩
  get {x s} hR clientId now := by
    obtain ⟨values, hvalues, hitems⟩ := hR
    rw [hC.get hvalues (hget clientId now), hitems.at clientId now]
    cases s.at clientId now with
    | none => rfl
    | some t =>
      have hseen : sees t.item = true := hsees _ rfl
      show some (Transaction.ofValue ((Option.filter sees (some t.item)).getD .undefined)) = _
      rw [Option.filter_some, if_pos hseen]
      exact congrArg some t.ofValue_item

section Cookies

variable {J : Type} {A : CookieApi J} {keeps : String → Cookie → Bool} {https plain legacy : Bool}

theorem plainCookie_text {v v' : Value} (h : textOf v = textOf v') (days : Value) :
    plainCookie https v days = plainCookie https v' days := by
  unfold plainCookie
  rw [h]

theorem legacyCookie_text {v v' : Value} (h : textOf v = textOf v') (days : Value) :
    legacyCookie https v days = legacyCookie https v' days := by
  unfold legacyCookie
  rw [h]

theorem save_fits (hkeeps : Treats keeps https plain legacy) {t : Transaction} (ht : t.Storable)
    (clientId : String) (now : ℚ) :
    (StorageOp.save (transactionKey clientId) t.item (.num (.fin 1)) now).FitsBoth keeps https plain
      legacy IsTransactionKey :=
  ⟨⟨⟨clientId, rfl⟩, ⟨ht.item_json, Or.inr ⟨1, rfl⟩⟩, hkeeps.plain _ _ _⟩, hkeeps.legacy _ _ _⟩

/-- `useCookiesForTransactions`, in a browser that keeps one cookie of the two. -/
theorem legacyCookies_keep (hA : A.Lawful keeps) (hkeeps : Treats keeps https plain legacy)
    (hkept : (plain || legacy) = true) :
    (CookieStorageWithLegacySameSite A https).KeepsTransactions (fun now => some (now + 86400000))
      fun j s => ∃ values, ShowsBoth A plain legacy IsTransactionKey j values ∧ Items values s :=
  keepsTransactions_of_refines (legacyCookies_refine hA transactionKeys_apart)
    (seesLegacy_truthy hkept)
    (fun x now key days v v' h => by
      show A.set (A.set x now _ (legacyCookie https v days)) now key (plainCookie https v days) = _
      rw [legacyCookie_text h, plainCookie_text h]
      rfl)
    (fun clientId now t ht => save_fits hkeeps ht clientId now)
    (fun clientId => ⟨⟨⟨clientId, rfl⟩, trivial, trivial⟩, trivial⟩)
    fun clientId now => ⟨⟨⟨clientId, rfl⟩, trivial, trivial⟩, trivial⟩

/-- The same without cookies for legacy browsers. -/
theorem cookies_keep (hA : A.Lawful keeps) (hkeeps : Treats keeps https plain legacy)
    (hkept : plain = true) :
    (CookieStorage A https).KeepsTransactions (fun now => some (now + 86400000))
      fun j s => ∃ values, ShowsPlain A plain IsTransactionKey j values ∧ Items values s :=
  keepsTransactions_of_refines (cookies_refine hA) (fun _ _ => hkept)
    (fun x now key days _ _ h => congrArg (A.set x now key) (plainCookie_text h days))
    (fun clientId now _ ht => (save_fits hkeeps ht clientId now).toFits)
    (fun clientId => ⟨⟨clientId, rfl⟩, trivial, trivial⟩)
    fun clientId _ => ⟨⟨clientId, rfl⟩, trivial, trivial⟩

end Cookies

/-- The items of `sessionStorage` are the texts of the transactions, which do not end. -/
structure SessionHolds (items : SessionItems) (s : HeldTransactions) : Prop where
  texts : ∀ clientId, items.find (transactionKey clientId) =
    (s clientId).map fun b => textOf b.value.item
  storable : ∀ clientId b, s clientId = some b → b.value.Storable ∧ b.ends = none

theorem sessionHolds_empty : SessionHolds [] Expiring.empty where
  texts _ := rfl
  storable clientId b h := by cases h

theorem session_keeps : SessionStorage.KeepsTransactions (fun _ => none) SessionHolds where
  create {items s t} h ht clientId now := by
    refine ⟨fun clientId' => ?_, fun clientId' b hb => ?_⟩
    · show OrdMap.find (OrdMap.insert items _ (textOf (.obj t.members))) _ = _
      rw [OrdMap.find_insert, t.textOf_members]
      by_cases hid : clientId = clientId'
      · subst hid
        rw [if_pos rfl, Expiring.Store.write_self]
        rfl
      · rw [if_neg fun hk => hid (transactionKey_injective hk), Expiring.Store.write_ne _ _ hid]
        exact h.texts clientId'
    · by_cases hid : clientId = clientId'
      · subst hid
        rw [Expiring.Store.write_self] at hb
        rw [← Option.some.inj hb]
        exact ⟨ht, rfl⟩
      · rw [Expiring.Store.write_ne _ _ hid] at hb
        exact h.storable clientId' b hb
  remove {items s} h clientId := by
    refine ⟨fun clientId' => ?_, fun clientId' b hb => ?_⟩
    · show OrdMap.find (OrdMap.erase items _) _ = _
      rw [OrdMap.find_erase]
      by_cases hid : clientId = clientId'
      · subst hid
        rw [if_pos rfl, Expiring.Store.write_self]
        rfl
      · rw [if_neg fun hk => hid (transactionKey_injective hk), Expiring.Store.write_ne _ _ hid]
        exact h.texts clientId'
    · by_cases hid : clientId = clientId'
      · subst hid
        rw [Expiring.Store.write_self] at hb
        cases hb
      · rw [Expiring.Store.write_ne _ _ hid] at hb
        exact h.storable clientId' b hb
  get {items s} h clientId now := by
    unfold SessionStorage Expiring.Store.at
    dsimp only
    rw [h.texts clientId]
    cases hb : s clientId with
    | none => rfl
    | some b =>
      obtain ⟨hstorable, hends⟩ := h.storable clientId b hb
      have hforce : b.inForce now = true := by
        unfold Expiring.Binding.inForce
        rw [hends]
        rfl
      simp only [Option.map_some, parse_textOf hstorable.item_json, b.value.ofValue_item, hforce,
        if_true]

/-! ## The storage of a client -/

namespace ClientStorage

variable {σ τ : Type}

/-- A storage on the first of two things a browser keeps. -/
def onFirst (C : ClientStorage σ) : ClientStorage (σ × τ) where
  get x now key := C.get x.1 now key
  save x now key value daysUntilExpire := (C.save x.1 now key value daysUntilExpire, x.2)
  remove x key := (C.remove x.1 key, x.2)

def onSecond (C : ClientStorage τ) : ClientStorage (σ × τ) where
  get x now key := C.get x.2 now key
  save x now key value daysUntilExpire := (x.1, C.save x.2 now key value daysUntilExpire)
  remove x key := (x.1, C.remove x.2 key)

variable {ends : ℚ → Option ℚ}

theorem KeepsTransactions.onFirst {C : ClientStorage σ} {R : σ → HeldTransactions → Prop}
    (h : C.KeepsTransactions ends R) :
    (C.onFirst (τ := τ)).KeepsTransactions ends fun x => R x.1 where
  create hR ht clientId now := h.create hR ht clientId now
  remove hR clientId := h.remove hR clientId
  get hR clientId now := h.get hR clientId now

theorem KeepsTransactions.onSecond {C : ClientStorage τ} {R : τ → HeldTransactions → Prop}
    (h : C.KeepsTransactions ends R) :
    (C.onSecond (σ := σ)).KeepsTransactions ends fun x => R x.2 where
  create hR ht clientId now := h.create hR ht clientId now
  remove hR clientId := h.remove hR clientId
  get hR clientId now := h.get hR clientId now

end ClientStorage

namespace AuthokClient

variable {J : Type} (c : AuthokClient) (A : CookieApi J) (https : Bool)

/-- The storage the constructor gives the transaction manager. -/
def transactionStorage : ClientStorage (J × SessionItems) :=
  if (c.options.get "useCookiesForTransactions").truthy then (c.cookieStorage A https).onFirst
  else SessionStorage.onSecond

/-- The browser keeps a cookie of those that the transaction manager sets, if it sets any. -/
def KeepsChosen (plain legacy : Bool) : Prop :=
  (c.options.get "useCookiesForTransactions").truthy = true → c.keepsOne plain legacy = true

variable {c A https} {keeps : String → Cookie → Bool} {plain legacy : Bool}

/-- The cookies of the client keep transactions for a day. -/
theorem cookieStorage_keeps (hA : A.Lawful keeps) (hkeeps : Treats keeps https plain legacy)
    (hkept : c.keepsOne plain legacy = true) {j : J} (hj : ∀ t name, A.get j t name = none) :
    ∃ R, (c.cookieStorage A https).KeepsTransactions (fun now => some (now + 86400000)) R ∧
      R j Expiring.empty := by
  have hclean := showsBoth_empty hj plain legacy IsTransactionKey
  unfold keepsOne at hkept
  unfold cookieStorage
  cases hplain : c.plainCookies with
  | true =>
    rw [hplain] at hkept
    exact ⟨_, cookies_keep hA hkeeps hkept, Expiring.empty, hclean.showsPlain, fun _ => rfl⟩
  | false =>
    rw [hplain] at hkept
    exact ⟨_, legacyCookies_keep hA hkeeps hkept, Expiring.empty, hclean, fun _ => rfl⟩

/-- Whatever the options of the client, its storage keeps transactions, for a day at least. -/
theorem transactionStorage_keeps (hA : A.Lawful keeps) (hkeeps : Treats keeps https plain legacy)
    (hkept : c.KeepsChosen plain legacy) {j : J} (hj : ∀ t name, A.get j t name = none) :
    ∃ ends R, (c.transactionStorage A https).KeepsTransactions ends R ∧ R (j, []) Expiring.empty ∧
      ∀ left arrived, arrived < left + 86400000 →
        (ends left).all (fun e => decide (arrived < e)) = true := by
  unfold transactionStorage
  split
  next hcookies =>
    obtain ⟨R, hR, hempty⟩ := cookieStorage_keeps hA hkeeps (hkept hcookies) hj
    exact ⟨_, _, hR.onFirst, hempty, fun left arrived hday => decide_eq_true hday⟩
  next => exact ⟨_, _, session_keeps.onSecond, sessionHolds_empty, fun _ _ _ => rfl⟩

end AuthokClient

/-! ## Managers on the pages -/

structure TransactionManager where
  clientId : String
  transaction : Option Transaction

/-- A storage and the managers constructed on it so far, on whatever pages. The history is
not part of the program: it has what was written, with the times. -/
structure ManagedPages (σ : Type) where
  storage : σ
  managers : List TransactionManager := []
  history : List (String × Option (Transaction × ℚ)) := []

/-- Calls of managers; `handleRedirectCallback` calls `remove`. -/
inductive ManagerOp where
  | construct (clientId : String) (now : ℚ)
  | create (i : Nat) (t : Transaction) (now : ℚ)
  | remove (i : Nat)

namespace ManagedPages

variable {σ : Type} (C : ClientStorage σ)

/-- The constructor; there is no manager where `JSON.parse` throws. -/
def construct (p : ManagedPages σ) (clientId : String) (now : ℚ) : Option TransactionManager :=
  (C.get p.storage now (transactionKey clientId)).map fun v => ⟨clientId, Transaction.ofValue v⟩

/-- `create`. -/
def create (p : ManagedPages σ) (i : Nat) (t : Transaction) (now : ℚ) : ManagedPages σ :=
  match p.managers[i]? with
  | none => p
  | some m =>
    { storage := C.save p.storage now (transactionKey m.clientId) (.obj t.members) (.num (.fin 1))
      managers := p.managers.set i { m with transaction := some t }
      history := p.history ++ [(m.clientId, some (t, now))] }

/-- `remove`. -/
def remove (p : ManagedPages σ) (i : Nat) : ManagedPages σ :=
  match p.managers[i]? with
  | none => p
  | some m =>
    { storage := C.remove p.storage (transactionKey m.clientId)
      managers := p.managers.set i { m with transaction := none }
      history := p.history ++ [(m.clientId, none)] }

def step (p : ManagedPages σ) : ManagerOp → ManagedPages σ
  | .construct clientId now =>
    { p with managers := p.managers ++ (p.construct C clientId now).toList }
  | .create i t now => p.create C i t now
  | .remove i => p.remove C i

def machine : Machine (ManagedPages σ) ManagerOp Unit where
  step p op := (p.step C op, ())

end ManagedPages

/-- What was last written for a client: a transaction and its time, or that there is none. -/
def lastWritten (clientId : String) (history : List (String × Option (Transaction × ℚ))) :
    Option (Transaction × ℚ) :=
  (Machine.lastSaid (fun w => if w.1 = clientId then some w.2 else none) history).join

theorem lastWritten_concat (clientId : String) (history : List (String × Option (Transaction × ℚ)))
    (w : String × Option (Transaction × ℚ)) :
    lastWritten clientId (history ++ [w]) =
      if w.1 = clientId then w.2 else lastWritten clientId history := by
  unfold lastWritten
  rw [Machine.lastSaid_concat]
  split
  · rfl
  · rfl

namespace ManagedPages

variable {σ : Type} {C : ClientStorage σ} {ends : ℚ → Option ℚ} {R : σ → HeldTransactions → Prop}

/-- The storage holds for each client what was last written for it. -/
def Held (ends : ℚ → Option ℚ) (R : σ → HeldTransactions → Prop) (p : ManagedPages σ) : Prop :=
  ∃ s, R p.storage s ∧ ∀ clientId,
    s clientId = (lastWritten clientId p.history).map fun w => ⟨w.1, ends w.2⟩

theorem Held.write {p : ManagedPages σ} {s : HeldTransactions} {x : σ} {clientId : String}
    {w : Option (Transaction × ℚ)} {managers : List TransactionManager}
    (hs : ∀ clientId, s clientId =
      (lastWritten clientId p.history).map fun w => ⟨w.1, ends w.2⟩)
    (hR : R x (s.write clientId (w.map fun w => ⟨w.1, ends w.2⟩))) :
    Held ends R ⟨x, managers, p.history ++ [(clientId, w)]⟩ := by
  refine ⟨_, hR, fun clientId' => ?_⟩
  rw [lastWritten_concat]
  by_cases hid : clientId = clientId'
  · subst hid
    rw [Expiring.Store.write_self, if_pos rfl]
  · rw [Expiring.Store.write_ne _ _ hid, if_neg hid]
    exact hs clientId'

/-- The transaction that is created can be stored. -/
def StorableOp : ManagerOp → Prop
  | .create _ t _ => t.Storable
  | _ => True

theorem Held.create (hC : C.KeepsTransactions ends R) {p : ManagedPages σ} (h : Held ends R p)
    (i : Nat) {t : Transaction} (ht : t.Storable) (now : ℚ) :
    Held ends R (p.create C i t now) := by
  obtain ⟨s, hR, hs⟩ := h
  unfold ManagedPages.create
  cases p.managers[i]? with
  | none => exact ⟨s, hR, hs⟩
  | some m => exact Held.write (w := some (t, now)) hs (hC.create hR ht m.clientId now)

theorem Held.remove (hC : C.KeepsTransactions ends R) {p : ManagedPages σ} (h : Held ends R p)
    (i : Nat) : Held ends R (p.remove C i) := by
  obtain ⟨s, hR, hs⟩ := h
  unfold ManagedPages.remove
  cases p.managers[i]? with
  | none => exact ⟨s, hR, hs⟩
  | some m => exact Held.write (w := none) hs (hC.remove hR m.clientId)

theorem Held.step (hC : C.KeepsTransactions ends R) {p : ManagedPages σ} (h : Held ends R p)
    {op : ManagerOp} (hop : StorableOp op) : Held ends R (p.step C op) := by
  cases op with
  | construct clientId now => exact h
  | create i t now => exact h.create hC i hop now
  | remove i => exact h.remove hC i

theorem Held.run (hC : C.KeepsTransactions ends R) {x : σ} (hx : R x Expiring.empty)
    {ops : List ManagerOp} (hops : ∀ op ∈ ops, StorableOp op) :
    Held ends R ((machine C).run ⟨x, [], []⟩ ops) :=
  Machine.run_guarded (M := machine C) (C := fun _ op => StorableOp op)
    (fun _ _ h hop => h.step hC hop) ops _ ⟨Expiring.empty, hx, fun _ => rfl⟩
    (Machine.meets_of_forall _ _ fun op hop _ => hops op hop)

/-- The transaction of a client that can still be read at `now`. -/
def handedOver (ends : ℚ → Option ℚ) (clientId : String)
    (history : List (String × Option (Transaction × ℚ))) (now : ℚ) : Option Transaction :=
  ((lastWritten clientId history).filter fun w => (ends w.2).all fun e => decide (now < e)).map
    Prod.fst

/-- The transaction that was last written, until it ends. -/
theorem handedOver_of_last {clientId : String} {history : List (String × Option (Transaction × ℚ))}
    {t : Transaction} {left : ℚ} (hlast : lastWritten clientId history = some (t, left)) (now : ℚ) :
    handedOver ends clientId history now =
      if (ends left).all (fun e => decide (now < e)) then some t else none := by
  unfold handedOver
  rw [hlast, Option.filter_some, apply_ite (Option.map Prod.fst)]
  rfl

theorem handedOver_of_none {clientId : String} {history : List (String × Option (Transaction × ℚ))}
    (hlast : lastWritten clientId history = none) (now : ℚ) :
    handedOver ends clientId history now = none := by
  unfold handedOver
  rw [hlast]
  rfl

theorem Held.construct (hC : C.KeepsTransactions ends R) {p : ManagedPages σ} (h : Held ends R p)
    (clientId : String) (now : ℚ) :
    p.construct C clientId now = some ⟨clientId, handedOver ends clientId p.history now⟩ := by
  obtain ⟨s, hR, hs⟩ := h
  have hread := hC.get hR clientId now
  unfold Expiring.Store.at at hread
  rw [hs clientId] at hread
  obtain ⟨v, hv, hvalue⟩ := Option.map_eq_some_iff.mp hread
  unfold ManagedPages.construct
  rw [hv, Option.map_some, hvalue]
  cases hlast : lastWritten clientId p.history with
  | none =>
    rw [handedOver_of_none hlast]
    rfl
  | some w =>
    rw [handedOver_of_last hlast]
    rfl

/-- Where a new manager removes its transaction, later pages do not find it. -/
theorem Held.used_up (hC : C.KeepsTransactions ends R) {p : ManagedPages σ} (h : Held ends R p)
    (clientId : String) (now later : ℚ) :
    ((p.step C (.construct clientId now)).remove C p.managers.length).construct C clientId later =
      some ⟨clientId, none⟩ := by
  set next := p.step C (.construct clientId now) with hdef
  have hnext : Held ends R next := h.step hC trivial
  have hnew : next.managers[p.managers.length]? =
      some ⟨clientId, handedOver ends clientId p.history now⟩ := by
    rw [hdef]
    show (p.managers ++ (p.construct C clientId now).toList)[p.managers.length]? = _
    rw [h.construct hC clientId now]
    exact List.getElem?_concat_length
  have hhistory : (next.remove C p.managers.length).history = p.history ++ [(clientId, none)] := by
    unfold ManagedPages.remove
    rw [hnew]
    rfl
  have hlast : lastWritten clientId (next.remove C p.managers.length).history = none := by
    rw [hhistory, lastWritten_concat, if_pos rfl]
  rw [(hnext.remove hC _).construct hC clientId later, handedOver_of_none hlast]

end ManagedPages

/-- **A transaction is handed over.** After any calls of any managers, on however many
pages, a new manager of a client holds the transaction that a manager of this client
created last, if none has removed it since and it has not ended; whatever the managers of
other clients have done. -/
theorem handover {σ : Type} {C : ClientStorage σ} {ends : ℚ → Option ℚ}
    {R : σ → HeldTransactions → Prop} (hC : C.KeepsTransactions ends R) {x : σ}
    (hx : R x Expiring.empty) {ops : List ManagerOp}
    (hops : ∀ op ∈ ops, ManagedPages.StorableOp op) (clientId : String) (now : ℚ) :
    let p := (ManagedPages.machine C).run ⟨x, [], []⟩ ops
    p.construct C clientId now =
      some ⟨clientId, ManagedPages.handedOver ends clientId p.history now⟩ :=
  (ManagedPages.Held.run hC hx hops).construct hC clientId now

/-! ## A login from page to page -/

/-- **A redirect login completes**, whichever storage the client has chosen, in a browser
that keeps a cookie of it: the page that started it left its transaction as the last of
its client; within a day the server sends the browser to a new page. If the server answers
the token requests it honours and its ID token is one that `verify` accepts, the new page
stores the entry of the response, marks the session and gives the application its state
back. The transaction is used up for all later pages. -/
theorem honest_login_completes {J : Type} {A : CookieApi J} {keeps : String → Cookie → Bool}
    {plain legacy : Bool} (hA : A.Lawful keeps) (S : Setup)
    (hkeeps : Treats keeps S.browser.https plain legacy)
    (hkept : S.client.KeepsChosen plain legacy) {j : J} (hj : ∀ t name, A.get j t name = none)
    {ops : List ManagerOp} (hops : ∀ op ∈ ops, ManagedPages.StorableOp op) (out : Outside)
    {options : Obj} {d : Draws} {client_id redirect_uri : String}
    (h : (CodeRequest.redirect options d.secrets).Named S.client S.browser client_id redirect_uri)
    (hdomain : '?' ∉ S.client.domainUrl.toList) (hquery : '?' ∉ redirect_uri.toList) {url : String}
    (hurl : S.client.authorizeUrl (S.client.redirectParams S.browser options d.secrets) = some url)
    (code : String) (response : Obj) {clock : Clock} {now : Js.Num} {token : DecodedToken}
    (hserver : ∀ g o request, CodeGrant.ofUrl url = some g → oauthToken o = some request →
      g.Honours S.browser.sha256 code request → out.oauthToken o = some (.ok response))
    (hissued : ∀ g, CodeGrant.ofUrl url = some g →
      S.client.verifyIdToken clock (response.get "id_token") (.str g.nonce)
        (S.client.redirectTransaction S.browser options d.secrets).organizationId = .ok token)
    (hverify : out.verifyNow = .ok clock) (hexpiry : out.expiryNow = .ok now) (left arrived : ℚ)
    (hleft : lastWritten S.client.client_id
      ((ManagedPages.machine (S.client.transactionStorage A S.browser.https)).run
        ⟨(j, []), [], []⟩ ops).history =
          some (S.client.redirectTransaction S.browser options d.secrets, left))
    (hday : arrived < left + 86400000) (s : ClientData J) :
    let C := S.client.transactionStorage A S.browser.https
    let p := (ManagedPages.machine C).run ⟨(j, []), [], []⟩ ops
    let q := (p.step C (.construct S.client.client_id arrived)).remove C p.managers.length
    ∃ g m e, CodeGrant.ofUrl url = some g ∧ p.construct C S.client.client_id arrived = some m ∧
      S.client.finishRedirect clock (S.client.redirectTransaction S.browser options d.secrets)
        response = .ok e ∧ e.decodedToken = token ∧
      Login.handleRedirectCallback A S out (g.callback code)
          { s with transaction := m.transaction } =
        .ok (options.get "appState")
          (loggedIn A S e now out.cookieNow { s with transaction := none, storage := none }) ∧
      ∀ later, q.construct C S.client.client_id later = some ⟨S.client.client_id, none⟩ := by
  intro C p q
  obtain ⟨ends, R, hC, hx, hends⟩ :=
    AuthokClient.transactionStorage_keeps hA hkeeps hkept hj
  have hheld : p.Held ends R := ManagedPages.Held.run hC hx hops
  have hm := hheld.construct hC S.client.client_id arrived
  rw [ManagedPages.handedOver_of_last hleft, if_pos (hends left arrived hday)] at hm
  obtain ⟨g, e, hg, haccept, he, hrun⟩ := callback_completes A S out h hdomain hquery hurl code response
    hserver hissued hverify hexpiry
    { s with transaction := some (S.client.redirectTransaction S.browser options d.secrets) } rfl
  exact ⟨g, _, e, hg, hm, haccept, he, hrun,
    fun later => hheld.used_up hC S.client.client_id arrived later⟩

/-! ## A login of a concrete client, by `sessionStorage` -/

/-- The transaction of the login. -/
def leftTransaction : Transaction :=
  (sampleClient false).redirectTransaction (sampleSetup false false).browser callbackOptions
    Session.popupDraws.secrets

theorem leftTransaction_storable : leftTransaction.Storable where
  members := by
    set params := (sampleClient false).redirectParams (sampleSetup false false).browser
      callbackOptions Session.popupDraws.secrets with hparams
    have hscope : ∃ scope, leftTransaction.scope = .str scope :=
      ⟨_, show params.get "scope" = _ from Js.Obj.get_spread_of_find rfl⟩
    have hredirect : leftTransaction.redirect_uri = .str "https://app/callback" :=
      show params.get "redirect_uri" = _ from Js.Obj.get_spread_of_find rfl
    have hnodup : OrdMap.KeysNodup (callbackOptions.without ["redirect_uri", "appState"]) :=
      List.nodup_nil
    have haudience : params.get "audience" = .undefined :=
      getParams_audience hnodup
    obtain ⟨scope, hscope⟩ := hscope
    have hmembers : leftTransaction.members =
        [("nonce", .str Session.popupDraws.secrets.nonceIn),
          ("code_verifier", .str Session.popupDraws.secrets.code_verifier), ("appState", .undefined),
          ("scope", .str scope), ("audience", .str "default"),
          ("redirect_uri", .str "https://app/callback"),
          ("state", .str Session.popupDraws.secrets.stateIn)] := by
      unfold Transaction.members
      rw [hscope, hredirect, show leftTransaction.audience = (params.get "audience").or _ from rfl,
        haudience]
      rfl
    rw [hmembers]
    simp [IsJson]

/-- The page that starts the login. -/
def leavingOps : List ManagerOp := [.construct "client" 0, .create 0 leftTransaction 0]

theorem leavingOps_storable : ∀ op ∈ leavingOps, ManagedPages.StorableOp op := by
  simp only [leavingOps, List.forall_mem_cons]
  exact ⟨trivial, leftTransaction_storable, fun op h => by cases h⟩

/-- In an old browser, with cookies: twelve hours later the transaction is there, the day
after it is not. -/
theorem handover_sample :
    let C := CookieStorageWithLegacySameSite (CookieApi.browser refusesNone) true
    let p := (ManagedPages.machine C).run ⟨Expiring.empty, [], []⟩ leavingOps
    p.construct C "client" 43200000 = some ⟨"client", some leftTransaction⟩ ∧
      p.construct C "client" 90000000 = some ⟨"client", none⟩ := by
  intro C p
  have hclean : ∃ values, ShowsBoth (CookieApi.browser refusesNone) false true IsTransactionKey
      Expiring.empty values ∧ Items values Expiring.empty :=
    ⟨Expiring.empty, browser_clean .., fun _ => rfl⟩
  have hread := handover (legacyCookies_keep (CookieApi.browser_lawful refusesNone)
    refusesNone_treats rfl) hclean leavingOps_storable "client"
  have hlast : lastWritten "client" p.history = some (leftTransaction, 0) := rfl
  refine ⟨(hread 43200000).trans ?_, (hread 90000000).trans ?_⟩
  · rw [ManagedPages.handedOver_of_last hlast]
    norm_num
  · rw [ManagedPages.handedOver_of_last hlast]
    norm_num

/-- A browser that keeps all cookies. -/
theorem keepsAll_treats (https : Bool) : Treats (fun _ _ => true) https true true where
  plain _ _ _ := rfl
  legacy _ _ _ := rfl

theorem honest_login_sample :
    let S := sampleSetup false false
    let C := S.client.transactionStorage sampleCookies S.browser.https
    ∃ g m e, ((ManagedPages.machine C).run ⟨(Expiring.empty, []), [], []⟩ leavingOps).construct C
        "client" 60000 = some m ∧
      e.decodedToken = drawnClaims.decoded ∧
      Login.handleRedirectCallback sampleCookies S answeringOutside (CodeGrant.callback g "code")
          { emptyData with transaction := m.transaction } =
        .ok .undefined (loggedIn sampleCookies S e sampleClock.nowProvider 0 emptyData) := by
  intro S C
  have hclean : ∀ t name, sampleCookies.get Expiring.empty t name = none := fun _ _ => rfl
  obtain ⟨url, hurl⟩ := sampleClient_url false ((sampleClient false).redirectParams
    (sampleSetup false false).browser callbackOptions Session.popupDraws.secrets)
  have hverify : ∀ g, CodeGrant.ofUrl url = some g →
      S.client.verifyIdToken sampleClock (.str drawnClaims.token) (.str g.nonce) .undefined =
        .ok drawnClaims.decoded := by
    intro g hg
    obtain rfl := Option.some.inj ((named_callback.ofUrl sampleClient_domain hurl).symm.trans hg)
    exact IssuedClaims.verify_token _ rfl (by decide) (by decide) rfl (by decide) (fun _ => rfl)
      (fun h => by cases h) rfl (fun h => by cases h) (fun h => by cases h)
  obtain ⟨g, m, e, -, hm, -, he, hrun, -⟩ := honest_login_completes
    (CookieApi.browser_lawful fun _ _ => true) S (keepsAll_treats _) (fun _ => rfl) hclean
    leavingOps_storable answeringOutside named_callback sampleClient_domain (by decide) hurl "code" _
    (fun _ _ _ _ _ _ => rfl) hverify rfl rfl 0 60000 rfl (by norm_num) emptyData
  exact ⟨g, m, e, hm, he, hrun⟩

end AuthokSpa
