import AuthokSpa.Client.Acceptance
import AuthokSpa.Client.Session

/-!
# Binding of code exchanges to the flows that were started

Whatever responses arrive, a code exchange belongs to one flow this client
started: it sends that flow's verifier, was triggered by a response with that
flow's state, names the same redirect URI, happens once, and leads only to
cached tokens with that flow's nonce.

The invariant relates the three places that hold a flow's secrets (the
transaction slot, the closures of waiting popups and iframes, the exchanges
under way) to the history. A secret's owner is found by its verifier, since
random strings are distinct. The slot's owner is always the last redirect; a
verifier is free (`Unused`) as long as it sits in the slot or in a closure,
because making the exchange takes it out of there.
-/

namespace AuthokSpa

open Js (Value Obj)

/-! ## What an exchange is bound to -/

/-- The exchange belongs to the started flow. -/
structure Start.Owns (f : Start) (x : Exchange) : Prop where
  flow : x.flow = f.flow
  verifier : x.options.get "code_verifier" = .str f.secrets.code_verifier
  state : x.state = .str f.secrets.stateIn
  redirect_uri : x.options.get "redirect_uri" = f.query.get "redirect_uri"

/-- No exchange so far has sent the flow's verifier. -/
def Unused (h : List Event) (f : Start) : Prop :=
  ∀ y, Event.exchange y ∈ h → y.options.get "code_verifier" ≠ .str f.secrets.code_verifier

/-- The redirect an event starts. -/
def Event.redirect? : Event → Option Start
  | .start f => if f.flow = .redirect then some f else none
  | _ => none

/-- The most recent `buildAuthorizeUrl`. -/
def lastRedirect (h : List Event) : Option Start := h.reverse.findSome? Event.redirect?

/-- The exchange is bound to `f`, given what happened before it and overall. -/
structure Binds (before all : List Event) (f : Start) (x : Exchange) : Prop where
  started : Event.start f ∈ before
  owns : f.Owns x
  unused : Unused before f
  recent : x.flow = .redirect → lastRedirect before = some f
  cached : ∀ e, Event.cached x e ∈ all → e.decodedToken.claims.get "nonce" = .str f.secrets.nonceIn

/-! ## The history grows -/

theorem lastRedirect_concat (h : List Event) (e : Event) :
    lastRedirect (h ++ [e]) = e.redirect?.or (lastRedirect h) := by
  unfold lastRedirect
  rw [List.reverse_append, List.reverse_singleton, List.singleton_append, List.findSome?_cons]
  cases e.redirect? with
  | none => rfl
  | some f => rfl

theorem lastRedirect_mem {h : List Event} {f : Start} (hl : lastRedirect h = some f) :
    Event.start f ∈ h ∧ f.flow = .redirect := by
  obtain ⟨e, he, hf⟩ := List.exists_of_findSome?_eq_some hl
  rw [List.mem_reverse] at he
  cases e with
  | start f' =>
    simp only [Event.redirect?, Option.ite_none_right_eq_some, Option.some.injEq] at hf
    obtain ⟨hr, rfl⟩ := hf
    exact ⟨he, hr⟩
  | exchange x => cases hf
  | cached x e => cases hf

/-- An event that is no exchange uses no verifier. -/
theorem Unused.concat {h : List Event} {f : Start} (hu : Unused h f) {e : Event}
    (he : ∀ y, e = .exchange y →
      y.options.get "code_verifier" ≠ .str f.secrets.code_verifier) : Unused (h ++ [e]) f := by
  intro y hy
  rcases List.mem_append.mp hy with hy | hy
  · exact hu y hy
  · exact he y (List.mem_singleton.mp hy).symm

/-- Cutting a list that grew by one: the cut is the new element, or was there. -/
theorem cut_concat {α : Type} {xs before after : List α} {e a : α}
    (h : xs ++ [e] = before ++ a :: after) :
    (after = [] ∧ e = a ∧ xs = before) ∨ ∃ after', xs = before ++ a :: after' := by
  rcases List.eq_nil_or_concat after with rfl | ⟨after', e', rfl⟩
  · obtain ⟨hxs, he⟩ := List.append_inj' h rfl
    exact Or.inl ⟨rfl, List.singleton_inj.mp he, hxs⟩
  · rw [List.concat_eq_append, ← List.cons_append, ← List.append_assoc] at h
    exact Or.inr ⟨after', (List.append_inj' h rfl).1⟩

/-- Taking one out of distinct elements leaves none of its kind. -/
theorem ne_of_mem_eraseIdx {α β : Type} {f : α → β} {xs : List α} (h : (xs.map f).Nodup) {i : Nat}
    {x : α} (hx : xs[i]? = some x) : ∀ y ∈ xs.eraseIdx i, f y ≠ f x := by
  intro y hy heq
  obtain ⟨j, hj, hne, rfl⟩ := List.mem_eraseIdx_iff_getElem.mp hy
  obtain ⟨hi, rfl⟩ := List.getElem?_eq_some_iff.mp hx
  have hj' : j < (xs.map f).length := by simpa using hj
  have hi' : i < (xs.map f).length := by simpa using hi
  have hmap : (xs.map f)[j] = (xs.map f)[i] := by simpa using heq
  exact hne (h.getElem_inj_iff.mp hmap)

/-- What is always true of the history; `drawn` are the random strings so far. -/
structure HistoryOk (drawn : List String) (h : List Event) : Prop where
  drawn : ∀ f, Event.start f ∈ h → f.secrets.code_verifier ∈ drawn
  filled : ∀ f, Event.start f ∈ h → f.secrets.nonceIn ≠ "" ∧ f.secrets.stateIn ≠ ""
  distinct : ∀ f f', Event.start f ∈ h → Event.start f' ∈ h →
    f.secrets.code_verifier = f'.secrets.code_verifier → f = f'
  bound : ∀ before x after, h = before ++ .exchange x :: after →
    ∃ f, Event.start f ∈ before ∧ f.Owns x ∧ Unused before f ∧
      (x.flow = .redirect → lastRedirect before = some f)
  cached : ∀ x e, Event.cached x e ∈ h → ∃ f, Event.start f ∈ h ∧
    x.options.get "code_verifier" = .str f.secrets.code_verifier ∧
    e.decodedToken.claims.get "nonce" = .str f.secrets.nonceIn

namespace HistoryOk

variable {drawn : List String} {h : List Event}

theorem mono (hok : HistoryOk drawn h) {drawn' : List String} (hsub : drawn ⊆ drawn') :
    HistoryOk drawn' h :=
  { hok with drawn := fun f hf => hsub (hok.drawn f hf) }

/-- The exchanges of a history that grew by something else. -/
theorem bound_concat (hok : HistoryOk drawn h) {e : Event} (he : ∀ x, e ≠ .exchange x) :
    ∀ before x after, h ++ [e] = before ++ .exchange x :: after →
      ∃ f, Event.start f ∈ before ∧ f.Owns x ∧ Unused before f ∧
        (x.flow = .redirect → lastRedirect before = some f) := by
  intro before x after hcut
  rcases cut_concat hcut with ⟨-, heq, -⟩ | ⟨after', hold⟩
  · exact absurd heq (he x)
  · exact hok.bound before x after' hold

theorem start (hok : HistoryOk drawn h) {f : Start} (hnew : f.secrets.code_verifier ∉ drawn)
    (hfilled : f.secrets.nonceIn ≠ "" ∧ f.secrets.stateIn ≠ "") {drawn' : List String}
    (hsub : drawn ⊆ drawn') (hmem : f.secrets.code_verifier ∈ drawn') :
    HistoryOk drawn' (h ++ [.start f]) where
  drawn f' hf' := by
    rcases List.mem_append.mp hf' with hold | hthis
    · exact hsub (hok.drawn f' hold)
    · obtain rfl : f' = f := by simpa using hthis
      exact hmem
  filled f' hf' := by
    rcases List.mem_append.mp hf' with hold | hthis
    · exact hok.filled f' hold
    · obtain rfl : f' = f := by simpa using hthis
      exact hfilled
  distinct f₁ f₂ h₁ h₂ heq := by
    rcases List.mem_append.mp h₁ with hold₁ | hthis₁ <;>
      rcases List.mem_append.mp h₂ with hold₂ | hthis₂
    · exact hok.distinct f₁ f₂ hold₁ hold₂ heq
    · obtain rfl : f₂ = f := by simpa using hthis₂
      exact absurd (heq ▸ hok.drawn f₁ hold₁) hnew
    · obtain rfl : f₁ = f := by simpa using hthis₁
      exact absurd (heq ▸ hok.drawn f₂ hold₂) hnew
    · obtain rfl : f₁ = f := by simpa using hthis₁
      exact (by simpa using hthis₂ : f₂ = f₁).symm
  bound := hok.bound_concat (fun x => by simp)
  cached x e he := by
    obtain ⟨f', hf', hrest⟩ := hok.cached x e (by simpa using he)
    exact ⟨f', List.mem_append_left _ hf', hrest⟩

theorem exchange (hok : HistoryOk drawn h) {f : Start} {x : Exchange} (hf : Event.start f ∈ h)
    (howns : f.Owns x) (hunused : Unused h f)
    (hrecent : x.flow = .redirect → lastRedirect h = some f) :
    HistoryOk drawn (h ++ [.exchange x]) where
  drawn f' hf' := hok.drawn f' (by simpa using hf')
  filled f' hf' := hok.filled f' (by simpa using hf')
  distinct f₁ f₂ h₁ h₂ heq := hok.distinct f₁ f₂ (by simpa using h₁) (by simpa using h₂) heq
  bound before x' after hcut := by
    rcases cut_concat hcut with ⟨-, heq, rfl⟩ | ⟨after', hold⟩
    · obtain rfl : x = x' := by simpa using heq
      exact ⟨f, hf, howns, hunused, hrecent⟩
    · exact hok.bound before x' after' hold
  cached x' e he := by
    obtain ⟨f', hf', hrest⟩ := hok.cached x' e (by simpa using he)
    exact ⟨f', List.mem_append_left _ hf', hrest⟩

theorem cache (hok : HistoryOk drawn h) {f : Start} {x : Exchange} {e : CacheEntry}
    (hf : Event.start f ∈ h) (hx : x.options.get "code_verifier" = .str f.secrets.code_verifier)
    (he : e.decodedToken.claims.get "nonce" = .str f.secrets.nonceIn) :
    HistoryOk drawn (h ++ [.cached x e]) where
  drawn f' hf' := hok.drawn f' (by simpa using hf')
  filled f' hf' := hok.filled f' (by simpa using hf')
  distinct f₁ f₂ h₁ h₂ heq := hok.distinct f₁ f₂ (by simpa using h₁) (by simpa using h₂) heq
  bound := hok.bound_concat (fun x => by simp)
  cached x' e' he' := by
    rcases List.mem_append.mp he' with hold | hthis
    · obtain ⟨f', hf', hrest⟩ := hok.cached x' e' hold
      exact ⟨f', List.mem_append_left _ hf', hrest⟩
    · obtain ⟨rfl, rfl⟩ : x' = x ∧ e' = e := by simpa using hthis
      exact ⟨f, List.mem_append_left _ hf, hx, he⟩

/-- A new verifier has not been sent: whoever sent it would have started with it. -/
theorem unused_of_new (hok : HistoryOk drawn h) {f : Start}
    (hnew : f.secrets.code_verifier ∉ drawn) : Unused h f := by
  intro y hy heq
  obtain ⟨before, after, hcut⟩ := List.append_of_mem hy
  obtain ⟨f', hf', howns, -, -⟩ := hok.bound before y after hcut
  have hv : f'.secrets.code_verifier = f.secrets.code_verifier :=
    Value.str.inj (howns.verifier.symm.trans heq)
  have hmem : Event.start f' ∈ h := by
    rw [hcut]
    exact List.mem_append_left _ hf'
  exact hnew (hv ▸ hok.drawn f' hmem)

end HistoryOk

/-! ## The places that hold secrets -/

/-- The transaction is the one the redirect stored. -/
structure Start.Stored (f : Start) (t : AuthokClient.Transaction) : Prop where
  nonce : t.nonce = .str f.secrets.nonceIn
  verifier : t.code_verifier = .str f.secrets.code_verifier
  state : t.state = .str f.secrets.stateIn
  redirect_uri : t.redirect_uri = f.query.get "redirect_uri"
  text : OptionalText t.redirect_uri

theorem OptionalText.jsonCopy {v : Value} (h : OptionalText v) : jsonCopy v = v := by
  rcases h with rfl | ⟨s, rfl⟩
  · rfl
  · exact jsonCopy_str s

/-- JSON keeps what the exchange needs of a transaction. -/
theorem Start.Stored.reload {f : Start} {t : AuthokClient.Transaction} (h : f.Stored t) :
    f.Stored t.reload where
  nonce := by rw [AuthokClient.Transaction.reload, h.nonce, jsonCopy_str]
  verifier := by rw [AuthokClient.Transaction.reload, h.verifier, jsonCopy_str]
  state := by rw [AuthokClient.Transaction.reload, h.state, jsonCopy_str]
  redirect_uri := by rw [AuthokClient.Transaction.reload, h.text.jsonCopy, h.redirect_uri]
  text := by
    rw [AuthokClient.Transaction.reload, h.text.jsonCopy]
    exact h.text

/-- The slot belongs to the last redirect, which is still open. -/
def SlotOk (h : List Event) (t : AuthokClient.Transaction) : Prop :=
  ∃ f, lastRedirect h = some f ∧ f.Stored t ∧ Unused h f

section Places

variable (c : AuthokClient) (b : Browser)

/-- The closure is the one the flow waits with. -/
structure Start.Awaits (f : Start) (w : Waiting) : Prop where
  flow : w.flow = f.flow
  secrets : w.secrets = f.secrets
  query : w.query c b = f.query

/-- A closure belongs to a flow that is still open. -/
def WaitingOk (h : List Event) (w : Waiting) : Prop :=
  ∃ f, Event.start f ∈ h ∧ f.Awaits c b w ∧ Unused h f

end Places

/-- The nonce the end of the flow checks for. -/
def Pending.nonce : Pending → Value
  | redirect transaction => transaction.nonce
  | waiting w => .str w.secrets.nonceIn

/-- An exchange under way checks for its flow's nonce. -/
def PendingOk (h : List Event) (p : Exchange × Pending) : Prop :=
  ∃ f, Event.start f ∈ h ∧ p.1.options.get "code_verifier" = .str f.secrets.code_verifier ∧
    p.2.nonce = .str f.secrets.nonceIn

theorem Waiting.not_redirect (w : Waiting) : w.flow ≠ .redirect := by
  cases w <;> simp [Waiting.flow]

theorem PendingOk.concat {h : List Event} {p : Exchange × Pending} (hp : PendingOk h p)
    (e : Event) : PendingOk (h ++ [e]) p := by
  obtain ⟨f, hf, hrest⟩ := hp
  exact ⟨f, List.mem_append_left _ hf, hrest⟩

theorem SlotOk.concat {h : List Event} {t : AuthokClient.Transaction} (ht : SlotOk h t) {e : Event}
    (hredirect : e.redirect? = none)
    (he : ∀ f y, lastRedirect h = some f → e = .exchange y →
      y.options.get "code_verifier" ≠ .str f.secrets.code_verifier) : SlotOk (h ++ [e]) t := by
  obtain ⟨f, hlast, hst, hu⟩ := ht
  refine ⟨f, ?_, hst, hu.concat fun y hy => he f y hlast hy⟩
  rw [lastRedirect_concat, hredirect, Option.none_or]
  exact hlast

theorem WaitingOk.concat {c : AuthokClient} {b : Browser} {h : List Event} {w : Waiting}
    (hw : WaitingOk c b h w) {e : Event}
    (he : ∀ y, e = .exchange y →
      y.options.get "code_verifier" ≠ .str w.secrets.code_verifier) :
    WaitingOk c b (h ++ [e]) w := by
  obtain ⟨f, hf, haw, hu⟩ := hw
  refine ⟨f, List.mem_append_left _ hf, haw, hu.concat fun y hy => ?_⟩
  rw [← haw.secrets]
  exact he y hy

/-- The last redirect is not the flow a popup or an iframe belongs to. -/
theorem redirect_ne_waiting {c : AuthokClient} {b : Browser} {drawn : List String}
    {h : List Event} (hok : HistoryOk drawn h) {f : Start} (hf : lastRedirect h = some f)
    {w : Waiting} (hw : WaitingOk c b h w) :
    f.secrets.code_verifier ≠ w.secrets.code_verifier := by
  obtain ⟨f', hf', haw, -⟩ := hw
  obtain ⟨hmem, hflow⟩ := lastRedirect_mem hf
  intro heq
  rw [haw.secrets] at heq
  obtain rfl := hok.distinct f f' hmem hf' heq
  exact w.not_redirect (haw.flow.trans hflow)

/-! ## The invariant -/

/-- The invariant of a session. -/
structure Session.Inv (c : AuthokClient) (b : Browser) (drawn : List String) (s : Session) :
    Prop where
  history : HistoryOk drawn s.history
  slot : ∀ t, s.transaction = some t ∨ s.storage = some t → SlotOk s.history t
  waiting : ∀ w ∈ s.waiting, WaitingOk c b s.history w
  apart : (s.waiting.map fun w => w.secrets.code_verifier).Nodup
  pending : ∀ p ∈ s.pending, PendingOk s.history p

/-- Secrets that were drawn are not empty. -/
theorem Draws.filled (d : Draws) : d.secrets.nonceIn ≠ "" ∧ d.secrets.stateIn ≠ "" :=
  ⟨encode_createRandomString_ne_empty d.forNonce, encode_createRandomString_ne_empty d.forState⟩

/-- The end of a flow checks its nonce. -/
theorem finish_nonce {c : AuthokClient} {b : Browser} {clock : Clock} {r : Obj} {p : Pending}
    {e : CacheEntry} (h : p.finish c b clock r = .ok e) {nonce : String}
    (hnonce : p.nonce = .str nonce) (hne : nonce ≠ "") :
    e.decodedToken.claims.get "nonce" = .str nonce := by
  have hverified : ∃ organizationId,
      c.verifyIdToken clock (r.get "id_token") p.nonce organizationId = .ok e.decodedToken := by
    cases p with
    | redirect t =>
      obtain ⟨d, hd, he⟩ := bind_ok_iff.mp h
      exact ⟨_, hd.trans (congrArg (fun e => Except.ok e.decodedToken) (Except.ok.inj he))⟩
    | waiting w =>
      cases w with
      | popup options x =>
        obtain ⟨d, hd, he⟩ := bind_ok_iff.mp h
        exact ⟨_, hd.trans (congrArg (fun e => Except.ok e.decodedToken) (Except.ok.inj he))⟩
      | iframe options x orgIdHint =>
        obtain ⟨d, hd, he⟩ := bind_ok_iff.mp h
        exact ⟨_, hd.trans (congrArg (fun e => Except.ok e.decodedToken) (Except.ok.inj he))⟩
  obtain ⟨organizationId, hv⟩ := hverified
  obtain ⟨-, -, -, -, hacc⟩ := (verify_ok_iff ..).mp hv
  have hstrict := hacc.nonce
  simp only [AuthokClient.verifyOptions, hnonce] at hstrict
  exact (Value.strictEq_str _ _).mp (hstrict (by simpa using hne))

namespace Session

variable {c : AuthokClient} {b : Browser} {drawn drawn' : List String} {s : Session}

theorem Inv.mono (h : s.Inv c b drawn) (hsub : drawn ⊆ drawn') : s.Inv c b drawn' :=
  { h with history := h.history.mono hsub }

theorem inv_empty : Session.Inv c b [] {} where
  history :=
    { drawn := fun f hf => absurd hf List.not_mem_nil
      filled := fun f hf => absurd hf List.not_mem_nil
      distinct := fun f _ hf => absurd hf List.not_mem_nil
      bound := fun before x after hcut => by simp at hcut
      cached := fun x e he => absurd he List.not_mem_nil }
  slot t ht := by rcases ht with ht | ht <;> cases ht
  waiting w hw := absurd hw List.not_mem_nil
  apart := List.nodup_nil
  pending p hp := absurd hp List.not_mem_nil

/-- The transaction of a redirect is the one its start stands for. -/
theorem stored_redirectTransaction {options : Obj} {x : Secrets} {url : String}
    (huri : OptionalText (options.get "redirect_uri"))
    (hclient : OptionalText (c.options.get "redirect_uri")) :
    Start.Stored ⟨.redirect, x, c.redirectParams b options x, url⟩
      (c.redirectTransaction b options x) where
  nonce := by simp only [AuthokClient.redirectTransaction]
  verifier := by simp only [AuthokClient.redirectTransaction]
  state := by simp only [AuthokClient.redirectTransaction]
  redirect_uri := by simp only [AuthokClient.redirectTransaction]
  text := by
    have hsent : (c.redirectParams b options x).get "redirect_uri" =
        (options.get "redirect_uri").or (c.options.get "redirect_uri") := by
      unfold AuthokClient.redirectParams AuthokClient.getParams
      exact Js.Obj.get_spread_of_find rfl
    simp only [AuthokClient.redirectTransaction, hsent, Value.or]
    split
    · exact huri
    · exact hclient

/-- A redirect overwrites the slot. -/
theorem Inv.buildAuthorizeUrl (h : s.Inv c b drawn) {options : Obj} {d : Draws}
    (hnew : d.secrets.code_verifier ∉ drawn) (hsub : drawn ⊆ drawn')
    (hmem : d.secrets.code_verifier ∈ drawn')
    (huri : OptionalText (options.get "redirect_uri"))
    (hclient : OptionalText (c.options.get "redirect_uri")) :
    (s.buildAuthorizeUrl c b options d.secrets).Inv c b drawn' := by
  unfold Session.buildAuthorizeUrl
  dsimp only
  split
  next => exact h.mono hsub
  next url hurl =>
    have hfresh : ∀ w ∈ s.waiting, WaitingOk c b (s.history ++
        [.start ⟨.redirect, d.secrets, c.redirectParams b options d.secrets, url⟩]) w :=
      fun w hw => (h.waiting w hw).concat fun y hy => by cases hy
    refine ⟨h.history.start hnew d.filled hsub hmem, fun t ht => ?_, hfresh, h.apart,
      fun p hp => (h.pending p hp).concat _⟩
    obtain rfl : c.redirectTransaction b options d.secrets = t := by
      rcases ht with ht | ht <;> exact Option.some.inj ht
    refine ⟨⟨.redirect, d.secrets, c.redirectParams b options d.secrets, url⟩, ?_,
      stored_redirectTransaction huri hclient,
      (h.history.unused_of_new hnew).concat fun y hy => by cases hy⟩
    rw [Session.record, lastRedirect_concat]
    rfl

/-- A popup or an iframe adds its closure. -/
theorem Inv.await (h : s.Inv c b drawn) {w : Waiting}
    (hfilled : w.secrets.nonceIn ≠ "" ∧ w.secrets.stateIn ≠ "")
    (hnew : w.secrets.code_verifier ∉ drawn) (hsub : drawn ⊆ drawn')
    (hmem : w.secrets.code_verifier ∈ drawn') : (s.await c b w).Inv c b drawn' := by
  unfold Session.await
  split
  next => exact h.mono hsub
  next url hurl =>
    let f : Start := ⟨w.flow, w.secrets, w.query c b, url⟩
    have hno : ∀ y, Event.start f ≠ .exchange y := fun y hy => by cases hy
    refine ⟨h.history.start hnew hfilled hsub hmem, fun t ht => ?_, fun w' hw' => ?_, ?_,
      fun p hp => (h.pending p hp).concat _⟩
    · exact (h.slot t ht).concat (if_neg w.not_redirect) fun _ y _ hy => absurd hy (hno y)
    · rcases List.mem_append.mp hw' with hold | hthis
      · exact (h.waiting w' hold).concat fun y hy => absurd hy (hno y)
      · obtain rfl : w' = w := by simpa using hthis
        exact ⟨f, List.mem_append_right _ (List.mem_singleton.mpr rfl), ⟨rfl, rfl, rfl⟩,
          (h.history.unused_of_new (f := f) hnew).concat fun y hy => absurd hy (hno y)⟩
    · -- the verifier is new, so none of the waiting flows has it
      rw [List.map_append, List.nodup_append]
      refine ⟨h.apart, List.nodup_singleton _, ?_⟩
      intro v hv v' hv' heq
      obtain ⟨w', hw', rfl⟩ := List.mem_map.mp hv
      obtain ⟨f', hf', haw, -⟩ := h.waiting w' hw'
      have hdrawn := h.history.drawn f' hf'
      rw [← haw.secrets, heq, List.mem_singleton.mp hv'] at hdrawn
      exact hnew hdrawn

/-- The options of a redirect's exchange name the transaction's verifier and URI. -/
theorem redirectTokenOptions_get (c : AuthokClient) (t : AuthokClient.Transaction) (code : Value) :
    (c.redirectTokenOptions t code).get "code_verifier" = t.code_verifier ∧
      (c.redirectTokenOptions t code).get "redirect_uri" = t.redirect_uri := by
  unfold AuthokClient.redirectTokenOptions
  dsimp only
  split
  next h => exact ⟨rfl, h.symm⟩
  next => exact ⟨Js.Obj.get_set_ne (by decide), Js.Obj.get_set_same _ _ _⟩

/-- The options of a waiting flow's exchange name its verifier and its URI. -/
theorem tokenOptions_get (c : AuthokClient) (b : Browser) (w : Waiting) (code : Value) :
    (w.tokenOptions c b code).get "code_verifier" = .str w.secrets.code_verifier ∧
      (w.tokenOptions c b code).get "redirect_uri" = (w.query c b).get "redirect_uri" := by
  cases w with
  | popup options x =>
    refine ⟨rfl, ?_⟩
    unfold Waiting.query AuthokClient.popupQuery
    rw [Js.Obj.get_spread_of_not_mem
      (show "redirect_uri" ∉ ["response_mode"] by decide)]
    rfl
  | iframe options x orgIdHint =>
    refine ⟨Js.Obj.get_spread_of_find rfl, ?_⟩
    unfold Waiting.query AuthokClient.iframeQuery
    rw [Js.Obj.get_spread_of_not_mem
      (show "redirect_uri" ∉ ["prompt", "response_mode"] by decide)]
    exact Js.Obj.get_spread_of_find rfl

/-- A callback empties the slot; what it sends is the slot's. -/
theorem Inv.handleRedirectCallback (h : s.Inv c b drawn) (url : String) :
    (s.handleRedirectCallback c url).Inv c b drawn := by
  unfold Session.handleRedirectCallback
  split
  next => exact h
  next params hparams =>
    split
    next => exact h
    next t ht =>
      have hempty : Session.Inv c b drawn { s with transaction := none, storage := none } :=
        ⟨h.history, fun t ht => (by simp at ht), h.waiting, h.apart, h.pending⟩
      obtain ⟨f, hlast, hst, hu⟩ := h.slot t (Or.inl ht)
      obtain ⟨hmem, hflow⟩ := lastRedirect_mem hlast
      dsimp only
      split
      next => exact hempty
      next =>
        split
        next => exact hempty
        next hcheck =>
          let x : Exchange := ⟨.redirect, params.get "state",
            c.redirectTokenOptions t (params.get "code")⟩
          obtain ⟨hverifier, huri⟩ := redirectTokenOptions_get c t (params.get "code")
          -- a transaction has a state, so it was compared
          have hstate : params.get "state" = .str f.secrets.stateIn := by
            have htruthy : (Value.str f.secrets.stateIn).truthy = true := by
              simpa using (h.history.filled f hmem).2
            rw [hst.state, htruthy] at hcheck
            simp only [Bool.true_and, Bool.or_eq_true, Bool.not_eq_true', not_or,
              Bool.not_eq_false] at hcheck
            exact Value.str_strictEq hcheck.2
          have howns : f.Owns x :=
            ⟨hflow.symm, hverifier.trans hst.verifier, hstate, huri.trans hst.redirect_uri⟩
          refine ⟨h.history.exchange hmem howns hu (fun _ => hlast),
            fun t ht => (by simp [Session.send, Session.record] at ht), fun w hw => ?_, h.apart,
            fun p hp => ?_⟩
          · -- another flow waits with another verifier
            refine (h.waiting w hw).concat fun y hy => ?_
            obtain rfl : x = y := by simpa using hy
            rw [howns.verifier]
            intro heq
            exact redirect_ne_waiting h.history hlast (h.waiting w hw) (Value.str.inj heq)
          · rcases List.mem_append.mp hp with hold | hthis
            · exact (h.pending p hold).concat _
            · obtain rfl := List.mem_singleton.mp hthis
              exact ⟨f, List.mem_append_left _ hmem, howns.verifier, hst.nonce⟩

/-- A response takes the closure out; what it sends is the closure's. -/
theorem Inv.response (h : s.Inv c b drawn) (i : Nat) (r : Obj) :
    (s.response c b i r).Inv c b drawn := by
  unfold Session.response
  split
  next => exact h
  next w hw =>
    have hmem : w ∈ s.waiting := List.mem_of_getElem? hw
    -- taken out of the list, the flow is not answered again
    have hgone : Session.Inv c b drawn { s with waiting := s.waiting.eraseIdx i } :=
      ⟨h.history, h.slot, fun w hw => h.waiting w (List.mem_of_mem_eraseIdx hw),
        h.apart.sublist ((List.eraseIdx_sublist _ _).map _), h.pending⟩
    obtain ⟨f, hf, haw, hu⟩ := h.waiting w hmem
    dsimp only
    split
    next => exact hgone
    next =>
      split
      next => exact hgone
      next hcheck =>
        let x : Exchange := ⟨w.flow, r.get "state", w.tokenOptions c b (r.get "code")⟩
        obtain ⟨hverifier, huri⟩ := tokenOptions_get c b w (r.get "code")
        have hstate : r.get "state" = .str f.secrets.stateIn := by
          rw [← haw.secrets]
          exact Value.str_strictEq (by simpa using hcheck)
        have howns : f.Owns x := ⟨haw.flow, haw.secrets ▸ hverifier, hstate, haw.query ▸ huri⟩
        have hothers := ne_of_mem_eraseIdx h.apart hw
        refine ⟨h.history.exchange hf howns hu fun hr => absurd hr w.not_redirect,
          fun t ht => ?_, fun w' hw' => ?_, hgone.apart, fun p hp => ?_⟩
        · refine (h.slot t ht).concat rfl fun f' y hlast hy heq => ?_
          obtain rfl : x = y := by simpa using hy
          rw [hverifier] at heq
          exact redirect_ne_waiting h.history hlast (h.waiting w hmem) (Value.str.inj heq).symm
        · refine (hgone.waiting w' hw').concat fun y hy heq => ?_
          obtain rfl : x = y := by simpa using hy
          rw [hverifier] at heq
          exact hothers w' hw' (Value.str.inj heq).symm
        · rcases List.mem_append.mp hp with hold | hthis
          · exact (h.pending p hold).concat _
          · obtain rfl := List.mem_singleton.mp hthis
            exact ⟨f, List.mem_append_left _ hf, howns.verifier, by rw [← haw.secrets]; rfl⟩

/-- An answer is cached under its flow's nonce. -/
theorem Inv.tokenResponse (h : s.Inv c b drawn) (i : Nat) (clock : Clock)
    (authResult : Option Obj) : (s.tokenResponse c b i clock authResult).Inv c b drawn := by
  unfold Session.tokenResponse
  split
  next => exact h
  next x p hp =>
    have hgone : Session.Inv c b drawn { s with pending := s.pending.eraseIdx i } :=
      ⟨h.history, h.slot, h.waiting, h.apart,
        fun p hp => h.pending p (List.mem_of_mem_eraseIdx hp)⟩
    obtain ⟨f, hf, hx, hnonce⟩ := h.pending _ (List.mem_of_getElem? hp)
    dsimp only
    split
    next e he =>
      obtain ⟨r, -, hfinish⟩ := Option.map_eq_some_iff.mp he
      have hclaim := finish_nonce hfinish hnonce (h.history.filled f hf).1
      have hno : ∀ y, Event.cached x e ≠ .exchange y := fun y hy => by cases hy
      exact ⟨h.history.cache hf hx hclaim,
        fun t ht => (h.slot t ht).concat rfl fun _ y _ hy => absurd hy (hno y),
        fun w hw => (h.waiting w hw).concat fun y hy => absurd hy (hno y), h.apart,
        fun p hp => (hgone.pending p hp).concat _⟩
    next => exact hgone

theorem Inv.reload (h : s.Inv c b drawn) : s.reload.Inv c b drawn where
  history := h.history
  slot t ht := by
    rcases ht with ht | ht
    · obtain ⟨t', ht', rfl⟩ := Option.map_eq_some_iff.mp ht
      obtain ⟨f, hlast, hst, hu⟩ := h.slot t' (Or.inr ht')
      exact ⟨f, hlast, hst.reload, hu⟩
    · exact h.slot t (Or.inr ht)
  waiting w hw := absurd hw List.not_mem_nil
  apart := List.nodup_nil
  pending p hp := absurd hp List.not_mem_nil

end Session

theorem Draws.verifier_mem (d : Draws) : d.secrets.code_verifier ∈ d.strings := by
  simp [Draws.secrets, Draws.strings, newSecrets]

/-- The random strings a step draws. -/
def SessionOp.draws : SessionOp → List String
  | buildAuthorizeUrl _ d => d.strings
  | loginWithPopup _ d => d.strings
  | getTokenFromIFrame _ _ d => d.strings
  | _ => []

/-- The redirect URIs of a step are strings or absent. -/
def SessionOp.UriTyped : SessionOp → Prop
  | buildAuthorizeUrl options _ => OptionalText (options.get "redirect_uri")
  | _ => True

namespace Session

variable {c : AuthokClient} {b : Browser} {drawn : List String} {s : Session}

/-- **One step** keeps the invariant when the strings it draws are new. -/
theorem Inv.step (h : s.Inv c b drawn) (op : SessionOp) (hnew : ∀ v ∈ op.draws, v ∉ drawn)
    (hclient : OptionalText (c.options.get "redirect_uri")) (huri : op.UriTyped) :
    (s.step c b op).Inv c b (drawn ++ op.draws) := by
  have hsub : drawn ⊆ drawn ++ op.draws := List.subset_append_left _ _
  cases op with
  | buildAuthorizeUrl options d =>
    exact h.buildAuthorizeUrl (hnew _ d.verifier_mem) hsub
      (List.mem_append_right _ d.verifier_mem) huri hclient
  | loginWithPopup options d =>
    exact h.await d.filled (hnew _ d.verifier_mem) hsub (List.mem_append_right _ d.verifier_mem)
  | getTokenFromIFrame options orgIdHint d =>
    exact h.await d.filled (hnew _ d.verifier_mem) hsub (List.mem_append_right _ d.verifier_mem)
  | handleRedirectCallback url => exact (h.handleRedirectCallback url).mono hsub
  | response i r => exact (h.response i r).mono hsub
  | abandon i =>
    refine Inv.mono ⟨h.history, h.slot, fun w hw => ?_, ?_, h.pending⟩ hsub
    · exact h.waiting w (List.mem_of_mem_eraseIdx hw)
    · exact h.apart.sublist ((List.eraseIdx_sublist _ _).map _)
  | tokenResponse i clock authResult => exact (h.tokenResponse i clock authResult).mono hsub
  | reload => exact h.reload.mono hsub
  | expire =>
    refine Inv.mono ⟨h.history, fun t ht => ?_, h.waiting, h.apart, h.pending⟩ hsub
    rcases ht with ht | ht
    · exact h.slot t (Or.inl ht)
    · cases ht

/-- **A run** keeps the invariant when all strings drawn in it are distinct. -/
theorem run_inv (hclient : OptionalText (c.options.get "redirect_uri")) (ops : List SessionOp)
    (hdraws : (ops.flatMap SessionOp.draws).Nodup) (huri : ∀ op ∈ ops, op.UriTyped) :
    ((machine c b).run {} ops).Inv c b (ops.flatMap SessionOp.draws) := by
  refine Machine.run_history
    (P := fun past s => Session.Inv c b (past.flatMap SessionOp.draws) s) inv_empty ops ?_
  intro past op s hpast h
  have hmem : op ∈ ops := hpast.subset (by simp)
  have hflat : (past ++ [op]).flatMap SessionOp.draws = past.flatMap SessionOp.draws ++ op.draws := by
    simp
  have hnodup : (past.flatMap SessionOp.draws ++ op.draws).Nodup := by
    rw [← hflat]
    obtain ⟨rest, hrest⟩ := hpast
    rw [← hrest, List.flatMap_append] at hdraws
    exact (List.nodup_append.mp hdraws).1
  rw [hflat]
  refine h.step op (fun v hv hold => ?_) hclient (huri op hmem)
  exact (List.nodup_append.mp hnodup).2.2 v hold v hv rfl

/-- **Code exchanges are bound.** In every run of a client, each code exchange
belongs to exactly one flow started before it: it sends that flow's verifier,
not sent before, in answer to that flow's state and with its redirect URI; a
redirect's exchange belongs to the last redirect; and what is cached for it
carries the flow's nonce. -/
theorem exchange_bound (hclient : OptionalText (c.options.get "redirect_uri"))
    (ops : List SessionOp) (hdraws : (ops.flatMap SessionOp.draws).Nodup)
    (huri : ∀ op ∈ ops, op.UriTyped) {before after : List Event} {x : Exchange}
    (hcut : ((machine c b).run {} ops).history = before ++ .exchange x :: after) :
    ∃! f, Binds before ((machine c b).run {} ops).history f x := by
  have hok := (run_inv (b := b) hclient ops hdraws huri).history
  have hwhole : ∀ f, Event.start f ∈ before → Event.start f ∈ ((machine c b).run {} ops).history := by
    intro f hf
    rw [hcut]
    exact List.mem_append_left _ hf
  obtain ⟨f, hf, howns, hunused, hrecent⟩ := hok.bound before x after hcut
  refine ⟨f, ⟨hf, howns, hunused, hrecent, fun e he => ?_⟩, fun f' hf' => ?_⟩
  · obtain ⟨f', hstart, hv, hnonce⟩ := hok.cached x e he
    obtain rfl := hok.distinct f f' (hwhole f hf) hstart
      (Value.str.inj (howns.verifier.symm.trans hv))
    exact hnonce
  · exact hok.distinct f' f (hwhole f' hf'.started) (hwhole f hf)
      (Value.str.inj (hf'.owns.verifier.symm.trans howns.verifier))

/-! ## One popup login -/

def popupClient : AuthokClient where
  options := [("client_id", .str "client"), ("domain", .str "idp")]

def popupBrowser : Browser := ⟨"https://app", fun _ => []⟩

/-- Random values that are all the same. -/
def constantValues (v : UInt8) : RandomValues := ⟨List.replicate 43 v, List.length_replicate⟩

def popupDraws : Draws := ⟨constantValues 0, constantValues 1, constantValues 2⟩

/-- A popup login and a response with its state. -/
def popupRun : List SessionOp :=
  [.loginWithPopup [] popupDraws,
    .response 0 [("state", .str popupDraws.secrets.stateIn), ("code", .str "code")]]

/-- A flow that waits and a response with its state make an exchange. -/
theorem history_await_response (w : Waiting) (code : Value) {url : String}
    (hurl : c.authorizeUrl (w.query c b) = some url) :
    ((await c b {} w).response c b 0 [("state", .str w.secrets.stateIn), ("code", code)]).history =
      [.start ⟨w.flow, w.secrets, w.query c b, url⟩] ++
        .exchange ⟨w.flow, .str w.secrets.stateIn, w.tokenOptions c b code⟩ :: [] := by
  have hawait : await c b {} w =
      { waiting := [w], history := [.start ⟨w.flow, w.secrets, w.query c b, url⟩] } := by
    unfold Session.await
    rw [hurl]
    rfl
  have hstate : (Value.str w.secrets.stateIn).strictEq (Js.Obj.get
      [("state", .str w.secrets.stateIn), ("code", code)] "state") = true :=
    (Value.strictEq_str _ _).mpr rfl
  rw [hawait]
  simp only [Session.response, List.getElem?_cons_zero, hstate]
  rfl

theorem exchange_bound_popup :
    ∃ before x after,
      ((machine popupClient popupBrowser).run {} popupRun).history =
        before ++ .exchange x :: after ∧
      ∃! f, Binds before ((machine popupClient popupBrowser).run {} popupRun).history f x := by
  have hinfo : clientInfo (popupClient.options.get "authokClient") = some plainInfo :=
    clientInfo_undefined
  obtain ⟨url, hurl⟩ : ∃ url, popupClient.authorizeUrl
      ((Waiting.popup [] popupDraws.secrets).query popupClient popupBrowser) = some url := by
    unfold AuthokClient.authorizeUrl
    rw [hinfo]
    exact ⟨_, rfl⟩
  have hcut := history_await_response (.popup [] popupDraws.secrets) (.str "code") hurl
  refine ⟨_, _, _, hcut, exchange_bound (Or.inl rfl) popupRun ?_ ?_ hcut⟩
  · decide +kernel
  · intro op hop
    rcases List.mem_cons.mp hop with rfl | hop
    · trivial
    · obtain rfl := List.mem_singleton.mp hop
      trivial

end Session

end AuthokSpa
