import AuthokSpa.Client.Calls
import AuthokSpa.Client.Provider
import AuthokSpa.Fibers
import Mathlib.Data.FinEnum
import Mathlib.Data.Fintype.Vector

/-!
# A state that is guessed (`AuthokClient.ts`, `utils.ts`)

The state is all that tells the answer of the server from one that somebody else has made
up. A popup takes messages of any origin, and the redirect URI can be opened by any page.

`createRandomString` maps 43 bytes to 66 characters. That is not uniform, but no string
comes from more than `4 ^ 43` of the `256 ^ 43` draws. So an answer that was chosen without
the state gets past the check for no more than these, in a popup and in an iframe
(`forged_message`), and also by the redirect, however many callbacks are tried: the first
one that can be read uses the transaction up (`forged_callbacks`).
-/

namespace AuthokSpa

open Js (Value Obj ProtoObj)
open Follow (bind_ok bind_error)

/-! ## Draws -/

/-- The draws are the vectors of bytes. -/
def RandomValues.vector : RandomValues ≃ List.Vector UInt8 43 where
  toFun v := ⟨v.bytes, v.size⟩
  invFun v := ⟨v.1, v.2⟩

theorem finite_draws (s : Set RandomValues) : s.Finite :=
  have : Finite RandomValues := Finite.of_equiv _ RandomValues.vector.symm
  Set.toFinite s

theorem card_randomValues : Nat.card RandomValues = 256 ^ 43 := by
  have hbyte : Fintype.card UInt8 = 256 := FinEnum.card_eq_fintypeCard.symm
  rw [Nat.card_congr RandomValues.vector, Nat.card_eq_fintype_card, card_vector, hbyte]

/-- The character for a byte. -/
def pick (v : UInt8) : Char := charset.getD (v.toNat % charset.length) '0'

theorem charset_length : charset.length = 66 := by decide

theorem charset_nodup : charset.Nodup := by decide

/-- Bytes with the same character have the same remainder. -/
theorem mod_of_pick {v v' : UInt8} (h : pick v = pick v') : v.toNat % 66 = v'.toNat % 66 := by
  unfold pick at h
  rw [charset_length] at h
  have hv : v.toNat % 66 < charset.length := by rw [charset_length]; omega
  have hv' : v'.toNat % 66 < charset.length := by rw [charset_length]; omega
  rw [← List.getElem_eq_getD (h := hv), ← List.getElem_eq_getD (h := hv')] at h
  exact (charset_nodup.getElem_inj_iff).mp h

theorem fiber_pick (c : Char) : (Fibers.fiber pick c).ncard ≤ 4 := by
  have hmaps : ∀ v ∈ Fibers.fiber pick c, v.toNat / 66 ∈ (Finset.range 4 : Set ℕ) := by
    intro v _
    have hlt := v.toNat_lt
    rw [Finset.mem_coe, Finset.mem_range]
    omega
  have hinj : Set.InjOn (fun v : UInt8 => v.toNat / 66) (Fibers.fiber pick c) := by
    intro v hv v' hv' hdiv
    have hmod := mod_of_pick (Eq.trans hv (Eq.symm hv'))
    dsimp only at hdiv
    exact UInt8.toNat_inj.mp (by omega)
  have hle := Set.ncard_le_ncard_of_injOn _ hmaps hinj (Finset.finite_toSet _)
  rwa [Set.ncard_coe_finset, Finset.card_range] at hle

/-- **A string comes from few draws.** -/
theorem ncard_createRandomString_le (s : String) :
    {v : RandomValues | createRandomString v = s}.ncard ≤ 4 ^ 43 := by
  by_cases hlen : s.toList.length = 43
  · have hfinite : ∀ c, (Fibers.fiber pick c).Finite := fun c => Set.toFinite _
    have hmaps : ∀ v ∈ {v : RandomValues | createRandomString v = s},
        v.bytes ∈ Fibers.lists pick s.toList := by
      rintro v rfl
      show v.bytes.map pick = (createRandomString v).toList
      unfold createRandomString
      rw [String.toList_ofList]
      rfl
    have hinj : Set.InjOn RandomValues.bytes {v : RandomValues | createRandomString v = s} := by
      rintro ⟨bytes, size⟩ - ⟨bytes', size'⟩ - hbytes
      obtain rfl : bytes = bytes' := hbytes
      rfl
    calc {v : RandomValues | createRandomString v = s}.ncard
        ≤ (Fibers.lists pick s.toList).ncard :=
          Set.ncard_le_ncard_of_injOn _ hmaps hinj (Fibers.finite_lists hfinite _)
      _ ≤ 4 ^ s.toList.length := Fibers.ncard_lists_le hfinite fiber_pick _
      _ = 4 ^ 43 := by rw [hlen]
  · have hnone : {v : RandomValues | createRandomString v = s} = ∅ := by
      rw [Set.eq_empty_iff_forall_notMem]
      rintro v rfl
      exact hlen (createRandomString_length v)
    rw [hnone, Set.ncard_empty]
    exact Nat.zero_le _

/-! ## States -/

/-- What `btoa` has read is in its result. -/
theorem btoa_reads {t s : String} (h : Js.btoa t = some s) :
    ∃ bytes, s = String.ofList (Js.btoaChars bytes) ∧
      t.toList = bytes.map fun b => Char.ofNat b.toNat := by
  unfold Js.btoa at h
  split at h
  next hlatin =>
    refine ⟨_, (Option.some.inj h).symm, ?_⟩
    rw [List.map_map]
    have hsame : ∀ c ∈ t.toList,
        ((fun b : UInt8 => Char.ofNat b.toNat) ∘ fun c => UInt8.ofNat c.toNat) c = id c := by
      intro c hc
      have hlt : c.toNat < 256 := of_decide_eq_true (List.all_eq_true.mp hlatin c hc)
      show Char.ofNat (c.toNat % 256) = c
      rw [Nat.mod_eq_of_lt hlt, Char.ofNat_toNat]
    rw [List.map_congr_left hsame, List.map_id]
  · cases h

theorem btoa_inj {t t' s : String} (h : Js.btoa t = some s) (h' : Js.btoa t' = some s) : t = t' := by
  obtain ⟨bytes, hs, hbytes⟩ := btoa_reads h
  obtain ⟨bytes', hs', hbytes'⟩ := btoa_reads h'
  have hchars : Js.btoaChars bytes = Js.btoaChars bytes' := String.ofList_inj.mp (hs.symm.trans hs')
  have hsame := Js.atob_urlChars bytes
  rw [hchars, Js.atob_urlChars] at hsame
  rw [← String.toList_inj, hbytes, hbytes', Option.some.inj hsame]

/-- **A state comes from few draws.** -/
theorem ncard_state_le (state : String) :
    {v : RandomValues | encode (createRandomString v) = state}.ncard ≤ 4 ^ 43 := by
  have hbtoa : ∀ v, Js.btoa (createRandomString v) = some (encode (createRandomString v)) := by
    intro v
    unfold encode Js.btoa
    rw [if_pos (createRandomString_latin v)]
    rfl
  by_cases hany : ∃ v, encode (createRandomString v) = state
  · obtain ⟨v₀, rfl⟩ := hany
    have hsub : {v : RandomValues | encode (createRandomString v) = encode (createRandomString v₀)} ⊆
        {v | createRandomString v = createRandomString v₀} := by
      intro v hv
      exact btoa_inj (hbtoa v) ((hbtoa v₀).trans (congrArg some (Eq.symm hv)))
    exact (Set.ncard_le_ncard hsub (finite_draws _)).trans (ncard_createRandomString_le _)
  · have hnone : {v : RandomValues | encode (createRandomString v) = state} = ∅ :=
      Set.eq_empty_iff_forall_notMem.mpr fun v hv => hany ⟨v, hv⟩
    rw [hnone, Set.ncard_empty]
    exact Nat.zero_le _

/-- Draws that all have one state are few. -/
theorem ncard_le_of_same {P : RandomValues → Prop}
    (h : ∀ v v', P v → P v' → encode (createRandomString v) = encode (createRandomString v')) :
    {v | P v}.ncard ≤ 4 ^ 43 := by
  by_cases hany : ∃ v₀, P v₀
  · obtain ⟨v₀, hv₀⟩ := hany
    exact (Set.ncard_le_ncard (fun v hv => h v v₀ hv hv₀) (finite_draws _)).trans (ncard_state_le _)
  · have hnone : {v | P v} = ∅ := Set.eq_empty_iff_forall_notMem.mpr fun v hv => hany ⟨v, hv⟩
    rw [hnone, Set.ncard_empty]
    exact Nat.zero_le _

/-! ## Calls that ask for nothing -/

/-- Whatever comes from outside, the call fails in the same way: it does not get to ask
for it. -/
def AsksNothing {ι ε σ α : Type} (x : ι → EStateM ε σ α) (s : σ) : Prop :=
  ∃ e s', ∀ i, x i s = .error e s'

section Rules

variable {ι ε σ α β : Type} {x : ι → EStateM ε σ α} {f : ι → α → EStateM ε σ β} {s s' : σ}

theorem AsksNothing.bind (h : AsksNothing x s) : AsksNothing (fun i => x i >>= f i) s := by
  obtain ⟨e, s', he⟩ := h
  exact ⟨e, s', fun i => bind_error (he i)⟩

theorem AsksNothing.after {y : EStateM ε σ α} {a : α} (hy : y s = .ok a s')
    (h : AsksNothing (fun i => f i a) s') : AsksNothing (fun i => y >>= f i) s := by
  obtain ⟨e, t, he⟩ := h
  exact ⟨e, t, fun i => (bind_ok hy).trans (he i)⟩

theorem asksNothing_of_error {y : EStateM ε σ α} {e : ε} (hy : y s = .error e s') :
    AsksNothing (fun i => y >>= f i) s :=
  ⟨e, s', fun _ => bind_error hy⟩

theorem AsksNothing.tryCatch {handle : ε → EStateM ε σ α}
    (hhandle : ∀ e s, ∃ e' s', handle e s = .error e' s') (h : AsksNothing x s) :
    AsksNothing (fun i => tryCatch (x i) handle) s := by
  obtain ⟨e, t, he⟩ := h
  obtain ⟨e', t', he'⟩ := hhandle e t
  refine ⟨e', t', fun i => ?_⟩
  show EStateM.tryCatch (x i) handle s = _
  unfold EStateM.tryCatch
  rw [show x i s = _ from he i]
  exact he'

end Rules

/-! ## Messages -/

/-- A popup whose state was not met asks for nothing. -/
theorem popup_state {J : Type} {A : CookieApi J} {S : Setup} {options : Obj} {popup : Bool}
    {d : Draws} {events : List Windows.Popup.Event} {s : ClientData J}
    (h : ¬ AsksNothing (fun out => Login.loginWithPopup A S out options popup d events) s) :
    ∃ codeResult, (Windows.Popup.runPopup events).promise = some (.resolved codeResult) ∧
      Windows.member codeResult "state" = .str d.secrets.stateIn := by
  unfold Login.loginWithPopup at h
  cases hopen : Login.openUrl S popup (S.client.popupQuery S.browser options d.secrets) s with
  | error e s' => exact absurd (asksNothing_of_error hopen) h
  | ok a s' =>
    replace h := fun hn => h (AsksNothing.after hopen hn)
    cases hwait : Login.awaitPopup events s' with
    | error e s'' => exact absurd (asksNothing_of_error hwait) h
    | ok codeResult s'' =>
      replace h := fun hn => h (AsksNothing.after hwait hn)
      cases hcheck : Login.checkState d.secrets.stateIn codeResult s'' with
      | error e s₃ => exact absurd (asksNothing_of_error hcheck) h
      | ok a s₃ =>
        refine ⟨codeResult, ?_, ?_⟩
        · unfold Login.awaitPopup at hwait
          cases hpromise : (Windows.Popup.runPopup events).promise with
          | none =>
            rw [hpromise] at hwait
            cases hwait
          | some r =>
            rw [hpromise] at hwait
            cases r with
            | rejected e => cases hwait
            | resolved r => cases hwait; rfl
        · unfold Login.checkState at hcheck
          split at hcheck
          next heq => exact Value.str_strictEq heq
          · cases hcheck

theorem iframeFailed_error (S : Setup) (reason : Unresolved) (t : Tab) :
    ∃ e t', Calls.iframeFailed S reason t = .error e t' := by
  cases reason with
  | pending => exact ⟨_, _, rfl⟩
  | rejected error =>
    unfold Calls.iframeFailed
    dsimp only
    split
    · exact ⟨_, _, rfl⟩
    · exact ⟨_, _, rfl⟩

theorem iframeTokens_refused {S : Setup} {w : Surroundings} {options : Obj} {x : Secrets} {t : Tab}
    (h : ∀ r, (Windows.Iframe.runIframe S.client.domainUrl w.events).promise = some (.resolved r) →
      Windows.member r "state" ≠ .str x.stateIn) :
    ∃ e, ∀ w' : Surroundings, w'.crossOriginIsolated = w.crossOriginIsolated →
      w'.events = w.events → Calls.iframeTokens S w' options x t = .error e t := by
  unfold Calls.iframeTokens
  cases hisolated : w.crossOriginIsolated with
  | true =>
    refine ⟨.rejected (.str "login_required"), fun w' hw' _ => ?_⟩
    rw [hw']
    rfl
  | false =>
    cases hpromise : (Windows.Iframe.runIframe S.client.domainUrl w.events).promise with
    | none =>
      refine ⟨.pending, fun w' hw' hevents => ?_⟩
      have hwait : Calls.awaitIframe S w' t = .error .pending t := by
        unfold Calls.awaitIframe
        rw [hevents, hpromise]
        rfl
      rw [hw', if_neg Bool.false_ne_true, bind_error hwait]
    | some r =>
      cases r with
      | rejected e =>
        refine ⟨.rejected e.error, fun w' hw' hevents => ?_⟩
        have hwait : Calls.awaitIframe S w' t = .error (.rejected e.error) t := by
          unfold Calls.awaitIframe
          rw [hevents, hpromise]
          rfl
        rw [hw', if_neg Bool.false_ne_true, bind_error hwait]
      | resolved r =>
        have hstate : (Value.str x.stateIn).strictEq (Windows.member r "state") = false :=
          Bool.eq_false_iff.mpr fun heq => h r hpromise (Value.str_strictEq heq)
        refine ⟨.rejected .undefined, fun w' hw' hevents => ?_⟩
        have hwait : Calls.awaitIframe S w' t = .ok r t := by
          unfold Calls.awaitIframe
          rw [hevents, hpromise]
          rfl
        rw [hw', if_neg Bool.false_ne_true, bind_ok hwait, hstate]
        rfl

/-- Nor does such an iframe. -/
theorem iframe_state {S : Setup} {w : Surroundings} {options : Obj} {t : Tab}
    (h : ¬ AsksNothing
      (fun answer => Calls.getTokenFromIFrame S { w with exchangeAnswer := answer } options) t) :
    ∃ codeResult,
      (Windows.Iframe.runIframe S.client.domainUrl w.events).promise = some (.resolved codeResult) ∧
        Windows.member codeResult "state" = .str w.draws.secrets.stateIn := by
  by_contra hnone
  unfold Calls.getTokenFromIFrame at h
  dsimp only at h
  cases hurl : S.client.authorizeUrl
      (S.client.iframeQuery S.browser options w.draws.secrets w.orgIdHint) with
  | none =>
    rw [hurl] at h
    exact h ⟨_, _, fun _ => rfl⟩
  | some url =>
    rw [hurl] at h
    obtain ⟨e, he⟩ := @iframeTokens_refused S w options w.draws.secrets t
      fun r hr hstate => hnone ⟨r, hr, hstate⟩
    exact h (AsksNothing.tryCatch (iframeFailed_error S) ⟨e, t, fun answer => he _ rfl rfl⟩)

/-- The same draws but for the state. -/
def Draws.withState (d : Draws) (v : RandomValues) : Draws := { d with forState := v }

def Surroundings.withState (w : Surroundings) (v : RandomValues) : Surroundings :=
  { w with draws := w.draws.withState v }

/-- **A forged message.** The messages that reach a popup or an iframe are chosen without
the state, by whatever windows. A token is asked for in at most `4 ^ 43` of the
`256 ^ 43` draws. -/
theorem forged_message {J : Type} (A : CookieApi J) (S : Setup) (options : Obj) :
    Nat.card RandomValues = 256 ^ 43 ∧
    (∀ popup d events s, {v | ¬ AsksNothing (fun out =>
      Login.loginWithPopup A S out options popup (Draws.withState d v) events) s}.ncard ≤ 4 ^ 43) ∧
    ∀ w t, {v | ¬ AsksNothing (fun answer => Calls.getTokenFromIFrame S
      { Surroundings.withState w v with exchangeAnswer := answer } options) t}.ncard ≤ 4 ^ 43 := by
  have hsame : ∀ {promise : Option Windows.Settled} {r r' : Value} {state state' : String},
      promise = some (.resolved r) ∧ Windows.member r "state" = .str state →
      promise = some (.resolved r') ∧ Windows.member r' "state" = .str state' → state = state' := by
    rintro promise r r' state state' ⟨rfl, hstate⟩ ⟨hr, hstate'⟩
    cases hr
    exact Value.str.inj (hstate.symm.trans hstate')
  refine ⟨card_randomValues, fun popup d events s => ncard_le_of_same fun v v' hv hv' => ?_,
    fun w t => ncard_le_of_same fun v v' hv hv' => ?_⟩
  · obtain ⟨r, hr⟩ := popup_state hv
    obtain ⟨r', hr'⟩ := popup_state hv'
    exact hsame hr hr'
  · obtain ⟨r, hr⟩ := iframe_state hv
    obtain ⟨r', hr'⟩ := iframe_state hv'
    exact hsame hr hr'

/-! ## Callbacks -/

namespace Login

variable {J : Type}

/-- What a call leaves. -/
def left {α : Type} : EStateM.Result Stopped (ClientData J) α → ClientData J
  | .ok _ s => s
  | .error _ s => s

variable (A : CookieApi J) (S : Setup)

/-- One of the callbacks, tried one after the other, gets to ask for tokens. -/
def SomeAsks : List (String × Outside) → ClientData J → Prop
  | [], _ => False
  | (url, out) :: rest, s =>
    ¬ AsksNothing (fun out => handleRedirectCallback A S out url) s ∨
      SomeAsks rest (left (handleRedirectCallback A S out url s))

/-- The state of the first callback that can be read. -/
def firstState : List (String × Outside) → Value
  | [] => .undefined
  | (url, _) :: rest =>
    match callbackParams url with
    | none => firstState rest
    | some params => params.get "state"

variable {A S} {url : String} {params : ProtoObj} {t : AuthokClient.Transaction} {s : ClientData J}

theorem readUrl_none (h : callbackParams url = none) (s : ClientData J) :
    ∃ e, readUrl url s = .error e s := by
  unfold readUrl
  rw [h]
  dsimp only
  split
  · exact ⟨_, rfl⟩
  · exact ⟨_, rfl⟩

theorem readUrl_some (h : callbackParams url = some params) (s : ClientData J) :
    readUrl url s = .ok params s := by
  unfold readUrl
  rw [h]
  rfl

theorem takeTransaction_gone (hs : s.transaction = none) :
    takeTransaction s = .error (.rejected (.error "Invalid state, transaction not found")) s := by
  have hget : (get : LoginM J (ClientData J)) s = .ok s s := rfl
  unfold takeTransaction
  rw [bind_ok hget, hs]
  rfl

theorem checkCallback_cases (params : ProtoObj) (t : AuthokClient.Transaction)
    (s : ClientData J) :
    (∃ e, checkCallback params t s = .error e s) ∨
      (checkCallback params t s = .ok ⟨⟩ s ∧
        (t.state.truthy = true → t.state.strictEq (params.get "state") = true)) := by
  unfold checkCallback
  split
  · exact Or.inl ⟨_, rfl⟩
  · split
    · exact Or.inl ⟨_, rfl⟩
    next hmatches =>
      have hboth : t.code_verifier.truthy = true ∧
          (t.state.truthy = true → t.state.strictEq (params.get "state") = true) := by
        simpa using hmatches
      exact Or.inr ⟨rfl, hboth.2⟩

/-- Without a transaction nothing comes of a callback. -/
theorem callback_gone (hs : s.transaction = none) (url : String) :
    ∃ e, ∀ out, handleRedirectCallback A S out url s = .error e s := by
  unfold handleRedirectCallback
  cases hparams : callbackParams url with
  | none =>
    obtain ⟨e, he⟩ := readUrl_none hparams s
    exact ⟨e, fun out => bind_error he⟩
  | some params =>
    exact ⟨_, fun out => (bind_ok (readUrl_some hparams s)).trans
      (bind_error (takeTransaction_gone hs))⟩

theorem not_someAsks_gone (hs : s.transaction = none) (attempts : List (String × Outside)) :
    ¬ SomeAsks A S attempts s := by
  induction attempts with
  | nil => exact id
  | cons a rest ih =>
    obtain ⟨e, he⟩ := callback_gone (A := A) (S := S) hs a.1
    rintro (hasks | hrest)
    · exact hasks ⟨e, s, he⟩
    · rw [he a.2] at hrest
      exact ih hrest

/-- Only the first callback that can be read counts, and its state is the one drawn. -/
theorem firstState_of_asks {state : String} (hstate : t.state = .str state)
    (htruthy : (Value.str state).truthy = true) (hs : s.transaction = some t)
    {attempts : List (String × Outside)} (h : SomeAsks A S attempts s) :
    firstState attempts = .str state := by
  induction attempts with
  | nil => exact h.elim
  | cons a rest ih =>
    obtain ⟨url, out⟩ := a
    cases hparams : callbackParams url with
    | none =>
      obtain ⟨e, he⟩ := readUrl_none hparams s
      have hleft : ∀ out, handleRedirectCallback A S out url s = .error e s :=
        fun out => bind_error he
      unfold firstState
      rw [hparams]
      rcases h with hasks | hrest
      · exact absurd ⟨e, s, hleft⟩ hasks
      · rw [hleft out] at hrest
        exact ih hrest
    | some params =>
      have hhead : ∀ out r, checkCallback params t { s with transaction := none, storage := none } =
          .error r { s with transaction := none, storage := none } →
          handleRedirectCallback A S out url s =
            .error r { s with transaction := none, storage := none } := by
        intro out r hcheck
        unfold handleRedirectCallback
        rw [bind_ok (readUrl_some hparams s), bind_ok (takeTransaction_apply hs)]
        exact bind_error hcheck
      unfold firstState
      rw [hparams]
      rcases checkCallback_cases params t { s with transaction := none, storage := none } with
        ⟨r, hcheck⟩ | ⟨-, hmatches⟩
      · -- the transaction is used up
        rcases h with hasks | hrest
        · exact absurd ⟨r, _, fun out => hhead out r hcheck⟩ hasks
        · rw [hhead out r hcheck] at hrest
          exact absurd hrest (not_someAsks_gone rfl rest)
      · rw [hstate] at hmatches
        exact Value.str_strictEq (hmatches htruthy)

end Login

/-- A client that has left for the server. -/
def departed {J : Type} (S : Setup) (options : Obj) (d : Draws) (s : ClientData J) :
    ClientData J :=
  { s with transaction := some (S.client.redirectTransaction S.browser options d.secrets) }

/-- **Forged callbacks.** However many callbacks are tried, one after the other, if they
are chosen without the state, a token is asked for in at most `4 ^ 43` of the `256 ^ 43`
draws: as many as for one. -/
theorem forged_callbacks {J : Type} (A : CookieApi J) (S : Setup) (options : Obj) (d : Draws)
    (s : ClientData J) (attempts : List (String × Outside)) :
    Nat.card RandomValues = 256 ^ 43 ∧
    {v | Login.SomeAsks A S attempts (departed S options (d.withState v) s)}.ncard ≤ 4 ^ 43 := by
  have hfirst : ∀ v, Login.SomeAsks A S attempts (departed S options (d.withState v) s) →
      Login.firstState attempts = .str (encode (createRandomString v)) := fun v hv =>
    Login.firstState_of_asks rfl (decide_eq_true (d.withState v).filled.2) rfl hv
  exact ⟨card_randomValues, ncard_le_of_same fun v v' hv hv' =>
    Value.str.inj ((hfirst v hv).symm.trans (hfirst v' hv'))⟩

end AuthokSpa
