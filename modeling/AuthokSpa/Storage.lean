import AuthokSpa.Expiring
import AuthokSpa.Js.JsonRound
import AuthokSpa.Js.OrdMap
import AuthokSpa.Machine

/-!
# Storage (`storage.ts`)

The three storages a client may use, down to the texts they keep: cookies, cookies
twice over for browsers that refuse `SameSite=None`, and `sessionStorage`.

`es-cookie` and the browser below it are not part of the repository. They are a
`CookieApi`, of which `CookieApi.Lawful` says what its users rely on: a cookie that
the browser keeps is read back until it ends, one that it refuses changes nothing,
and other names are left alone. Which cookies a browser keeps is its own affair; it
may be only those without `SameSite=None`, or only those with it.

What a storage is for is said by a store whose bindings end. For cookies of both kinds
these are two (`ClientStorage.bothSpec`), each of which has what the browser kept of it
(`legacy_storage_trace`). Where the browser keeps all cookies of a kind or none, one store
is enough, filtered by what the browser lets through (`ClientStorage.spec`), and each
storage refines it.
-/

namespace AuthokSpa

open Js (Value OrdMap IsJson)

/-! ## `es-cookie` -/

/-- A cookie as it was set. -/
structure Cookie where
  value : String
  secure : Bool
  sameSite : Value
  expires : Value

namespace Cookies

/-- `LEGACY_PREFIX`. -/
def LEGACY_PREFIX : String := "_legacy_"

/-- `JSON.stringify(value)`, as the text of a cookie. -/
def textOf (value : Value) : String :=
  match Js.stringify value with
  | some t => String.ofList t
  | none => "undefined"

/-- `options?.daysUntilExpire`, where it is set. -/
def expires (daysUntilExpire : Value) : Value :=
  if daysUntilExpire.truthy then daysUntilExpire else .undefined

end Cookies

open Cookies (LEGACY_PREFIX textOf)

/-- The binding a cookie makes when it is set at `now`; `expires` counts days. -/
def Cookie.binding (c : Cookie) (now : ℚ) : Expiring.Binding String ℚ where
  value := c.value
  ends :=
    match c.expires with
    | .num (.fin days) => some (now + days * 86400000)
    | _ => none

/-- `expires` is a number of days, or is not there. -/
def Cookie.Dated (c : Cookie) : Prop := c.expires = .undefined ∨ ∃ days, c.expires = .num (.fin days)

/-- `Cookies.get`, `Cookies.set` and `Cookies.remove` on a cookie store `J`. -/
structure CookieApi (J : Type) where
  get : J → ℚ → String → Option String
  set : J → ℚ → String → Cookie → J
  remove : J → String → J

/-- Cookies are kept as `keeps` says. -/
structure CookieApi.Lawful {J : Type} (A : CookieApi J) (keeps : String → Cookie → Bool) : Prop where
  get_kept : ∀ (j : J) (now : ℚ) (name : String) (c : Cookie), c.Dated → keeps name c = true →
    ∀ t name', A.get (A.set j now name c) t name' =
      if name = name' then (if (c.binding now).inForce t then some c.value else none)
      else A.get j t name'
  get_refused : ∀ (j : J) (now : ℚ) (name : String) (c : Cookie), c.Dated → keeps name c = false →
    ∀ t name', A.get (A.set j now name c) t name' = A.get j t name'
  get_remove : ∀ (j : J) (name : String) (t : ℚ) (name' : String),
    A.get (A.remove j name) t name' = if name = name' then none else A.get j t name'

/-! ## The storages -/

/-- `ClientStorage`: what the three storages offer, on what they keep their values
in. A `get` gives none when it throws. -/
structure ClientStorage (σ : Type) where
  get : σ → (now : ℚ) → (key : String) → Option Value
  save : σ → (now : ℚ) → (key : String) → (value daysUntilExpire : Value) → σ
  remove : σ → (key : String) → σ

section Cookies

variable {J : Type} (A : CookieApi J) (https : Bool)

/-- The cookie `CookieStorage.save` sets. -/
def plainCookie (value daysUntilExpire : Value) : Cookie where
  value := textOf value
  secure := https
  sameSite := if https then .str "none" else .undefined
  expires := Cookies.expires daysUntilExpire

/-- The cookie `CookieStorageWithLegacySameSite.save` sets before it. -/
def legacyCookie (value daysUntilExpire : Value) : Cookie where
  value := textOf value
  secure := https
  sameSite := .undefined
  expires := Cookies.expires daysUntilExpire

/-- `CookieStorage`. -/
def CookieStorage : ClientStorage J where
  get j now key :=
    match A.get j now key with
    | none => some .undefined
    | some value => Js.parse value
  save j now key value daysUntilExpire := A.set j now key (plainCookie https value daysUntilExpire)
  remove j key := A.remove j key

/-- `CookieStorageWithLegacySameSite`. -/
def CookieStorageWithLegacySameSite : ClientStorage J where
  get j now key :=
    match (CookieStorage A https).get j now key with
    | none => none
    | some value =>
      if value.truthy then some value
      else (CookieStorage A https).get j now (LEGACY_PREFIX ++ key)
  save j now key value daysUntilExpire :=
    (CookieStorage A https).save
      (A.set j now (LEGACY_PREFIX ++ key) (legacyCookie https value daysUntilExpire)) now key value
      daysUntilExpire
  remove j key :=
    (CookieStorage A https).remove ((CookieStorage A https).remove j key) (LEGACY_PREFIX ++ key)

end Cookies

/-- What `sessionStorage` holds. -/
abbrev SessionItems := OrdMap String String

/-- `SessionStorage`: `getItem` gives `null` for a name that is not there, and
`JSON.parse` reads that as `null`. -/
def SessionStorage : ClientStorage SessionItems where
  get items _ key :=
    match items.find key with
    | none => some .null
    | some value => Js.parse value
  save items _ key value _ := OrdMap.insert items key (textOf value)
  remove items key := OrdMap.erase items key

/-! ## Calls of a storage -/

/-- A call of a `ClientStorage`, at its time. -/
inductive StorageOp where
  | save (key : String) (value daysUntilExpire : Value) (now : ℚ)
  | remove (key : String)
  | get (key : String) (now : ℚ)

namespace StorageOp

def key : StorageOp → String
  | save key .. => key
  | remove key => key
  | get key _ => key

/-- `daysUntilExpire` as a point in time. -/
def lifetime (now : ℚ) (daysUntilExpire : Value) : Option ℚ :=
  match Cookies.expires daysUntilExpire with
  | .num (.fin days) => some (now + days * 86400000)
  | _ => none

theorem lifetime_days (now : ℚ) {days : ℚ} (h : days ≠ 0) :
    lifetime now (.num (.fin days)) = some (now + days * 86400000) := by
  have htruthy : (Value.num (.fin days)).truthy = true := by
    simp [Value.truthy, Js.Num.truthy, h]
  unfold lifetime Cookies.expires
  rw [if_pos htruthy]

/-- The call on a store whose bindings end. -/
def expiring : StorageOp → Expiring.Op String Value ℚ
  | save key value daysUntilExpire now => .write key (some ⟨value, lifetime now daysUntilExpire⟩)
  | remove key => .write key none
  | get key now => .read key now

end StorageOp

/-- The name of the cookie for legacy browsers. -/
def legacyName (key : String) : String := LEGACY_PREFIX ++ key

theorem legacyName_injective : Function.Injective legacyName :=
  fun _ _ h => (String.append_right_inj LEGACY_PREFIX).mp h

/-- The store a storage stands for. -/
abbrev StoredValues := Expiring.Store String Value ℚ

namespace ClientStorage

variable {σ : Type} (C : ClientStorage σ)

def machine : Machine σ StorageOp (Option Value) where
  step x op :=
    match op with
    | .save key value daysUntilExpire now =>
      (C.save x now key value daysUntilExpire, some .undefined)
    | .remove key => (C.remove x key, some .undefined)
    | .get key now => (x, C.get x now key)

/-- A store of values whose bindings end, of which only those that `sees` lets
through are read. -/
def spec (sees : Value → Bool) : Machine StoredValues StorageOp (Option Value) where
  step s op :=
    let r := Expiring.step s op.expiring
    (r.1, some ((r.2.filter sees).getD .undefined))

/-- What the browser kept under the keys, and what it kept for legacy browsers. -/
structure BothValues where
  plain : StoredValues
  legacy : StoredValues

/-- Two stores whose bindings end, in a browser that keeps cookies as `keeps` says. A
cookie that is refused leaves the one before it; a value that is falsy, or not there, is
looked for in the other store. -/
def bothSpec (keeps : String → Cookie → Bool) (https : Bool) :
    Machine BothValues StorageOp (Option Value) where
  step s op :=
    match op with
    | .save key value daysUntilExpire now =>
      let b := some ⟨value, StorageOp.lifetime now daysUntilExpire⟩
      ({ plain :=
          if keeps key (plainCookie https value daysUntilExpire) then s.plain.write key b
          else s.plain
         legacy :=
          if keeps (legacyName key) (legacyCookie https value daysUntilExpire) then
            s.legacy.write key b
          else s.legacy }, some .undefined)
    | .remove key => (⟨s.plain.write key none, s.legacy.write key none⟩, some .undefined)
    | .get key now =>
      (s, some (((s.plain.at key now).filter Value.truthy).getD
        ((s.legacy.at key now).getD .undefined)))

/-- What `C` holds stands for a store, call by call, for the calls that are `ok`. -/
structure Refines (ok : StorageOp → Prop) (sees : Value → Bool) (R : σ → StoredValues → Prop) :
    Prop where
  step : ∀ {x : σ} {s : StoredValues} {op : StorageOp}, R x s → ok op →
    R (C.machine.step x op).1 (Expiring.step s op.expiring).1
  get : ∀ {x : σ} {s : StoredValues} {key : String} {now : ℚ}, R x s → ok (.get key now) →
    C.get x now key = some (((s.at key now).filter sees).getD .undefined)

variable {C}

theorem Refines.answer {ok : StorageOp → Prop} {sees : Value → Bool} {R : σ → StoredValues → Prop}
    (h : C.Refines ok sees R) {x : σ} {s : StoredValues} {op : StorageOp} (hR : R x s) (hop : ok op) :
    (C.machine.step x op).2 = ((spec sees).step s op).2 := by
  cases op with
  | save key value daysUntilExpire now => rfl
  | remove key => rfl
  | get key now => exact h.get hR hop

/-- The answers of a storage are those of the store it stands for. -/
theorem Refines.trace {ok : StorageOp → Prop} {sees : Value → Bool} {R : σ → StoredValues → Prop}
    (h : C.Refines ok sees R) {ops : List StorageOp} (hops : ∀ op ∈ ops, ok op) {x : σ}
    {s : StoredValues} (hR : R x s) : C.machine.trace x ops = (spec sees).trace s ops :=
  Machine.trace_related (fun _ _ _ hR hop => ⟨h.step hR hop, h.answer hR hop⟩) ops _ _ hR
    (Machine.meets_of_forall _ _ fun op hop _ => hops op hop)

end ClientStorage

/-! ## One cookie -/

theorem parse_textOf {v : Value} (h : IsJson v) : Js.parse (textOf v) = some v := by
  obtain ⟨t, ht, hparse⟩ := Js.parse_stringify h
  unfold textOf
  rw [ht]
  exact hparse

/-- A number of days, or none. -/
def Days (daysUntilExpire : Value) : Prop :=
  daysUntilExpire = .undefined ∨ ∃ days, daysUntilExpire = .num (.fin days)

theorem Days.dated {daysUntilExpire : Value} (h : Days daysUntilExpire) {c : Cookie}
    (hc : c.expires = Cookies.expires daysUntilExpire) : c.Dated := by
  unfold Cookie.Dated
  rw [hc]
  unfold Cookies.expires
  split
  · exact h
  · exact Or.inl rfl

theorem Days.dated_plain {daysUntilExpire : Value} (h : Days daysUntilExpire) (https : Bool)
    (value : Value) : (plainCookie https value daysUntilExpire).Dated := h.dated rfl

theorem Days.dated_legacy {daysUntilExpire : Value} (h : Days daysUntilExpire) (https : Bool)
    (value : Value) : (legacyCookie https value daysUntilExpire).Dated :=
  h.dated rfl

section Refinement

variable {J : Type} {A : CookieApi J} {keeps : String → Cookie → Bool} {https : Bool}

/-- Reading after a cookie was set, kept or not. -/
theorem CookieApi.Lawful.get_set (hA : A.Lawful keeps) {c : Cookie} (hc : c.Dated) (j : J) (now : ℚ)
    (name : String) (t : ℚ) (name' : String) :
    A.get (A.set j now name c) t name' =
      if name = name' ∧ keeps name c = true then
        (if (c.binding now).inForce t then some c.value else none)
      else A.get j t name' := by
  cases hk : keeps name c with
  | true =>
    rw [hA.get_kept j now name c hc hk]
    by_cases hn : name = name'
    · simp [hn]
    · simp [hn]
  | false =>
    rw [hA.get_refused j now name c hc hk]
    simp

/-- A storage reads the value whose text the cookie has. -/
theorem get_of_text {j : J} {now : ℚ} {key : String} {o : Option Value}
    (htext : A.get j now key = o.map textOf) (hjson : ∀ v ∈ o, IsJson v) :
    (CookieStorage A https).get j now key = some (o.getD .undefined) := by
  unfold CookieStorage
  dsimp only
  rw [htext]
  cases o with
  | none => rfl
  | some v => exact parse_textOf (hjson v rfl)

/-! ## The cookies of a run and the stores they stand for -/

/-- A saved value is JSON and is given days or none. -/
def StorageOp.Json : StorageOp → Prop
  | .save _ value daysUntilExpire _ => IsJson value ∧ Days daysUntilExpire
  | _ => True

/-- No key of `K` is the legacy name of another one. -/
def Apart (K : String → Prop) : Prop := ∀ key key', K key → K key' → legacyName key ≠ key'

/-- The cookies named after the keys of `K` have the texts of the values that are
bound. -/
def Shows (A : CookieApi J) (name : String → String) (K : String → Prop) (j : J)
    (s : StoredValues) : Prop :=
  ∀ key, K key → ∀ t, A.get j t (name key) = (s.at key t).map textOf

/-- Only JSON values are bound. -/
def HoldsJson (K : String → Prop) (s : StoredValues) : Prop :=
  ∀ key b, K key → s key = some b → IsJson b.value

variable {plain legacy kept : Bool} {K : String → Prop} {name : String → String} {j : J}
  {s : StoredValues} {v : ClientStorage.BothValues}

/-- Only the keys of `K` matter. -/
theorem Shows.congr {s' : StoredValues} (h : Shows A name K j s)
    (hs : ∀ key, K key → s' key = s key) : Shows A name K j s' := by
  intro key hkey t
  rw [h key hkey t, Expiring.Store.at_congr (hs key hkey)]

theorem HoldsJson.congr {s' : StoredValues} (h : HoldsJson K s)
    (hs : ∀ key, K key → s' key = s key) : HoldsJson K s' := by
  intro key b hkey hb
  exact h key b hkey ((hs key hkey).symm.trans hb)

section Cookie

variable (hA : A.Lawful keeps)
include hA

/-- A cookie that the browser keeps has the text of its value; one that it refuses
changes nothing. -/
theorem Shows.set (h : Shows A name K j s) (hname : Function.Injective name) (key : String)
    {c : Cookie} (hc : c.Dated) {value : Value} (hvalue : c.value = textOf value) (now : ℚ) :
    Shows A name K (A.set j now (name key) c)
      (if keeps (name key) c then s.write key (some ⟨value, (c.binding now).ends⟩) else s) := by
  intro key' hkey' t
  rw [hA.get_set hc, h key' hkey' t]
  cases hk : keeps (name key) c with
  | false => simp
  | true =>
    simp only [and_true, if_true]
    by_cases he : key = key'
    · subst he
      rw [if_pos rfl, Expiring.Store.at_write_some, hvalue]
      show (if (c.binding now).inForce t then some (textOf value) else none) =
        (if (c.binding now).inForce t then some value else none).map textOf
      cases (c.binding now).inForce t with
      | true => rfl
      | false => rfl
    · rw [if_neg fun hn => he (hname hn), Expiring.Store.at_write_ne _ _ he]

/-- A cookie of another name. -/
theorem Shows.set_other (h : Shows A name K j s) {n : String}
    (hn : ∀ key, K key → n ≠ name key) {c : Cookie} (hc : c.Dated) (now : ℚ) :
    Shows A name K (A.set j now n c) s := by
  intro key hkey t
  rw [hA.get_set hc, if_neg fun he => hn key hkey he.1]
  exact h key hkey t

theorem Shows.remove (h : Shows A name K j s) (hname : Function.Injective name)
    (key : String) : Shows A name K (A.remove j (name key)) (s.write key none) := by
  intro key' hkey' t
  rw [hA.get_remove]
  by_cases he : key = key'
  · subst he
    rw [if_pos rfl, Expiring.Store.at_write_none]
    rfl
  · rw [if_neg fun hn => he (hname hn), Expiring.Store.at_write_ne _ _ he]
    exact h key' hkey' t

/-- A cookie that is not there is removed, or one of another name. -/
theorem Shows.remove_absent (h : Shows A name K j s) {n : String}
    (hn : ∀ key, K key → n = name key → s key = none) : Shows A name K (A.remove j n) s := by
  intro key hkey t
  rw [hA.get_remove]
  split
  next he =>
    have hnone : s.at key t = none := by
      unfold Expiring.Store.at
      rw [hn key hkey he]
    rw [hnone]
    rfl
  next => exact h key hkey t

theorem Shows.remove_other (h : Shows A name K j s) {n : String}
    (hn : ∀ key, K key → n ≠ name key) : Shows A name K (A.remove j n) s :=
  h.remove_absent hA fun key hkey he => absurd he (hn key hkey)

end Cookie

theorem holdsJson_empty : HoldsJson K Expiring.empty := by
  intro key b _ h
  cases h

theorem HoldsJson.save (h : HoldsJson K s) (key : String) {value : Value} (hvalue : IsJson value)
    (ends : Option ℚ) : HoldsJson K (s.write key (some ⟨value, ends⟩)) := by
  intro key' b hkey' hb
  by_cases hk : key = key'
  · subst hk
    rw [Expiring.Store.write_self] at hb
    rw [← Option.some.inj hb]
    exact hvalue
  · rw [Expiring.Store.write_ne _ _ hk] at hb
    exact h key' b hkey' hb

theorem HoldsJson.save_kept (h : HoldsJson K s) (key : String) {value : Value}
    (hvalue : IsJson value) (ends : Option ℚ) :
    HoldsJson K (if kept then s.write key (some ⟨value, ends⟩) else s) := by
  split
  · exact h.save key hvalue ends
  · exact h

theorem HoldsJson.remove (h : HoldsJson K s) (key : String) : HoldsJson K (s.write key none) := by
  intro key' b hkey' hb
  by_cases hk : key = key'
  · subst hk
    rw [Expiring.Store.write_self] at hb
    cases hb
  · rw [Expiring.Store.write_ne _ _ hk] at hb
    exact h key' b hkey' hb

theorem HoldsJson.at (h : HoldsJson K s) {key : String} (hkey : K key) {t : ℚ} :
    ∀ v ∈ s.at key t, IsJson v := by
  intro v hv
  obtain ⟨b, hb, -, rfl⟩ := Expiring.Store.bound_of_at hv
  exact h key b hkey hb

/-- Reading one cookie. -/
theorem Shows.get (h : Shows A name K j s) (hjson : HoldsJson K s) {key : String}
    (hkey : K key) (t : ℚ) :
    (CookieStorage A https).get j t (name key) = some ((s.at key t).getD .undefined) :=
  get_of_text (h key hkey t) fun _ hv => hjson.at hkey _ hv

/-! ## Cookies of both kinds -/

/-- The cookies of both kinds show the two stores. -/
structure HoldsBoth (A : CookieApi J) (K : String → Prop) (j : J) (v : ClientStorage.BothValues) :
    Prop where
  plain : Shows A id K j v.plain
  legacy : Shows A legacyName K j v.legacy
  plainJson : HoldsJson K v.plain
  legacyJson : HoldsJson K v.legacy

/-- A call on both cookies of a key. -/
theorem HoldsBoth.step (hA : A.Lawful keeps) (hK : Apart K) (h : HoldsBoth A K j v)
    {op : StorageOp} (hkey : K op.key) (hop : op.Json) :
    HoldsBoth A K ((CookieStorageWithLegacySameSite A https).machine.step j op).1
      ((ClientStorage.bothSpec keeps https).step v op).1 := by
  cases op with
  | get key now => exact h
  | save key value daysUntilExpire now =>
    refine ⟨?_, ?_, h.plainJson.save_kept key hop.1 _, h.legacyJson.save_kept key hop.1 _⟩
    · have hother := h.plain.set_other hA (fun key' hkey' => hK key key' hkey hkey')
        (hop.2.dated_legacy https value) now
      exact hother.set hA Function.injective_id key (hop.2.dated_plain https value) rfl now
    · have hown := h.legacy.set hA legacyName_injective key (hop.2.dated_legacy https value) rfl now
      exact hown.set_other hA (fun key' hkey' => (hK key' key hkey' hkey).symm)
        (hop.2.dated_plain https value) now
  | remove key =>
    refine ⟨?_, ?_, h.plainJson.remove key, h.legacyJson.remove key⟩
    · exact (h.plain.remove hA Function.injective_id key).remove_other hA
        fun key' hkey' => hK key key' hkey hkey'
    · exact (h.legacy.remove_other hA fun key' hkey' => (hK key' key hkey' hkey).symm).remove hA
        legacyName_injective key

/-- Reading both cookies of a key. -/
theorem HoldsBoth.get (h : HoldsBoth A K j v) {key : String} (hkey : K key) (t : ℚ) :
    (CookieStorageWithLegacySameSite A https).get j t key =
      some (((v.plain.at key t).filter Value.truthy).getD ((v.legacy.at key t).getD .undefined)) := by
  have hown : (CookieStorage A https).get j t key =
      some ((v.plain.at key t).getD .undefined) := h.plain.get h.plainJson hkey t
  have hfallback : (CookieStorage A https).get j t (LEGACY_PREFIX ++ key) =
      some ((v.legacy.at key t).getD .undefined) := h.legacy.get h.legacyJson hkey t
  unfold CookieStorageWithLegacySameSite
  dsimp only
  rw [hown, hfallback]
  cases v.plain.at key t with
  | none => rfl
  | some value =>
    rw [Option.filter_some, Option.getD_some]
    dsimp only
    split
    · rfl
    · rfl

/-- **`CookieStorageWithLegacySameSite` is two stores whose bindings end**, whatever rule
says which cookies the browser keeps, for every sequence of calls: each `get` gives the
truthy value that was last saved under the key with a cookie the browser kept, if it has
not been removed since or ended; else the one of the cookie for legacy browsers; else
`undefined`. -/
theorem legacy_storage_trace (hA : A.Lawful keeps) (hK : Apart K) {ops : List StorageOp}
    (hops : ∀ op ∈ ops, K op.key ∧ op.Json) (h : HoldsBoth A K j v) :
    (CookieStorageWithLegacySameSite A https).machine.trace j ops =
      (ClientStorage.bothSpec keeps https).trace v ops := by
  refine Machine.trace_related (R := fun v j => HoldsBoth A K j v)
    (C := fun _ op => K op.key ∧ op.Json) (fun v j op h hop => ⟨h.step hA hK hop.1 hop.2, ?_⟩)
    ops _ _ h (Machine.meets_of_forall _ _ fun op hop _ => hops op hop)
  cases op with
  | save key value daysUntilExpire now => rfl
  | remove key => rfl
  | get key now => exact h.get hop.1 now

/-! ## Browsers that treat cookies alike -/

/-- The browser keeps the cookie made by a `save`, or refuses it, as `kept` says. -/
def StorageOp.Keeps (keeps : String → Cookie → Bool) (name : String → String)
    (cookie : Value → Value → Cookie) (kept : Bool) : StorageOp → Prop
  | .save key value daysUntilExpire _ => keeps (name key) (cookie value daysUntilExpire) = kept
  | _ => True

/-- The calls of a run over the keys of `K`, in a browser that treats all plain
cookies of the run alike. -/
structure StorageOp.Fits (keeps : String → Cookie → Bool) (https plain : Bool)
    (K : String → Prop) (op : StorageOp) : Prop where
  key : K op.key
  json : op.Json
  plain : op.Keeps keeps id (plainCookie https) plain

/-- So are all the cookies for legacy browsers. -/
structure StorageOp.FitsBoth (keeps : String → Cookie → Bool) (https plain legacy : Bool)
    (K : String → Prop) (op : StorageOp) : Prop extends op.Fits keeps https plain K where
  legacy : op.Keeps keeps legacyName (legacyCookie https) legacy

/-- What a browser has of a store when it keeps all cookies or none. -/
def keptOf (kept : Bool) (s : StoredValues) : StoredValues := if kept then s else Expiring.empty

theorem keptOf_at (kept : Bool) (s : StoredValues) (key : String) (t : ℚ) :
    (keptOf kept s).at key t = (s.at key t).filter fun _ => kept := by
  cases kept with
  | true =>
    cases h : s.at key t with
    | none => exact h
    | some v => exact h
  | false =>
    rw [Option.filter_eq_none_iff.mpr fun _ _ => Bool.false_ne_true]
    rfl

theorem keptOf_save {k : Bool} (hk : k = kept) (s : StoredValues) (key : String)
    (b : Option (Expiring.Binding Value ℚ)) :
    (if k then (keptOf kept s).write key b else keptOf kept s) = keptOf kept (s.write key b) := by
  subst hk
  cases k with
  | true => rfl
  | false => rfl

theorem keptOf_remove (kept : Bool) (s : StoredValues) (key : String) :
    (keptOf kept s).write key none = keptOf kept (s.write key none) := by
  cases kept with
  | true => rfl
  | false =>
    funext key'
    show (if key = key' then none else none) = none
    split
    · rfl
    · rfl

theorem keptOf_none {key : String} (h : s key = none) : keptOf kept s key = none := by
  cases kept with
  | true => exact h
  | false => rfl

theorem HoldsJson.keptOf (h : HoldsJson K s) (kept : Bool) : HoldsJson K (keptOf kept s) := by
  cases kept with
  | true => exact h
  | false => exact holdsJson_empty

theorem holdsJson_step (h : HoldsJson K s) {op : StorageOp} (hop : op.Json) :
    HoldsJson K (Expiring.step s op.expiring).1 := by
  cases op with
  | save key value daysUntilExpire now => exact h.save key hop.1 _
  | remove key => exact h.remove key
  | get key now => exact h

/-- The values that reach a reader through `CookieStorageWithLegacySameSite`: a falsy
one counts as absent under its own name and is looked for under the legacy one. -/
def seesLegacy (plain legacy : Bool) (v : Value) : Bool := (plain && v.truthy) || legacy

/-- The plain cookies show the store. -/
structure ShowsPlain (A : CookieApi J) (plain : Bool) (K : String → Prop) (j : J)
    (s : StoredValues) : Prop where
  plain : Shows A id K j (keptOf plain s)
  json : HoldsJson K s

/-- The cookies of both kinds show the store. -/
structure ShowsBoth (A : CookieApi J) (plain legacy : Bool) (K : String → Prop) (j : J)
    (s : StoredValues) : Prop where
  plain : Shows A id K j (keptOf plain s)
  legacy : Shows A legacyName K j (keptOf legacy s)
  json : HoldsJson K s

theorem keptOf_congr {s' : StoredValues} {key : String} (h : s' key = s key) (kept : Bool) :
    keptOf kept s' key = keptOf kept s key := by
  cases kept with
  | true => exact h
  | false => rfl

theorem ShowsPlain.congr {s' : StoredValues} (h : ShowsPlain A plain K j s)
    (hs : ∀ key, K key → s' key = s key) : ShowsPlain A plain K j s' where
  plain := h.plain.congr fun key hkey => keptOf_congr (hs key hkey) plain
  json := h.json.congr hs

theorem ShowsBoth.congr {s' : StoredValues} (h : ShowsBoth A plain legacy K j s)
    (hs : ∀ key, K key → s' key = s key) : ShowsBoth A plain legacy K j s' where
  plain := h.plain.congr fun key hkey => keptOf_congr (hs key hkey) plain
  legacy := h.legacy.congr fun key hkey => keptOf_congr (hs key hkey) legacy
  json := h.json.congr hs

theorem ShowsBoth.showsPlain (h : ShowsBoth A plain legacy K j s) : ShowsPlain A plain K j s :=
  ⟨h.plain, h.json⟩

theorem ShowsBoth.holdsBoth (h : ShowsBoth A plain legacy K j s) :
    HoldsBoth A K j ⟨keptOf plain s, keptOf legacy s⟩ :=
  ⟨h.plain, h.legacy, h.json.keptOf plain, h.json.keptOf legacy⟩

/-- **`CookieStorage` keeps what the browser keeps.** -/
theorem cookies_refine (hA : A.Lawful keeps) :
    (CookieStorage A https).Refines (fun op => op.Fits keeps https plain K) (fun _ => plain)
      (ShowsPlain A plain K) where
  step {j s op} hR hop := by
    refine ⟨?_, holdsJson_step hR.json hop.json⟩
    cases op with
    | save key value daysUntilExpire now =>
      have hset := hR.plain.set hA Function.injective_id key
        (hop.json.2.dated_plain https value) rfl now
      exact (keptOf_save hop.plain s key _) ▸ hset
    | remove key =>
      have hremove := hR.plain.remove hA Function.injective_id key
      rw [keptOf_remove] at hremove
      exact hremove
    | get key now => exact hR.plain
  get {j s key now} hR hop := by
    rw [← keptOf_at]
    exact hR.plain.get (hR.json.keptOf plain) hop.key now

/-- The two stores of a browser that treats cookies alike are one. -/
theorem bothSpec_step {op : StorageOp} (hop : op.FitsBoth keeps https plain legacy K) :
    ((ClientStorage.bothSpec keeps https).step ⟨keptOf plain s, keptOf legacy s⟩ op).1 =
      ⟨keptOf plain (Expiring.step s op.expiring).1,
        keptOf legacy (Expiring.step s op.expiring).1⟩ := by
  cases op with
  | save key value daysUntilExpire now =>
    exact congrArg₂ ClientStorage.BothValues.mk (keptOf_save hop.plain s key _)
      (keptOf_save hop.legacy s key _)
  | remove key =>
    exact congrArg₂ ClientStorage.BothValues.mk (keptOf_remove plain s key)
      (keptOf_remove legacy s key)
  | get key now => rfl

theorem ShowsBoth.get (h : ShowsBoth A plain legacy K j s) {key : String} (hkey : K key) (t : ℚ) :
    (CookieStorageWithLegacySameSite A https).get j t key =
      some (((s.at key t).filter (seesLegacy plain legacy)).getD .undefined) := by
  rw [h.holdsBoth.get hkey t, keptOf_at, keptOf_at]
  unfold seesLegacy
  cases s.at key t with
  | none => rfl
  | some v =>
    cases plain with
    | false => cases legacy <;> rfl
    | true =>
      cases hv : v.truthy with
      | true => cases legacy <;> simp [Option.filter_some, hv]
      | false => cases legacy <;> simp [Option.filter_some, hv]

theorem legacyCookies_refine (hA : A.Lawful keeps) (hK : Apart K) :
    (CookieStorageWithLegacySameSite A https).Refines
      (fun op => op.FitsBoth keeps https plain legacy K) (seesLegacy plain legacy)
      (ShowsBoth A plain legacy K) where
  step {j s op} hR hop := by
    have hstep : HoldsBoth A K ((CookieStorageWithLegacySameSite A https).machine.step j op).1 _ :=
      hR.holdsBoth.step hA hK hop.key hop.json
    rw [bothSpec_step hop] at hstep
    exact ⟨hstep.plain, hstep.legacy, holdsJson_step hR.json hop.json⟩
  get hR hop := hR.get hop.key _

/-! ## Cookies in the place of `sessionStorage` -/

/-- Nothing is read after its end. -/
def InTime (s : StoredValues) : StorageOp → Prop
  | .get key now => ∀ b ∈ s key, b.inForce now = true
  | _ => True

/-- A saved value is truthy. -/
def StorageOp.Truthy : StorageOp → Prop
  | .save _ value _ _ => value.truthy = true
  | _ => True

/-- The items of `sessionStorage` are the texts of the store. -/
structure SessionShows (items : SessionItems) (s : StoredValues) : Prop where
  texts : ∀ key, items.find key = (s key).map fun b => textOf b.value
  json : HoldsJson (fun _ => True) s
  truthy : ∀ key b, s key = some b → b.value.truthy = true

theorem SessionShows.empty : SessionShows [] Expiring.empty where
  texts _ := rfl
  json := holdsJson_empty
  truthy key b h := by cases h

theorem SessionShows.step {items : SessionItems} (h : SessionShows items s) {op : StorageOp}
    (hjson : op.Json) (htruthy : op.Truthy) :
    SessionShows (SessionStorage.machine.step items op).1 (Expiring.step s op.expiring).1 := by
  refine ⟨fun key' => ?_, holdsJson_step h.json hjson, fun key' b hb => ?_⟩
  · cases op with
    | save key value daysUntilExpire now =>
      show (OrdMap.insert items key (textOf value)).find key' = _
      rw [OrdMap.find_insert]
      show _ = ((if key = key' then _ else s key').map fun b => textOf b.value)
      split
      · rfl
      · exact h.texts key'
    | remove key =>
      show (OrdMap.erase items key).find key' = _
      rw [OrdMap.find_erase]
      show _ = ((if key = key' then _ else s key').map fun b => textOf b.value)
      split
      · rfl
      · exact h.texts key'
    | get key now => exact h.texts key'
  · rw [Expiring.step_at] at hb
    cases op with
    | save key value daysUntilExpire now =>
      simp only [StorageOp.expiring, Expiring.Op.written] at hb
      split at hb
      · obtain rfl := Option.some.inj hb
        exact htruthy
      · exact h.truthy key' b hb
    | remove key =>
      simp only [StorageOp.expiring, Expiring.Op.written] at hb
      split at hb
      · cases hb
      · exact h.truthy key' b hb
    | get key now => exact h.truthy key' b hb

/-- A value in force that the browser lets through is the one `sessionStorage` has. -/
theorem SessionShows.get {items : SessionItems} (h : SessionShows items s)
    (hkept : (plain || legacy) = true) {key : String} {now : ℚ}
    (hin : ∀ b ∈ s key, b.inForce now = true) :
    some (((s.at key now).filter (seesLegacy plain legacy)).getD .undefined) =
      (SessionStorage.get items now key).map fun v => v.or .undefined := by
  unfold SessionStorage Expiring.Store.at
  dsimp only
  rw [h.texts key]
  cases hb : s key with
  | none => rfl
  | some b =>
    have htruthy := h.truthy key b hb
    have hsees : seesLegacy plain legacy b.value = true := by
      unfold seesLegacy
      rw [htruthy, Bool.and_true]
      exact hkept
    simp only [hin b hb, if_true, Option.map_some, Option.filter_some, hsees, Option.getD_some,
      parse_textOf (h.json key b trivial hb)]
    unfold Value.or
    rw [if_pos htruthy]

/-- **Cookies do in the place of `sessionStorage`**: in every run that saves truthy
values and reads nothing after its end, in a browser that keeps one cookie of the
two, every `get` gives what `sessionStorage` would give, up to `null` for a value
that is not there. -/
theorem storages_agree (hA : A.Lawful keeps) (hK : Apart K) {ops : List StorageOp}
    (hops : ∀ op ∈ ops, op.FitsBoth keeps https plain legacy K) (htruthy : ∀ op ∈ ops, op.Truthy)
    (hkept : (plain || legacy) = true) (hclean : ShowsBoth A plain legacy K j Expiring.empty)
    (htime : (ClientStorage.spec (seesLegacy plain legacy)).Meets InTime Expiring.empty ops) :
    (CookieStorageWithLegacySameSite A https).machine.trace j ops =
      (SessionStorage.machine.trace [] ops).map fun x => (x.1, x.2.map fun v => v.or .undefined) := by
  rw [(legacyCookies_refine hA hK).trace hops hclean]
  have hstep : ∀ (s : StoredValues) (items : SessionItems)
      (op : StorageOp), SessionShows items s → (op.Json ∧ op.Truthy) ∧ InTime s op →
      SessionShows (SessionStorage.machine.step items op).1
          ((ClientStorage.spec (seesLegacy plain legacy)).step s op).1 ∧
        ((ClientStorage.spec (seesLegacy plain legacy)).step s op).2 =
          (SessionStorage.machine.step items op).2.map fun v => v.or .undefined := by
    intro s items op hR hop
    refine ⟨hR.step hop.1.1 hop.1.2, ?_⟩
    cases op with
    | save key value daysUntilExpire now => rfl
    | remove key => rfl
    | get key now => exact hR.get hkept hop.2
  have hgood := Machine.meets_of_forall (M := ClientStorage.spec (seesLegacy plain legacy))
    (C := fun _ op => op.Json ∧ op.Truthy) Expiring.empty
    fun op hop _ => ⟨(hops op hop).json, htruthy op hop⟩
  exact Machine.trace_mapped hstep ops _ _ SessionShows.empty (Machine.meets_and _ hgood htime)

end Refinement

/-! ## A browser -/

/-- A cookie store whose browser keeps cookies as `keeps` says. -/
def CookieApi.browser (keeps : String → Cookie → Bool) :
    CookieApi (Expiring.Store String String ℚ) where
  get jar now name := jar.at name now
  set jar now name c := if keeps name c then jar.write name (some (c.binding now)) else jar
  remove jar name := jar.write name none

theorem CookieApi.browser_lawful (keeps : String → Cookie → Bool) :
    (CookieApi.browser keeps).Lawful keeps where
  get_kept jar now name c _ hk t name' := by
    show Expiring.Store.at (if keeps name c then _ else jar) name' t = _
    rw [if_pos hk]
    by_cases hn : name = name'
    · subst hn
      rw [if_pos rfl, Expiring.Store.at_write_some]
      rfl
    · rw [if_neg hn, Expiring.Store.at_write_ne _ _ hn]
      rfl
  get_refused jar now name c _ hk t name' := by
    show Expiring.Store.at (if keeps name c then _ else jar) name' t = _
    rw [if_neg (by simp [hk])]
    rfl
  get_remove jar name t name' := by
    show Expiring.Store.at (jar.write name none) name' t = _
    by_cases hn : name = name'
    · subst hn
      rw [if_pos rfl, Expiring.Store.at_write_none]
    · rw [if_neg hn, Expiring.Store.at_write_ne _ _ hn]
      rfl

/-- An old browser: it refuses `SameSite=None`. -/
def refusesNone (_ : String) (c : Cookie) : Bool := c.sameSite.isUndefined

/-- A value saved twice, read in between, removed. -/
def sampleCalls : List StorageOp :=
  [.save "txs" (.str "first") (.num (.fin 1)) 0, .get "txs" 5,
    .save "txs" (.str "second") (.num (.fin 1)) 10, .get "txs" 20, .remove "txs", .get "txs" 30]

theorem apart_single {key : String} (h : legacyName key ≠ key) : Apart fun k => k = key := by
  rintro k k' rfl rfl
  exact h

theorem sampleCalls_fit : ∀ op ∈ sampleCalls,
    op.FitsBoth refusesNone true false true fun k => k = "txs" := by
  have hdays : Days (.num (.fin 1)) := Or.inr ⟨1, rfl⟩
  simp only [sampleCalls, List.forall_mem_cons]
  refine ⟨⟨⟨rfl, ⟨trivial, hdays⟩, rfl⟩, rfl⟩, ⟨⟨rfl, trivial, trivial⟩, trivial⟩,
    ⟨⟨rfl, ⟨trivial, hdays⟩, rfl⟩, rfl⟩, ⟨⟨rfl, trivial, trivial⟩, trivial⟩,
    ⟨⟨rfl, trivial, trivial⟩, trivial⟩, ⟨⟨rfl, trivial, trivial⟩, trivial⟩, fun op h => by cases h⟩

/-- Nothing is read from cookies of which none is set. -/
theorem shows_empty {J : Type} {A : CookieApi J} {j : J} (hj : ∀ t name, A.get j t name = none)
    (name : String → String) (K : String → Prop) : Shows A name K j Expiring.empty :=
  fun key _ t => hj t (name key)

theorem keptOf_empty (kept : Bool) : keptOf kept Expiring.empty = Expiring.empty := ite_self _

theorem showsBoth_empty {J : Type} {A : CookieApi J} {j : J}
    (hj : ∀ t name, A.get j t name = none) (plain legacy : Bool) (K : String → Prop) :
    ShowsBoth A plain legacy K j Expiring.empty where
  plain := by
    rw [keptOf_empty]
    exact shows_empty hj id K
  legacy := by
    rw [keptOf_empty]
    exact shows_empty hj legacyName K
  json := holdsJson_empty

theorem browser_clean (keeps : String → Cookie → Bool) (plain legacy : Bool) (K : String → Prop) :
    ShowsBoth (CookieApi.browser keeps) plain legacy K Expiring.empty Expiring.empty :=
  showsBoth_empty (fun _ _ => rfl) plain legacy K

/-- A browser that refuses cookies of more than twelve characters. -/
def refusesLong (_ : String) (c : Cookie) : Bool := decide (c.value.length ≤ 12)

/-- The second value is too long, so the first one stays. -/
def sampleLongCalls : List StorageOp :=
  [.save "txs" (.str "first") (.num (.fin 1)) 0,
    .save "txs" (.str "much too long a value") (.num (.fin 1)) 10, .get "txs" 20]

theorem legacy_storage_sample :
    (CookieStorageWithLegacySameSite (CookieApi.browser refusesLong) true).machine.trace
        Expiring.empty sampleLongCalls =
      (ClientStorage.bothSpec refusesLong true).trace ⟨Expiring.empty, Expiring.empty⟩
        sampleLongCalls := by
  have hdays : Days (.num (.fin 1)) := Or.inr ⟨1, rfl⟩
  have hclean := shows_empty (A := CookieApi.browser refusesLong) (j := Expiring.empty)
    fun _ _ => rfl
  have hapart : Apart fun k => k = "txs" := apart_single (by decide)
  refine legacy_storage_trace (CookieApi.browser_lawful refusesLong) hapart ?_
    ⟨hclean id _, hclean legacyName _, holdsJson_empty, holdsJson_empty⟩
  simp only [sampleLongCalls, List.forall_mem_cons]
  exact ⟨⟨rfl, trivial, hdays⟩, ⟨rfl, trivial, hdays⟩, ⟨rfl, trivial⟩, fun op h => by cases h⟩

theorem storages_agree_sample :
    (CookieStorageWithLegacySameSite (CookieApi.browser refusesNone) true).machine.trace
        Expiring.empty sampleCalls =
      (SessionStorage.machine.trace [] sampleCalls).map
        fun x => (x.1, x.2.map fun v => v.or .undefined) := by
  refine storages_agree (CookieApi.browser_lawful refusesNone) (apart_single (by decide))
    sampleCalls_fit ?_ rfl (browser_clean ..) ?_
  · simp [sampleCalls, StorageOp.Truthy, Value.truthy]
  · refine ⟨trivial, ?_, trivial, ?_, trivial, ?_, trivial⟩
    · rintro b ⟨⟩
      simp [Expiring.Binding.inForce, StorageOp.lifetime_days]
      norm_num
    · rintro b ⟨⟩
      simp [Expiring.Binding.inForce, StorageOp.lifetime_days]
      norm_num
    · rintro b ⟨⟩

end AuthokSpa
