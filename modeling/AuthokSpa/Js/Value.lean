import AuthokSpa.Js.Number
import AuthokSpa.Js.OrdMap
import Mathlib.Data.List.Induction

/-!
# JavaScript values and plain objects

Untyped data (call options, a token response, the claims of a token) is a
`Value`. A plain object is its list of members in insertion order, which is the
order `Object.keys` and a spread see; integer-like names, which an engine lists
first, are not used as member names by anything modelled here.

`{...a, ...b, k: v}` is `(a.spread b).set k v`: a member that is already there
keeps its place and takes the new value. `const {x, y, ...rest} = o` is
`o.without ["x", "y"]`.
-/

namespace Js

/-- A JavaScript value. Functions are opaque: only their source text shows. -/
inductive Value where
  | undefined
  | null
  | bool (b : Bool)
  | num (n : Num)
  | str (s : String)
  | arr (xs : List Value)
  | obj (members : List (String × Value))
  | fn (source : String)

/-- The members of a plain object, in insertion order. -/
abbrev Obj := OrdMap String Value

namespace Value

/-- ToBoolean. -/
def truthy : Value → Bool
  | undefined => false
  | null => false
  | bool b => b
  | num n => n.truthy
  | str s => s ≠ ""
  | _ => true

/-- `a || b`. -/
def or (a b : Value) : Value := if a.truthy then a else b

/-- `a === b` where the result does not depend on object identity: two objects
met by the code modelled here are never the same object. -/
def strictEq : Value → Value → Bool
  | undefined, undefined => true
  | null, null => true
  | bool a, bool b => a = b
  | num a, num b => a ≠ .nan && a = b
  | str a, str b => a = b
  | _, _ => false

/-- `typeof v === 'number'`. -/
def isNumber : Value → Bool
  | num _ => true
  | _ => false

/-- `typeof v === 'undefined'`. -/
def isUndefined : Value → Bool
  | undefined => true
  | _ => false

/-- A member that is typed `number` and may be absent, read in arithmetic. -/
def asNum : Value → Num
  | num n => n
  | _ => .nan

@[simp] theorem truthy_undefined : truthy undefined = false := rfl
@[simp] theorem truthy_str (s : String) : truthy (str s) = decide (s ≠ "") := rfl
@[simp] theorem or_undefined (b : Value) : or undefined b = b := rfl

/-- `strictEq` against a string decides equality with it. -/
@[simp] theorem strictEq_str (v : Value) (s : String) : strictEq v (str s) = true ↔ v = str s := by
  cases v <;> simp [strictEq]

theorem str_strictEq {v : Value} {s : String} (h : strictEq (str s) v = true) : v = str s := by
  cases v <;> simp_all [strictEq]

theorem isNumber_iff {v : Value} : v.isNumber = true ↔ ∃ n, v = num n := by
  cases v <;> simp [isNumber]

end Value

namespace Obj

/-- Reading a member; an absent one is `undefined`. -/
def get (o : Obj) (k : String) : Value := (o.find k).getD .undefined

/-- Writing a member. -/
def set (o : Obj) (k : String) (v : Value) : Obj := o.insert k v

/-- `{...o, ...o'}`. -/
def spread (o o' : Obj) : Obj := o'.foldl (fun acc m => set acc m.1 m.2) o

/-- The rest of a destructuring that names `ks`. -/
def without (o : Obj) (ks : List String) : Obj := OrdMap.restrict (fun k => decide (k ∉ ks)) o

@[simp] theorem get_nil (k : String) : get [] k = .undefined := rfl

theorem get_set (o : Obj) (k k' : String) (v : Value) :
    get (set o k v) k' = if k = k' then v else get o k' := by
  unfold get set
  rw [OrdMap.find_insert]
  split <;> rfl

@[simp] theorem get_set_same (o : Obj) (k : String) (v : Value) : get (set o k v) k = v := by
  rw [get_set, if_pos rfl]

theorem get_set_ne {o : Obj} {k k' : String} {v : Value} (h : k ≠ k') :
    get (set o k v) k' = get o k' := by
  rw [get_set, if_neg h]

theorem spread_concat (o o' : Obj) (m : String × Value) :
    spread o (o' ++ [m]) = set (spread o o') m.1 m.2 := by
  unfold spread
  rw [List.foldl_append]
  rfl

/-- A spread reads as the spread object where that has the member, else as the
object before; of two members of one name the last counts. -/
theorem find_spread (o o' : Obj) (k : String) :
    OrdMap.find (spread o o') k = (OrdMap.find o'.reverse k).or (OrdMap.find o k) := by
  induction o' using List.reverseRecOn with
  | nil => rfl
  | append_singleton o' m ih =>
    rw [spread_concat, List.reverse_append, List.reverse_singleton, List.singleton_append,
      OrdMap.find_cons]
    unfold set
    rw [OrdMap.find_insert]
    split
    · rfl
    · exact ih

theorem get_spread (o o' : Obj) (k : String) :
    get (spread o o') k = (OrdMap.find o'.reverse k).getD (get o k) := by
  unfold get
  rw [find_spread]
  cases OrdMap.find o'.reverse k with
  | none => rfl
  | some v => rfl

theorem keysNodup_spread {o : Obj} (h : OrdMap.KeysNodup o) (o' : Obj) :
    OrdMap.KeysNodup (spread o o') := by
  induction o' using List.reverseRecOn with
  | nil => exact h
  | append_singleton o' m ih =>
    rw [spread_concat]
    exact OrdMap.keysNodup_insert ih m.1 m.2

/-- Reading a member that the spread literal gives. -/
theorem get_spread_of_find {o o' : Obj} {k : String} {v : Value}
    (h : OrdMap.find o'.reverse k = some v) : get (spread o o') k = v := by
  rw [get_spread, h]
  rfl

/-- Reading a member through a spread of an object with distinct names. -/
theorem get_spread_nodup {o o' : Obj} (hm : OrdMap.KeysNodup o') (k : String) :
    get (spread o o') k = (OrdMap.find o' k).getD (get o k) := by
  rw [get_spread, OrdMap.find_reverse hm]

/-- Reading a member that the spread literal does not give. -/
theorem get_spread_of_not_mem {o o' : Obj} {k : String} (hk : k ∉ OrdMap.keys o') :
    get (spread o o') k = get o k := by
  have hnone : OrdMap.find o'.reverse k = none := by
    rw [OrdMap.find_eq_none_iff]
    unfold OrdMap.keys at hk ⊢
    rw [List.map_reverse, List.mem_reverse]
    exact hk
  rw [get_spread, hnone]
  rfl

/-- A new member goes to the end. -/
theorem set_absent {k : String} (v : Value) : ∀ {o : Obj}, k ∉ OrdMap.keys o → set o k v = o ++ [(k, v)]
  | [], _ => rfl
  | m :: o, h => by
    rw [OrdMap.keys_cons, List.mem_cons, not_or] at h
    have ih := set_absent v h.2
    unfold set at ih ⊢
    rw [OrdMap.insert_cons, if_neg (Ne.symm h.1), ih]
    rfl

/-- Members of distinct names, set one after the other. -/
theorem spread_nodup : ∀ (ms acc : Obj), OrdMap.KeysNodup (acc ++ ms) → spread acc ms = acc ++ ms
  | [], acc, _ => by rw [List.append_nil]; rfl
  | (k, v) :: ms, acc, h => by
    have hk : k ∉ OrdMap.keys acc := by
      unfold OrdMap.KeysNodup OrdMap.keys at h
      rw [List.map_append, List.nodup_append] at h
      intro hmem
      exact h.2.2 k hmem k (by simp) rfl
    have ih := spread_nodup ms (acc ++ [(k, v)])
    rw [List.append_assoc, List.singleton_append] at ih
    show spread (set acc k v) ms = _
    rw [set_absent v hk]
    exact ih h

/-- Reading a member that the destructuring does not name. -/
theorem find_without {o : Obj} {ks : List String} {k : String} (hk : k ∉ ks) :
    OrdMap.find (without o ks) k = OrdMap.find o k :=
  OrdMap.find_restrict_of_pos (p := fun k => decide (k ∉ ks)) (by simpa using hk) o

theorem get_without {o : Obj} {ks : List String} {k : String} (hk : k ∉ ks) :
    get (without o ks) k = get o k := by
  unfold get
  rw [find_without hk]

theorem mem_keys_without {o : Obj} {ks : List String} {k : String} :
    k ∈ OrdMap.keys (without o ks) ↔ k ∈ OrdMap.keys o ∧ k ∉ ks := by
  unfold without
  rw [OrdMap.keys_restrict, List.mem_filter, decide_eq_true_iff]

/-- A member that the destructuring names is gone. -/
theorem get_without_of_mem {o : Obj} {ks : List String} {k : String} (hk : k ∈ ks) :
    get (without o ks) k = .undefined := by
  have hnone : OrdMap.find (without o ks) k = none := by
    rw [OrdMap.find_eq_none_iff, mem_keys_without]
    exact fun h => h.2 hk
  unfold get
  rw [hnone]
  rfl

theorem keysNodup_without {o : Obj} (h : OrdMap.KeysNodup o) (ks : List String) :
    OrdMap.KeysNodup (without o ks) := by
  unfold OrdMap.KeysNodup without at *
  rw [OrdMap.keys_restrict]
  exact h.filter _

/-! ### Objects that differ in some members only -/

/-- The objects are the same, order included, but for the members named `ks`. -/
def Same (ks : List String) (o o' : Obj) : Prop := without o ks = without o' ks

theorem Same.refl (ks : List String) (o : Obj) : Same ks o o := rfl

theorem without_nil (o : Obj) : without o [] = o := by
  unfold without OrdMap.restrict
  exact List.filter_eq_self.mpr fun _ _ => rfl

theorem without_without (o : Obj) (ks ks' : List String) :
    without (without o ks) ks' = without o (ks' ++ ks) := by
  unfold without OrdMap.restrict
  rw [List.filter_filter]
  refine List.filter_congr fun m _ => ?_
  simp [List.mem_append]

theorem same_without (ks : List String) (o : Obj) : Same ks o (without o ks) := by
  show without o ks = without (without o ks) ks
  unfold without OrdMap.restrict
  rw [List.filter_filter]
  refine List.filter_congr fun m _ => ?_
  exact (Bool.and_self _).symm

theorem without_comm (o : Obj) (ks ks' : List String) :
    without (without o ks) ks' = without (without o ks') ks := by
  rw [without_without, without_without]
  unfold without OrdMap.restrict
  refine List.filter_congr fun m _ => ?_
  simp [List.mem_append, and_comm]

/-- Dropping more names than the ones that differ. -/
theorem Same.drop {ks ks' : List String} {o o' : Obj} (h : Same ks o o')
    (hsub : ∀ k ∈ ks, k ∈ ks') : without o ks' = without o' ks' := by
  have hstep : ∀ a : Obj, without a ks' = without (without a ks) ks' := by
    intro a
    rw [without_without]
    unfold without OrdMap.restrict
    refine List.filter_congr fun m _ => ?_
    by_cases hm : m.1 ∈ ks
    · simp [hm, hsub m.1 hm]
    · simp [hm]
  rw [hstep o, hstep o', show without o ks = without o' ks from h]

theorem Same.mono {ks ks' : List String} {o o' : Obj} (h : Same ks o o')
    (hsub : ∀ k ∈ ks, k ∈ ks') : Same ks' o o' :=
  h.drop hsub

theorem Same.eq {o o' : Obj} (h : Same [] o o') : o = o' := by
  unfold Same at h
  rwa [without_nil, without_nil] at h

theorem Same.find {ks : List String} {o o' : Obj} (h : Same ks o o') {k : String} (hk : k ∉ ks) :
    OrdMap.find o k = OrdMap.find o' k := by
  rw [← find_without (o := o) hk, ← find_without (o := o') hk,
    show Obj.without o ks = Obj.without o' ks from h]

theorem Same.get {ks : List String} {o o' : Obj} (h : Same ks o o') {k : String} (hk : k ∉ ks) :
    get o k = get o' k := by
  unfold Obj.get
  rw [h.find hk]

theorem without_set (o : Obj) (ks : List String) (k : String) (v : Value) :
    without (set o k v) ks = if k ∈ ks then without o ks else set (without o ks) k v := by
  unfold without set
  split
  next hk => exact OrdMap.restrict_insert_of_neg (by simpa using hk) v o
  next hk => exact OrdMap.restrict_insert_of_pos (by simpa using hk) v o

theorem Same.set {ks : List String} {o o' : Obj} (h : Same ks o o') (k : String) (v : Value) :
    Same ks (set o k v) (set o' k v) := by
  unfold Same at h ⊢
  rw [without_set, without_set, h]

theorem without_spread (ks : List String) (o' : Obj) :
    ∀ o : Obj, without (spread o o') ks = spread (without o ks) (without o' ks) := by
  unfold spread
  induction o' with
  | nil => intro o; rfl
  | cons m o' ih =>
    intro o
    rw [List.foldl_cons, ih, without_set]
    have hcons : without (m :: o') ks = if m.1 ∈ ks then without o' ks else m :: without o' ks := by
      unfold without OrdMap.restrict
      rw [List.filter_cons]
      by_cases hm : m.1 ∈ ks <;> simp [hm]
    rw [hcons]
    split
    · rfl
    · rw [List.foldl_cons]

theorem Same.spread {ks : List String} {a a' b b' : Obj} (ha : Same ks a a') (hb : Same ks b b') :
    Same ks (spread a b) (spread a' b') := by
  unfold Same at ha hb ⊢
  rw [without_spread, without_spread, ha, hb]

theorem Same.without {ks : List String} {o o' : Obj} (h : Same ks o o') (ks' : List String) :
    Same ks (without o ks') (without o' ks') := by
  unfold Same at h ⊢
  rw [without_comm o, without_comm o', h]

/-- A member of a spread comes from one of the two objects. -/
theorem mem_of_mem_spread {m : String × Value} (o' : Obj) :
    ∀ {o : Obj}, m ∈ Obj.spread o o' → m ∈ o ∨ m ∈ o' := by
  unfold Obj.spread
  induction o' with
  | nil => exact fun h => Or.inl h
  | cons x o' ih =>
    intro o h
    rcases ih h with h' | h'
    · rcases OrdMap.mem_of_mem_insert h' with rfl | h''
      · exact Or.inr (List.mem_cons_self ..)
      · exact Or.inl h''
    · exact Or.inr (List.mem_cons_of_mem _ h')

end Obj

/-- An object built by member assignment from foreign names. Assigning
`__proto__` does not make a member: an object value becomes the prototype and
any other value is ignored. Reads fall through to the prototype's members. -/
structure ProtoObj where
  own : Obj
  proto : Obj := []

namespace ProtoObj

/-- `o[k] = v`. -/
def assign (o : ProtoObj) (k : String) (v : Value) : ProtoObj :=
  if k = "__proto__" then
    match v with
    | .obj ms => { o with proto := ms }
    | .null => { o with proto := [] }
    | _ => o
  else { o with own := o.own.set k v }

/-- `o[k]`, for names that `Object.prototype` does not define. -/
def get (o : ProtoObj) (k : String) : Value :=
  match o.own.find k with
  | some v => v
  | none => o.proto.get k

end ProtoObj

end Js
