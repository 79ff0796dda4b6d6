import AuthokSpa.Client.Config
import AuthokSpa.Js.JsonRound
import AuthokSpa.Jwt.Issue

/-!
# What `decode` recovers (`jwt.ts`, `utils.ts`)

`bufferToBase64UrlEncoded` writes any bytes in the URL alphabet and
`urlDecodeB64` reads the text back whose UTF-8 they are. So a token made of two
printed objects decodes to the objects (`decode_tokenOf`), as far as copying the
payload member by member keeps them: the copy starts from `__raw`, which a
member of that name replaces, and a member named `__proto__` is no member of the
copy (`recovers_iff`).
-/

namespace AuthokSpa

open Js (Value Obj ProtoObj OrdMap)

/-! ## Base64url -/

/-- The characters of the URL alphabet. -/
def isUrlSafe (c : Char) : Bool := c.isAlphanum || c = '-' || c = '_'

/-- A sextet in the URL alphabet is one of its characters. -/
theorem urlEncode_char_safe : ∀ n, n < 64 →
    ∀ c ∈ Js.urlEncodeB64 [Js.base64Char n], isUrlSafe c = true := by
  have hall : ∀ n, n < 64 → (Js.urlEncodeB64 [Js.base64Char n]).all isUrlSafe = true := by
    decide +kernel
  intro n hn
  exact List.all_eq_true.mp (hall n hn)

/-- Padding is dropped, so only sextets are left. -/
theorem mem_bufferToBase64UrlEncoded {bytes : List UInt8} {c : Char}
    (h : c ∈ (bufferToBase64UrlEncoded bytes).toList) : isUrlSafe c = true := by
  unfold bufferToBase64UrlEncoded Js.btoaChars Js.urlEncodeB64 at h
  rw [String.toList_ofList] at h
  obtain ⟨d, hd, hmap⟩ := List.mem_filterMap.mp h
  rcases List.mem_append.mp hd with hd | hd
  · obtain ⟨x, hx, rfl⟩ := List.mem_map.mp hd
    refine urlEncode_char_safe x (Js.sextets_lt _ x hx) c ?_
    exact List.mem_filterMap.mpr ⟨_, List.mem_singleton.mpr rfl, hmap⟩
  · rw [List.eq_of_mem_replicate hd] at hmap
    simp at hmap

/-- The bytes come back. -/
theorem atob_bufferToBase64UrlEncoded (bytes : List UInt8) :
    Js.atobChars (Js.urlDecodeChars (bufferToBase64UrlEncoded bytes).toList) = some bytes := by
  unfold bufferToBase64UrlEncoded
  rw [String.toList_ofList, Js.atob_urlChars]

theorem urlDecodeB64_utf8 (s : List Char) :
    urlDecodeB64 (bufferToBase64UrlEncoded (Js.utf8Encode s)) = some (String.ofList s) := by
  unfold urlDecodeB64
  rw [atob_bufferToBase64UrlEncoded]
  simp only [Option.bind_eq_bind, Option.bind_some]
  rw [Js.decodeChars_escapes, List.reverse_nil, List.nil_append, Js.utf8Decode_encode]
  rfl

/-- **Base64url round trip**: any bytes are written in the URL alphabet, without
padding and without loss, and the UTF-8 of a text reads as the text. -/
theorem base64url_round_trip :
    (∀ bytes : List UInt8,
      (∀ c ∈ (bufferToBase64UrlEncoded bytes).toList, c.isAlphanum ∨ c = '-' ∨ c = '_') ∧
      '=' ∉ (bufferToBase64UrlEncoded bytes).toList) ∧
    (∀ bytes bytes' : List UInt8, bytes ≠ bytes' →
      bufferToBase64UrlEncoded bytes ≠ bufferToBase64UrlEncoded bytes') ∧
    (∀ s : String, urlDecodeB64 (bufferToBase64UrlEncoded (Js.utf8Encode s.toList)) = some s) := by
  refine ⟨fun bytes => ⟨fun c hc => ?_, fun heq => ?_⟩, fun bytes bytes' hne htext => ?_,
    fun s => ?_⟩
  · have hsafe := mem_bufferToBase64UrlEncoded hc
    simpa [isUrlSafe, or_assoc] using hsafe
  · have hsafe := mem_bufferToBase64UrlEncoded heq
    exact absurd hsafe (by decide)
  · -- both texts read as their bytes
    have hread := atob_bufferToBase64UrlEncoded bytes
    rw [htext, atob_bufferToBase64UrlEncoded bytes'] at hread
    exact hne (Option.some.inj hread).symm
  · rw [urlDecodeB64_utf8, String.ofList_toList]

/-! ## Tokens of printed objects -/

/-- The JSON text of an object. -/
def jsonText (o : Obj) : List Char := (Js.stringify (.obj o)).getD []

/-- `base64url(UTF-8(JSON o))`. -/
def tokenPart (o : Obj) : String := bufferToBase64UrlEncoded (Js.utf8Encode (jsonText o))

/-- A token with this header, payload and signature. -/
def tokenOf (header payload : Obj) (signature : String) : String :=
  tokenPart header ++ ("." ++ (tokenPart payload ++ ("." ++ signature)))

theorem parse_jsonText {o : Obj} (h : Js.IsJson (.obj o)) :
    Js.parse (String.ofList (jsonText o)) = some (.obj o) := by
  obtain ⟨t, ht, hparse⟩ := Js.parse_stringify h
  unfold jsonText
  rw [ht]
  exact hparse

theorem decodePart_tokenPart {o : Obj} (h : Js.IsJson (.obj o)) :
    decodePart (tokenPart o) = .ok (.obj o) := by
  unfold decodePart tokenPart
  rw [urlDecodeB64_utf8, Option.bind_some, parse_jsonText h]

/-- A part is not empty: an object prints at least its braces. -/
theorem tokenPart_ne_empty (o : Obj) : tokenPart o ≠ "" := by
  intro hempty
  have hread := urlDecodeB64_utf8 (jsonText o)
  unfold tokenPart at hempty
  rw [hempty, show urlDecodeB64 "" = some "" by decide] at hread
  have htext := Option.some.inj hread
  unfold jsonText at htext
  rw [Js.stringify, Option.getD_some] at htext
  simp at htext

theorem dot_not_mem_tokenPart (o : Obj) : '.' ∉ (tokenPart o).toList := fun h =>
  absurd (mem_bufferToBase64UrlEncoded h) (by decide)

theorem split_tokenOf (header payload : Obj) {signature : String} (hdot : '.' ∉ signature.toList) :
    Js.split "." (tokenOf header payload signature) =
      [tokenPart header, tokenPart payload, signature] := by
  have hlast : Js.includes signature "." = false := by
    unfold Js.includes
    rw [decide_eq_false_iff_not, show ".".toList = ['.'] from rfl, List.singleton_infix_iff]
    exact hdot
  unfold tokenOf
  rw [Js.split_append _ (show "." ≠ "" by decide) (Js.sepFree_singleton (dot_not_mem_tokenPart header)),
    Js.split_append _ (show "." ≠ "" by decide) (Js.sepFree_singleton (dot_not_mem_tokenPart payload)),
    Js.split_of_not_includes hlast]

/-- **A token of printed objects decodes** to them. -/
theorem decode_tokenOf {header payload : Obj} (hh : Js.IsJson (.obj header))
    (hp : Js.IsJson (.obj payload)) {signature : String} (hs : signature ≠ "")
    (hdot : '.' ∉ signature.toList) :
    decode (tokenOf header payload signature) =
      .ok { encoded := ⟨tokenPart header, tokenPart payload, signature⟩
            header := .obj header
            claims := claimsOf (tokenOf header payload signature) payload
            user := userOf payload } := by
  unfold decode
  rw [split_tokenOf header payload hdot]
  dsimp only
  rw [if_neg (by simp [tokenPart_ne_empty, hs]), decodePart_tokenPart hp, decodePart_tokenPart hh]
  rfl

/-! ## Copying the payload -/

/-- The object has exactly these members and no prototype of its own. -/
structure Equals (o : ProtoObj) (members : Obj) : Prop where
  own : ∀ k, OrdMap.find o.own k = OrdMap.find members k
  plain : o.proto = []

/-- Members copied one by one: `__proto__` makes no member. -/
theorem own_copy : ∀ (members : Obj) (o : ProtoObj),
    (members.foldl (fun o m => o.assign m.1 m.2) o).own =
      Obj.spread o.own (Obj.without members ["__proto__"])
  | [], _ => rfl
  | (k, v) :: members, o => by
    have hcons : Obj.without ((k, v) :: members) ["__proto__"] =
        if k = "__proto__" then Obj.without members ["__proto__"]
        else (k, v) :: Obj.without members ["__proto__"] := by
      unfold Obj.without OrdMap.restrict
      rw [List.filter_cons]
      by_cases hk : k = "__proto__" <;> simp [hk]
    rw [List.foldl_cons, own_copy members, hcons]
    unfold ProtoObj.assign
    by_cases hk : k = "__proto__"
    · rw [if_pos hk, if_pos hk]
      cases v <;> rfl
    · rw [if_neg hk, if_neg hk]
      rfl

theorem proto_copy : ∀ (members : Obj) (o : ProtoObj), "__proto__" ∉ OrdMap.keys members →
    (members.foldl (fun o m => o.assign m.1 m.2) o).proto = o.proto
  | [], _, _ => rfl
  | (k, v) :: members, o, h => by
    rw [OrdMap.keys_cons, List.mem_cons, not_or] at h
    rw [List.foldl_cons, proto_copy members _ h.2]
    unfold ProtoObj.assign
    rw [if_neg (Ne.symm h.1)]

/-- The user object is the copy of what the protocol claims leave. -/
theorem userOf_copy : ∀ (members : Obj) (o : ProtoObj),
    members.foldl (fun user m => if m.1 ∈ idTokendecoded then user else user.assign m.1 m.2) o =
      (Obj.without members idTokendecoded).foldl (fun o m => o.assign m.1 m.2) o
  | [], _ => rfl
  | (k, v) :: members, o => by
    have hcons : Obj.without ((k, v) :: members) idTokendecoded =
        if k ∈ idTokendecoded then Obj.without members idTokendecoded
        else (k, v) :: Obj.without members idTokendecoded := by
      unfold Obj.without OrdMap.restrict
      rw [List.filter_cons]
      by_cases hk : k ∈ idTokendecoded <;> simp [hk]
    rw [List.foldl_cons, userOf_copy members, hcons]
    by_cases hk : k ∈ idTokendecoded
    · rw [if_pos hk, if_pos hk]
    · rw [if_neg hk, if_neg hk, List.foldl_cons]

theorem without_absent {o : Obj} {k : String} (h : k ∉ OrdMap.keys o) : Obj.without o [k] = o := by
  unfold Obj.without OrdMap.restrict
  refine List.filter_eq_self.mpr fun m hm => ?_
  have hne : m.1 ≠ k := fun heq => h (heq ▸ OrdMap.mem_keys_of_mem hm)
  simpa using hne

/-- The claims read as the payload, and as the token under `__raw` where the
payload has none. -/
theorem find_claimsOf {payload : Obj} (hnodup : OrdMap.KeysNodup payload) (token k : String) :
    OrdMap.find (claimsOf token payload).own k =
      (OrdMap.find (Obj.without payload ["__proto__"]) k).or
        (if k = "__raw" then some (.str token) else none) := by
  unfold claimsOf
  rw [own_copy, Obj.find_spread, OrdMap.find_reverse (Obj.keysNodup_without hnodup _)]
  congr 1
  by_cases hk : k = "__raw"
  · rw [hk]
    rfl
  · rw [if_neg hk, OrdMap.find_cons, if_neg (Ne.symm hk)]
    rfl

/-- The claims are the payload and the token when neither name is in the way. -/
theorem equals_claimsOf {payload : Obj} (hnodup : OrdMap.KeysNodup payload) (token : String)
    (hraw : "__raw" ∉ OrdMap.keys payload) (hproto : "__proto__" ∉ OrdMap.keys payload) :
    Equals (claimsOf token payload) (Obj.set payload "__raw" (.str token)) where
  own k := by
    rw [find_claimsOf hnodup, without_absent hproto]
    unfold Obj.set
    rw [OrdMap.find_insert]
    by_cases hk : k = "__raw"
    · subst hk
      rw [OrdMap.find_eq_none_iff.mpr hraw, Option.none_or]
    · rw [if_neg hk, if_neg (Ne.symm hk), Option.or_none]
  plain := proto_copy payload _ hproto

theorem equals_userOf {payload : Obj} (hnodup : OrdMap.KeysNodup payload)
    (hproto : "__proto__" ∉ OrdMap.keys payload) :
    Equals (userOf payload) (Obj.without payload idTokendecoded) where
  own k := by
    have hproto' : "__proto__" ∉ OrdMap.keys (Obj.without payload idTokendecoded) := fun h =>
      hproto (Obj.mem_keys_without.mp h).1
    unfold userOf
    rw [userOf_copy, own_copy, without_absent hproto', Obj.find_spread,
      OrdMap.find_reverse (Obj.keysNodup_without hnodup _)]
    exact Option.or_none
  plain := by
    have hproto' : "__proto__" ∉ OrdMap.keys (Obj.without payload idTokendecoded) := fun h =>
      hproto (Obj.mem_keys_without.mp h).1
    unfold userOf
    rw [userOf_copy]
    exact proto_copy _ _ hproto'

/-- A member named `__proto__` is not copied. -/
theorem no_proto_of_equals {payload : Obj} {token : String} (hnodup : OrdMap.KeysNodup payload)
    (h : Equals (claimsOf token payload) (Obj.set payload "__raw" (.str token))) :
    "__proto__" ∉ OrdMap.keys payload := by
  have hfind := h.own "__proto__"
  have hgone : OrdMap.find (Obj.without payload ["__proto__"]) "__proto__" = none := by
    rw [OrdMap.find_eq_none_iff, Obj.mem_keys_without]
    exact fun h => h.2 (List.mem_singleton.mpr rfl)
  rw [find_claimsOf hnodup, hgone, if_neg (by decide)] at hfind
  unfold Obj.set at hfind
  rw [OrdMap.find_insert, if_neg (by decide)] at hfind
  exact OrdMap.find_eq_none_iff.mp hfind.symm

/-- A member named `__raw` can only be the token itself. -/
theorem raw_of_equals {payload : Obj} {token : String} (hnodup : OrdMap.KeysNodup payload)
    (h : Equals (claimsOf token payload) (Obj.set payload "__raw" (.str token))) {v : Value}
    (hraw : OrdMap.find payload "__raw" = some v) : v = .str token := by
  have hfind := h.own "__raw"
  rw [find_claimsOf hnodup, Obj.find_without (by decide), hraw] at hfind
  unfold Obj.set at hfind
  rw [OrdMap.find_insert, if_pos rfl] at hfind
  exact Option.some.inj hfind

/-! ## No payload holds its own token -/

theorem length_sextets : ∀ bytes : List UInt8, bytes.length ≤ (Js.sextets bytes).length
  | [] => Nat.le_refl _
  | [_] => by simp [Js.sextets]
  | [_, _] => by simp [Js.sextets]
  | _ :: _ :: _ :: bytes => by
    have ih := length_sextets bytes
    rw [Js.sextets]
    simp only [List.length_cons]
    omega

/-- Base64 is no shorter than the bytes. -/
theorem length_bufferToBase64UrlEncoded (bytes : List UInt8) :
    bytes.length ≤ (bufferToBase64UrlEncoded bytes).toList.length := by
  have hlen := congrArg List.length (Js.urlDecodeChars_btoaChars bytes)
  unfold Js.urlDecodeChars at hlen
  rw [List.length_map, List.length_map] at hlen
  unfold bufferToBase64UrlEncoded
  rw [String.toList_ofList, hlen]
  exact length_sextets bytes

theorem length_utf8Encode : ∀ cs : List Char, cs.length ≤ (Js.utf8Encode cs).length
  | [] => Nat.le_refl _
  | c :: cs => by
    have ih := length_utf8Encode cs
    have hc := c.utf8Size_pos
    have hsplit : Js.utf8Encode (c :: cs) = String.utf8EncodeChar c ++ Js.utf8Encode cs := rfl
    rw [hsplit, List.length_append, String.length_utf8EncodeChar, List.length_cons]
    omega

/-- Quoting makes a text longer. -/
theorem length_quote (s : List Char) : s.length < (Js.quote s).length := by
  have hchars : s.length ≤ (s.flatMap Js.quoteChar).length := by
    induction s with
    | nil => exact Nat.le_refl _
    | cons c s ih =>
      have hc : 0 < (Js.quoteChar c).length := by
        unfold Js.quoteChar
        repeat' split
        all_goals simp
      rw [List.flatMap_cons, List.length_append, List.length_cons]
      omega
  unfold Js.quote
  rw [List.length_cons, List.length_append]
  omega

/-- A piece is no longer than the pieces joined. -/
theorem length_le_joinWith {x : List Char} : ∀ {xs : List (List Char)}, x ∈ xs →
    x.length ≤ (Js.joinWith ',' xs).length
  | [], h => (List.not_mem_nil h).elim
  | [y], h => by
    obtain rfl := List.mem_singleton.mp h
    exact Nat.le_refl _
  | y :: z :: ys, h => by
    rw [Js.joinWith_cons _ _ (by simp), List.length_append, List.length_cons]
    rcases List.mem_cons.mp h with rfl | h
    · omega
    · have := length_le_joinWith h
      omega

/-- A printed object is longer than any string among its members. -/
theorem length_lt_jsonText {o : Obj} {k s : String} (h : (k, Value.str s) ∈ o) :
    s.toList.length < (jsonText o).length := by
  have hmem : ∀ {o : Obj}, (k, Value.str s) ∈ o →
      Js.quote k.toList ++ ':' :: Js.quote s.toList ∈ Js.memberTexts o := by
    intro o
    induction o with
    | nil => exact fun h => (List.not_mem_nil h).elim
    | cons m o ih =>
      intro hm
      rcases List.mem_cons.mp hm with rfl | hrest
      · rw [Js.memberTexts, Js.stringify]
        exact List.mem_cons_self ..
      · obtain ⟨k', v⟩ := m
        rw [Js.memberTexts]
        cases Js.stringify v with
        | none => exact ih hrest
        | some t => exact List.mem_cons_of_mem _ (ih hrest)
  have hpiece := length_le_joinWith (hmem h)
  have hquote := length_quote s.toList
  unfold jsonText
  rw [Js.stringify, Option.getD_some, List.length_cons, List.length_append]
  rw [List.length_append, List.length_cons] at hpiece
  omega

/-- A token does not stand in its own payload. -/
theorem payload_ne_token {header payload : Obj} {signature : String} {k : String} :
    OrdMap.find payload k ≠ some (.str (tokenOf header payload signature)) := by
  intro hfind
  have hlt := length_lt_jsonText (OrdMap.find_mem hfind)
  have hutf8 := length_utf8Encode (jsonText payload)
  have hpart := length_bufferToBase64UrlEncoded (Js.utf8Encode (jsonText payload))
  unfold tokenOf tokenPart at hlt
  rw [String.toList_append, String.toList_append, String.toList_append, List.length_append,
    List.length_append, List.length_append] at hlt
  omega

/-! ## Decoding what was encoded -/

/-- `decode` gives back the header, the payload with `__raw` set to the token,
and for the user the payload without the protocol claims. -/
def Recovers (header payload : Obj) (signature : String) : Prop :=
  ∃ d, decode (tokenOf header payload signature) = .ok d ∧
    d.header = .obj header ∧
    Equals d.claims (Obj.set payload "__raw" (.str (tokenOf header payload signature))) ∧
    d.claims.get "__raw" = .str (tokenOf header payload signature) ∧
    Equals d.user (Obj.without payload idTokendecoded)

/-- A payload with its own `__raw` is not recovered. -/
theorem no_raw_of_recovers {header payload : Obj} {signature : String}
    (hh : Js.IsJson (.obj header)) (hp : Js.IsJson (.obj payload)) (hs : signature ≠ "")
    (hdot : '.' ∉ signature.toList) (h : Recovers header payload signature) :
    "__raw" ∉ OrdMap.keys payload := by
  obtain ⟨d, hd, -, hclaims, -, -⟩ := h
  rw [decode_tokenOf hh hp hs hdot] at hd
  obtain rfl := Except.ok.inj hd
  rw [← OrdMap.find_eq_none_iff, Option.eq_none_iff_forall_ne_some]
  intro v hraw
  exact payload_ne_token (raw_of_equals hp.1 hclaims hraw ▸ hraw)

/-- **What `decode` recovers**: the content of a token exactly when no member of
the payload is named `__raw` or `__proto__`. -/
theorem recovers_iff {header payload : Obj} {signature : String}
    (hh : Js.IsJson (.obj header)) (hp : Js.IsJson (.obj payload)) (hs : signature ≠ "")
    (hdot : '.' ∉ signature.toList) :
    Recovers header payload signature ↔
      "__raw" ∉ OrdMap.keys payload ∧ "__proto__" ∉ OrdMap.keys payload := by
  constructor
  · intro h
    refine ⟨no_raw_of_recovers hh hp hs hdot h, ?_⟩
    obtain ⟨d, hd, -, hclaims, -, -⟩ := h
    rw [decode_tokenOf hh hp hs hdot] at hd
    obtain rfl := Except.ok.inj hd
    exact no_proto_of_equals hp.1 hclaims
  · rintro ⟨hraw, hproto⟩
    have hclaims := equals_claimsOf hp.1 (tokenOf header payload signature) hraw hproto
    refine ⟨_, decode_tokenOf hh hp hs hdot, rfl, hclaims, ?_, equals_userOf hp.1 hproto⟩
    have hown := hclaims.own "__raw"
    unfold Obj.set at hown
    rw [OrdMap.find_insert, if_pos rfl] at hown
    unfold ProtoObj.get
    rw [hown]

/-- One member of string value is JSON. -/
theorem isJson_single (k s : String) : Js.IsJson (.obj [(k, .str s)]) :=
  ⟨List.nodup_singleton k, trivial, trivial⟩

/-- A small token is recovered. -/
theorem recovers_sample : Recovers [("alg", .str "RS256")] [("sub", .str "us\"é")] "sig" :=
  (recovers_iff (isJson_single _ _) (isJson_single _ _) (by decide) (by decide)).mpr (by decide)

/-- A payload that names `__raw` puts its own value there. -/
theorem raw_overwritten :
    ¬ ∀ (header payload : Obj) (signature : String), Js.IsJson (.obj header) →
      Js.IsJson (.obj payload) → signature ≠ "" → '.' ∉ signature.toList →
      Recovers header payload signature := by
  intro h
  have hrec := h [("alg", .str "RS256")] [("__raw", .str "forged")] "sig" (isJson_single _ _)
    (isJson_single _ _) (by decide) (by decide)
  have hraw := no_raw_of_recovers (isJson_single _ _) (isJson_single _ _) (by decide) (by decide) hrec
  exact hraw (by decide)

end AuthokSpa
