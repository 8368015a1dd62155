import SfuServer.Http
import SfuServer.Lib.Base64
import SfuServer.Web.Client

/-!
The way of a request from the web client to its handler: `btoa(JSON.stringify(json))` in
`assets/webui/js`, as one segment of a path, and `parse_base64_into_json` of `src/route/mod.rs`.

The standard alphabet of Base64 has the slash as its last digit, and a route takes one segment.
`btoa` takes a unit of the text for a byte, while the server reads the bytes as UTF-8.

* `btoa`, `requestPath`: what the client asks for;
* `SegmentRouter`, `Base64Engine`: what is documented of the routes of `axum` and of the decoder of
  the package `base64`;
* `parseBase64IntoJson`, `arrive`: what the server makes of a path;
* `request_arrives_iff`: the texts that their handlers see, which are those of ASCII with no
  question mark and no delete character as a third byte.
-/

open Std (ExtTreeMap)

namespace SfuServer

namespace WebClient

/-- `btoa`, which throws on a unit that is no byte. -/
def btoa (text : JsString) : Option (List Char) :=
  if text.all fun u => decide (u ≤ 0xFF) then some (Base64.encode (text.map UInt16.toUInt8))
  else none

/-- The path of a request with the given text, from its action on. -/
def requestPath (action : List Char) (text : JsString) : Option (List Char) :=
  (btoa text).map fun base64 => action ++ '/' :: base64 ++ ['/']

/-- A routing of `/<action>/:base64/`: the parameter takes one segment that is not empty.  The
length of a path is not limited here. -/
structure SegmentRouter where
  capture : List Char → List Char → Option (List Char)
  capture_iff : ∀ action path segment, capture action path = some segment ↔
    path = action ++ '/' :: segment ++ ['/'] ∧ segment ≠ [] ∧ '/' ∉ segment

/-- `BASE64_STANDARD.decode`: the standard alphabet and canonical padding. -/
structure Base64Engine where
  decode : List Char → Except String Bytes
  decode_iff : ∀ text bytes, decode text = .ok bytes ↔ text = Base64.encode bytes

end WebClient

open WebClient

/-- `parse_base64_into_json`, where `fromSlice` reads the JSON. -/
def parseBase64IntoJson {T : Type} (engine : Base64Engine) (fromSlice : Bytes → Except String T)
    (params : ExtTreeMap String (List Char)) : Except Response T :=
  match params["base64"]? with
  | none => .error ⟨"Missing Params", .notAcceptable⟩
  | some base64 =>
      match engine.decode base64 with
      | .error err => .error ⟨err, .notAcceptable⟩
      | .ok jsonObj =>
          match fromSlice jsonObj with
          | .error err => .error ⟨err, .notAcceptable⟩
          | .ok json => .ok json

/-- What the handler of an action begins with, if the path is one of its route. -/
def arrive {T : Type} (router : SegmentRouter) (engine : Base64Engine)
    (fromSlice : Bytes → Except String T) (action path : List Char) : Option (Except Response T) :=
  (router.capture action path).map fun base64 =>
    parseBase64IntoJson engine fromSlice
      ((∅ : ExtTreeMap String (List Char)).insert "base64" base64)

/-- The answer to a text that was read as the given bytes. -/
def readAs {T : Type} (fromSlice : Bytes → Except String T) (bytes : Bytes) : Except Response T :=
  (fromSlice bytes).mapError fun err => ⟨err, .notAcceptable⟩

namespace WebClient

/-- A parameter that is the text of some bytes is read as these bytes. -/
lemma parseBase64IntoJson_encode {T : Type} (engine : Base64Engine)
    (fromSlice : Bytes → Except String T) (bytes : Bytes) :
    parseBase64IntoJson engine fromSlice
        ((∅ : ExtTreeMap String (List Char)).insert "base64" (Base64.encode bytes)) =
      readAs fromSlice bytes := by
  have hdecode := (engine.decode_iff (Base64.encode bytes) bytes).mpr rfl
  simp only [parseBase64IntoJson, ExtTreeMap.getElem?_insert_self, hdecode, readAs]
  cases fromSlice bytes <;> rfl

/-- The bytes of `btoa` arrive, unless their text is empty or has a slash. -/
lemma arrive_requestPath {T : Type} (router : SegmentRouter) (engine : Base64Engine)
    (fromSlice : Bytes → Except String T) (action : List Char) (text : JsString) :
    (requestPath action text).bind (arrive router engine fromSlice action) =
      if text.all (· ≤ 0xFF) ∧ text ≠ [] ∧ '/' ∉ Base64.encode (text.map UInt16.toUInt8) then
        some (readAs fromSlice (text.map UInt16.toUInt8))
      else none := by
  rw [requestPath, btoa]
  by_cases hbytes : text.all (· ≤ 0xFF)
  · rw [if_pos hbytes, Option.map_some, Option.bind_some, arrive]
    by_cases hsegment : text ≠ [] ∧ '/' ∉ Base64.encode (text.map UInt16.toUInt8)
    · have hne : Base64.encode (text.map UInt16.toUInt8) ≠ [] := by
        intro hnil
        have hdecode := Base64.decode_encode (text.map UInt16.toUInt8)
        rw [hnil, Base64.decode, Option.some.injEq] at hdecode
        exact hsegment.1 (List.map_eq_nil_iff.mp hdecode.symm)
      rw [(router.capture_iff action _ _).mpr ⟨rfl, hne, hsegment.2⟩, Option.map_some,
        parseBase64IntoJson_encode, if_pos ⟨hbytes, hsegment⟩]
    · rw [if_neg fun h => hsegment h.2, Option.map_eq_none_iff]
      cases hcapture : router.capture action (action ++ '/' ::
          Base64.encode (text.map UInt16.toUInt8) ++ ['/']) with
      | none => rfl
      | some segment =>
          obtain ⟨hpath, hne, hslash⟩ := (router.capture_iff _ _ _).mp hcapture
          rw [List.append_cancel_right_eq, List.append_cancel_left_eq, List.cons.injEq,
            and_iff_right rfl] at hpath
          subst hpath
          refine absurd ⟨fun hnil => hne ?_, hslash⟩ hsegment
          rw [hnil]
          rfl
  · rw [if_neg hbytes, if_neg fun h => hbytes h.1]
    rfl

/-- The bytes of `btoa` are those of the text in UTF-8 exactly if the text is of ASCII. -/
lemma map_toUInt8_eq_textEncoder_iff {text : JsString} (h : ∀ u ∈ text, u ≤ 0xFF) :
    text.map UInt16.toUInt8 = textEncoder text ↔ IsAscii text := by
  have hinj : Function.Injective UInt8.toUInt16 := fun a b hab => by
    have := congrArg UInt16.toNat hab
    rwa [UInt8.toNat_toUInt16, UInt8.toNat_toUInt16, UInt8.toNat_inj] at this
  have hback : fromCharCode (text.map UInt16.toUInt8) = text := by
    rw [fromCharCode, List.map_map]
    refine (List.map_congr_left fun u hu => ?_).trans (List.map_id text)
    have hu' : u.toNat ≤ 255 := UInt16.le_iff_toNat_le.mp (h u hu)
    apply UInt16.toNat_inj.mp
    rw [Function.comp_apply, UInt8.toNat_toUInt16, UInt16.toNat_toUInt8]
    exact Nat.mod_eq_of_lt (by omega)
  rw [← fromCharCode_textEncoder_iff, ← (List.map_injective_iff.mpr hinj).eq_iff]
  change fromCharCode _ = fromCharCode _ ↔ _
  rw [hback, eq_comm]

/-- **Which requests arrive**: for every action, the handler reads the JSON that the client made,
whatever it does with it, if and only if the JSON is not empty, is of ASCII, and has no question
mark and no delete character at a position that leaves 2 when divided by 3. -/
theorem request_arrives_iff (router : SegmentRouter) (engine : Base64Engine) (action : List Char)
    (text : JsString) :
    (∀ (T : Type) (fromSlice : Bytes → Except String T),
        (requestPath action text).bind (arrive router engine fromSlice action) =
          some (readAs fromSlice (textEncoder text))) ↔
      text ≠ [] ∧ IsAscii text ∧ ∀ i, i % 3 = 2 → text[i]? ≠ some 63 ∧ text[i]? ≠ some 127 := by
  have hslash : IsAscii text → ('/' ∉ Base64.encode (text.map UInt16.toUInt8) ↔
      ∀ i, i % 3 = 2 → text[i]? ≠ some 63 ∧ text[i]? ≠ some 127) := by
    intro hascii
    have hunit : ∀ (i : ℕ) (n : UInt16), n < 128 →
        ((text.map UInt16.toUInt8)[i]? = some n.toUInt8 ↔ text[i]? = some n) := by
      intro i n hn
      rw [List.getElem?_map, Option.map_eq_some_iff]
      refine ⟨?_, fun h => ⟨n, h, rfl⟩⟩
      rintro ⟨u, hu, hun⟩
      rw [hu, ← toUInt16_toUInt8 (hascii u (List.mem_of_getElem? hu)), hun, toUInt16_toUInt8 hn]
    have hbytes : ∀ b ∈ text.map UInt16.toUInt8, b < 128 := by
      intro b hb
      obtain ⟨u, hu, rfl⟩ := List.mem_map.mp hb
      have hu' : u.toNat < 128 := UInt16.lt_iff_toNat_lt.mp (hascii u hu)
      rw [UInt8.lt_iff_toNat_lt, UInt16.toNat_toUInt8]
      change u.toNat % 256 < 128
      omega
    have hquestion := fun i => hunit i 63 (by decide)
    have hdelete := fun i => hunit i 127 (by decide)
    rw [Base64.slash_mem_encode_iff hbytes]
    push Not
    exact forall_congr' fun i => forall_congr' fun _ =>
      and_congr (not_congr (hquestion i)) (not_congr (hdelete i))
  constructor
  · intro h
    have hecho := h Bytes Except.ok
    rw [arrive_requestPath] at hecho
    split_ifs at hecho with hcond
    · obtain ⟨hbytes, hne, hnoslash⟩ := hcond
      have heq : text.map UInt16.toUInt8 = textEncoder text :=
        Except.ok.inj (Option.some.inj hecho)
      have hascii := (map_toUInt8_eq_textEncoder_iff (by simpa using hbytes)).mp heq
      exact ⟨hne, hascii, (hslash hascii).mp hnoslash⟩
  · rintro ⟨hne, hascii, hthird⟩ T fromSlice
    have hbytes : ∀ u ∈ text, u ≤ 0xFF := by
      intro u hu
      have hu' : u.toNat < 128 := UInt16.lt_iff_toNat_lt.mp (hascii u hu)
      rw [UInt16.le_iff_toNat_le]
      change u.toNat ≤ 255
      omega
    have hall : text.all (· ≤ 0xFF) := by simpa using hbytes
    rw [arrive_requestPath, if_pos ⟨hall, hne, (hslash hascii).mpr hthird⟩,
      (map_toUInt8_eq_textEncoder_iff hbytes).mpr hascii]

/-- The routing that takes a path apart at its slashes. -/
def bySegments : SegmentRouter where
  capture action path :=
    let rest := (path.drop (action.length + 1)).dropLast
    if path = action ++ '/' :: rest ++ ['/'] ∧ rest ≠ [] ∧ '/' ∉ rest then some rest else none
  capture_iff action path segment := by
    dsimp only
    constructor
    · intro h
      split_ifs at h with hpath
      obtain rfl := Option.some.inj h
      exact hpath
    · rintro ⟨rfl, hne, hslash⟩
      have hrest : ((action ++ '/' :: segment ++ ['/']).drop (action.length + 1)).dropLast =
          segment := by
        rw [List.append_assoc, List.drop_append]
        simp
      rw [hrest, if_pos ⟨rfl, hne, hslash⟩]

/-- The strict decoder. -/
def strict : Base64Engine where
  decode text :=
    match Base64.decode text with
    | some bytes => .ok bytes
    | none => .error "Invalid"
  decode_iff text bytes := by
    rw [← Base64.decode_eq_some_iff]
    cases Base64.decode text <;> simp

/-- The JSON `{"id":1}`. -/
def small : JsString := [0x7B, 0x22, 0x69, 0x64, 0x22, 0x3A, 0x31, 0x7D]

/-- A small request arrives. -/
theorem request_arrives_small :
    (requestPath "room".toList small).bind
        (arrive bySegments strict (fun bytes => (.ok bytes : Except String Bytes)) "room".toList) =
      some (.ok (textEncoder small)) := by
  have hascii : IsAscii small := by simp [IsAscii, small, UInt16.lt_iff_toNat_lt]
  have hquestion : 0x3F ∉ small := by decide
  have hdelete : 0x7F ∉ small := by decide
  exact (request_arrives_iff bySegments strict "room".toList small).mpr
    ⟨by decide, hascii, fun _ _ => ⟨fun h => hquestion (List.mem_of_getElem? h),
      fun h => hdelete (List.mem_of_getElem? h)⟩⟩ Bytes .ok

/-- A question mark in the third place is never read. -/
example : (requestPath "room".toList [97, 97, 63]).bind
    (arrive bySegments strict (fun bytes => (.ok bytes : Except String Bytes)) "room".toList) =
      none := by decide

end WebClient

end SfuServer
