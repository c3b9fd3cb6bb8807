import Vigil.Wire.Mongodb

/-! BSON documents by their definition, and what the walk over the document of a `hello` reply makes
of them. -/

namespace Vigil.Wire.Bson

open Js.Text Js.Utf8 Lib.Buffer Lib.LittleEndian Lib.TwosComplement Mongodb

/-! ### Documents -/

/-- A text that ends at the first zero byte. -/
abbrev CString := {text : List Char // '\x00' ∉ text}

abbrev Bytes (size : ℕ) := {bytes : List UInt8 // bytes.length = size}

abbrev Int32 := {value : ℤ // Fits 3 value}

mutual

/-- A value of BSON. -/
inductive Value where
  | double (bits : Bytes 8)
  | string (text : List Char)
  | document (elements : Elements)
  | array (elements : Elements)
  | binary (subtype : UInt8) (content : List UInt8)
  | undefined
  | objectId (id : Bytes 12)
  | boolean (value : Bool)
  | date (milliseconds : Bytes 8)
  | null
  | regex (pattern options : CString)
  | dbPointer (collection : List Char) (id : Bytes 12)
  | javascript (code : List Char)
  | symbol (text : List Char)
  | codeWithScope (code : List Char) (scope : Elements)
  | int32 (value : Int32)
  | timestamp (value : Bytes 8)
  | int64 (value : Bytes 8)
  | decimal128 (value : Bytes 16)
  | minKey
  | maxKey

/-- The elements of a document. -/
inductive Elements where
  | nil
  | cons (name : CString) (value : Value) (rest : Elements)

end

/-- The elements in a list. -/
def Elements.toList : Elements → List (CString × Value)
  | .nil => []
  | .cons name value rest => (name, value) :: rest.toList

def utf8Bytes (text : List Char) : List UInt8 := text.flatMap String.utf8EncodeChar

def encodeCString (text : CString) : List UInt8 := utf8Bytes text.val ++ [0]

/-- A text behind its length, which counts the zero at its end. -/
def encodeText (text : List Char) : List UInt8 :=
  leBytes 4 ((utf8Bytes text).length + 1 : ℕ) ++ (utf8Bytes text ++ [0])

/-- Elements behind a length, which counts itself and the zero at the end. -/
def framed (elements : List UInt8) : List UInt8 :=
  leBytes 4 (elements.length + 5 : ℕ) ++ (elements ++ [0])

/-- The byte that names the type of a value. -/
def Value.type : Value → UInt8
  | .double _ => 0x01
  | .string _ => 0x02
  | .document _ => 0x03
  | .array _ => 0x04
  | .binary _ _ => 0x05
  | .undefined => 0x06
  | .objectId _ => 0x07
  | .boolean _ => 0x08
  | .date _ => 0x09
  | .null => 0x0A
  | .regex _ _ => 0x0B
  | .dbPointer _ _ => 0x0C
  | .javascript _ => 0x0D
  | .symbol _ => 0x0E
  | .codeWithScope _ _ => 0x0F
  | .int32 _ => 0x10
  | .timestamp _ => 0x11
  | .int64 _ => 0x12
  | .decimal128 _ => 0x13
  | .minKey => 0xFF
  | .maxKey => 0x7F

mutual

/-- The bytes of a value. -/
def Value.encode : Value → List UInt8
  | .double bits => bits.val
  | .string text => encodeText text
  | .document elements => framed elements.encode
  | .array elements => framed elements.encode
  | .binary subtype content => leBytes 4 content.length ++ (subtype :: content)
  | .undefined => []
  | .objectId id => id.val
  | .boolean value => [if value then 1 else 0]
  | .date milliseconds => milliseconds.val
  | .null => []
  | .regex pattern options => encodeCString pattern ++ encodeCString options
  | .dbPointer collection id => encodeText collection ++ id.val
  | .javascript code => encodeText code
  | .symbol text => encodeText text
  | .codeWithScope code scope =>
    let content := encodeText code ++ framed scope.encode
    leBytes 4 (4 + content.length : ℕ) ++ content
  | .int32 value => leBytes 4 value.val
  | .timestamp value => value.val
  | .int64 value => value.val
  | .decimal128 value => value.val
  | .minKey => []
  | .maxKey => []

/-- The bytes of the elements. -/
def Elements.encode : Elements → List UInt8
  | .nil => []
  | .cons name value rest => value.type :: (encodeCString name ++ (value.encode ++ rest.encode))

end

def encodeDocument (elements : Elements) : List UInt8 := framed elements.encode

/-! ### What a reply holds -/

/-- Whether a number is one. -/
def okValue : Value → Option Bool
  | .double bits => some (doubleValue (unsignedLE bits.val) = some 1)
  | .int32 value => some (value.val = 1)
  | _ => none

def int32Value : Value → Option ℤ
  | .int32 value => some value.val
  | _ => none

def booleanValue : Value → Option Bool
  | .boolean value => some value
  | _ => none

def stringValue : Value → Option JsString
  | .string text => some (encodeUtf16 text)
  | _ => none

def okOf (element : CString × Value) : Option Bool :=
  if element.1.val = "ok".toList then okValue element.2 else none

def maxWireVersionOf (element : CString × Value) : Option ℤ :=
  if element.1.val = "maxWireVersion".toList then int32Value element.2 else none

def isPrimaryOf (element : CString × Value) : Option Bool :=
  if element.1.val = "isWritablePrimary".toList ∨ element.1.val = "ismaster".toList then
    booleanValue element.2
  else none

def setNameOf (element : CString × Value) : Option JsString :=
  if element.1.val = "setName".toList then stringValue element.2 else none

/-- What the last element that is read has. -/
def lastOf {α : Type} (read : CString × Value → Option α) (elements : List (CString × Value)) :
    Option α := (elements.filterMap read).getLast?

def replyOf (elements : List (CString × Value)) : HelloReply where
  ok := (lastOf okOf elements).getD false
  maxWireVersion := lastOf maxWireVersionOf elements
  isPrimary := lastOf isPrimaryOf elements
  replicaSet := lastOf setNameOf elements

/-- A reply after one more element. -/
def replyWith (reply : HelloReply) (element : CString × Value) : HelloReply where
  ok := (okOf element).getD reply.ok
  maxWireVersion := (maxWireVersionOf element).or reply.maxWireVersion
  isPrimary := (isPrimaryOf element).or reply.isPrimary
  replicaSet := (setNameOf element).or reply.replicaSet

theorem lastOf_concat {α : Type} (f : CString × Value → Option α)
    (elements : List (CString × Value)) (element : CString × Value) :
    lastOf f (elements ++ [element]) = (f element).or (lastOf f elements) := by
  rw [lastOf, List.filterMap_append]
  cases h : f element with
  | none => simp [h, lastOf]
  | some value => simp [h]

theorem foldl_replyWith (elements : List (CString × Value)) :
    elements.foldl replyWith unreadable = replyOf elements := by
  induction elements using List.reverseRecOn with
  | nil => rfl
  | append_singleton elements element ih =>
    rw [List.foldl_append, ih, List.foldl_cons, List.foldl_nil, replyOf, replyWith]
    simp only [lastOf_concat, replyOf]
    cases okOf element <;> rfl

/-! ### The size of a value -/

section Size

variable {before after : List UInt8}

theorem readInt32LE_leBytes {v : ℤ} (h : Fits 3 v) :
    readInt32LE (before ++ (leBytes 4 v ++ after)) before.length = some v := by
  have hslice := slice_append before (leBytes 4 v) after
  rw [length_leBytes] at hslice
  rw [readInt32LE, if_pos (by simp), hslice, signedLE_leBytes h]

theorem declaredSize_leBytes (before after : List UInt8) (n more : ℕ) (least : ℤ)
    (h : n < 2 ^ 31) (hleast : least ≤ n) :
    declaredSize (before ++ (leBytes 4 n ++ after)) before.length least more =
      some (some (more + n)) := by
  have hfits : Fits 3 (n : ℤ) := by
    unfold Fits
    omega
  have hlong : before.length + 4 ≤ (before ++ (leBytes 4 n ++ after)).length := by simp
  rw [declaredSize, declared, if_pos hlong, readInt32LE_leBytes hfits]
  simp only [Option.map_some, Option.bind_eq_bind, Option.bind_some, if_neg (Int.not_lt.mpr hleast)]
  rfl

theorem zero_ne_ofNat {n : ℕ} (hpos : 0 < n) (hlt : n < 256) : (0 : UInt8) ≠ UInt8.ofNat n := by
  intro h
  have htoNat := congrArg UInt8.toNat h
  rw [UInt8.toNat_ofNat', Nat.mod_eq_of_lt (by omega)] at htoNat
  exact absurd htoNat.symm (Nat.pos_iff_ne_zero.mp hpos)

theorem zero_notMem_utf8EncodeChar {c : Char} (h : c ≠ '\x00') : 0 ∉ String.utf8EncodeChar c := by
  have hpos : 0 < c.val.toNat := by
    rw [Nat.pos_iff_ne_zero]
    intro hzero
    exact h (Char.ext (UInt32.toNat_inj.mp hzero))
  unfold String.utf8EncodeChar
  dsimp only
  split_ifs <;> simp only [List.mem_cons, List.not_mem_nil, or_false, not_or]
  · exact zero_ne_ofNat hpos (by omega)
  · exact ⟨zero_ne_ofNat (by omega) (by omega), zero_ne_ofNat (by omega) (by omega)⟩
  · exact ⟨zero_ne_ofNat (by omega) (by omega), zero_ne_ofNat (by omega) (by omega),
      zero_ne_ofNat (by omega) (by omega)⟩
  · exact ⟨zero_ne_ofNat (by omega) (by omega), zero_ne_ofNat (by omega) (by omega),
      zero_ne_ofNat (by omega) (by omega), zero_ne_ofNat (by omega) (by omega)⟩

theorem zero_notMem_utf8Bytes (text : CString) : 0 ∉ utf8Bytes text.val := by
  intro h
  obtain ⟨c, hc, hzero⟩ := List.mem_flatMap.mp h
  exact zero_notMem_utf8EncodeChar (fun hnul => text.property (by rwa [hnul] at hc)) hzero

theorem indexOfZero_append (before after : List UInt8) {content : List UInt8} (h : 0 ∉ content) :
    indexOfZero (before ++ (content ++ 0 :: after)) before.length =
      some (before.length + content.length) := by
  have hfind : (content ++ 0 :: after).findIdx? (fun byte => byte = 0) = some content.length := by
    rw [List.findIdx?_eq_some_iff_getElem]
    refine ⟨by simp, by simp, fun i hi => ?_⟩
    rw [List.getElem_append_left hi]
    intro hzero
    exact h (of_decide_eq_true hzero ▸ List.getElem_mem hi)
  rw [indexOfZero, List.drop_left, hfind]
  rfl

theorem length_encodeCString (text : CString) :
    (encodeCString text).length = (utf8Bytes text.val).length + 1 := by
  rw [encodeCString, List.length_append, List.length_singleton]

theorem length_encodeText (text : List Char) :
    (encodeText text).length = 4 + ((utf8Bytes text).length + 1) := by
  rw [encodeText, List.length_append, length_leBytes, List.length_append, List.length_singleton]

theorem length_framed (elements : List UInt8) : (framed elements).length = elements.length + 5 := by
  rw [framed, List.length_append, length_leBytes, List.length_append, List.length_singleton]
  omega

theorem declaredSize_encodeText {text : List Char} (more : List UInt8)
    (h : (encodeText text).length < 2 ^ 31) :
    declaredSize (before ++ (encodeText text ++ more)) before.length 1 4 =
      some (some (encodeText text).length) := by
  rw [length_encodeText] at h ⊢
  rw [encodeText, List.append_assoc]
  exact declaredSize_leBytes _ _ _ _ _ (by omega) (by omega)

theorem declaredSize_framed {elements : List UInt8} (h : (framed elements).length < 2 ^ 31) :
    declaredSize (before ++ (framed elements ++ after)) before.length 5 0 =
      some (some (framed elements).length) := by
  rw [length_framed] at h ⊢
  rw [framed, List.append_assoc]
  have hsize := declaredSize_leBytes before (elements ++ [0] ++ after) _ 0 5 h (by omega)
  rwa [Nat.zero_add] at hsize

theorem valueSize_encode {value : Value} (h : value.encode.length < 2 ^ 31) :
    valueSize (before ++ (value.encode ++ after)) value.type before.length =
      some (some value.encode.length) := by
  cases value with
  | double bits => exact congrArg (fun n => some (some n)) bits.property.symm
  | string text => exact declaredSize_encodeText after h
  | document elements => exact declaredSize_framed h
  | array elements => exact declaredSize_framed h
  | binary subtype content =>
    have hlength : (Value.encode (.binary subtype content)).length = 5 + content.length := by
      rw [Value.encode, List.length_append, length_leBytes, List.length_cons]
      omega
    have hsize := declaredSize_leBytes before (subtype :: content ++ after) content.length 5 0
      (by omega) (by omega)
    rw [hlength, Value.encode, List.append_assoc]
    exact hsize
  | undefined => rfl
  | objectId id => exact congrArg (fun n => some (some n)) id.property.symm
  | boolean value => rfl
  | date milliseconds => exact congrArg (fun n => some (some n)) milliseconds.property.symm
  | null => rfl
  | regex pattern options =>
    obtain ⟨first, hfirst⟩ : ∃ first, first = utf8Bytes pattern.val := ⟨_, rfl⟩
    obtain ⟨second, hsecond⟩ : ∃ second, second = utf8Bytes options.val := ⟨_, rfl⟩
    have hpattern : 0 ∉ first := hfirst ▸ zero_notMem_utf8Bytes pattern
    have hoptions : 0 ∉ second := hsecond ▸ zero_notMem_utf8Bytes options
    have hbytes : Value.encode (.regex pattern options) = first ++ [0] ++ (second ++ [0]) := by
      rw [Value.encode, encodeCString, encodeCString, hfirst, hsecond]
    have hdocument : before ++ (first ++ [0] ++ (second ++ [0]) ++ after) =
        before ++ (first ++ 0 :: (second ++ 0 :: after)) := by simp
    have hone := indexOfZero_append before (second ++ 0 :: after) hpattern
    have htwo := indexOfZero_append (before ++ (first ++ [0])) after hoptions
    have hstart : (before ++ (first ++ [0])).length = before.length + first.length + 1 := by
      simp
      omega
    have hsame : before ++ (first ++ [0]) ++ (second ++ 0 :: after) =
        before ++ (first ++ 0 :: (second ++ 0 :: after)) := by simp
    rw [hsame, hstart] at htwo
    have hread : valueSize (before ++ (first ++ 0 :: (second ++ 0 :: after))) 0x0B before.length =
        some ((indexOfZero (before ++ (first ++ 0 :: (second ++ 0 :: after))) before.length).bind
          fun index => (indexOfZero (before ++ (first ++ 0 :: (second ++ 0 :: after)))
            (index + 1)).bind fun flags => some (flags + 1 - before.length)) := rfl
    have hlength : (first ++ [0] ++ (second ++ [0])).length =
        before.length + first.length + 1 + second.length + 1 - before.length := by
      simp
      omega
    rw [hbytes, hdocument, hlength]
    refine hread.trans ?_
    rw [hone, Option.bind_some, htwo, Option.bind_some]
  | dbPointer collection id =>
    have hlength : (Value.encode (.dbPointer collection id)).length =
        4 + 12 + ((utf8Bytes collection).length + 1) := by
      rw [Value.encode, List.length_append, length_encodeText, id.property]
      omega
    have hsize := declaredSize_leBytes before
      (utf8Bytes collection ++ [0] ++ (id.val ++ after)) ((utf8Bytes collection).length + 1)
      (4 + 12) 1 (by omega) (by omega)
    rw [hlength, Value.encode, encodeText, List.append_assoc, List.append_assoc]
    exact hsize
  | javascript code => exact declaredSize_encodeText after h
  | symbol text => exact declaredSize_encodeText after h
  | codeWithScope code scope =>
    have hlength : (Value.encode (.codeWithScope code scope)).length =
        4 + (encodeText code ++ framed scope.encode).length := by
      rw [Value.encode, List.length_append, length_leBytes]
    have hlong : 5 ≤ (encodeText code ++ framed scope.encode).length := by
      rw [List.length_append, length_framed]
      omega
    have hsize := declaredSize_leBytes before
      (encodeText code ++ framed scope.encode ++ after)
      (4 + (encodeText code ++ framed scope.encode).length) 0 5 (by omega)
      (by omega)
    rw [Nat.zero_add] at hsize
    rw [hlength, Value.encode, List.append_assoc]
    exact hsize
  | int32 value => exact congrArg (fun n => some (some n)) (length_leBytes 4 value.val).symm
  | timestamp value => exact congrArg (fun n => some (some n)) value.property.symm
  | int64 value => exact congrArg (fun n => some (some n)) value.property.symm
  | decimal128 value => exact congrArg (fun n => some (some n)) value.property.symm
  | minKey => rfl
  | maxKey => rfl

end Size

/-! ### The walk -/

theorem Elements.induct {P : Elements → Prop} (nil : P .nil)
    (cons : ∀ name value rest, P rest → P (.cons name value rest)) : ∀ elements, P elements
  | .nil => nil
  | .cons name value rest => cons name value rest (Elements.induct nil cons rest)

theorem type_ne_zero (value : Value) : value.type ≠ 0x00 := by
  cases value <;> simp [Value.type]

theorem toStringUtf8_name (before after : List UInt8) (text : List Char) :
    toStringUtf8 (before ++ (utf8Bytes text ++ after)) before.length
      (before.length + (utf8Bytes text).length) = encodeUtf16 text := by
  have hutf8 : utf8Bytes text = utf8 (encodeUtf16 text) := by
    rw [utf8, codePoints_encodeUtf16]
    rfl
  rw [toStringUtf8, Nat.add_sub_cancel_left, slice_append, hutf8, decodeUtf8_utf8 ⟨text, rfl⟩]

theorem encodeUtf16_eq_js {text : List Char} (name : String) :
    encodeUtf16 text = js name ↔ text = name.toList := by
  constructor
  · intro h
    have hpoints := congrArg codePoints h
    rwa [codePoints_encodeUtf16, js, codePoints_encodeUtf16] at hpoints
  · rintro rfl
    rfl

section Visit

variable {before after : List UInt8}

theorem readDoubleLE_encode (bits : Bytes 8) :
    readDoubleLE (before ++ (bits.val ++ after)) before.length =
      some (doubleValue (unsignedLE bits.val)) := by
  have hslice := slice_append before bits.val after
  rw [bits.property] at hslice
  rw [readDoubleLE, if_pos (by simp [bits.property]), hslice]

theorem readUInt8_append (byte : UInt8) :
    readUInt8 (before ++ (byte :: after)) before.length = some byte := by
  rw [readUInt8, List.getElem?_append_right (Nat.le_refl _), Nat.sub_self]
  rfl

theorem readString_encode {text : List Char} (h : (encodeText text).length < 2 ^ 31) :
    readString (before ++ (encodeText text ++ after)) before.length = some (some (encodeUtf16 text)) := by
  rw [length_encodeText] at h
  have hfits : Fits 3 (((utf8Bytes text).length + 1 : ℕ) : ℤ) := by
    unfold Fits
    omega
  have hbytes : before ++ (encodeText text ++ after) = before ++
      (leBytes 4 ((utf8Bytes text).length + 1 : ℕ) ++ (utf8Bytes text ++ 0 :: after)) := by
    simp [encodeText]
  have hname := toStringUtf8_name (before ++ leBytes 4 ((utf8Bytes text).length + 1 : ℕ)) (0 :: after) text
  rw [List.length_append, length_leBytes, List.append_assoc] at hname
  have hlong : ¬((((utf8Bytes text).length + 1 : ℕ) : ℤ) < 1 ∨
      ((before ++ (leBytes 4 ((utf8Bytes text).length + 1 : ℕ) ++ (utf8Bytes text ++ 0 :: after))).length : ℤ) <
        before.length + 4 + ((utf8Bytes text).length + 1 : ℕ)) := by
    simp only [List.length_append, length_leBytes, List.length_cons]
    omega
  have hstop : before.length + 4 + ((((utf8Bytes text).length + 1 : ℕ) : ℤ)).toNat - 1 =
      before.length + 4 + (utf8Bytes text).length := by omega
  rw [hbytes, readString, readInt32LE_leBytes hfits, Option.bind_eq_bind, Option.bind_some,
    if_neg hlong, hstop, hname]
  rfl

variable {value : Value} (reply : HelloReply)

theorem visit_ok : visit (before ++ (value.encode ++ after)) (js "ok") value.type before.length reply =
    some { reply with ok := (okValue value).getD reply.ok } := by
  cases value with
  | double bits => exact congrArg (Option.map _) (readDoubleLE_encode bits)
  | int32 value => exact congrArg (Option.map _) (readInt32LE_leBytes value.property)
  | _ => rfl

theorem visit_maxWireVersion :
    visit (before ++ (value.encode ++ after)) (js "maxWireVersion") value.type before.length reply =
      some { reply with maxWireVersion := (int32Value value).or reply.maxWireVersion } := by
  cases value with
  | int32 value => exact congrArg (Option.map _) (readInt32LE_leBytes value.property)
  | _ => rfl

theorem visit_isPrimary {name : JsString} (hname : name = js "isWritablePrimary" ∨ name = js "ismaster") :
    visit (before ++ (value.encode ++ after)) name value.type before.length reply =
      some { reply with isPrimary := (booleanValue value).or reply.isPrimary } := by
  have hboolean : ∀ flag : Bool, (readUInt8 (before ++ ((if flag then (1 : UInt8) else 0) :: after))
      before.length).map (fun byte => { reply with isPrimary := some (byte = 1 : Bool) }) =
        some { reply with isPrimary := some flag } := by
    intro flag
    rw [readUInt8_append]
    cases flag <;> rfl
  rcases hname with rfl | rfl
  · cases value with
    | boolean flag => exact hboolean flag
    | _ => rfl
  · cases value with
    | boolean flag => exact hboolean flag
    | _ => rfl

theorem visit_setName (h : value.encode.length < 2 ^ 31) :
    visit (before ++ (value.encode ++ after)) (js "setName") value.type before.length reply =
      some { reply with replicaSet := (stringValue value).or reply.replicaSet } := by
  cases value with
  | string text => exact congrArg (Option.map _) (readString_encode h)
  | _ => rfl

theorem visit_other {name : JsString} (type : UInt8) {document : List UInt8} {valueAt : ℕ}
    (hname : name ∉ [js "ok", js "maxWireVersion", js "isWritablePrimary", js "ismaster", js "setName"]) :
    visit document name type valueAt reply = some reply := by
  simp only [List.mem_cons, List.not_mem_nil, or_false, not_or] at hname
  obtain ⟨hok, hmax, hprimary, hmaster, hset⟩ := hname
  rw [visit, if_neg hok, if_neg hmax, if_neg (by rintro (h | h) <;> contradiction), if_neg hset]

theorem visit_encode (name : CString) (h : value.encode.length < 2 ^ 31) :
    visit (before ++ (value.encode ++ after)) (encodeUtf16 name.val) value.type before.length reply =
      some (replyWith reply (name, value)) := by
  have hjs : ∀ s, name.val = String.toList s → encodeUtf16 name.val = js s :=
    fun s => (encodeUtf16_eq_js s).mpr
  by_cases hok : name.val = "ok".toList
  · rw [hjs _ hok, visit_ok]
    simp only [replyWith, okOf, maxWireVersionOf, isPrimaryOf, setNameOf, hok]
    rfl
  by_cases hmax : name.val = "maxWireVersion".toList
  · rw [hjs _ hmax, visit_maxWireVersion]
    simp only [replyWith, okOf, maxWireVersionOf, isPrimaryOf, setNameOf, hmax]
    rfl
  by_cases hprimary : name.val = "isWritablePrimary".toList
  · rw [hjs _ hprimary, visit_isPrimary reply (.inl rfl)]
    simp only [replyWith, okOf, maxWireVersionOf, isPrimaryOf, setNameOf, hprimary]
    rfl
  by_cases hmaster : name.val = "ismaster".toList
  · rw [hjs _ hmaster, visit_isPrimary reply (.inr rfl)]
    simp only [replyWith, okOf, maxWireVersionOf, isPrimaryOf, setNameOf, hmaster]
    rfl
  by_cases hset : name.val = "setName".toList
  · rw [hjs _ hset, visit_setName reply h]
    simp only [replyWith, okOf, maxWireVersionOf, isPrimaryOf, setNameOf, hset]
    rfl
  · rw [visit_other]
    · rw [replyWith, okOf, if_neg hok, maxWireVersionOf, if_neg hmax, isPrimaryOf,
        if_neg (by rintro (h | h) <;> contradiction), setNameOf, if_neg hset]
      rfl
    · simp only [List.mem_cons, List.not_mem_nil, or_false, not_or, encodeUtf16_eq_js]
      exact ⟨hok, hmax, hprimary, hmaster, hset⟩

end Visit

/-! ### The walk over a document -/

theorem turn_element (before after : List UInt8) (name : CString) (value : Value)
    (h : value.encode.length < 2 ^ 31) (reply : HelloReply) :
    turn (before ++ (value.type :: (encodeCString name ++ (value.encode ++ after)))) before.length reply =
      some (.next (replyWith reply (name, value))
        (before ++ (value.type :: (encodeCString name ++ value.encode))).length) := by
  obtain ⟨document, hdocument⟩ : ∃ document, document =
    before ++ (value.type :: (encodeCString name ++ (value.encode ++ after))) := ⟨_, rfl⟩
  have hname : document =
      before ++ [value.type] ++ (utf8Bytes name.val ++ 0 :: (value.encode ++ after)) := by
    simp [hdocument, encodeCString]
  have hvalue : document =
      before ++ (value.type :: encodeCString name) ++ (value.encode ++ after) := by
    simp [hdocument]
  have hstart : (before ++ [value.type]).length = before.length + 1 := by simp
  have hvalueAt : (before ++ (value.type :: encodeCString name)).length =
      before.length + 1 + (utf8Bytes name.val).length + 1 := by
    rw [List.length_append, List.length_cons, length_encodeCString]
    omega
  have htype : readUInt8 document before.length = some value.type := by
    rw [hdocument, readUInt8_append]
  have hindex : indexOfZero document (before.length + 1) =
      some (before.length + 1 + (utf8Bytes name.val).length) := by
    rw [hname, ← hstart, indexOfZero_append _ _ (zero_notMem_utf8Bytes name)]
  have htext : toStringUtf8 document (before.length + 1)
      (before.length + 1 + (utf8Bytes name.val).length) = encodeUtf16 name.val := by
    rw [hname, ← hstart, toStringUtf8_name]
  have hsize : valueSize document value.type (before.length + 1 + (utf8Bytes name.val).length + 1) =
      some (some value.encode.length) := by
    rw [hvalue, ← hvalueAt, valueSize_encode h]
  have hvisit : visit document (encodeUtf16 name.val) value.type
      (before.length + 1 + (utf8Bytes name.val).length + 1) reply =
        some (replyWith reply (name, value)) := by
    rw [hvalue, ← hvalueAt, visit_encode reply name h]
  have hlong : ¬document.length <
      before.length + 1 + (utf8Bytes name.val).length + 1 + value.encode.length := by
    rw [hvalue, List.length_append, hvalueAt, List.length_append]
    omega
  have hend : (before ++ (value.type :: (encodeCString name ++ value.encode))).length =
      before.length + 1 + (utf8Bytes name.val).length + 1 + value.encode.length := by
    rw [List.length_append, List.length_cons, List.length_append, length_encodeCString]
    omega
  rw [← hdocument, hend, turn, htype]
  simp only [Option.bind_eq_bind, Option.bind_some, if_neg (type_ne_zero value), hindex, htext, hsize,
    if_neg hlong, hvisit]
  rfl

theorem walk_elements (elements : Elements) : ∀ (before : List UInt8) (reply : HelloReply),
    elements.encode.length < 2 ^ 31 →
    walk (before ++ (elements.encode ++ [0])) before.length reply =
      some (elements.toList.foldl replyWith reply) := by
  induction elements using Elements.induct with
  | nil =>
    intro before reply _
    have hturn : turn (before ++ [0]) before.length reply = some .stop := by
      rw [turn, readUInt8_append]
      rfl
    exact walk_stop (by simp) hturn
  | cons name value rest ih =>
    intro before reply h
    have hlength : (Elements.cons name value rest).encode.length =
        1 + (encodeCString name).length + value.encode.length + rest.encode.length := by
      rw [Elements.encode, List.length_cons, List.length_append, List.length_append]
      omega
    have hbytes : before ++ ((Elements.cons name value rest).encode ++ [0]) =
        before ++ (value.type :: (encodeCString name ++ value.encode)) ++ (rest.encode ++ [0]) := by
      rw [Elements.encode]
      simp
    have hturn := turn_element before (rest.encode ++ [0]) name
      value (by omega) reply
    have hsame : before ++ (value.type :: (encodeCString name ++ (value.encode ++ (rest.encode ++ [0])))) =
        before ++ (value.type :: (encodeCString name ++ value.encode)) ++ (rest.encode ++ [0]) := by simp
    rw [hsame] at hturn
    rw [hbytes, walk_next (by simp) hturn, ih _ _ (by omega)]
    rfl

/-- The whole of a well-formed document is visited, and whatever the bytes are, no read goes past
their end. -/
theorem hello_read :
    (∀ elements : Elements, (encodeDocument elements).length < 2 ^ 31 →
      readHelloDocument (encodeDocument elements) = some (replyOf elements.toList)) ∧
    ∀ message : List UInt8, (readHelloReply message).isSome := by
  refine ⟨fun elements h => ?_, readHelloReply_isSome⟩
  rw [encodeDocument, length_framed] at h
  have hwalk := walk_elements elements (leBytes 4 (elements.encode.length + 5 : ℕ)) unreadable (by omega)
  rw [length_leBytes, foldl_replyWith] at hwalk
  exact hwalk

end Vigil.Wire.Bson
