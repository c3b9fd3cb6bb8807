import Vigil.Js.Utf8
import Vigil.Lib.Buffer
import Vigil.Lib.LittleEndian

/-! The reading of a `hello` reply in `monitors/types/probes/mongodb.ts`: the header of an OP_REPLY,
and the walk over the top-level elements of the document behind it.  A read that goes past the end
throws, and nothing else does. -/

namespace Vigil.Wire.Mongodb

open Js.Text Js.Utf8 Lib.Buffer Lib.LittleEndian

def opReply : ℤ := 1

def headerBytes : ℕ := 16

def replyPreambleBytes : ℕ := 20

def minReplyBytes : ℕ := headerBytes + replyPreambleBytes

/-! ### The types of BSON -/

def bsonDouble : UInt8 := 0x01
def bsonString : UInt8 := 0x02
def bsonDocument : UInt8 := 0x03
def bsonArray : UInt8 := 0x04
def bsonBinary : UInt8 := 0x05
def bsonUndefined : UInt8 := 0x06
def bsonObjectId : UInt8 := 0x07
def bsonBoolean : UInt8 := 0x08
def bsonDate : UInt8 := 0x09
def bsonNull : UInt8 := 0x0a
def bsonRegex : UInt8 := 0x0b
def bsonDbPointer : UInt8 := 0x0c
def bsonJavascript : UInt8 := 0x0d
def bsonSymbol : UInt8 := 0x0e
def bsonCodeWithScope : UInt8 := 0x0f
def bsonInt32 : UInt8 := 0x10
def bsonTimestamp : UInt8 := 0x11
def bsonInt64 : UInt8 := 0x12
def bsonDecimal128 : UInt8 := 0x13
def bsonMinKey : UInt8 := 0xff
def bsonMaxKey : UInt8 := 0x7f

/-! ### Reads -/

def readUInt8 (buffer : List UInt8) (offset : ℕ) : Option UInt8 := buffer[offset]?

def readInt32LE (buffer : List UInt8) (offset : ℕ) : Option ℤ :=
  if offset + 4 ≤ buffer.length then some (signedLE (slice buffer offset 4)) else none

/-- The number that the 64 bits of a double are; infinities and NaN are none. -/
def doubleValue (bits : ℕ) : Option ℚ :=
  let sign : ℚ := if bits / 2 ^ 63 % 2 = 1 then -1 else 1
  let exponent : ℕ := bits / 2 ^ 52 % 2048
  let fraction : ℕ := bits % 2 ^ 52
  if exponent = 2047 then none
  else if exponent = 0 then some (sign * (fraction : ℚ) / 2 ^ 1074)
  else some (sign * ((2 ^ 52 + fraction : ℕ) : ℚ) * 2 ^ exponent / 2 ^ 1075)

def readDoubleLE (buffer : List UInt8) (offset : ℕ) : Option (Option ℚ) :=
  if offset + 8 ≤ buffer.length then some (doubleValue (unsignedLE (slice buffer offset 8))) else none

/-- `buffer.indexOf(0x00, from)`, where `none` is `-1`. -/
def indexOfZero (buffer : List UInt8) (start : ℕ) : Option ℕ :=
  ((buffer.drop start).findIdx? fun byte => byte = 0).map fun index => start + index

/-- `buffer.toString("utf8", start, stop)` -/
def toStringUtf8 (buffer : List UInt8) (start stop : ℕ) : JsString :=
  decodeUtf8 (slice buffer start (stop - start))

/-! ### The reply -/

/-- What is kept of the server's answer. -/
structure HelloReply where
  ok : Bool
  maxWireVersion : Option ℤ
  isPrimary : Option Bool
  replicaSet : Option JsString
  deriving DecidableEq, Repr

def unreadable : HelloReply where
  ok := false
  maxWireVersion := none
  isPrimary := none
  replicaSet := none

def readString (document : List UInt8) (offset : ℕ) : Option (Option JsString) := do
  let length ← readInt32LE document offset
  if length < 1 ∨ (document.length : ℤ) < offset + 4 + length then return none
  else return some (toStringUtf8 document (offset + 4) (offset + 4 + length.toNat - 1))

/-- The length in front of a value: `none` inside when it does not stand in the document. -/
def declared (document : List UInt8) (offset : ℕ) : Option (Option ℤ) :=
  if offset + 4 ≤ document.length then (readInt32LE document offset).map some else some none

/-- The size that follows from the length in front, unless that is too small. -/
def declaredSize (document : List UInt8) (offset : ℕ) (least : ℤ) (more : ℕ) :
    Option (Option ℕ) := do
  let length ← declared document offset
  return length.bind fun length => if length < least then none else some (more + length.toNat)

/-- How many bytes a value of a type occupies; `none` inside when that cannot be worked out. -/
def valueSize (document : List UInt8) (type : UInt8) (offset : ℕ) : Option (Option ℕ) :=
  if type = bsonUndefined ∨ type = bsonNull ∨ type = bsonMinKey ∨ type = bsonMaxKey then
    some (some 0)
  else if type = bsonBoolean then some (some 1)
  else if type = bsonInt32 then some (some 4)
  else if type = bsonDouble ∨ type = bsonDate ∨ type = bsonTimestamp ∨ type = bsonInt64 then
    some (some 8)
  else if type = bsonObjectId then some (some 12)
  else if type = bsonDecimal128 then some (some 16)
  else if type = bsonString ∨ type = bsonJavascript ∨ type = bsonSymbol then
    declaredSize document offset 1 4
  else if type = bsonDocument ∨ type = bsonArray ∨ type = bsonCodeWithScope then
    declaredSize document offset 5 0
  else if type = bsonBinary then declaredSize document offset 0 5
  else if type = bsonDbPointer then declaredSize document offset 1 (4 + 12)
  else if type = bsonRegex then
    some do
      let pattern ← indexOfZero document offset
      let flags ← indexOfZero document (pattern + 1)
      return flags + 1 - offset
  else some none

/-- What one element says. -/
def visit (document : List UInt8) (name : JsString) (type : UInt8) (valueAt : ℕ)
    (reply : HelloReply) : Option HelloReply :=
  if name = js "ok" then
    if type = bsonDouble then
      (readDoubleLE document valueAt).map fun (value : Option ℚ) => { reply with ok := value = some 1 }
    else if type = bsonInt32 then
      (readInt32LE document valueAt).map fun (value : ℤ) => { reply with ok := value = 1 }
    else some reply
  else if name = js "maxWireVersion" then
    if type = bsonInt32 then
      (readInt32LE document valueAt).map fun value => { reply with maxWireVersion := some value }
    else some reply
  else if name = js "isWritablePrimary" ∨ name = js "ismaster" then
    if type = bsonBoolean then
      (readUInt8 document valueAt).map fun (value : UInt8) =>
        { reply with isPrimary := some (value = 1 : Bool) }
    else some reply
  else if name = js "setName" then
    if type = bsonString then
      (readString document valueAt).map fun value => { reply with replicaSet := value }
    else some reply
  else some reply

/-- What one turn of the loop does. -/
inductive Turn where
  | stop
  | next (reply : HelloReply) (offset : ℕ)
  deriving DecidableEq

/-- One turn of the loop at an offset inside the document. -/
def turn (document : List UInt8) (offset : ℕ) (reply : HelloReply) : Option Turn := do
  let type ← readUInt8 document offset
  if type = 0x00 then return .stop
  else match indexOfZero document (offset + 1) with
    | none => return .stop
    | some nameEnd => do
      let name := toStringUtf8 document (offset + 1) nameEnd
      let valueAt := nameEnd + 1
      match ← valueSize document type valueAt with
      | none => return .stop
      | some size =>
        if document.length < valueAt + size then return .stop
        else do
          let reply ← visit document name type valueAt reply
          return .next reply (valueAt + size)

theorem indexOfZero_bounds {buffer : List UInt8} {start index : ℕ}
    (h : indexOfZero buffer start = some index) : start ≤ index ∧ index < buffer.length := by
  obtain ⟨found, hfound, rfl⟩ := Option.map_eq_some_iff.mp h
  obtain ⟨hlt, -⟩ := List.findIdx?_eq_some_iff_getElem.mp hfound
  rw [List.length_drop] at hlt
  omega

theorem turn_next {document : List UInt8} {offset offset' : ℕ} {reply reply' : HelloReply}
    (h : turn document offset reply = some (.next reply' offset')) :
    offset < offset' ∧ offset' ≤ document.length := by
  obtain ⟨type, -, h⟩ := Option.bind_eq_some_iff.mp h
  by_cases hend : type = 0x00
  · rw [if_pos hend] at h
    cases h
  · rw [if_neg hend] at h
    cases hname : indexOfZero document (offset + 1) with
    | none =>
      rw [hname] at h
      cases h
    | some nameEnd =>
      have hbounds := indexOfZero_bounds hname
      rw [hname] at h
      obtain ⟨size, -, h⟩ := Option.bind_eq_some_iff.mp h
      cases size with
      | none => cases h
      | some size =>
        by_cases hlong : document.length < nameEnd + 1 + size
        · simp only [if_pos hlong] at h
          cases h
        · simp only [if_neg hlong] at h
          obtain ⟨_, -, hnext⟩ := Option.bind_eq_some_iff.mp h
          obtain ⟨-, rfl⟩ := Turn.next.inj (Option.some_inj.mp hnext)
          omega

/-- `readHelloDocument`'s loop. -/
def walk (document : List UInt8) (offset : ℕ) (reply : HelloReply) : Option HelloReply :=
  if offset < document.length then
    match _h : turn document offset reply with
    | none => none
    | some .stop => some reply
    | some (.next reply offset) => walk document offset reply
  else some reply
termination_by document.length - offset
decreasing_by
  have hnext := turn_next _h
  omega

section Walk

variable {document : List UInt8} {offset offset' : ℕ} {reply reply' : HelloReply}

theorem walk_end (h : ¬offset < document.length) : walk document offset reply = some reply := by
  rw [walk, if_neg h]

theorem walk_stop (h : offset < document.length) (hturn : turn document offset reply = some .stop) :
    walk document offset reply = some reply := by
  rw [walk, if_pos h]
  split
  · rename_i hnone
    rw [hturn] at hnone
    cases hnone
  · rfl
  · rename_i hnext
    rw [hturn] at hnext
    cases hnext

theorem walk_next (h : offset < document.length)
    (hturn : turn document offset reply = some (.next reply' offset')) :
    walk document offset reply = walk document offset' reply' := by
  rw [walk, if_pos h]
  split
  · rename_i hnone
    rw [hturn] at hnone
    cases hnone
  · rename_i hstop
    rw [hturn] at hstop
    cases hstop
  · rename_i hnext
    rw [hturn] at hnext
    cases hnext
    rfl

end Walk

def readHelloDocument (document : List UInt8) : Option HelloReply := walk document 4 unreadable

/-- The fields of the answer in a whole message. -/
def readHelloReply (message : List UInt8) : Option HelloReply :=
  if message.length < minReplyBytes + 5 then some unreadable
  else do
    let opCode ← readInt32LE message 12
    if opCode ≠ opReply then return unreadable
    else do
      let numberReturned ← readInt32LE message (headerBytes + 16)
      if numberReturned < 1 then return unreadable
      else do
        let length ← readInt32LE message minReplyBytes
        if length < 5 ∨ (message.length : ℤ) < minReplyBytes + length then return unreadable
        else readHelloDocument (slice message minReplyBytes length.toNat)

/-! ### No read goes past the end -/

section Safety

variable {document : List UInt8} {offset : ℕ}

theorem readInt32LE_isSome (document : List UInt8) (offset : ℕ) (h : offset + 4 ≤ document.length) :
    (readInt32LE document offset).isSome := by
  rw [readInt32LE, if_pos h]
  rfl

theorem declaredSize_isSome (document : List UInt8) (offset : ℕ) (least : ℤ) (more : ℕ) :
    (declaredSize document offset least more).isSome := by
  rw [declaredSize, declared]
  by_cases h : offset + 4 ≤ document.length
  · obtain ⟨length, hlength⟩ := Option.isSome_iff_exists.mp (readInt32LE_isSome _ _ h)
    rw [if_pos h, hlength]
    rfl
  · rw [if_neg h]
    rfl

theorem valueSize_isSome (document : List UInt8) (offset : ℕ) (type : UInt8) :
    (valueSize document type offset).isSome := by
  have hite : ∀ {P : Prop} [Decidable P] {a b : Option (Option ℕ)}, a.isSome = true →
      b.isSome = true → (if P then a else b).isSome = true := by
    intro P _ a b ha hb
    split
    · exact ha
    · exact hb
  have hsize := declaredSize_isSome document offset
  unfold valueSize
  exact hite rfl (hite rfl (hite rfl (hite rfl (hite rfl (hite rfl (hite (hsize 1 4)
    (hite (hsize 5 0) (hite (hsize 0 5) (hite (hsize 1 (4 + 12)) (hite rfl rfl))))))))))

theorem declaredSize_ge {least : ℤ} {more size : ℕ}
    (h : declaredSize document offset least more = some (some size)) : more + least.toNat ≤ size := by
  obtain ⟨length, -, h⟩ := Option.bind_eq_some_iff.mp h
  obtain ⟨length, -, h⟩ := Option.bind_eq_some_iff.mp (Option.some_inj.mp h)
  split at h
  · cases h
  · have hsize := Option.some_inj.mp h
    omega

theorem visit_isSome (name : JsString) {type : UInt8} {size : ℕ}
    (hsize : valueSize document type offset = some (some size))
    (hend : offset + size ≤ document.length) (reply : HelloReply) :
    (visit document name type offset reply).isSome := by
  have hdouble : type = bsonDouble → (readDoubleLE document offset).isSome := by
    rintro rfl
    have height : 8 = size := Option.some_inj.mp (Option.some_inj.mp hsize)
    rw [readDoubleLE, if_pos (by omega)]
    rfl
  have hint32 : type = bsonInt32 → (readInt32LE document offset).isSome := by
    rintro rfl
    have hfour : 4 = size := Option.some_inj.mp (Option.some_inj.mp hsize)
    exact readInt32LE_isSome _ _ (by omega)
  have hboolean : type = bsonBoolean → (readUInt8 document offset).isSome := by
    rintro rfl
    have hone : 1 = size := Option.some_inj.mp (Option.some_inj.mp hsize)
    rw [readUInt8, List.getElem?_eq_getElem (by omega)]
    rfl
  have hstring : type = bsonString → (readString document offset).isSome := by
    rintro rfl
    have hfive := declaredSize_ge (hsize : declaredSize document offset 1 4 = _)
    obtain ⟨length, hlength⟩ := Option.isSome_iff_exists.mp
      (readInt32LE_isSome document offset (by omega))
    rw [readString, hlength]
    simp only [Option.bind_eq_bind, Option.bind_some]
    split <;> rfl
  unfold visit
  split_ifs with _ h₁ h₂ _ h₃ _ h₄ _ h₅
  · rw [Option.isSome_map]
    exact hdouble h₁
  · rw [Option.isSome_map]
    exact hint32 h₂
  · rfl
  · rw [Option.isSome_map]
    exact hint32 h₃
  · rfl
  · rw [Option.isSome_map]
    exact hboolean h₄
  · rfl
  · rw [Option.isSome_map]
    exact hstring h₅
  · rfl
  · rfl

theorem turn_isSome (h : offset < document.length) (reply : HelloReply) :
    (turn document offset reply).isSome := by
  have htype : readUInt8 document offset = some document[offset] := List.getElem?_eq_getElem h
  rw [turn, htype, Option.bind_eq_bind, Option.bind_some]
  split
  · rfl
  · cases hname : indexOfZero document (offset + 1) with
    | none => rfl
    | some nameEnd =>
      obtain ⟨size, hsize⟩ := Option.isSome_iff_exists.mp
        (valueSize_isSome document (nameEnd + 1) document[offset])
      simp only [hsize, Option.bind_eq_bind, Option.bind_some]
      cases size with
      | none => rfl
      | some size =>
        by_cases hlong : document.length < nameEnd + 1 + size
        · simp only [if_pos hlong]
          rfl
        · obtain ⟨visited, hvisited⟩ := Option.isSome_iff_exists.mp
            (visit_isSome (toStringUtf8 document (offset + 1) nameEnd) hsize (by omega) reply)
          simp only [if_neg hlong, hvisited, Option.bind_some]
          rfl

theorem walk_isSome (document : List UInt8) (offset : ℕ) (reply : HelloReply) :
    (walk document offset reply).isSome := by
  obtain ⟨left, hleft⟩ : ∃ left, left = document.length - offset := ⟨_, rfl⟩
  induction left using Nat.strongRecOn generalizing offset reply with
  | ind left ih =>
    by_cases h : offset < document.length
    · obtain ⟨found, hturn⟩ := Option.isSome_iff_exists.mp (turn_isSome h reply)
      cases found with
      | stop =>
        rw [walk_stop h hturn]
        rfl
      | next reply' offset' =>
        have hnext := turn_next hturn
        rw [walk_next h hturn]
        exact ih _ (by omega) offset' reply' rfl
    · rw [walk_end h]
      rfl

/-- Whatever the message is, it is read without a read past its end. -/
theorem readHelloReply_isSome (message : List UInt8) : (readHelloReply message).isSome := by
  unfold readHelloReply
  split
  · rfl
  · rename_i hlong
    have hmin : minReplyBytes = 36 := rfl
    have hheader : headerBytes = 16 := rfl
    obtain ⟨opCode, hopCode⟩ := Option.isSome_iff_exists.mp
      (readInt32LE_isSome message 12 (by omega))
    obtain ⟨returned, hreturned⟩ := Option.isSome_iff_exists.mp
      (readInt32LE_isSome message (headerBytes + 16) (by omega))
    obtain ⟨length, hlength⟩ := Option.isSome_iff_exists.mp
      (readInt32LE_isSome message minReplyBytes (by omega))
    simp only [hopCode, hreturned, hlength, Option.bind_eq_bind, Option.bind_some]
    split_ifs
    any_goals exact Option.isSome_some
    exact walk_isSome _ _ _

end Safety

end Vigil.Wire.Mongodb
