import Vigil.Js.Utf8
import Vigil.Lib.BigEndian
import Vigil.Net.Address

/-! `monitors/types/probes/snmp-codec.ts`: BER, the community message and the v3 message.  What is
encoded is a list of bytes, or `none` for the `SnmpEncodeError` or `RangeError` that is thrown; the
contents of a length of 2 ^ 24 and more get the header that the code writes for them.  What is decoded is a
buffer, which knows where it begins in the memory it shares with the datagram, and a read outside it
is a failure of its own. -/

namespace Vigil.Wire.SnmpCodec

open Js.Text Js.Utf8 Lib.BigEndian
open Net.Address (split join isDigit parseDigits)

def tagInteger : UInt8 := 0x02
def tagOctetString : UInt8 := 0x04
def tagNull : UInt8 := 0x05
def tagOid : UInt8 := 0x06
def tagSequence : UInt8 := 0x30
def tagIpAddress : UInt8 := 0x40
def tagCounter32 : UInt8 := 0x41
def tagGauge32 : UInt8 := 0x42
def tagTimeTicks : UInt8 := 0x43
def tagOpaque : UInt8 := 0x44
def tagCounter64 : UInt8 := 0x46
def tagNoSuchObject : UInt8 := 0x80
def tagNoSuchInstance : UInt8 := 0x81
def tagEndOfMibView : UInt8 := 0x82
def tagGetResponse : UInt8 := 0xA2

/-- `FLAG.PRIV` -/
def flagPriv : UInt8 := 0x02

def usmSecurityModel : ℤ := 3

def maxMessageSize : ℤ := 65507

/-- `AUTH_PARAM_LENGTH` -/
def authParamLength : ℕ := 12

/-! ### Encoding -/

def tlvHeaderLength (contentLength : ℕ) : ℕ :=
  if contentLength < 0x80 then 2
  else if contentLength ≤ 0xFF then 3
  else if contentLength ≤ 0xFFFF then 4
  else 5

def encodeLength (length : ℕ) : List UInt8 :=
  if length < 0x80 then [length.toUInt8]
  else if length ≤ 0xFF then [0x81, length.toUInt8]
  else if length ≤ 0xFFFF then [0x82, (length / 0x100).toUInt8, length.toUInt8]
  else [0x83, (length / 0x10000).toUInt8, (length / 0x100).toUInt8, length.toUInt8]

def tlv (tag : UInt8) (content : List UInt8) : List UInt8 :=
  tag :: (encodeLength content.length ++ content)

/-- `n & 0xff` -/
def lowByte (n : ℤ) : UInt8 := (n % 256).toNat.toUInt8

/-- The loop of `encodeInteger`; a value of 32 bits is written in four rounds at most. -/
def integerLoop (value : ℤ) : ℕ → ℤ → List UInt8 → List UInt8
  | 0, _, bytes => bytes
  | rounds + 1, remaining, bytes =>
    let bytes := lowByte remaining :: bytes
    let remaining := remaining / 256
    if value < 0 ∧ remaining = -1 then bytes
    else if remaining ≠ 0 ∧ remaining ≠ -1 then integerLoop value rounds remaining bytes
    else bytes

/-- The content of a BER INTEGER. -/
def integerContent (value : ℤ) : List UInt8 :=
  let bytes := integerLoop value 4 value []
  let first := bytes.headD 0
  if 0 ≤ value ∧ first &&& 0x80 ≠ 0 then 0x00 :: bytes
  else if value < 0 ∧ first &&& 0x80 = 0 then 0xFF :: bytes
  else bytes

def encodeInteger (value : ℤ) : Option (List UInt8) :=
  if 0x7FFFFFFF < value ∨ value < -0x80000000 then none
  else some (tlv tagInteger (integerContent value))

def encodeOctetString (value : List UInt8) : List UInt8 := tlv tagOctetString value

/-- `NULL` -/
def encodeNull : List UInt8 := tlv tagNull []

def encodeSequence (parts : List (List UInt8)) : List UInt8 := tlv tagSequence parts.flatten

/-- The loop of `pushBase128` that takes a value apart. -/
def septets (remaining : ℕ) (taken : List UInt8) : List UInt8 :=
  let taken := (remaining % 128).toUInt8 :: taken
  if 0 < remaining / 128 then septets (remaining / 128) taken else taken
termination_by remaining
decreasing_by omega

/-- A continuation bit on every septet but the last. -/
def withContinuation : List UInt8 → List UInt8
  | [] => []
  | [last] => [last]
  | septet :: next :: rest => (septet ||| 0x80) :: withContinuation (next :: rest)

/-- `pushBase128` -/
def base128 (value : ℕ) : List UInt8 := withContinuation (septets value [])

/-- `/^\d+$/.test(arc)`, and then `BigInt(arc)`. -/
def parseArc (arc : JsString) : Option ℕ :=
  if arc ≠ [] ∧ arc.all isDigit then some (parseDigits 10 arc) else none

/-- The content of a BER OBJECT IDENTIFIER. -/
def oidContent (oid : JsString) : Option (List UInt8) :=
  match (split (js ".") oid).mapM parseArc with
  | some (first :: second :: arcs) =>
    if 2 < first ∨ first < 2 ∧ 40 ≤ second then none
    else some (base128 (first * 40 + second) ++ arcs.flatMap base128)
  | _ => none

def encodeOid (oid : JsString) : Option (List UInt8) := (oidContent oid).map (tlv tagOid)

/-! ### Reading -/

/-- What a decoder throws. -/
inductive DecodeFailure where
  | snmpDecodeError (message : JsString)
  /-- A read outside a buffer, or a missing value used as one. -/
  | outOfRange
  /-- A loop went on for longer than the bytes it was given. -/
  | unfinished
  deriving DecidableEq

abbrev Decoded (α : Type) := Except DecodeFailure α

def refuse {α : Type} (message : String) : Decoded α := .error (.snmpDecodeError (js message))

/-- A view of a part of some memory. -/
structure Buffer where
  /-- Where the buffer begins in the memory it shares. -/
  byteOffset : ℕ
  bytes : List UInt8
  deriving DecidableEq

namespace Buffer

def length (buffer : Buffer) : ℕ := buffer.bytes.length

/-- `buffer[index]!` -/
def read (buffer : Buffer) (index : ℕ) : Decoded UInt8 :=
  match buffer.bytes[index]? with
  | some byte => .ok byte
  | none => .error .outOfRange

/-- `buffer.subarray(start, stop)` -/
def subarray (buffer : Buffer) (start stop : ℕ) : Buffer :=
  ⟨buffer.byteOffset + min start buffer.length, (buffer.bytes.take stop).drop start⟩

end Buffer

/-- An element that was read. -/
structure Tlv where
  tag : UInt8
  content : Buffer
  /-- `end` -/
  stop : ℕ
  deriving DecidableEq

/-- The length that some bytes from `cursor` on write. -/
def readLength (buffer : Buffer) (cursor : ℕ) : ℕ → Decoded ℕ
  | 0 => .ok 0
  | index + 1 => do
    let length ← readLength buffer cursor index
    let byte ← buffer.read (cursor + index)
    .ok (length * 256 + byte.toNat)

/-- The element whose content begins at `cursor`. -/
def readContent (buffer : Buffer) (tag : UInt8) (cursor length : ℕ) : Decoded Tlv :=
  if buffer.length < cursor + length then refuse "Element runs past the end of the datagram"
  else .ok ⟨tag, buffer.subarray cursor (cursor + length), cursor + length⟩

/-- The element at an offset. -/
def readTlv (buffer : Buffer) (offset : ℕ) : Decoded Tlv :=
  if buffer.length < offset + 2 then refuse "Truncated element"
  else do
    let tag ← buffer.read offset
    let lengthByte ← buffer.read (offset + 1)
    let cursor := offset + 2
    if lengthByte &&& 0x80 = 0 then readContent buffer tag cursor lengthByte.toNat
    else
      let lengthBytes := (lengthByte &&& 0x7F).toNat
      if lengthBytes = 0 ∨ 4 < lengthBytes then refuse "Unsupported BER length"
      else if buffer.length < cursor + lengthBytes then refuse "Truncated length"
      else do
        let length ← readLength buffer cursor lengthBytes
        readContent buffer tag (cursor + lengthBytes) length

/-- `n.toString(16)` -/
def hexText (n : ℕ) : JsString := encodeUtf16 (Nat.toDigits 16 n)

def expectTlv (buffer : Buffer) (offset : ℕ) (tag : UInt8) : Decoded Tlv := do
  let element ← readTlv buffer offset
  if element.tag ≠ tag then
    .error (.snmpDecodeError (js "Expected 0x" ++ hexText tag.toNat ++ js ", found 0x" ++
      hexText element.tag.toNat))
  else .ok element

def maxSafeInteger : ℤ := 2 ^ 53 - 1

/-- The number of an `INTEGER`. -/
def readSignedInteger (content : Buffer) : Decoded ℤ :=
  if content.length = 0 then refuse "Empty INTEGER"
  else do
    let first ← content.read 0
    let value : ℤ := bigEndian content.bytes
    let value := if first &&& 0x80 ≠ 0 then value - 256 ^ content.length else value
    if maxSafeInteger < value ∨ value < -maxSafeInteger then refuse "INTEGER out of range"
    else .ok value

def readUnsignedInteger (content : Buffer) : ℕ := bigEndian content.bytes

/-- The arcs that are complete, what the one after them has so far, and whether it has begun. -/
structure OidRead where
  arcs : List ℕ
  accumulator : ℕ
  started : Bool

def OidRead.push (read : OidRead) (byte : UInt8) : OidRead :=
  let accumulator := read.accumulator * 128 + (byte &&& 0x7F).toNat
  if byte &&& 0x80 = 0 then ⟨read.arcs ++ [accumulator], 0, false⟩
  else ⟨read.arcs, accumulator, true⟩

/-- The two arcs that share the first number. -/
def splitFirst (first : ℕ) : List ℕ :=
  if first < 40 then [0, first] else if first < 80 then [1, first - 40] else [2, first - 80]

/-- `arcs.join(".")` -/
def oidText (arcs : List ℕ) : JsString := join (arcs.map fun arc : ℕ => decimal arc) (js ".")

/-- The text of an `OBJECT IDENTIFIER`. -/
def readOid (content : Buffer) : Decoded JsString :=
  if content.length = 0 then refuse "Empty OID"
  else
    let read := content.bytes.foldl OidRead.push ⟨[], 0, false⟩
    if read.started then refuse "OID ends mid-arc"
    else
      match read.arcs with
      | [] => .error .outOfRange
      | first :: arcs => .ok (oidText (splitFirst first ++ arcs))

/-! ### Values -/

/-- A value as a check reads it. -/
structure DecodedValue where
  type : JsString
  value : Option JsString
  numericValue : Option ℤ
  exception : Option JsString
  deriving DecidableEq

/-- A value with its name. -/
structure DecodedVarbind extends DecodedValue where
  oid : JsString
  deriving DecidableEq

/-- `EXCEPTIONS` -/
def exceptionOf (tag : UInt8) : Option JsString :=
  if tag = tagNoSuchObject then some (js "noSuchObject")
  else if tag = tagNoSuchInstance then some (js "noSuchInstance")
  else if tag = tagEndOfMibView then some (js "endOfMibView")
  else none

/-- `TYPE_NAMES`, and the name of another type. -/
def typeName (tag : UInt8) : JsString :=
  if tag = tagInteger then js "Integer"
  else if tag = tagOctetString then js "OctetString"
  else if tag = tagNull then js "Null"
  else if tag = tagOid then js "OID"
  else if tag = tagIpAddress then js "IpAddress"
  else if tag = tagCounter32 then js "Counter32"
  else if tag = tagGauge32 then js "Gauge32"
  else if tag = tagTimeTicks then js "TimeTicks"
  else if tag = tagOpaque then js "Opaque"
  else if tag = tagCounter64 then js "Counter64"
  else js "Unknown(0x" ++ hexText tag.toNat ++ js ")"

def isPrintable (byte : UInt8) : Bool :=
  byte = 0x09 || byte = 0x0A || byte = 0x0D || (0x20 ≤ byte && byte < 0x7F)

/-- `content.toString("hex")` -/
def hexBytes (bytes : List UInt8) : JsString :=
  bytes.flatMap fun byte => [hexDigit (byte.toNat / 16), hexDigit (byte.toNat % 16)]

def readOctetString (content : Buffer) : JsString :=
  if content.bytes.all isPrintable then decodeUtf8 content.bytes
  else js "0x" ++ hexBytes content.bytes

/-- The tags of the counters. -/
def isUnsigned (tag : UInt8) : Bool :=
  tag = tagCounter32 || tag = tagGauge32 || tag = tagTimeTicks || tag = tagCounter64

/-- The value of an element. -/
def decodeValue (element : Tlv) : Decoded DecodedValue :=
  let type := typeName element.tag
  match exceptionOf element.tag with
  | some exception => .ok ⟨exception, none, none, some exception⟩
  | none =>
    if element.tag = tagInteger then do
      let value ← readSignedInteger element.content
      .ok ⟨type, some (decimal value), some value, none⟩
    else if isUnsigned element.tag then
      let value := readUnsignedInteger element.content
      .ok ⟨type, some (decimal value), if (value : ℤ) ≤ maxSafeInteger then some value else none,
        none⟩
    else if element.tag = tagIpAddress then
      if element.content.length ≠ 4 then refuse "IpAddress is not four bytes"
      else .ok ⟨type, some (oidText (element.content.bytes.map UInt8.toNat)), none, none⟩
    else if element.tag = tagOid then do
      let value ← readOid element.content
      .ok ⟨type, some value, none, none⟩
    else if element.tag = tagNull then .ok ⟨type, none, none, none⟩
    else .ok ⟨type, some (readOctetString element.content), none, none⟩

/-! ### PDUs -/

/-- A PDU that was read. -/
structure DecodedPdu where
  tag : UInt8
  requestId : ℤ
  errorStatus : ℤ
  errorIndex : ℤ
  varbinds : List DecodedVarbind
  deriving DecidableEq

/-- What `encodeResponsePdu` is given for a varbind. -/
structure Varbind where
  oid : JsString
  value : List UInt8

def encodeVarbind (varbind : Varbind) : Option (List UInt8) := do
  let oid ← encodeOid varbind.oid
  some (encodeSequence [oid, varbind.value])

def encodeSpread (argumentLimit : ℕ) (parts : List (List UInt8)) : Option (List UInt8) :=
  if argumentLimit < parts.length then none else some (encodeSequence parts)

def encodeResponsePdu (argumentLimit : ℕ) (requestId errorStatus : ℤ) (varbinds : List Varbind)
    (tag : UInt8 := tagGetResponse) : Option (List UInt8) := do
  let requestId ← encodeInteger requestId
  let errorStatus ← encodeInteger errorStatus
  let errorIndex ← encodeInteger 0
  let entries ← varbinds.mapM encodeVarbind
  let list ← encodeSpread argumentLimit entries
  some (tlv tag [requestId, errorStatus, errorIndex, list].flatten)

/-- One turn of the loop of `decodePdu`: the varbind at `cursor`, and where the next one begins. -/
def readVarbind (list : Buffer) (cursor : ℕ) : Decoded (DecodedVarbind × ℕ) := do
  let entry ← expectTlv list cursor tagSequence
  let oid ← expectTlv entry.content 0 tagOid
  let value ← readTlv entry.content oid.stop
  let text ← readOid oid.content
  let decoded ← decodeValue value
  .ok (⟨decoded, text⟩, entry.stop)

def readVarbinds (list : Buffer) : ℕ → ℕ → Decoded (List DecodedVarbind)
  | 0, _ => .error .unfinished
  | fuel + 1, cursor =>
    if cursor < list.length then do
      let (varbind, next) ← readVarbind list cursor
      let rest ← readVarbinds list fuel next
      .ok (varbind :: rest)
    else .ok []

/-- The PDU at an offset. -/
def decodePdu (buffer : Buffer) (offset : ℕ) : Decoded DecodedPdu := do
  let pdu ← readTlv buffer offset
  if pdu.tag &&& 0xE0 ≠ 0xA0 then
    .error (.snmpDecodeError (js "Not a PDU: 0x" ++ hexText pdu.tag.toNat))
  else do
    let requestId ← expectTlv pdu.content 0 tagInteger
    let errorStatus ← expectTlv pdu.content requestId.stop tagInteger
    let errorIndex ← expectTlv pdu.content errorStatus.stop tagInteger
    let list ← expectTlv pdu.content errorIndex.stop tagSequence
    let varbinds ← readVarbinds list.content (list.content.length + 1) 0
    let requestId ← readSignedInteger requestId.content
    let errorStatus ← readSignedInteger errorStatus.content
    let errorIndex ← readSignedInteger errorIndex.content
    .ok ⟨pdu.tag, requestId, errorStatus, errorIndex, varbinds⟩

/-! ### Messages -/

/-- A message of version 1 or 2c. -/
structure CommunityMessage where
  wireVersion : ℤ
  community : JsString
  pdu : DecodedPdu

def decodeCommunityMessage (datagram : Buffer) : Decoded CommunityMessage := do
  let message ← expectTlv datagram 0 tagSequence
  let version ← expectTlv message.content 0 tagInteger
  let community ← expectTlv message.content version.stop tagOctetString
  let wireVersion ← readSignedInteger version.content
  let pdu ← decodePdu message.content community.stop
  .ok ⟨wireVersion, decodeUtf8 community.content.bytes, pdu⟩

def peekVersion (datagram : Buffer) : Decoded ℤ := do
  let message ← expectTlv datagram 0 tagSequence
  let version ← expectTlv message.content 0 tagInteger
  readSignedInteger version.content

/-- `UsmParameters` and `V3MessageParts`, whose byte fields are lists where they are encoded and
buffers where they were decoded. -/
structure UsmParameters (Bytes : Type) where
  engineId : Bytes
  engineBoots : ℤ
  engineTime : ℤ
  userName : JsString
  authParams : Bytes
  privParams : Bytes

/-- The parts of a message of version 3. -/
structure V3MessageParts (Bytes : Type) where
  msgId : ℤ
  flags : UInt8
  usm : UsmParameters Bytes
  scopedPdu : Bytes
  encrypted : Bool

/-- The bytes of a message, and where its digest goes. -/
structure EncodedV3Message where
  message : List UInt8
  authParamsOffset : ℕ

/-- The message with room for its digest, or the error that some number does not fit. -/
def encodeV3Message (parts : V3MessageParts (List UInt8)) : Option EncodedV3Message := do
  let version ← encodeInteger 3
  let msgId ← encodeInteger parts.msgId
  let maxSize ← encodeInteger maxMessageSize
  let securityModel ← encodeInteger usmSecurityModel
  let globalData := encodeSequence [msgId, maxSize, encodeOctetString [parts.flags], securityModel]
  let engineBoots ← encodeInteger parts.usm.engineBoots
  let engineTime ← encodeInteger parts.usm.engineTime
  let before := [encodeOctetString parts.usm.engineId, engineBoots, engineTime,
    encodeOctetString (utf8 parts.usm.userName)]
  let authField := encodeOctetString parts.usm.authParams
  let usmContent := (before ++ [authField, encodeOctetString parts.usm.privParams]).flatten
  let usmParameters := tlv tagSequence usmContent
  let securityParameters := encodeOctetString usmParameters
  let payload := if parts.encrypted then encodeOctetString parts.scopedPdu else parts.scopedPdu
  let body := [version, globalData, securityParameters, payload].flatten
  let message := tlv tagSequence body
  let beforeLength := (before.map List.length).sum
  let authParamsOffset := tlvHeaderLength body.length + version.length + globalData.length +
    tlvHeaderLength usmParameters.length + tlvHeaderLength usmContent.length + beforeLength +
    tlvHeaderLength parts.usm.authParams.length
  some ⟨message, authParamsOffset⟩

structure DecodedV3Message extends V3MessageParts Buffer where
  authParamsOffset : ℕ
  raw : Buffer

/-- The message in a datagram, if it is of version 3. -/
def decodeV3Message (datagram : Buffer) : Decoded DecodedV3Message := do
  let message ← expectTlv datagram 0 tagSequence
  let base := message.stop - message.content.length
  let version ← expectTlv message.content 0 tagInteger
  let versionNumber ← readSignedInteger version.content
  if versionNumber ≠ 3 then refuse "Not an SNMPv3 message"
  else do
    let globalData ← expectTlv message.content version.stop tagSequence
    let msgId ← expectTlv globalData.content 0 tagInteger
    let maxSize ← expectTlv globalData.content msgId.stop tagInteger
    let flags ← expectTlv globalData.content maxSize.stop tagOctetString
    if flags.content.length ≠ 1 then refuse "msgFlags is not one byte"
    else do
      let securityParameters ← expectTlv message.content globalData.stop tagOctetString
      let usmStart := base + securityParameters.stop - securityParameters.content.length
      let usm ← expectTlv securityParameters.content 0 tagSequence
      let usmBase := usmStart + (usm.stop - usm.content.length)
      let engineId ← expectTlv usm.content 0 tagOctetString
      let boots ← expectTlv usm.content engineId.stop tagInteger
      let time ← expectTlv usm.content boots.stop tagInteger
      let userName ← expectTlv usm.content time.stop tagOctetString
      let authParams ← expectTlv usm.content userName.stop tagOctetString
      let privParams ← expectTlv usm.content authParams.stop tagOctetString
      let flagByte ← flags.content.read 0
      let encrypted := flagByte &&& flagPriv ≠ 0
      let payload ← readTlv message.content securityParameters.stop
      if encrypted ∧ payload.tag ≠ tagOctetString then
        refuse "An encrypted ScopedPDU must be an OCTET STRING"
      else do
        let msgId ← readSignedInteger msgId.content
        let engineBoots ← readSignedInteger boots.content
        let engineTime ← readSignedInteger time.content
        .ok {
          msgId
          flags := flagByte
          usm := {
            engineId := engineId.content
            engineBoots
            engineTime
            userName := decodeUtf8 userName.content.bytes
            authParams := authParams.content
            privParams := privParams.content }
          scopedPdu :=
            if encrypted then payload.content
            else message.content.subarray securityParameters.stop payload.stop
          encrypted
          authParamsOffset := usmBase + (authParams.stop - authParams.content.length)
          raw := datagram }

/-- The PDU in its scope. -/
def decodeScopedPdu (buffer : Buffer) : Decoded DecodedPdu := do
  let scopedPdu ← expectTlv buffer 0 tagSequence
  let contextEngineId ← expectTlv scopedPdu.content 0 tagOctetString
  let contextName ← expectTlv scopedPdu.content contextEngineId.stop tagOctetString
  decodePdu scopedPdu.content contextName.stop

/-! ### Authentication -/

section Authentication

-- `createHmac(DIGESTS[protocol], key).update(message).digest()`
variable (hmac : List UInt8 → List UInt8 → List UInt8)

def digestFor (message key : List UInt8) : List UInt8 := (hmac key message).take authParamLength

/-- `source.copy(target, offset)` -/
def copyInto (source target : List UInt8) (offset : ℕ) : List UInt8 :=
  target.take offset ++ (source.take (target.length - offset) ++
    target.drop (offset + source.length))

def authenticateMessage (encoded : EncodedV3Message) (key : List UInt8) : List UInt8 :=
  copyInto (digestFor hmac encoded.message key) encoded.message encoded.authParamsOffset

/-- `difference`, over the bytes at the first places of two buffers. -/
def differenceOf (count : ℕ) (expected found : List UInt8) : UInt8 :=
  (List.range count).foldl
    (fun difference index => difference ||| (expected.getD index 0 ^^^ found.getD index 0)) 0

def verifyMessage (decoded : DecodedV3Message) (key : List UInt8) : Bool :=
  if decoded.usm.authParams.length ≠ authParamLength then false
  else
    let zeroed := copyInto (List.replicate authParamLength 0) decoded.raw.bytes
      decoded.authParamsOffset
    differenceOf authParamLength (digestFor hmac zeroed key) decoded.usm.authParams.bytes = 0

end Authentication

end Vigil.Wire.SnmpCodec
