import Vigil.Wire.SnmpValues

/-! The v3 message of `monitors/types/probes/snmp-codec.ts` is read back as it was written, with the
digest where the encoder said, and what was authenticated is accepted. -/

namespace Vigil.Wire.SnmpMessage

open Js.Text Js.Utf8 Lib.BigEndian SnmpCodec SnmpValues

/-! ### The parts of a message -/

/-- A tag and a length. -/
def header (tag : UInt8) (length : ℕ) : List UInt8 := tag :: encodeLength length

theorem tlv_eq_header (tag : UInt8) (content : List UInt8) :
    tlv tag content = header tag content.length ++ content := rfl

theorem length_header (tag : UInt8) (length : ℕ) :
    (header tag length).length = tlvHeaderLength length := length_encodeLength length

theorem copyInto_append {written old : List UInt8} (before after : List UInt8)
    (h : written.length = old.length) :
    copyInto written (before ++ (old ++ after)) before.length = before ++ (written ++ after) := by
  have hroom : written.length ≤ (before ++ (old ++ after)).length - before.length := by
    simp only [List.length_append]
    omega
  have hdrop : (before ++ (old ++ after)).drop (before.length + written.length) = after := by
    rw [h, ← List.append_assoc, ← List.length_append, List.drop_left]
  rw [copyInto, List.take_left, List.take_of_length_le hroom, hdrop]

/-- One complete element: a tag, a length in the short form or in one to four bytes, and as many
bytes as it says. -/
inductive CompleteElement : List UInt8 → Prop
  | short (tag byte : UInt8) (content : List UInt8) (hclear : byte &&& 0x80 = 0)
    (hvalue : byte.toNat = content.length) : CompleteElement (tag :: byte :: content)
  | long (tag byte : UInt8) (bytes content : List UInt8) (hlong : ¬byte &&& 0x80 = 0)
    (hcount : (byte &&& 0x7F).toNat = bytes.length) (hpos : 1 ≤ bytes.length)
    (hle : bytes.length ≤ 4) (hvalue : bigEndian bytes = content.length) :
    CompleteElement (tag :: byte :: (bytes ++ content))

theorem CompleteElement.readTlv {element : List UInt8} (h : CompleteElement element)
    (buffer : Buffer) (before after : List UInt8)
    (hbytes : buffer.bytes = before ++ (element ++ after)) :
    ∃ read, readTlv buffer before.length = .ok read ∧ read.stop = before.length + element.length := by
  cases h with
  | short tag byte content hclear hvalue =>
    refine ⟨_, readTlv_short before content after (by simpa using hbytes) hclear hvalue, ?_⟩
    simp only [List.length_cons]
    omega
  | long tag byte bytes content hlong hcount hpos hle hvalue =>
    refine ⟨_, readTlv_long before content after bytes (by simpa using hbytes) hlong hcount hpos hle
      hvalue, ?_⟩
    simp only [List.length_cons, List.length_append]
    omega

/-- The contents of the elements of a message, but for the digest. -/
structure Contents where
  msgId : List UInt8
  maxSize : List UInt8
  flags : UInt8
  securityModel : List UInt8
  engineId : List UInt8
  engineBoots : List UInt8
  engineTime : List UInt8
  userName : List UInt8
  privParams : List UInt8
  payload : List UInt8

namespace Contents

variable (c : Contents) (authParams : List UInt8)

def globalData : List UInt8 :=
  tlv tagInteger c.msgId ++ (tlv tagInteger c.maxSize ++ (tlv tagOctetString [c.flags] ++
    (tlv tagInteger c.securityModel ++ [])))

/-- What stands before the digest in the security parameters. -/
def usmBefore : List UInt8 :=
  tlv tagOctetString c.engineId ++ (tlv tagInteger c.engineBoots ++ (tlv tagInteger c.engineTime ++
    tlv tagOctetString c.userName))

def usmContent : List UInt8 :=
  c.usmBefore ++ (tlv tagOctetString authParams ++ (tlv tagOctetString c.privParams ++ []))

/-- What stands in the message. -/
def body : List UInt8 :=
  tlv tagInteger [3] ++ (tlv tagSequence c.globalData ++
    (tlv tagOctetString (tlv tagSequence (c.usmContent authParams)) ++ (c.payload ++ [])))

def message : List UInt8 := tlv tagSequence (c.body authParams)

/-- What stands before the digest in the message. -/
def front : List UInt8 :=
  header tagSequence (c.body authParams).length ++ (tlv tagInteger [3] ++
    (tlv tagSequence c.globalData ++
      (header tagOctetString (tlv tagSequence (c.usmContent authParams)).length ++
        (header tagSequence (c.usmContent authParams).length ++
          (c.usmBefore ++ header tagOctetString authParams.length)))))

/-- What stands after it. -/
def back : List UInt8 := tlv tagOctetString c.privParams ++ (c.payload ++ [])

theorem message_eq : c.message authParams = c.front authParams ++ (authParams ++ c.back) := by
  simp only [message, body, usmContent, front, back, tlv_eq_header, List.append_assoc,
    List.append_nil]

theorem length_usmContent : (c.usmContent authParams).length =
    c.usmBefore.length + (tlvHeaderLength authParams.length + authParams.length) +
      (tlv tagOctetString c.privParams).length := by
  simp only [usmContent, List.length_append, length_tlv, List.length_nil]
  omega

theorem length_front : (c.front authParams).length =
    tlvHeaderLength (c.body authParams).length + ((tlv tagInteger [3]).length +
      ((tlv tagSequence c.globalData).length +
        (tlvHeaderLength (tlv tagSequence (c.usmContent authParams)).length +
          (tlvHeaderLength (c.usmContent authParams).length +
            (c.usmBefore.length + tlvHeaderLength authParams.length))))) := by
  simp only [front, List.length_append, length_header]

/-- The place of the digest, as the decoder tracks it through the elements around it. -/
theorem digest_offset :
    0 + (tlv tagSequence (c.body authParams)).length - (c.body authParams).length +
            (0 + (tlv tagInteger [3]).length + (tlv tagSequence c.globalData).length +
              (tlv tagOctetString (tlv tagSequence (c.usmContent authParams))).length) -
          (tlv tagSequence (c.usmContent authParams)).length +
        (0 + (tlv tagSequence (c.usmContent authParams)).length - (c.usmContent authParams).length) +
      (0 + (tlv tagOctetString c.engineId).length + (tlv tagInteger c.engineBoots).length +
            (tlv tagInteger c.engineTime).length + (tlv tagOctetString c.userName).length +
          (tlv tagOctetString authParams).length - authParams.length) =
      (c.front authParams).length := by
  have hbefore : c.usmBefore.length = (tlv tagOctetString c.engineId).length +
      (tlv tagInteger c.engineBoots).length + (tlv tagInteger c.engineTime).length +
        (tlv tagOctetString c.userName).length := by
    simp only [usmBefore, List.length_append, Nat.add_assoc]
  have hmessage := length_tlv tagSequence (c.body authParams)
  have hsecurity := length_tlv tagOctetString (tlv tagSequence (c.usmContent authParams))
  have husm := length_tlv tagSequence (c.usmContent authParams)
  have hauth := length_tlv tagOctetString authParams
  rw [length_front, hbefore]
  omega

/-- Only the length of the digest tells what stands before it. -/
theorem front_congr {authParams authParams' : List UInt8} (h : authParams.length = authParams'.length) :
    c.front authParams = c.front authParams' := by
  have husm : (c.usmContent authParams).length = (c.usmContent authParams').length := by
    rw [length_usmContent, length_usmContent, h]
  have hbody : (c.body authParams).length = (c.body authParams').length := by
    simp only [body, List.length_append, length_tlv, husm]
  rw [front, front, hbody, husm, h, length_tlv, length_tlv, husm]

theorem copyInto_message {authParams authParams' : List UInt8}
    (h : authParams'.length = authParams.length) :
    copyInto authParams' (c.message authParams) (c.front authParams).length =
      c.message authParams' := by
  rw [message_eq, message_eq, c.front_congr h, copyInto_append _ _ h]

end Contents

/-! ### Reading a message -/

/-- What a buffer holds from an offset on. -/
def At (buffer : Buffer) (offset : ℕ) (rest : List UInt8) : Prop :=
  ∃ before, buffer.bytes = before ++ rest ∧ offset = before.length

variable {buffer : Buffer} {offset : ℕ}

theorem at_zero {rest : List UInt8} (h : buffer.bytes = rest) : At buffer 0 rest := ⟨[], h, rfl⟩

theorem At.skip {element rest : List UInt8} (h : At buffer offset (element ++ rest)) :
    At buffer (offset + element.length) rest := by
  obtain ⟨before, hbytes, rfl⟩ := h
  exact ⟨before ++ element, by rw [hbytes, List.append_assoc], by rw [List.length_append]⟩

/-- An element is read as a buffer of its content, and the rest begins where it ends. -/
theorem At.expectTlv {tag : UInt8} {content rest : List UInt8}
    (h : At buffer offset (tlv tag content ++ rest)) (hsize : content.length < 2 ^ 24) :
    ∃ read : Buffer, read.bytes = content ∧
      SnmpCodec.expectTlv buffer offset tag =
        .ok ⟨tag, read, offset + (tlv tag content).length⟩ := by
  obtain ⟨before, hbytes, hoffset⟩ := h
  exact ⟨_, rfl, expectTlv_append before content rest hbytes hoffset hsize⟩

/-- What the payload is read as, which depends on whether it is encrypted. -/
inductive Payload : UInt8 → List UInt8 → List UInt8 → Prop
  | encrypted {flags : UInt8} {scopedPdu : List UInt8} (hflags : flags &&& flagPriv ≠ 0) :
    Payload flags scopedPdu (tlv tagOctetString scopedPdu)
  | plain {flags : UInt8} {scopedPdu : List UInt8} (hflags : ¬flags &&& flagPriv ≠ 0)
    (h : CompleteElement scopedPdu) : Payload flags scopedPdu scopedPdu

theorem Payload.readTlv {flags : UInt8} {scopedPdu payload rest : List UInt8}
    (h : Payload flags scopedPdu payload) (hat : At buffer offset (payload ++ rest))
    (hsize : payload.length < 2 ^ 24) : ∃ read, SnmpCodec.readTlv buffer offset = .ok read ∧
      ¬(flags &&& flagPriv ≠ 0 ∧ read.tag ≠ tagOctetString) ∧
      (if flags &&& flagPriv ≠ 0 then read.content else buffer.subarray offset read.stop).bytes =
        scopedPdu := by
  obtain ⟨before, hbytes, hoffset⟩ := hat
  cases h with
  | encrypted hflags =>
    rw [length_tlv] at hsize
    refine ⟨_, readTlv_append before scopedPdu rest hbytes hoffset (by omega), fun h => h.2 rfl, ?_⟩
    rw [if_pos hflags]
  | plain hflags helement =>
    subst hoffset
    obtain ⟨read, hread, hstop⟩ := helement.readTlv buffer before rest hbytes
    refine ⟨read, hread, fun h => hflags h.1, ?_⟩
    rw [if_neg hflags, hstop]
    show (buffer.bytes.take _).drop _ = _
    rw [hbytes, ← List.append_assoc, ← List.length_append, List.take_left, List.drop_left]

theorem read_of_bytes {content : List UInt8} {v : ℤ} {read : Buffer} (hbytes : read.bytes = content)
    (h : ∀ offset, readSignedInteger ⟨offset, content⟩ = .ok v) : readSignedInteger read = .ok v := by
  subst hbytes
  exact h read.byteOffset

namespace Contents

variable (c : Contents) {authParams : List UInt8}

theorem decode_message {msgId engineBoots engineTime : ℤ} {scopedPdu : List UInt8}
    (hsize : (c.message authParams).length < 2 ^ 24)
    (hmsgId : ∀ offset, readSignedInteger ⟨offset, c.msgId⟩ = .ok msgId)
    (hengineBoots : ∀ offset, readSignedInteger ⟨offset, c.engineBoots⟩ = .ok engineBoots)
    (hengineTime : ∀ offset, readSignedInteger ⟨offset, c.engineTime⟩ = .ok engineTime)
    (hpayload : Payload c.flags scopedPdu c.payload) (byteOffset : ℕ) :
    ∃ engineId auth priv pdu : Buffer, engineId.bytes = c.engineId ∧ auth.bytes = authParams ∧
      priv.bytes = c.privParams ∧ pdu.bytes = scopedPdu ∧
      decodeV3Message ⟨byteOffset, c.message authParams⟩ = .ok {
        msgId := msgId
        flags := c.flags
        usm := {
          engineId := engineId
          engineBoots := engineBoots
          engineTime := engineTime
          userName := decodeUtf8 c.userName
          authParams := auth
          privParams := priv }
        scopedPdu := pdu
        encrypted := c.flags &&& flagPriv ≠ 0
        authParamsOffset := (c.front authParams).length
        raw := ⟨byteOffset, c.message authParams⟩ } := by
  have hmessageLength := length_tlv tagSequence (c.body authParams)
  have hbodyLength := congrArg List.length (body.eq_1 c authParams)
  have hglobalLength := congrArg List.length (globalData.eq_1 c)
  have husmLength := congrArg List.length (usmContent.eq_1 c authParams)
  have hbeforeLength := congrArg List.length (usmBefore.eq_1 c)
  simp only [List.length_append, List.length_nil, Nat.add_zero, length_tlv] at hbodyLength
  simp only [List.length_append, List.length_nil, Nat.add_zero, length_tlv] at hglobalLength
  simp only [List.length_append, List.length_nil, Nat.add_zero, length_tlv] at husmLength
  simp only [List.length_append, length_tlv] at hbeforeLength
  rw [message, hmessageLength] at hsize
  have atMessage : At ⟨byteOffset, c.message authParams⟩ 0 (tlv tagSequence (c.body authParams) ++ []) :=
    at_zero (by rw [List.append_nil]; rfl)
  obtain ⟨message, hmessageBytes, hmessage⟩ := atMessage.expectTlv (by omega)
  have atVersion := at_zero hmessageBytes
  rw [body] at atVersion
  obtain ⟨version, hversionBytes, hversion⟩ := atVersion.expectTlv (by decide)
  have atGlobalData := atVersion.skip
  obtain ⟨globalData, hglobalBytes, hglobalData⟩ := atGlobalData.expectTlv (by omega)
  have atSecurity := atGlobalData.skip
  obtain ⟨security, hsecurityBytes, hsecurity⟩ := atSecurity.expectTlv
    (by rw [length_tlv]; omega)
  have atPayload := atSecurity.skip
  have atMsgId := at_zero hglobalBytes
  rw [Contents.globalData] at atMsgId
  obtain ⟨msgIdContent, hmsgIdBytes, hmsgIdRead⟩ := atMsgId.expectTlv (by omega)
  have atMaxSize := atMsgId.skip
  obtain ⟨maxSize, hmaxSizeBytes, hmaxSize⟩ := atMaxSize.expectTlv (by omega)
  have atFlags := atMaxSize.skip
  obtain ⟨flags, hflagsBytes, hflags⟩ := atFlags.expectTlv (by simp)
  have atUsm := at_zero (hsecurityBytes.trans (List.append_nil _).symm)
  obtain ⟨usm, husmBytes, husm⟩ := atUsm.expectTlv (by omega)
  have atEngineId := at_zero husmBytes
  rw [usmContent, usmBefore] at atEngineId
  simp only [List.append_assoc] at atEngineId
  obtain ⟨engineId, hengineIdBytes, hengineId⟩ := atEngineId.expectTlv (by omega)
  have atBoots := atEngineId.skip
  obtain ⟨boots, hbootsBytes, hboots⟩ := atBoots.expectTlv (by omega)
  have atTime := atBoots.skip
  obtain ⟨time, htimeBytes, htime⟩ := atTime.expectTlv (by omega)
  have atUserName := atTime.skip
  obtain ⟨userName, huserNameBytes, huserName⟩ := atUserName.expectTlv (by omega)
  have atAuth := atUserName.skip
  obtain ⟨auth, hauthBytes, hauth⟩ := atAuth.expectTlv (by omega)
  have atPriv := atAuth.skip
  obtain ⟨priv, hprivBytes, hpriv⟩ := atPriv.expectTlv (by omega)
  obtain ⟨payload, hpayloadRead, hallowed, hpduBytes⟩ := hpayload.readTlv atPayload (by omega)
  have hversionNumber : readSignedInteger version = .ok 3 :=
    read_of_bytes hversionBytes (encodeInteger_spec (v := 3) (by unfold IsInt32; decide)).2.1
  have hflagsLength : flags.length = 1 := by
    rw [Buffer.length, hflagsBytes]
    rfl
  have hflagByte : flags.read 0 = .ok c.flags := by
    rw [Buffer.read, hflagsBytes]
    rfl
  refine ⟨engineId, auth, priv, _, hengineIdBytes, hauthBytes, hprivBytes, hpduBytes, ?_⟩
  simp only [decodeV3Message, bind, Except.bind, hmessage, hversion, hversionNumber, hglobalData,
    hmsgIdRead, hmaxSize, hflags, hflagsLength, hsecurity, husm, hengineId, hboots, htime, huserName,
    hauth, hpriv, hflagByte, hpayloadRead, hallowed, read_of_bytes hmsgIdBytes hmsgId,
    read_of_bytes hbootsBytes hengineBoots, read_of_bytes htimeBytes hengineTime, ne_eq,
    not_true_eq_false, if_false]
  have hmessageSize : message.length = (c.body authParams).length := congrArg List.length hmessageBytes
  have hsecuritySize : security.length = (tlv tagSequence (c.usmContent authParams)).length :=
    congrArg List.length hsecurityBytes
  have husmSize : usm.length = (c.usmContent authParams).length := congrArg List.length husmBytes
  have hauthSize : auth.length = authParams.length := congrArg List.length hauthBytes
  rw [huserNameBytes, hmessageSize, hsecuritySize, husmSize, hauthSize, c.digest_offset]

end Contents

/-! ### The round trip -/

/-- What the parts write, but for the digest. -/
def contentsOf (parts : V3MessageParts (List UInt8)) : Contents where
  msgId := integerContent parts.msgId
  maxSize := integerContent maxMessageSize
  flags := parts.flags
  securityModel := integerContent usmSecurityModel
  engineId := parts.usm.engineId
  engineBoots := integerContent parts.usm.engineBoots
  engineTime := integerContent parts.usm.engineTime
  userName := utf8 parts.usm.userName
  privParams := parts.usm.privParams
  payload := if parts.encrypted then encodeOctetString parts.scopedPdu else parts.scopedPdu

/-- The parts that the encoder is made for. -/
structure Encodable (parts : V3MessageParts (List UInt8)) : Prop where
  msgId : IsInt32 parts.msgId
  engineBoots : IsInt32 parts.usm.engineBoots
  engineTime : IsInt32 parts.usm.engineTime
  flags : parts.flags &&& flagPriv ≠ 0 ↔ parts.encrypted = true
  userName : WellFormed parts.usm.userName
  scopedPdu : parts.encrypted = false → CompleteElement parts.scopedPdu

/-- The parts that were decoded, with the bytes of their buffers. -/
def partsOf (decoded : DecodedV3Message) : V3MessageParts (List UInt8) where
  msgId := decoded.msgId
  flags := decoded.flags
  usm := {
    engineId := decoded.usm.engineId.bytes
    engineBoots := decoded.usm.engineBoots
    engineTime := decoded.usm.engineTime
    userName := decoded.usm.userName
    authParams := decoded.usm.authParams.bytes
    privParams := decoded.usm.privParams.bytes }
  scopedPdu := decoded.scopedPdu.bytes
  encrypted := decoded.encrypted

variable {parts : V3MessageParts (List UInt8)}

theorem encode_of_contents {c : Contents}
    (hmsgId : encodeInteger parts.msgId = some (tlv tagInteger c.msgId))
    (hmaxSize : encodeInteger maxMessageSize = some (tlv tagInteger c.maxSize))
    (hflags : parts.flags = c.flags)
    (hsecurityModel : encodeInteger usmSecurityModel = some (tlv tagInteger c.securityModel))
    (hengineId : parts.usm.engineId = c.engineId)
    (hengineBoots : encodeInteger parts.usm.engineBoots = some (tlv tagInteger c.engineBoots))
    (hengineTime : encodeInteger parts.usm.engineTime = some (tlv tagInteger c.engineTime))
    (huserName : utf8 parts.usm.userName = c.userName)
    (hprivParams : parts.usm.privParams = c.privParams)
    (hpayload : (if parts.encrypted then encodeOctetString parts.scopedPdu else parts.scopedPdu) =
      c.payload) :
    encodeV3Message parts = some ⟨c.message parts.usm.authParams,
      (c.front parts.usm.authParams).length⟩ := by
  have hversion : encodeInteger 3 = some (tlv tagInteger [3]) := by decide
  have hglobal : encodeSequence [tlv tagInteger c.msgId, tlv tagInteger c.maxSize,
      encodeOctetString [c.flags], tlv tagInteger c.securityModel] = tlv tagSequence c.globalData := rfl
  have husm : ([encodeOctetString c.engineId, tlv tagInteger c.engineBoots,
      tlv tagInteger c.engineTime, encodeOctetString c.userName] ++
        [encodeOctetString parts.usm.authParams, encodeOctetString c.privParams]).flatten =
      c.usmContent parts.usm.authParams := by
    simp only [Contents.usmContent, Contents.usmBefore, encodeOctetString, List.flatten_append,
      List.flatten_cons, List.flatten_nil, List.append_assoc, List.append_nil]
  have hbefore : ([encodeOctetString c.engineId, tlv tagInteger c.engineBoots,
      tlv tagInteger c.engineTime, encodeOctetString c.userName].map List.length).sum =
      c.usmBefore.length := by
    simp only [Contents.usmBefore, encodeOctetString, List.length_append, List.map_cons,
      List.map_nil, List.sum_cons, List.sum_nil, Nat.add_zero]
  have hbody : [tlv tagInteger [3], tlv tagSequence c.globalData,
      encodeOctetString (tlv tagSequence (c.usmContent parts.usm.authParams)), c.payload].flatten =
        c.body parts.usm.authParams := rfl
  rw [encodeV3Message, hversion, hmsgId, hmaxSize, hsecurityModel, hengineBoots, hengineTime]
  simp only [bind, Option.bind, hflags, hengineId, huserName, hprivParams, hpayload, hglobal, husm,
    hbefore, hbody, Contents.length_front, Nat.add_assoc]
  rfl

theorem Encodable.encode_eq (h : Encodable parts) : encodeV3Message parts =
    some ⟨(contentsOf parts).message parts.usm.authParams,
      ((contentsOf parts).front parts.usm.authParams).length⟩ :=
  encode_of_contents (encodeInteger_spec h.msgId).1
    (encodeInteger_spec (v := maxMessageSize) (by unfold IsInt32; decide)).1 rfl
    (encodeInteger_spec (v := usmSecurityModel) (by unfold IsInt32; decide)).1 rfl
    (encodeInteger_spec h.engineBoots).1 (encodeInteger_spec h.engineTime).1 rfl rfl rfl

def usmSize (usm : UsmParameters (List UInt8)) : ℕ :=
  elementSize usm.engineId.length + elementSize (integerSize usm.engineBoots) +
    elementSize (integerSize usm.engineTime) + elementSize (utf8 usm.userName).length +
    elementSize usm.authParams.length + elementSize usm.privParams.length

def messageSize (parts : V3MessageParts (List UInt8)) : ℕ :=
  elementSize (elementSize 1 +
    elementSize (elementSize (integerSize parts.msgId) + elementSize 3 + elementSize 1 +
      elementSize 1) +
    elementSize (elementSize (usmSize parts.usm)) +
    if parts.encrypted then elementSize parts.scopedPdu.length else parts.scopedPdu.length)

theorem Encodable.length_usmContent (h : Encodable parts) :
    ((contentsOf parts).usmContent parts.usm.authParams).length = usmSize parts.usm := by
  rw [Contents.length_usmContent, Contents.usmBefore, usmSize]
  simp only [contentsOf, List.length_append, length_tlv, length_integerContent h.engineBoots,
    length_integerContent h.engineTime, elementSize]
  omega

theorem Encodable.length_message (h : Encodable parts) :
    ((contentsOf parts).message parts.usm.authParams).length = messageSize parts := by
  have hmaxSize : (integerContent maxMessageSize).length = 3 :=
    length_integerContent (by unfold IsInt32; decide)
  have hmodel : (integerContent usmSecurityModel).length = 1 :=
    length_integerContent (by unfold IsInt32; decide)
  have hglobal : (contentsOf parts).globalData.length =
      elementSize (integerSize parts.msgId) + elementSize 3 + elementSize 1 + elementSize 1 := by
    simp only [Contents.globalData, contentsOf, List.length_append, length_tlv, hmaxSize, hmodel,
      length_integerContent h.msgId, List.length_singleton, List.length_nil, elementSize]
    omega
  have hpayload : (contentsOf parts).payload.length =
      if parts.encrypted then elementSize parts.scopedPdu.length else parts.scopedPdu.length := by
    unfold contentsOf encodeOctetString elementSize
    split_ifs
    · exact length_tlv _ _
    · rfl
  have hbody : ((contentsOf parts).body parts.usm.authParams).length = elementSize 1 +
      elementSize (contentsOf parts).globalData.length + elementSize (elementSize (usmSize parts.usm)) +
      (contentsOf parts).payload.length := by
    rw [← h.length_usmContent]
    simp only [Contents.body, List.length_append, length_tlv, List.length_singleton, List.length_nil,
      elementSize]
    omega
  rw [Contents.message, length_tlv, hbody, hglobal, hpayload]
  rfl

theorem Encodable.payload (h : Encodable parts) :
    Payload parts.flags parts.scopedPdu (contentsOf parts).payload := by
  cases hencrypted : parts.encrypted with
  | true =>
    have hpayload : (contentsOf parts).payload = tlv tagOctetString parts.scopedPdu :=
      if_pos hencrypted
    rw [hpayload]
    exact .encrypted (h.flags.mpr hencrypted)
  | false =>
    have hclear : ¬parts.encrypted = true := by rw [hencrypted]; decide
    have hpayload : (contentsOf parts).payload = parts.scopedPdu := if_neg hclear
    rw [hpayload]
    exact .plain (fun hflags => hclear (h.flags.mp hflags)) (h.scopedPdu hencrypted)

/-- The message of some parts is read back, whatever its digest. -/
theorem Encodable.decode (h : Encodable parts) {authParams : List UInt8} (byteOffset : ℕ)
    (hsize : ((contentsOf parts).message authParams).length < 2 ^ 24) :
    ∃ decoded, decodeV3Message ⟨byteOffset, (contentsOf parts).message authParams⟩ = .ok decoded ∧
      partsOf decoded = { parts with usm := { parts.usm with authParams } } ∧
      decoded.authParamsOffset = ((contentsOf parts).front authParams).length ∧
      decoded.raw.bytes = (contentsOf parts).message authParams := by
  obtain ⟨engineId, auth, priv, pdu, hengineId, hauth, hpriv, hpdu, hdecode⟩ :=
    (contentsOf parts).decode_message hsize (encodeInteger_spec h.msgId).2.1
      (encodeInteger_spec h.engineBoots).2.1 (encodeInteger_spec h.engineTime).2.1 h.payload byteOffset
  have hencrypted : (contentsOf parts).flags &&& flagPriv ≠ 0 ↔ parts.encrypted = true := h.flags
  have hname : decodeUtf8 (contentsOf parts).userName = parts.usm.userName :=
    decodeUtf8_utf8 h.userName
  refine ⟨_, hdecode, ?_, rfl, rfl⟩
  simp only [partsOf, hengineId, hauth, hpriv, hpdu, hname, hencrypted, Bool.decide_eq_true]
  rfl

section Authentication

variable (hmac : List UInt8 → List UInt8 → List UInt8)

theorem differenceOf_self (count : ℕ) (bytes : List UInt8) : differenceOf count bytes bytes = 0 := by
  unfold differenceOf
  induction List.range count with
  | nil => rfl
  | cons index rest ih =>
    rw [List.foldl_cons, UInt8.xor_self, UInt8.or_zero]
    exact ih

theorem Encodable.verify (h : Encodable parts)
    (hhmac : ∀ key message, authParamLength ≤ (hmac key message).length)
    (hzero : parts.usm.authParams = List.replicate authParamLength 0)
    {encoded : EncodedV3Message} (hencoded : encodeV3Message parts = some encoded)
    (hsize : encoded.message.length < 2 ^ 24) (key : List UInt8) (byteOffset : ℕ) :
    ∃ decoded, decodeV3Message ⟨byteOffset, authenticateMessage hmac encoded key⟩ = .ok decoded ∧
      verifyMessage hmac decoded key = true := by
  obtain rfl := Option.some.inj (h.encode_eq.symm.trans hencoded)
  generalize hdigest : digestFor hmac ((contentsOf parts).message parts.usm.authParams) key = digest
  have hdigestLength : digest.length = authParamLength := by
    rw [← hdigest, digestFor, List.length_take]
    exact min_eq_left (hhmac _ _)
  have hlength : digest.length = parts.usm.authParams.length := by
    rw [hdigestLength, hzero, List.length_replicate]
  have hauthenticated : authenticateMessage hmac ⟨(contentsOf parts).message parts.usm.authParams,
      ((contentsOf parts).front parts.usm.authParams).length⟩ key =
        (contentsOf parts).message digest := by
    rw [authenticateMessage, hdigest, Contents.copyInto_message _ hlength]
  have hmessageLength : ((contentsOf parts).message digest).length =
      ((contentsOf parts).message parts.usm.authParams).length := by
    rw [Contents.message_eq, Contents.message_eq, Contents.front_congr _ hlength]
    simp only [List.length_append, hlength]
  obtain ⟨decoded, hdecode, hparts, hoffset, hraw⟩ :=
    h.decode byteOffset (hmessageLength.trans_lt hsize)
  have hauth : decoded.usm.authParams.bytes = digest :=
    congrArg (fun parts => parts.usm.authParams) hparts
  have hzeroed : copyInto (List.replicate authParamLength 0) decoded.raw.bytes
      decoded.authParamsOffset = (contentsOf parts).message parts.usm.authParams := by
    rw [hraw, hoffset, ← hzero, Contents.copyInto_message _ hlength.symm]
  refine ⟨decoded, by rw [hauthenticated]; exact hdecode, ?_⟩
  have hcount : ¬decoded.usm.authParams.length ≠ authParamLength := by
    rw [Buffer.length, hauth, hdigestLength]
    exact fun h => h rfl
  rw [verifyMessage, if_neg hcount, hzeroed, hauth]
  simp only [hdigest, differenceOf_self, decide_true]

/-- A message is read back as it was written, with the digest where the encoder said; a message that
was authenticated over twelve zero bytes is accepted under every key. -/
theorem message_round_trip (hhmac : ∀ key message, authParamLength ≤ (hmac key message).length)
    (h : Encodable parts) (hsize : messageSize parts < 2 ^ 24) :
    ∃ encoded, encodeV3Message parts = some encoded ∧ encoded.message.length = messageSize parts ∧
      (∀ byteOffset, ∃ decoded, decodeV3Message ⟨byteOffset, encoded.message⟩ = .ok decoded ∧
        partsOf decoded = parts ∧ decoded.authParamsOffset = encoded.authParamsOffset) ∧
      (encoded.message.drop encoded.authParamsOffset).take parts.usm.authParams.length =
        parts.usm.authParams ∧
      (parts.usm.authParams = List.replicate authParamLength 0 → ∀ key byteOffset,
        ∃ decoded, decodeV3Message ⟨byteOffset, authenticateMessage hmac encoded key⟩ = .ok decoded ∧
          verifyMessage hmac decoded key = true) := by
  have hlength := h.length_message
  refine ⟨_, h.encode_eq, hlength, fun byteOffset => ?_, ?_, fun hzero key byteOffset => ?_⟩
  · obtain ⟨decoded, hdecode, hparts, hoffset, -⟩ := h.decode byteOffset (hlength.trans_lt hsize)
    exact ⟨decoded, hdecode, hparts, hoffset⟩
  · show (((contentsOf parts).message parts.usm.authParams).drop _).take _ = _
    rw [Contents.message_eq, List.drop_left, List.take_left]
  · exact h.verify hmac hhmac hzero h.encode_eq (hlength.trans_lt hsize) key byteOffset

/-- A message with the plaintext scoped PDU that is an empty sequence. -/
def probe : V3MessageParts (List UInt8) where
  msgId := 7
  flags := 0x05
  usm := {
    engineId := [0x80, 0x00, 0x00, 0x01]
    engineBoots := 1
    engineTime := 1
    userName := js "vigil"
    authParams := List.replicate authParamLength 0
    privParams := [] }
  scopedPdu := [0x30, 0x00]
  encrypted := false

/-- The digest of the message of `probe` under the key of one byte, 0x01, with MD5. -/
def probeDigest : List UInt8 :=
  [0xE6, 0xB6, 0x80, 0xA7, 0xC0, 0xE6, 0x80, 0xC9, 0x35, 0x8D, 0x64, 0x48, 0xA7, 0xD3, 0xBB, 0x4D]

theorem probe_round_trip :
    ∃ encoded, encodeV3Message probe = some encoded ∧ encoded.message.length = 62 ∧
      (∀ byteOffset, ∃ decoded, decodeV3Message ⟨byteOffset, encoded.message⟩ = .ok decoded ∧
        partsOf decoded = probe ∧ decoded.authParamsOffset = encoded.authParamsOffset) ∧
      (encoded.message.drop encoded.authParamsOffset).take probe.usm.authParams.length =
        probe.usm.authParams ∧
      ∃ decoded, decodeV3Message ⟨0, authenticateMessage (fun _ _ => probeDigest) encoded [0x01]⟩ =
        .ok decoded ∧ verifyMessage (fun _ _ => probeDigest) decoded [0x01] = true := by
  have hprobe : Encodable probe := {
    msgId := by unfold IsInt32; decide
    engineBoots := by unfold IsInt32; decide
    engineTime := by unfold IsInt32; decide
    flags := by decide
    userName := ⟨_, rfl⟩
    scopedPdu := fun _ => .short 0x30 0x00 [] (by decide) (by decide) }
  have hsize : messageSize probe = 62 := by decide +kernel
  obtain ⟨encoded, hencode, hlength, hdecode, hbytes, hverify⟩ :=
    message_round_trip (fun _ _ => probeDigest) (fun _ _ => by decide) hprobe (by omega)
  exact ⟨encoded, hencode, hlength.trans hsize, hdecode, hbytes, hverify rfl [0x01] 0⟩

end Authentication

end Vigil.Wire.SnmpMessage
