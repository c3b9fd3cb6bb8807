import Vigil.Lib.Contract
import Vigil.Wire.SnmpCodec

/-! The SNMP decoders on bytes from anywhere.  Every decoder meets a contract: it throws nothing but
an `SnmpDecodeError`, and the buffers it returns are inside the elements they were read from. -/

namespace Vigil.Wire.SnmpSafety

open Js.Text Lib.Contract SnmpCodec

def IsDecodeError : DecodeFailure → Prop
  | .snmpDecodeError _ => True
  | _ => False

/-- A decoder returns a value that meets a condition, or throws an `SnmpDecodeError`. -/
abbrev Decodes {α : Type} (returned : α → Prop) (decoded : Decoded α) : Prop :=
  Meets IsDecodeError returned decoded

/-- A buffer holds a part of the bytes of another one, at the place where they are in it. -/
structure Inside (inner outer : Buffer) : Prop where
  start : outer.byteOffset ≤ inner.byteOffset
  stop : inner.byteOffset + inner.length ≤ outer.byteOffset + outer.length
  bytes : inner.bytes =
    (outer.bytes.drop (inner.byteOffset - outer.byteOffset)).take inner.length

theorem Inside.trans {inner middle outer : Buffer} (h : Inside inner middle)
    (h' : Inside middle outer) : Inside inner outer where
  start := h'.start.trans h.start
  stop := h.stop.trans h'.stop
  bytes := by
    have hstart := h.start
    have hstart' := h'.start
    have hstop := h.stop
    rw [h.bytes, h'.bytes, List.drop_take, List.drop_drop, List.take_take]
    congr 1
    · omega
    · congr 1
      omega

variable {buffer : Buffer} {offset : ℕ}

theorem inside_subarray {start stop : ℕ} (hstart : start ≤ stop) (hstop : stop ≤ buffer.length) :
    Inside (buffer.subarray start stop) buffer := by
  have hlength : (buffer.subarray start stop).length = stop - start := by
    simp only [Buffer.subarray, Buffer.length, List.length_drop, List.length_take] at hstop ⊢
    omega
  have hoffset : (buffer.subarray start stop).byteOffset = buffer.byteOffset + start := by
    simp only [Buffer.subarray]
    omega
  refine ⟨by omega, by omega, ?_⟩
  rw [hlength, hoffset, Nat.add_sub_cancel_left, ← List.drop_take]
  rfl

theorem decodes_refuse {α : Type} (returned : α → Prop) (message : String) :
    Decodes returned (refuse message) :=
  trivial

theorem decodes_read {index : ℕ} (h : index < buffer.length) :
    Decodes (fun _ => True) (buffer.read index) := by
  rw [Buffer.read, List.getElem?_eq_getElem h]
  trivial

theorem decodes_readLength {cursor : ℕ} : ∀ {count : ℕ}, cursor + count ≤ buffer.length →
    Decodes (fun _ => True) (readLength buffer cursor count)
  | 0, _ => trivial
  | _ + 1, h =>
    (decodes_readLength (by omega)).bind fun _ _ => (decodes_read (by omega)).bind fun _ _ => trivial

/-- An element stands after `offset`, and its content is inside the buffer. -/
structure ReadFrom (buffer : Buffer) (offset : ℕ) (element : Tlv) : Prop where
  inside : Inside element.content buffer
  header : offset + 2 + element.content.length ≤ element.stop
  stop : element.stop ≤ buffer.length

theorem decodes_readContent {tag : UInt8} {cursor length : ℕ} (h : offset + 2 ≤ cursor) :
    Decodes (ReadFrom buffer offset) (readContent buffer tag cursor length) := by
  refine Meets.ite (fun _ => decodes_refuse _ _) fun hfits => ?_
  have hinside := inside_subarray (Nat.le_add_right cursor length) (Nat.not_lt.mp hfits)
  have hlength := hinside.stop
  refine ⟨hinside, ?_, Nat.not_lt.mp hfits⟩
  simp only [Buffer.subarray, Buffer.length, List.length_drop, List.length_take]
  omega

theorem decodes_readTlv (buffer : Buffer) (offset : ℕ) :
    Decodes (ReadFrom buffer offset) (readTlv buffer offset) := by
  refine Meets.ite (fun _ => decodes_refuse _ _) fun hheader => ?_
  refine (decodes_read (by omega)).bind fun tag _ => ?_
  refine (decodes_read (by omega)).bind fun lengthByte _ => ?_
  refine Meets.ite (fun _ => decodes_readContent le_rfl) fun _ => ?_
  refine Meets.ite (fun _ => decodes_refuse _ _) fun _ => ?_
  refine Meets.ite (fun _ => decodes_refuse _ _) fun hlength => ?_
  refine (decodes_readLength (Nat.not_lt.mp hlength)).bind fun length _ => ?_
  exact decodes_readContent (Nat.le_add_right _ _)

theorem decodes_expectTlv (buffer : Buffer) (offset : ℕ) (tag : UInt8) :
    Decodes (ReadFrom buffer offset) (expectTlv buffer offset tag) :=
  (decodes_readTlv buffer offset).bind fun _ helement =>
    Meets.ite (fun _ => trivial) fun _ => helement

theorem decodes_readSignedInteger (content : Buffer) :
    Decodes (fun _ => True) (readSignedInteger content) := by
  refine Meets.ite (fun _ => decodes_refuse _ _) fun hlength => ?_
  refine (decodes_read (Nat.pos_of_ne_zero hlength)).bind fun first _ => ?_
  exact Meets.ite (fun _ => decodes_refuse _ _) fun _ => trivial

theorem foldl_push_ne_nil {bytes : List UInt8} (h : bytes ≠ []) (read : OidRead) :
    (bytes.foldl OidRead.push read).started = true ∨
      (bytes.foldl OidRead.push read).arcs ≠ [] := by
  induction bytes using List.reverseRecOn with
  | nil => exact absurd rfl h
  | append_singleton bytes byte _ =>
    rw [List.foldl_append, List.foldl_cons, List.foldl_nil]
    unfold OidRead.push
    split
    · exact .inr (by simp)
    · exact .inl rfl

theorem decodes_readOid (content : Buffer) : Decodes (fun _ => True) (readOid content) := by
  refine Meets.ite (fun _ => decodes_refuse _ _) fun hlength => ?_
  have hbytes : content.bytes ≠ [] := fun hnil => hlength (congrArg List.length hnil)
  refine Meets.ite (fun _ => decodes_refuse _ _) fun hstarted => ?_
  have harcs := (foldl_push_ne_nil hbytes ⟨[], 0, false⟩).resolve_left hstarted
  split
  · exact absurd ‹_› harcs
  · trivial

theorem decodes_decodeValue (element : Tlv) : Decodes (fun _ => True) (decodeValue element) := by
  unfold decodeValue
  dsimp only
  split
  · trivial
  · refine Meets.ite (fun _ => ?_) fun _ => Meets.ite (fun _ => trivial) fun _ =>
      Meets.ite (fun _ => ?_) fun _ => Meets.ite (fun _ => ?_) fun _ =>
      Meets.ite (fun _ => trivial) fun _ => trivial
    · exact (decodes_readSignedInteger element.content).bind fun _ _ => trivial
    · exact Meets.ite (fun _ => decodes_refuse _ _) fun _ => trivial
    · exact (decodes_readOid element.content).bind fun _ _ => trivial

/-! ### The loop -/

theorem decodes_readVarbind (list : Buffer) (cursor : ℕ) :
    Decodes (fun read => cursor < read.2) (readVarbind list cursor) := by
  refine (decodes_expectTlv list cursor tagSequence).bind fun entry hentry => ?_
  refine (decodes_expectTlv entry.content 0 tagOid).bind fun oid _ => ?_
  refine (decodes_readTlv entry.content oid.stop).bind fun value _ => ?_
  refine (decodes_readOid oid.content).bind fun text _ => ?_
  refine (decodes_decodeValue value).bind fun decoded _ => ?_
  have hheader := hentry.header
  change cursor < entry.stop
  omega

theorem decodes_readVarbinds (list : Buffer) : ∀ {fuel cursor : ℕ}, list.length - cursor < fuel →
    Decodes (fun _ => True) (readVarbinds list fuel cursor)
  | 0, _, h => absurd h (Nat.not_lt_zero _)
  | fuel + 1, cursor, h => by
    refine Meets.ite (fun hmore => ?_) fun _ => trivial
    refine (decodes_readVarbind list cursor).bind fun read hnext => ?_
    exact (decodes_readVarbinds list (by omega)).bind fun _ _ => trivial

theorem readVarbinds_eq (list : Buffer) : ∀ {fuel fuel' cursor : ℕ}, list.length - cursor < fuel →
    list.length - cursor < fuel' → readVarbinds list fuel cursor = readVarbinds list fuel' cursor
  | 0, _, _, h, _ => absurd h (Nat.not_lt_zero _)
  | _, 0, _, _, h => absurd h (Nat.not_lt_zero _)
  | fuel + 1, fuel' + 1, cursor, h, h' => by
    rw [readVarbinds, readVarbinds]
    split
    · cases hread : readVarbind list cursor with
      | error failure => rfl
      | ok read =>
        have hnext := (decodes_readVarbind list cursor).of_ok hread
        change (readVarbinds list fuel read.2 >>= _) = (readVarbinds list fuel' read.2 >>= _)
        rw [readVarbinds_eq list (by omega) (by omega : list.length - read.2 < fuel')]
    · rfl

/-! ### The decoders -/

theorem decodes_decodePdu (buffer : Buffer) (offset : ℕ) :
    Decodes (fun _ => True) (decodePdu buffer offset) := by
  refine (decodes_readTlv buffer offset).bind fun pdu _ => ?_
  refine Meets.ite (fun _ => trivial) fun _ => ?_
  refine (decodes_expectTlv pdu.content 0 tagInteger).bind fun requestId _ => ?_
  refine (decodes_expectTlv pdu.content requestId.stop tagInteger).bind fun errorStatus _ => ?_
  refine (decodes_expectTlv pdu.content errorStatus.stop tagInteger).bind fun errorIndex _ => ?_
  refine (decodes_expectTlv pdu.content errorIndex.stop tagSequence).bind fun list _ => ?_
  refine (decodes_readVarbinds list.content (Nat.lt_succ_of_le (Nat.sub_le _ _))).bind fun _ _ => ?_
  refine (decodes_readSignedInteger requestId.content).bind fun _ _ => ?_
  refine (decodes_readSignedInteger errorStatus.content).bind fun _ _ => ?_
  exact (decodes_readSignedInteger errorIndex.content).bind fun _ _ => trivial

theorem decodes_decodeCommunityMessage (datagram : Buffer) :
    Decodes (fun _ => True) (decodeCommunityMessage datagram) := by
  refine (decodes_expectTlv datagram 0 tagSequence).bind fun message _ => ?_
  refine (decodes_expectTlv message.content 0 tagInteger).bind fun version _ => ?_
  refine (decodes_expectTlv message.content version.stop tagOctetString).bind fun community _ => ?_
  refine (decodes_readSignedInteger version.content).bind fun _ _ => ?_
  exact (decodes_decodePdu message.content community.stop).bind fun _ _ => trivial

theorem decodes_peekVersion (datagram : Buffer) :
    Decodes (fun _ => True) (peekVersion datagram) := by
  refine (decodes_expectTlv datagram 0 tagSequence).bind fun message _ => ?_
  refine (decodes_expectTlv message.content 0 tagInteger).bind fun version _ => ?_
  exact decodes_readSignedInteger version.content

theorem decodes_decodeScopedPdu (buffer : Buffer) :
    Decodes (fun _ => True) (decodeScopedPdu buffer) := by
  refine (decodes_expectTlv buffer 0 tagSequence).bind fun scopedPdu _ => ?_
  refine (decodes_expectTlv scopedPdu.content 0 tagOctetString).bind fun contextEngineId _ => ?_
  refine (decodes_expectTlv scopedPdu.content contextEngineId.stop tagOctetString).bind
    fun contextName _ => ?_
  exact decodes_decodePdu scopedPdu.content contextName.stop

/-- The buffers of a v3 message are inside the elements that enclose them. -/
structure Enclosed (datagram : Buffer) (decoded : DecodedV3Message) : Prop where
  raw : decoded.raw = datagram
  nested : ∃ message securityParameters usm : Tlv,
    expectTlv datagram 0 tagSequence = .ok message ∧ Inside message.content datagram ∧
    Inside securityParameters.content message.content ∧
    expectTlv securityParameters.content 0 tagSequence = .ok usm ∧
    Inside usm.content securityParameters.content ∧
    Inside decoded.usm.engineId usm.content ∧
    Inside decoded.usm.authParams usm.content ∧
    Inside decoded.usm.privParams usm.content ∧
    Inside decoded.scopedPdu message.content

theorem decodes_decodeV3Message (datagram : Buffer) :
    Decodes (Enclosed datagram) (decodeV3Message datagram) := by
  refine (decodes_expectTlv datagram 0 tagSequence).and_eq.bind fun message hmessage => ?_
  refine (decodes_expectTlv message.content 0 tagInteger).bind fun version _ => ?_
  refine (decodes_readSignedInteger version.content).bind fun versionNumber _ => ?_
  refine Meets.ite (fun _ => decodes_refuse _ _) fun _ => ?_
  refine (decodes_expectTlv message.content version.stop tagSequence).bind fun globalData _ => ?_
  refine (decodes_expectTlv globalData.content 0 tagInteger).bind fun msgId _ => ?_
  refine (decodes_expectTlv globalData.content msgId.stop tagInteger).bind fun maxSize _ => ?_
  refine (decodes_expectTlv globalData.content maxSize.stop tagOctetString).bind fun flags _ => ?_
  refine Meets.ite (fun _ => decodes_refuse _ _) fun hflags => ?_
  refine (decodes_expectTlv message.content globalData.stop tagOctetString).bind
    fun securityParameters hsecurity => ?_
  refine (decodes_expectTlv securityParameters.content 0 tagSequence).and_eq.bind
    fun usm husm => ?_
  refine (decodes_expectTlv usm.content 0 tagOctetString).bind fun engineId hengineId => ?_
  refine (decodes_expectTlv usm.content engineId.stop tagInteger).bind fun boots _ => ?_
  refine (decodes_expectTlv usm.content boots.stop tagInteger).bind fun time _ => ?_
  refine (decodes_expectTlv usm.content time.stop tagOctetString).bind fun userName _ => ?_
  refine (decodes_expectTlv usm.content userName.stop tagOctetString).bind
    fun authParams hauthParams => ?_
  refine (decodes_expectTlv usm.content authParams.stop tagOctetString).bind
    fun privParams hprivParams => ?_
  refine (decodes_read (by omega)).bind fun flagByte _ => ?_
  refine (decodes_readTlv message.content securityParameters.stop).bind fun payload hpayload => ?_
  refine Meets.ite (fun _ => decodes_refuse _ _) fun _ => ?_
  refine (decodes_readSignedInteger msgId.content).bind fun _ _ => ?_
  refine (decodes_readSignedInteger boots.content).bind fun _ _ => ?_
  refine (decodes_readSignedInteger time.content).bind fun _ _ => ?_
  have hheader := hpayload.header
  refine ⟨rfl, message, securityParameters, usm, hmessage.2, hmessage.1.inside, hsecurity.inside,
    husm.2, husm.1.inside, hengineId.inside, hauthParams.inside, hprivParams.inside, ?_⟩
  dsimp only
  split
  · exact hpayload.inside
  · exact inside_subarray (by omega) hpayload.stop

/-- A decoder returned a value or threw an `SnmpDecodeError`. -/
def Survives {α : Type} (decoded : Decoded α) : Prop :=
  (∃ value, decoded = .ok value) ∨ ∃ message, decoded = .error (.snmpDecodeError message)

theorem survives_of_decodes {α : Type} {returned : α → Prop} {decoded : Decoded α}
    (h : Decodes returned decoded) : Survives decoded := by
  rcases h.ok_or_error with hvalue | ⟨failure, herror, hexpected⟩
  · exact .inl hvalue
  · cases failure with
    | snmpDecodeError message => exact .inr ⟨message, herror⟩
    | outOfRange => exact absurd hexpected id
    | unfinished => exact absurd hexpected id

/-- Whatever arrives, the decoders return a value or throw an `SnmpDecodeError`: they never read
outside a buffer, and the loop over the varbinds ends.  The content of every element that is read is
inside the buffer it was read from, and the buffers of a v3 message are inside the elements that
enclose them, and so inside the datagram. -/
theorem decoders_survive (datagram : Buffer) :
    Survives (decodeCommunityMessage datagram) ∧ Survives (decodeV3Message datagram) ∧
    Survives (decodeScopedPdu datagram) ∧ (∀ offset, Survives (decodePdu datagram offset)) ∧
    Survives (peekVersion datagram) ∧
    (∀ fuel cursor, datagram.length - cursor < fuel →
      readVarbinds datagram fuel cursor = readVarbinds datagram (datagram.length + 1) cursor) ∧
    (∀ offset element, readTlv datagram offset = .ok element →
      ReadFrom datagram offset element) ∧
    ∀ decoded, decodeV3Message datagram = .ok decoded →
      Enclosed datagram decoded ∧ Inside decoded.usm.engineId datagram ∧
      Inside decoded.usm.authParams datagram ∧ Inside decoded.usm.privParams datagram ∧
      Inside decoded.scopedPdu datagram := by
  refine ⟨survives_of_decodes (decodes_decodeCommunityMessage datagram),
    survives_of_decodes (decodes_decodeV3Message datagram),
    survives_of_decodes (decodes_decodeScopedPdu datagram),
    fun offset => survives_of_decodes (decodes_decodePdu datagram offset),
    survives_of_decodes (decodes_peekVersion datagram),
    fun fuel cursor hfuel => readVarbinds_eq datagram hfuel (Nat.lt_succ_of_le (Nat.sub_le _ _)),
    fun offset element => (decodes_readTlv datagram offset).of_ok, fun decoded hdecoded => ?_⟩
  have henclosed := (decodes_decodeV3Message datagram).of_ok hdecoded
  obtain ⟨message, securityParameters, usm, -, hmessage, hsecurity, -, husm, hengineId, hauthParams,
    hprivParams, hscopedPdu⟩ := henclosed.nested
  have houter := husm.trans (hsecurity.trans hmessage)
  exact ⟨henclosed, hengineId.trans houter, hauthParams.trans houter, hprivParams.trans houter,
    hscopedPdu.trans hmessage⟩

end Vigil.Wire.SnmpSafety
