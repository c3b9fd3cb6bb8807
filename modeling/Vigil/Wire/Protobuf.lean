import Vigil.Wire.Grpc

/-! Protobuf messages by their definition, and what `servingStatusOf` makes of them: fields of four
wire types in any order, with numbers in base 128 that may be longer than they have to be. -/

namespace Vigil.Wire.Protobuf

open Js.Double Js.Int32 Js.Text Lib.BigEndian Lib.Buffer Lib.TwosComplement Grpc

/-! ### Messages -/

/-- The number that groups of seven bits write, the lowest group first. -/
def groupsValue : List (Fin 128) → ℕ
  | [] => 0
  | group :: groups => group + 128 * groupsValue groups

/-- Every byte but the last has its top bit set. -/
def groupBytes : List (Fin 128) → List UInt8
  | [] => []
  | [group] => [group.val.toUInt8]
  | group :: groups => (group.val + 128).toUInt8 :: groupBytes groups

/-- A number of 64 bits at most, in at most ten groups. -/
structure Varint where
  groups : List (Fin 128)
  nonempty : groups ≠ []
  short : groups.length ≤ 10
  bounded : groupsValue groups < 2 ^ 64

def Varint.value (number : Varint) : ℕ := groupsValue number.groups

def Varint.bytes (number : Varint) : List UInt8 := groupBytes number.groups

/-- What a field carries, by its wire type. -/
inductive Payload where
  | varint (value : Varint)
  | fixed64 (content : List UInt8) (length : content.length = 8)
  | lengthDelimited (size : Varint) (content : List UInt8) (length : size.value = content.length)
  | fixed32 (content : List UInt8) (length : content.length = 4)

/-- The wire type in the field's tag. -/
def Payload.wireType : Payload → ℕ
  | .varint _ => 0
  | .fixed64 _ _ => 1
  | .lengthDelimited _ _ _ => 2
  | .fixed32 _ _ => 5

/-- The bytes of the payload. -/
def Payload.bytes : Payload → List UInt8
  | .varint value => value.bytes
  | .fixed64 content _ => content
  | .lengthDelimited size content _ => size.bytes ++ content
  | .fixed32 content _ => content

/-- A field: its tag holds the number of the field and the wire type of what follows. -/
structure Field where
  number : ℕ
  tag : Varint
  payload : Payload
  numbered : 1 ≤ number ∧ number < 2 ^ 29
  tagged : tag.value = 8 * number + payload.wireType

def Field.bytes (field : Field) : List UInt8 := field.tag.bytes ++ field.payload.bytes

def encodeMessage (fields : List Field) : List UInt8 := fields.flatMap Field.bytes

/-- A message uncompressed, behind its length. -/
def frame (message : List UInt8) : List UInt8 := 0 :: (lowBytes 4 message.length ++ message)

/-- The number that field 1 carries. -/
def Field.status (field : Field) : Option ℕ :=
  if field.number = 1 then
    match field.payload with
    | .varint value => some value.value
    | _ => none
  else none

/-- Every status that a message carries, in order. -/
def statuses (fields : List Field) : List ℕ := fields.filterMap Field.status

/-- The number of an enumeration that some 64 bits are: the lowest 32 of them, as a signed number. -/
def enumValue (value : ℕ) : ℤ := (bits value).toInt

/-- The status by the rules of protobuf: the last one wins, and 0 is the default. -/
def protobufStatus (fields : List Field) : ℤ := ((statuses fields).getLast?.map enumValue).getD 0

/-! ### Numbers -/

theorem groupBytes_cons {group : Fin 128} {groups : List (Fin 128)} (h : groups ≠ []) :
    groupBytes (group :: groups) = (group.val + 128).toUInt8 :: groupBytes groups := by
  cases groups with
  | nil => exact absurd rfl h
  | cons => rfl

theorem length_groupBytes (groups : List (Fin 128)) : (groupBytes groups).length = groups.length := by
  induction groups with
  | nil => rfl
  | cons group groups ih =>
    cases groups with
    | nil => rfl
    | cons next groups =>
      rw [groupBytes_cons (List.cons_ne_nil _ _), List.length_cons, ih]
      rfl

theorem byte_last : ∀ group < 128, group.toUInt8 &&& 0x7f = group.toUInt8 ∧
    group.toUInt8 &&& 0x80 = 0 ∧ group.toUInt8.toNat = group := by decide +kernel

theorem byte_continued : ∀ group < 128, ((group + 128).toUInt8 &&& 0x7f).toNat = group ∧
    (group + 128).toUInt8 &&& 0x80 ≠ 0 := by decide +kernel

section Reading

variable {before after : List UInt8}

theorem getElem?_middle (byte : UInt8) (rest : List UInt8) :
    (before ++ byte :: rest)[before.length]? = some byte := by
  rw [List.getElem?_append_right (Nat.le_refl _), Nat.sub_self]
  rfl

/-- A sum that is below `2 ^ 53` is exact, and another one does not come back below it. -/
theorem add_spec {x y : ℤ} (hx : 0 ≤ x) (hy : 0 ≤ y) :
    (x + y < 2 ^ 53 → add x y = x + y) ∧ (2 ^ 53 ≤ x + y → 2 ^ 53 ≤ add x y) :=
  ⟨fun h => add_of_small (by omega), le_roundInt⟩

/-- A number is read to its end, and exactly when it is below `2 ^ 53`. -/
theorem readVarintLoop_groupBytes (after : List UInt8) (groups : List (Fin 128))
    (hnonempty : groups ≠ []) :
    ∀ (before : List UInt8) (value : ℤ) (shift : ℕ), 0 ≤ value → shift + 7 * groups.length ≤ 70 →
      ∃ read : ℤ, readVarintLoop (before ++ (groupBytes groups ++ after)) value shift before.length =
          some ⟨read, before.length + groups.length⟩ ∧
        (value + groupsValue groups * 2 ^ shift < 2 ^ 53 →
          read = value + groupsValue groups * 2 ^ shift) ∧
        (2 ^ 53 ≤ value + groupsValue groups * 2 ^ shift → 2 ^ 53 ≤ read) := by
  induction groups with
  | nil => exact absurd rfl hnonempty
  | cons group groups ih =>
    intro before value shift hvalue hshift
    obtain ⟨hexact, hlarge⟩ := add_spec hvalue (by positivity : 0 ≤ (group.val : ℤ) * 2 ^ shift)
    cases groups with
    | nil =>
      obtain ⟨hlow, hlast, hbyte⟩ := byte_last group.val group.isLt
      have hgroup : groupsValue [group] = group.val := by simp [groupsValue]
      refine ⟨add value (group.val * 2 ^ shift), ?_, ?_⟩
      · rw [readVarintLoop, groupBytes, List.singleton_append, getElem?_middle]
        simp only [hlast, hlow, hbyte, if_true]
        rfl
      · rw [hgroup]
        exact ⟨hexact, hlarge⟩
    | cons next rest =>
      obtain ⟨hlow, hmore⟩ := byte_continued group.val group.isLt
      rw [List.length_cons] at hshift
      have hpos : 0 ≤ add value (group.val * 2 ^ shift) := roundInt_nonneg (by positivity)
      obtain ⟨read, hread, hreadExact, hreadLarge⟩ := ih (List.cons_ne_nil _ _)
        (before ++ [(group.val + 128).toUInt8]) (add value (group.val * 2 ^ shift)) (shift + 7) hpos
        (by omega)
      rw [List.length_append, List.length_singleton, List.append_assoc, List.singleton_append] at hread
      have hsplit : value + (groupsValue (group :: next :: rest) : ℤ) * 2 ^ shift =
          value + group.val * 2 ^ shift + groupsValue (next :: rest) * 2 ^ (shift + 7) := by
        rw [groupsValue]
        push_cast
        ring
      have hrest : 0 ≤ (groupsValue (next :: rest) : ℤ) * 2 ^ (shift + 7) := by positivity
      refine ⟨read, ?_, ?_, ?_⟩
      · rw [readVarintLoop, groupBytes_cons (List.cons_ne_nil _ _), List.cons_append, getElem?_middle]
        simp only [hlow, if_neg hmore]
        rw [if_neg (by rw [List.length_cons] at hshift; omega), hread, List.length_cons (a := group)]
        congr 2
        omega
      · intro hsmall
        have hfirst := hexact (by omega)
        rw [hfirst] at hreadExact
        rw [hreadExact (by omega), hsplit]
      · intro hsum
        by_cases hfirst : value + (group.val : ℤ) * 2 ^ shift < 2 ^ 53
        · rw [hexact hfirst, ← hsplit] at hreadLarge
          exact hreadLarge hsum
        · have hbig := hlarge (by omega)
          exact hreadLarge (by omega)

theorem readVarint_bytes (before after : List UInt8) (number : Varint) :
    ∃ read : ℤ, readVarint (before ++ (number.bytes ++ after)) before.length =
        some ⟨read, before.length + number.bytes.length⟩ ∧
      (number.value < 2 ^ 53 → read = number.value) ∧ (2 ^ 53 ≤ number.value → 2 ^ 53 ≤ read) := by
  obtain ⟨read, hread, hexact, hlarge⟩ := readVarintLoop_groupBytes after number.groups
    number.nonempty before 0 0 (Int.le_refl 0) (by have := number.short; omega)
  have hvalue : (0 : ℤ) + groupsValue number.groups * 2 ^ 0 = number.value := by
    rw [pow_zero, Varint.value]
    omega
  rw [hvalue] at hexact hlarge
  refine ⟨read, ?_, fun hsmall => hexact (by omega), fun hbig => hlarge (by omega)⟩
  rw [Varint.bytes, length_groupBytes]
  exact hread

theorem readVarintLoop_truncated (groups : List (Fin 128)) :
    ∀ (before : List UInt8) (value : ℤ) (shift kept : ℕ), kept < groups.length →
      readVarintLoop (before ++ (groupBytes groups).take kept) value shift before.length = none := by
  induction groups with
  | nil => exact fun _ _ _ _ h => absurd h (Nat.not_lt_zero _)
  | cons group groups ih =>
    intro before value shift kept hkept
    cases kept with
    | zero =>
      rw [readVarintLoop, List.take_zero, List.append_nil, List.getElem?_eq_none (Nat.le_refl _)]
    | succ kept =>
      have hrest : groups ≠ [] := by
        rintro rfl
        rw [List.length_singleton] at hkept
        omega
      obtain ⟨-, hmore⟩ := byte_continued group.val group.isLt
      rw [List.length_cons] at hkept
      have hnext := ih (before ++ [(group.val + 128).toUInt8])
        (add value (((group.val + 128).toUInt8 &&& 0x7f).toNat * 2 ^ shift)) (shift + 7) kept (by omega)
      rw [List.length_append, List.length_singleton, List.append_assoc, List.singleton_append] at hnext
      rw [readVarintLoop, groupBytes_cons hrest, List.take_succ_cons, getElem?_middle]
      simp only [if_neg hmore]
      split
      · rfl
      · exact hnext

variable {kept : ℕ} {field : Field}

theorem readVarint_truncated (before : List UInt8) (number : Varint)
    (h : kept < number.bytes.length) :
    readVarint (before ++ number.bytes.take kept) before.length = none := by
  rw [Varint.bytes, length_groupBytes] at h
  exact readVarintLoop_truncated number.groups before 0 0 kept h

/-! ### Fields -/

theorem unsignedRight_three {n : ℕ} (h : n < 2 ^ 32) : unsignedRight n 3 = (n / 8 : ℕ) := by
  rw [unsignedRight, bits_natCast, BitVec.toNat_ushiftRight, BitVec.toNat_ofNat, Nat.mod_eq_of_lt h,
    Nat.shiftRight_eq_div_pow]

theorem bitAnd_seven {n : ℕ} (h : n < 2 ^ 32) : bitAnd n 7 = (n % 8 : ℕ) := by
  have hmask : (BitVec.ofNat 32 n &&& 7#32).toNat = n % 8 := by
    rw [BitVec.toNat_and, BitVec.toNat_ofNat, Nat.mod_eq_of_lt h]
    exact Nat.and_two_pow_sub_one_eq_mod n 3
  rw [bitAnd, bits_natCast]
  have hseven : bits 7 = 7#32 := rfl
  rw [hseven, BitVec.toInt_eq_toNat_of_lt (by omega), hmask]

theorem wireType_lt (payload : Payload) : payload.wireType < 8 := by
  cases payload <;> simp [Payload.wireType]

theorem readVarint_tag (before after : List UInt8) (field : Field) :
    ∃ tag : VarintRead, readVarint (before ++ (field.tag.bytes ++ after)) before.length = some tag ∧
      tag.offset = before.length + field.tag.bytes.length ∧
      unsignedRight tag.value 3 = field.number ∧ bitAnd tag.value 7 = field.payload.wireType := by
  obtain ⟨read, hread, hexact, -⟩ := readVarint_bytes before after field.tag
  have hwire := wireType_lt field.payload
  obtain ⟨-, hnumber⟩ := field.numbered
  have htag := field.tagged
  have hvalue := hexact (by omega)
  refine ⟨_, hread, rfl, ?_, ?_⟩
  · rw [hvalue, unsignedRight_three (by omega)]
    omega
  · rw [hvalue, bitAnd_seven (by omega)]
    omega

theorem skipField_bytes (before after : List UInt8) (payload : Payload)
    (hlength : (before ++ (payload.bytes ++ after)).length < 2 ^ 32) :
    skipField (before ++ (payload.bytes ++ after)) before.length payload.wireType =
      some (before.length + payload.bytes.length) := by
  rw [List.length_append, List.length_append] at hlength
  cases payload with
  | varint value =>
    obtain ⟨read, hread, -, -⟩ := readVarint_bytes before after value
    exact congrArg (Option.map fun skipped => skipped.offset) hread
  | fixed64 content length =>
    have hle : before.length + 8 ≤ (before ++ (content ++ after)).length := by
      rw [List.length_append, List.length_append, length]
      omega
    exact (if_pos hle).trans (congrArg (fun n => some (before.length + n)) length.symm)
  | lengthDelimited size content length =>
    obtain ⟨read, hread, hexact, -⟩ := readVarint_bytes before (content ++ after) size
    have hbytes : Payload.bytes (.lengthDelimited size content length) = size.bytes ++ content := rfl
    rw [hbytes, List.length_append] at hlength
    have hvalue := hexact (by omega)
    have hstop : add ((before.length + size.bytes.length : ℕ) : ℤ) read =
        (before.length + (size.bytes ++ content).length : ℕ) := by
      rw [hvalue, length, add_of_small (by omega), List.length_append]
      omega
    have hread' : skipField (before ++ (size.bytes ++ (content ++ after))) before.length 2 =
        (some (VarintRead.mk read (before.length + size.bytes.length))).bind fun length =>
          let stop := add length.offset length.value
          if stop ≤ (before ++ (size.bytes ++ (content ++ after))).length then some stop.toNat
          else none := congrArg (fun found => Option.bind found _) hread
    rw [hbytes, List.append_assoc]
    refine hread'.trans ?_
    rw [Option.bind_some]
    dsimp only
    rw [hstop, if_pos (by simp only [List.length_append]; omega), Int.toNat_natCast]
  | fixed32 content length =>
    have hle : before.length + 4 ≤ (before ++ (content ++ after)).length := by
      rw [List.length_append, List.length_append, length]
      omega
    exact (if_pos hle).trans (congrArg (fun n => some (before.length + n)) length.symm)

theorem isStatus_iff (field : Field) :
    ((field.number : ℤ) = 1 ∧ (field.payload.wireType : ℤ) = 0) ↔ field.status.isSome := by
  have hnumber : (field.number : ℤ) = 1 ↔ field.number = 1 := by omega
  rw [hnumber, Field.status]
  cases field.payload <;> by_cases h : field.number = 1 <;> simp [h, Payload.wireType]

theorem turn_status (before after : List UInt8) {value : ℕ} (h : field.status = some value)
    (hsmall : value < 2 ^ 53) :
    turn (before ++ (field.bytes ++ after)) before.length = .answer (some (statusName value)) := by
  obtain ⟨tag, htag, hoffset, hnumber, hwire⟩ :=
    readVarint_tag before (field.payload.bytes ++ after) field
  have hstatus := (isStatus_iff field).mpr (by rw [h]; rfl)
  obtain ⟨number, hpayload, rfl⟩ : ∃ number, field.payload = .varint number ∧ number.value = value := by
    unfold Field.status at h
    split at h
    · split at h
      · exact ⟨_, ‹_›, Option.some_inj.mp h⟩
      · cases h
    · cases h
  obtain ⟨read, hread, hexact, -⟩ := readVarint_bytes (before ++ field.tag.bytes) after number
  have hbytes : field.payload.bytes = number.bytes := by
    rw [hpayload]
    rfl
  rw [List.length_append, List.append_assoc] at hread
  rw [hbytes] at htag
  rw [Field.bytes, List.append_assoc, hbytes, turn, htag]
  dsimp only
  rw [hnumber, hwire, if_pos hstatus, hoffset, hread, Option.map_some]
  dsimp only
  rw [hexact hsmall]

theorem turn_skip (before after : List UInt8) (h : field.status = none)
    (hlength : (before ++ (field.bytes ++ after)).length < 2 ^ 32) :
    turn (before ++ (field.bytes ++ after)) before.length =
      .next (before.length + field.bytes.length) := by
  obtain ⟨tag, htag, hoffset, hnumber, hwire⟩ :=
    readVarint_tag before (field.payload.bytes ++ after) field
  have hstatus : ¬((field.number : ℤ) = 1 ∧ (field.payload.wireType : ℤ) = 0) := by
    rw [isStatus_iff, h]
    exact Bool.false_ne_true
  have hbytes : before ++ (field.bytes ++ after) =
      before ++ (field.tag.bytes ++ (field.payload.bytes ++ after)) := by
    rw [Field.bytes, List.append_assoc]
  have hsame : before ++ field.tag.bytes ++ (field.payload.bytes ++ after) =
      before ++ (field.tag.bytes ++ (field.payload.bytes ++ after)) := List.append_assoc _ _ _
  have hskip := skipField_bytes (before ++ field.tag.bytes) after field.payload
    (by rw [hsame, ← hbytes]; exact hlength)
  rw [hsame, List.length_append] at hskip
  rw [hbytes, turn, htag]
  dsimp only
  rw [hnumber, hwire, if_neg hstatus, hoffset, hskip, Field.bytes, List.length_append, Nat.add_assoc]

theorem skipField_truncated (before : List UInt8) (payload : Payload)
    (h : kept < payload.bytes.length) (hlength : before.length + kept < 2 ^ 32) :
    skipField (before ++ payload.bytes.take kept) before.length payload.wireType = none := by
  have hbuffer : (before ++ payload.bytes.take kept).length = before.length + kept := by
    rw [List.length_append, List.length_take, Nat.min_eq_left (Nat.le_of_lt h)]
  cases payload with
  | varint value => exact congrArg (Option.map _) (readVarint_truncated before value h)
  | fixed64 content length =>
    have hkept : kept < 8 := length ▸ h
    have hshort : ¬before.length + 8 ≤
        (before ++ (Payload.bytes (.fixed64 content length)).take kept).length := by omega
    exact if_neg hshort
  | lengthDelimited size content length =>
    have hbytes : Payload.bytes (.lengthDelimited size content length) = size.bytes ++ content := rfl
    rw [hbytes] at h hbuffer ⊢
    by_cases hsize : kept < size.bytes.length
    · rw [List.take_append_of_le_length (by omega)]
      exact congrArg (fun found => Option.bind found _) (readVarint_truncated before size hsize)
    · obtain ⟨more, rfl⟩ := Nat.exists_eq_add_of_le (Nat.le_of_not_lt hsize)
      rw [List.length_append] at h
      rw [List.take_length_add_append] at hbuffer ⊢
      obtain ⟨read, hread, hexact, hlarge⟩ := readVarint_bytes before (content.take more) size
      have hstop : ¬add ((before.length + size.bytes.length : ℕ) : ℤ) read ≤
          (before ++ (size.bytes ++ content.take more)).length := by
        by_cases hsmall : size.value < 2 ^ 53
        · have hvalue := hexact hsmall
          by_cases hsum : ((before.length + size.bytes.length : ℕ) : ℤ) + read < 2 ^ 53
          · rw [add_of_small (by omega)]
            omega
          · have hbig : 2 ^ 53 ≤ add ((before.length + size.bytes.length : ℕ) : ℤ) read :=
              le_roundInt (by omega)
            omega
        · have hread := hlarge (by omega)
          have hbig : 2 ^ 53 ≤ add ((before.length + size.bytes.length : ℕ) : ℤ) read :=
            le_roundInt (by omega)
          omega
      exact (congrArg (fun found => Option.bind found _) hread).trans (if_neg hstop)
  | fixed32 content length =>
    have hkept : kept < 4 := length ▸ h
    have hshort : ¬before.length + 4 ≤
        (before ++ (Payload.bytes (.fixed32 content length)).take kept).length := by omega
    exact if_neg hshort

theorem turn_truncated (before : List UInt8) (h : kept < field.bytes.length)
    (hlength : before.length + kept < 2 ^ 32) :
    turn (before ++ field.bytes.take kept) before.length = .answer none := by
  rw [Field.bytes, List.length_append] at h
  rw [Field.bytes]
  by_cases htag : kept < field.tag.bytes.length
  · rw [List.take_append_of_le_length (by omega), turn, readVarint_truncated before field.tag htag]
  · obtain ⟨more, rfl⟩ := Nat.exists_eq_add_of_le (Nat.le_of_not_lt htag)
    obtain ⟨tag, hread, hoffset, hnumber, hwire⟩ :=
      readVarint_tag before (field.payload.bytes.take more) field
    have hmore : more < field.payload.bytes.length := by omega
    have hskip := skipField_truncated (before ++ field.tag.bytes) field.payload hmore
      (by rw [List.length_append]; omega)
    rw [List.append_assoc, List.length_append] at hskip
    rw [List.take_length_add_append, turn, hread]
    dsimp only
    rw [hnumber, hwire, hoffset, hskip]
    split
    · rename_i hstatus
      obtain ⟨number, hpayload⟩ : ∃ number, field.payload = .varint number := by
        cases hpayload : field.payload with
        | varint number => exact ⟨number, rfl⟩
        | _ =>
          rw [hpayload] at hstatus
          exact absurd hstatus.2 (by simp [Payload.wireType])
      have hbytes : field.payload.bytes = number.bytes := by
        rw [hpayload]
        rfl
      rw [hbytes] at hmore
      have hnone := readVarint_truncated (before ++ field.tag.bytes) number hmore
      rw [List.append_assoc, List.length_append] at hnone
      rw [hbytes, hnone]
      rfl
    · rfl

end Reading

/-! ### Walks -/

variable {message : Message} {fields : List Field} {body : List UInt8}

theorem walk_answer {offset : ℕ} {status : Option JsString} (h : offset < message.val.length)
    (hturn : turn message.val offset = .answer status) : walk message offset = status := by
  rw [walk, if_pos h]
  split
  · rename_i hanswer
    rw [hturn] at hanswer
    cases hanswer
    rfl
  · rename_i hnext
    rw [hturn] at hnext
    cases hnext

theorem walk_next {offset offset' : ℕ} (h : offset < message.val.length)
    (hturn : turn message.val offset = .next offset') :
    walk message offset = walk message offset' := by
  rw [walk, if_pos h]
  split
  · rename_i hanswer
    rw [hturn] at hanswer
    cases hanswer
  · rename_i hnext
    rw [hturn] at hnext
    cases hnext
    rfl

theorem length_bytes_pos (field : Field) : 0 < field.bytes.length := by
  rw [Field.bytes, List.length_append, Varint.bytes, length_groupBytes]
  have hpos := List.length_pos_of_ne_nil field.tag.nonempty
  omega

theorem walk_skip (hnone : ∀ field ∈ fields, field.status = none) :
    ∀ (message : Message) (before after : List UInt8),
      message.val = before ++ (encodeMessage fields ++ after) →
      walk message before.length = walk message (before.length + (encodeMessage fields).length) := by
  induction fields with
  | nil => exact fun _ _ _ _ => rfl
  | cons field fields ih =>
    intro message before after hmessage
    have hencode : encodeMessage (field :: fields) = field.bytes ++ encodeMessage fields :=
      List.flatMap_cons
    rw [hencode, List.append_assoc] at hmessage
    have hturn := turn_skip before (encodeMessage fields ++ after)
      (hnone field List.mem_cons_self) (by rw [← hmessage]; exact message.property)
    rw [← hmessage] at hturn
    have hpos := length_bytes_pos field
    have hlt : before.length < message.val.length := by
      rw [hmessage, List.length_append, List.length_append]
      omega
    have hrest := ih (fun f hf => hnone f (List.mem_cons_of_mem _ hf)) message
      (before ++ field.bytes) after (by rw [hmessage, List.append_assoc])
    rw [List.length_append] at hrest
    rw [walk_next hlt hturn, hrest, hencode, List.length_append, Nat.add_assoc]

theorem walk_end {offset : ℕ} (h : ¬offset < message.val.length) : walk message offset = none := by
  rw [walk, if_neg h]

/-- The walk over fields without a status and what stands behind them. -/
theorem walk_zero_skip (hnone : ∀ field ∈ fields, field.status = none) (after : List UInt8)
    (hmessage : message.val = encodeMessage fields ++ after) :
    walk message 0 = walk message (encodeMessage fields).length := by
  have hskip := walk_skip hnone message [] after hmessage
  rwa [List.length_nil, Nat.zero_add] at hskip

theorem walk_none (hnone : ∀ field ∈ fields, field.status = none)
    (hmessage : message.val = encodeMessage fields) : walk message 0 = none := by
  rw [walk_zero_skip hnone [] (by rw [hmessage, List.append_nil])]
  exact walk_end (by rw [hmessage]; exact Nat.lt_irrefl _)

theorem walk_first {before after : List Field} {field : Field} {value : ℕ}
    (hnone : ∀ other ∈ before, other.status = none) (hstatus : field.status = some value)
    (hsmall : value < 2 ^ 53) (hmessage : message.val = encodeMessage (before ++ field :: after)) :
    walk message 0 = some (statusName value) := by
  have hencode : encodeMessage (before ++ field :: after) =
      encodeMessage before ++ (field.bytes ++ encodeMessage after) := by
    rw [encodeMessage, List.flatMap_append, List.flatMap_cons]
    rfl
  rw [hencode] at hmessage
  have hturn := turn_status (encodeMessage before) (encodeMessage after) hstatus hsmall
  rw [← hmessage] at hturn
  have hpos := length_bytes_pos field
  rw [walk_zero_skip hnone _ hmessage]
  refine walk_answer ?_ hturn
  rw [hmessage, List.length_append, List.length_append]
  omega

theorem walk_truncated (hnone : ∀ field ∈ fields, field.status = none) {field : Field} {kept : ℕ}
    (hkept : kept < field.bytes.length)
    (hmessage : message.val = encodeMessage fields ++ field.bytes.take kept) :
    walk message 0 = none := by
  have hlength : message.val.length = (encodeMessage fields).length + kept := by
    rw [hmessage, List.length_append, List.length_take, Nat.min_eq_left (Nat.le_of_lt hkept)]
  rw [walk_zero_skip hnone _ hmessage]
  rcases Nat.eq_zero_or_pos kept with rfl | hpos
  · exact walk_end (by omega)
  · have hturn := turn_truncated (encodeMessage fields) hkept
      (by rw [← hlength]; exact message.property)
    rw [← hmessage] at hturn
    exact walk_answer (by omega) hturn

/-! ### Frames -/

theorem declaredLength_frame {message : List UInt8} (h : message.length < 2 ^ 32) :
    declaredLength (frame message) = message.length := by
  have hslice := slice_append [0] (lowBytes 4 message.length) message
  rw [length_lowBytes, List.length_singleton, List.singleton_append] at hslice
  have hvalue := bigEndian_lowBytes 4 message.length
  rw [declaredLength, frame, hslice]
  omega

theorem servingStatusOf_frame {message : List UInt8} (h : message.length < 2 ^ 32) :
    servingStatusOf (frame message) = walk ⟨message, h⟩ 0 := by
  have hlength : (frame message).length = 5 + message.length := by
    rw [frame, List.length_cons, List.length_append, length_lowBytes]
    omega
  have hdeclared := declaredLength_frame h
  have hslice := slice_append (0 :: lowBytes 4 message.length) message []
  rw [List.length_cons, length_lowBytes, List.append_nil] at hslice
  have hmessage : messageOf (frame message) = ⟨message, h⟩ := by
    refine Subtype.ext ?_
    show slice (frame message) 5 (declaredLength (frame message)) = message
    rw [hdeclared]
    exact hslice
  rw [servingStatusOf, if_neg (by omega), if_neg (fun hne => hne rfl), if_neg (by omega), hmessage]

theorem enumValue_of_small {value : ℕ} (h : value < 2 ^ 31) : enumValue value = value := by
  rw [enumValue, bits_natCast, BitVec.toInt_eq_toNat_of_lt]
  · rw [BitVec.toNat_ofNat, Nat.mod_eq_of_lt (by omega)]
  · rw [BitVec.toNat_ofNat, Nat.mod_eq_of_lt (by omega)]
    omega

theorem servingStatusOf_message {fields : List Field} (hlength : (encodeMessage fields).length < 2 ^ 32)
    (hagree : ∀ a ∈ statuses fields, ∀ b ∈ statuses fields, a = b)
    (hsmall : ∀ a ∈ statuses fields, a < 2 ^ 31) :
    servingStatusOf (frame (encodeMessage fields)) =
      ((statuses fields).getLast?.map enumValue).map statusName := by
  rw [servingStatusOf_frame hlength]
  cases hstatuses : statuses fields with
  | nil =>
    exact walk_none (List.filterMap_eq_nil_iff.mp hstatuses) rfl
  | cons value rest =>
    obtain ⟨before, field, after, hfields, hnone, hstatus, -⟩ :=
      List.filterMap_eq_cons_iff.mp hstatuses
    have hfirst : value ∈ statuses fields := by
      rw [hstatuses]
      exact List.mem_cons_self
    obtain ⟨last, hlast⟩ : ∃ last, (value :: rest).getLast? = some last :=
      ⟨_, List.getLast?_eq_some_getLast (List.cons_ne_nil _ _)⟩
    have hmem : last ∈ statuses fields := by
      rw [hstatuses]
      exact List.mem_of_getLast? hlast
    have hvalue := hsmall value hfirst
    rw [hlast, ← hagree value hfirst last hmem, Option.map_some, Option.map_some,
      enumValue_of_small hvalue]
    exact walk_first hnone hstatus (by omega) (congrArg encodeMessage hfields)

theorem getD_append_left (more : List UInt8) (h : 0 < body.length) :
    (body ++ more).getD 0 0 = body.getD 0 0 := by
  cases body with
  | nil => exact absurd h (Nat.lt_irrefl 0)
  | cons byte body => rfl

theorem slice_append_left (more : List UInt8) {offset count : ℕ}
    (h : offset + count ≤ body.length) :
    slice (body ++ more) offset count = slice body offset count := by
  rw [slice, slice, List.drop_append_of_le_length (by omega),
    List.take_append_of_le_length (by rw [List.length_drop]; omega)]

theorem servingStatusOf_append (more : List UInt8) (h : 5 + declaredLength body ≤ body.length) :
    servingStatusOf (body ++ more) = servingStatusOf body := by
  have hdeclared : declaredLength (body ++ more) = declaredLength body := by
    rw [declaredLength, slice_append_left more (by omega)]
    rfl
  have hmessage : messageOf (body ++ more) = messageOf body := by
    refine Subtype.ext ?_
    show slice (body ++ more) 5 (declaredLength (body ++ more)) = slice body 5 (declaredLength body)
    rw [hdeclared, slice_append_left more h]
  have hlong : (body ++ more).length = body.length + more.length := List.length_append
  have hheader : ¬body.length < 5 ∧ ¬(body ++ more).length < 5 := by omega
  have hframe : ¬body.length < 5 + declaredLength body ∧
      ¬(body ++ more).length < 5 + declaredLength body := by omega
  have hflag : (body ++ more).getD 0 0 = body.getD 0 0 := getD_append_left more (by omega)
  simp only [servingStatusOf, hdeclared, hmessage, hflag, hheader.1, hheader.2, hframe.1, hframe.2,
    if_false]

/-- A message whose statuses agree is read as protobuf has it, but for the default; and of every byte
string only the declared frame is read, and nothing when it or a field up to the first status is cut
short. -/
theorem servingStatusOf_spec :
    (∀ fields : List Field, (encodeMessage fields).length < 2 ^ 32 →
      (∀ a ∈ statuses fields, ∀ b ∈ statuses fields, a = b) →
      (∀ a ∈ statuses fields, a < 2 ^ 31) →
      servingStatusOf (frame (encodeMessage fields)) =
        ((statuses fields).getLast?.map enumValue).map statusName) ∧
    (∀ body : List UInt8, body.length < 5 ∨ body.length < 5 + declaredLength body →
      servingStatusOf body = none) ∧
    (∀ body more : List UInt8, 5 + declaredLength body ≤ body.length →
      servingStatusOf (body ++ more) = servingStatusOf body) ∧
    ∀ (fields : List Field) (field : Field) (kept : ℕ), (∀ f ∈ fields, f.status = none) →
      kept < field.bytes.length → (encodeMessage fields).length + kept < 2 ^ 32 →
      servingStatusOf (frame (encodeMessage fields ++ field.bytes.take kept)) = none := by
  refine ⟨fun fields => servingStatusOf_message, fun body h => ?_,
    fun body more => servingStatusOf_append more, fun fields field kept hnone hkept hlength => ?_⟩
  · unfold servingStatusOf
    split_ifs
    · rfl
    · rfl
    · rfl
    · omega
  · have hlong : (encodeMessage fields ++ field.bytes.take kept).length < 2 ^ 32 := by
      rw [List.length_append, List.length_take]
      omega
    rw [servingStatusOf_frame hlong]
    exact walk_truncated hnone hkept rfl

/-- A message without a status is not answered with the default of protobuf. -/
theorem empty_message_unanswered :
    ¬∀ fields : List Field, (encodeMessage fields).length < 2 ^ 32 →
      servingStatusOf (frame (encodeMessage fields)) = some (statusName (protobufStatus fields)) := by
  intro h
  have hnone := @servingStatusOf_message [] (by decide) (by simp [statuses])
    (by simp [statuses])
  rw [h [] (by decide)] at hnone
  cases hnone

end Vigil.Wire.Protobuf
