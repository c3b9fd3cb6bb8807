import Vigil.Js.Double
import Vigil.Js.Int32
import Vigil.Js.Text
import Vigil.Lib.Buffer
import Vigil.Lib.TwosComplement
import Mathlib.Tactic.Positivity

/-! The health status in the answer of a gRPC server, `servingStatusOf` of
`monitors/types/probes/grpc.ts`: a frame behind a flag and a length, and in it the fields of a
protobuf message, of which the first status is the answer and the others are skipped. -/

namespace Vigil.Wire.Grpc

open Js.Double Js.Int32 Js.Text Lib.BigEndian Lib.Buffer

/-! ### Numbers as text -/

/-- Whether some significant digits of a number, and zeros for the others, are the same double. -/
def tellsApart (n digits zeros : ℕ) : Bool := roundNat (digits * 10 ^ zeros) = n

/-- The fewest significant digits of a double, nearest to it, and how many zeros stand behind. -/
def shortest (n : ℕ) : ℕ × ℕ :=
  let length := (Nat.toDigits 10 n).length
  let candidates := (List.range length).flatMap fun k =>
    let zeros := length - 1 - k
    let down := n / 10 ^ zeros
    if 2 * (n % 10 ^ zeros) < 10 ^ zeros then [(down, zeros), (down + 1, zeros)]
    else [(down + 1, zeros), (down, zeros)]
  (candidates.find? fun (digits, zeros) => tellsApart n digits zeros).getD (n, 0)

/-- `${value}` of a natural number that is a double. -/
def numberText (n : ℕ) : JsString :=
  let (digits, zeros) := shortest n
  if n < 2 ^ 53 then decimal n
  else if n < 10 ^ 21 then decimal (digits * 10 ^ zeros : ℕ)
  else
    let text := decimal digits
    let fraction := if text.length = 1 then [] else js "." ++ text.tail
    text.take 1 ++ fraction ++ js "e+" ++ decimal (text.length - 1 + zeros : ℕ)

/-! ### The message -/

def servingStatusNames : List (ℤ × JsString) :=
  [(0, js "UNKNOWN"), (1, js "SERVING"), (2, js "NOT_SERVING"), (3, js "SERVICE_UNKNOWN")]

/-- `SERVING_STATUS_NAMES[value] ?? "status ${value}"` -/
def statusName (value : ℤ) : JsString :=
  (servingStatusNames.lookup value).getD (js "status " ++ numberText value.toNat)

/-- A number, and where it ends. -/
structure VarintRead where
  value : ℤ
  offset : ℕ
  deriving DecidableEq, Repr

/-- The loop of `readVarint`, which ends without a number where the buffer does, or after ten
groups. -/
def readVarintLoop (buffer : List UInt8) (value : ℤ) (shift offset : ℕ) : Option VarintRead :=
  match buffer[offset]? with
  | none => none
  | some byte =>
    let value := add value ((byte &&& 0x7f).toNat * 2 ^ shift)
    if byte &&& 0x80 = 0 then some ⟨value, offset + 1⟩
    else if 63 < shift + 7 then none
    else readVarintLoop buffer value (shift + 7) (offset + 1)
termination_by 64 - shift

def readVarint (buffer : List UInt8) (start : ℕ) : Option VarintRead :=
  readVarintLoop buffer 0 0 start

/-- Where the field ends that begins at `start`, unless it goes past the end. -/
def skipField (buffer : List UInt8) (start : ℕ) (wireType : ℤ) : Option ℕ :=
  if wireType = 0 then (readVarint buffer start).map fun skipped => skipped.offset
  else if wireType = 1 then if start + 8 ≤ buffer.length then some (start + 8) else none
  else if wireType = 2 then
    (readVarint buffer start).bind fun length =>
      let stop := add length.offset length.value
      if stop ≤ buffer.length then some stop.toNat else none
  else if wireType = 5 then if start + 4 ≤ buffer.length then some (start + 4) else none
  else none

/-- What one turn of the loop does. -/
inductive Turn where
  | answer (status : Option JsString)
  | next (offset : ℕ)
  deriving DecidableEq

def turn (message : List UInt8) (offset : ℕ) : Turn :=
  match readVarint message offset with
  | none => .answer none
  | some tag =>
    let field := unsignedRight tag.value 3
    let wireType := bitAnd tag.value 7
    if field = 1 ∧ wireType = 0 then
      .answer ((readVarint message tag.offset).map fun status => statusName status.value)
    else
      match skipField message tag.offset wireType with
      | none => .answer none
      | some next => .next next

variable {buffer : List UInt8}

theorem readVarintLoop_bounds {value : ℤ} {shift offset : ℕ} {read : VarintRead}
    (hvalue : 0 ≤ value) (h : readVarintLoop buffer value shift offset = some read) :
    0 ≤ read.value ∧ offset < read.offset ∧ read.offset ≤ buffer.length := by
  have hnext : ∀ (value : ℤ) (byte : UInt8) (shift : ℕ), 0 ≤ value →
      0 ≤ add value ((byte &&& 0x7f).toNat * 2 ^ shift) :=
    fun value byte shift h => roundInt_nonneg (by positivity)
  fun_induction readVarintLoop buffer value shift offset with
  | case1 value shift offset hend => cases h
  | case2 value shift offset byte hbyte next hlast =>
    obtain ⟨hlt, -⟩ := List.getElem?_eq_some_iff.mp hbyte
    rw [← Option.some_inj.mp h]
    exact ⟨hnext value byte shift hvalue, Nat.lt_succ_self offset, hlt⟩
  | case3 value shift offset byte hbyte hmore hlong => cases h
  | case4 value shift offset byte hbyte next hmore hlong ih =>
    obtain ⟨hread, hlt, hle⟩ := ih (hnext value byte shift hvalue) h
    exact ⟨hread, Nat.lt_trans (Nat.lt_succ_self offset) hlt, hle⟩

/-- A number ends behind where it begins, inside the buffer. -/
theorem readVarint_bounds {start : ℕ} {read : VarintRead}
    (h : readVarint buffer start = some read) :
    0 ≤ read.value ∧ start < read.offset ∧ read.offset ≤ buffer.length :=
  readVarintLoop_bounds (Int.le_refl 0) h

/-- A field ends inside the buffer, and not before where it begins. -/
theorem skipField_bounds {start next : ℕ} {wireType : ℤ} (hlength : buffer.length < 2 ^ 32)
    (h : skipField buffer start wireType = some next) : start ≤ next ∧ next ≤ buffer.length := by
  unfold skipField at h
  split_ifs at h with hvarint hfixed64 hlong hbytes hfixed32 hlong
  · obtain ⟨read, hread, rfl⟩ := Option.map_eq_some_iff.mp h
    have hbounds := readVarint_bounds hread
    omega
  · have hnext := Option.some_inj.mp h
    omega
  · obtain ⟨read, hread, hstop⟩ := Option.bind_eq_some_iff.mp h
    have hbounds := readVarint_bounds hread
    dsimp only at hstop
    split_ifs at hstop with hle
    have hnext := Option.some_inj.mp hstop
    -- A sum that rounds is past every buffer.
    have hexact : add read.offset read.value = read.offset + read.value := by
      by_cases hsmall : (read.offset : ℤ) + read.value < 2 ^ 53
      · exact add_of_small (by omega)
      · have hlarge : 2 ^ 53 ≤ add read.offset read.value := le_roundInt (by omega)
        omega
    omega
  · have hnext := Option.some_inj.mp h
    omega

theorem turn_next {message : List UInt8} {offset offset' : ℕ} (hlength : message.length < 2 ^ 32)
    (h : turn message offset = .next offset') : offset < offset' ∧ offset' ≤ message.length := by
  unfold turn at h
  cases htag : readVarint message offset with
  | none =>
    rw [htag] at h
    cases h
  | some tag =>
    have htagBounds := readVarint_bounds htag
    simp only [htag] at h
    split_ifs at h
    cases hskip : skipField message tag.offset (bitAnd tag.value 7) with
    | none =>
      rw [hskip] at h
      cases h
    | some next =>
      rw [hskip] at h
      obtain rfl := Turn.next.inj h
      have hbounds := skipField_bounds hlength hskip
      omega

/-- What a frame holds: the length in front of it has four bytes. -/
abbrev Message := {bytes : List UInt8 // bytes.length < 2 ^ 32}

/-- The loop of `servingStatusOf`. -/
def walk (message : Message) (offset : ℕ) : Option JsString :=
  if offset < message.val.length then
    match _h : turn message.val offset with
    | .answer status => status
    | .next offset => walk message offset
  else none
termination_by message.val.length - offset
decreasing_by
  have hnext := turn_next message.property _h
  omega

def declaredLength (body : List UInt8) : ℕ := bigEndian (slice body 1 4)

theorem declaredLength_lt (body : List UInt8) : declaredLength body < 2 ^ 32 := by
  have hlt := bigEndian_lt (slice body 1 4)
  have hle : (slice body 1 4).length ≤ 4 := List.length_take_le _ _
  exact Nat.lt_of_lt_of_le hlt (Nat.pow_le_pow_right (by decide) hle)

/-- The message that the frame declares. -/
def messageOf (body : List UInt8) : Message :=
  ⟨slice body 5 (declaredLength body),
    Nat.lt_of_le_of_lt (List.length_take_le _ _) (declaredLength_lt body)⟩

def servingStatusOf (body : List UInt8) : Option JsString :=
  if body.length < 5 then none
  else if body.getD 0 0 ≠ 0 then none
  else if body.length < 5 + declaredLength body then none
  else walk (messageOf body) 0

end Vigil.Wire.Grpc
