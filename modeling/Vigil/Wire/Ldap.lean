import Vigil.Js.Utf8
import Vigil.Lib.BigEndian
import Vigil.Lib.Growing

/-! `readBindResponse` of `monitors/types/probes/ldap.ts`, which the probe calls on all that has
arrived, again on every chunk.  The outer message has to be there whole before anything inside it is
read, but the elements inside are read from the whole buffer, by lengths of their own. -/

namespace Vigil.Wire.Ldap

open Js.Text Js.Utf8 Lib.BigEndian Lib.Growing

def tagSequence : UInt8 := 0x30

/-- `INTEGER` -/
def tagInteger : UInt8 := 0x02

def tagEnumerated : UInt8 := 0x0A

def tagOctetString : UInt8 := 0x04

def tagBindResponse : UInt8 := 0x61

def maxMessage : ℕ := 64 * 1024

def maxDiagnostic : ℕ := 200

/-- What is read of an element. -/
inductive BerRead where
  | ok (tag : UInt8) (start stop : ℕ)
  /-- `state: "partial"` -/
  | waiting
  | malformed
  deriving DecidableEq, Repr

/-- One tag and length at `offset`.  The content stops at `stop`, which may be past what has
arrived. -/
def readElement (buffer : List UInt8) (offset : ℕ) : BerRead :=
  if buffer.length < offset + 2 then .waiting
  else
    let tag := buffer.getD offset 0
    let first := buffer.getD (offset + 1) 0
    if first < 0x80 then .ok tag (offset + 2) (offset + 2 + first.toNat)
    else
      let count := (first &&& 0x7F).toNat
      if count = 0 ∨ 4 < count then .malformed
      else if buffer.length < offset + 2 + count then .waiting
      else
        let length := bigEndian ((buffer.drop (offset + 2)).take count)
        let start := offset + 2 + count
        .ok tag start (start + length)

/-- What is read of the server's answer. -/
inductive BindRead where
  /-- `state: "partial"` -/
  | waiting
  | noBind
  | bind (resultCode : ℕ) (diagnosticMessage : JsString)
  deriving DecidableEq

/-- `buffer.subarray(start, stop)` -/
def slice (buffer : List UInt8) (start stop : ℕ) : List UInt8 := (buffer.take stop).drop start

/-- Where an element of the given tag has its content, unless another one or none stands there. -/
def readTagged (buffer : List UInt8) (offset : ℕ) (tag : UInt8) : Option (ℕ × ℕ) :=
  match readElement buffer offset with
  | .ok found start stop => if found = tag then some (start, stop) else none
  | _ => none

/-- The text of the element that follows the `matchedDN` at `offset`. -/
def readDiagnostic (buffer : List UInt8) (offset : ℕ) : JsString :=
  match readTagged buffer offset tagOctetString with
  | none => []
  | some (start, stop) =>
    if stop ≤ buffer.length then (decodeUtf8 (slice buffer start stop)).take maxDiagnostic else []

/-- `matchedDN` and what follows it. -/
def readMatchedDn (buffer : List UInt8) (offset : ℕ) : JsString :=
  match readTagged buffer offset tagOctetString with
  | none => []
  | some (_, stop) => readDiagnostic buffer stop

/-- The result code at `offset` and what follows it. -/
def readCode (buffer : List UInt8) (offset : ℕ) : BindRead :=
  match readTagged buffer offset tagEnumerated with
  | none => .noBind
  | some (start, stop) =>
    if buffer.length < stop ∨ stop = start ∨ 4 < stop - start then .noBind
    else .bind (bigEndian (slice buffer start stop)) (readMatchedDn buffer stop)

/-- The protocol operation at `offset`. -/
def readOperation (buffer : List UInt8) (offset : ℕ) : BindRead :=
  match readTagged buffer offset tagBindResponse with
  | none => .noBind
  | some (start, _) => readCode buffer start

/-- What stands inside the message that starts at `offset`: its id and its operation. -/
def readInner (buffer : List UInt8) (offset : ℕ) : BindRead :=
  match readTagged buffer offset tagInteger with
  | none => .noBind
  | some (_, stop) => readOperation buffer stop

def readBindResponse (buffer : List UInt8) : BindRead :=
  match readElement buffer 0 with
  | .waiting => .waiting
  | .malformed => .noBind
  | .ok tag start stop =>
    if tag ≠ tagSequence then .noBind
    else if maxMessage < stop then .noBind
    else if buffer.length < stop then .waiting
    else readInner buffer start

/-! ### Elements and what follows them -/

variable {buffer : List UInt8}

theorem length_of_readElement {offset : ℕ} {tag : UInt8} {start stop : ℕ}
    (h : readElement buffer offset = .ok tag start stop) :
    offset + 2 ≤ start ∧ start ≤ buffer.length ∧ start ≤ stop := by
  unfold readElement at h
  grind

theorem readElement_append {offset : ℕ} (h : readElement buffer offset ≠ .waiting)
    (more : List UInt8) : readElement (buffer ++ more) offset = readElement buffer offset := by
  have hheader : ¬buffer.length < offset + 2 := fun hshort => h (if_pos hshort)
  have hlonger : ¬(buffer ++ more).length < offset + 2 := by
    rw [List.length_append]
    omega
  have htag : (buffer ++ more).getD offset 0 = buffer.getD offset 0 := by grind
  have hfirst : (buffer ++ more).getD (offset + 1) 0 = buffer.getD (offset + 1) 0 := by grind
  have hbytes : ∀ count, ¬buffer.length < offset + 2 + count →
      ((buffer ++ more).drop (offset + 2)).take count = (buffer.drop (offset + 2)).take count := by
    intro count hcount
    rw [List.drop_append_of_le_length (by omega),
      List.take_append_of_le_length (by rw [List.length_drop]; omega)]
  unfold readElement at h ⊢
  rw [if_neg hheader] at h ⊢
  rw [if_neg hlonger, htag, hfirst]
  grind

/-! ### What an element's header says before anything follows it -/

/-- What the bytes of a message, with nothing after them, say about the element of the given tag at
`offset`: another element stands there, or this one, or it depends on what follows the message. -/
inductive Peek where
  | refused
  | beyond
  | element (start stop : ℕ)
  deriving DecidableEq

def peek (message : List UInt8) (offset : ℕ) (tag : UInt8) : Peek :=
  match message[offset]? with
  | none => .beyond
  | some found =>
    if found ≠ tag then .refused
    else
      match readElement message offset with
      | .ok _ start stop => .element start stop
      | .malformed => .refused
      | .waiting => .beyond

variable {message : List UInt8} {offset start stop : ℕ} {tag : UInt8}

theorem tag_of_readElement {found : UInt8} (h : readElement buffer offset = .ok found start stop) :
    buffer[offset]? = some found := by
  unfold readElement at h
  grind

theorem readTagged_of_element (h : peek message offset tag = .element start stop)
    (more : List UInt8) : readTagged (message ++ more) offset tag = some (start, stop) := by
  unfold peek at h
  cases hfound : message[offset]? with
  | none => simp [hfound] at h
  | some found =>
    simp only [hfound] at h
    split at h
    · cases h
    · rename_i htag
      cases hread : readElement message offset with
      | waiting => simp [hread] at h
      | malformed => simp [hread] at h
      | ok other _ _ =>
        rw [hread] at h
        obtain ⟨rfl, rfl⟩ := Peek.element.inj h
        have hother := tag_of_readElement hread
        have hsame := readElement_append (by rw [hread]; exact BerRead.noConfusion) more
        rw [readTagged, hsame, hread]
        grind

theorem readTagged_of_refused (h : peek message offset tag = .refused) (more : List UInt8) :
    readTagged (message ++ more) offset tag = none := by
  unfold peek at h
  cases hfound : message[offset]? with
  | none => simp [hfound] at h
  | some found =>
    have hthere : (message ++ more)[offset]? = some found := by grind
    simp only [hfound] at h
    unfold readTagged
    split at h
    · rename_i htag
      cases hread : readElement (message ++ more) offset with
      | waiting => rfl
      | malformed => rfl
      | ok other start stop =>
        have hother := tag_of_readElement hread
        grind
    · cases hread : readElement message offset with
      | waiting => simp [hread] at h
      | ok _ _ _ => simp [hread] at h
      | malformed =>
        rw [readElement_append (by rw [hread]; exact BerRead.noConfusion), hread]

theorem readTagged_of_beyond (h : peek message offset tag = .beyond) :
    readTagged message offset tag = none := by
  unfold peek at h
  unfold readTagged
  cases hread : readElement message offset with
  | waiting => rfl
  | malformed => rfl
  | ok found start stop =>
    have hfound := tag_of_readElement hread
    grind

theorem readTagged_short (buffer : List UInt8) (tag length : UInt8) (hlength : length < 0x80)
    (rest : List UInt8) :
    readTagged (buffer ++ tag :: length :: rest) buffer.length tag =
      some (buffer.length + 2, buffer.length + 2 + length.toNat) := by
  have hread : readElement (buffer ++ tag :: length :: rest) buffer.length =
      .ok tag (buffer.length + 2) (buffer.length + 2 + length.toNat) := by
    unfold readElement
    rw [if_neg (by simp)]
    have htag : (buffer ++ tag :: length :: rest).getD buffer.length 0 = tag := by grind
    have hfirst : (buffer ++ tag :: length :: rest).getD (buffer.length + 1) 0 = length := by grind
    dsimp only
    rw [htag, hfirst, if_pos hlength]
  rw [readTagged, hread]
  exact if_pos rfl

/-- Where some of the length bytes are there, zeros and a last one complete them. -/
theorem exists_completion_length (hfound : message[offset]? = some tag)
    (hwaiting : readElement message offset = .waiting) (hheader : ¬message.length < offset + 2) :
    ∃ more start stop, readTagged (message ++ more) offset tag = some (start, stop) ∧
      (message ++ more).length = start ∧ start < stop ∧
      ((∀ byte ∈ message.drop (offset + 2), byte = 0) → stop = start + 1) := by
  unfold readElement at hwaiting
  rw [if_neg hheader] at hwaiting
  have hlong : ¬message.getD (offset + 1) 0 < 0x80 := by grind
  generalize hcount : (message.getD (offset + 1) 0 &&& 0x7F).toNat = count at hwaiting
  have hfits : ¬(count = 0 ∨ 4 < count) := by grind
  have hmissing : message.length < offset + 2 + count := by grind
  let zeros := offset + 2 + count - message.length - 1
  let known := message.drop (offset + 2)
  let more := List.replicate zeros (0 : UInt8) ++ [1]
  have hlength : (message ++ more).length = offset + 2 + count := by
    simp only [more, zeros, List.length_append, List.length_replicate, List.length_singleton]
    omega
  have hbytes : ((message ++ more).drop (offset + 2)).take count =
      known ++ List.replicate zeros 0 ++ [1] := by
    rw [List.take_of_length_le (by rw [List.length_drop, hlength]; omega),
      List.drop_append_of_le_length (by omega)]
    exact (List.append_assoc _ _ _).symm
  have htag : (message ++ more).getD offset 0 = tag := by grind
  have hfirst : (message ++ more).getD (offset + 1) 0 = message.getD (offset + 1) 0 := by grind
  have hread : readElement (message ++ more) offset = .ok tag (offset + 2 + count)
      (offset + 2 + count + (bigEndian (known ++ List.replicate zeros 0) * 256 + 1)) := by
    unfold readElement
    rw [if_neg (by omega)]
    dsimp only
    rw [htag, hfirst, if_neg hlong, hcount, if_neg hfits, if_neg (by omega), hbytes,
      bigEndian_concat]
    rfl
  have htagged : readTagged (message ++ more) offset tag = some (offset + 2 + count,
      offset + 2 + count + (bigEndian (known ++ List.replicate zeros 0) * 256 + 1)) := by
    rw [readTagged, hread]
    exact if_pos rfl
  refine ⟨more, _, _, htagged, hlength, by omega, fun hzero => ?_⟩
  · have hnothing : bigEndian (known ++ List.replicate zeros 0) = 0 := by
      rw [bigEndian_eq_zero_iff]
      intro byte hbyte
      rcases List.mem_append.mp hbyte with hbyte | hbyte
      · exact hzero byte hbyte
      · exact List.eq_of_mem_replicate hbyte
    rw [hnothing]

/-- A header that goes past the message can be completed, with a length above zero, and with a
length of one where no length byte above zero is there yet. -/
theorem exists_completion (h : peek message offset tag = .beyond) :
    ∃ more start stop, readTagged (message ++ more) offset tag = some (start, stop) ∧
      (message ++ more).length = start ∧ start < stop ∧
      ((∀ byte ∈ message.drop (offset + 2), byte = 0) → stop = start + 1) := by
  unfold peek at h
  cases hfound : message[offset]? with
  | none =>
    have hlength : message.length ≤ offset := List.getElem?_eq_none_iff.mp hfound
    refine ⟨List.replicate (offset - message.length) 0 ++ [tag, 1], offset + 2, offset + 2 + 1, ?_,
      ?_, by omega, fun _ => rfl⟩
    · have hpadded : (message ++ List.replicate (offset - message.length) 0).length = offset := by
        rw [List.length_append, List.length_replicate]
        omega
      have hread := readTagged_short (message ++ List.replicate (offset - message.length) 0) tag 1
        (by decide) []
      rwa [hpadded, List.append_assoc] at hread
    · simp only [List.length_append, List.length_replicate, List.length_cons, List.length_nil]
      omega
  | some found =>
    have htag : found = tag := by grind
    subst htag
    have hthere : offset < message.length := (List.getElem?_eq_some_iff.mp hfound).1
    have hwaiting : readElement message offset = .waiting := by grind
    by_cases hheader : message.length < offset + 2
    · have hsplit : message = message.take offset ++ [found] := by
        have htake := List.take_of_length_le (show message.length ≤ offset + 1 by omega)
        rw [List.take_add_one, hfound] at htake
        exact htake.symm
      have hlength : (message.take offset).length = offset := List.length_take_of_le hthere.le
      refine ⟨[1], offset + 2, offset + 2 + 1, ?_, ?_, by omega, fun _ => rfl⟩
      · have hread := readTagged_short (message.take offset) found 1 (by decide) []
        rwa [hlength, List.append_cons, ← hsplit] at hread
      · rw [List.length_append, List.length_singleton]
        omega
    · exact exists_completion_length hfound hwaiting hheader

theorem readTagged_append {range : ℕ × ℕ} (h : readTagged buffer offset tag = some range)
    (more : List UInt8) : readTagged (buffer ++ more) offset tag = some range := by
  unfold readTagged at h ⊢
  cases hread : readElement buffer offset with
  | waiting => simp [hread] at h
  | malformed => simp [hread] at h
  | ok found start stop =>
    rw [readElement_append (by rw [hread]; exact BerRead.noConfusion) more, hread]
    simpa [hread] using h

/-- A length byte above zero with another one to come makes an element of 256 bytes or more. -/
theorem long_of_beyond (h : peek message offset tag = .beyond)
    (hbyte : ∃ byte ∈ message.drop (offset + 2), byte ≠ 0) {more : List UInt8}
    (hread : readTagged (message ++ more) offset tag = some (start, stop)) : 256 ≤ stop - start := by
  obtain ⟨byte, hmem, hne⟩ := hbyte
  have hknown : 0 < (message.drop (offset + 2)).length := List.length_pos_of_mem hmem
  rw [List.length_drop] at hknown
  have hwaiting : readElement message offset = .waiting := by
    unfold peek at h
    grind
  have hfirst : (message ++ more).getD (offset + 1) 0 = message.getD (offset + 1) 0 := by grind
  unfold readElement at hwaiting
  rw [if_neg (by omega)] at hwaiting
  have hlong : ¬message.getD (offset + 1) 0 < 0x80 := by grind
  unfold readTagged readElement at hread
  rw [if_neg (by rw [List.length_append]; omega)] at hread
  dsimp only at hread
  rw [hfirst, if_neg hlong] at hread
  generalize hcount : (message.getD (offset + 1) 0 &&& 0x7F).toNat = count at hwaiting hread
  have hfits : ¬(count = 0 ∨ 4 < count) := by grind
  have hmissing : message.length < offset + 2 + count := by grind
  rw [if_neg hfits] at hread
  have hthere : ¬(message ++ more).length < offset + 2 + count := by grind
  rw [if_neg hthere] at hread
  have hbytes : ((message ++ more).drop (offset + 2)).take count =
      message.drop (offset + 2) ++ more.take (count - (message.length - (offset + 2))) := by
    rw [List.drop_append_of_le_length (by omega), List.take_append, List.length_drop,
      List.take_of_length_le (by rw [List.length_drop]; omega)]
  rw [hbytes, bigEndian_append] at hread
  have hnonzero : bigEndian (message.drop (offset + 2)) ≠ 0 := by
    rw [ne_eq, bigEndian_eq_zero_iff]
    exact fun hzero => hne (hzero byte hmem)
  have hrest : 0 < (more.take (count - (message.length - (offset + 2)))).length := by
    rw [List.length_append] at hthere
    rw [List.length_take]
    omega
  have hpower : 256 ≤ 256 ^ (more.take (count - (message.length - (offset + 2)))).length :=
    Nat.le_self_pow (by omega) 256
  have hproduct := Nat.mul_le_mul (Nat.one_le_iff_ne_zero.mpr hnonzero) hpower
  grind

/-! ### Which messages decide what is read from them -/

theorem slice_append {stop : ℕ} (h : stop ≤ message.length) (start : ℕ) (more : List UInt8) :
    slice (message ++ more) start stop = slice message start stop := by
  rw [slice, slice, List.take_append_of_le_length h]

/-- The diagnostic at `offset` is inside, or another element stands there. -/
def diagnosticInside (message : List UInt8) (offset : ℕ) : Bool :=
  match peek message offset tagOctetString with
  | .refused => true
  | .beyond => false
  | .element start stop => stop = start || stop ≤ message.length

def matchedDnInside (message : List UInt8) (offset : ℕ) : Bool :=
  match peek message offset tagOctetString with
  | .refused => true
  | .beyond => false
  | .element _ stop => diagnosticInside message stop

/-- A result code of a length that is refused needs no bytes to be refused. -/
def codeInside (message : List UInt8) (offset : ℕ) : Bool :=
  match peek message offset tagEnumerated with
  | .refused => true
  | .beyond => (message.drop (offset + 2)).any (· ≠ 0)
  | .element start stop =>
    stop = start || 4 < stop - start || stop ≤ message.length && matchedDnInside message stop

def operationInside (message : List UInt8) (offset : ℕ) : Bool :=
  match peek message offset tagBindResponse with
  | .refused => true
  | .beyond => false
  | .element start _ => codeInside message start

/-- Each element that is reached in a message whose content starts at `offset` is inside it, or is
refused for bytes that are. -/
def messageInside (message : List UInt8) (offset : ℕ) : Bool :=
  match peek message offset tagInteger with
  | .refused => true
  | .beyond => false
  | .element _ stop => operationInside message stop

theorem readTagged_element (h : peek message offset tag = .element start stop) :
    readTagged message offset tag = some (start, stop) := by
  simpa using readTagged_of_element h []

theorem readTagged_refused (h : peek message offset tag = .refused) :
    readTagged message offset tag = none := by
  simpa using readTagged_of_refused h []

theorem length_of_readTagged (h : readTagged buffer offset tag = some (start, stop)) :
    start ≤ buffer.length ∧ start ≤ stop := by
  unfold readTagged at h
  cases hread : readElement buffer offset with
  | waiting => simp [hread] at h
  | malformed => simp [hread] at h
  | ok found first last =>
    have hlength := length_of_readElement hread
    grind

theorem readDiagnostic_ne_nil (h : readTagged buffer offset tagOctetString = some (start, stop))
    (hpos : start < stop) (hstop : stop ≤ buffer.length) : readDiagnostic buffer offset ≠ [] := by
  have hslice : slice buffer start stop ≠ [] := by
    rw [slice, ne_eq, List.drop_eq_nil_iff, List.length_take]
    omega
  rw [readDiagnostic, h]
  dsimp only
  rw [if_pos hstop, ne_eq, List.take_eq_nil_iff]
  rintro (hmax | hnil)
  · exact absurd hmax (by decide)
  · exact decodeUtf8_ne_nil hslice hnil

theorem diagnosticInside_iff : diagnosticInside message offset = true ↔
    ∀ more, readDiagnostic (message ++ more) offset = readDiagnostic message offset := by
  unfold diagnosticInside
  cases hpeek : peek message offset tagOctetString with
  | refused =>
    refine iff_of_true rfl fun more => ?_
    rw [readDiagnostic, readDiagnostic, readTagged_of_refused hpeek, readTagged_refused hpeek]
  | beyond =>
    refine iff_of_false (by simp) fun hsame => ?_
    obtain ⟨more, start, stop, hread, hlength, hpos, -⟩ := exists_completion hpeek
    have hnil : readDiagnostic message offset = [] := by
      rw [readDiagnostic, readTagged_of_beyond hpeek]
    refine readDiagnostic_ne_nil (readTagged_append hread (List.replicate (stop - start) 0)) hpos ?_ ?_
    · rw [List.length_append, hlength, List.length_replicate]
      omega
    · rw [List.append_assoc, hsame, hnil]
  | element start stop =>
    have hread := readTagged_element hpeek
    obtain ⟨hstart, hle⟩ := length_of_readTagged hread
    simp only [Bool.or_eq_true, decide_eq_true_eq]
    constructor
    · intro hinside more
      rw [readDiagnostic, readDiagnostic, readTagged_of_element hpeek, hread]
      dsimp only
      by_cases hstop : stop ≤ message.length
      · rw [if_pos hstop, if_pos (by rw [List.length_append]; omega), slice_append hstop]
      · have hempty : stop = start := hinside.resolve_right hstop
        omega
    · intro hsame
      by_contra hout
      rw [not_or] at hout
      have hnil : readDiagnostic message offset = [] := by
        rw [readDiagnostic, hread]
        exact if_neg hout.2
      refine readDiagnostic_ne_nil
        (readTagged_append hread (List.replicate (stop - message.length) 0)) (by omega) ?_ ?_
      · rw [List.length_append, List.length_replicate]
        omega
      · rw [hsame, hnil]

theorem matchedDnInside_iff : matchedDnInside message offset = true ↔
    ∀ more, readMatchedDn (message ++ more) offset = readMatchedDn message offset := by
  unfold matchedDnInside
  cases hpeek : peek message offset tagOctetString with
  | refused =>
    refine iff_of_true rfl fun more => ?_
    rw [readMatchedDn, readMatchedDn, readTagged_of_refused hpeek, readTagged_refused hpeek]
  | beyond =>
    refine iff_of_false (by simp) fun hsame => ?_
    obtain ⟨more, start, stop, hread, hlength, hpos, -⟩ := exists_completion hpeek
    -- A diagnostic of one letter, right behind the completed name.
    let pad := List.replicate (stop - start) (0 : UInt8)
    have hstop : (message ++ more ++ pad).length = stop := by
      rw [List.length_append, hlength, List.length_replicate]
      omega
    have hnil : readMatchedDn message offset = [] := by
      rw [readMatchedDn, readTagged_of_beyond hpeek]
    have hdiagnostic := readTagged_short (message ++ more ++ pad) tagOctetString 1 (by decide) [0x61]
    rw [hstop] at hdiagnostic
    have hname := readTagged_append hread (pad ++ [tagOctetString, 1, 0x61])
    rw [← List.append_assoc] at hname
    refine readDiagnostic_ne_nil hdiagnostic (by simp) ?_ ?_
    · rw [List.length_append, hstop]
      simp
    · have hmore := hsame (more ++ pad ++ [tagOctetString, 1, 0x61])
      rw [hnil, ← List.append_assoc, ← List.append_assoc, readMatchedDn, hname] at hmore
      exact hmore
  | element start stop =>
    refine diagnosticInside_iff.trans (forall_congr' fun more => ?_)
    rw [readMatchedDn, readMatchedDn, readTagged_of_element hpeek, readTagged_element hpeek]

theorem readCode_noBind (h : readTagged buffer offset tagEnumerated = some (start, stop))
    (hrefused : buffer.length < stop ∨ stop = start ∨ 4 < stop - start) :
    readCode buffer offset = .noBind := by
  rw [readCode, h]
  exact if_pos hrefused

theorem readCode_bind (h : readTagged buffer offset tagEnumerated = some (start, stop))
    (hkept : ¬(buffer.length < stop ∨ stop = start ∨ 4 < stop - start)) : readCode buffer offset =
      .bind (bigEndian (slice buffer start stop)) (readMatchedDn buffer stop) := by
  rw [readCode, h]
  exact if_neg hkept

theorem codeInside_iff : codeInside message offset = true ↔
    ∀ more, readCode (message ++ more) offset = readCode message offset := by
  unfold codeInside
  cases hpeek : peek message offset tagEnumerated with
  | refused =>
    refine iff_of_true rfl fun more => ?_
    rw [readCode, readCode, readTagged_of_refused hpeek, readTagged_refused hpeek]
  | beyond =>
    have hnone : readCode message offset = .noBind := by
      rw [readCode, readTagged_of_beyond hpeek]
    simp only [List.any_eq_true, decide_eq_true_eq]
    constructor
    · intro hbyte more
      rw [hnone]
      cases hread : readTagged (message ++ more) offset tagEnumerated with
      | none => rw [readCode, hread]
      | some range =>
        obtain ⟨start, stop⟩ := range
        have hlong := long_of_beyond hpeek hbyte hread
        exact readCode_noBind hread (.inr (.inr (by omega)))
    · intro hsame
      by_contra hzero
      obtain ⟨more, start, stop, hread, hlength, -, hone⟩ := exists_completion hpeek
      have hstop : stop = start + 1 := hone fun byte hmem => by
        by_contra hne
        exact hzero ⟨byte, hmem, hne⟩
      have hbind := readCode_bind (readTagged_append hread [0]) (by
        rw [List.length_append, hlength, hstop]
        simp)
      rw [List.append_assoc, hsame, hnone] at hbind
      cases hbind
  | element start stop =>
    have hread := readTagged_element hpeek
    obtain ⟨hstart, hle⟩ := length_of_readTagged hread
    simp only [Bool.or_eq_true, Bool.and_eq_true, decide_eq_true_eq]
    constructor
    · rintro (hrefused | ⟨hstop, hinside⟩) more
      · rw [readCode_noBind hread (.inr hrefused),
          readCode_noBind (readTagged_of_element hpeek more) (.inr hrefused)]
      · by_cases hrefused : stop = start ∨ 4 < stop - start
        · rw [readCode_noBind hread (.inr hrefused),
            readCode_noBind (readTagged_of_element hpeek more) (.inr hrefused)]
        · rw [readCode_bind hread (by omega), readCode_bind (readTagged_of_element hpeek more)
            (by rw [List.length_append]; omega), slice_append hstop,
            matchedDnInside_iff.mp hinside more]
    · intro hsame
      by_cases hrefused : stop = start ∨ 4 < stop - start
      · exact .inl hrefused
      · have hstop : stop ≤ message.length := by
          by_contra hout
          have hbind := readCode_bind
            (readTagged_append hread (List.replicate (stop - message.length) 0)) (by
              rw [List.length_append, List.length_replicate]
              omega)
          rw [hsame, readCode_noBind hread (.inl (by omega))] at hbind
          cases hbind
        refine .inr ⟨hstop, matchedDnInside_iff.mpr fun more => ?_⟩
        have hbind := hsame more
        rw [readCode_bind hread (by omega), readCode_bind (readTagged_of_element hpeek more)
          (by rw [List.length_append]; omega)] at hbind
        exact (BindRead.bind.inj hbind).2

theorem readCode_short (buffer : List UInt8) :
    readCode (buffer ++ [tagEnumerated, 1, 0]) buffer.length ≠ .noBind := by
  have hbind := readCode_bind (readTagged_short buffer tagEnumerated 1 (by decide) [0]) (by simp)
  rw [hbind]
  exact BindRead.noConfusion

theorem operationInside_iff : operationInside message offset = true ↔
    ∀ more, readOperation (message ++ more) offset = readOperation message offset := by
  unfold operationInside
  cases hpeek : peek message offset tagBindResponse with
  | refused =>
    refine iff_of_true rfl fun more => ?_
    rw [readOperation, readOperation, readTagged_of_refused hpeek, readTagged_refused hpeek]
  | beyond =>
    refine iff_of_false (by simp) fun hsame => ?_
    obtain ⟨more, start, stop, hread, hlength, -, -⟩ := exists_completion hpeek
    have hnone : readOperation message offset = .noBind := by
      rw [readOperation, readTagged_of_beyond hpeek]
    refine readCode_short (message ++ more) ?_
    have hmore := hsame (more ++ [tagEnumerated, 1, 0])
    rw [hnone, ← List.append_assoc, readOperation, readTagged_append hread] at hmore
    rw [hlength]
    exact hmore
  | element start stop =>
    refine codeInside_iff.trans (forall_congr' fun more => ?_)
    rw [readOperation, readOperation, readTagged_of_element hpeek, readTagged_element hpeek]

/-- An operation with a result code, read where the buffer ends. -/
theorem readOperation_short (buffer : List UInt8) :
    readOperation (buffer ++ [tagBindResponse, 3, tagEnumerated, 1, 0]) buffer.length ≠ .noBind := by
  have hcode := readCode_short (buffer ++ [tagBindResponse, 3])
  rw [List.append_assoc, List.length_append] at hcode
  rw [readOperation, readTagged_short buffer tagBindResponse 3 (by decide) [tagEnumerated, 1, 0]]
  exact hcode

theorem messageInside_iff : messageInside message offset = true ↔
    ∀ more, readInner (message ++ more) offset = readInner message offset := by
  unfold messageInside
  cases hpeek : peek message offset tagInteger with
  | refused =>
    refine iff_of_true rfl fun more => ?_
    rw [readInner, readInner, readTagged_of_refused hpeek, readTagged_refused hpeek]
  | beyond =>
    refine iff_of_false (by simp) fun hsame => ?_
    obtain ⟨more, start, stop, hread, hlength, hpos, -⟩ := exists_completion hpeek
    let pad := List.replicate (stop - start) (0 : UInt8)
    have hstop : (message ++ more ++ pad).length = stop := by
      rw [List.length_append, hlength, List.length_replicate]
      omega
    have hnone : readInner message offset = .noBind := by
      rw [readInner, readTagged_of_beyond hpeek]
    refine readOperation_short (message ++ more ++ pad) ?_
    have hid := readTagged_append hread (pad ++ [tagBindResponse, 3, tagEnumerated, 1, 0])
    rw [← List.append_assoc] at hid
    have hmore := hsame (more ++ pad ++ [tagBindResponse, 3, tagEnumerated, 1, 0])
    rw [hnone, ← List.append_assoc, ← List.append_assoc, readInner, hid] at hmore
    rw [hstop]
    exact hmore
  | element start stop =>
    refine operationInside_iff.trans (forall_congr' fun more => ?_)
    rw [readInner, readInner, readTagged_of_element hpeek, readTagged_element hpeek]

/-! ### The outer message -/

/-- Where the content of the outer message starts and where it stops, once it is there whole. -/
def outerMessage (buffer : List UInt8) : Option (ℕ × ℕ) :=
  match readElement buffer 0 with
  | .ok tag start stop =>
    if tag = tagSequence ∧ stop ≤ maxMessage ∧ stop ≤ buffer.length then some (start, stop) else none
  | _ => none

/-- What is read is decided inside the outer message, where there is one. -/
def nested (buffer : List UInt8) : Bool :=
  match outerMessage buffer with
  | none => true
  | some (start, stop) => messageInside (buffer.take stop) start

/-- The answer on a buffer is the answer on every longer one, and nothing that follows the outer
message has a part in it. -/
def Isolated (buffer : List UInt8) : Prop :=
  (∀ more, readBindResponse (buffer ++ more) = readBindResponse buffer) ∧
  ∀ start stop, outerMessage buffer = some (start, stop) →
    ∀ more, readBindResponse (buffer.take stop ++ more) = readBindResponse buffer

theorem outerMessage_eq_some (h : outerMessage buffer = some (start, stop)) :
    readElement buffer 0 = .ok tagSequence start stop ∧ stop ≤ maxMessage ∧
      stop ≤ buffer.length := by
  unfold outerMessage at h
  cases hread : readElement buffer 0 with
  | waiting => simp [hread] at h
  | malformed => simp [hread] at h
  | ok tag first last => grind

theorem readElement_take {found : UInt8} {n : ℕ}
    (h : readElement buffer offset = .ok found start stop) (hn : start ≤ n) :
    readElement (buffer.take n) offset = .ok found start stop := by
  have hstart := length_of_readElement h
  have hfirst : (buffer.take n).getD (offset + 1) 0 = buffer.getD (offset + 1) 0 := by grind
  have hwhole : readElement (buffer.take n) offset ≠ .waiting := by
    unfold readElement at h ⊢
    rw [hfirst, List.length_take]
    grind
  have happend := readElement_append hwhole (buffer.drop n)
  rw [List.take_append_drop, h] at happend
  exact happend.symm

theorem readBindResponse_outer (h : outerMessage buffer = some (start, stop)) :
    readBindResponse buffer = readInner buffer start := by
  obtain ⟨hread, hmax, hlength⟩ := outerMessage_eq_some h
  rw [readBindResponse, hread]
  dsimp only
  rw [if_neg fun hne => hne rfl, if_neg (by omega), if_neg (by omega)]

theorem outerMessage_take (h : outerMessage buffer = some (start, stop)) (more : List UInt8) :
    outerMessage (buffer.take stop ++ more) = some (start, stop) := by
  obtain ⟨hread, hmax, hlength⟩ := outerMessage_eq_some h
  have htake := readElement_take hread (length_of_readElement hread).2.2
  rw [outerMessage, readElement_append (by rw [htake]; exact BerRead.noConfusion), htake]
  dsimp only
  refine if_pos ⟨rfl, hmax, ?_⟩
  rw [List.length_append, List.length_take]
  omega

/-- Without an outer message the answer is none, or the first bytes decide it. -/
theorem readBindResponse_append_of_none (hnone : outerMessage buffer = none)
    (h : readBindResponse buffer ≠ .waiting) (more : List UInt8) :
    readBindResponse (buffer ++ more) = .noBind := by
  have hwaiting : readElement buffer 0 ≠ .waiting := by
    intro hread
    rw [readBindResponse, hread] at h
    exact h rfl
  rw [readBindResponse, readElement_append hwaiting]
  cases hread : readElement buffer 0 with
  | waiting => exact absurd hread hwaiting
  | malformed => rfl
  | ok tag start stop =>
    rw [readBindResponse, hread] at h
    rw [outerMessage, hread] at hnone
    grind

theorem isolated_iff (h : readBindResponse buffer ≠ .waiting) :
    Isolated buffer ↔ nested buffer = true := by
  unfold nested
  cases houter : outerMessage buffer with
  | none =>
    refine iff_of_true ⟨fun more => ?_, fun start stop hsome => ?_⟩ rfl
    · have hbuffer := readBindResponse_append_of_none houter h []
      rw [List.append_nil] at hbuffer
      rw [readBindResponse_append_of_none houter h more, hbuffer]
    · rw [houter] at hsome
      cases hsome
  | some range =>
    obtain ⟨start, stop⟩ := range
    have hmessage (more : List UInt8) : readBindResponse (buffer.take stop ++ more) =
        readInner (buffer.take stop ++ more) start :=
      readBindResponse_outer (outerMessage_take houter more)
    have hbuffer := hmessage (buffer.drop stop)
    rw [List.take_append_drop] at hbuffer
    refine Iff.trans ?_ messageInside_iff.symm
    constructor
    · rintro ⟨-, hinside⟩ more
      have hnothing := hmessage []
      rw [List.append_nil] at hnothing
      have hall := hinside start stop houter
      rw [← hmessage, hall, ← hnothing, ← hall [], List.append_nil]
    · intro hinside
      have hall (more : List UInt8) :
          readBindResponse (buffer.take stop ++ more) = readBindResponse buffer := by
        have hdrop := hinside (buffer.drop stop)
        rw [List.take_append_drop] at hdrop
        rw [hmessage, hbuffer, hinside, hdrop]
      refine ⟨fun more => ?_, fun first last hsame more => ?_⟩
      · have hmore := hall (buffer.drop stop ++ more)
        rwa [← List.append_assoc, List.take_append_drop] at hmore
      · rw [houter] at hsame
        cases hsame
        exact hall more

/-! ### The stream -/

/-- `readBindResponse` as the probe reads it on every chunk. -/
def probeRead (buffer : List UInt8) : Option BindRead :=
  match readBindResponse buffer with
  | .waiting => none
  | read => some read

theorem probeRead_eq_some {read : BindRead} (h : probeRead buffer = some read) :
    readBindResponse buffer = read ∧ readBindResponse buffer ≠ .waiting := by
  unfold probeRead at h
  split at h
  · cases h
  · rename_i hne
    exact ⟨Option.some.inj h, hne⟩

theorem nested_of_append {buffer more : List UInt8} (h : nested (buffer ++ more) = true) :
    nested buffer = true := by
  unfold nested
  cases houter : outerMessage buffer with
  | none => rfl
  | some range =>
    obtain ⟨start, stop⟩ := range
    obtain ⟨-, -, hlength⟩ := outerMessage_eq_some houter
    have hsplit : buffer ++ more = buffer.take stop ++ (buffer.drop stop ++ more) := by
      rw [← List.append_assoc, List.take_append_drop]
    have hwhole : outerMessage (buffer ++ more) = some (start, stop) := by
      rw [hsplit]
      exact outerMessage_take houter _
    rw [nested, hwhole] at h
    dsimp only at h ⊢
    rwa [List.take_append_of_le_length hlength] at h

/-- Where the outer message decides what is read, every cut of the stream leads to the same first
answer. -/
theorem stable_probeRead {stream : List UInt8} (h : nested stream = true) :
    Stable probeRead (fun read _ => read) stream := by
  rintro buffer more rfl read hread
  obtain ⟨rfl, hne⟩ := probeRead_eq_some hread
  have hsame := ((isolated_iff hne).mpr (nested_of_append h)).1 more
  unfold probeRead
  rw [hsame]
  cases hanswer : readBindResponse buffer with
  | waiting => exact absurd hanswer hne
  | noBind => rfl
  | bind resultCode diagnosticMessage => rfl

/-- A whole answer of `readBindResponse` is that of its outer message alone, whatever follows, if
and only if each element it reaches is inside that message or refused for bytes that are.  On a
stream where this holds the first answer is the same for every cut. -/
theorem readBindResponse_message_only (stream : List UInt8) :
    (readBindResponse stream ≠ .waiting → (Isolated stream ↔ nested stream = true)) ∧
    (nested stream = true → ∀ chunks chunks' : List (List UInt8),
      chunks.flatten = stream → chunks'.flatten = stream →
        (firstAnswer probeRead [] chunks).map (·.1) =
          (firstAnswer probeRead [] chunks').map (·.1)) :=
  ⟨fun h => isolated_iff h, fun h _ _ hchunks hchunks' =>
    firstAnswer_congr (stable_probeRead h) rfl hchunks hchunks'⟩

/-- A message that ends where it begins. -/
def emptyMessage : List UInt8 := [0x30, 0x00]

/-- The id and the operation of a bind that succeeded. -/
def followingBind : List UInt8 :=
  [0x02, 0x01, 0x01, 0x61, 0x07, 0x0A, 0x01, 0x00, 0x04, 0x00, 0x04, 0x00]

/-- What the probe answers to an empty message depends on whether more came in the same chunk. -/
theorem emptyMessage_not_isolated :
    readBindResponse emptyMessage = .noBind ∧
    readBindResponse (emptyMessage ++ followingBind) = .bind 0 [] ∧
    (firstAnswer probeRead [] [emptyMessage, followingBind]).map (·.1) = some .noBind ∧
    (firstAnswer probeRead [] [emptyMessage ++ followingBind]).map (·.1) = some (.bind 0 []) := by
  decide

end Vigil.Wire.Ldap
