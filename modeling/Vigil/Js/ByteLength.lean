import Vigil.Js.Text

/-! `Buffer.byteLength(s, "utf8")`: one byte for a unit of ASCII, and two or three for every other
unit. -/

namespace Vigil.Js.ByteLength

open Text

/-- `Buffer.byteLength(s, "utf8")` -/
def byteLength (s : JsString) : ℕ := (utf8 s).length

def isAscii (c : UInt16) : Bool := c < 0x80

/-- How many units are not of ASCII. -/
def wideUnits (s : JsString) : ℕ := s.countP fun c => !isAscii c

@[simp] theorem byteLength_nil : byteLength [] = 0 := rfl

theorem isAscii_iff (c : UInt16) : isAscii c = true ↔ c.toNat < 0x80 := by
  simp [isAscii, UInt16.lt_iff_toNat_lt]

theorem wideUnits_cons (c : UInt16) (s : JsString) :
    wideUnits (c :: s) = wideUnits s + if isAscii c then 0 else 1 := by
  rw [wideUnits, List.countP_cons]
  cases isAscii c <;> rfl

variable (s : JsString)

theorem wideUnits_eq_zero_iff : wideUnits s = 0 ↔ s.all isAscii = true := by
  rw [wideUnits, List.countP_eq_zero, List.all_eq_true]
  simp

/-- What stands for a unit that is not half of a pair. -/
def unitChar (c : UInt16) : Char := if isSurrogate c then '\uFFFD' else Char.ofNat c.toNat

theorem unitChar_size_ascii {c : UInt16} (h : isAscii c = true) : (unitChar c).utf8Size = 1 := by
  have hlt := (isAscii_iff c).mp h
  have hplain : ¬isSurrogate c = true := by
    rw [isSurrogate_iff]
    omega
  have hvalue : (Char.ofNat c.toNat).toNat = c.toNat := toNat_ofNat_of (.inl (by omega))
  rw [unitChar, if_neg hplain, Char.utf8Size_eq_one_iff, UInt32.le_iff_toNat_le]
  show (Char.ofNat c.toNat).toNat ≤ 127
  omega

theorem unitChar_size_wide {c : UInt16} (h : ¬isAscii c = true) :
    2 ≤ (unitChar c).utf8Size ∧ (unitChar c).utf8Size ≤ 3 := by
  have hwide : 0x80 ≤ c.toNat := by
    rw [isAscii_iff] at h
    omega
  unfold unitChar
  split
  · exact ⟨by decide, by decide⟩
  · rename_i hplain
    have hlt : c.toNat < 65536 := c.toNat_lt
    have hvalue : (Char.ofNat c.toNat).toNat = c.toNat := by
      rw [isSurrogate_iff] at hplain
      exact toNat_ofNat_of (by unfold Nat.isValidChar; omega)
    have hone : (Char.ofNat c.toNat).utf8Size ≠ 1 := by
      rw [ne_eq, Char.utf8Size_eq_one_iff, UInt32.le_iff_toNat_le]
      show ¬(Char.ofNat c.toNat).toNat ≤ 127
      omega
    have hfour : (Char.ofNat c.toNat).utf8Size ≠ 4 := by
      rw [ne_eq, Char.utf8Size_eq_four_iff, UInt32.lt_iff_toNat_lt]
      show ¬65535 < (Char.ofNat c.toNat).toNat
      omega
    have hsize := Char.utf8Size_eq (Char.ofNat c.toNat)
    omega

theorem pairChar_size {c d : UInt16} (hc : isHighSurrogate c = true) (hd : isLowSurrogate d = true) :
    (Char.ofNat (0x10000 + (c.toNat - 0xD800) * 1024 + (d.toNat - 0xDC00))).utf8Size = 4 := by
  have hhigh := (isHighSurrogate_iff c).mp hc
  have hlow := (isLowSurrogate_iff d).mp hd
  have hvalue := toNat_ofNat_of (n := 0x10000 + (c.toNat - 0xD800) * 1024 + (d.toNat - 0xDC00))
    (by unfold Nat.isValidChar; omega)
  rw [Char.utf8Size_eq_four_iff, UInt32.lt_iff_toNat_lt]
  show 65535 < (Char.ofNat _).toNat
  omega

theorem byteLength_unit {c : UInt16} {rest : JsString}
    (h : codePoints (c :: rest) = unitChar c :: codePoints rest) :
    byteLength (c :: rest) = (unitChar c).utf8Size + byteLength rest := by
  rw [byteLength, utf8, h, List.flatMap_cons, List.length_append, String.length_utf8EncodeChar]
  rfl

/-- A text has one byte for every unit, and one or two more for every unit that is not of ASCII. -/
theorem byteLength_bounds :
    s.length + wideUnits s ≤ byteLength s ∧ byteLength s ≤ s.length + 2 * wideUnits s := by
  have hunit : ∀ (c : UInt16) (rest : JsString),
      codePoints (c :: rest) = unitChar c :: codePoints rest →
      (rest.length + wideUnits rest ≤ byteLength rest ∧
        byteLength rest ≤ rest.length + 2 * wideUnits rest) →
      (c :: rest).length + wideUnits (c :: rest) ≤ byteLength (c :: rest) ∧
        byteLength (c :: rest) ≤ (c :: rest).length + 2 * wideUnits (c :: rest) := by
    intro c rest h ih
    rw [byteLength_unit h, wideUnits_cons, List.length_cons]
    by_cases hascii : isAscii c = true
    · have hsize := unitChar_size_ascii hascii
      rw [if_pos hascii]
      omega
    · have hsize := unitChar_size_wide hascii
      rw [if_neg hascii]
      omega
  induction s using codePoints.induct with
  | case1 => exact ⟨Nat.le_refl _, Nat.le_refl _⟩
  | case2 c => exact hunit c [] rfl ⟨Nat.le_refl _, Nat.le_refl _⟩
  | case3 c d rest hpair ih =>
    obtain ⟨hc, hd⟩ := Bool.and_eq_true_iff.mp hpair
    have hwide : ¬isAscii c = true ∧ ¬isAscii d = true := by
      rw [isAscii_iff, isAscii_iff]
      rw [isHighSurrogate_iff] at hc
      rw [isLowSurrogate_iff] at hd
      omega
    have hsize : byteLength (c :: d :: rest) = 4 + byteLength rest := by
      rw [byteLength, utf8, codePoints_pair hc hd, List.flatMap_cons, List.length_append,
        String.length_utf8EncodeChar, pairChar_size hc hd]
      rfl
    rw [hsize, wideUnits_cons, wideUnits_cons, if_neg hwide.1, if_neg hwide.2, List.length_cons,
      List.length_cons]
    omega
  | case4 c d rest hpair ih =>
    exact hunit c (d :: rest) (by rw [codePoints, if_neg hpair]; rfl) ih

theorem length_le_byteLength : s.length ≤ byteLength s :=
  (Nat.le_add_right _ _).trans (byteLength_bounds s).1

theorem byteLength_le : byteLength s ≤ 3 * s.length := by
  have hwide : wideUnits s ≤ s.length := List.countP_le_length
  have hle := (byteLength_bounds s).2
  omega

theorem byteLength_eq_length_iff : byteLength s = s.length ↔ s.all isAscii = true := by
  have hbounds := byteLength_bounds s
  rw [← wideUnits_eq_zero_iff]
  omega

theorem wellFormed_of_ascii {s : JsString} (h : s.all isAscii = true) : WellFormed s := by
  refine .of_units fun c hc => ?_
  have hlt := (isAscii_iff c).mp (List.all_eq_true.mp h c hc)
  rw [Bool.eq_false_iff, ne_eq, isSurrogate_iff]
  omega

theorem codePoints_encodeUtf16_append (cs : List Char) (t : JsString) :
    codePoints (encodeUtf16 cs ++ t) = cs ++ codePoints t := by
  induction cs with
  | nil => rfl
  | cons c cs ih =>
    rw [encodeUtf16, List.flatMap_cons, List.append_assoc, codePoints_encodeUnits]
    exact congrArg _ ih

/-- A text that does not begin with the second half of a pair is decoded by itself, whatever stands
before it. -/
theorem codePoints_append {d : UInt16} (h : isLowSurrogate d = false) (t : JsString) :
    codePoints (s ++ d :: t) = codePoints s ++ codePoints (d :: t) := by
  induction s using codePoints.induct with
  | case1 => rfl
  | case2 c =>
    have hpair : ¬(isHighSurrogate c && isLowSurrogate d) = true := by
      rw [h, Bool.and_false]
      decide
    rw [List.singleton_append, codePoints.eq_def (c :: d :: t)]
    simp only [if_neg hpair]
    rfl
  | case3 c e rest hpair ih =>
    rw [List.cons_append, List.cons_append, codePoints, if_pos hpair, codePoints, if_pos hpair, ih]
    rfl
  | case4 c e rest hpair ih =>
    rw [List.cons_append, List.cons_append, codePoints, if_neg hpair, codePoints, if_neg hpair]
    exact congrArg _ ih

theorem utf8_append {d : UInt16} (h : isLowSurrogate d = false) (t : JsString) :
    utf8 (s ++ d :: t) = utf8 s ++ utf8 (d :: t) := by
  rw [utf8, codePoints_append s h, List.flatMap_append]
  rfl

theorem utf8_encodeUtf16_append (cs : List Char) (t : JsString) :
    utf8 (encodeUtf16 cs ++ t) = cs.flatMap String.utf8EncodeChar ++ utf8 t := by
  rw [utf8, codePoints_encodeUtf16_append, List.flatMap_append]
  rfl

theorem byteLength_append {s : JsString} (hs : WellFormed s) (t : JsString) :
    byteLength (s ++ t) = byteLength s + byteLength t := by
  obtain ⟨cs, rfl⟩ := hs
  simp only [byteLength, utf8, codePoints_encodeUtf16_append, codePoints_encodeUtf16,
    List.flatMap_append, List.length_append]

end Vigil.Js.ByteLength
