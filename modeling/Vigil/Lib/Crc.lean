import Mathlib.Data.Nat.Notation

/-! Reflected cyclic redundancy checks over a register of any width.  A bit step moves the register
down and takes the polynomial in when a one falls out; it is linear in exclusive or.  So eight steps
of a register are those of its low byte, which a table can hold, and the rest of it moved down. -/

namespace Vigil.Lib.Crc

variable {w : ℕ} (polynomial : BitVec w)

def bitStep (crc : BitVec w) : BitVec w :=
  if crc.getLsbD 0 then (crc >>> 1) ^^^ polynomial else crc >>> 1

def bitSteps : ℕ → BitVec w → BitVec w
  | 0, crc => crc
  | n + 1, crc => bitStep polynomial (bitSteps n crc)

/-- A byte goes into the low end of the register, one bit after another. -/
def byteStep (crc : BitVec w) (byte : BitVec 8) : BitVec w :=
  bitSteps polynomial 8 (crc ^^^ byte.setWidth w)

theorem xor_cancel (a b p : BitVec w) : (a ^^^ p) ^^^ (b ^^^ p) = a ^^^ b := by
  rw [BitVec.xor_comm b p, BitVec.xor_assoc, ← BitVec.xor_assoc p p b, BitVec.xor_self,
    BitVec.zero_xor]

theorem bitStep_xor (a b : BitVec w) :
    bitStep polynomial (a ^^^ b) = bitStep polynomial a ^^^ bitStep polynomial b := by
  simp only [bitStep, BitVec.getLsbD_xor, BitVec.ushiftRight_xor_distrib]
  cases a.getLsbD 0 <;> cases b.getLsbD 0
  · rfl
  · exact BitVec.xor_assoc _ _ _
  · show _ = (a >>> 1 ^^^ polynomial) ^^^ b >>> 1
    rw [BitVec.xor_assoc, BitVec.xor_assoc, BitVec.xor_comm polynomial]
    rfl
  · exact (xor_cancel _ _ _).symm

theorem bitSteps_xor (n : ℕ) (a b : BitVec w) :
    bitSteps polynomial n (a ^^^ b) = bitSteps polynomial n a ^^^ bitSteps polynomial n b := by
  induction n with
  | zero => rfl
  | succ n ih => rw [bitSteps, bitSteps, bitSteps, ih, bitStep_xor]

theorem bitSteps_of_clear {m : ℕ} {crc : BitVec w} (h : ∀ i < m, crc.getLsbD i = false) :
    ∀ n ≤ m, bitSteps polynomial n crc = crc >>> n := by
  intro n
  induction n with
  | zero => exact fun _ => (BitVec.ushiftRight_zero crc).symm
  | succ n ih =>
    intro hn
    have hlow : (crc >>> n).getLsbD 0 = false := by
      rw [BitVec.getLsbD_ushiftRight]
      exact h n (by omega)
    rw [bitSteps, ih (by omega), bitStep, hlow, BitVec.shiftRight_add]
    rfl

def lowByte (crc : BitVec w) : BitVec w := crc &&& 255#w

/-- All but the low byte of a register. -/
def upper (crc : BitVec w) : BitVec w := (crc >>> 8) <<< 8

variable (crc : BitVec w)

theorem getLsbD_upper (i : ℕ) : (upper crc).getLsbD i = (!decide (i < 8) && crc.getLsbD i) := by
  rw [upper, BitVec.getLsbD_shiftLeft, BitVec.getLsbD_ushiftRight]
  by_cases hlow : i < 8
  · simp [hlow]
  · by_cases hin : i < w
    · simp [hlow, hin, show 8 + (i - 8) = i by omega]
    · simp [hin, BitVec.getLsbD_of_ge crc i (by omega)]

theorem getLsbD_lowByte (i : ℕ) : (lowByte crc).getLsbD i = (decide (i < 8) && crc.getLsbD i) := by
  have hmask : Nat.testBit 255 i = decide (i < 8) := Nat.testBit_two_pow_sub_one 8 i
  rw [lowByte, BitVec.getLsbD_and, BitVec.getLsbD_ofNat, hmask]
  by_cases hin : i < w
  · simp [hin, Bool.and_comm]
  · simp [BitVec.getLsbD_of_ge crc i (by omega)]

theorem upper_xor_lowByte : upper crc ^^^ lowByte crc = crc := by
  apply BitVec.eq_of_getLsbD_eq
  intro i _
  rw [BitVec.getLsbD_xor, getLsbD_upper, getLsbD_lowByte]
  cases decide (i < 8) <;> simp

theorem upper_shift : upper crc >>> 8 = crc >>> 8 := by
  apply BitVec.eq_of_getLsbD_eq
  intro i _
  rw [BitVec.getLsbD_ushiftRight, BitVec.getLsbD_ushiftRight, getLsbD_upper]
  simp

/-- Eight steps are those of the low byte, and the rest moved down. -/
theorem bitSteps_eight :
    bitSteps polynomial 8 crc = (crc >>> 8) ^^^ bitSteps polynomial 8 (lowByte crc) := by
  have hclear : ∀ i < 8, (upper crc).getLsbD i = false := by
    intro i hi
    simp [getLsbD_upper, hi]
  calc bitSteps polynomial 8 crc
      = bitSteps polynomial 8 (upper crc ^^^ lowByte crc) := by rw [upper_xor_lowByte]
    _ = bitSteps polynomial 8 (upper crc) ^^^ bitSteps polynomial 8 (lowByte crc) :=
      bitSteps_xor polynomial 8 _ _
    _ = (crc >>> 8) ^^^ bitSteps polynomial 8 (lowByte crc) := by
      rw [bitSteps_of_clear polynomial hclear 8 (Nat.le_refl 8), upper_shift]

/-- The byte at a time, with what a table holds of the low byte. -/
theorem byteStep_eq (byte : BitVec 8) : byteStep polynomial crc byte =
      (crc >>> 8) ^^^ bitSteps polynomial 8 (lowByte (crc ^^^ byte.setWidth w)) := by
  have hbyte : (byte.setWidth w) >>> 8 = 0#w := by
    apply BitVec.eq_of_getLsbD_eq
    intro i _
    rw [BitVec.getLsbD_ushiftRight, BitVec.getLsbD_setWidth, BitVec.getLsbD_of_ge byte _ (by omega),
      BitVec.getLsbD_zero, Bool.and_false]
  rw [byteStep, bitSteps_eight, BitVec.ushiftRight_xor_distrib, hbyte, BitVec.xor_zero]

end Vigil.Lib.Crc
