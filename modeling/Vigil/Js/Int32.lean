import Mathlib.Data.Int.Notation
import Mathlib.Data.Nat.Notation

/-! The bit operators of JavaScript on whole numbers: the operands become 32 bits, and all results but
that of `>>>` are read as signed. -/

namespace Vigil.Js.Int32

/-- The 32 bits of a number, `ToInt32` and `ToUint32` before they are read as a number. -/
def bits (x : ℤ) : BitVec 32 := BitVec.ofInt 32 x

/-- `x ^ y` -/
def bitXor (x y : ℤ) : ℤ := (bits x ^^^ bits y).toInt

/-- `x & y` -/
def bitAnd (x y : ℤ) : ℤ := (bits x &&& bits y).toInt

/-- `x | y` -/
def bitOr (x y : ℤ) : ℤ := (bits x ||| bits y).toInt

/-- `x << n`, for a count below 32. -/
def shiftLeft (x : ℤ) (n : ℕ) : ℤ := (bits x <<< n).toInt

/-- `x >> n`, for a count below 32. -/
def shiftRight (x : ℤ) (n : ℕ) : ℤ := ((bits x).sshiftRight n).toInt

/-- `x >>> n`, for a count below 32. -/
def unsignedRight (x : ℤ) (n : ℕ) : ℤ := (bits x >>> n).toNat

@[simp] theorem bits_toInt (b : BitVec 32) : bits b.toInt = b := BitVec.ofInt_toInt

@[simp] theorem bits_toNat (b : BitVec 32) : bits (b.toNat : ℤ) = b := by
  rw [bits, BitVec.ofInt_natCast, BitVec.ofNat_toNat, BitVec.setWidth_eq]

theorem bits_natCast (n : ℕ) : bits (n : ℤ) = BitVec.ofNat 32 n := BitVec.ofInt_natCast 32 n

theorem bits_add (x y : ℤ) : bits (x + y) = bits x + bits y := BitVec.ofInt_add x y

@[simp] theorem bits_bitXor (x y : ℤ) : bits (bitXor x y) = bits x ^^^ bits y := bits_toInt _

variable (x : ℤ)

@[simp] theorem bits_shiftLeft (n : ℕ) : bits (shiftLeft x n) = bits x <<< n := bits_toInt _

@[simp] theorem bits_shiftRight (n : ℕ) :
    bits (shiftRight x n) = (bits x).sshiftRight n := bits_toInt _

@[simp] theorem bits_unsignedRight (n : ℕ) : bits (unsignedRight x n) = bits x >>> n := bits_toNat _

theorem toInt_bounds (b : BitVec 32) : -2147483648 ≤ b.toInt ∧ b.toInt < 2147483648 :=
  ⟨b.le_toInt, b.toInt_lt⟩

theorem shiftLeft_bounds (n : ℕ) :
    -2147483648 ≤ shiftLeft x n ∧ shiftLeft x n < 2147483648 := toInt_bounds _

theorem bitXor_bounds (x y : ℤ) : -2147483648 ≤ bitXor x y ∧ bitXor x y < 2147483648 :=
  toInt_bounds _

theorem unsignedRight_zero : unsignedRight x 0 = (bits x).toNat := by
  rw [unsignedRight, BitVec.ushiftRight_zero]

end Vigil.Js.Int32
