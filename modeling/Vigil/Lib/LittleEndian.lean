import Vigil.Lib.TwosComplement

/-! Integers as bytes, the least significant byte first. -/

namespace Vigil.Lib.LittleEndian

open BigEndian TwosComplement

/-- The lowest bytes of an integer. -/
def leBytes (count : ℕ) (v : ℤ) : List UInt8 := (lowBytes count v).reverse

/-- The natural number that some bytes write. -/
def unsignedLE (bytes : List UInt8) : ℕ := bigEndian bytes.reverse

/-- The integer that some bytes write in two's complement. -/
def signedLE (bytes : List UInt8) : ℤ := signed bytes.reverse

@[simp] theorem length_leBytes (count : ℕ) (v : ℤ) : (leBytes count v).length = count := by
  rw [leBytes, List.length_reverse, length_lowBytes]

theorem unsignedLE_leBytes {count n : ℕ} (h : n < 256 ^ count) :
    unsignedLE (leBytes count n) = n := by
  have hvalue := bigEndian_lowBytes count n
  have hmod : (n : ℤ) % 256 ^ count = n := Int.emod_eq_of_lt (by omega) (by exact_mod_cast h)
  rw [unsignedLE, leBytes, List.reverse_reverse]
  exact_mod_cast hvalue.trans hmod

theorem signedLE_leBytes {count : ℕ} {v : ℤ} (h : Fits count v) :
    signedLE (leBytes (count + 1) v) = v := by
  rw [signedLE, leBytes, List.reverse_reverse, signed_lowBytes h]

end Vigil.Lib.LittleEndian
