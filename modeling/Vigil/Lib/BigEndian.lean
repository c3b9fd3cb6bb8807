import Mathlib.Data.List.Induction
import Mathlib.Tactic.Ring

/-! Numbers as bytes, the most significant byte first. -/

namespace Vigil.Lib.BigEndian

/-- The number that some bytes write. -/
def bigEndian (bytes : List UInt8) : ℕ :=
  bytes.foldl (fun value byte => value * 256 + byte.toNat) 0

@[simp] theorem bigEndian_nil : bigEndian [] = 0 := rfl

@[simp] theorem bigEndian_concat (bytes : List UInt8) (byte : UInt8) :
    bigEndian (bytes ++ [byte]) = bigEndian bytes * 256 + byte.toNat := by
  simp [bigEndian]

theorem bigEndian_append (bytes more : List UInt8) :
    bigEndian (bytes ++ more) = bigEndian bytes * 256 ^ more.length + bigEndian more := by
  induction more using List.reverseRecOn with
  | nil => simp
  | append_singleton more byte ih =>
    rw [← List.append_assoc, bigEndian_concat, ih, bigEndian_concat, List.length_append,
      List.length_singleton, pow_succ]
    ring

theorem bigEndian_singleton (byte : UInt8) : bigEndian [byte] = byte.toNat := by
  simp [bigEndian]

theorem bigEndian_cons (byte : UInt8) (more : List UInt8) :
    bigEndian (byte :: more) = byte.toNat * 256 ^ more.length + bigEndian more := by
  rw [← List.singleton_append, bigEndian_append, bigEndian_singleton]

theorem bigEndian_lt (bytes : List UInt8) : bigEndian bytes < 256 ^ bytes.length := by
  induction bytes with
  | nil => simp
  | cons byte more ih =>
    have hbyte : byte.toNat + 1 ≤ 256 := byte.toNat_lt
    rw [bigEndian_cons, List.length_cons]
    calc byte.toNat * 256 ^ more.length + bigEndian more
        < byte.toNat * 256 ^ more.length + 256 ^ more.length := Nat.add_lt_add_left ih _
      _ = (byte.toNat + 1) * 256 ^ more.length := by ring
      _ ≤ 256 * 256 ^ more.length := Nat.mul_le_mul_right _ hbyte
      _ = 256 ^ (more.length + 1) := by ring

theorem bigEndian_replicate_zero (n : ℕ) : bigEndian (List.replicate n 0) = 0 := by
  induction n with
  | zero => rfl
  | succ n ih => rw [List.replicate_succ, bigEndian_cons, ih]; simp

/-- Bytes that are not all zero write a number that is not zero. -/
theorem bigEndian_eq_zero_iff (bytes : List UInt8) :
    bigEndian bytes = 0 ↔ ∀ byte ∈ bytes, byte = 0 := by
  constructor
  · induction bytes with
    | nil => exact nofun
    | cons byte more ih =>
      intro h
      rw [bigEndian_cons, Nat.add_eq_zero_iff, Nat.mul_eq_zero] at h
      have hbyte : byte.toNat = 0 := h.1.resolve_right (Nat.pos_iff_ne_zero.mp (Nat.pow_pos (by decide)))
      rintro b hb
      rcases List.mem_cons.mp hb with rfl | hb
      · exact UInt8.toNat_inj.mp hbyte
      · exact ih h.2 b hb
  · intro h
    rw [List.eq_replicate_of_mem h, bigEndian_replicate_zero]

end Vigil.Lib.BigEndian
