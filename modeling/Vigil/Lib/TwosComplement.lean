import Vigil.Lib.BigEndian
import Mathlib.Tactic.Linarith

/-! Integers as bytes in two's complement, the most significant byte first. -/

namespace Vigil.Lib.TwosComplement

open BigEndian

/-- The lowest bytes of an integer. -/
def lowBytes : ℕ → ℤ → List UInt8
  | 0, _ => []
  | count + 1, v => lowBytes count (v / 256) ++ [(v % 256).toNat.toUInt8]

/-- The integer that some bytes write. -/
def signed (bytes : List UInt8) : ℤ :=
  let value : ℤ := bigEndian bytes
  if 128 ≤ (bytes.headD 0).toNat then value - 256 ^ bytes.length else value

/-- `count + 1` bytes are enough for the integer. -/
def Fits (count : ℕ) (v : ℤ) : Prop := -(128 * 256 ^ count) ≤ v ∧ v < 128 * 256 ^ count

variable {count : ℕ} {v : ℤ}

theorem toNat_lowByte (v : ℤ) : (v % 256).toNat.toUInt8.toNat = (v % 256).toNat := by
  have hlow := Int.emod_nonneg v (by decide : (256 : ℤ) ≠ 0)
  have hhigh := Int.emod_lt_of_pos v (by decide : (0 : ℤ) < 256)
  exact Nat.mod_eq_of_lt (by omega)

@[simp] theorem length_lowBytes : (lowBytes count v).length = count := by
  induction count generalizing v with
  | zero => rfl
  | succ count ih => rw [lowBytes, List.length_append, ih, List.length_singleton]

theorem lowBytes_succ :
    lowBytes (count + 1) v = (v / 256 ^ count % 256).toNat.toUInt8 :: lowBytes count v := by
  induction count generalizing v with
  | zero => simp [lowBytes]
  | succ count ih =>
    rw [lowBytes, ih, Int.ediv_ediv_of_nonneg (by decide), ← pow_succ', List.cons_append, lowBytes]

theorem emod_mul {m : ℤ} (h : 0 < m) : v % (256 * m) = 256 * (v / 256 % m) + v % 256 := by
  have hrest := Int.mul_ediv_add_emod (v / 256) m
  have hbyte := Int.mul_ediv_add_emod v 256
  have hlow := Int.emod_nonneg (v / 256) h.ne'
  have hhigh := Int.emod_lt_of_pos (v / 256) h
  refine ((Int.ediv_emod_unique (q := v / 256 / m) (by omega)).mpr ⟨?_, by omega, by omega⟩).2
  calc 256 * (v / 256 % m) + v % 256 + 256 * m * (v / 256 / m)
      = 256 * (m * (v / 256 / m) + v / 256 % m) + v % 256 := by ring
    _ = v := by rw [hrest, hbyte]

theorem bigEndian_lowBytes (count : ℕ) (v : ℤ) :
    (bigEndian (lowBytes count v) : ℤ) = v % 256 ^ count := by
  induction count generalizing v with
  | zero => simp [lowBytes]
  | succ count ih =>
    have hlow := Int.emod_nonneg v (by decide : (256 : ℤ) ≠ 0)
    rw [lowBytes, bigEndian_concat, toNat_lowByte, pow_succ', emod_mul (by positivity)]
    push_cast
    rw [ih, Int.toNat_of_nonneg hlow]
    ring

/-- The first of some bytes is at least 128 when what they write is at least half of what they
could. -/
theorem head_iff (byte : UInt8) (more : List UInt8) :
    128 ≤ byte.toNat ↔ 128 * 256 ^ more.length ≤ bigEndian (byte :: more) := by
  have hlt := bigEndian_lt more
  rw [bigEndian_cons]
  constructor
  · intro h
    exact Nat.le_add_right_of_le (Nat.mul_le_mul_right _ h)
  · intro h
    by_contra hbyte
    have hle : byte.toNat * 256 ^ more.length ≤ 127 * 256 ^ more.length :=
      Nat.mul_le_mul_right _ (by omega)
    omega

theorem signed_cons (byte : UInt8) (more : List UInt8) :
    signed (byte :: more) =
      if (128 * 256 ^ more.length : ℤ) ≤ bigEndian (byte :: more) then
        (bigEndian (byte :: more) : ℤ) - 256 * 256 ^ more.length
      else (bigEndian (byte :: more) : ℤ) := by
  rw [← pow_succ']
  refine if_congr ((head_iff byte more).trans ?_) rfl rfl
  exact_mod_cast Iff.rfl

theorem fits_signed (byte : UInt8) (more : List UInt8) :
    Fits more.length (signed (byte :: more)) := by
  have hlt : (bigEndian (byte :: more) : ℤ) < 256 * 256 ^ more.length := by
    rw [← pow_succ']
    exact_mod_cast bigEndian_lt (byte :: more)
  have hpos : (0 : ℤ) < 256 ^ more.length := by positivity
  rw [signed_cons, Fits]
  split <;> omega

/-- An integer that fits is read back from its lowest bytes. -/
theorem signed_lowBytes (h : Fits count v) : signed (lowBytes (count + 1) v) = v := by
  have hpos : (0 : ℤ) < 256 ^ count := by positivity
  have hvalue : (bigEndian (lowBytes (count + 1) v) : ℤ) = v % (256 * 256 ^ count) := by
    rw [bigEndian_lowBytes, pow_succ']
  have hlength : (lowBytes count v).length = count := length_lowBytes
  obtain ⟨hlow, hhigh⟩ := h
  rw [lowBytes_succ] at hvalue ⊢
  rw [signed_cons, hlength, hvalue]
  rcases lt_or_ge v 0 with hneg | hnonneg
  · have hmod : v % (256 * 256 ^ count) = v + 256 * 256 ^ count := by
      rw [← Int.add_emod_right, Int.emod_eq_of_lt (by omega) (by omega)]
    rw [hmod, if_pos (by omega)]
    omega
  · rw [Int.emod_eq_of_lt hnonneg (by omega), if_neg (by omega)]

/-- What is left beyond the lowest bytes is their sign when the integer lies between them. -/
theorem div_eq_iff :
    v / 256 ^ count = 0 ∨ v / 256 ^ count = -1 ↔ -(256 ^ count) ≤ v ∧ v < 256 ^ count := by
  have hpos : (0 : ℤ) < 256 ^ count := by positivity
  rw [Int.ediv_eq_iff_of_pos hpos, Int.ediv_eq_iff_of_pos hpos]
  omega

theorem Fits.mono {more : ℕ} (h : Fits count v) (hle : count ≤ more) : Fits more v := by
  have hpow : (256 : ℤ) ^ count ≤ 256 ^ more := pow_le_pow_right₀ (by decide) hle
  exact ⟨by linarith [h.1], by linarith [h.2]⟩

/-- The first of the lowest bytes does not show the sign when one byte more is needed. -/
theorem sign_iff (hlow : -(256 ^ (count + 1)) ≤ v) (hhigh : v < 256 ^ (count + 1)) :
    (0 ≤ v → (128 ≤ v / 256 ^ count % 256 ↔ ¬Fits count v)) ∧
      (v < 0 → (v / 256 ^ count % 256 < 128 ↔ ¬Fits count v)) := by
  have hpos : (0 : ℤ) < 256 ^ count := by positivity
  have hle : ∀ n : ℤ, n ≤ v / 256 ^ count ↔ n * 256 ^ count ≤ v :=
    fun n => Int.le_ediv_iff_mul_le hpos
  have h128 := hle 128
  have hneg128 := hle (-128)
  have h0 := hle 0
  have h256 := hle 256
  have hneg256 := hle (-256)
  rw [pow_succ'] at hlow hhigh
  unfold Fits
  constructor <;> intro hsign <;> omega

/-- The sign byte of an integer that is left out of its lowest bytes. -/
theorem lowBytes_sign (hlow : -(256 ^ count) ≤ v) (hhigh : v < 256 ^ count) :
    lowBytes (count + 1) v = (if 0 ≤ v then 0x00 else 0xFF) :: lowBytes count v := by
  have hpos : (0 : ℤ) < 256 ^ count := by positivity
  rw [lowBytes_succ]
  split
  · rename_i hsign
    rw [Int.ediv_eq_zero_of_lt hsign hhigh]
    rfl
  · rename_i hsign
    rw [Int.ediv_eq_neg_one_of_neg_of_le (by omega) (by omega)]
    rfl

end Vigil.Lib.TwosComplement
