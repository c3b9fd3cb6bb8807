import Mathlib.Algebra.Order.Ring.Int

/-! Whole numbers as doubles.  A double has 53 significant bits, so a whole number of more bits is
rounded to a multiple of a power of two, a tie to the even one.  Numbers past the largest double are
left out. -/

namespace Vigil.Js.Double

/-- The double nearest to a whole number. -/
def roundNat (n : ℕ) : ℕ :=
  if n < 2 ^ 53 then n
  else
    let unit := 2 ^ (n.log2 - 52)
    let down := n / unit
    let rest := n % unit
    if unit < 2 * rest ∨ unit = 2 * rest ∧ down % 2 = 1 then (down + 1) * unit else down * unit

def roundInt (x : ℤ) : ℤ := x.sign * roundNat x.natAbs

/-- `x + y` -/
def add (x y : ℤ) : ℤ := roundInt (x + y)

theorem roundNat_of_lt {n : ℕ} (h : n < 2 ^ 53) : roundNat n = n := if_pos h

theorem roundInt_of_small {x : ℤ} (h : x.natAbs < 2 ^ 53) : roundInt x = x := by
  rw [roundInt, roundNat_of_lt h, Int.sign_mul_natAbs]

theorem add_of_small {x y : ℤ} (h : (x + y).natAbs < 2 ^ 53) : add x y = x + y := roundInt_of_small h

theorem le_roundNat {n : ℕ} (h : 2 ^ 53 ≤ n) : 2 ^ 53 ≤ roundNat n := by
  have hlog : 53 ≤ n.log2 := (Nat.le_log2 (by omega)).mpr h
  obtain ⟨e, he⟩ : ∃ e, n.log2 - 52 = e + 1 := ⟨n.log2 - 53, by omega⟩
  have hpow : 2 ^ 52 * 2 ^ (e + 1) ≤ n := by
    rw [← Nat.pow_add, ← he]
    have hself := Nat.log2_self_le (n := n) (by omega)
    rwa [show 52 + (n.log2 - 52) = n.log2 by omega]
  have hunit : 2 ≤ 2 ^ (e + 1) := by
    rw [Nat.pow_succ]
    have hpos : 0 < 2 ^ e := Nat.two_pow_pos e
    omega
  have hdown : 2 ^ 52 ≤ n / 2 ^ (e + 1) := (Nat.le_div_iff_mul_le (by omega)).mpr hpow
  have hbase : 2 ^ 53 ≤ n / 2 ^ (e + 1) * 2 ^ (e + 1) :=
    Nat.le_trans (by decide) (Nat.mul_le_mul hdown hunit)
  rw [roundNat, if_neg (by omega), he]
  dsimp only
  split
  · rw [Nat.add_mul]
    omega
  · exact hbase

theorem roundInt_natCast (n : ℕ) : roundInt n = roundNat n := by
  unfold roundInt
  rcases Nat.eq_zero_or_pos n with rfl | hpos
  · rfl
  · rw [Int.sign_eq_one_of_pos (by omega), Int.one_mul, Int.natAbs_natCast]

theorem roundInt_nonneg {x : ℤ} (h : 0 ≤ x) : 0 ≤ roundInt x := by
  obtain ⟨n, rfl⟩ := Int.eq_ofNat_of_zero_le h
  exact (roundInt_natCast n) ▸ Int.natCast_nonneg _

theorem le_roundInt {x : ℤ} (h : 2 ^ 53 ≤ x) : 2 ^ 53 ≤ roundInt x := by
  obtain ⟨n, rfl⟩ := Int.eq_ofNat_of_zero_le (a := x) (by omega)
  have hle := le_roundNat (n := n) (by omega)
  have hcast : roundInt (n : ℤ) = roundNat n := roundInt_natCast n
  omega

end Vigil.Js.Double
