import Mathlib.Algebra.Order.Ring.Int
import Mathlib.Tactic.Ring

/-! Numbers in base 128, the lowest digit first: every byte but the last has its top bit set.  Signed
numbers are folded over the natural ones. -/

namespace Vigil.Lib.Varint

def varint (n : ℕ) : List UInt8 :=
  if n < 128 then [n.toUInt8] else (n % 128 + 128).toUInt8 :: varint (n / 128)

def readVarint : List UInt8 → Option (ℕ × List UInt8)
  | [] => none
  | byte :: rest =>
    if byte.toNat < 128 then some (byte.toNat, rest)
    else (readVarint rest).map fun next => (byte.toNat - 128 + 128 * next.1, next.2)

/-- `0, -1, 1, -2, 2, …` -/
def zigZag (v : ℤ) : ℕ := if 0 ≤ v then (2 * v).toNat else (-2 * v - 1).toNat

def unZigZag (n : ℕ) : ℤ := if n % 2 = 0 then (n / 2 : ℕ) else -((n / 2 : ℕ) + 1 : ℤ)

theorem varint_of_lt {n : ℕ} (h : n < 128) : varint n = [n.toUInt8] := by
  rw [varint, if_pos h]

theorem varint_of_ge {n : ℕ} (h : ¬n < 128) :
    varint n = (n % 128 + 128).toUInt8 :: varint (n / 128) := by
  rw [varint, if_neg h]

theorem toNat_toUInt8 {n : ℕ} (h : n < 256) : n.toUInt8.toNat = n := Nat.mod_eq_of_lt h

/-- A number is read back from its bytes, whatever stands behind them. -/
theorem readVarint_varint (n : ℕ) (rest : List UInt8) :
    readVarint (varint n ++ rest) = some (n, rest) := by
  induction n using varint.induct with
  | case1 n h =>
    have hbyte := toNat_toUInt8 (n := n) (by omega)
    rw [varint_of_lt h, List.singleton_append, readVarint, hbyte, if_pos h]
  | case2 n h ih =>
    have hbyte := toNat_toUInt8 (n := n % 128 + 128) (by omega)
    have hvalue : n % 128 + 128 - 128 + 128 * (n / 128) = n := by omega
    rw [varint_of_ge h, List.cons_append, readVarint, hbyte, if_neg (by omega), ih, Option.map_some,
      hvalue]

theorem length_varint_le {k n : ℕ} (hk : 0 < k) (h : n < 128 ^ k) : (varint n).length ≤ k := by
  induction k generalizing n with
  | zero => exact absurd hk (Nat.lt_irrefl 0)
  | succ k ih =>
    by_cases hlt : n < 128
    · rw [varint_of_lt hlt, List.length_singleton]
      omega
    · have hpos : 0 < k := by
        by_contra hzero
        obtain rfl : k = 0 := by omega
        exact hlt (by simpa using h)
      have hrest := ih hpos (n := n / 128) (Nat.div_lt_of_lt_mul (by rwa [pow_succ'] at h))
      rw [varint_of_ge hlt, List.length_cons]
      omega

theorem unZigZag_zigZag (v : ℤ) : unZigZag (zigZag v) = v := by
  unfold unZigZag zigZag
  split_ifs <;> omega

end Vigil.Lib.Varint
