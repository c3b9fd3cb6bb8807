import Vigil.HighFreq.Leases
import Vigil.Js.Int32
import Vigil.Js.Double

/-! `shardOf` of `highfreq/shards.ts` in the numbers of JavaScript, against FNV-1a.  A hash is a double,
and the product by the FNV prime is spelled as a sum of shifts, each of which is signed. -/

namespace Vigil.HighFreq.Shards

open Js.Text Js.Int32 Js.Double Leases

def offsetBasis : ℕ := 0x811c9dc5

def prime : ℕ := 16777619

/-- `(hash << 1) + (hash << 4) + (hash << 7) + (hash << 8) + (hash << 24)` -/
def shifts (hash : ℤ) : ℤ :=
  add (add (add (add (shiftLeft hash 1) (shiftLeft hash 4)) (shiftLeft hash 7)) (shiftLeft hash 8))
    (shiftLeft hash 24)

/-- One round of the loop. -/
def mix (hash : ℤ) (unit : UInt16) : ℤ :=
  let hash := bitXor hash unit.toNat
  let hash := add hash (shifts hash)
  unsignedRight hash 0

def shardNumber (monitorId : JsString) : ℤ := (monitorId.foldl mix offsetBasis) % shardCount

/-- FNV-1a of 32 bits. -/
def fnv1a (s : JsString) : ℕ :=
  s.foldl (fun hash unit => (hash ^^^ unit.toNat) * prime % 2 ^ 32) offsetBasis

/-- The sums are far below `2 ^ 53`, so nothing is rounded. -/
theorem shifts_exact (hash : ℤ) :
    shifts hash = shiftLeft hash 1 + shiftLeft hash 4 + shiftLeft hash 7 + shiftLeft hash 8 +
      shiftLeft hash 24 := by
  have h1 := shiftLeft_bounds hash 1
  have h4 := shiftLeft_bounds hash 4
  have h7 := shiftLeft_bounds hash 7
  have h8 := shiftLeft_bounds hash 8
  have h24 := shiftLeft_bounds hash 24
  have e4 : add (shiftLeft hash 1) (shiftLeft hash 4) = _ := add_of_small (by omega)
  rw [shifts, e4]
  have e7 : add (shiftLeft hash 1 + shiftLeft hash 4) (shiftLeft hash 7) = _ :=
    add_of_small (by omega)
  rw [e7]
  have e8 : add (shiftLeft hash 1 + shiftLeft hash 4 + shiftLeft hash 7) (shiftLeft hash 8) = _ :=
    add_of_small (by omega)
  rw [e8]
  exact add_of_small (by omega)

/-- The prime is one more than the powers of two that the shifts multiply by. -/
theorem shifts_bits (b : BitVec 32) :
    b + (b <<< 1 + b <<< 4 + b <<< 7 + b <<< 8 + b <<< 24) = b * BitVec.ofNat 32 prime := by
  have hprime : BitVec.ofNat 32 prime =
      1#32 + (BitVec.twoPow 32 1 + BitVec.twoPow 32 4 + BitVec.twoPow 32 7 + BitVec.twoPow 32 8 +
        BitVec.twoPow 32 24) := by decide
  rw [hprime]
  simp only [BitVec.shiftLeft_eq_mul_twoPow, BitVec.mul_add, BitVec.mul_one]

theorem bits_mix (hash : ℤ) (unit : UInt16) :
    mix hash unit =
      ((bits hash ^^^ BitVec.ofNat 32 unit.toNat) * BitVec.ofNat 32 prime).toNat := by
  have hxor := bitXor_bounds hash unit.toNat
  have hshifts := shifts_exact (bitXor hash unit.toNat)
  have h1 := shiftLeft_bounds (bitXor hash unit.toNat) 1
  have h4 := shiftLeft_bounds (bitXor hash unit.toNat) 4
  have h7 := shiftLeft_bounds (bitXor hash unit.toNat) 7
  have h8 := shiftLeft_bounds (bitXor hash unit.toNat) 8
  have h24 := shiftLeft_bounds (bitXor hash unit.toNat) 24
  have hsum : add (bitXor hash unit.toNat) (shifts (bitXor hash unit.toNat)) =
      bitXor hash unit.toNat + shifts (bitXor hash unit.toNat) := add_of_small (by omega)
  unfold mix
  dsimp only
  rw [hsum, unsignedRight_zero, bits_add, hshifts]
  simp only [bits_add, bits_shiftLeft, bits_bitXor, bits_natCast, shifts_bits]

theorem mix_eq {hash : ℕ} (h : hash < 2 ^ 32) (unit : UInt16) :
    mix hash unit = ((hash ^^^ unit.toNat) * prime % 2 ^ 32 : ℕ) := by
  have hunit : unit.toNat < 2 ^ 32 := unit.toNat_lt.trans (by decide)
  have hxor : (BitVec.ofNat 32 hash ^^^ BitVec.ofNat 32 unit.toNat).toNat = hash ^^^ unit.toNat := by
    rw [BitVec.toNat_xor, BitVec.toNat_ofNat, BitVec.toNat_ofNat, Nat.mod_eq_of_lt h,
      Nat.mod_eq_of_lt hunit]
  rw [bits_mix, bits_natCast, BitVec.toNat_mul, hxor, BitVec.toNat_ofNat]
  rfl

theorem foldl_mix (s : JsString) {hash : ℕ} (h : hash < 2 ^ 32) :
    s.foldl mix hash =
      (s.foldl (fun hash unit => (hash ^^^ unit.toNat) * prime % 2 ^ 32) hash : ℕ) := by
  induction s generalizing hash with
  | nil => rfl
  | cons unit rest ih =>
    rw [List.foldl_cons, List.foldl_cons, mix_eq h unit]
    exact ih (Nat.mod_lt _ (by decide))

theorem shardNumber_eq (monitorId : JsString) :
    shardNumber monitorId = (fnv1a monitorId % shardCount : ℕ) := by
  rw [shardNumber, foldl_mix monitorId (by decide)]
  rfl

/-- A round on 32 bits. -/
def mixWord (hash : UInt32) (unit : UInt16) : UInt32 :=
  let hash := hash ^^^ unit.toUInt32
  hash + ((hash <<< 1) + (hash <<< 4) + (hash <<< 7) + (hash <<< 8) + (hash <<< 24))

theorem mixWord_eq (hash : UInt32) (unit : UInt16) :
    (mixWord hash unit).toNat = (hash.toNat ^^^ unit.toNat) * prime % 2 ^ 32 := by
  have hbits : (mixWord hash unit).toBitVec =
      (hash ^^^ unit.toUInt32).toBitVec * BitVec.ofNat 32 prime := shifts_bits _
  have hnat : (mixWord hash unit).toNat =
      ((hash ^^^ unit.toUInt32).toBitVec * BitVec.ofNat 32 prime).toNat := congrArg BitVec.toNat hbits
  rw [hnat, BitVec.toNat_mul, BitVec.toNat_ofNat]
  show (hash ^^^ unit.toUInt32).toNat * (prime % 2 ^ 32) % 2 ^ 32 = _
  rw [UInt32.toNat_xor, UInt16.toNat_toUInt32]
  rfl

/-- The shards of the leases are computed on words that wrap, and are the same. -/
theorem shardOf_eq_fnv1a (monitorId : JsString) :
    shardOf monitorId = fnv1a monitorId % shardCount := by
  have hfold : ∀ (s : JsString) (hash : UInt32), (s.foldl mixWord hash).toNat =
      s.foldl (fun hash unit => (hash ^^^ unit.toNat) * prime % 2 ^ 32) hash.toNat := by
    intro s
    induction s with
    | nil => exact fun _ => rfl
    | cons unit rest ih =>
      intro hash
      rw [List.foldl_cons, List.foldl_cons, ih, mixWord_eq]
  exact congrArg (· % shardCount) (hfold monitorId 0x811c9dc5)

/-- The shard of a monitor is that of its FNV-1a hash, it is one of the shards there are, and it is
the shard that the leases are about. -/
theorem shardNumber_eq_fnv1a (monitorId : JsString) :
    shardNumber monitorId = (fnv1a monitorId % shardCount : ℕ) ∧
      0 ≤ shardNumber monitorId ∧ shardNumber monitorId < shardCount ∧
      shardNumber monitorId = shardOf monitorId := by
  have h := shardNumber_eq monitorId
  have hlt : fnv1a monitorId % shardCount < shardCount := Nat.mod_lt _ (by decide)
  refine ⟨h, ?_, ?_, ?_⟩
  · rw [h]
    omega
  · rw [h]
    omega
  · rw [h, shardOf_eq_fnv1a]

end Vigil.HighFreq.Shards
