import Mathlib.Algebra.Order.Ring.Int

/-! The hybrid logical clock of `ledger/hlc.ts`: wall-clock milliseconds above a counter of sixteen
bits.  A `bigint` is an integer; a shift by the counter's bits is a product or a quotient. -/

namespace Vigil.Ledger.Hlc

def counterBits : ℕ := 16

def counterSize : ℤ := 2 ^ counterBits

def maxCounter : ℤ := counterSize - 1

/-- The error of parts that no clock value has. -/
structure RangeError where
  physicalMs : ℤ
  counter : ℤ
  deriving DecidableEq, Repr

/-- The text of the error. -/
def RangeError.message (e : RangeError) : String :=
  "Cannot encode HLC (" ++ toString e.physicalMs ++ ", " ++ toString e.counter ++ ")"

def encodeHlc (physicalMs counter : ℤ) : Except RangeError ℤ :=
  if physicalMs < 0 ∨ counter < 0 ∨ counter > maxCounter then .error ⟨physicalMs, counter⟩
  else .ok (physicalMs * counterSize + counter)

/-- The parts of a clock value. -/
structure Reading where
  physicalMs : ℤ
  counter : ℤ
  deriving DecidableEq, Repr

def decodeHlc (hlc : ℤ) : Reading := ⟨hlc / counterSize, hlc % counterSize⟩

/-- The next clock value for an actor that last issued `previous`. -/
def nextHlc (previous nowMs : ℤ) : Except RangeError ℤ :=
  let prior := decodeHlc previous
  let physicalMs := max prior.physicalMs nowMs
  if physicalMs > prior.physicalMs then encodeHlc physicalMs 0
  else if prior.counter ≥ maxCounter then encodeHlc (physicalMs + 1) 0
  else encodeHlc physicalMs (prior.counter + 1)

theorem encodeHlc_ok {physicalMs counter : ℤ} (hp : 0 ≤ physicalMs) (hc : 0 ≤ counter)
    (hmax : counter ≤ maxCounter) :
    encodeHlc physicalMs counter = .ok (physicalMs * counterSize + counter) := by
  rw [encodeHlc, if_neg]
  omega

theorem decodeHlc_encodeHlc {physicalMs counter hlc : ℤ}
    (h : encodeHlc physicalMs counter = .ok hlc) : decodeHlc hlc = ⟨physicalMs, counter⟩ := by
  unfold encodeHlc at h
  split at h
  · cases h
  · rename_i hrange
    cases h
    simp only [maxCounter, counterSize, counterBits] at hrange
    simp only [decodeHlc, counterSize, counterBits, Reading.mk.injEq]
    omega

/-- The clock never throws and always advances, wherever the wall clock stands. -/
theorem nextHlc_spec {previous : ℤ} (h : 0 ≤ previous) (nowMs : ℤ) :
    ∃ hlc, nextHlc previous nowMs = .ok hlc ∧ previous < hlc := by
  have hprior : previous = previous / counterSize * counterSize + previous % counterSize := by
    simp only [counterSize, counterBits]
    omega
  have hcounter : 0 ≤ previous % counterSize ∧ previous % counterSize ≤ maxCounter := by
    simp only [maxCounter, counterSize, counterBits]
    omega
  have hphysical : 0 ≤ previous / counterSize := by
    simp only [counterSize, counterBits]
    omega
  have hmax : 0 ≤ maxCounter := by decide
  unfold nextHlc decodeHlc
  simp only
  split_ifs with hlater hfull
  · refine ⟨_, encodeHlc_ok (by omega) le_rfl hmax, ?_⟩
    simp only [counterSize, counterBits, maxCounter] at *
    omega
  · refine ⟨_, encodeHlc_ok (by omega) le_rfl hmax, ?_⟩
    simp only [counterSize, counterBits, maxCounter] at *
    omega
  · refine ⟨_, encodeHlc_ok (by omega) (by omega) (by omega), ?_⟩
    simp only [counterSize, counterBits, maxCounter] at *
    omega

end Vigil.Ledger.Hlc
