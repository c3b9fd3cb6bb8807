import Vigil.Ledger.Hlc
import Vigil.Js.Double

/-! The clock of `ledger/hlc.ts` over a sequence of readings.  Here it is spelled in bits, as the code
spells it, and a number that comes out of a `bigint` is rounded to a double; below `2 ^ 47` physical
milliseconds this is the clock of `Ledger.Hlc`. -/

namespace Vigil.Ledger.HlcRuns

open Js.Double Hlc

def counterMask : ℕ := 1 <<< counterBits - 1

/-- `encodeHlc`, by shifting. -/
def encodeBits (physicalMs counter : ℤ) : Except RangeError ℕ :=
  if physicalMs < 0 ∨ counter < 0 ∨ counter > counterMask then .error ⟨physicalMs, counter⟩
  else .ok (physicalMs.toNat <<< counterBits ||| counter.toNat)

def decodeBits (hlc : ℕ) : Reading :=
  ⟨roundInt (hlc >>> counterBits : ℕ), roundInt (hlc &&& counterMask : ℕ)⟩

def nextBits (previous : ℕ) (nowMs : ℤ) : Except RangeError ℕ :=
  let prior := decodeBits previous
  let physicalMs := max prior.physicalMs nowMs
  if physicalMs > prior.physicalMs then encodeBits physicalMs 0
  else if prior.counter ≥ counterMask then encodeBits (add physicalMs 1) 0
  else encodeBits physicalMs (add prior.counter 1)

/-- The values that an actor issues, one for each reading. -/
def issue : ℕ → List ℤ → Except RangeError (List ℕ)
  | _, [] => .ok []
  | previous, nowMs :: rest => do
    let hlc ← nextBits previous nowMs
    return hlc :: (← issue hlc rest)

/-- The physical part of a value. -/
def physical (hlc : ℕ) : ℕ := hlc >>> counterBits

/-- Whether the counter of the last value is used up and the clock has not moved on. -/
def Overflow (previous : ℕ) (nowMs : ℤ) : Prop :=
  nowMs ≤ physical previous ∧ previous &&& counterMask = counterMask

instance (previous : ℕ) (nowMs : ℤ) : Decidable (Overflow previous nowMs) :=
  inferInstanceAs (Decidable (_ ∧ _))

/-- How often the counter overflows while these values are issued. -/
def overflows : ℕ → List ℤ → List ℕ → ℕ
  | previous, nowMs :: readings, hlc :: values =>
    (if Overflow previous nowMs then 1 else 0) + overflows hlc readings values
  | _, _, _ => 0

/-- The largest of a physical part and some readings. -/
def largest (start : ℤ) (readings : List ℤ) : ℤ := readings.foldl max start

/-! ### One value -/

theorem physical_eq (hlc : ℕ) : physical hlc = hlc / 65536 := Nat.shiftRight_eq_div_pow hlc 16

theorem mask_eq (hlc : ℕ) : hlc &&& counterMask = hlc % 65536 :=
  Nat.and_two_pow_sub_one_eq_mod hlc 16

theorem join_eq (p : ℕ) {c : ℕ} (hc : c < 65536) : p <<< counterBits ||| c = p * 65536 + c := by
  rw [Nat.shiftLeft_eq]
  have h := Nat.two_pow_add_eq_or_of_lt (i := 16) hc p
  rw [show p * 2 ^ counterBits = 2 ^ 16 * p from Nat.mul_comm _ _, ← h, Nat.mul_comm p]

theorem encodeBits_ok {physicalMs counter : ℤ} (hp : 0 ≤ physicalMs) (hc : 0 ≤ counter)
    (hmax : counter ≤ 65535) :
    encodeBits physicalMs counter = .ok (physicalMs.toNat * 65536 + counter.toNat) := by
  have hrange : ¬(physicalMs < 0 ∨ counter < 0 ∨ counter > counterMask) := by
    have hmask : (counterMask : ℤ) = 65535 := rfl
    omega
  rw [encodeBits, if_neg hrange, join_eq _ (by omega)]

variable {hlc previous : ℕ} {readings : List ℤ}

/-- A pair that is encoded is decoded again, when its physical part is a number. -/
theorem decodeBits_encodeBits {physicalMs counter : ℤ} (hnumber : roundInt physicalMs = physicalMs)
    (h : encodeBits physicalMs counter = .ok hlc) : decodeBits hlc = ⟨physicalMs, counter⟩ := by
  unfold encodeBits at h
  split at h
  · cases h
  · rename_i hrange
    have hmask : (counterMask : ℤ) = 65535 := rfl
    cases h
    have hphysical : (physicalMs.toNat * 65536 + counter.toNat) / 65536 = physicalMs.toNat := by omega
    have hcounter : (physicalMs.toNat * 65536 + counter.toNat) % 65536 = counter.toNat := by omega
    have hsmall : (counter.toNat : ℤ).natAbs < 2 ^ 53 := by omega
    rw [join_eq _ (by omega), decodeBits, mask_eq]
    refine congrArg₂ Reading.mk ?_ ?_
    · show roundInt ((physical _ : ℕ) : ℤ) = physicalMs
      rw [physical_eq, hphysical, Int.toNat_of_nonneg (by omega), hnumber]
    · rw [hcounter, roundInt_of_small hsmall, Int.toNat_of_nonneg (by omega)]

theorem encodeBits_lt {p c p' c' : ℤ} {hlc hlc' : ℕ} (h : encodeBits p c = .ok hlc)
    (h' : encodeBits p' c' = .ok hlc') (hlt : p < p' ∨ p = p' ∧ c < c') : hlc < hlc' := by
  have hmask : (counterMask : ℤ) = 65535 := rfl
  unfold encodeBits at h h'
  split at h
  · cases h
  · split at h'
    · cases h'
    · rename_i hrange hrange'
      cases h
      cases h'
      rw [join_eq _ (by omega), join_eq _ (by omega)]
      omega

theorem physical_encodeBits {p c : ℤ} (h : encodeBits p c = .ok hlc) : (physical hlc : ℤ) = p := by
  have hmask : (counterMask : ℤ) = 65535 := rfl
  unfold encodeBits at h
  split at h
  · cases h
  · rename_i hrange
    cases h
    rw [physical_eq, join_eq _ (by omega)]
    omega

theorem round_counter (hlc : ℕ) : roundInt ((hlc &&& counterMask : ℕ) : ℤ) = (hlc % 65536 : ℕ) := by
  rw [mask_eq, roundInt_of_small (by omega)]

/-- No value throws: what is encoded is never negative, and the counter stays in range. -/
theorem nextBits_ok (previous : ℕ) (nowMs : ℤ) : ∃ hlc, nextBits previous nowMs = .ok hlc := by
  have hmask : (counterMask : ℤ) = 65535 := rfl
  have hphysical : 0 ≤ (decodeBits previous).physicalMs := roundInt_nonneg (Int.natCast_nonneg _)
  have hcounter : (decodeBits previous).counter = (previous % 65536 : ℕ) := round_counter previous
  unfold nextBits
  dsimp only
  split_ifs with hlater hfull
  · exact ⟨_, encodeBits_ok (by omega) (by omega) (by omega)⟩
  · exact ⟨_, encodeBits_ok (roundInt_nonneg (by omega)) (by omega) (by omega)⟩
  · have hadd : add (decodeBits previous).counter 1 = (decodeBits previous).counter + 1 :=
      add_of_small (by omega)
    rw [hadd]
    exact ⟨_, encodeBits_ok (by omega) (by omega) (by omega)⟩

/-- A value below `2 ^ 47` physical milliseconds is decoded without rounding. -/
theorem decodeBits_eq (hlc : ℕ) (h : physical hlc < 2 ^ 53) :
    decodeBits hlc = ⟨physical hlc, (hlc % 65536 : ℕ)⟩ := by
  have hphysical : ((hlc >>> counterBits : ℕ) : ℤ).natAbs < 2 ^ 53 := h
  have hcounter : ((hlc % 65536 : ℕ) : ℤ).natAbs < 2 ^ 53 := by omega
  rw [decodeBits, mask_eq, roundInt_of_small hphysical, roundInt_of_small hcounter]
  rfl

/-- What one reading makes of the clock. -/
structure Advances (previous : ℕ) (nowMs : ℤ) (hlc : ℕ) : Prop where
  increasing : previous < hlc
  current : nowMs ≤ physical hlc
  ahead : (physical hlc : ℤ) ≤
    max (physical previous : ℤ) nowMs + if Overflow previous nowMs then 1 else 0

theorem nextBits_advances {nowMs : ℤ} (hprevious : physical previous < 2 ^ 53 - 1)
    (h : nextBits previous nowMs = .ok hlc) : Advances previous nowMs hlc := by
  have hmask : (counterMask : ℤ) = 65535 := rfl
  have hphysical := physical_eq previous
  have hoverflow : Overflow previous nowMs ↔ nowMs ≤ physical previous ∧ previous % 65536 = 65535 := by
    rw [Overflow, mask_eq]
    rfl
  have hprior := decodeBits_eq previous (by omega)
  have hadd : add (max (physical previous : ℤ) nowMs) 1 = max (physical previous : ℤ) nowMs + 1 ∨
      nowMs > physical previous := by
    rcases le_or_gt nowMs (physical previous) with hle | hgt
    · exact .inl (add_of_small (by omega))
    · exact .inr hgt
  have hcount : add ((previous % 65536 : ℕ) : ℤ) 1 = (previous % 65536 : ℕ) + 1 :=
    add_of_small (by omega)
  unfold nextBits at h
  simp only [hprior] at h
  split_ifs at h with hlater hfull
  · rw [encodeBits_ok (by omega) (by omega) (by omega)] at h
    have hnew := Except.ok.inj h
    have hnot : ¬Overflow previous nowMs := by
      rw [hoverflow]
      omega
    have hnewPhysical := physical_eq hlc
    exact ⟨by omega, by omega, by rw [if_neg hnot]; omega⟩
  · have hsum := hadd.resolve_right (by omega)
    rw [hsum, encodeBits_ok (by omega) (by omega) (by omega)] at h
    have hnew := Except.ok.inj h
    have hover : Overflow previous nowMs := by
      rw [hoverflow]
      omega
    have hnewPhysical := physical_eq hlc
    exact ⟨by omega, by omega, by rw [if_pos hover]; omega⟩
  · rw [hcount, encodeBits_ok (by omega) (by omega) (by omega)] at h
    have hnew := Except.ok.inj h
    have hnewPhysical := physical_eq hlc
    refine ⟨by omega, by omega, ?_⟩
    split <;> omega

theorem encodeBits_eq_encodeHlc (physicalMs counter : ℤ) :
    (encodeBits physicalMs counter).map (fun (hlc : ℕ) => (hlc : ℤ)) = encodeHlc physicalMs counter := by
  have hmask : (counterMask : ℤ) = maxCounter := rfl
  unfold encodeBits encodeHlc
  rw [hmask]
  split
  · rfl
  · rename_i hrange
    have hmax : maxCounter = 65535 := rfl
    have hsize : counterSize = 65536 := rfl
    rw [join_eq _ (by omega), hsize]
    refine congrArg Except.ok ?_
    push_cast
    rw [Int.toNat_of_nonneg (by omega), Int.toNat_of_nonneg (by omega)]

/-- Where nothing is rounded, the clock of bits is the clock of integers. -/
theorem nextBits_eq_nextHlc (h : physical previous < 2 ^ 53 - 1) (nowMs : ℤ) :
    (nextBits previous nowMs).map (fun (hlc : ℕ) => (hlc : ℤ)) = nextHlc previous nowMs := by
  have hphysical := physical_eq previous
  have hprior : decodeBits previous = decodeHlc previous := by
    rw [decodeBits_eq _ (by omega), hphysical]
    rfl
  have hcounter : (decodeHlc previous).counter = (previous % 65536 : ℕ) := rfl
  have hstart : (decodeHlc previous).physicalMs = physical previous := by
    rw [hphysical]
    rfl
  have hmask : (counterMask : ℤ) = maxCounter := rfl
  unfold nextBits nextHlc
  rw [hprior, hmask]
  dsimp only
  split_ifs with hlater hfull
  · exact encodeBits_eq_encodeHlc _ _
  · rw [encodeBits_eq_encodeHlc, add_of_small (by omega)]
  · rw [encodeBits_eq_encodeHlc, add_of_small (by omega)]

/-- A clock that has left the exact numbers does not come back. -/
theorem physical_stays_large {nowMs : ℤ} (hprevious : 2 ^ 53 - 1 ≤ physical previous)
    (h : nextBits previous nowMs = .ok hlc) : 2 ^ 53 - 1 ≤ physical hlc := by
  have hprior : 2 ^ 53 - 1 ≤ (decodeBits previous).physicalMs := by
    rcases Nat.lt_or_ge (physical previous) (2 ^ 53) with hlt | hge
    · rw [decodeBits_eq _ hlt]
      show _ ≤ (physical previous : ℤ)
      omega
    · have hround : 2 ^ 53 ≤ roundInt (physical previous : ℤ) := le_roundInt (by omega)
      show _ ≤ roundInt (physical previous : ℤ)
      omega
  have hmax : 2 ^ 53 - 1 ≤ max (decodeBits previous).physicalMs nowMs := by omega
  unfold nextBits at h
  dsimp only at h
  split_ifs at h
  · have hnew := physical_encodeBits h
    omega
  · have hnew := physical_encodeBits h
    have hround : 2 ^ 53 ≤ add (max (decodeBits previous).physicalMs nowMs) 1 := le_roundInt (by omega)
    omega
  · have hnew := physical_encodeBits h
    omega

/-! ### Any number of values -/

theorem largest_le (start start' : ℤ) {n : ℕ} (h : start ≤ start' + n) (readings : List ℤ) :
    largest start readings ≤ largest start' readings + n := by
  induction readings generalizing start start' with
  | nil => exact h
  | cons nowMs rest ih => exact ih (max start nowMs) (max start' nowMs) (by omega)

/-- What a sequence of readings makes of the clock. -/
structure Runs (previous : ℕ) (readings : List ℤ) (values : List ℕ) : Prop where
  increasing : (previous :: values).Pairwise (· < ·)
  current : List.Forall₂ (fun (nowMs : ℤ) (hlc : ℕ) => nowMs ≤ physical hlc) readings values
  ahead : ∀ k hlc, values[k]? = some hlc → (physical hlc : ℤ) ≤
    largest (physical previous) (readings.take (k + 1)) +
      overflows previous (readings.take (k + 1)) values

theorem issue_cons (previous : ℕ) (nowMs : ℤ) (rest : List ℤ) :
    ∃ hlc, nextBits previous nowMs = .ok hlc ∧
      issue previous (nowMs :: rest) = (issue hlc rest).map (hlc :: ·) := by
  obtain ⟨hlc, hnext⟩ := nextBits_ok previous nowMs
  refine ⟨hlc, hnext, ?_⟩
  rw [issue, hnext]
  show (issue hlc rest >>= fun values => pure (hlc :: values)) = _
  cases issue hlc rest <;> rfl

theorem issue_ok (previous : ℕ) (readings : List ℤ) : ∃ values, issue previous readings = .ok values := by
  induction readings generalizing previous with
  | nil => exact ⟨[], rfl⟩
  | cons nowMs rest ih =>
    obtain ⟨hlc, -, hissue⟩ := issue_cons previous nowMs rest
    obtain ⟨values, hvalues⟩ := ih hlc
    exact ⟨hlc :: values, by rw [hissue, hvalues]; rfl⟩

/-- As long as the physical parts stay below `2 ^ 47`, the clock runs. -/
theorem issue_runs {values : List ℕ} (h : issue previous readings = .ok values)
    (hbound : ∀ hlc ∈ values, physical hlc < 2 ^ 47) : Runs previous readings values := by
  induction readings generalizing previous values with
  | nil =>
    cases h
    exact ⟨List.pairwise_singleton _ _, .nil, fun k hlc hk => by simp at hk⟩
  | cons nowMs rest ih =>
    obtain ⟨hlc, hnext, hissue⟩ := issue_cons previous nowMs rest
    obtain ⟨more, hmore⟩ := issue_ok hlc rest
    rw [hissue, hmore] at h
    obtain rfl : hlc :: more = values := Except.ok.inj h
    have hnew := hbound hlc List.mem_cons_self
    have hprevious : physical previous < 2 ^ 53 - 1 := by
      by_contra hlarge
      have hstays := physical_stays_large (Nat.le_of_not_lt hlarge) hnext
      omega
    have hstep := nextBits_advances hprevious hnext
    have hrest := ih hmore fun v hv => hbound v (List.mem_cons_of_mem _ hv)
    have hafter := (List.pairwise_cons.mp hrest.increasing).1
    refine ⟨?_, .cons hstep.current hrest.current, ?_⟩
    · refine List.pairwise_cons.mpr ⟨?_, hrest.increasing⟩
      intro v hv
      rcases List.mem_cons.mp hv with rfl | hv
      · exact hstep.increasing
      · exact hstep.increasing.trans (hafter v hv)
    · intro k v hk
      have hahead := hstep.ahead
      cases k with
      | zero =>
        obtain rfl : hlc = v := by simpa using hk
        have hzero : overflows hlc (rest.take 0) more = 0 := by
          rw [List.take_zero]
          rfl
        rw [List.take_succ_cons, overflows, hzero]
        simpa [largest] using hahead
      | succ k =>
        have hlater := hrest.ahead k v (by simpa using hk)
        have hlargest := largest_le (n := if Overflow previous nowMs then 1 else 0)
          (physical hlc) (max (physical previous : ℤ) nowMs)
          (by exact_mod_cast hahead) (rest.take (k + 1))
        rw [List.take_succ_cons, overflows]
        show _ ≤ largest (max (physical previous : ℤ) nowMs) (rest.take (k + 1)) + _
        push_cast at *
        omega

/-- A reading puts the clock ahead by one millisecond at most, so no value passes a bound that the
last value and the readings leave that much room to. -/
theorem physical_lt {bound previous : ℕ} {values : List ℕ}
    (h : issue previous readings = .ok values) (hexact : bound ≤ 2 ^ 47)
    (hprevious : physical previous + readings.length < bound)
    (hreadings : ∀ nowMs ∈ readings, nowMs + readings.length < bound) :
    ∀ hlc ∈ values, physical hlc < bound := by
  induction readings generalizing previous values with
  | nil =>
    cases h
    exact nofun
  | cons nowMs rest ih =>
    obtain ⟨hlc, hnext, hissue⟩ := issue_cons previous nowMs rest
    obtain ⟨more, hmore⟩ := issue_ok hlc rest
    rw [hissue, hmore] at h
    obtain rfl : hlc :: more = values := Except.ok.inj h
    rw [List.length_cons] at hprevious
    have hnow := hreadings nowMs List.mem_cons_self
    have hahead := (nextBits_advances (by omega) hnext).ahead
    have hone : (if Overflow previous nowMs then 1 else 0) ≤ (1 : ℤ) := by
      split <;> omega
    rw [List.length_cons] at hnow
    push_cast at hnow
    have hnew : physical hlc + rest.length < bound := by omega
    intro v hv
    rcases List.mem_cons.mp hv with rfl | hv
    · omega
    · refine ih hmore hnew (fun later hlater => ?_) v hv
      have hroom := hreadings later (List.mem_cons_of_mem _ hlater)
      rw [List.length_cons] at hroom
      push_cast at hroom
      omega

/-- The clock runs where the last value and every reading leave a millisecond for each reading below
`2 ^ 47`. -/
theorem issue_runs_of_readings (hprevious : physical previous + readings.length < 2 ^ 47)
    (hreadings : ∀ nowMs ∈ readings, nowMs + readings.length < 2 ^ 47) :
    ∃ values, issue previous readings = .ok values ∧ Runs previous readings values := by
  obtain ⟨values, hvalues⟩ := issue_ok previous readings
  exact ⟨values, hvalues, issue_runs hvalues (physical_lt hvalues le_rfl hprevious hreadings)⟩

/-- The wall clock goes back by four milliseconds and stays there. -/
theorem clock_turned_back :
    issue 0 [5, 1, 1] = .ok [5 * 65536, 5 * 65536 + 1, 5 * 65536 + 2] ∧
      Runs 0 [5, 1, 1] [5 * 65536, 5 * 65536 + 1, 5 * 65536 + 2] := by
  have hruns : ∃ values, issue 0 [5, 1, 1] = .ok values ∧ Runs 0 [5, 1, 1] values :=
    issue_runs_of_readings (by decide) (by decide)
  obtain ⟨values, hissue, hruns⟩ := hruns
  have hvalues : issue 0 [5, 1, 1] = .ok [5 * 65536, 5 * 65536 + 1, 5 * 65536 + 2] := by
    decide +kernel
  obtain rfl := Except.ok.inj (hissue.symm.trans hvalues)
  exact ⟨hvalues, hruns⟩

/-- Whatever the readings, a value is issued for each of them; as long as the physical parts stay
below `2 ^ 47` they increase, none is behind its reading, and the clock is ahead of the readings by
the overflows of the counter at most.  What the encoder admits is decoded again, and it keeps the
order of the pairs. -/
theorem clock_runs (previous : ℕ) (readings : List ℤ) :
    (∃ values, issue previous readings = .ok values ∧
      ((∀ hlc ∈ values, physical hlc < 2 ^ 47) → Runs previous readings values)) ∧
    (∀ physicalMs counter hlc, roundInt physicalMs = physicalMs →
      encodeBits physicalMs counter = .ok hlc → decodeBits hlc = ⟨physicalMs, counter⟩) ∧
    ∀ p c p' c' hlc hlc', encodeBits p c = .ok hlc → encodeBits p' c' = .ok hlc' →
      p < p' ∨ p = p' ∧ c < c' → hlc < hlc' := by
  refine ⟨?_, ?_, ?_⟩
  · obtain ⟨values, hvalues⟩ := issue_ok previous readings
    exact ⟨values, hvalues, issue_runs hvalues⟩
  · exact fun _ _ _ hnumber h => decodeBits_encodeBits hnumber h
  · exact fun _ _ _ _ _ _ h h' hlt => encodeBits_lt h h' hlt

end Vigil.Ledger.HlcRuns
