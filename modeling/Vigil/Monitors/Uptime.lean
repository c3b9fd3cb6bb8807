import Vigil.Lib.Timeline
import Mathlib.Data.Rat.Cast.Order

/-! Duration-weighted uptime, `monitors/uptime.ts`: the coverage horizon of an observation and
`uptimeFromSamples`, the loop that adds up how long each sample stood for.  Instants and durations
are milliseconds. -/

namespace Vigil.Monitors.Uptime

open Lib.Timeline

structure UptimeSample where
  at_ : ℤ
  ok : Bool
  deriving DecidableEq, Repr

/-- The instants from `start` up to `end_`. -/
structure UptimeWindowBounds where
  start : ℤ
  end_ : ℤ

/-- The time of a window that was up, measured, and not measured. -/
structure UptimeResult where
  coveredMs : ℤ
  upMs : ℤ
  uncoveredMs : ℤ
  /-- `upMs / coveredMs` as an exact percentage, which the code then rounds to two decimals; `none`
  when nothing was covered. -/
  uptimePct : Option ℚ
  deriving DecidableEq

/-- The check types whose observations do not expire. -/
def standingObservationCheckTypeIds : List String := ["manual"]

def standingHorizonSeconds : ℤ := 315360000

def standingHorizonMs : ℤ := standingHorizonSeconds * 1000

def standsIndefinitely (checkType : String) : Bool :=
  standingObservationCheckTypeIds.contains checkType

/-- How long one observation stands for, given the monitor's configured interval. -/
def coverageHorizonMs (intervalSeconds : ℤ) (checkType : Option String) : ℤ :=
  if checkType.any standsIndefinitely then standingHorizonMs else max 60000 (intervalSeconds * 3000)

/-- The loop of `uptimeFromSamples` over the samples still to come, with the totals so far. -/
def accumulate (window : UptimeWindowBounds) (horizonMs : ℤ) :
    List UptimeSample → ℤ → ℤ → ℤ × ℤ
  | [], coveredMs, upMs => (coveredMs, upMs)
  | sample :: rest, coveredMs, upMs =>
    let segmentStart := max sample.at_ window.start
    let next := (rest.head?.map (·.at_)).getD window.end_
    let segmentEnd := min (min next window.end_) (sample.at_ + horizonMs)
    let durationMs := segmentEnd - segmentStart
    if durationMs ≤ 0 then
      accumulate window horizonMs rest coveredMs upMs
    else
      accumulate window horizonMs rest (coveredMs + durationMs)
        (if sample.ok then upMs + durationMs else upMs)

/-- The samples that can reach into the window, in order of time. -/
def ordered (samples : List UptimeSample) (window : UptimeWindowBounds) (horizonMs : ℤ) :
    List UptimeSample :=
  sortByTime UptimeSample.at_
    (samples.filter fun s => s.at_ + horizonMs > window.start ∧ s.at_ < window.end_)

def uptimeFromSamples (samples : List UptimeSample) (window : UptimeWindowBounds)
    (horizonMs : ℤ) : UptimeResult :=
  let windowMs := max 0 (window.end_ - window.start)
  if windowMs = 0 then
    { coveredMs := 0, upMs := 0, uncoveredMs := 0, uptimePct := none }
  else
    let (coveredMs, upMs) := accumulate window horizonMs (ordered samples window horizonMs) 0 0
    { coveredMs
      upMs
      uncoveredMs := windowMs - coveredMs
      uptimePct := if coveredMs = 0 then none else some (upMs / coveredMs * 100) }

/-! ### The measure -/

/-- The number of milliseconds `t` of the window for which the latest sample at or before `t`, the
samples sorted by time, is younger than the horizon and satisfies `q`. -/
noncomputable def standingMs (samples : List UptimeSample) (window : UptimeWindowBounds) (horizonMs : ℤ)
    (q : UptimeSample → Bool) : ℕ :=
  measure UptimeSample.at_ horizonMs window.start window.end_ q
    (sortByTime UptimeSample.at_ samples)

theorem accumulate_eq (window : UptimeWindowBounds) (horizonMs : ℤ) (l : List UptimeSample)
    (sorted : l.Pairwise fun a b => a.at_ ≤ b.at_) (coveredMs upMs : ℤ) :
    accumulate window horizonMs l coveredMs upMs =
      (coveredMs + measure UptimeSample.at_ horizonMs window.start window.end_ (fun _ => true) l,
        upMs + measure UptimeSample.at_ horizonMs window.start window.end_ (·.ok) l) := by
  induction l generalizing coveredMs upMs with
  | nil => simp [accumulate]
  | cons sample rest ih =>
    have hrest := (List.pairwise_cons.mp sorted).2
    rw [measure_cons _ _ _ _ _ sorted, measure_cons _ _ _ _ _ sorted, accumulate]
    simp only [segmentLength, nextTime, if_true]
    split
    · rename_i hempty
      rw [ih hrest, max_eq_left hempty]
      simp
    · rename_i hpos
      rw [ih hrest, max_eq_right (not_le.mp hpos).le]
      cases sample.ok <;> simp <;> omega

variable (samples : List UptimeSample)

theorem ordered_pairwise (window : UptimeWindowBounds) (horizonMs : ℤ) :
    (ordered samples window horizonMs).Pairwise fun a b => a.at_ ≤ b.at_ :=
  sortByTime_pairwise _ _

theorem measure_ordered (window : UptimeWindowBounds) (horizonMs : ℤ) (q : UptimeSample → Bool) :
    measure UptimeSample.at_ horizonMs window.start window.end_ q
        (ordered samples window horizonMs) =
      standingMs samples window horizonMs q := by
  rw [ordered, sortByTime_filter, standingMs]
  exact measure_filter _ _ _ _ _ (sortByTime_pairwise _ samples)

theorem standingMs_of_empty {samples : List UptimeSample} {window : UptimeWindowBounds}
    {horizonMs : ℤ} {q : UptimeSample → Bool} (h : max 0 (window.end_ - window.start) = 0) :
    standingMs samples window horizonMs q = 0 := by
  have := measure_le UptimeSample.at_ horizonMs window.start window.end_ q
    (sortByTime UptimeSample.at_ samples)
  rw [h] at this
  unfold standingMs
  omega

/-- The two totals count the milliseconds for which a sample stands, and for which an `ok` one
does. -/
theorem uptimeFromSamples_totals (window : UptimeWindowBounds) (horizonMs : ℤ) :
    (uptimeFromSamples samples window horizonMs).coveredMs =
        standingMs samples window horizonMs (fun _ => true) ∧
      (uptimeFromSamples samples window horizonMs).upMs =
        standingMs samples window horizonMs (·.ok) := by
  unfold uptimeFromSamples
  by_cases h : max 0 (window.end_ - window.start) = 0
  · simp [h, standingMs_of_empty h]
  · simp only [h, if_false]
    rw [accumulate_eq _ _ _ (ordered_pairwise samples window horizonMs), measure_ordered,
      measure_ordered]
    simp

theorem uptimeFromSamples_uncovered (window : UptimeWindowBounds) (horizonMs : ℤ) :
    (uptimeFromSamples samples window horizonMs).uncoveredMs =
      max 0 (window.end_ - window.start) - (uptimeFromSamples samples window horizonMs).coveredMs := by
  unfold uptimeFromSamples
  by_cases h : max 0 (window.end_ - window.start) = 0
  · simp only [h, if_true, sub_zero]
  · simp only [h, if_false]

theorem ordered_eq_of_perm {samples samples' : List UptimeSample} {window : UptimeWindowBounds}
    {horizonMs : ℤ} (h : samples'.Perm samples) (distinct : (samples.map (·.at_)).Nodup) :
    ordered samples' window horizonMs = ordered samples window horizonMs := by
  refine (sortByTime_eq_of_perm _ (h.symm.filter _) ?_).symm
  exact distinct.sublist ((List.filter_sublist).map _)

/-- Uptime is a measure: the totals count the milliseconds of the window that the samples vouch for;
they are bounded by the window; those of adjoining windows add up; and the order in which samples of
distinct instants are given does not matter. -/
theorem uptimeFromSamples_measure (samples : List UptimeSample) (start end_ horizonMs : ℤ) :
    let r := uptimeFromSamples samples ⟨start, end_⟩ horizonMs
    r.coveredMs = standingMs samples ⟨start, end_⟩ horizonMs (fun _ => true) ∧
    r.upMs = standingMs samples ⟨start, end_⟩ horizonMs (·.ok) ∧
    0 ≤ r.upMs ∧ r.upMs ≤ r.coveredMs ∧ r.coveredMs ≤ max 0 (end_ - start) ∧
    (∀ mid, start ≤ mid → mid ≤ end_ →
      r.coveredMs = (uptimeFromSamples samples ⟨start, mid⟩ horizonMs).coveredMs +
          (uptimeFromSamples samples ⟨mid, end_⟩ horizonMs).coveredMs ∧
        r.upMs = (uptimeFromSamples samples ⟨start, mid⟩ horizonMs).upMs +
          (uptimeFromSamples samples ⟨mid, end_⟩ horizonMs).upMs) ∧
    (∀ samples', samples'.Perm samples → (samples.map (·.at_)).Nodup →
      uptimeFromSamples samples' ⟨start, end_⟩ horizonMs = r) := by
  intro r
  obtain ⟨hcovered, hup⟩ := uptimeFromSamples_totals samples ⟨start, end_⟩ horizonMs
  refine ⟨hcovered, hup, ?_, ?_, ?_, fun mid h₁ h₂ => ?_, fun samples' hperm hdistinct => ?_⟩
  · rw [hup]
    exact Int.natCast_nonneg _
  · rw [hup, hcovered]
    exact Int.ofNat_le.mpr (measure_mono _ _ _ _ (fun _ _ => rfl) _)
  · rw [hcovered]
    exact measure_le _ _ _ _ _ _
  · obtain ⟨hc₁, hu₁⟩ := uptimeFromSamples_totals samples ⟨start, mid⟩ horizonMs
    obtain ⟨hc₂, hu₂⟩ := uptimeFromSamples_totals samples ⟨mid, end_⟩ horizonMs
    rw [hcovered, hup, hc₁, hu₁, hc₂, hu₂]
    exact ⟨Int.ofNat_inj.mpr (measure_split _ _ _ _ _ _ h₁ h₂),
      Int.ofNat_inj.mpr (measure_split _ _ _ _ _ _ h₁ h₂)⟩
  · simp only [r, uptimeFromSamples, ordered_eq_of_perm hperm hdistinct]

end Vigil.Monitors.Uptime
