import Vigil.Monitors.Record
import Vigil.Monitors.Uptime
import Mathlib.Data.Rat.Floor

/-! The policy hook of `monitors/scheduling.ts`, what `recordCheckOutcome` feeds it, and a monitor
that is evaluated exactly when the hook says.  A monitor that fails is probed more often and one that
is calm less often, but never later than an observation stands for. -/

namespace Vigil.Monitors.Scheduling

open StatusController Record Uptime Lib.Timeline

def minIntervalSeconds : ℤ := 2

def minEvaluationMs : ℤ := 500

def maxEvaluationMs : ℤ := 6 * 60 * 60 * 1000

def suspicionDivisor : ℚ := 16

def calmMultiplier : ℚ := 2

def calmRunLength : ℕ := 10

/-- What of a monitor its schedule depends on. -/
structure EvaluationSpec where
  intervalSeconds : ℤ
  currentStatus : Option MonitorStatus

/-- What of an observation the schedule depends on. -/
structure RecentObservation where
  ok : Bool
  verdict : Option Verdict

/-- Any failure in the recent window counts. -/
def suspicious (recent : List RecentObservation) : Bool :=
  recent.any fun observation => !observation.ok && observation.verdict != some .indeterminate

/-- A long unbroken run of clean observations. -/
def calm (recent : List RecentObservation) : Bool :=
  if recent.length < calmRunLength then false
  else (recent.take calmRunLength).all fun observation =>
    observation.ok && observation.verdict != some .degraded

/-- `Math.round` -/
def round (x : ℚ) : ℤ := (x + 1 / 2).floor

/-- The observations are the newest first. -/
def nextEvaluationAt (spec : EvaluationSpec) (recentObservations : List RecentObservation)
    (now : ℤ) : ℤ :=
  let baselineMs : ℚ := spec.intervalSeconds * 1000
  let settled := spec.currentStatus = some .down
  let delayMs :=
    if ¬settled ∧ suspicious recentObservations then baselineMs / suspicionDivisor
    else if calm recentObservations then baselineMs * calmMultiplier
    else baselineMs
  let clamped := min maxEvaluationMs (max minEvaluationMs (round delayMs))
  now + clamped

/-! ### A monitor in steady operation -/

def recentObservationWindow : ℕ := 10

/-- A probe that measured something, with the flag that its verdict sets. -/
structure Conclusive where
  outcome : CheckResult
  measured : outcome.verdict ≠ .indeterminate
  judged : outcome.ok = outcome.verdict.recovers

/-- A monitor that is not paused, its observations newest first, and when it is evaluated next. -/
structure Steady where
  row : Monitor
  unpaused : row.paused = false
  checks : List RecentObservation
  nextEvaluationAt : ℤ

/-- `recordCheckOutcome` of an evaluation at the time that was set. -/
def evaluate (intervalSeconds : ℤ) (s : Steady) (check : Conclusive) : Steady where
  row := (recordCheckOutcome s.row s.row check.outcome s.nextEvaluationAt).1
  unpaused := by
    rw [recordCheckOutcome_of_matches (updateMatches_self s.unpaused)]
    exact s.unpaused
  checks := ⟨check.outcome.ok, some check.outcome.verdict⟩ :: s.checks
  nextEvaluationAt :=
    Scheduling.nextEvaluationAt
      { intervalSeconds
        currentStatus := some (conclude s.row check.outcome s.nextEvaluationAt).status }
      ((⟨check.outcome.ok, some check.outcome.verdict⟩ :: s.checks).take recentObservationWindow)
      s.nextEvaluationAt

def evaluateAll (intervalSeconds : ℤ) (s : Steady) (checks : List Conclusive) : Steady :=
  checks.foldl (evaluate intervalSeconds) s

/-- The samples that the evaluations leave, in order of time. -/
def samplesOf (intervalSeconds : ℤ) : Steady → List Conclusive → List UptimeSample
  | _, [] => []
  | s, check :: rest =>
    { at_ := s.nextEvaluationAt, ok := check.outcome.ok } ::
      samplesOf intervalSeconds (evaluate intervalSeconds s check) rest

/-! ### The delay -/

theorem round_le {x : ℚ} {n : ℤ} (h : x ≤ n) : round x ≤ n := by
  have hlt : x + 1 / 2 < ((n + 1 : ℤ) : ℚ) := by
    push_cast
    linarith
  have hfloor := Int.floor_lt.mpr hlt
  show ⌊x + 1 / 2⌋ ≤ n
  omega

section

variable (spec : EvaluationSpec) (recent : List RecentObservation) (now : ℤ)

theorem nextEvaluationAt_gt : now < nextEvaluationAt spec recent now := by
  unfold nextEvaluationAt minEvaluationMs maxEvaluationMs
  dsimp only
  omega

theorem nextEvaluationAt_le_max : nextEvaluationAt spec recent now ≤ now + maxEvaluationMs := by
  unfold nextEvaluationAt
  dsimp only
  omega

/-- No evaluation is put off for longer than two intervals, or than the least delay. -/
theorem nextEvaluationAt_le (hinterval : 0 ≤ spec.intervalSeconds) :
    nextEvaluationAt spec recent now ≤ now + max minEvaluationMs (spec.intervalSeconds * 2000) := by
  have hpos : (0 : ℚ) ≤ spec.intervalSeconds := by exact_mod_cast hinterval
  unfold nextEvaluationAt
  dsimp only
  generalize hdelay : (if ¬spec.currentStatus = some .down ∧ suspicious recent then _
    else if calm recent then _ else _ : ℚ) = delayMs
  have hround : round delayMs ≤ spec.intervalSeconds * 2000 := by
    apply round_le
    push_cast
    rw [← hdelay]
    unfold suspicionDivisor calmMultiplier
    split
    · linarith
    · split
      · linarith
      · linarith
  omega

variable {recent} in
/-- A monitor that failed last is evaluated within an interval. -/
theorem nextEvaluationAt_le_of_failed (hinterval : 0 ≤ spec.intervalSeconds)
    {observation : RecentObservation} (hok : observation.ok = false) :
    nextEvaluationAt spec (observation :: recent) now ≤
      now + max minEvaluationMs (spec.intervalSeconds * 1000) := by
  have hpos : (0 : ℚ) ≤ spec.intervalSeconds := by exact_mod_cast hinterval
  have hcalm : calm (observation :: recent) = false := by
    unfold calm
    split
    · rfl
    · simp [calmRunLength, hok]
  unfold nextEvaluationAt
  dsimp only
  rw [hcalm]
  generalize hdelay : (if ¬spec.currentStatus = some .down ∧ suspicious (observation :: recent) then _
    else if false then _ else _ : ℚ) = delayMs
  have hround : round delayMs ≤ spec.intervalSeconds * 1000 := by
    apply round_le
    push_cast
    rw [← hdelay]
    unfold suspicionDivisor
    split
    · linarith
    · simp
  omega

end

/-! ### Runs -/

section

variable {intervalSeconds : ℤ} {s : Steady}

theorem evaluate_gt (check : Conclusive) :
    s.nextEvaluationAt < (evaluate intervalSeconds s check).nextEvaluationAt :=
  nextEvaluationAt_gt _ _ _

theorem evaluate_within_horizon (hinterval : 0 ≤ intervalSeconds) (checkType : Option String)
    (check : Conclusive) : (evaluate intervalSeconds s check).nextEvaluationAt ≤
      s.nextEvaluationAt + coverageHorizonMs intervalSeconds checkType := by
  have hmax : (evaluate intervalSeconds s check).nextEvaluationAt ≤
      s.nextEvaluationAt + maxEvaluationMs := nextEvaluationAt_le_max _ _ _
  have hcalm : (evaluate intervalSeconds s check).nextEvaluationAt ≤
      s.nextEvaluationAt + max minEvaluationMs (intervalSeconds * 2000) :=
    nextEvaluationAt_le _ _ _ hinterval
  unfold minEvaluationMs at hcalm
  unfold maxEvaluationMs at hmax
  unfold coverageHorizonMs standingHorizonMs standingHorizonSeconds
  split
  · omega
  · omega

theorem samplesOf_gapless (hinterval : 0 ≤ intervalSeconds) (checkType : Option String)
    (s : Steady) (checks : List Conclusive) :
    Gapless UptimeSample.at_ (coverageHorizonMs intervalSeconds checkType)
      (samplesOf intervalSeconds s checks) := by
  induction checks generalizing s with
  | nil => exact List.isChain_nil
  | cons check rest ih =>
    cases rest with
    | nil => exact List.isChain_singleton _
    | cons next rest =>
      refine List.isChain_cons_cons.mpr ⟨⟨evaluate_gt check, ?_⟩, ih _⟩
      exact evaluate_within_horizon hinterval checkType check

/-- Samples without gaps leave nothing uncovered between the first and the last, in whatever order
they are given. -/
theorem uncoveredMs_eq_zero {horizonMs : ℤ} {taken samples : List UptimeSample}
    (htaken : Gapless UptimeSample.at_ horizonMs taken) (hperm : samples.Perm taken)
    {first last : UptimeSample} (hfirst : taken.head? = some first)
    (hlast : taken.getLast? = some last) :
    (uptimeFromSamples samples ⟨first.at_, last.at_⟩ horizonMs).uncoveredMs = 0 := by
  have hdistinct : (samples.map UptimeSample.at_).Nodup := by
    refine (hperm.map _).nodup_iff.mpr ?_
    exact (List.pairwise_map.mpr htaken.pairwise).imp fun hlt => hlt.ne
  have hsorted : sortByTime UptimeSample.at_ samples = taken :=
    (sortByTime_eq_of_perm _ hperm hdistinct).trans htaken.sorted.insertionSort_eq
  obtain ⟨hcovered, -⟩ := uptimeFromSamples_totals samples ⟨first.at_, last.at_⟩ horizonMs
  rw [uptimeFromSamples_uncovered, hcovered, standingMs, hsorted, htaken.measure hfirst hlast]
  exact sub_self _

/-- While the run of failures is open and the monitor is not down yet, it is probed again within an
interval. -/
theorem evaluate_open (hinterval : minIntervalSeconds ≤ intervalSeconds) (check : Conclusive)
    (hopen : (evaluate intervalSeconds s check).row.firstFailureAt ≠ none) :
    (evaluate intervalSeconds s check).nextEvaluationAt ≤
      s.nextEvaluationAt + intervalSeconds * 1000 := by
  have hdown : check.outcome.verdict = .down := by
    by_contra hother
    have hrecovers : check.outcome.verdict.recovers = true := by
      cases hverdict : check.outcome.verdict with
      | up => rfl
      | degraded => rfl
      | down => exact absurd hverdict hother
      | indeterminate => exact absurd hverdict check.measured
    refine hopen ?_
    show (recordCheckOutcome s.row s.row check.outcome s.nextEvaluationAt).1.firstFailureAt = none
    rw [recordCheckOutcome_of_matches (updateMatches_self s.unpaused)]
    exact advanceFailureRun_recovers hrecovers
  have hok : check.outcome.ok = false := by rw [check.judged, hdown]; rfl
  unfold minIntervalSeconds at hinterval
  have hnext : (evaluate intervalSeconds s check).nextEvaluationAt ≤
      s.nextEvaluationAt + max minEvaluationMs (intervalSeconds * 1000) := by
    refine nextEvaluationAt_le_of_failed
      { intervalSeconds
        currentStatus := some (conclude s.row check.outcome s.nextEvaluationAt).status } _ ?_ hok
    show 0 ≤ intervalSeconds
    omega
  unfold minEvaluationMs at hnext
  omega

end

/-- A monitor that is evaluated exactly when the hook says: whatever its interval, its window, its
history and its conclusive results, its samples cover every instant from the first to the last; and
while its failures have not made it down, it is probed again within an interval. -/
theorem steady_run_covered (intervalSeconds : ℤ) (hmin : minIntervalSeconds ≤ intervalSeconds)
    (checkType : Option String) (start : Steady) (checks : List Conclusive) :
    (∀ samples, samples.Perm (samplesOf intervalSeconds start checks) →
      ∀ first ∈ (samplesOf intervalSeconds start checks).head?,
      ∀ last ∈ (samplesOf intervalSeconds start checks).getLast?,
        (uptimeFromSamples samples ⟨first.at_, last.at_⟩
          (coverageHorizonMs intervalSeconds checkType)).uncoveredMs = 0) ∧
    ∀ check,
      let before := evaluateAll intervalSeconds start checks
      let after := evaluate intervalSeconds before check
      after.row.firstFailureAt ≠ none → after.row.currentStatus ≠ .down →
        after.nextEvaluationAt - before.nextEvaluationAt ≤ intervalSeconds * 1000 := by
  have hinterval : 0 ≤ intervalSeconds := le_trans (by decide) hmin
  constructor
  · intro samples hperm first hfirst last hlast
    exact uncoveredMs_eq_zero (samplesOf_gapless hinterval checkType start checks) hperm hfirst hlast
  · intro check before after hopen _
    exact Int.sub_left_le_of_le_add (evaluate_open hmin check hopen)

/-- A check that found its target up. -/
def passed : Conclusive where
  outcome :=
    { ok := true, error := none, verdict := .up, facts := [], failedAssertions := []
      dockerState := none }
  measured := by decide
  judged := rfl

/-- A check that was refused. -/
def refused : Conclusive where
  outcome :=
    { ok := false, error := some "connection refused", verdict := .down, facts := []
      failedAssertions := [], dockerState := none }
  measured := by decide
  judged := rfl

/-- A monitor that was not checked yet. -/
def fresh : Steady where
  row :=
    { id := 1, organizationId := "org", name := "Shop", failureWindowSeconds := 300
      firstFailureAt := none, dockerState := none, paused := false, currentStatus := .unknown
      consecutiveFailures := 0, lastCheckedAt := none, dispatchClaimedUntil := none
      shadowBridgeId := none }
  unpaused := rfl
  checks := []
  nextEvaluationAt := 0

/-- The evaluation after the failure comes a sixteenth of the interval later. -/
theorem steady_run_covered_failing :
    (uptimeFromSamples (samplesOf 60 fresh [passed, refused, passed]) ⟨0, 63750⟩
      (coverageHorizonMs 60 none)).uncoveredMs = 0 :=
  (steady_run_covered 60 (by decide) none fresh [passed, refused, passed]).1 _ (.refl _)
    ⟨0, true⟩ (by decide +kernel) ⟨63750, true⟩ (by decide +kernel)

end Vigil.Monitors.Scheduling
