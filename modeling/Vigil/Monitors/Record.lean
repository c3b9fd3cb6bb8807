import Vigil.Monitors.StatusController

/-! `recordCheckOutcome` of `monitors/service.ts`: the monitor row, the result of one check, and the
conditional update that writes what the status controller concluded.  The caller's `monitor` is a
copy that it read before the probe; the update compares it with the row as it stands. -/

namespace Vigil.Monitors.Record

open StatusController

structure DockerRestartSample where
  at_ : String
  count : Int
  deriving DecidableEq, Repr

/-- What a row remembers of its container. -/
structure DockerCheckState where
  containerId : Option String
  samples : List DockerRestartSample
  /-- An open incident must wait for a clean `up`; a degraded sample does not close it. -/
  holdResolve : Bool
  deriving DecidableEq, Repr

/-- A value that a check has found. -/
inductive Fact
  | text (value : String)
  | number (value : Int)
  | flag (value : Bool)
  | null
  deriving DecidableEq, Repr

/-- The outcome of a check. -/
structure CheckResult where
  ok : Bool
  error : Option String
  verdict : Verdict
  facts : List (String × Fact)
  failedAssertions : List String
  /-- The next Docker restart memory; absent for every other check type. -/
  dockerState : Option DockerCheckState
  deriving DecidableEq, Repr

/-- The columns of a row of `monitors` that the check path and the incident path read or write. -/
structure Monitor where
  id : Nat
  organizationId : String
  name : String
  failureWindowSeconds : Int
  firstFailureAt : Option Int
  dockerState : Option DockerCheckState
  paused : Bool
  currentStatus : MonitorStatus
  consecutiveFailures : Nat
  lastCheckedAt : Option Int
  dispatchClaimedUntil : Option Int
  shadowBridgeId : Option Nat
  deriving DecidableEq, Repr

structure RecordedCheck where
  monitor : Monitor
  reconciliation : Reconciliation
  deriving DecidableEq, Repr

/-- What the status controller concludes from the caller's copy of the row. -/
def conclude (monitor : Monitor) (outcome : CheckResult) (now : Int) : Reconciliation :=
  reconcile { failureWindowSeconds := monitor.failureWindowSeconds }
    { verdict := outcome.verdict
      firstFailureAt := advanceFailureRun monitor.firstFailureAt outcome.verdict now
      previousStatus := monitor.currentStatus
      now
      degradedResolves := some ((outcome.dockerState.map (·.holdResolve)) != some true) }

def consecutiveFailures (monitor : Monitor) (verdict : Verdict) : Nat :=
  match verdict with
  | .down => monitor.consecutiveFailures + 1
  | .indeterminate => monitor.consecutiveFailures
  | .up | .degraded => 0

/-- The columns that the update writes onto `row`, all of them computed from the caller's copy. -/
def applyUpdate (monitor : Monitor) (outcome : CheckResult) (now : Int) (row : Monitor) :
    Monitor :=
  { row with
    consecutiveFailures := consecutiveFailures monitor outcome.verdict
    firstFailureAt := advanceFailureRun monitor.firstFailureAt outcome.verdict now
    currentStatus := (conclude monitor outcome now).status
    lastCheckedAt := some now
    dispatchClaimedUntil := none
    dockerState := outcome.dockerState.orElse fun _ => row.dockerState }

/-- The predicate of the update: the row is not paused, and the failure run that the conclusion
was derived from is still on it. -/
def UpdateMatches (monitor row : Monitor) : Prop :=
  row.id = monitor.id ∧ row.paused = false ∧ row.firstFailureAt = monitor.firstFailureAt

instance (monitor row : Monitor) : Decidable (UpdateMatches monitor row) :=
  inferInstanceAs (Decidable (_ ∧ _ ∧ _))

/-- The row after the transaction, and what the caller is told.  A row that moved under the probe
keeps its state, and nothing is opened or resolved because of it. -/
def recordCheckOutcome (row monitor : Monitor) (outcome : CheckResult) (now : Int) :
    Monitor × RecordedCheck :=
  if UpdateMatches monitor row then
    let updated := applyUpdate monitor outcome now row
    (updated, { monitor := updated, reconciliation := conclude monitor outcome now })
  else
    (row,
      { monitor := row
        reconciliation :=
          { status := row.currentStatus, openIncident := false, resolveIncidents := false } })

/-- Unpausing starts from a clean slate, and so does pausing. -/
def setMonitorPaused (row : Monitor) (paused : Bool) : Monitor :=
  { row with paused, consecutiveFailures := 0, currentStatus := .unknown, firstFailureAt := none }

/-- An edit of the name or the window; the failure run is deliberately not reset. -/
def updateMonitor (row : Monitor) (name : String) (failureWindowSeconds : Int) : Monitor :=
  { row with name, failureWindowSeconds }

theorem recordCheckOutcome_of_matches {row monitor : Monitor} {outcome : CheckResult} {now : Int}
    (h : UpdateMatches monitor row) :
    recordCheckOutcome row monitor outcome now =
      (applyUpdate monitor outcome now row,
        ⟨applyUpdate monitor outcome now row, conclude monitor outcome now⟩) := by
  simp [recordCheckOutcome, h]

theorem recordCheckOutcome_of_not_matches {row monitor : Monitor} {outcome : CheckResult}
    {now : Int} (h : ¬UpdateMatches monitor row) :
    recordCheckOutcome row monitor outcome now =
      (row, ⟨row, ⟨row.currentStatus, false, false⟩⟩) := by
  simp [recordCheckOutcome, h]

theorem updateMatches_self {row : Monitor} (h : row.paused = false) : UpdateMatches row row :=
  ⟨rfl, h, rfl⟩

section

variable (monitor : Monitor) (outcome : CheckResult) (now : Int) (row : Monitor)

@[simp] theorem applyUpdate_id : (applyUpdate monitor outcome now row).id = row.id := rfl

@[simp] theorem applyUpdate_paused : (applyUpdate monitor outcome now row).paused = row.paused :=
  rfl

@[simp] theorem applyUpdate_firstFailureAt :
    (applyUpdate monitor outcome now row).firstFailureAt =
      advanceFailureRun monitor.firstFailureAt outcome.verdict now := rfl

@[simp] theorem applyUpdate_currentStatus :
    (applyUpdate monitor outcome now row).currentStatus = (conclude monitor outcome now).status :=
  rfl

@[simp] theorem applyUpdate_consecutiveFailures :
    (applyUpdate monitor outcome now row).consecutiveFailures =
      consecutiveFailures monitor outcome.verdict := rfl

@[simp] theorem recordCheckOutcome_id :
    (recordCheckOutcome row monitor outcome now).1.id = row.id := by
  unfold recordCheckOutcome
  split <;> rfl

@[simp] theorem recordCheckOutcome_paused :
    (recordCheckOutcome row monitor outcome now).1.paused = row.paused := by
  unfold recordCheckOutcome
  split <;> rfl

@[simp] theorem recordCheckOutcome_monitor :
    (recordCheckOutcome row monitor outcome now).2.monitor =
      (recordCheckOutcome row monitor outcome now).1 := by
  unfold recordCheckOutcome
  split <;> rfl

end

end Vigil.Monitors.Record
