import Mathlib.Data.Option.Basic

/-! The status controller of `monitors/status-controller.ts`: the status that a verdict establishes,
when the current run of failures began, and what has to be done about the monitor's incidents.
Instants are milliseconds, as `Date.getTime` gives them. -/

namespace Vigil.Monitors.StatusController

/-- What a check says about its target. -/
inductive Verdict
  | up
  | degraded
  | down
  | indeterminate
  deriving DecidableEq, Repr

/-- What the product says about a monitor. -/
inductive MonitorStatus
  | up
  | down
  | degraded
  | unknown
  deriving DecidableEq, Repr

structure StatusSpec where
  failureWindowSeconds : Int

/-- A verdict, with the failure run it belongs to. -/
structure ObservedState where
  verdict : Verdict
  firstFailureAt : Option Int
  previousStatus : MonitorStatus
  now : Int
  /-- Whether a degraded sample may close an open incident; an absent answer counts as yes. -/
  degradedResolves : Option Bool

def deriveStatus (spec : StatusSpec) (observed : ObservedState) : MonitorStatus :=
  match observed.verdict with
  | .up => .up
  | .degraded => .degraded
  | .indeterminate => .unknown
  | .down =>
    let failingForMs :=
      match observed.firstFailureAt with
      | none => 0
      | some first => observed.now - first
    if failingForMs ≥ spec.failureWindowSeconds * 1000 then .down else observed.previousStatus

/-- When the current failure run started, given the previous value and the verdict observed. -/
def advanceFailureRun (previous : Option Int) (verdict : Verdict) (now : Int) : Option Int :=
  match verdict with
  | .down => some (previous.getD now)
  | .indeterminate => previous
  | .up | .degraded => none

/-- The status, and what is to be done about incidents. -/
structure Reconciliation where
  status : MonitorStatus
  openIncident : Bool
  resolveIncidents : Bool
  deriving DecidableEq, Repr

/-- The verdict, and not the derived status, decides whether incidents are resolved. -/
def resolves (verdict : Verdict) (degradedResolves : Option Bool) : Bool :=
  verdict = .up || (verdict = .degraded && degradedResolves != some false)

def reconcile (spec : StatusSpec) (observed : ObservedState) : Reconciliation :=
  let status := deriveStatus spec observed
  { status
    openIncident := status = .down
    resolveIncidents := resolves observed.verdict observed.degradedResolves }

def Verdict.recovers : Verdict → Bool
  | .up | .degraded => true
  | .down | .indeterminate => false

def Verdict.established : Verdict → MonitorStatus
  | .up => .up
  | .degraded => .degraded
  | .down | .indeterminate => .unknown

theorem deriveStatus_of_ne_down {spec : StatusSpec} {observed : ObservedState}
    (h : observed.verdict ≠ .down) : deriveStatus spec observed = observed.verdict.established := by
  unfold deriveStatus
  cases hv : observed.verdict <;> simp_all [Verdict.established]

theorem deriveStatus_of_down {spec : StatusSpec} {observed : ObservedState} {first : Int}
    (h : observed.verdict = .down) (hf : observed.firstFailureAt = some first) :
    deriveStatus spec observed =
      if observed.now - first ≥ spec.failureWindowSeconds * 1000 then .down
      else observed.previousStatus := by
  simp [deriveStatus, h, hf]

theorem established_ne_down (v : Verdict) : v.established ≠ .down := by
  cases v <;> simp [Verdict.established]

theorem advanceFailureRun_recovers {previous : Option Int} {verdict : Verdict} {now : Int}
    (h : verdict.recovers = true) : advanceFailureRun previous verdict now = none := by
  cases verdict <;> simp_all [advanceFailureRun, Verdict.recovers]

@[simp] theorem reconcile_openIncident (spec : StatusSpec) (observed : ObservedState) :
    (reconcile spec observed).openIncident = true ↔ (reconcile spec observed).status = .down := by
  simp [reconcile]

/-- Incidents are resolved only on a verdict that ends the run of failures. -/
theorem recovers_of_resolves {verdict : Verdict} {degradedResolves : Option Bool}
    (h : resolves verdict degradedResolves = true) : verdict.recovers = true := by
  cases verdict <;> simp_all [resolves, Verdict.recovers]

end Vigil.Monitors.StatusController
