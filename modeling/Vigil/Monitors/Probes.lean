import Vigil.Lib.Run
import Vigil.Monitors.Record

/-! Any number of probes of one monitor, each with a copy of the row of its own, and an operator who
pauses and resumes it.  A scheduled check and a manual run read the row before they probe; the
high-frequency plane keeps the row that its last promotion returned.  Beside the row a world keeps
the committed events, the latest first, and the time of the last committed update; no step of the
code reads either. -/

namespace Vigil.Monitors.Probes

open StatusController Record Lib

inductive Event where
  | observed (verdict : Verdict) (now : ℤ)
  | setPaused (paused : Bool)
  deriving DecidableEq, Repr

/-- The row, the copies that probes hold, and a history. -/
structure World where
  row : Monitor
  copies : ℕ → Option Monitor
  history : List Event
  committedAt : Option ℤ

inductive Action where
  | read (probe : ℕ)
  | record (probe : ℕ) (outcome : CheckResult) (now : ℤ)
  | setPaused (paused : Bool)
  deriving DecidableEq, Repr

/-- A probe records against the copy that it has read. -/
def step (s : World) : Action → Option World
  | .read probe => some { s with copies := Function.update s.copies probe (some s.row) }
  | .record probe outcome now =>
    (s.copies probe).map fun monitor =>
      let (row, recorded) := recordCheckOutcome s.row monitor outcome now
      let copies := Function.update s.copies probe (some recorded.monitor)
      if UpdateMatches monitor s.row then
        { row, copies
          history := .observed outcome.verdict now :: s.history
          committedAt := some now }
      else { s with row, copies }
  | .setPaused paused =>
    some { s with
      row := setMonitorPaused s.row paused
      history := .setPaused paused :: s.history }

/-- A monitor before its first check. -/
def created (monitor : Monitor) : Monitor :=
  { monitor with
    currentStatus := .unknown
    firstFailureAt := none
    consecutiveFailures := 0
    lastCheckedAt := none }

def init (monitor : Monitor) : World where
  row := created monitor
  copies := fun _ => none
  history := []
  committedAt := none

def machine (monitor : Monitor) : Machine World Action where
  init := init monitor
  step := step

/-- The update that the action would commit was observed after the last committed one. -/
def inOrder (s : World) : Action → Bool
  | .record probe _ now =>
    (s.copies probe).all fun monitor =>
      !decide (UpdateMatches monitor s.row) || s.committedAt.all (· < now)
  | _ => true

/-- The same machine with strictly increasing observation times. -/
def orderedMachine (monitor : Monitor) : Machine World Action where
  init := init monitor
  step s a := if inOrder s a then step s a else none

/-! ### What a step does -/

/-- An update that the row's predicate lets through. -/
structure Commits (s : World) (a : Action) (monitor : Monitor) (outcome : CheckResult) (now : ℤ) :
    Prop where
  action : ∃ probe, a = .record probe outcome now ∧ s.copies probe = some monitor
  matches_ : UpdateMatches monitor s.row

variable {s t : World} {a : Action} {now : ℤ} {monitor : Monitor} {outcome : CheckResult}

theorem step_cases (h : step s a = some t) :
    (t.row = s.row ∧ t.history = s.history ∧ t.committedAt = s.committedAt ∧
        (∀ probe monitor, t.copies probe = some monitor →
          s.copies probe = some monitor ∨ monitor = s.row) ∧
        ∀ monitor outcome now, ¬Commits s a monitor outcome now) ∨
      (∃ monitor outcome now, Commits s a monitor outcome now ∧
        t.row = applyUpdate monitor outcome now s.row ∧
        t.history = .observed outcome.verdict now :: s.history ∧ t.committedAt = some now ∧
        ∀ probe copy, t.copies probe = some copy → s.copies probe = some copy ∨ copy = t.row) ∨
      (∃ paused, a = .setPaused paused ∧ t.row = setMonitorPaused s.row paused ∧
        t.history = .setPaused paused :: s.history ∧ t.committedAt = s.committedAt ∧
        t.copies = s.copies) := by
  have hcopies : ∀ {probe : ℕ} {row monitor : Monitor} {other : ℕ},
      Function.update s.copies probe (some row) other = some monitor →
      s.copies other = some monitor ∨ monitor = row := by
    intro probe row monitor other h
    by_cases hother : other = probe
    · subst hother
      rw [Function.update_self] at h
      exact .inr (Option.some.inj h).symm
    · rw [Function.update_of_ne hother] at h
      exact .inl h
  cases a with
  | read probe =>
    cases h
    refine .inl ⟨rfl, rfl, rfl, fun _ _ => hcopies, ?_⟩
    rintro monitor outcome now ⟨⟨probe, haction, -⟩, -⟩
    cases haction
  | record probe outcome now =>
    obtain ⟨monitor, hmonitor, rfl⟩ := Option.map_eq_some_iff.mp h
    by_cases hm : UpdateMatches monitor s.row
    · refine .inr (.inl ⟨monitor, outcome, now, ⟨⟨probe, rfl, hmonitor⟩, hm⟩, ?_⟩)
      simp only [if_pos hm, recordCheckOutcome_of_matches hm]
      exact ⟨trivial, trivial, trivial, fun _ _ => hcopies⟩
    · refine .inl ?_
      simp only [if_neg hm, recordCheckOutcome_of_not_matches hm]
      refine ⟨trivial, trivial, trivial, fun _ _ => hcopies, ?_⟩
      rintro monitor' outcome' now' ⟨⟨probe', haction, hcopy⟩, hm'⟩
      cases haction
      obtain rfl : monitor = monitor' := by simpa [hmonitor] using hcopy
      exact hm hm'
  | setPaused paused =>
    cases h
    exact .inr (.inr ⟨paused, rfl, rfl, rfl, rfl, rfl⟩)

/-! ### The failure run -/

/-- The event ends a run of failures, or starts the monitor over. -/
def Event.breaks : Event → Bool
  | .observed verdict _ => verdict.recovers
  | .setPaused _ => true

/-- A failing observation at `first` was committed, and nothing has broken the run since. -/
def FailingSince (history : List Event) (first : ℤ) : Prop :=
  ∃ later earlier, history = later ++ .observed .down first :: earlier ∧
    ∀ e ∈ later, e.breaks = false

theorem FailingSince.cons {history : List Event} {first : ℤ} {e : Event}
    (h : FailingSince history first) (he : e.breaks = false) :
    FailingSince (e :: history) first := by
  obtain ⟨later, earlier, rfl, hlater⟩ := h
  refine ⟨e :: later, earlier, rfl, fun e' he' => ?_⟩
  rcases List.mem_cons.mp he' with rfl | he'
  · exact he
  · exact hlater e' he'

theorem FailingSince.new (history : List Event) (now : ℤ) :
    FailingSince (.observed .down now :: history) now :=
  ⟨[], history, rfl, by simp⟩

/-- A row that says down says since when, and by the last committed update the window had
elapsed. -/
def DownIsDue (committedAt : Option ℤ) (row : Monitor) : Prop :=
  row.currentStatus = .down → ∃ first last, row.firstFailureAt = some first ∧
    committedAt = some last ∧ first + row.failureWindowSeconds * 1000 ≤ last

structure Inv (monitor : Monitor) (s : World) : Prop where
  run : ∀ first, s.row.firstFailureAt = some first → FailingSince s.history first
  due : DownIsDue s.committedAt s.row
  window : s.row.failureWindowSeconds = monitor.failureWindowSeconds
  copies : ∀ probe copy, s.copies probe = some copy →
    DownIsDue s.committedAt copy ∧ copy.failureWindowSeconds = monitor.failureWindowSeconds

theorem DownIsDue.later {row : Monitor} {committedAt : Option ℤ} (h : DownIsDue committedAt row)
    (hnow : committedAt.all (· < now) = true) : DownIsDue (some now) row := by
  intro hdown
  obtain ⟨first, last, hfirst, hlast, hdue⟩ := h hdown
  have hlt : last < now := by simpa [hlast] using hnow
  exact ⟨first, now, hfirst, rfl, by omega⟩

theorem conclude_status (monitor : Monitor) (outcome : CheckResult) (now : ℤ) :
    (conclude monitor outcome now).status =
      if outcome.verdict = .down then
        if monitor.firstFailureAt.getD now + monitor.failureWindowSeconds * 1000 ≤ now then .down
        else monitor.currentStatus
      else outcome.verdict.established := by
  by_cases hverdict : outcome.verdict = .down
  · have hstatus : (conclude monitor outcome now).status =
        if now - monitor.firstFailureAt.getD now ≥ monitor.failureWindowSeconds * 1000 then .down
        else monitor.currentStatus :=
      deriveStatus_of_down hverdict (by simp [hverdict, advanceFailureRun])
    rw [hstatus, if_pos hverdict]
    split_ifs <;> first | rfl | omega
  · rw [if_neg hverdict]
    exact deriveStatus_of_ne_down hverdict

/-- What a check concludes is down only on a down verdict, and only once the window has elapsed or
the copy said down before. -/
theorem conclude_down (h : (conclude monitor outcome now).status = .down) :
    outcome.verdict = .down ∧ (monitor.firstFailureAt.getD now +
        monitor.failureWindowSeconds * 1000 ≤ now ∨ monitor.currentStatus = .down) := by
  rw [conclude_status] at h
  split_ifs at h with hverdict helapsed
  · exact ⟨hverdict, .inl helapsed⟩
  · exact ⟨hverdict, .inr h⟩
  · exact absurd h (established_ne_down _)

theorem conclude_openIncident : (conclude monitor outcome now).openIncident = true ↔
      (conclude monitor outcome now).status = .down :=
  reconcile_openIncident _ _

/-- A committed conclusion of down rests on a failing observation that is at least a window old. -/
theorem due_of_commit {monitor copy : Monitor} (h : Inv monitor s)
    (hcopy : ∃ probe, s.copies probe = some copy) (hm : UpdateMatches copy s.row)
    (horder : s.committedAt.all (· < now) = true)
    (hdown : (conclude copy outcome now).status = .down) :
    ∃ first, advanceFailureRun copy.firstFailureAt outcome.verdict now = some first ∧
      FailingSince (.observed outcome.verdict now :: s.history) first ∧
      first + monitor.failureWindowSeconds * 1000 ≤ now := by
  obtain ⟨probe, hprobe⟩ := hcopy
  obtain ⟨hcopyDue, hwindow⟩ := h.copies probe copy hprobe
  obtain ⟨hverdict, helapsed⟩ := conclude_down hdown
  have hfirst : advanceFailureRun copy.firstFailureAt outcome.verdict now =
      some (copy.firstFailureAt.getD now) := by simp [hverdict, advanceFailureRun]
  refine ⟨copy.firstFailureAt.getD now, hfirst, ?_, ?_⟩
  · rw [hverdict]
    cases hrun : copy.firstFailureAt with
    | none => exact .new _ _
    | some first =>
      exact FailingSince.cons (h.run first (hm.2.2.trans hrun)) rfl
  · rcases helapsed with helapsed | hwas
    · rwa [hwindow] at helapsed
    · -- the copy was down, so the window had elapsed at an earlier committed update
      obtain ⟨first, last, hrun, hlast, hdue⟩ := hcopyDue hwas
      have hlt : last < now := by simpa [hlast] using horder
      rw [hrun, Option.getD_some]
      rw [hwindow] at hdue
      omega

theorem ordered_step (h : (orderedMachine monitor).step s a = some t) :
    inOrder s a = true ∧ step s a = some t := by
  simp only [orderedMachine] at h
  split at h
  · rename_i horder
    exact ⟨horder, h⟩
  · cases h

theorem Commits.inOrder {copy : Monitor} (h : Commits s a copy outcome now)
    (horder : inOrder s a = true) : s.committedAt.all (· < now) = true := by
  obtain ⟨⟨probe, rfl, hcopy⟩, hm⟩ := h
  simpa [Probes.inOrder, hcopy, hm] using horder

theorem step_inv (h : Inv monitor s) (hs : (orderedMachine monitor).step s a = some t) :
    Inv monitor t := by
  obtain ⟨horder, hs⟩ := ordered_step hs
  rcases step_cases hs with ⟨hrow, hhistory, hat, hcopies, -⟩ |
    ⟨copy, outcome, now, hcommit, hrow, hhistory, hat, hcopies⟩ |
    ⟨paused, -, hrow, hhistory, hat, hcopies⟩
  · refine ⟨by rw [hrow, hhistory]; exact h.run, by rw [hrow, hat]; exact h.due,
      by rw [hrow]; exact h.window, fun probe copy hcopy => ?_⟩
    rw [hat]
    rcases hcopies probe copy hcopy with hcopy | rfl
    · exact h.copies probe copy hcopy
    · exact ⟨h.due, h.window⟩
  · have hin := hcommit.inOrder horder
    obtain ⟨⟨probe, -, hprobe⟩, hm⟩ := hcommit
    have hdue : DownIsDue t.committedAt t.row := by
      rw [hrow, hat]
      intro hdown
      obtain ⟨first, hfirst, -, helapsed⟩ := due_of_commit h ⟨probe, hprobe⟩ hm hin hdown
      refine ⟨first, now, hfirst, rfl, ?_⟩
      have hwindow : (applyUpdate copy outcome now s.row).failureWindowSeconds =
        monitor.failureWindowSeconds := h.window
      rw [hwindow]
      exact helapsed
    have hwindow : t.row.failureWindowSeconds = monitor.failureWindowSeconds := by
      rw [hrow]
      exact h.window
    refine ⟨fun first hfirst => ?_, hdue, hwindow, fun probe copy hcopy => ?_⟩
    · rw [hrow, applyUpdate_firstFailureAt] at hfirst
      rw [hhistory]
      cases hverdict : outcome.verdict with
      | up => simp [hverdict, advanceFailureRun] at hfirst
      | degraded => simp [hverdict, advanceFailureRun] at hfirst
      | indeterminate =>
        rw [hverdict] at hfirst
        exact (h.run first (hm.2.2.trans hfirst)).cons rfl
      | down =>
        rw [hverdict] at hfirst
        cases hrun : copy.firstFailureAt with
        | none =>
          obtain rfl : now = first := by simpa [hrun, advanceFailureRun] using hfirst
          exact .new _ _
        | some since =>
          obtain rfl : since = first := by simpa [hrun, advanceFailureRun] using hfirst
          exact (h.run since (hm.2.2.trans hrun)).cons rfl
    · rcases hcopies probe copy hcopy with hcopy | rfl
      · obtain ⟨hcopyDue, hcopyWindow⟩ := h.copies probe copy hcopy
        rw [hat]
        exact ⟨hcopyDue.later hin, hcopyWindow⟩
      · exact ⟨hdue, hwindow⟩
  · refine ⟨?_, ?_, by rw [hrow]; exact h.window, by rw [hcopies, hat]; exact h.copies⟩
    · rw [hrow]
      simp [setMonitorPaused]
    · rw [hrow]
      simp [DownIsDue, setMonitorPaused]

theorem init_inv (monitor : Monitor) : Inv monitor (init monitor) where
  run := by simp [init, created]
  due := by simp [DownIsDue, init, created]
  window := rfl
  copies := by simp [init]

theorem reachable_inv (h : (orderedMachine monitor).Reachable s) : Inv monitor s :=
  h.induct (P := Inv monitor) (init_inv monitor) fun _ _ _ _ hinv hs => step_inv hinv hs

/-- A check that asks for an incident does so at least a window after a failing observation that
nothing has broken since. -/
def OpensAfterWindow (monitor : Monitor) (s : World) (a : Action) (t : World) : Prop :=
  ∀ probe outcome now copy, a = .record probe outcome now → s.copies probe = some copy →
    (recordCheckOutcome s.row copy outcome now).2.reconciliation.openIncident = true →
    ∃ first, FailingSince t.history first ∧ first + monitor.failureWindowSeconds * 1000 ≤ now

theorem opens_after_window (h : Inv monitor s) (hs : (orderedMachine monitor).step s a = some t) :
    OpensAfterWindow monitor s a t := by
  obtain ⟨horder, hs⟩ := ordered_step hs
  rintro probe outcome now copy rfl hcopy hopen
  by_cases hm : UpdateMatches copy s.row
  · have hcommit : Commits s (.record probe outcome now) copy outcome now :=
      ⟨⟨probe, rfl, hcopy⟩, hm⟩
    rw [recordCheckOutcome_of_matches hm] at hopen
    obtain ⟨first, -, hfailing, helapsed⟩ := due_of_commit h ⟨probe, hcopy⟩ hm
      (hcommit.inOrder horder) (conclude_openIncident.mp hopen)
    have hhistory : t.history = .observed outcome.verdict now :: s.history := by
      obtain ⟨copy', hcopy', rfl⟩ := Option.map_eq_some_iff.mp hs
      obtain rfl : copy = copy' := by simpa [hcopy] using hcopy'
      simp [hm]
    exact ⟨first, hhistory ▸ hfailing, helapsed⟩
  · rw [recordCheckOutcome_of_not_matches hm] at hopen
    cases hopen

/-- However probes, pauses and resumes interleave, an incident is asked for only after the failure
window, and a row that says down says since when. -/
theorem failure_run_law (monitor : Monitor) (acts : List Action) :
    (orderedMachine monitor).EachMove acts (OpensAfterWindow monitor) ∧
      (orderedMachine monitor).Always acts fun s =>
        s.row.currentStatus = .down → s.row.firstFailureAt ≠ none := by
  refine ⟨.of_reachable (fun _ _ _ h hs => opens_after_window (reachable_inv h) hs) acts,
    .of_reachable (fun s h hdown => ?_) acts⟩
  obtain ⟨first, -, hfirst, -⟩ := (reachable_inv h).due hdown
  simp [hfirst]

/-! ### Lost updates -/

/-- Every committed update writes what deriving from the row before it would have written. -/
def Serial (s : World) (a : Action) (t : World) : Prop :=
  ∀ copy outcome now, Commits s a copy outcome now →
    t.row.currentStatus = (applyUpdate s.row outcome now s.row).currentStatus ∧
      t.row.firstFailureAt = (applyUpdate s.row outcome now s.row).firstFailureAt ∧
      t.row.consecutiveFailures = (applyUpdate s.row outcome now s.row).consecutiveFailures

/-- What the update relies on in the copy and does not compare with the row is still true of the
row: nothing on a recovery, the count of failures on an indeterminate verdict, and on a down verdict
inside the window also the status. -/
def Current (s : World) (a : Action) : Prop :=
  ∀ copy outcome now, Commits s a copy outcome now →
    outcome.verdict.recovers = true ∨
      copy.consecutiveFailures = s.row.consecutiveFailures ∧
        (outcome.verdict = .indeterminate ∨ copy.currentStatus = s.row.currentStatus ∨
          s.row.firstFailureAt.getD now + s.row.failureWindowSeconds * 1000 ≤ now)

theorem applyUpdate_serial_iff {copy row : Monitor} (outcome : CheckResult) (now : ℤ)
    (hrun : row.firstFailureAt = copy.firstFailureAt)
    (hwindow : copy.failureWindowSeconds = row.failureWindowSeconds) :
    ((applyUpdate copy outcome now row).currentStatus =
        (applyUpdate row outcome now row).currentStatus ∧
      (applyUpdate copy outcome now row).firstFailureAt =
        (applyUpdate row outcome now row).firstFailureAt ∧
      (applyUpdate copy outcome now row).consecutiveFailures =
        (applyUpdate row outcome now row).consecutiveFailures) ↔
    (outcome.verdict.recovers = true ∨
      copy.consecutiveFailures = row.consecutiveFailures ∧
        (outcome.verdict = .indeterminate ∨ copy.currentStatus = row.currentStatus ∨
          row.firstFailureAt.getD now + row.failureWindowSeconds * 1000 ≤ now)) := by
  have hfirst : (applyUpdate copy outcome now row).firstFailureAt =
      (applyUpdate row outcome now row).firstFailureAt := by
    rw [applyUpdate_firstFailureAt, applyUpdate_firstFailureAt, hrun]
  rw [applyUpdate_currentStatus, applyUpdate_currentStatus, conclude_status, conclude_status,
    ← hrun, hwindow]
  simp only [hfirst, true_and, applyUpdate_consecutiveFailures, consecutiveFailures]
  cases hverdict : outcome.verdict with
  | up => simp [Verdict.recovers]
  | degraded => simp [Verdict.recovers]
  | indeterminate => simp [Verdict.recovers]
  | down =>
    simp only [Verdict.recovers, if_true, Nat.add_right_cancel_iff, Bool.false_eq_true,
      false_or, reduceCtorEq]
    split_ifs with helapsed
    · simp [helapsed]
    · simp [helapsed, and_comm]

theorem window_of_reachable (h : (machine monitor).Reachable s) :
    s.row.failureWindowSeconds = monitor.failureWindowSeconds ∧
      ∀ probe copy, s.copies probe = some copy →
        copy.failureWindowSeconds = monitor.failureWindowSeconds := by
  refine h.induct (P := fun s => s.row.failureWindowSeconds = monitor.failureWindowSeconds ∧
    ∀ probe copy, s.copies probe = some copy →
      copy.failureWindowSeconds = monitor.failureWindowSeconds) ⟨rfl, by simp [machine, init]⟩ ?_
  rintro s a t - ⟨hrow, hcopies⟩ hs
  have hrow' : t.row.failureWindowSeconds = monitor.failureWindowSeconds := by
    rcases step_cases hs with ⟨heq, -⟩ | ⟨copy, outcome, now, -, heq, -⟩ | ⟨paused, -, heq, -⟩
    · rw [heq, hrow]
    · rw [heq]
      exact hrow
    · rw [heq]
      exact hrow
  refine ⟨hrow', fun probe copy hcopy => ?_⟩
  rcases step_cases hs with ⟨-, -, -, hold, -⟩ | ⟨_, _, _, -, -, -, -, hold⟩ |
    ⟨paused, -, -, -, -, hold⟩
  · rcases hold probe copy hcopy with hcopy | rfl
    · exact hcopies probe copy hcopy
    · exact hrow
  · rcases hold probe copy hcopy with hcopy | rfl
    · exact hcopies probe copy hcopy
    · exact hrow'
  · exact hcopies probe copy (hold ▸ hcopy)

theorem step_serial_iff (hr : (machine monitor).Reachable s) (hs : step s a = some t) :
    Serial s a t ↔ Current s a := by
  obtain ⟨hrow, hcopies⟩ := window_of_reachable hr
  refine forall_congr' fun copy => forall_congr' fun outcome => forall_congr' fun now =>
    forall_congr' fun hcommit => ?_
  obtain ⟨⟨probe, rfl, hcopy⟩, hm⟩ := hcommit
  have ht : t.row = applyUpdate copy outcome now s.row := by
    obtain ⟨copy', hcopy', rfl⟩ := Option.map_eq_some_iff.mp hs
    obtain rfl : copy = copy' := by simpa [hcopy] using hcopy'
    simp [hm, recordCheckOutcome_of_matches hm]
  rw [ht]
  exact applyUpdate_serial_iff outcome now hm.2.2 ((hcopies probe copy hcopy).trans hrow.symm)

/-- The recorded outcomes of a run are serializable exactly if every update that commits was derived
from a copy that is still current in what it relies on. -/
theorem outcomes_serializable_iff (monitor : Monitor) (acts : List Action) :
    (machine monitor).EachMove acts Serial ↔ (machine monitor).EachStep acts Current := by
  refine Machine.eachMove_iff_eachStep (fun s a t hr hs => ?_) acts
  exact step_serial_iff hr hs

def api : Monitor where
  id := 1
  organizationId := "org"
  name := "api"
  failureWindowSeconds := 60
  firstFailureAt := none
  dockerState := none
  paused := false
  currentStatus := .unknown
  consecutiveFailures := 0
  lastCheckedAt := none
  dispatchClaimedUntil := none
  shadowBridgeId := none

def answer (verdict : Verdict) : CheckResult where
  ok := verdict = .up
  error := none
  verdict
  facts := []
  failedAssertions := []
  dockerState := none

/-- A degraded sample and a failing one are probed from the same copy of a row that is up: the
failing one commits second and writes the copy's `up` over `degraded`. -/
theorem degraded_overwritten_by_stale_up :
    ¬(machine api).EachMove
      [.read 1, .record 1 (answer .up) 0, .read 1, .read 2, .record 1 (answer .degraded) 1000,
        .record 2 (answer .down) 2000] Serial := by
  intro h
  obtain ⟨s, t, hs, ht, hcopy, hm, hwrote, hderived⟩ : ∃ s t,
      (machine api).exec [.read 1, .record 1 (answer .up) 0, .read 1, .read 2,
        .record 1 (answer .degraded) 1000] = some s ∧
      (machine api).step s (.record 2 (answer .down) 2000) = some t ∧
      s.copies 2 = some { api with currentStatus := .up, lastCheckedAt := some 0 } ∧
      UpdateMatches { api with currentStatus := .up, lastCheckedAt := some 0 } s.row ∧
      t.row.currentStatus = .up ∧
      (applyUpdate s.row (answer .down) 2000 s.row).currentStatus = .degraded :=
    ⟨_, _, rfl, rfl, rfl, by decide, rfl, rfl⟩
  have hserial := h [.read 1, .record 1 (answer .up) 0, .read 1, .read 2,
    .record 1 (answer .degraded) 1000] _ List.prefix_rfl s t hs ht _ _ _ ⟨⟨2, rfl, hcopy⟩, hm⟩
  rw [hwrote, hderived] at hserial
  exact absurd hserial.1 (by decide)

end Vigil.Monitors.Probes
