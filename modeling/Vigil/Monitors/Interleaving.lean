import Vigil.Monitors.Outcome

/-! Any number of checks of one monitor, interleaved at their transactions, with an operator who
pauses the monitor, edits it, and moves incidents on.  Beside the tables a world remembers the
statuses that were committed, and for each worker how many there were once its own was among them;
no step reads either. -/

namespace Vigil.Monitors.Interleaving

open StatusController Record Incidents.Store Outcome Lib

/-- A status written onto the monitor, and whether the verdict behind it resolves incidents. -/
structure StatusWrite where
  status : MonitorStatus
  resolves : Bool
  deriving DecidableEq, Repr

structure World where
  db : Db
  workers : ℕ → Phase
  /-- The statuses committed so far, the latest first. -/
  writes : List StatusWrite
  /-- How many statuses had been committed once the worker's own check was recorded. -/
  asked : ℕ → ℕ

/-- What workers and operators do. -/
inductive Action where
  | start (worker : ℕ)
  | answer (worker : ℕ) (outcome : CheckResult) (now : ℤ)
  | advance (worker : ℕ) (held : Option AlertHold)
  | setPaused (paused : Bool)
  | edit (name : String) (failureWindowSeconds : ℤ)
  | changeStatus (actor : String) (incidentId : ℕ) (seen next : IncidentStatus) (message : String)
      (now : ℤ)
  deriving DecidableEq, Repr

/-- The status that the worker's next transaction writes: the one concluded from the check that it
records, if the row has not moved under the probe. -/
def written (db : Db) : Phase → Option StatusWrite
  | .recording monitor outcome now =>
    (db.monitorRow monitor.id).bind fun row =>
      if UpdateMatches monitor row then
        some ⟨(conclude monitor outcome now).status, (conclude monitor outcome now).resolveIncidents⟩
      else none
  | _ => none

/-- Where a worker stands now. -/
def World.setPhase (s : World) (worker : ℕ) (phase : Phase) : World :=
  { s with workers := Function.update s.workers worker phase }

def World.commit (s : World) (worker : ℕ) : Option StatusWrite → World
  | none => s
  | some write =>
    { s with
      writes := write :: s.writes
      asked := Function.update s.asked worker (s.writes.length + 1) }

/-- A worker goes on from where it stands, and an operator writes at any time. -/
def step (s : World) : Action → Option World
  | .start worker =>
    match s.workers worker, s.db.monitor with
    | .idle, some row => some (s.setPhase worker (.probing row))
    | .finished, some row => some (s.setPhase worker (.probing row))
    | _, _ => none
  | .answer worker outcome now =>
    match s.workers worker with
    | .probing monitor => some (s.setPhase worker (.recording monitor outcome now))
    | _ => none
  | .advance worker held =>
    let moved := advance held s.db (s.workers worker)
    some ({ s.commit worker (written s.db (s.workers worker)) with db := moved.1 }.setPhase worker
      moved.2)
  | .setPaused paused =>
    s.db.monitor.map fun row =>
      { s with
        db := { s.db with monitor := some (setMonitorPaused row paused) }
        writes := ⟨.unknown, false⟩ :: s.writes }
  | .edit name failureWindowSeconds =>
    s.db.monitor.map fun row =>
      { s with db := { s.db with monitor := some (updateMonitor row name failureWindowSeconds) } }
  | .changeStatus actor incidentId seen next message now =>
    (changeIncidentStatus s.db actor incidentId seen next message now).map fun db => { s with db }

def machine (db : Db) : Machine World Action where
  init := ⟨db, fun _ => .idle, [], fun _ => 0⟩
  step := step

/-- The latest committed status is a recovery that was recorded after the check with which the
worker asked for its incident. -/
def Behind (s : World) (worker : ℕ) : Prop :=
  ∃ last, s.writes.head? = some last ∧ last.resolves = true ∧ s.asked worker < s.writes.length

/-- The step does not insert an incident behind a recovery. -/
def NotBehind (s : World) (a : Action) (_ : World) : Prop :=
  ∀ worker held updated outcome now, a = .advance worker held →
    s.workers worker = .opening updated outcome now →
    (openMonitorIncident s.db updated).2.isSome = true → ¬Behind s worker

/-- The step does not ask for an incident while the row says degraded because of a check that
resolves, with nothing open and no pause to refuse it. -/
def NotDegraded (s : World) (a : Action) : Prop :=
  ∀ worker held updated outcome now, a = .advance worker held →
    s.workers worker = .opening updated outcome now →
    ∀ row, s.db.monitorRow updated.id = some row → row.currentStatus = .degraded →
      row.paused = false → s.db.incidents.any (Incident.active updated.id) = false →
      ∀ last, s.writes.head? = some last → last.resolves = false

/-! ### What a transaction of a worker writes -/

variable {db : Db} {phase : Phase} {outcome : CheckResult} {now : ℤ} {s : World} {worker : ℕ}

theorem advance_monitor_of_not_written (held : Option AlertHold) (h : written db phase = none) :
    (advance held db phase).1.monitor = db.monitor := by
  cases phase with
  | recording monitor outcome now =>
    simp only [advance]
    split
    · rfl
    · rename_i row hrow
      have hno : ¬UpdateMatches monitor row := by
        intro hm
        simp [written, hrow, hm] at h
      rw [recordCheckOutcome_of_not_matches hno]
      exact (Option.eq_some_of_filter_eq_some hrow).symm
  | opening updated outcome now =>
    simp only [advance]
    rw [← openMonitorIncident_monitor db updated]
    split <;> rename_i heq <;> rw [heq]
  | lines incident rest now =>
    cases rest with
    | nil => rfl
    | cons line rest => rfl
  | finding updated now =>
    simp only [advance]
    split <;> rfl
  | deciding incident now =>
    simp only [advance]
    split
    · rfl
    · split <;> rfl
  | claiming incident now => exact claimOpenedNotifications_monitor _ _ _
  | resolving updated now => exact resolveMonitorIncidents_monitor _ _ _
  | _ => rfl

/-- A conclusion that resolves incidents established a status that is up or degraded. -/
theorem conclude_status_of_resolves {monitor : Monitor}
    (h : (conclude monitor outcome now).resolveIncidents = true) :
    (conclude monitor outcome now).status = .up ∨
      (conclude monitor outcome now).status = .degraded := by
  have hrecovers : outcome.verdict.recovers = true := recovers_of_resolves h
  unfold conclude reconcile deriveStatus
  cases hv : outcome.verdict with
  | up => exact .inl rfl
  | degraded => exact .inr rfl
  | down => simp [hv, Verdict.recovers] at hrecovers
  | indeterminate => simp [hv, Verdict.recovers] at hrecovers

theorem advance_of_written (held : Option AlertHold) {write : StatusWrite}
    (h : written db phase = some write) :
    (∃ row, (advance held db phase).1.monitor = some row ∧ row.currentStatus = write.status) ∧
      (write.resolves = true → write.status = .up ∨ write.status = .degraded) ∧
      (∀ updated outcome now, (advance held db phase).2 = .opening updated outcome now →
        write.resolves = false) := by
  cases phase with
  | recording monitor outcome now =>
    obtain ⟨row, hrow, hwrite⟩ := Option.bind_eq_some_iff.mp h
    split at hwrite
    · rename_i hm
      cases hwrite
      simp only [advance, hrow, recordCheckOutcome_of_matches hm]
      refine ⟨⟨_, rfl, rfl⟩, conclude_status_of_resolves, fun updated outcome' now' hphase => ?_⟩
      unfold afterRecord at hphase
      split_ifs at hphase with hopen
      have hdown : (conclude monitor outcome now).status = .down :=
        (reconcile_openIncident _ _).mp hopen
      by_contra hresolves
      rcases conclude_status_of_resolves (by simpa using hresolves) with hup | hdegraded
      · exact absurd (hup.symm.trans hdown) (by decide)
      · exact absurd (hdegraded.symm.trans hdown) (by decide)
    · cases hwrite
  | _ => cases h

/-- A worker asks for an incident only right after it has written a status. -/
theorem written_of_opening {held : Option AlertHold} {updated : Monitor}
    (h : (advance held db phase).2 = .opening updated outcome now) : written db phase ≠ none := by
  cases phase with
  | recording monitor outcome' now' =>
    simp only [advance] at h
    split at h
    · cases h
    · rename_i row hrow
      by_cases hm : UpdateMatches monitor row
      · simp [written, hrow, hm]
      · rw [recordCheckOutcome_of_not_matches hm] at h
        cases h
  | opening updated' outcome' now' | finding updated now =>
    simp only [advance] at h
    split at h <;> cases h
  | lines incident rest now =>
    cases rest with
    | nil => cases h
    | cons line rest => cases h
  | deciding incident now =>
    simp only [advance] at h
    split at h
    · cases h
    · split at h <;> cases h
  | _ => cases h

/-! ### The invariant -/

/-- The row carries the latest committed status; a recovery is up or degraded; and what was recorded
after the check of a worker that asks for an incident is all that can be a recovery. -/
structure Inv (s : World) : Prop where
  latest : ∀ last, s.writes.head? = some last → ∀ row, s.db.monitor = some row →
    row.currentStatus = last.status
  recovery : ∀ last, s.writes.head? = some last → last.resolves = true →
    last.status = .up ∨ last.status = .degraded
  asked_le : ∀ worker updated outcome now, s.workers worker = .opening updated outcome now →
    s.asked worker ≤ s.writes.length
  own : ∀ worker updated outcome now, s.workers worker = .opening updated outcome now →
    s.asked worker = s.writes.length → ∀ last, s.writes.head? = some last → last.resolves = false

theorem Inv.setPhase (h : Inv s)
    (hphase : ∀ updated outcome now, phase ≠ .opening updated outcome now) :
    Inv (s.setPhase worker phase) := by
  have hkeep : ∀ w updated outcome now,
      (s.setPhase worker phase).workers w = .opening updated outcome now →
        s.workers w = .opening updated outcome now := by
    intro w updated outcome now hw
    by_cases heq : w = worker
    · subst heq
      exact absurd (by simpa [World.setPhase] using hw) (hphase updated outcome now)
    · simpa [World.setPhase, heq] using hw
  exact ⟨h.latest, h.recovery, fun w u o n hw => h.asked_le w u o n (hkeep w u o n hw),
    fun w u o n hw => h.own w u o n (hkeep w u o n hw)⟩

theorem Inv.setDb (h : Inv s)
    (hstatus : ∀ row, db.monitor = some row → ∃ row', s.db.monitor = some row' ∧ row.currentStatus =
      row'.currentStatus) : Inv { s with db } := by
  refine ⟨fun last hlast row hrow => ?_, h.recovery, h.asked_le, h.own⟩
  obtain ⟨row', hrow', heq⟩ := hstatus row hrow
  rw [heq]
  exact h.latest last hlast row' hrow'

theorem Inv.commit (h : Inv s) {write : StatusWrite}
    (hrow : ∀ row, db.monitor = some row → row.currentStatus = write.status)
    (hrecovery : write.resolves = true → write.status = .up ∨ write.status = .degraded)
    (hown : ∀ updated outcome now, phase = .opening updated outcome now → write.resolves = false) :
    Inv ({ s.commit worker (some write) with db }.setPhase worker phase) := by
  refine ⟨fun last hlast row hr => ?_, fun last hlast => ?_, fun w u o n hw => ?_,
    fun w u o n hw heq last hlast => ?_⟩
  · cases hlast
    exact hrow row hr
  · cases hlast
    exact hrecovery
  · by_cases hww : w = worker
    · subst hww
      simp [World.setPhase, World.commit]
    · have hw' : s.workers w = .opening u o n := by
        simpa [World.setPhase, World.commit, hww] using hw
      have hle := h.asked_le w u o n hw'
      simp only [World.setPhase, World.commit, Function.update_of_ne hww, List.length_cons]
      omega
  · cases hlast
    by_cases hww : w = worker
    · subst hww
      exact hown u o n (by simpa [World.setPhase] using hw)
    · have hw' : s.workers w = .opening u o n := by
        simpa [World.setPhase, World.commit, hww] using hw
      have hle := h.asked_le w u o n hw'
      simp only [World.setPhase, World.commit, Function.update_of_ne hww, List.length_cons] at heq
      omega

theorem Inv.pause (h : Inv s) (row : Monitor) (paused : Bool) : Inv { s with
      db := { s.db with monitor := some (setMonitorPaused row paused) }
      writes := ⟨.unknown, false⟩ :: s.writes } := by
  refine ⟨fun last hlast row' hr => ?_, fun last hlast hres => ?_, fun w u o n hw => ?_,
    fun w u o n hw heq last hlast => ?_⟩
  · cases hlast
    cases hr
    rfl
  · cases hlast
    cases hres
  · exact (h.asked_le w u o n hw).trans (by simp)
  · cases hlast
    rfl

theorem step_inv {s t : World} {a : Action} (h : Inv s) (hs : step s a = some t) : Inv t := by
  cases a with
  | start worker =>
    simp only [step] at hs
    split at hs
    · cases hs
      exact h.setPhase (by simp)
    · cases hs
      exact h.setPhase (by simp)
    · cases hs
  | answer worker outcome now =>
    simp only [step] at hs
    split at hs
    · cases hs
      exact h.setPhase (by simp)
    · cases hs
  | advance worker held =>
    cases hs
    cases hwritten : written s.db (s.workers worker) with
    | none =>
      have hsame := advance_monitor_of_not_written held hwritten
      have hmoved : Inv { s with db := (advance held s.db (s.workers worker)).1 } :=
        h.setDb fun row hrow => ⟨row, hsame ▸ hrow, rfl⟩
      exact hmoved.setPhase fun u o n hphase => written_of_opening hphase hwritten
    | some write =>
      obtain ⟨⟨row, hrow, hstatus⟩, hrecovery, hown⟩ := advance_of_written held hwritten
      refine h.commit (fun row' hrow' => ?_) hrecovery hown
      obtain rfl := Option.some.inj (hrow.symm.trans hrow')
      exact hstatus
  | setPaused paused =>
    obtain ⟨row, -, rfl⟩ := Option.map_eq_some_iff.mp hs
    exact h.pause row paused
  | edit name failureWindowSeconds =>
    obtain ⟨row, hrow, rfl⟩ := Option.map_eq_some_iff.mp hs
    refine h.setDb fun row' hrow' => ⟨row, hrow, ?_⟩
    cases hrow'
    rfl
  | changeStatus actor incidentId seen next message now =>
    obtain ⟨db, hdb, rfl⟩ := Option.map_eq_some_iff.mp hs
    exact h.setDb fun row hrow => ⟨row, changeIncidentStatus_monitor hdb ▸ hrow, rfl⟩

theorem init_inv (db : Db) : Inv (machine db).init where
  latest := by simp [machine]
  recovery := by simp [machine]
  asked_le := by simp [machine]
  own := by simp [machine]

theorem reachable_inv (h : (machine db).Reachable s) : Inv s :=
  h.induct (P := Inv) (init_inv db) fun _ _ _ _ hinv hs => step_inv hinv hs

/-! ### Opening behind a recovery -/

/-- A recovery that is the latest status, while a worker asks for an incident, was recorded after
that worker's own check. -/
theorem Inv.behind (h : Inv s) {updated : Monitor}
    (hw : s.workers worker = .opening updated outcome now) {last : StatusWrite}
    (hlast : s.writes.head? = some last) (hresolves : last.resolves = true) : Behind s worker := by
  refine ⟨last, hlast, hresolves, lt_of_le_of_ne (h.asked_le _ _ _ _ hw) fun heq => ?_⟩
  have := h.own _ _ _ _ hw heq last hlast
  rw [hresolves] at this
  cases this

/-- The guard refuses `up` alone, so what is left is a recovery to `degraded`. -/
theorem notBehind_iff (h : Inv s) (a : Action) (t : World) : NotBehind s a t ↔ NotDegraded s a := by
  constructor
  · intro hnot worker held updated outcome now ha hw row hrow hstatus hpaused hactive last hlast
    have hinserts : (openMonitorIncident s.db updated).2.isSome = true :=
      openMonitorIncident_isSome_iff.mpr ⟨row, hrow, by simp [hstatus], hpaused, hactive⟩
    by_contra hresolves
    exact hnot worker held updated outcome now ha hw hinserts
      (h.behind hw hlast (by simpa using hresolves))
  · rintro hnot worker held updated outcome now ha hw hinserts ⟨last, hlast, hresolves, -⟩
    obtain ⟨row, hrow, hup, hpaused, hactive⟩ := openMonitorIncident_isSome_iff.mp hinserts
    have hstatus : row.currentStatus = last.status :=
      h.latest last hlast row (Option.eq_some_of_filter_eq_some hrow)
    rcases h.recovery last hlast hresolves with hlastup | hdegraded
    · exact hup (hstatus.trans hlastup)
    · have := hnot worker held updated outcome now ha hw row hrow (hstatus.trans hdegraded) hpaused
        hactive last hlast
      rw [hresolves] at this
      cases this

/-- In every run, whatever its order, no incident is inserted behind a recovery exactly if no check
asks for an incident while the row says degraded because of a check that resolves. -/
theorem never_behind_iff (db : Db) (acts : List Action) :
    (machine db).EachMove acts NotBehind ↔ (machine db).EachStep acts NotDegraded :=
  Machine.eachMove_iff_eachStep (fun _ a t hr _ => notBehind_iff (reachable_inv hr) a t) acts

def result (verdict : Verdict) : CheckResult where
  ok := verdict = .up
  error := none
  verdict := verdict
  facts := []
  failedAssertions := []
  dockerState := none

/-- The first worker records a failure; the second reads the row, records that the monitor is
degraded and resolves what is open; and only then the first asks for its incident. -/
def overtaken : List Action :=
  [.start 0, .answer 0 (result .down) 0, .advance 0 none, .start 1, .answer 1 (result .degraded) 1,
    .advance 1 none, .advance 1 none, .advance 0 none]

/-- The incident is inserted although the recovery is committed, and no check is left that would
resolve it. -/
theorem opened_behind_degraded : ¬(machine containerDb).EachMove overtaken NotBehind := by
  intro h
  have hstate : ∃ s, (machine containerDb).exec (overtaken.take 7) = some s ∧
      (∃ updated outcome now, s.workers 0 = .opening updated outcome now ∧
        (openMonitorIncident s.db updated).2.isSome = true) ∧
      s.writes.head? = some ⟨.degraded, true⟩ ∧ s.asked 0 < s.writes.length :=
    ⟨_, rfl, ⟨_, _, _, rfl, by decide⟩, by decide, by decide⟩
  obtain ⟨s, hs, ⟨updated, outcome, now, hw, hinserts⟩, hlast, hasked⟩ := hstate
  exact h (overtaken.take 7) (.advance 0 none) List.prefix_rfl s _ hs rfl 0 none updated
    outcome now rfl hw hinserts ⟨_, hlast, rfl, hasked⟩

end Vigil.Monitors.Interleaving
