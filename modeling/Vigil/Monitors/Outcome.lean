import Vigil.Lib.Run
import Vigil.Incidents.Store

/-! `applyOutcome` of `monitors/outcome.ts`, cut at its transactions.  A phase is what a worker has
still to do; between two phases another worker can move, and a worker that stops never leaves its
phase.  What runs after the incident has been handled (groups, evidence, the prompt dispatch) reads
and writes none of these tables. -/

namespace Vigil.Monitors.Outcome

open StatusController Record Incidents.Store Lib

def unhealthyDownReason : String := "The container's healthcheck is failing"

def dockerIncidentLines (result : CheckResult) : List String :=
  (match result.facts.lookup "restartLoop" with
    | some (.text loop) => if loop.length > 0 then [loop] else []
    | _ => []) ++
  (if "health-down" ∈ result.failedAssertions then [unhealthyDownReason] else [])

structure AlertHold where
  reason : String
  deadlineSeconds : ℤ
  deriving DecidableEq, Repr

/-- A delay in words. -/
def describeDelay (seconds : ℤ) : String :=
  if seconds < 90 then toString seconds ++ " seconds"
  else
    let minutes := roundDiv seconds 60
    if minutes < 90 then toString minutes ++ " minutes"
    else toString (roundDiv minutes 60) ++ " hours"

def holdMessage (hold : AlertHold) : String :=
  hold.reason ++ " Operators will be alerted no later than " ++ describeDelay hold.deadlineSeconds ++
    " from now."

def shadowMessage : String :=
  "Opened in shadow mode: this monitor runs beside the system it " ++
    "was migrated from, so the incident was recorded for " ++
    "comparison and nobody was paged. It appears on no status " ++
    "page and triggers no automation."

/-- What a worker has still to do for its check. -/
inductive Phase where
  | idle
  | probing (monitor : Monitor)
  | recording (monitor : Monitor) (outcome : CheckResult) (now : ℤ)
  | opening (updated : Monitor) (outcome : CheckResult) (now : ℤ)
  | lines (incident : Incident) (rest : List String) (now : ℤ)
  | finding (updated : Monitor) (now : ℤ)
  | deciding (incident : Incident) (now : ℤ)
  | holding (incident : Incident) (hold : AlertHold)
  | claiming (incident : Incident) (now : ℤ)
  | resolving (updated : Monitor) (now : ℤ)
  | finished
  deriving DecidableEq, Repr

def afterRecord (recorded : RecordedCheck) (outcome : CheckResult) (now : ℤ) : Phase :=
  if recorded.reconciliation.openIncident then .opening recorded.monitor outcome now
  else if recorded.reconciliation.resolveIncidents then .resolving recorded.monitor now
  else .finished

/-- One transaction of `applyOutcome`; `held` is what the handlers answer if they are asked. -/
def advance (held : Option AlertHold) (db : Db) : Phase → Db × Phase
  | .idle => (db, .idle)
  | .probing monitor => (db, .probing monitor)
  | .recording monitor outcome now =>
    match db.monitorRow monitor.id with
    | none => (db, .finished)
    | some row =>
      let (row, recorded) := recordCheckOutcome row monitor outcome now
      ({ db with monitor := some row }, afterRecord recorded outcome now)
  | .opening updated outcome now =>
    match openMonitorIncident db updated with
    | (db, some created) => (db, .lines created (dockerIncidentLines outcome) now)
    | (db, none) => (db, .finding updated now)
  | .lines incident [] now => (db, .deciding incident now)
  | .lines incident (line :: rest) now =>
    (recordSystemEvent db incident.id line, .lines incident rest now)
  | .finding updated now =>
    match findUnhandledAutoIncident db updated.id with
    | some incident => (db, .deciding incident now)
    | none => (db, .finished)
  | .deciding incident now =>
    if incident.shadow then (recordSystemEvent db incident.id shadowMessage, .finished)
    else
      match held with
      | some hold => (db, .holding incident hold)
      | none => (db, .claiming incident now)
  | .holding incident hold => (recordSystemEvent db incident.id (holdMessage hold), .finished)
  | .claiming incident now => ((claimOpenedNotifications db incident.id now).1, .finished)
  | .resolving updated now => (resolveMonitorIncidents db updated now, .finished)
  | .finished => (db, .finished)

/-- The tables and the phase after `n` transactions of a worker whose handlers hold nothing back. -/
def applyFor (n : ℕ) (w : Db × Phase) : Db × Phase := (fun w => advance none w.1 w.2)^[n] w

theorem applyFor_succ (n : ℕ) (w : Db × Phase) :
    applyFor (n + 1) w = applyFor n (advance none w.1 w.2) := rfl

@[simp] theorem applyFor_zero (w : Db × Phase) : applyFor 0 w = w := rfl

@[simp] theorem applyFor_finished (n : ℕ) (db : Db) :
    applyFor n (db, .finished) = (db, .finished) := by
  induction n with
  | zero => rfl
  | succ n ih => exact ih

/-- The incident that the worker has inserted or found and not yet paged for. -/
def Phase.owes : Phase → Option Incident
  | .lines incident _ _ => some incident
  | .deciding incident _ => some incident
  | .holding incident _ => some incident
  | .claiming incident _ => some incident
  | _ => none

def marked (db : Db) (incidentId : ℕ) : Bool :=
  db.events.any fun e => e.incidentId = incidentId && e.type = .system

def Paged (db : Db) (incidentId : ℕ) : Prop :=
  (∃ i ∈ db.incidents, i.id = incidentId ∧ i.notifiedAt ≠ none) ∧ .opened incidentId ∈ db.intents

@[simp] theorem marked_recordSystemEvent (db : Db) (incidentId : ℕ) (message : String) :
    marked (recordSystemEvent db incidentId message) incidentId = true := by
  simp [marked, recordSystemEvent, Db.addEvent]

/-! ### A worker that stops after it opened an incident -/

variable {incident : Incident} {db : Db} {now : ℤ} {updated monitor row : Monitor}
  {outcome : CheckResult}

/-- From the insert on, until the claim: nothing is written but lines, and the incident is marked
once the first of them is. -/
theorem applyFor_lines (hshadow : incident.shadow = false) (rest : List String) (now : ℤ) (k : ℕ)
    (db : Db) (h : (applyFor k (db, .lines incident rest now)).2.owes = some incident) :
    (applyFor k (db, .lines incident rest now)).1.incidents = db.incidents ∧
      (applyFor k (db, .lines incident rest now)).1.intents = db.intents ∧
      (marked (applyFor k (db, .lines incident rest now)).1 incident.id = true ↔
        marked db incident.id = true ∨ (k ≠ 0 ∧ rest ≠ [])) := by
  induction rest generalizing k db with
  | nil =>
    match k with
    | 0 => simp
    | 1 => simp [applyFor_succ, advance]
    | 2 =>
      have hclaiming : applyFor 2 (db, .lines incident [] now) = (db, .claiming incident now) := by
        simp [applyFor_succ, advance, hshadow]
      rw [hclaiming]
      simp
    | k + 3 =>
      have hfinished : (applyFor (k + 3) (db, .lines incident [] now)).2 = .finished := by
        simp [applyFor_succ, advance, hshadow]
      rw [hfinished] at h
      cases h
  | cons line rest ih =>
    match k with
    | 0 => simp
    | k + 1 =>
      have hstep : applyFor (k + 1) (db, .lines incident (line :: rest) now) =
          applyFor k (recordSystemEvent db incident.id line, .lines incident rest now) := rfl
      rw [hstep] at h ⊢
      obtain ⟨hincidents, hintents, hmarked⟩ := ih k _ h
      refine ⟨hincidents, hintents, ?_⟩
      rw [hmarked]
      simp

/-- A worker that asked its handlers owes what it asked about, and has written nothing yet. -/
theorem deciding_of_owes {incident i : Incident} {k : ℕ}
    (h : (applyFor k (db, .deciding incident now)).2.owes = some i) :
    i = incident ∧ (applyFor k (db, .deciding incident now)).1 = db := by
  have hquiet : ∀ db k, (applyFor k (db, Phase.finished)).2.owes ≠ some i := by
    intro db k
    rw [applyFor_finished]
    simp [Phase.owes]
  match k with
  | 0 => exact ⟨(Option.some.inj h).symm, rfl⟩
  | k + 1 =>
    cases hshadow : incident.shadow with
    | true =>
      simp only [applyFor_succ, advance, hshadow, if_true] at h
      exact absurd h (hquiet _ _)
    | false =>
      simp only [applyFor_succ, advance, hshadow, Bool.false_eq_true, if_false] at h ⊢
      match k with
      | 0 => exact ⟨(Option.some.inj h).symm, rfl⟩
      | k + 1 => exact absurd h (hquiet _ _)

/-- A worker that looked for an incident owes what it found, and has written nothing yet. -/
theorem finding_of_owes {i : Incident} {k : ℕ}
    (h : (applyFor k (db, .finding updated now)).2.owes = some i) :
    findUnhandledAutoIncident db updated.id = some i ∧
      (applyFor k (db, .finding updated now)).1 = db := by
  match k with
  | 0 => cases h
  | k + 1 =>
    cases hfound : findUnhandledAutoIncident db updated.id with
    | none =>
      simp only [applyFor_succ, advance, hfound, applyFor_finished] at h
      cases h
    | some found =>
      simp only [applyFor_succ, advance, hfound] at h ⊢
      obtain ⟨rfl, hsame⟩ := deciding_of_owes h
      exact ⟨rfl, hsame⟩

/-- What a worker has inserted, and nothing else has changed that a later check reads. -/
structure Inserted (db db' : Db) (incident : Incident) : Prop where
  incidents : db'.incidents = incident :: db.incidents
  intents : db'.intents = db.intents
  unmarked : marked db' incident.id = false
  id : incident.id = db.nextId
  notifiedAt : incident.notifiedAt = none
  active : ∀ m, incident.monitorId = some m → incident.active m = true
  alone : ∀ i ∈ db.incidents, ∀ m, incident.monitorId = some m → i.active m = false

theorem inserted_of_open (hwf : WellFormed db) {created : Incident}
    (h : (openMonitorIncident db updated).2 = some created) :
    Inserted db (openMonitorIncident db updated).1 created := by
  obtain ⟨-, -, -, -, halone, hid, hstatus, hsource, hlink, hnotified, -, message, hdb⟩ :=
    openMonitorIncident_some h
  have hnone : ∀ i ∈ db.incidents, ∀ m, created.monitorId = some m → i.active m = false := by
    intro i hi m hm
    obtain rfl := Option.some.inj (hlink.symm.trans hm)
    simpa using List.any_eq_false.mp halone i hi
  have hactive : ∀ m, created.monitorId = some m → created.active m = true := by
    intro m hm
    simp [Incident.active, hstatus, hsource, hm]
  rw [hdb]
  refine ⟨rfl, rfl, ?_, hid, hnotified, hactive, hnone⟩
  -- the line that says it was created is not the system's, and every other line is older
  have hold : ∀ e ∈ db.events, e.incidentId ≠ created.id := fun e he =>
    ne_of_lt (hid ▸ hwf.events e he)
  simpa [marked, Db.addEvent] using fun e he heq => absurd heq (hold e he)

theorem owes_lines {incident i : Incident} {rest : List String} {k : ℕ}
    (h : (applyFor k (db, .lines incident rest now)).2.owes = some i) : i = incident := by
  induction rest generalizing k db with
  | nil =>
    match k with
    | 0 => exact (Option.some.inj h).symm
    | k + 1 => exact (deciding_of_owes h).1
  | cons line rest ih =>
    match k with
    | 0 => exact (Option.some.inj h).symm
    | k + 1 => exact ih h

/-- A worker that asked for an incident and owes a page has inserted the incident, or has found one
that was there and written nothing. -/
theorem opening_of_owes (hwf : WellFormed db) {n : ℕ}
    (h : (applyFor n (db, .opening updated outcome now)).2.owes = some incident) :
    (∃ k db', n = k + 1 ∧
      applyFor n (db, .opening updated outcome now) =
        applyFor k (db', .lines incident (dockerIncidentLines outcome) now) ∧
      Inserted db db' incident) ∨
    (findUnhandledAutoIncident db updated.id = some incident ∧
      (applyFor n (db, .opening updated outcome now)).1 = db) := by
  match n with
  | 0 => cases h
  | n + 1 =>
    rw [applyFor_succ] at h ⊢
    cases hres : (openMonitorIncident db updated).2 with
    | none =>
      have hstep : advance none db (.opening updated outcome now) =
          (db, .finding updated now) := by
        simp only [advance]
        rw [← Prod.eta (openMonitorIncident db updated), hres, openMonitorIncident_none hres]
      rw [hstep] at h ⊢
      exact .inr (finding_of_owes h)
    | some created =>
      have hstep : advance none db (.opening updated outcome now) =
          ((openMonitorIncident db updated).1,
            .lines created (dockerIncidentLines outcome) now) := by
        simp only [advance]
        rw [← Prod.eta (openMonitorIncident db updated), hres]
      rw [hstep] at h ⊢
      obtain rfl := owes_lines h
      exact .inl ⟨n, _, rfl, rfl, inserted_of_open hwf hres⟩

/-- A worker that owes a page has recorded its check, and has then inserted the incident and stands
somewhere before the claim, or has found an incident that was there. -/
theorem recording_of_owes (hwf : WellFormed db) {n : ℕ}
    (h : (applyFor n (db, .recording monitor outcome now)).2.owes = some incident) :
    (∃ k db', n = k + 2 ∧
      applyFor n (db, .recording monitor outcome now) =
        applyFor k (db', .lines incident (dockerIncidentLines outcome) now) ∧
      Inserted db db' incident) ∨
    ∃ m row, findUnhandledAutoIncident db m = some incident ∧
      (applyFor n (db, .recording monitor outcome now)).1 = { db with monitor := row } := by
  match n with
  | 0 => cases h
  | n + 1 =>
    rw [applyFor_succ] at h ⊢
    cases hrow : db.monitorRow monitor.id with
    | none =>
      simp only [advance, hrow, applyFor_finished] at h
      cases h
    | some row =>
      simp only [advance, hrow, afterRecord] at h ⊢
      split_ifs at h ⊢
      · have hwf' : WellFormed
            { db with monitor := some (recordCheckOutcome row monitor outcome now).1 } :=
          ⟨hwf.ids, hwf.unique, hwf.causes, hwf.events, hwf.opened⟩
        rcases opening_of_owes hwf' h with ⟨k, db', rfl, heq, hinserted⟩ | ⟨hfound, hsame⟩
        · exact .inl ⟨k, db', rfl, heq, { hinserted with }⟩
        · exact .inr ⟨_, _, hfound, hsame⟩
      · match n with
        | 0 => cases h
        | n + 1 =>
          simp only [applyFor_succ, advance, applyFor_finished] at h
          cases h
      · rw [applyFor_finished] at h
        cases h

/-! ### The next check -/

theorem matches_of_wants
    (h : (recordCheckOutcome row monitor outcome now).2.reconciliation.openIncident = true) :
    UpdateMatches monitor row := by
  by_contra hm
  rw [recordCheckOutcome_of_not_matches hm] at h
  cases h

/-- A check that wants an incident where one is open: after its two first transactions it looks for
an incident that nobody has acted on. -/
theorem applyFor_wants (db : Db) (hrow : db.monitor = some row)
    (hwants : (recordCheckOutcome row monitor outcome now).2.reconciliation.openIncident = true)
    (hactive : db.incidents.any (Incident.active row.id) = true) : ∃ row', row'.id = row.id ∧ ∀ n,
      applyFor (n + 2) (db, .recording monitor outcome now) =
        applyFor n ({ db with monitor := some row' }, .finding row' now) := by
  set recorded := recordCheckOutcome row monitor outcome now with hrecorded
  have hrid : recorded.1.id = row.id := recordCheckOutcome_id monitor outcome now row
  have hrmonitor : recorded.2.monitor = recorded.1 :=
    recordCheckOutcome_monitor monitor outcome now row
  have hfound : db.monitorRow monitor.id = some row := by
    simp [Db.monitorRow, hrow, (matches_of_wants hwants).1]
  have hfirst : advance none db (.recording monitor outcome now) =
      ({ db with monitor := some recorded.1 }, .opening recorded.1 outcome now) := by
    simp only [advance, hfound, ← hrecorded, afterRecord, hwants, if_true, hrmonitor]
  have hsecond : openMonitorIncident { db with monitor := some recorded.1 } recorded.1 =
      ({ db with monitor := some recorded.1 }, none) :=
    openMonitorIncident_active (hrid.symm ▸ hactive)
  refine ⟨recorded.1, hrid, fun n => ?_⟩
  rw [applyFor_succ, applyFor_succ, hfirst]
  simp only [advance, hsecond]

/-- The next check finds the incident again and ends with its page claimed. -/
def Repairs (db : Db) (row monitor : Monitor) (outcome : CheckResult) (now : ℤ)
    (incident : Incident) : Prop :=
  findUnhandledAutoIncident db row.id = some incident ∧
    ∃ steps, ∀ m ≥ steps,
      (applyFor m ({ db with monitor := some row }, .recording monitor outcome now)).2 = .finished ∧
      Paged (applyFor m ({ db with monitor := some row }, .recording monitor outcome now)).1
        incident.id

/-- An incident that is found unhandled is claimed, and its page is recorded. -/
theorem applyFor_found (hfound : findUnhandledAutoIncident db updated.id = some incident)
    (hshadow : incident.shadow = false) (n : ℕ) : applyFor (n + 3) (db, .finding updated now) =
      ((claimOpenedNotifications db incident.id now).1, .finished) := by
  rw [applyFor_succ, applyFor_succ, applyFor_succ]
  simp only [advance, hfound, hshadow, Bool.false_eq_true, if_false, applyFor_finished]

theorem paged_claim (now : ℤ) (hmem : incident ∈ db.incidents)
    (hnull : incident.notifiedAt = none) :
    Paged (claimOpenedNotifications db incident.id now).1 incident.id := by
  unfold claimOpenedNotifications
  cases hfind : db.incidents.find? fun i => i.id = incident.id && i.notifiedAt.isNone with
  | none => exact absurd (by simp [hnull]) (List.find?_eq_none.mp hfind incident hmem)
  | some found =>
    obtain ⟨hfound, hid, -⟩ := find_spec hfind
    refine ⟨⟨{ found with notifiedAt := some now }, ?_, hid, by simp⟩, ?_⟩
    · rw [recordDispatchIntent_incidents]
      exact List.mem_map.mpr ⟨found, hfound, if_pos rfl⟩
    · exact mem_recordDispatchIntent.mpr (.inl (by rw [hid]))

theorem find_inserted {db db' stopped : Db} {m : ℕ} (hinserted : Inserted db db' incident)
    (hm : incident.monitorId = some m) (hincidents : stopped.incidents = db'.incidents) :
    findUnhandledAutoIncident stopped m =
      if marked stopped incident.id then none else some incident := by
  have hothers : db.incidents.find? (fun i => i.active m && i.notifiedAt.isNone &&
      !stopped.events.any fun e => e.incidentId = i.id && e.type = .system) = none := by
    refine List.find?_eq_none.mpr fun i hi => ?_
    simp [hinserted.alone i hi m hm]
  unfold findUnhandledAutoIncident
  rw [hincidents, hinserted.incidents, List.find?_cons, hothers]
  cases hmarked : marked stopped incident.id with
  | true =>
    have : stopped.events.any (fun e => e.incidentId = incident.id && e.type = .system) = true :=
      hmarked
    simp [this]
  | false =>
    have : stopped.events.any (fun e => e.incidentId = incident.id && e.type = .system) = false :=
      hmarked
    simp [this, hinserted.active m hm, hinserted.notifiedAt]

theorem intents_of_not_found (db : Db) (hrow : db.monitor = some row)
    (hwants : (recordCheckOutcome row monitor outcome now).2.reconciliation.openIncident = true)
    (hactive : db.incidents.any (Incident.active row.id) = true)
    (hfind : findUnhandledAutoIncident db row.id = none) (m : ℕ) :
    (applyFor m (db, .recording monitor outcome now)).1.intents = db.intents := by
  obtain ⟨row', hid, hsteps⟩ := applyFor_wants db hrow hwants hactive
  have hfind' : findUnhandledAutoIncident { db with monitor := some row' } row'.id = none := by
    rw [hid]
    exact hfind
  match m with
  | 0 => rfl
  | 1 =>
    simp only [applyFor_succ, applyFor_zero, advance]
    split <;> rfl
  | 2 => rw [hsteps 0, applyFor_zero]
  | m + 3 =>
    rw [hsteps (m + 1), applyFor_succ]
    simp only [advance, hfind', applyFor_finished]

/-- The tables as a worker leaves them that stops before the claim. -/
theorem stopped_spec (hwf : WellFormed db) {n : ℕ}
    (hstop : (applyFor n (db, .recording monitor outcome now)).2.owes = some incident)
    (hshadow : incident.shadow = false) {m : ℕ} (hm : incident.monitorId = some m) :
    let stopped := (applyFor n (db, .recording monitor outcome now)).1
    incident ∈ stopped.incidents ∧ incident.notifiedAt = none ∧
      stopped.incidents.any (Incident.active m) = true ∧ .opened incident.id ∉ stopped.intents ∧
      findUnhandledAutoIncident stopped m =
        if incident ∈ db.incidents ∨ dockerIncidentLines outcome = [] ∨ n = 2 then some incident
        else none := by
  rcases recording_of_owes hwf hstop with
    ⟨k, db', rfl, hstopped, hinserted⟩ | ⟨m', row, hfound, hsame⟩
  · rw [hstopped] at hstop ⊢
    intro stopped
    obtain ⟨hincidents, hintents, hmarked⟩ := applyFor_lines hshadow _ _ _ _ hstop
    have hall : stopped.incidents = incident :: db.incidents :=
      hincidents.trans hinserted.incidents
    have hnew : incident ∉ db.incidents := fun h =>
      absurd hinserted.id (ne_of_lt (hwf.ids incident h))
    refine ⟨hall ▸ List.mem_cons_self, hinserted.notifiedAt, ?_, fun hopened => ?_, ?_⟩
    · rw [hall, List.any_cons, hinserted.active m hm]
      rfl
    · have hlt := hwf.causes (.opened incident.id) (hinserted.intents ▸ hintents ▸ hopened)
      exact absurd hinserted.id (ne_of_lt hlt)
    · have hwritten : marked stopped incident.id = true ↔
          ¬(incident ∈ db.incidents ∨ dockerIncidentLines outcome = [] ∨ k + 2 = 2) := by
        rw [hmarked, hinserted.unmarked]
        simp [hnew, and_comm]
      rw [find_inserted hinserted hm hincidents]
      by_cases hlines : incident ∈ db.incidents ∨ dockerIncidentLines outcome = [] ∨ k + 2 = 2
      · rw [if_pos hlines, if_neg (mt hwritten.mp (not_not.mpr hlines))]
      · rw [if_neg hlines, if_pos (hwritten.mpr hlines)]
  · obtain ⟨hmem, hactive, hnull⟩ := findUnhandledAutoIncident_some hfound
    obtain rfl : m' = m := by
      have hlink : incident.monitorId = some m' := by
        simp only [Incident.active, Bool.and_eq_true, decide_eq_true_eq] at hactive
        exact hactive.2
      exact Option.some.inj (hlink.symm.trans hm)
    rw [hsame]
    refine ⟨hmem, hnull, List.any_eq_true.mpr ⟨incident, hmem, hactive⟩, fun hopened => ?_, ?_⟩
    · exact hwf.opened incident hmem hopened hnull
    · rw [if_pos (.inl hmem)]
      exact hfound

/-- A check that finds the incident again ends with its page claimed. -/
theorem repairs_of_found (hmem : incident ∈ db.incidents) (hnull : incident.notifiedAt = none)
    (hshadow : incident.shadow = false)
    (hwants : (recordCheckOutcome row monitor outcome now).2.reconciliation.openIncident = true)
    (hactive : db.incidents.any (Incident.active row.id) = true)
    (hfound : findUnhandledAutoIncident db row.id = some incident) :
    Repairs db row monitor outcome now incident := by
  obtain ⟨row', hid, hsteps⟩ := applyFor_wants { db with monitor := some row } rfl hwants hactive
  refine ⟨hfound, 5, fun m hm => ?_⟩
  obtain ⟨j, rfl⟩ := Nat.exists_eq_add_of_le' hm
  have hfound' : findUnhandledAutoIncident { db with monitor := some row' } row'.id =
      some incident := by
    rw [hid]
    exact hfound
  rw [hsteps (j + 3), applyFor_found hfound' hshadow j]
  exact ⟨rfl, paged_claim now hmem hnull⟩

/-- A worker that inserted or found an incident stops before it claims the page, and the monitor
keeps failing: the next check pages for the incident exactly if no line of the container's restarts
was written before the worker stopped, and otherwise it records no page at all. -/
theorem next_check_pages_iff {db : Db} (hwf : WellFormed db) {monitor₁ : Monitor}
    {outcome₁ : CheckResult} {now₁ : ℤ} {n : ℕ} {incident : Incident}
    (hstop : (applyFor n (db, .recording monitor₁ outcome₁ now₁)).2.owes = some incident)
    (hshadow : incident.shadow = false) {row monitor₂ : Monitor} {outcome₂ : CheckResult}
    {now₂ : ℤ} (hrow : incident.monitorId = some row.id)
    (hwants :
      (recordCheckOutcome row monitor₂ outcome₂ now₂).2.reconciliation.openIncident = true) :
    let stopped := (applyFor n (db, .recording monitor₁ outcome₁ now₁)).1
    (Repairs stopped row monitor₂ outcome₂ now₂ incident ↔
      incident ∈ db.incidents ∨ dockerIncidentLines outcome₁ = [] ∨ n = 2) ∧
    (¬(incident ∈ db.incidents ∨ dockerIncidentLines outcome₁ = [] ∨ n = 2) → ∀ m,
      .opened incident.id ∉ (applyFor m ({ stopped with monitor := some row },
        .recording monitor₂ outcome₂ now₂)).1.intents) := by
  intro stopped
  obtain ⟨hmem, hnull, hactive, hunpaged, hfind⟩ := stopped_spec hwf hstop hshadow hrow
  refine ⟨⟨?_, ?_⟩, ?_⟩
  · rintro ⟨hfound, -⟩
    by_contra hlines
    rw [hfind, if_neg hlines] at hfound
    cases hfound
  · intro hlines
    rw [if_pos hlines] at hfind
    exact repairs_of_found hmem hnull hshadow hwants hactive hfind
  · intro hlines m
    rw [if_neg hlines] at hfind
    rw [intents_of_not_found { stopped with monitor := some row } rfl hwants hactive hfind m]
    exact hunpaged

/-- A container that was up. -/
def container : Monitor where
  id := 1
  organizationId := "org"
  name := "api"
  failureWindowSeconds := 0
  firstFailureAt := none
  dockerState := none
  paused := false
  currentStatus := .up
  consecutiveFailures := 0
  lastCheckedAt := none
  dispatchClaimedUntil := none
  shadowBridgeId := none

def restarting : CheckResult where
  ok := false
  error := some "restarting"
  verdict := .down
  facts := [("restartLoop", .text "Restarted 5 times in 10 minutes")]
  failedAssertions := []
  dockerState := some ⟨none, [], true⟩

def containerDb : Db where
  monitor := some container
  incidents := []
  events := []
  intents := []
  nextId := 0
  nextEventId := 0

theorem containerDb_wf : WellFormed containerDb where
  ids := by simp [containerDb]
  unique := by simp [containerDb]
  causes := by simp [containerDb]
  events := by simp [containerDb]
  opened := by simp [containerDb]

def failingContainer : Monitor := applyUpdate container restarting 0 container

/-- The incident of the container. -/
def containerIncident : Incident where
  id := 0
  organizationId := "org"
  title := "api is down"
  status := .investigating
  severity := .critical
  source := .monitor
  monitorId := some 1
  resolvedAt := none
  notifiedAt := none
  statusRevision := 0
  shadow := false
  acknowledgedAt := none
  acknowledgedBy := none
  createdBy := none

theorem next_check_pages_after_insert :
    Repairs (applyFor 2 (containerDb, .recording container restarting 0)).1 failingContainer
      failingContainer restarting 1000 containerIncident := by
  have hstop : (applyFor 2 (containerDb, .recording container restarting 0)).2.owes =
      some containerIncident := by decide
  have hwants : (recordCheckOutcome failingContainer failingContainer restarting
      1000).2.reconciliation.openIncident = true := by decide
  exact (next_check_pages_iff containerDb_wf hstop rfl rfl hwants).1.mpr (.inr (.inr rfl))

/-- A worker that stops after it wrote why the container restarts: the incident is open and
unclaimed and the container keeps failing, but the next check does not find the incident and
records no page. -/
theorem restart_line_hides_incident :
    (applyFor 3 (containerDb, .recording container restarting 0)).2.owes = some containerIncident ∧
    (recordCheckOutcome failingContainer failingContainer restarting
      1000).2.reconciliation.openIncident = true ∧
    ¬Repairs (applyFor 3 (containerDb, .recording container restarting 0)).1 failingContainer
      failingContainer restarting 1000 containerIncident ∧
    ∀ m, .opened 0 ∉ (applyFor m
      ({ (applyFor 3 (containerDb, .recording container restarting 0)).1 with
        monitor := some failingContainer },
        .recording failingContainer restarting 1000)).1.intents := by
  refine ⟨by decide, by decide, fun h => absurd h.1 (by decide), fun m => ?_⟩
  rw [intents_of_not_found _ rfl (by decide) (by decide) (by decide)]
  decide

end Vigil.Monitors.Outcome
