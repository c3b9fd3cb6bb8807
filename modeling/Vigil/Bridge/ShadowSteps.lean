import Vigil.Bridge.Shadow
import Vigil.Monitors.Interleaving

/-! What one step makes of the incidents and of the intents, for every step at once: which columns of
an incident no step writes, where a new one comes from, and which cause an intent has. -/

namespace Vigil.Bridge.ShadowSteps

open Monitors StatusController Record Outcome Incidents Store Shadow Lib
open Lifecycle hiding World Action Operation Txn read write observe step machine Inv

/-! ### What a step can do -/

/-- What the tables are after an operator's change of the incidents. -/
inductive Operates (s : World) : Action → Db → Prop where
  | deleteIncidents (actor monitorId) (monitor : Monitor) (now) :
      Operates s (.deleteIncidents actor monitorId now)
        (deleteMonitorIncidents s.db actor.userId monitor now)
  | createIncident (actor title severity message) :
      Operates s (.createIncident actor title severity message)
        (createIncident s.db actor title severity message).1
  | acknowledge {actor incidentId now changed}
      (written : acknowledgeIncident s.db actor incidentId now = some changed) :
      Operates s (.acknowledge actor incidentId now) changed.1
  | changeStatus {actor incidentId seen next message now db}
      (found : (findIncident s.db actor.organizationId incidentId).isSome)
      (written : changeIncidentStatus s.db actor.userId incidentId seen next message now = some db) :
      Operates s (.changeStatus actor incidentId seen next message now) db
  | postUpdate {actor incidentId incident} (message internal)
      (found : findIncident s.db actor.organizationId incidentId = some incident)
      (unresolved : incident.status ≠ .resolved) :
      Operates s (.postUpdate actor incidentId message internal)
        (postIncidentUpdate s.db actor incident message internal).1
  | changeSeverity {actor seen severity changed}
      (changes : ¬(seen.status = .resolved ∨ seen.severity = severity))
      (written : changeIncidentSeverity s.db actor seen severity = some changed) :
      Operates s (.changeSeverity actor seen severity) changed.1

/-- Everything that a step can do, with what it waits for. -/
inductive Steps (s : World) : Action → World → Prop where
  | start (worker copy) : Steps s (.start worker copy) (s.setPhase worker (.probing copy))
  | answer (worker monitor outcome now) :
      Steps s (.answer worker outcome now) (s.setPhase worker (.recording monitor outcome now))
  | advance {worker} (held) (free : (locks (s.workers worker)).all s.free = true) :
      Steps s (.advance worker held)
        ((s.store (advance held (s.view (locks (s.workers worker))) (s.workers worker)).1).setPhase
          worker (advance held (s.view (locks (s.workers worker))) (s.workers worker)).2)
  | stop (worker) : Steps s (.stop worker) (s.setPhase worker .idle)
  | setPaused (monitorId paused) :
      Steps s (.setPaused monitorId paused)
        { s.mapRow monitorId fun row => setMonitorPaused row paused with
          silenced := if paused then s.silenced else s.silenced.filter (· ≠ monitorId) }
  | edit (monitorId name failureWindowSeconds) :
      Steps s (.edit monitorId name failureWindowSeconds)
        (s.mapRow monitorId fun row => updateMonitor row name failureWindowSeconds)
  | deleteRow (monitorId) :
      Steps s (.deleteRow monitorId)
        { s with
          monitors := s.monitors.filter (·.id ≠ monitorId)
          db := deleteMonitorRow s.db monitorId }
  | operate {a db} (operates : Operates s a db) : Steps s a { s with db }
  | lockFleet (mode organizationId bridgeId) :
      Steps s (.lockFleet mode organizationId bridgeId)
        { s with
          ending := some ⟨mode, organizationId, (s.monitors.filter fun row =>
            row.shadowBridgeId = some bridgeId && row.organizationId = organizationId).map (·.id),
            none⟩ }
  | findOpen {mode organizationId fleet}
      (ending : s.ending = some ⟨mode, organizationId, fleet, none⟩) :
      Steps s .findOpen
        { s with
          ending := some ⟨mode, organizationId, fleet, openShadow s.db organizationId fleet⟩ }
  | commit {mode organizationId fleet found} (now)
      (ending : s.ending = some ⟨mode, organizationId, fleet, some found⟩) :
      Steps s (.commit now)
        { s with
          monitors := s.monitors.map fun row =>
            if fleet.contains row.id then endedRow mode row else row
          db := found.foldl (closeShadow mode now) s.db
          ending := none
          ended := fleet ++ s.ended
          silenced := if mode = .abandon then fleet ++ s.silenced else s.silenced }
  | rollback : Steps s .rollback { s with ending := none }

variable {now : ℤ} {db db' : Db} {message : String} {s t : World} {a : Action}

theorem steps_of_step (h : step s a = some t) : Steps s a t := by
  cases a with
  | start worker copy =>
    simp only [step] at h
    split at h
    · cases h
      exact .start worker copy
    · cases h
      exact .start worker copy
    · cases h
  | answer worker outcome now =>
    simp only [step] at h
    split at h
    · cases h
      exact .answer worker _ outcome now
    · cases h
  | advance worker held =>
    obtain ⟨hfree, h⟩ := Option.ite_none_right_eq_some.mp h
    cases h
    exact .advance held hfree
  | stop worker =>
    cases h
    exact .stop worker
  | setPaused monitorId paused =>
    obtain ⟨-, h⟩ := Option.ite_none_right_eq_some.mp h
    cases h
    exact .setPaused monitorId paused
  | edit monitorId name failureWindowSeconds =>
    obtain ⟨-, h⟩ := Option.ite_none_right_eq_some.mp h
    cases h
    exact .edit monitorId name failureWindowSeconds
  | deleteIncidents actor monitorId now =>
    obtain ⟨monitor, -, rfl⟩ := Option.map_eq_some_iff.mp h
    exact .operate (.deleteIncidents actor monitorId monitor now)
  | deleteRow monitorId =>
    obtain ⟨-, h⟩ := Option.ite_none_right_eq_some.mp h
    cases h
    exact .deleteRow monitorId
  | createIncident actor title severity message =>
    cases h
    exact .operate (.createIncident actor title severity message)
  | acknowledge actor incidentId now =>
    obtain ⟨changed, hchanged, rfl⟩ := Option.map_eq_some_iff.mp h
    exact .operate (.acknowledge hchanged)
  | changeStatus actor incidentId seen next message now =>
    obtain ⟨hfound, h⟩ := Option.ite_none_right_eq_some.mp h
    obtain ⟨db, hchanged, rfl⟩ := Option.map_eq_some_iff.mp h
    exact .operate (.changeStatus hfound hchanged)
  | postUpdate actor incidentId message internal =>
    obtain ⟨incident, hfound, h⟩ := Option.bind_eq_some_iff.mp h
    obtain ⟨hopen, h⟩ := Option.ite_none_left_eq_some.mp h
    cases h
    exact .operate (.postUpdate message internal hfound hopen)
  | changeSeverity actor seen severity =>
    obtain ⟨hseen, h⟩ := Option.ite_none_left_eq_some.mp h
    obtain ⟨changed, hchanged, rfl⟩ := Option.map_eq_some_iff.mp h
    exact .operate (.changeSeverity hseen hchanged)
  | lockFleet mode organizationId bridgeId =>
    simp only [step] at h
    split at h
    · cases h
    · cases h
      exact .lockFleet mode organizationId bridgeId
  | findOpen =>
    simp only [step] at h
    split at h
    · rename_i hending
      cases h
      exact .findOpen hending
    · cases h
  | commit now =>
    simp only [step] at h
    split at h
    · rename_i hending
      cases h
      exact .commit now hending
    · cases h
  | rollback =>
    obtain ⟨ending, -, rfl⟩ := Option.map_eq_some_iff.mp h
    exact .rollback

/-! ### What a write may make of an incident -/

/-- No step writes the shadow flag, and what is resolved stays so. -/
structure SameFlags (i j : Incident) : Prop where
  id : j.id = i.id
  organizationId : j.organizationId = i.organizationId
  source : j.source = i.source
  shadow : j.shadow = i.shadow
  monitorId : j.monitorId = i.monitorId ∨ j.monitorId = none
  resolved : i.status = .resolved → j.status = .resolved

structure Quietly (i j : Incident) : Prop extends SameFlags i j where
  notifiedAt : j.notifiedAt = i.notifiedAt

/-- The claim of an incident writes it and no other. -/
def ClaimedOr (incidentId : ℕ) (i j : Incident) : Prop :=
  SameFlags i j ∧ (j.notifiedAt = i.notifiedAt ∨ i.id = incidentId)

theorem SameFlags.refl (i : Incident) : SameFlags i i :=
  ⟨rfl, rfl, rfl, rfl, .inl rfl, fun h => h⟩

theorem Quietly.refl (i : Incident) : Quietly i i := ⟨.refl i, rfl⟩

theorem SameFlags.active {i j : Incident} (h : SameFlags i j) {monitorId : ℕ}
    (hj : j.active monitorId = true) : i.active monitorId = true := by
  simp only [Incident.active, Bool.and_eq_true, decide_eq_true_eq] at hj ⊢
  obtain ⟨⟨hsource, hstatus⟩, hmonitor⟩ := hj
  refine ⟨⟨h.source ▸ hsource, fun hi => hstatus (h.resolved hi)⟩, ?_⟩
  rcases h.monitorId with hm | hm
  · exact hm ▸ hmonitor
  · rw [hm] at hmonitor
    cases hmonitor

theorem quietly_of_closedBy {i j : Incident} (h : ClosedBy now i j) : Quietly i j := by
  rcases h with rfl | ⟨-, rfl⟩
  · exact .refl _
  · exact ⟨⟨rfl, rfl, rfl, rfl, .inl rfl, fun _ => rfl⟩, rfl⟩

theorem acknowledgeIncident_quietly {actor : Actor} {incidentId : ℕ} {updated : Incident}
    (hdb : Ids db) (h : acknowledgeIncident db actor incidentId now = some (db', updated)) :
    Rows Quietly db db' ∧ db'.intents = db.intents := by
  obtain ⟨found, hfind, heq⟩ := Option.map_eq_some_iff.mp h
  cases heq
  obtain ⟨hmem, -, -⟩ := find_spec hfind
  refine ⟨Rows.addEvent (.setIncident hdb Quietly.refl hmem ?_ ?_) _ _ _ _ _, rfl⟩
  · rfl
  · exact ⟨⟨rfl, rfl, rfl, rfl, .inl rfl, id⟩, rfl⟩

theorem changeIncidentSeverity_quietly {actor : Actor} {seen updated : Incident}
    {severity : IncidentSeverity} (hdb : Ids db)
    (h : changeIncidentSeverity db actor seen severity = some (db', updated)) :
    Rows Quietly db db' ∧ ∃ found ∈ db.incidents, found.id = seen.id ∧
      found.organizationId = actor.organizationId ∧ found.status ≠ .resolved ∧
      ∀ c, c ∈ db'.intents ↔ c = .updated found.id db.nextEventId ∨ c ∈ db.intents := by
  obtain ⟨found, hfind, heq⟩ := Option.map_eq_some_iff.mp h
  cases heq
  obtain ⟨hmem, hid, hopen⟩ := find_spec hfind
  simp only [Bool.and_eq_true, decide_eq_true_eq] at hopen
  refine ⟨Rows.recordDispatchIntent (Rows.addEvent (.setIncident hdb Quietly.refl hmem ?_ ?_)
    _ _ _ _ _) _, found, hmem, hid, hopen.1, hopen.2, fun c => mem_recordDispatchIntent⟩
  · rfl
  · exact ⟨⟨rfl, rfl, rfl, rfl, .inl rfl, id⟩, rfl⟩

theorem postIncidentUpdate_quietly (db : Db) (actor : Actor) (seen : Incident) (message : String)
    (internal : Bool) :
    Rows Quietly db (postIncidentUpdate db actor seen message internal).1 ∧
      ∀ c, c ∈ (postIncidentUpdate db actor seen message internal).1.intents ↔
        internal = false ∧ c = .updated seen.id db.nextEventId ∨ c ∈ db.intents := by
  have hsame : Rows Quietly db db := .of_eq Quietly.refl rfl rfl
  have hevent := hsame.addEvent seen.id .update none message (some actor.userId)
  unfold postIncidentUpdate
  cases internal with
  | true => exact ⟨hevent, fun c => by simp [Db.addEvent]⟩
  | false =>
    exact ⟨hevent.recordDispatchIntent _,
      fun c => by simp [mem_recordDispatchIntent, Db.addEvent]⟩

theorem changeIncidentStatus_quietly {actor : String} {incidentId : ℕ} {seen next : IncidentStatus}
    (hdb : Ids db) (h : changeIncidentStatus db actor incidentId seen next message now = some db') :
    Rows Quietly db db' ∧ canTransition seen next = true ∧ ∃ found ∈ db.incidents,
      found.id = incidentId ∧ found.status = seen ∧ ∃ cause, cause.incidentId = found.id ∧
      ∀ c, c ∈ db'.intents ↔ c = cause ∨ c ∈ db.intents := by
  unfold changeIncidentStatus at h
  split at h
  · rename_i hcan
    split at h
    · cases h
    · rename_i found hfind
      obtain ⟨hmem, hid, hseen⟩ := find_spec hfind
      cases h
      have hseen : found.status = seen := by simpa using hseen
      have hopen : found.status ≠ .resolved := by
        simp only [canTransition, Bool.and_eq_true, decide_eq_true_eq, ← hseen] at hcan
        exact hcan.1
      refine ⟨Rows.recordDispatchIntent (Rows.addEvent (.setIncident hdb Quietly.refl hmem ?_ ?_)
        _ _ _ _ _) _, hcan, found, hmem, hid, hseen, _, ?_, fun c => mem_recordDispatchIntent⟩
      · rfl
      · exact ⟨⟨rfl, rfl, rfl, rfl, .inl rfl, fun hres => absurd hres hopen⟩, rfl⟩
      · split <;> rfl
  · cases h

theorem claimOpenedNotifications_claims (hdb : Ids db) (incidentId : ℕ) (now : ℤ) :
    Rows (ClaimedOr incidentId) db (claimOpenedNotifications db incidentId now).1 ∧
      ∀ c ∈ (claimOpenedNotifications db incidentId now).1.intents,
        c = .opened incidentId ∨ c ∈ db.intents := by
  have hrefl (i : Incident) : ClaimedOr incidentId i i := ⟨.refl i, .inl rfl⟩
  unfold claimOpenedNotifications
  split
  · exact ⟨.of_eq hrefl rfl rfl, fun c hc => .inr hc⟩
  · rename_i found hfind
    obtain ⟨hmem, hid, -⟩ := find_spec hfind
    refine ⟨Rows.recordDispatchIntent (.setIncident hdb hrefl hmem ?_ ?_) _, fun c hc => ?_⟩
    · rfl
    · exact ⟨⟨rfl, rfl, rfl, rfl, .inl rfl, id⟩, .inr hid⟩
    · have hcause := mem_recordDispatchIntent.mp hc
      rw [← hid]
      exact hcause

theorem deleteMonitorRow_quietly (db : Db) (monitorId : ℕ) :
    Rows Quietly db (deleteMonitorRow db monitorId) := by
  refine ⟨?_, rfl⟩
  rw [deleteMonitorRow, List.forall₂_map_right_iff, List.forall₂_same]
  intro i _
  split
  · exact ⟨⟨rfl, rfl, rfl, rfl, .inr rfl, id⟩, rfl⟩
  · exact .refl i

/-- An all-clear is owed only for an incident that somebody was alerted about. -/
theorem closeIncident_intents {type : EventType} {createdBy : Option String} {incident : Incident}
    {c : CauseKey} (h : c ∈ (closeIncident now type message createdBy db incident).intents) :
    c ∈ db.intents ∨ ∃ i ∈ db.incidents, i.notifiedAt ≠ none ∧ c = .resolved i.id := by
  unfold closeIncident at h
  split at h
  · exact .inl h
  · rename_i found hfind
    obtain ⟨hmem, -, -⟩ := find_spec hfind
    dsimp only at h
    split at h
    · rename_i hnotified
      rcases mem_recordDispatchIntent.mp h with rfl | h
      · exact .inr ⟨found, hmem, Option.isSome_iff_ne_none.mp hnotified, rfl⟩
      · exact .inl h
    · exact .inl h

theorem closeAll_intents (hdb : Ids db) {type : EventType} {createdBy : Option String}
    {incidents : List Incident} {c : CauseKey}
    (h : c ∈ (incidents.foldl (closeIncident now type message createdBy) db).intents) :
    c ∈ db.intents ∨ ∃ i ∈ db.incidents, i.notifiedAt ≠ none ∧ c = .resolved i.id := by
  induction incidents generalizing db with
  | nil => exact .inl h
  | cons incident rest ih =>
    have hfirst := closeIncident_rows hdb now type message createdBy incident
    rcases ih (hdb.rows hfirst fun i j hij => hij.sameLink.id) h with hc | ⟨j, hj, hnotified, rfl⟩
    · exact closeIncident_intents hc
    · obtain ⟨i, hi, hij⟩ := hfirst.before hj
      have hquiet := quietly_of_closedBy hij
      exact .inr ⟨i, hi, hquiet.notifiedAt ▸ hnotified, by rw [hquiet.id]⟩

theorem closeShadow_quietly (hdb : Ids db) (mode : Mode) (now : ℤ) (incidentId : ℕ) :
    Rows Quietly db (closeShadow mode now db incidentId) ∧
      (closeShadow mode now db incidentId).intents = db.intents := by
  unfold closeShadow
  split
  · exact ⟨.of_eq Quietly.refl rfl rfl, rfl⟩
  · rename_i found hfind
    obtain ⟨hmem, -, -⟩ := find_spec hfind
    refine ⟨Rows.addEvent (.setIncident hdb Quietly.refl hmem ?_ ?_) _ _ _ _ _, rfl⟩
    · rfl
    · exact ⟨⟨rfl, rfl, rfl, rfl, .inl rfl, fun _ => rfl⟩, rfl⟩

theorem Quietly.trans {i j k : Incident} (hij : Quietly i j) (hjk : Quietly j k) : Quietly i k where
  id := hjk.id.trans hij.id
  organizationId := hjk.organizationId.trans hij.organizationId
  source := hjk.source.trans hij.source
  shadow := hjk.shadow.trans hij.shadow
  monitorId := by
    rcases hjk.monitorId with h | h
    · rw [h]
      exact hij.monitorId
    · exact .inr h
  resolved h := hjk.resolved (hij.resolved h)
  notifiedAt := hjk.notifiedAt.trans hij.notifiedAt

theorem closeAllShadow_quietly (hdb : Ids db) (mode : Mode) (now : ℤ) (found : List ℕ) :
    Rows Quietly db (found.foldl (closeShadow mode now) db) ∧
      (found.foldl (closeShadow mode now) db).intents = db.intents := by
  induction found generalizing db with
  | nil => exact ⟨.of_eq Quietly.refl rfl rfl, rfl⟩
  | cons incidentId rest ih =>
    obtain ⟨hfirst, hintents⟩ := closeShadow_quietly hdb mode now incidentId
    obtain ⟨hrest, hintents'⟩ := ih (hdb.rows hfirst fun i j hij => hij.id)
    exact ⟨hfirst.trans hrest fun _ _ _ => Quietly.trans, hintents'.trans hintents⟩

/-! ### Where a new incident comes from, and what else a step does to the incidents -/

/-- What makes a worker's transaction open an incident. -/
structure Opened (s : World) (a : Action) (incident : Incident) (updated current : Monitor) :
    Prop where
  step : ∃ worker held outcome now, a = .advance worker held ∧
    s.workers worker = .opening updated outcome now
  free : s.free updated.id = true
  found : s.monitorRow updated.id = some current
  notUp : current.currentStatus ≠ .up
  paused : current.paused = false
  shadow : incident.shadow = current.shadowBridgeId.isSome
  monitorId : incident.monitorId = some updated.id
  organizationId : incident.organizationId = updated.organizationId

/-- What an operator opens. -/
structure Created (a : Action) (incident : Incident) : Prop where
  step : ∃ actor title severity message, a = .createIncident actor title severity message
  shadow : incident.shadow = false
  source : incident.source = .manual
  monitorId : incident.monitorId = none

/-- The worker's next transaction claims the incident. -/
def Claims (s : World) (a : Action) (incidentId : ℕ) : Prop :=
  ∃ worker held incident now, a = .advance worker held ∧
    s.workers worker = .claiming incident now ∧ incident.id = incidentId

inductive Effect (s : World) (a : Action) (t : World) : Prop where
  | inserted (incident : Incident) (rows : t.db.incidents = incident :: s.db.incidents)
      (id : incident.id = s.db.nextId) (nextId : t.db.nextId = s.db.nextId + 1)
      (notifiedAt : incident.notifiedAt = none)
      (origin : (∃ updated current, Opened s a incident updated current) ∨ Created a incident)
  | claimed (incidentId : ℕ) (claims : Claims s a incidentId)
      (rows : Rows (ClaimedOr incidentId) s.db t.db)
  | kept (rows : Rows Quietly s.db t.db)

theorem Effect.same (hrows : t.db.incidents = s.db.incidents) (hnext : t.db.nextId = s.db.nextId) :
    Effect s a t :=
  .kept (.of_eq Quietly.refl hrows hnext)

theorem view_ids {monitorId : Option ℕ} (h : Ids s.db) : Ids (s.view monitorId) :=
  ⟨h.below, h.unique⟩

/-- What the next transaction of a worker does to the incidents. -/
theorem advance_effect (hdb : Ids s.db) {worker : ℕ} {held : Option AlertHold}
    (hfree : (locks (s.workers worker)).all s.free = true) (next : Phase) :
    Effect s (.advance worker held)
      ((s.store (advance held (s.view (locks (s.workers worker)))
        (s.workers worker)).1).setPhase worker next) := by
  have hview : Ids (s.view (locks (s.workers worker))) := view_ids hdb
  cases hphase : s.workers worker with
  | idle => exact .same rfl rfl
  | probing monitor => exact .same rfl rfl
  | recording monitor outcome now | finding updated now =>
    simp only [advance]
    split
    · exact .same rfl rfl
    · exact .same rfl rfl
  | opening updated outcome now =>
    rw [hphase] at hfree
    simp only [advance]
    cases hres : (openMonitorIncident (s.view (locks (.opening updated outcome now))) updated).2 with
    | none =>
      have hsame := openMonitorIncident_none hres
      split
      · rename_i db created heq
        rw [heq] at hres
        cases hres
      · rename_i db heq
        rw [heq] at hsame
        obtain rfl : db = _ := hsame
        exact .same rfl rfl
    | some incident =>
      have horg := openMonitorIncident_organizationId hres
      obtain ⟨current, hrow, hup, hpaused, -, hid, -, -, hlink, hnotified, hshadow, message, hdb'⟩ :=
        openMonitorIncident_some hres
      split
      · rename_i db created heq
        rw [heq] at hdb'
        obtain rfl : db = _ := hdb'
        refine .inserted incident rfl hid rfl hnotified (.inl ⟨updated, current, ?_⟩)
        exact
          { step := ⟨worker, held, outcome, now, rfl, hphase⟩
            free := hfree
            found := Option.eq_some_of_filter_eq_some hrow
            notUp := hup
            paused := hpaused
            shadow := hshadow
            monitorId := hlink
            organizationId := horg }
      · rename_i db heq
        rw [heq] at hres
        cases hres
  | lines incident rest now =>
    cases rest with
    | nil => exact .same rfl rfl
    | cons line rest => exact .same rfl rfl
  | deciding incident now =>
    simp only [advance]
    split
    · exact .same rfl rfl
    · split
      · exact .same rfl rfl
      · exact .same rfl rfl
  | holding incident hold => exact .same rfl rfl
  | claiming incident now =>
    obtain ⟨hrows, -⟩ := claimOpenedNotifications_claims (hphase ▸ hview) incident.id now
    exact .claimed incident.id ⟨worker, held, incident, now, rfl, hphase, rfl⟩
      ⟨hrows.rows, hrows.nextId⟩
  | resolving updated now =>
    have hrows := closeAll_rows (hphase ▸ hview) now .statusChange
      (updated.name ++ " recovered, incident auto-resolved.") none
      ((s.view (locks (.resolving updated now))).incidents.filter (Incident.active updated.id))
    exact .kept ⟨hrows.rows.imp fun _ _ => quietly_of_closedBy, hrows.nextId⟩
  | finished => exact .same rfl rfl

theorem operates_effect (hdb : Ids s.db) (h : Operates s a db) : Effect s a { s with db } := by
  cases h with
  | deleteIncidents actor monitorId monitor now =>
    have hrows := closeAll_rows hdb now .system
      ("Resolved because the monitor \"" ++ monitor.name ++ "\" was deleted.") (some actor.userId)
      (s.db.incidents.filter fun i =>
        i.active monitor.id && i.organizationId = monitor.organizationId)
    exact .kept (hrows.mono fun _ _ => quietly_of_closedBy)
  | createIncident actor title severity message =>
    refine .inserted (Lifecycle.createIncident s.db actor title severity message).2 ?_ rfl ?_ rfl
      (.inr ⟨⟨actor, title, severity, message, rfl⟩, rfl, rfl, rfl⟩)
    · simp [createIncident, Db.addEvent]
    · simp [createIncident, Db.addEvent]
  | acknowledge hchanged => exact .kept (acknowledgeIncident_quietly hdb hchanged).1
  | changeStatus _ hchanged => exact .kept (changeIncidentStatus_quietly hdb hchanged).1
  | postUpdate message internal =>
    exact .kept (postIncidentUpdate_quietly s.db _ _ message internal).1
  | changeSeverity _ hchanged => exact .kept (changeIncidentSeverity_quietly hdb hchanged).1

theorem step_effect (hdb : Ids s.db) (h : step s a = some t) : Effect s a t := by
  cases steps_of_step h with
  | advance held hfree => exact advance_effect hdb hfree _
  | deleteRow monitorId => exact .kept (deleteMonitorRow_quietly s.db monitorId)
  | operate hoperates => exact operates_effect hdb hoperates
  | commit now _ => exact .kept (closeAllShadow_quietly hdb _ now _).1
  | _ => exact .same rfl rfl

/-! ### What a step does to the workers -/

/-- What a step may do to the workers. -/
inductive Moves (s : World) (a : Action) (t : World) : Prop where
  | none (workers : t.workers = s.workers)
  /-- A worker takes up a check, has its answer, or stops. -/
  | begins (worker : ℕ) (phase : Phase) (workers : t.workers = Function.update s.workers worker phase)
      (action : (∃ copy, a = .start worker copy ∧ phase = .probing copy) ∨
        (∃ monitor outcome now, a = .answer worker outcome now ∧
          phase = .recording monitor outcome now) ∨ a = .stop worker ∧ phase = .idle)
  | advances (worker : ℕ) (held : Option AlertHold) (action : a = .advance worker held)
      (free : (locks (s.workers worker)).all s.free = true) (db : Db) (next : Phase)
      (result : advance held (s.view (locks (s.workers worker))) (s.workers worker) = (db, next))
      (world : t = (s.store db).setPhase worker next)

theorem step_moves (h : step s a = some t) : Moves s a t := by
  cases steps_of_step h with
  | start worker copy => exact .begins worker _ rfl (.inl ⟨copy, rfl, rfl⟩)
  | answer worker monitor outcome now =>
    exact .begins worker _ rfl (.inr (.inl ⟨monitor, outcome, now, rfl, rfl⟩))
  | advance held hfree => exact .advances _ held rfl hfree _ _ rfl rfl
  | stop worker => exact .begins worker _ rfl (.inr (.inr ⟨rfl, rfl⟩))
  | _ => exact .none rfl

/-! ### What a step does to the monitors -/

/-- What a step may do to the row of a monitor. -/
inductive RowChange (s : World) (a : Action) (row row' : Monitor) : Prop where
  | same (eq : row' = row)
  | recorded (worker : ℕ) (held : Option AlertHold) (monitor : Monitor) (outcome : CheckResult)
      (now : ℤ) (action : a = .advance worker held)
      (phase : s.workers worker = .recording monitor outcome now) (free : s.free row.id = true)
      (eq : row' = (recordCheckOutcome row monitor outcome now).1)
  | paused (paused : Bool) (action : a = .setPaused row.id paused)
      (eq : row' = setMonitorPaused row paused)
  | edited (name : String) (failureWindowSeconds : ℤ)
      (action : a = .edit row.id name failureWindowSeconds)
      (eq : row' = updateMonitor row name failureWindowSeconds)
  | ended (mode : Mode) (organizationId : String) (fleet found : List ℕ) (now : ℤ)
      (action : a = .commit now) (ending : s.ending = some ⟨mode, organizationId, fleet, found⟩)
      (mem : row.id ∈ fleet) (eq : row' = endedRow mode row)

theorem RowChange.id {row row' : Monitor} (h : RowChange s a row row') :
    row'.id = row.id ∧ row'.organizationId = row.organizationId := by
  cases h with
  | same eq => exact eq ▸ ⟨rfl, rfl⟩
  | recorded worker held monitor outcome now _ _ _ eq =>
    subst eq
    unfold recordCheckOutcome
    split
    · exact ⟨rfl, rfl⟩
    · exact ⟨rfl, rfl⟩
  | paused paused _ eq => exact eq ▸ ⟨rfl, rfl⟩
  | edited name failureWindowSeconds _ eq => exact eq ▸ ⟨rfl, rfl⟩
  | ended mode _ _ _ _ _ _ _ eq =>
    subst eq
    cases mode with
    | cutover => exact ⟨rfl, rfl⟩
    | abandon => exact ⟨rfl, rfl⟩

theorem monitorRow_mem {id : ℕ} {row : Monitor} (h : s.monitorRow id = some row) :
    row ∈ s.monitors ∧ row.id = id :=
  ⟨List.mem_of_find?_eq_some h, by simpa using List.find?_some h⟩

/-- A worker writes the row of the monitor whose check it records, and no other. -/
theorem advance_row {worker : ℕ} {held : Option AlertHold} {next : Phase}
    (hfree : (locks (s.workers worker)).all s.free = true)
    (h : advance held (s.view (locks (s.workers worker))) (s.workers worker) = (db, next))
    {row' : Monitor} (hrow' : row' ∈ putRow s.monitors db.monitor) :
    ∃ row ∈ s.monitors, RowChange s (.advance worker held) row row' := by
  have hput {row : Monitor} (hrow : row ∈ s.monitors) (hmem : row' ∈ putRow s.monitors (some row)) :
      ∃ row ∈ s.monitors, RowChange s (.advance worker held) row row' := by
    obtain ⟨r, hr, rfl⟩ := List.mem_map.mp hmem
    split
    · exact ⟨row, hrow, .same rfl⟩
    · exact ⟨r, hr, .same rfl⟩
  cases hwritten : Interleaving.written (s.view (locks (s.workers worker))) (s.workers worker) with
  | none =>
    have hmonitor := Interleaving.advance_monitor_of_not_written held hwritten
    rw [h] at hmonitor
    have hview : db.monitor = (locks (s.workers worker)).bind s.monitorRow := hmonitor
    rw [hview] at hrow'
    cases hrow : (locks (s.workers worker)).bind s.monitorRow with
    | none =>
      rw [hrow] at hrow'
      exact ⟨row', hrow', .same rfl⟩
    | some row =>
      rw [hrow] at hrow'
      obtain ⟨id, -, hfind⟩ := Option.bind_eq_some_iff.mp hrow
      exact hput (monitorRow_mem hfind).1 hrow'
  | some write =>
    cases hphase : s.workers worker with
    | recording monitor outcome now =>
      rw [hphase] at h hwritten hfree
      obtain ⟨row, hrow, -⟩ := Option.bind_eq_some_iff.mp hwritten
      obtain ⟨hmem, hid⟩ := monitorRow_mem (Option.eq_some_of_filter_eq_some hrow)
      simp only [advance, hrow] at h
      obtain ⟨rfl, -⟩ := Prod.mk.inj h
      obtain ⟨r, hr, rfl⟩ := List.mem_map.mp hrow'
      split
      · exact ⟨row, hmem, .recorded worker held monitor outcome now rfl hphase (hid ▸ hfree) rfl⟩
      · exact ⟨r, hr, .same rfl⟩
    | _ =>
      rw [hphase] at hwritten
      cases hwritten

theorem putRow_ids (monitors : List Monitor) (row : Option Monitor) :
    (putRow monitors row).map (·.id) = monitors.map (·.id) := by
  cases row with
  | none => rfl
  | some row =>
    rw [putRow, List.map_map]
    refine List.map_congr_left fun r _ => ?_
    simp only [Function.comp]
    split
    · rename_i hid
      exact hid.symm
    · rfl

/-- Rows that are rewritten in their place, or taken away. -/
structure RowsChange (s : World) (a : Action) (t : World) : Prop where
  rows : ∀ row' ∈ t.monitors, ∃ row ∈ s.monitors, RowChange s a row row'
  ids : List.Sublist (t.monitors.map (·.id)) (s.monitors.map (·.id))

theorem RowsChange.same (h : t.monitors = s.monitors) : RowsChange s a t :=
  ⟨fun row hrow => ⟨row, h ▸ hrow, .same rfl⟩, by rw [h]⟩

theorem RowsChange.map {f : Monitor → Monitor} (h : t.monitors = s.monitors.map f)
    (hf : ∀ row ∈ s.monitors, RowChange s a row (f row)) : RowsChange s a t := by
  constructor
  · intro row' hrow'
    rw [h] at hrow'
    obtain ⟨row, hrow, rfl⟩ := List.mem_map.mp hrow'
    exact ⟨row, hrow, hf row hrow⟩
  · rw [h, List.map_map]
    exact (List.map_congr_left fun row hrow => (hf row hrow).id.1) ▸ List.Sublist.refl _

theorem step_rows (h : step s a = some t) : RowsChange s a t := by
  cases steps_of_step h with
  | advance held hfree =>
    refine ⟨fun row' hrow' => advance_row hfree rfl hrow', ?_⟩
    simp only [World.setPhase, World.store, putRow_ids]
    exact List.Sublist.refl _
  | setPaused monitorId paused =>
    refine .map rfl fun row _ => ?_
    split
    · rename_i hid
      exact .paused paused (by rw [hid]) rfl
    · exact .same rfl
  | edit monitorId name failureWindowSeconds =>
    refine .map rfl fun row _ => ?_
    split
    · rename_i hid
      exact .edited name failureWindowSeconds (by rw [hid]) rfl
    · exact .same rfl
  | deleteRow monitorId =>
    exact ⟨fun row hrow => ⟨row, List.mem_of_mem_filter hrow, .same rfl⟩,
      List.filter_sublist.map _⟩
  | commit now hending =>
    refine .map rfl fun row _ => ?_
    split
    · rename_i hmem
      exact .ended _ _ _ _ now rfl hending (by simpa using hmem) rfl
    · exact .same rfl
  | _ => exact .same rfl

end Vigil.Bridge.ShadowSteps
