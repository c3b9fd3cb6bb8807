import Vigil.Monitors.Record
import Mathlib.Algebra.Order.Ring.Int
import Mathlib.Data.List.Nodup

/-! The automatic incidents of a monitor: the operations of `incidents/service.ts`,
`notifications/intents.ts` and `deleteMonitor` of `monitors/service.ts` on the tables they write.
Each operation is one transaction.  Identifiers are numbers that are never used again, and the key
of a dispatch intent is the transition that caused it. -/

namespace Vigil.Incidents.Store

open Monitors.StatusController Monitors.Record

/-- Where the work on an incident stands. -/
inductive IncidentStatus where
  | investigating
  | identified
  | monitoring
  | resolved
  deriving DecidableEq, Repr

/-- How bad an incident is. -/
inductive IncidentSeverity where
  | critical
  | major
  | minor
  deriving DecidableEq, Repr

/-- Who opened an incident. -/
inductive IncidentSource where
  | manual
  | monitor
  deriving DecidableEq, Repr

/-- What an event of a timeline tells. -/
inductive EventType where
  | created
  | statusChange
  | severityChange
  | update
  | system
  deriving DecidableEq, Repr

/-- A row of an incident. -/
structure Incident where
  id : ℕ
  organizationId : String
  title : String
  status : IncidentStatus
  severity : IncidentSeverity
  source : IncidentSource
  monitorId : Option ℕ
  resolvedAt : Option ℤ
  notifiedAt : Option ℤ
  statusRevision : ℕ
  shadow : Bool
  acknowledgedAt : Option ℤ
  acknowledgedBy : Option String
  createdBy : Option String
  deriving DecidableEq, Repr

/-- A row of a timeline. -/
structure IncidentEvent where
  id : ℕ
  incidentId : ℕ
  type : EventType
  status : Option IncidentStatus
  message : String
  createdBy : Option String
  deriving DecidableEq, Repr

/-- What a message is about; a cause is recorded once. -/
inductive CauseKey where
  /-- `incident:<id>:incident.opened`. -/
  | opened (incidentId : ℕ)
  /-- `incident:<id>:incident.resolved`. -/
  | resolved (incidentId : ℕ)
  /-- `incident:<id>:incident.updated:<event>`. -/
  | updated (incidentId eventId : ℕ)
  deriving DecidableEq, Repr

def CauseKey.incidentId : CauseKey → ℕ
  | .opened id => id
  | .resolved id => id
  | .updated id _ => id

/-- The tables of a monitor's incidents. -/
structure Db where
  monitor : Option Monitor
  incidents : List Incident
  events : List IncidentEvent
  intents : List CauseKey
  nextId : ℕ
  nextEventId : ℕ
  deriving DecidableEq, Repr

/-! ### Writing a row -/

def Db.setIncident (db : Db) (incident : Incident) : Db :=
  { db with incidents := db.incidents.map fun i => if i.id = incident.id then incident else i }

def Db.addEvent (db : Db) (incidentId : ℕ) (type : EventType) (status : Option IncidentStatus)
    (message : String) (createdBy : Option String) : Db :=
  { db with
    events := ⟨db.nextEventId, incidentId, type, status, message, createdBy⟩ :: db.events
    nextEventId := db.nextEventId + 1 }

/-- An intent whose cause is there already is not written again. -/
def recordDispatchIntent (db : Db) (cause : CauseKey) : Db :=
  if cause ∈ db.intents then db else { db with intents := cause :: db.intents }

def recordSystemEvent (db : Db) (incidentId : ℕ) (message : String) : Db :=
  db.addEvent incidentId .system none message none

/-! ### The operations -/

def canTransition (current next : IncidentStatus) : Bool :=
  current ≠ .resolved && current ≠ next

/-- `x` divided by `n` and rounded, as `Math.round(x / n)` does. -/
def roundDiv (x n : ℤ) : ℤ := (2 * x + n) / (2 * n)

/-- The failure window in words. -/
def describeFailureWindow (seconds : ℤ) : String :=
  if seconds ≤ 0 then "from its first failed check"
  else if seconds < 60 then
    "for " ++ toString seconds ++ " " ++ (if seconds = 1 then "second" else "seconds")
  else if seconds < 3600 then
    let minutes := roundDiv seconds 60
    "for " ++ toString minutes ++ " " ++ (if minutes = 1 then "minute" else "minutes")
  else
    let hours := roundDiv seconds 3600
    "for " ++ toString hours ++ " " ++ (if hours = 1 then "hour" else "hours")

/-- What the index `incidents_one_active_per_monitor` holds at most one of. -/
def Incident.active (monitorId : ℕ) (i : Incident) : Bool :=
  i.source = .monitor && i.status ≠ .resolved && i.monitorId = some monitorId

/-- The row of the monitor, as `SELECT .. FOR UPDATE` finds it. -/
def Db.monitorRow (db : Db) (id : ℕ) : Option Monitor := db.monitor.filter (·.id = id)

/-- An incident is opened for a monitor that is not up or paused, and has none open. -/
def openMonitorIncident (db : Db) (monitor : Monitor) : Db × Option Incident :=
  match db.monitorRow monitor.id with
  | none => (db, none)
  | some current =>
    if current.currentStatus = .up then (db, none)
    else if current.paused then (db, none)
    else if db.incidents.any (Incident.active monitor.id) then (db, none)
    else
      let incident : Incident :=
        { id := db.nextId
          organizationId := monitor.organizationId
          title := monitor.name ++ " is down"
          status := .investigating
          severity := .critical
          source := .monitor
          monitorId := some monitor.id
          resolvedAt := none
          notifiedAt := none
          statusRevision := 0
          shadow := current.shadowBridgeId.isSome
          acknowledgedAt := none
          acknowledgedBy := none
          createdBy := none }
      let db := { db with incidents := incident :: db.incidents, nextId := db.nextId + 1 }
      (db.addEvent incident.id .created (some incident.status)
        (monitor.name ++ " had been failing " ++ describeFailureWindow monitor.failureWindowSeconds ++
          " and was marked down.") none,
        some incident)

/-- The open automatic incident for a monitor when nobody has acted on it yet. -/
def findUnhandledAutoIncident (db : Db) (monitorId : ℕ) : Option Incident :=
  db.incidents.find? fun i =>
    i.active monitorId && i.notifiedAt.isNone &&
      !db.events.any fun e => e.incidentId = i.id && e.type = .system

/-- `claimIncidentNotification` with the intent that `claimOpenedNotifications` records in its
transaction. -/
def claimOpenedNotifications (db : Db) (incidentId : ℕ) (now : ℤ) : Db × Option Incident :=
  match db.incidents.find? fun i => i.id = incidentId && i.notifiedAt.isNone with
  | none => (db, none)
  | some found =>
    let claimed := { found with notifiedAt := some now }
    (recordDispatchIntent (db.setIncident claimed) (.opened claimed.id), some claimed)

/-- Closes one incident that is not resolved yet: its row, its line on the timeline, and the
all-clear if somebody was alerted. -/
def closeIncident (now : ℤ) (type : EventType) (message : String) (createdBy : Option String)
    (db : Db) (incident : Incident) : Db :=
  match db.incidents.find? fun i => i.id = incident.id && i.status ≠ .resolved with
  | none => db
  | some found =>
    let updated :=
      { found with
        status := .resolved
        resolvedAt := some now
        statusRevision := found.statusRevision + 1 }
    let db := (db.setIncident updated).addEvent updated.id type (some .resolved) message createdBy
    if updated.notifiedAt.isSome then recordDispatchIntent db (.resolved updated.id) else db

def resolveMonitorIncidents (db : Db) (monitor : Monitor) (now : ℤ) : Db :=
  (db.incidents.filter (Incident.active monitor.id)).foldl
    (closeIncident now .statusChange (monitor.name ++ " recovered, incident auto-resolved.") none) db

/-- An operator moves an incident on, from the status `seen` that it read earlier in its
transaction; `none` is a conflict. -/
def changeIncidentStatus (db : Db) (actor : String) (incidentId : ℕ) (seen next : IncidentStatus)
    (message : String) (now : ℤ) : Option Db :=
  if canTransition seen next then
    match db.incidents.find? fun i => i.id = incidentId && i.status = seen with
    | none => none
    | some found =>
      let resolving : Bool := next = .resolved
      let updated :=
        { found with
          status := next
          resolvedAt := if resolving then some now else none
          statusRevision := found.statusRevision + 1 }
      let eventId := db.nextEventId
      let db := (db.setIncident updated).addEvent updated.id .statusChange (some next) message
        (some actor)
      some (recordDispatchIntent db
        (if resolving then .resolved updated.id else .updated updated.id eventId))
  else none

/-- The first write of `deleteMonitor`: the open incidents are closed. -/
def deleteMonitorIncidents (db : Db) (actor : String) (monitor : Monitor) (now : ℤ) : Db :=
  (db.incidents.filter fun i =>
      i.active monitor.id && i.organizationId = monitor.organizationId).foldl
    (closeIncident now .system
      ("Resolved because the monitor \"" ++ monitor.name ++ "\" was deleted.") (some actor)) db

/-- The second write of `deleteMonitor`: the row goes, and `ON DELETE SET NULL` unlinks its
incidents. -/
def deleteMonitorRow (db : Db) (monitorId : ℕ) : Db :=
  { db with
    monitor := db.monitor.filter (·.id ≠ monitorId)
    incidents := db.incidents.map fun i =>
      if i.monitorId = some monitorId then { i with monitorId := none } else i }

/-! ### The tables stay well formed -/

/-- What the operations keep: identifiers are unique and below the next one, and an opened intent
was recorded only with a claim. -/
structure WellFormed (db : Db) : Prop where
  ids : ∀ i ∈ db.incidents, i.id < db.nextId
  unique : (db.incidents.map (·.id)).Nodup
  causes : ∀ cause ∈ db.intents, cause.incidentId < db.nextId
  events : ∀ e ∈ db.events, e.incidentId < db.nextId
  opened : ∀ i ∈ db.incidents, .opened i.id ∈ db.intents → i.notifiedAt ≠ none

theorem mem_setIncident {db : Db} {incident i : Incident}
    (h : i ∈ (db.setIncident incident).incidents) :
    i = incident ∨ (i ∈ db.incidents ∧ i.id ≠ incident.id) := by
  obtain ⟨j, hj, rfl⟩ := List.mem_map.mp h
  by_cases hid : j.id = incident.id
  · exact .inl (if_pos hid)
  · rw [if_neg hid]
    exact .inr ⟨hj, hid⟩

theorem setIncident_ids (db : Db) (incident : Incident) :
    (db.setIncident incident).incidents.map (·.id) = db.incidents.map (·.id) := by
  simp only [Db.setIncident, List.map_map]
  refine List.map_congr_left fun i _ => ?_
  simp only [Function.comp]
  split
  · rename_i h
    exact h.symm
  · rfl

theorem mem_recordDispatchIntent {db : Db} {cause c : CauseKey} :
    c ∈ (recordDispatchIntent db cause).intents ↔ c = cause ∨ c ∈ db.intents := by
  unfold recordDispatchIntent
  split
  · rename_i h
    constructor
    · exact .inr
    · rintro (rfl | hc)
      · exact h
      · exact hc
  · exact List.mem_cons

section Frame

variable (db : Db) (cause : CauseKey)

@[simp] theorem recordDispatchIntent_incidents :
    (recordDispatchIntent db cause).incidents = db.incidents := by
  unfold recordDispatchIntent
  split <;> rfl

@[simp] theorem recordDispatchIntent_events :
    (recordDispatchIntent db cause).events = db.events := by
  unfold recordDispatchIntent
  split <;> rfl

@[simp] theorem recordDispatchIntent_nextId :
    (recordDispatchIntent db cause).nextId = db.nextId := by
  unfold recordDispatchIntent
  split <;> rfl

@[simp] theorem recordDispatchIntent_monitor :
    (recordDispatchIntent db cause).monitor = db.monitor := by
  unfold recordDispatchIntent
  split <;> rfl

end Frame

theorem WellFormed.setIncident {db : Db} {found incident : Incident} (h : WellFormed db)
    (hfound : found ∈ db.incidents) (hid : incident.id = found.id)
    (hopened : .opened incident.id ∈ db.intents → incident.notifiedAt ≠ none) :
    WellFormed (db.setIncident incident) where
  ids := by
    intro i hi
    rcases mem_setIncident hi with rfl | ⟨hi, -⟩
    · rw [hid]
      exact h.ids found hfound
    · exact h.ids i hi
  unique := by
    rw [setIncident_ids]
    exact h.unique
  causes := h.causes
  events := h.events
  opened := by
    intro i hi hcause
    rcases mem_setIncident hi with rfl | ⟨hi, -⟩
    · exact hopened hcause
    · exact h.opened i hi hcause

theorem WellFormed.addEvent {db : Db} {incidentId : ℕ} (h : WellFormed db)
    (hid : incidentId < db.nextId) (type : EventType) (status : Option IncidentStatus)
    (message : String) (createdBy : Option String) :
    WellFormed (db.addEvent incidentId type status message createdBy) where
  ids := h.ids
  unique := h.unique
  causes := h.causes
  events := by
    intro e he
    rcases List.mem_cons.mp he with rfl | he
    · exact hid
    · exact h.events e he
  opened := h.opened

theorem WellFormed.recordDispatchIntent {db : Db} {cause : CauseKey} (h : WellFormed db)
    (hid : cause.incidentId < db.nextId)
    (hopened : ∀ i ∈ db.incidents, cause = .opened i.id → i.notifiedAt ≠ none) :
    WellFormed (recordDispatchIntent db cause) where
  ids := by simpa using h.ids
  unique := by simpa using h.unique
  causes := by
    intro c hc
    rw [recordDispatchIntent_nextId]
    rcases mem_recordDispatchIntent.mp hc with rfl | hc
    · exact hid
    · exact h.causes c hc
  events := by simpa using h.events
  opened := by
    intro i hi hcause
    rw [recordDispatchIntent_incidents] at hi
    rcases mem_recordDispatchIntent.mp hcause with hcause | hcause
    · exact hopened i hi hcause.symm
    · exact h.opened i hi hcause

theorem find_spec {db : Db} {id : ℕ} {q : Incident → Bool} {found : Incident}
    (h : db.incidents.find? (fun i => i.id = id && q i) = some found) :
    found ∈ db.incidents ∧ found.id = id ∧ q found = true := by
  have hq := List.find?_some h
  simp only [Bool.and_eq_true, decide_eq_true_eq] at hq
  exact ⟨List.mem_of_find?_eq_some h, hq.1, hq.2⟩

/-! ### The operations keep the tables well formed -/

variable {monitor : Monitor} {incident : Incident} {message : String} {now : ℤ}

theorem openMonitorIncident_none {db : Db} (h : (openMonitorIncident db monitor).2 = none) :
    (openMonitorIncident db monitor).1 = db := by
  unfold openMonitorIncident at h ⊢
  split
  · rfl
  · rename_i current hrow
    simp only [hrow] at h
    split_ifs at h ⊢
    all_goals rfl

theorem openMonitorIncident_active {db : Db}
    (h : db.incidents.any (Incident.active monitor.id) = true) :
    openMonitorIncident db monitor = (db, none) := by
  unfold openMonitorIncident
  split
  · rfl
  · simp only [h, if_true]
    split_ifs <;> rfl

theorem openMonitorIncident_organizationId {db : Db}
    (h : (openMonitorIncident db monitor).2 = some incident) :
    incident.organizationId = monitor.organizationId := by
  unfold openMonitorIncident at h
  split at h
  · cases h
  · split_ifs at h
    cases h
    rfl

/-- An incident that is opened: the row allows it, and it is new, unclaimed and without a line of
the system. -/
theorem openMonitorIncident_some {db : Db}
    (h : (openMonitorIncident db monitor).2 = some incident) :
    ∃ current, db.monitorRow monitor.id = some current ∧ current.currentStatus ≠ .up ∧
      current.paused = false ∧ db.incidents.any (Incident.active monitor.id) = false ∧
      incident.id = db.nextId ∧ incident.status = .investigating ∧ incident.source = .monitor ∧
      incident.monitorId = some monitor.id ∧ incident.notifiedAt = none ∧
      incident.shadow = current.shadowBridgeId.isSome ∧
      ∃ message, (openMonitorIncident db monitor).1 =
        ({ db with incidents := incident :: db.incidents, nextId := db.nextId + 1 } : Db).addEvent
          incident.id .created (some .investigating) message none := by
  unfold openMonitorIncident at h ⊢
  split at h
  · cases h
  · rename_i current hrow
    simp only [hrow]
    split_ifs at h ⊢ with hup hpaused hactive
    cases h
    exact ⟨current, rfl, hup, by simpa using hpaused, by simpa using hactive, rfl, rfl, rfl, rfl,
      rfl, rfl, _, rfl⟩

theorem openMonitorIncident_wf {db : Db} (monitor : Monitor) (h : WellFormed db) :
    WellFormed (openMonitorIncident db monitor).1 := by
  cases hres : (openMonitorIncident db monitor).2 with
  | none =>
    rw [openMonitorIncident_none hres]
    exact h
  | some incident =>
    obtain ⟨-, -, -, -, -, hid, -, -, -, hnotified, -, message, hdb⟩ :=
      openMonitorIncident_some hres
    rw [hdb]
    refine WellFormed.addEvent ⟨?_, ?_, ?_, ?_, ?_⟩ (hid ▸ Nat.lt_succ_self _) _ _ _ _
    · intro i hi
      rcases List.mem_cons.mp hi with rfl | hi
      · exact hid ▸ Nat.lt_succ_self _
      · exact Nat.lt_succ_of_lt (h.ids i hi)
    · refine List.nodup_cons.mpr ⟨fun hmem => ?_, h.unique⟩
      obtain ⟨i, hi, hii⟩ := List.mem_map.mp hmem
      have hlt := h.ids i hi
      have hsame : i.id = incident.id := hii
      omega
    · exact fun c hc => Nat.lt_succ_of_lt (h.causes c hc)
    · exact fun e he => Nat.lt_succ_of_lt (h.events e he)
    · intro i hi hcause
      rcases List.mem_cons.mp hi with rfl | hi
      · have := h.causes _ hcause
        simp only [CauseKey.incidentId] at this
        omega
      · exact h.opened i hi hcause

theorem openMonitorIncident_isSome_iff {db : Db} :
    (openMonitorIncident db monitor).2.isSome = true ↔
      ∃ current, db.monitorRow monitor.id = some current ∧ current.currentStatus ≠ .up ∧
        current.paused = false ∧ db.incidents.any (Incident.active monitor.id) = false := by
  constructor
  · intro h
    obtain ⟨incident, hincident⟩ := Option.isSome_iff_exists.mp h
    obtain ⟨current, hrow, hup, hpaused, hactive, -⟩ := openMonitorIncident_some hincident
    exact ⟨current, hrow, hup, hpaused, hactive⟩
  · rintro ⟨current, hrow, hup, hpaused, hactive⟩
    simp [openMonitorIncident, hrow, hup, hpaused, hactive]

theorem findUnhandledAutoIncident_some {db : Db} {monitorId : ℕ}
    (h : findUnhandledAutoIncident db monitorId = some incident) :
    incident ∈ db.incidents ∧ incident.active monitorId = true ∧ incident.notifiedAt = none := by
  have hspec := List.find?_some h
  simp only [Bool.and_eq_true] at hspec
  exact ⟨List.mem_of_find?_eq_some h, hspec.1.1, by simpa using hspec.1.2⟩

/-! ### No operation on incidents writes the monitor -/

@[simp] theorem openMonitorIncident_monitor (db : Db) (monitor : Monitor) :
    (openMonitorIncident db monitor).1.monitor = db.monitor := by
  unfold openMonitorIncident
  split
  · rfl
  · split_ifs <;> rfl

@[simp] theorem claimOpenedNotifications_monitor (db : Db) (incidentId : ℕ) (now : ℤ) :
    (claimOpenedNotifications db incidentId now).1.monitor = db.monitor := by
  unfold claimOpenedNotifications
  split
  · rfl
  · exact recordDispatchIntent_monitor _ _

theorem closeIncident_monitor (now : ℤ) (type : EventType) (message : String)
    (createdBy : Option String) (db : Db) (incident : Incident) :
    (closeIncident now type message createdBy db incident).monitor = db.monitor := by
  unfold closeIncident
  split
  · rfl
  · dsimp only
    split
    · exact recordDispatchIntent_monitor _ _
    · rfl

@[simp] theorem resolveMonitorIncidents_monitor (db : Db) (monitor : Monitor) (now : ℤ) :
    (resolveMonitorIncidents db monitor now).monitor = db.monitor :=
  List.foldlRecOn (motive := fun db' : Db => db'.monitor = db.monitor) _ _ rfl
    fun _ h _ _ => (closeIncident_monitor _ _ _ _ _ _).trans h

theorem changeIncidentStatus_monitor {db db' : Db} {actor : String} {incidentId : ℕ}
    {seen next : IncidentStatus}
    (hs : changeIncidentStatus db actor incidentId seen next message now = some db') :
    db'.monitor = db.monitor := by
  unfold changeIncidentStatus at hs
  split at hs
  · split at hs
    · cases hs
    · cases hs
      exact recordDispatchIntent_monitor _ _
  · cases hs

theorem claimOpenedNotifications_wf {db : Db} (incidentId : ℕ) (now : ℤ) (h : WellFormed db) :
    WellFormed (claimOpenedNotifications db incidentId now).1 := by
  unfold claimOpenedNotifications
  split
  · exact h
  · rename_i found hfind
    obtain ⟨hmem, -, -⟩ := find_spec hfind
    have hset : WellFormed (db.setIncident { found with notifiedAt := some now }) :=
      h.setIncident hmem rfl (by simp)
    refine hset.recordDispatchIntent (h.ids found hmem) fun i hi hcause => ?_
    rcases mem_setIncident hi with rfl | ⟨-, hne⟩
    · simp
    · exact absurd (CauseKey.opened.inj hcause).symm hne

theorem closeIncident_wf {db : Db} {type : EventType} {createdBy : Option String}
    (h : WellFormed db) : WellFormed (closeIncident now type message createdBy db incident) := by
  unfold closeIncident
  split
  · exact h
  · rename_i found hfind
    obtain ⟨hmem, -, -⟩ := find_spec hfind
    have hlt := h.ids found hmem
    have hset : WellFormed (db.setIncident { found with
        status := .resolved
        resolvedAt := some now
        statusRevision := found.statusRevision + 1 }) :=
      h.setIncident hmem rfl (h.opened found hmem)
    have hevent := hset.addEvent hlt type (some .resolved) message createdBy
    dsimp only
    split
    · exact hevent.recordDispatchIntent hlt (by simp)
    · exact hevent

theorem changeIncidentStatus_wf {db db' : Db} {actor : String} {incidentId : ℕ}
    {seen next : IncidentStatus} (h : WellFormed db)
    (hs : changeIncidentStatus db actor incidentId seen next message now = some db') :
    WellFormed db' := by
  unfold changeIncidentStatus at hs
  split at hs
  · split at hs
    · cases hs
    · rename_i found hfind
      obtain ⟨hmem, -, -⟩ := find_spec hfind
      cases hs
      have hlt := h.ids found hmem
      have hset : WellFormed (db.setIncident { found with
          status := next
          resolvedAt := if decide (next = .resolved) = true then some now else none
          statusRevision := found.statusRevision + 1 }) :=
        h.setIncident hmem rfl (h.opened found hmem)
      refine (hset.addEvent hlt _ _ _ _).recordDispatchIntent ?_ fun i _ hcause => ?_
      · split <;> exact hlt
      · split at hcause <;> cases hcause
  · cases hs

theorem deleteMonitorRow_wf {db : Db} (monitorId : ℕ) (h : WellFormed db) :
    WellFormed (deleteMonitorRow db monitorId) := by
  have hmem : ∀ i ∈ (deleteMonitorRow db monitorId).incidents,
      ∃ j ∈ db.incidents, i.id = j.id ∧ i.notifiedAt = j.notifiedAt := by
    intro i hi
    obtain ⟨j, hj, rfl⟩ := List.mem_map.mp hi
    refine ⟨j, hj, ?_⟩
    split <;> exact ⟨rfl, rfl⟩
  refine ⟨fun i hi => ?_, ?_, h.causes, h.events, fun i hi hcause => ?_⟩
  · obtain ⟨j, hj, hid, -⟩ := hmem i hi
    exact hid ▸ h.ids j hj
  · have hids : (deleteMonitorRow db monitorId).incidents.map (·.id) = db.incidents.map (·.id) := by
      simp only [deleteMonitorRow, List.map_map]
      refine List.map_congr_left fun i _ => ?_
      simp only [Function.comp]
      split <;> rfl
    rw [hids]
    exact h.unique
  · obtain ⟨j, hj, hid, hnotified⟩ := hmem i hi
    rw [hnotified]
    exact h.opened j hj (hid ▸ hcause)

end Vigil.Incidents.Store
