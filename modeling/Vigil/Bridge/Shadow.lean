import Vigil.Incidents.Lifecycle
import Vigil.Monitors.Outcome

/-! Shadow mode: the monitors that a bridge imports record incidents and announce nothing until the
bridge is cut over or abandoned, `importers/bridge/service.ts`.  Any number of checks run
`applyOutcome` on any number of monitors, interleaved at their transactions with operators and with a
transaction that ends shadow mode.  That transaction locks its fleet first; whoever writes or locks a
row of the fleet waits until it ends, and its own writes take effect when it commits.  Beside the
tables a world keeps the monitors whose shadow mode was ended, and those of them that were abandoned
and not resumed since; no step reads either. -/

namespace Vigil.Bridge.Shadow

open Monitors Record Outcome Incidents Store Lib
open Lifecycle (Actor)

/-- How shadow mode ends. -/
inductive Mode where
  | cutover
  | abandon
  deriving DecidableEq, Repr

/-- A transaction of `endShadow`. -/
structure Ending where
  mode : Mode
  organizationId : String
  /-- The rows that it locked. -/
  fleet : List ℕ
  /-- The open shadow incidents that it read. -/
  found : Option (List ℕ)
  deriving DecidableEq, Repr

structure World where
  monitors : List Monitor
  /-- The incidents, their timelines and the intents; its monitor is not used. -/
  db : Db
  workers : ℕ → Phase
  ending : Option Ending
  /-- The monitors whose shadow mode was ended. -/
  ended : List ℕ
  /-- Those that were abandoned, and not resumed since. -/
  silenced : List ℕ

/-- What workers, operators and the end of shadow mode do. -/
inductive Action where
  /-- A check begins, with a copy of a row that may be old. -/
  | start (worker : ℕ) (copy : Monitor)
  | answer (worker : ℕ) (outcome : CheckResult) (now : ℤ)
  | advance (worker : ℕ) (held : Option AlertHold)
  | stop (worker : ℕ)
  | setPaused (monitorId : ℕ) (paused : Bool)
  | edit (monitorId : ℕ) (name : String) (failureWindowSeconds : ℤ)
  /-- The two writes of `deleteMonitor`. -/
  | deleteIncidents (actor : Actor) (monitorId : ℕ) (now : ℤ)
  | deleteRow (monitorId : ℕ)
  | createIncident (actor : Actor) (title : String) (severity : IncidentSeverity)
      (message : Option String)
  | acknowledge (actor : Actor) (incidentId : ℕ) (now : ℤ)
  /-- `seen` is what the operator's transaction read. -/
  | changeStatus (actor : Actor) (incidentId : ℕ) (seen next : IncidentStatus) (message : String)
      (now : ℤ)
  | postUpdate (actor : Actor) (incidentId : ℕ) (message : String) (internal : Bool)
  | changeSeverity (actor : Actor) (seen : Incident) (severity : IncidentSeverity)
  | lockFleet (mode : Mode) (organizationId : String) (bridgeId : ℕ)
  | findOpen
  | commit (now : ℤ)
  | rollback
  deriving DecidableEq, Repr

/-! ### The tables -/

/-- The row with an identifier. -/
def World.monitorRow (s : World) (id : ℕ) : Option Monitor :=
  s.monitors.find? fun row => row.id = id

/-- The tables as a transaction on one monitor sees them. -/
def World.view (s : World) (monitorId : Option ℕ) : Db :=
  { s.db with monitor := monitorId.bind s.monitorRow }

/-- The row that a transaction wrote goes back to its place. -/
def putRow (monitors : List Monitor) : Option Monitor → List Monitor
  | none => monitors
  | some row => monitors.map fun r => if r.id = row.id then row else r

def World.store (s : World) (db : Db) : World :=
  { s with
    monitors := putRow s.monitors db.monitor
    db := { db with monitor := none } }

/-- The row that the next transaction of a worker writes or locks. -/
def locks : Phase → Option ℕ
  | .recording monitor _ _ => some monitor.id
  | .opening updated _ _ => some updated.id
  | .resolving updated _ => some updated.id
  | _ => none

/-- Nobody else holds the lock of the row. -/
def World.free (s : World) (monitorId : ℕ) : Bool :=
  s.ending.all fun ending => !ending.fleet.contains monitorId

/-- Where a worker stands now. -/
def World.setPhase (s : World) (worker : ℕ) (phase : Phase) : World :=
  { s with workers := Function.update s.workers worker phase }

def World.mapRow (s : World) (monitorId : ℕ) (f : Monitor → Monitor) : World :=
  { s with monitors := s.monitors.map fun row => if row.id = monitorId then f row else row }

/-! ### The end of shadow mode -/

def endMessage : Mode → String
  | .cutover =>
    "Shadow mode ended: this incident was recorded for migration comparison and is closed with it. " ++
      "If the target is still failing, the next check opens a live incident that pages normally."
  | .abandon =>
    "Shadow mode ended without cutover: the monitor was paused and this comparison incident is " ++
      "closed with it."

/-- The open shadow incidents of a fleet. -/
def openShadow (db : Db) (organizationId : String) (fleet : List ℕ) : List ℕ :=
  (db.incidents.filter fun i =>
    i.monitorId.any fleet.contains && i.organizationId = organizationId && i.shadow &&
      i.source = .monitor && i.status ≠ .resolved).map (·.id)

/-- Closes one of them, with no word to anybody. -/
def closeShadow (mode : Mode) (now : ℤ) (db : Db) (incidentId : ℕ) : Db :=
  match db.incidents.find? fun i => i.id = incidentId && i.status ≠ .resolved with
  | none => db
  | some found =>
    (db.setIncident
      { found with
        status := .resolved
        resolvedAt := some now
        statusRevision := found.statusRevision + 1 }).addEvent incidentId .system none
      (endMessage mode) none

/-- A row of the fleet when the transaction commits. -/
def endedRow (mode : Mode) (row : Monitor) : Monitor :=
  let row := { row with shadowBridgeId := none }
  match mode with
  | .cutover => row
  | .abandon => setMonitorPaused row true

/-! ### Steps -/

/-- A step happens where its worker, row or incident is there, and no lock of another keeps it. -/
def step (s : World) : Action → Option World
  | .start worker copy =>
    match s.workers worker with
    | .idle => some (s.setPhase worker (.probing copy))
    | .finished => some (s.setPhase worker (.probing copy))
    | _ => none
  | .answer worker outcome now =>
    match s.workers worker with
    | .probing monitor => some (s.setPhase worker (.recording monitor outcome now))
    | _ => none
  | .advance worker held =>
    let phase := s.workers worker
    if (locks phase).all s.free then
      let (db, next) := advance held (s.view (locks phase)) phase
      some ((s.store db).setPhase worker next)
    else none
  | .stop worker => some (s.setPhase worker .idle)
  | .setPaused monitorId paused =>
    if s.free monitorId then
      some
        { s.mapRow monitorId fun row => setMonitorPaused row paused with
          silenced := if paused then s.silenced else s.silenced.filter (· ≠ monitorId) }
    else none
  | .edit monitorId name failureWindowSeconds =>
    if s.free monitorId then
      some (s.mapRow monitorId fun row => updateMonitor row name failureWindowSeconds)
    else none
  | .deleteIncidents actor monitorId now =>
    (s.monitors.find? fun row =>
        row.id = monitorId && row.organizationId = actor.organizationId).map fun monitor =>
      { s with db := deleteMonitorIncidents s.db actor.userId monitor now }
  | .deleteRow monitorId =>
    if s.free monitorId then
      some
        { s with
          monitors := s.monitors.filter (·.id ≠ monitorId)
          db := deleteMonitorRow s.db monitorId }
    else none
  | .createIncident actor title severity message =>
    some { s with db := (Lifecycle.createIncident s.db actor title severity message).1 }
  | .acknowledge actor incidentId now =>
    (Lifecycle.acknowledgeIncident s.db actor incidentId now).map fun changed =>
      { s with db := changed.1 }
  | .changeStatus actor incidentId seen next message now =>
    if (Lifecycle.findIncident s.db actor.organizationId incidentId).isSome then
      (changeIncidentStatus s.db actor.userId incidentId seen next message now).map fun db =>
        { s with db }
    else none
  | .postUpdate actor incidentId message internal =>
    (Lifecycle.findIncident s.db actor.organizationId incidentId).bind fun incident =>
      if incident.status = .resolved then none
      else
        some { s with db := (Lifecycle.postIncidentUpdate s.db actor incident message internal).1 }
  | .changeSeverity actor seen severity =>
    if seen.status = .resolved ∨ seen.severity = severity then none
    else
      (Lifecycle.changeIncidentSeverity s.db actor seen severity).map fun changed =>
        { s with db := changed.1 }
  | .lockFleet mode organizationId bridgeId =>
    match s.ending with
    | some _ => none
    | none =>
      let fleet := s.monitors.filter fun row =>
        row.shadowBridgeId = some bridgeId && row.organizationId = organizationId
      some { s with ending := some ⟨mode, organizationId, fleet.map (·.id), none⟩ }
  | .findOpen =>
    match s.ending with
    | some ⟨mode, organizationId, fleet, none⟩ =>
      some
        { s with
          ending := some ⟨mode, organizationId, fleet, openShadow s.db organizationId fleet⟩ }
    | _ => none
  | .commit now =>
    match s.ending with
    | some ⟨mode, _, fleet, some found⟩ =>
      some
        { s with
          monitors := s.monitors.map fun row =>
            if fleet.contains row.id then endedRow mode row else row
          db := found.foldl (closeShadow mode now) s.db
          ending := none
          ended := fleet ++ s.ended
          silenced := if mode = .abandon then fleet ++ s.silenced else s.silenced }
    | _ => none
  | .rollback => s.ending.map fun _ => { s with ending := none }

/-- `organizationOf` is the organization of each monitor, which never changes; identifiers are
unique. -/
def machine (organizationOf : ℕ → String) (monitors : List Monitor) : Machine World Action where
  init :=
    { monitors :=
        if (monitors.map (·.id)).Nodup then
          monitors.filter fun row => row.organizationId = organizationOf row.id
        else []
      db :=
        { monitor := none, incidents := [], events := [], intents := [], nextId := 0,
          nextEventId := 0 }
      workers := fun _ => .idle
      ending := none
      ended := []
      silenced := [] }
  step := step

end Vigil.Bridge.Shadow
