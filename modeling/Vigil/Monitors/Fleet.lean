import Vigil.Lib.Keyed
import Vigil.HighFreq.Capabilities
import Vigil.Monitors.GroupForest
import Vigil.Monitors.Push

/-! The table of monitors under the calls of `monitors/service.ts` and `highfreq/service.ts` that
make, edit, copy and delete its rows: the two unique indexes of `db/schema/monitors.ts`, and the
quota of the high-frequency plane.  The rows have the columns of the group model, those that the
indexes read, and those of the plane; a call that throws leaves the table as it was. -/

namespace Vigil.Monitors.Fleet

open Lib Lib.Keyed Js.Text Ledger.Canonical HighFreq.Capabilities Config Push

structure Monitor extends Groups.Monitor where
  config : JsValue
  highFrequency : Bool
  highFrequencyIntervalMs : Option ℤ
  importSource : Option String
  importSourceId : Option String

/-- The rows, and the next identifier. -/
structure Db where
  rows : List Monitor
  nextId : ℕ

/-- The table as the membership rules read it. -/
def Db.groups (db : Db) : Groups.Db := ⟨db.rows.map (·.toMonitor), db.nextId⟩

/-- What the service and the database throw. -/
inductive FleetError where
  | service (error : Groups.ServiceError)
  | app (message : String)
  /-- The stored schema refuses the settings. -/
  | invalidConfig
  | duplicateKey (index : String)
  deriving DecidableEq, Repr

/-- What a monitor is created from. -/
structure CreateMonitorInput extends Groups.CreateMonitorInput where
  config : JsValue

/-- `config` is `undefined` where nothing is said about it. -/
structure UpdateMonitorInput extends Groups.UpdateMonitorInput where
  config : JsValue

/-! ### The indexes -/

/-- `monitors_push_token_idx`, which is partial on the type. -/
def pushTokenKey (monitor : Monitor) : Option JsString :=
  if monitor.checkType = "push" then tokenOf monitor.config else none

/-- `monitors_import_source_idx`, which has no monitor that was made here. -/
def importSourceKey (monitor : Monitor) : Option (String × String × String) := do
  let importSource ← monitor.importSource
  let importSourceId ← monitor.importSourceId
  return (monitor.organizationId, importSource, importSourceId)

/-- The index that refuses a row beside the others, if one does. -/
def violatedIndex (others : List Monitor) (row : Monitor) : Option String :=
  if taken pushTokenKey others row then some "monitors_push_token_idx"
  else if taken importSourceKey others row then some "monitors_import_source_idx"
  else none

def Db.insert (db : Db) (row : Monitor) : Except FleetError (Db × Monitor) :=
  match violatedIndex db.rows row with
  | some index => .error (.duplicateKey index)
  | none => .ok ({ rows := row :: db.rows, nextId := db.nextId + 1 }, row)

def rowId (monitor : Monitor) : ℕ := monitor.id

def Db.update (db : Db) (row : Monitor) : Except FleetError (Db × Monitor) :=
  match violatedIndex (others rowId row db.rows) row with
  | some index => .error (.duplicateKey index)
  | none => .ok ({ db with rows := replace rowId row db.rows }, row)

/-! ### The calls -/

def Db.find (db : Db) (organizationId : String) (id : ℕ) : Option Monitor :=
  db.rows.find? fun monitor => monitor.id = id && monitor.organizationId = organizationId

def findMonitorOrThrow (db : Db) (organizationId : String) (monitorId : ℕ) :
    Except FleetError Monitor :=
  match db.find organizationId monitorId with
  | none => .error (.service (.notFound "Monitor not found."))
  | some monitor => .ok monitor

/-- The specs of the check types other than push are whatever their authors wrote. -/
def specFor (specs : String → CheckTypeSpec) (drawn : JsString) (checkType : String) :
    CheckTypeSpec :=
  if checkType = "push" then pushSpec drawn else { specs checkType with id := checkType }

def storedConfig (spec : CheckTypeSpec) (stored patch : JsValue) (storedCheckType : Option String) :
    Except FleetError JsValue :=
  match mergeConfig spec stored patch storedCheckType with
  | none => .error .invalidConfig
  | some config => .ok config

section

variable (specs : String → CheckTypeSpec)

/-- `drawn` is the token that the schema of a push monitor draws where none is submitted. -/
def createMonitor (drawn : JsString) (db : Db) (organizationId : String)
    (input : CreateMonitorInput) : Except FleetError (Db × Monitor) := do
  let (_, monitor) ← (Groups.createMonitor db.groups organizationId
    input.toCreateMonitorInput).mapError .service
  let config ← storedConfig (specFor specs drawn input.checkType) .undefined input.config none
  db.insert
    { monitor with
      config
      highFrequency := false
      highFrequencyIntervalMs := none
      importSource := none
      importSourceId := none }

def updateMonitor (drawn : JsString) (db : Db) (organizationId : String) (monitorId : ℕ)
    (patch : UpdateMonitorInput) : Except FleetError (Db × Monitor) := do
  let existing ← findMonitorOrThrow db organizationId monitorId
  let (_, updated) ← (Groups.updateMonitor db.groups organizationId monitorId
    patch.toUpdateMonitorInput).mapError .service
  let config ← storedConfig (specFor specs drawn updated.checkType) existing.config patch.config
    (some existing.checkType)
  db.update { existing with toMonitor := updated, config }

end

/-- `name` is what `cloneName` makes of the name of the source. -/
def cloneMonitor (db : Db) (organizationId : String) (monitorId : ℕ) (name : String) :
    Except FleetError (Db × Monitor) :=
  match db.find organizationId monitorId with
  | none => .error (.service (.notFound "That monitor does not exist."))
  | some source =>
    db.insert { source with id := db.nextId, name, importSource := none, importSourceId := none }

def isHighFrequencyOf (organizationId : String) (monitor : Monitor) : Bool :=
  monitor.organizationId = organizationId && monitor.highFrequency

/-- The monitors of an organization that are on the plane. -/
def Db.highFrequencyCount (db : Db) (organizationId : String) : ℕ :=
  db.rows.countP (isHighFrequencyOf organizationId)

def setHighFrequency (db : Db) (organizationId : String) (monitorId : ℕ)
    (settings : HighFrequencySettings) : Except FleetError (Db × Monitor) := do
  let existing ← findMonitorOrThrow db organizationId monitorId
  if !settings.enabled then
    db.update { existing with highFrequency := false, highFrequencyIntervalMs := none }
  else
    let intervalMs ← (requestedInterval existing.checkType settings.intervalMs).mapError .app
    let enabled := (others rowId existing db.rows).countP (isHighFrequencyOf organizationId)
    if enabled ≥ hfMaxMonitorsPerOrg then
      .error (.app ("This organization already has " ++ toString enabled ++
        " high-frequency monitors, which is the limit of " ++ toString hfMaxMonitorsPerOrg ++ "."))
    else db.update { existing with highFrequency := true, highFrequencyIntervalMs := some intervalMs }

def Monitor.release (monitorId : ℕ) (monitor : Monitor) : Monitor :=
  { monitor with toMonitor := monitor.toMonitor.release monitorId }

def deleteMonitor (db : Db) (organizationId : String) (monitorId : ℕ) :
    Except FleetError (Db × Option ℕ) := do
  let monitor ← findMonitorOrThrow db organizationId monitorId
  return ({ db with
    rows := (db.rows.filter (·.id ≠ monitorId)).map (Monitor.release monitorId) }, monitor.parentId)

/-- What an importer writes on a monitor that it has made. -/
def recordSource (db : Db) (organizationId : String) (monitorId : ℕ)
    (importSource importSourceId : String) : Except FleetError (Db × Monitor) := do
  let existing ← findMonitorOrThrow db organizationId monitorId
  db.update { existing with importSource := some importSource, importSourceId := some importSourceId }

/-! ### The machine -/

/-- The operations on the fleet. -/
inductive Action where
  | createMonitor (organizationId : String) (input : CreateMonitorInput) (drawn : JsString)
  | updateMonitor (organizationId : String) (monitorId : ℕ) (patch : UpdateMonitorInput)
    (drawn : JsString)
  | cloneMonitor (organizationId : String) (monitorId : ℕ) (name : String)
  | setHighFrequency (organizationId : String) (monitorId : ℕ) (settings : HighFrequencySettings)
  | deleteMonitor (organizationId : String) (monitorId : ℕ)
  | recordSource (organizationId : String) (monitorId : ℕ) (importSource importSourceId : String)

/-- The table after a call. -/
def Db.commit {α : Type} (db : Db) : Except FleetError (Db × α) → Db
  | .ok (db', _) => db'
  | .error _ => db

def step (specs : String → CheckTypeSpec) (db : Db) : Action → Option Db
  | .createMonitor organizationId input drawn =>
    some (db.commit (createMonitor specs drawn db organizationId input))
  | .updateMonitor organizationId monitorId patch drawn =>
    some (db.commit (updateMonitor specs drawn db organizationId monitorId patch))
  | .cloneMonitor organizationId monitorId name =>
    some (db.commit (cloneMonitor db organizationId monitorId name))
  | .setHighFrequency organizationId monitorId settings =>
    some (db.commit (setHighFrequency db organizationId monitorId settings))
  | .deleteMonitor organizationId monitorId =>
    some (db.commit (deleteMonitor db organizationId monitorId))
  | .recordSource organizationId monitorId importSource importSourceId =>
    some (db.commit (recordSource db organizationId monitorId importSource importSourceId))

def machine (specs : String → CheckTypeSpec) : Machine Db Action where
  init := ⟨[], 0⟩
  step := step specs

end Vigil.Monitors.Fleet
