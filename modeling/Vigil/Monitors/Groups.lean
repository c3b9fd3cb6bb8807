import Vigil.Lib.Run
import Vigil.Monitors.CheckTypes

/-! Monitor groups, `monitors/service.ts`: the parent that is stored on each monitor, and the calls
that write it.  Only the columns that the membership rules read are kept, and a call that throws
leaves the table as it was. -/

namespace Vigil.Monitors.Groups

open Lib CheckTypes

/-- A row of a monitor, as far as groups go. -/
structure Monitor where
  id : ℕ
  organizationId : String
  name : String
  checkType : String
  parentId : Option ℕ
  deriving DecidableEq, Repr

/-- The rows, and the next identifier. -/
structure Db where
  monitors : List Monitor
  nextId : ℕ
  deriving DecidableEq, Repr

/-- What the service throws. -/
inductive ServiceError where
  | notFound (message : String)
  | conflict (message : String)
  | error (message : String)
  deriving DecidableEq, Repr

/-- What a monitor is created from. -/
structure CreateMonitorInput where
  name : String
  checkType : String
  parentId : Option ℕ
  deriving DecidableEq, Repr

/-- A field that is absent stays; `some none` takes the monitor out of its group. -/
structure UpdateMonitorInput where
  name : Option String
  checkType : Option String
  parentId : Option (Option ℕ)
  deriving DecidableEq, Repr

def Monitor.isGroup (monitor : Monitor) : Bool := checkTypeKind monitor.checkType = .aggregate

def Db.find (db : Db) (organizationId : String) (id : ℕ) : Option Monitor :=
  db.monitors.find? fun monitor => monitor.id = id && monitor.organizationId = organizationId

/-- The parent on a row, which the walk of `assertParent` reads in any organization. -/
def Db.parentOf (db : Db) (id : ℕ) : Option ℕ :=
  (db.monitors.find? fun monitor => monitor.id = id).bind (·.parentId)

/-! ### The calls -/

def findMonitorOrThrow (db : Db) (organizationId : String) (monitorId : ℕ) :
    Except ServiceError Monitor :=
  match db.find organizationId monitorId with
  | none => .error (.notFound "Monitor not found.")
  | some monitor => .ok monitor

def requireSpec (id : String) : Except ServiceError Unit :=
  if hasSpec id then .ok () else .error (.error ("Unknown check type: " ++ id))

def maxGroupNesting : ℕ := 8

/-- Whether the walk to the root meets the monitor within so many steps. -/
def meets (db : Db) (monitorId : Option ℕ) : ℕ → Option ℕ → Bool
  | 0, _ => false
  | _ + 1, none => false
  | steps + 1, some cursor =>
    some cursor = monitorId || meets db monitorId steps (db.parentOf cursor)

/-- `monitorId` is `none` for a monitor that is being created. -/
def assertParent (db : Db) (organizationId : String) (monitorId : Option ℕ) (parentId : ℕ) :
    Except ServiceError Unit :=
  if some parentId = monitorId then .error (.conflict "A monitor cannot be a member of itself.")
  else
    match db.find organizationId parentId with
    | none => .error (.notFound "That group does not exist.")
    | some parent =>
      if !parent.isGroup then
        .error (.conflict ("\"" ++ parent.name ++ "\" is not a group, so it cannot have members."))
      else if meets db monitorId maxGroupNesting parent.parentId then
        .error (.conflict "That would put this group inside one of its own members.")
      else .ok ()

/-- No group, or one that `assertParent` accepts. -/
def assertMembership (db : Db) (organizationId : String) (monitorId : Option ℕ) :
    Option ℕ → Except ServiceError Unit
  | none => .ok ()
  | some parentId => assertParent db organizationId monitorId parentId

def Db.insert (db : Db) (monitor : Monitor) : Db :=
  { monitors := monitor :: db.monitors, nextId := db.nextId + 1 }

def createMonitor (db : Db) (organizationId : String) (input : CreateMonitorInput) :
    Except ServiceError (Db × Monitor) := do
  requireSpec input.checkType
  assertMembership db organizationId none input.parentId
  let monitor : Monitor :=
    { id := db.nextId
      organizationId
      name := input.name
      checkType := input.checkType
      parentId := input.parentId }
  return (db.insert monitor, monitor)

/-- `name` is what `cloneName` makes of the name of the source. -/
def cloneMonitor (db : Db) (organizationId : String) (monitorId : ℕ) (name : String) :
    Except ServiceError (Db × Monitor) :=
  match db.find organizationId monitorId with
  | none => .error (.notFound "That monitor does not exist.")
  | some source =>
    let monitor := { source with id := db.nextId, name }
    .ok (db.insert monitor, monitor)

def Db.members (db : Db) (monitorId : ℕ) : ℕ :=
  db.monitors.countP fun monitor => monitor.parentId = some monitorId

/-- A group keeps its type while it has members. -/
def assertKeepsType (db : Db) (existing updated : Monitor) : Except ServiceError Unit :=
  let count := db.members existing.id
  if existing.isGroup && !updated.isGroup && count > 0 then
    .error (.conflict ("This group still has " ++ toString count ++ " member" ++
      (if count = 1 then "" else "s") ++ ". Move them out before changing its type."))
  else .ok ()

def updatedMonitor (existing : Monitor) (patch : UpdateMonitorInput) : Monitor :=
  { existing with
    name := patch.name.getD existing.name
    checkType := patch.checkType.getD existing.checkType
    parentId := patch.parentId.getD existing.parentId }

/-- The row is written. -/
def Db.update (db : Db) (monitorId : ℕ) (patch : UpdateMonitorInput) : Db :=
  { db with
    monitors := db.monitors.map fun monitor =>
      if monitor.id = monitorId then updatedMonitor monitor patch else monitor }

def updateMonitor (db : Db) (organizationId : String) (monitorId : ℕ) (patch : UpdateMonitorInput) :
    Except ServiceError (Db × Monitor) := do
  let existing ← findMonitorOrThrow db organizationId monitorId
  let updated := updatedMonitor existing patch
  requireSpec updated.checkType
  assertMembership db organizationId (some monitorId) (patch.parentId.getD none)
  assertKeepsType db existing updated
  return (db.update monitorId patch, updated)

/-- `ON DELETE SET NULL` of the group `monitorId`. -/
def Monitor.release (monitorId : ℕ) (monitor : Monitor) : Monitor :=
  { monitor with parentId := monitor.parentId.filter (· ≠ monitorId) }

def Db.remove (db : Db) (monitorId : ℕ) : Db :=
  { db with
    monitors := (db.monitors.filter (·.id ≠ monitorId)).map (Monitor.release monitorId) }

/-- The row goes and its members are released; the group that it was in is reported. -/
def deleteMonitor (db : Db) (organizationId : String) (monitorId : ℕ) :
    Except ServiceError (Db × Option ℕ) := do
  let monitor ← findMonitorOrThrow db organizationId monitorId
  return (db.remove monitorId, monitor.parentId)

/-! ### The machine -/

/-- The operations that write groups. -/
inductive Action where
  | createMonitor (organizationId : String) (input : CreateMonitorInput)
  | cloneMonitor (organizationId : String) (monitorId : ℕ) (name : String)
  | updateMonitor (organizationId : String) (monitorId : ℕ) (patch : UpdateMonitorInput)
  | deleteMonitor (organizationId : String) (monitorId : ℕ)
  deriving DecidableEq, Repr

/-- The table after a call. -/
def Db.commit {α : Type} (db : Db) : Except ServiceError (Db × α) → Db
  | .ok (db', _) => db'
  | .error _ => db

def step (db : Db) : Action → Option Db
  | .createMonitor organizationId input => some (db.commit (createMonitor db organizationId input))
  | .cloneMonitor organizationId monitorId name =>
    some (db.commit (cloneMonitor db organizationId monitorId name))
  | .updateMonitor organizationId monitorId patch =>
    some (db.commit (updateMonitor db organizationId monitorId patch))
  | .deleteMonitor organizationId monitorId =>
    some (db.commit (deleteMonitor db organizationId monitorId))

def machine : Machine Db Action where
  init := ⟨[], 0⟩
  step := step

end Vigil.Monitors.Groups
