import Vigil.Ledger.SameJson
import Vigil.Monitors.Fleet
import Vigil.Monitors.Target

/-! Editing a monitor: `updateMonitor` and `ruleChanged` of `monitors/service.ts`, over the columns
that `monitorColumnsFor` of `types/persist.ts` settles.  The rows are those of the fleet with the
columns of the rule.  The form and the port of a type are whatever its author wrote. -/

namespace Vigil.Monitors.Edit

open Lib.Keyed Js.Text Ledger.Canonical Ledger.JsonText Ledger.SameJson CheckTypes Config Target

/-! ### Data -/

/-- The methods of an HTTP check. -/
inductive Method where
  | get
  | head
  deriving DecidableEq

/-- The parts of the form that a type may have. -/
inductive FormSection where
  | method
  | expectedStatusCode
  | keyword
  | tlsWarning
  | port
  | dnsRecord
  | expiryWarning
  | heartbeatGrace
  | manualStatus
  deriving DecidableEq

/-- `port` is nothing for a type that takes no port, and otherwise its default. -/
structure MonitorSpec extends CheckTypeSpec where
  form : List FormSection
  port : Option (Option ℕ)

/-- A row of a monitor, with the columns of its rule. -/
structure Monitor extends inFleet : Fleet.Monitor where
  url : JsString
  port : Option ℕ
  method : Method
  intervalSeconds : ℕ
  timeoutMs : ℕ
  degradedThresholdMs : ℕ
  expectedStatusCode : Option ℕ
  bodyKeyword : Option JsString
  keywordAbsent : Bool
  tlsCheck : Bool
  tlsWarnDays : ℕ
  failureWindowSeconds : ℕ
  specVersion : ℕ
  nextEvaluationAt : Option ℤ

/-- A field that is absent stays; `some none` stands for `null`. -/
structure UpdateMonitorInput extends inFleet : Fleet.UpdateMonitorInput where
  url : Option JsString
  port : Option (Option ℕ)
  method : Option Method
  intervalSeconds : Option ℕ
  timeoutMs : Option ℕ
  degradedThresholdMs : Option ℕ
  expectedStatusCode : Option (Option ℕ)
  bodyKeyword : Option (Option JsString)
  keywordAbsent : Option Bool
  tlsCheck : Option Bool
  tlsWarnDays : Option ℕ
  failureWindowSeconds : Option ℕ

/-- The rows, and the next identifier. -/
structure Db where
  rows : List Monitor
  nextId : ℕ

def Db.groups (db : Db) : Groups.Db :=
  ⟨db.rows.map fun row => row.inFleet.toMonitor, db.nextId⟩

/-! ### The columns -/

/-- The values that `monitorColumnsFor` is given. -/
structure MonitorSettings where
  port : Option ℕ
  method : Option Method
  expectedStatusCode : Option ℕ
  bodyKeyword : Option JsString
  keywordAbsent : Option Bool
  tlsCheck : Option Bool
  tlsWarnDays : Option ℕ
  config : JsValue

/-- The type and the config that are stored. -/
structure StoredConfigContext where
  checkType : String
  config : JsValue

/-- The columns that are written. -/
structure MonitorColumnWrite where
  port : Option ℕ
  method : Method
  expectedStatusCode : Option ℕ
  bodyKeyword : Option JsString
  keywordAbsent : Bool
  tlsCheck : Bool
  tlsWarnDays : ℕ
  config : JsValue

def uses (spec : MonitorSpec) (formSection : FormSection) : Bool := spec.form.contains formSection

/-- The port that is stored. -/
def storedPort (spec : MonitorSpec) (port : Option ℕ) : Option ℕ :=
  spec.port.bind fun default_ => port.or default_

/-- The columns that a type uses have the given values, and the others their defaults. -/
def monitorColumnsFor (spec : MonitorSpec) (input : MonitorSettings)
    (stored : Option StoredConfigContext) : Except Fleet.FleetError MonitorColumnWrite := do
  let config ← Fleet.storedConfig spec.toCheckTypeSpec ((stored.map (·.config)).getD .undefined)
    input.config (stored.map (·.checkType))
  .ok
    { port := storedPort spec input.port
      method := if uses spec .method then input.method.getD .get else .get
      expectedStatusCode :=
        if uses spec .expectedStatusCode then input.expectedStatusCode else none
      bodyKeyword := if uses spec .keyword then input.bodyKeyword else none
      keywordAbsent := if uses spec .keyword then input.keywordAbsent.getD false else false
      tlsCheck := if uses spec .tlsWarning then input.tlsCheck.getD false else false
      tlsWarnDays := if uses spec .tlsWarning then input.tlsWarnDays.getD 14 else 14
      config }

/-! ### The edit -/

/-- `next !== undefined && next !== current` -/
def differs {α : Type} [DecidableEq α] (next : Option α) (current : α) : Bool :=
  next.any fun value => value ≠ current

/-- `value ?? null` -/
def orNull : JsValue → JsValue
  | .undefined => .null
  | value => value

/-- The value is absent. -/
def isUndefined : JsValue → Bool
  | .undefined => true
  | _ => false

def configDiffers (next current : JsValue) : Bool :=
  !isUndefined next && stringify (orNull next) ≠ stringify (orNull current)

/-- Fields that make up the rule, as opposed to its labelling or routing. -/
def ruleChanged (existing : Monitor) (input : UpdateMonitorInput) : Bool :=
  differs input.checkType existing.checkType ||
    differs input.url existing.url ||
    differs input.port existing.port ||
    differs input.method existing.method ||
    differs input.intervalSeconds existing.intervalSeconds ||
    differs input.timeoutMs existing.timeoutMs ||
    differs input.degradedThresholdMs existing.degradedThresholdMs ||
    differs input.expectedStatusCode existing.expectedStatusCode ||
    differs input.bodyKeyword existing.bodyKeyword ||
    differs input.keywordAbsent existing.keywordAbsent ||
    differs input.tlsCheck existing.tlsCheck ||
    differs input.tlsWarnDays existing.tlsWarnDays ||
    differs input.failureWindowSeconds existing.failureWindowSeconds ||
    configDiffers input.config existing.config

def initialEvaluationAt (now : ℤ) (checkType : String) : Option ℤ :=
  if isScheduledKind (checkTypeKind checkType) then some now else none

/-- The input with the stored password put back. -/
def restored (existing : Monitor) (input : UpdateMonitorInput) : UpdateMonitorInput :=
  { input with url := input.url.map fun next => restoreTargetSecret next (some existing.url) }

/-- The submitted values, or those of the row. -/
def settingsOf (existing : Monitor) (patch : UpdateMonitorInput) : MonitorSettings :=
  { port := patch.port.getD existing.port
    method := patch.method.getD existing.method
    expectedStatusCode := patch.expectedStatusCode.getD existing.expectedStatusCode
    bodyKeyword := patch.bodyKeyword.getD existing.bodyKeyword
    keywordAbsent := patch.keywordAbsent.getD existing.keywordAbsent
    tlsCheck := patch.tlsCheck.getD existing.tlsCheck
    tlsWarnDays := patch.tlsWarnDays.getD existing.tlsWarnDays
    config := patch.config }

/-- The row that is written; `membership` has its name, type and parent. -/
def editedRow (now : ℤ) (existing : Monitor) (input : UpdateMonitorInput) (membership : Groups.Monitor)
    (columns : MonitorColumnWrite) : Monitor :=
  let patch := restored existing input
  let nextEvaluationAt :=
    if differs patch.intervalSeconds existing.intervalSeconds then some now
    else existing.nextEvaluationAt
  { existing with
    inFleet := { existing.inFleet with toMonitor := membership, config := columns.config }
    url := patch.url.getD existing.url
    port := columns.port
    method := columns.method
    intervalSeconds := patch.intervalSeconds.getD existing.intervalSeconds
    timeoutMs := patch.timeoutMs.getD existing.timeoutMs
    degradedThresholdMs := patch.degradedThresholdMs.getD existing.degradedThresholdMs
    expectedStatusCode := columns.expectedStatusCode
    bodyKeyword := columns.bodyKeyword
    keywordAbsent := columns.keywordAbsent
    tlsCheck := columns.tlsCheck
    tlsWarnDays := columns.tlsWarnDays
    failureWindowSeconds := patch.failureWindowSeconds.getD existing.failureWindowSeconds
    specVersion :=
      if ruleChanged existing input then existing.specVersion + 1 else existing.specVersion
    nextEvaluationAt :=
      if membership.checkType ≠ existing.checkType then
        initialEvaluationAt now membership.checkType
      else nextEvaluationAt }

section

variable (specs : String → MonitorSpec)

/-- The spec of a type; `drawn` is the token that a push monitor is given. -/
def specOf (drawn : JsString) (checkType : String) : MonitorSpec :=
  { specs checkType with
    toCheckTypeSpec := Fleet.specFor (fun id => (specs id).toCheckTypeSpec) drawn checkType }

def Db.find (db : Db) (organizationId : String) (id : ℕ) : Option Monitor :=
  db.rows.find? fun row => row.id = id && row.organizationId = organizationId

def findMonitorOrThrow (db : Db) (organizationId : String) (monitorId : ℕ) :
    Except Fleet.FleetError Monitor :=
  match db.find organizationId monitorId with
  | none => .error (.service (.notFound "Monitor not found."))
  | some row => .ok row

def rowId (row : Monitor) : ℕ := row.id

def Db.update (db : Db) (row : Monitor) :
    Except Fleet.FleetError (Db × Monitor) :=
  match Fleet.violatedIndex ((others rowId row db.rows).map (·.inFleet)) row.inFleet with
  | some index => .error (.duplicateKey index)
  | none => .ok ({ db with rows := replace rowId row db.rows }, row)

def updateMonitor (drawn : JsString) (now : ℤ) (db : Db) (organizationId : String)
    (monitorId : ℕ) (input : UpdateMonitorInput) : Except Fleet.FleetError (Db × Monitor) := do
  let existing ← findMonitorOrThrow db organizationId monitorId
  let patch := restored existing input
  let (_, membership) ← (Groups.updateMonitor db.groups organizationId monitorId
    patch.inFleet.toUpdateMonitorInput).mapError .service
  let columns ← monitorColumnsFor (specOf specs drawn membership.checkType)
    (settingsOf existing patch) (some { checkType := existing.checkType, config := existing.config })
  db.update (editedRow now existing input membership columns)

end

end Vigil.Monitors.Edit
