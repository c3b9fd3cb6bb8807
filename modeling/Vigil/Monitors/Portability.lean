import Vigil.Monitors.Edit

/-! `monitors/portability.ts`: a file of an organization's monitors without their secrets, and the
monitors that are made from one.  The specs of the check types are whatever their authors wrote.  A
record of a file is read in a turn, with what the turn draws and how the database answers it. -/

namespace Vigil.Monitors.Portability

open Js.Text Js.Object Ledger.Canonical Config Target
open Edit (Method FormSection)
open Push (trim)

/-! ### Data -/

structure PortSpec where
  required : Bool
  default_ : Option ℤ

/-- `storedSchema` may draw a token. -/
structure TypeSpec where
  secretFields : List JsString
  nodup : secretFields.Nodup
  no_proto : protoKey ∉ secretFields
  storedSchema : JsString → StoredSchema
  targetSchema : JsString → Bool
  form : List FormSection
  port : Option PortSpec

/-- The spec with what its schema draws. -/
def TypeSpec.drawing (spec : TypeSpec) (drawn : JsString) : CheckTypeSpec where
  id := ""
  storedSchema := spec.storedSchema drawn
  secretFields := spec.secretFields
  nodup := spec.nodup
  no_proto := spec.no_proto

/-- What a monitor is made from. -/
structure MonitorInput where
  name : JsString
  checkType : JsString
  url : JsString
  port : Option ℤ
  method : Method
  intervalSeconds : ℤ
  timeoutMs : ℤ
  degradedThresholdMs : ℤ
  expectedStatusCode : Option ℤ
  bodyKeyword : Option JsString
  keywordAbsent : Bool
  tlsCheck : Bool
  tlsWarnDays : ℤ
  failureWindowSeconds : ℤ
  config : JsValue

/-- A record of the file. -/
structure ExportedMonitor extends MonitorInput where
  paused : Bool

/-- A row of a monitor. -/
structure Monitor extends ExportedMonitor where
  id : ℕ
  organizationId : ℕ

/-- The rows. -/
structure Db where
  rows : List Monitor

variable (specs : JsString → Option TypeSpec)

/-! ### The export -/

/-- The entries of `{ ...config }`, where `config` is an object. -/
def spread : JsValue → Option Entries
  | .object entries => some entries
  | .array items => some (items.mapIdx fun i item => (js (toString i), item))
  | _ => none

/-- The config with the mask for every secret. -/
def maskConfig (spec : TypeSpec) (config : JsValue) : JsValue :=
  if spec.secretFields = [] then config
  else match spread config with
    | none => config
    | some entries => .object (spec.secretFields.foldl redactField (.of entries)).own

def toExported (monitor : Monitor) : Option ExportedMonitor := do
  let spec ← specs monitor.checkType
  return { monitor.toExportedMonitor with
    url := maskTargetSecret monitor.url
    config := maskConfig spec monitor.config }

def exportMonitors (db : Db) (organizationId : ℕ) (monitorIds : List ℕ) :
    Option (List ExportedMonitor) :=
  (db.rows.filter fun row =>
    row.organizationId = organizationId && (monitorIds.isEmpty || monitorIds.contains row.id)).mapM
      (toExported specs)

/-! ### The file -/

/-- A method, as the file has it. -/
def methodValue : Method → JsValue
  | .get => .string (js "GET")
  | .head => .string (js "HEAD")

def intValue (n : ℤ) : JsValue := .number (.integer n)

def nullable {α : Type} (write : α → JsValue) : Option α → JsValue
  | none => .null
  | some value => write value

/-- The record of a monitor in the file. -/
def recordOf (monitor : ExportedMonitor) : JsValue :=
  .object
    [(js "name", .string monitor.name), (js "checkType", .string monitor.checkType),
      (js "url", .string monitor.url), (js "port", nullable intValue monitor.port),
      (js "method", methodValue monitor.method),
      (js "intervalSeconds", intValue monitor.intervalSeconds),
      (js "timeoutMs", intValue monitor.timeoutMs),
      (js "degradedThresholdMs", intValue monitor.degradedThresholdMs),
      (js "expectedStatusCode", nullable intValue monitor.expectedStatusCode),
      (js "bodyKeyword", nullable .string monitor.bodyKeyword),
      (js "keywordAbsent", .bool monitor.keywordAbsent), (js "tlsCheck", .bool monitor.tlsCheck),
      (js "tlsWarnDays", intValue monitor.tlsWarnDays),
      (js "failureWindowSeconds", intValue monitor.failureWindowSeconds),
      (js "config", monitor.config), (js "paused", .bool monitor.paused)]

/-- `z.string().min(minimum)` -/
def readString (minimum : ℕ) : JsValue → Option JsString
  | .string s => if minimum ≤ s.length then some s else none
  | _ => none

def readName (value : JsValue) : Option JsString :=
  (readString 1 value).filter fun name => name.length ≤ 200

/-- `z.number().int()` takes safe integers. -/
def readInt : JsValue → Option ℤ
  | .number (.integer n) => if -(2 ^ 53 - 1) ≤ n ∧ n ≤ 2 ^ 53 - 1 then some n else none
  | _ => none

/-- `z.boolean()` -/
def readBool : JsValue → Option Bool
  | .bool b => some b
  | _ => none

/-- `z.enum(["GET", "HEAD"])` -/
def readMethod : JsValue → Option Method
  | .string s =>
    if s = js "GET" then some .get else if s = js "HEAD" then some .head else none
  | _ => none

/-- `.nullable()` -/
def readNullable {α : Type} (read : JsValue → Option α) : JsValue → Option (Option α)
  | .null => some none
  | value => (read value).map some

/-- The value of a key of a record, `undefined` where it has no such key. -/
def fieldOf (entries : Entries) (name : String) : JsValue :=
  (entries.lookup (js name)).getD .undefined

/-- Reads a record of the file, if every field is there and of its kind. -/
def exportedMonitorSchema : JsValue → Option ExportedMonitor
  | .object entries => do
    let name ← readName (fieldOf entries "name")
    let checkType ← readString 1 (fieldOf entries "checkType")
    let url ← readString 1 (fieldOf entries "url")
    let port ← readNullable readInt (fieldOf entries "port")
    let method ← readMethod (fieldOf entries "method")
    let intervalSeconds ← readInt (fieldOf entries "intervalSeconds")
    let timeoutMs ← readInt (fieldOf entries "timeoutMs")
    let degradedThresholdMs ← readInt (fieldOf entries "degradedThresholdMs")
    let expectedStatusCode ← readNullable readInt (fieldOf entries "expectedStatusCode")
    let bodyKeyword ← readNullable (readString 0) (fieldOf entries "bodyKeyword")
    let keywordAbsent ← readBool (fieldOf entries "keywordAbsent")
    let tlsCheck ← readBool (fieldOf entries "tlsCheck")
    let tlsWarnDays ← readInt (fieldOf entries "tlsWarnDays")
    let failureWindowSeconds ← readInt (fieldOf entries "failureWindowSeconds")
    let paused ← readBool (fieldOf entries "paused")
    return { name, checkType, url, port, method, intervalSeconds, timeoutMs, degradedThresholdMs,
             expectedStatusCode, bodyKeyword, keywordAbsent, tlsCheck, tlsWarnDays,
             failureWindowSeconds, config := fieldOf entries "config", paused }
  | _ => none

/-! ### What the create form takes -/

/-- The values as `createMonitorSchema` leaves them. -/
def trimmed (input : MonitorInput) : MonitorInput :=
  { input with
    name := trim input.name
    checkType := trim input.checkType
    url := trim input.url
    bodyKeyword := input.bodyKeyword.bind fun keyword =>
      if (trim keyword).length > 0 then some (trim keyword) else none }

def within (value minimum maximum : ℤ) : Bool := minimum ≤ value && value ≤ maximum

/-- `monitorFields`, of trimmed values. -/
def fieldsValid (input : MonitorInput) : Bool :=
  within input.name.length 1 100 && within input.checkType.length 1 64 &&
    within input.url.length 1 2048 && input.port.all (within · 1 65535) &&
    within input.intervalSeconds 2 86400 && within input.timeoutMs 1000 30000 &&
    within input.degradedThresholdMs 100 30000 &&
    input.expectedStatusCode.all (within · 100 599) &&
    input.bodyKeyword.all (fun keyword => keyword.length ≤ 200) &&
    within input.tlsWarnDays 1 365 && within input.failureWindowSeconds 0 86400

/-- `value ?? {}` -/
def orEmpty : JsValue → JsValue
  | .null | .undefined => .object []
  | value => value

/-- Per-type validation. -/
def refineTarget (drawn : JsString) (input : MonitorInput) : Bool :=
  match specs input.checkType with
  | none => false
  | some spec =>
    spec.targetSchema input.url &&
      !(spec.port.any fun port => port.required && port.default_.isNone && input.port.isNone) &&
      ((spec.storedSchema drawn).parseValue (orEmpty input.config)).isSome

def createMonitorSchema (drawn : JsString) (input : MonitorInput) : Option MonitorInput :=
  if fieldsValid (trimmed input) && refineTarget specs drawn (trimmed input) then
    some (trimmed input)
  else none

/-- The flat columns that `monitorColumnsFor` keeps of validated values. -/
def flatColumns (spec : TypeSpec) (input : MonitorInput) : MonitorInput :=
  let uses formSection := spec.form.contains formSection
  { input with
    port := spec.port.bind fun port => input.port.or port.default_
    method := if uses .method then input.method else .get
    expectedStatusCode := if uses .expectedStatusCode then input.expectedStatusCode else none
    bodyKeyword := if uses .keyword then input.bodyKeyword else none
    keywordAbsent := if uses .keyword then input.keywordAbsent else false
    tlsCheck := if uses .tlsWarning then input.tlsCheck else false
    tlsWarnDays := if uses .tlsWarning then input.tlsWarnDays else 14 }

def monitorColumnsFor (spec : TypeSpec) (drawn : JsString) (input : MonitorInput) :
    Option MonitorInput := do
  let config ← mergeConfig (spec.drawing drawn) .undefined input.config none
  return { flatColumns spec input with config }

/-! ### The import -/

/-- What a turn draws, and how the database answers. -/
structure Environment where
  id : ℕ
  checkDraw : JsString
  draw : JsString
  createError : Option JsString
  pauseError : Option JsString

structure Turn where
  record : JsValue
  environment : Environment

/-- The error that a record is skipped with. -/
inductive SkipReason where
  | unknownType (checkType : JsString)
  | invalid
  | thrown (message : JsString)
  deriving DecidableEq

/-- What became of a record. -/
structure ImportOutcome where
  name : JsString
  checkType : JsString
  /-- Nothing where the record is imported. -/
  reason : Option SkipReason
  monitorId : Option ℕ
  secretsToReenter : List JsString
  deriving DecidableEq

def ImportOutcome.imported (outcome : ImportOutcome) : Bool := outcome.reason.isNone

/-- `createMonitor`, with the row that is inserted. -/
def createMonitor (environment : Environment) (organizationId : ℕ) (input : MonitorInput) :
    Except SkipReason Monitor :=
  match specs input.checkType with
  | none => .error (.unknownType input.checkType)
  | some spec =>
    match monitorColumnsFor spec environment.draw input with
    | none => .error .invalid
    | some columns =>
      match environment.createError with
      | some message => .error (.thrown message)
      | none =>
        .ok { toMonitorInput := columns, paused := false, id := environment.id, organizationId }

/-- `delete o[key]` -/
def delete (o : JsObject) (key : JsString) : JsObject :=
  { o with own := o.own.filter fun e => e.1 ≠ key }

structure Reentry where
  incoming : JsObject
  secretsToReenter : List JsString

def entryName (field key : JsString) : JsString := field ++ js "." ++ key

/-- A map of secrets whose masked entries are blank, and their names. -/
def restoreMap (field : JsString) (value : Entries) : JsObject × List JsString :=
  value.foldl (fun s entry =>
    if isMask entry.2 then
      (s.1.assign entry.1 (.string []), s.2 ++ [entryName field entry.1])
    else (s.1.assign entry.1 entry.2, s.2)) (.of [], [])

/-- A secret field loses its mask, and is named. -/
def reenterField (s : Reentry) (field : JsString) : Reentry :=
  let value := s.incoming.get field
  if isMask value then
    { incoming := delete s.incoming field, secretsToReenter := s.secretsToReenter ++ [field] }
  else
    match value with
    | .object entries =>
      let (restored, names) := restoreMap field entries
      { incoming := s.incoming.assign field (.object restored.own)
        secretsToReenter := s.secretsToReenter ++ names }
    | _ => s

/-- The config without masks, and the names of what has to be entered again. -/
def reenterConfig (spec : TypeSpec) (config : JsValue) : JsValue × List JsString :=
  if spec.secretFields = [] then (config, [])
  else match spread config with
    | none => (config, [])
    | some entries =>
      let s := spec.secretFields.foldl reenterField ⟨.of entries, []⟩
      (.object s.incoming.own, s.secretsToReenter)

/-- What a record is made into, for the create form. -/
def reentered (spec : TypeSpec) (record : ExportedMonitor) : MonitorInput :=
  { record.toMonitorInput with
    url := restoreTargetSecret record.url none
    config := (reenterConfig spec record.config).1 }

def secretsToReenter (spec : TypeSpec) (record : ExportedMonitor) : List JsString :=
  (reenterConfig spec record.config).2 ++
    if restoreTargetSecret record.url none ≠ record.url then [js "url"] else []

def outcomeOf (record : ExportedMonitor) (secretsToReenter : List JsString)
    (result : Except SkipReason ℕ) : ImportOutcome :=
  { name := record.name
    checkType := record.checkType
    reason := match result with
      | .error reason => some reason
      | .ok _ => none
    monitorId := result.toOption
    secretsToReenter }

/-- The monitor that a record is made into, before it is paused. -/
def created (organizationId : ℕ) (environment : Environment) (record : ExportedMonitor)
    (spec : TypeSpec) : Except SkipReason Monitor :=
  match createMonitorSchema specs environment.checkDraw (reentered spec record) with
  | none => .error .invalid
  | some validated => createMonitor specs environment organizationId validated

/-- What one turn adds to the table, and its outcome. -/
def importRecord (organizationId : ℕ) (record : ExportedMonitor) (environment : Environment) :
    List Monitor × ImportOutcome :=
  match specs record.checkType with
  | none => ([], outcomeOf record [] (.error (.unknownType record.checkType)))
  | some spec =>
    let outcome := outcomeOf record (secretsToReenter spec record)
    match created specs organizationId environment record spec with
    | .error reason => ([], outcome (.error reason))
    | .ok monitor =>
      if record.paused then
        -- the monitor is there when the update is sent
        match environment.pauseError with
        | some message => ([monitor], outcome (.error (.thrown message)))
        | none => ([{ monitor with paused := true }], outcome (.ok monitor.id))
      else ([monitor], outcome (.ok monitor.id))

/-- Why a file is refused as a whole. -/
inductive ImportError where
  /-- `monitorExportSchema.parse` throws. -/
  | invalidFile
  | newerVigil (version : ℤ)
  deriving DecidableEq

def exportFormatVersion : ℤ := 1

/-- What a file says before its records. -/
structure Header where
  format : JsString
  version : ℤ
  exportedAt : JsString

/-- What an export writes before the records. -/
def exportHeader (exportedAt : JsString) : Header :=
  { format := js "vigil.monitors", version := exportFormatVersion, exportedAt }

/-- The records of a file as its schema reads them, none where it refuses one. -/
def readRecords (turns : List Turn) : Option (List (ExportedMonitor × Environment)) :=
  turns.mapM fun turn =>
    (exportedMonitorSchema turn.record).map fun record => (record, turn.environment)

def importMonitors (organizationId : ℕ) (db : Db) (header : Header) (turns : List Turn) :
    Except ImportError (Db × List ImportOutcome) :=
  if header.format ≠ js "vigil.monitors" then .error .invalidFile
  else
    match readRecords turns with
    | none => .error .invalidFile
    | some records =>
      if header.version > exportFormatVersion then .error (.newerVigil header.version)
      else
        .ok (records.foldl (fun s r =>
          let (added, outcome) := importRecord specs organizationId r.1 r.2
          (⟨s.1.rows ++ added⟩, s.2 ++ [outcome])) (db, []))

/-! ### One outcome for each record -/

section Outcomes

variable {specs} {organizationId : ℕ}

/-- A monitor is made from the record, and the update that pauses it throws. -/
def PauseFails (specs : JsString → Option TypeSpec) (organizationId : ℕ)
    (r : ExportedMonitor × Environment) : Prop :=
  r.1.paused = true ∧ r.2.pauseError ≠ none ∧
    ∃ spec monitor, specs r.1.checkType = some spec ∧
      created specs organizationId r.2 r.1 spec = .ok monitor

def addedBy (specs : JsString → Option TypeSpec) (organizationId : ℕ)
    (r : ExportedMonitor × Environment) : List Monitor :=
  (importRecord specs organizationId r.1 r.2).1

def outcomeFor (specs : JsString → Option TypeSpec) (organizationId : ℕ)
    (r : ExportedMonitor × Environment) : ImportOutcome :=
  (importRecord specs organizationId r.1 r.2).2

section Cases

variable {record : ExportedMonitor} {environment : Environment} {spec : TypeSpec}

theorem importRecord_unknown (hspec : specs record.checkType = none) :
    importRecord specs organizationId record environment =
      ([], outcomeOf record [] (.error (.unknownType record.checkType))) := by
  simp only [importRecord, hspec]

theorem importRecord_error (hspec : specs record.checkType = some spec) {reason : SkipReason}
    (hcreated : created specs organizationId environment record spec = .error reason) :
    importRecord specs organizationId record environment =
      ([], outcomeOf record (secretsToReenter spec record) (.error reason)) := by
  simp only [importRecord, hspec, hcreated]

theorem importRecord_ok (hspec : specs record.checkType = some spec) {monitor : Monitor}
    (hcreated : created specs organizationId environment record spec = .ok monitor)
    (hpause : record.paused = true → environment.pauseError = none) :
    importRecord specs organizationId record environment =
      ([{ monitor with paused := if record.paused then true else monitor.paused }],
        outcomeOf record (secretsToReenter spec record) (.ok monitor.id)) := by
  simp only [importRecord, hspec, hcreated]
  by_cases hpaused : record.paused = true
  · rw [if_pos hpaused, hpause hpaused]
    simp [hpaused]
  · rw [if_neg hpaused]
    simp [hpaused]

theorem importRecord_left (hspec : specs record.checkType = some spec) {monitor : Monitor}
    (hcreated : created specs organizationId environment record spec = .ok monitor)
    (hpaused : record.paused = true) {message : JsString}
    (hpause : environment.pauseError = some message) :
    importRecord specs organizationId record environment =
      ([monitor], outcomeOf record (secretsToReenter spec record) (.error (.thrown message))) := by
  simp only [importRecord, hspec, hcreated, hpause]
  rw [if_pos hpaused]

end Cases

/-- What a turn does: nothing, one monitor that it reports, or one that it reports as skipped. -/
theorem importRecord_cases (specs : JsString → Option TypeSpec) (organizationId : ℕ)
    (r : ExportedMonitor × Environment) :
    (addedBy specs organizationId r = [] ∧ (outcomeFor specs organizationId r).monitorId = none ∧
      (outcomeFor specs organizationId r).imported = false ∧
      ¬PauseFails specs organizationId r) ∨
    (∃ monitor, addedBy specs organizationId r = [monitor] ∧
      (outcomeFor specs organizationId r).monitorId = some monitor.id ∧
      (outcomeFor specs organizationId r).imported = true ∧
      ¬PauseFails specs organizationId r) ∨
    (∃ monitor, addedBy specs organizationId r = [monitor] ∧
      (outcomeFor specs organizationId r).monitorId = none ∧
      (outcomeFor specs organizationId r).imported = false ∧
      PauseFails specs organizationId r) := by
  obtain ⟨record, environment⟩ := r
  unfold addedBy outcomeFor
  cases hspec : specs record.checkType with
  | none =>
    rw [importRecord_unknown hspec]
    refine .inl ⟨rfl, rfl, rfl, fun ⟨_, _, spec, _, h, _⟩ => ?_⟩
    rw [hspec] at h
    cases h
  | some spec =>
    cases hcreated : created specs organizationId environment record spec with
    | error reason =>
      rw [importRecord_error hspec hcreated]
      refine .inl ⟨rfl, rfl, rfl, fun ⟨_, _, spec', monitor, h, hok⟩ => ?_⟩
      obtain rfl := Option.some.inj (hspec.symm.trans h)
      rw [hcreated] at hok
      cases hok
    | ok monitor =>
      by_cases hfails : record.paused = true ∧ environment.pauseError ≠ none
      · obtain ⟨message, hpause⟩ := Option.ne_none_iff_exists'.mp hfails.2
        rw [importRecord_left hspec hcreated hfails.1 hpause]
        exact .inr (.inr ⟨monitor, rfl, rfl, rfl, hfails.1, hfails.2, spec, monitor, hspec,
          hcreated⟩)
      · have hpause : record.paused = true → environment.pauseError = none := fun hpaused =>
          not_not.mp fun hne => hfails ⟨hpaused, hne⟩
        rw [importRecord_ok hspec hcreated hpause]
        exact .inr (.inl ⟨_, rfl, rfl, rfl, fun h => hfails ⟨h.1, h.2.1⟩⟩)

theorem importRecord_name (record : ExportedMonitor) (environment : Environment) :
    (importRecord specs organizationId record environment).2.name = record.name ∧
      (importRecord specs organizationId record environment).2.checkType = record.checkType := by
  simp only [importRecord]
  cases specs record.checkType with
  | none => exact ⟨rfl, rfl⟩
  | some spec =>
    dsimp only
    cases created specs organizationId environment record spec with
    | error reason => exact ⟨rfl, rfl⟩
    | ok monitor =>
      dsimp only
      split
      · cases environment.pauseError <;> exact ⟨rfl, rfl⟩
      · exact ⟨rfl, rfl⟩

theorem foldl_importRecord (records : List (ExportedMonitor × Environment)) (db : Db)
    (outcomes : List ImportOutcome) :
    records.foldl (fun s r =>
        let (added, outcome) := importRecord specs organizationId r.1 r.2
        ((⟨s.1.rows ++ added⟩ : Db), s.2 ++ [outcome])) (db, outcomes) =
      (⟨db.rows ++ records.flatMap (addedBy specs organizationId)⟩,
        outcomes ++ records.map (outcomeFor specs organizationId)) := by
  induction records generalizing db outcomes with
  | nil => simp
  | cons r records ih =>
    rw [List.foldl_cons]
    dsimp only
    rw [ih]
    simp [addedBy, outcomeFor]

variable {turns : List Turn} {records : List (ExportedMonitor × Environment)} {value : JsValue}

theorem importMonitors_of_read (hread : readRecords turns = some records) (db : Db)
    (exportedAt : JsString) :
    importMonitors specs organizationId db (exportHeader exportedAt) turns =
      .ok (⟨db.rows ++ records.flatMap (addedBy specs organizationId)⟩,
        records.map (outcomeFor specs organizationId)) := by
  simp only [importMonitors, exportHeader, hread, foldl_importRecord]
  rw [if_neg (by simp), if_neg (by simp)]
  rfl

theorem importMonitors_of_unread (hread : readRecords turns = none) (db : Db)
    (exportedAt : JsString) :
    importMonitors specs organizationId db (exportHeader exportedAt) turns =
      .error .invalidFile := by
  simp only [importMonitors, exportHeader, hread]
  rw [if_neg (by simp)]

theorem readRecords_cons (turn : Turn) (turns : List Turn) :
    readRecords (turn :: turns) =
      (exportedMonitorSchema turn.record).bind fun record =>
        (readRecords turns).map fun records => (record, turn.environment) :: records := by
  rw [readRecords, List.mapM_cons]
  cases exportedMonitorSchema turn.record with
  | none => rfl
  | some record =>
    cases hrest : readRecords turns with
    | none =>
      rw [readRecords] at hrest
      simp [hrest]
    | some records =>
      rw [readRecords] at hrest
      simp [hrest]

/-- The file schema takes every record. -/
def Readable (turns : List Turn) : Prop :=
  ∀ turn ∈ turns, (exportedMonitorSchema turn.record).isSome

theorem readRecords_isSome_iff (turns : List Turn) :
    (readRecords turns).isSome ↔ Readable turns := by
  induction turns with
  | nil => simp [readRecords, Readable]
  | cons turn turns ih =>
    rw [readRecords_cons]
    cases hrecord : exportedMonitorSchema turn.record with
    | none => simp [Readable, hrecord]
    | some record =>
      rw [Option.bind_some, Option.isSome_map, ih]
      simp [Readable, hrecord]

theorem mem_readRecords (h : readRecords turns = some records) (r : ExportedMonitor × Environment) :
    r ∈ records ↔
      ∃ turn ∈ turns, exportedMonitorSchema turn.record = some r.1 ∧ turn.environment = r.2 := by
  induction turns generalizing records with
  | nil =>
    cases h
    simp
  | cons turn turns ih =>
    rw [readRecords_cons] at h
    obtain ⟨record, hrecord, hrest⟩ := Option.bind_eq_some_iff.mp h
    obtain ⟨rest, hread, rfl⟩ := Option.map_eq_some_iff.mp hrest
    rw [List.mem_cons, ih hread, List.exists_mem_cons_iff, hrecord, Option.some_inj, Prod.ext_iff]
    tauto

/-- An outcome is that of the record of the turn. -/
def Answers (turn : Turn) (outcome : ImportOutcome) : Prop :=
  ∃ entries, turn.record = .object entries ∧ fieldOf entries "name" = .string outcome.name ∧
    fieldOf entries "checkType" = .string outcome.checkType ∧
    (outcome.imported = true ↔ outcome.monitorId ≠ none)

theorem readString_eq {minimum : ℕ} {s : JsString} (h : readString minimum value = some s) :
    value = .string s := by
  cases value with
  | string t =>
    rw [readString] at h
    split at h
    · exact congrArg _ (Option.some.inj h)
    · cases h
  | _ => cases h

theorem readName_eq {s : JsString} (h : readName value = some s) : value = .string s :=
  readString_eq (Option.filter_eq_some_iff.mp h).1

theorem exportedMonitorSchema_strings {record : ExportedMonitor}
    (h : exportedMonitorSchema value = some record) :
    ∃ entries, value = .object entries ∧ fieldOf entries "name" = .string record.name ∧
      fieldOf entries "checkType" = .string record.checkType := by
  cases value with
  | object entries =>
    obtain ⟨name, hname, h⟩ := Option.bind_eq_some_iff.mp h
    obtain ⟨checkType, hcheckType, h⟩ := Option.bind_eq_some_iff.mp h
    -- the other fields
    iterate 13 obtain ⟨_, -, h⟩ := Option.bind_eq_some_iff.mp h
    cases h
    exact ⟨entries, rfl, readName_eq hname, readString_eq hcheckType⟩
  | _ => cases h

variable (specs) (organizationId)

/-- The turns whose records are imported. -/
def importedTurns (turns : List Turn) (outcomes : List ImportOutcome) : List Turn :=
  ((turns.zip outcomes).filter fun p => p.2.imported).map (·.1)

/-- Each record has one outcome, in order; those that are reported as imported, and no others, leave
a monitor, and without the others the file is imported alike. -/
def Accounts (db : Db) (exportedAt : JsString) (turns : List Turn) : Prop :=
  ∃ db' outcomes,
    importMonitors specs organizationId db (exportHeader exportedAt) turns = .ok (db', outcomes) ∧
    List.Forall₂ Answers turns outcomes ∧
    (∃ added, db'.rows = db.rows ++ added ∧
      added.map (·.id) = outcomes.filterMap ImportOutcome.monitorId) ∧
    importMonitors specs organizationId db (exportHeader exportedAt)
      (importedTurns turns outcomes) = .ok (db', outcomes.filter (·.imported))

variable {specs} {organizationId}

/-- More monitors are left than are reported where an update that pauses one throws. -/
theorem length_reported (records : List (ExportedMonitor × Environment)) :
    ((records.map (outcomeFor specs organizationId)).filterMap ImportOutcome.monitorId).length ≤
        (records.flatMap (addedBy specs organizationId)).length ∧
      ((∃ r ∈ records, PauseFails specs organizationId r) →
        ((records.map (outcomeFor specs organizationId)).filterMap ImportOutcome.monitorId).length <
          (records.flatMap (addedBy specs organizationId)).length) := by
  induction records with
  | nil => simp
  | cons r records ih =>
    obtain ⟨hle, hlt⟩ := ih
    rw [List.map_cons, List.flatMap_cons, List.length_append]
    rcases importRecord_cases specs organizationId r with
      ⟨hadded, hid, -, hfine⟩ | ⟨monitor, hadded, hid, -, hfine⟩ | ⟨monitor, hadded, hid, -, -⟩
    · rw [List.filterMap_cons_none hid, hadded, List.length_nil]
      refine ⟨by omega, ?_⟩
      rintro ⟨r', hr', hfails⟩
      have := hlt ⟨r', (List.mem_cons.mp hr').resolve_left fun h => hfine (h ▸ hfails), hfails⟩
      omega
    · rw [List.filterMap_cons_some hid, hadded, List.length_cons, List.length_singleton]
      refine ⟨by omega, ?_⟩
      rintro ⟨r', hr', hfails⟩
      have := hlt ⟨r', (List.mem_cons.mp hr').resolve_left fun h => hfine (h ▸ hfails), hfails⟩
      omega
    · rw [List.filterMap_cons_none hid, hadded, List.length_singleton]
      exact ⟨by omega, fun _ => by omega⟩

/-- Where no such update throws, the monitors are those that are reported. -/
theorem ids_reported (h : ∀ r ∈ records, ¬PauseFails specs organizationId r) :
    (records.flatMap (addedBy specs organizationId)).map (·.id) =
      (records.map (outcomeFor specs organizationId)).filterMap ImportOutcome.monitorId := by
  induction records with
  | nil => rfl
  | cons r records ih =>
    have hrest := ih fun r' hr' => h r' (List.mem_cons_of_mem r hr')
    rw [List.map_cons, List.flatMap_cons, List.map_append, hrest]
    rcases importRecord_cases specs organizationId r with
      ⟨hadded, hid, -, -⟩ | ⟨monitor, hadded, hid, -, -⟩ | ⟨monitor, -, -, -, hfails⟩
    · rw [List.filterMap_cons_none hid, hadded]
      rfl
    · rw [List.filterMap_cons_some hid, hadded]
      rfl
    · exact absurd hfails (h r List.mem_cons_self)

theorem imported_only (hread : readRecords turns = some records)
    (h : ∀ r ∈ records, ¬PauseFails specs organizationId r) :
    ∃ kept, readRecords (importedTurns turns (records.map (outcomeFor specs organizationId))) =
        some kept ∧
      kept.flatMap (addedBy specs organizationId) =
        records.flatMap (addedBy specs organizationId) ∧
      kept.map (outcomeFor specs organizationId) =
        (records.map (outcomeFor specs organizationId)).filter (·.imported) := by
  induction turns generalizing records with
  | nil =>
    cases hread
    exact ⟨[], rfl, rfl, rfl⟩
  | cons turn turns ih =>
    rw [readRecords_cons] at hread
    obtain ⟨record, hrecord, hrest⟩ := Option.bind_eq_some_iff.mp hread
    obtain ⟨rest, hrest', rfl⟩ := Option.map_eq_some_iff.mp hrest
    obtain ⟨kept, hkept, hadded, houtcomes⟩ :=
      ih hrest' fun r hr => h r (List.mem_cons_of_mem _ hr)
    have hcons : importedTurns (turn :: turns) (((record, turn.environment) :: rest).map
        (outcomeFor specs organizationId)) =
        (if (outcomeFor specs organizationId (record, turn.environment)).imported then [turn]
          else []) ++ importedTurns turns (rest.map (outcomeFor specs organizationId)) := by
      rw [importedTurns, List.map_cons, List.zip_cons_cons, List.filter_cons]
      split <;> rfl
    rw [hcons, List.map_cons, List.filter_cons, List.flatMap_cons]
    rcases importRecord_cases specs organizationId (record, turn.environment) with
      ⟨hnone, -, himported, -⟩ | ⟨monitor, hone, -, himported, -⟩ | ⟨monitor, -, -, -, hfails⟩
    · refine ⟨kept, ?_, ?_, ?_⟩
      · rw [himported]
        exact hkept
      · rw [hadded, hnone]
        rfl
      · rw [houtcomes, himported]
        rfl
    · refine ⟨(record, turn.environment) :: kept, ?_, ?_, ?_⟩
      · rw [himported, if_pos rfl, List.singleton_append, readRecords_cons, hrecord, hkept]
        rfl
      · rw [List.flatMap_cons, hadded]
      · rw [List.map_cons, houtcomes, himported, if_pos rfl]
    · exact absurd hfails (h _ List.mem_cons_self)

theorem answers_of_read (hread : readRecords turns = some records)
    (h : ∀ r ∈ records, ¬PauseFails specs organizationId r) :
    List.Forall₂ Answers turns (records.map (outcomeFor specs organizationId)) := by
  induction turns generalizing records with
  | nil =>
    cases hread
    exact .nil
  | cons turn turns ih =>
    rw [readRecords_cons] at hread
    obtain ⟨record, hrecord, hrest⟩ := Option.bind_eq_some_iff.mp hread
    obtain ⟨rest, hrest', rfl⟩ := Option.map_eq_some_iff.mp hrest
    refine .cons ?_ (ih hrest' fun r hr => h r (List.mem_cons_of_mem _ hr))
    obtain ⟨entries, hentries, hname, htype⟩ := exportedMonitorSchema_strings hrecord
    have hsame : (outcomeFor specs organizationId (record, turn.environment)).name = record.name ∧
        (outcomeFor specs organizationId (record, turn.environment)).checkType =
          record.checkType := importRecord_name record turn.environment
    refine ⟨entries, hentries, ?_, ?_, ?_⟩
    · rw [hsame.1, hname]
    · rw [hsame.2, htype]
    · rcases importRecord_cases specs organizationId (record, turn.environment) with
        ⟨-, hid, himported, -⟩ | ⟨monitor, -, hid, himported, -⟩ | ⟨monitor, -, hid, himported, -⟩
      · simp [hid, himported]
      · simp [hid, himported]
      · simp [hid, himported]

/-- A file is accounted for if and only if its schema takes every record and no update that pauses
a new monitor throws. -/
theorem accounts_iff (db : Db) (exportedAt : JsString) (turns : List Turn) :
    Accounts specs organizationId db exportedAt turns ↔
      Readable turns ∧ ∀ turn ∈ turns, ∀ record, exportedMonitorSchema turn.record = some record →
        ¬PauseFails specs organizationId (record, turn.environment) := by
  cases hread : readRecords turns with
  | none =>
    refine iff_of_false ?_ fun h => ?_
    · rintro ⟨db', outcomes, himport, -⟩
      rw [importMonitors_of_unread hread] at himport
      cases himport
    · have := (readRecords_isSome_iff turns).mpr h.1
      rw [hread] at this
      cases this
  | some records =>
    have hreadable : Readable turns := (readRecords_isSome_iff turns).mp (by rw [hread]; rfl)
    rw [and_iff_right hreadable]
    constructor
    · rintro ⟨db', outcomes, himport, -, ⟨added, hrows, hids⟩, -⟩ turn hturn record hrecord hpause
      rw [importMonitors_of_read hread] at himport
      cases himport
      obtain rfl := List.append_cancel_left hrows
      have hr := (mem_readRecords hread (record, turn.environment)).mpr ⟨turn, hturn, hrecord, rfl⟩
      have hlt := (length_reported records).2 ⟨_, hr, hpause⟩
      rw [← hids, List.length_map] at hlt
      exact absurd hlt (lt_irrefl _)
    · intro hfine
      have hnone : ∀ r ∈ records, ¬PauseFails specs organizationId r := by
        intro r hr
        obtain ⟨turn, hturn, hrecord, henvironment⟩ := (mem_readRecords hread r).mp hr
        have := hfine turn hturn r.1 hrecord
        rwa [henvironment] at this
      obtain ⟨kept, hkept, hadded, houtcomes⟩ := imported_only hread hnone
      refine ⟨_, _, importMonitors_of_read hread db exportedAt, answers_of_read hread hnone,
        ⟨_, rfl, ids_reported hnone⟩, ?_⟩
      rw [importMonitors_of_read hkept, hadded, houtcomes]

end Outcomes

end Vigil.Monitors.Portability
