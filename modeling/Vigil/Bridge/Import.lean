import Vigil.Bridge.Compare
import Vigil.Lib.Keyed

/-! An import through the bridge: `importSnapshot` of `importers/engine.ts` and `runBridgeImport` of
`importers/bridge/service.ts`.  The tables are those of one organization and one bridge, newest row
first, and the reads and writes of a run are one transaction.  How a record is translated, what the
schema of a monitor makes of it, and what the database refuses of a row are whatever they are. -/

namespace Vigil.Bridge.Import

open Lib.Keyed Compare

/-! ### Data -/

/-- A record of the source; `settings` is what only the translation reads. -/
structure SourceCheck (σ : Type) where
  sourceId : String
  name : String
  sourceType : String
  paused : Bool
  groupPath : List String
  settings : σ

inductive Translation (ρ : Type) where
  | build (input : ρ) (notes refusals : List String)
  | unsupported (detail : String)

/-- What the schema objects to, and where. -/
structure Issue where
  path : String
  message : String

/-- What the schema of a monitor makes of its input.  Without a token one is drawn that no other
monitor has. -/
structure MonitorInput where
  checkType : String
  url : String
  name : String
  token : Option String
  failureWindowSeconds : ℕ

/-- A row of a monitor, as far as an import reads or writes it. -/
structure Monitor where
  id : ℕ
  name : String
  url : String
  checkType : String
  parentId : Option ℕ
  token : Option String
  failureWindowSeconds : ℕ
  importSource : Option String
  importSourceId : Option String
  paused : Bool
  shadowBridgeId : Option ℕ

/-- What a line of the report is about. -/
inductive EntryKind where
  | monitor
  | group
  deriving DecidableEq

/-- A line of the report. -/
structure ReportEntry where
  kind : EntryKind
  sourceId : String
  label : String
  outcome : Outcome
  detail : String
  monitorId : Option ℕ

/-- A row of `bridge_monitors`. -/
structure Mapping where
  sourceId : String
  sourceName : String
  sourceType : String
  monitorId : Option ℕ
  outcome : Outcome
  detail : String
  compared : Bool
  failureWindowSeconds : Option ℕ

structure Store where
  monitors : List Monitor
  nextId : ℕ
  mappings : List Mapping

/-- What the import reads elsewhere. -/
structure Engine (σ ρ : Type) where
  provider : String
  translateCheck : SourceCheck σ → Translation ρ
  /-- `createMonitorSchema.safeParse` -/
  safeParse : ρ → Except (List Issue) MonitorInput
  /-- The schema and the database on a group of this name. -/
  parseGroup : String → Except String MonitorInput
  /-- Why the database refuses a monitor, if the row itself is why. -/
  refusal : MonitorInput → Option String
  /-- How it refuses a second monitor of the same source record. -/
  sourceTaken : String
  /-- Whether a push monitor of another organization has the token. -/
  tokenElsewhere : String → Bool
  sourceKey : String → String
  trim : String → String
  toLowerCase : String → String
  /-- `name.trim().slice(0, 100)` -/
  groupName : String → String
  includes : String → String → Bool

/-! ### Keys -/

section

variable {σ ρ : Type} (engine : Engine σ ρ)

def identityKey (checkType url name : String) : List String :=
  [checkType, engine.toLowerCase (engine.trim url), engine.toLowerCase (engine.trim name)]

def groupKey (parentId : Option ℕ) (name : String) : List String :=
  ["group", (parentId.map toString).getD "-", engine.toLowerCase (engine.trim name)]

/-- The keys of a row, those that are set later first. -/
def rowKeys (row : Monitor) : List (List String × ℕ) :=
  (if row.checkType = "group" then [(groupKey engine row.parentId row.name, row.id)] else []) ++
    [(identityKey engine row.checkType row.url row.name, row.id)]

def loadExisting (monitors : List Monitor) : List (List String × ℕ) :=
  monitors.flatMap (rowKeys engine)

/-- `loadImportedMonitors`, looked up. -/
def importedMonitor (monitors : List Monitor) (sourceId : String) : Option Monitor :=
  monitors.find? fun row =>
    row.importSource = some engine.provider && row.importSourceId = some (engine.sourceKey sourceId)

/-! ### Groups -/

/-- What a run has done so far. -/
structure Running where
  monitors : List Monitor
  nextId : ℕ
  existing : List (List String × ℕ)
  byPath : List (String × ℕ)
  groupEntries : List ReportEntry

def groupEntry (key name detail : String) (monitorId : Option ℕ) : ReportEntry :=
  { kind := .group, sourceId := key, label := name, outcome := .imported, detail, monitorId }

def reusedDetail : String :=
  "A group of this name already existed in this organisation and was reused rather than duplicated, so importing the same source twice does not produce two of everything."

/-- `outer` is the segment before, which the text names. -/
def createdDetail (parentId : Option ℕ) (outer : String) : String :=
  "Created as a Vigil group monitor" ++
    (if parentId.isNone then "" else " inside \"" ++ outer ++ "\"") ++
    ". A group's state is derived from its members rather than measured."

def newGroup (running : Running) (input : MonitorInput) (parentId : Option ℕ) : Monitor :=
  { id := running.nextId, name := input.name, url := input.url, checkType := input.checkType,
    parentId, token := none, failureWindowSeconds := input.failureWindowSeconds,
    importSource := none, importSourceId := none, paused := false, shadowBridgeId := none }

/-- `GroupTree.resolve`, where `seen` is the path before.  What it wrote before an error is undone. -/
def resolve (running : Running) : List String → List String → Option ℕ →
    Except String (Running × Option ℕ)
  | _, [], parentId => .ok (running, parentId)
  | seen, segment :: rest, parentId =>
    let path := seen ++ [segment]
    let name := engine.groupName segment
    if name = "" then resolve running path rest parentId
    else
      let key := "/".intercalate path
      match running.byPath.lookup key with
      | some known => resolve running path rest (some known)
      | none =>
        match running.existing.lookup (groupKey engine parentId name) with
        | some reused =>
          resolve
            { running with
              byPath := (key, reused) :: running.byPath
              groupEntries := running.groupEntries ++ [groupEntry key name reusedDetail none] }
            path rest (some reused)
        | none =>
          match engine.parseGroup name with
          | .error message => .error message
          | .ok input =>
            let group := newGroup running input parentId
            resolve
              { running with
                monitors := group :: running.monitors
                nextId := running.nextId + 1
                byPath := (key, group.id) :: running.byPath
                groupEntries := running.groupEntries ++
                  [groupEntry key name (createdDetail parentId (seen.getLastD "")) (some group.id)] }
              path rest (some group.id)

/-- The group of a check, and the note about it. -/
def inGroup (running : Running) (groupPath : List String) : Running × Option ℕ × List String :=
  let shown := " / ".intercalate groupPath
  if groupPath = [] then (running, none, [])
  else
    match resolve engine running [] groupPath none with
    | .ok (running, none) => (running, none, [])
    | .ok (running, some parentId) =>
      (running, some parentId, ["Kept in the group \"" ++ shown ++ "\"."])
    | .error message =>
      (running, none, ["The group \"" ++ shown ++
        "\" could not be created, so this monitor arrives without one: " ++ message])

/-! ### One check -/

def issueText (issue : Issue) : String :=
  if issue.path = "" then issue.message else issue.path ++ ": " ++ issue.message

/-- What the schema objects to is added to the refusals, unless one of them says so already. -/
def addIssue (refusals : List String) (issue : Issue) : List String :=
  if refusals.any fun text => engine.includes text issue.message then refusals
  else refusals ++ ["Vigil's monitor rules refuse it, " ++ issueText issue]

def alreadyImportedDetail (sourceLabel sourceId : String) (monitor : Monitor)
    (incomingName : String) : String :=
  let renamed :=
    if engine.toLowerCase (engine.trim incomingName) =
        engine.toLowerCase (engine.trim monitor.name) then ""
    else " The source now calls that record \"" ++ incomingName ++ "\". Either it was renamed on one side since the last import, which changes nothing, or this is a second installation whose record ids collide with the first one's, in which case import it into its own organisation so the two are kept apart."
  "Already imported. " ++ sourceLabel ++ " " ++ sourceId ++
    " was imported into this organisation by an earlier run and is the Vigil monitor \"" ++
    monitor.name ++ "\", so nothing was created and nothing about it was changed." ++ renamed ++
    " This is what makes running the same import twice safe. Delete that monitor first if you meant to import this record again."

def duplicateDetail : String :=
  "A monitor with this name, type and target already exists in this organisation, so nothing was created. This is what makes running the same import twice safe. Rename or delete the existing monitor if you meant to replace it."

def refusedDetail (refusals notes : List String) : String :=
  " ".intercalate refusals ++
    if notes = [] then "" else " Had it imported: " ++ " ".intercalate notes

def storeDetail (failure : String) : String :=
  "Vigil refused to store it: " ++ failure ++ ". The rest of the import was unaffected."

def importedDetail (checkType : String) (notes : List String) : String :=
  if notes = [] then "Imported as a Vigil " ++ checkType ++ " monitor with nothing changed."
  else "Imported as a Vigil " ++ checkType ++ " monitor. " ++ " ".intercalate notes

/-- `pushTokenTaken` -/
def pushTokenTaken (monitors : List Monitor) (token : String) : Bool :=
  engine.tokenElsewhere token ||
    monitors.any fun row => row.checkType = "push" && row.token = some token

/-- The token that is stored: none that another monitor has. -/
def storedToken (monitors : List Monitor) (input : MonitorInput) : Option String :=
  input.token.filter fun token => !(input.checkType = "push" && pushTokenTaken engine monitors token)

/-- The database on a new monitor of a source record. -/
def insertFailure (monitors : List Monitor) (check : SourceCheck σ) (input : MonitorInput) :
    Option String :=
  match engine.refusal input with
  | some failure => some failure
  | none =>
    if (importedMonitor engine monitors check.sourceId).isSome then some engine.sourceTaken else none

def newMonitor (running : Running) (check : SourceCheck σ) (input : MonitorInput)
    (parentId : Option ℕ) : Monitor :=
  { id := running.nextId, name := input.name, url := input.url, checkType := input.checkType,
    parentId, token := storedToken engine running.monitors input,
    failureWindowSeconds := input.failureWindowSeconds, importSource := some engine.provider,
    importSourceId := some (engine.sourceKey check.sourceId), paused := check.paused,
    shadowBridgeId := none }

def labelOf (check : SourceCheck σ) : String :=
  if engine.trim check.name = "" then check.sourceId else engine.trim check.name

def monitorEntry (check : SourceCheck σ) (outcome : Outcome) (detail : String)
    (monitorId : Option ℕ) : ReportEntry :=
  { kind := .monitor, sourceId := check.sourceId, label := labelOf engine check, outcome, detail,
    monitorId }

/-- A check that the schema accepts. -/
def storeCheck (running : Running) (check : SourceCheck σ) (input : MonitorInput)
    (parentId : Option ℕ) (notes : List String) : Running × ReportEntry :=
  let key := identityKey engine input.checkType input.url input.name
  if (running.existing.lookup key).isSome then
    (running, monitorEntry engine check .skipped duplicateDetail none)
  else
    match insertFailure engine running.monitors check input with
    | some failure => (running, monitorEntry engine check .skipped (storeDetail failure) none)
    | none =>
      let monitor := newMonitor engine running check input parentId
      let notes := notes ++ if check.paused then ["Imported paused, as it was in the source."] else []
      ({ running with
          monitors := monitor :: running.monitors
          nextId := running.nextId + 1
          existing := (key, monitor.id) :: running.existing },
        monitorEntry engine check (if notes = [] then .imported else .transformed)
          (importedDetail input.checkType notes) (some monitor.id))

/-- A check that no earlier run imported. -/
def importNew (running : Running) (check : SourceCheck σ) : Running × ReportEntry :=
  match engine.translateCheck check with
  | .unsupported detail => (running, monitorEntry engine check .unsupported detail none)
  | .build input notes refusals =>
    let (running, parentId, groupNotes) := inGroup engine running check.groupPath
    let notes := notes ++ groupNotes
    match engine.safeParse input with
    | .error issues =>
      let refusals := issues.foldl (addIssue engine) refusals
      (running, monitorEntry engine check .skipped (refusedDetail refusals notes) none)
    | .ok input =>
      if refusals ≠ [] then
        (running, monitorEntry engine check .skipped (refusedDetail refusals notes) none)
      else storeCheck engine running check input parentId notes

def importCheck (imported : String → Option Monitor) (running : Running) (check : SourceCheck σ) :
    Running × ReportEntry :=
  match imported check.sourceId with
  | some already =>
    (running, monitorEntry engine check .skipped
      (alreadyImportedDetail engine (engine.provider ++ " record") check.sourceId already
        (labelOf engine check)) none)
  | none => importNew engine running check

/-! ### A run -/

/-- The loop over the checks; an entry of a source id that comes again is set anew. -/
def importChecks (imported : String → Option Monitor) (running : Running)
    (checks : List (SourceCheck σ)) : Running × List (String × ReportEntry) :=
  checks.foldl (fun s check =>
    let (running, entry) := importCheck engine imported s.1 check
    (running, (check.sourceId, entry) :: s.2)) (running, [])

def Store.running (store : Store) : Running :=
  { monitors := store.monitors, nextId := store.nextId
    existing := loadExisting engine store.monitors, byPath := [], groupEntries := [] }

/-- The monitors after the import, and its entries about monitors and groups. -/
def importSnapshot (store : Store) (checks : List (SourceCheck σ)) :
    Running × List ReportEntry :=
  let imported := importedMonitor engine store.monitors
  let (running, checkEntries) := importChecks engine imported (store.running engine) checks
  (running, checks.filterMap (fun check => checkEntries.lookup check.sourceId) ++
    running.groupEntries)

def entryFor (entries : List ReportEntry) (sourceId : String) : Option ReportEntry :=
  entries.find? fun entry => entry.kind = .monitor && entry.sourceId = sourceId

def shadow (bridgeId : ℕ) (createdIds : List ℕ) (row : Monitor) : Monitor :=
  if createdIds.contains row.id then { row with shadowBridgeId := some bridgeId } else row

/-- What a check says on its mapping row, and what the entry of its record does. -/
structure Mapped where
  sourceId : String
  sourceName : String
  sourceType : String
  monitorId : Option ℕ
  outcome : Outcome
  detail : String
  compared : Bool
  failureWindowSeconds : Option ℕ

def failureWindowOf (monitors : List Monitor) (id : ℕ) : Option ℕ :=
  (monitors.reverse.find? fun row => row.id = id).map (·.failureWindowSeconds)

def mapped (comparableTypes : String → Bool) (monitors : List Monitor) (check : SourceCheck σ)
    (entry : ReportEntry) : Mapped :=
  let monitorId :=
    entry.monitorId.or ((importedMonitor engine monitors check.sourceId).map (·.id))
  { sourceId := check.sourceId
    sourceName := check.name
    sourceType := check.sourceType
    monitorId
    outcome := entry.outcome
    detail := entry.detail
    compared := monitorId.isSome && comparableTypes check.sourceType
    failureWindowSeconds := monitorId.bind (failureWindowOf monitors) }

def Mapped.row (m : Mapped) : Mapping :=
  { sourceId := m.sourceId, sourceName := m.sourceName, sourceType := m.sourceType,
    monitorId := m.monitorId, outcome := m.outcome, detail := m.detail, compared := m.compared,
    failureWindowSeconds := m.failureWindowSeconds }

/-- `onConflictDoUpdate` of a mapping row. -/
def Mapped.onto (m : Mapped) (row : Mapping) : Mapping :=
  { row with
    sourceName := m.sourceName
    sourceType := m.sourceType
    monitorId := m.monitorId.or row.monitorId
    outcome := m.outcome
    detail := m.detail
    compared := row.compared || m.compared
    failureWindowSeconds := row.failureWindowSeconds.or m.failureWindowSeconds }

def Mapped.write (mappings : List Mapping) (m : Mapped) : List Mapping :=
  upsert Mapping.sourceId m.sourceId m.onto m.row mappings

/-- `bridgeId` is the bridge's; a dry run rolls everything back. -/
def runBridgeImport (comparableTypes : String → Bool) (bridgeId : ℕ) (dryRun : Bool) (store : Store)
    (checks : List (SourceCheck σ)) : Store × List ReportEntry :=
  let (running, entries) := importSnapshot engine store checks
  if dryRun then (store, entries)
  else
    let createdIds := entries.filterMap (·.monitorId)
    let monitors := running.monitors.map (shadow bridgeId createdIds)
    let written := checks.filterMap fun check =>
      (entryFor entries check.sourceId).map (mapped engine comparableTypes monitors check)
    ({ monitors, nextId := running.nextId, mappings := written.foldl Mapped.write store.mappings },
      entries)

end

/-! ### The comparison -/

/-- What a report reads besides the mapping rows. -/
structure Evidence where
  at_ : ℤ
  coverage : List CoverageWindow
  manualNotes : List String
  consecutivePollFailures : ℕ
  /-- Nothing for a monitor that is not there. -/
  createdAt : ℕ → Option ℤ
  vigilChecks : ℕ → ℕ
  vigilEvents : ℕ → List VigilEvent
  sourceEvents : String → List SourceEvent

/-- The pair that `generateCutoverReport` makes of a mapping row. -/
def pairOf (evidence : Evidence) (row : Mapping) : ComparisonPair :=
  let gone := row.monitorId.any fun id => (evidence.createdAt id).isNone
  { sourceId := row.sourceId
    sourceName := row.sourceName
    sourceType := row.sourceType
    monitorId := if gone then none else row.monitorId.map toString
    outcome := row.outcome
    detail := row.detail
    compared := row.compared && !gone
    observedSince := row.monitorId.bind evidence.createdAt
    failureWindowSeconds := row.failureWindowSeconds.map fun seconds => (seconds : ℤ)
    vigilChecks := (row.monitorId.map evidence.vigilChecks).getD 0
    sourceEvents := evidence.sourceEvents row.sourceId
    vigilEvents := (row.monitorId.map evidence.vigilEvents).getD [] }

def verdictOn (evidence : Evidence) (mappings : List Mapping) : SafetyVerdict :=
  (compareBridge
    { at_ := evidence.at_
      pairs := mappings.map (pairOf evidence)
      coverage := evidence.coverage
      manualNotes := evidence.manualNotes
      consecutivePollFailures := evidence.consecutivePollFailures }).verdict

end Vigil.Bridge.Import
