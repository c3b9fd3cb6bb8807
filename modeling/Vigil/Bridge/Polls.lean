import Vigil.Bridge.Compare
import Vigil.Lib.Keyed
import Vigil.Lib.Run

/-! The evidence polls of the bridges: `pollBridgeEvidence` of `importers/bridge/service.ts` and the
readers of `evidence.ts`.  Any number of polls run at once, of one bridge or of several; each
statement and each answer of the source is a step of its own, and the source may answer anything. -/

namespace Vigil.Bridge.Polls

open Lib Keyed Compare

/-! ### The source -/

/-- A row of the feed, its fields as `str`, `dateOf` and `resourceOf` read them. -/
structure FeedRow where
  id : Option String
  resourceType : Option String
  resourceId : Option String
  cause : Option String
  status : Option String
  startedAt : Option ℤ
  acknowledgedAt : Option ℤ
  resolvedAt : Option ℤ

/-- An incident of the source, read from a row of the feed. -/
structure SourceIncident where
  id : String
  resourceType : Option String
  resourceId : Option String
  cause : Option String
  status : String
  startedAt : ℤ
  acknowledgedAt : Option ℤ
  resolvedAt : Option ℤ

def toIncident (row : FeedRow) : Option SourceIncident :=
  match row.id, row.startedAt with
  | some id, some startedAt =>
    some
      { id, resourceType := row.resourceType, resourceId := row.resourceId, cause := row.cause
        status := row.status.getD "unknown", startedAt, acknowledgedAt := row.acknowledgedAt
        resolvedAt := row.resolvedAt }
  | _, _ => none

/-- A page of a feed, and the link to the next one. -/
structure Page where
  rows : List FeedRow
  next : Option String

/-- What the reading of a feed has gathered. -/
structure EvidenceRead where
  incidents : List SourceIncident
  requestCount : ℕ
  skipped : ℕ

def EvidenceRead.empty : EvidenceRead := { incidents := [], requestCount := 0, skipped := 0 }

/-- One round of `readIncidentPages`; `requests` is how often the transport sent for the page. -/
def EvidenceRead.add (read : EvidenceRead) (page : Page) (requests : ℕ) : EvidenceRead :=
  { incidents := read.incidents ++ page.rows.filterMap toIncident
    requestCount := read.requestCount + requests
    skipped := read.skipped + page.rows.countP fun row => (toIncident row).isNone }

def utcDateString (at_ : ℤ) : String := String.ofList ((toISOString at_).toList.take 10)

/-- The dates that `readIncidentsWindow` asks for, both of them included. -/
structure WindowQuery where
  from_ : String
  to_ : String

def windowQuery (from_ to_ : ℤ) : WindowQuery :=
  { from_ := utcDateString from_, to_ := utcDateString to_ }

/-! ### The tables -/

/-- A bridge, as far as a poll reads it. -/
structure MigrationBridge where
  id : ℕ
  createdAt : ℤ
  /-- Whether it has a credential. -/
  connected : Bool

/-- A row of `bridge_source_incidents`. -/
structure Copy where
  bridgeId : ℕ
  sourceIncidentId : String
  resourceType : Option String
  resourceId : Option String
  cause : Option String
  status : String
  startedAt : ℤ
  acknowledgedAt : Option ℤ
  resolvedAt : Option ℤ
  firstSeenAt : ℤ
  lastSeenAt : ℤ

/-- The unique index. -/
def Copy.key (copy : Copy) : ℕ × String := (copy.bridgeId, copy.sourceIncidentId)

def SourceIncident.row (incident : SourceIncident) (bridgeId : ℕ) (at_ : ℤ) : Copy :=
  { bridgeId, sourceIncidentId := incident.id, resourceType := incident.resourceType
    resourceId := incident.resourceId, cause := incident.cause, status := incident.status
    startedAt := incident.startedAt, acknowledgedAt := incident.acknowledgedAt
    resolvedAt := incident.resolvedAt, firstSeenAt := at_, lastSeenAt := at_ }

/-- `onConflictDoUpdate`: an unresolved read takes nothing from a resolved copy. -/
def SourceIncident.onto (incident : SourceIncident) (at_ : ℤ) (copy : Copy) : Copy :=
  { copy with
    status :=
      if incident.resolvedAt.isSome then incident.status
      else if copy.resolvedAt.isSome then copy.status else incident.status
    cause :=
      if incident.resolvedAt.isSome then incident.cause
      else if copy.resolvedAt.isSome then copy.cause else incident.cause
    acknowledgedAt := incident.acknowledgedAt.or copy.acknowledgedAt
    resolvedAt := incident.resolvedAt.or copy.resolvedAt
    lastSeenAt := at_ }

def store (copies : List Copy) (bridgeId : ℕ) (incident : SourceIncident) (at_ : ℤ) : List Copy :=
  upsert Copy.key (bridgeId, incident.id) (incident.onto at_) (incident.row bridgeId at_) copies

inductive PollStatus where
  | ok
  | partial_
  | failed
  deriving DecidableEq

/-- What a poll writes of itself. -/
structure PollRow where
  bridgeId : ℕ
  windowFrom : ℤ
  windowTo : ℤ
  status : PollStatus
  detail : Option String
  requestCount : ℕ
  incidentsSeen : ℕ
  createdAt : ℤ

/-- What `migration_bridges` says of the polls of a bridge. -/
structure PollHealth where
  lastPolledAt : Option ℤ
  lastPollStatus : Option PollStatus
  lastPollError : Option String
  consecutivePollFailures : ℕ

/-- The tables that polls write. -/
structure Tables where
  copies : List Copy
  polls : List PollRow
  health : ℕ → PollHealth
  /-- Every incident that was ever written, and for which bridge: a history. -/
  written : List (ℕ × SourceIncident)

/-! ### One poll -/

inductive Stage where
  | open_ (read : EvidenceRead)
  | window (opened read : EvidenceRead)
  | storing (rest : List SourceIncident)
  | refetching (rest : List String)
  | refetched (incident : SourceIncident) (rest : List String)
  | failed
  | noting (row : PollRow)
  | done

/-- All that the source answered to one poll: a history. -/
structure Heard where
  openPages : List Page
  windowPages : List (WindowQuery × Page)
  records : List FeedRow

/-- A poll that is going on, with all that it has heard. -/
structure Poll where
  bridge : MigrationBridge
  from_ : ℤ
  now : ℤ
  seen : List SourceIncident
  requestCount : ℕ
  skipped : ℕ
  failure : Option String
  stage : Stage
  heard : Heard
  /-- The row that the poll wrote of itself. -/
  recorded : Option PollRow

def pollOverlapMs : ℤ := 24 * 3600000

def firstPollBackDays : ℤ := 1

def staleRefetchCap : ℕ := 100

def lastOk (polls : List PollRow) (bridgeId : ℕ) : Option ℤ :=
  ((polls.filter fun row => row.bridgeId = bridgeId && row.status = .ok).map (·.windowTo)).max?

/-- A poll that begins, with the window that it asks for. -/
def Poll.start (polls : List PollRow) (bridge : MigrationBridge) (now : ℤ) : Poll :=
  { bridge
    from_ :=
      match lastOk polls bridge.id with
      | some windowTo => windowTo - pollOverlapMs
      | none => bridge.createdAt - firstPollBackDays * 86400000
    now
    seen := []
    requestCount := 0
    skipped := 0
    failure := none
    stage := .open_ .empty
    heard := { openPages := [], windowPages := [], records := [] }
    recorded := none }

/-- The `Map` by id: a later incident takes the place of an earlier one. -/
def byId (incidents : List SourceIncident) : List SourceIncident :=
  (incidents.foldl (fun found incident =>
    upsert SourceIncident.id incident.id (fun _ => incident) incident found) []).reverse

/-- Both feeds are read. -/
def Poll.gather (p : Poll) (opened window : EvidenceRead) : Poll :=
  let seen := byId (window.incidents ++ opened.incidents)
  { p with
    seen
    requestCount := opened.requestCount + window.requestCount
    skipped := opened.skipped + window.skipped
    stage := .storing seen }

def openCopies (copies : List Copy) (bridgeId : ℕ) : List String :=
  (copies.filter fun copy => copy.bridgeId = bridgeId && copy.resolvedAt.isNone).map
    (·.sourceIncidentId)

/-- The open copies that neither feed had. -/
def stale (found : List String) (seen : List SourceIncident) : List String :=
  (found.filter fun id => !(seen.any fun incident => incident.id = id)).take staleRefetchCap

def skippedDetail (skipped : ℕ) : String :=
  toString skipped ++
    " source row(s) could not be parsed; this window is not counted as evidence coverage."

def Poll.status (p : Poll) : PollStatus :=
  if p.failure.isSome then .failed else if p.skipped > 0 then .partial_ else .ok

def Poll.row (p : Poll) (at_ : ℤ) : PollRow :=
  { bridgeId := p.bridge.id, windowFrom := p.from_, windowTo := p.now, status := p.status
    detail := p.failure.or (if p.skipped > 0 then some (skippedDetail p.skipped) else none)
    requestCount := p.requestCount, incidentsSeen := p.seen.length, createdAt := at_ }

/-- The health of a bridge after a poll. -/
def PollHealth.note (health : PollHealth) (row : PollRow) (at_ : ℤ) : PollHealth :=
  { lastPolledAt := some at_
    lastPollStatus := some row.status
    lastPollError := row.detail
    consecutivePollFailures :=
      if row.status = .failed then health.consecutivePollFailures + 1 else 0 }

/-- What happens to a poll: an answer of the source, or a write of its own. -/
inductive PollAction where
  /-- The source answers with the next page of the open incidents. -/
  | openPage (page : Page) (requests : ℕ)
  | windowPage (page : Page) (requests : ℕ)
  | store (at_ : ℤ)
  /-- The query finds the open copies, in whatever order. -/
  | look (found : List String)
  /-- The source answers about one incident; `none` is a 404. -/
  | refetch (record : Option FeedRow) (requests : ℕ)
  | storeRefetched (at_ : ℤ)
  /-- Whatever is thrown inside the `try`; a message is there if it is an `Error`. -/
  | fail (message : Option String)
  | record (at_ : ℤ)
  | note (at_ : ℤ)
  /-- The process ends, or a statement outside the `try` throws. -/
  | crash

def Stage.canFail : Stage → Bool
  | .open_ _ | .window _ _ | .storing _ | .refetching _ | .refetched _ _ => true
  | .failed | .noting _ | .done => false

/-- An action moves a poll on where its stage is the one that waits for it. -/
def pollStep (tables : Tables) (p : Poll) : PollAction → Option (Tables × Poll)
  | .openPage page requests =>
    match p.stage with
    | .open_ read =>
      let read := read.add page requests
      some (tables,
        { p with
          stage := if page.next.isSome then .open_ read else .window read .empty
          heard := { p.heard with openPages := p.heard.openPages ++ [page] } })
    | _ => none
  | .windowPage page requests =>
    match p.stage with
    | .window opened read =>
      let read := read.add page requests
      let heard := { p.heard with
        windowPages := p.heard.windowPages ++ [(windowQuery p.from_ p.now, page)] }
      some (tables,
        if page.next.isSome then { p with stage := .window opened read, heard }
        else { p.gather opened read with heard })
    | _ => none
  | .store at_ =>
    match p.stage with
    | .storing (incident :: rest) =>
      some (
        { tables with
          copies := store tables.copies p.bridge.id incident at_
          written := (p.bridge.id, incident) :: tables.written },
        { p with stage := .storing rest })
    | _ => none
  | .look found =>
    match p.stage with
    | .storing [] =>
      if found.isPerm (openCopies tables.copies p.bridge.id) then
        some (tables, { p with stage := .refetching (stale found p.seen) })
      else none
    | _ => none
  | .refetch record requests =>
    match p.stage with
    | .refetching (_ :: rest) =>
      some (tables,
        { p with
          requestCount := p.requestCount + requests
          stage :=
            match record.bind toIncident with
            | some incident => .refetched incident rest
            | none => .refetching rest
          heard := { p.heard with records := p.heard.records ++ record.toList } })
    | _ => none
  | .storeRefetched at_ =>
    match p.stage with
    | .refetched incident rest =>
      some (
        { tables with
          copies := store tables.copies p.bridge.id incident at_
          written := (p.bridge.id, incident) :: tables.written },
        { p with stage := .refetching rest })
    | _ => none
  | .fail message =>
    if p.stage.canFail then
      some (tables,
        { p with failure := some (message.getD "The evidence read failed."), stage := .failed })
    else none
  | .record at_ =>
    match p.stage with
    | .refetching [] | .failed =>
      let row := p.row at_
      some ({ tables with polls := row :: tables.polls },
        { p with stage := .noting row, recorded := some row })
    | _ => none
  | .note at_ =>
    match p.stage with
    | .noting row =>
      some (
        { tables with
          health := Function.update tables.health p.bridge.id
            ((tables.health p.bridge.id).note row at_) },
        { p with stage := .done })
    | _ => none
  | .crash => some (tables, { p with stage := .done })

/-! ### The machine -/

/-- The tables, and the polls. -/
structure State where
  tables : Tables
  /-- Every poll that was started. -/
  pollers : List Poll

inductive Action where
  | begin_ (bridge : MigrationBridge) (now : ℤ)
  | poll (i : ℕ) (action : PollAction)
  /-- The retention job deletes poll rows that are older. -/
  | prune (cutoff : ℤ)

/-- Polls of any bridges go on in any order. -/
def step (s : State) : Action → Option State
  | .begin_ bridge now =>
    some (if bridge.connected then
      { s with pollers := s.pollers ++ [Poll.start s.tables.polls bridge now] } else s)
  | .poll i action =>
    s.pollers[i]?.bind fun p => (pollStep s.tables p action).map fun (tables, p') =>
      { tables, pollers := s.pollers.set i p' }
  | .prune cutoff =>
    some
      { s with tables :=
        { s.tables with polls := s.tables.polls.filter fun row => cutoff ≤ row.createdAt } }

/-- No copy, no poll, and no health noted. -/
def initial : State where
  tables :=
    { copies := [], polls := []
      health := fun _ =>
        { lastPolledAt := none, lastPollStatus := none, lastPollError := none
          consecutivePollFailures := 0 }
      written := [] }
  pollers := []

def machine : Machine State Action := ⟨initial, step⟩

/-- The windows that a cutover report takes as coverage. -/
def okWindows (polls : List PollRow) (bridgeId : ℕ) : List CoverageWindow :=
  (polls.filter fun row => row.bridgeId = bridgeId && row.status = .ok).map fun row =>
    ⟨row.windowFrom, row.windowTo⟩

end Vigil.Bridge.Polls
