import Vigil.Incidents.Store
import Vigil.Monitors.DailyStrip

/-! The public status page, `getPublicStatusPage` of `status-pages/service.ts`.  Its queries run
over the tables of every organization, and what it returns is made of the page, the monitors that it
lists and the incidents that are public on it: the page comes out the same when all other rows are
gone. -/

namespace Vigil.StatusPages.PublicPage

open Monitors.StatusController Monitors.UptimeSegments Monitors.DailyStrip Incidents.Store

/-! ### Tables -/

/-- An organization, as far as a status page shows it. -/
structure Organization where
  id : String
  name : String
  deriving DecidableEq, Repr

/-- Who may read a status page. -/
inductive Visibility where
  /-- `public` -/
  | anyone
  /-- `private` -/
  | members
  | password
  deriving DecidableEq, Repr

/-- A row of `status_pages`, as far as it decides what is shown. -/
structure StatusPage where
  id : ℕ
  organizationId : String
  slug : String
  name : String
  published : Bool
  visibility : Visibility
  showBranding : Bool
  deriving DecidableEq, Repr

structure StatusPageMonitor where
  statusPageId : ℕ
  monitorId : ℕ
  displayName : Option String
  sortOrder : ℤ
  deriving DecidableEq, Repr

/-- A row of `monitors`, with what a page shows of it and what it must not. -/
structure Monitor where
  id : ℕ
  organizationId : String
  name : String
  url : String
  config : List (String × String)
  checkType : String
  intervalSeconds : ℤ
  currentStatus : MonitorStatus
  paused : Bool
  shadowBridgeId : Option ℕ
  deriving DecidableEq, Repr

/-- A row of `monitor_checks`. -/
structure StoredCheck extends MonitorCheck where
  id : ℕ
  deriving DecidableEq, Repr

/-- A row of `incidents`, as far as a page reads it. -/
structure Incident where
  id : ℕ
  organizationId : String
  title : String
  status : IncidentStatus
  severity : IncidentSeverity
  source : IncidentSource
  monitorId : Option ℕ
  startedAt : ℤ
  resolvedAt : Option ℤ
  shadow : Bool
  deriving DecidableEq, Repr

/-- A row of `incident_events`. -/
structure IncidentEvent where
  id : ℕ
  incidentId : ℕ
  type : EventType
  status : Option IncidentStatus
  message : String
  internal : Bool
  createdAt : ℤ
  deriving DecidableEq, Repr

/-- The tables, each in the order in which a query meets its rows. -/
@[ext] structure Database where
  organizations : List Organization
  statusPages : List StatusPage
  statusPageMonitors : List StatusPageMonitor
  monitors : List Monitor
  checks : List StoredCheck
  incidents : List Incident
  incidentEvents : List IncidentEvent
  /-- `id` is the primary key of `monitors`. -/
  monitorKey : (monitors.map (·.id)).Nodup

/-! ### The page -/

/-- A monitor as the page shows it. -/
structure PublicComponent where
  name : String
  status : MonitorStatus
  paused : Bool
  uptime90dPct : Option ℚ
  dailyUptime : List DailyUptime

/-- An entry of a timeline as the page shows it. -/
structure PublicIncidentEvent where
  type : EventType
  status : Option IncidentStatus
  message : String
  createdAt : ℤ
  deriving DecidableEq, Repr

/-- An incident as the page shows it. -/
structure PublicIncident where
  id : ℕ
  title : String
  status : IncidentStatus
  severity : IncidentSeverity
  startedAt : ℤ
  resolvedAt : Option ℤ
  events : List PublicIncidentEvent
  deriving DecidableEq, Repr

/-- The state that the page shows at its top. -/
inductive Overall where
  | operational
  | degraded
  | outage
  deriving DecidableEq, Repr

/-- The whole of what a visitor is shown. -/
structure PublicStatusPage where
  name : String
  organizationName : String
  showBranding : Bool
  components : List PublicComponent
  activeIncidents : List PublicIncident
  recentIncidents : List PublicIncident
  overall : Overall

/-- What the query for the components selects. -/
structure ComponentRow where
  monitorId : ℕ
  internalName : String
  displayName : Option String
  status : MonitorStatus
  paused : Bool
  deriving DecidableEq, Repr

def findPage (db : Database) (slug : String) : Option StatusPage :=
  db.statusPages.find? fun page => page.slug = slug && page.published

def componentRow (entry : StatusPageMonitor) (monitor : Monitor) : ComponentRow where
  monitorId := monitor.id
  internalName := monitor.name
  displayName := entry.displayName
  status := monitor.currentStatus
  paused := monitor.paused

def entriesOf (db : Database) (page : StatusPage) : List StatusPageMonitor :=
  db.statusPageMonitors.filter fun entry => entry.statusPageId = page.id

/-- The rows of the join, before they are ordered. -/
def joinedRows (db : Database) (page : StatusPage) : List (ℤ × ComponentRow) :=
  (entriesOf db page).flatMap fun entry =>
    (db.monitors.filter fun monitor =>
        monitor.id = entry.monitorId && monitor.shadowBridgeId.isNone).map fun monitor =>
      (entry.sortOrder, componentRow entry monitor)

def componentRows (db : Database) (page : StatusPage) : List ComponentRow :=
  ((joinedRows db page).insertionSort fun a b => a.1 ≤ b.1).map (·.2)

def cadence (monitor : Monitor) : Cadence where
  id := monitor.id
  intervalSeconds := monitor.intervalSeconds
  checkType := monitor.checkType

/-- `uptimeSegments`, over the tables. -/
def segmentsOf (db : Database) (monitorIds : List ℕ) (windowStart windowEnd : ℤ) : List Segment :=
  uptimeSegments (db.checks.map StoredCheck.toMonitorCheck) (db.monitors.map cadence) monitorIds
    windowStart windowEnd

/-- Milliseconds as the microseconds of the database. -/
def utcSegment (segment : Segment) : UtcSegment where
  monitorId := segment.monitorId
  ok := segment.ok
  utcStart := segment.segStart * 1000
  utcEnd := segment.segEnd * 1000

/-- The sums of `uptimeByMonitor`, whose map has no entry for a monitor without segments. -/
def uptimePct (segments : List Segment) (monitorId : ℕ) : Option ℚ :=
  let group := segments.filter fun segment => segment.monitorId = monitorId
  let covered := coveredMs group
  if covered = 0 then none else some (round2 (upMs group / covered * 100))

/-- `order by monitor_id, checked_at desc, id desc` within a monitor. -/
def notEarlier (a b : StoredCheck) : Prop :=
  b.checkedAt < a.checkedAt ∨ a.checkedAt = b.checkedAt ∧ b.id ≤ a.id

instance : DecidableRel notEarlier := fun a b => by
  unfold notEarlier
  infer_instance

/-- `select distinct on (monitor_id)` -/
def latestChecks (checks : List StoredCheck) (monitorIds : List ℕ) : List StoredCheck :=
  let rows := checks.filter fun check => monitorIds.contains check.monitorId
  (rows.map (·.monitorId)).dedup.filterMap fun monitorId =>
    ((rows.filter fun row => row.monitorId = monitorId).insertionSort notEarlier).head?

def anyLatestUnhealthy (db : Database) (monitorIds : List ℕ) : Bool :=
  (latestChecks db.checks monitorIds).any fun row =>
    match row.verdict with
    | none => !row.ok
    | some verdict => verdict = .indeterminate || verdict = .down

/-- `now() - interval '14 days'` -/
def recentMs : ℤ := 14 * 86400000

def onThisPage (monitorIds : List ℕ) (incident : Incident) : Bool :=
  incident.source = .manual || incident.monitorId.any monitorIds.contains

/-- The incidents that the page may show, before those of one list are chosen. -/
def publicOn (organizationId : String) (monitorIds : List ℕ) (incident : Incident) : Bool :=
  incident.organizationId = organizationId && !incident.shadow && onThisPage monitorIds incident

def inList (active : Bool) (dbNow : ℤ) (incident : Incident) : Bool :=
  if active then incident.status ≠ .resolved
  else incident.status = .resolved && incident.resolvedAt.any fun at_ => dbNow - recentMs ≤ at_

def publicEvent (event : IncidentEvent) : PublicIncidentEvent where
  type := event.type
  status := event.status
  message := event.message
  createdAt := event.createdAt

/-- The incidents that a page shows, the latest first, up to ten active and twenty resolved. -/
def publicIncidents (db : Database) (organizationId : String) (monitorIds : List ℕ) (active : Bool)
    (dbNow : ℤ) : List PublicIncident :=
  let rows := ((db.incidents.filter fun incident =>
      publicOn organizationId monitorIds incident && inList active dbNow incident).insertionSort
        fun a b => b.startedAt ≤ a.startedAt).take (if active then 10 else 20)
  let events := (db.incidentEvents.filter fun event =>
      rows.any (·.id = event.incidentId) && event.type ≠ .system && !event.internal).insertionSort
        fun a b => b.id ≤ a.id
  rows.map fun incident =>
    { id := incident.id
      title := incident.title
      status := incident.status
      severity := incident.severity
      startedAt := incident.startedAt
      resolvedAt := incident.resolvedAt
      events := (events.filter fun event => event.incidentId = incident.id).map publicEvent }

def windowMs : ℤ := 90 * 86400000

/-- One component of the page, from the segments of all of them. -/
def component (segments : List Segment) (row : ComponentRow) : PublicComponent where
  name := row.displayName.getD row.internalName
  status := if row.paused then .unknown else row.status
  paused := row.paused
  uptime90dPct := uptimePct segments row.monitorId
  dailyUptime := dailyUptime (segments.map utcSegment) row.monitorId

def overall (components : List PublicComponent) (unmeasured : Bool)
    (activeIncidents : List PublicIncident) : Overall :=
  if components.any (·.status = .down) then .outage
  else if components.any (·.status = .degraded) || unmeasured || activeIncidents ≠ [] then .degraded
  else .operational

/-- The page of a slug: `now` is the clock of the process, `dbNow` that of the database. -/
def getPublicStatusPage (db : Database) (slug : String) (now dbNow : ℤ) : Option PublicStatusPage :=
  (findPage db slug).map fun page =>
    let org := db.organizations.find? fun organization => organization.id = page.organizationId
    let rows := componentRows db page
    let monitorIds := rows.map (·.monitorId)
    let segments := segmentsOf db monitorIds (now - windowMs) now
    let components := rows.map (component segments)
    let activeIncidents := publicIncidents db page.organizationId monitorIds true dbNow
    let recentIncidents := publicIncidents db page.organizationId monitorIds false dbNow
    let unknownIds :=
      (rows.filter fun row => !row.paused && row.status = .unknown).map (·.monitorId)
    let unmeasured := unknownIds.length > 0 && anyLatestUnhealthy db unknownIds
    { name := page.name
      organizationName := (org.map (·.name)).getD page.name
      showBranding := page.showBranding
      components
      activeIncidents
      recentIncidents
      overall := overall components unmeasured activeIncidents }

/-! ### What a page lists -/

/-- A monitor without what a probe dials. -/
def Monitor.withoutTarget (monitor : Monitor) : Monitor := { monitor with url := "", config := [] }

/-- Whether the page lists a monitor, which is not a shadow. -/
def lists (db : Database) (page : StatusPage) (monitor : Monitor) : Bool :=
  monitor.shadowBridgeId.isNone && db.statusPageMonitors.any fun entry =>
    entry.statusPageId = page.id && entry.monitorId = monitor.id

def listedMonitors (db : Database) (page : StatusPage) : List Monitor :=
  db.monitors.filter (lists db page)

def listedIds (db : Database) (page : StatusPage) : List ℕ := (listedMonitors db page).map (·.id)

/-- The incidents that are public on a page. -/
def pageIncidents (db : Database) (page : StatusPage) : List Incident :=
  db.incidents.filter (publicOn page.organizationId (listedIds db page))

/-- The lines on their timelines that are meant for the public. -/
def pageEvents (db : Database) (page : StatusPage) : List IncidentEvent :=
  db.incidentEvents.filter fun event =>
    (pageIncidents db page).any (·.id = event.incidentId) && event.type ≠ .system &&
      !event.internal

/-- The tables with nothing in them but a page and what it lists. -/
def onlyPage (db : Database) (page : StatusPage) : Database where
  organizations := db.organizations.filter fun organization =>
    organization.id = page.organizationId
  statusPages := [page]
  statusPageMonitors := db.statusPageMonitors.filter fun entry =>
    entry.statusPageId = page.id && (listedIds db page).contains entry.monitorId
  monitors := (listedMonitors db page).map Monitor.withoutTarget
  checks := db.checks.filter fun check => (listedIds db page).contains check.monitorId
  incidents := pageIncidents db page
  incidentEvents := pageEvents db page
  monitorKey := by
    rw [List.map_map]
    exact (List.filter_sublist.map _).nodup db.monitorKey

/-- Two databases agree on a page: without everything that it does not list they are the same. -/
def AgreeOn (slug : String) (db db' : Database) : Prop :=
  (findPage db slug).map (onlyPage db) = (findPage db' slug).map (onlyPage db')

/-! ### The rest is not read -/

theorem flatMap_filter_of_nil {α β : Type} {l : List α} {p : α → Bool} {f : α → List β}
    (h : ∀ a ∈ l, p a = false → f a = []) : (l.filter p).flatMap f = l.flatMap f := by
  induction l with
  | nil => rfl
  | cons a l ih =>
    have hrest := ih fun b hb => h b (List.mem_cons_of_mem a hb)
    cases ha : p a with
    | true => rw [List.filter_cons_of_pos ha, List.flatMap_cons, List.flatMap_cons, hrest]
    | false =>
      rw [List.filter_cons_of_neg (by rw [ha]; decide), List.flatMap_cons,
        h a List.mem_cons_self ha, hrest, List.nil_append]

variable {db : Database} {page : StatusPage}

theorem mem_listedIds {monitorId : ℕ} :
    monitorId ∈ listedIds db page ↔
      ∃ monitor ∈ db.monitors, lists db page monitor = true ∧ monitor.id = monitorId := by
  simp only [listedIds, listedMonitors, List.mem_map, List.mem_filter, and_assoc]

theorem lists_iff (monitor : Monitor) :
    lists db page monitor = true ↔ monitor.shadowBridgeId.isNone = true ∧
      ∃ entry ∈ db.statusPageMonitors, entry.statusPageId = page.id ∧
        entry.monitorId = monitor.id := by
  simp only [lists, Bool.and_eq_true, List.any_eq_true, decide_eq_true_eq]

theorem lists_of_id {monitor : Monitor} (hmem : monitor ∈ db.monitors)
    (h : monitor.id ∈ listedIds db page) : lists db page monitor = true := by
  obtain ⟨other, hother, hlists, hid⟩ := mem_listedIds.mp h
  obtain rfl := List.inj_on_of_nodup_map db.monitorKey hother hmem hid
  exact hlists

theorem monitors_onlyPage : (onlyPage db page).monitors =
    (db.monitors.filter (lists db page)).map Monitor.withoutTarget := rfl

theorem joinedRows_onlyPage : joinedRows (onlyPage db page) page = joinedRows db page := by
  have hmonitors : ∀ entry ∈ entriesOf db page,
      ((onlyPage db page).monitors.filter fun monitor =>
          monitor.id = entry.monitorId && monitor.shadowBridgeId.isNone).map
        (fun monitor => (entry.sortOrder, componentRow entry monitor)) =
      (db.monitors.filter fun monitor =>
          monitor.id = entry.monitorId && monitor.shadowBridgeId.isNone).map
        fun monitor => (entry.sortOrder, componentRow entry monitor) := by
    intro entry hentry
    obtain ⟨hmem, hpage⟩ := List.mem_filter.mp hentry
    rw [decide_eq_true_eq] at hpage
    have hlisted : ∀ monitor ∈ db.monitors,
        (decide (monitor.id = entry.monitorId) && monitor.shadowBridgeId.isNone &&
            lists db page monitor) =
          (decide (monitor.id = entry.monitorId) && monitor.shadowBridgeId.isNone) := by
      intro monitor _
      rw [Bool.and_eq_left_iff_imp, Bool.and_eq_true, decide_eq_true_eq]
      rintro ⟨hid, hshadow⟩
      exact (lists_iff monitor).mpr ⟨hshadow, entry, hmem, hpage, hid.symm⟩
    rw [monitors_onlyPage, List.filter_map, List.map_map, List.filter_filter]
    exact congrArg (List.map _) (List.filter_congr hlisted)
  have hentries : ∀ entry ∈ entriesOf db page,
      (listedIds db page).contains entry.monitorId = false →
      ((db.monitors.filter fun monitor =>
          monitor.id = entry.monitorId && monitor.shadowBridgeId.isNone).map
        fun monitor => (entry.sortOrder, componentRow entry monitor)) = [] := by
    intro entry hentry hlisted
    obtain ⟨hmem, hpage⟩ := List.mem_filter.mp hentry
    rw [decide_eq_true_eq] at hpage
    rw [List.map_eq_nil_iff, List.filter_eq_nil_iff]
    intro monitor hmonitor hjoin
    rw [Bool.and_eq_true, decide_eq_true_eq] at hjoin
    have hlists := (lists_iff monitor).mpr ⟨hjoin.2, entry, hmem, hpage, hjoin.1.symm⟩
    rw [← Bool.not_eq_true, List.contains_iff_mem] at hlisted
    exact hlisted (mem_listedIds.mpr ⟨monitor, hmonitor, hlists, hjoin.1⟩)
  have hfilter : entriesOf (onlyPage db page) page =
      (entriesOf db page).filter fun entry =>
        (listedIds db page).contains entry.monitorId := by
    rw [entriesOf, onlyPage, List.filter_filter, entriesOf, List.filter_filter]
    refine List.filter_congr fun entry _ => ?_
    cases decide (entry.statusPageId = page.id) <;> simp
  rw [joinedRows, hfilter, flatMap_filter_of_nil, joinedRows]
  · exact List.flatMap_congr hmonitors
  · intro entry hentry hlisted
    rw [hmonitors entry hentry]
    exact hentries entry hentry hlisted

theorem componentRows_onlyPage : componentRows (onlyPage db page) page = componentRows db page := by
  rw [componentRows, joinedRows_onlyPage, componentRows]

/-- The rows of the page are those of the monitors that it lists. -/
theorem contains_componentRows (monitorId : ℕ) :
    ((componentRows db page).map (·.monitorId)).contains monitorId =
      (listedIds db page).contains monitorId := by
  rw [Bool.eq_iff_iff, List.contains_iff_mem, List.contains_iff_mem, mem_listedIds, componentRows,
    List.map_map, List.mem_map]
  simp only [(List.perm_insertionSort _ (joinedRows db page)).mem_iff]
  constructor
  · rintro ⟨row, hrow, rfl⟩
    obtain ⟨entry, hentry, hrow⟩ := List.mem_flatMap.mp hrow
    obtain ⟨monitor, hmonitor, rfl⟩ := List.mem_map.mp hrow
    simp only [entriesOf, List.mem_filter, Bool.and_eq_true, decide_eq_true_eq] at hentry hmonitor
    obtain ⟨hmem, hid, hshadow⟩ := hmonitor
    have hlists := (lists_iff monitor).mpr ⟨hshadow, entry, hentry.1, hentry.2, hid.symm⟩
    exact ⟨monitor, hmem, hlists, rfl⟩
  · rintro ⟨monitor, hmem, hlists, rfl⟩
    obtain ⟨hshadow, entry, hentry, hpage, hid⟩ := (lists_iff monitor).mp hlists
    have hrow : (entry.sortOrder, componentRow entry monitor) ∈ joinedRows db page := by
      refine List.mem_flatMap.mpr ⟨entry, List.mem_filter.mpr ⟨hentry, decide_eq_true hpage⟩, ?_⟩
      refine List.mem_map.mpr ⟨monitor, List.mem_filter.mpr ⟨hmem, ?_⟩, rfl⟩
      rw [Bool.and_eq_true, decide_eq_true_eq]
      exact ⟨hid.symm, hshadow⟩
    exact ⟨_, hrow, rfl⟩

section Listed

variable {monitorIds : List ℕ}

/-- A check of a listed monitor is joined with the same row. -/
theorem cadences_onlyPage {monitorId : ℕ} (h : monitorId ∈ listedIds db page) :
    ((onlyPage db page).monitors.map cadence).filter (fun monitor => monitor.id = monitorId) =
      (db.monitors.map cadence).filter fun monitor => monitor.id = monitorId := by
  rw [monitors_onlyPage, List.map_map, List.filter_map, List.filter_map, List.filter_filter]
  refine congrArg (List.map cadence) (List.filter_congr fun monitor hmem => ?_)
  show (decide (monitor.id = monitorId) && lists db page monitor) = decide (monitor.id = monitorId)
  rw [Bool.and_eq_left_iff_imp]
  intro hid
  obtain rfl : monitor.id = monitorId := of_decide_eq_true hid
  exact lists_of_id hmem h

/-- The checks and the cadences of other monitors are not read. -/
theorem segmentsOf_onlyPage (h : ∀ monitorId, monitorIds.contains monitorId =
    (listedIds db page).contains monitorId) (windowStart windowEnd : ℤ) :
    segmentsOf (onlyPage db page) monitorIds windowStart windowEnd =
      segmentsOf db monitorIds windowStart windowEnd := by
  have hselected : selected ((onlyPage db page).checks.map StoredCheck.toMonitorCheck)
        ((onlyPage db page).monitors.map cadence) monitorIds windowStart windowEnd =
      selected (db.checks.map StoredCheck.toMonitorCheck) (db.monitors.map cadence) monitorIds
        windowStart windowEnd := by
    have hother : ∀ (monitors : List Cadence) (check : StoredCheck),
        (listedIds db page).contains check.monitorId = false →
        List.filter (fun row : Joined => decide (monitorIds.contains row.check.monitorId ∧
            measured row.check ∧ row.check.checkedAt < windowEnd ∧
            row.check.checkedAt > windowStart - horizonSeconds row.monitor * 1000))
          ((monitors.filter fun monitor => monitor.id = check.monitorId).map fun monitor =>
            { check := check.toMonitorCheck, monitor }) = [] := by
      intro monitors check hlisted
      refine List.filter_eq_nil_iff.mpr fun row hrow hscan => ?_
      obtain ⟨monitor, -, rfl⟩ := List.mem_map.mp hrow
      have hscan := (of_decide_eq_true hscan).1
      rw [h, hlisted] at hscan
      cases hscan
    rw [selected, selected, List.filter_flatMap, List.filter_flatMap, List.flatMap_map,
      List.flatMap_map, onlyPage, flatMap_filter_of_nil]
    · refine List.flatMap_congr fun check _ => ?_
      cases hlisted : (listedIds db page).contains check.monitorId with
      | false => rw [hother _ check hlisted, hother _ check hlisted]
      | true => 
        have hcadences := cadences_onlyPage (List.contains_iff_mem.mp hlisted)
        exact congrArg (fun monitors => List.filter _ (List.map _ monitors)) hcadences
    · exact fun check _ => hother _ check
  rw [segmentsOf, segmentsOf, uptimeSegments, uptimeSegments, hselected]

theorem anyLatestUnhealthy_onlyPage (h : ∀ monitorId ∈ monitorIds, monitorId ∈ listedIds db page) :
    anyLatestUnhealthy (onlyPage db page) monitorIds = anyLatestUnhealthy db monitorIds := by
  have hchecks : (onlyPage db page).checks.filter
        (fun check => monitorIds.contains check.monitorId) =
      db.checks.filter fun check => monitorIds.contains check.monitorId := by
    rw [onlyPage, List.filter_filter]
    refine List.filter_congr fun check _ => ?_
    rw [Bool.and_eq_left_iff_imp, List.contains_iff_mem, List.contains_iff_mem]
    exact h check.monitorId
  rw [anyLatestUnhealthy, latestChecks, hchecks, anyLatestUnhealthy, latestChecks]

theorem events_onlyPage {rows : List Incident}
    (h : ∀ incident ∈ rows, incident ∈ pageIncidents db page) :
    (onlyPage db page).incidentEvents.filter (fun event =>
        rows.any (·.id = event.incidentId) && event.type ≠ .system && !event.internal) =
      db.incidentEvents.filter fun event =>
        rows.any (·.id = event.incidentId) && event.type ≠ .system && !event.internal := by
  rw [onlyPage, pageEvents, List.filter_filter]
  refine List.filter_congr fun event _ => ?_
  rw [Bool.and_eq_left_iff_imp, Bool.and_eq_true, Bool.and_eq_true]
  rintro ⟨⟨hrow, htype⟩, hinternal⟩
  obtain ⟨incident, hmem, hid⟩ := List.any_eq_true.mp hrow
  have hincident : (pageIncidents db page).any (·.id = event.incidentId) = true :=
    List.any_eq_true.mpr ⟨incident, h incident hmem, hid⟩
  rw [hincident, htype, hinternal]
  rfl

theorem publicIncidents_onlyPage (h : ∀ monitorId, monitorIds.contains monitorId =
    (listedIds db page).contains monitorId) (active : Bool) (dbNow : ℤ) :
    publicIncidents (onlyPage db page) page.organizationId monitorIds active dbNow =
      publicIncidents db page.organizationId monitorIds active dbNow := by
  have hpublic : publicOn page.organizationId monitorIds =
      publicOn page.organizationId (listedIds db page) := by
    funext incident
    rw [publicOn, publicOn, onThisPage, onThisPage, funext h]
  have hrows : (onlyPage db page).incidents.filter (fun incident =>
        publicOn page.organizationId monitorIds incident && inList active dbNow incident) =
      db.incidents.filter fun incident =>
        publicOn page.organizationId monitorIds incident && inList active dbNow incident := by
    rw [onlyPage, pageIncidents, List.filter_filter, hpublic]
    refine List.filter_congr fun incident _ => ?_
    cases publicOn page.organizationId (listedIds db page) incident <;> simp
  have hmem : ∀ count, ∀ incident ∈ ((db.incidents.filter fun incident =>
        publicOn page.organizationId monitorIds incident &&
          inList active dbNow incident).insertionSort
        fun a b => b.startedAt ≤ a.startedAt).take count, incident ∈ pageIncidents db page := by
    intro count incident hincident
    have hfiltered := (List.mem_insertionSort _).mp (List.mem_of_mem_take hincident)
    obtain ⟨hstored, hshown⟩ := List.mem_filter.mp hfiltered
    rw [Bool.and_eq_true, hpublic] at hshown
    exact List.mem_filter.mpr ⟨hstored, hshown.1⟩
  unfold publicIncidents
  rw [hrows]
  dsimp only
  rw [events_onlyPage (hmem _)]

end Listed

theorem getPublicStatusPage_onlyPage {slug : String} (h : findPage db slug = some page)
    (now dbNow : ℤ) :
    getPublicStatusPage (onlyPage db page) slug now dbNow =
      getPublicStatusPage db slug now dbNow := by
  have hslug := List.find?_some h
  have hfound : findPage (onlyPage db page) slug = some page := List.find?_cons_of_pos hslug
  have horganization : (onlyPage db page).organizations.find? (fun organization =>
      organization.id = page.organizationId) =
      db.organizations.find? fun organization => organization.id = page.organizationId := by
    rw [onlyPage, List.find?_filter]
    simp
  have hunknown : ∀ monitorId ∈ ((componentRows db page).filter fun row =>
      !row.paused && row.status = .unknown).map (·.monitorId), monitorId ∈ listedIds db page := by
    intro monitorId hmem
    rw [← List.contains_iff_mem, ← contains_componentRows, List.contains_iff_mem]
    exact (List.filter_sublist.map _).subset hmem
  simp only [getPublicStatusPage, hfound, h, Option.map_some, horganization, componentRows_onlyPage,
    segmentsOf_onlyPage contains_componentRows, publicIncidents_onlyPage contains_componentRows,
    anyLatestUnhealthy_onlyPage hunknown]

/-- Databases that agree on a page show the same page. -/
theorem getPublicStatusPage_eq {slug : String} {db db' : Database} (h : AgreeOn slug db db')
    (now dbNow : ℤ) :
    getPublicStatusPage db slug now dbNow = getPublicStatusPage db' slug now dbNow := by
  unfold AgreeOn at h
  cases hpage : findPage db slug with
  | none =>
    rw [hpage, Option.map_none, eq_comm, Option.map_eq_none_iff] at h
    rw [getPublicStatusPage, getPublicStatusPage, hpage, h]
    rfl
  | some page =>
    rw [hpage, Option.map_some, eq_comm, Option.map_eq_some_iff] at h
    obtain ⟨page', hpage', hsame⟩ := h
    obtain rfl : page' = page := List.head_eq_of_cons_eq (congrArg Database.statusPages hsame)
    rw [← getPublicStatusPage_onlyPage hpage, ← hsame, getPublicStatusPage_onlyPage hpage']

/-! ### Two sites -/

def apiMonitor (url : String) : Monitor where
  id := 1
  organizationId := "acme"
  name := "api-eu-1"
  url := url
  config := []
  checkType := "http"
  intervalSeconds := 60
  currentStatus := .up
  paused := false
  shadowBridgeId := none

def hiddenMonitor (name : String) : Monitor :=
  { apiMonitor "https://db.internal" with id := 2, name }

/-- A site that lists one monitor of two; the other one is down. -/
def site (url name note : String) : Database where
  organizations := [⟨"other", name⟩, ⟨"acme", "Acme"⟩]
  statusPages := [⟨1, "acme", "acme", "Acme", true, .anyone, true⟩]
  statusPageMonitors := [⟨1, 1, some "API", 0⟩]
  monitors := [hiddenMonitor name, apiMonitor url]
  checks := [⟨⟨2, 0, false, some .down⟩, 2⟩, ⟨⟨1, 0, true, some .up⟩, 1⟩]
  incidents :=
    [⟨2, "acme", name ++ " is down", .investigating, .critical, .monitor, some 2, 0, none, false⟩,
      ⟨1, "acme", "Maintenance", .investigating, .minor, .manual, none, 0, none, false⟩]
  incidentEvents :=
    [⟨2, 1, .update, none, note, true, 0⟩, ⟨1, 1, .created, some .investigating, "Soon.", false, 0⟩]
  monitorKey := (by decide : [2, 1].Nodup)

/-- The name of the monitor that is not listed, the target of the one that is, and an internal note
do not show. -/
theorem sites_show_the_same :
    getPublicStatusPage (site "https://a.example" "db-1" "Disk full.") "acme" 60000 60000 =
      getPublicStatusPage (site "https://b.example" "db-2" "Reboot.") "acme" 60000 60000 :=
  getPublicStatusPage_eq rfl 60000 60000

end Vigil.StatusPages.PublicPage
