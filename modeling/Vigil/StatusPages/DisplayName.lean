import Vigil.Lib.Run
import Vigil.StatusPages.PublicPage

/-! Where the internal name of a monitor goes while its automatic incidents are opened and resolved.
The page shows the display name of a component, but `openMonitorIncident` and
`resolveMonitorIncidents` of `incidents/service.ts` write the name into the title and the timeline of
the incident, which the page shows and the mail to subscribers quotes. -/

namespace Vigil.StatusPages.DisplayName

open Monitors.StatusController Lib PublicPage
open Incidents.Store (CauseKey EventType IncidentSource IncidentStatus describeFailureWindow)

/-! ### The tables -/

/-- A subscriber of a status page, confirmed or not. -/
structure Subscriber where
  id : ℕ
  statusPageId : ℕ
  confirmed : Bool
  deriving DecidableEq, Repr

/-- What an intent owes the subscribers of the pages. -/
structure IntentSubscribers where
  incidentTitle : String
  monitorId : Option ℕ
  source : IncidentSource
  deriving DecidableEq, Repr

/-- The intent of an incident's mail to its subscribers. -/
structure Intent where
  causeKey : CauseKey
  organizationId : String
  subscribers : IntentSubscribers
  pending : Bool
  deriving DecidableEq, Repr

/-- A queued message: the first three fields are its key. -/
structure SubscriberEmail where
  causeKey : CauseKey
  pageId : ℕ
  subscriberId : ℕ
  organizationId : String
  pageName : String
  pageSlug : String
  incidentTitle : String
  deriving DecidableEq, Repr

structure World where
  db : Database
  /-- The incidents whose `notified_at` is set. -/
  notified : List ℕ
  subscribers : List Subscriber
  intents : List Intent
  outbox : List SubscriberEmail
  nextIncidentId : ℕ
  nextEventId : ℕ

/-! ### The operations -/

def World.addEvent (w : World) (incidentId : ℕ) (type : EventType) (status : Option IncidentStatus)
    (message : String) (now : ℤ) : World :=
  { w with
    db := { w.db with
      incidentEvents :=
        ⟨w.nextEventId, incidentId, type, status, message, false, now⟩ :: w.db.incidentEvents }
    nextEventId := w.nextEventId + 1 }

/-- A check is stored, and the monitor takes the status that the controller concludes from it. -/
def recordCheckOutcome (w : World) (check : StoredCheck) (status : MonitorStatus) : World :=
  { w with
    db := { w.db with
      checks := check :: w.db.checks
      monitors := w.db.monitors.map fun monitor =>
        if monitor.id = check.monitorId then { monitor with currentStatus := status } else monitor
      monitorKey := by
        have hkey : (w.db.monitors.map fun monitor =>
            if monitor.id = check.monitorId then { monitor with currentStatus := status }
            else monitor).map (·.id) = w.db.monitors.map (·.id) := by
          rw [List.map_map]
          refine List.map_congr_left fun monitor _ => ?_
          simp only [Function.comp]
          split <;> rfl
        rw [hkey]
        exact w.db.monitorKey } }

/-- An automatic incident of the monitor that is not resolved. -/
def active (monitorId : ℕ) (incident : Incident) : Bool :=
  incident.source = .monitor && incident.status ≠ .resolved && incident.monitorId = some monitorId

/-- The row that the incident is opened from, where one is opened. -/
def opensFrom (w : World) (monitorId : ℕ) : Option Monitor :=
  (w.db.monitors.find? (·.id = monitorId)).filter fun current =>
    current.currentStatus ≠ .up && !current.paused && !w.db.incidents.any (active monitorId)

/-- `openMonitorIncident`, for the copy of the row that its caller has. -/
def openMonitorIncident (w : World) (monitor : Monitor) (failureWindowSeconds now : ℤ) : World :=
  match opensFrom w monitor.id with
  | none => w
  | some current =>
    let incident : Incident :=
      { id := w.nextIncidentId
        organizationId := monitor.organizationId
        title := monitor.name ++ " is down"
        status := .investigating
        severity := .critical
        source := .monitor
        monitorId := some monitor.id
        startedAt := now
        resolvedAt := none
        shadow := current.shadowBridgeId.isSome }
    let w :=
      { w with
        db := { w.db with incidents := incident :: w.db.incidents }
        nextIncidentId := w.nextIncidentId + 1 }
    w.addEvent incident.id .created (some incident.status)
      (monitor.name ++ " had been failing " ++ describeFailureWindow failureWindowSeconds ++
        " and was marked down.") now

def recordSystemEvent (w : World) (incidentId : ℕ) (message : String) (now : ℤ) : World :=
  w.addEvent incidentId .system none message now

def subscriberTarget (incident : Incident) : IntentSubscribers where
  incidentTitle := incident.title
  monitorId := incident.monitorId
  source := incident.source

/-- An intent whose cause is there already is not written again. -/
def recordDispatchIntent (w : World) (causeKey : CauseKey) (organizationId : String)
    (incident : Incident) : World :=
  if w.intents.any (·.causeKey = causeKey) then w
  else
    { w with
      intents := ⟨causeKey, organizationId, subscriberTarget incident, true⟩ :: w.intents }

/-- `claimOpenedNotifications`, which its callers do not call for a shadow incident. -/
def claimOpenedNotifications (w : World) (incidentId : ℕ) (organizationId : String) : World :=
  match w.db.incidents.find? fun incident =>
      incident.id = incidentId && !incident.shadow && !w.notified.contains incidentId with
  | none => w
  | some incident =>
    recordDispatchIntent { w with notified := incidentId :: w.notified } (.opened incidentId)
      organizationId incident

/-- Closes one open incident: its row, its line on the timeline, and the all-clear if somebody was
alerted. -/
def closeIncident (monitor : Monitor) (now : ℤ) (w : World) (incident : Incident) : World :=
  let updated := { incident with status := .resolved, resolvedAt := some now }
  let incidents := w.db.incidents.map fun other => if other.id = incident.id then updated else other
  let w := ({ w with db := { w.db with incidents } } : World).addEvent incident.id .statusChange
    (some .resolved) (monitor.name ++ " recovered, incident auto-resolved.") now
  if w.notified.contains incident.id then
    recordDispatchIntent w (.resolved incident.id) monitor.organizationId updated
  else w

def resolveMonitorIncidents (w : World) (monitor : Monitor) (now : ℤ) : World :=
  (w.db.incidents.filter (active monitor.id)).foldl (closeIncident monitor now) w

def World.enqueue (w : World) (message : SubscriberEmail) : World :=
  if w.outbox.any fun row => row.causeKey = message.causeKey && row.pageId = message.pageId &&
      row.subscriberId = message.subscriberId then w
  else { w with outbox := message :: w.outbox }

/-- The pages that tell their subscribers: those that list the monitor, and all of them where the
incident was announced by hand. -/
def toldPages (db : Database) (organizationId : String) (input : IntentSubscribers) :
    List StatusPage :=
  db.statusPages.filter fun page =>
    page.organizationId = organizationId && page.published && page.visibility = .anyone &&
      (input.source = .manual || input.monitorId.any fun monitorId =>
        db.statusPageMonitors.any fun entry =>
          entry.statusPageId = page.id && entry.monitorId = monitorId)

def enqueueSubscriberEmails (w : World) (intent : Intent) : World :=
  let messages := (toldPages w.db intent.organizationId intent.subscribers).flatMap fun page =>
    (w.subscribers.filter fun subscriber =>
        subscriber.statusPageId = page.id && subscriber.confirmed).map fun subscriber =>
      { causeKey := intent.causeKey
        pageId := page.id
        subscriberId := subscriber.id
        organizationId := intent.organizationId
        pageName := page.name
        pageSlug := page.slug
        incidentTitle := intent.subscribers.incidentTitle }
  messages.foldl World.enqueue w

/-- The expansion of a pending intent; the mail may be suppressed by policy. -/
def expandIntent (w : World) (causeKey : CauseKey) (suppressed : Bool) : World :=
  match w.intents.find? fun intent => intent.causeKey = causeKey && intent.pending with
  | none => w
  | some intent =>
    let w := if suppressed then w else enqueueSubscriberEmails w intent
    { w with
      intents := w.intents.map fun other =>
        if other.causeKey = causeKey then { other with pending := false } else other }

/-! ### Runs -/

/-- What the checks, the incidents and the expansion do. -/
inductive Action where
  | check (check : StoredCheck) (status : MonitorStatus)
  | openIncident (monitor : Monitor) (failureWindowSeconds now : ℤ)
  | systemEvent (incidentId : ℕ) (message : String) (now : ℤ)
  | claim (incidentId : ℕ) (organizationId : String)
  | resolveIncidents (monitor : Monitor) (now : ℤ)
  | expand (causeKey : CauseKey) (suppressed : Bool)
  deriving DecidableEq, Repr

def step (w : World) : Action → World
  | .check check status => recordCheckOutcome w check status
  | .openIncident monitor failureWindowSeconds now =>
    openMonitorIncident w monitor failureWindowSeconds now
  | .systemEvent incidentId message now => recordSystemEvent w incidentId message now
  | .claim incidentId organizationId => claimOpenedNotifications w incidentId organizationId
  | .resolveIncidents monitor now => resolveMonitorIncidents w monitor now
  | .expand causeKey suppressed => expandIntent w causeKey suppressed

/-! ### Other names -/

def renameMonitor (names : ℕ → String) (monitor : Monitor) : Monitor :=
  { monitor with name := names monitor.id }

def renameDatabase (names : ℕ → String) (db : Database) : Database :=
  { db with
    monitors := db.monitors.map (renameMonitor names)
    monitorKey := by
      rw [List.map_map]
      exact db.monitorKey }

/-- The same tables with other internal names. -/
def World.rename (names : ℕ → String) (w : World) : World :=
  { w with db := renameDatabase names w.db }

def Action.rename (names : ℕ → String) : Action → Action
  | .openIncident monitor failureWindowSeconds now =>
    .openIncident (renameMonitor names monitor) failureWindowSeconds now
  | .resolveIncidents monitor now => .resolveIncidents (renameMonitor names monitor) now
  | action => action

/-- One history, run with the internal names as they are and with others. -/
def twins (w : World) (names : ℕ → String) : Machine (World × World) Action where
  init := (w, w.rename names)
  step s action := some (step s.1 action, step s.2 (action.rename names))

/-- Every monitor that the page lists has a display name. -/
def Displayed (slug : String) (db : Database) : Prop :=
  ∀ page, findPage db slug = some page →
    ∀ entry ∈ entriesOf db page, entry.displayName.isSome = true

/-- What the public sees of both: the page, at any time, and the mail that is queued. -/
def SameView (slug : String) (s : World × World) : Prop :=
  (∀ now dbNow, getPublicStatusPage s.1.db slug now dbNow =
    getPublicStatusPage s.2.db slug now dbNow) ∧ s.1.outbox = s.2.outbox

/-- A step that opens or resolves an incident does so for a monitor whose name is not changed. -/
def NamesKept (names : ℕ → String) (s : World × World) : Action → Prop
  | .openIncident monitor _ _ =>
    (opensFrom s.1 monitor.id).isSome = true → names monitor.id = monitor.name
  | .resolveIncidents monitor _ =>
    s.1.db.incidents.any (active monitor.id) = true → names monitor.id = monitor.name
  | _ => True

/-! ### Steps -/

section Steps

variable (names : ℕ → String) (w : World)

theorem opensFrom_rename (monitorId : ℕ) :
    opensFrom (w.rename names) monitorId =
      (opensFrom w monitorId).map (renameMonitor names) := by
  have hfind : (w.rename names).db.monitors.find? (·.id = monitorId) =
      (w.db.monitors.find? (·.id = monitorId)).map (renameMonitor names) := List.find?_map
  rw [opensFrom, hfind, opensFrom]
  cases w.db.monitors.find? (·.id = monitorId) with
  | none => rfl
  | some current =>
    rw [Option.map_some, Option.filter_some, Option.filter_some, apply_ite (Option.map _)]
    rfl

theorem recordCheckOutcome_rename (check : StoredCheck) (status : MonitorStatus) :
    recordCheckOutcome (w.rename names) check status =
      (recordCheckOutcome w check status).rename names := by
  have hmonitors : (recordCheckOutcome (w.rename names) check status).db.monitors =
      ((recordCheckOutcome w check status).rename names).db.monitors := by
    show (w.db.monitors.map _).map _ = (w.db.monitors.map _).map _
    rw [List.map_map, List.map_map]
    refine List.map_congr_left fun monitor _ => ?_
    by_cases hid : monitor.id = check.monitorId
    · simp only [Function.comp, if_pos hid]
      exact if_pos hid
    · simp only [Function.comp, if_neg hid]
      exact if_neg hid
  have hdb : (recordCheckOutcome (w.rename names) check status).db =
      ((recordCheckOutcome w check status).rename names).db :=
    Database.ext rfl rfl rfl hmonitors rfl rfl rfl
  exact congrArg (fun db => { w with db }) hdb

theorem recordDispatchIntent_rename (causeKey : CauseKey) (organizationId : String)
    (incident : Incident) :
    recordDispatchIntent (w.rename names) causeKey organizationId incident =
      (recordDispatchIntent w causeKey organizationId incident).rename names := by
  rw [recordDispatchIntent, recordDispatchIntent, apply_ite (World.rename names)]
  rfl

theorem claimOpenedNotifications_rename (incidentId : ℕ) (organizationId : String) :
    claimOpenedNotifications (w.rename names) incidentId organizationId =
      (claimOpenedNotifications w incidentId organizationId).rename names := by
  have hfind : (w.rename names).db.incidents.find? (fun incident => incident.id = incidentId &&
      !incident.shadow && !(w.rename names).notified.contains incidentId) =
      w.db.incidents.find? fun incident => incident.id = incidentId && !incident.shadow &&
        !w.notified.contains incidentId := rfl
  rw [claimOpenedNotifications, hfind, claimOpenedNotifications]
  split
  · rfl
  · exact recordDispatchIntent_rename names { w with notified := incidentId :: w.notified } _ _ _

theorem closeIncident_rename (monitor : Monitor) (now : ℤ) (incident : Incident) :
    closeIncident monitor now (w.rename names) incident =
      (closeIncident monitor now w incident).rename names := by
  unfold closeIncident
  dsimp only
  rw [apply_ite (World.rename names), ← recordDispatchIntent_rename]
  rfl

theorem foldl_closeIncident_rename (monitor : Monitor) (now : ℤ) (incidents : List Incident) :
    incidents.foldl (closeIncident monitor now) (w.rename names) =
      (incidents.foldl (closeIncident monitor now) w).rename names := by
  induction incidents generalizing w with
  | nil => rfl
  | cons incident incidents ih =>
    rw [List.foldl_cons, closeIncident_rename, ih, List.foldl_cons]

theorem enqueue_rename (message : SubscriberEmail) :
    (w.rename names).enqueue message = (w.enqueue message).rename names := by
  rw [World.enqueue, World.enqueue, apply_ite (World.rename names)]
  rfl

theorem foldl_enqueue_rename (messages : List SubscriberEmail) :
    messages.foldl World.enqueue (w.rename names) =
      (messages.foldl World.enqueue w).rename names := by
  induction messages generalizing w with
  | nil => rfl
  | cons message messages ih => rw [List.foldl_cons, enqueue_rename, ih, List.foldl_cons]

theorem expandIntent_rename (causeKey : CauseKey) (suppressed : Bool) :
    expandIntent (w.rename names) causeKey suppressed =
      (expandIntent w causeKey suppressed).rename names := by
  have hfind : (w.rename names).intents.find? (fun intent =>
      intent.causeKey = causeKey && intent.pending) =
      w.intents.find? fun intent => intent.causeKey = causeKey && intent.pending := rfl
  rw [expandIntent, hfind, expandIntent]
  split
  · rfl
  · rename_i intent _
    have hmail : enqueueSubscriberEmails (w.rename names) intent =
        (enqueueSubscriberEmails w intent).rename names := foldl_enqueue_rename names w _
    rw [hmail]
    cases suppressed <;> rfl

end Steps

/-- A step that writes no changed name does the same under other names. -/
theorem step_rename {names : ℕ → String} {s : World × World} {action : Action}
    (h : NamesKept names s action) :
    step (s.1.rename names) (action.rename names) = (step s.1 action).rename names := by
  have hsame : ∀ monitor : Monitor, names monitor.id = monitor.name →
      renameMonitor names monitor = monitor := by
    intro monitor hname
    rw [renameMonitor, hname]
  cases action with
  | check check status => exact recordCheckOutcome_rename names s.1 check status
  | openIncident monitor failureWindowSeconds now =>
    show openMonitorIncident _ (renameMonitor names monitor) _ _ = World.rename names _
    have hopens := opensFrom_rename names s.1 monitor.id
    cases hrow : opensFrom s.1 monitor.id with
    | none =>
      rw [hrow] at hopens
      rw [openMonitorIncident, show opensFrom _ (renameMonitor names monitor).id = none from hopens,
        step, openMonitorIncident, hrow]
    | some current =>
      rw [hrow] at hopens
      rw [hsame monitor (h (by rw [hrow]; rfl)), openMonitorIncident, hopens, step,
        openMonitorIncident, hrow]
      rfl
  | systemEvent incidentId message now => rfl
  | claim incidentId organizationId => exact claimOpenedNotifications_rename names s.1 _ _
  | resolveIncidents monitor now =>
    show resolveMonitorIncidents _ (renameMonitor names monitor) _ = World.rename names _
    cases hany : s.1.db.incidents.any (active monitor.id) with
    | false =>
      have hnil : s.1.db.incidents.filter (active monitor.id) = [] :=
        List.filter_eq_nil_iff.mpr fun incident hmem hactive => by
          rw [List.any_eq_false] at hany
          exact hany incident hmem hactive
      have hnil' : (s.1.rename names).db.incidents.filter (active (renameMonitor names monitor).id) =
          [] := hnil
      rw [resolveMonitorIncidents, hnil', step, resolveMonitorIncidents, hnil]
      rfl
    | true =>
      rw [hsame monitor (h hany)]
      exact foldl_closeIncident_rename names s.1 monitor now _
  | expand causeKey suppressed => exact expandIntent_rename names s.1 causeKey suppressed

/-! ### Views -/

def renameRow (names : ℕ → String) (row : ComponentRow) : ComponentRow :=
  { row with internalName := names row.monitorId }

theorem joinedRows_rename (names : ℕ → String) (db : Database) (page : StatusPage) :
    joinedRows (renameDatabase names db) page =
      (joinedRows db page).map fun row => (row.1, renameRow names row.2) := by
  rw [joinedRows, joinedRows, List.map_flatMap]
  refine List.flatMap_congr fun entry _ => ?_
  rw [renameDatabase, List.filter_map, List.map_map, List.map_map]
  rfl

theorem componentRows_rename (names : ℕ → String) (db : Database) (page : StatusPage) :
    componentRows (renameDatabase names db) page =
      (componentRows db page).map (renameRow names) := by
  have hsort := List.map_insertionSort (r := fun a b : ℤ × ComponentRow => a.1 ≤ b.1)
    (s := fun a b : ℤ × ComponentRow => a.1 ≤ b.1) (fun row => (row.1, renameRow names row.2))
    (joinedRows db page) fun _ _ _ _ => Iff.rfl
  rw [componentRows, joinedRows_rename, ← hsort, List.map_map, componentRows, List.map_map]
  rfl

variable {slug : String}

theorem displayName_of_displayed {db : Database} {page : StatusPage} (h : Displayed slug db)
    (hpage : findPage db slug = some page) {row : ComponentRow}
    (hrow : row ∈ componentRows db page) : row.displayName.isSome = true := by
  obtain ⟨joined, hjoined, rfl⟩ := List.mem_map.mp hrow
  obtain ⟨entry, hentry, hmonitor⟩ :=
    List.mem_flatMap.mp ((List.perm_insertionSort _ _).mem_iff.mp hjoined)
  obtain ⟨monitor, -, rfl⟩ := List.mem_map.mp hmonitor
  exact h page hpage entry hentry

theorem segmentsOf_rename (names : ℕ → String) (db : Database) (monitorIds : List ℕ)
    (windowStart windowEnd : ℤ) :
    segmentsOf (renameDatabase names db) monitorIds windowStart windowEnd =
      segmentsOf db monitorIds windowStart windowEnd := by
  rw [segmentsOf, renameDatabase, List.map_map, segmentsOf]
  rfl

/-- A page does not show the name of a monitor that has a display name. -/
theorem getPublicStatusPage_rename (names : ℕ → String) {db : Database} (h : Displayed slug db)
    (now dbNow : ℤ) : getPublicStatusPage (renameDatabase names db) slug now dbNow =
      getPublicStatusPage db slug now dbNow := by
  cases hpage : findPage db slug with
  | none =>
    have hpage' : findPage (renameDatabase names db) slug = none := hpage
    rw [getPublicStatusPage, hpage', getPublicStatusPage, hpage, Option.map_none, Option.map_none]
  | some page =>
    have hpage' : findPage (renameDatabase names db) slug = some page := hpage
    have hids : ∀ rows : List ComponentRow,
        (rows.map (renameRow names)).map (·.monitorId) = rows.map (·.monitorId) := by
      intro rows
      rw [List.map_map]
      rfl
    have hunknown : ((componentRows db page).map (renameRow names)).filter
        (fun row => !row.paused && row.status = .unknown) =
        ((componentRows db page).filter fun row =>
          !row.paused && row.status = .unknown).map (renameRow names) := List.filter_map
    have hcomponents : ∀ segments,
        ((componentRows db page).map (renameRow names)).map (component segments) =
          (componentRows db page).map (component segments) := by
      intro segments
      rw [List.map_map]
      refine List.map_congr_left fun row hrow => ?_
      obtain ⟨name, hname⟩ := Option.isSome_iff_exists.mp (displayName_of_displayed h hpage hrow)
      simp only [Function.comp, component, renameRow, hname, Option.getD_some]
    have hincidents : ∀ monitorIds active,
        publicIncidents (renameDatabase names db) page.organizationId monitorIds active dbNow =
          publicIncidents db page.organizationId monitorIds active dbNow := fun _ _ => rfl
    have hunhealthy : ∀ monitorIds, anyLatestUnhealthy (renameDatabase names db) monitorIds =
        anyLatestUnhealthy db monitorIds := fun _ => rfl
    have horganizations : (renameDatabase names db).organizations = db.organizations := rfl
    simp only [getPublicStatusPage, hpage', hpage, Option.map_some, componentRows_rename, hids,
      segmentsOf_rename, hunknown, hcomponents, hincidents, hunhealthy, horganizations]

/-- The pages and what they list. -/
def listings (w : World) : List StatusPage × List StatusPageMonitor :=
  (w.db.statusPages, w.db.statusPageMonitors)

theorem listings_recordDispatchIntent (w : World) (causeKey : CauseKey) (organizationId : String)
    (incident : Incident) :
    listings (recordDispatchIntent w causeKey organizationId incident) = listings w := by
  unfold recordDispatchIntent
  split <;> rfl

theorem listings_closeIncident (monitor : Monitor) (now : ℤ) (w : World) (incident : Incident) :
    listings (closeIncident monitor now w incident) = listings w := by
  unfold closeIncident
  dsimp only
  split
  · exact listings_recordDispatchIntent _ _ _ _
  · rfl

theorem listings_enqueue (w : World) (message : SubscriberEmail) :
    listings (w.enqueue message) = listings w := by
  unfold World.enqueue
  split <;> rfl

theorem listings_step (w : World) (action : Action) : listings (step w action) = listings w := by
  cases action with
  | check check status => rfl
  | openIncident monitor failureWindowSeconds now =>
    rw [step, openMonitorIncident]
    split <;> rfl
  | systemEvent incidentId message now => rfl
  | claim incidentId organizationId =>
    rw [step, claimOpenedNotifications]
    split
    · rfl
    · exact listings_recordDispatchIntent _ _ _ _
  | resolveIncidents monitor now =>
    exact List.foldlRecOn (motive := fun t => listings t = listings w) _ _ rfl
      fun t ht incident _ => (listings_closeIncident monitor now t incident).trans ht
  | expand causeKey suppressed =>
    rw [step, expandIntent]
    split
    · rfl
    · cases suppressed with
      | true => rfl
      | false =>
        exact List.foldlRecOn (motive := fun t => listings t = listings w) _ _ rfl
          fun t ht message _ => (listings_enqueue t message).trans ht

theorem displayed_step {w : World} (action : Action) (h : Displayed slug w.db) :
    Displayed slug (step w action).db := by
  obtain ⟨hpages, hentries⟩ := Prod.mk.inj (listings_step w action)
  rw [Displayed, findPage, hpages]
  intro page hpage entry hentry
  rw [entriesOf, hentries] at hentry
  exact h page hpage entry hentry

theorem sameView_rename (names : ℕ → String) {w : World} (h : Displayed slug w.db) :
    SameView slug (w, w.rename names) :=
  ⟨fun now dbNow => (getPublicStatusPage_rename names h now dbNow).symm, rfl⟩

/-- In every run whose steps open and resolve no incident of a monitor whose name is changed, the
public sees the same of both histories throughout. -/
theorem sameView_of_namesKept {w : World} {names : ℕ → String} {slug : String} {acts : List Action}
    (hdisplayed : Displayed slug w.db) (h : (twins w names).EachStep acts (NamesKept names)) :
    (twins w names).Always acts (SameView slug) := by
  have htwins : (twins w names).Always acts
      (fun s => s.2 = s.1.rename names ∧ Displayed slug s.1.db) := by
    refine Machine.Always.of_eachStep ⟨rfl, hdisplayed⟩ (fun s a t _ hs hkept hstep => ?_) h
    cases hstep
    obtain ⟨hsame, hshown⟩ := hs
    refine ⟨?_, displayed_step a hshown⟩
    rw [hsame]
    exact step_rename hkept
  intro visited hpre s hs
  obtain ⟨hsame, hshown⟩ := htwins visited hpre s hs
  have hview := sameView_rename names hshown
  rw [← hsame] at hview
  exact hview

/-! ### A site -/

/-- A page that shows the monitor `api-eu-1` as "API", with one subscriber. -/
def siteWorld : World where
  db := site "https://a.example" "db-1" "Disk full."
  notified := []
  subscribers := [⟨1, 1, true⟩]
  intents := []
  outbox := []
  nextIncidentId := 3
  nextEventId := 3

theorem displayed_siteWorld : Displayed "acme" siteWorld.db := by
  intro page hpage entry hentry
  cases hpage
  have hentries : entriesOf siteWorld.db ⟨1, "acme", "acme", "Acme", true, .anyone, true⟩ =
      [⟨1, 1, some "API", 0⟩] := rfl
  rw [hentries, List.mem_singleton] at hentry
  rw [hentry]
  rfl

/-- The monitor fails, and the subscriber is told. -/
def outage : List Action :=
  [.check ⟨⟨1, 60000, false, some .down⟩, 3⟩ .down,
    .openIncident (apiMonitor "https://a.example") 60 60000, .claim 3 "acme",
    .expand (.opened 3) false]

/-- The title of an incident gives the internal name away. -/
theorem not_sameView_outage : ¬ ∀ (w : World) (names : ℕ → String) (slug : String)
    (acts : List Action), Displayed slug w.db → (twins w names).Always acts (SameView slug) := by
  intro h
  have hview := h siteWorld (fun _ => "db-7") "acme" outage displayed_siteWorld outage
    List.prefix_rfl _ rfl
  have hmail := congrArg (List.map SubscriberEmail.incidentTitle) hview.2
  exact absurd hmail (by decide +kernel)

/-- Where only the other monitor has another name, nothing shows. -/
theorem sameView_outage : (twins siteWorld fun monitorId =>
    if monitorId = 1 then "api-eu-1" else "db-7").Always outage (SameView "acme") :=
  sameView_of_namesKept displayed_siteWorld (.cons fun _ _ => ⟨trivial, .cons fun _ _ =>
    ⟨fun _ => rfl, .cons fun _ _ => ⟨trivial, .cons fun _ _ => ⟨trivial, .nil⟩⟩⟩⟩)

end Vigil.StatusPages.DisplayName
