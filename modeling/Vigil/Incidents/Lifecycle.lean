import Vigil.Lib.Run
import Vigil.Incidents.Store

/-! The life of an incident under any number of operators and workers.  An operation is a
transaction whose reads and writes are steps of their own; a write takes effect at its statement,
which makes every other writer of the row wait, and under READ COMMITTED a reader that does not see
it yet is one that read earlier.  A row that was read `FOR UPDATE` stays locked until its
transaction ends.  Beside the tables a world counts the changes of each incident's status, which no
step reads. -/

namespace Vigil.Incidents.Lifecycle

open Monitors.StatusController Monitors.Record Store Lib

/-- Who acts, and in which organization. -/
structure Actor where
  organizationId : String
  userId : String
  deriving DecidableEq, Repr

/-- A row lock. -/
inductive Lock where
  | monitor (id : ℕ)
  | incident (id : ℕ)
  deriving DecidableEq, Repr

/-- How an operation ended. -/
inductive Reply where
  | notFound (message : String)
  | conflict (message : String)
  | incident (row : Incident)
  | incidents (rows : List Incident)
  | event (id : ℕ)
  | nothing
  deriving DecidableEq, Repr

/-- What operators and workers ask of the incidents. -/
inductive Operation where
  | createIncident (actor : Actor) (title : String) (severity : IncidentSeverity)
      (message : Option String)
  | acknowledgeIncident (actor : Actor) (incidentId : ℕ)
  | changeIncidentStatus (actor : Actor) (incidentId : ℕ) (status : IncidentStatus)
      (message : String)
  | postIncidentUpdate (actor : Actor) (incidentId : ℕ) (message : String) (internal : Bool)
  | changeIncidentSeverity (actor : Actor) (incidentId : ℕ) (severity : IncidentSeverity)
  | openMonitorIncident (monitor : Monitor)
  | claimIncidentNotification (incidentId : ℕ)
  | resolveMonitorIncidents (monitor : Monitor)
  | deleteMonitor (actor : Actor) (monitorId : ℕ)
  deriving DecidableEq, Repr

/-- Where a transaction stands: what it has read, and which write comes next. -/
inductive Txn where
  | ended (reply : Reply)
  | creating (actor : Actor) (title : String) (severity : IncidentSeverity)
      (message : Option String)
  | acknowledging (actor : Actor) (incidentId : ℕ)
  /-- The acknowledgement matched no row, and the incident is read again. -/
  | notAcknowledged (actor : Actor) (incidentId : ℕ)
  | changingStatus (actor : Actor) (seen : Incident) (status : IncidentStatus) (message : String)
  | posting (actor : Actor) (seen : Incident) (message : String) (internal : Bool)
  | changingSeverity (actor : Actor) (seen : Incident) (severity : IncidentSeverity)
  | opening (monitor : Monitor) (current : Option Monitor)
  | claiming (incidentId : ℕ)
  | finding (monitor : Monitor)
  | resolving (monitor : Monitor) (rest resolved : List Incident)
  | closing (actor : Actor) (monitor : Monitor)
  | deleting (monitorId : ℕ)
  deriving DecidableEq, Repr

/-- The tables, the transactions, and the locks that they hold. -/
structure World where
  monitors : List Monitor
  /-- The incidents, their timelines and the intents; its monitor is not used. -/
  db : Db
  txns : ℕ → Txn
  locks : List (ℕ × Lock)
  /-- How often the status of each incident has changed. -/
  transitions : ℕ → ℕ

/-- The status, as timelines name it. -/
def statusText : IncidentStatus → String
  | .investigating => "investigating"
  | .identified => "identified"
  | .monitoring => "monitoring"
  | .resolved => "resolved"

def severityText : IncidentSeverity → String
  | .critical => "critical"
  | .major => "major"
  | .minor => "minor"

/-! ### The reads -/

def findIncident (db : Db) (organizationId : String) (id : ℕ) : Option Incident :=
  db.incidents.find? fun i => i.id = id && i.organizationId = organizationId

def incidentNotFound : Txn := .ended (.notFound "Incident not found.")

/-- What an operation reads and decides before its write. -/
def read (s : World) : Operation → Txn
  | .createIncident actor title severity message => .creating actor title severity message
  | .acknowledgeIncident actor incidentId =>
    match findIncident s.db actor.organizationId incidentId with
    | none => incidentNotFound
    | some incident =>
      if incident.status = .resolved then
        .ended (.conflict "This incident is already resolved.")
      else if incident.acknowledgedAt.isSome then .ended (.incident incident)
      else .acknowledging actor incidentId
  | .changeIncidentStatus actor incidentId status message =>
    match findIncident s.db actor.organizationId incidentId with
    | none => incidentNotFound
    | some incident =>
      if canTransition incident.status status then .changingStatus actor incident status message
      else if incident.status = .resolved then
        .ended (.conflict "Resolved incidents can't change status, open a new incident instead.")
      else .ended (.conflict ("Can't move from " ++ statusText incident.status ++ " to " ++
        statusText status ++ "."))
  | .postIncidentUpdate actor incidentId message internal =>
    match findIncident s.db actor.organizationId incidentId with
    | none => incidentNotFound
    | some incident =>
      if incident.status = .resolved then
        .ended (.conflict "This incident is resolved. The timeline is closed.")
      else .posting actor incident message internal
  | .changeIncidentSeverity actor incidentId severity =>
    match findIncident s.db actor.organizationId incidentId with
    | none => incidentNotFound
    | some incident =>
      if incident.status = .resolved then
        .ended (.conflict "Resolved incidents can't change severity.")
      else if incident.severity = severity then .ended (.incident incident)
      else .changingSeverity actor incident severity
  | .openMonitorIncident monitor =>
    .opening monitor (s.monitors.find? fun row => row.id = monitor.id)
  | .claimIncidentNotification incidentId => .claiming incidentId
  | .resolveMonitorIncidents monitor => .finding monitor
  | .deleteMonitor actor monitorId =>
    match s.monitors.find? fun row =>
        row.id = monitorId && row.organizationId = actor.organizationId with
    | none => .ended (.notFound "Monitor not found.")
    | some monitor => .closing actor monitor

/-- The row that an operation locks with its first read. -/
def Operation.lock? : Operation → Option Lock
  | .postIncidentUpdate _ incidentId _ _ => some (.incident incidentId)
  | .openMonitorIncident monitor => some (.monitor monitor.id)
  | .resolveMonitorIncidents monitor => some (.monitor monitor.id)
  | _ => none

/-! ### The writes -/

/-- An operator opens an incident. -/
def createIncident (db : Db) (actor : Actor) (title : String) (severity : IncidentSeverity)
    (message : Option String) : Db × Incident :=
  let incident : Incident :=
    { id := db.nextId
      organizationId := actor.organizationId
      title
      status := .investigating
      severity
      source := .manual
      monitorId := none
      resolvedAt := none
      notifiedAt := none
      statusRevision := 0
      shadow := false
      acknowledgedAt := none
      acknowledgedBy := none
      createdBy := some actor.userId }
  let db := { db with incidents := incident :: db.incidents, nextId := db.nextId + 1 }
  let db := db.addEvent incident.id .created (some incident.status)
    ((message.filter (· ≠ "")).getD ("Incident opened: " ++ title)) (some actor.userId)
  (recordDispatchIntent db (.opened incident.id), incident)

/-- `none` when the update matches no row. -/
def acknowledgeIncident (db : Db) (actor : Actor) (incidentId : ℕ) (now : ℤ) :
    Option (Db × Incident) :=
  (db.incidents.find? fun i => i.id = incidentId && (i.organizationId = actor.organizationId &&
      i.acknowledgedAt.isNone && i.status ≠ .resolved)).map fun found =>
    let updated := { found with acknowledgedAt := some now, acknowledgedBy := some actor.userId }
    ((db.setIncident updated).addEvent updated.id .system none
      "Incident acknowledged, escalation stopped." (some actor.userId), updated)

/-- `none` when the update matches no row. -/
def changeIncidentSeverity (db : Db) (actor : Actor) (seen : Incident)
    (severity : IncidentSeverity) : Option (Db × Incident) :=
  (db.incidents.find? fun i => i.id = seen.id && (i.organizationId = actor.organizationId &&
      i.status ≠ .resolved)).map fun found =>
    let updated := { found with severity }
    let eventId := db.nextEventId
    let db := (db.setIncident updated).addEvent updated.id .severityChange none
      ("Severity changed from " ++ severityText seen.severity ++ " to " ++ severityText severity)
      (some actor.userId)
    (recordDispatchIntent db (.updated updated.id eventId), updated)

/-- The new line's id with the tables; an internal note is not announced. -/
def postIncidentUpdate (db : Db) (actor : Actor) (seen : Incident) (message : String)
    (internal : Bool) : Db × ℕ :=
  let eventId := db.nextEventId
  let db := db.addEvent seen.id .update none message (some actor.userId)
  (if internal then db else recordDispatchIntent db (.updated seen.id eventId), eventId)

/-- The next statement of a transaction, or the rest of it that has no other effect. -/
def write (now : ℤ) (s : World) : Txn → World × Txn
  | .ended reply => (s, .ended reply)
  | .creating actor title severity message =>
    let (db, incident) := createIncident s.db actor title severity message
    ({ s with db }, .ended (.incident incident))
  | .acknowledging actor incidentId =>
    match acknowledgeIncident s.db actor incidentId now with
    | none => (s, .notAcknowledged actor incidentId)
    | some (db, updated) => ({ s with db }, .ended (.incident updated))
  | .notAcknowledged actor incidentId =>
    (s, match findIncident s.db actor.organizationId incidentId with
      | none => incidentNotFound
      | some current =>
        if current.status = .resolved then
          .ended (.conflict "This incident is already resolved.")
        else .ended (.incident current))
  | .changingStatus actor seen status message =>
    let changed :=
      if (findIncident s.db actor.organizationId seen.id).isSome then
        changeIncidentStatus s.db actor.userId seen.id seen.status status message now
      else none
    match changed with
    | none => (s, .ended (.conflict
        "Someone else changed this incident while you were looking at it, reload and try again."))
    | some db => ({ s with db },
        .ended ((findIncident db actor.organizationId seen.id).elim .nothing .incident))
  | .posting actor seen message internal =>
    let (db, eventId) := postIncidentUpdate s.db actor seen message internal
    ({ s with db }, .ended (.event eventId))
  | .changingSeverity actor seen severity =>
    match changeIncidentSeverity s.db actor seen severity with
    | none => (s, .ended (.conflict
        "This incident was resolved while you were looking at it, reload and try again."))
    | some (db, updated) => ({ s with db }, .ended (.incident updated))
  | .opening monitor current =>
    let (db, incident) := openMonitorIncident { s.db with monitor := current } monitor
    ({ s with db := { db with monitor := s.db.monitor } },
      .ended (incident.elim .nothing .incident))
  | .claiming incidentId =>
    let (db, claimed) := claimOpenedNotifications s.db incidentId now
    ({ s with db }, .ended (claimed.elim .nothing .incident))
  | .finding monitor => (s, .resolving monitor (s.db.incidents.filter (Incident.active monitor.id)) [])
  | .resolving _ [] resolved => (s, .ended (.incidents resolved.reverse))
  | .resolving monitor (incident :: rest) resolved =>
    let db := closeIncident now .statusChange (monitor.name ++ " recovered, incident auto-resolved.")
      none s.db incident
    let updated := if db = s.db then none else db.incidents.find? fun i => i.id = incident.id
    ({ s with db }, .resolving monitor rest (updated.toList ++ resolved))
  | .closing actor monitor =>
    ({ s with db := deleteMonitorIncidents s.db actor.userId monitor now }, .deleting monitor.id)
  | .deleting monitorId =>
    ({ s with
        monitors := s.monitors.filter (·.id ≠ monitorId)
        db := deleteMonitorRow s.db monitorId },
      .ended .nothing)

/-- The rows that the next statement of a transaction writes and that others may have locked. -/
def targets (s : World) : Txn → List Lock
  | .acknowledging _ incidentId => [.incident incidentId]
  | .changingStatus _ seen _ _ => [.incident seen.id]
  | .changingSeverity _ seen _ => [.incident seen.id]
  | .claiming incidentId => [.incident incidentId]
  | .resolving _ (incident :: _) _ => [.incident incident.id]
  | .closing _ monitor =>
    (s.db.incidents.filter (Incident.active monitor.id)).map fun i => .incident i.id
  | .deleting monitorId =>
    .monitor monitorId :: (s.db.incidents.filter fun i => i.monitorId = some monitorId).map
      fun i => .incident i.id
  | _ => []

/-! ### The machine -/

inductive Action where
  | begin (session : ℕ) (operation : Operation)
  | write (session : ℕ) (now : ℤ)
  /-- Any other write of a monitor's row, such as a check's. -/
  | monitorMoves (monitor : Monitor)
  deriving DecidableEq, Repr

def World.free (s : World) (session : ℕ) (lock : Lock) : Bool :=
  s.locks.all fun held => held.1 = session || held.2 ≠ lock

def World.incident? (s : World) (id : ℕ) : Option Incident :=
  s.db.incidents.find? fun i => i.id = id

def World.status? (s : World) (id : ℕ) : Option IncidentStatus := (s.incident? id).map (·.status)

/-- Counts the incidents whose status a step has changed. -/
def observe (s t : World) : World :=
  { t with
    transitions := fun id =>
      s.transitions id + if (s.status? id).isSome && s.status? id ≠ t.status? id then 1 else 0 }

/-- The transaction is over. -/
def Txn.hasEnded : Txn → Bool
  | .ended _ => true
  | _ => false

/-- A transaction begins and writes where no other one holds the locks that it needs. -/
def step (s : World) : Action → Option World
  | .begin session operation =>
    if (s.txns session).hasEnded && operation.lock?.all (s.free session) then
      let txn := read s operation
      some
        { s with
          txns := Function.update s.txns session txn
          locks := if txn.hasEnded then s.locks
            else operation.lock?.toList.map (session, ·) ++ s.locks }
    else none
  | .write session now =>
    if (targets s (s.txns session)).all (s.free session) then
      let (t, txn) := write now s (s.txns session)
      some (observe s
        { t with
          txns := Function.update t.txns session txn
          locks := if txn.hasEnded then t.locks.filter (·.1 ≠ session) else t.locks })
    else none
  | .monitorMoves monitor =>
    if s.locks.all (·.2 ≠ .monitor monitor.id) then
      some { s with monitors := monitor :: s.monitors.filter (·.id ≠ monitor.id) }
    else none

def machine (monitors : List Monitor) : Machine World Action where
  init :=
    { monitors
      db :=
        { monitor := none, incidents := [], events := [], intents := [], nextId := 0,
          nextEventId := 0 }
      txns := fun _ => .ended .nothing
      locks := []
      transitions := fun _ => 0 }
  step := step

/-! ### What a step does to the incidents -/

/-- What any one step may make of an incident. -/
structure Lawful (i j : Incident) : Prop where
  id : j.id = i.id
  organizationId : j.organizationId = i.organizationId
  source : j.source = i.source
  monitorId : j.monitorId = i.monitorId ∨ j.monitorId = none
  severity : i.status = .resolved → j.severity = i.severity
  status : j.status = i.status ∧ j.resolvedAt = i.resolvedAt ∧
      j.statusRevision = i.statusRevision ∨
    i.status ≠ .resolved ∧ j.status ≠ i.status ∧ (j.resolvedAt.isSome ↔ j.status = .resolved) ∧
      j.statusRevision = i.statusRevision + 1

/-- What a step that deletes no monitor may make of an incident. -/
structure SameLink (i j : Incident) : Prop extends Lawful i j where
  link : j.monitorId = i.monitorId

theorem Lawful.refl (i : Incident) : Lawful i i :=
  ⟨rfl, rfl, rfl, .inl rfl, fun _ => rfl, .inl ⟨rfl, rfl, rfl⟩⟩

theorem SameLink.refl (i : Incident) : SameLink i i := ⟨.refl i, rfl⟩

theorem Lawful.resolved {i j : Incident} (h : Lawful i j) (hi : i.status = .resolved) :
    j.status = .resolved := by
  rcases h.status with ⟨hs, -⟩ | ⟨hne, -⟩
  · rw [hs, hi]
  · exact absurd hi hne

theorem Lawful.active {i j : Incident} (h : Lawful i j) {monitorId : ℕ}
    (hj : j.active monitorId = true) : i.active monitorId = true := by
  simp only [Incident.active, Bool.and_eq_true, decide_eq_true_eq] at hj ⊢
  obtain ⟨⟨hsource, hstatus⟩, hmonitor⟩ := hj
  refine ⟨⟨h.source ▸ hsource, fun hi => hstatus (h.resolved hi)⟩, ?_⟩
  rcases h.monitorId with hm | hm
  · rw [← hm, hmonitor]
  · rw [hm] at hmonitor
    cases hmonitor

/-- Closed now, or as it was. -/
def ClosedBy (now : ℤ) (i j : Incident) : Prop :=
  j = i ∨ i.status ≠ .resolved ∧
    j = { i with
      status := .resolved
      resolvedAt := some now
      statusRevision := i.statusRevision + 1 }

variable {now : ℤ} {R : Incident → Incident → Prop} {db db' : Db} {s : World}

theorem ClosedBy.trans {i j k : Incident} (hij : ClosedBy now i j) (hjk : ClosedBy now j k) :
    ClosedBy now i k := by
  rcases hij with rfl | ⟨hi, rfl⟩
  · exact hjk
  · rcases hjk with rfl | ⟨hj, -⟩
    · exact .inr ⟨hi, rfl⟩
    · exact absurd rfl hj

theorem ClosedBy.sameLink {i j : Incident} (h : ClosedBy now i j) : SameLink i j := by
  rcases h with rfl | ⟨hi, rfl⟩
  · exact .refl _
  · exact ⟨⟨rfl, rfl, rfl, .inl rfl, fun hres => absurd hres hi,
      .inr ⟨hi, Ne.symm hi, by simp, rfl⟩⟩, rfl⟩

/-- Identifiers are unique and below the next one. -/
structure Ids (db : Db) : Prop where
  below : ∀ i ∈ db.incidents, i.id < db.nextId
  unique : (db.incidents.map (·.id)).Nodup

/-- The incidents of `db` are those of `db'`, one by one related by `R`. -/
structure Rows (R : Incident → Incident → Prop) (db db' : Db) : Prop where
  rows : List.Forall₂ R db.incidents db'.incidents
  nextId : db'.nextId = db.nextId

theorem Rows.of_eq (hrefl : ∀ i, R i i) (h : db'.incidents = db.incidents)
    (hnext : db'.nextId = db.nextId) : Rows R db db' :=
  ⟨h ▸ List.forall₂_same.mpr fun i _ => hrefl i, hnext⟩

theorem Rows.mono {R S : Incident → Incident → Prop} (h : Rows R db db')
    (hRS : ∀ i j, R i j → S i j) : Rows S db db' :=
  ⟨h.rows.imp hRS, h.nextId⟩

theorem Rows.trans {R S T : Incident → Incident → Prop} {db db' db'' : Db} (h : Rows R db db')
    (h' : Rows S db' db'') (hT : ∀ i j k, R i j → S j k → T i k) : Rows T db db'' := by
  refine ⟨?_, h'.nextId.trans h.nextId⟩
  have hlen := h.rows.length_eq
  exact List.forall₂_iff_get.mpr ⟨hlen.trans h'.rows.length_eq, fun n hn hn' =>
    hT _ _ _ (h.rows.get hn (hlen ▸ hn)) (h'.rows.get (hlen ▸ hn) hn')⟩

theorem Rows.before (h : Rows R db db') {j : Incident} (hj : j ∈ db'.incidents) :
    ∃ i ∈ db.incidents, R i j := by
  obtain ⟨n, hn, rfl⟩ := List.mem_iff_getElem.mp hj
  have hlen := h.rows.length_eq
  exact ⟨_, List.getElem_mem (hlen ▸ hn), h.rows.get (hlen ▸ hn) hn⟩

theorem Rows.after (h : Rows R db db') {i : Incident} (hi : i ∈ db.incidents) :
    ∃ j ∈ db'.incidents, R i j := by
  obtain ⟨n, hn, rfl⟩ := List.mem_iff_getElem.mp hi
  have hlen := h.rows.length_eq
  exact ⟨_, List.getElem_mem (hlen ▸ hn), h.rows.get hn (hlen ▸ hn)⟩

theorem Rows.addEvent (h : Rows R db db') (incidentId : ℕ) (type : EventType)
    (status : Option IncidentStatus) (message : String) (createdBy : Option String) :
    Rows R db (db'.addEvent incidentId type status message createdBy) :=
  ⟨h.rows, h.nextId⟩

theorem Rows.recordDispatchIntent (h : Rows R db db') (cause : CauseKey) :
    Rows R db (recordDispatchIntent db' cause) :=
  ⟨by simpa using h.rows, by simpa using h.nextId⟩

theorem forall₂_ids {l l' : List Incident} (h : List.Forall₂ R l l')
    (hid : ∀ i j, R i j → j.id = i.id) : l'.map (·.id) = l.map (·.id) := by
  induction h with
  | nil => rfl
  | cons hR _ ih => rw [List.map_cons, List.map_cons, hid _ _ hR, ih]

theorem Ids.rows (h : Ids db) (hrows : Rows R db db') (hid : ∀ i j, R i j → j.id = i.id) :
    Ids db' := by
  have hids := forall₂_ids hrows.rows hid
  refine ⟨fun j hj => ?_, by rw [hids]; exact h.unique⟩
  have hmem : j.id ∈ db'.incidents.map (·.id) := List.mem_map.mpr ⟨j, hj, rfl⟩
  rw [hids] at hmem
  obtain ⟨i, hi, hij⟩ := List.mem_map.mp hmem
  have hlt := h.below i hi
  have hsame : i.id = j.id := hij
  rw [hrows.nextId]
  omega

theorem Rows.setIncident {found updated : Incident} (hdb : Ids db) (hrefl : ∀ i, R i i)
    (hfound : found ∈ db.incidents) (hid : updated.id = found.id) (h : R found updated) :
    Rows R db (db.setIncident updated) := by
  refine ⟨?_, rfl⟩
  rw [Db.setIncident, List.forall₂_map_right_iff, List.forall₂_same]
  intro i hi
  split
  · rename_i hsame
    obtain rfl : i = found := List.inj_on_of_nodup_map hdb.unique hi hfound (hsame.trans hid)
    exact h
  · exact hrefl i

theorem closeIncident_rows (hdb : Ids db) (now : ℤ) (type : EventType) (message : String)
    (createdBy : Option String) (incident : Incident) :
    Rows (ClosedBy now) db (closeIncident now type message createdBy db incident) := by
  unfold closeIncident
  split
  · exact .of_eq (fun _ => .inl rfl) rfl rfl
  · rename_i found hfind
    obtain ⟨hmem, -, hopen⟩ := find_spec hfind
    have hopen : found.status ≠ .resolved := by simpa using hopen
    have hset : Rows (ClosedBy now) db (db.setIncident { found with
        status := .resolved
        resolvedAt := some now
        statusRevision := found.statusRevision + 1 }) :=
      .setIncident hdb (fun _ => .inl rfl) hmem rfl (.inr ⟨hopen, rfl⟩)
    have hevent := hset.addEvent found.id type (some .resolved) message createdBy
    dsimp only
    split
    · exact hevent.recordDispatchIntent _
    · exact hevent

theorem closeAll_rows (hdb : Ids db) (now : ℤ) (type : EventType) (message : String)
    (createdBy : Option String) (incidents : List Incident) :
    Rows (ClosedBy now) db (incidents.foldl (closeIncident now type message createdBy) db) := by
  induction incidents generalizing db with
  | nil => exact .of_eq (fun _ => .inl rfl) rfl rfl
  | cons incident rest ih =>
    have hfirst := closeIncident_rows hdb now type message createdBy incident
    have hrest := ih (hdb.rows hfirst fun i j h => h.sameLink.id)
    exact hfirst.trans hrest fun _ _ _ => ClosedBy.trans

/-- An incident as it is inserted: nothing has happened to it yet, and no other of its monitor is
active. -/
structure Fresh (db : Db) (incident : Incident) : Prop where
  id : incident.id = db.nextId
  status : incident.status = .investigating
  resolvedAt : incident.resolvedAt = none
  statusRevision : incident.statusRevision = 0
  alone : ∀ monitorId, incident.active monitorId = true →
    db.incidents.any (Incident.active monitorId) = false

inductive Change (db db' : Db) : Prop where
  | inserted (incident : Incident) (fresh : Fresh db incident)
      (rows : db'.incidents = incident :: db.incidents) (nextId : db'.nextId = db.nextId + 1)
  | rewritten (rows : Rows Lawful db db')

theorem Change.of_sameLink (rows : Rows SameLink db db') : Change db db' :=
  .rewritten (rows.mono fun _ _ h => h.toLawful)

theorem Change.of_eq (h : db'.incidents = db.incidents) (hnext : db'.nextId = db.nextId) :
    Change db db' :=
  .rewritten (.of_eq Lawful.refl h hnext)

/-! ### Each write -/

theorem createIncident_change (db : Db) (actor : Actor) (title : String)
    (severity : IncidentSeverity) (message : Option String) :
    Change db (createIncident db actor title severity message).1 := by
  refine .inserted (createIncident db actor title severity message).2
    ⟨rfl, rfl, rfl, rfl, fun monitorId h => ?_⟩ ?_ ?_
  · simp [createIncident, Incident.active] at h
  · simp [createIncident, Db.addEvent]
  · simp [createIncident, Db.addEvent]

theorem acknowledgeIncident_rows {actor : Actor} {incidentId : ℕ} {updated : Incident}
    (hdb : Ids db) (h : acknowledgeIncident db actor incidentId now = some (db', updated)) :
    Rows SameLink db db' := by
  obtain ⟨found, hfind, heq⟩ := Option.map_eq_some_iff.mp h
  cases heq
  obtain ⟨hmem, -, -⟩ := find_spec hfind
  refine Rows.addEvent (.setIncident hdb SameLink.refl hmem ?_ ?_) _ _ _ _ _
  · rfl
  · exact ⟨⟨rfl, rfl, rfl, .inl rfl, fun _ => rfl, .inl ⟨rfl, rfl, rfl⟩⟩, rfl⟩

theorem changeIncidentSeverity_rows {actor : Actor} {seen updated : Incident}
    {severity : IncidentSeverity} (hdb : Ids db)
    (h : changeIncidentSeverity db actor seen severity = some (db', updated)) :
    Rows SameLink db db' := by
  obtain ⟨found, hfind, heq⟩ := Option.map_eq_some_iff.mp h
  cases heq
  obtain ⟨hmem, -, hopen⟩ := find_spec hfind
  have hopen : found.status ≠ .resolved := by
    simp only [Bool.and_eq_true, decide_eq_true_eq] at hopen
    exact hopen.2
  refine Rows.recordDispatchIntent (Rows.addEvent (.setIncident hdb SameLink.refl hmem ?_ ?_)
    _ _ _ _ _) _
  · rfl
  · exact ⟨⟨rfl, rfl, rfl, .inl rfl, fun hres => absurd hres hopen, .inl ⟨rfl, rfl, rfl⟩⟩, rfl⟩

theorem postIncidentUpdate_rows (db : Db) (actor : Actor) (seen : Incident) (message : String)
    (internal : Bool) : Rows SameLink db (postIncidentUpdate db actor seen message internal).1 := by
  have hsame : Rows SameLink db db := .of_eq SameLink.refl rfl rfl
  have hevent := hsame.addEvent seen.id .update none message (some actor.userId)
  unfold postIncidentUpdate
  dsimp only
  split
  · exact hevent
  · exact hevent.recordDispatchIntent _

theorem claimOpenedNotifications_rows (hdb : Ids db) (incidentId : ℕ) (now : ℤ) :
    Rows SameLink db (claimOpenedNotifications db incidentId now).1 := by
  unfold claimOpenedNotifications
  split
  · exact .of_eq SameLink.refl rfl rfl
  · rename_i found hfind
    obtain ⟨hmem, -, -⟩ := find_spec hfind
    refine Rows.recordDispatchIntent (.setIncident hdb SameLink.refl hmem ?_ ?_) _
    · rfl
    · exact ⟨⟨rfl, rfl, rfl, .inl rfl, fun _ => rfl, .inl ⟨rfl, rfl, rfl⟩⟩, rfl⟩

theorem changeIncidentStatus_rows {actor : String} {incidentId : ℕ} {seen next : IncidentStatus}
    {message : String} (hdb : Ids db)
    (h : changeIncidentStatus db actor incidentId seen next message now = some db') :
    Rows SameLink db db' := by
  unfold changeIncidentStatus at h
  split at h
  · rename_i hcan
    split at h
    · cases h
    · rename_i found hfind
      obtain ⟨hmem, -, hseen⟩ := find_spec hfind
      cases h
      have hseen : found.status = seen := by simpa using hseen
      simp only [canTransition, Bool.and_eq_true, decide_eq_true_eq, ← hseen] at hcan
      refine Rows.recordDispatchIntent (Rows.addEvent (.setIncident hdb SameLink.refl hmem ?_ ?_)
        _ _ _ _ _) _
      · rfl
      · refine ⟨⟨rfl, rfl, rfl, .inl rfl, fun hres => absurd hres hcan.1,
          .inr ⟨hcan.1, Ne.symm hcan.2, ?_, rfl⟩⟩, rfl⟩
        by_cases hnext : next = .resolved <;> simp [hnext]
  · cases h

theorem deleteMonitorRow_rows (db : Db) (monitorId : ℕ) :
    Rows Lawful db (deleteMonitorRow db monitorId) := by
  refine ⟨?_, rfl⟩
  rw [deleteMonitorRow, List.forall₂_map_right_iff, List.forall₂_same]
  intro i _
  split
  · exact ⟨rfl, rfl, rfl, .inr rfl, fun _ => rfl, .inl ⟨rfl, rfl, rfl⟩⟩
  · exact .refl i

theorem openMonitorIncident_change (db : Db) (current : Option Monitor) (monitor : Monitor) :
    Change db
      { (openMonitorIncident { db with monitor := current } monitor).1 with
        monitor := db.monitor } := by
  unfold openMonitorIncident
  split
  · exact .of_eq rfl rfl
  · dsimp only
    split_ifs with hup hpaused hactive
    · exact .of_eq rfl rfl
    · exact .of_eq rfl rfl
    · exact .of_eq rfl rfl
    · refine .inserted _ ⟨rfl, rfl, rfl, rfl, fun monitorId h => ?_⟩ rfl rfl
      have hmonitor : monitor.id = monitorId := by simpa [Incident.active] using h
      rw [← hmonitor]
      simpa using hactive

theorem write_change (now : ℤ) (hdb : Ids s.db) (txn : Txn) :
    Change s.db (write now s txn).1.db := by
  cases txn with
  | creating actor title severity message =>
    exact createIncident_change s.db actor title severity message
  | acknowledging actor incidentId =>
    simp only [write]
    split
    · exact .of_eq rfl rfl
    · rename_i db updated heq
      exact .of_sameLink (acknowledgeIncident_rows hdb heq)
  | changingStatus actor seen status message =>
    simp only [write]
    split
    · exact .of_eq rfl rfl
    · rename_i db heq
      split_ifs at heq
      exact .of_sameLink (changeIncidentStatus_rows hdb heq)
  | posting actor seen message internal =>
    exact .of_sameLink (postIncidentUpdate_rows s.db actor seen message internal)
  | changingSeverity actor seen severity =>
    simp only [write]
    split
    · exact .of_eq rfl rfl
    · rename_i db updated heq
      exact .of_sameLink (changeIncidentSeverity_rows hdb heq)
  | opening monitor current => exact openMonitorIncident_change s.db current monitor
  | claiming incidentId => exact .of_sameLink (claimOpenedNotifications_rows hdb incidentId now)
  | resolving monitor rest resolved =>
    cases rest with
    | nil => exact .of_eq rfl rfl
    | cons incident rest =>
      exact .rewritten ((closeIncident_rows hdb now _ _ _ incident).mono fun _ _ h => h.sameLink.toLawful)
  | closing actor monitor =>
    exact .rewritten ((closeAll_rows hdb now _ _ _ _).mono fun _ _ h => h.sameLink.toLawful)
  | deleting monitorId => exact .rewritten (deleteMonitorRow_rows s.db monitorId)
  | ended reply => exact .of_eq rfl rfl
  | notAcknowledged actor incidentId => exact .of_eq rfl rfl
  | finding monitor => exact .of_eq rfl rfl

/-- A step changes the incidents lawfully, and its changes of status are counted. -/
theorem step_change {s t : World} {a : Action} (hdb : Ids s.db) (h : step s a = some t) :
    Change s.db t.db ∧ ∀ id, t.transitions id =
      s.transitions id + if (s.status? id).isSome && s.status? id ≠ t.status? id then 1 else 0 := by
  cases a with
  | begin session operation | monitorMoves monitor =>
    simp only [step] at h
    split at h
    · cases h
      exact ⟨.of_eq rfl rfl, fun id => by simp [World.status?, World.incident?]⟩
    · cases h
  | write session now =>
    simp only [step] at h
    split at h
    · cases h
      exact ⟨write_change now hdb _, fun id => rfl⟩
    · cases h

/-! ### Every interleaving -/

structure Sound (s : World) : Prop where
  one : ∀ monitorId, (s.db.incidents.filter (Incident.active monitorId)).length ≤ 1
  resolvedAt : ∀ i ∈ s.db.incidents, i.resolvedAt.isSome ↔ i.status = .resolved
  statusRevision : ∀ i ∈ s.db.incidents, i.statusRevision = s.transitions i.id

/-- What is resolved stays resolved, with its severity. -/
def Terminal (s t : World) : Prop :=
  ∀ id i, s.incident? id = some i → i.status = .resolved →
    ∃ j, t.incident? id = some j ∧ j.status = .resolved ∧ j.severity = i.severity

/-- What every reachable state satisfies. -/
structure Inv (s : World) : Prop where
  ids : Ids s.db
  sound : Sound s
  /-- An incident that is yet to be inserted has no changes to its name. -/
  unborn : ∀ id, s.db.nextId ≤ id → s.transitions id = 0

theorem incident?_eq_some (hdb : Ids s.db) {i : Incident} {id : ℕ} :
    s.incident? id = some i ↔ i ∈ s.db.incidents ∧ i.id = id := by
  constructor
  · intro h
    exact ⟨List.mem_of_find?_eq_some h, by simpa using List.find?_some h⟩
  · rintro ⟨hi, rfl⟩
    cases hfind : s.incident? i.id with
    | none => exact absurd (by simp) (List.find?_eq_none.mp hfind i hi)
    | some j =>
      have hj : j.id = i.id := by simpa using List.find?_some hfind
      rw [List.inj_on_of_nodup_map hdb.unique (List.mem_of_find?_eq_some hfind) hi hj]

theorem status?_of_mem (hdb : Ids s.db) {i : Incident} (hi : i ∈ s.db.incidents) :
    s.status? i.id = some i.status := by
  rw [World.status?, (incident?_eq_some hdb).mpr ⟨hi, rfl⟩, Option.map_some]

theorem forall₂_mem {α β : Type} {R : α → β → Prop} {l : List α} {l' : List β}
    (h : List.Forall₂ R l l') :
    (∀ a ∈ l, ∃ b ∈ l', R a b) ∧ ∀ b ∈ l', ∃ a ∈ l, R a b := by
  induction h with
  | nil => exact ⟨by simp, by simp⟩
  | cons hR _ ih => exact ⟨by simp_all, by simp_all⟩

theorem forall₂_filter_length {l l' : List Incident} (h : List.Forall₂ Lawful l l')
    (monitorId : ℕ) :
    (l'.filter (Incident.active monitorId)).length ≤
      (l.filter (Incident.active monitorId)).length := by
  induction h with
  | nil => exact le_rfl
  | @cons i j _ _ hR _ ih =>
    by_cases hj : j.active monitorId = true
    · rw [List.filter_cons_of_pos hj, List.filter_cons_of_pos (hR.active hj)]
      exact Nat.succ_le_succ ih
    · rw [List.filter_cons_of_neg hj, List.filter_cons]
      split
      · exact Nat.le_succ_of_le ih
      · exact ih

theorem Change.ids (h : Change db db') (hdb : Ids db) : Ids db' := by
  cases h with
  | rewritten rows => exact hdb.rows rows fun _ _ hR => hR.id
  | inserted incident fresh rows nextId =>
    refine ⟨fun i hi => ?_, ?_⟩
    · rw [rows] at hi
      rw [nextId]
      rcases List.mem_cons.mp hi with rfl | hi
      · exact fresh.id ▸ Nat.lt_succ_self _
      · exact Nat.lt_succ_of_lt (hdb.below i hi)
    · rw [rows, List.map_cons, List.nodup_cons]
      refine ⟨fun hmem => ?_, hdb.unique⟩
      obtain ⟨i, hi, hsame⟩ := List.mem_map.mp hmem
      have hlt := hdb.below i hi
      have hid := fresh.id
      omega

theorem Change.one (h : Change db db') {monitorId : ℕ}
    (hone : (db.incidents.filter (Incident.active monitorId)).length ≤ 1) :
    (db'.incidents.filter (Incident.active monitorId)).length ≤ 1 := by
  cases h with
  | rewritten rows => exact (forall₂_filter_length rows.rows monitorId).trans hone
  | inserted incident fresh rows nextId =>
    rw [rows, List.filter_cons]
    split
    · rename_i hactive
      have hnone : db.incidents.filter (Incident.active monitorId) = [] := by
        rw [List.filter_eq_nil_iff]
        exact List.any_eq_false.mp (fresh.alone monitorId hactive)
      simp [hnone]
    · exact hone

theorem Change.nextId_le (h : Change db db') : db.nextId ≤ db'.nextId := by
  cases h with
  | rewritten rows => exact rows.nextId.ge
  | inserted incident fresh rows nextId => omega

theorem Change.resolvedAt (h : Change db db')
    (hdb : ∀ i ∈ db.incidents, i.resolvedAt.isSome ↔ i.status = .resolved) :
    ∀ i ∈ db'.incidents, i.resolvedAt.isSome ↔ i.status = .resolved := by
  intro j hj
  cases h with
  | inserted incident fresh rows nextId =>
    rw [rows] at hj
    rcases List.mem_cons.mp hj with rfl | hj
    · simp [fresh.resolvedAt, fresh.status]
    · exact hdb j hj
  | rewritten rows =>
    obtain ⟨i, hi, hR⟩ := (forall₂_mem rows.rows).2 j hj
    rcases hR.status with ⟨hstatus, hresolved, -⟩ | ⟨-, -, hresolved, -⟩
    · rw [hstatus, hresolved]
      exact hdb i hi
    · exact hresolved

theorem status?_eq_none (hdb : Ids s.db) {id : ℕ} (h : s.db.nextId ≤ id) : s.status? id = none := by
  rw [World.status?, Option.map_eq_none_iff, World.incident?, List.find?_eq_none]
  intro i hi
  have hlt := hdb.below i hi
  simp only [decide_eq_true_eq]
  omega

theorem statusRevision_step {s t : World} (h : Inv s) (hchange : Change s.db t.db)
    (hcount : ∀ id, t.transitions id =
      s.transitions id + if (s.status? id).isSome && s.status? id ≠ t.status? id then 1 else 0) :
    ∀ i ∈ t.db.incidents, i.statusRevision = t.transitions i.id := by
  have hids := hchange.ids h.ids
  intro j hj
  rw [hcount]
  cases hchange with
  | inserted incident fresh rows nextId =>
    rw [rows] at hj
    rcases List.mem_cons.mp hj with rfl | hi
    · simp [status?_eq_none h.ids fresh.id.ge, fresh.statusRevision, h.unborn j.id fresh.id.ge]
    · have hsame : t.status? j.id = s.status? j.id := by
        rw [status?_of_mem h.ids hi, status?_of_mem hids (rows ▸ List.mem_cons_of_mem _ hi)]
      simp [hsame, h.sound.statusRevision j hi]
  | rewritten rows =>
    obtain ⟨i, hi, hR⟩ := (forall₂_mem rows.rows).2 j hj
    have hbefore : s.status? j.id = some i.status := by rw [hR.id, status?_of_mem h.ids hi]
    have hrevision : s.transitions j.id = i.statusRevision := by
      rw [hR.id, h.sound.statusRevision i hi]
    rw [hbefore, hrevision, status?_of_mem hids hj]
    rcases hR.status with ⟨hstatus, -, hsame⟩ | ⟨-, hstatus, -, hnext⟩
    · simp [hstatus, hsame]
    · simp [Ne.symm hstatus, hnext]

theorem step_inv {s t : World} {a : Action} (h : Inv s) (hs : step s a = some t) : Inv t := by
  obtain ⟨hchange, hcount⟩ := step_change h.ids hs
  refine ⟨hchange.ids h.ids, ⟨fun monitorId => hchange.one (h.sound.one monitorId),
    hchange.resolvedAt h.sound.resolvedAt, statusRevision_step h hchange hcount⟩, fun id hid => ?_⟩
  have hfree : s.db.nextId ≤ id := hchange.nextId_le.trans hid
  rw [hcount, h.unborn id hfree, status?_eq_none h.ids hfree]
  simp

theorem init_inv (monitors : List Monitor) : Inv (machine monitors).init where
  ids := ⟨by simp [machine], by simp [machine]⟩
  sound := ⟨by simp [machine], by simp [machine], by simp [machine]⟩
  unborn := by simp [machine]

theorem reachable_inv {monitors : List Monitor} (h : (machine monitors).Reachable s) : Inv s :=
  h.induct (P := Inv) (init_inv monitors) fun _ _ _ _ hinv hs => step_inv hinv hs

theorem step_terminal {s t : World} {a : Action} (h : Inv s) (hs : step s a = some t) :
    Terminal s t := by
  intro id i hi hresolved
  have hchange := (step_change h.ids hs).1
  have hids := hchange.ids h.ids
  obtain ⟨hmem, rfl⟩ := (incident?_eq_some h.ids).mp hi
  cases hchange with
  | inserted incident fresh rows nextId =>
    refine ⟨i, (incident?_eq_some hids).mpr ⟨?_, rfl⟩, hresolved, rfl⟩
    rw [rows]
    exact List.mem_cons_of_mem _ hmem
  | rewritten rows =>
    obtain ⟨j, hj, hR⟩ := (forall₂_mem rows.rows).1 i hmem
    exact ⟨j, (incident?_eq_some hids).mpr ⟨hj, hR.id⟩, hR.resolved hresolved,
      hR.severity hresolved⟩

/-- In every interleaving a monitor has at most one active incident, an incident has a time of
resolution exactly while it is resolved, its revision counts the changes of its status, and what is
resolved stays as it is. -/
theorem lifecycle (monitors : List Monitor) (acts : List Action) :
    (machine monitors).Always acts Sound ∧
      (machine monitors).EachMove acts fun s _ t => Terminal s t :=
  ⟨.of_reachable (fun _ h => (reachable_inv h).sound) acts,
    .of_reachable (fun _ _ _ h hs => step_terminal (reachable_inv h) hs) acts⟩

end Vigil.Incidents.Lifecycle
