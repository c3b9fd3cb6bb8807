import Vigil.Lib.Run
import Vigil.Js.Text
import Vigil.Notifications.Intents

/-! The sweep of `notifications/intent-expansion.ts`, run by any number of workers at once.  A worker
reads which intents are pending without a lock, expands them one by one, and after an expansion that
threw it records the failure in a transaction of its own.  An expansion is one step: it holds the
lock of its intent from the read to the commit, and a worker that finds the lock taken goes on. -/

namespace Vigil.Notifications.Expansion

open Js.Text Intents Lib

/-- The state of an intent's row. -/
inductive IntentState where
  | pending
  | expanded
  | failed
  deriving DecidableEq, Repr

/-- A row of `dispatch_intents`, as far as the expansion reads it. -/
structure IntentRow where
  organizationId : String
  causeKey : Cause
  payload : DispatchIntentPayload
  state : IntentState
  attempts : ℕ
  lastError : Option JsString
  deriving DecidableEq, Repr

structure Db where
  intents : ℕ → Option IntentRow
  nextId : ℕ
  outbox : List QueuedRow
  audience : Audience

/-- Where a worker stands in its sweep: the identifiers and the attempts that it has read. -/
inductive Sweep where
  | idle
  | expanding (due : List (ℕ × ℕ))
  /-- The expansion of an intent threw. -/
  | threw (id attempts : ℕ) (error : JsString) (rest : List (ℕ × ℕ))
  deriving DecidableEq, Repr

def Db.setIntent (db : Db) (id : ℕ) (row : IntentRow) : Db :=
  { db with intents := Function.update db.intents id (some row) }

/-- An intent that owes nothing, or whose cause is there already, is not written. -/
def recordDispatchIntent (db : Db) (organizationId : String) (causeKey : Cause)
    (payload : DispatchIntentPayload) : Db :=
  if payload.owesNothing then db
  else if (List.range db.nextId).any fun id => (db.intents id).any (·.causeKey = causeKey) then db
  else
    { db.setIntent db.nextId
        { organizationId, causeKey, payload, state := .pending, attempts := 0,
          lastError := none } with
      nextId := db.nextId + 1 }

/-- The pending intents, oldest first. -/
def pendingIntents (db : Db) (limit : ℕ) (organizationId : Option String) : List (ℕ × ℕ) :=
  ((List.range db.nextId).filterMap fun id =>
    ((db.intents id).filter fun row => row.state = .pending &&
      organizationId.all (row.organizationId = ·)).map fun row => (id, row.attempts)).take limit

def expandOne (policy : Policy) (db : Db) (id : ℕ) : Db :=
  match (db.intents id).filter (·.state = .pending) with
  | none => db
  | some row =>
    let messages := expandPayload policy db.audience row.organizationId row.payload
    { db.setIntent id { row with state := .expanded, lastError := none } with
      outbox := enqueueMany (some id) db.outbox messages }

def maxExpansionAttempts : ℕ := 10

/-- `attempts` is the count that the sweep read. -/
def recordExpansionFailure (db : Db) (id attempts : ℕ) (error : JsString) : Db :=
  match db.intents id with
  | none => db
  | some row => db.setIntent id
      { row with
        attempts := attempts + 1
        lastError := some (error.take 2000)
        state := if attempts + 1 ≥ maxExpansionAttempts then .failed else row.state }

/-! ### The machine -/

structure World where
  db : Db
  workers : ℕ → Sweep

inductive Action where
  | recordIntent (organizationId : String) (causeKey : Cause) (payload : DispatchIntentPayload)
  | changeAudience (audience : Audience)
  /-- Any other insert into the outbox. -/
  | enqueue (message : OutboxMessage)
  | sweep (worker limit : ℕ) (organizationId : Option String)
  | expand (worker : ℕ) (policy : Policy)
  /-- Another transaction holds the lock of the intent. -/
  | skipLocked (worker : ℕ)
  | throw (worker : ℕ) (error : JsString)
  | recordFailure (worker : ℕ)
  /-- The failure could not be recorded. -/
  | loseFailure (worker : ℕ)

def World.setWorker (s : World) (worker : ℕ) (sweep : Sweep) : World :=
  { s with workers := Function.update s.workers worker sweep }

/-- The next intent of a sweep. -/
def Sweep.next? : Sweep → Option (ℕ × ℕ × List (ℕ × ℕ))
  | .expanding ((id, attempts) :: rest) => some (id, attempts, rest)
  | _ => none

def Sweep.done : Sweep → Bool
  | .idle => true
  | .expanding [] => true
  | _ => false

/-- One step of the workers and of those that change the tables. -/
def step (s : World) : Action → Option World
  | .recordIntent organizationId causeKey payload =>
    some { s with db := recordDispatchIntent s.db organizationId causeKey payload }
  | .changeAudience audience => some { s with db := { s.db with audience } }
  | .enqueue message =>
    some { s with db := { s.db with outbox := Intents.enqueue none s.db.outbox message } }
  | .sweep worker limit organizationId =>
    if (s.workers worker).done then
      some (s.setWorker worker (.expanding (pendingIntents s.db limit organizationId)))
    else none
  | .expand worker policy =>
    (s.workers worker).next?.map fun (id, _, rest) =>
      { s with db := expandOne policy s.db id }.setWorker worker (.expanding rest)
  | .skipLocked worker =>
    (s.workers worker).next?.map fun (_, _, rest) => s.setWorker worker (.expanding rest)
  | .throw worker error =>
    (s.workers worker).next?.map fun (id, attempts, rest) =>
      s.setWorker worker (.threw id attempts error rest)
  | .recordFailure worker =>
    match s.workers worker with
    | .threw id attempts error rest =>
      some ({ s with db := recordExpansionFailure s.db id attempts error }.setWorker worker
        (.expanding rest))
    | _ => none
  | .loseFailure worker =>
    match s.workers worker with
    | .threw _ _ _ rest => some (s.setWorker worker (.expanding rest))
    | _ => none

/-- The runs from an empty queue. -/
def machine (audience : Audience) : Machine World Action where
  init := ⟨⟨fun _ => none, 0, [], audience⟩, fun _ => .idle⟩
  step := step

/-! ### What a step does to the intents -/

variable (db : Db)

@[simp] theorem setIntent_self (id : ℕ) (row : IntentRow) :
    (db.setIntent id row).intents id = some row := by simp [Db.setIntent]

theorem setIntent_of_ne {id id' : ℕ} (row : IntentRow) (h : id' ≠ id) :
    (db.setIntent id row).intents id' = db.intents id' := by simp [Db.setIntent, h]

/-- The identifiers from the next one on are free, and no two rows share a key. -/
structure Inv (db : Db) : Prop where
  free : ∀ id, db.nextId ≤ id → db.intents id = none
  oneEach : OneEach db.outbox

/-- What a step other than the record of a failure makes of the tables. -/
inductive Change (db db' : Db) : Prop where
  | quiet (intents : db'.intents = db.intents) (nextId : db'.nextId = db.nextId)
      (outbox : ∀ row ∈ db'.outbox, row ∈ db.outbox ∨ row.queuedBy = none)
      (oneEach : OneEach db.outbox → OneEach db'.outbox)
  | recorded (row : IntentRow) (pending : row.state = .pending)
      (intents : db'.intents = Function.update db.intents db.nextId (some row))
      (nextId : db'.nextId = db.nextId + 1) (outbox : db'.outbox = db.outbox)
  | expanded (id : ℕ) (row row' : IntentRow) (found : db.intents id = some row)
      (pending : row.state = .pending) (state : row'.state = .expanded)
      (intents : db'.intents = Function.update db.intents id (some row'))
      (nextId : db'.nextId = db.nextId)
      (outbox : ∀ q ∈ db'.outbox, q ∈ db.outbox ∨ q.queuedBy = some id)
      (oneEach : OneEach db.outbox → OneEach db'.outbox)

theorem Change.of_eq {db db' : Db} (intents : db'.intents = db.intents)
    (nextId : db'.nextId = db.nextId) (outbox : db'.outbox = db.outbox) : Change db db' :=
  .quiet intents nextId (fun _ h => .inl (outbox ▸ h)) fun h => outbox ▸ h

theorem recordDispatchIntent_change (organizationId : String) (causeKey : Cause)
    (payload : DispatchIntentPayload) :
    Change db (recordDispatchIntent db organizationId causeKey payload) := by
  unfold recordDispatchIntent
  split_ifs
  · exact .of_eq rfl rfl rfl
  · exact .of_eq rfl rfl rfl
  · exact .recorded _ rfl rfl rfl rfl

theorem expandOne_change (policy : Policy) (db : Db) (id : ℕ) :
    Change db (expandOne policy db id) := by
  unfold expandOne
  split
  · exact .of_eq rfl rfl rfl
  · rename_i row hrow
    obtain ⟨hfound, hpending⟩ := Option.filter_eq_some_iff.mp hrow
    refine .expanded id row _ hfound (by simpa using hpending) rfl rfl rfl (fun q hq => ?_)
      fun h => h.enqueueMany _ _
    exact (mem_enqueueMany hq).imp_right And.left

/-- A failure that is recorded as the last one allowed. -/
def Retires (s : World) (a : Action) (id : ℕ) : Prop :=
  ∃ worker attempts error rest, a = .recordFailure worker ∧
    s.workers worker = .threw id attempts error rest ∧ maxExpansionAttempts ≤ attempts + 1

variable {a : Action}

theorem not_retires {s : World} (h : ∀ worker, a ≠ .recordFailure worker) (id : ℕ) :
    ¬Retires s a id := by
  rintro ⟨worker, _, _, _, ha, -⟩
  exact h worker ha

theorem step_cases {s t : World} (h : step s a = some t) :
    (Change s.db t.db ∧ ∀ id, ¬Retires s a id) ∨
      ∃ worker id attempts error rest, a = .recordFailure worker ∧
        s.workers worker = .threw id attempts error rest ∧
        t.db = recordExpansionFailure s.db id attempts error := by
  cases a with
  | recordFailure worker =>
    simp only [step] at h
    split at h
    · rename_i id attempts error rest hworker
      cases h
      exact .inr ⟨worker, id, attempts, error, rest, rfl, hworker, rfl⟩
    · cases h
  | recordIntent organizationId causeKey payload =>
    cases h
    exact .inl ⟨recordDispatchIntent_change _ _ _ _, not_retires (by simp)⟩
  | changeAudience audience =>
    cases h
    exact .inl ⟨.of_eq rfl rfl rfl, not_retires (by simp)⟩
  | enqueue message =>
    cases h
    refine .inl ⟨.quiet rfl rfl (fun q hq => ?_) fun h => h.enqueue none message,
      not_retires (by simp)⟩
    rcases mem_enqueue hq with hq | rfl
    · exact .inl hq
    · exact .inr rfl
  | sweep worker limit organizationId | loseFailure worker =>
    simp only [step] at h
    split at h
    · cases h
      exact .inl ⟨.of_eq rfl rfl rfl, not_retires (by simp)⟩
    · cases h
  | expand worker policy =>
    obtain ⟨⟨id, attempts, rest⟩, -, rfl⟩ := Option.map_eq_some_iff.mp h
    exact .inl ⟨expandOne_change policy s.db id, not_retires (by simp)⟩
  | skipLocked worker | throw worker error =>
    obtain ⟨⟨id, attempts, rest⟩, -, rfl⟩ := Option.map_eq_some_iff.mp h
    exact .inl ⟨.of_eq rfl rfl rfl, not_retires (by simp)⟩

theorem recordExpansionFailure_spec (id attempts : ℕ) (error : JsString) :
    (recordExpansionFailure db id attempts error).nextId = db.nextId ∧
      (recordExpansionFailure db id attempts error).outbox = db.outbox ∧
      ∀ id', (recordExpansionFailure db id attempts error).intents id' =
        (db.intents id').map fun row =>
          if id' = id then
            { row with
              attempts := attempts + 1
              lastError := some (error.take 2000)
              state := if attempts + 1 ≥ maxExpansionAttempts then .failed else row.state }
          else row := by
  unfold recordExpansionFailure
  split
  · rename_i hnone
    refine ⟨rfl, rfl, fun id' => ?_⟩
    by_cases hid : id' = id
    · subst hid
      rw [hnone, Option.map_none]
    · simp [hid]
  · rename_i row hrow
    refine ⟨rfl, rfl, fun id' => ?_⟩
    by_cases hid : id' = id
    · subst hid
      rw [setIntent_self, hrow, Option.map_some, if_pos rfl]
    · rw [setIntent_of_ne _ _ hid]
      simp [hid]

theorem step_inv {s t : World} (h : Inv s.db) (hs : step s a = some t) : Inv t.db := by
  rcases step_cases hs with ⟨hchange, -⟩ | ⟨worker, id, attempts, error, rest, -, -, hdb⟩
  · cases hchange with
    | quiet intents nextId outbox oneEach =>
      exact ⟨by rw [intents, nextId]; exact h.free, oneEach h.oneEach⟩
    | recorded row pending intents nextId outbox =>
      refine ⟨fun id hid => ?_, outbox ▸ h.oneEach⟩
      rw [intents, Function.update_of_ne (by omega)]
      exact h.free id (by omega)
    | expanded id row row' found pending state intents nextId outbox oneEach =>
      refine ⟨fun id' hid => ?_, oneEach h.oneEach⟩
      have hne : id' ≠ id := by
        rintro rfl
        rw [h.free id' (nextId ▸ hid)] at found
        cases found
      rw [intents, Function.update_of_ne hne]
      exact h.free id' (nextId ▸ hid)
  · obtain ⟨hnext, houtbox, hintents⟩ := recordExpansionFailure_spec s.db id attempts error
    rw [hdb]
    refine ⟨fun id' hid => ?_, houtbox ▸ h.oneEach⟩
    rw [hintents, h.free id' (hnext ▸ hid), Option.map_none]

theorem reachable_inv {audience : Audience} {s : World} (h : (machine audience).Reachable s) :
    Inv s.db := by
  refine h.induct (P := fun s => Inv s.db) ?_ fun _ _ _ _ hinv hs => step_inv hinv hs
  exact ⟨fun _ _ => rfl, List.nodup_nil⟩

/-! ### Exactly once -/

/-- What is expanded stays expanded. -/
def ExpandedStays (s t : World) : Prop :=
  ∀ id row, s.db.intents id = some row → row.state = .expanded →
    ∃ row', t.db.intents id = some row' ∧ row'.state = .expanded

def FailedQueuedNothing (s : World) : Prop :=
  ∀ id row, s.db.intents id = some row → row.state = .failed →
    ∀ q ∈ s.db.outbox, q.queuedBy ≠ some id

/-- The last failure that is allowed is not recorded of an intent that is expanded by then. -/
def NotLate (s : World) (a : Action) : Prop :=
  ∀ id, Retires s a id → ∀ row, s.db.intents id = some row → row.state ≠ .expanded

theorem expandedStays_iff {s t : World} (h : Inv s.db) (hs : step s a = some t) :
    ExpandedStays s t ↔ NotLate s a := by
  rcases step_cases hs with ⟨hchange, hno⟩ | ⟨worker, id, attempts, error, rest, rfl, hworker, hdb⟩
  · refine iff_of_true (fun id row hrow hstate => ?_) fun id hid => absurd hid (hno id)
    cases hchange with
    | quiet intents nextId outbox oneEach => exact ⟨row, by rw [intents, hrow], hstate⟩
    | recorded new pending intents nextId outbox =>
      have hne : id ≠ s.db.nextId := by
        rintro rfl
        rw [h.free _ le_rfl] at hrow
        cases hrow
      exact ⟨row, by rw [intents, Function.update_of_ne hne, hrow], hstate⟩
    | expanded id' old new found pending state intents nextId outbox oneEach =>
      by_cases hid : id = id'
      · subst hid
        exact ⟨new, by rw [intents, Function.update_self], state⟩
      · exact ⟨row, by rw [intents, Function.update_of_ne hid, hrow], hstate⟩
  · obtain ⟨-, -, hintents⟩ := recordExpansionFailure_spec s.db id attempts error
    constructor
    · rintro hstays id' ⟨worker', attempts', error', rest', ha, hworker', hlast⟩ row hrow hstate
      cases ha
      cases hworker.symm.trans hworker'
      obtain ⟨row', hrow', hstate'⟩ := hstays id row hrow hstate
      rw [hdb, hintents, hrow, Option.map_some, if_pos rfl] at hrow'
      cases hrow'
      simp [hlast] at hstate'
    · intro hlate id' row hrow hstate
      rw [hdb, hintents, hrow, Option.map_some]
      refine ⟨_, rfl, ?_⟩
      by_cases hid : id' = id
      · subst hid
        have hmore : ¬maxExpansionAttempts ≤ attempts + 1 := fun hlast =>
          hlate id' ⟨worker, attempts, error, rest, rfl, hworker, hlast⟩ row hrow hstate
        simp [hmore, hstate]
      · simp [hid, hstate]

/-- Only an intent that is expanded has rows. -/
def Settled (s : World) : Prop :=
  ∀ q ∈ s.db.outbox, ∀ id, q.queuedBy = some id →
    ∃ row, s.db.intents id = some row ∧ row.state = .expanded

theorem Settled.failedQueuedNothing {s : World} (h : Settled s) : FailedQueuedNothing s := by
  intro id row hrow hstate q hq hby
  obtain ⟨row', hrow', hstate'⟩ := h q hq id hby
  obtain rfl : row = row' := by simpa [hrow] using hrow'
  rw [hstate] at hstate'
  cases hstate'

theorem step_settled {s t : World} (hinv : Inv s.db) (h : Settled s) (hlate : NotLate s a)
    (hs : step s a = some t) : Settled t := by
  have hstays := (expandedStays_iff hinv hs).mpr hlate
  have hold : ∀ q ∈ s.db.outbox, ∀ id, q.queuedBy = some id →
      ∃ row, t.db.intents id = some row ∧ row.state = .expanded := by
    intro q hq id hby
    obtain ⟨row, hrow, hstate⟩ := h q hq id hby
    exact hstays id row hrow hstate
  intro q hq id hby
  rcases step_cases hs with ⟨hchange, -⟩ | ⟨worker, id', attempts, error, rest, -, -, hdb⟩
  · cases hchange with
    | quiet intents nextId outbox oneEach =>
      rcases outbox q hq with hq | hnone
      · exact hold q hq id hby
      · rw [hnone] at hby
        cases hby
    | recorded row pending intents nextId outbox => exact hold q (outbox ▸ hq) id hby
    | expanded id' row row' found pending state intents nextId outbox oneEach =>
      rcases outbox q hq with hq | hnew
      · exact hold q hq id hby
      · obtain rfl : id' = id := by simpa [hnew] using hby
        exact ⟨row', by rw [intents, Function.update_self], state⟩
  · rw [hdb, (recordExpansionFailure_spec s.db id' attempts error).2.1] at hq
    exact hold q hq id hby

/-- In every run, what is expanded stays expanded, a failed intent has queued nothing and no key is
queued twice, exactly if no last failure is recorded of an intent that another worker has expanded
by then. -/
theorem exactly_once_iff (audience : Audience) (acts : List Action) :
    ((machine audience).EachMove acts (fun s _ t => ExpandedStays s t) ∧
        (machine audience).Always acts fun s => FailedQueuedNothing s ∧ OneEach s.db.outbox) ↔
      (machine audience).EachStep acts NotLate := by
  have hmoves : (machine audience).EachMove acts (fun s _ t => ExpandedStays s t) ↔
      (machine audience).EachStep acts NotLate := by
    refine Machine.eachMove_iff_eachStep (fun s a t hr hs => ?_) acts
    exact expandedStays_iff (reachable_inv hr) hs
  constructor
  · exact fun h => hmoves.mp h.1
  · intro hG
    have hsettled : (machine audience).Always acts Settled := by
      refine .of_eachStep (G := NotLate) ?_ ?_ hG
      · intro q hq
        cases hq
      · exact fun s a t hr hsettled hlate hs => step_settled (reachable_inv hr) hsettled hlate hs
    exact ⟨hmoves.mpr hG, fun visited hpre s hs => ⟨(hsettled visited hpre s hs).failedQueuedNothing,
      (reachable_inv ⟨visited, hs⟩).oneEach⟩⟩

def slackOnly : Audience where
  channels :=
    [{ id := 7
       organizationId := "org"
       provider := "slack"
       enabled := true
       events := [.incident]
       scopedToMonitors := false }]
  channelMonitors := []
  members := []
  pages := []
  pageMonitors := []
  subscribers := []

/-- Nine failures of the only intent; then two workers read it, the first one's expansion throws,
the second one's commits, and the first one records its failure. -/
def lateFailure : List Action :=
  .recordIntent "org" (.dispatch 1 .incidentOpened none)
      ⟨[⟨.incidentOpened, .dispatch 1 .incidentOpened none, none, none⟩], none, none⟩ ::
    (List.replicate 9 [.sweep 1 50 none, .throw 1 (js "deadlock"), .recordFailure 1]).flatten ++
    [.sweep 1 50 none, .sweep 2 50 none, .throw 1 (js "deadlock"), .expand 2 .none,
      .recordFailure 1]

theorem late_failure_retires_expanded :
    ¬((machine slackOnly).EachMove lateFailure (fun s _ t => ExpandedStays s t) ∧
        (machine slackOnly).Always lateFailure fun s =>
          FailedQueuedNothing s ∧ OneEach s.db.outbox) := by
  rintro ⟨-, h⟩
  obtain ⟨s, hs, hfailed, hqueued⟩ : ∃ s, (machine slackOnly).exec lateFailure = some s ∧
      (∃ row, s.db.intents 0 = some row ∧ row.state = .failed) ∧
      ∃ q ∈ s.db.outbox, q.queuedBy = some 0 :=
    ⟨_, rfl, ⟨_, rfl, rfl⟩, _, List.mem_cons_self, rfl⟩
  obtain ⟨row, hrow, hstate⟩ := hfailed
  obtain ⟨q, hq, hby⟩ := hqueued
  exact (h _ List.prefix_rfl s hs).1 0 row hrow hstate q hq hby

end Vigil.Notifications.Expansion
