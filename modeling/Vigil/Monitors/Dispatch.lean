import Vigil.Lib.Run
import Vigil.Monitors.Record
import Vigil.Monitors.CheckTypes
import Mathlib.Data.List.Sort

/-! How checks are handed out: the scheduler tick finds the monitors that are due, claims them a
chunk at a time and enqueues what it claimed; a scheduled check reserves its monitor for a follow-up
and enqueues that; manual runs and promotions record outcomes without a job.  Any number of ticks and
checks interleave, each may stop between two steps, and the queue may refuse a job.  Times are
milliseconds.  Beside the tables a state keeps the claims that were granted, which no step reads. -/

namespace Vigil.Monitors.Dispatch

open Record CheckTypes Lib

/-! ### Rows -/

/-- A monitor with the columns that the scheduler reads beside those of the check path. -/
structure Row where
  monitor : Monitor
  checkType : String
  highFrequency : Bool
  nextEvaluationAt : Option ℤ
  deriving DecidableEq

def Row.id (r : Row) : ℕ := r.monitor.id

def Row.claimedUntil (r : Row) : Option ℤ := r.monitor.dispatchClaimedUntil

def Row.setClaim (r : Row) (claim : Option ℤ) : Row :=
  { r with monitor := { r.monitor with dispatchClaimedUntil := claim } }

def unscheduledCheckTypeIds : List String :=
  (checkTypeDescriptors.filter fun descriptor => !isScheduledKind descriptor.kind).map (·.id)

def tickGraceSeconds : ℤ := 30

def enqueueLeaseSeconds : ℤ := 90

def highFrequencyDeferralSeconds : ℤ := 60

def claimChunk : ℕ := 1000

def tickPeriodMs : ℤ := 60000

/-- The part of the due condition that means exclusivity. -/
def Row.unclaimed (r : Row) (now : ℤ) : Bool := r.claimedUntil.all (· ≤ now)

/-- The part of the due condition that says when. -/
def Row.isTime (r : Row) (now : ℤ) : Bool :=
  r.nextEvaluationAt.all fun next => next - tickGraceSeconds * 1000 ≤ now

/-- What `findDueMonitors` selects. -/
def dueCondition (excludedCheckTypes : List String) (organizationId : Option String) (now : ℤ)
    (r : Row) : Bool :=
  (organizationId.all fun organization => r.monitor.organizationId = organization) &&
    !r.monitor.paused && !excludedCheckTypes.contains r.checkType && r.isTime now &&
    r.unclaimed now

/-- `next_evaluation_at asc nulls first, id`. -/
def Row.before (a b : Row) : Bool :=
  match a.nextEvaluationAt, b.nextEvaluationAt with
  | none, none => a.id < b.id
  | none, some _ => true
  | some _, none => false
  | some x, some y => x < y || x = y && a.id < b.id

/-- The place of a monitor among those of its organization. -/
def Row.rank (due : List Row) (r : Row) : ℕ :=
  (due.filter fun other =>
    other.monitor.organizationId = r.monitor.organizationId && other.before r).length

def findDueMonitors (rows : List Row) (now : ℤ) (limit : ℕ) (organizationId : Option String) :
    List ℕ :=
  let due := rows.filter (dueCondition unscheduledCheckTypeIds organizationId now)
  let ranked := due.insertionSort fun a b =>
    Row.rank due a < Row.rank due b ∨ Row.rank due a = Row.rank due b ∧ b.before a = false
  (ranked.take limit).map (·.id)

def deferHighFrequencyOwned (rows : List Row) (now : ℤ) (ids : List ℕ) : List Row :=
  rows.map fun r =>
    if ids.contains r.id && r.highFrequency then
      { r with nextEvaluationAt := some (now + highFrequencyDeferralSeconds * 1000) }
    else r

/-! ### The state -/

inductive Dispatcher where
  | tick (n : ℕ)
  | check (n : ℕ)
  deriving DecidableEq

/-- A claim or a reservation that was taken. -/
structure Grant where
  /-- The statement that took it. -/
  serial : ℕ
  monitorId : ℕ
  dispatcher : Dispatcher
  expiresAt : ℤ
  /-- The due time that the dispatcher acted on. -/
  due : Option ℤ
  /-- Whether the check that was enqueued under it has recorded its outcome. -/
  recorded : Bool
  deriving DecidableEq

/-- A claim of a monitor, and which it was. -/
structure Claim where
  monitorId : ℕ
  serial : ℕ
  deriving DecidableEq

/-- A job in the queue. -/
structure Job where
  claim : Claim
  dispatcher : Dispatcher
  startAfter : Option ℤ
  deriving DecidableEq

/-- Where a tick stands. -/
inductive TickPhase where
  | idle
  /-- What `findDueMonitors` returned. -/
  | found (due : List ℕ)
  /-- The candidates that are still to be claimed, and what was claimed. -/
  | claiming (rest : List ℕ) (claimed : List Claim)

/-- Where a check stands. -/
inductive CheckPhase where
  | idle
  /-- The copy of the row, and the claim of the job, if there is one. -/
  | probing (copy : Row) (claim : Option ℕ)
  | applied (updated : Row)
  | reserving (updated : Row) (leaseSeconds : ℤ)
  | sending (updated : Row) (serial : ℕ)

structure State where
  now : ℤ
  rows : List Row
  jobs : List Job
  ticks : ℕ → TickPhase
  checks : ℕ → CheckPhase
  grants : List Grant
  nextSerial : ℕ

/-- Where a tick stands now. -/
def State.setTick (s : State) (tick : ℕ) (phase : TickPhase) : State :=
  { s with ticks := Function.update s.ticks tick phase }

/-- Where a check stands now. -/
def State.setCheck (s : State) (check : ℕ) (phase : CheckPhase) : State :=
  { s with checks := Function.update s.checks check phase }

/-- Every row with `p` is claimed until `expiresAt`. -/
def State.hand (s : State) (p : Row → Bool) (dispatcher : Dispatcher) (expiresAt : ℤ)
    (due : Row → Option ℤ) : State :=
  { s with
    rows := s.rows.map fun r => if p r then r.setClaim (some expiresAt) else r
    grants := s.grants ++ (s.rows.filter p).map fun r =>
      ⟨s.nextSerial, r.id, dispatcher, expiresAt, due r, false⟩
    nextSerial := s.nextSerial + 1 }

/-! ### Ticks -/

/-- The rows of a chunk that `claimMonitorsForDispatch` takes; `locked` are skipped. -/
def takes (now : ℤ) (chunk locked : List ℕ) (r : Row) : Bool :=
  chunk.contains r.id && !locked.contains r.id &&
    dueCondition unscheduledCheckTypeIds none now r

def claimMonitorsForDispatch (s : State) (tick : ℕ) (chunk locked : List ℕ) : State :=
  s.hand (takes s.now chunk locked) (.tick tick) (s.now + enqueueLeaseSeconds * 1000)
    (·.nextEvaluationAt)

/-- What one statement of the claim returns. -/
def claimedIds (s : State) (chunk locked : List ℕ) : List Claim :=
  (s.rows.filter (takes s.now chunk locked)).map fun r => ⟨r.id, s.nextSerial⟩

/-! ### Checks -/

/-- The row after `recordCheckOutcome`; `delayMs` is what the scheduling policy answers. -/
def recordRow (copy : Row) (outcome : CheckResult) (now delayMs : ℤ) (r : Row) : Row :=
  { r with
    monitor := (recordCheckOutcome r.monitor copy.monitor outcome now).1
    nextEvaluationAt :=
      if UpdateMatches copy.monitor r.monitor then
        if isScheduledKind (checkTypeKind copy.checkType) then some (now + delayMs) else none
      else r.nextEvaluationAt }

/-- The claim of the check is spent when its update goes through. -/
def spend (claim : Option ℕ) (monitorId : ℕ) (g : Grant) : Grant :=
  if some g.serial = claim ∧ g.monitorId = monitorId then { g with recorded := true } else g

def applyOutcome (s : State) (check : ℕ) (copy : Row) (claim : Option ℕ) (outcome : CheckResult)
    (delayMs : ℤ) : State :=
  let rows := s.rows.map (recordRow copy outcome s.now delayMs)
  let written := s.rows.any fun r => UpdateMatches copy.monitor r.monitor
  let s := { s with rows, grants := if written then s.grants.map (spend claim copy.id) else s.grants }
  match rows.find? fun r => r.id = copy.id with
  | none => s.setCheck check .idle
  | some updated => s.setCheck check (if claim.isSome then .applied updated else .idle)

/-- `Math.ceil(ms / 1000)`. -/
def ceilSeconds (ms : ℤ) : ℤ := -(-ms / 1000)

/-- The lease that `scheduleFastFollowUp` asks for, if it schedules one at all. -/
def followUpLease (updated : Row) (now : ℤ) : Option ℤ :=
  if updated.monitor.paused then none
  else
    updated.nextEvaluationAt.bind fun next =>
      if next - updated.monitor.lastCheckedAt.getD now > tickPeriodMs then none
      else some (ceilSeconds (max 0 (next - now)) + enqueueLeaseSeconds)

def reserves (now : ℤ) (monitorId : ℕ) (r : Row) : Bool :=
  r.id = monitorId && !r.monitor.paused && r.unclaimed now

def reserveMonitorForFollowUp (s : State) (check : ℕ) (updated : Row) (leaseSeconds : ℤ) : State :=
  if s.rows.any (reserves s.now updated.id) then
    (s.hand (reserves s.now updated.id) (.check check) (s.now + leaseSeconds * 1000)
      fun _ => updated.nextEvaluationAt).setCheck check (.sending updated s.nextSerial)
  else s.setCheck check .idle

/-! ### Steps -/

/-- What the clock, operators, ticks and checks do. -/
inductive Action where
  | wait (ms : ℕ)
  | create (row : Row)
  | delete (monitorId : ℕ)
  /-- A pause, an edit or a change of the due time; the claim is no column of theirs. -/
  | edit (monitorId : ℕ) (row : Row)
  | find (tick limit : ℕ) (organizationId : Option String)
  /-- The candidates without those that the high-frequency plane holds, which are deferred. -/
  | select (tick : ℕ) (held : List ℕ)
  | claim (tick : ℕ) (locked : List ℕ)
  /-- The queue takes the jobs of the monitors in `accepted`. -/
  | enqueue (tick : ℕ) (accepted : List ℕ)
  | failTick (tick : ℕ)
  /-- `runMonitorCheck` of a job, which reads the row. -/
  | start (check : ℕ) (job : Job)
  | runMonitorNow (check monitorId : ℕ)
  /-- A promotion, with the copy that its slot keeps. -/
  | promote (check : ℕ) (copy : Row)
  | apply (check : ℕ) (outcome : CheckResult) (delayMs : ℤ)
  | decideFollowUp (check : ℕ)
  | reserve (check : ℕ)
  | send (check : ℕ) (accepted : Bool)
  | failCheck (check : ℕ)

/-- Whether `runMonitorCheck` goes on with a row. -/
def checkable (r : Row) : Bool := !r.monitor.paused && isScheduledKind (checkTypeKind r.checkType)

/-- An action happens where its tick or check stands at the place for it. -/
def step (s : State) : Action → Option State
  | .wait ms => some { s with now := s.now + ms }
  | .create row =>
    if (∀ r ∈ s.rows, r.id ≠ row.id) ∧ ∀ g ∈ s.grants, g.monitorId ≠ row.id then
      some { s with rows := s.rows ++ [row.setClaim none] }
    else none
  | .delete monitorId => some { s with rows := s.rows.filter fun r => r.id ≠ monitorId }
  | .edit monitorId row =>
    if row.id = monitorId then
      some { s with
        rows := s.rows.map fun r => if r.id = monitorId then row.setClaim r.claimedUntil else r }
    else none
  | .find tick limit organizationId =>
    match s.ticks tick with
    | .idle => some (s.setTick tick (.found (findDueMonitors s.rows s.now limit organizationId)))
    | _ => none
  | .select tick held =>
    match s.ticks tick with
    | .found due =>
      some (State.setTick
        { s with
          rows := deferHighFrequencyOwned s.rows s.now (due.filter fun id => held.contains id) }
        tick (.claiming (due.filter fun id => !held.contains id) []))
    | _ => none
  | .claim tick locked =>
    match s.ticks tick with
    | .claiming (id :: rest) claimed =>
      let chunk := (id :: rest).take claimChunk
      some ((claimMonitorsForDispatch s tick chunk locked).setTick tick
        (.claiming ((id :: rest).drop claimChunk) (claimed ++ claimedIds s chunk locked)))
    | _ => none
  | .enqueue tick accepted =>
    match s.ticks tick with
    | .claiming [] claimed =>
      some (State.setTick
        { s with
          jobs := s.jobs ++ (claimed.filter fun c => accepted.contains c.monitorId).map fun c =>
            ⟨c, .tick tick, none⟩ }
        tick .idle)
    | _ => none
  | .failTick tick => some (s.setTick tick .idle)
  | .start check job =>
    match s.checks check with
    | .idle =>
      if job ∈ s.jobs then
        let s := { s with jobs := s.jobs.erase job }
        match s.rows.find? fun r => r.id = job.claim.monitorId && checkable r with
        | none => some s
        | some row => some (s.setCheck check (.probing row (some job.claim.serial)))
      else none
    | _ => none
  | .runMonitorNow check monitorId =>
    match s.checks check, s.rows.find? fun r =>
        r.id = monitorId && isScheduledKind (checkTypeKind r.checkType) with
    | .idle, some row => some (s.setCheck check (.probing row none))
    | _, _ => none
  | .promote check copy =>
    match s.checks check with
    | .idle => some (s.setCheck check (.probing copy none))
    | _ => none
  | .apply check outcome delayMs =>
    match s.checks check with
    | .probing copy claim => some (applyOutcome s check copy claim outcome delayMs)
    | _ => none
  | .decideFollowUp check =>
    match s.checks check with
    | .applied updated =>
      match followUpLease updated s.now with
      | none => some (s.setCheck check .idle)
      | some leaseSeconds => some (s.setCheck check (.reserving updated leaseSeconds))
    | _ => none
  | .reserve check =>
    match s.checks check with
    | .reserving updated leaseSeconds =>
      some (reserveMonitorForFollowUp s check updated leaseSeconds)
    | _ => none
  | .send check accepted =>
    match s.checks check with
    | .sending updated serial =>
      let job : Job := ⟨⟨updated.id, serial⟩, .check check, updated.nextEvaluationAt⟩
      some (State.setCheck { s with jobs := if accepted then s.jobs ++ [job] else s.jobs } check .idle)
    | _ => none
  | .failCheck check => some (s.setCheck check .idle)

def machine : Machine State Action where
  init := ⟨0, [], [], fun _ => .idle, fun _ => .idle, [], 0⟩
  step := step

end Vigil.Monitors.Dispatch
