import Vigil.Lib.Run
import Vigil.Js.Text
import Mathlib.Data.Rat.Floor

/-! The delivery outbox, `notifications/outbox.ts`, and the worker of
`worker/jobs/notification-delivery.ts` that drains it.  Every operation is one transaction and reads
a clock of its own; a worker can stop between any two of them and come back at any time.  Only
`expireOverdue` is cut in two: the sub-select of its `UPDATE` chooses rows without locking them, and
PostgreSQL does not choose again when it then waits for a row, as it does for the conditions that
`claimDue` repeats under its lock.  Instants are milliseconds. -/

namespace Vigil.Notifications.Outbox

open Js.Text Lib

/-- The state of a row of the outbox. -/
inductive NotificationState where
  | queued
  | sending
  | delivered
  | failed
  | expired
  | deadLetter
  deriving DecidableEq, Repr

/-- The states that a row stays in. -/
def NotificationState.terminal : NotificationState → Bool
  | .queued => false
  | .sending => false
  | .delivered => true
  | .failed => true
  | .expired => true
  | .deadLetter => true

/-- The columns of `notification_outbox` that the operations read or write. -/
structure OutboxRow where
  state : NotificationState
  attempts : ℕ
  nextAttemptAt : ℤ
  leasedUntil : Option ℤ
  fence : ℕ
  lastClaimedAt : Option ℤ
  expiresAt : Option ℤ
  deliveredAt : Option ℤ
  providerMessageId : Option JsString
  lastError : Option JsString
  deriving DecidableEq, Repr

/-- What an attempt came to; `claimed` while it is open. -/
inductive AttemptOutcome where
  | claimed
  | delivered
  | retryable
  | permanent
  | unknown
  deriving DecidableEq, Repr

/-- A row of `notification_attempts`. -/
structure Attempt where
  outboxId : ℕ
  attempt : ℕ
  fence : ℕ
  outcome : AttemptOutcome
  startedAt : ℤ
  finishedAt : Option ℤ
  error : Option JsString
  deriving DecidableEq, Repr

/-- What a worker reports of a delivery. -/
inductive DeliveryOutcome where
  | delivered (providerMessageId : Option JsString)
  | retryable (error : JsString) (retryAfterMs : Option ℤ)
  | permanent (error : JsString)
  | unknown (error : JsString)
  deriving DecidableEq, Repr

/-- How often a message is tried, and for how long. -/
structure RetryPolicy where
  maxAttempts : ℕ
  horizonHours : ℤ

/-- Where a worker stands with a row that it claimed; the number is the attempt. -/
inductive Work where
  | none
  | held (attempt : ℕ)
  /-- `renewLease` found the lease held. -/
  | renewed (attempt : ℕ)
  | threw (attempt : ℕ)
  | sent (attempt : ℕ)
  | done
  deriving DecidableEq, Repr

/-- The attempt of a claim that its worker has not finished with. -/
def Work.attempt? : Work → Option ℕ
  | .none => Option.none
  | .held n => some n
  | .renewed n => some n
  | .threw n => some n
  | .sent n => some n
  | .done => Option.none

structure Db where
  rows : ℕ → Option OutboxRow
  attempts : List Attempt
  work : ℕ → ℕ → Work
  /-- The rows that a running `expireOverdue` has chosen and not yet updated, by worker. -/
  scans : ℕ → List ℕ

def leaseMs : ℤ := 600000

def retryAfterCapMs : ℤ := 3600000

def backoffCeilingMs : ℤ := 1800000

/-- The wait before another attempt, where `random` is in `[0, 1)`. -/
def backoffMs (attempts : ℕ) (random : ℚ) : ℤ :=
  let base := min (2 ^ attempts * 1000) backoffCeilingMs
  (base * (3 / 4 + random * (1 / 2)) + 1 / 2 : ℚ).floor

def Db.setRow (s : Db) (id : ℕ) (row : OutboxRow) : Db :=
  { s with rows := Function.update s.rows id (some row) }

def Db.setWork (s : Db) (id fence : ℕ) (work : Work) : Db :=
  { s with work := Function.update s.work id (Function.update (s.work id) fence work) }

/-! ### The operations -/

/-- Inserts a row that is due at once, unless the id is taken. -/
def enqueue (policy : RetryPolicy) (s : Db) (id : ℕ) (now : ℤ) : Option Db :=
  match s.rows id with
  | some _ => none
  | none => some (s.setRow id
      { state := .queued
        attempts := 0
        nextAttemptAt := now
        leasedUntil := none
        fence := 0
        lastClaimedAt := none
        expiresAt := some (now + policy.horizonHours * 3600000)
        deliveredAt := none
        providerMessageId := none
        lastError := none })

/-- The condition that `claimDue` repeats under the row's lock. -/
def due (row : OutboxRow) (now : ℤ) : Bool :=
  row.nextAttemptAt ≤ now && row.expiresAt.all (· > now) &&
    (row.state = .queued || (row.state = .sending && row.leasedUntil.all (· ≤ now)))

/-- `coalesce(max(attempt), 0)` over the attempts of a row. -/
def maxAttempt (attempts : List Attempt) (id : ℕ) : ℕ :=
  ((attempts.filter fun a => a.outboxId = id).map (·.attempt)).foldr max 0

/-- The row as a claim leaves it. -/
def claimedRow (row : OutboxRow) (attempts : ℕ) (now : ℤ) : OutboxRow :=
  { row with
    state := .sending
    fence := row.fence + 1
    attempts
    leasedUntil := some (now + leaseMs)
    lastClaimedAt := some now }

/-- The attempt that a claim opens. -/
def claimedAttempt (id : ℕ) (row : OutboxRow) (now : ℤ) : Attempt where
  outboxId := id
  attempt := row.attempts
  fence := row.fence
  outcome := .claimed
  startedAt := now
  finishedAt := none
  error := none

/-- One row of `claimDue`: the claim and its attempt row. -/
def claimRow (now : ℤ) (s : Db) (id : ℕ) : Option Db :=
  match s.rows id with
  | none => none
  | some row =>
    if due row now then
      let attempts := max (row.attempts + 1) (maxAttempt s.attempts id + 1)
      let claimed := claimedRow row attempts now
      let s := { s.setRow id claimed with attempts := claimedAttempt id claimed now :: s.attempts }
      some (s.setWork id claimed.fence (.held attempts))
    else none

/-- `claimDue` on the rows that its ranking chose and that it could lock. -/
def claimDue (now : ℤ) (s : Db) (ids : List ℕ) : Option Db := ids.foldlM (claimRow now) s

/-- Whether `renewLease` finds the row under this fence, and the row it leaves. -/
def renewLease (s : Db) (id fence : ℕ) (now : ℤ) : Db × Bool :=
  match s.rows id with
  | none => (s, false)
  | some row =>
    if row.fence = fence then
      (s.setRow id { row with leasedUntil := some (now + leaseMs) }, true)
    else (s, false)

/-- What a worker learns of the outcome that it reported. -/
structure RecordedOutcome where
  committed : Bool
  state : NotificationState
  attempts : ℕ
  nextAttemptAt : Option ℤ
  deriving DecidableEq, Repr

def DeliveryOutcome.attemptOutcome : DeliveryOutcome → AttemptOutcome
  | .delivered _ => .delivered
  | .retryable _ _ => .retryable
  | .permanent _ => .permanent
  | .unknown _ => .unknown

def DeliveryOutcome.error? : DeliveryOutcome → Option JsString
  | .delivered _ => none
  | .retryable error _ => some (error.take 2000)
  | .permanent error => some (error.take 2000)
  | .unknown error => some (error.take 2000)

def askedMs : DeliveryOutcome → ℤ
  | .retryable _ retryAfterMs => min (retryAfterMs.getD 0) retryAfterCapMs
  | _ => 0

/-- The state that an outcome leads to, `none` for a retry. -/
def settledState (policy : RetryPolicy) (attempts : ℕ) :
    DeliveryOutcome → Option NotificationState
  | .delivered _ => some .delivered
  | .permanent _ => some .failed
  | _ => if attempts ≥ policy.maxAttempts then some .deadLetter else none

/-- The row as the outcome leaves it. -/
def outcomeRow (policy : RetryPolicy) (row : OutboxRow) (attempts : ℕ) (outcome : DeliveryOutcome)
    (random : ℚ) (now : ℤ) : OutboxRow :=
  let row := { row with leasedUntil := none }
  let row := match outcome with
    | .delivered providerMessageId => { row with deliveredAt := some now, providerMessageId }
    | _ => { row with lastError := outcome.error? }
  match settledState policy attempts outcome with
  | some state => { row with state }
  | none =>
    let wait := max (backoffMs attempts random) (askedMs outcome)
    if row.expiresAt.any (· < now + wait) then { row with state := .expired }
    else { row with state := .queued, nextAttemptAt := now + wait }

def closeAttempt (outcome : AttemptOutcome) (error : Option JsString) (now : ℤ) (a : Attempt) :
    Attempt :=
  { a with outcome, error := error.or a.error, finishedAt := some now }

def superseded : JsString := js "superseded: another worker reclaimed this delivery"

/-- Records an outcome if the fence is still the row's; else the attempt is closed as superseded. -/
def recordOutcome (policy : RetryPolicy) (s : Db) (id fence attempt : ℕ)
    (outcome : DeliveryOutcome) (random : ℚ) (now : ℤ) : Db × RecordedOutcome :=
  let mine (a : Attempt) : Bool := a.outboxId = id && a.attempt = attempt && a.fence = fence
  match (s.rows id).filter (·.fence = fence) with
  | none =>
    ({ s with
        attempts := s.attempts.map fun a =>
          if mine a && a.outcome = .claimed then closeAttempt .unknown (some superseded) now a
          else a },
      { committed := false, state := .queued, attempts := attempt, nextAttemptAt := none })
  | some row =>
    let row := outcomeRow policy row attempt outcome random now
    ({ s.setRow id row with
        attempts := s.attempts.map fun a =>
          if mine a then closeAttempt outcome.attemptOutcome outcome.error? now a else a },
      { committed := true
        state := row.state
        attempts := attempt
        nextAttemptAt := if row.state = .queued then some row.nextAttemptAt else none })

def deferRow (s : Db) (id fence attempt : ℕ) (delaySeconds now : ℤ) : Db :=
  let mine (a : Attempt) : Bool :=
    a.outboxId = id && a.attempt = attempt && a.fence = fence && a.outcome = .claimed
  let withdrawn := s.attempts.any mine
  let s := { s with attempts := s.attempts.filter fun a => !mine a }
  match (s.rows id).filter (·.fence = fence) with
  | none => s
  | some row => s.setRow id
      { row with
        state := .queued
        nextAttemptAt := now + delaySeconds * 1000
        leasedUntil := none
        attempts := if withdrawn then row.attempts - 1 else row.attempts }

/-- What the sub-select of `expireOverdue` looks for. -/
def overdue (row : OutboxRow) (now : ℤ) : Bool :=
  row.expiresAt.any (· ≤ now) &&
    (row.state = .queued || (row.state = .sending && row.leasedUntil.any (· ≤ now)))

/-- What `expireOverdue` makes of a row that its sub-select chose. -/
def expiredRow (row : OutboxRow) : OutboxRow :=
  { row with state := .expired, leasedUntil := none, fence := row.fence + 1 }

def neverReported : JsString := js "the worker holding this attempt never reported an outcome"

def sweepStaleAttempts (s : Db) (olderThan now : ℤ) : Db :=
  { s with
    attempts := s.attempts.map fun a =>
      if a.outcome = .claimed && a.startedAt < olderThan then
        closeAttempt .unknown (some neverReported) now a
      else a }

/-! ### The machine -/

/-- What the workers do with the outbox. -/
inductive Action where
  | enqueue (id : ℕ) (now : ℤ)
  | claimDue (ids : List ℕ) (now : ℤ)
  | deferRow (id fence : ℕ) (delaySeconds now : ℤ)
  /-- The worker may not get the answer. -/
  | renewLease (id fence : ℕ) (now : ℤ) (answered : Bool)
  | send (id fence : ℕ)
  /-- `renewLease` or `deliver` throws without having done anything. -/
  | throw (id fence : ℕ)
  | recordOutcome (id fence : ℕ) (outcome : DeliveryOutcome) (random : ℚ) (now : ℤ)
  /-- The sub-select of `expireOverdue` chooses rows. -/
  | expireScan (worker : ℕ) (ids : List ℕ) (now : ℤ)
  /-- The `UPDATE` of `expireOverdue` reaches a row that was chosen. -/
  | expireRow (worker id : ℕ)
  | sweepStaleAttempts (olderThan now : ℤ)
  deriving DecidableEq, Repr

def DeliveryOutcome.isUnknown : DeliveryOutcome → Bool
  | .unknown _ => true
  | _ => false

def reportable (outcome : DeliveryOutcome) : Work → Option ℕ
  | .sent n => some n
  | .threw n => if outcome.isUnknown then some n else none
  | _ => none

/-- One step of the workers; a step that the worker's state does not allow is none. -/
def step (policy : RetryPolicy) (s : Db) : Action → Option Db
  | .enqueue id now => enqueue policy s id now
  | .claimDue ids now => claimDue now s ids
  | .deferRow id fence delaySeconds now =>
    match s.work id fence with
    | .held n => some ((deferRow s id fence n delaySeconds now).setWork id fence .done)
    | _ => none
  | .renewLease id fence now answered =>
    match s.work id fence with
    | .held n =>
      let (s, held) := renewLease s id fence now
      some (s.setWork id fence
        (if !answered then .threw n else if held then .renewed n else .done))
    | _ => none
  | .send id fence =>
    match s.work id fence with
    | .renewed n => some (s.setWork id fence (.sent n))
    | _ => none
  | .throw id fence =>
    match s.work id fence with
    | .held n => some (s.setWork id fence (.threw n))
    | .renewed n => some (s.setWork id fence (.threw n))
    | _ => none
  | .recordOutcome id fence outcome random now =>
    match reportable outcome (s.work id fence) with
    | some n => some ((recordOutcome policy s id fence n outcome random now).1.setWork id fence .done)
    | none => none
  | .expireScan worker ids now =>
    if ids.all fun id => (s.rows id).any (overdue · now) then
      some { s with scans := Function.update s.scans worker ids }
    else none
  | .expireRow worker id =>
    match s.rows id with
    | some row =>
      if id ∈ s.scans worker then
        some { s.setRow id (expiredRow row) with
          scans := Function.update s.scans worker ((s.scans worker).erase id) }
      else none
    | none => none
  | .sweepStaleAttempts olderThan now => some (sweepStaleAttempts s olderThan now)

def machine (policy : RetryPolicy) : Machine Db Action where
  init := { rows := fun _ => none, attempts := [], work := fun _ _ => .none, scans := fun _ => [] }
  step := step policy

end Vigil.Notifications.Outbox
