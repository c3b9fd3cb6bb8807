import Vigil.Lib.Buckets
import Vigil.Lib.Run
import Vigil.Monitors.StatusController

/-! `monitors/highfreq/rollup.ts`: raw samples gathered into minute rows, minute rows into hour rows
and hour rows into day rows, each statement over a trailing window that ends now.  Times are
milliseconds since the epoch.  A pass runs its statements one after another; any number of passes
may be under way, each may stop between two statements, and samples come at any time. -/

namespace Vigil.HighFreq.Rollups

open Lib Buckets Timeline Monitors.StatusController

abbrev MonitorId := ℕ

/-! ### Samples and rollups -/

/-- A row of `monitor_hf_samples`. -/
structure Sample where
  /-- Tells apart two rows that agree in every column; nothing reads it. -/
  row : ℕ
  monitorId : MonitorId
  observedAt : ℤ
  ok : Bool
  verdict : Verdict
  responseTimeMs : Option ℤ
  deriving DecidableEq

/-- How long the bucket of a row is. -/
inductive Granularity where
  | minute
  | hour
  | day
  deriving DecidableEq

/-- The columns of `monitor_hf_rollups` that are not its key. -/
structure Figures where
  samples : ℕ
  okSamples : ℕ
  degradedSamples : ℕ
  downSamples : ℕ
  indeterminateSamples : ℕ
  minResponseMs : Option ℤ
  maxResponseMs : Option ℤ
  sumResponseMs : Option ℤ
  responseSamples : ℕ
  firstObservedAt : ℤ
  lastObservedAt : ℤ
  maxGapMs : Option ℤ
  deriving DecidableEq

/-- A row of `monitor_hf_rollups`. -/
structure Rollup where
  monitorId : MonitorId
  granularity : Granularity
  bucketStart : ℤ
  figures : Figures
  deriving DecidableEq

abbrev Key := MonitorId × Granularity × ℤ

def Rollup.key (r : Rollup) : Key := (r.monitorId, r.granularity, r.bucketStart)

/-! ### Aggregates that pass over nulls -/

def greatest : Option ℤ → Option ℤ → Option ℤ
  | none, y => y
  | x, none => x
  | some x, some y => some (max x y)

def least : Option ℤ → Option ℤ → Option ℤ
  | none, y => y
  | x, none => x
  | some x, some y => some (min x y)

/-- The sum of what is not null. -/
def plus : Option ℤ → Option ℤ → Option ℤ
  | none, y => y
  | x, none => x
  | some x, some y => some (x + y)

def maxOf (l : List (Option ℤ)) : Option ℤ := l.foldr greatest none

def minOf (l : List (Option ℤ)) : Option ℤ := l.foldr least none

def sumOf (l : List (Option ℤ)) : Option ℤ := l.foldr plus none

/-- The aggregates of a group, beside its largest gap. -/
def collect (l : List Figures) (maxGapMs : Option ℤ) : Figures where
  samples := (l.map (·.samples)).sum
  okSamples := (l.map (·.okSamples)).sum
  degradedSamples := (l.map (·.degradedSamples)).sum
  downSamples := (l.map (·.downSamples)).sum
  indeterminateSamples := (l.map (·.indeterminateSamples)).sum
  minResponseMs := minOf (l.map (·.minResponseMs))
  maxResponseMs := maxOf (l.map (·.maxResponseMs))
  sumResponseMs := sumOf (l.map (·.sumResponseMs))
  responseSamples := (l.map (·.responseSamples)).sum
  firstObservedAt := (minOf (l.map fun f => some f.firstObservedAt)).getD 0
  lastObservedAt := (maxOf (l.map fun f => some f.lastObservedAt)).getD 0
  maxGapMs := maxGapMs

/-! ### One level -/

/-- A row that a rollup reads: a sample at its instant, or a finer bucket at its start. -/
structure Part where
  monitorId : MonitorId
  time : ℤ
  figures : Figures
  deriving DecidableEq

/-- A sample counts itself once, and alone it has no gap. -/
def Part.ofSample (x : Sample) : Part where
  monitorId := x.monitorId
  time := x.observedAt
  figures :=
    { samples := 1
      okSamples := if x.ok then 1 else 0
      degradedSamples := if x.verdict = .degraded then 1 else 0
      downSamples := if x.verdict = .down then 1 else 0
      indeterminateSamples := if x.verdict = .indeterminate then 1 else 0
      minResponseMs := x.responseTimeMs
      maxResponseMs := x.responseTimeMs
      sumResponseMs := x.responseTimeMs
      responseSamples := if x.responseTimeMs.isSome then 1 else 0
      firstObservedAt := x.observedAt
      lastObservedAt := x.observedAt
      maxGapMs := none }

def Part.ofRollup (r : Rollup) : Part := ⟨r.monitorId, r.bucketStart, r.figures⟩

def Part.first (p : Part) : ℤ := p.figures.firstObservedAt

def Part.last (p : Part) : ℤ := p.figures.lastObservedAt

/-- `date_trunc`, for a unit of so many milliseconds. -/
def dateTrunc (unit t : ℤ) : ℤ := t / unit * unit

/-- The gap that a row closes: from the end of the row before it to its own first instant. -/
def boundaryGap (x : Part × Option ℤ) : Option ℤ := x.2.map fun before => x.1.first - before

/-- The rows of a monitor from `since` on, in order. -/
def window (since : ℤ) (parts : List Part) (m : MonitorId) : List Part :=
  sortByTime Part.time (parts.filter fun p => p.monitorId = m ∧ since ≤ p.time)

/-- The bucket of a monitor that starts at `b`. -/
def bucket (unit since : ℤ) (parts : List Part) (m : MonitorId) (b : ℤ) : Figures :=
  let rows := (lags Part.last none (window since parts m)).filter fun x =>
    dateTrunc unit x.1.time = b
  collect (rows.map (·.1.figures))
    (greatest (maxOf (rows.map (·.1.figures.maxGapMs))) (maxOf (rows.map boundaryGap)))

/-- `group by monitor_id, bucket`. -/
def groups (unit since : ℤ) (parts : List Part) : List (MonitorId × ℤ) :=
  ((parts.filter fun p => since ≤ p.time).map fun p => (p.monitorId, dateTrunc unit p.time)).dedup

def rollup (granularity : Granularity) (unit since : ℤ) (parts : List Part) : List Rollup :=
  (groups unit since parts).map fun (m, b) => ⟨m, granularity, b, bucket unit since parts m b⟩

/-! ### The statements -/

def minuteMs : ℤ := 60000

def hourMs : ℤ := 3600000

def dayMs : ℤ := 86400000

def minuteWindowMinutes : ℤ := 10

def hourWindowHours : ℤ := 3

def dayWindowDays : ℤ := 3

def hfRawRetentionMinutes : ℤ := 120

def hfMinuteRollupRetentionDays : ℤ := 7

def hfHourRollupRetentionDays : ℤ := 90

def hfDayRollupRetentionDays : ℤ := 730

structure Tables where
  samples : List Sample
  rollups : List Rollup

def upsertBucket (rows rollups : List Rollup) : List Rollup := upsert Rollup.key rows rollups

/-- Where the window of `rollupMinutes` begins. -/
def minuteWindow (now : ℤ) : ℤ := dateTrunc minuteMs (now - minuteWindowMinutes * minuteMs)

def hourWindow (now : ℤ) : ℤ := dateTrunc hourMs (now - hourWindowHours * hourMs)

def dayWindow (now : ℤ) : ℤ := dateTrunc dayMs (now - dayWindowDays * dayMs)

def rollupMinutes (now : ℤ) (t : Tables) : Tables :=
  { t with
    rollups := upsertBucket
      (rollup .minute minuteMs (minuteWindow now) (t.samples.map Part.ofSample)) t.rollups }

/-- The rows of one granularity. -/
def source (granularity : Granularity) (rollups : List Rollup) : List Part :=
  (rollups.filter fun r => r.granularity = granularity).map Part.ofRollup

/-- The granularities that are made of finer rows. -/
inductive Coarse where
  | hour
  | day
  deriving DecidableEq

/-- Hours are made of minutes, and days of hours. -/
def rollupCoarser (granularity : Coarse) (now : ℤ) (t : Tables) : Tables :=
  match granularity with
  | .hour =>
    { t with
      rollups := upsertBucket
        (rollup .hour hourMs (hourWindow now) (source .minute t.rollups)) t.rollups }
  | .day =>
    { t with
      rollups := upsertBucket
        (rollup .day dayMs (dayWindow now) (source .hour t.rollups)) t.rollups }

def pruneSamples (now : ℤ) (t : Tables) : Tables :=
  { t with
    samples := t.samples.filter fun x =>
      ¬x.observedAt < now - hfRawRetentionMinutes * minuteMs }

/-- How long a rollup is kept. -/
def retention : Granularity → ℤ
  | .minute => hfMinuteRollupRetentionDays * dayMs
  | .hour => hfHourRollupRetentionDays * dayMs
  | .day => hfDayRollupRetentionDays * dayMs

def pruneRollups (now : ℤ) (t : Tables) : Tables :=
  { t with rollups := t.rollups.filter fun r => ¬r.bucketStart < now - retention r.granularity }

/-! ### Passes -/

/-- The statements of `runHighFrequencyRollup`. -/
inductive Statement where
  | rollupMinutes
  | rollupHours
  | rollupDays
  | pruneSamples
  | pruneRollups
  deriving DecidableEq

/-- What a statement does at an instant. -/
def Statement.run (now : ℤ) : Statement → Tables → Tables
  | .rollupMinutes => Rollups.rollupMinutes now
  | .rollupHours => rollupCoarser .hour now
  | .rollupDays => rollupCoarser .day now
  | .pruneSamples => Rollups.pruneSamples now
  | .pruneRollups => Rollups.pruneRollups now

/-- The statement that a pass runs after another; a pass that has run none runs `rollupMinutes`. -/
def nextStatement : Option Statement → Option Statement
  | none => some .rollupMinutes
  | some .rollupMinutes => some .rollupHours
  | some .rollupHours => some .rollupDays
  | some .rollupDays => some .pruneSamples
  | some .pruneSamples => some .pruneRollups
  | some .pruneRollups => none

/-- The tables, the clock, and how far each pass has come. -/
structure State extends Tables where
  now : ℤ
  nextRow : ℕ
  /-- The last statement that each pass has run. -/
  passes : ℕ → Option Statement

inductive Action where
  | insert (x : Sample)
  | tick (d : ℕ)
  /-- A pass runs its next statement, which is `statement`. -/
  | statement (pass : ℕ) (statement : Statement)

def step (s : State) : Action → Option State
  | .insert x =>
    some { s with samples := s.samples ++ [{ x with row := s.nextRow }], nextRow := s.nextRow + 1 }
  | .tick d => some { s with now := s.now + d }
  | .statement pass statement =>
    if nextStatement (s.passes pass) = some statement then
      some { s with
        toTables := statement.run s.now s.toTables
        passes := Function.update s.passes pass (some statement) }
    else none

def machine : Machine State Action where
  init := ⟨⟨[], []⟩, 0, 0, fun _ => none⟩
  step := step

/-- The row stored for a bucket. -/
def Tables.stored (t : Tables) (granularity : Granularity) (m : MonitorId) (b : ℤ) : Option Rollup :=
  lookup Rollup.key t.rollups (m, granularity, b)

end Vigil.HighFreq.Rollups
