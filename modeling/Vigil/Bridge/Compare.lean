import Vigil.Lib.Spans
import Vigil.Lib.Timeline
import Mathlib.Data.Rat.Floor

/-! `importers/bridge/compare.ts`: what the source system saw against what Vigil saw, and the verdict
that an operator switches the old system off by.  Times are milliseconds.  Hours are rational
numbers where the code has doubles: a count of milliseconds is exact in both, and the rounding to
tenths is the same for both at every such count. -/

namespace Vigil.Bridge.Compare

open Lib.Spans Lib.Timeline

/-! ### Functions of the language -/

def padLeft (width n : ℕ) : String :=
  let digits := toString n
  "".pushn '0' (width - digits.length) ++ digits

/-- `toISOString` of a `Date`. -/
def toISOString (ms : ℤ) : String :=
  let days := ms / 86400000 + 719468
  let rest := (ms % 86400000).toNat
  let era := days / 146097
  let dayOfEra := (days % 146097).toNat
  let yearOfEra := (dayOfEra - dayOfEra / 1460 + dayOfEra / 36524 - dayOfEra / 146096) / 365
  let dayOfYear := dayOfEra - (365 * yearOfEra + yearOfEra / 4 - yearOfEra / 100)
  let shifted := (5 * dayOfYear + 2) / 153
  let day := dayOfYear - (153 * shifted + 2) / 5 + 1
  let month := if shifted < 10 then shifted + 3 else shifted - 9
  let year := yearOfEra + era * 400 + if month ≤ 2 then 1 else 0
  let yearText :=
    if 0 ≤ year ∧ year ≤ 9999 then padLeft 4 year.toNat
    else (if year < 0 then "-" else "+") ++ padLeft 6 year.natAbs
  yearText ++ "-" ++ padLeft 2 month ++ "-" ++ padLeft 2 day ++ "T" ++ padLeft 2 (rest / 3600000) ++
    ":" ++ padLeft 2 (rest / 60000 % 60) ++ ":" ++ padLeft 2 (rest / 1000 % 60) ++ "." ++
    padLeft 3 (rest % 1000) ++ "Z"

example : toISOString 1785546000123 = "2026-08-01T01:00:00.123Z" := by decide +kernel

/-- `Math.round(x * 10) / 10`. -/
def roundTenths (x : ℚ) : ℚ := ⌊x * 10 + 1 / 2⌋ / 10

/-- The text of a number of tenths that is not negative. -/
def tenthsText (x : ℚ) : String :=
  let tenths := ⌊x * 10⌋.toNat
  if tenths % 10 = 0 then toString (tenths / 10)
  else toString (tenths / 10) ++ "." ++ toString (tenths % 10)

/-! ### Data -/

structure SourceEvent where
  id : String
  resourceId : String
  start : ℤ
  end_ : Option ℤ
  observedUntil : ℤ
  cause : Option String

/-- An outage that Vigil recorded. -/
structure VigilEvent where
  id : String
  start : ℤ
  end_ : Option ℤ

/-- What became of a source record.  The column is a text; any other value counts as unsupported. -/
inductive Outcome where
  | imported
  | transformed
  | skipped
  | unsupported
  | other (text : String)
  deriving DecidableEq

structure ComparisonPair where
  sourceId : String
  sourceName : String
  sourceType : String
  monitorId : Option String
  outcome : Outcome
  detail : String
  compared : Bool
  observedSince : Option ℤ
  failureWindowSeconds : Option ℤ
  vigilChecks : ℕ
  sourceEvents : List SourceEvent
  vigilEvents : List VigilEvent

/-- A half-open span of proven evidence, `start` for `from` and `stop` for `to`. -/
abbrev CoverageWindow := Span

/-- What a report is made of. -/
structure ComparisonInput where
  at_ : ℤ
  pairs : List ComparisonPair
  coverage : List CoverageWindow
  manualNotes : List String
  consecutivePollFailures : ℕ

/-- What is found out about an outage. -/
inductive MatchKind where
  | matched
  | missed
  | extra
  | unprovable
  | belowWindow
  deriving DecidableEq

/-- A finding about an outage of one side, or about one of each. -/
structure EventFinding where
  kind : MatchKind
  sourceId : String
  monitorName : String
  sourceEventId : Option String
  vigilEventId : Option String
  detectionDeltaSeconds : Option ℤ
  recoveryDeltaSeconds : Option ℤ
  detail : String

/-- The line of a record in the report. -/
structure PairSummary where
  sourceId : String
  sourceName : String
  sourceType : String
  outcome : Outcome
  compared : Bool
  monitorId : Option String
  vigilChecks : ℕ
  overlapHours : ℚ
  matched : ℕ
  missed : ℕ
  extra : ℕ
  unprovable : ℕ
  belowWindow : ℕ
  detail : String

/-- The counts of the report. -/
structure Totals where
  sourceRecords : ℕ
  imported : ℕ := 0
  transformed : ℕ := 0
  skipped : ℕ := 0
  unsupported : ℕ := 0
  deleted : ℕ := 0
  comparedPairs : ℕ := 0
  matched : ℕ := 0
  missed : ℕ := 0
  extra : ℕ := 0
  openExtra : ℕ := 0
  unprovable : ℕ := 0
  belowWindow : ℕ := 0

/-- How far apart the two sides saw the outages that match. -/
structure Timing where
  detectionMedianSeconds : Option ℚ
  detectionWorstSeconds : Option ℤ
  recoveryMedianSeconds : Option ℚ
  recoveryWorstSeconds : Option ℤ
  samples : ℕ

/-- Whether it is safe to cut over. -/
inductive SafetyVerdict where
  | safe
  | notSafe
  deriving DecidableEq

/-- The report as it is stored and shown. -/
structure ComparisonReport where
  windowFrom : Option ℤ
  windowTo : ℤ
  coverage : List CoverageWindow
  coveredHours : ℚ
  totals : Totals
  timing : Timing
  pairs : List PairSummary
  findings : List EventFinding
  manualWork : List String
  verdict : SafetyVerdict
  reasons : List String

def MATCH_GRACE_SECONDS : ℤ := 300

def MIN_COMPARISON_HOURS : ℕ := 24

def MAX_CONSECUTIVE_POLL_FAILURES : ℕ := 4

/-! ### Coverage -/

/-- Merge poll windows into non-overlapping spans, earliest first. -/
def mergeCoverage (windows : List CoverageWindow) : List CoverageWindow :=
  coalesce (sortByTime Span.start (windows.filter fun w => w.stop > w.start))

/-- Hours of `coverage` that fall inside a window. -/
def overlapHours (coverage : List CoverageWindow) (lo hi : ℤ) : ℚ :=
  overlap coverage lo hi / 3600000

def covered (coverage : List CoverageWindow) (lo hi : ℤ) : Bool :=
  coverage.any fun w => w.start ≤ lo && w.stop ≥ hi

/-! ### One pair -/

/-- Whether two intervals are the same outage; one that is open goes on until `at_`. -/
def overlapsOrNear (a : SourceEvent) (b : VigilEvent) (at_ graceMs : ℤ) : Bool :=
  a.start ≤ b.end_.getD at_ + graceMs && b.start ≤ a.end_.getD at_ + graceMs

def median (values : List ℤ) : Option ℚ :=
  if values.length = 0 then none
  else
    let sorted := values.insertionSort (· ≤ ·)
    let mid := sorted.length / 2
    if sorted.length % 2 = 1 then sorted[mid]?.map fun v => v
    else some (((sorted[mid - 1]?.getD 0 : ℤ) + (sorted[mid]?.getD 0 : ℤ) : ℚ) / 2)

def worst : List ℤ → Option ℤ
  | [] => none
  | v :: values => some (values.foldl (fun acc v => if v.natAbs > acc.natAbs then v else acc) v)

def seconds (ms : ℤ) : ℤ := (ms + 500) / 1000

def describeDelta (deltaSeconds : ℤ) : String :=
  if deltaSeconds = 0 then "at the same moment"
  else
    let magnitude := deltaSeconds.natAbs
    let spelled :=
      if magnitude < 120 then toString magnitude ++ "s" else toString ((magnitude + 30) / 60) ++ "m"
    if deltaSeconds > 0 then spelled ++ " later" else spelled ++ " earlier"

/-- The findings about a pair so far, with their counts. -/
structure PairFindings where
  findings : List EventFinding := []
  matched : ℕ := 0
  missed : ℕ := 0
  extra : ℕ := 0
  openExtra : ℕ := 0
  unprovable : ℕ := 0
  belowWindow : ℕ := 0
  detectionDeltas : List ℤ := []
  recoveryDeltas : List ℤ := []

def graceMs : ℤ := MATCH_GRACE_SECONDS * 1000

def sourceOrder (pair : ComparisonPair) : List SourceEvent :=
  sortByTime SourceEvent.start pair.sourceEvents

def vigilOrder (pair : ComparisonPair) : List VigilEvent :=
  sortByTime VigilEvent.start pair.vigilEvents

/-- The first Vigil event that no source event has claimed and that can be the same outage. -/
def matchFor (pair : ComparisonPair) (at_ : ℤ) (claimedVigil : List String) (event : SourceEvent) :
    Option VigilEvent :=
  (vigilOrder pair).find? fun v => !claimedVigil.contains v.id && overlapsOrNear event v at_ graceMs

/-- A finding about an event that has no counterpart. -/
def unpaired (pair : ComparisonPair) (kind : MatchKind) (sourceEventId vigilEventId : Option String)
    (detail : String) : EventFinding :=
  { kind, sourceId := pair.sourceId, monitorName := pair.sourceName, sourceEventId, vigilEventId,
    detectionDeltaSeconds := none, recoveryDeltaSeconds := none, detail }

/-- Counts a match, with the differences at its two ends. -/
def addMatched (pair : ComparisonPair) (out : PairFindings) (event : SourceEvent)
    (vigil : VigilEvent) : PairFindings :=
  let detection := seconds (vigil.start - event.start)
  let recovery := event.end_.bind fun e => vigil.end_.map fun v => seconds (v - e)
  { out with
    matched := out.matched + 1
    detectionDeltas := out.detectionDeltas ++ [detection]
    recoveryDeltas := out.recoveryDeltas ++ recovery.toList
    findings := out.findings ++
      [{ kind := .matched, sourceId := pair.sourceId, monitorName := pair.sourceName,
         sourceEventId := some event.id, vigilEventId := some vigil.id,
         detectionDeltaSeconds := some detection, recoveryDeltaSeconds := recovery,
         detail := "Both systems saw this outage. Vigil confirmed it " ++ describeDelta detection ++
          match recovery with
          | none => "."
          | some recovery => " and saw recovery " ++ describeDelta recovery ++ "." }] }

def observedHere (pair : ComparisonPair) (event : SourceEvent) : Bool :=
  pair.observedSince.any fun since => since ≤ event.start - graceMs

/-- How long the outage is known to have lasted. -/
def knownForMs (event : SourceEvent) : ℤ := event.end_.getD event.observedUntil - event.start

def belowFailureWindow (pair : ComparisonPair) (event : SourceEvent) : Bool :=
  pair.failureWindowSeconds.any fun window => knownForMs event < window * 1000

def predatesDetail : String :=
  "This incident predates the point Vigil began observing this monitor, so no comparison is possible for it."

def blipDetail (knownFor window : ℤ) : String :=
  "The source recorded a " ++ toString (seconds knownFor) ++ "s blip, shorter than the " ++
    toString window ++ "s failure window this monitor was imported with. Vigil does not open an incident for it by design; the import report carried that trade."

def unseenEndDetail (knownFor window : ℤ) : String :=
  "The source's copy of this incident was last seen " ++ toString (seconds knownFor) ++
    "s after it started, inside the " ++ toString window ++
    "s failure window, and its end was never observed. It may have been a blip Vigil rightly ignored; it cannot be counted either way."

def missedDetail (event : SourceEvent) : String :=
  "The source recorded an outage" ++ (event.cause.map fun cause => " (" ++ cause ++ ")").getD "" ++
    " starting " ++ toISOString event.start ++
    (if event.end_.isNone then ", still unresolved when last observed," else "") ++
    " and Vigil, watching the same target over the same period, recorded nothing. Until this is explained, cutting over risks missing the same outage for real."

/-- A source event without a match is excused or counted against Vigil. -/
def addUnmatched (pair : ComparisonPair) (out : PairFindings) (event : SourceEvent) :
    PairFindings :=
  if !observedHere pair event then
    { out with
      unprovable := out.unprovable + 1
      findings := out.findings ++ [unpaired pair .unprovable (some event.id) none predatesDetail] }
  else if belowFailureWindow pair event then
    let window := pair.failureWindowSeconds.getD 0
    if event.end_.isSome then
      { out with
        belowWindow := out.belowWindow + 1
        findings := out.findings ++ [unpaired pair .belowWindow (some event.id) none
          (blipDetail (knownForMs event) window)] }
    else
      { out with
        unprovable := out.unprovable + 1
        findings := out.findings ++ [unpaired pair .unprovable (some event.id) none
          (unseenEndDetail (knownForMs event) window)] }
  else
    { out with
      missed := out.missed + 1
      findings := out.findings ++
        [unpaired pair .missed (some event.id) none (missedDetail event)] }

/-- The loop over the source events: greedy by start. -/
def judgeSource (pair : ComparisonPair) (at_ : ℤ) :
    PairFindings × List String → SourceEvent → PairFindings × List String
  | (out, claimedVigil), event =>
    match matchFor pair at_ claimedVigil event with
    | some vigil => (addMatched pair out event vigil, claimedVigil ++ [vigil.id])
    | none => (addUnmatched pair out event, claimedVigil)

def uncoveredDetail : String :=
  "Vigil recorded an outage inside a span the source evidence does not cover, so whether the source also saw it cannot be proven. It is not counted for either side."

def extraDetail (event : VigilEvent) : String :=
  if event.end_.isNone then
    "Vigil reads this monitor as down right now (incident open since " ++ toISOString event.start ++
      ") while the source, as of the last successful poll, records nothing. A monitor that is wrong before cutover will be wrong after it; the import report line usually names the cause."
  else
    "Vigil recorded an outage starting " ++ toISOString event.start ++
      " that the source did not. Either Vigil caught something the source missed, or the imported check asserts something stricter; the monitor's check history has the evidence either way."

/-- Whether the polls looked at the span of a Vigil event, up to the last one for an open event. -/
def provable (coverage : List CoverageWindow) (event : VigilEvent) : Bool :=
  (event.end_ <|> (coverage.getLast?.map (·.stop))).any fun proofEnd =>
    proofEnd > event.start && covered coverage event.start proofEnd

/-- The loop over the Vigil events that no source event has claimed. -/
def judgeVigil (pair : ComparisonPair) (coverage : List CoverageWindow) (claimedVigil : List String)
    (out : PairFindings) (event : VigilEvent) : PairFindings :=
  if claimedVigil.contains event.id then out
  else if provable coverage event then
    { out with
      extra := out.extra + 1
      openExtra := if event.end_.isNone then out.openExtra + 1 else out.openExtra
      findings := out.findings ++ [unpaired pair .extra none (some event.id) (extraDetail event)] }
  else
    { out with
      unprovable := out.unprovable + 1
      findings := out.findings ++
        [unpaired pair .unprovable none (some event.id) uncoveredDetail] }

def comparePair (pair : ComparisonPair) (coverage : List CoverageWindow) (at_ : ℤ) :
    PairFindings :=
  let judged := (sourceOrder pair).foldl (judgeSource pair at_) ({}, [])
  (vigilOrder pair).foldl (judgeVigil pair coverage judged.2) judged.1

/-! ### The whole comparison -/

/-- What the loop over the pairs has gathered. -/
structure Tally where
  totals : Totals
  pairSummaries : List PairSummary := []
  findings : List EventFinding := []
  detectionDeltas : List ℤ := []
  recoveryDeltas : List ℤ := []
  deletedPairs : List ComparisonPair := []

/-- Counts what became of a record. -/
def countOutcome (totals : Totals) : Outcome → Totals
  | .imported => { totals with imported := totals.imported + 1 }
  | .transformed => { totals with transformed := totals.transformed + 1 }
  | .skipped => { totals with skipped := totals.skipped + 1 }
  | _ => { totals with unsupported := totals.unsupported + 1 }

def wasImported (pair : ComparisonPair) : Bool :=
  pair.outcome = .imported || pair.outcome = .transformed

/-- An imported record whose monitor is gone. -/
def isDeleted (pair : ComparisonPair) : Bool := wasImported pair && pair.monitorId.isNone

/-- Whether the events of a pair are compared at all. -/
def isCompared (pair : ComparisonPair) : Bool := pair.compared && pair.monitorId.isSome

/-- Adds the counts of a pair to the totals. -/
def countResult (totals : Totals) (result : PairFindings) : Totals :=
  { totals with
    comparedPairs := totals.comparedPairs + 1
    matched := totals.matched + result.matched
    missed := totals.missed + result.missed
    extra := totals.extra + result.extra
    openExtra := totals.openExtra + result.openExtra
    unprovable := totals.unprovable + result.unprovable
    belowWindow := totals.belowWindow + result.belowWindow }

def uncomparedSummary (pair : ComparisonPair) : PairSummary :=
  { sourceId := pair.sourceId, sourceName := pair.sourceName, sourceType := pair.sourceType,
    outcome := pair.outcome, compared := false, monitorId := pair.monitorId,
    vigilChecks := pair.vigilChecks, overlapHours := 0, matched := 0, missed := 0, extra := 0,
    unprovable := 0, belowWindow := 0, detail := pair.detail }

/-- Hours that both systems watched the pair. -/
def pairOverlap (coverage : List CoverageWindow) (at_ : ℤ) (pair : ComparisonPair) : ℚ :=
  match pair.observedSince with
  | none => 0
  | some since => overlapHours coverage since at_

def comparedSummary (coverage : List CoverageWindow) (at_ : ℤ) (pair : ComparisonPair) :
    PairSummary :=
  let result := comparePair pair coverage at_
  { sourceId := pair.sourceId, sourceName := pair.sourceName, sourceType := pair.sourceType,
    outcome := pair.outcome, compared := true, monitorId := pair.monitorId,
    vigilChecks := pair.vigilChecks,
    overlapHours := roundTenths (pairOverlap coverage at_ pair), matched := result.matched,
    missed := result.missed, extra := result.extra, unprovable := result.unprovable,
    belowWindow := result.belowWindow, detail := pair.detail }

/-- The body of the loop over the pairs. -/
def tallyPair (coverage : List CoverageWindow) (at_ : ℤ) (tally : Tally) (pair : ComparisonPair) :
    Tally :=
  let counted := countOutcome tally.totals pair.outcome
  let totals := if isDeleted pair then { counted with deleted := counted.deleted + 1 } else counted
  let deletedPairs :=
    if isDeleted pair then tally.deletedPairs ++ [pair] else tally.deletedPairs
  if isCompared pair then
    let result := comparePair pair coverage at_
    { totals := countResult totals result
      pairSummaries := tally.pairSummaries ++ [comparedSummary coverage at_ pair]
      findings := tally.findings ++ result.findings
      detectionDeltas := tally.detectionDeltas ++ result.detectionDeltas
      recoveryDeltas := tally.recoveryDeltas ++ result.recoveryDeltas
      deletedPairs }
  else
    { tally with
      totals
      pairSummaries := tally.pairSummaries ++ [uncomparedSummary pair]
      deletedPairs }

def manualLine (pair : ComparisonPair) : Option String :=
  let record := pair.sourceName ++ " (" ++ pair.sourceType ++ "): "
  if pair.outcome = .unsupported ∨ pair.outcome = .skipped then some (record ++ pair.detail)
  else if pair.monitorId.isNone then
    some (record ++ "was imported and its Vigil monitor has since been deleted here. Re-import it, or consciously retire the coverage before cutover.")
  else if !pair.compared then
    some (record ++ "imported, but its job still reports to the source system. Repoint it at the Vigil push endpoint at cutover; until then its silence here proves nothing.")
  else none

/-- The first five names of a list, and how many there are beyond them. -/
def firstFive (names : List String) : String :=
  ", ".intercalate (names.take 5) ++
    if names.length > 5 then " and " ++ toString (names.length - 5) ++ " more" else ""

def missedReason (missed : ℕ) : String :=
  toString missed ++ " outage(s) the source recorded were provably not detected by Vigil. Each one is listed; cutting over before they are explained risks missing the same outage in production."

def openExtraReason (openExtra : ℕ) : String :=
  toString openExtra ++ " imported monitor(s) read down in Vigil right now while the source, as of the last successful poll, reads them fine. A monitor that is wrong before cutover will be wrong after it; each one's import report line usually names the cause (an uncarried credential, header or certificate setting)."

def deletedReason (deletedPairs : List ComparisonPair) (deleted : ℕ) : String :=
  toString deleted ++ " imported monitor(s) have been deleted here since the import: " ++
    firstFive (deletedPairs.map (·.sourceName)) ++
    ". The source still watches those targets and, after cutover, nothing would."

def pollReason (consecutivePollFailures : ℕ) : String :=
  "The evidence feed itself is failing: the last " ++ toString consecutivePollFailures ++
    " polls did not complete, so recent source history is unknown."

def thinReason (thin : List PairSummary) : String :=
  toString thin.length ++ " compared monitor(s) have under " ++ toString MIN_COMPARISON_HOURS ++
    " hours of overlap between the source evidence and Vigil's own observation, so their quiet proves little yet: " ++
    firstFive (thin.map fun p => p.sourceName ++ " (" ++ tenthsText p.overlapHours ++ "h)") ++
    ". Source history reaches back before the bridge existed; agreement is only provable where both systems watched."

def silentReason (silent : List PairSummary) : String :=
  toString silent.length ++ " imported monitor(s) have recorded no observations during the comparison, so nothing about them has been compared: " ++
    firstFive (silent.map (·.sourceName)) ++ "."

def leftOutReason (count : ℕ) : String :=
  toString count ++ " source record(s) did not become Vigil monitors. Their coverage disappears at cutover unless it is recreated or consciously retired; the manual work list names each one."

def uncomparedReason (uncomparedImported : List PairSummary) : String :=
  toString uncomparedImported.length ++ " imported record(s) cannot be compared from here (heartbeat jobs still report to the source). They need their own cutover step."

def safeReason : String :=
  "Every comparable monitor was watched by both systems for at least " ++
    toString MIN_COMPARISON_HOURS ++ " hours of overlapping evidence, every incident either matched or is excused by a documented semantic difference, and nothing the source recorded went unexplained."

/-- A pair whose overlap, as the summary has it, is too short. -/
def isThin (p : PairSummary) : Bool := p.compared && p.overlapHours < MIN_COMPARISON_HOURS

def isSilent (p : PairSummary) : Bool := p.compared && p.vigilChecks = 0

def isUncomparedImported (p : PairSummary) : Bool := !p.compared && p.monitorId.isSome

/-- The reasons against a cutover. -/
def disqualifiers (tally : Tally) (consecutivePollFailures : ℕ) : List String :=
  let totals := tally.totals
  let thin := tally.pairSummaries.filter isThin
  let silent := tally.pairSummaries.filter isSilent
  let uncomparedImported := tally.pairSummaries.filter isUncomparedImported
  (if totals.missed > 0 then [missedReason totals.missed] else []) ++
  (if totals.openExtra > 0 then [openExtraReason totals.openExtra] else []) ++
  (if totals.deleted > 0 then [deletedReason tally.deletedPairs totals.deleted] else []) ++
  (if consecutivePollFailures ≥ MAX_CONSECUTIVE_POLL_FAILURES then
    [pollReason consecutivePollFailures] else []) ++
  (if thin.length > 0 then [thinReason thin] else []) ++
  (if silent.length > 0 then [silentReason silent] else []) ++
  (if totals.unsupported + totals.skipped > 0 then
    [leftOutReason (totals.unsupported + totals.skipped)] else []) ++
  (if uncomparedImported.length > 0 then [uncomparedReason uncomparedImported] else [])

/-- The whole comparison, and the verdict it supports. -/
def compareBridge (input : ComparisonInput) : ComparisonReport :=
  let coverage := mergeCoverage input.coverage
  let coveredMs : ℤ := (coverage.map fun w => w.stop - w.start).sum
  let tally := input.pairs.foldl (tallyPair coverage input.at_)
    { totals := { sourceRecords := input.pairs.length } }
  let reasons := disqualifiers tally input.consecutivePollFailures
  { windowFrom := coverage.head?.map (·.start)
    windowTo := input.at_
    coverage
    coveredHours := roundTenths (coveredMs / 3600000)
    totals := tally.totals
    timing :=
      { detectionMedianSeconds := median tally.detectionDeltas
        detectionWorstSeconds := worst tally.detectionDeltas
        recoveryMedianSeconds := median tally.recoveryDeltas
        recoveryWorstSeconds := worst tally.recoveryDeltas
        samples := tally.detectionDeltas.length }
    pairs := tally.pairSummaries
    findings := tally.findings
    manualWork := input.manualNotes ++ input.pairs.filterMap manualLine
    verdict := if reasons.length = 0 then .safe else .notSafe
    reasons := if reasons.length = 0 then [safeReason] else reasons }

end Vigil.Bridge.Compare
