import Vigil.Incidents.Evidence
import Vigil.Ledger.JsonBytes
import Vigil.Lib.Stages
import Mathlib.Algebra.Order.BigOperators.Group.List

/-! `fitSnapshot` of `incidents/evidence/capture.ts`: a snapshot is cut down to the storage bound,
the least useful evidence first.  Six stages take fields away or cut them, but there are fields that
no stage touches. -/

namespace Vigil.Incidents.FitSnapshot

open Js.Text Js.ByteLength Ledger.Canonical Ledger.JsonText Ledger.JsonBytes Evidence Lib.Stages

def maxSnapshotBytes : ℕ := 32768

def maxErrorChars : ℕ := 2000

def clipMark : JsString := js "… [truncated]"

def clip (value : JsString) (max : ℕ) : JsString :=
  if value.length ≤ max then value else value.take max ++ clipMark

/-! ### The JSON of a snapshot -/

def textOrNull (text : Option JsString) : JsValue := text.elim .null .string

def numberOrNull (x : Option JsNumber) : JsValue := x.elim .null .number

/-- A flag that is left out where it does not hold. -/
def flag (b : Bool) : JsValue := if b then .bool true else .undefined

/-- An observation, as it is stored. -/
def observationJson (o : EvidenceObservation) : JsValue :=
  .object [
    (js "at", textOrNull o.at_),
    (js "verdict", textOrNull o.verdict),
    (js "failureClass", textOrNull o.failureClass),
    (js "error", textOrNull o.error),
    (js "statusCode", numberOrNull o.statusCode),
    (js "responseTimeMs", numberOrNull o.responseTimeMs),
    (js "failedAssertions", .array (o.failedAssertions.map .string)),
    (js "facts", .object o.facts)]

/-- A change, as it is stored. -/
def changeJson (change : EvidenceChange) : JsValue :=
  .object [
    (js "key", .string change.key),
    (js "label", .string change.label),
    (js "unit", change.unit.elim .undefined .string),
    (js "before", change.before),
    (js "after", change.after),
    (js "note", .string change.note.text)]

/-- A step, as it is stored. -/
def stepJson (step : BurstStep) : JsValue :=
  .object [
    (js "kind", .string step.kind.text),
    (js "ok", .bool step.ok),
    (js "durationMs", .number (.integer step.durationMs)),
    (js "detail", .object step.detail),
    (js "error", textOrNull step.error),
    (js "selfInflicted", flag step.selfInflicted)]

/-- A burst, as it is stored. -/
def burstJson (burst : BurstRecord) : JsValue :=
  .object [
    (js "ranAt", .string burst.ranAt),
    (js "budgetMs", .number (.integer burst.budgetMs)),
    (js "maxSteps", .number (.integer burst.maxSteps)),
    (js "spentMs", .number (.integer burst.spentMs)),
    (js "steps", .array (burst.steps.map stepJson)),
    (js "skipped", burst.skipped.elim .undefined fun reason => .string reason.text)]

/-- A signal, as it is stored. -/
def signalJson (signal : CorrelationSignal) : JsValue :=
  .object [(js "kind", .string signal.kind.text), (js "detail", .string signal.detail)]

def correlationJson (failure : CorrelatedFailure) : JsValue :=
  .object [
    (js "monitorId", .string failure.monitorId),
    (js "monitorName", .string failure.monitorName),
    (js "checkType", .string failure.checkType),
    (js "incidentId", textOrNull failure.incidentId),
    (js "firstFailureAt", textOrNull failure.firstFailureAt),
    (js "signals", .array (failure.signals.map signalJson))]

/-- The monitor, as it is stored. -/
def monitorJson (monitor : SnapshotMonitor) : JsValue :=
  .object [
    (js "id", .string monitor.id),
    (js "name", .string monitor.name),
    (js "checkType", .string monitor.checkType),
    (js "target", .string monitor.target),
    (js "host", textOrNull monitor.host),
    (js "port", numberOrNull monitor.port)]

/-- The stage, as it is stored. -/
def stageJson (stage : EvidenceStageVerdict) : JsValue :=
  .object [
    (js "stage", .string stage.stage.text),
    (js "basis", .string stage.basis.text),
    (js "reason", .string stage.reason)]

def lastSuccessNote (found : Bool) : JsString :=
  if found then js "found" else js "none-retained"

def correlationsNote (skipped : Bool) : JsValue :=
  if skipped then .string (js "high-frequency") else .undefined

/-- The snapshot, as it is stored. -/
def snapshotJson (s : IncidentEvidenceSnapshot) : JsValue :=
  .object [
    (js "schemaVersion", .number (.integer s.schemaVersion)),
    (js "capturedAt", .string s.capturedAt),
    (js "monitor", monitorJson s.monitor),
    (js "failure", observationJson s.failure),
    (js "stage", stageJson s.stage),
    (js "signature", textOrNull s.signature),
    (js "firstFailureAt", textOrNull s.firstFailureAt),
    (js "lastSuccess", s.lastSuccess.elim .null observationJson),
    (js "lastSuccessNote", .string (lastSuccessNote s.lastSuccessFound)),
    (js "changes", .array (s.changes.map changeJson)),
    (js "burst", s.burst.elim .null burstJson),
    (js "correlations", .array (s.correlations.map correlationJson)),
    (js "correlationsNote", correlationsNote s.correlationsSkipped),
    (js "synthetic", s.synthetic.getD .undefined),
    (js "probes", s.probes.getD .undefined),
    (js "truncated", flag s.truncated)]

/-- `Buffer.byteLength(JSON.stringify(value), "utf8")` -/
def size (s : IncidentEvidenceSnapshot) : ℕ := bytes (snapshotJson s)

/-! ### The stages -/

def mark (s : IncidentEvidenceSnapshot) : IncidentEvidenceSnapshot := { s with truncated := true }

def dropProbes (s : IncidentEvidenceSnapshot) : IncidentEvidenceSnapshot :=
  { s with probes := none }

/-- `correlations.slice(0, -1)` -/
def dropCorrelation (s : IncidentEvidenceSnapshot) : IncidentEvidenceSnapshot :=
  { s with correlations := s.correlations.dropLast }

def withoutDetail (burst : BurstRecord) : BurstRecord :=
  { burst with steps := burst.steps.map fun step => { step with detail := [] } }

def dropDetails (s : IncidentEvidenceSnapshot) : IncidentEvidenceSnapshot :=
  { s with burst := s.burst.map withoutDetail }

def dropChanges (s : IncidentEvidenceSnapshot) : IncidentEvidenceSnapshot :=
  { s with changes := [] }

def withoutFacts (o : EvidenceObservation) : EvidenceObservation := { o with facts := [] }

def dropDerived (s : IncidentEvidenceSnapshot) : IncidentEvidenceSnapshot :=
  { s with lastSuccess := none, failure := withoutFacts s.failure }

def clipFailure (s : IncidentEvidenceSnapshot) : IncidentEvidenceSnapshot :=
  { s with
    burst := none
    failure := { s.failure with error := s.failure.error.map (clip · maxErrorChars) } }

/-- The `while` loop, which goes round as often as there are correlations at most. -/
def dropCorrelations (maxBytes : ℕ) : ℕ → IncidentEvidenceSnapshot → IncidentEvidenceSnapshot
  | 0, s => s
  | rounds + 1, s =>
    if s.correlations ≠ [] ∧ maxBytes < size s then
      dropCorrelations maxBytes rounds (dropCorrelation s)
    else s

def fitSnapshot (snapshot : IncidentEvidenceSnapshot) (maxBytes : ℕ) : IncidentEvidenceSnapshot :=
  if size snapshot ≤ maxBytes then snapshot
  else
    let trimmed := mark snapshot
    let trimmed :=
      if trimmed.probes.isSome ∧ maxBytes < size trimmed then dropProbes trimmed else trimmed
    let trimmed := dropCorrelations maxBytes trimmed.correlations.length trimmed
    let trimmed :=
      if trimmed.burst.isSome ∧ maxBytes < size trimmed then dropDetails trimmed else trimmed
    let trimmed := if maxBytes < size trimmed then dropChanges trimmed else trimmed
    let trimmed := if maxBytes < size trimmed then dropDerived trimmed else trimmed
    if maxBytes < size trimmed then clipFailure trimmed else trimmed

/-- What is left of a snapshot when everything that the first five stages take is gone. -/
def withoutDerived (s : IncidentEvidenceSnapshot) : IncidentEvidenceSnapshot :=
  { s with
    truncated := true
    probes := none
    correlations := []
    burst := s.burst.map withoutDetail
    changes := []
    lastSuccess := none
    failure := withoutFacts s.failure }

/-- What is left when the last stage is taken too. -/
def bare (s : IncidentEvidenceSnapshot) : IncidentEvidenceSnapshot := clipFailure (withoutDerived s)

/-! ### Sizes -/

theorem bytes_object_le {entries entries' : List (JsString × JsValue)}
    (h : entriesCost entries ≤ entriesCost entries') :
    bytes (.object entries) ≤ bytes (.object entries') := by
  rw [bytes_object, bytes_object]
  omega

theorem bytes_array_le {items items' : List JsValue} (h : itemsCost items ≤ itemsCost items') :
    bytes (.array items) ≤ bytes (.array items') := by
  rw [bytes_array, bytes_array]
  omega

variable (key : JsString)

theorem entryCost_of_text {value : JsValue} (h : (stringify value).isSome) :
    entryCost key value = byteLength (jsonQuote key) + bytes value + 2 := by
  obtain ⟨text, htext⟩ := Option.isSome_iff_exists.mp h
  simp only [entryCost, bytes, htext, byteLength_entryText, Option.getD_some]
  omega

theorem itemCost_of_text {value : JsValue} (h : (stringify value).isSome) :
    itemCost value = bytes value + 1 := by
  obtain ⟨text, htext⟩ := Option.isSome_iff_exists.mp h
  simp only [itemCost, bytes, htext, Option.getD_some]

theorem entryCost_le {value value' : JsValue} (h : (stringify value).isSome)
    (h' : (stringify value').isSome) (hle : bytes value ≤ bytes value') :
    entryCost key value ≤ entryCost key value' := by
  rw [entryCost_of_text key h, entryCost_of_text key h']
  omega

theorem entryCost_object_le {entries entries' : List (JsString × JsValue)}
    (h : bytes (.object entries) ≤ bytes (.object entries')) :
    entryCost key (.object entries) ≤ entryCost key (.object entries') :=
  entryCost_le key rfl rfl h

theorem entryCost_array_le {items items' : List JsValue} (h : itemsCost items ≤ itemsCost items') :
    entryCost key (.array items) ≤ entryCost key (.array items') :=
  entryCost_le key rfl rfl (bytes_array_le h)

theorem bytes_empty_le (entries : List (JsString × JsValue)) :
    bytes (.object []) ≤ bytes (.object entries) :=
  bytes_object_le (Nat.zero_le _)

theorem size_le_mark (s : IncidentEvidenceSnapshot) : size s ≤ size (mark s) := by
  have h : entryCost (js "truncated") (flag s.truncated) ≤
      entryCost (js "truncated") (flag true) := by
    cases s.truncated
    · exact Nat.zero_le _
    · exact Nat.le_refl _
  refine bytes_object_le ?_
  simp only [mark, entriesCost_cons]
  omega

theorem size_dropProbes (s : IncidentEvidenceSnapshot) : size (dropProbes s) ≤ size s := by
  have h : entryCost (js "probes") ((none : Option JsValue).getD .undefined) ≤
      entryCost (js "probes") (s.probes.getD .undefined) := Nat.zero_le _
  refine bytes_object_le ?_
  simp only [dropProbes, entriesCost_cons]
  omega

theorem itemCost_withoutDetail (step : BurstStep) :
    itemCost (stepJson { step with detail := [] }) ≤ itemCost (stepJson step) := by
  have h := entryCost_object_le (js "detail") (bytes_empty_le step.detail)
  rw [itemCost_of_text rfl, itemCost_of_text rfl]
  refine Nat.succ_le_succ (bytes_object_le ?_)
  simp only [entriesCost_cons]
  omega

theorem bytes_withoutDetail (burst : BurstRecord) :
    bytes (burstJson (withoutDetail burst)) ≤ bytes (burstJson burst) := by
  have h : entryCost (js "steps") (.array ((withoutDetail burst).steps.map stepJson)) ≤
      entryCost (js "steps") (.array (burst.steps.map stepJson)) := by
    refine entryCost_array_le _ ?_
    simp only [itemsCost, withoutDetail, List.map_map]
    exact List.sum_le_sum fun step _ => itemCost_withoutDetail step
  refine bytes_object_le ?_
  simp only [entriesCost_cons]
  simp only [withoutDetail] at h ⊢
  omega

theorem size_dropDetails (s : IncidentEvidenceSnapshot) : size (dropDetails s) ≤ size s := by
  have h : entryCost (js "burst") ((s.burst.map withoutDetail).elim .null burstJson) ≤
      entryCost (js "burst") (s.burst.elim .null burstJson) := by
    cases s.burst with
    | none => exact Nat.le_refl _
    | some burst => exact entryCost_le _ rfl rfl (bytes_withoutDetail burst)
  refine bytes_object_le ?_
  simp only [dropDetails, entriesCost_cons]
  omega

theorem size_dropChanges (s : IncidentEvidenceSnapshot) : size (dropChanges s) ≤ size s := by
  have h : entryCost (js "changes") (.array (([] : List EvidenceChange).map changeJson)) ≤
      entryCost (js "changes") (.array (s.changes.map changeJson)) :=
    entryCost_array_le _ (Nat.zero_le _)
  refine bytes_object_le ?_
  simp only [dropChanges, entriesCost_cons]
  omega

theorem null_le_observation (o : EvidenceObservation) :
    bytes .null ≤ bytes (observationJson o) := by
  have hat : 4 ≤ entryCost (js "failedAssertions") (.array (o.failedAssertions.map .string)) := by
    rw [entryCost_of_text _ rfl, bytes_array]
    have hkey : byteLength (jsonQuote (js "failedAssertions")) = 18 := by decide
    omega
  have hnull : bytes .null = 4 := by decide
  rw [hnull, observationJson, bytes_object]
  simp only [entriesCost_cons]
  omega

theorem size_dropDerived (s : IncidentEvidenceSnapshot) : size (dropDerived s) ≤ size s := by
  have hsuccess : entryCost (js "lastSuccess")
        ((none : Option EvidenceObservation).elim .null observationJson) ≤
      entryCost (js "lastSuccess") (s.lastSuccess.elim .null observationJson) := by
    cases s.lastSuccess with
    | none => exact Nat.le_refl _
    | some o => exact entryCost_le _ rfl rfl (null_le_observation o)
  have hfailure : entryCost (js "failure") (observationJson (withoutFacts s.failure)) ≤
      entryCost (js "failure") (observationJson s.failure) := by
    have hfacts := entryCost_object_le (js "facts") (bytes_empty_le s.failure.facts)
    refine entryCost_object_le _ (bytes_object_le ?_)
    simp only [withoutFacts, entriesCost_cons]
    omega
  refine bytes_object_le ?_
  simp only [dropDerived, entriesCost_cons]
  omega

/-- No stage touches the failed assertions, which are as long as the target makes them. -/
theorem length_le_size (s : IncidentEvidenceSnapshot) {text : JsString}
    (h : text ∈ s.failure.failedAssertions) : text.length ≤ size s := by
  have hitem : itemCost (.string text) ≤ itemsCost (s.failure.failedAssertions.map .string) :=
    List.single_le_sum (fun _ _ => Nat.zero_le _) _ (List.mem_map_of_mem (List.mem_map_of_mem h))
  have hquote := (byteLength_quoteBody text).1
  have htext : bytes (.string text) = byteLength (jsonQuote text) := rfl
  rw [itemCost_of_text rfl, htext, byteLength_jsonQuote] at hitem
  have hassertions : itemsCost (s.failure.failedAssertions.map .string) ≤
      entryCost (js "failedAssertions") (.array (s.failure.failedAssertions.map .string)) := by
    rw [entryCost_of_text _ rfl, bytes_array]
    omega
  have hfailure : text.length ≤ entryCost (js "failure") (observationJson s.failure) := by
    rw [entryCost_of_text _ rfl, observationJson, bytes_object]
    simp only [entriesCost_cons]
    omega
  rw [size, snapshotJson, bytes_object]
  simp only [entriesCost_cons]
  omega

theorem size_withoutCorrelations (s : IncidentEvidenceSnapshot) :
    size { s with correlations := [] } ≤ size s := by
  have h : entryCost (js "correlations")
        (.array (([] : List CorrelatedFailure).map correlationJson)) ≤
      entryCost (js "correlations") (.array (s.correlations.map correlationJson)) :=
    entryCost_array_le _ (Nat.zero_le _)
  refine bytes_object_le ?_
  simp only [entriesCost_cons]
  omega

/-! ### The stages as cuts -/

variable {maxBytes : ℕ}

theorem dropProbes_eq (s : IncidentEvidenceSnapshot) :
    (if s.probes.isSome ∧ maxBytes < size s then dropProbes s else s) =
      stage size maxBytes dropProbes s := by
  cases hprobes : s.probes with
  | none =>
    have hsame : dropProbes s = s := by rw [dropProbes, ← hprobes]
    rw [stage, hsame, ite_self, ite_self]
  | some probes =>
    rw [stage]
    exact if_congr (and_iff_right rfl) rfl rfl

theorem dropDetails_eq (s : IncidentEvidenceSnapshot) :
    (if s.burst.isSome ∧ maxBytes < size s then dropDetails s else s) =
      stage size maxBytes dropDetails s := by
  cases hburst : s.burst with
  | none =>
    have hsame : dropDetails s = s := by rw [dropDetails, hburst, Option.map_none, ← hburst]
    rw [stage, hsame, ite_self, ite_self]
  | some burst =>
    rw [stage]
    exact if_congr (and_iff_right rfl) rfl rfl

theorem dropCorrelations_spec (maxBytes rounds : ℕ) (s : IncidentEvidenceSnapshot)
    (h : s.correlations.length ≤ rounds) :
    ∃ kept, kept <+: s.correlations ∧
      dropCorrelations maxBytes rounds s = { s with correlations := kept } ∧
      (size { s with correlations := kept } ≤ maxBytes ∨ kept = []) := by
  induction rounds generalizing s with
  | zero =>
    have hnil : s.correlations = [] := List.length_eq_zero_iff.mp (Nat.le_zero.mp h)
    exact ⟨s.correlations, List.prefix_refl _, rfl, .inr hnil⟩
  | succ rounds ih =>
    rw [dropCorrelations]
    split
    · obtain ⟨kept, hprefix, hrun, hleft⟩ := ih (dropCorrelation s) (by
        rw [dropCorrelation, List.length_dropLast]
        omega)
      exact ⟨kept, hprefix.trans (List.dropLast_prefix _), hrun, hleft⟩
    · rename_i hstop
      refine ⟨s.correlations, List.prefix_refl _, rfl, ?_⟩
      rw [not_and_or, not_not, Nat.not_lt] at hstop
      exact hstop.symm

theorem cuts_dropCorrelations : Cuts size maxBytes
    (fun s => { s with correlations := [] })
    fun s => dropCorrelations maxBytes s.correlations.length s where
  shrinks := size_withoutCorrelations
  idle s hfits := by
    cases hlength : s.correlations.length with
    | zero => rfl
    | succ rounds => exact if_neg fun h => Nat.not_lt.mpr hfits h.2
  whole s hlarge := by
    obtain ⟨kept, -, hrun, hleft⟩ := dropCorrelations_spec maxBytes _ s le_rfl
    rw [hrun] at hlarge ⊢
    obtain hfits | rfl := hleft
    · omega
    · rfl
  least s := by
    obtain ⟨kept, -, hrun, -⟩ := dropCorrelations_spec maxBytes _ s le_rfl
    rw [hrun]
    exact size_withoutCorrelations { s with correlations := kept }

/-- The stages in front of the last. -/
def trim (maxBytes : ℕ) (s : IncidentEvidenceSnapshot) : IncidentEvidenceSnapshot :=
  let probed := stage size maxBytes dropProbes s
  let ranked := dropCorrelations maxBytes probed.correlations.length probed
  stage size maxBytes dropDerived
    (stage size maxBytes dropChanges (stage size maxBytes dropDetails ranked))

theorem fitSnapshot_of_large {s : IncidentEvidenceSnapshot} (h : maxBytes < size s) :
    fitSnapshot s maxBytes = stage size maxBytes clipFailure (trim maxBytes (mark s)) := by
  rw [fitSnapshot, if_neg (Nat.not_le.mpr h)]
  simp only [dropProbes_eq, dropDetails_eq]
  rfl

theorem cuts_trim : Cuts size maxBytes
    (fun s => dropDerived (dropChanges (dropDetails { dropProbes s with correlations := [] })))
    (trim maxBytes) :=
  (((Cuts.stage size_dropProbes).comp cuts_dropCorrelations).comp
    (Cuts.stage size_dropDetails)).comp (Cuts.stage size_dropChanges) |>.comp
      (Cuts.stage size_dropDerived)

/-- The last stage is taken where everything in front of it does not make the snapshot fit. -/
theorem fitSnapshot_cases (s : IncidentEvidenceSnapshot) (maxBytes : ℕ) :
    size s ≤ maxBytes ∧ fitSnapshot s maxBytes = s ∨
      maxBytes < size s ∧ size (withoutDerived s) ≤ maxBytes ∧
        size (trim maxBytes (mark s)) ≤ maxBytes ∧
        fitSnapshot s maxBytes = trim maxBytes (mark s) ∨
      maxBytes < size s ∧ maxBytes < size (withoutDerived s) ∧
        fitSnapshot s maxBytes = bare s := by
  by_cases hfits : size s ≤ maxBytes
  · exact .inl ⟨hfits, if_pos hfits⟩
  · have hlarge := Nat.lt_of_not_le hfits
    have hiff : size (trim maxBytes (mark s)) ≤ maxBytes ↔ size (withoutDerived s) ≤ maxBytes :=
      cuts_trim.fits_iff (mark s)
    rw [fitSnapshot_of_large hlarge]
    by_cases htrim : size (trim maxBytes (mark s)) ≤ maxBytes
    · exact .inr (.inl ⟨hlarge, hiff.mp htrim, htrim, stage_of_fits htrim⟩)
    · have hwhole := cuts_trim.whole (mark s) (Nat.lt_of_not_le htrim)
      refine .inr (.inr ⟨hlarge, Nat.lt_of_not_le (mt hiff.mpr htrim), ?_⟩)
      rw [stage_of_large (Nat.lt_of_not_le htrim), hwhole]
      rfl

/-! ### What is removed -/

/-- The fields that no stage touches. -/
def untouched (s : IncidentEvidenceSnapshot) : IncidentEvidenceSnapshot :=
  { s with
    probes := none
    correlations := []
    burst := none
    changes := []
    lastSuccess := none
    failure := { s.failure with facts := [], error := none }
    truncated := false }

def ShortenedText (before after : Option JsString) : Prop :=
  after = before ∨
    ∃ text ∈ before, ∃ shorter ∈ after, shorter.length < text.length

/-- The result has of every field what the snapshot has, or less. -/
structure Shortened (s result : IncidentEvidenceSnapshot) : Prop where
  probes : result.probes = s.probes ∨ result.probes = none
  correlations : result.correlations <+: s.correlations
  burst : result.burst = s.burst ∨ result.burst = s.burst.map withoutDetail ∨ result.burst = none
  changes : result.changes = s.changes ∨ result.changes = []
  lastSuccess : result.lastSuccess = s.lastSuccess ∨ result.lastSuccess = none
  facts : result.failure.facts = s.failure.facts ∨ result.failure.facts = []
  error : ShortenedText s.failure.error result.failure.error
  truncated : s.truncated = true → result.truncated = true
  rest : untouched result = untouched s

namespace Shortened

variable {s r : IncidentEvidenceSnapshot}

theorem mark (s : IncidentEvidenceSnapshot) : Shortened s (FitSnapshot.mark s) where
  probes := .inl rfl
  correlations := List.prefix_refl _
  burst := .inl rfl
  changes := .inl rfl
  lastSuccess := .inl rfl
  facts := .inl rfl
  error := .inl rfl
  truncated _ := rfl
  rest := rfl

theorem refl (s : IncidentEvidenceSnapshot) : Shortened s s :=
  { mark s with truncated := id, rest := rfl }

theorem dropProbes (h : Shortened s r) : Shortened s (FitSnapshot.dropProbes r) :=
  { h with probes := .inr rfl, rest := h.rest }

theorem withCorrelations (h : Shortened s r) {kept : List CorrelatedFailure}
    (hkept : kept <+: r.correlations) : Shortened s { r with correlations := kept } :=
  { h with correlations := hkept.trans h.correlations, rest := h.rest }

theorem dropDetails (h : Shortened s r) : Shortened s (FitSnapshot.dropDetails r) := by
  have htwice : ∀ burst : Option BurstRecord,
      (burst.map withoutDetail).map withoutDetail = burst.map withoutDetail := by
    intro burst
    cases burst with
    | none => rfl
    | some burst => simp [withoutDetail]
  refine { h with burst := .inr ?_, rest := h.rest }
  obtain hsame | hless | hnone := h.burst
  · exact .inl (congrArg (Option.map withoutDetail) hsame)
  · exact .inl ((congrArg (Option.map withoutDetail) hless).trans (htwice _))
  · exact .inr (congrArg (Option.map withoutDetail) hnone)

theorem dropChanges (h : Shortened s r) : Shortened s (FitSnapshot.dropChanges r) :=
  { h with changes := .inr rfl, rest := h.rest }

theorem dropDerived (h : Shortened s r) : Shortened s (FitSnapshot.dropDerived r) :=
  { h with lastSuccess := .inr rfl, facts := .inr rfl, rest := h.rest }

theorem trim (h : Shortened s r) : Shortened s (FitSnapshot.trim maxBytes r) := by
  have hprobed : Shortened s (stage size maxBytes FitSnapshot.dropProbes r) :=
    stage_of dropProbes h
  obtain ⟨kept, hprefix, hrun, -⟩ := dropCorrelations_spec maxBytes _
    (stage size maxBytes FitSnapshot.dropProbes r) le_rfl
  have hranked := hprobed.withCorrelations hprefix
  rw [← hrun] at hranked
  exact stage_of dropDerived (stage_of dropChanges (stage_of dropDetails hranked))

/-- The last stage shortens what is left unless it lengthens the error. -/
theorem bare_iff (s : IncidentEvidenceSnapshot) :
    Shortened s (bare s) ↔
      ShortenedText s.failure.error (s.failure.error.map (clip · maxErrorChars)) := by
  constructor
  · exact fun h => h.error
  · intro herror
    exact {
      probes := .inr rfl
      correlations := List.nil_prefix
      burst := .inr (.inr rfl)
      changes := .inr rfl
      lastSuccess := .inr rfl
      facts := .inr rfl
      error := herror
      truncated := fun _ => rfl
      rest := rfl }

end Shortened

theorem length_clipMark : clipMark.length = 13 := by decide

/-- The mark of a cut takes 13 units, so that an error which is only that much too long does not get
shorter. -/
theorem shortenedText_clip (error : Option JsString) :
    ShortenedText error (error.map (clip · maxErrorChars)) ↔
      ∀ text ∈ error,
        text.length ≤ 2000 ∨ 2013 < text.length ∨ text = text.take 2000 ++ clipMark := by
  cases error with
  | none => exact iff_of_true (.inl rfl) nofun
  | some text =>
    simp only [ShortenedText, Option.map_some, Option.mem_some, forall_eq', exists_eq_left',
      Option.some.injEq]
    by_cases hshort : text.length ≤ 2000
    · exact iff_of_true (.inl (if_pos hshort)) (.inl hshort)
    · have hclip : clip text maxErrorChars = text.take 2000 ++ clipMark := if_neg hshort
      have hlength : (text.take 2000 ++ clipMark).length = 2013 := by
        rw [List.length_append, List.length_take_of_le (Nat.le_of_not_le hshort), length_clipMark]
      rw [hclip, hlength, eq_comm (a := text.take 2000 ++ clipMark)]
      constructor
      · rintro (hsame | hlong)
        · exact .inr (.inr hsame)
        · exact .inr (.inl hlong)
      · rintro (hle | hlong | hsame)
        · exact absurd hle hshort
        · exact .inr hlong
        · exact .inl hsame

/-- What a snapshot of the size that is kept has to be. -/
structure Fitted (s result : IncidentEvidenceSnapshot) : Prop where
  fits : size result ≤ maxSnapshotBytes
  same : size s ≤ maxSnapshotBytes → result = s
  marked : result.truncated = true ↔
    s.truncated = true ∨ { result with truncated := s.truncated } ≠ s
  shortened : Shortened s result
  failure : result.failure.at_ = s.failure.at_ ∧ result.failure.verdict = s.failure.verdict ∧
    result.failure.failureClass = s.failure.failureClass ∧
    result.failure.statusCode = s.failure.statusCode

theorem Shortened.failure {s r : IncidentEvidenceSnapshot} (h : Shortened s r) :
    r.failure.at_ = s.failure.at_ ∧ r.failure.verdict = s.failure.verdict ∧
      r.failure.failureClass = s.failure.failureClass ∧
      r.failure.statusCode = s.failure.statusCode :=
  ⟨congrArg (fun s => s.failure.at_) h.rest, congrArg (fun s => s.failure.verdict) h.rest,
    congrArg (fun s => s.failure.failureClass) h.rest,
    congrArg (fun s => s.failure.statusCode) h.rest⟩

/-- A snapshot that was too large and fits has lost something. -/
theorem Fitted.of_large {s result : IncidentEvidenceSnapshot} (hlarge : maxSnapshotBytes < size s)
    (hfits : size result ≤ maxSnapshotBytes) (hmarked : result.truncated = true)
    (h : Shortened s result) : Fitted s result where
  fits := hfits
  same hs := absurd hs (Nat.not_le.mpr hlarge)
  marked := by
    refine iff_of_true hmarked (.inr fun hsame => ?_)
    have hresult : mark s = result := by
      rw [← hsame, mark, ← hmarked]
    have hle := size_le_mark s
    rw [hresult] at hle
    omega
  shortened := h
  failure := h.failure

theorem Fitted.refl {s : IncidentEvidenceSnapshot} (h : size s ≤ maxSnapshotBytes) :
    Fitted s s where
  fits := h
  same _ := rfl
  marked := ⟨.inl, fun hor => hor.elim id fun hne => absurd rfl hne⟩
  shortened := .refl s
  failure := ⟨rfl, rfl, rfl, rfl⟩

/-- `fitSnapshot` keeps its contract where the fields that no stage touches leave room for it, and
where the last stage does not lengthen the error. -/
theorem fitted_fitSnapshot_iff (s : IncidentEvidenceSnapshot) :
    Fitted s (fitSnapshot s maxSnapshotBytes) ↔
      size s ≤ maxSnapshotBytes ∨
      size (withoutDerived s) ≤ maxSnapshotBytes ∨
      size (bare s) ≤ maxSnapshotBytes ∧ ∀ text ∈ s.failure.error,
        text.length ≤ 2000 ∨ 2013 < text.length ∨ text = text.take 2000 ++ clipMark := by
  obtain ⟨hsmall, hfit⟩ | ⟨hlarge, hderived, htrim, hfit⟩ | ⟨hlarge, hderived, hfit⟩ :=
    fitSnapshot_cases s maxSnapshotBytes
  · rw [hfit]
    exact iff_of_true (.refl hsmall) (.inl hsmall)
  · rw [hfit]
    have hmarked : (trim maxSnapshotBytes (mark s)).truncated = true :=
      (Shortened.refl (mark s)).trim.truncated rfl
    have hfitted := Fitted.of_large hlarge htrim hmarked (Shortened.mark s).trim
    exact iff_of_true hfitted (.inr (.inl hderived))
  · rw [hfit, ← shortenedText_clip]
    constructor
    · exact fun h => .inr (.inr ⟨h.fits, h.shortened.error⟩)
    · rintro (hsmall | hsmall | ⟨hbare, herror⟩)
      · exact absurd hsmall (Nat.not_le.mpr hlarge)
      · exact absurd hsmall (Nat.not_le.mpr hderived)
      · exact .of_large hlarge hbare rfl ((Shortened.bare_iff s).mpr herror)

/-- A failed assertion whose name is longer than the bound stays. -/
theorem not_fitted_of_long {s : IncidentEvidenceSnapshot} {text : JsString}
    (hmem : text ∈ s.failure.failedAssertions) (hlong : maxSnapshotBytes < text.length) :
    ¬Fitted s (fitSnapshot s maxSnapshotBytes) := by
  intro h
  have hsame := congrArg (fun s => s.failure.failedAssertions) h.shortened.rest
  have hkept : text ∈ (fitSnapshot s maxSnapshotBytes).failure.failedAssertions :=
    hsame.symm ▸ hmem
  have hlength := length_le_size _ hkept
  have hfits := h.fits
  omega

def longName : JsString := List.replicate 33000 0x61

/-- A snapshot that is too large for its failed assertions. -/
def verboseSnapshot : IncidentEvidenceSnapshot where
  schemaVersion := 1
  capturedAt := js "2026-01-01T00:00:00.000Z"
  monitor :=
    { id := js "m1", name := js "api", checkType := js "http"
      target := js "https://api.example.com", host := some (js "api.example.com"), port := none }
  failure :=
    { at_ := some (js "2026-01-01T00:00:00.000Z"), verdict := some (js "down")
      failureClass := some (js "assertion"), error := none, statusCode := none
      responseTimeMs := none, failedAssertions := [longName], facts := [] }
  stage := { stage := .application, basis := .assertion, reason := js "An assertion failed." }
  signature := none
  firstFailureAt := none
  lastSuccess := none
  lastSuccessFound := false
  changes := []
  burst := none
  correlations := []

theorem not_fitted_verbose :
    ¬∀ s : IncidentEvidenceSnapshot, Fitted s (fitSnapshot s maxSnapshotBytes) := by
  intro h
  have hlong : maxSnapshotBytes < longName.length := by
    rw [longName, List.length_replicate]
    decide
  have hmem : longName ∈ verboseSnapshot.failure.failedAssertions :=
    List.mem_singleton_self longName
  exact not_fitted_of_long hmem hlong (h verboseSnapshot)

end Vigil.Incidents.FitSnapshot
