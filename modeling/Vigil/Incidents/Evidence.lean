import Vigil.Js.Object

/-! What a snapshot of an incident's evidence holds, `incidents/evidence/types.ts`.  Texts are those
of the program, instants are written as it writes them, and a bag of facts is a list of entries in
the order of their keys.  What commercial editions add to a snapshot is opaque. -/

namespace Vigil.Incidents.Evidence

open Js.Text Js.Object Ledger.Canonical

/-- Where a check fails. -/
inductive EvidenceStage where
  | dns | tcp | tls | http | application | browser | unknown
  deriving DecidableEq, Repr

/-- The stage, as it is stored. -/
def EvidenceStage.text : EvidenceStage → JsString
  | .dns => js "dns"
  | .tcp => js "tcp"
  | .tls => js "tls"
  | .http => js "http"
  | .application => js "application"
  | .browser => js "browser"
  | .unknown => js "unknown"

/-- What the stage is known from. -/
inductive EvidenceStageBasis where
  | measured | reported | assertion | unknown
  deriving DecidableEq, Repr

/-- The basis, as it is stored. -/
def EvidenceStageBasis.text : EvidenceStageBasis → JsString
  | .measured => js "measured"
  | .reported => js "reported"
  | .assertion => js "assertion"
  | .unknown => js "unknown"

/-- The stage, with what it is known from and why. -/
structure EvidenceStageVerdict where
  stage : EvidenceStage
  basis : EvidenceStageBasis
  reason : JsString

abbrev EvidenceFacts := Entries

/-- A check, as the evidence shows it. -/
structure EvidenceObservation where
  at_ : Option JsString
  verdict : Option JsString
  failureClass : Option JsString
  error : Option JsString
  statusCode : Option JsNumber
  responseTimeMs : Option JsNumber
  failedAssertions : List JsString
  facts : EvidenceFacts

/-- How a fact has changed. -/
inductive ChangeNote where
  | changed | appeared | disappeared | slower | faster
  deriving DecidableEq, Repr

/-- The note, as it is stored. -/
def ChangeNote.text : ChangeNote → JsString
  | .changed => js "changed"
  | .appeared => js "appeared"
  | .disappeared => js "disappeared"
  | .slower => js "slower"
  | .faster => js "faster"

/-- A fact that is not what it was at the last success. -/
structure EvidenceChange where
  key : JsString
  label : JsString
  unit : Option JsString
  before : JsValue
  after : JsValue
  note : ChangeNote

/-- What two failures may share. -/
inductive CorrelationSignalKind where
  | sameHost | sameDomain | sameAddress | sameSignature | sameProbeLocation | sameStage
  | sameCheckType
  deriving DecidableEq, Repr

/-- The kind, as it is stored. -/
def CorrelationSignalKind.text : CorrelationSignalKind → JsString
  | .sameHost => js "same-host"
  | .sameDomain => js "same-domain"
  | .sameAddress => js "same-address"
  | .sameSignature => js "same-signature"
  | .sameProbeLocation => js "same-probe-location"
  | .sameStage => js "same-stage"
  | .sameCheckType => js "same-check-type"

/-- Something that two failures share, and its value. -/
structure CorrelationSignal where
  kind : CorrelationSignalKind
  detail : JsString
  deriving DecidableEq

/-- The row of another failure. -/
structure CorrelatedFailure where
  monitorId : JsString
  monitorName : JsString
  checkType : JsString
  incidentId : Option JsString
  firstFailureAt : Option JsString
  signals : List CorrelationSignal
  deriving DecidableEq

/-- What a step of a burst does. -/
inductive BurstStepKind where
  | dns | tcp | tls | http
  deriving DecidableEq, Repr

/-- The kind, as it is stored. -/
def BurstStepKind.text : BurstStepKind → JsString
  | .dns => js "dns"
  | .tcp => js "tcp"
  | .tls => js "tls"
  | .http => js "http"

/-- A step of a burst, with what came of it. -/
structure BurstStep where
  kind : BurstStepKind
  ok : Bool
  durationMs : ℤ
  detail : EvidenceFacts
  error : Option JsString
  /-- `selfInflicted: true`, which is left out where it does not hold. -/
  selfInflicted : Bool := false

/-- Why there is no burst. -/
inductive BurstSkipReason where
  | disabled | shadow | concurrency | noTarget | highFrequency | refused
  deriving DecidableEq, Repr

/-- The reason, as it is stored. -/
def BurstSkipReason.text : BurstSkipReason → JsString
  | .disabled => js "disabled"
  | .shadow => js "shadow"
  | .concurrency => js "concurrency"
  | .noTarget => js "no-target"
  | .highFrequency => js "high-frequency"
  | .refused => js "refused"

/-- What a burst has found out. -/
structure BurstRecord where
  ranAt : JsString
  budgetMs : ℤ
  maxSteps : ℤ
  spentMs : ℤ
  steps : List BurstStep
  skipped : Option BurstSkipReason := none

/-- The monitor, as it was when its incident opened. -/
structure SnapshotMonitor where
  id : JsString
  name : JsString
  checkType : JsString
  target : JsString
  host : Option JsString
  port : Option JsNumber

/-- The evidence of an incident, as it is stored. -/
structure IncidentEvidenceSnapshot where
  schemaVersion : ℤ
  capturedAt : JsString
  monitor : SnapshotMonitor
  failure : EvidenceObservation
  stage : EvidenceStageVerdict
  signature : Option JsString
  firstFailureAt : Option JsString
  lastSuccess : Option EvidenceObservation
  /-- `found`, and otherwise `none-retained`. -/
  lastSuccessFound : Bool
  changes : List EvidenceChange
  burst : Option BurstRecord
  correlations : List CorrelatedFailure
  /-- `correlationsNote: "high-frequency"` -/
  correlationsSkipped : Bool := false
  synthetic : Option JsValue := none
  probes : Option JsValue := none
  truncated : Bool := false

/-- `${x}` of a finite number. -/
def numberText (x : JsNumber) : JsString := encodeUtf16 x.chars

end Vigil.Incidents.Evidence
