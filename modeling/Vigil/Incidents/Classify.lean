import Vigil.Incidents.Evidence
import Vigil.Importers.Rewrite

/-! The layer that a failure names and the form of a failure that is compared with others,
`incidents/evidence/classify.ts`.  A stage is measured by a diagnostic step that failed, or read off
the error of the check, or unknown. -/

namespace Vigil.Incidents.Classify

open Js.Text Js.Object Ledger.Canonical Evidence
open Importers.Rewrite (includes)
open Monitors.Push (trim isTrimmed)
open Net.Address (isDigit upperAscii)

def DNS_TOKENS : List JsString :=
  ["ENOTFOUND", "EAI_AGAIN", "EAI_NODATA", "NXDOMAIN", "SERVFAIL", "getaddrinfo",
    "did not resolve", "DNS resolution failed"].map js

def TCP_TOKENS : List JsString :=
  ["ECONNREFUSED", "EHOSTUNREACH", "ENETUNREACH", "ECONNRESET", "EHOSTDOWN", "ENETDOWN", "EPIPE",
    "Connection refused"].map js

def TLS_TOKENS : List JsString :=
  ["CERT_HAS_EXPIRED", "DEPTH_ZERO_SELF_SIGNED_CERT", "SELF_SIGNED_CERT_IN_CHAIN",
    "UNABLE_TO_VERIFY_LEAF_SIGNATURE", "CERT_UNTRUSTED", "ERR_TLS", "ERR_SSL", "EPROTO",
    "wrong version number", "TLS handshake", "SSL handshake", "SSL routines",
    "certificate has expired", "certificate verify failed",
    "unable to get local issuer certificate", "self signed certificate",
    "The peer presented no certificate"].map js

def TIMEOUT_TOKENS : List JsString :=
  ["Timed out", "timed out", "ETIMEDOUT", "TimeoutError", "The operation was aborted"].map js

def contains (haystack : JsString) (tokens : List JsString) : Option JsString :=
  tokens.find? (includes haystack)

/-- What a check tells of its failure. -/
structure ObservedFailure where
  error : Option JsString
  failureClass : Option JsString
  statusCode : Option JsNumber
  browser : Bool := false
  dials : Bool := true

/-- The layer that an error names on its own, and the sentence about it. -/
def reportedTransportStage (error : JsString) : Option (EvidenceStage × JsString) :=
  match contains error DNS_TOKENS with
  | some dns => some (.dns,
      js "The resolver answered with " ++ dns ++ js ", so the name did not resolve.")
  | none =>
    match contains error TLS_TOKENS with
    | some tls => some (.tls, js "The failure names the TLS layer: " ++ tls ++ js ".")
    | none =>
      match contains error TCP_TOKENS with
      | some tcp => some (.tcp,
          js "The connection failed with " ++ tcp ++ js ", before any response arrived.")
      | none => none

/-! ### Signatures -/

/-- `text.replace(/[^…]+/g, written)`, where `gone` are the units that are replaced. -/
def replaceRuns (gone : UInt16 → Bool) (written : JsString) : Bool → JsString → JsString
  | _, [] => []
  | inRun, c :: rest =>
    if gone c then (if inRun then [] else written) ++ replaceRuns gone written true rest
    else c :: replaceRuns gone written false rest

/-- What is behind the next `close`. -/
def behind (close : UInt16) : JsString → Option JsString
  | [] => none
  | c :: rest => if c = close then some rest else behind close rest

/-- `text.replace(/open[^close]*close/g, "")`; `fuel` is at least the length of the text. -/
def stripDelimited (opening close : UInt16) : ℕ → JsString → JsString
  | 0, text => text
  | _, [] => []
  | fuel + 1, c :: rest =>
    if c = opening then
      match behind close rest with
      | some rest => stripDelimited opening close fuel rest
      | none => c :: stripDelimited opening close fuel rest
    else c :: stripDelimited opening close fuel rest

/-- `[A-Z0-9]` -/
def isCodeUnit (c : UInt16) : Bool := (0x41 ≤ c && c ≤ 0x5A) || isDigit c

/-- `code.toUpperCase().replace(/[^A-Z0-9]+/g, "_")` of a token, which is ASCII. -/
def codeSignature (code : JsString) : JsString :=
  replaceRuns (fun c => !isCodeUnit c) (js "_") false (code.map upperAscii)

/-- The text of an error without what varies; `toLowerCase` is the language's. -/
def shapeOf (toLowerCase : JsString → JsString) (error : JsString) : JsString :=
  let digitless := error.filter fun c => !isDigit c
  let unquoted := stripDelimited 0x22 0x22 digitless.length digitless
  let plain := stripDelimited 0x28 0x29 unquoted.length unquoted
  (toLowerCase (trim (replaceRuns isTrimmed (js " ") false plain))).take 80

/-- A name for failures that look alike: the status, or else what the error tells of. -/
def failureSignature (toLowerCase : JsString → JsString) (error : Option JsString)
    (statusCode : Option JsNumber) : Option JsString :=
  let statusSignature := statusCode.map fun status => js "HTTP_" ++ numberText status
  match error with
  | none => statusSignature
  | some error =>
    if trim error = [] then statusSignature
    else
      match statusSignature with
      | some signature => some signature
      | none =>
        match contains error (DNS_TOKENS ++ TCP_TOKENS ++ TLS_TOKENS ++ TIMEOUT_TOKENS) with
        | some code => some (codeSignature code)
        | none =>
          let shape := shapeOf toLowerCase error
          if shape = [] then none else some (js "text:" ++ shape)

/-! ### Stages -/

/-- What a step that failed says about its layer. -/
def stepReason (kind : BurstStepKind) (detail : JsString) : EvidenceStage × JsString :=
  match kind with
  | .dns => (.dns, js "Re-resolving the hostname failed: " ++ detail)
  | .tcp => (.tcp, js "The hostname resolved, but connecting to the port failed: " ++ detail)
  | .tls => (.tls, js "The port accepted a connection, but the TLS handshake failed: " ++ detail)
  | .http => (.http, js "The connection succeeded and the HTTP request failed: " ++ detail)

/-- The first step that failed, unless it failed for a limit of the diagnostics themselves. -/
def measuredStage (burst : Option BurstRecord) : Option (EvidenceStage × JsString) :=
  burst.bind fun burst =>
    (burst.steps.find? fun step => !step.ok && !step.selfInflicted).map fun step =>
      stepReason step.kind (step.error.getD (js "the step failed"))

/-- The HTTP status that a burst step observed. -/
def burstStatus (burst : Option BurstRecord) : Option JsNumber :=
  burst.bind fun burst =>
    (burst.steps.find? fun step => step.kind = .http).bind fun http =>
      match http.detail.lookup (js "statusCode") with
      | some (.number status) => some status
      | _ => none

def assertionClass : JsString := js "assertion"

/-- The verdict where the target did not answer and no step measured the layer. -/
def classifyUnanswered (failure : ObservedFailure) (reprobed : JsString) : EvidenceStageVerdict :=
  let error := failure.error.getD []
  if failure.failureClass = some assertionClass then
    if failure.dials = false then
      ⟨.unknown, .unknown, js "This monitor's state is declared or derived rather than dialled, " ++
        js "so there is no network layer to name." ++ reprobed⟩
    else
      ⟨.application, .assertion, js "The probe measured the target and a declared assertion did " ++
        js "not hold, so the target was reachable." ++ reprobed⟩
  else
    match reportedTransportStage error with
    | some (stage, reason) => ⟨stage, .reported, reason ++ reprobed⟩
    | none =>
      match contains error TIMEOUT_TOKENS with
      | some _ =>
        ⟨.unknown, .unknown, js "The check timed out. A timeout does not say which layer stalled, " ++
          js "and nothing re-probed the target in time to establish one." ++ reprobed⟩
      | none =>
        ⟨.unknown, .unknown, (if error = [] then js "The check failed and recorded no reason."
          else js "The failure does not name a layer: " ++ error) ++ reprobed⟩

/-- Where the check failed: as the burst measured it, or as far as the error tells. -/
def classifyStage (failure : ObservedFailure) (burst : Option BurstRecord) :
    EvidenceStageVerdict :=
  match measuredStage burst with
  | some (stage, reason) => ⟨stage, .measured, reason⟩
  | none =>
    if failure.failureClass = some (js "misconfigured") then
      ⟨.unknown, .unknown, js "The check could not run in this environment, so nothing was " ++
        js "observed about the target."⟩
    else if failure.browser = true ∧ failure.failureClass = some assertionClass then
      -- A step of a journey reports a transport error as a failed assertion, too.
      match reportedTransportStage (failure.error.getD []) with
      | some (stage, reason) => ⟨stage, .reported, reason⟩
      | none => ⟨.browser, .assertion, js "A scripted browser journey reached the page and a step " ++
          js "failed. The failed step and its timing are recorded below."⟩
    else
      match failure.statusCode with
      | some status =>
        if failure.failureClass = some assertionClass then
          ⟨.application, .assertion, js "The target answered with HTTP " ++ numberText status ++
            js " and a declared assertion did not hold, so the request reached the application."⟩
        else
          ⟨.http, .reported, js "The target answered with HTTP " ++ numberText status ++ js "."⟩
      | none =>
        classifyUnanswered failure <|
          match burstStatus burst with
          | none => []
          | some status => js " Re-probing reached the target seconds later and it answered " ++
              js "with HTTP " ++ numberText status ++ js "."

end Vigil.Incidents.Classify
