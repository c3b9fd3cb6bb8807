import Vigil.Importers.Rewrite
import Vigil.Lib.Noted
import Mathlib.Data.Rat.Floor

/-! One check of another system as Vigil's create input, of `importers/translate.ts`, with what is
said on the way: notes of what imports and means something else, and refusals.  The texts are split
where they name a field. -/

namespace Vigil.Importers.Translate

open Js.Text Rewrite Lib.Noted
open Monitors.Push (trim)
open Net.Address (isDigit parseDigits join)

/-! ### The source -/

/-- `SourceCheckKind` -/
inductive Kind where
  | http | json | ping | tcp | udp | dns | tls | domain | smtp | imap | ftp | ssh | ntp
  | websocket | grpc | heartbeat | group | unsupported
  deriving DecidableEq

/-- The kind, as the report writes it. -/
def Kind.text : Kind → JsString
  | .http => js "http"
  | .json => js "json"
  | .ping => js "ping"
  | .tcp => js "tcp"
  | .udp => js "udp"
  | .dns => js "dns"
  | .tls => js "tls"
  | .domain => js "domain"
  | .smtp => js "smtp"
  | .imap => js "imap"
  | .ftp => js "ftp"
  | .ssh => js "ssh"
  | .ntp => js "ntp"
  | .websocket => js "websocket"
  | .grpc => js "grpc"
  | .heartbeat => js "heartbeat"
  | .group => js "group"
  | .unsupported => js "unsupported"

/-- What the source checks. -/
structure SourceTarget where
  url : Option JsString := none
  host : Option JsString := none
  port : Option ℚ := none
  domain : Option JsString := none
  label : Option JsString := none

/-- The request of the source, and what it asks of the response. -/
structure SourceHttpRequest where
  method : Option JsString := none
  acceptedStatus : Option (List JsString) := none
  keyword : Option JsString := none
  keywordAbsent : Option Bool := none
  headerNames : Option (List JsString) := none
  hasRequestBody : Option Bool := none
  hasBasicAuth : Option Bool := none
  followRedirects : Option Bool := none
  jsonPath : Option JsString := none
  jsonOperator : Option JsString := none
  jsonExpectedValue : Option JsString := none
  checkCertificateExpiry : Option Bool := none
  certificateWarnDays : Option ℚ := none
  otherAssertions : Option (List JsString) := none

structure SourceDnsQuery where
  recordType : Option JsString := none
  expectedValues : Option (List JsString) := none
  resolver : Option JsString := none

/-- When the source expects to hear from a job. -/
structure SourceHeartbeat where
  periodSeconds : Option ℚ := none
  graceSeconds : Option ℚ := none
  cron : Option JsString := none

structure SourceRetryPolicy where
  count : Option ℚ := none
  intervalSeconds : Option ℚ := none
  windowSeconds : Option ℚ := none
  note : Option JsString := none

/-- A check of the source in the words that all adapters share. -/
structure SourceCheck where
  sourceId : JsString
  name : JsString
  sourceType : JsString
  kind : Kind
  unsupportedReason : Option JsString := none
  target : SourceTarget := {}
  intervalSeconds : Option ℚ := none
  timeoutMs : Option ℚ := none
  retries : Option SourceRetryPolicy := none
  http : Option SourceHttpRequest := none
  dns : Option SourceDnsQuery := none
  heartbeat : Option SourceHeartbeat := none
  warnDays : Option ℚ := none
  regions : Option (List JsString) := none
  losses : Option (List JsString) := none
  withheld : Option (List JsString) := none

/-! ### What is said -/

/-- What changed on the way across. -/
inductive Note where
  | nameCut (cut : JsString)
  | intervalUnreadable (requested : ℚ)
  | intervalClamped (requested : ℚ) (applied : ℤ)
  | timeoutClamped (requested applied : ℤ)
  | retryPolicy (note : JsString)
  | warnDaysClamped (requested : ℚ) (applied : ℤ)
  | statusCodes (codes : List JsString)
  | headers (headerNames : List JsString)
  | requestBody
  | authentication
  | redirects
  | assertion (assertion : JsString)
  | urlCredentials
  | keywordTooLong (length : ℕ)
  | keywordOfHead
  | jsonPathRewritten (sourcePath path : JsString)
  | dnsValueTooLong
  | dnsValues (count : ℕ)
  | resolver (resolver : JsString)
  | periodClamped (period : ℚ) (applied : ℤ)
  | cron (cron : JsString)
  | newPushToken
  | loss (loss : JsString)
  | withheld (withheld : JsString)
  | regions (regions : List JsString)

/-- Why a check cannot become a monitor. -/
inductive Refusal where
  | noUrl
  | method (method : JsString)
  | jsonOperator (operator : JsString)
  | jsonPath (sourcePath : JsString)
  | noHost
  | noPort (kind : Kind)
  | implicitTls (port : ℚ) (kind : Kind)
  | recordType (recordType : JsString)
  | noDomain

/-! ### The create input -/

/-- The `config` of the check types that get one. -/
inductive Config where
  | jsonQuery (jsonPath expectedValue : JsString)
  | dns (recordType : JsString) (expectedValue : Option JsString)
  | warnDays (warnDays : ℤ)
  | push (graceSeconds : ℤ)

/-- The input of a monitor before the create form has seen it. -/
structure RawInput where
  name : JsString
  checkType : String
  intervalSeconds : ℤ
  timeoutMs : ℤ
  failureWindowSeconds : Option ℤ := none
  url : Option JsString := none
  method : Option JsString := none
  expectedStatusCode : Option ℕ := none
  bodyKeyword : Option JsString := none
  keywordAbsent : Option Bool := none
  tlsCheck : Option Bool := none
  tlsWarnDays : Option ℤ := none
  port : Option ℚ := none
  config : Option Config := none

/-- A step of the translation. -/
abbrev Stage := Said Note Refusal

abbrev Build := Stage RawInput

/-- What a check is translated to. -/
inductive Translation where
  | build (build : Build)
  | unsupported (detail : JsString)

def maxNameLength : ℕ := 100

def maxKeywordLength : ℕ := 200

def maxDnsExpectedLength : ℕ := 255

def defaultTimeoutMs : ℤ := 10000

def minTimeoutMs : ℤ := 1000

def maxTimeoutMs : ℤ := 30000

def minWarnDays : ℤ := 1

def maxWarnDays : ℤ := 365

def maxGraceSeconds : ℤ := 86400

def defaultIntervalSeconds : ℤ := 60

def minIntervalSeconds : ℤ := 2

def maxIntervalSeconds : ℤ := 86400

def minFailureWindowSeconds : ℤ := 0

def maxFailureWindowSeconds : ℤ := 86400

def dnsRecordTypes : List JsString :=
  [js "A", js "AAAA", js "CNAME", js "MX", js "NS", js "TXT"]

/-- `CHECK_TYPE_BY_KIND` -/
def checkTypeByKind : Kind → Option String
  | .http => some "http"
  | .json => some "json-query"
  | .ping => some "ping"
  | .tcp => some "tcp"
  | .udp => none
  | .dns => some "dns"
  | .tls => some "tls-expiry"
  | .domain => some "domain-expiry"
  | .smtp => some "smtp"
  | .imap => some "imap"
  | .ftp => some "ftp"
  | .ssh => some "ssh"
  | .ntp => some "ntp"
  | .websocket => some "websocket"
  | .grpc => some "grpc"
  | .heartbeat => some "push"
  | .group => some "group"
  | .unsupported => none

def implicitTlsPorts : Kind → List ℚ
  | .smtp => [465]
  | .imap => [993]
  | .ftp => [990]
  | _ => []

/-! ### The texts -/

section Texts

variable (p : Platform)

def wholeText (n : ℤ) : JsString := p.numberText n

/-- The text of a note on the report. -/
def Note.text : Note → JsString
  | .nameCut cut =>
    js "The name was cut to \"" ++ cut ++ js "\": Vigil's name column stops at " ++
      wholeText p maxNameLength ++ js " characters."
  | .intervalUnreadable requested =>
    js "The source stored an " ++ js "interval" ++ js " of " ++ p.numberText requested ++
      js ", which is not a schedule this importer can read, so the monitor arrives on Vigil's default of " ++
      wholeText p defaultIntervalSeconds ++ js "s. Set it on the monitor page."
  | .intervalClamped requested applied =>
    js "Interval" ++ js " " ++ p.numberText requested ++ js "s clamped to " ++ wholeText p applied ++
      js "s, Vigil's bound. Check the schedule if the difference matters."
  | .timeoutClamped requested applied =>
    js "Timeout" ++ js " " ++ wholeText p requested ++ js "ms clamped to " ++ wholeText p applied ++
      js "ms, Vigil's bound."
  | .retryPolicy text => text
  | .warnDaysClamped requested applied =>
    js "Certificate warning threshold" ++ js " " ++ p.numberText requested ++ js " day(s) clamped to " ++
      wholeText p applied ++ js ", Vigil's bound."
  | .statusCodes codes =>
    js "The " ++ js "accepted status codes" ++ js " " ++ join codes (js ", ") ++
      js " cannot be expressed: Vigil holds one expected code, or none, in which case any 2xx or 3xx passes. This monitor now accepts any 2xx or 3xx, so it will not alert on a code the source treated as a failure inside that range."
  | .headers headerNames =>
    js "Custom " ++ js "request header(s)" ++ js " " ++ join headerNames (js ", ") ++
      js " not carried: Vigil's HTTP check sends its own headers only. Their values were never read from the source. If the endpoint needs one to answer, this monitor will report an outage that is not one."
  | .requestBody =>
    js "The " ++ js "request body" ++
      js " was not carried: Vigil's HTTP check issues GET and HEAD, neither of which has one."
  | .authentication =>
    js "HTTP authentication" ++
      js " was not carried: Vigil's HTTP check has no credential field, and this importer does not read credentials out of a source system. An endpoint behind authentication will answer 401 here, so point the monitor at an unauthenticated health endpoint instead."
  | .redirects =>
    js "The source did not " ++ js "follow redirects" ++
      js " and Vigil does, one validated hop at a time. A monitor the source failed on a 301 will pass here if the destination answers."
  | .assertion text => js "Assertion not carried: " ++ text
  | .urlCredentials =>
    js "Credentials embedded in the " ++ js "URL" ++
      js " were removed before storing it: Vigil's HTTP probe does not send them, and keeping them would put a password on the monitor page and in every incident notification. The value was not read."
  | .keywordTooLong length =>
    js "The " ++ js "body assertion" ++ js " was not carried: it is " ++ wholeText p length ++
      js " characters and Vigil stores " ++ wholeText p maxKeywordLength ++
      js ". Truncating it would assert something the source never asserted, so this monitor watches availability only."
  | .keywordOfHead =>
    js "The " ++ js "body assertion" ++
      js " was not carried: the source asks for HEAD, which returns no body for Vigil to search."
  | .jsonPathRewritten sourcePath path =>
    js "JSON path" ++ js " rewritten from \"" ++ sourcePath ++ js "\" to \"" ++ path ++
      js "\", Vigil's dotted form."
  | .dnsValueTooLong =>
    js "The expected DNS value was not carried: it is longer than the " ++
      wholeText p maxDnsExpectedLength ++
      js " characters Vigil stores. The monitor asserts that the name resolves at all."
  | .dnsValues count =>
    js "The source expected " ++ wholeText p count ++
      js " values and Vigil asserts that at least one record contains one value. Carrying the first would assert less than the source did, so none was carried: this monitor asserts that the name resolves at all."
  | .resolver asked =>
    js "The per-check resolver " ++ asked ++
      js " was not carried: Vigil resolves through the worker's own resolver, so the answer this monitor judges is the answer your infrastructure gets."
  | .periodClamped period applied =>
    js "The " ++ js "expected period" ++ js " " ++ p.numberText period ++ js "s was clamped to " ++
      wholeText p applied ++ js "s, Vigil's bound."
  | .cron expression =>
    js "The cron expression \"" ++ expression ++
      js "\" was not carried: Vigil expects a heartbeat every interval plus a grace period rather than at the times a cron names, so a job that runs on weekdays only will read as overdue at the weekend. Set the interval to the longest gap between runs."
  | .newPushToken =>
    js "A new push token was generated, because a token is what authenticates one caller to one monitor and the source's token belongs to the source. Point the job at the endpoint on the monitor page."
  | .loss text => text
  | .withheld field =>
    js "Not read from the source, and therefore not carried: " ++ field ++
      js ". This importer does not copy credentials out of a monitoring account."
  | .regions names =>
    js "The source ran this from " ++ join names (js ", ") ++
      js ". Vigil checks from the worker that runs it, or from a remote probe you enrol; region names do not transfer, so assign a probe if you need the check to run from somewhere specific."

/-- The sentence that the report has for a refusal. -/
def Refusal.text : Refusal → JsString
  | .noUrl =>
    js "The source record carries no " ++ js "URL" ++
      js ", so there is nothing for Vigil to request."
  | .method sent =>
    js "The source sends" ++ js " " ++ sent ++
      js ". Vigil's HTTP check issues GET or HEAD, so an imported monitor would request something the source never requested. Recreate it as a GET against an endpoint that answers one, or keep the " ++
      sent ++ js " check where it is."
  | .jsonOperator operator =>
    js "The source " ++ js "compares the JSON value" ++ js " with \"" ++ operator ++
      js "\". Vigil's JSON check asserts equality and nothing else, so the comparison cannot be carried."
  | .jsonPath sourcePath =>
    js "The " ++ js "JSON path" ++ js " \"" ++ sourcePath ++
      js "\" cannot be rewritten as Vigil's dotted path. A wildcard, a filter or a recursive descent has no single location to read, and choosing one would assert something the source never asserted."
  | .noHost =>
    js "The source record carries no " ++ js "hostname" ++
      js ", which is what Vigil's check of this kind targets."
  | .noPort kind =>
    js "A Vigil " ++ (if kind = .tcp then js "TCP" else js "UDP") ++
      js " check needs a " ++ js "port" ++ js " and the source record carries none."
  | .implicitTls port kind =>
    js "The source watches " ++ js "port" ++ js " " ++ p.numberText port ++
      js ", which expects a TLS handshake before a single byte of " ++ p.toUpperCase kind.text ++
      js ". Vigil's " ++ kind.text ++
      js " check speaks plaintext and never issues STARTTLS, so an imported monitor would never be greeted and would report an outage that is not one, every interval. Watch the certificate with a TLS expiry monitor, or the port with a TCP monitor."
  | .recordType asked =>
    js "The source resolves " ++ asked ++ js " records and Vigil resolves " ++
      join dnsRecordTypes (js ", ") ++
      js ". Asking for a different record type would answer a different question."
  | .noDomain =>
    js "The source record carries no " ++ js "registrable domain" ++
      js ", which is what Vigil's domain expiry check targets."

end Texts

/-! ### What every kind has -/

def nameFor (check : SourceCheck) : Stage JsString :=
  let name := if (trim check.name).length > 0 then trim check.name else check.sourceId
  if name.length ≤ maxNameLength then pure name
  else do
    let cut := (name.take maxNameLength).rdropWhile Monitors.Push.isTrimmed
    note (.nameCut cut)
    pure cut

/-- The interval, brought into its bounds. -/
def intervalFor (check : SourceCheck) : Stage ℤ :=
  match check.intervalSeconds with
  | none => pure defaultIntervalSeconds
  | some requested =>
    if requested ≤ 0 then do
      note (.intervalUnreadable requested)
      pure defaultIntervalSeconds
    else
      let applied := clamp (round requested) minIntervalSeconds maxIntervalSeconds
      if (applied : ℚ) ≠ requested then do
        note (.intervalClamped requested applied)
        pure applied
      else pure applied

/-- The timeout, brought into its bounds. -/
def timeoutFor (check : SourceCheck) : Stage ℤ :=
  match check.timeoutMs with
  | none => pure defaultTimeoutMs
  | some timeoutMs =>
    let requested := round timeoutMs
    -- the source never stored one
    if requested ≤ 0 then pure defaultTimeoutMs
    else
      let applied := clamp requested minTimeoutMs maxTimeoutMs
      if applied ≠ requested then do
        note (.timeoutClamped requested applied)
        pure applied
      else pure applied

/-- What the check tolerates, spaced by `intervalSeconds` where the policy has no spacing. -/
def toleranceOf (check : SourceCheck) (intervalSeconds : ℚ) : Option ℚ :=
  match check.retries with
  | none => none
  | some retries =>
    match retries.windowSeconds, retries.count with
    | some windowSeconds, _ => some windowSeconds
    | none, none => none
    | none, some count => some (count * retries.intervalSeconds.getD intervalSeconds)

def failureWindowFor (check : SourceCheck) (intervalSeconds : ℤ) : Stage (Option ℤ) := do
  match check.retries.bind (·.note) with
  | none => pure ()
  | some text => note (.retryPolicy text)
  pure ((toleranceOf check intervalSeconds).map fun tolerance =>
    clamp (round tolerance) minFailureWindowSeconds maxFailureWindowSeconds)

def warnDaysFor (requested : Option ℚ) : Stage (Option ℤ) :=
  match requested with
  | none => pure none
  | some requested =>
    let applied := clamp (round requested) minWarnDays maxWarnDays
    if (applied : ℚ) ≠ requested then do
      note (.warnDaysClamped requested applied)
      pure (some applied)
    else pure (some applied)

/-- The codes that are left of those the source stated. -/
def statedCodes (accepted : Option (List JsString)) : List JsString :=
  ((accepted.getD []).map trim).filter fun code => code.length > 0

/-- `/^\d{3}$/` -/
def threeDigits (code : JsString) : Bool := code.length = 3 && code.all isDigit

def expectedStatusFrom (accepted : Option (List JsString)) : Stage (Option ℕ) :=
  match statedCodes accepted with
  | [] => pure none
  | [code] =>
    if threeDigits code then pure (some (parseDigits 10 code))
    else do
      note (.statusCodes [code])
      pure none
  | codes => do
    note (.statusCodes codes)
    pure none

def noteHttpLosses (check : SourceCheck) : Stage Unit :=
  match check.http with
  | none => pure ()
  | some http => do
    noteIf ((http.headerNames.getD []).length > 0) (.headers (http.headerNames.getD []))
    noteIf (http.hasRequestBody = some true) .requestBody
    noteIf (http.hasBasicAuth = some true) .authentication
    noteIf (http.followRedirects = some false) .redirects
    noteAll ((http.otherAssertions.getD []).map .assertion)

variable (p : Platform)

def urlFor (check : SourceCheck) : Stage JsString :=
  let raw := check.target.url.getD []
  if (trim raw).length = 0 then do
    refuse .noUrl
    pure []
  else do
    let stripped := stripUrlCredentials p raw
    noteIf (stripped.hadCredentials = true) .urlCredentials
    pure stripped.url

/-- The host that a text which is not blank means. -/
def hostText (raw : JsString) : JsString :=
  if includes raw (js "://") then (hostOf p raw).getD raw else raw

/-- The host; there has to be one. -/
def hostFor (check : SourceCheck) : Stage JsString :=
  let raw := trim (check.target.host.getD [])
  if raw.length = 0 then do
    refuse .noHost
    pure []
  else pure (hostText p raw)

/-! ### Each kind -/

def methodFor (check : SourceCheck) : JsString :=
  p.toUpperCase ((check.http.bind (·.method)).getD (js "GET"))

/-- The body assertion of a check and whether it is inverted. -/
def keywordFor (check : SourceCheck) : Stage (Option (JsString × Bool)) :=
  let keyword := (check.http.bind (·.keyword)).getD []
  if keyword.length = 0 then pure none
  else if keyword.length > maxKeywordLength then do
    note (.keywordTooLong keyword.length)
    pure none
  else if methodFor p check = js "HEAD" then do
    note .keywordOfHead
    pure none
  else pure (some (keyword, check.http.bind (·.keywordAbsent) = some true))

/-- The certificate that a request watches, if it does. -/
def certificateFor (check : SourceCheck) : Stage (Option (Option ℤ)) :=
  if check.http.bind (·.checkCertificateExpiry) = some true then do
    let warnDays ← warnDaysFor (check.http.bind (·.certificateWarnDays))
    pure (some warnDays)
  else pure none

/-- An HTTP check. -/
def http (check : SourceCheck) (input : RawInput) : Build := do
  let url ← urlFor p check
  let method := methodFor p check
  let sent := method = js "GET" ∨ method = js "HEAD"
  refuseIf (¬sent) (.method method)
  let expected ← expectedStatusFrom (check.http.bind (·.acceptedStatus))
  let keyword ← keywordFor p check
  let certificate ← certificateFor check
  noteHttpLosses check
  pure { input with
    url := some url
    method := if sent then some method else none
    expectedStatusCode := expected
    bodyKeyword := keyword.map (·.1)
    keywordAbsent := keyword.map (·.2)
    tlsCheck := certificate.map fun _ => true
    tlsWarnDays := certificate.join }

def operatorRefusal (check : SourceCheck) : Stage Unit :=
  match check.http.bind (·.jsonOperator) with
  | none => pure ()
  | some operator =>
    refuseIf (operator ≠ js "==" ∧ operator ≠ js "eq") (.jsonOperator operator)

def jsonConfigFor (check : SourceCheck) : Stage (Option Config) :=
  let sourcePath := (check.http.bind (·.jsonPath)).getD []
  match vigilJsonPath sourcePath with
  | none => do
    refuse (.jsonPath sourcePath)
    pure none
  | some path => do
    noteIf (path ≠ trim sourcePath) (.jsonPathRewritten sourcePath path)
    pure (some (.jsonQuery path ((check.http.bind (·.jsonExpectedValue)).getD [])))

/-- A JSON check. -/
def json (check : SourceCheck) (input : RawInput) : Build := do
  let url ← urlFor p check
  operatorRefusal check
  let config ← jsonConfigFor check
  noteHttpLosses check
  pure { input with url := some url, config := config }

/-- A ping. -/
def ping (check : SourceCheck) (input : RawInput) : Build := do
  let url ← hostFor p check
  pure { input with url := some url }

/-- A check of a port that it has to name. -/
def portCheck (check : SourceCheck) (input : RawInput) : Build := do
  let url ← hostFor p check
  refuseIf (check.target.port = none) (.noPort check.kind)
  pure { input with url := some url, port := check.target.port }

/-- A check of a protocol that has a port of its own. -/
def protocol (check : SourceCheck) (input : RawInput) : Build := do
  let url ← hostFor p check
  match check.target.port with
  | none => pure ()
  | some port => refuseIf (port ∈ implicitTlsPorts check.kind) (.implicitTls port check.kind)
  pure { input with url := some url, port := check.target.port }

/-- The one value that the source expects. -/
def dnsValueFor (check : SourceCheck) : Stage (Option JsString) :=
  match (check.dns.bind (·.expectedValues)).getD [] with
  | [] => pure none
  | [only] =>
    if only.length = 0 then pure none
    else if only.length > maxDnsExpectedLength then do
      note .dnsValueTooLong
      pure none
    else pure (some only)
  | expected => do
    note (.dnsValues expected.length)
    pure none

def resolverNote (check : SourceCheck) : Stage Unit :=
  match check.dns.bind (·.resolver) with
  | none => pure ()
  | some resolver => note (.resolver resolver)

/-- A DNS check, of a record type that Vigil has. -/
def dns (check : SourceCheck) (input : RawInput) : Build := do
  let url ← hostFor p check
  let recordType := p.toUpperCase ((check.dns.bind (·.recordType)).getD (js "A"))
  if dnsRecordTypes.contains recordType = false then do
    refuse (.recordType recordType)
    pure { input with url := some url }
  else do
    let expectedValue ← dnsValueFor check
    resolverNote check
    pure { input with url := some url, config := some (.dns recordType expectedValue) }

/-- A certificate check. -/
def tls (check : SourceCheck) (input : RawInput) : Build := do
  let url ← hostFor p check
  let warnDays ← warnDaysFor check.warnDays
  pure { input with
    url := some url, port := check.target.port, config := warnDays.map .warnDays }

/-- A domain check. -/
def domain (check : SourceCheck) (input : RawInput) : Build := do
  let domain := trim (check.target.domain.getD [])
  refuseIf (domain.length = 0) .noDomain
  let warnDays ← warnDaysFor check.warnDays
  pure { input with url := some domain, config := warnDays.map .warnDays }

/-- A WebSocket check. -/
def websocket (check : SourceCheck) (input : RawInput) : Build := do
  let url ← urlFor p check
  pure { input with url := some url }

/-- The interval that a heartbeat with a period gets. -/
def periodFor (check : SourceCheck) : Stage (Option ℤ) :=
  match check.heartbeat.bind (·.periodSeconds) with
  | none => pure none
  | some period =>
    let applied := clamp (round period) minIntervalSeconds maxIntervalSeconds
    if (applied : ℚ) ≠ period then do
      note (.periodClamped period applied)
      pure (some applied)
    else pure (some applied)

/-- A schedule by cron is not kept. -/
def cronNote (check : SourceCheck) : Stage Unit :=
  match check.heartbeat.bind (·.cron) with
  | none => pure ()
  | some cron => note (.cron cron)

def heartbeat (check : SourceCheck) (input : RawInput) : Build := do
  let period ← periodFor check
  cronNote check
  note .newPushToken
  pure { input with
    url := some (check.target.label.getD check.name)
    intervalSeconds := period.getD input.intervalSeconds
    config := (check.heartbeat.bind (·.graceSeconds)).map fun grace =>
      .push (clamp (round grace) 0 maxGraceSeconds) }

/-- A group. -/
def group (check : SourceCheck) (input : RawInput) : Build :=
  pure { input with url := some (check.target.label.getD check.name) }

/-! ### The translation -/

/-- What the kind of the check asks for. -/
def byKind (check : SourceCheck) (input : RawInput) : Build :=
  match check.kind with
  | .http => http p check input
  | .json => json p check input
  | .ping => ping p check input
  | .tcp | .udp => portCheck p check input
  | .smtp | .imap | .ftp | .ssh | .ntp | .grpc => protocol p check input
  | .dns => dns p check input
  | .tls => tls p check input
  | .domain => domain check input
  | .websocket => websocket p check input
  | .heartbeat => heartbeat check input
  | .group => group check input
  | .unsupported => pure input

/-- What every kind has in common. -/
def base (check : SourceCheck) (checkType : String) : Build := do
  let intervalSeconds ← intervalFor check
  let failureWindowSeconds ← failureWindowFor check intervalSeconds
  let name ← nameFor check
  let timeoutMs ← timeoutFor check
  pure { name, checkType, intervalSeconds, timeoutMs, failureWindowSeconds }

/-- What the source had and the model has no field for. -/
def tailNotes (check : SourceCheck) : Stage Unit := do
  noteAll ((check.losses.getD []).map .loss)
  noteAll ((check.withheld.getD []).map .withheld)
  noteIf ((check.regions.getD []).length > 0) (.regions (check.regions.getD []))

def buildOf (check : SourceCheck) (checkType : String) : Build := do
  let input ← base check checkType
  let input ← byKind p check input
  tailNotes check
  pure input

def udpDetail : JsString :=
  js "Not imported. Vigil's UDP check has to send the payload the service replies to, because UDP answers nothing it was not asked, and this importer does not copy request payloads out of a monitoring account. An imported UDP monitor would send an empty datagram and report a permanent outage. Recreate it in Vigil, where the payload and the expected reply are settings on the check."

/-- `REFUSED_KINDS` -/
def refusedKinds : Kind → Option JsString
  | .udp => some udpDetail
  | _ => none

def translateCheck (check : SourceCheck) : Translation :=
  if check.kind = .unsupported then
    .unsupported (check.unsupportedReason.getD (js "The source calls this a \"" ++ check.sourceType ++
      js "\" check and the adapter offered no reason it cannot be imported, which is itself the defect. Treat this monitor as not migrated."))
  else
    match checkTypeByKind check.kind with
    | none =>
      .unsupported ((refusedKinds check.kind).getD (js "The source calls this a \"" ++
        check.sourceType ++ js "\" check and Vigil has no check type that means the same thing."))
    | some checkType => .build (buildOf p check checkType)

end Vigil.Importers.Translate
