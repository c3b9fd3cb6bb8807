import Vigil.Monitors.CheckTypes
import Mathlib.Data.Rat.Defs

/-! Which check types may go on the high-frequency plane, of `highfreq/capabilities.ts`, and the
checks that `setHighFrequency` makes of a request before it counts. -/

namespace Vigil.HighFreq.Capabilities

open Monitors.CheckTypes

/-- What the plane can do for a check type. -/
structure HighFrequencyCapability where
  minimumIntervalMs : ℤ
  supportsHighFrequency : Bool
  /-- Shown to the operator; absent when the type can run fast. -/
  excludedBecause : Option String
  deriving DecidableEq, Repr

/-- `HF_MIN_INTERVAL_MS`. -/
def hfMinIntervalMs : ℤ := 500

/-- `HF_MAX_INTERVAL_MS`: the floor of the ordinary scheduler, two seconds. -/
def hfMaxIntervalMs : ℤ := 2 * 1000

def ordinaryFloorMs : ℤ := 2 * 1000

/-- `HF_MAX_MONITORS_PER_ORG`. -/
def hfMaxMonitorsPerOrg : ℕ := 50

def capable : HighFrequencyCapability := ⟨hfMinIntervalMs, true, none⟩

def excluded (excludedBecause : String) : HighFrequencyCapability :=
  ⟨ordinaryFloorMs, false, some excludedBecause⟩

/-- `HIGH_FREQUENCY_CAPABILITIES`. -/
def highFrequencyCapabilities : List (String × HighFrequencyCapability) :=
  [("http", capable),
    ("json-query", capable),
    ("tcp", capable),
    ("dns", excluded "A DNS answer inside its TTL is the same answer."),
    ("ping", excluded "Each probe spawns a process."),
    ("tls-expiry", excluded "A certificate's expiry date changes once, months from now."),
    ("domain-expiry", excluded
      "RDAP is a third-party service, and a registration date changes once a year."),
    ("postgres", excluded "Each probe is a database connection the server must authenticate."),
    ("mysql", excluded "Each probe is a database connection the server must authenticate."),
    ("mongodb", excluded "Each probe is a database connection the server must authenticate."),
    ("redis", excluded "Each probe is a connection the server must allocate and tear down."),
    ("mqtt", excluded "Each probe is a broker session with a CONNECT/CONNACK exchange."),
    ("smtp", excluded "Mail servers rate-limit and blocklist by connection frequency."),
    ("docker", excluded "The Docker daemon serialises API requests behind one lock."),
    ("push", excluded "Nothing is dialled. The job reports in."),
    ("group", excluded "A group's state is derived from its members."),
    ("manual", excluded "A manual status changes when an operator says."),
    ("rabbitmq", excluded "Each probe is a management-API request the broker authenticates."),
    ("kafka-producer", excluded "Each probe produces a real message to a real topic."),
    ("memcached", excluded "Each probe is a connection the server must allocate and tear down."),
    ("elasticsearch", excluded "A cluster-health request is work the cluster does, not a ping."),
    ("websocket", excluded "Each probe is a full HTTP upgrade handshake."),
    ("grpc", excluded "Each probe is an HTTP/2 connection and an RPC."),
    ("ldap", excluded "Directory servers rate-limit and lock out by bind frequency."),
    ("ssh", excluded
      "An SSH handshake is public-key cryptography, and servers ban by connection rate."),
    ("imap", excluded "Mail servers rate-limit and blocklist by connection frequency."),
    ("ftp", excluded "FTP opens a control connection the server authenticates."),
    ("snmp", excluded "SNMP agents are embedded devices with far less CPU than the prober."),
    ("system-service", excluded "Each probe asks the init system, which serialises requests."),
    ("steam", excluded "Game servers rate-limit query traffic."),
    ("gamedig", excluded "Game servers rate-limit query traffic."),
    ("udp", excluded
      "A UDP probe waits out its timeout to conclude anything, so its cost is the timeout."),
    ("ntp", excluded
      "Public NTP pools ban clients by query rate, and the answer changes by microseconds."),
    ("radius", excluded "RADIUS servers treat request floods as an attack."),
    ("sqlserver", excluded "Each probe is a database connection the server must authenticate."),
    ("oracledb", excluded "Each probe is a database connection the server must authenticate."),
    ("sip", excluded "SIP endpoints treat OPTIONS floods as a denial-of-service attempt."),
    ("tailscale-ping", excluded "Each probe shells out to the Tailscale client."),
    ("real-browser", excluded
      "Each probe drives a browser, which costs seconds and hundreds of megabytes."),
    ("globalping", excluded "Globalping is a third-party network with its own quota.")]

def highFrequencyCapability (checkType : String) : HighFrequencyCapability :=
  (highFrequencyCapabilities.lookup checkType).getD
    (excluded "This check type is not available in this build.")

/-- What an operator asks for. -/
structure HighFrequencySettings where
  enabled : Bool
  /-- Nothing where it is absent or no finite number. -/
  intervalMs : Option ℚ
  deriving DecidableEq, Repr

/-- The interval of a request to put a monitor on the plane, or the message that refuses it. -/
def requestedInterval (checkType : String) (intervalMs : Option ℚ) : Except String ℤ :=
  let capability := highFrequencyCapability checkType
  if !capability.supportsHighFrequency then
    .error ("A " ++ checkType ++ " monitor cannot run at high frequency. " ++
      capability.excludedBecause.getD "null")
  else
    match intervalMs with
    | none => .error "A high-frequency interval is required."
    | some intervalMs =>
      if intervalMs.den ≠ 1 then .error "A high-frequency interval is required."
      else if intervalMs.num < capability.minimumIntervalMs then
        .error ("The shortest interval this plane delivers is " ++
          toString capability.minimumIntervalMs ++ "ms.")
      else if intervalMs.num > hfMaxIntervalMs then
        .error ("Intervals above " ++ toString hfMaxIntervalMs ++
          "ms are handled by the ordinary scheduler, set \"Check interval\" instead.")
      else .ok intervalMs.num

/-- Every type of the catalog has an entry, and a type that is excluded says why. -/
theorem capabilities_complete :
    (checkTypeDescriptors.all fun descriptor =>
      (highFrequencyCapabilities.lookup descriptor.id).any fun capability =>
        capability.supportsHighFrequency != capability.excludedBecause.isSome) = true := by
  decide

/-- An interval that is accepted is one that the plane delivers, for a type that is dialled. -/
theorem requestedInterval_ok {checkType : String} {intervalMs : Option ℚ} {ms : ℤ}
    (h : requestedInterval checkType intervalMs = .ok ms) :
    (highFrequencyCapability checkType).supportsHighFrequency = true ∧
      (highFrequencyCapability checkType).minimumIntervalMs ≤ ms ∧ ms ≤ hfMaxIntervalMs := by
  unfold requestedInterval at h
  cases hsupports : (highFrequencyCapability checkType).supportsHighFrequency with
  | false => simp [hsupports] at h
  | true =>
    cases intervalMs with
    | none => simp [hsupports] at h
    | some intervalMs =>
      simp only [hsupports] at h
      split_ifs at h with _ hinteger hmin hmax
      cases h
      exact ⟨rfl, Int.not_lt.mp hmin, Int.not_lt.mp hmax⟩

end Vigil.HighFreq.Capabilities
