import Vigil.HighFreq.Leases
import Vigil.Monitors.CheckTypes
import Vigil.Net.Egress
import Mathlib.Data.Rat.Floor

/-! The slots of the high-frequency plane, `highfreq/plane.ts`: the table that a reload rebuilds, the
pass of the scheduler over it and the probes that it starts.  A slot is an object that the table and
every probe of it refer to, so the objects have references here.  Monotonic instants are rational
milliseconds.  The URL parser of the platform is a parameter, and promotion is left out but for the
row that it puts on the slot. -/

namespace Vigil.HighFreq.Slots

open Js.Text Net.Egress Monitors.CheckTypes Leases

/-- A row of a monitor, as far as the plane reads it. -/
structure Monitor where
  id : JsString
  organizationId : String
  checkType : String
  url : JsString
  port : Option ℕ
  paused : Bool
  highFrequency : Bool
  highFrequencyIntervalMs : Option ℕ
  deriving DecidableEq, Repr

/-- What `HIGH_FREQUENCY_CAPABILITIES` says of a type. -/
def supportsHighFrequency (checkType : String) : Bool :=
  checkType = "http" || checkType = "json-query" || checkType = "tcp"

/-- `HIGH_FREQUENCY_TYPE_IDS`. -/
def highFrequencyTypeIds : List String :=
  (checkTypeDescriptors.filter fun descriptor => supportsHighFrequency descriptor.id).map (·.id)

/-- The condition of the query that a reload reads its rows by. -/
def Monitor.discovered (monitor : Monitor) : Bool :=
  monitor.highFrequency && !monitor.paused && highFrequencyTypeIds.contains monitor.checkType &&
    monitor.highFrequencyIntervalMs.isSome

/-- Whether the ordinary plane leaves the monitor alone, by the shards that are live. -/
def highFrequencyClaims (live : ℕ → Bool) (monitor : Monitor) : Bool :=
  monitor.highFrequency && monitor.highFrequencyIntervalMs.isSome && live (shardOf monitor.id)

/-- Host and port, or the raw target if it is no URL. -/
def targetKeyOf (parser : UrlParser) (monitor : Monitor) : JsString :=
  match parser.parse monitor.url with
  | some url =>
    let port := if url.port ≠ [] then url.port
      else if url.protocol = js "https:" then js "443" else js "80"
    url.hostname ++ js ":" ++ port
  | none => monitor.url ++ js ":" ++ js (toString (monitor.port.getD 0))

def tickMs : ℚ := 25

def maxProbesPerSecond : ℚ := 2500

def probeBurst : ℚ := 128

def maxMonitorsPerWorker : ℕ := 1000

def maxInFlightPerOrg : ℕ := 8

def maxInFlightPerTarget : ℕ := 2

/-! ### The memory of a plane -/

/-- The place of a monitor on the plane, with its counters. -/
structure Slot where
  monitor : Monitor
  intervalMs : ℕ
  dueMono : ℚ
  inFlight : Bool
  targetKey : JsString
  probes : ℕ
  missedSlots : ℕ
  shedSlots : ℕ
  deriving DecidableEq, Repr

/-- The bucket that bounds the rate of probes. -/
structure TokenBucket where
  tokens : ℚ
  lastMono : ℚ
  deriving DecidableEq, Repr

/-- A probe that has not completed: its slot, and the keys that it was charged to. -/
structure Probe where
  slot : ℕ
  monitorId : JsString
  organizationId : String
  targetKey : JsString
  deriving DecidableEq, Repr

/-- The slots, the counters of probes in flight, and the totals. -/
structure Plane where
  /-- The slots that were ever made, by reference. -/
  objects : ℕ → Option Slot
  nextRef : ℕ
  /-- The table, by monitor and in the order of insertion. -/
  slots : List (JsString × ℕ)
  inFlightPerOrg : String → ℕ
  inFlightPerTarget : JsString → ℕ
  bucket : TokenBucket
  probes : ℕ
  missedSlots : ℕ
  shedSlots : ℕ
  /-- The probes that are in flight. -/
  inFlight : List Probe

/-- A slot is made or changed. -/
def Plane.setSlot (p : Plane) (ref : ℕ) (slot : Slot) : Plane :=
  { p with objects := Function.update p.objects ref (some slot) }

def Plane.slotOf (p : Plane) (monitorId : JsString) : Option ℕ :=
  (p.slots.find? fun entry => entry.1 = monitorId).map (·.2)

/-- A plane as it is constructed. -/
def start (mono : ℚ) : Plane where
  objects := fun _ => none
  nextRef := 0
  slots := []
  inFlightPerOrg := fun _ => 0
  inFlightPerTarget := fun _ => 0
  bucket := ⟨probeBurst, mono⟩
  probes := 0
  missedSlots := 0
  shedSlots := 0
  inFlight := []

/-! ### Reload -/

/-- One row of the loop of `reload`: the slot of the monitor is brought up to date, or made. -/
def place (parser : UrlParser) (mono : ℚ) (p : Plane) (monitor : Monitor) : Plane :=
  let intervalMs := monitor.highFrequencyIntervalMs.getD 0
  match p.slotOf monitor.id with
  | some ref =>
    match p.objects ref with
    | some slot => p.setSlot ref
        { slot with monitor, intervalMs, targetKey := targetKeyOf parser monitor }
    | none => p
  | none =>
    { p.setSlot p.nextRef
        { monitor
          intervalMs
          dueMono := mono + (shardOf monitor.id / allShards.length : ℚ) * intervalMs
          inFlight := false
          targetKey := targetKeyOf parser monitor
          probes := 0
          missedSlots := 0
          shedSlots := 0 } with
      nextRef := p.nextRef + 1
      slots := p.slots ++ [(monitor.id, p.nextRef)] }

/-- The loop of `reload` over the rows on held shards, which ends when so many are kept. -/
def placeAll (parser : UrlParser) (mono : ℚ) : List Monitor → Plane → List JsString →
    Plane × List JsString
  | [], p, keep => (p, keep)
  | monitor :: rest, p, keep =>
    if keep.length ≥ maxMonitorsPerWorker then (p, keep)
    else placeAll parser mono rest (place parser mono p monitor)
      (if keep.contains monitor.id then keep else keep ++ [monitor.id])

/-- `reload` from where the leases are settled: `rows` is what the query returned. -/
def rebuild (parser : UrlParser) (p : Plane) (rows : List Monitor) (held : List ℕ) (mono : ℚ) :
    Plane :=
  let mine := rows.filter fun row => held.contains (shardOf row.id)
  let (p, keep) := placeAll parser mono mine p []
  { p with slots := p.slots.filter fun entry => keep.contains entry.1 }

/-! ### Tick -/

def bump {κ : Type} [DecidableEq κ] (counts : κ → ℕ) (key : κ) (delta : ℤ) : κ → ℕ :=
  Function.update counts key (counts key + delta).toNat

/-- Whether a token is there, and the bucket afterwards. -/
def TokenBucket.take (bucket : TokenBucket) (mono : ℚ) : Bool × TokenBucket :=
  let elapsedMs := max 0 (mono - bucket.lastMono)
  let tokens := min probeBurst (bucket.tokens + elapsedMs * maxProbesPerSecond / 1000)
  if tokens < 1 then (false, ⟨tokens, mono⟩) else (true, ⟨tokens - 1, mono⟩)

/-- Why a slot that is due does not start a probe. -/
inductive Refusal where
  | missed
  | shed
  deriving DecidableEq, Repr

/-- Whether a slot may issue a probe; only the last check touches the bucket. -/
def refuse (p : Plane) (slot : Slot) (saturated : Bool) (mono : ℚ) : Plane × Option Refusal :=
  if slot.inFlight then (p, some .missed)
  else if saturated then (p, some .shed)
  else if p.inFlightPerOrg slot.monitor.organizationId ≥ maxInFlightPerOrg then (p, some .shed)
  else if p.inFlightPerTarget slot.targetKey ≥ maxInFlightPerTarget then (p, some .shed)
  else
    let (taken, bucket) := p.bucket.take mono
    ({ p with bucket }, if taken then none else some .shed)

/-- The next time a slot is due: a shed one comes again with the next tick, any other after its
interval, with the intervals that have passed counted as missed. -/
def advance (p : Plane) (ref : ℕ) (slot : Slot) (mono : ℚ) : Option Refusal → Plane
  | some .shed =>
    { p.setSlot ref { slot with shedSlots := slot.shedSlots + 1, dueMono := mono + tickMs } with
      shedSlots := p.shedSlots + 1 }
  | refusal =>
    let missed := if refusal = some .missed then 1 else 0
    let dueMono := slot.dueMono + slot.intervalMs
    let skipped : ℕ :=
      if dueMono > mono then 0 else (⌊(mono - dueMono) / slot.intervalMs⌋ + 1).toNat
    { p.setSlot ref
        { slot with
          missedSlots := slot.missedSlots + missed + skipped
          dueMono := dueMono + skipped * slot.intervalMs } with
      missedSlots := p.missedSlots + missed + skipped }

/-- `probe` up to where it waits for the check. -/
def probe (p : Plane) (ref : ℕ) : Plane :=
  match p.objects ref with
  | none => p
  | some slot =>
    { p.setSlot ref { slot with inFlight := true, probes := slot.probes + 1 } with
      inFlightPerOrg := bump p.inFlightPerOrg slot.monitor.organizationId 1
      inFlightPerTarget := bump p.inFlightPerTarget slot.targetKey 1
      probes := p.probes + 1
      inFlight := ⟨ref, slot.monitor.id, slot.monitor.organizationId, slot.targetKey⟩ :: p.inFlight }

/-- One due slot of a tick. -/
def serve (held : List ℕ) (saturated : Bool) (mono : ℚ) (p : Plane) (ref : ℕ) : Plane :=
  match p.objects ref with
  | none => p
  | some slot =>
    if !held.contains (shardOf slot.monitor.id) then advance p ref slot mono none
    else
      let (p, refusal) := refuse p slot saturated mono
      let p := advance p ref slot mono refusal
      if refusal.isNone then probe p ref else p

/-- The due slots, most overdue first. -/
def due (p : Plane) (mono : ℚ) : List ℕ :=
  let overdue := p.slots.filterMap fun entry =>
    ((p.objects entry.2).filter (·.dueMono ≤ mono)).map fun slot => (slot.dueMono, entry.2)
  (overdue.insertionSort fun a b => a.1 ≤ b.1).map (·.2)

def tick (p : Plane) (held : List ℕ) (saturated : Bool) (mono : ℚ) : Plane :=
  (due p mono).foldl (serve held saturated mono) p

/-! ### A probe completes -/

/-- The `finally` of `probe`, which reads the keys off the slot again. -/
def complete (p : Plane) (done : Probe) : Plane :=
  match p.objects done.slot with
  | none => p
  | some slot =>
    { p.setSlot done.slot { slot with inFlight := false } with
      inFlightPerOrg := bump p.inFlightPerOrg slot.monitor.organizationId (-1)
      inFlightPerTarget := bump p.inFlightPerTarget slot.targetKey (-1)
      inFlight := p.inFlight.erase done }

/-- `promote` puts the row that it wrote on its slot. -/
def promoted (p : Plane) (ref : ℕ) (updated : Monitor) : Plane :=
  match p.objects ref with
  | none => p
  | some slot => p.setSlot ref { slot with monitor := updated }

/-! ### A monitor of a bare host -/

/-- A parser to which nothing is a URL, as no bare host is. -/
def noUrls : UrlParser where
  parse := fun _ => none
  parseWith := fun _ _ => none

/-- A monitor of a database, every half second. -/
def port5432 : Monitor where
  id := js "a"
  organizationId := "o"
  checkType := "tcp"
  url := js "db.internal"
  port := some 5432
  paused := false
  highFrequency := true
  highFrequencyIntervalMs := some 500

end Vigil.HighFreq.Slots
