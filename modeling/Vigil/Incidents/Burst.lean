import Vigil.Incidents.Evidence
import Vigil.Lib.Run
import Vigil.Net.Egress
import Mathlib.Data.Rat.Floor

/-! The diagnostic bursts of one process, `incidents/evidence/burst.ts`.  The code between two awaits
is one step of the machine: a call of `runBurst` up to its first await, or what it does when the
step that it waits for has settled.  How a step settles and what the clock reads are part of the
action.  `calls` and `answer` are histories that the code does not keep. -/

namespace Vigil.Incidents.Burst

open Js.Text Js.Object Ledger.Canonical Evidence
open Net.Address (classifyAddress isNeverReachable isForbiddenEgressHost normalizeHost startsWith)
open Net.Egress (ResolvedAddress)

def BURST_BUDGET_MS : ℤ := 5000

def BURST_MAX_STEPS : ℤ := 4

def BURST_STEP_TIMEOUT_MS : ℤ := 2000

def MAX_CONCURRENT_BURSTS : ℤ := 2

def MAX_RECORDED_ADDRESSES : ℕ := 4

def MAX_STEP_ERROR_CHARS : ℕ := 500

/-- What a burst looks into. -/
structure BurstTarget where
  host : JsString
  port : Option ℤ
  url : Option JsString
  method : JsString
  tls : Bool

/-- What a burst is started with. -/
structure RunBurstOptions where
  target : BurstTarget
  allowPrivate : Bool
  /-- `now.toISOString()` -/
  ranAt : JsString
  budgetMs : ℤ := BURST_BUDGET_MS

/-! ### One step -/

/-- How the race of a step ends: its work resolves or rejects, with the message if the reason is an
error, or its deadline passes. -/
inductive Settled (α : Type) where
  | resolved (value : α)
  | rejected (message : Option JsString)
  | deadline

def spentMessage : JsString := js "The diagnostic budget was spent"

def gaveUpMessage : JsString := js "Gave up after"

def SELF_INFLICTED : List JsString := [spentMessage, gaveUpMessage]

def isSelfInflicted : Option JsString → Bool
  | none => false
  | some error => SELF_INFLICTED.any (startsWith error)

def step {α : Type} (budgetMs : ℤ) (settled : Settled α) (onFailure : JsString → α) : α :=
  if budgetMs ≤ 0 then onFailure spentMessage
  else
    match settled with
    | .resolved value => value
    | .rejected message => onFailure (message.getD (js "The step failed"))
    | .deadline => onFailure (gaveUpMessage ++ js " " ++ numberText (.integer budgetMs) ++ js "ms")

/-- `Math.round(performance.now() - startedAt)` -/
def elapsed (startedAt now : ℚ) : ℤ := round (now - startedAt)

/-- What is left of the budget, as the deadline of a step. -/
def slice (budgetMs : ℤ) (startedAt now : ℚ) : ℤ :=
  max 0 (min BURST_STEP_TIMEOUT_MS (budgetMs - elapsed startedAt now))

/-- What the clock reads in one stretch of code, from one reading to the next. -/
structure Clock where
  read : ℕ → ℚ
  later : ∀ n, read n ≤ read (n + 1)

/-! ### A burst -/

/-- What a burst asks of the transport, with the time that it gives it. -/
inductive Call where
  | lookup (hostname : JsString)
  | connect (address : JsString) (port timeoutMs : ℤ)
  | handshake (address servername : JsString) (port timeoutMs : ℤ)
  | request (url method : JsString) (timeoutMs : ℤ)

/-- The step that a call of `runBurst` waits for, with its deadline, or its record. -/
inductive Phase where
  | resolving (budgetMs : ℤ)
  | connecting (pin : JsString) (port budgetMs : ℤ)
  | handshaking (pin : JsString) (port budgetMs : ℤ)
  | requesting (budgetMs : ℤ)
  | returned (record : BurstRecord)

/-- A burst, with the calls that it has made. -/
structure BurstRun where
  options : RunBurstOptions
  startedAt : ℚ
  stepStartedAt : ℚ
  steps : List BurstStep
  phase : Phase
  calls : List Call := []
  answer : Option (List ResolvedAddress) := none

/-- The burst has not returned. -/
def BurstRun.running (b : BurstRun) : Bool :=
  match b.phase with
  | .returned _ => false
  | _ => true

/-- The step as it is recorded. -/
def marked (s : BurstStep) : BurstStep :=
  { s with
    selfInflicted := s.selfInflicted || isSelfInflicted s.error
    error := s.error.map fun error =>
      if error.length > MAX_STEP_ERROR_CHARS then error.take MAX_STEP_ERROR_CHARS ++ js "…"
      else error }

/-- `record`, after the steps of the burst. -/
def record (b : BurstRun) (now : ℚ) : BurstRecord where
  ranAt := b.options.ranAt
  budgetMs := b.options.budgetMs
  maxSteps := BURST_MAX_STEPS
  spentMs := elapsed b.startedAt now
  steps := b.steps.map marked

def skipped (options : RunBurstOptions) (reason : BurstSkipReason) : BurstRecord where
  ranAt := options.ranAt
  budgetMs := options.budgetMs
  maxSteps := BURST_MAX_STEPS
  spentMs := 0
  steps := []
  skipped := some reason

def BurstRun.return_ (b : BurstRun) (now : ℚ) : BurstRun := { b with phase := .returned (record b now) }

/-- An address that the policy of monitors refuses. -/
def refusedAddress (allowPrivate : Bool) (entry : ResolvedAddress) : Bool :=
  let classification := (classifyAddress entry.address).getD .reserved
  if classification = .public_ then false
  else isNeverReachable classification || !allowPrivate

/-- The steps so far and one more. -/
def BurstRun.push (b : BurstRun) (kind : BurstStepKind) (detail : EvidenceFacts) (error : Option JsString)
    (now : ℚ) : BurstRun :=
  let pushed : BurstStep := {
    kind := kind
    ok := error.isNone
    durationMs := elapsed b.stepStartedAt now
    detail := detail
    error := error }
  { b with steps := b.steps ++ [pushed] }

def BurstRun.left (b : BurstRun) (now : ℚ) : ℤ := slice b.options.budgetMs b.startedAt now

/-- The fourth step, or the end. -/
def BurstRun.request (b : BurstRun) (budgetMs : ℤ) (now : ℚ) : BurstRun :=
  match b.options.target.url with
  | some url =>
    if budgetMs > 0 then
      { b with
        phase := .requesting budgetMs
        stepStartedAt := now
        calls := b.calls ++ [.request url b.options.target.method budgetMs] }
    else b.return_ now
  | none => b.return_ now

def dnsDetail (addresses : List ResolvedAddress) : EvidenceFacts :=
  let recorded := (addresses.take MAX_RECORDED_ADDRESSES).map (·.address)
  [(js "addresses", .array (recorded.map .string)),
    (js "addressCount", .number (.integer addresses.length))] ++
    match addresses with
    | [] => []
    | first :: _ => [(js "family", .number (.integer first.family))]

/-- After the lookup. -/
def BurstRun.resolved (b : BurstRun) (budgetMs : ℤ) (settled : Settled (List ResolvedAddress))
    (clock : Clock) : BurstRun :=
  let onFound := fun found : List ResolvedAddress =>
    (found, if found.length = 0 then some (js "Target did not resolve to any address") else none)
  let lookup : Settled (List ResolvedAddress × Option JsString) :=
    match settled with
    | .resolved found => .resolved (onFound found)
    | .rejected message => .rejected message
    | .deadline => .deadline
  let (addresses, dnsError) := step budgetMs lookup fun message => ([], some message)
  let b := { b.push .dns (dnsDetail addresses) dnsError (clock.read 0) with answer := some addresses }
  match dnsError, addresses with
  | some _, _ | none, [] => b.return_ (clock.read 1)
  | none, first :: _ =>
    if addresses.any (refusedAddress b.options.allowPrivate) then
      { b with phase := .returned { record b (clock.read 1) with skipped := some .refused } }
    else
      let tcpBudget := b.left (clock.read 1)
      match b.options.target.port with
      | none => b.return_ (clock.read 2)
      | some port =>
        if tcpBudget ≤ 0 then b.return_ (clock.read 2)
        else
          { b with
            phase := .connecting first.address port tcpBudget
            stepStartedAt := clock.read 2
            calls := b.calls ++ [.connect first.address port tcpBudget] }

/-- The connection has settled; a handshake or the request follows. -/
def BurstRun.connected (b : BurstRun) (pin : JsString) (port budgetMs : ℤ)
    (settled : Settled (Option JsString)) (clock : Clock) : BurstRun :=
  let error := step budgetMs settled some
  let detail := [(js "address", .string pin), (js "port", .number (.integer port))]
  let b := b.push .tcp detail error (clock.read 0)
  match error with
  | some _ => b.return_ (clock.read 1)
  | none =>
    let tlsBudget := b.left (clock.read 1)
    if b.options.target.tls = true ∧ tlsBudget > 0 then
      { b with
        phase := .handshaking pin port tlsBudget
        stepStartedAt := clock.read 2
        calls := b.calls ++
          [.handshake pin (normalizeHost b.options.target.host) port tlsBudget] }
    else b.request (b.left (clock.read 2)) (clock.read 3)

def BurstRun.shaken (b : BurstRun) (budgetMs : ℤ) (settled : Settled (EvidenceFacts × Option JsString))
    (clock : Clock) : BurstRun :=
  let (facts, error) := step budgetMs settled fun message => ([], some message)
  let b := b.push .tls facts error (clock.read 0)
  match error with
  | some _ => b.return_ (clock.read 1)
  | none => b.request (b.left (clock.read 1)) (clock.read 2)

def BurstRun.requested (b : BurstRun) (budgetMs : ℤ)
    (settled : Settled (EvidenceFacts × Option JsString)) (clock : Clock) : BurstRun :=
  let (facts, error) := step budgetMs settled fun message => ([], some message)
  (b.push .http facts error (clock.read 0)).return_ (clock.read 1)

/-! ### The process -/

/-- What settles, by what it was asked. -/
inductive Outcome where
  | lookup (settled : Settled (List ResolvedAddress))
  | connect (settled : Settled (Option JsString))
  | exchange (settled : Settled (EvidenceFacts × Option JsString))

/-- What a burst does when its step has settled; nothing else settles for it. -/
def BurstRun.settle (b : BurstRun) (outcome : Outcome) (clock : Clock) : Option BurstRun :=
  match b.phase, outcome with
  | .resolving budgetMs, .lookup settled => some (b.resolved budgetMs settled clock)
  | .connecting pin port budgetMs, .connect settled =>
    some (b.connected pin port budgetMs settled clock)
  | .handshaking _ _ budgetMs, .exchange settled => some (b.shaken budgetMs settled clock)
  | .requesting budgetMs, .exchange settled => some (b.requested budgetMs settled clock)
  | _, _ => none

/-- The bursts of a process, and how many are under way. -/
structure Process where
  inFlight : ℤ := 0
  bursts : List BurstRun := []
  /-- The last reading of the clock. -/
  now : ℚ := 0

inductive Action where
  | start (options : RunBurstOptions) (clock : Clock)
  | settle (burst : ℕ) (outcome : Outcome) (clock : Clock)

/-- A burst that returns at once. -/
def notStarted (options : RunBurstOptions) (reason : BurstSkipReason) : BurstRun where
  options := options
  startedAt := 0
  stepStartedAt := 0
  steps := []
  phase := .returned (skipped options reason)

def started (options : RunBurstOptions) (clock : Clock) : BurstRun :=
  let budgetMs := slice options.budgetMs (clock.read 0) (clock.read 2)
  { options := options
    startedAt := clock.read 0
    stepStartedAt := clock.read 1
    steps := []
    phase := .resolving budgetMs
    calls := if budgetMs ≤ 0 then [] else [.lookup (normalizeHost options.target.host)] }

/-- A call of `runBurst` up to where it waits or returns, with the number of bursts in flight. -/
def runBurst (inFlight : ℤ) (options : RunBurstOptions) (clock : Clock) : ℤ × BurstRun :=
  let host := normalizeHost options.target.host
  if host = [] ∨ isForbiddenEgressHost host = true then (inFlight, notStarted options .refused)
  else if inFlight ≥ MAX_CONCURRENT_BURSTS then (inFlight, notStarted options .concurrency)
  else (inFlight + 1, started options clock)

/-- A stretch of code reads the clock four times at most. -/
def stepProcess (p : Process) : Action → Option Process
  | .start options clock =>
    if p.now ≤ clock.read 0 then
      let (inFlight, burst) := runBurst p.inFlight options clock
      some ⟨inFlight, p.bursts ++ [burst], clock.read 4⟩
    else none
  | .settle i outcome clock =>
    if p.now ≤ clock.read 0 then
      (p.bursts[i]?).bind fun b =>
        (b.settle outcome clock).map fun b' =>
          -- `finally`
          ⟨if b'.running then p.inFlight else p.inFlight - 1, p.bursts.set i b', clock.read 4⟩
    else none

def process : Lib.Machine Process Action := ⟨{}, stepProcess⟩

/-! ### The steps of a burst -/

/-- The steps of a target that every step succeeds for. -/
def order (target : BurstTarget) : List BurstStepKind :=
  [.dns, .tcp] ++ (if target.tls then [.tls] else []) ++ [.http]

/-- The steps are the first ones in order, and none but the last has failed. -/
def Initial (target : BurstTarget) (steps : List BurstStep) : Prop :=
  steps.map (·.kind) <+: order target ∧ ∀ s ∈ steps.dropLast, s.ok = true

/-- The address is the first of an answer that the policy allows all of. -/
def Pinned (b : BurstRun) (address : JsString) : Prop :=
  ∃ first rest, b.answer = some (first :: rest) ∧ address = first.address ∧
    ∀ entry ∈ first :: rest, refusedAddress b.options.allowPrivate entry = false

/-- The steps so far are these, and all have succeeded. -/
def Clean (b : BurstRun) (kinds : List BurstStepKind) : Prop :=
  b.steps.map (·.kind) = kinds ∧ ∀ s ∈ b.steps, s.ok = true

/-- The address that a call dials. -/
def Call.address : Call → Option JsString
  | .connect address _ _ | .handshake address _ _ _ => some address
  | .lookup _ | .request _ _ _ => none

def Dials (b : BurstRun) : Prop :=
  ∀ call ∈ b.calls, ∀ address, call.address = some address → Pinned b address

def Ordered (b : BurstRun) : Prop :=
  match b.phase with
  | .resolving _ => Clean b [] ∧ ∀ call ∈ b.calls, call.address = none
  | .connecting pin _ _ => Clean b [.dns] ∧ Pinned b pin
  | .handshaking pin _ _ =>
    Clean b [.dns, .tcp] ∧ b.options.target.tls = true ∧ Pinned b pin
  | .requesting _ => Clean b ([.dns, .tcp] ++ if b.options.target.tls then [.tls] else [])
  | .returned record => Initial b.options.target record.steps

structure Disciplined (b : BurstRun) : Prop where
  ordered : Ordered b
  dials : Dials b

section Steps

variable {b : BurstRun} {kinds : List BurstStepKind} {kind : BurstStepKind} {detail : EvidenceFacts}
  {error : Option JsString} {now : ℚ}

theorem map_kind_marked (steps : List BurstStep) :
    (steps.map marked).map (·.kind) = steps.map (·.kind) := by
  rw [List.map_map]
  rfl

theorem Initial.marked {target : BurstTarget} {steps : List BurstStep} (h : Initial target steps) :
    Initial target (steps.map marked) := by
  refine ⟨(map_kind_marked steps).symm ▸ h.1, ?_⟩
  intro s hs
  rw [← List.map_dropLast] at hs
  obtain ⟨t, ht, rfl⟩ := List.mem_map.mp hs
  exact h.2 t ht

theorem Clean.push (h : Clean b kinds) : Clean (b.push kind detail none now) (kinds ++ [kind]) := by
  constructor
  · simp only [BurstRun.push, List.map_append, h.1, List.map_singleton]
  · intro s hs
    rcases List.mem_append.mp hs with hs | hs
    · exact h.2 s hs
    · rw [List.mem_singleton.mp hs]
      rfl

theorem Clean.initial (h : Clean b kinds) (horder : kinds <+: order b.options.target) :
    Initial b.options.target b.steps :=
  ⟨h.1.symm ▸ horder, fun s hs => h.2 s (List.dropLast_subset _ hs)⟩

theorem Clean.initial_push (h : Clean b kinds) (horder : kinds ++ [kind] <+: order b.options.target) :
    Initial b.options.target (b.push kind detail error now).steps := by
  constructor
  · simpa only [BurstRun.push, List.map_append, h.1, List.map_singleton] using horder
  · intro s hs
    simp only [BurstRun.push, List.dropLast_concat] at hs
    exact h.2 s hs

theorem disciplined_return (hsteps : Initial b.options.target b.steps) (hdials : Dials b) :
    Disciplined (b.return_ now) :=
  ⟨hsteps.marked, hdials⟩

theorem Pinned.congr {b' : BurstRun} {address : JsString} (h : Pinned b address)
    (hanswer : b'.answer = b.answer) (hoptions : b'.options = b.options) : Pinned b' address := by
  unfold Pinned
  rw [hanswer, hoptions]
  exact h

/-- One more call, which dials an allowed address or none. -/
theorem Dials.call (h : Dials b) {b' : BurstRun} {call : Call} (hcalls : b'.calls = b.calls ++ [call])
    (hanswer : b'.answer = b.answer) (hoptions : b'.options = b.options)
    (hcall : ∀ address, call.address = some address → Pinned b address) : Dials b' := by
  intro c hc address haddress
  rw [hcalls] at hc
  rcases List.mem_append.mp hc with hc | hc
  · exact (h c hc address haddress).congr hanswer hoptions
  · rw [List.mem_singleton.mp hc] at haddress
    exact (hcall address haddress).congr hanswer hoptions

end Steps

/-! ### What each stretch of code does -/

section Stretches

variable {b : BurstRun} {clock : Clock} {budgetMs : ℤ}

/-- The steps before the request. -/
def beforeRequest (target : BurstTarget) : List BurstStepKind :=
  [.dns, .tcp] ++ if target.tls then [.tls] else []

theorem beforeRequest_initial (target : BurstTarget) : beforeRequest target <+: order target :=
  List.prefix_append _ _

theorem tcp_initial (target : BurstTarget) :
    [BurstStepKind.dns, BurstStepKind.tcp] <+: order target :=
  (List.prefix_append _ _).trans (beforeRequest_initial target)

theorem dns_initial (target : BurstTarget) : [BurstStepKind.dns] <+: order target :=
  (List.prefix_append [BurstStepKind.dns] [BurstStepKind.tcp]).trans (tcp_initial target)

theorem disciplined_request (h : Clean b (beforeRequest b.options.target)) (hdials : Dials b)
    (budgetMs : ℤ) (now : ℚ) : Disciplined (b.request budgetMs now) := by
  have hreturn : Disciplined (b.return_ now) :=
    disciplined_return (h.initial (beforeRequest_initial _)) hdials
  unfold BurstRun.request
  split
  · split
    · exact ⟨h, hdials.call rfl rfl rfl fun address haddress => by cases haddress⟩
    · exact hreturn
  · exact hreturn

theorem request_of_nonpos (hbudget : budgetMs ≤ 0) (now : ℚ) :
    b.request budgetMs now = b.return_ now := by
  unfold BurstRun.request
  split
  · rw [if_neg (by omega)]
  · rfl

theorem elapsed_mono (startedAt : ℚ) {now later : ℚ} (h : now ≤ later) :
    elapsed startedAt now ≤ elapsed startedAt later := by
  unfold elapsed
  rw [round_eq, round_eq]
  exact Int.floor_le_floor (by linarith)

theorem left_antitone (b : BurstRun) {now later : ℚ} (h : now ≤ later) : b.left later ≤ b.left now := by
  have := elapsed_mono b.startedAt h
  unfold BurstRun.left slice
  omega

theorem disciplined_requested (h : Clean b (beforeRequest b.options.target)) (hdials : Dials b)
    (settled : Settled (EvidenceFacts × Option JsString)) :
    Disciplined (b.requested budgetMs settled clock) :=
  disciplined_return (h.initial_push (List.prefix_rfl)) hdials

theorem disciplined_shaken (h : Clean b [.dns, .tcp]) (htls : b.options.target.tls = true)
    (hdials : Dials b) (settled : Settled (EvidenceFacts × Option JsString)) :
    Disciplined (b.shaken budgetMs settled clock) := by
  have hbefore : beforeRequest b.options.target = [.dns, .tcp] ++ [.tls] := by
    rw [beforeRequest, htls]
    rfl
  unfold BurstRun.shaken
  obtain ⟨facts, error⟩ := step budgetMs settled fun message => ([], some message)
  cases error with
  | some message =>
    exact disciplined_return (h.initial_push (hbefore ▸ beforeRequest_initial _)) hdials
  | none =>
    exact disciplined_request (b := b.push .tls facts none (clock.read 0)) (hbefore ▸ h.push)
      hdials _ _

theorem disciplined_connected {pin : JsString} {port : ℤ} (h : Clean b [.dns]) (hpin : Pinned b pin)
    (hdials : Dials b) (settled : Settled (Option JsString)) :
    Disciplined (b.connected pin port budgetMs settled clock) := by
  unfold BurstRun.connected
  dsimp only
  cases step budgetMs settled some with
  | some message =>
    exact disciplined_return (h.initial_push (tcp_initial _)) hdials
  | none =>
    dsimp only
    have hclean : Clean (b.push .tcp [(js "address", .string pin),
        (js "port", .number (.integer port))] none (clock.read 0)) _ := h.push
    split
    · rename_i htls
      exact ⟨⟨hclean, htls.1, hpin⟩, hdials.call rfl rfl rfl fun address haddress => by
        obtain rfl := Option.some.inj haddress
        exact hpin⟩
    · rename_i hnone
      by_cases htls : b.options.target.tls = true
      · -- Without time for the handshake there is none for the request.
        have hspent := not_lt.mp fun hleft => hnone ⟨htls, hleft⟩
        rw [request_of_nonpos ((left_antitone _ (clock.later 1)).trans hspent)]
        exact disciplined_return (hclean.initial (tcp_initial _)) hdials
      · have hbefore : beforeRequest b.options.target = [.dns] ++ [.tcp] := by
          rw [beforeRequest, if_neg htls]
          rfl
        exact disciplined_request (b := b.push .tcp _ none (clock.read 0)) (hbefore ▸ hclean)
          hdials _ _

theorem disciplined_resolved (h : Clean b []) (hcalls : ∀ call ∈ b.calls, call.address = none)
    (settled : Settled (List ResolvedAddress)) :
    Disciplined (b.resolved budgetMs settled clock) := by
  have hdials : ∀ b' : BurstRun, b'.calls = b.calls → Dials b' := by
    intro b' hsame call hcall address haddress
    rw [hcalls call (hsame ▸ hcall)] at haddress
    cases haddress
  unfold BurstRun.resolved
  extract_lets onFound lookup
  obtain ⟨addresses, error⟩ := step budgetMs lookup fun message => ([], some message)
  dsimp only
  cases error with
  | some message =>
    exact disciplined_return (h.initial_push (dns_initial _)) (hdials _ rfl)
  | none =>
    have hclean : Clean (b.push .dns (dnsDetail addresses) none (clock.read 0)) _ := h.push
    cases addresses with
    | nil => exact disciplined_return (hclean.initial (dns_initial _)) (hdials _ rfl)
    | cons first rest =>
      dsimp only
      split
      · exact ⟨(hclean.initial (dns_initial _)).marked, hdials _ rfl⟩
      · rename_i hallowed
        have hreturn (now : ℚ) : Disciplined (BurstRun.return_
            { b.push .dns (dnsDetail (first :: rest)) none (clock.read 0) with
              answer := some (first :: rest) } now) :=
          disciplined_return (hclean.initial (dns_initial _)) (hdials _ rfl)
        split
        · exact hreturn _
        · split
          · exact hreturn _
          · have hpin : ∀ entry ∈ first :: rest,
                refusedAddress b.options.allowPrivate entry = false := by
              intro entry hentry
              rw [Bool.eq_false_iff]
              exact fun hrefused => hallowed (List.any_eq_true.mpr ⟨entry, hentry, hrefused⟩)
            have hdials := hdials { b with answer := some (first :: rest) } rfl
            refine ⟨⟨hclean, first, rest, rfl, rfl, hpin⟩, hdials.call rfl rfl rfl ?_⟩
            intro address haddress
            obtain rfl := Option.some.inj haddress
            exact ⟨first, rest, rfl, rfl, hpin⟩

end Stretches

/-! ### Runs of the process -/

/-- What a burst that waits for a step can be told of it. -/
def Awaits (b : BurstRun) (outcome : Outcome) : Prop :=
  match b.phase, outcome with
  | .resolving _, .lookup _ | .connecting _ _ _, .connect _ | .handshaking _ _ _, .exchange _
  | .requesting _, .exchange _ => True
  | _, _ => False

/-- How many steps a burst can still wait for. -/
def remaining (b : BurstRun) : ℕ :=
  match b.phase with
  | .resolving _ => 4
  | .connecting _ _ _ => 3
  | .handshaking _ _ _ => 2
  | .requesting _ => 1
  | .returned _ => 0

/-- The deadline of the step that a burst waits for. -/
def deadlineOf (b : BurstRun) : Outcome :=
  match b.phase with
  | .resolving _ => .lookup .deadline
  | .connecting _ _ _ => .connect .deadline
  | _ => .exchange .deadline

section Settle

variable {b b' : BurstRun} {outcome : Outcome} {clock : Clock}

theorem running_iff : b.running = true ↔ 0 < remaining b := by
  unfold BurstRun.running remaining
  cases b.phase <;> simp

theorem awaits_deadlineOf (h : b.running = true) : Awaits b (deadlineOf b) := by
  unfold BurstRun.running at h
  unfold Awaits deadlineOf
  cases hphase : b.phase with
  | returned record =>
    rw [hphase] at h
    cases h
  | _ => trivial

theorem settle_of_awaits (clock : Clock) (h : Awaits b outcome) :
    (b.settle outcome clock).isSome = true := by
  unfold Awaits at h
  unfold BurstRun.settle
  cases hphase : b.phase <;> cases outcome <;> simp_all

theorem remaining_request (b : BurstRun) (budgetMs : ℤ) (now : ℚ) :
    remaining (b.request budgetMs now) ≤ 1 := by
  unfold BurstRun.request
  split
  · split
    · exact le_rfl
    · exact Nat.zero_le _
  · exact Nat.zero_le _

theorem remaining_resolved (b : BurstRun) (budgetMs : ℤ) (settled : Settled (List ResolvedAddress))
    (clock : Clock) : remaining (b.resolved budgetMs settled clock) ≤ 3 := by
  unfold BurstRun.resolved
  extract_lets onFound lookup
  obtain ⟨addresses, error⟩ := step budgetMs lookup fun message => ([], some message)
  cases error with
  | some message => exact Nat.zero_le _
  | none =>
    cases addresses with
    | nil => exact Nat.zero_le _
    | cons first rest =>
      dsimp only
      split
      · exact Nat.zero_le _
      · split
        · exact Nat.zero_le _
        · split
          · exact Nat.zero_le _
          · exact le_rfl

theorem remaining_connected (b : BurstRun) (pin : JsString) (port budgetMs : ℤ)
    (settled : Settled (Option JsString)) (clock : Clock) :
    remaining (b.connected pin port budgetMs settled clock) ≤ 2 := by
  unfold BurstRun.connected
  dsimp only
  cases step budgetMs settled some with
  | some message => exact Nat.zero_le _
  | none =>
    dsimp only
    split
    · exact le_rfl
    · exact (remaining_request _ _ _).trans (by decide)

theorem remaining_shaken (b : BurstRun) (budgetMs : ℤ)
    (settled : Settled (EvidenceFacts × Option JsString)) (clock : Clock) :
    remaining (b.shaken budgetMs settled clock) ≤ 1 := by
  unfold BurstRun.shaken
  obtain ⟨facts, error⟩ := step budgetMs settled fun message => ([], some message)
  cases error with
  | some message => exact Nat.zero_le _
  | none => exact remaining_request _ _ _

/-- A burst waits for its steps one after another and for none of them twice. -/
theorem remaining_settle (h : b.settle outcome clock = some b') : remaining b' < remaining b := by
  unfold BurstRun.settle at h
  have hphase : remaining b = match b.phase with
      | .resolving _ => 4
      | .connecting _ _ _ => 3
      | .handshaking _ _ _ => 2
      | .requesting _ => 1
      | .returned _ => 0 := rfl
  split at h
  · rename_i budgetMs settled hb
    obtain rfl := Option.some.inj h
    rw [hphase, hb]
    exact Nat.lt_succ_of_le (remaining_resolved b budgetMs settled clock)
  · rename_i pin port budgetMs settled hb
    obtain rfl := Option.some.inj h
    rw [hphase, hb]
    exact Nat.lt_succ_of_le (remaining_connected b pin port budgetMs settled clock)
  · rename_i pin port budgetMs settled hb
    obtain rfl := Option.some.inj h
    rw [hphase, hb]
    exact Nat.lt_succ_of_le (remaining_shaken b budgetMs settled clock)
  · rename_i budgetMs settled hb
    obtain rfl := Option.some.inj h
    rw [hphase, hb]
    exact Nat.zero_lt_one
  · cases h

theorem disciplined_settle (hb : Disciplined b) (h : b.settle outcome clock = some b') :
    Disciplined b' := by
  have hordered := hb.ordered
  unfold Ordered at hordered
  unfold BurstRun.settle at h
  split at h
  · rename_i budgetMs settled hphase
    obtain rfl := Option.some.inj h
    rw [hphase] at hordered
    exact disciplined_resolved hordered.1 hordered.2 settled
  · rename_i pin port budgetMs settled hphase
    obtain rfl := Option.some.inj h
    rw [hphase] at hordered
    exact disciplined_connected hordered.1 hordered.2 hb.dials settled
  · rename_i pin port budgetMs settled hphase
    obtain rfl := Option.some.inj h
    rw [hphase] at hordered
    exact disciplined_shaken hordered.1 hordered.2.1 hb.dials settled
  · rename_i budgetMs settled hphase
    obtain rfl := Option.some.inj h
    rw [hphase] at hordered
    exact disciplined_requested hordered hb.dials settled
  · cases h

end Settle

theorem disciplined_notStarted (options : RunBurstOptions) (reason : BurstSkipReason) :
    Disciplined (notStarted options reason) :=
  ⟨⟨List.nil_prefix, fun _ h => absurd h List.not_mem_nil⟩, fun _ h => absurd h List.not_mem_nil⟩

theorem disciplined_started (options : RunBurstOptions) (clock : Clock) :
    Disciplined (started options clock) := by
  have hcalls : ∀ call ∈ (started options clock).calls, call.address = none := by
    intro call hcall
    unfold started at hcall
    dsimp only at hcall
    split at hcall
    · exact absurd hcall List.not_mem_nil
    · rw [List.mem_singleton.mp hcall]
      rfl
  refine ⟨⟨⟨rfl, fun _ h => absurd h List.not_mem_nil⟩, hcalls⟩, fun call hcall address haddress => ?_⟩
  rw [hcalls call hcall] at haddress
  cases haddress

/-- What holds of the process between two stretches of code. -/
structure Bounded (p : Process) : Prop where
  inFlight : p.inFlight = p.bursts.countP BurstRun.running
  most : p.inFlight ≤ MAX_CONCURRENT_BURSTS
  disciplined : ∀ b ∈ p.bursts, Disciplined b

variable {p : Process}

theorem bounded_start (h : Bounded p) (options : RunBurstOptions) (clock : Clock) (now : ℚ) :
    Bounded ⟨(runBurst p.inFlight options clock).1,
      p.bursts ++ [(runBurst p.inFlight options clock).2], now⟩ := by
  have hall : ∀ {b : BurstRun}, Disciplined b → ∀ c ∈ p.bursts ++ [b], Disciplined c := by
    intro b hb c hc
    rcases List.mem_append.mp hc with hc | hc
    · exact h.disciplined c hc
    · exact List.mem_singleton.mp hc ▸ hb
  have hskip : ∀ reason, Bounded ⟨p.inFlight, p.bursts ++ [notStarted options reason], now⟩ := by
    intro reason
    refine ⟨?_, h.most, hall (disciplined_notStarted options reason)⟩
    rw [List.countP_append, h.inFlight]
    rfl
  unfold runBurst
  dsimp only
  split
  · exact hskip .refused
  · split
    · exact hskip .concurrency
    · rename_i hroom
      refine ⟨?_, ?_, hall (disciplined_started options clock)⟩
      · rw [List.countP_append, h.inFlight]
        rfl
      · exact Int.add_one_le_of_lt (not_le.mp hroom)

theorem running_of_settle {b b' : BurstRun} {outcome : Outcome} {clock : Clock}
    (h : b.settle outcome clock = some b') : b.running = true :=
  running_iff.mpr (Nat.zero_lt_of_lt (remaining_settle h))

theorem bounded_settle (h : Bounded p) {i : ℕ} {b b' : BurstRun} {outcome : Outcome} {clock : Clock}
    (hb : p.bursts[i]? = some b) (hsettle : b.settle outcome clock = some b') (now : ℚ) :
    Bounded ⟨if b'.running then p.inFlight else p.inFlight - 1, p.bursts.set i b', now⟩ := by
  obtain ⟨hi, hget⟩ := List.getElem?_eq_some_iff.mp hb
  have hmem : b ∈ p.bursts := hget ▸ List.getElem_mem hi
  have hrunning := running_of_settle hsettle
  have hpos : 0 < p.bursts.countP BurstRun.running := List.countP_pos_iff.mpr ⟨b, hmem, hrunning⟩
  refine ⟨?_, ?_, ?_⟩
  · dsimp only
    rw [List.countP_set hi, hget, if_pos hrunning, h.inFlight]
    split
    · omega
    · omega
  · have hmost := h.most
    dsimp only
    split
    · exact hmost
    · omega
  · intro c hc
    rcases List.mem_or_eq_of_mem_set hc with hc | rfl
    · exact h.disciplined c hc
    · exact disciplined_settle (h.disciplined b hmem) hsettle

theorem stepProcess_start {p p' : Process} {options : RunBurstOptions} {clock : Clock} :
    stepProcess p (.start options clock) = some p' ↔ p.now ≤ clock.read 0 ∧
      p' = ⟨(runBurst p.inFlight options clock).1,
        p.bursts ++ [(runBurst p.inFlight options clock).2], clock.read 4⟩ := by
  by_cases hnow : p.now ≤ clock.read 0
  · rw [stepProcess, if_pos hnow, Option.some_inj]
    exact ⟨fun h => ⟨hnow, h.symm⟩, fun h => h.2.symm⟩
  · simp [stepProcess, hnow]

theorem stepProcess_settle {p p' : Process} {i : ℕ} {outcome : Outcome} {clock : Clock} :
    stepProcess p (.settle i outcome clock) = some p' ↔ p.now ≤ clock.read 0 ∧
      ∃ b b', p.bursts[i]? = some b ∧ b.settle outcome clock = some b' ∧
        p' = ⟨if b'.running then p.inFlight else p.inFlight - 1, p.bursts.set i b',
          clock.read 4⟩ := by
  by_cases hnow : p.now ≤ clock.read 0
  · rw [stepProcess, if_pos hnow, Option.bind_eq_some_iff]
    simp only [Option.map_eq_some_iff]
    constructor
    · rintro ⟨b, hb, b', hsettle, rfl⟩
      exact ⟨hnow, b, b', hb, hsettle, rfl⟩
    · rintro ⟨-, b, b', hb, hsettle, rfl⟩
      exact ⟨b, hb, b', hsettle, rfl⟩
  · simp [stepProcess, hnow]

theorem bounded_step (p : Process) (action : Action) (p' : Process) (h : Bounded p)
    (hstep : stepProcess p action = some p') : Bounded p' := by
  cases action with
  | start options clock =>
    obtain ⟨-, rfl⟩ := stepProcess_start.mp hstep
    exact bounded_start h options clock _
  | settle i outcome clock =>
    obtain ⟨-, b, b', hb, hsettle, rfl⟩ := stepProcess_settle.mp hstep
    exact bounded_settle h hb hsettle _

theorem bounded_reachable (h : process.Reachable p) : Bounded p :=
  h.induct ⟨rfl, by decide, fun _ h => absurd h List.not_mem_nil⟩
    fun p action p' _ hp hstep => bounded_step p action p' hp hstep

/-- A clock that stands still. -/
def still (now : ℚ) : Clock := ⟨fun _ => now, fun _ => le_rfl⟩

/-- A step that a burst waits for can settle in any way, at any time. -/
theorem settle_step {i : ℕ} {b : BurstRun} (hb : p.bursts[i]? = some b) {outcome : Outcome}
    (hawaits : Awaits b outcome) (clock : Clock) (hnow : p.now ≤ clock.read 0) :
    ∃ p' b', stepProcess p (.settle i outcome clock) = some p' ∧ p'.bursts[i]? = some b' ∧
      remaining b' < remaining b ∧
      p'.inFlight = if b'.running then p.inFlight else p.inFlight - 1 := by
  obtain ⟨b', hsettle⟩ := Option.isSome_iff_exists.mp (settle_of_awaits clock hawaits)
  obtain ⟨hi, -⟩ := List.getElem?_eq_some_iff.mp hb
  refine ⟨_, b', stepProcess_settle.mpr ⟨hnow, b, b', hb, hsettle, rfl⟩, ?_,
    remaining_settle hsettle, rfl⟩
  exact List.getElem?_set_self hi

theorem returns {i : ℕ} {b : BurstRun} (hb : p.bursts[i]? = some b) :
    ∃ acts p' b' record, acts.length ≤ remaining b ∧
      (∀ action ∈ acts, ∃ outcome clock, action = Action.settle i outcome clock) ∧
      process.execFrom p acts = some p' ∧ p'.bursts[i]? = some b' ∧
      b'.phase = .returned record := by
  induction hn : remaining b using Nat.strong_induction_on generalizing p b with
  | _ n ih =>
    cases hrunning : b.running with
    | false =>
      unfold BurstRun.running at hrunning
      cases hphase : b.phase with
      | returned record =>
        exact ⟨[], p, b, record, Nat.zero_le _, fun _ h => absurd h List.not_mem_nil, rfl, hb,
          hphase⟩
      | _ =>
        rw [hphase] at hrunning
        cases hrunning
    | true =>
      obtain ⟨next, b', hstep, hb', hless, -⟩ :=
        settle_step hb (awaits_deadlineOf hrunning) (still p.now) le_rfl
      obtain ⟨acts, p', last, record, hlength, hown, hexec, hlast, hrecord⟩ :=
        ih _ (hn ▸ hless) hb' rfl
      refine ⟨.settle i (deadlineOf b) (still p.now) :: acts, p', last, record, ?_, ?_, ?_, hlast,
        hrecord⟩
      · rw [List.length_cons]
        omega
      · intro action haction
        rcases List.mem_cons.mp haction with rfl | haction
        · exact ⟨_, _, rfl⟩
        · exact hown action haction
      · exact Option.bind_eq_some_iff.mpr ⟨next, hstep, hexec⟩

theorem refusedAddress_eq (allowPrivate : Bool) (entry : ResolvedAddress) :
    refusedAddress allowPrivate entry =
      (Net.Egress.refusedClass ⟨.monitor, allowPrivate⟩ entry).isSome := by
  unfold refusedAddress Net.Egress.refusedClass
  dsimp only
  split
  · rfl
  · split
    · rename_i hrefused
      exact hrefused
    · rename_i hallowed
      exact Bool.eq_false_iff.mpr hallowed

/-- The discipline of bursts, whatever the transport does and however the bursts of a process
interleave.  The count of bursts in flight is the number of those that have not returned, two at
most.  A burst dials the first address of an answer all of which the policy allows, and its record
has the first steps in order, of which only the last can have failed.  A step that a burst waits for
can settle in every way, which brings the burst nearer to its record, and its own steps alone bring
it there. -/
theorem runBurst_discipline (acts : List Action) (p : Process)
    (hrun : process.exec acts = some p) :
    p.inFlight = p.bursts.countP BurstRun.running ∧ p.bursts.countP BurstRun.running ≤ 2 ∧
    (∀ b ∈ p.bursts, (∀ call ∈ b.calls, ∀ address, call.address = some address →
        ∃ first rest, b.answer = some (first :: rest) ∧ address = first.address ∧
          ∀ entry ∈ first :: rest,
            Net.Egress.refusedClass ⟨.monitor, b.options.allowPrivate⟩ entry = none) ∧
      ∀ record, b.phase = .returned record → Initial b.options.target record.steps) ∧
    (∀ i b, p.bursts[i]? = some b →
      (∀ outcome clock, Awaits b outcome → p.now ≤ clock.read 0 →
        ∃ p' b', stepProcess p (.settle i outcome clock) = some p' ∧ p'.bursts[i]? = some b' ∧
          remaining b' < remaining b ∧
          p'.inFlight = if b'.running then p.inFlight else p.inFlight - 1) ∧
      ∃ own p' b' record, own.length ≤ 4 ∧
        (∀ action ∈ own, ∃ outcome clock, action = Action.settle i outcome clock) ∧
        process.execFrom p own = some p' ∧ p'.bursts[i]? = some b' ∧
        b'.phase = .returned record) ∧
    ∀ options clock, p.now ≤ clock.read 0 →
      ∃ p' b, stepProcess p (.start options clock) = some p' ∧ p'.bursts = p.bursts ++ [b] ∧
        p'.inFlight = if b.running then p.inFlight + 1 else p.inFlight := by
  have h := bounded_reachable ⟨acts, hrun⟩
  have hmost : (p.bursts.countP BurstRun.running : ℤ) ≤ 2 := h.inFlight ▸ h.most
  refine ⟨h.inFlight, by exact_mod_cast hmost, fun b hb => ⟨fun call hcall address haddress => ?_,
    fun record hrecord => ?_⟩, fun i b hb =>
      ⟨fun outcome clock hawaits hnow => settle_step hb hawaits clock hnow, ?_⟩,
    fun options clock hnow => ?_⟩
  · obtain ⟨first, rest, hanswer, hfirst, hallowed⟩ := (h.disciplined b hb).dials call hcall address
      haddress
    refine ⟨first, rest, hanswer, hfirst, fun entry hentry => ?_⟩
    have hentry := hallowed entry hentry
    rwa [refusedAddress_eq, Option.isSome_eq_false_iff, Option.isNone_iff_eq_none] at hentry
  · have hordered := (h.disciplined b hb).ordered
    unfold Ordered at hordered
    rwa [hrecord] at hordered
  · obtain ⟨own, p', b', record, hlength, hrest⟩ := returns hb
    refine ⟨own, p', b', record, hlength.trans ?_, hrest⟩
    unfold remaining
    split <;> decide
  · refine ⟨_, _, stepProcess_start.mpr ⟨hnow, rfl⟩, rfl, ?_⟩
    unfold runBurst
    dsimp only
    split
    · rfl
    · split <;> rfl

/-- A burst that resolves, connects and has nothing to request. -/
def quiet : RunBurstOptions where
  target := ⟨js "a", some 25, none, js "GET", false⟩
  allowPrivate := false
  ranAt := []

def quietRun : List Action :=
  [.start quiet (still 0), .settle 0 (.lookup (.resolved [⟨js "8.8.8.8", 4⟩])) (still 0),
    .settle 0 (.connect (.resolved none)) (still 0)]

theorem quietRun_disciplined : (process.exec quietRun).isSome = true ∧
    (process.reached quietRun).inFlight =
      (process.reached quietRun).bursts.countP BurstRun.running := by
  have hruns : (process.exec quietRun).isSome = true := by decide +kernel
  exact ⟨hruns, (runBurst_discipline quietRun _ (Lib.Machine.exec_reached hruns)).1⟩

end Vigil.Incidents.Burst
