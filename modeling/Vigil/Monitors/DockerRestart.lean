import Vigil.Monitors.Conditions
import Mathlib.Data.List.DropRight
import Mathlib.Data.List.Infix

/-! The restart memory of Docker checks, `types/docker-restart.ts`, and the part of `performCheck`
that folds it: the samples that are kept on the monitor, the sentence that a rise of the count inside
the window puts on the facts, and the hold that keeps a degraded sample from closing the incident.
Instants are milliseconds, restarts are whole numbers, and an inspect carries whatever facts the probe
read. -/

namespace Vigil.Monitors.DockerRestart

open Js.Text Js.Object Ledger.Canonical Ledger.JsonText StatusController Conditions

def maxSamples : ℕ := 2000

structure DockerRestartSample where
  time : ℤ
  count : ℤ
  deriving DecidableEq, Repr

/-- What a row remembers of its container. -/
structure DockerCheckState where
  containerId : Option JsString
  samples : List DockerRestartSample
  holdResolve : Bool
  deriving DecidableEq, Repr

/-- How many restarts in which window are a loop. -/
structure DockerConfig where
  restartLoopEnabled : Bool
  restartLoopThreshold : ℕ
  restartLoopWindowMinutes : ℕ
  deriving DecidableEq, Repr

def restartLoopReason (restarts : ℤ) (windowMinutes : ℕ) : JsString :=
  js "restart loop: " ++ js (toString restarts) ++ js " restarts in " ++
    js (toString windowMinutes) ++ js " min"

/-- The span in which restarts count, in milliseconds. -/
def DockerConfig.window (config : DockerConfig) : ℤ := config.restartLoopWindowMinutes * 60000

/-- The state after an inspect of a container, and the sentence about a restart loop. -/
def assessDockerState (config : DockerConfig) (now : ℤ) (containerId : Option JsString)
    (restartCount : Option ℤ) (previous : Option DockerCheckState) :
    DockerCheckState × Option JsString :=
  let holdResolve := (previous.map (·.holdResolve)).getD false
  match containerId, restartCount with
  | some containerId, some restartCount =>
    let baseline : DockerCheckState × Option JsString :=
      ({ containerId := some containerId, samples := [⟨now, restartCount⟩], holdResolve }, none)
    match previous.bind fun previous =>
        previous.samples.getLast?.map fun last => (previous, last) with
    | none => baseline
    | some (previous, last) =>
      if previous.containerId = some containerId ∧ restartCount ≥ last.count then
        let cutoff := now - config.window
        if last.time < cutoff then baseline
        else
          let kept := previous.samples.filter fun sample => cutoff ≤ sample.time
          let newest : DockerRestartSample := ⟨now, restartCount⟩
          let samples := (kept ++ [newest]).rtake maxSamples
          let increase : ℤ := ((samples.head?).map fun oldest => restartCount - oldest.count).getD 0
          ({ containerId := some containerId, samples, holdResolve },
            if config.restartLoopEnabled ∧ increase ≥ config.restartLoopThreshold then
              some (restartLoopReason increase config.restartLoopWindowMinutes)
            else none)
      else baseline
  | _, _ => (previous.getD { containerId := none, samples := [], holdResolve }, none)

def nextHoldResolve (previous : Bool) (verdict : Verdict) (restartLoop unhealthyDown : Bool) :
    Bool :=
  if verdict = .up then false
  else if verdict = .down ∧ (restartLoop ∨ unhealthyDown) then true
  else previous

/-- One check of a container: its instant and what the probe measured. -/
structure Inspect where
  now : ℤ
  probe : ProbeResult

def Inspect.containerId (i : Inspect) : Option JsString :=
  match (JsObject.of i.probe.facts).get (js "containerId") with
  | .string id => some id
  | _ => none

def Inspect.restartCount (i : Inspect) : Option ℤ :=
  match (JsObject.of i.probe.facts).get (js "restartCount") with
  | .number (.integer count) => some count
  | _ => none

/-- `foldDockerRestart`: the sentence goes onto the facts. -/
def foldDockerRestart (config : DockerConfig) (previous : Option DockerCheckState) (i : Inspect) :
    ProbeResult × DockerCheckState :=
  let (state, reason) := assessDockerState config i.now i.containerId i.restartCount previous
  let restartLoop : JsValue :=
    match reason with
    | some text => .string text
    | none => .null
  ({ i.probe with facts := setEntry i.probe.facts (js "restartLoop", restartLoop) }, state)

structure Checked where
  facts : Entries
  judgment : Judgment
  dockerState : DockerCheckState

/-- Whether the facts carry the sentence. -/
def reportsLoop (facts : Entries) : Bool :=
  match (JsObject.of facts).get (js "restartLoop") with
  | .string text => text ≠ []
  | _ => false

def Judgment.unhealthyDown (judgment : Judgment) : Bool :=
  judgment.failedAssertions.contains (js "health-down")

/-- `performCheck` of a container, for the assertions that its check type declares. -/
def performCheck (assertions : List (Assertion DockerConfig)) (config : DockerConfig)
    (previous : Option DockerCheckState) (i : Inspect) : Checked :=
  let (probe, state) := foldDockerRestart config previous i
  let judged := judge assertions config probe
  { facts := probe.facts
    judgment := judged
    dockerState :=
      { state with
        holdResolve := nextHoldResolve state.holdResolve judged.verdict (reportsLoop probe.facts)
          (Judgment.unhealthyDown judged) } }

/-- What `recordCheckOutcome` asks of the controller after a check. -/
def Checked.reconciled (checked : Checked) (spec : StatusSpec) (firstFailureAt : Option ℤ)
    (previousStatus : MonitorStatus) (now : ℤ) : Reconciliation :=
  reconcile spec
    { verdict := checked.judgment.verdict
      firstFailureAt
      previousStatus
      now
      degradedResolves := some (checked.dockerState.holdResolve != true) }

section Run

variable (assertions : List (Assertion DockerConfig)) (config : DockerConfig)

/-- The state on the monitor after a run of checks. -/
def memory (run : List Inspect) : Option DockerCheckState :=
  run.foldl (fun previous i => some (performCheck assertions config previous i).dockerState) none

/-- The check that comes next. -/
def checked (run : List Inspect) (i : Inspect) : Checked :=
  performCheck assertions config (memory assertions config run) i

end Run

/-! ### What a restart loop is -/

/-- An inspect that names the container and its count. -/
structure Sample where
  containerId : JsString
  time : ℤ
  count : ℤ
  deriving DecidableEq, Repr

def Inspect.sample? (i : Inspect) : Option Sample :=
  i.containerId.bind fun containerId =>
    i.restartCount.map fun count => { containerId, time := i.now, count }

/-- Whether a sample goes on with the run of its predecessor. -/
def Continues (config : DockerConfig) (last s : Sample) : Prop :=
  s.containerId = last.containerId ∧ last.count ≤ s.count ∧ s.time - last.time ≤ config.window

instance (config : DockerConfig) (last s : Sample) : Decidable (Continues config last s) :=
  inferInstanceAs (Decidable (_ ∧ _))

def extendRun (config : DockerConfig) (run : List Sample) (s : Sample) : List Sample :=
  match run.getLast? with
  | some last => if Continues config last s then run ++ [s] else [s]
  | none => [s]

/-- The samples since the last one that started a run. -/
def baselineRun (config : DockerConfig) (samples : List Sample) : List Sample :=
  samples.foldl (extendRun config) []

/-- The samples of the current run that are no older than the window when `newest` is taken. -/
def inWindow (config : DockerConfig) (samples : List Sample) (newest : Sample) : List Sample :=
  (baselineRun config samples).filter fun s => newest.time - config.window ≤ s.time

/-- The restarts from the first of some samples to `newest`. -/
def restartsSince (newest : Sample) (samples : List Sample) : ℤ :=
  ((samples.head?).map fun first => newest.count - first.count).getD 0

/-! ### The newest of a list -/

section Newest

variable {α : Type}

theorem rtake_append_rtake (n : ℕ) (l : List α) (a : α) :
    (l.rtake n ++ [a]).rtake n = (l ++ [a]).rtake n := by
  cases n with
  | zero => rw [List.rtake_zero, List.rtake_zero]
  | succ n =>
    rw [List.rtake_concat_succ, List.rtake_concat_succ]
    congr 1
    rw [List.rtake_eq_reverse_take_reverse, List.rtake_eq_reverse_take_reverse,
      List.rtake_eq_reverse_take_reverse, List.reverse_reverse, List.take_take,
      Nat.min_eq_left (Nat.le_succ n)]

theorem filter_take_of_pairwise {p : α → Bool} {l : List α}
    (h : l.Pairwise fun a b => p b = true → p a = true) (n : ℕ) :
    (l.take n).filter p = (l.filter p).take n := by
  induction l generalizing n with
  | nil => rw [List.take_nil, List.filter_nil, List.take_nil]
  | cons a l ih =>
    obtain ⟨hfirst, hrest⟩ := List.pairwise_cons.mp h
    cases n with
    | zero => rw [List.take_zero, List.take_zero, List.filter_nil]
    | succ n =>
      rw [List.take_succ_cons]
      by_cases ha : p a = true
      · rw [List.filter_cons_of_pos ha, List.filter_cons_of_pos ha, List.take_succ_cons, ih hrest]
      · have hnone : ∀ b ∈ l, ¬p b = true := fun b hb hpb => ha (hfirst b hb hpb)
        rw [List.filter_cons_of_neg ha, List.filter_cons_of_neg ha,
          List.filter_eq_nil_iff.mpr fun b hb => hnone b (List.mem_of_mem_take hb),
          List.filter_eq_nil_iff.mpr hnone, List.take_nil]

/-- In a list in which what passes a test is followed by what passes it, the newest of those that pass
are those that pass of the newest, if there are so many. -/
theorem filter_rtake_of_pairwise {p : α → Bool} {l : List α}
    (h : l.Pairwise fun a b => p a = true → p b = true) (n : ℕ) :
    (l.rtake n).filter p = (l.filter p).rtake n := by
  rw [List.rtake_eq_reverse_take_reverse, List.rtake_eq_reverse_take_reverse, List.filter_reverse,
    filter_take_of_pairwise (List.pairwise_reverse.mpr h), List.filter_reverse]

theorem rtake_of_length_le {n : ℕ} {l : List α} (h : l.length ≤ n) : l.rtake n = l := by
  rw [List.rtake, Nat.sub_eq_zero_of_le h, List.drop_zero]

theorem map_rtake {β : Type} (f : α → β) (l : List α) (n : ℕ) :
    (l.map f).rtake n = (l.rtake n).map f := by
  rw [List.rtake, List.rtake, List.length_map, List.map_drop]

theorem getLast?_rtake {n : ℕ} (hn : 0 < n) (l : List α) : (l.rtake n).getLast? = l.getLast? := by
  obtain ⟨n, rfl⟩ := Nat.exists_eq_succ_of_ne_zero hn.ne'
  cases l using List.reverseRecOn with
  | nil => rw [List.rtake_nil]
  | append_singleton l a => rw [List.rtake_concat_succ, List.getLast?_concat, List.getLast?_concat]

end Newest

/-! ### The samples that are kept -/

section Kept

variable {config : DockerConfig}

theorem baselineRun_concat (samples : List Sample) (s : Sample) :
    baselineRun config (samples ++ [s]) = extendRun config (baselineRun config samples) s := by
  rw [baselineRun, List.foldl_append]
  rfl

theorem baselineRun_getLast? (config : DockerConfig) (samples : List Sample) :
    (baselineRun config samples).getLast? = samples.getLast? := by
  cases samples using List.reverseRecOn with
  | nil => rfl
  | append_singleton samples s =>
    rw [baselineRun_concat, List.getLast?_concat, extendRun]
    split
    · split
      · rw [List.getLast?_concat]
      · rfl
    · rfl

/-- A run is an end of the samples, and its counts do not fall. -/
theorem baselineRun_spec (config : DockerConfig) (samples : List Sample) :
    baselineRun config samples <:+ samples ∧
      (baselineRun config samples).Pairwise fun a b => a.count ≤ b.count := by
  induction samples using List.reverseRecOn with
  | nil => exact ⟨List.suffix_refl _, List.Pairwise.nil⟩
  | append_singleton samples s ih =>
    obtain ⟨hsuffix, hcounts⟩ := ih
    rw [baselineRun_concat, extendRun]
    split
    · rename_i last hlast
      split
      · rename_i hcontinues
        obtain ⟨before, hrun⟩ := List.getLast?_eq_some_iff.mp hlast
        refine ⟨List.suffix_append_self_iff.mpr hsuffix,
          List.pairwise_append.mpr ⟨hcounts, List.pairwise_singleton _ _, fun a ha b hb => ?_⟩⟩
        obtain rfl := List.mem_singleton.mp hb
        refine le_trans ?_ hcontinues.2.1
        rw [hrun] at ha hcounts
        rcases List.mem_append.mp ha with ha | ha
        · exact (List.pairwise_append.mp hcounts).2.2 a ha last List.mem_cons_self
        · rw [List.mem_singleton.mp ha]
      · exact ⟨List.suffix_append _ _, List.pairwise_singleton _ _⟩
    · exact ⟨List.suffix_append _ _, List.pairwise_singleton _ _⟩

theorem window_nonneg (config : DockerConfig) : 0 ≤ config.window := by
  rw [DockerConfig.window]
  positivity

theorem filter_newest (config : DockerConfig) (s : Sample) :
    [s].filter (fun a => decide (s.time - config.window ≤ a.time)) = [s] := by
  have hnonneg := window_nonneg config
  rw [List.filter_singleton, decide_eq_true (by omega), cond_true]

variable {samples : List Sample} {s : Sample} {previous : Option DockerCheckState}

theorem inWindow_getLast? (config : DockerConfig) {last : Sample}
    (hlast : samples.getLast? = some last) :
    (inWindow config samples last).getLast? = some last := by
  rw [← baselineRun_getLast? config] at hlast
  obtain ⟨before, hrun⟩ := List.getLast?_eq_some_iff.mp hlast
  rw [inWindow, hrun, List.filter_append, filter_newest, List.getLast?_concat]

def Sample.kept (s : Sample) : DockerRestartSample := ⟨s.time, s.count⟩

/-- What a state remembers of the samples so far: the newest of those that still count. -/
def Remembers (config : DockerConfig) (samples : List Sample) (previous : Option DockerCheckState) :
    Prop :=
  match samples.getLast? with
  | none => ∀ state, previous = some state → state.samples = []
  | some last => ∃ state, previous = some state ∧ state.containerId = some last.containerId ∧
      state.samples = ((inWindow config samples last).rtake maxSamples).map Sample.kept

theorem inWindow_started (hstarts : extendRun config (baselineRun config samples) s = [s]) :
    inWindow config (samples ++ [s]) s = [s] := by
  rw [inWindow, baselineRun_concat, hstarts, filter_newest]

theorem remembers_started {samples : List Sample} {s : Sample} {holdResolve : Bool}
    (hstarts : extendRun config (baselineRun config samples) s = [s]) :
    Remembers config (samples ++ [s])
        (some { containerId := some s.containerId, samples := [s.kept], holdResolve }) ∧
      restartsSince s ((inWindow config (samples ++ [s]) s).rtake maxSamples) = 0 := by
  have hone : [s].rtake maxSamples = [s] := rtake_of_length_le (Nat.succ_le_succ (Nat.zero_le _))
  constructor
  · rw [Remembers, List.getLast?_concat]
    refine ⟨_, rfl, rfl, ?_⟩
    rw [inWindow_started hstarts, hone, List.map_singleton]
  · rw [inWindow_started hstarts, hone]
    exact sub_self s.count

/-- Pruning what is kept by age, and to so many, is pruning the run so. -/
theorem kept_concat {last s : Sample}
    (htimes : (samples ++ [s]).Pairwise fun a b => a.time < b.time)
    (hlast : samples.getLast? = some last) (hcontinues : Continues config last s) :
    ((((inWindow config samples last).rtake maxSamples).map Sample.kept).filter
        (fun kept => decide (s.time - config.window ≤ kept.time)) ++ [s.kept]).rtake maxSamples =
      ((inWindow config (samples ++ [s]) s).rtake maxSamples).map Sample.kept := by
  obtain ⟨htimes, -, hnewest⟩ := List.pairwise_append.mp htimes
  have hmem : last ∈ samples := List.mem_of_getLast? hlast
  have hlater : last.time < s.time := hnewest last hmem s List.mem_cons_self
  have hnonneg := window_nonneg config
  have hsorted : (inWindow config samples last).Pairwise fun a b =>
      decide (s.time - config.window ≤ a.time) = true →
        decide (s.time - config.window ≤ b.time) = true := by
    have hrun := (baselineRun_spec config samples).1.sublist
    refine ((htimes.sublist hrun).sublist List.filter_sublist).imp fun hab ha => ?_
    have ha := of_decide_eq_true ha
    exact decide_eq_true (by omega)
  have hnext : inWindow config (samples ++ [s]) s =
      (inWindow config samples last).filter
        (fun kept => decide (s.time - config.window ≤ kept.time)) ++ [s] := by
    have hgetLast := (baselineRun_getLast? config samples).trans hlast
    rw [inWindow, inWindow, baselineRun_concat, extendRun, hgetLast]
    dsimp only
    rw [if_pos hcontinues, List.filter_append, List.filter_filter, filter_newest]
    congr 1
    refine List.filter_congr fun a _ => ?_
    by_cases ha : s.time - config.window ≤ a.time
    · rw [decide_eq_true ha, decide_eq_true (by omega), Bool.and_self]
    · rw [decide_eq_false ha, Bool.false_and]
  have hkept : (fun kept : DockerRestartSample => decide (s.time - config.window ≤ kept.time)) ∘
      Sample.kept = fun kept : Sample => decide (s.time - config.window ≤ kept.time) := rfl
  rw [hnext, List.filter_map, hkept, filter_rtake_of_pairwise hsorted, ← List.map_singleton,
    ← List.map_append, map_rtake, rtake_append_rtake]

/-- Whether the sample goes on with what the state last remembers. -/
def Resumes (config : DockerConfig) (previous : Option DockerCheckState) (s : Sample) : Prop :=
  ∃ state last, previous = some state ∧ state.samples.getLast? = some last ∧
    state.containerId = some s.containerId ∧ last.count ≤ s.count ∧
    s.time - config.window ≤ last.time

theorem assess_started (h : ¬Resumes config previous s) : ∃ holdResolve,
      assessDockerState config s.time (some s.containerId) (some s.count) previous =
        ({ containerId := some s.containerId, samples := [s.kept], holdResolve }, none) := by
  unfold assessDockerState
  dsimp only
  split
  · exact ⟨_, rfl⟩
  · rename_i state last hmatched
    obtain ⟨found, rfl, hfound⟩ := Option.bind_eq_some_iff.mp hmatched
    obtain ⟨_, hlast, hpair⟩ := Option.map_eq_some_iff.mp hfound
    cases hpair
    split
    · rename_i hsame
      rw [if_pos]
      · exact ⟨_, rfl⟩
      · by_contra hclose
        exact h ⟨_, _, rfl, hlast, hsame.1, hsame.2, not_lt.mp hclose⟩
    · exact ⟨_, rfl⟩

theorem assess_resumed (h : Resumes config previous s) :
    ∃ state holdResolve, previous = some state ∧
      ∀ samples, samples = ((state.samples.filter fun kept =>
          s.time - config.window ≤ kept.time) ++ [s.kept]).rtake maxSamples →
        assessDockerState config s.time (some s.containerId) (some s.count) previous =
          ({ containerId := some s.containerId, samples, holdResolve },
            if config.restartLoopEnabled ∧
                ((samples.head?).map fun oldest => s.count - oldest.count).getD 0 ≥
                  config.restartLoopThreshold then
              some (restartLoopReason (((samples.head?).map fun oldest =>
                s.count - oldest.count).getD 0) config.restartLoopWindowMinutes)
            else none) := by
  obtain ⟨state, last, rfl, hlast, hid, hcount, hclose⟩ := h
  refine ⟨state, state.holdResolve, rfl, fun samples hsamples => ?_⟩
  unfold assessDockerState
  dsimp only
  rw [Option.bind_some, hlast]
  dsimp only [Option.map_some]
  rw [if_pos ⟨hid, hcount⟩, if_neg (not_lt.mpr hclose), hsamples]
  rfl

theorem resumes_iff (h : Remembers config samples previous) :
    Resumes config previous s ↔ ∃ last, samples.getLast? = some last ∧ Continues config last s := by
  cases hlast : samples.getLast? with
  | none =>
    rw [Remembers, hlast] at h
    constructor
    · rintro ⟨state, last, rfl, hnewest, -⟩
      rw [h state rfl] at hnewest
      cases hnewest
    · rintro ⟨last, hlast, -⟩
      cases hlast
  | some last =>
    rw [Remembers, hlast] at h
    obtain ⟨state, rfl, hcontainer, hsamples⟩ := h
    have hnewest : state.samples.getLast? = some last.kept := by
      have hpos : 0 < maxSamples := Nat.succ_pos _
      rw [hsamples, List.getLast?_map, getLast?_rtake hpos, inWindow_getLast? config hlast]
      rfl
    constructor
    · rintro ⟨_, kept, hstate, hkept, hid, hcount, hclose⟩
      cases hstate
      obtain rfl := Option.some.inj (hnewest.symm.trans hkept)
      refine ⟨last, rfl, Option.some.inj (hid.symm.trans hcontainer), hcount, ?_⟩
      change s.time - config.window ≤ last.time at hclose
      omega
    · rintro ⟨_, hfound, hid, hcount, hclose⟩
      cases hfound
      refine ⟨state, last.kept, rfl, hnewest, hcontainer.trans (congrArg some hid.symm), hcount, ?_⟩
      show s.time - config.window ≤ last.time
      omega

theorem extendRun_started (h : ¬∃ last, samples.getLast? = some last ∧ Continues config last s) :
    extendRun config (baselineRun config samples) s = [s] := by
  rw [extendRun, baselineRun_getLast? config]
  split
  · rename_i last hlast
    exact if_neg fun hcontinues => h ⟨last, hlast, hcontinues⟩
  · rfl

/-- A complete sample keeps the memory, and is reported by what it remembers. -/
theorem assess_sample (hthreshold : 1 ≤ config.restartLoopThreshold)
    (henabled : config.restartLoopEnabled = true)
    (htimes : (samples ++ [s]).Pairwise fun a b => a.time < b.time)
    (h : Remembers config samples previous) : Remembers config (samples ++ [s])
        (some (assessDockerState config s.time (some s.containerId) (some s.count) previous).1) ∧
      ((assessDockerState config s.time (some s.containerId) (some s.count) previous).2.isSome =
          true ↔
        (config.restartLoopThreshold : ℤ) ≤
          restartsSince s ((inWindow config (samples ++ [s]) s).rtake maxSamples)) := by
  by_cases hresumes : Resumes config previous s
  · obtain ⟨last, hlast, hcontinues⟩ := (resumes_iff h).mp hresumes
    obtain ⟨state, holdResolve, rfl, hassess⟩ := assess_resumed hresumes
    rw [Remembers, hlast] at h
    obtain ⟨_, hstate, -, hsamples⟩ := h
    cases hstate
    have hkept := kept_concat htimes hlast hcontinues
    rw [← hsamples] at hkept
    rw [hassess _ hkept.symm]
    constructor
    · rw [Remembers, List.getLast?_concat]
      refine ⟨_, rfl, rfl, ?_⟩
      dsimp only
    · have hincrease : ((((inWindow config (samples ++ [s]) s).rtake maxSamples).map
          Sample.kept).head?.map fun oldest => s.count - oldest.count).getD 0 =
            restartsSince s ((inWindow config (samples ++ [s]) s).rtake maxSamples) := by
        rw [restartsSince, List.head?_map, Option.map_map]
        rfl
      dsimp only
      rw [hincrease]
      by_cases hloop : (config.restartLoopThreshold : ℤ) ≤
          restartsSince s ((inWindow config (samples ++ [s]) s).rtake maxSamples)
      · rw [if_pos ⟨henabled, hloop⟩]
        exact iff_of_true rfl hloop
      · rw [if_neg fun hboth => hloop hboth.2]
        exact iff_of_false (by simp) hloop
  · obtain ⟨holdResolve, hassess⟩ := assess_started hresumes
    have hstarts := extendRun_started fun hlast => hresumes ((resumes_iff h).mpr hlast)
    obtain ⟨hremembers, hzero⟩ := @remembers_started config samples s holdResolve hstarts
    rw [hassess, hzero]
    refine ⟨hremembers, ?_⟩
    simp only [Option.isSome_none, Bool.false_eq_true, false_iff, not_le]
    omega

theorem Remembers.held {state : DockerCheckState} (h : Remembers config samples (some state))
    (holdResolve : Bool) : Remembers config samples (some { state with holdResolve }) := by
  cases hlast : samples.getLast? with
  | none =>
    rw [Remembers, hlast] at h ⊢
    intro held hheld
    cases hheld
    exact h state rfl
  | some last =>
    rw [Remembers, hlast] at h ⊢
    obtain ⟨_, hstate, hid, hsamples⟩ := h
    cases hstate
    exact ⟨_, rfl, hid, hsamples⟩

theorem Remembers.getD (h : Remembers config samples previous) (holdResolve : Bool) :
    Remembers config samples
      (some (previous.getD { containerId := none, samples := [], holdResolve })) := by
  cases previous with
  | some state => exact h
  | none =>
    cases hlast : samples.getLast? with
    | none =>
      rw [Remembers, hlast]
      intro state hstate
      cases hstate
      rfl
    | some last =>
      rw [Remembers, hlast] at h
      obtain ⟨_, hnone, -⟩ := h
      cases hnone

theorem assess_incomplete {i : Inspect} (h : i.sample? = none)
    (previous : Option DockerCheckState) :
    assessDockerState config i.now i.containerId i.restartCount previous =
      (previous.getD { containerId := none, samples := []
                       holdResolve := (previous.map (·.holdResolve)).getD false }, none) := by
  rw [Inspect.sample?] at h
  unfold assessDockerState
  cases hid : i.containerId with
  | none => rfl
  | some containerId =>
    cases hcount : i.restartCount with
    | none => rfl
    | some count =>
      rw [hid, hcount] at h
      cases h

theorem assess_holdResolve (config : DockerConfig) (now : ℤ) (containerId : Option JsString) (restartCount : Option ℤ)
    (previous : Option DockerCheckState) :
    (assessDockerState config now containerId restartCount previous).1.holdResolve =
      (previous.map (·.holdResolve)).getD false := by
  unfold assessDockerState
  dsimp only
  split
  · split
    · rfl
    · split
      · split
        · rfl
        · rfl
      · rfl
  · cases previous with
    | none => rfl
    | some state => rfl

end Kept

/-! ### Runs of checks -/

section Run

variable {assertions : List (Assertion DockerConfig)} {config : DockerConfig}

theorem memory_concat (run : List Inspect) (i : Inspect) :
    memory assertions config (run ++ [i]) =
      some (checked assertions config run i).dockerState := by
  rw [memory, List.foldl_append]
  rfl

theorem sample?_eq_some {i : Inspect} {s : Sample} (h : i.sample? = some s) :
    i.containerId = some s.containerId ∧ i.restartCount = some s.count ∧ i.now = s.time := by
  obtain ⟨containerId, hid, h⟩ := Option.bind_eq_some_iff.mp h
  obtain ⟨count, hcount, rfl⟩ := Option.map_eq_some_iff.mp h
  exact ⟨hid, hcount, rfl⟩

theorem samples_times {run : List Inspect} (h : run.Pairwise fun a b => a.now < b.now) :
    (run.filterMap Inspect.sample?).Pairwise fun a b => a.time < b.time := by
  refine List.Pairwise.filterMap _ (fun a b hab s hs r hr => ?_) h
  rw [← (sample?_eq_some hs).2.2, ← (sample?_eq_some hr).2.2]
  exact hab

theorem memory_remembers (assertions : List (Assertion DockerConfig))
    (hthreshold : 1 ≤ config.restartLoopThreshold)
    (henabled : config.restartLoopEnabled = true) {run : List Inspect}
    (h : run.Pairwise fun a b => a.now < b.now) :
    Remembers config (run.filterMap Inspect.sample?) (memory assertions config run) := by
  induction run using List.reverseRecOn with
  | nil =>
    intro state hstate
    cases hstate
  | append_singleton run i ih =>
    have hbefore := ih (List.pairwise_append.mp h).1
    rw [memory_concat, List.filterMap_append]
    suffices hassess : Remembers config
        (run.filterMap Inspect.sample? ++ [i].filterMap Inspect.sample?)
        (some (assessDockerState config i.now i.containerId i.restartCount
          (memory assertions config run)).1) from hassess.held _
    cases hsample : i.sample? with
    | none =>
      rw [assess_incomplete hsample, List.filterMap_cons_none hsample, List.filterMap_nil,
        List.append_nil]
      exact hbefore.getD _
    | some s =>
      obtain ⟨hid, hcount, hnow⟩ := sample?_eq_some hsample
      have htimes := samples_times h
      rw [List.filterMap_append, List.filterMap_cons_some hsample, List.filterMap_nil] at htimes
      rw [hid, hcount, hnow, List.filterMap_cons_some hsample, List.filterMap_nil]
      exact (assess_sample hthreshold henabled htimes hbefore).1

theorem restartLoopReason_ne_nil (restarts : ℤ) (windowMinutes : ℕ) :
    restartLoopReason restarts windowMinutes ≠ [] := by
  intro hnil
  simp only [restartLoopReason, List.append_eq_nil_iff] at hnil
  exact absurd hnil.1.1.1.1 (by decide +kernel)

theorem assess_reason {now : ℤ} {containerId : Option JsString} {restartCount : Option ℤ}
    {previous : Option DockerCheckState} {reason : JsString}
    (h : (assessDockerState config now containerId restartCount previous).2 = some reason) :
    reason ≠ [] := by
  unfold assessDockerState at h
  dsimp only at h
  split at h
  · split at h
    · cases h
    · split at h
      · split at h
        · cases h
        · obtain ⟨-, h⟩ := Option.ite_none_right_eq_some.mp h
          exact Option.some.inj h ▸ restartLoopReason_ne_nil _ _
      · cases h
  · cases h

theorem reportsLoop_iff (run : List Inspect) (i : Inspect) :
    reportsLoop (checked assertions config run i).facts = true ↔
      (assessDockerState config i.now i.containerId i.restartCount
        (memory assertions config run)).2.isSome = true := by
  have hfacts : ∀ value, (JsObject.of (setEntry i.probe.facts (js "restartLoop", value))).get
      (js "restartLoop") = value := by
    intro value
    rw [JsObject.get, JsObject.of, lookup_setEntry, if_pos rfl]
  cases hreason : (assessDockerState config i.now i.containerId i.restartCount
      (memory assertions config run)).2 with
  | none =>
    have hset : (checked assertions config run i).facts =
        setEntry i.probe.facts (js "restartLoop", .null) := by
      rw [checked, performCheck, foldDockerRestart]
      dsimp only
      rw [hreason]
    rw [hset, reportsLoop, hfacts]
    simp
  | some reason =>
    have hset : (checked assertions config run i).facts =
        setEntry i.probe.facts (js "restartLoop", .string reason) := by
      rw [checked, performCheck, foldDockerRestart]
      dsimp only
      rw [hreason]
    rw [hset, reportsLoop, hfacts]
    simp [assess_reason hreason]

theorem restartsSince_rtake_le (config : DockerConfig) {samples : List Sample} {s : Sample} (n : ℕ)
    (hnewest : samples.getLast? = some s) (hn : 0 < n) :
    restartsSince s ((inWindow config samples s).rtake n) ≤
      restartsSince s (inWindow config samples s) := by
  have hcounts : (inWindow config samples s).Pairwise fun a b => a.count ≤ b.count :=
    (baselineRun_spec config samples).2.sublist List.filter_sublist
  have hlast := inWindow_getLast? config hnewest
  rw [← getLast?_rtake hn] at hlast
  cases hkept : (inWindow config samples s).rtake n with
  | nil =>
    rw [hkept] at hlast
    cases hlast
  | cons b kept =>
    cases hall : inWindow config samples s with
    | nil =>
      rw [hall, List.rtake_nil] at hkept
      cases hkept
    | cons a rest =>
      have hb : b ∈ a :: rest := by
        have hmem : b ∈ (inWindow config samples s).rtake n := hkept ▸ List.mem_cons_self
        exact hall ▸ List.mem_of_mem_drop hmem
      show s.count - b.count ≤ s.count - a.count
      rw [hall] at hcounts
      rcases List.mem_cons.mp hb with rfl | hb
      · exact le_rfl
      · have hle := (List.pairwise_cons.mp hcounts).1 b hb
        omega

theorem checked_holdResolve (run : List Inspect) (i : Inspect) :
    (checked assertions config run i).dockerState.holdResolve =
      nextHoldResolve (((memory assertions config run).map (·.holdResolve)).getD false)
        (checked assertions config run i).judgment.verdict
        (reportsLoop (checked assertions config run i).facts)
        (Judgment.unhealthyDown (checked assertions config run i).judgment) := by
  rw [← assess_holdResolve config i.now i.containerId i.restartCount]
  rfl

theorem held_until_up {before after : List Inspect} {i : Inspect}
    (hdown : (checked assertions config before i).judgment.verdict = .down)
    (hcause : reportsLoop (checked assertions config before i).facts = true ∨
      Judgment.unhealthyDown (checked assertions config before i).judgment = true)
    (hafter : ∀ earlier k, earlier ++ [k] <+: after →
      (checked assertions config (before ++ i :: earlier) k).judgment.verdict ≠ .up) :
    ∃ state, memory assertions config (before ++ i :: after) = some state ∧
      state.holdResolve = true := by
  induction after using List.reverseRecOn with
  | nil =>
    refine ⟨_, memory_concat before i, ?_⟩
    rw [checked_holdResolve, hdown, nextHoldResolve, if_neg (by decide), if_pos ⟨rfl, hcause⟩]
  | append_singleton after j ih =>
    obtain ⟨state, hstate, hheld⟩ := ih fun earlier k hpre =>
      hafter earlier k (hpre.trans (List.prefix_append _ _))
    have hnotUp := hafter after j (List.prefix_refl _)
    rw [← List.cons_append, ← List.append_assoc]
    refine ⟨_, memory_concat _ j, ?_⟩
    rw [checked_holdResolve, hstate, nextHoldResolve, if_neg hnotUp]
    split
    · rfl
    · exact hheld

/-- What is reported counts the restarts since the oldest of the newest samples in the window. -/
theorem reportsLoop_sample (assertions : List (Assertion DockerConfig)) (config : DockerConfig)
    (hthreshold : 1 ≤ config.restartLoopThreshold) (henabled : config.restartLoopEnabled = true)
    {before : List Inspect} {i : Inspect}
    (htimes : (before ++ [i]).Pairwise fun a b => a.now < b.now) {s : Sample}
    (hsample : i.sample? = some s) :
    (before ++ [i]).filterMap Inspect.sample? = before.filterMap Inspect.sample? ++ [s] ∧
      (reportsLoop (checked assertions config before i).facts = true ↔
        (config.restartLoopThreshold : ℤ) ≤ restartsSince s ((inWindow config
          ((before ++ [i]).filterMap Inspect.sample?) s).rtake maxSamples)) := by
  obtain ⟨hid, hcount, hnow⟩ := sample?_eq_some hsample
  have hsplit : (before ++ [i]).filterMap Inspect.sample? =
      before.filterMap Inspect.sample? ++ [s] := by
    rw [List.filterMap_append, List.filterMap_cons_some hsample, List.filterMap_nil]
  have hbefore := memory_remembers assertions hthreshold henabled
    (List.pairwise_append.mp htimes).1
  have hreported := (assess_sample hthreshold henabled (hsplit ▸ samples_times htimes) hbefore).2
  rw [← hid, ← hcount, ← hnow, ← reportsLoop_iff, ← hsplit] at hreported
  exact ⟨hsplit, hreported⟩

/-- The sentence is on the facts of a complete sample if and only if the restarts in the window reach
the threshold, as long as no restart has been crowded out of what is kept; and a hold lets nothing be
resolved before a verdict of up. -/
theorem restart_window_held (assertions : List (Assertion DockerConfig)) (config : DockerConfig)
    (before : List Inspect) (i : Inspect) :
    (config.restartLoopEnabled = true → 1 ≤ config.restartLoopThreshold →
      (before ++ [i]).Pairwise (fun a b => a.now < b.now) →
      (i.sample? = none → reportsLoop (checked assertions config before i).facts = false) ∧
      ∀ s samples, i.sample? = some s → samples = (before ++ [i]).filterMap Inspect.sample? →
        ((reportsLoop (checked assertions config before i).facts = true ↔
            (config.restartLoopThreshold : ℤ) ≤ restartsSince s (inWindow config samples s)) ↔
          (inWindow config samples s).length ≤ maxSamples ∨
          (config.restartLoopThreshold : ℤ) ≤
            restartsSince s ((inWindow config samples s).rtake maxSamples) ∨
          restartsSince s (inWindow config samples s) < config.restartLoopThreshold)) ∧
    ((checked assertions config before i).judgment.verdict = .down →
      reportsLoop (checked assertions config before i).facts = true ∨
        Judgment.unhealthyDown (checked assertions config before i).judgment = true →
      ∀ after j, (∀ earlier k, earlier ++ [k] <+: after ++ [j] →
          (checked assertions config (before ++ i :: earlier) k).judgment.verdict ≠ .up) →
        ∀ spec firstFailureAt previousStatus now,
          ((checked assertions config (before ++ i :: after) j).reconciled spec firstFailureAt
            previousStatus now).resolveIncidents = false) := by
  refine ⟨fun henabled hthreshold htimes => ⟨fun hsample => ?_, ?_⟩, ?_⟩
  · rw [← Bool.not_eq_true, reportsLoop_iff, assess_incomplete hsample]
    simp
  · rintro s samples hsample rfl
    obtain ⟨hsplit, hreported⟩ :=
      reportsLoop_sample assertions config hthreshold henabled htimes hsample
    have hnewest : ((before ++ [i]).filterMap Inspect.sample?).getLast? = some s := by
      rw [hsplit, List.getLast?_concat]
    have hle := restartsSince_rtake_le config maxSamples hnewest (Nat.succ_pos _)
    rw [hreported]
    constructor
    · intro hiff
      by_cases hloop : (config.restartLoopThreshold : ℤ) ≤
          restartsSince s (inWindow config ((before ++ [i]).filterMap Inspect.sample?) s)
      · exact Or.inr (Or.inl (hiff.mpr hloop))
      · exact Or.inr (Or.inr (not_le.mp hloop))
    · rintro (hfew | hkept | hnone)
      · rw [rtake_of_length_le hfew]
      · exact iff_of_true hkept (hkept.trans hle)
      · exact iff_of_false (fun hkept => by omega) (by omega)
  · intro hdown hcause after j hafter spec firstFailureAt previousStatus now
    obtain ⟨state, hstate, hheld⟩ := held_until_up hdown hcause hafter
    have hnotUp := hafter after j (List.prefix_refl _)
    rw [← List.cons_append, ← List.append_assoc, memory_concat] at hstate
    cases hstate
    show resolves _ _ = false
    rw [hheld, resolves]
    simp [hnotUp]

end Run

/-! ### A day's window at two samples a minute -/

/-- Three restarts in a day. -/
def overADay : DockerConfig where
  restartLoopEnabled := true
  restartLoopThreshold := 3
  restartLoopWindowMinutes := 1440

/-- An inspect of one container. -/
def containerAt (now count : ℤ) : Inspect where
  now
  probe :=
    { facts := [(js "containerId", .string (js "c")), (js "restartCount", .number (.integer count))]
      error := none
      unavailable := none }

/-- The restarts come between the first sample and the second. -/
def restarted (n : ℕ) : List Inspect :=
  containerAt 0 0 :: (List.range n).map fun k : ℕ => containerAt (30000 * ((k : ℤ) + 1)) 3

def restartedSample (k : ℕ) : Sample := ⟨js "c", 30000 * (k + 1), 3⟩

theorem sample?_containerAt (now count : ℤ) :
    (containerAt now count).sample? = some ⟨js "c", now, count⟩ := by
  rfl

variable (n : ℕ)

theorem samples_restarted : (restarted n).filterMap Inspect.sample? =
      ⟨js "c", 0, 0⟩ :: (List.range n).map restartedSample := by
  rw [restarted, List.filterMap_cons_some (sample?_containerAt 0 0), List.filterMap_map]
  congr 1
  rw [← List.filterMap_eq_map]
  rfl

theorem baselineRun_restarted :
    baselineRun overADay (⟨js "c", 0, 0⟩ :: (List.range n).map restartedSample) =
      ⟨js "c", 0, 0⟩ :: (List.range n).map restartedSample := by
  induction n with
  | zero => rfl
  | succ n ih =>
    rw [List.range_succ, List.map_append, ← List.cons_append, List.map_singleton,
      baselineRun_concat, ih, extendRun]
    cases n with
    | zero => rfl
    | succ n =>
      rw [List.range_succ, List.map_append, ← List.cons_append, List.map_singleton,
        List.getLast?_concat]
      refine if_pos ⟨rfl, le_rfl, ?_⟩
      rw [restartedSample, restartedSample, overADay, DockerConfig.window]
      push_cast
      omega

theorem inWindow_restarted (hn : n ≤ 2000) :
    inWindow overADay (⟨js "c", 0, 0⟩ :: (List.range (n + 1)).map restartedSample)
        (restartedSample n) =
      ⟨js "c", 0, 0⟩ :: (List.range (n + 1)).map restartedSample := by
  rw [inWindow, baselineRun_restarted]
  refine List.filter_eq_self.mpr fun s hs => decide_eq_true ?_
  have hwindow : overADay.window = 86400000 := rfl
  have htime : 0 ≤ s.time := by
    rcases List.mem_cons.mp hs with rfl | hs
    · exact le_rfl
    · obtain ⟨k, -, rfl⟩ := List.mem_map.mp hs
      show (0 : ℤ) ≤ 30000 * (k + 1)
      omega
  have hnewest : (restartedSample n).time = 30000 * (n + 1) := rfl
  omega

theorem restarted_times : (restarted n).Pairwise fun a b => a.now < b.now := by
  refine List.pairwise_cons.mpr ⟨fun i hi => ?_, List.pairwise_map.mpr ?_⟩
  · obtain ⟨k, -, rfl⟩ := List.mem_map.mp hi
    show (0 : ℤ) < 30000 * (k + 1)
    omega
  · refine List.pairwise_lt_range.imp fun {a b} hab => ?_
    show (30000 * (a + 1) : ℤ) < 30000 * (b + 1)
    omega

/-- With the 2001st sample the first one is dropped, and three restarts in the window go unsaid. -/
theorem crowded_out :
    ∃ before i s, restarted 2000 = before ++ [i] ∧ i.sample? = some s ∧
      ((restarted 2000).Pairwise fun a b => a.now < b.now) ∧
      restartsSince s (inWindow overADay ((restarted 2000).filterMap Inspect.sample?) s) = 3 ∧
      reportsLoop (checked [] overADay before i).facts = false := by
  have hsplit : restarted 2000 = restarted 1999 ++ [containerAt (30000 * ((1999 : ℕ) + 1)) 3] := by
    rw [restarted, List.range_succ, List.map_append]
    rfl
  have hsample : (containerAt (30000 * ((1999 : ℕ) + 1)) 3).sample? = some (restartedSample 1999) :=
    sample?_containerAt _ _
  have hwindow : inWindow overADay ((restarted 2000).filterMap Inspect.sample?)
      (restartedSample 1999) = ⟨js "c", 0, 0⟩ :: (List.range 2000).map restartedSample := by
    rw [samples_restarted]
    exact inWindow_restarted 1999 (by decide)
  refine ⟨_, _, restartedSample 1999, hsplit, hsample, restarted_times 2000, ?_, ?_⟩
  · rw [hwindow]
    rfl
  · have htimes := restarted_times 2000
    rw [hsplit] at htimes hwindow
    obtain ⟨-, hreported⟩ :=
      reportsLoop_sample [] overADay (by decide) rfl htimes hsample
    have hkept : (⟨js "c", 0, 0⟩ :: (List.range 2000).map restartedSample).rtake maxSamples =
        (List.range 2000).map restartedSample := by
      rw [List.rtake, List.length_cons, List.length_map, List.length_range, maxSamples,
        Nat.add_sub_cancel_left, List.drop_one, List.tail_cons]
    rw [← Bool.not_eq_true, hreported, hwindow, hkept, restartsSince, List.head?_map,
      List.head?_range]
    decide

theorem restart_window_held_early :
    reportsLoop (checked [] overADay (restarted 0) (containerAt 30000 3)).facts = true := by
  obtain ⟨-, hreported⟩ :=
    (restart_window_held [] overADay (restarted 0) (containerAt 30000 3)).1 rfl (by decide)
      (restarted_times 1)
  have hwindow : inWindow overADay ((restarted 0 ++ [containerAt 30000 3]).filterMap Inspect.sample?)
      (restartedSample 0) = [⟨js "c", 0, 0⟩, restartedSample 0] := by
    decide +kernel
  refine ((hreported (restartedSample 0) _ (sample?_containerAt _ _) rfl).mpr (Or.inl ?_)).mpr ?_
  · rw [hwindow]
    exact Nat.succ_le_succ (Nat.succ_le_succ (Nat.zero_le _))
  · rw [hwindow]
    decide

end Vigil.Monitors.DockerRestart
