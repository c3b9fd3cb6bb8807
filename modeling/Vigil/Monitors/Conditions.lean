import Vigil.Js.Object
import Vigil.Monitors.StatusController
import Mathlib.Data.List.Perm.Basic

/-! The condition engine of `types/conditions.ts`: what a probe measured is judged by the assertions
that its check type declares.  A fact is any value of the language, and an assertion any function of
the fact that it reads. -/

namespace Vigil.Monitors.Conditions

open Js.Text Js.Object Ledger.Canonical StatusController

/-- What an assertion that fails makes of the verdict. -/
inductive Severity where
  | down
  | degraded
  deriving DecidableEq, Repr

/-- A rule over one fact of a check. -/
structure Assertion (Config : Type) where
  id : JsString
  /-- The fact that the assertion reads. -/
  fact : JsString
  severity : Severity
  applies : Option (Config → Bool)
  /-- The failure message, unless the assertion holds. -/
  evaluate : JsValue → Config → Option JsString

structure ProbeResult where
  facts : Entries
  error : Option JsString
  unavailable : Option JsString

/-- Why a check is not up. -/
inductive FailureClass where
  | transport
  | assertion
  | misconfigured
  deriving DecidableEq, Repr

/-- The verdict on a check. -/
structure Judgment where
  verdict : Verdict
  ok : Bool
  degraded : Bool
  failureClass : Option FailureClass
  error : Option JsString
  failedAssertions : List JsString
  deriving DecidableEq, Repr

/-- An assertion that fails, with its message. -/
structure Failure where
  id : JsString
  message : JsString
  deriving DecidableEq, Repr

/-- A text that a condition finds true: one that is there and not empty. -/
def stated (text : Option JsString) : Option JsString := text.filter (· ≠ [])

variable {Config : Type}

/-- The message of an assertion that applies and does not hold. -/
def Assertion.failure? (config : Config) (facts : Entries) (a : Assertion Config) :
    Option JsString :=
  if a.applies.any fun applies => !applies config then none
  else a.evaluate ((JsObject.of facts).get a.fact) config

/-- One round of the loop of `judge`, with the failures of both severities so far. -/
def sift (config : Config) (facts : Entries) (failed : List Failure × List Failure)
    (a : Assertion Config) : List Failure × List Failure :=
  match a.failure? config facts with
  | none => failed
  | some message =>
    match a.severity with
    | .down => (failed.1 ++ [⟨a.id, message⟩], failed.2)
    | .degraded => (failed.1, failed.2 ++ [⟨a.id, message⟩])

/-- An unavailable probe is no evidence, a failed one is down, and any other is judged by the
assertions in their order. -/
def judge (assertions : List (Assertion Config)) (config : Config) (result : ProbeResult) :
    Judgment :=
  match stated result.unavailable with
  | some reason =>
    { verdict := .indeterminate, ok := false, degraded := false
      failureClass := some .misconfigured, error := some reason, failedAssertions := [] }
  | none =>
    match stated result.error with
    | some reason =>
      { verdict := .down, ok := false, degraded := false
        failureClass := some .transport, error := some reason, failedAssertions := [] }
    | none =>
      let (failedDown, failedDegraded) := assertions.foldl (sift config result.facts) ([], [])
      let failedAssertions := (failedDown ++ failedDegraded).map (·.id)
      match failedDown with
      | first :: _ =>
        { verdict := .down, ok := false, degraded := false
          failureClass := some .assertion, error := some first.message, failedAssertions }
      | [] =>
        match failedDegraded with
        | first :: _ =>
          { verdict := .degraded, ok := true, degraded := true
            failureClass := none, error := some first.message, failedAssertions }
        | [] =>
          { verdict := .up, ok := true, degraded := false
            failureClass := none, error := none, failedAssertions := [] }

/-! ### What the loop finds -/

/-- The assertions that apply and do not hold, in the order of their declaration. -/
def failing (assertions : List (Assertion Config)) (config : Config) (facts : Entries) :
    List (Assertion Config) :=
  assertions.filter fun a => (a.failure? config facts).isSome

/-- The assertions of a severity. -/
def ofSeverity (severity : Severity) (assertions : List (Assertion Config)) :
    List (Assertion Config) :=
  assertions.filter fun a => a.severity = severity

/-- What the loop keeps of a failing assertion. -/
def report (config : Config) (facts : Entries) (a : Assertion Config) : Failure :=
  ⟨a.id, (a.failure? config facts).getD []⟩

theorem foldl_sift (config : Config) (facts : Entries) (assertions : List (Assertion Config))
    (failed : List Failure × List Failure) :
    assertions.foldl (sift config facts) failed =
      (failed.1 ++
        (ofSeverity .down (failing assertions config facts)).map (report config facts),
       failed.2 ++
        (ofSeverity .degraded (failing assertions config facts)).map (report config facts)) := by
  induction assertions generalizing failed with
  | nil => simp [failing, ofSeverity]
  | cons a assertions ih =>
    rw [List.foldl_cons, ih]
    cases hfails : a.failure? config facts with
    | none =>
      have hcons : failing (a :: assertions) config facts = failing assertions config facts :=
        List.filter_cons_of_neg (by rw [hfails]; exact Bool.false_ne_true)
      rw [sift, hfails, hcons]
    | some message =>
      have hreport : report config facts a = ⟨a.id, message⟩ := by
        rw [report, hfails]
        rfl
      have hcons : failing (a :: assertions) config facts =
          a :: failing assertions config facts :=
        List.filter_cons_of_pos (by rw [hfails]; rfl)
      rw [sift, hfails, hcons]
      cases hseverity : a.severity with
      | down => simp [ofSeverity, hseverity, hreport]
      | degraded => simp [ofSeverity, hseverity, hreport]

/-- Whether an assertion of this severity applies and does not hold. -/
def Fails (severity : Severity) (assertions : List (Assertion Config)) (config : Config)
    (facts : Entries) : Prop :=
  ∃ a ∈ assertions, a.severity = severity ∧ (a.failure? config facts).isSome = true

instance (severity : Severity) (assertions : List (Assertion Config)) (config : Config)
    (facts : Entries) : Decidable (Fails severity assertions config facts) :=
  inferInstanceAs (Decidable (∃ a ∈ assertions, _))

theorem Fails.perm {severity : Severity} {assertions assertions' : List (Assertion Config)}
    (h : assertions.Perm assertions') {config : Config} {facts : Entries} :
    Fails severity assertions config facts ↔ Fails severity assertions' config facts :=
  ⟨fun ⟨a, ha, hfails⟩ => ⟨a, h.mem_iff.mp ha, hfails⟩,
    fun ⟨a, ha, hfails⟩ => ⟨a, h.mem_iff.mpr ha, hfails⟩⟩

theorem ofSeverity_failing_eq_nil {severity : Severity} {assertions : List (Assertion Config)}
    {config : Config} {facts : Entries} :
    ofSeverity severity (failing assertions config facts) = [] ↔
      ¬Fails severity assertions config facts := by
  rw [ofSeverity, failing, List.filter_filter, List.filter_eq_nil_iff]
  simp only [Fails, Bool.and_eq_true, decide_eq_true_eq, not_exists, not_and]

/-! ### The judgment -/

/-- Whether the assertions are looked at at all. -/
def Measured (result : ProbeResult) : Prop :=
  stated result.unavailable = none ∧ stated result.error = none

/-- The verdict as the engine means it, by severities alone. -/
def verdictOf (assertions : List (Assertion Config)) (config : Config) (result : ProbeResult) :
    Verdict :=
  if (stated result.unavailable).isSome then .indeterminate
  else if (stated result.error).isSome ∨ Fails .down assertions config result.facts then .down
  else if Fails .degraded assertions config result.facts then .degraded
  else .up

/-- The severity that decided a verdict. -/
def deciding : Verdict → Option Severity
  | .down => some .down
  | .degraded => some .degraded
  | .up | .indeterminate => none

section Judge

variable {assertions : List (Assertion Config)} {config : Config} {result : ProbeResult}

theorem judge_unavailable {reason : JsString} (h : stated result.unavailable = some reason) :
    judge assertions config result =
      { verdict := .indeterminate, ok := false, degraded := false
        failureClass := some .misconfigured, error := some reason, failedAssertions := [] } := by
  rw [judge, h]

theorem judge_errored (h : stated result.unavailable = none) {reason : JsString}
    (herror : stated result.error = some reason) :
    judge assertions config result =
      { verdict := .down, ok := false, degraded := false
        failureClass := some .transport, error := some reason, failedAssertions := [] } := by
  rw [judge, h, herror]

/-- The judgment of a result that was measured, by the failing assertions of both severities. -/
theorem judge_measured (h : Measured result) :
    judge assertions config result =
      (let failedDown := ofSeverity .down (failing assertions config result.facts)
      let failedDegraded := ofSeverity .degraded (failing assertions config result.facts)
      let failedAssertions := (failedDown ++ failedDegraded).map (·.id)
      match failedDown with
      | first :: _ =>
        { verdict := .down, ok := false, degraded := false
          failureClass := some .assertion
          error := some (report config result.facts first).message, failedAssertions }
      | [] =>
        match failedDegraded with
        | first :: _ =>
          { verdict := .degraded, ok := true, degraded := true
            failureClass := none
            error := some (report config result.facts first).message, failedAssertions }
        | [] =>
          { verdict := .up, ok := true, degraded := false
            failureClass := none, error := none, failedAssertions := [] }) := by
  rw [judge, h.1, h.2]
  dsimp only
  rw [foldl_sift]
  dsimp only [List.nil_append]
  have hids : ∀ l : List (Assertion Config),
      (l.map (report config result.facts)).map (·.id) = l.map (·.id) := fun l => by
    rw [List.map_map]
    rfl
  rw [List.map_append, hids, hids, ← List.map_append]
  cases ofSeverity .down (failing assertions config result.facts) with
  | cons first rest => rfl
  | nil =>
    cases ofSeverity .degraded (failing assertions config result.facts) with
    | cons first rest => rfl
    | nil => rfl

theorem judge_verdict (assertions : List (Assertion Config)) (config : Config)
    (result : ProbeResult) :
    (judge assertions config result).verdict = verdictOf assertions config result := by
  rw [verdictOf]
  cases hunavailable : stated result.unavailable with
  | some reason =>
    rw [judge_unavailable hunavailable]
    rfl
  | none =>
    rw [if_neg (show ¬(none : Option JsString).isSome = true from Bool.false_ne_true)]
    cases herror : stated result.error with
    | some reason => rw [judge_errored hunavailable herror, if_pos (.inl rfl)]
    | none =>
      rw [judge_measured ⟨hunavailable, herror⟩]
      cases hdown : ofSeverity .down (failing assertions config result.facts) with
      | cons first rest =>
        have hfails : Fails .down assertions config result.facts := by
          by_contra hnot
          rw [ofSeverity_failing_eq_nil.mpr hnot] at hdown
          cases hdown
        rw [if_pos (.inr hfails)]
      | nil =>
        have hnot : ¬((none : Option JsString).isSome = true ∨
            Fails .down assertions config result.facts) :=
          not_or.mpr ⟨Bool.false_ne_true, ofSeverity_failing_eq_nil.mp hdown⟩
        rw [if_neg hnot]
        cases hdegraded : ofSeverity .degraded (failing assertions config result.facts) with
        | cons first rest =>
          have hfails : Fails .degraded assertions config result.facts := by
            by_contra hnot
            rw [ofSeverity_failing_eq_nil.mpr hnot] at hdegraded
            cases hdegraded
          rw [if_pos hfails]
        | nil => rw [if_neg (ofSeverity_failing_eq_nil.mp hdegraded)]

/-- What the verdict leaves open of a judgment's class. -/
def classOf (result : ProbeResult) : Verdict → Option FailureClass
  | .indeterminate => some .misconfigured
  | .down => some (if (stated result.error).isSome then .transport else .assertion)
  | .up | .degraded => none

/-- The verdict settles the rest of the judgment, but for the texts and ids. -/
theorem judge_flags (assertions : List (Assertion Config)) (config : Config)
    (result : ProbeResult) :
    (judge assertions config result).ok =
        ((judge assertions config result).verdict = .up ∨
          (judge assertions config result).verdict = .degraded : Bool) ∧
      (judge assertions config result).degraded =
        ((judge assertions config result).verdict = .degraded : Bool) ∧
      (judge assertions config result).failureClass =
        classOf result (judge assertions config result).verdict := by
  cases hunavailable : stated result.unavailable with
  | some reason =>
    rw [judge_unavailable hunavailable]
    exact ⟨rfl, rfl, rfl⟩
  | none =>
    cases herror : stated result.error with
    | some reason =>
      rw [judge_errored hunavailable herror, classOf, herror]
      exact ⟨rfl, rfl, rfl⟩
    | none =>
      rw [judge_measured ⟨hunavailable, herror⟩]
      cases ofSeverity .down (failing assertions config result.facts) with
      | cons first rest =>
        refine ⟨rfl, rfl, ?_⟩
        rw [classOf, herror]
        rfl
      | nil =>
        cases ofSeverity .degraded (failing assertions config result.facts) with
        | cons first rest => exact ⟨rfl, rfl, rfl⟩
        | nil => exact ⟨rfl, rfl, rfl⟩

theorem verdictOf_perm {assertions' : List (Assertion Config)} (h : assertions.Perm assertions')
    (config : Config) (result : ProbeResult) :
    verdictOf assertions config result = verdictOf assertions' config result := by
  simp only [verdictOf, Fails.perm h]

/-- The text is that of the first failing assertion of the severity that decided. -/
theorem judge_error (h : Measured result) :
    (judge assertions config result).error =
      (deciding (judge assertions config result).verdict).bind fun severity =>
        ((ofSeverity severity (failing assertions config result.facts)).head?).bind fun a =>
          a.failure? config result.facts := by
  have hmessage : ∀ severity first rest,
      ofSeverity severity (failing assertions config result.facts) = first :: rest →
      some (report config result.facts first).message = first.failure? config result.facts := by
    intro severity first rest hlist
    have hmem : first ∈ failing assertions config result.facts :=
      List.mem_of_mem_filter (hlist ▸ List.mem_cons_self)
    obtain ⟨message, hsome⟩ := Option.isSome_iff_exists.mp (List.mem_filter.mp hmem).2
    rw [report, hsome]
    rfl
  rw [judge_measured h]
  cases hdown : ofSeverity .down (failing assertions config result.facts) with
  | cons first rest =>
    show some _ = (ofSeverity .down (failing assertions config result.facts)).head?.bind _
    rw [hdown, hmessage .down first rest hdown]
    rfl
  | nil =>
    cases hdegraded : ofSeverity .degraded (failing assertions config result.facts) with
    | cons first rest =>
      show some _ = (ofSeverity .degraded (failing assertions config result.facts)).head?.bind _
      rw [hdegraded, hmessage .degraded first rest hdegraded]
      rfl
    | nil => rfl

/-- The ids of the failing assertions, those of severity `down` before the others. -/
theorem judge_failedAssertions (h : Measured result) :
    (judge assertions config result).failedAssertions =
      (ofSeverity .down (failing assertions config result.facts) ++
        ofSeverity .degraded (failing assertions config result.facts)).map (·.id) := by
  rw [judge_measured h]
  cases ofSeverity .down (failing assertions config result.facts) with
  | cons first rest => rfl
  | nil =>
    cases ofSeverity .degraded (failing assertions config result.facts) with
    | cons first rest => rfl
    | nil => rfl

end Judge

/-! ### The order of the ids -/

/-- No assertion of severity `degraded` stands before one of severity `down`. -/
def DownFirst (assertions : List (Assertion Config)) : Prop :=
  assertions.Pairwise fun a b => ¬(a.severity = .degraded ∧ b.severity = .down)

theorem ofSeverity_append_of_downFirst {assertions : List (Assertion Config)}
    (h : DownFirst assertions) :
    ofSeverity .down assertions ++ ofSeverity .degraded assertions = assertions := by
  induction assertions with
  | nil => rfl
  | cons a assertions ih =>
    obtain ⟨hfirst, hrest⟩ := List.pairwise_cons.mp h
    cases hseverity : a.severity with
    | down =>
      have hdown : ofSeverity .down (a :: assertions) = a :: ofSeverity .down assertions :=
        List.filter_cons_of_pos (by simp [hseverity])
      have hdegraded : ofSeverity .degraded (a :: assertions) = ofSeverity .degraded assertions :=
        List.filter_cons_of_neg (by simp [hseverity])
      rw [hdown, hdegraded, List.cons_append, ih hrest]
    | degraded =>
      have hnone : ofSeverity .down assertions = [] :=
        List.filter_eq_nil_iff.mpr fun b hb hdown =>
          hfirst b hb ⟨hseverity, of_decide_eq_true hdown⟩
      have hdown : ofSeverity .down (a :: assertions) = ofSeverity .down assertions :=
        List.filter_cons_of_neg (by simp [hseverity])
      have hdegraded :
          ofSeverity .degraded (a :: assertions) = a :: ofSeverity .degraded assertions :=
        List.filter_cons_of_pos (by simp [hseverity])
      have hrest := ih hrest
      rw [hnone, List.nil_append] at hrest
      rw [hdown, hnone, hdegraded, List.nil_append, hrest]

theorem downFirst_append (assertions : List (Assertion Config)) :
    DownFirst (ofSeverity .down assertions ++ ofSeverity .degraded assertions) := by
  have hof : ∀ severity, ∀ a ∈ ofSeverity severity assertions, a.severity = severity :=
    fun severity a ha => of_decide_eq_true (List.mem_filter.mp ha).2
  refine List.pairwise_append.mpr ⟨?_, ?_, fun a ha b _ hab => ?_⟩
  · refine List.pairwise_of_forall_mem_list fun a ha b _ hab => ?_
    rw [hof .down a ha] at hab
    cases hab.1
  · refine List.pairwise_of_forall_mem_list fun a _ b hb hab => ?_
    rw [hof .degraded b hb] at hab
    cases hab.2
  · rw [hof .down a ha] at hab
    cases hab.1

theorem eq_of_map_eq {α β : Type} {f : α → β} {l l' : List α}
    (hinj : ∀ a ∈ l, ∀ b ∈ l', f a = f b → a = b) (h : l.map f = l'.map f) : l = l' := by
  induction l generalizing l' with
  | nil => exact (List.map_eq_nil_iff.mp h.symm).symm
  | cons a l ih =>
    obtain ⟨b, rest, rfl, hb, hrest⟩ := List.map_eq_cons_iff.mp h.symm
    obtain rfl := hinj a List.mem_cons_self b List.mem_cons_self hb.symm
    rw [ih (fun c hc d hd => hinj c (List.mem_cons_of_mem _ hc) d (List.mem_cons_of_mem _ hd))
      hrest.symm]

/-- Where the ids differ, they tell whether the order of the assertions was kept. -/
theorem ids_eq_iff {assertions : List (Assertion Config)}
    (hids : (assertions.map (·.id)).Nodup) :
    (ofSeverity .down assertions ++ ofSeverity .degraded assertions).map (·.id) =
      assertions.map (·.id) ↔ DownFirst assertions := by
  constructor
  · intro h
    have hsame : ofSeverity .down assertions ++ ofSeverity .degraded assertions = assertions := by
      refine eq_of_map_eq (fun a ha b hb hab => ?_) h
      rw [List.mem_append] at ha
      exact List.inj_on_of_nodup_map hids
        (ha.elim List.mem_of_mem_filter List.mem_of_mem_filter) hb hab
    rw [← hsame]
    exact downFirst_append assertions
  · intro h
    rw [ofSeverity_append_of_downFirst h]

/-- Bringing those of severity `down` to the front moves no id. -/
def IdsKept (assertions : List (Assertion Config)) : Prop :=
  (ofSeverity .down assertions ++ ofSeverity .degraded assertions).map (·.id) =
    assertions.map (·.id)

/-- The verdict is settled by the severities, the rest by the verdict, and no order of the assertions
changes them.  The ids of the failing assertions come in the order of their declaration if and only
if that order survives the exchange of the severities: where none of severity `degraded` is declared
before one of severity `down`, and, if the ids differ, only there. -/
theorem judgment_settled (assertions : List (Assertion Config)) (config : Config)
    (result : ProbeResult) :
    (judge assertions config result).verdict = verdictOf assertions config result ∧
    ((judge assertions config result).ok = true ↔
      (judge assertions config result).verdict = .up ∨
        (judge assertions config result).verdict = .degraded) ∧
    (∀ assertions' : List (Assertion Config), assertions.Perm assertions' →
      (judge assertions' config result).verdict = (judge assertions config result).verdict ∧
      (judge assertions' config result).ok = (judge assertions config result).ok ∧
      (judge assertions' config result).degraded = (judge assertions config result).degraded ∧
      (judge assertions' config result).failureClass =
        (judge assertions config result).failureClass) ∧
    (Measured result →
      (judge assertions config result).error =
        ((deciding (judge assertions config result).verdict).bind fun severity =>
          ((ofSeverity severity (failing assertions config result.facts)).head?).bind fun a =>
            a.failure? config result.facts) ∧
      ((judge assertions config result).failedAssertions =
          (failing assertions config result.facts).map (·.id) ↔
        IdsKept (failing assertions config result.facts))) ∧
    (DownFirst (failing assertions config result.facts) →
      IdsKept (failing assertions config result.facts)) ∧
    (((failing assertions config result.facts).map (·.id)).Nodup →
      (IdsKept (failing assertions config result.facts) ↔
        DownFirst (failing assertions config result.facts))) := by
  obtain ⟨hok, -, -⟩ := judge_flags assertions config result
  refine ⟨judge_verdict assertions config result, ?_, fun assertions' hperm => ?_,
    fun h => ⟨judge_error h, ?_⟩, fun hfirst => ?_, fun hids => ids_eq_iff hids⟩
  · rw [hok]
    simp only [decide_eq_true_eq]
  · have hverdict : (judge assertions' config result).verdict =
        (judge assertions config result).verdict := by
      rw [judge_verdict, judge_verdict, verdictOf_perm hperm]
    obtain ⟨hok', hdegraded', hclass'⟩ := judge_flags assertions' config result
    obtain ⟨-, hdegraded, hclass⟩ := judge_flags assertions config result
    refine ⟨hverdict, ?_, ?_, ?_⟩
    · rw [hok', hok, hverdict]
    · rw [hdegraded', hdegraded, hverdict]
    · rw [hclass', hclass, hverdict]
  · rw [judge_failedAssertions h, IdsKept]
  · rw [IdsKept, ofSeverity_append_of_downFirst hfirst]

/-! ### Two assertions -/

/-- The container has to run. -/
def isRunning : Assertion Unit where
  id := js "running"
  fact := js "running"
  severity := .down
  applies := none
  evaluate value _ :=
    match value with
    | .bool true => none
    | _ => some (js "The container is not running")

/-- The answer must not take too long. -/
def answersSlowly : Assertion Unit where
  id := js "latency"
  fact := js "responseTimeMs"
  severity := .degraded
  applies := none
  evaluate value _ :=
    match value with
    | .number (.integer 5000) => some (js "Answered in 5000ms, over the 3000ms threshold")
    | _ => none

/-- A container that was stopped, by a daemon that answered slowly. -/
def stoppedSlowly : ProbeResult where
  facts := [(js "responseTimeMs", .number (.integer 5000)), (js "running", .bool false)]
  error := none
  unavailable := none

/-- What is declared first is reported last. -/
theorem declared_last :
    (failing [answersSlowly, isRunning] () stoppedSlowly.facts).map (·.id) =
      [js "latency", js "running"] ∧
    (judge [answersSlowly, isRunning] () stoppedSlowly).failedAssertions =
      [js "running", js "latency"] ∧
    js "latency" ≠ js "running" := by
  decide +kernel

theorem judgment_settled_downFirst :
    (judge [isRunning, answersSlowly] () stoppedSlowly).failedAssertions =
      (failing [isRunning, answersSlowly] () stoppedSlowly.facts).map (·.id) :=
  have hsettled := judgment_settled [isRunning, answersSlowly] () stoppedSlowly
  (hsettled.2.2.2.1 ⟨rfl, rfl⟩).2.mpr
    (hsettled.2.2.2.2.1
      (List.Pairwise.sublist List.filter_sublist (by simp [isRunning, answersSlowly])))

end Vigil.Monitors.Conditions
