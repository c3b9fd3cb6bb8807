import Vigil.Bridge.Compare

/-! What the verdict `safe` of `compareBridge` stands for.  Each disqualifier is stated over the
events and the windows of the input, and the report is safe exactly when none applies.  The overlap
is rounded to tenths of an hour before it is compared with the least one, so a pair that was watched
for three minutes less than a day can pass. -/

namespace Vigil.Bridge.Verdict

open Lib.Spans Lib.Timeline Compare

/-! ### What a verdict is about -/

/-- The Vigil event that a source event claims, after those claimed already. -/
def claim (pair : ComparisonPair) (at_ : ℤ) (claimed : List String) (event : SourceEvent) :
    List String :=
  claimed ++ ((matchFor pair at_ claimed event).map (·.id)).toList

/-- A source event that Vigil was in a position to see and that outlived the failure window. -/
def Counts (pair : ComparisonPair) (event : SourceEvent) : Prop :=
  observedHere pair event = true ∧ belowFailureWindow pair event = false

/-- A source event that counts and for which, when its turn comes, no Vigil event is left. -/
def Missed (pair : ComparisonPair) (at_ : ℤ) (event : SourceEvent) : Prop :=
  ∃ before after, sourceOrder pair = before ++ event :: after ∧
    matchFor pair at_ (before.foldl (claim pair at_) []) event = none ∧ Counts pair event

/-- An open Vigil event that no source event has claimed, over a span that the polls looked at. -/
def OpenExtra (pair : ComparisonPair) (coverage : List CoverageWindow) (at_ : ℤ)
    (event : VigilEvent) : Prop :=
  event ∈ pair.vigilEvents ∧ event.end_ = none ∧
    event.id ∉ (sourceOrder pair).foldl (claim pair at_) [] ∧ provable coverage event = true

/-- The milliseconds during which the source evidence covers what Vigil was observing. -/
noncomputable def exactOverlapMs (input : ComparisonInput) (pair : ComparisonPair) : ℕ :=
  match pair.observedSince with
  | none => 0
  | some since => ((Finset.Ico since input.at_).filter fun t => Covered input.coverage t).card

/-- What an operator takes from the verdict `safe`. -/
structure Sound (input : ComparisonInput) : Prop where
  kept : ∀ pair ∈ input.pairs, wasImported pair = true ∧ pair.monitorId.isSome = true
  noMissed : ∀ pair ∈ input.pairs, ∀ event, ¬Missed pair input.at_ event
  noOpenExtra : ∀ pair ∈ input.pairs, ∀ event,
    ¬OpenExtra pair (mergeCoverage input.coverage) input.at_ event
  watched : ∀ pair ∈ input.pairs, MIN_COMPARISON_HOURS * 3600000 ≤ exactOverlapMs input pair

/-- Something speaks against the cutover.  A pair is watched too little when its overlap is under
23.95 hours. -/
inductive Disqualified (input : ComparisonInput) : Prop
  | leftOut {pair : ComparisonPair} (hpair : pair ∈ input.pairs) (h : wasImported pair = false)
  | deleted {pair : ComparisonPair} (hpair : pair ∈ input.pairs) (h : pair.monitorId = none)
  | uncompared {pair : ComparisonPair} (hpair : pair ∈ input.pairs) (h : pair.compared = false)
  | missed {pair : ComparisonPair} {event : SourceEvent} (hpair : pair ∈ input.pairs)
    (h : Missed pair input.at_ event)
  | openExtra {pair : ComparisonPair} {event : VigilEvent} (hpair : pair ∈ input.pairs)
    (h : OpenExtra pair (mergeCoverage input.coverage) input.at_ event)
  | polls (h : MAX_CONSECUTIVE_POLL_FAILURES ≤ input.consecutivePollFailures)
  | silent {pair : ComparisonPair} (hpair : pair ∈ input.pairs) (h : pair.vigilChecks = 0)
  | thin {pair : ComparisonPair} (hpair : pair ∈ input.pairs)
    (h : exactOverlapMs input pair < 86220000)

/-! ### Coverage -/

theorem sorted_windows (windows : List CoverageWindow) :
    (sortByTime Span.start (windows.filter fun w => w.stop > w.start)).Pairwise
      fun a b => a.start ≤ b.start :=
  sortByTime_pairwise _ _

theorem covered_mergeCoverage (windows : List CoverageWindow) (t : ℤ) :
    Covered (mergeCoverage windows) t ↔ Covered windows t := by
  rw [mergeCoverage, covered_coalesce (sorted_windows windows)]
  constructor
  · rintro ⟨w, hw, ht⟩
    exact ⟨w, List.mem_of_mem_filter ((mem_sortByTime _).mp hw), ht⟩
  · rintro ⟨w, hw, hstart, hstop⟩
    refine ⟨w, (mem_sortByTime _).mpr (List.mem_filter.mpr ⟨hw, ?_⟩), hstart, hstop⟩
    simp only [gt_iff_lt, decide_eq_true_eq]
    omega

variable (input : ComparisonInput) (pair : ComparisonPair)

theorem pairOverlap_eq (pair : ComparisonPair) :
    pairOverlap (mergeCoverage input.coverage) input.at_ pair =
      exactOverlapMs input pair / 3600000 := by
  unfold pairOverlap exactOverlapMs
  cases pair.observedSince with
  | none => simp
  | some since =>
    have hcard : overlap (mergeCoverage input.coverage) since input.at_ = _ :=
      overlap_eq_card (apart_coalesce (sorted_windows input.coverage)) since input.at_
    have hcovered : ((Finset.Ico since input.at_).filter fun t =>
          Covered (mergeCoverage input.coverage) t) =
        (Finset.Ico since input.at_).filter fun t => Covered input.coverage t := by
      simp only [covered_mergeCoverage]
    show overlapHours _ since input.at_ =
      (((Finset.Ico since input.at_).filter fun t => Covered input.coverage t).card : ℚ) / 3600000
    rw [overlapHours, ← hcovered, hcard, Int.cast_natCast]
    rfl

theorem roundTenths_lt_iff (n : ℕ) :
    roundTenths ((n : ℚ) / 3600000) < (MIN_COMPARISON_HOURS : ℕ) ↔ n < 86220000 := by
  have htenths : roundTenths ((n : ℚ) / 3600000) < (MIN_COMPARISON_HOURS : ℕ) ↔
      ⌊(n : ℚ) / 3600000 * 10 + 1 / 2⌋ < 240 := by
    rw [roundTenths, MIN_COMPARISON_HOURS, div_lt_iff₀ (by norm_num)]
    norm_num
    norm_cast
  rw [htenths, Int.floor_lt]
  constructor
  · intro h
    have : (n : ℚ) < 86220000 := by
      push_cast at h
      linarith
    exact_mod_cast this
  · intro h
    have : (n : ℚ) < 86220000 := by exact_mod_cast h
    push_cast
    linarith

/-! ### One pair -/

/-- A field that each step of a loop adds to is the sum of what was added. -/
theorem foldl_add {σ α : Type} {step : σ → α → σ} (f : σ → ℕ) (g : α → ℕ)
    (h : ∀ s a, f (step s a) = f s + g a) (l : List α) (s : σ) :
    f (l.foldl step s) = f s + (l.map g).sum := by
  induction l generalizing s with
  | nil => rfl
  | cons a l ih =>
    rw [List.foldl_cons, ih, h, List.map_cons, List.sum_cons, Nat.add_assoc]

theorem foldl_keeps {σ α : Type} {step : σ → α → σ} (f : σ → ℕ)
    (h : ∀ s a, f (step s a) = f s) (l : List α) (s : σ) : f (l.foldl step s) = f s := by
  induction l generalizing s with
  | nil => rfl
  | cons a l ih => rw [List.foldl_cons, ih, h]

theorem addUnmatched_missed (out : PairFindings) (event : SourceEvent) :
    (addUnmatched pair out event).missed = out.missed ∧ ¬Counts pair event ∨
      (addUnmatched pair out event).missed = out.missed + 1 ∧ Counts pair event := by
  unfold addUnmatched Counts
  cases observedHere pair event with
  | false => simp
  | true =>
    cases belowFailureWindow pair event with
    | false => simp
    | true =>
      cases event.end_.isSome with
      | false => simp
      | true => simp

theorem addUnmatched_openExtra (out : PairFindings) (event : SourceEvent) :
    (addUnmatched pair out event).openExtra = out.openExtra := by
  unfold addUnmatched
  split
  · rfl
  · split
    · dsimp only
      split
      · rfl
      · rfl
    · rfl

theorem judgeSource_snd (at_ : ℤ) (s : PairFindings × List String) (event : SourceEvent) :
    (judgeSource pair at_ s event).2 = claim pair at_ s.2 event := by
  rw [judgeSource, claim]
  cases matchFor pair at_ s.2 event with
  | some vigil => rfl
  | none => simp

theorem foldl_judgeSource_snd (at_ : ℤ) (events : List SourceEvent)
    (s : PairFindings × List String) :
    (events.foldl (judgeSource pair at_) s).2 = events.foldl (claim pair at_) s.2 := by
  induction events generalizing s with
  | nil => rfl
  | cons event events ih => rw [List.foldl_cons, List.foldl_cons, ih, judgeSource_snd]

theorem judgeSource_openExtra (at_ : ℤ) (s : PairFindings × List String) (event : SourceEvent) :
    (judgeSource pair at_ s event).1.openExtra = s.1.openExtra := by
  rw [judgeSource]
  cases matchFor pair at_ s.2 event with
  | some vigil => rfl
  | none => exact addUnmatched_openExtra pair s.1 event

/-- One turn of the loop counts a miss when no Vigil event is left and the event counts. -/
theorem judgeSource_missed (at_ : ℤ) (s : PairFindings × List String) (event : SourceEvent) :
    s.1.missed ≤ (judgeSource pair at_ s event).1.missed ∧
      ((judgeSource pair at_ s event).1.missed = s.1.missed ↔
        ¬(matchFor pair at_ s.2 event = none ∧ Counts pair event)) := by
  rw [judgeSource]
  cases matchFor pair at_ s.2 event with
  | some vigil => exact ⟨le_rfl, by simp [addMatched]⟩
  | none =>
    rcases addUnmatched_missed pair s.1 event with ⟨hmissed, hcounts⟩ | ⟨hmissed, hcounts⟩
    · exact ⟨hmissed.ge, by simp [hmissed, hcounts]⟩
    · exact ⟨hmissed ▸ Nat.le_succ _, by simp [hmissed, hcounts]⟩

/-- The loop leaves the counter alone exactly when no event is missed on its turn. -/
theorem foldl_judgeSource_missed (at_ : ℤ) (events : List SourceEvent)
    (s : PairFindings × List String) :
    s.1.missed ≤ (events.foldl (judgeSource pair at_) s).1.missed ∧
      ((events.foldl (judgeSource pair at_) s).1.missed = s.1.missed ↔
        ∀ before event after, events = before ++ event :: after →
          ¬(matchFor pair at_ (before.foldl (claim pair at_) s.2) event = none ∧
            Counts pair event)) := by
  induction events generalizing s with
  | nil => simp
  | cons first events ih =>
    obtain ⟨hle, hfirst⟩ := judgeSource_missed pair at_ s first
    obtain ⟨hle', hrest⟩ := ih (judgeSource pair at_ s first)
    rw [List.foldl_cons]
    refine ⟨hle.trans hle', ?_⟩
    rw [judgeSource_snd] at hrest
    constructor
    · intro h before event after hevents
      have hkept : (judgeSource pair at_ s first).1.missed = s.1.missed := by omega
      cases before with
      | nil =>
        obtain ⟨rfl, -⟩ := List.cons.inj hevents
        exact hfirst.mp hkept
      | cons b before =>
        obtain ⟨rfl, htail⟩ := List.cons.inj hevents
        exact hrest.mp (h.trans hkept.symm) before event after htail
    · intro h
      have hkept := hfirst.mpr (h [] first events rfl)
      refine Eq.trans (hrest.mpr fun before event after hevents => ?_) hkept
      exact h (first :: before) event after (by rw [hevents]; rfl)

theorem judgeVigil_missed (coverage : List CoverageWindow) (claimed : List String)
    (out : PairFindings) (event : VigilEvent) :
    (judgeVigil pair coverage claimed out event).missed = out.missed := by
  unfold judgeVigil
  split
  · rfl
  · split
    · rfl
    · rfl

theorem judgeVigil_openExtra (coverage : List CoverageWindow) (claimed : List String)
    (out : PairFindings) (event : VigilEvent) :
    (judgeVigil pair coverage claimed out event).openExtra = out.openExtra +
      if !claimed.contains event.id && provable coverage event && event.end_.isNone then 1
      else 0 := by
  unfold judgeVigil
  cases claimed.contains event.id with
  | true => simp
  | false =>
    cases provable coverage event with
    | false => simp
    | true =>
      cases event.end_.isNone with
      | false => simp
      | true => simp

theorem comparePair_missed (coverage : List CoverageWindow) (at_ : ℤ) :
    (comparePair pair coverage at_).missed = 0 ↔ ∀ event, ¬Missed pair at_ event := by
  have hloop := (foldl_judgeSource_missed pair at_ (sourceOrder pair) ({}, [])).2
  rw [comparePair, foldl_keeps PairFindings.missed (judgeVigil_missed pair coverage _)]
  apply hloop.trans
  constructor
  · rintro h event ⟨before, after, hevents, hmissed⟩
    exact h before event after hevents hmissed
  · intro h before event after hevents hmissed
    exact h event ⟨before, after, hevents, hmissed⟩

theorem comparePair_openExtra (coverage : List CoverageWindow) (at_ : ℤ) :
    (comparePair pair coverage at_).openExtra = 0 ↔
      ∀ event, ¬OpenExtra pair coverage at_ event := by
  have hsource : ((sourceOrder pair).foldl (judgeSource pair at_) ({}, [])).1.openExtra = 0 :=
    foldl_keeps (fun s : PairFindings × List String => s.1.openExtra)
      (judgeSource_openExtra pair at_) _ _
  rw [comparePair, foldl_add PairFindings.openExtra _ (judgeVigil_openExtra pair coverage _),
    hsource, Nat.zero_add, List.sum_eq_zero_iff_forall_eq_nat, foldl_judgeSource_snd]
  simp only [List.mem_map, forall_exists_index, and_imp, forall_apply_eq_imp_iff₂]
  constructor
  · rintro h event ⟨hmem, hopen, hclaimed, hprovable⟩
    have := h event ((mem_sortByTime _).mpr hmem)
    simp [hopen, hclaimed, hprovable] at this
  · intro h event hmem
    refine if_neg fun hextra => h event ?_
    simp only [Bool.and_eq_true, Bool.not_eq_true', List.contains_eq_mem, decide_eq_false_iff_not,
      Option.isNone_iff_eq_none] at hextra
    exact ⟨(mem_sortByTime _).mp hmem, hextra.2, hextra.1.1, hextra.1.2⟩

/-! ### The loop over the pairs -/

section Loop

variable (coverage : List CoverageWindow) (at_ : ℤ)

/-- What a pair adds to a counter of compared pairs. -/
def fromCompared (f : PairFindings → ℕ) (pair : ComparisonPair) : ℕ :=
  if isCompared pair then f (comparePair pair coverage at_) else 0

def summary (pair : ComparisonPair) : PairSummary :=
  if isCompared pair then comparedSummary coverage at_ pair else uncomparedSummary pair

theorem countOutcome_missed (totals : Totals) (outcome : Outcome) :
    (countOutcome totals outcome).missed = totals.missed ∧
      (countOutcome totals outcome).openExtra = totals.openExtra ∧
      (countOutcome totals outcome).deleted = totals.deleted := by
  cases outcome <;> exact ⟨rfl, rfl, rfl⟩

variable (tally : Tally)

theorem tallyPair_missed (pair : ComparisonPair) :
    (tallyPair coverage at_ tally pair).totals.missed =
      tally.totals.missed + fromCompared coverage at_ PairFindings.missed pair := by
  have h := (countOutcome_missed tally.totals pair.outcome).1
  unfold tallyPair fromCompared
  cases isDeleted pair with
  | false => cases isCompared pair <;> simp [countResult, h]
  | true => cases isCompared pair <;> simp [countResult, h]

theorem tallyPair_openExtra (pair : ComparisonPair) :
    (tallyPair coverage at_ tally pair).totals.openExtra =
      tally.totals.openExtra + fromCompared coverage at_ PairFindings.openExtra pair := by
  have h := (countOutcome_missed tally.totals pair.outcome).2.1
  unfold tallyPair fromCompared
  cases isDeleted pair with
  | false => cases isCompared pair <;> simp [countResult, h]
  | true => cases isCompared pair <;> simp [countResult, h]

theorem tallyPair_deleted (pair : ComparisonPair) :
    (tallyPair coverage at_ tally pair).totals.deleted =
      tally.totals.deleted + if isDeleted pair then 1 else 0 := by
  have h := (countOutcome_missed tally.totals pair.outcome).2.2
  unfold tallyPair
  cases isDeleted pair with
  | false => cases isCompared pair <;> simp [countResult, h]
  | true => cases isCompared pair <;> simp [countResult, h]

theorem countOutcome_leftOut (totals : Totals) (outcome : Outcome) :
    (countOutcome totals outcome).unsupported + (countOutcome totals outcome).skipped =
      totals.unsupported + totals.skipped +
        if outcome = .imported || outcome = .transformed then 0 else 1 := by
  cases outcome with
  | skipped => exact (Nat.add_assoc _ _ _).symm
  | unsupported => exact Nat.add_right_comm _ _ _
  | other text => exact Nat.add_right_comm _ _ _
  | imported => rfl
  | transformed => rfl

theorem tallyPair_leftOut (pair : ComparisonPair) :
    (tallyPair coverage at_ tally pair).totals.unsupported +
        (tallyPair coverage at_ tally pair).totals.skipped =
      tally.totals.unsupported + tally.totals.skipped + if wasImported pair then 0 else 1 := by
  have h := countOutcome_leftOut tally.totals pair.outcome
  unfold tallyPair wasImported
  cases isDeleted pair with
  | false => cases isCompared pair <;> simpa [countResult] using h
  | true => cases isCompared pair <;> simpa [countResult] using h

theorem foldl_tallyPair_summaries (pairs : List ComparisonPair) (tally : Tally) :
    (pairs.foldl (tallyPair coverage at_) tally).pairSummaries =
      tally.pairSummaries ++ pairs.map (summary coverage at_) := by
  induction pairs generalizing tally with
  | nil => simp
  | cons pair pairs ih =>
    have hstep : (tallyPair coverage at_ tally pair).pairSummaries =
        tally.pairSummaries ++ [summary coverage at_ pair] := by
      unfold tallyPair summary
      cases isCompared pair with
      | false => rfl
      | true => rfl
    rw [List.foldl_cons, ih, hstep, List.map_cons, List.append_assoc]
    rfl

end Loop

/-! ### The verdict -/

theorem disqualifiers_eq_nil_iff (tally : Tally) (failures : ℕ) :
    disqualifiers tally failures = [] ↔
      tally.totals.missed = 0 ∧ tally.totals.openExtra = 0 ∧ tally.totals.deleted = 0 ∧
      failures < MAX_CONSECUTIVE_POLL_FAILURES ∧ tally.totals.unsupported + tally.totals.skipped = 0 ∧
      ∀ p ∈ tally.pairSummaries,
        isThin p = false ∧ isSilent p = false ∧ isUncomparedImported p = false := by
  have hempty : ∀ f : PairSummary → Bool, (tally.pairSummaries.filter f).length = 0 ↔
      ∀ p ∈ tally.pairSummaries, f p = false := by
    intro f
    simp [List.filter_eq_nil_iff]
  have hsplit : (∀ p ∈ tally.pairSummaries,
      isThin p = false ∧ isSilent p = false ∧ isUncomparedImported p = false) ↔
      (∀ p ∈ tally.pairSummaries, isThin p = false) ∧
      (∀ p ∈ tally.pairSummaries, isSilent p = false) ∧
      ∀ p ∈ tally.pairSummaries, isUncomparedImported p = false := by
    simp only [imp_and, forall_and]
  rw [hsplit, ← hempty, ← hempty, ← hempty]
  simp only [disqualifiers, List.append_eq_nil_iff, ite_eq_right_iff, List.cons_ne_nil, imp_false,
    gt_iff_lt, Nat.pos_iff_ne_zero, not_not, ge_iff_le, not_le]
  tauto

/-- No test of the report is against the pair. -/
structure Passes (input : ComparisonInput) (pair : ComparisonPair) : Prop where
  imported : wasImported pair = true
  monitor : pair.monitorId.isSome = true
  compared : pair.compared = true
  noMissed : ∀ event, ¬Missed pair input.at_ event
  noOpenExtra : ∀ event, ¬OpenExtra pair (mergeCoverage input.coverage) input.at_ event
  notSilent : pair.vigilChecks ≠ 0
  notThin : 86220000 ≤ exactOverlapMs input pair

theorem not_disqualified_iff : ¬Disqualified input ↔
    input.consecutivePollFailures < MAX_CONSECUTIVE_POLL_FAILURES ∧
      ∀ pair ∈ input.pairs, Passes input pair := by
  constructor
  · intro h
    refine ⟨not_le.mp fun hpolls => h (.polls hpolls), fun pair hpair => ?_⟩
    exact
      { imported := Bool.not_eq_false _ ▸ fun hout => h (.leftOut hpair hout)
        monitor := Option.isSome_iff_ne_none.mpr fun hnone => h (.deleted hpair hnone)
        compared := Bool.not_eq_false _ ▸ fun hout => h (.uncompared hpair hout)
        noMissed := fun event hmissed => h (.missed hpair hmissed)
        noOpenExtra := fun event hextra => h (.openExtra hpair hextra)
        notSilent := fun hsilent => h (.silent hpair hsilent)
        notThin := not_lt.mp fun hthin => h (.thin hpair hthin) }
  · rintro ⟨hpolls, hpairs⟩ h
    cases h with
    | leftOut hpair h => simp [(hpairs _ hpair).imported] at h
    | deleted hpair h => exact Option.isSome_iff_ne_none.mp (hpairs _ hpair).monitor h
    | uncompared hpair h => simp [(hpairs _ hpair).compared] at h
    | missed hpair h => exact (hpairs _ hpair).noMissed _ h
    | openExtra hpair h => exact (hpairs _ hpair).noOpenExtra _ h
    | polls h => exact absurd h (not_le.mpr hpolls)
    | silent hpair h => exact (hpairs _ hpair).notSilent h
    | thin hpair h => exact absurd h (not_lt.mpr (hpairs _ hpair).notThin)

theorem isThin_comparedSummary (pair : ComparisonPair) :
    isThin (comparedSummary (mergeCoverage input.coverage) input.at_ pair) = false ↔
      86220000 ≤ exactOverlapMs input pair := by
  have hthin := roundTenths_lt_iff (exactOverlapMs input pair)
  rw [← pairOverlap_eq] at hthin
  rw [← not_lt, ← hthin]
  rw [isThin, Bool.and_eq_false_iff, decide_eq_false_iff_not]
  simp only [comparedSummary, Bool.true_eq_false, false_or]

/-- The tests on the summary of a pair and on what the pair adds to the totals. -/
theorem passes_iff (pair : ComparisonPair) : let coverage := mergeCoverage input.coverage
    let p := summary coverage input.at_ pair
    (fromCompared coverage input.at_ PairFindings.missed pair = 0 ∧
      fromCompared coverage input.at_ PairFindings.openExtra pair = 0 ∧
      isDeleted pair = false ∧ wasImported pair = true ∧
      isThin p = false ∧ isSilent p = false ∧ isUncomparedImported p = false) ↔
      Passes input pair := by
  intro coverage p
  by_cases hcompared : isCompared pair = true
  · obtain ⟨hpair, hmonitor⟩ := Bool.and_eq_true_iff.mp hcompared
    have hp : p = comparedSummary coverage input.at_ pair := if_pos hcompared
    have hdeleted : isDeleted pair = false := by
      simp [isDeleted, Option.isNone_eq_false_iff.mpr hmonitor]
    have hsilent : isSilent p = false ↔ pair.vigilChecks ≠ 0 := by
      simp [hp, isSilent, comparedSummary]
    have huncompared : isUncomparedImported p = false := by
      simp [hp, isUncomparedImported, comparedSummary]
    rw [fromCompared, if_pos hcompared, fromCompared, if_pos hcompared, comparePair_missed,
      comparePair_openExtra, hsilent, hp, isThin_comparedSummary, ← hp]
    constructor
    · rintro ⟨hmissed, hextra, -, himported, hthin, hchecks, -⟩
      exact ⟨himported, hmonitor, hpair, hmissed, hextra, hchecks, hthin⟩
    · intro h
      exact ⟨h.noMissed, h.noOpenExtra, hdeleted, h.imported, h.notThin, h.notSilent, huncompared⟩
  · have hp : p = uncomparedSummary pair := if_neg hcompared
    constructor
    · rintro ⟨-, -, hdeleted, himported, -, -, huncompared⟩
      have hmonitor : pair.monitorId.isSome = true := by
        rw [isDeleted, himported, Bool.true_and] at hdeleted
        exact Option.isNone_eq_false_iff.mp hdeleted
      rw [hp] at huncompared
      simp [isUncomparedImported, uncomparedSummary, hmonitor] at huncompared
    · intro h
      exact absurd (Bool.and_eq_true_iff.mpr ⟨h.compared, h.monitor⟩) hcompared

/-- The report is safe exactly when nothing speaks against the cutover. -/
theorem compareBridge_safe_iff : (compareBridge input).verdict = .safe ↔ ¬Disqualified input := by
  have hverdict : (compareBridge input).verdict = .safe ↔
      disqualifiers (input.pairs.foldl (tallyPair (mergeCoverage input.coverage) input.at_)
        { totals := { sourceRecords := input.pairs.length } }) input.consecutivePollFailures = [] := by
    simp only [compareBridge, List.length_eq_zero_iff, ite_eq_left_iff, reduceCtorEq, imp_false,
      not_not]
  rw [hverdict, disqualifiers_eq_nil_iff, not_disqualified_iff,
    foldl_add (fun t : Tally => t.totals.missed) _ (tallyPair_missed _ _),
    foldl_add (fun t : Tally => t.totals.openExtra) _ (tallyPair_openExtra _ _),
    foldl_add (fun t : Tally => t.totals.deleted) _ (tallyPair_deleted _ _),
    foldl_add (fun t : Tally => t.totals.unsupported + t.totals.skipped) _ (tallyPair_leftOut _ _),
    foldl_tallyPair_summaries]
  simp only [← passes_iff, Nat.zero_add, List.nil_append, List.sum_eq_zero_iff_forall_eq_nat,
    List.mem_map, forall_exists_index, and_imp, forall_apply_eq_imp_iff₂, ite_eq_right_iff,
    ite_eq_left_iff, Nat.one_ne_zero, imp_false, Bool.not_eq_true, Bool.not_eq_false]
  constructor
  · rintro ⟨hmissed, hextra, hdeleted, hpolls, himported, hsummary⟩
    exact ⟨hpolls, fun pair hpair => ⟨hmissed pair hpair, hextra pair hpair, hdeleted pair hpair,
      himported pair hpair, hsummary pair hpair⟩⟩
  · rintro ⟨hpolls, h⟩
    exact ⟨fun pair hpair => (h pair hpair).1, fun pair hpair => (h pair hpair).2.1,
      fun pair hpair => (h pair hpair).2.2.1, hpolls, fun pair hpair => (h pair hpair).2.2.2.1,
      fun pair hpair => (h pair hpair).2.2.2.2⟩

/-- The verdict `safe` means what an operator takes from it unless nothing else speaks against the
cutover and some pair was watched for a day less at most three minutes. -/
theorem compareBridge_sound_iff (input : ComparisonInput) :
    ((compareBridge input).verdict = .safe → Sound input) ↔
      Disqualified input ∨
        ∀ pair ∈ input.pairs, MIN_COMPARISON_HOURS * 3600000 ≤ exactOverlapMs input pair := by
  rw [compareBridge_safe_iff]
  constructor
  · intro h
    by_cases hdisqualified : Disqualified input
    · exact .inl hdisqualified
    · exact .inr (h hdisqualified).watched
  · rintro (hdisqualified | hwatched) h
    · exact absurd hdisqualified h
    · have hpasses := ((not_disqualified_iff input).mp h).2
      exact
        { kept := fun pair hpair => ⟨(hpasses pair hpair).imported, (hpasses pair hpair).monitor⟩
          noMissed := fun pair hpair => (hpasses pair hpair).noMissed
          noOpenExtra := fun pair hpair => (hpasses pair hpair).noOpenExtra
          watched := hwatched }

/-- A pair without events, watched from time 0. -/
def quietPair : ComparisonPair where
  sourceId := "src-1"
  sourceName := "API uptime"
  sourceType := "status"
  monitorId := some "mon-1"
  outcome := .imported
  detail := "Imported as an http monitor."
  compared := true
  observedSince := some 0
  failureWindowSeconds := some 60
  vigilChecks := 480
  sourceEvents := []
  vigilEvents := []

/-- A bridge of one pair with evidence for 23 hours and 57 minutes. -/
def shortBridge : ComparisonInput where
  at_ := 90000000
  pairs := [quietPair]
  coverage := [⟨0, 86220000⟩]
  manualNotes := []
  consecutivePollFailures := 0

theorem exactOverlapMs_shortBridge : exactOverlapMs shortBridge quietPair = 86220000 := by
  have hcard := overlap_eq_card (List.pairwise_singleton _ ⟨0, 86220000⟩) 0 90000000
  have hoverlap : overlap [⟨0, 86220000⟩] 0 90000000 = 86220000 := by decide
  rw [hoverlap] at hcard
  exact_mod_cast hcard.symm

/-- Evidence for 23 hours and 57 minutes is called safe. -/
theorem compareBridge_safe_too_early :
    (compareBridge shortBridge).verdict = .safe ∧ ¬Sound shortBridge := by
  refine ⟨by decide +kernel, fun h => ?_⟩
  have hwatched := h.watched quietPair (List.mem_singleton_self _)
  rw [exactOverlapMs_shortBridge] at hwatched
  revert hwatched
  decide

end Vigil.Bridge.Verdict
