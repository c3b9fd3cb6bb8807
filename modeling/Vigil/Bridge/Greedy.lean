import Mathlib.Order.CompletePartialOrder
import Vigil.Lib.Matching
import Vigil.Bridge.Findings

/-! How many source events `comparePair` matches.  Its loop is the greedy matching of the two sides
in the order of their starts.  Events of one side that are apart and run forward in time end in the
order in which they start, so widening by the grace leaves a staircase, and the greedy matching is a
largest one.  It is not when an event ends before it starts, or when two Vigil events have one id. -/

namespace Vigil.Bridge.Greedy

open Lib.Timeline Lib.Matching Compare Verdict Findings

def compatible (at_ : ℤ) (event : SourceEvent) (vigil : VigilEvent) : Bool :=
  overlapsOrNear event vigil at_ graceMs

/-- The number of matched source events is the size of a largest matching. -/
def MatchesMost (pair : ComparisonPair) (coverage : List CoverageWindow) (at_ : ℤ) : Prop :=
  IsGreatest {n | ∃ M, IsMatching (compatible at_) pair.sourceEvents pair.vigilEvents M ∧
    M.length = n} (comparePair pair coverage at_).matched

/-- The instants of an event: its start, and those from then on until its end. -/
def occupied (start stop : ℤ) : Set ℤ := {t | start ≤ t ∧ (t < stop ∨ t = start)}

/-- The events of either side are pairwise disjoint in time; one that is open goes on until
`at_`. -/
structure Apart (pair : ComparisonPair) (at_ : ℤ) : Prop where
  source : pair.sourceEvents.Pairwise fun a b =>
    Disjoint (occupied a.start (a.end_.getD at_)) (occupied b.start (b.end_.getD at_))
  vigil : pair.vigilEvents.Pairwise fun a b =>
    Disjoint (occupied a.start (a.end_.getD at_)) (occupied b.start (b.end_.getD at_))

/-- No event ends before it starts. -/
structure Forward (pair : ComparisonPair) (at_ : ℤ) : Prop where
  source : ∀ event ∈ pair.sourceEvents, event.start ≤ event.end_.getD at_
  vigil : ∀ event ∈ pair.vigilEvents, event.start ≤ event.end_.getD at_

/-! ### The loop is the greedy matching -/

theorem eraseP_eq_filter {events : List VigilEvent} (hids : (events.map (·.id)).Nodup)
    {p : VigilEvent → Bool} {vigil : VigilEvent} (h : events.find? p = some vigil) :
    events.eraseP p = events.filter fun v => v.id ≠ vigil.id := by
  have hp : p vigil = true := List.find?_some h
  obtain ⟨-, l, r, rfl, hl⟩ := List.find?_eq_some_iff_append.mp h
  rw [List.map_append, List.map_cons] at hids
  obtain ⟨-, hright, hapart⟩ := List.nodup_append.mp hids
  have hbefore : ∀ v ∈ l, v.id ≠ vigil.id := fun v hv =>
    hapart v.id (List.mem_map_of_mem hv) vigil.id List.mem_cons_self
  have hafter : ∀ v ∈ r, v.id ≠ vigil.id := fun v hv heq =>
    (List.nodup_cons.mp hright).1 (heq ▸ List.mem_map_of_mem hv)
  rw [eraseP_middle hl hp, List.filter_append, List.filter_cons_of_neg (by simp),
    List.filter_eq_self.mpr (by simpa using hbefore), List.filter_eq_self.mpr (by simpa using hafter)]

/-- The Vigil events that no source event has claimed. -/
def unclaimed (pair : ComparisonPair) (claimed : List String) : List VigilEvent :=
  (vigilOrder pair).filter fun v => v.id ∉ claimed

theorem matchFor_eq (pair : ComparisonPair) (at_ : ℤ) (claimed : List String)
    (event : SourceEvent) :
    matchFor pair at_ claimed event = (unclaimed pair claimed).find? (compatible at_ event) := by
  rw [unclaimed, List.find?_filter]
  simp only [matchFor, compatible, List.contains_eq_mem, decide_not, Bool.decide_and,
    Bool.decide_eq_true]

variable {pair : ComparisonPair}

theorem unclaimed_claim (hids : (pair.vigilEvents.map (·.id)).Nodup) {at_ : ℤ}
    {claimed : List String} {event : SourceEvent} {vigil : VigilEvent}
    (h : matchFor pair at_ claimed event = some vigil) : unclaimed pair (claimed ++ [vigil.id]) =
      (unclaimed pair claimed).eraseP (compatible at_ event) := by
  have hperm : ((vigilOrder pair).map (·.id)).Perm (pair.vigilEvents.map (·.id)) :=
    (List.perm_insertionSort _ _).map _
  have hnodup : ((unclaimed pair claimed).map (·.id)).Nodup :=
    (hperm.symm.nodup hids).sublist (List.filter_sublist.map _)
  rw [matchFor_eq] at h
  rw [eraseP_eq_filter hnodup h, unclaimed, unclaimed, List.filter_filter]
  refine List.filter_congr fun v _ => ?_
  simp [and_comm]

theorem addUnmatched_matched (pair : ComparisonPair) (out : PairFindings) (event : SourceEvent) :
    (addUnmatched pair out event).matched = out.matched := by
  unfold addUnmatched
  split
  · rfl
  · split
    · dsimp only
      split
      · rfl
      · rfl
    · rfl

theorem foldl_judgeSource_matched (hids : (pair.vigilEvents.map (·.id)).Nodup) (at_ : ℤ)
    (events : List SourceEvent) (s : PairFindings × List String) :
    (events.foldl (judgeSource pair at_) s).1.matched =
      s.1.matched + (greedy (compatible at_) events (unclaimed pair s.2)).length := by
  induction events generalizing s with
  | nil => rfl
  | cons event events ih =>
    rw [List.foldl_cons, ih, judgeSource]
    cases hmatch : matchFor pair at_ s.2 event with
    | none =>
      have hfind := hmatch
      rw [matchFor_eq] at hfind
      rw [greedy_cons_none hfind]
      exact congrArg (· + _) (addUnmatched_matched pair s.1 event)
    | some vigil =>
      have hfind := hmatch
      rw [matchFor_eq] at hfind
      rw [greedy_cons_some hfind, ← unclaimed_claim hids hmatch, List.length_cons]
      simp only [addMatched]
      omega

theorem comparePair_matched (hids : (pair.vigilEvents.map (·.id)).Nodup)
    (coverage : List CoverageWindow) (at_ : ℤ) : (comparePair pair coverage at_).matched =
      (greedy (compatible at_) (sourceOrder pair) (vigilOrder pair)).length := by
  have hkeeps (claimed : List String) (out : PairFindings) (event : VigilEvent) :
      (judgeVigil pair coverage claimed out event).matched = out.matched := by
    unfold judgeVigil
    split
    · rfl
    · split
      · rfl
      · rfl
  have hall : unclaimed pair [] = vigilOrder pair := List.filter_eq_self.mpr (by simp)
  rw [comparePair, foldl_keeps PairFindings.matched (hkeeps _), foldl_judgeSource_matched hids,
    hall]
  exact Nat.zero_add _

/-! ### Events that are apart -/

/-- Of two events that are apart, the one that starts later ends later. -/
theorem stop_le_of_disjoint {start stop start' stop' : ℤ} (hle : start ≤ start')
    (hforward : start' ≤ stop') (h : Disjoint (occupied start stop) (occupied start' stop')) :
    stop ≤ stop' := by
  have hmem : start' ∈ occupied start' stop' := ⟨le_rfl, .inr rfl⟩
  have hnot : start' ∉ occupied start stop := fun hin => Set.disjoint_left.mp h hin hmem
  simp only [occupied, Set.mem_ofPred_eq, not_and, not_or, not_lt] at hnot
  exact (hnot hle).1.trans hforward

/-- In the order of their starts, events that are apart and run forward end one after another. -/
theorem sorted_stop {α : Type} {start stop : α → ℤ} {l : List α}
    (hapart : l.Pairwise fun a b =>
      Disjoint (occupied (start a) (stop a)) (occupied (start b) (stop b)))
    (hforward : ∀ a ∈ l, start a ≤ stop a) :
    (sortByTime start l).Pairwise fun a b => stop a ≤ stop b := by
  have hperm : (sortByTime start l).Perm l := List.perm_insertionSort _ l
  have hsorted := (sortByTime_pairwise start l).and
    (hperm.symm.pairwise hapart fun h => h.symm)
  refine List.Pairwise.imp_of_mem (fun {a b} _ hb hab => ?_) hsorted
  exact stop_le_of_disjoint hab.1 (hforward b (hperm.mem_iff.mp hb)) hab.2

theorem staircase_of_apart {at_ : ℤ} (hforward : Forward pair at_) (hapart : Apart pair at_) :
    Staircase (compatible at_) (sourceOrder pair) (vigilOrder pair) := by
  intro x x' y y' hx hy hxy' hx'y
  have hsource : x.end_.getD at_ ≤ x'.end_.getD at_ :=
    List.rel_of_pairwise_cons
      ((sorted_stop hapart.source hforward.source).sublist hx) List.mem_cons_self
  have hvigil : y.end_.getD at_ ≤ y'.end_.getD at_ :=
    List.rel_of_pairwise_cons
      ((sorted_stop hapart.vigil hforward.vigil).sublist hy) List.mem_cons_self
  simp only [compatible, overlapsOrNear, Bool.and_eq_true, decide_eq_true_eq] at hxy' hx'y ⊢
  omega

/-- When the events of either side are apart and run forward in time, and the Vigil events have
different ids, `comparePair` matches as many source events as can be matched. -/
theorem comparePair_matchesMost {pair : ComparisonPair} {at_ : ℤ}
    (hids : (pair.vigilEvents.map (·.id)).Nodup) (hforward : Forward pair at_)
    (hapart : Apart pair at_) (coverage : List CoverageWindow) : MatchesMost pair coverage at_ := by
  have hmost := greedy_isGreatest (staircase_of_apart hforward hapart)
  have hsource : (sourceOrder pair).Perm pair.sourceEvents := List.perm_insertionSort _ _
  have hvigil : (vigilOrder pair).Perm pair.vigilEvents := List.perm_insertionSort _ _
  rw [MatchesMost, comparePair_matched hids]
  obtain ⟨⟨M, hM, hlength⟩, hupper⟩ := hmost
  refine ⟨⟨M, hM.of_perm hsource hvigil, hlength⟩, ?_⟩
  rintro n ⟨N, hN, rfl⟩
  exact hupper ⟨N, hN.of_perm hsource.symm hvigil.symm, rfl⟩

/-- Two outages, the second one still open, and two Vigil incidents that can both be the first. -/
def twoOutages : ComparisonPair :=
  { quietPair with
    sourceEvents :=
      [⟨"s-1", "src-1", 0, some 900000, 900000, none⟩, ⟨"s-2", "src-1", 1000000, none, 1500000, none⟩]
    vigilEvents := [⟨"v-1", 0, some 950000⟩, ⟨"v-2", 960000, some 1100000⟩] }

theorem disjoint_occupied {start stop start' stop' : ℤ} (h : start < start')
    (hstop : stop ≤ start') : Disjoint (occupied start stop) (occupied start' stop') := by
  refine Set.disjoint_left.mpr fun t ht ht' => ?_
  simp only [occupied, Set.mem_ofPred_eq] at ht ht'
  omega

theorem comparePair_matchesMost_twoOutages : MatchesMost twoOutages [] 2000000 ∧
    (comparePair twoOutages [] 2000000).matched = 2 := by
  refine ⟨comparePair_matchesMost (by decide) ?_ ?_ [], by decide +kernel⟩
  · exact ⟨by decide, by decide⟩
  · refine ⟨?_, ?_⟩
    · simpa [twoOutages] using disjoint_occupied (by decide) (by decide)
    · simpa [twoOutages] using disjoint_occupied (by decide) (by decide)

/-- The second outage ends before it starts. -/
def reversedOutage : ComparisonPair :=
  { twoOutages with
    sourceEvents :=
      [⟨"s-1", "src-1", 0, some 900000, 900000, none⟩,
        ⟨"s-2", "src-1", 1000000, some 500000, 500000, none⟩] }

/-- The two Vigil incidents have one id. -/
def sameIds : ComparisonPair :=
  { twoOutages with vigilEvents := [⟨"v-1", 0, some 950000⟩, ⟨"v-1", 960000, some 1100000⟩] }

theorem not_matchesMost {pair : ComparisonPair} {at_ : ℤ} {M : List (SourceEvent × VigilEvent)}
    (hM : IsMatching (compatible at_) pair.sourceEvents pair.vigilEvents M)
    (h : (comparePair pair [] at_).matched < M.length) : ¬MatchesMost pair [] at_ := fun hmost =>
  absurd (hmost.2 ⟨M, hM, rfl⟩) (not_le.mpr h)

/-- Events that are apart can be matched better than `comparePair` does, when one of them ends before
it starts, and when two Vigil events have one id. -/
theorem not_always_most :
    (¬∀ pair coverage at_, (pair.vigilEvents.map (·.id)).Nodup → Apart pair at_ →
      MatchesMost pair coverage at_) ∧
    ¬∀ pair coverage at_, Forward pair at_ → Apart pair at_ → MatchesMost pair coverage at_ := by
  constructor
  · intro hclaim
    refine @not_matchesMost reversedOutage 2000000
      [(⟨"s-1", "src-1", 0, some 900000, 900000, none⟩, ⟨"v-2", 960000, some 1100000⟩),
        (⟨"s-2", "src-1", 1000000, some 500000, 500000, none⟩, ⟨"v-1", 0, some 950000⟩)]
      ⟨?_, ?_, ?_⟩ (by decide +kernel) (hclaim _ _ _ (by decide) ⟨?_, ?_⟩)
    · exact List.Subperm.refl _
    · exact (List.Perm.swap _ _ _).subperm
    · decide
    · simpa [reversedOutage] using disjoint_occupied (by decide) (by decide)
    · simpa [reversedOutage, twoOutages] using disjoint_occupied (by decide) (by decide)
  · intro hclaim
    refine @not_matchesMost sameIds 2000000
      [(⟨"s-1", "src-1", 0, some 900000, 900000, none⟩, ⟨"v-1", 0, some 950000⟩),
        (⟨"s-2", "src-1", 1000000, none, 1500000, none⟩, ⟨"v-1", 960000, some 1100000⟩)]
      ⟨?_, ?_, ?_⟩ (by decide +kernel) (hclaim _ _ _ ⟨by decide, by decide⟩ ⟨?_, ?_⟩)
    · exact List.Subperm.refl _
    · exact List.Subperm.refl _
    · decide
    · simpa [sameIds, twoOutages] using disjoint_occupied (by decide) (by decide)
    · simpa [sameIds] using disjoint_occupied (by decide) (by decide)

end Vigil.Bridge.Greedy
