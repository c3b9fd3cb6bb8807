import Vigil.Bridge.Verdict

/-! `mergeCoverage` gives the normal form of a list of windows: it depends on nothing but the
instants that some window covers, whatever their order and however they overlap, touch or are
empty.  `overlapHours` of it measures these instants. -/

namespace Vigil.Bridge.Coverage

open Lib.Spans Lib.Timeline Compare Verdict

theorem normal_mergeCoverage (windows : List CoverageWindow) : Normal (mergeCoverage windows) := by
  refine normal_coalesce (sorted_windows windows) fun w hw => ?_
  simpa using List.of_mem_filter ((mem_sortByTime _).mp hw)

/-- Windows that cover the same instants are merged to the same list. -/
theorem mergeCoverage_eq {windows windows' : List CoverageWindow}
    (h : ∀ t, Covered windows t ↔ Covered windows' t) :
    mergeCoverage windows = mergeCoverage windows' := by
  refine (normal_mergeCoverage windows).ext (normal_mergeCoverage windows') fun t => ?_
  rw [covered_mergeCoverage, covered_mergeCoverage, h]

theorem covered_perm {windows windows' : List CoverageWindow} (h : windows.Perm windows') (t : ℤ) :
    Covered windows t ↔ Covered windows' t := by
  simp only [Covered, h.mem_iff]

theorem overlapHours_mergeCoverage (windows : List CoverageWindow) (lo hi : ℤ) :
    overlapHours (mergeCoverage windows) lo hi =
      (((Finset.Ico lo hi).filter fun t => Covered windows t).card : ℚ) / 3600000 := by
  rw [overlapHours, overlap_eq_card (normal_mergeCoverage windows).apart]
  simp only [covered_mergeCoverage, Int.cast_natCast]

/-- The merged windows are in order, no two of them overlap or touch and none is empty; they cover
the same instants; neither the order of the windows nor another merge changes them; and their
overlap with a span is the measure of the instants of the span that some window covers. -/
theorem mergeCoverage_normal_form (windows : List CoverageWindow) :
    ((mergeCoverage windows).Pairwise (fun a b => a.stop < b.start) ∧
      ∀ w ∈ mergeCoverage windows, w.start < w.stop) ∧
    (∀ t, Covered (mergeCoverage windows) t ↔ Covered windows t) ∧
    (∀ windows', windows.Perm windows' → mergeCoverage windows' = mergeCoverage windows) ∧
    mergeCoverage (mergeCoverage windows) = mergeCoverage windows ∧
    ∀ lo hi, overlapHours (mergeCoverage windows) lo hi =
      (((Finset.Ico lo hi).filter fun t => Covered windows t).card : ℚ) / 3600000 := by
  have hnormal := normal_mergeCoverage windows
  refine ⟨⟨hnormal.apart, hnormal.nonempty⟩, covered_mergeCoverage windows, fun windows' h => ?_,
    mergeCoverage_eq (covered_mergeCoverage windows), overlapHours_mergeCoverage windows⟩
  exact mergeCoverage_eq fun t => (covered_perm h t).symm

example : mergeCoverage [⟨50, 60⟩, ⟨0, 10⟩, ⟨10, 20⟩, ⟨5, 5⟩, ⟨2, 4⟩] = [⟨0, 20⟩, ⟨50, 60⟩] := by
  decide

end Vigil.Bridge.Coverage
