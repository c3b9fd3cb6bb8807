import Mathlib.Data.Int.ConditionallyCompleteOrder
import Mathlib.Data.Int.Interval
import Mathlib.Tactic.Linarith
import Mathlib.Tactic.Ring

/-! Half-open spans of integers.  `coalesce` joins spans that are sorted by their start and touch
each other, and `overlap` adds up how much of a window they fill.  Spans that are apart fill as much
of a window as there are integers of the window in them. -/

namespace Vigil.Lib.Spans

structure Span where
  start : ℤ
  stop : ℤ
  deriving DecidableEq, Repr

/-- Some span holds the integer. -/
def Covered (spans : List Span) (t : ℤ) : Prop := ∃ s ∈ spans, s.start ≤ t ∧ t < s.stop

instance (spans : List Span) (t : ℤ) : Decidable (Covered spans t) :=
  inferInstanceAs (Decidable (∃ s ∈ spans, s.start ≤ t ∧ t < s.stop))

/-- Each span ends before the next ones start. -/
def Apart (spans : List Span) : Prop := spans.Pairwise fun a b => a.stop < b.start

/-- The span `last`, made longer when `s` ends after it. -/
def Span.extend (last s : Span) : Span :=
  if s.stop > last.stop then { last with stop := s.stop } else last

/-- The spans that are left when each one that touches the span before it is joined to that one. -/
def coalesceFrom (last : Span) : List Span → List Span
  | [] => [last]
  | s :: rest =>
    if s.start ≤ last.stop then coalesceFrom (last.extend s) rest
    else last :: coalesceFrom s rest

def coalesce : List Span → List Span
  | [] => []
  | s :: rest => coalesceFrom s rest

/-- How much of `[lo, hi)` a span fills. -/
def Span.overlap (s : Span) (lo hi : ℤ) : ℤ :=
  if min s.stop hi > max s.start lo then min s.stop hi - max s.start lo else 0

def overlap (spans : List Span) (lo hi : ℤ) : ℤ := (spans.map fun s => s.overlap lo hi).sum

/-! ### Joining -/

variable {s last : Span} {spans rest : List Span}

theorem covered_cons {t : ℤ} :
    Covered (s :: spans) t ↔ s.start ≤ t ∧ t < s.stop ∨ Covered spans t := by
  simp [Covered]

@[simp] theorem Span.extend_start (last s : Span) : (last.extend s).start = last.start := by
  unfold Span.extend
  split
  · rfl
  · rfl

theorem Span.extend_stop (last s : Span) : (last.extend s).stop = max last.stop s.stop := by
  unfold Span.extend
  split
  · rename_i h
    exact (max_eq_right h.le).symm
  · rename_i h
    exact (max_eq_left (not_lt.mp h)).symm

/-- What touches a span and starts after it is covered by the longer span. -/
theorem Span.mem_extend (hstart : last.start ≤ s.start) (htouch : s.start ≤ last.stop) (t : ℤ) :
    (last.extend s).start ≤ t ∧ t < (last.extend s).stop ↔
      (last.start ≤ t ∧ t < last.stop) ∨ s.start ≤ t ∧ t < s.stop := by
  rw [Span.extend_start, Span.extend_stop, lt_max_iff]
  omega

theorem sorted_extend (h : (last :: s :: rest).Pairwise fun a b => a.start ≤ b.start) :
    (last.extend s :: rest).Pairwise fun a b => a.start ≤ b.start := by
  obtain ⟨hlast, hrest⟩ := List.pairwise_cons.mp h
  apply List.pairwise_cons.mpr
  refine ⟨fun b hb => ?_, (List.pairwise_cons.mp hrest).2⟩
  rw [Span.extend_start]
  exact hlast b (List.mem_cons_of_mem _ hb)

theorem covered_coalesceFrom (hsorted : (last :: rest).Pairwise fun a b => a.start ≤ b.start)
    (t : ℤ) : Covered (coalesceFrom last rest) t ↔ Covered (last :: rest) t := by
  induction rest generalizing last with
  | nil => exact Iff.rfl
  | cons s rest ih =>
    obtain ⟨hlast, hrest⟩ := List.pairwise_cons.mp hsorted
    rw [coalesceFrom, covered_cons (s := last)]
    split
    · rename_i htouch
      rw [ih (sorted_extend hsorted), covered_cons, covered_cons,
        Span.mem_extend (hlast s List.mem_cons_self) htouch, or_assoc]
    · rw [covered_cons, ih hrest]

theorem covered_coalesce (hsorted : spans.Pairwise fun a b => a.start ≤ b.start) (t : ℤ) :
    Covered (coalesce spans) t ↔ Covered spans t := by
  cases spans with
  | nil => exact Iff.rfl
  | cons s rest => exact covered_coalesceFrom hsorted t

/-- Every span that is left starts with `last` or after it. -/
theorem start_le_of_mem_coalesceFrom {lo : ℤ} (hlast : lo ≤ last.start)
    (hrest : ∀ s ∈ rest, lo ≤ s.start) : ∀ s ∈ coalesceFrom last rest, lo ≤ s.start := by
  induction rest generalizing last with
  | nil => simpa [coalesceFrom] using hlast
  | cons s rest ih =>
    obtain ⟨hs, htail⟩ := List.forall_mem_cons.mp hrest
    rw [coalesceFrom]
    split
    · apply ih _ htail
      rwa [Span.extend_start]
    · exact List.forall_mem_cons.mpr ⟨hlast, ih hs htail⟩

theorem apart_coalesceFrom (hsorted : (last :: rest).Pairwise fun a b => a.start ≤ b.start) :
    Apart (coalesceFrom last rest) := by
  induction rest generalizing last with
  | nil => exact List.pairwise_singleton _ _
  | cons s rest ih =>
    have hrest := (List.pairwise_cons.mp hsorted).2
    rw [coalesceFrom]
    split
    · exact ih (sorted_extend hsorted)
    · rename_i hgap
      apply List.pairwise_cons.mpr
      refine ⟨fun b hb => ?_, ih hrest⟩
      have hstart : s.start ≤ b.start :=
        start_le_of_mem_coalesceFrom le_rfl (List.pairwise_cons.mp hrest).1 b hb
      omega

theorem apart_coalesce (hsorted : spans.Pairwise fun a b => a.start ≤ b.start) :
    Apart (coalesce spans) := by
  cases spans with
  | nil => exact List.Pairwise.nil
  | cons s rest => exact apart_coalesceFrom hsorted

/-! ### The normal form -/

/-- Spans that are apart and not empty. -/
structure Normal (spans : List Span) : Prop where
  apart : Apart spans
  nonempty : ∀ s ∈ spans, s.start < s.stop

theorem nonempty_coalesceFrom (hlast : last.start < last.stop)
    (hrest : ∀ s ∈ rest, s.start < s.stop) : ∀ s ∈ coalesceFrom last rest, s.start < s.stop := by
  induction rest generalizing last with
  | nil => simpa [coalesceFrom] using hlast
  | cons s rest ih =>
    obtain ⟨hs, htail⟩ := List.forall_mem_cons.mp hrest
    rw [coalesceFrom]
    split
    · apply ih _ htail
      rw [Span.extend_start, Span.extend_stop]
      exact lt_max_of_lt_left hlast
    · exact List.forall_mem_cons.mpr ⟨hlast, ih hs htail⟩

theorem normal_coalesce (hsorted : spans.Pairwise fun a b => a.start ≤ b.start)
    (hnonempty : ∀ s ∈ spans, s.start < s.stop) : Normal (coalesce spans) := by
  refine ⟨apart_coalesce hsorted, ?_⟩
  cases spans with
  | nil => exact List.forall_mem_nil _
  | cons s rest =>
    obtain ⟨hs, hrest⟩ := List.forall_mem_cons.mp hnonempty
    exact nonempty_coalesceFrom hs hrest

theorem Normal.tail (h : Normal (s :: spans)) : Normal spans :=
  ⟨(List.pairwise_cons.mp h.apart).2, (List.forall_mem_cons.mp h.nonempty).2⟩

/-- What the later spans hold comes after the first one and does not touch it. -/
theorem Normal.stop_lt (h : Normal (s :: spans)) {t : ℤ} (ht : Covered spans t) : s.stop < t := by
  obtain ⟨b, hb, hstart, -⟩ := ht
  exact ((List.pairwise_cons.mp h.apart).1 b hb).trans_le hstart

theorem Normal.start_le (h : Normal (s :: spans)) {t : ℤ} (ht : Covered (s :: spans) t) :
    s.start ≤ t := by
  rcases covered_cons.mp ht with hs | hrest
  · exact hs.1
  · exact ((h.nonempty s List.mem_cons_self).trans (h.stop_lt hrest)).le

/-- The first span goes on as long as any normal list that holds the same instants. -/
theorem Normal.stop_le {s s' : Span} {spans spans' : List Span} (h : Normal (s :: spans))
    (hstart : s.start = s'.start)
    (hsame : ∀ t, Covered (s :: spans) t ↔ Covered (s' :: spans') t) : s'.stop ≤ s.stop := by
  by_contra hlt
  have hs := h.nonempty s List.mem_cons_self
  have hstop : Covered (s :: spans) s.stop :=
    (hsame s.stop).mpr (covered_cons.mpr (.inl ⟨by omega, by omega⟩))
  rcases covered_cons.mp hstop with hin | hrest
  · exact lt_irrefl _ hin.2
  · exact lt_irrefl _ (h.stop_lt hrest)

/-- A set of instants has at most one normal list of spans. -/
theorem Normal.ext {spans spans' : List Span} (h : Normal spans) (h' : Normal spans')
    (hsame : ∀ t, Covered spans t ↔ Covered spans' t) : spans = spans' := by
  induction spans generalizing spans' with
  | nil =>
    cases spans' with
    | nil => rfl
    | cons s' spans' =>
      have hfirst' : Covered (s' :: spans') s'.start :=
        covered_cons.mpr (.inl ⟨le_rfl, h'.nonempty s' List.mem_cons_self⟩)
      obtain ⟨b, hb, -⟩ := (hsame s'.start).mpr hfirst'
      cases hb
  | cons s spans ih =>
    have hs := h.nonempty s List.mem_cons_self
    have hfirst : Covered (s :: spans) s.start := covered_cons.mpr (.inl ⟨le_rfl, hs⟩)
    cases spans' with
    | nil =>
      obtain ⟨b, hb, -⟩ := (hsame s.start).mp hfirst
      cases hb
    | cons s' spans' =>
      have hs' := h'.nonempty s' List.mem_cons_self
      have hfirst' : Covered (s' :: spans') s'.start := covered_cons.mpr (.inl ⟨le_rfl, hs'⟩)
      have hstart : s.start = s'.start :=
        le_antisymm (h.start_le ((hsame _).mpr hfirst')) (h'.start_le ((hsame _).mp hfirst))
      have hstop : s.stop = s'.stop :=
        le_antisymm (h'.stop_le hstart.symm fun t => (hsame t).symm) (h.stop_le hstart hsame)
      have hspan : s = s' := by
        cases s
        cases s'
        simpa using ⟨hstart, hstop⟩
      subst hspan
      congr 1
      refine ih h.tail h'.tail fun t => ⟨fun ht => ?_, fun ht => ?_⟩
      · have hafter := h.stop_lt ht
        rcases covered_cons.mp ((hsame t).mp (covered_cons.mpr (.inr ht))) with hin | hrest
        · omega
        · exact hrest
      · have hafter := h'.stop_lt ht
        rcases covered_cons.mp ((hsame t).mpr (covered_cons.mpr (.inr ht))) with hin | hrest
        · omega
        · exact hrest

/-! ### Counting -/

theorem Span.overlap_eq_card (s : Span) (lo hi : ℤ) :
    s.overlap lo hi = ((Finset.Ico lo hi).filter fun t => s.start ≤ t ∧ t < s.stop).card := by
  have hfilter : ((Finset.Ico lo hi).filter fun t => s.start ≤ t ∧ t < s.stop) =
      Finset.Ico (max s.start lo) (min s.stop hi) := by
    ext t
    simp only [Finset.mem_filter, Finset.mem_Ico, max_le_iff, lt_min_iff]
    omega
  rw [hfilter, Int.card_Ico, Span.overlap]
  split
  · omega
  · omega

/-- No integer is in two of the spans, which may touch. -/
def Disjointed (spans : List Span) : Prop :=
  spans.Pairwise fun a b => a.stop ≤ b.start ∨ b.stop ≤ a.start

theorem Apart.disjointed (h : Apart spans) : Disjointed spans :=
  h.imp fun hab => Or.inl hab.le

/-- Disjoint spans fill as much of a window as there are integers of it in them. -/
theorem overlap_eq_card_of_disjointed (h : Disjointed spans) (lo hi : ℤ) :
    overlap spans lo hi = ((Finset.Ico lo hi).filter fun t => Covered spans t).card := by
  induction spans with
  | nil => simp [overlap, Covered]
  | cons s spans ih =>
    obtain ⟨hs, hspans⟩ := List.pairwise_cons.mp h
    have hdisjoint : Disjoint ((Finset.Ico lo hi).filter fun t => s.start ≤ t ∧ t < s.stop)
        ((Finset.Ico lo hi).filter fun t => Covered spans t) := by
      rw [Finset.disjoint_filter]
      rintro t - ⟨hstart, hstop⟩ ⟨b, hb, hstart', hstop'⟩
      rcases hs b hb with hsb | hsb
      · omega
      · omega
    have hunion : ((Finset.Ico lo hi).filter fun t => Covered (s :: spans) t) =
        ((Finset.Ico lo hi).filter fun t => s.start ≤ t ∧ t < s.stop) ∪
          ((Finset.Ico lo hi).filter fun t => Covered spans t) := by
      rw [← Finset.filter_or]
      exact Finset.filter_congr fun t _ => covered_cons
    rw [hunion, Finset.card_union_of_disjoint hdisjoint, Nat.cast_add, ← Span.overlap_eq_card,
      ← ih hspans]
    rfl

theorem overlap_eq_card (h : Apart spans) (lo hi : ℤ) :
    overlap spans lo hi = ((Finset.Ico lo hi).filter fun t => Covered spans t).card :=
  overlap_eq_card_of_disjointed h.disjointed lo hi

theorem overlap_le (h : Disjointed spans) {lo hi : ℤ} (hle : lo ≤ hi) :
    overlap spans lo hi ≤ hi - lo := by
  rw [overlap_eq_card_of_disjointed h]
  have hcard := Finset.card_filter_le (Finset.Ico lo hi) fun t => Covered spans t
  rw [Int.card_Ico] at hcard
  omega

/-! ### Cells -/

/-- The cells of a grid of this period that a span touches: cell `k` is `[k * period, (k + 1) *
period)`. -/
def Span.cells (s : Span) (period : ℤ) : List ℤ :=
  (List.range ((s.stop - 1) / period - s.start / period + 1).toNat).map fun k : ℕ =>
    s.start / period + (k : ℤ)

def Span.inCell (s : Span) (period k : ℤ) : ℤ := s.overlap (k * period) ((k + 1) * period)

theorem Span.overlap_add (s : Span) {lo mid hi : ℤ} (hlo : lo ≤ mid) (hhi : mid ≤ hi) :
    s.overlap lo mid + s.overlap mid hi = s.overlap lo hi := by
  unfold Span.overlap
  split_ifs <;> omega

theorem Span.mem_cells {period k : ℤ} (hpos : 0 < period) :
    k ∈ s.cells period ↔ k * period < s.stop ∧ s.start < (k + 1) * period := by
  rw [cells, List.mem_map]
  have hstart : s.start < (k + 1) * period ↔ s.start / period ≤ k := by
    rw [← Int.ediv_lt_iff_lt_mul hpos, Int.lt_add_one_iff]
  have hstop : k * period < s.stop ↔ k ≤ (s.stop - 1) / period := by
    rw [Int.le_ediv_iff_mul_le hpos]
    omega
  rw [hstart, hstop]
  constructor
  · rintro ⟨n, hn, rfl⟩
    rw [List.mem_range] at hn
    omega
  · rintro ⟨hle, hge⟩
    refine ⟨(k - s.start / period).toNat, List.mem_range.mpr (by omega), by omega⟩

theorem Span.sum_inCell {period : ℤ} (hpos : 0 < period) (h : s.start < s.stop) :
    ((s.cells period).map (s.inCell period)).sum = s.stop - s.start := by
  have hsum : ∀ n : ℕ, (((List.range n).map fun k : ℕ => s.start / period + (k : ℤ)).map
      (s.inCell period)).sum =
        s.overlap (s.start / period * period) ((s.start / period + n) * period) := by
    intro n
    induction n with
    | zero =>
      rw [List.range_zero, List.map_nil, List.map_nil, List.sum_nil, Nat.cast_zero, add_zero,
        Span.overlap, if_neg (by omega)]
    | succ n ih =>
      rw [List.range_succ, List.map_append, List.map_append, List.sum_append, ih, List.map_singleton,
        List.map_singleton, List.sum_singleton, inCell]
      have hnext : s.start / period + ((n + 1 : ℕ) : ℤ) = s.start / period + n + 1 := by
        push_cast
        ring
      rw [hnext]
      refine s.overlap_add (mul_le_mul_of_nonneg_right (by omega) hpos.le)
        (mul_le_mul_of_nonneg_right (by omega) hpos.le)
  have hfirst := Int.ediv_mul_le s.start hpos.ne'
  have hlast := Int.lt_ediv_add_one_mul_self (s.stop - 1) hpos
  have horder : s.start / period ≤ (s.stop - 1) / period := Int.ediv_le_ediv hpos (by omega)
  rw [cells, hsum, Int.toNat_of_nonneg (by omega), Span.overlap]
  have hend : s.start / period + ((s.stop - 1) / period - s.start / period + 1) =
      (s.stop - 1) / period + 1 := by ring
  rw [hend, if_pos (by omega)]
  omega

end Vigil.Lib.Spans
