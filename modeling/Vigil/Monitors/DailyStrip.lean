import Vigil.Lib.Buckets
import Vigil.Lib.Spans
import Vigil.Monitors.UptimeSegments

/-! The daily strip of a public status page, `dailyUptime` of `status-pages/service.ts`: its query
splits the uptime segments at the midnights of UTC and adds up the parts of each day.  The bounds of
the segments it reads are microseconds since the epoch, and days are numbered from there. -/

namespace Vigil.Monitors.DailyStrip

open Lib.Spans Lib.Buckets Lib.Timeline UptimeSegments

/-- A row of `seg`. -/
structure UtcSegment where
  monitorId : ℕ
  ok : Bool
  utcStart : ℤ
  utcEnd : ℤ
  deriving DecidableEq, Repr

def dayUs : ℤ := 86400000000

/-- `generate_series` in steps of one, both ends included. -/
def generateSeries (first last : ℤ) : List ℤ :=
  (List.range (last - first + 1).toNat).map fun k : ℕ => first + (k : ℤ)

/-- The part of a segment that lies in a day. -/
structure Overlap where
  monitorId : ℕ
  ok : Bool
  day : ℤ
  ms : ℚ

/-- The rows of `overlap` for one segment: `extract(epoch from ..) * 1000` of its part of each day. -/
def overlapRows (seg : UtcSegment) : List Overlap :=
  (generateSeries (seg.utcStart / dayUs) ((seg.utcEnd - 1) / dayUs)).map fun day =>
    { monitorId := seg.monitorId
      ok := seg.ok
      day
      ms := ((min seg.utcEnd ((day + 1) * dayUs) - max seg.utcStart (day * dayUs) : ℤ) : ℚ) / 1000 }

structure DayRow where
  day : ℤ
  upMs : ℚ
  coveredMs : ℚ

/-- The rows of the query for one monitor, grouped by day and in order. -/
def dayRows (segments : List UtcSegment) (monitorId : ℕ) : List DayRow :=
  let rows := (segments.flatMap overlapRows).filter fun row => row.monitorId = monitorId
  ((rows.map (·.day)).dedup.insertionSort (· ≤ ·)).map fun day =>
    let group := rows.filter fun row => row.day = day
    { day
      upMs := ((group.filter (·.ok)).map (·.ms)).sum
      coveredMs := (group.map (·.ms)).sum }

structure DailyUptime where
  day : ℤ
  uptimePct : Option ℚ

def round2 (value : ℚ) : ℚ := (value * 100 + 1 / 2).floor / 100

/-- The entry of one monitor in the map that `dailyUptime` returns. -/
def dailyUptime (segments : List UtcSegment) (monitorId : ℕ) : List DailyUptime :=
  (dayRows segments monitorId).map fun row : DayRow =>
    { day := row.day
      uptimePct :=
        if row.coveredMs = (0 : ℚ) then none else some (round2 (row.upMs / row.coveredMs * 100)) }

/-! ### Totals -/

def UtcSegment.span (seg : UtcSegment) : Span := ⟨seg.utcStart, seg.utcEnd⟩

theorem UtcSegment.span_start (seg : UtcSegment) : seg.span.start = seg.utcStart := rfl

theorem UtcSegment.span_stop (seg : UtcSegment) : seg.span.stop = seg.utcEnd := rfl

/-- The time of some segments. -/
def totalMs (segments : List UtcSegment) : ℚ :=
  (segments.map fun seg => ((seg.utcEnd - seg.utcStart : ℤ) : ℚ) / 1000).sum

/-- What uptime segments of one monitor are: none is empty, and no instant is in two. -/
structure Proper (segments : List UtcSegment) : Prop where
  nonempty : ∀ seg ∈ segments, seg.utcStart < seg.utcEnd
  disjoint : segments.Pairwise fun a b => a.utcEnd ≤ b.utcStart ∨ b.utcEnd ≤ a.utcStart

structure Conserves (rows : List DayRow) (coveredMs upMs : ℚ) : Prop where
  oneRow : (rows.map (·.day)).Nodup
  covered : (rows.map (·.coveredMs)).sum = coveredMs
  up : (rows.map (·.upMs)).sum = upMs
  bounded : ∀ row ∈ rows, 0 ≤ row.upMs ∧ row.upMs ≤ row.coveredMs ∧ row.coveredMs ≤ 86400000

theorem generateSeries_eq (seg : UtcSegment) :
    generateSeries (seg.utcStart / dayUs) ((seg.utcEnd - 1) / dayUs) = seg.span.cells dayUs := rfl

theorem dayUs_pos : 0 < dayUs := by decide

/-- What a segment has on a day that it touches is its overlap with that day. -/
theorem overlap_of_mem {seg : UtcSegment} {day : ℤ} (h : seg.utcStart < seg.utcEnd)
    (hday : day ∈ seg.span.cells dayUs) :
    min seg.utcEnd ((day + 1) * dayUs) - max seg.utcStart (day * dayUs) =
        seg.span.inCell dayUs day ∧ 0 ≤ seg.span.inCell dayUs day := by
  obtain ⟨hstop, hstart⟩ := (Span.mem_cells dayUs_pos).mp hday
  have hcell : day * dayUs < (day + 1) * dayUs := by
    rw [add_mul, one_mul]
    exact lt_add_of_pos_right _ dayUs_pos
  rw [seg.span_stop] at hstop
  rw [seg.span_start] at hstart
  rw [Span.inCell, Span.overlap, seg.span_stop, seg.span_start, if_pos (by omega)]
  exact ⟨rfl, by omega⟩

theorem overlapRows_sum {seg : UtcSegment} (h : seg.utcStart < seg.utcEnd) :
    ((overlapRows seg).map (·.ms)).sum = ((seg.utcEnd - seg.utcStart : ℤ) : ℚ) / 1000 := by
  have hsum := Span.sum_inCell (s := seg.span) dayUs_pos h
  rw [overlapRows, generateSeries_eq, List.map_map]
  have hparts : (seg.span.cells dayUs).map ((fun row : Overlap => row.ms) ∘ fun day =>
      { monitorId := seg.monitorId, ok := seg.ok, day
        ms := ((min seg.utcEnd ((day + 1) * dayUs) - max seg.utcStart (day * dayUs) : ℤ) : ℚ) /
          1000 }) =
      (seg.span.cells dayUs).map fun day => ((seg.span.inCell dayUs day : ℤ) : ℚ) / 1000 := by
    refine List.map_congr_left fun day hday => ?_
    show ((_ : ℤ) : ℚ) / 1000 = _
    rw [(overlap_of_mem h hday).1]
  have hcast : ∀ days : List ℤ,
      (days.map fun day => ((seg.span.inCell dayUs day : ℤ) : ℚ) / 1000).sum =
        (((days.map (seg.span.inCell dayUs)).sum : ℤ) : ℚ) / 1000 := by
    intro days
    induction days with
    | nil => simp
    | cons day days ih =>
      rw [List.map_cons, List.sum_cons, ih, List.map_cons, List.sum_cons]
      push_cast
      ring
  rw [hparts, hcast, hsum]
  rfl

/-! ### Days -/

section Rows

variable {segments : List UtcSegment}

theorem rows_sum (h : ∀ seg ∈ segments, seg.utcStart < seg.utcEnd) :
    ((segments.flatMap overlapRows).map (·.ms)).sum = totalMs segments := by
  induction segments with
  | nil => rfl
  | cons seg segments ih =>
    rw [List.flatMap_cons, List.map_append, List.sum_append,
      overlapRows_sum (h seg List.mem_cons_self),
      ih fun other hother => h other (List.mem_cons_of_mem _ hother), totalMs, totalMs, List.map_cons,
      List.sum_cons]

theorem overlapRows_filter (seg : UtcSegment) (p : ℕ → Bool → Bool) :
    (overlapRows seg).filter (fun row => p row.monitorId row.ok) =
      if p seg.monitorId seg.ok then overlapRows seg else [] := by
  by_cases hp : p seg.monitorId seg.ok = true
  · rw [if_pos hp]
    refine List.filter_eq_self.mpr fun row hrow => ?_
    obtain ⟨day, -, rfl⟩ := List.mem_map.mp hrow
    exact hp
  · rw [if_neg hp]
    refine List.filter_eq_nil_iff.mpr fun row hrow => ?_
    obtain ⟨day, -, rfl⟩ := List.mem_map.mp hrow
    exact hp

/-- The rows of some of the segments are some of the rows. -/
theorem rows_filter (segments : List UtcSegment) (p : ℕ → Bool → Bool) :
    (segments.flatMap overlapRows).filter (fun row => p row.monitorId row.ok) =
      (segments.filter fun seg => p seg.monitorId seg.ok).flatMap overlapRows := by
  induction segments with
  | nil => rfl
  | cons seg segments ih =>
    rw [List.flatMap_cons, List.filter_append, ih, overlapRows_filter, List.filter_cons]
    split
    · rw [List.flatMap_cons]
    · rw [List.nil_append]

theorem ms_nonneg (h : ∀ seg ∈ segments, seg.utcStart < seg.utcEnd) :
    ∀ row ∈ segments.flatMap overlapRows, 0 ≤ row.ms := by
  intro row hrow
  obtain ⟨seg, hseg, hrow⟩ := List.mem_flatMap.mp hrow
  obtain ⟨day, hday, rfl⟩ := List.mem_map.mp hrow
  rw [generateSeries_eq] at hday
  obtain ⟨heq, hnonneg⟩ := overlap_of_mem (h seg hseg) hday
  show (0 : ℚ) ≤ ((_ : ℤ) : ℚ) / 1000
  rw [heq]
  exact div_nonneg (by exact_mod_cast hnonneg) (by norm_num)

theorem overlapRows_day_le {seg : UtcSegment} (h : seg.utcStart < seg.utcEnd) (day : ℤ) :
    (((overlapRows seg).filter fun row => row.day = day).map (·.ms)).sum ≤
      ((seg.span.inCell dayUs day : ℤ) : ℚ) / 1000 := by
  have hnodup : (seg.span.cells dayUs).Nodup := by
    rw [Span.cells]
    refine List.Nodup.map (fun a b hab => ?_) List.nodup_range
    have hab : seg.span.start / dayUs + (a : ℤ) = seg.span.start / dayUs + (b : ℤ) := hab
    omega
  have hnonneg : 0 ≤ seg.span.inCell dayUs day := by
    rw [Span.inCell, Span.overlap]
    split
    · omega
    · exact le_rfl
  rw [overlapRows, generateSeries_eq, List.filter_map, List.map_map]
  have hday : (fun row : Overlap => decide (row.day = day)) ∘ (fun day =>
      { monitorId := seg.monitorId, ok := seg.ok, day
        ms := ((min seg.utcEnd ((day + 1) * dayUs) - max seg.utcStart (day * dayUs) : ℤ) : ℚ) /
          1000 }) = fun other => decide (other = day) := rfl
  rw [hday, List.filter_eq]
  by_cases hmem : day ∈ seg.span.cells dayUs
  · rw [List.count_eq_one_of_mem hnodup hmem, List.replicate_one, List.map_singleton,
      List.sum_singleton]
    show ((_ : ℤ) : ℚ) / 1000 ≤ _
    rw [(overlap_of_mem h hmem).1]
  · rw [List.count_eq_zero_of_not_mem hmem, List.replicate_zero, List.map_nil, List.sum_nil]
    exact div_nonneg (by exact_mod_cast hnonneg) (by norm_num)

theorem day_sum_le (h : ∀ seg ∈ segments, seg.utcStart < seg.utcEnd) (day : ℤ) :
    (((segments.flatMap overlapRows).filter fun row => row.day = day).map (·.ms)).sum ≤
      ((overlap (segments.map UtcSegment.span) (day * dayUs) ((day + 1) * dayUs) : ℤ) : ℚ) / 1000 := by
  induction segments with
  | nil => simp [overlap]
  | cons seg segments ih =>
    have hrest := ih fun other hother => h other (List.mem_cons_of_mem _ hother)
    have hhead : (((overlapRows seg).filter fun row => row.day = day).map (·.ms)).sum ≤
        ((seg.span.inCell dayUs day : ℤ) : ℚ) / 1000 :=
      overlapRows_day_le (h seg List.mem_cons_self) day
    rw [List.flatMap_cons, List.filter_append, List.map_append, List.sum_append]
    have hcons : overlap ((seg :: segments).map UtcSegment.span) (day * dayUs) ((day + 1) * dayUs) =
        seg.span.inCell dayUs day +
          overlap (segments.map UtcSegment.span) (day * dayUs) ((day + 1) * dayUs) := rfl
    rw [hcons]
    push_cast
    linarith

theorem overlap_spans_le (h : Proper segments) (day : ℤ) :
    overlap (segments.map UtcSegment.span) (day * dayUs) ((day + 1) * dayUs) ≤ dayUs := by
  have hdisjoint : Disjointed (segments.map UtcSegment.span) := List.pairwise_map.mpr h.disjoint
  have hle : day * dayUs ≤ (day + 1) * dayUs :=
    mul_le_mul_of_nonneg_right (by omega) dayUs_pos.le
  have hcell : (day + 1) * dayUs - day * dayUs = dayUs := by ring
  exact (overlap_le hdisjoint hle).trans hcell.le

end Rows

theorem dayRows_own (segments : List UtcSegment) (monitorId : ℕ) :
    (segments.flatMap overlapRows).filter (fun row => row.monitorId = monitorId) =
      (segments.filter fun seg => seg.monitorId = monitorId).flatMap overlapRows :=
  rows_filter segments fun id _ => decide (id = monitorId)

theorem dayRows_conserves {segments : List UtcSegment} {monitorId : ℕ}
    (h : Proper (segments.filter fun seg => seg.monitorId = monitorId)) :
    Conserves (dayRows segments monitorId)
      (totalMs (segments.filter fun seg => seg.monitorId = monitorId))
      (totalMs ((segments.filter fun seg => seg.monitorId = monitorId).filter (·.ok))) := by
  generalize howned : segments.filter (fun seg => seg.monitorId = monitorId) = owned at h
  let rows := owned.flatMap overlapRows
  let days := (rows.map (·.day)).dedup.insertionSort (· ≤ ·)
  have hperm : days.Perm (rows.map (·.day)).dedup := List.perm_insertionSort _ _
  have hnodup : days.Nodup := hperm.nodup_iff.mpr (List.nodup_dedup _)
  have hmem : ∀ row ∈ rows, row.day ∈ days := fun row hrow =>
    hperm.mem_iff.mpr (List.mem_dedup.mpr (List.mem_map_of_mem hrow))
  have hok : ∀ day, ((rows.filter fun row => row.day = day).filter (·.ok)) =
      (rows.filter (·.ok)).filter fun row => row.day = day := by
    intro day
    rw [List.filter_filter, List.filter_filter]
    exact List.filter_congr fun row _ => Bool.and_comm ..
  have hrows : dayRows segments monitorId = days.map fun day =>
      { day
        upMs := (((rows.filter (·.ok)).filter fun row => row.day = day).map (·.ms)).sum
        coveredMs := ((rows.filter fun row => row.day = day).map (·.ms)).sum } := by
    simp only [dayRows, dayRows_own, howned, ← hok]
    rfl
  have hup : rows.filter (·.ok) = (owned.filter (·.ok)).flatMap overlapRows :=
    rows_filter owned fun _ ok => ok
  rw [hrows]
  refine ⟨?_, ?_, ?_, ?_⟩
  · rw [List.map_map]
    simpa [Function.comp_def] using hnodup
  · rw [List.map_map]
    exact (sum_groups (fun row : Overlap => row.day) (·.ms) hnodup hmem).trans
      (rows_sum h.nonempty)
  · rw [List.map_map, ← rows_sum fun seg hseg => h.nonempty seg (List.mem_of_mem_filter hseg), ← hup]
    exact sum_groups (fun row : Overlap => row.day) (·.ms) hnodup
      fun row hrow => hmem row (List.mem_of_mem_filter hrow)
  · intro row hrow
    obtain ⟨day, -, rfl⟩ := List.mem_map.mp hrow
    have hnonneg : ∀ row ∈ rows, 0 ≤ row.ms := ms_nonneg h.nonempty
    dsimp only
    rw [← hok]
    refine ⟨?_, ?_, ?_⟩
    · refine List.sum_nonneg fun ms hms => ?_
      obtain ⟨row, hrow, rfl⟩ := List.mem_map.mp hms
      exact hnonneg row (List.mem_of_mem_filter (List.mem_of_mem_filter hrow))
    · refine (List.filter_sublist.map _).sum_le_sum fun ms hms => ?_
      obtain ⟨row, hrow, rfl⟩ := List.mem_map.mp hms
      exact hnonneg row (List.mem_of_mem_filter hrow)
    · refine (day_sum_le h.nonempty day).trans ?_
      have hle : ((overlap (owned.map UtcSegment.span) (day * dayUs) ((day + 1) * dayUs) : ℤ) : ℚ) ≤
          dayUs := by exact_mod_cast overlap_spans_le h day
      have hdayUs : (dayUs : ℚ) / 1000 = 86400000 := by
        rw [dayUs]
        norm_num
      rw [← hdayUs]
      gcongr

/-! ### The segments of the status page -/

/-- `seg`: the bounds of an uptime segment, in microseconds. -/
def toUtc (segment : Segment) : UtcSegment where
  monitorId := segment.monitorId
  ok := segment.ok
  utcStart := segment.segStart * 1000
  utcEnd := segment.segEnd * 1000

theorem totalMs_toUtc (segments : List Segment) :
    totalMs (segments.map toUtc) = (coveredMs segments : ℚ) := by
  induction segments with
  | nil => simp [totalMs, coveredMs]
  | cons segment segments ih =>
    have hduration : (((segment.segEnd * 1000 - segment.segStart * 1000 : ℤ) : ℚ)) / 1000 =
        (segment.durationMs : ℚ) := by
      rw [Segment.durationMs]
      push_cast
      ring
    have hcons : totalMs ((segment :: segments).map toUtc) =
        ((segment.segEnd * 1000 - segment.segStart * 1000 : ℤ) : ℚ) / 1000 +
          totalMs (segments.map toUtc) := rfl
    rw [hcons, hduration, ih, coveredMs_cons, Int.cast_add]

/-- The segments that the query reads are proper, one monitor at a time. -/
theorem uptimeSegments_proper (checks : List MonitorCheck) (monitors : List Cadence)
    (monitorIds : List ℕ) (windowStart windowEnd : ℤ) (monitorId : ℕ) :
    Proper (((uptimeSegments checks monitors monitorIds windowStart windowEnd).filter
      (·.monitorId = monitorId)).map toUtc) := by
  rw [uptimeSegments_partition]
  constructor
  · intro seg hseg
    obtain ⟨segment, hsegment, rfl⟩ := List.mem_map.mp hseg
    have hpos := durationMs_pos segment hsegment
    rw [Segment.durationMs] at hpos
    simp only [toUtc]
    omega
  · rw [List.pairwise_map]
    refine (partitionSegments_ordered (sortByTime_pairwise _ _)).imp fun {a b} hab => Or.inl ?_
    simp only [toUtc]
    omega

theorem filter_toUtc (segments : List Segment) (monitorId : ℕ) :
    (segments.map toUtc).filter (fun seg => seg.monitorId = monitorId) =
      (segments.filter (·.monitorId = monitorId)).map toUtc := by
  rw [List.filter_map]
  rfl

/-- The strip has one row for a day, its days add up to the totals of the segments, and a day holds no
more than a day.  This is so of all segments that are proper, and so of those of every history and
window. -/
theorem daily_strip_conserves (segments : List UtcSegment) (monitorId : ℕ) :
    (Proper (segments.filter fun seg => seg.monitorId = monitorId) →
      Conserves (dayRows segments monitorId)
        (totalMs (segments.filter fun seg => seg.monitorId = monitorId))
        (totalMs ((segments.filter fun seg => seg.monitorId = monitorId).filter (·.ok)))) ∧
    ∀ checks monitors monitorIds windowStart windowEnd uptime,
      uptime = uptimeSegments checks monitors monitorIds windowStart windowEnd →
      Conserves (dayRows (uptime.map toUtc) monitorId)
        (coveredMs (uptime.filter (·.monitorId = monitorId)))
        (upMs (uptime.filter (·.monitorId = monitorId))) := by
  refine ⟨dayRows_conserves, ?_⟩
  rintro checks monitors monitorIds windowStart windowEnd uptime rfl
  have hproper := uptimeSegments_proper checks monitors monitorIds windowStart windowEnd monitorId
  rw [← filter_toUtc] at hproper
  have hconserves := dayRows_conserves hproper
  rw [filter_toUtc, totalMs_toUtc, List.filter_map, totalMs_toUtc] at hconserves
  exact hconserves

/-- An outage over the turn of a day. -/
theorem daily_strip_conserves_outage :
    Conserves (dayRows [⟨1, true, 0, 82800000000⟩, ⟨1, false, 82800000000, 90000000000⟩] 1)
      90000000 82800000 := by
  have hconserves := (daily_strip_conserves
    [⟨1, true, 0, 82800000000⟩, ⟨1, false, 82800000000, 90000000000⟩] 1).1
    ⟨by decide, by decide⟩
  have hcovered : totalMs [⟨1, true, 0, 82800000000⟩, ⟨1, false, 82800000000, 90000000000⟩] =
      90000000 := by norm_num [totalMs]
  have hup : totalMs [⟨1, true, 0, 82800000000⟩] = 82800000 := by norm_num [totalMs]
  rw [← hcovered, ← hup]
  exact hconserves

end Vigil.Monitors.DailyStrip
