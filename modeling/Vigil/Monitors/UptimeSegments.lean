import Vigil.Monitors.StatusController
import Vigil.Monitors.Uptime
import Mathlib.Algebra.Order.BigOperators.Group.List

/-! The SQL expression of the uptime rule: `uptimeSegments` of `monitors/uptime.ts`, one row per
segment, and the sums that `uptimeByMonitor` of `monitors/service.ts` takes over them.  A query is
the list of its rows; `lead` runs over each partition sorted by `checked_at`.  The interval that the
monitor form accepts keeps `interval_seconds * 3` inside the range of the column. -/

namespace Vigil.Monitors.UptimeSegments

open Lib.Timeline StatusController Uptime

/-- A row of the checks, as far as uptime reads it. -/
structure MonitorCheck where
  monitorId : ℕ
  checkedAt : ℤ
  ok : Bool
  verdict : Option Verdict
  deriving DecidableEq, Repr

/-- What of a monitor the horizon of its checks depends on. -/
structure Cadence where
  id : ℕ
  intervalSeconds : ℤ
  checkType : String
  deriving DecidableEq, Repr

/-- `verdict is distinct from 'indeterminate'`, which is true of a null verdict. -/
def measured (check : MonitorCheck) : Bool := check.verdict != some .indeterminate

def intervalHorizon (monitor : Cadence) : ℤ := max 60 (monitor.intervalSeconds * 3)

def horizonSeconds (monitor : Cadence) : ℤ :=
  if standingObservationCheckTypeIds.contains monitor.checkType then standingHorizonSeconds
  else intervalHorizon monitor

/-- A check beside its monitor. -/
structure Joined where
  check : MonitorCheck
  monitor : Cadence
  deriving DecidableEq, Repr

/-- `checked_at + make_interval(secs => HORIZON_SECONDS)`. -/
def Joined.expires (row : Joined) : ℤ := row.check.checkedAt + horizonSeconds row.monitor * 1000

/-- The rows that the inner query selects, before its window function runs. -/
def selected (checks : List MonitorCheck) (monitors : List Cadence) (monitorIds : List ℕ)
    (windowStart windowEnd : ℤ) : List Joined :=
  (checks.flatMap fun check =>
      (monitors.filter fun monitor => monitor.id = check.monitorId).map fun monitor =>
        { check, monitor }).filter fun row =>
    monitorIds.contains row.check.monitorId ∧ measured row.check ∧
      row.check.checkedAt < windowEnd ∧
      row.check.checkedAt > windowStart - horizonSeconds row.monitor * 1000

/-- `lead(checked_at)` over a partition in its order. -/
def lead : List Joined → List (Joined × Option ℤ)
  | [] => []
  | row :: rest => (row, rest.head?.map (·.check.checkedAt)) :: lead rest

/-- One partition per monitor, each ordered by `checked_at`. -/
def withLead (rows : List Joined) : List (Joined × Option ℤ) :=
  (rows.map (·.check.monitorId)).dedup.flatMap fun monitorId =>
    lead (sortByTime (·.check.checkedAt) (rows.filter fun row => row.check.monitorId = monitorId))

/-- The span that a check counts for, and whether it was up. -/
structure Segment where
  monitorId : ℕ
  ok : Bool
  segStart : ℤ
  segEnd : ℤ
  deriving DecidableEq, Repr

def Segment.durationMs (segment : Segment) : ℤ := segment.segEnd - segment.segStart

/-- The clipped segment of one row, with `coalesce(lead(..), end)` as the next sample. -/
def clip (windowStart windowEnd : ℤ) (row : Joined × Option ℤ) : Segment where
  monitorId := row.1.check.monitorId
  ok := row.1.check.ok
  segStart := max row.1.check.checkedAt windowStart
  segEnd := min (min (row.2.getD windowEnd) windowEnd) row.1.expires

def uptimeSegments (checks : List MonitorCheck) (monitors : List Cadence) (monitorIds : List ℕ)
    (windowStart windowEnd : ℤ) : List Segment :=
  ((withLead (selected checks monitors monitorIds windowStart windowEnd)).map
    (clip windowStart windowEnd)).filter fun segment => segment.segEnd > segment.segStart

def coveredMs (segments : List Segment) : ℤ := (segments.map Segment.durationMs).sum

/-- `sum(duration_ms) filter (where ok)`, where no row at all counts as zero. -/
def upMs (segments : List Segment) : ℤ := coveredMs (segments.filter (·.ok))

/-- The entry of one monitor in the map that `uptimeByMonitor` returns: `group by monitor_id` has no
row for a monitor without segments. -/
def uptimeByMonitor (checks : List MonitorCheck) (monitors : List Cadence) (monitorIds : List ℕ)
    (windowStart windowEnd : ℤ) (monitorId : ℕ) : Option UptimeResult :=
  let group := (uptimeSegments checks monitors monitorIds windowStart windowEnd).filter
    (·.monitorId = monitorId)
  if monitorIds.length = 0 then none
  else if group = [] then none
  else
    let covered := coveredMs group
    let up := upMs group
    some
      { coveredMs := covered
        upMs := up
        uncoveredMs := max 0 (windowEnd - windowStart) - covered
        uptimePct := if covered = 0 then none else some (up / covered * 100) }

def samplesOf (checks : List MonitorCheck) (monitorId : ℕ) : List UptimeSample :=
  (checks.filter fun check => check.monitorId = monitorId ∧ measured check).map fun check =>
    { at_ := check.checkedAt, ok := check.ok }

/-! ### The rows of one monitor -/

theorem horizonSeconds_eq (monitor : Cadence) :
    horizonSeconds monitor * 1000 =
      coverageHorizonMs monitor.intervalSeconds (some monitor.checkType) := by
  by_cases h : monitor.checkType ∈ standingObservationCheckTypeIds
  · simp [horizonSeconds, coverageHorizonMs, standsIndefinitely, h, standingHorizonMs]
  · simp only [horizonSeconds, coverageHorizonMs, Option.any_some, standsIndefinitely,
      List.contains_iff_mem, h, if_false, intervalHorizon]
    omega

def inScan (m : Cadence) (windowStart windowEnd : ℤ) (check : MonitorCheck) : Bool :=
  check.monitorId = m.id ∧ measured check ∧ check.checkedAt < windowEnd ∧
    check.checkedAt > windowStart - horizonSeconds m * 1000

variable {monitors : List Cadence} {m : Cadence} {checks : List MonitorCheck}
  {windowStart windowEnd : ℤ} {rows : List Joined}

theorem filter_id_eq_singleton (unique : (monitors.map (·.id)).Nodup) (hm : m ∈ monitors) :
    (monitors.filter fun monitor => monitor.id = m.id) = [m] := by
  induction monitors with
  | nil => simp at hm
  | cons head rest ih =>
    obtain ⟨hhead, hrest⟩ := List.nodup_cons.mp (List.map_cons ▸ unique)
    rcases List.mem_cons.mp hm with rfl | hm
    · have hnone : (rest.filter fun monitor => monitor.id = m.id) = [] := by
        refine List.filter_eq_nil_iff.mpr fun monitor hmonitor hid => hhead ?_
        exact List.mem_map.mpr ⟨monitor, hmonitor, by simpa using hid⟩
      simp [hnone]
    · have hne : ¬head.id = m.id := fun h => hhead (List.mem_map.mpr ⟨m, hm, h.symm⟩)
      rw [List.filter_cons_of_neg (by simpa using hne), ih hrest hm]

/-- The partition of `m`: every check of `m` joins `m` alone. -/
theorem selected_partition {monitorIds : List ℕ} (unique : (monitors.map (·.id)).Nodup)
    (hm : m ∈ monitors) (hid : m.id ∈ monitorIds) :
    ((selected checks monitors monitorIds windowStart windowEnd).filter fun row =>
        row.check.monitorId = m.id) =
      (checks.filter (inScan m windowStart windowEnd)).map fun check => ⟨check, m⟩ := by
  unfold selected
  induction checks with
  | nil => rfl
  | cons check rest ih =>
    rw [List.flatMap_cons, List.filter_append, List.filter_append, ih]
    by_cases hcheck : check.monitorId = m.id
    · rw [hcheck, filter_id_eq_singleton unique hm]
      by_cases hscan : inScan m windowStart windowEnd check = true
      · rw [List.filter_cons_of_pos hscan]
        simp only [inScan, decide_eq_true_eq] at hscan
        simp [hcheck, hid, hscan]
      · rw [List.filter_cons_of_neg hscan]
        simp only [inScan, decide_eq_true_eq, hcheck, true_and] at hscan
        simp [hcheck, hid, hscan]
    · have hscan : ¬inScan m windowStart windowEnd check = true := by simp [inScan, hcheck]
      rw [List.filter_cons_of_neg hscan, List.filter_filter]
      have hnone : ∀ l : List Cadence, ((l.map fun monitor => Joined.mk check monitor).filter
          fun row => decide (row.check.monitorId = m.id) &&
            decide (monitorIds.contains row.check.monitorId ∧ measured row.check ∧
              row.check.checkedAt < windowEnd ∧
              row.check.checkedAt > windowStart - horizonSeconds row.monitor * 1000)) = [] := by
        intro l
        simp [List.filter_eq_nil_iff, hcheck]
      rw [hnone, List.nil_append]

/-- Of groups laid end to end, filtering by the key of one leaves that group. -/
theorem filter_flatMap_key {β : Type} {ids : List ℕ} {group : ℕ → List β} {key : β → ℕ} {k : ℕ}
    (unique : ids.Nodup) (hkey : ∀ i, ∀ b ∈ group i, key b = i) (hout : k ∉ ids → group k = []) :
    (ids.flatMap group).filter (fun b => key b = k) = group k := by
  have hself : (group k).filter (fun b => key b = k) = group k :=
    List.filter_eq_self.mpr fun b hb => by simpa using hkey k b hb
  have hother : ∀ i, i ≠ k → (group i).filter (fun b => key b = k) = [] := by
    intro i hi
    refine List.filter_eq_nil_iff.mpr fun b hb => ?_
    simpa [hkey i b hb] using hi
  induction ids with
  | nil => simp [hout]
  | cons i rest ih =>
    obtain ⟨hi, hrest⟩ := List.nodup_cons.mp unique
    rw [List.flatMap_cons, List.filter_append]
    by_cases hik : i = k
    · subst hik
      have hnone : (rest.flatMap group).filter (fun b => key b = i) = [] := by
        refine List.filter_eq_nil_iff.mpr fun b hb => ?_
        obtain ⟨j, hj, hbj⟩ := List.mem_flatMap.mp hb
        have : j ≠ i := fun h => hi (h ▸ hj)
        simpa [hkey j b hbj] using this
      rw [hself, hnone, List.append_nil]
    · rw [hother i hik, List.nil_append]
      exact ih hrest fun hk => hout (by simp [Ne.symm hik, hk])

/-! ### One partition -/

def toSample (row : Joined) : UptimeSample := ⟨row.check.checkedAt, row.check.ok⟩

def partitionSegments (windowStart windowEnd : ℤ) (rows : List Joined) : List Segment :=
  ((lead rows).map (clip windowStart windowEnd)).filter fun segment =>
    segment.segEnd > segment.segStart

theorem partitionSegments_cons (windowStart windowEnd : ℤ) (row : Joined) (rest : List Joined) :
    partitionSegments windowStart windowEnd (row :: rest) =
      (let segment := clip windowStart windowEnd (row, rest.head?.map (·.check.checkedAt))
       if segment.segEnd > segment.segStart then
         segment :: partitionSegments windowStart windowEnd rest
       else partitionSegments windowStart windowEnd rest) := by
  simp [partitionSegments, lead, List.filter_cons]

@[simp] theorem coveredMs_cons (segment : Segment) (segments : List Segment) :
    coveredMs (segment :: segments) = segment.durationMs + coveredMs segments := by
  simp [coveredMs]

theorem upMs_cons (segment : Segment) (segments : List Segment) :
    upMs (segment :: segments) =
      if segment.ok then segment.durationMs + upMs segments else upMs segments := by
  cases h : segment.ok <;> simp [upMs, h]

/-- The loop over the samples of a partition adds up its segments. -/
theorem accumulate_eq_segments (window : UptimeWindowBounds) (monitor : Cadence)
    (rows : List Joined) (hrows : ∀ row ∈ rows, row.monitor = monitor) (covered up : ℤ) :
    accumulate window (horizonSeconds monitor * 1000) (rows.map toSample) covered up =
      (covered + coveredMs (partitionSegments window.start window.end_ rows),
        up + upMs (partitionSegments window.start window.end_ rows)) := by
  induction rows generalizing covered up with
  | nil => simp [accumulate, partitionSegments, lead, coveredMs, upMs]
  | cons row rest ih =>
    obtain rfl : row.monitor = monitor := hrows row List.mem_cons_self
    have ih := ih fun row h => hrows row (List.mem_cons_of_mem _ h)
    have hnext : ((rest.map toSample).head?.map (·.at_)) =
        rest.head?.map (·.check.checkedAt) := by
      cases rest <;> rfl
    rw [List.map_cons, accumulate, partitionSegments_cons]
    simp only [hnext, toSample, clip, Joined.expires, gt_iff_lt]
    split
    · rename_i hempty
      rw [if_neg (not_lt.mpr (sub_nonpos.mp hempty)), ih]
    · rename_i hpos
      rw [if_pos (sub_pos.mp (not_le.mp hpos)), ih, coveredMs_cons, upMs_cons]
      simp only [Segment.durationMs]
      cases row.check.ok <;> simp <;> omega

theorem coveredMs_pos {segments : List Segment} (hne : segments ≠ [])
    (hpos : ∀ segment ∈ segments, 0 < segment.durationMs) : 0 < coveredMs segments := by
  refine List.sum_pos (segments.map Segment.durationMs) (fun d hd => ?_) (by simpa using hne)
  obtain ⟨segment, hsegment, rfl⟩ := List.mem_map.mp hd
  exact hpos segment hsegment

theorem durationMs_pos :
    ∀ segment ∈ partitionSegments windowStart windowEnd rows, 0 < segment.durationMs := by
  intro segment hsegment
  have := (List.mem_filter.mp hsegment).2
  simp only [Segment.durationMs, decide_eq_true_eq] at this ⊢
  omega

theorem lead_subset : ∀ row ∈ lead rows, row.1 ∈ rows := by
  induction rows with
  | nil => simp [lead]
  | cons row rest ih =>
    intro r hr
    rcases List.mem_cons.mp hr with rfl | hr
    · exact List.mem_cons_self
    · exact List.mem_cons_of_mem _ (ih r hr)

theorem partitionSegments_monitorId {id : ℕ} (hrows : ∀ row ∈ rows, row.check.monitorId = id) :
    ∀ segment ∈ partitionSegments windowStart windowEnd rows, segment.monitorId = id := by
  intro segment hsegment
  obtain ⟨row, hrow, rfl⟩ := List.mem_map.mp (List.mem_of_mem_filter hsegment)
  exact hrows row.1 (lead_subset row hrow)

/-! ### The two paths agree -/

def partitionRows (checks : List MonitorCheck) (m : Cadence) (windowStart windowEnd : ℤ) :
    List Joined :=
  sortByTime (·.check.checkedAt)
    ((checks.filter (inScan m windowStart windowEnd)).map fun check => ⟨check, m⟩)

theorem partitionRows_monitor :
    ∀ row ∈ partitionRows checks m windowStart windowEnd, row.monitor = m := by
  intro row hrow
  obtain ⟨check, -, rfl⟩ := List.mem_map.mp ((mem_sortByTime _).mp hrow)
  rfl

/-- The segments of one monitor are those of its partition. -/
theorem uptimeSegments_partition (checks : List MonitorCheck) (monitors : List Cadence)
    (monitorIds : List ℕ) (windowStart windowEnd : ℤ) (id : ℕ) :
    (uptimeSegments checks monitors monitorIds windowStart windowEnd).filter (·.monitorId = id) =
      partitionSegments windowStart windowEnd (sortByTime (·.check.checkedAt)
        ((selected checks monitors monitorIds windowStart windowEnd).filter fun row =>
          row.check.monitorId = id)) := by
  let rows := selected checks monitors monitorIds windowStart windowEnd
  let group := fun id => partitionSegments windowStart windowEnd
    (sortByTime (·.check.checkedAt) (rows.filter fun row => row.check.monitorId = id))
  have hgroups : uptimeSegments checks monitors monitorIds windowStart windowEnd =
      (rows.map (·.check.monitorId)).dedup.flatMap group := by
    simp only [uptimeSegments, withLead, List.map_flatMap, List.filter_flatMap]
    rfl
  have hkey : ∀ id, ∀ segment ∈ group id, segment.monitorId = id := by
    intro id
    refine partitionSegments_monitorId fun row hrow => ?_
    simpa using (List.mem_filter.mp ((mem_sortByTime _).mp hrow)).2
  have hout : id ∉ (rows.map (·.check.monitorId)).dedup → group id = [] := by
    intro hnot
    have hnone : (rows.filter fun row => row.check.monitorId = id) = [] := by
      refine List.filter_eq_nil_iff.mpr fun row hrow hrowid => hnot ?_
      exact List.mem_dedup.mpr (List.mem_map.mpr ⟨row, hrow, by simpa using hrowid⟩)
    simp only [group, hnone]
    rfl
  rw [hgroups, filter_flatMap_key (List.nodup_dedup _) hkey hout]

theorem uptimeSegments_group {monitorIds : List ℕ} (unique : (monitors.map (·.id)).Nodup)
    (hm : m ∈ monitors) (hid : m.id ∈ monitorIds) :
    (uptimeSegments checks monitors monitorIds windowStart windowEnd).filter
        (·.monitorId = m.id) =
      partitionSegments windowStart windowEnd (partitionRows checks m windowStart windowEnd) := by
  rw [uptimeSegments_partition, selected_partition unique hm hid, partitionRows]

theorem partitionSegments_ordered
    (sorted : rows.Pairwise fun a b => a.check.checkedAt ≤ b.check.checkedAt) :
    (partitionSegments windowStart windowEnd rows).Pairwise fun a b => a.segEnd ≤ b.segStart := by
  induction rows with
  | nil => exact List.Pairwise.nil
  | cons row rest ih =>
    obtain ⟨-, hrest⟩ := List.pairwise_cons.mp sorted
    rw [partitionSegments_cons]
    dsimp only
    split
    · refine List.pairwise_cons.mpr ⟨fun segment hsegment => ?_, ih hrest⟩
      obtain ⟨later, hlater, rfl⟩ := List.mem_map.mp (List.mem_of_mem_filter hsegment)
      have hmem := lead_subset later hlater
      cases rest with
      | nil => cases hmem
      | cons next rest =>
        have hnext : next.check.checkedAt ≤ later.1.check.checkedAt := by
          rcases List.mem_cons.mp hmem with heq | hmem
          · rw [heq]
          · exact (List.pairwise_cons.mp hrest).1 later.1 hmem
        simp only [clip, List.head?_cons, Option.map_some, Option.getD_some]
        omega
    · exact ih hrest

/-- The ordered partition of `m` is the ordered list of samples that `uptimeFromSamples` walks. -/
theorem partitionRows_map_toSample {window : UptimeWindowBounds} {samples : List UptimeSample}
    (hsamples : samples.Perm (samplesOf checks m.id))
    (distinct : ((samplesOf checks m.id).map (·.at_)).Nodup) :
    (partitionRows checks m window.start window.end_).map toSample =
      ordered samples window (horizonSeconds m * 1000) := by
  have hsort : ∀ l : List Joined, (sortByTime (·.check.checkedAt) l).map toSample =
      sortByTime UptimeSample.at_ (l.map toSample) :=
    fun l => (sortByTime_map (fun row : Joined => row.check.checkedAt) toSample
      (fun _ => rfl) l).symm
  rw [ordered_eq_of_perm hsamples distinct, partitionRows, hsort, ordered, samplesOf,
    List.map_map, List.filter_map, List.filter_filter]
  congr 2
  refine List.filter_congr fun check _ => ?_
  simp only [inScan, Function.comp, ← Bool.decide_and, decide_eq_decide]
  constructor
  · rintro ⟨hid, hmeasured, hend, hstart⟩
    exact ⟨⟨by omega, hend⟩, hid, hmeasured⟩
  · rintro ⟨⟨hstart, hend⟩, hid, hmeasured⟩
    exact ⟨hid, hmeasured, hend, by omega⟩

theorem partitionSegments_of_empty (h : windowEnd ≤ windowStart) :
    partitionSegments windowStart windowEnd rows = [] := by
  refine List.filter_eq_nil_iff.mpr fun segment hsegment => ?_
  obtain ⟨row, -, rfl⟩ := List.mem_map.mp hsegment
  have hclosed : ¬(clip windowStart windowEnd row).segEnd >
      (clip windowStart windowEnd row).segStart := by
    simp only [clip]
    omega
  simpa using hclosed

theorem uptimeFromSamples_eq_segments (window : UptimeWindowBounds) {samples : List UptimeSample}
    (hsamples : samples.Perm (samplesOf checks m.id))
    (distinct : ((samplesOf checks m.id).map (·.at_)).Nodup) :
    let segments := partitionSegments window.start window.end_
      (partitionRows checks m window.start window.end_)
    uptimeFromSamples samples window (coverageHorizonMs m.intervalSeconds (some m.checkType)) =
      { coveredMs := coveredMs segments
        upMs := upMs segments
        uncoveredMs := max 0 (window.end_ - window.start) - coveredMs segments
        uptimePct := if coveredMs segments = 0 then none
          else some (upMs segments / coveredMs segments * 100) } := by
  intro segments
  rw [← horizonSeconds_eq, uptimeFromSamples]
  by_cases hempty : max 0 (window.end_ - window.start) = 0
  · have hnone : segments = [] := partitionSegments_of_empty (by omega)
    simp [hempty, hnone, coveredMs, upMs]
  · rw [← partitionRows_map_toSample hsamples distinct,
      accumulate_eq_segments window m _ partitionRows_monitor]
    simp [hempty, segments]

/-- The query and the loop agree: the segments of a monitor add up to the totals that
`uptimeFromSamples` computes from its measured rows, in whatever order these come, and
`uptimeByMonitor` has that result exactly when some time was covered. -/
theorem uptimeSegments_agrees (checks : List MonitorCheck) (monitors : List Cadence)
    (monitorIds : List ℕ) (window : UptimeWindowBounds) (m : Cadence)
    (samples : List UptimeSample) (unique : (monitors.map (·.id)).Nodup) (hm : m ∈ monitors)
    (hid : m.id ∈ monitorIds) (distinct : ((samplesOf checks m.id).map (·.at_)).Nodup)
    (hsamples : samples.Perm (samplesOf checks m.id)) :
    let segments := (uptimeSegments checks monitors monitorIds window.start window.end_).filter
      (·.monitorId = m.id)
    let r := uptimeFromSamples samples window
      (coverageHorizonMs m.intervalSeconds (some m.checkType))
    coveredMs segments = r.coveredMs ∧ upMs segments = r.upMs ∧
      uptimeByMonitor checks monitors monitorIds window.start window.end_ m.id =
        if r.coveredMs = 0 then none else some r := by
  intro segments r
  have hsegments : segments = partitionSegments window.start window.end_
      (partitionRows checks m window.start window.end_) :=
    uptimeSegments_group unique hm hid
  have hr := uptimeFromSamples_eq_segments window hsamples distinct
  rw [← hsegments] at hr
  have hids : ¬monitorIds.length = 0 := by
    rintro h
    simp [List.length_eq_zero_iff.mp h] at hid
  have hgroup : uptimeByMonitor checks monitors monitorIds window.start window.end_ m.id =
      if segments = [] then none else some r := by
    simp only [r, hr, uptimeByMonitor, if_neg hids]
    rfl
  refine ⟨by simp only [r, hr], by simp only [r, hr], ?_⟩
  rw [hgroup]
  have hcovered : r.coveredMs = coveredMs segments := by simp only [r, hr]
  rw [hcovered]
  by_cases hnone : segments = []
  · rw [if_pos hnone, hnone]
    rfl
  · have hpos : 0 < coveredMs segments := coveredMs_pos hnone (hsegments ▸ durationMs_pos)
    rw [if_neg hnone, if_neg hpos.ne']

/-- A monitor checked every minute: one sample before the window, an indeterminate one inside it and
a failure that the horizon cuts off. -/
theorem uptimeSegments_agrees_minute :
    let checks : List MonitorCheck :=
      [⟨1, -60000, true, some .up⟩, ⟨1, 30000, false, some .indeterminate⟩,
        ⟨2, 40000, true, some .up⟩, ⟨1, 60000, false, none⟩]
    let monitors : List Cadence := [⟨1, 60, "http"⟩, ⟨2, 60, "manual"⟩]
    let segments := (uptimeSegments checks monitors [1] 0 300000).filter (·.monitorId = 1)
    coveredMs segments = 240000 ∧ upMs segments = 60000 := by
  have h := uptimeSegments_agrees
    [⟨1, -60000, true, some .up⟩, ⟨1, 30000, false, some .indeterminate⟩,
      ⟨2, 40000, true, some .up⟩, ⟨1, 60000, false, none⟩]
    [⟨1, 60, "http"⟩, ⟨2, 60, "manual"⟩] [1] ⟨0, 300000⟩ ⟨1, 60, "http"⟩
    [⟨-60000, true⟩, ⟨60000, false⟩] (by decide) (by decide) (by decide) (by decide) (by decide)
  exact ⟨h.1.trans (by decide), h.2.1.trans (by decide)⟩

end Vigil.Monitors.UptimeSegments
