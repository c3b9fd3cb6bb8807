import Vigil.HighFreq.RollupRows

/-! The row of an hour.  It is made of the minute rows of the hour, whose largest gaps a later
`rollupMinutes` may still change.  Such a change shows in the row of the hour only at its first
minute: at every other minute the gap that was lost is the gap from the minute row before, and
`rollupCoarser` measures that one again. -/

namespace Vigil.HighFreq.HourRows

open Lib Buckets Timeline Rollups RollupRows

/-! ### What every state keeps -/

structure WellKept (s : State) : Prop where
  unique : (s.rollups.map Rollup.key).Nodup
  /-- A minute row whose samples are too young to be pruned has a sample. -/
  sampled : ∀ r ∈ s.rollups, r.granularity = .minute →
    s.now - hfRawRetentionMinutes * minuteMs ≤ r.bucketStart →
    ∃ x ∈ s.samples, inBucket minuteMs r.monitorId r.bucketStart x = true

variable {b : ℤ} {s : State} {rows : List Rollup}

theorem exists_of_mem_groups {since : ℤ} {t : Tables} {m : MonitorId}
    (h : (m, b) ∈ groups minuteMs since (minuteParts t)) :
    ∃ x ∈ t.samples, since ≤ x.observedAt ∧ inBucket minuteMs m b x = true := by
  obtain ⟨p, hp, hsince, hm, hb⟩ := mem_groups.mp h
  obtain ⟨x, hx, rfl⟩ := List.mem_map.mp hp
  exact ⟨x, hx, hsince, decide_eq_true ⟨hm, hb⟩⟩

theorem inBucket_iff {unit : ℤ} {m : MonitorId} {x : Sample} :
    inBucket unit m b x = true ↔ x.monitorId = m ∧ dateTrunc unit x.observedAt = b := by
  simp [inBucket]

/-- A row of another granularity than minute changes nothing that is asked of minute rows. -/
theorem sampled_upsert {granularity : Granularity} (hrows : ∀ r ∈ rows, r.granularity = granularity)
    (hne : granularity ≠ .minute) (h : WellKept s) :
    ∀ r ∈ upsertBucket rows s.rollups, r.granularity = .minute →
      s.now - hfRawRetentionMinutes * minuteMs ≤ r.bucketStart →
      ∃ x ∈ s.samples, inBucket minuteMs r.monitorId r.bucketStart x = true := by
  intro r hr hminute
  rcases mem_upsert Rollup.key hr with hr | hr
  · exact absurd ((hrows r hr).symm.trans hminute) hne
  · exact h.sampled r hr hminute

theorem wellKept_statement (statement : Statement) (h : WellKept s) :
    ((statement.run s.now s.toTables).rollups.map Rollup.key).Nodup ∧
      ∀ r ∈ (statement.run s.now s.toTables).rollups, r.granularity = .minute →
        s.now - hfRawRetentionMinutes * minuteMs ≤ r.bucketStart →
        ∃ x ∈ (statement.run s.now s.toTables).samples,
          inBucket minuteMs r.monitorId r.bucketStart x = true := by
  cases statement with
  | rollupMinutes =>
    refine ⟨keys_upsert_nodup Rollup.key (keys_rollup_nodup _ _ _ _) h.unique, ?_⟩
    intro r hr hminute hyoung
    rcases mem_upsert Rollup.key hr with hr | hr
    · obtain ⟨x, hx, -, hin⟩ := exists_of_mem_groups (figures_of_mem_rollup hr).1
      exact ⟨x, hx, hin⟩
    · exact h.sampled r hr hminute hyoung
  | rollupHours | rollupDays =>
    exact ⟨keys_upsert_nodup Rollup.key (keys_rollup_nodup _ _ _ _) h.unique,
      sampled_upsert (fun _ => granularity_of_mem_rollup) (by decide) h⟩
  | pruneSamples =>
    refine ⟨h.unique, fun r hr hminute hyoung => ?_⟩
    obtain ⟨x, hx, hin⟩ := h.sampled r hr hminute hyoung
    have hle := dateTrunc_le minuteMs_pos x.observedAt
    rw [(inBucket_iff.mp hin).2] at hle
    exact ⟨x, List.mem_filter.mpr ⟨hx, by simpa using hyoung.trans hle⟩, hin⟩
  | pruneRollups =>
    exact ⟨h.unique.sublist (List.filter_sublist.map _),
      fun r hr => h.sampled r (List.mem_of_mem_filter hr)⟩

theorem wellKept (h : machine.Reachable s) : WellKept s := by
  refine h.induct ⟨List.nodup_nil, fun r hr => absurd hr List.not_mem_nil⟩ ?_
  intro s a t _ ih hstep
  obtain ⟨x, -, rfl⟩ | ⟨d, -, rfl⟩ | ⟨pass, statement, -, htables, hnow, -⟩ := step_cases hstep
  · refine ⟨ih.unique, fun r hr hminute hyoung => ?_⟩
    obtain ⟨y, hy, hin⟩ := ih.sampled r hr hminute hyoung
    exact ⟨y, List.mem_append_left _ hy, hin⟩
  · refine ⟨ih.unique, fun r hr hminute hyoung => ih.sampled r hr hminute ?_⟩
    have : (0 : ℤ) ≤ d := Int.natCast_nonneg d
    simp only at hyoung
    omega
  · have hkept := wellKept_statement statement ih
    rw [← htables, ← hnow] at hkept
    exact ⟨hkept.1, hkept.2⟩

theorem lookup_of_mem (h : WellKept s) {r : Rollup} (hr : r ∈ s.rollups) :
    lookup Rollup.key s.rollups r.key = some r := by
  obtain ⟨found, hfound⟩ := lookup_isSome Rollup.key hr
  obtain ⟨hin, hkey⟩ := lookup_key Rollup.key hfound
  rw [hfound, List.inj_on_of_nodup_map h.unique hin hr hkey]

/-! ### The minute rows of an hour -/

def hourParts (t : Tables) : List Part := source .minute t.rollups

def isMinuteOf (m : MonitorId) (h : ℤ) (r : Rollup) : Bool :=
  r.monitorId = m ∧ r.granularity = .minute ∧ dateTrunc hourMs r.bucketStart = h

/-- The key of such a row. -/
def isMinuteKey (m : MonitorId) (h : ℤ) (k : Key) : Bool :=
  k.1 = m ∧ k.2.1 = .minute ∧ dateTrunc hourMs k.2.2 = h

theorem isMinuteOf_eq (m : MonitorId) (h : ℤ) (r : Rollup) :
    isMinuteOf m h r = isMinuteKey m h r.key := rfl

/-- The minute rows of the hour `h`. -/
def minuteRows (t : Tables) (m : MonitorId) (h : ℤ) : List Rollup :=
  t.rollups.filter (isMinuteOf m h)

theorem mem_minuteRows {t : Tables} {m : MonitorId} {h : ℤ} {r : Rollup} :
    r ∈ minuteRows t m h ↔ r ∈ t.rollups ∧ r.monitorId = m ∧ r.granularity = .minute ∧
      dateTrunc hourMs r.bucketStart = h := by
  simp [minuteRows, isMinuteOf]

theorem members_hourParts (t : Tables) (m : MonitorId) (h : ℤ) :
    members hourMs (hourParts t) m h =
      (sortByTime Rollup.bucketStart (minuteRows t m h)).map Part.ofRollup := by
  have hfilter : (hourParts t).filter (fun p => p.monitorId = m ∧ dateTrunc hourMs p.time = h) =
      (minuteRows t m h).map Part.ofRollup := by
    rw [hourParts, source, List.filter_map, List.filter_filter, minuteRows]
    congr 2
    funext r
    rw [Bool.eq_iff_iff]
    simp only [isMinuteOf, Function.comp_apply, Bool.and_eq_true, decide_eq_true_eq]
    exact ⟨fun hr => ⟨hr.1.1, hr.2, hr.1.2⟩, fun hr => ⟨⟨hr.1, hr.2.2⟩, hr.2.1⟩⟩
  rw [members, hfilter, sortByTime_map Rollup.bucketStart Part.ofRollup fun _ => rfl]

theorem hour_of_minute (t : ℤ) : dateTrunc hourMs (dateTrunc minuteMs t) = dateTrunc hourMs t := by
  have hminute : minuteMs ∣ dateTrunc hourMs t :=
    Int.dvd_trans (by decide) (dvd_dateTrunc hourMs t)
  rw [dateTrunc_eq_iff hourMs_pos (dvd_dateTrunc hourMs t)]
  exact ⟨le_dateTrunc minuteMs_pos hminute (dateTrunc_le hourMs_pos t),
    (dateTrunc_le minuteMs_pos t).trans_lt (lt_dateTrunc_add hourMs_pos t)⟩

/-- The row with another largest gap. -/
def setGap (γ : ℤ → Option ℤ) (r : Rollup) : Rollup :=
  { r with figures := { r.figures with maxGapMs := γ r.bucketStart } }

/-- The gap between two rows. -/
def gapBetween (c r : Rollup) : Option ℤ :=
  some (r.figures.firstObservedAt - c.figures.lastObservedAt)

/-- Two rows with none between them. -/
def Adjacent (rows : List Rollup) (c r : Rollup) : Prop :=
  c ∈ rows ∧ r ∈ rows ∧ c.bucketStart < r.bucketStart ∧
    ∀ d ∈ rows, ¬(c.bucketStart < d.bucketStart ∧ d.bucketStart < r.bucketStart)

/-! ### The last sample before a minute -/

theorem prior_spec {since : ℤ} {parts : List Part} {m : MonitorId} {p : Part}
    (h : prior since parts m b = some p) :
    p ∈ parts ∧ p.monitorId = m ∧ since ≤ p.time ∧ p.time < b ∧
      ∀ q ∈ parts, q.monitorId = m → since ≤ q.time → q.time < b → q.time ≤ p.time := by
  have hlatest : latest Part.time (window since parts m) (b - 1) = some p := by
    rw [← h, prior, latest]
    congr 2
    funext q
    simp only [Int.le_sub_one_iff]
  have hwindow : ∀ q, q ∈ window since parts m ↔ q ∈ parts ∧ q.monitorId = m ∧ since ≤ q.time := by
    simp [window]
  obtain ⟨hmem, hlt⟩ := latest_some Part.time hlatest
  obtain ⟨hp, hm, hsince⟩ := (hwindow p).mp hmem
  refine ⟨hp, hm, hsince, Int.le_sub_one_iff.mp hlt, fun q hq hqm hqs hqb => ?_⟩
  exact le_latest Part.time (sortByTime_pairwise Part.time _) hlatest
    ((hwindow q).mpr ⟨hq, hqm, hqs⟩) (Int.le_sub_one_iff.mpr hqb)

/-- The greatest of some numbers is one of them, and none exceeds it. -/
theorem maxOf_spec {α : Type} {f : α → ℤ} {l : List α} (h : l ≠ []) :
    ∃ a ∈ l, maxOf (l.map fun a => some (f a)) = some (f a) ∧ ∀ b ∈ l, f b ≤ f a := by
  induction l with
  | nil => exact absurd rfl h
  | cons a l ih =>
    cases l with
    | nil => exact ⟨a, List.mem_cons_self, rfl, by simp⟩
    | cons b l =>
      obtain ⟨c, hc, hmax, hle⟩ := ih (List.cons_ne_nil b l)
      have hcons : maxOf ((a :: b :: l).map fun a => some (f a)) = some (max (f a) (f c)) := by
        rw [List.map_cons, maxOf, List.foldr_cons, ← maxOf, hmax]
        rfl
      rcases le_total (f a) (f c) with hac | hca
      · refine ⟨c, List.mem_cons_of_mem _ hc, by rw [hcons, max_eq_right hac], ?_⟩
        intro d hd
        rcases List.mem_cons.mp hd with rfl | hd
        · exact hac
        · exact hle d hd
      · refine ⟨a, List.mem_cons_self, by rw [hcons, max_eq_left hca], ?_⟩
        intro d hd
        rcases List.mem_cons.mp hd with rfl | hd
        · exact le_rfl
        · exact (hle d hd).trans hca

theorem minOf_of_le {α : Type} {f : α → ℤ} {a : α} {l : List α} (h : ∀ b ∈ l, f a ≤ f b) :
    minOf ((a :: l).map fun a => some (f a)) = some (f a) := by
  induction l with
  | nil => rfl
  | cons b l ih =>
    have hrest := ih fun c hc => h c (List.mem_cons_of_mem _ hc)
    have hb := h b List.mem_cons_self
    simp only [minOf, List.map_cons, List.foldr_cons] at hrest ⊢
    cases htail : (l.map fun a => some (f a)).foldr least none with
    | none => simp [least, hb]
    | some x =>
      rw [htail] at hrest
      simp only [least, Option.some.injEq] at hrest ⊢
      omega

theorem lastObservedAt_collect (l : List Sample) (g : Option ℤ) :
    (collect ((l.map Part.ofSample).map (·.figures)) g).lastObservedAt =
      (maxOf (l.map fun x => some x.observedAt)).getD 0 := by
  simp only [collect, List.map_map]
  rfl

theorem firstObservedAt_collect (l : List Sample) (g : Option ℤ) :
    (collect ((l.map Part.ofSample).map (·.figures)) g).firstObservedAt =
      (minOf (l.map fun x => some x.observedAt)).getD 0 := by
  simp only [collect, List.map_map]
  rfl

/-- The last instant of a minute row is that of its last sample. -/
theorem last_of_minute {m : MonitorId} {g : Option ℤ} (h : TouchesMinute s m b) :
    ∃ x ∈ s.samples, inBucket minuteMs m b x = true ∧
      (collect ((members minuteMs (minuteParts s.toTables) m b).map (·.figures)) g).lastObservedAt =
        x.observedAt ∧
      ∀ y ∈ s.samples, inBucket minuteMs m b y = true → y.observedAt ≤ x.observedAt := by
  obtain ⟨w, hw, -, hwin⟩ := exists_of_mem_groups h
  have hsort : sortByTime Sample.observedAt (s.samples.filter (inBucket minuteMs m b)) ≠ [] :=
    List.ne_nil_of_mem ((mem_sortByTime _).mpr (List.mem_filter.mpr ⟨hw, hwin⟩))
  obtain ⟨x, hx, hmax, hle⟩ := maxOf_spec (f := Sample.observedAt) hsort
  rw [mem_sortByTime, List.mem_filter] at hx
  refine ⟨x, hx.1, hx.2, ?_, fun y hy hyin => hle y ?_⟩
  · rw [members_minuteParts, lastObservedAt_collect, hmax, Option.getD_some]
  · rw [mem_sortByTime]
    exact List.mem_filter.mpr ⟨hy, hyin⟩

/-- The leading gap of a minute is counted from the last sample of the window before it. -/
theorem minuteLead_eq {m : MonitorId} (g : Option ℤ) (h : TouchesMinute s m b) :
    minuteLead s m b = (prior (minuteWindow s.now) (minuteParts s.toTables) m b).map fun p =>
      (collect ((members minuteMs (minuteParts s.toTables) m b).map (·.figures)) g).firstObservedAt -
        p.time := by
  obtain ⟨w, hw, -, hwin⟩ := exists_of_mem_groups h
  have hw' : w ∈ sortByTime Sample.observedAt (s.samples.filter (inBucket minuteMs m b)) :=
    (mem_sortByTime _).mpr (List.mem_filter.mpr ⟨hw, hwin⟩)
  have hsorted := sortByTime_pairwise Sample.observedAt (s.samples.filter (inBucket minuteMs m b))
  rw [minuteLead, leadingGap, members_minuteParts, firstObservedAt_collect]
  cases hlist : sortByTime Sample.observedAt (s.samples.filter (inBucket minuteMs m b)) with
  | nil => simp [hlist] at hw'
  | cons x rest =>
    rw [hlist] at hsorted
    rw [minOf_of_le fun y hy => List.rel_of_pairwise_cons hsorted hy, Option.getD_some]
    have hprior : ∀ p, prior (minuteWindow s.now) (minuteParts s.toTables) m b = some p →
        p.last = p.time := by
      intro p hp
      obtain ⟨y, -, rfl⟩ := List.mem_map.mp (prior_spec hp).1
      rfl
    cases hp : prior (minuteWindow s.now) (minuteParts s.toTables) m b with
    | none => rfl
    | some p =>
      have hlast := hprior p hp
      simp only [List.map_cons, List.head?_cons, Option.bind_some, leading, boundaryGap,
        Option.map_some, hlast]
      rfl

/-! ### After a statement of minutes -/

/-- The samples of the hour that are in the window are those that were there in `a`. -/
structure SameSamples (a : State) (m : MonitorId) (h : ℤ) (s : State) : Prop where
  clock : minuteWindow a.now ≤ minuteWindow s.now
  samples : ∀ b, dateTrunc hourMs b = h → minuteWindow s.now ≤ b →
    s.samples.filter (inBucket minuteMs m b) = a.samples.filter (inBucket minuteMs m b)

theorem SameSamples.mem {a s : State} {m : MonitorId} {h b : ℤ} {x : Sample}
    (hsame : SameSamples a m h s) (hb : dateTrunc hourMs b = h) (hw : minuteWindow s.now ≤ b)
    (hx : inBucket minuteMs m b x = true) : x ∈ s.samples ↔ x ∈ a.samples := by
  have hmem : x ∈ s.samples.filter (inBucket minuteMs m b) ↔
      x ∈ a.samples.filter (inBucket minuteMs m b) := by
    rw [hsame.samples b hb hw]
  simpa [List.mem_filter, hx] using hmem

theorem touchesMinute_of_mem {m : MonitorId} {x : Sample} (hx : x ∈ s.samples)
    (hin : inBucket minuteMs m b x = true) (hw : minuteWindow s.now ≤ b) : TouchesMinute s m b := by
  obtain ⟨hm, hb⟩ := inBucket_iff.mp hin
  have hle := dateTrunc_le minuteMs_pos x.observedAt
  exact mem_groups.mpr ⟨Part.ofSample x, List.mem_map_of_mem hx, by
    rw [hb] at hle
    exact hw.trans hle, hm, hb⟩

theorem SameSamples.touches {a s : State} {m : MonitorId} {h b : ℤ} (hsame : SameSamples a m h s)
    (hb : dateTrunc hourMs b = h) (ht : TouchesMinute s m b) : TouchesMinute a m b := by
  obtain ⟨x, hx, -, hin⟩ := exists_of_mem_groups ht
  exact touchesMinute_of_mem ((hsame.mem hb ht.start.2 hin).mp hx) hin
    (hsame.clock.trans ht.start.2)

theorem SameSamples.members {a s : State} {m : MonitorId} {h b : ℤ} (hsame : SameSamples a m h s)
    (hb : dateTrunc hourMs b = h) (hw : minuteWindow s.now ≤ b) :
    members minuteMs (minuteParts s.toTables) m b =
      members minuteMs (minuteParts a.toTables) m b := by
  rw [members_minuteParts, members_minuteParts, hsame.samples b hb hw]

section Origin

variable {a o : State} {pass : ℕ} {m : MonitorId} {h : ℤ}

/-- The row that `rollupMinutes` makes of a minute. -/
def minuteRow (s : State) (m : MonitorId) (b : ℤ) : Rollup :=
  ⟨m, .minute, b, collect ((members minuteMs (minuteParts s.toTables) m b).map (·.figures))
    (greatest (minuteLead s m b) (insideGap minuteMs (minuteParts s.toTables) m b))⟩

theorem origin_has (hstep : machine.step a (.statement pass .rollupMinutes) = some o) {b : ℤ}
    (htouch : TouchesMinute a m b) (hb : dateTrunc hourMs b = h) :
    minuteRow a m b ∈ minuteRows o.toTables m h := by
  have hfound := stored_minute hstep htouch
  exact mem_minuteRows.mpr ⟨(lookup_key Rollup.key hfound).1, rfl, rfl, hb⟩

theorem origin_row (ha : machine.Reachable a)
    (hstep : machine.step a (.statement pass .rollupMinutes) = some o) {r : Rollup}
    (hr : r ∈ minuteRows o.toTables m h) (hw : minuteWindow a.now ≤ r.bucketStart) :
    TouchesMinute a m r.bucketStart ∧ r = minuteRow a m r.bucketStart := by
  obtain ⟨hmem, hm, hminute, -⟩ := mem_minuteRows.mp hr
  have hkept := wellKept (ha.step hstep)
  have hnow := (step_statement hstep).2
  have hyoung : o.now - hfRawRetentionMinutes * minuteMs ≤ r.bucketStart := by
    have := lt_dateTrunc_add minuteMs_pos (a.now - minuteWindowMinutes * minuteMs)
    simp only [minuteWindow, hfRawRetentionMinutes, minuteWindowMinutes, minuteMs] at *
    omega
  obtain ⟨x, hx, hin⟩ := hkept.sampled r hmem hminute hyoung
  have hx' : x ∈ a.samples := by
    rw [(step_statement hstep).1] at hx
    exact hx
  rw [hm] at hin
  have htouch := touchesMinute_of_mem hx' hin hw
  have hfound := stored_minute hstep htouch
  have hlookup := lookup_of_mem hkept hmem
  rw [Rollup.key, hm, hminute] at hlookup
  exact ⟨htouch, Option.some.inj (hlookup.symm.trans hfound)⟩

/-- The leading gap of a minute that is not the first of its hour is none, or the gap from the minute
row before it. -/
theorem minuteLead_cases (ha : machine.Reachable a)
    (hstep : machine.step a (.statement pass .rollupMinutes) = some o) {s : State}
    (hsame : SameSamples a m h s) {c r : Rollup} (hadj : Adjacent (minuteRows o.toTables m h) c r)
    (htouch : TouchesMinute s m r.bucketStart) :
    minuteLead s m r.bucketStart = none ∨ minuteLead s m r.bucketStart = gapBetween c r := by
  obtain ⟨hc, hr, hlt, hbetween⟩ := hadj
  obtain ⟨-, -, -, hch⟩ := mem_minuteRows.mp hc
  obtain ⟨-, -, -, hrh⟩ := mem_minuteRows.mp hr
  obtain ⟨hdvd, hwindow⟩ := htouch.start
  have hrow := (origin_row ha hstep hr (hsame.clock.trans hwindow)).2
  rw [minuteLead_eq r.figures.maxGapMs htouch, hsame.members hrh hwindow]
  cases hprior : prior (minuteWindow s.now) (minuteParts s.toTables) m r.bucketStart with
  | none => exact .inl rfl
  | some p =>
    obtain ⟨hp, hpm, hsince, hbefore, hlatest⟩ := prior_spec hprior
    obtain ⟨x, hx, rfl⟩ := List.mem_map.mp hp
    replace hlatest : ∀ y ∈ s.samples, y.monitorId = m → minuteWindow s.now ≤ y.observedAt →
        y.observedAt < r.bucketStart → y.observedAt ≤ x.observedAt :=
      fun y hy => hlatest (Part.ofSample y) (List.mem_map_of_mem hy)
    have hin : inBucket minuteMs m (dateTrunc minuteMs x.observedAt) x = true :=
      inBucket_iff.mpr ⟨hpm, rfl⟩
    have hd := le_dateTrunc minuteMs_pos (dvd_dateTrunc _ _) hsince
    have hdle := dateTrunc_le minuteMs_pos x.observedAt
    have hearlier : ∀ y, inBucket minuteMs m c.bucketStart y = true →
        y.observedAt < r.bucketStart := by
      intro y hy
      by_contra hge
      have := le_dateTrunc minuteMs_pos hdvd (not_lt.mp hge)
      rw [(inBucket_iff.mp hy).2] at this
      omega
    refine .inr ?_
    rcases lt_trichotomy (dateTrunc minuteMs x.observedAt) c.bucketStart with hdc | hdc | hcd
    · -- the minute of `c` has samples after `x`
      have hwc : minuteWindow s.now ≤ c.bucketStart := hd.trans hdc.le
      obtain ⟨y, hy, -, hyin⟩ :=
        exists_of_mem_groups (origin_row ha hstep hc (hsame.clock.trans hwc)).1
      have hyle := dateTrunc_le minuteMs_pos y.observedAt
      rw [(inBucket_iff.mp hyin).2] at hyle
      have hyx := hlatest y ((hsame.mem hch hwc hyin).mpr hy) (inBucket_iff.mp hyin).1
        (hwc.trans hyle) (hearlier y hyin)
      have := dateTrunc_mono minuteMs_pos hyx
      rw [(inBucket_iff.mp hyin).2] at this
      omega
    · have hwc : minuteWindow s.now ≤ c.bucketStart := hdc ▸ hd
      obtain ⟨hctouch, hcrow⟩ := origin_row ha hstep hc (hsame.clock.trans hwc)
      obtain ⟨y, hy, hyin, hlast, hyle⟩ := last_of_minute (g := c.figures.maxGapMs) hctouch
      rw [hdc] at hin
      have hcy := dateTrunc_le minuteMs_pos y.observedAt
      rw [(inBucket_iff.mp hyin).2] at hcy
      have hyx := hlatest y ((hsame.mem hch hwc hyin).mpr hy) (inBucket_iff.mp hyin).1
        (hwc.trans hcy) (hearlier y hyin)
      have hxy := hyle x ((hsame.mem hch hwc hin).mp hx) hin
      have hclast : c.figures.lastObservedAt = x.observedAt := by
        rw [hcrow]
        exact hlast.trans (le_antisymm hyx hxy)
      have hrfirst : r.figures.firstObservedAt =
          (collect ((members minuteMs (minuteParts a.toTables) m r.bucketStart).map (·.figures))
            r.figures.maxGapMs).firstObservedAt := by
        conv_lhs => rw [hrow]
        rfl
      rw [gapBetween, hclast, hrfirst]
      rfl
    · -- the minute of `x` has a row between the two
      have hhour : dateTrunc hourMs (dateTrunc minuteMs x.observedAt) = h := by
        have hdvdh : hourMs ∣ h := hch ▸ dvd_dateTrunc hourMs c.bucketStart
        have hcle := dateTrunc_le hourMs_pos c.bucketStart
        have hrlt := lt_dateTrunc_add hourMs_pos r.bucketStart
        rw [dateTrunc_eq_iff hourMs_pos hdvdh]
        rw [hch] at hcle
        rw [hrh] at hrlt
        change x.observedAt < r.bucketStart at hbefore
        omega
      have htouchx := touchesMinute_of_mem ((hsame.mem hhour hd hin).mp hx) hin
        (hsame.clock.trans hd)
      exact absurd ⟨hcd, lt_of_le_of_lt hdle hbefore⟩
        (hbetween _ (origin_has hstep htouchx hhour))

theorem greatest_absorb {lead g : Option ℤ} (inside : Option ℤ) (h : lead = none ∨ lead = g) :
    greatest (greatest lead inside) g = greatest inside g := by
  rcases h with rfl | rfl
  · rw [none_greatest]
  · rw [greatest_comm lead, greatest_assoc, greatest_self]

/-- Beside the gap from the minute row before, the largest gap of a minute row says the same whenever
it was written. -/
theorem minuteGap_absorb (ha : machine.Reachable a)
    (hstep : machine.step a (.statement pass .rollupMinutes) = some o) {s : State}
    (hsame : SameSamples a m h s) {c r : Rollup} (hadj : Adjacent (minuteRows o.toTables m h) c r)
    (htouch : TouchesMinute s m r.bucketStart) :
    greatest (greatest (minuteLead s m r.bucketStart)
        (insideGap minuteMs (minuteParts a.toTables) m r.bucketStart)) (gapBetween c r) =
      greatest r.figures.maxGapMs (gapBetween c r) := by
  obtain ⟨-, -, -, hrh⟩ := mem_minuteRows.mp hadj.2.1
  have hself : SameSamples a m h a := ⟨le_rfl, fun _ _ _ => rfl⟩
  have htouch' := hsame.touches hrh htouch
  have hrow := (origin_row ha hstep hadj.2.1 htouch'.start.2).2
  have hgap : r.figures.maxGapMs = greatest (minuteLead a m r.bucketStart)
      (insideGap minuteMs (minuteParts a.toTables) m r.bucketStart) := by
    conv_lhs => rw [hrow]
    rfl
  rw [hgap, greatest_absorb _ (minuteLead_cases ha hstep hsame hadj htouch),
    greatest_absorb _ (minuteLead_cases ha hstep hself hadj htouch')]

end Origin

/-! ### The minute rows along a run -/

/-- The minute rows of the hour are those of `o`, but for gaps that do not show beside the gap from
the row before. -/
structure Kept (a o : State) (m : MonitorId) (h : ℤ) (s : State) : Prop
    extends SameSamples a m h s where
  rows : hourWindow s.now ≤ h → ∃ γ,
    minuteRows s.toTables m h = (minuteRows o.toTables m h).map (setGap γ) ∧
    ∀ c r, Adjacent (minuteRows o.toTables m h) c r →
      greatest (γ r.bucketStart) (gapBetween c r) = greatest r.figures.maxGapMs (gapBetween c r)

section Run

variable {a o : State} {pass : ℕ} {m : MonitorId} {h : ℤ}

theorem kept_origin (ha : machine.Reachable a)
    (hstep : machine.step a (.statement pass .rollupMinutes) = some o) : Kept a o m h o := by
  obtain ⟨htables, hnow⟩ := step_statement hstep
  have hown : ∀ r ∈ minuteRows o.toTables m h,
      (o.stored .minute m r.bucketStart).bind (·.figures.maxGapMs) = r.figures.maxGapMs := by
    intro r hr
    obtain ⟨hmem, hm, hminute, -⟩ := mem_minuteRows.mp hr
    have hlookup := lookup_of_mem (wellKept (ha.step hstep)) hmem
    rw [Rollup.key, hm, hminute] at hlookup
    rw [Tables.stored, hlookup, Option.bind_some]
  refine ⟨⟨by rw [hnow], fun b _ _ => by rw [htables]; rfl⟩, fun _ =>
    ⟨fun b => (o.stored .minute m b).bind (·.figures.maxGapMs), ?_, ?_⟩⟩
  · conv_lhs => rw [← List.map_id (minuteRows o.toTables m h)]
    apply List.map_congr_left
    intro r hr
    rw [setGap, hown r hr]
    rfl
  · intro c r hadj
    simp only [hown r hadj.2.1]

/-- Rows of another granularity leave the minute rows alone. -/
theorem minuteRows_upsert {rows rollups : List Rollup} {granularity : Granularity}
    (hrows : ∀ r ∈ rows, r.granularity = granularity) (hne : granularity ≠ .minute) :
    (upsertBucket rows rollups).filter (isMinuteOf m h) = rollups.filter (isMinuteOf m h) := by
  have hother : ∀ r, isMinuteOf m h r = true → lookup Rollup.key rows r.key = none := by
    intro r hr
    refine Option.eq_none_iff_forall_ne_some.mpr fun found hfound => hne ?_
    obtain ⟨hmem, hkey⟩ := lookup_key Rollup.key hfound
    have hminute : r.granularity = .minute := (of_decide_eq_true hr).2.1
    rw [← hrows found hmem, ← hminute]
    exact congrArg (fun k : Key => k.2.1) hkey
  rw [upsertBucket, filter_upsert Rollup.key (isMinuteOf_eq m h)]
  · conv_rhs => rw [← List.map_id (rollups.filter (isMinuteOf m h))]
    apply List.map_congr_left
    intro r hr
    rw [hother r (List.mem_filter.mp hr).2]
    rfl
  · intro r hr hin
    exact absurd ((hrows r hr).symm.trans (of_decide_eq_true hin).2.1) hne

/-- A later `rollupMinutes` writes the minute rows of the hour again. -/
theorem minuteRows_rollupMinutes {s t : State} {pass' : ℕ} (ha : machine.Reachable a)
    (hstep : machine.step a (.statement pass .rollupMinutes) = some o) (hkept : Kept a o m h s)
    (hst : machine.step s (.statement pass' .rollupMinutes) = some t) {γ : ℤ → Option ℤ}
    (hrows : minuteRows s.toTables m h = (minuteRows o.toTables m h).map (setGap γ)) :
    minuteRows t.toTables m h = (minuteRows o.toTables m h).map (setGap fun b =>
      if (m, b) ∈ groups minuteMs (minuteWindow s.now) (minuteParts s.toTables) then
        greatest (minuteLead s m b) (insideGap minuteMs (minuteParts a.toTables) m b)
      else γ b) := by
  have hfresh : ∀ r ∈ rollup .minute minuteMs (minuteWindow s.now) (minuteParts s.toTables),
      isMinuteOf m h r = true → (lookup Rollup.key s.rollups r.key).isSome = true := by
    intro r hr hin
    obtain ⟨hm, -, hb⟩ := of_decide_eq_true hin
    have htouch : TouchesMinute s m r.bucketStart := hm ▸ (figures_of_mem_rollup hr).1
    have hmem := origin_has hstep (hkept.touches hb htouch) hb
    have hmem' := List.mem_map_of_mem (f := setGap γ) hmem
    rw [← hrows, mem_minuteRows] at hmem'
    obtain ⟨found, hfound⟩ := lookup_isSome Rollup.key hmem'.1
    have hkey : r.key = (setGap γ (minuteRow a m r.bucketStart)).key := by
      rw [Rollup.key, hm, granularity_of_mem_rollup hr]
      rfl
    rw [hkey, hfound]
    rfl
  have hfilter : minuteRows t.toTables m h = (minuteRows s.toTables m h).map fun r =>
      (lookup Rollup.key (rollup .minute minuteMs (minuteWindow s.now) (minuteParts s.toTables))
        r.key).getD r := by
    rw [(step_statement hst).1]
    exact filter_upsert Rollup.key (isMinuteOf_eq m h) hfresh
  rw [hfilter, hrows, List.map_map]
  apply List.map_congr_left
  intro r hr
  obtain ⟨-, hm, hminute, hb⟩ := mem_minuteRows.mp hr
  have hkey : (setGap γ r).key = (m, .minute, r.bucketStart) := by
    rw [← hm, ← hminute]
    rfl
  rw [Function.comp_apply, hkey, lookup_rollup]
  by_cases htouch : (m, r.bucketStart) ∈
      groups minuteMs (minuteWindow s.now) (minuteParts s.toTables)
  · have hwindow := TouchesMinute.start (s := s) htouch
    have hrow := (origin_row ha hstep hr (hkept.clock.trans hwindow.2)).2
    have hbucket := bucket_eq_collect minuteMs_pos hwindow.1 hwindow.2 (minuteParts s.toTables) m
    have hinside : insideGap minuteMs (minuteParts s.toTables) m r.bucketStart =
        insideGap minuteMs (minuteParts a.toTables) m r.bucketStart := by
      rw [insideGap, insideGap, hkept.members hb hwindow.2]
    rw [if_pos htouch, Option.getD_some, hbucket, hinside, hkept.members hb hwindow.2, setGap,
      if_pos htouch]
    conv_rhs => rw [hrow]
    rfl
  · rw [if_neg htouch, Option.getD_none, setGap, setGap, if_neg htouch]

theorem kept_rollupMinutes {s t : State} {pass' : ℕ} (ha : machine.Reachable a)
    (hstep : machine.step a (.statement pass .rollupMinutes) = some o) (hkept : Kept a o m h s)
    (hst : machine.step s (.statement pass' .rollupMinutes) = some t) : Kept a o m h t := by
  obtain ⟨htables, hnow⟩ := step_statement hst
  have hsamples : t.samples = s.samples := by
    rw [htables]
    rfl
  refine ⟨⟨by rw [hnow]; exact hkept.clock, ?_⟩, fun hwindow => ?_⟩
  · rw [hnow, hsamples]
    exact hkept.samples
  · rw [hnow] at hwindow
    obtain ⟨γ, hrows, habsorb⟩ := hkept.rows hwindow
    refine ⟨_, minuteRows_rollupMinutes ha hstep hkept hst hrows, fun c r hadj => ?_⟩
    split
    · rename_i htouch
      exact minuteGap_absorb ha hstep hkept.toSameSamples hadj htouch
    · exact habsorb c r hadj

/-- The statements that leave the minute rows of a recent hour alone. -/
theorem minuteRows_statement {statement : Statement} {now : ℤ} {t : Tables}
    (hne : statement ≠ .rollupMinutes) (hwindow : hourWindow now ≤ h) :
    minuteRows (statement.run now t) m h = minuteRows t m h := by
  cases statement with
  | rollupMinutes => exact absurd rfl hne
  | rollupHours => exact minuteRows_upsert (fun _ => granularity_of_mem_rollup) (by decide)
  | rollupDays => exact minuteRows_upsert (fun _ => granularity_of_mem_rollup) (by decide)
  | pruneSamples => rfl
  | pruneRollups =>
    change (t.rollups.filter fun r => ¬r.bucketStart < now - retention r.granularity).filter
      (isMinuteOf m h) = t.rollups.filter (isMinuteOf m h)
    rw [List.filter_filter]
    apply List.filter_congr
    intro r _
    by_cases hin : isMinuteOf m h r = true
    · obtain ⟨-, hminute, hb⟩ := of_decide_eq_true hin
      have hle := dateTrunc_le hourMs_pos r.bucketStart
      have hlt := lt_dateTrunc_add hourMs_pos (now - hourWindowHours * hourMs)
      have hyoung : ¬r.bucketStart < now - retention r.granularity := by
        simp only [hminute, retention, hfMinuteRollupRetentionDays, hourWindow, hourWindowHours,
          hourMs, dayMs] at *
        omega
      simp [hin, hyoung]
    · simp [hin]

theorem Kept.step {s t : State} {act : Action} (ha : machine.Reachable a)
    (hstep : machine.step a (.statement pass .rollupMinutes) = some o) (hkept : Kept a o m h s)
    (hst : machine.step s act = some t)
    (hinsert : ∀ x, act = .insert x → inBucket hourMs m h x = false) : Kept a o m h t := by
  have hclock : minuteWindow a.now ≤ minuteWindow t.now :=
    hkept.clock.trans (minuteWindow_mono (now_le hst))
  have hsame : SameSamples a m h t := by
    refine ⟨hclock, fun b hb hw => ?_⟩
    rw [samples_kept hst ?_ hw]
    · exact hkept.samples b hb ((minuteWindow_mono (now_le hst)).trans hw)
    · intro x hx
      have hhour := hinsert x hx
      simp only [inBucket, decide_eq_false_iff_not] at hhour ⊢
      rintro ⟨hm, hminute⟩
      exact hhour ⟨hm, by rw [← hour_of_minute, hminute, hb]⟩
  have hearlier : hourWindow t.now ≤ h → hourWindow s.now ≤ h :=
    fun hw => (hourWindow_mono (now_le hst)).trans hw
  obtain ⟨x, -, rfl⟩ | ⟨d, -, rfl⟩ | ⟨pass', statement, rfl, htables, hnow, -⟩ := step_cases hst
  · exact ⟨hsame, hkept.rows⟩
  · exact ⟨hsame, fun hw => hkept.rows (hearlier hw)⟩
  · by_cases hminutes : statement = .rollupMinutes
    · subst hminutes
      exact kept_rollupMinutes ha hstep hkept hst
    · refine ⟨hsame, fun hw => ?_⟩
      rw [htables, minuteRows_statement hminutes (hearlier hw)]
      exact hkept.rows (hearlier hw)

theorem Kept.execFrom {s t : State} {acts : List Action} (ha : machine.Reachable a)
    (hstep : machine.step a (.statement pass .rollupMinutes) = some o) (hkept : Kept a o m h s)
    (hrun : machine.execFrom s acts = some t)
    (hinsert : ∀ x, .insert x ∈ acts → inBucket hourMs m h x = false) : Kept a o m h t :=
  Machine.execFrom_induct hrun hkept fun _ _ _ hact ih hst =>
    ih.step ha hstep hst fun x hx => hinsert x (hx ▸ hact)

end Run

/-! ### The row of the hour -/

theorem gapOf_setGap {γ : ℤ → Option ℤ}
    (hsorted : rows.Pairwise fun c r => c.bucketStart < r.bucketStart)
    (hγ : ∀ c r, Adjacent rows c r → greatest (γ r.bucketStart) (gapBetween c r) = greatest
      r.figures.maxGapMs (gapBetween c r)) {earlier rest : List Rollup} {c : Rollup}
    (hrows : rows = earlier ++ c :: rest) :
    gapOf (some (Part.ofRollup c).last) ((rest.map (setGap γ)).map Part.ofRollup) =
      gapOf (some (Part.ofRollup c).last) (rest.map Part.ofRollup) := by
  induction rest generalizing earlier c with
  | nil => rfl
  | cons r rest ih =>
    have hadj : Adjacent rows c r := by
      subst hrows
      obtain ⟨-, hcons, hbefore⟩ := List.pairwise_append.mp hsorted
      obtain ⟨hc, hr⟩ := List.pairwise_cons.mp hcons
      refine ⟨by simp, by simp, hc r List.mem_cons_self, fun d hd => ?_⟩
      rcases List.mem_append.mp hd with hd | hd
      · have := hbefore d hd c List.mem_cons_self
        omega
      · rcases List.mem_cons.mp hd with rfl | hd
        · omega
        · rcases List.mem_cons.mp hd with rfl | hd
          · omega
          · have := List.rel_of_pairwise_cons hr hd
            omega
    have hsplit : rows = (earlier ++ [c]) ++ r :: rest := by
      rw [hrows, List.append_assoc]
      rfl
    have hrest := ih hsplit
    have hlast : (Part.ofRollup (setGap γ r)).last = (Part.ofRollup r).last := rfl
    have hlead : leading (some (Part.ofRollup c).last) (Part.ofRollup (setGap γ r)) =
        leading (some (Part.ofRollup c).last) (Part.ofRollup r) := hγ c r hadj
    rw [List.map_cons, List.map_cons, List.map_cons, gapOf_cons, gapOf_cons, hlead, hlast, hrest]

theorem collect_setGap (γ : ℤ → Option ℤ) (rows : List Rollup) (g : Option ℤ) :
    collect (((rows.map (setGap γ)).map Part.ofRollup).map (·.figures)) g =
      collect ((rows.map Part.ofRollup).map (·.figures)) g := by
  simp only [collect, List.map_map]
  rfl

theorem minuteRows_sorted {o : State} (ho : WellKept o) (m : MonitorId) (h : ℤ) :
    (sortByTime Rollup.bucketStart (minuteRows o.toTables m h)).Pairwise
      fun c r => c.bucketStart < r.bucketStart := by
  have hle := sortByTime_pairwise Rollup.bucketStart (minuteRows o.toTables m h)
  have hnodup : (minuteRows o.toTables m h).Nodup :=
    (List.Nodup.of_map _ ho.unique).sublist List.filter_sublist
  have hne : (sortByTime Rollup.bucketStart (minuteRows o.toTables m h)).Nodup :=
    (List.perm_insertionSort _ _).nodup_iff.mpr hnodup
  refine (hle.and hne).imp_of_mem fun {c r} hc hr hcr => ?_
  refine lt_of_le_of_ne hcr.1 fun hstart => hcr.2 ?_
  rw [mem_sortByTime] at hc hr
  obtain ⟨hcmem, hcm, hcminute, -⟩ := mem_minuteRows.mp hc
  obtain ⟨hrmem, hrm, hrminute, -⟩ := mem_minuteRows.mp hr
  apply List.inj_on_of_nodup_map ho.unique hcmem hrmem
  rw [Rollup.key, Rollup.key, hcm, hrm, hcminute, hrminute, hstart]

theorem adjacent_of_sorted {c r : Rollup} (h : Adjacent (sortByTime Rollup.bucketStart rows) c r) :
    Adjacent rows c r := by
  simpa only [Adjacent, mem_sortByTime] using h

/-- The row of the hour is made of the same figures and the same gaps inside. -/
theorem Kept.hour {a o s : State} {m : MonitorId} {h : ℤ} (ho : WellKept o)
    (hkept : Kept a o m h s) (hwindow : hourWindow s.now ≤ h) :
    (∀ g, collect ((members hourMs (hourParts s.toTables) m h).map (·.figures)) g =
      collect ((members hourMs (hourParts o.toTables) m h).map (·.figures)) g) ∧
    insideGap hourMs (hourParts s.toTables) m h = insideGap hourMs (hourParts o.toTables) m h := by
  obtain ⟨γ, hrows, hγ⟩ := hkept.rows hwindow
  have hmembers : members hourMs (hourParts s.toTables) m h =
      ((sortByTime Rollup.bucketStart (minuteRows o.toTables m h)).map (setGap γ)).map
        Part.ofRollup := by
    rw [members_hourParts, hrows, sortByTime_map Rollup.bucketStart (setGap γ) fun _ => rfl]
  have hsorted := minuteRows_sorted ho m h
  rw [insideGap, insideGap, hmembers, members_hourParts]
  refine ⟨collect_setGap γ _, ?_⟩
  cases hlist : sortByTime Rollup.bucketStart (minuteRows o.toTables m h) with
  | nil => rfl
  | cons c rest =>
    rw [hlist] at hsorted
    have hadjacent : ∀ c' r, Adjacent (c :: rest) c' r →
        Adjacent (minuteRows o.toTables m h) c' r := by
      intro c' r hadj
      apply adjacent_of_sorted
      rw [hlist]
      exact hadj
    have hfirst : c :: rest = [] ++ c :: rest := rfl
    have hgap := gapOf_setGap hsorted (fun c' r hadj => hγ c' r (hadjacent c' r hadj)) hfirst
    exact hgap

def TouchesHour (s : State) (m : MonitorId) (h : ℤ) : Prop :=
  (m, h) ∈ groups hourMs (hourWindow s.now) (hourParts s.toTables)

instance (s : State) (m : MonitorId) (h : ℤ) : Decidable (TouchesHour s m h) :=
  inferInstanceAs (Decidable (_ ∈ _))

def hourLead (s : State) (m : MonitorId) (h : ℤ) : Option ℤ :=
  leadingGap hourMs (hourWindow s.now) (hourParts s.toTables) m h

theorem TouchesHour.start {m : MonitorId} {h : ℤ} (ht : TouchesHour s m h) :
    hourMs ∣ h ∧ hourWindow s.now ≤ h :=
  start_of_mem_groups hourMs_pos (dvd_dateTrunc _ _) ht

/-- What `rollupCoarser` stores for an hour that it touches. -/
theorem stored_hour {s t : State} {pass : ℕ} {m : MonitorId} {h : ℤ}
    (hst : machine.step s (.statement pass .rollupHours) = some t) (htouch : TouchesHour s m h) :
    t.stored .hour m h =
      some ⟨m, .hour, h, collect ((members hourMs (hourParts s.toTables) m h).map (·.figures))
        (greatest (hourLead s m h) (insideGap hourMs (hourParts s.toTables) m h))⟩ := by
  obtain ⟨hh, hsince⟩ := htouch.start
  have hgroup : (m, h) ∈ groups hourMs (hourWindow s.now) (hourParts s.toTables) := htouch
  have hlookup := lookup_rollup .hour hourMs (hourWindow s.now) (hourParts s.toTables) m h
  rw [if_pos hgroup, bucket_eq_collect hourMs_pos hh hsince] at hlookup
  rw [(step_statement hst).1]
  change lookup Rollup.key (upsert Rollup.key _ _) _ = _
  rw [lookup_upsert, ← hourParts, hlookup]
  rfl

/-- A later `rollupCoarser` leaves the row of an hour as it is exactly if the leading gaps that the
two statements see make no difference. -/
theorem stored_hour_eq_iff {a o s₁ s₂ s₃ s₄ : State} {acts acts' : List Action} {pass p q : ℕ}
    {m : MonitorId} {h : ℤ} (ha : machine.Reachable a)
    (hstep : machine.step a (.statement pass .rollupMinutes) = some o)
    (hrun : machine.execFrom o acts = some s₁)
    (h₁ : machine.step s₁ (.statement p .rollupHours) = some s₂)
    (hrun' : machine.execFrom s₂ acts' = some s₃)
    (h₃ : machine.step s₃ (.statement q .rollupHours) = some s₄)
    (hinsert : ∀ x, .insert x ∈ acts ++ acts' → inBucket hourMs m h x = false)
    (htouch₁ : TouchesHour s₁ m h) (htouch₃ : TouchesHour s₃ m h) :
    s₄.stored .hour m h = s₂.stored .hour m h ↔
      Steady (hourLead s₃ m h) (hourLead s₁ m h) (insideGap hourMs (hourParts s₁.toTables) m h) := by
  have hkept₁ : Kept a o m h s₁ := (kept_origin ha hstep).execFrom ha hstep hrun
    fun x hx => hinsert x (List.mem_append_left _ hx)
  have hkept₂ : Kept a o m h s₂ := hkept₁.step ha hstep h₁ fun x hx => by cases hx
  have hkept₃ : Kept a o m h s₃ := hkept₂.execFrom ha hstep hrun'
    fun x hx => hinsert x (List.mem_append_right _ hx)
  have ho := wellKept (ha.step hstep)
  obtain ⟨hcollect₁, hinside₁⟩ := hkept₁.hour ho htouch₁.start.2
  obtain ⟨hcollect₃, hinside₃⟩ := hkept₃.hour ho htouch₃.start.2
  rw [stored_hour h₁ htouch₁, stored_hour h₃ htouch₃, hcollect₁, hcollect₃, hinside₁, hinside₃]
  simp only [Option.some.injEq, Rollup.mk.injEq, true_and, collect_inj_gap]
  exact greatest_eq_iff_steady _ _ _

end Vigil.HighFreq.HourRows
