import Vigil.HighFreq.HourRows

/-! Which samples are counted before they are pruned.  Beside the tables goes a history that no step
reads: the samples that each stored minute row was made of.  `rollupMinutes` looks back over its
window and `pruneSamples` goes by age alone, so a sample is counted exactly if a statement of minutes
ran while its minute was in the window. -/

namespace Vigil.HighFreq.Pruned

open Lib Buckets Timeline Rollups RollupRows HourRows
open Machine (exec_reached step_reached)

/-- The start of the minute of a sample. -/
def minuteOf (x : Sample) : ℤ := dateTrunc minuteMs x.observedAt

/-! ### What rows are made of -/

structure Counting extends State where
  /-- The samples that the row stored for a minute was made of. -/
  counted : MonitorId → ℤ → List Sample

def countedAfter (s : Counting) : Action → MonitorId → ℤ → List Sample
  | .statement _ .rollupMinutes, m, b =>
    if TouchesMinute s.toState m b then s.samples.filter (inBucket minuteMs m b) else s.counted m b
  | .statement _ .pruneRollups, m, b =>
    if b < s.now - retention .minute then [] else s.counted m b
  | _, m, b => s.counted m b

def counting : Machine Counting Action where
  init := ⟨machine.init, fun _ _ => []⟩
  step s a := (machine.step s.toState a).map fun t => ⟨t, countedAfter s a⟩

variable {s t : Counting} {x : Sample} {pass : ℕ} {statement : Statement} {acts : List Action}

theorem counting_step {a : Action} (h : counting.step s a = some t) :
    machine.step s.toState a = some t.toState ∧ t.counted = countedAfter s a := by
  obtain ⟨r, hr, rfl⟩ := Option.map_eq_some_iff.mp h
  exact ⟨hr, rfl⟩

theorem counting_insert (h : counting.step s (.insert x) = some t) :
    t.samples = s.samples ++ [{ x with row := s.nextRow }] ∧ t.rollups = s.rollups ∧
      t.nextRow = s.nextRow + 1 ∧ t.counted = s.counted := by
  cases h
  exact ⟨rfl, rfl, rfl, rfl⟩

theorem counting_tick {d : ℕ} (h : counting.step s (.tick d) = some t) :
    t.toTables = s.toTables ∧ t.nextRow = s.nextRow ∧ t.counted = s.counted := by
  cases h
  exact ⟨rfl, rfl, rfl⟩

theorem counting_statement (h : counting.step s (.statement pass statement) = some t) :
    t.nextRow = s.nextRow ∧ t.counted = countedAfter s (.statement pass statement) := by
  obtain ⟨hbase, hcounted⟩ := counting_step h
  obtain ⟨-, ht⟩ := Option.ite_none_right_eq_some.mp hbase
  have hrow := congrArg State.nextRow (Option.some.inj ht)
  exact ⟨hrow.symm, hcounted⟩

/-- The row stored for the minute of a sample counts it: the row counts as many samples as it was
made of, and the sample is one of them. -/
def Included (s : Counting) (x : Sample) : Prop :=
  x ∈ s.counted x.monitorId (minuteOf x) ∧
    ∃ row, s.stored .minute x.monitorId (minuteOf x) = some row ∧
      row.figures.samples = (s.counted x.monitorId (minuteOf x)).length

/-- While the sample was stored, a statement of minutes ran with its minute in the window, and no
statement since then has deleted the row of that minute for its age. -/
inductive RolledUp (x : Sample) : List Action → Prop where
  | now {acts : List Action} {s : Counting} (pass : ℕ) (hexec : counting.exec acts = some s)
      (hstored : x ∈ s.samples) (hwindow : minuteWindow s.now ≤ minuteOf x) :
      RolledUp x (acts ++ [.statement pass .rollupMinutes])
  | since {acts : List Action} {s : Counting} (a : Action) (h : RolledUp x acts)
      (hexec : counting.exec acts = some s)
      (hyoung : ∀ pass, a = .statement pass .pruneRollups →
        ¬minuteOf x < s.now - retention .minute) :
      RolledUp x (acts ++ [a])

theorem rolledUp_concat {a : Action} (hexec : counting.exec acts = some s) :
    RolledUp x (acts ++ [a]) ↔
      (∃ pass, a = .statement pass .rollupMinutes ∧ x ∈ s.samples ∧
        minuteWindow s.now ≤ minuteOf x) ∨
      RolledUp x acts ∧ ∀ pass, a = .statement pass .pruneRollups →
        ¬minuteOf x < s.now - retention .minute := by
  constructor
  · intro h
    generalize hacts : acts ++ [a] = all at h
    cases h with
    | now pass hexec' hstored hwindow =>
      obtain ⟨rfl, ha⟩ := List.append_inj' hacts rfl
      obtain rfl := Option.some.inj (hexec.symm.trans hexec')
      exact .inl ⟨pass, List.singleton_inj.mp ha, hstored, hwindow⟩
    | since b h hexec' hyoung =>
      obtain ⟨rfl, ha⟩ := List.append_inj' hacts rfl
      obtain rfl := Option.some.inj (hexec.symm.trans hexec')
      obtain rfl := List.singleton_inj.mp ha
      exact .inr ⟨h, hyoung⟩
  · rintro (⟨pass, rfl, hstored, hwindow⟩ | ⟨h, hyoung⟩)
    · exact .now pass hexec hstored hwindow
    · exact .since a h hexec hyoung

/-! ### The history tells what the rows say -/

structure Inv (s : Counting) : Prop where
  counts : ∀ m b, s.counted m b ≠ [] → ∃ row, s.stored .minute m b = some row ∧
    row.figures.samples = (s.counted m b).length
  stored : ∀ x ∈ s.samples, x.row < s.nextRow
  counted : ∀ m b, ∀ x ∈ s.counted m b, x.row < s.nextRow

theorem samples_collect (l : List Sample) (g : Option ℤ) :
    (collect ((l.map Part.ofSample).map (·.figures)) g).samples = l.length := by
  induction l with
  | nil => rfl
  | cons x l ih =>
    simp only [collect, List.map_cons, List.sum_cons, List.length_cons] at ih ⊢
    rw [ih, add_comm]
    rfl

theorem length_sortByTime (l : List Sample) :
    (sortByTime Sample.observedAt l).length = l.length :=
  List.length_insertionSort _ l

/-- Rows of another granularity leave the row of a minute alone. -/
theorem stored_upsert {rows rollups : List Rollup} {granularity : Granularity}
    (hrows : ∀ r ∈ rows, r.granularity = granularity) (hne : granularity ≠ .minute)
    (m : MonitorId) (b : ℤ) :
    lookup Rollup.key (upsertBucket rows rollups) (m, .minute, b) =
      lookup Rollup.key rollups (m, .minute, b) := by
  have hother : lookup Rollup.key rows (m, .minute, b) = none := by
    refine Option.eq_none_iff_forall_ne_some.mpr fun found hfound => hne ?_
    obtain ⟨hmem, hkey⟩ := lookup_key Rollup.key hfound
    rw [← hrows found hmem]
    exact congrArg (fun k : Key => k.2.1) hkey
  rw [upsertBucket, lookup_upsert, hother, Option.none_or]

theorem stored_pruneRollups (now : ℤ) (t : Tables) (m : MonitorId) (b : ℤ) :
    (pruneRollups now t).stored .minute m b =
      if b < now - retention .minute then none else t.stored .minute m b := by
  have hfilter : (pruneRollups now t).stored .minute m b =
      if decide (¬b < now - retention .minute) = true then t.stored .minute m b else none :=
    lookup_filter Rollup.key (q := fun k => decide (¬k.2.2 < now - retention k.2.1))
      (fun _ => rfl) (m, .minute, b)
  rw [hfilter]
  by_cases hold : b < now - retention .minute
  · simp [hold]
  · simp [hold]

theorem counts_statement (hstep : counting.step s (.statement pass statement) = some t)
    (hinv : Inv s) : ∀ m b, t.counted m b ≠ [] → ∃ row, t.stored .minute m b = some row ∧
      row.figures.samples = (t.counted m b).length := by
  intro m b
  obtain ⟨hbase, hcounted⟩ := counting_step hstep
  have hstored : t.stored .minute m b =
      (statement.run s.now s.toTables).stored .minute m b := by rw [(step_statement hbase).1]
  rw [hcounted, hstored]
  cases statement with
  | rollupMinutes =>
    by_cases htouch : TouchesMinute s.toState m b
    · have hrow := stored_minute hbase htouch
      have hlength : (collect ((members minuteMs (minuteParts s.toTables) m b).map (·.figures))
          (greatest (minuteLead s.toState m b)
            (insideGap minuteMs (minuteParts s.toTables) m b))).samples =
          (s.samples.filter (inBucket minuteMs m b)).length := by
        rw [members_minuteParts, samples_collect, length_sortByTime]
      simp only [countedAfter, if_pos htouch]
      intro _
      exact ⟨_, hstored.symm.trans hrow, hlength⟩
    · have hrow : (Statement.run s.now .rollupMinutes s.toTables).stored .minute m b =
          s.stored .minute m b := (stored_rollupMinutes s.now s.toTables m b).trans (if_neg htouch)
      simp only [countedAfter, if_neg htouch]
      rw [hrow]
      exact hinv.counts m b
  | rollupHours =>
    have hrow : (Statement.run s.now .rollupHours s.toTables).stored .minute m b =
        s.stored .minute m b := stored_upsert (fun _ => granularity_of_mem_rollup) (by decide) m b
    rw [hrow]
    exact hinv.counts m b
  | rollupDays =>
    have hrow : (Statement.run s.now .rollupDays s.toTables).stored .minute m b =
        s.stored .minute m b := stored_upsert (fun _ => granularity_of_mem_rollup) (by decide) m b
    rw [hrow]
    exact hinv.counts m b
  | pruneSamples => exact hinv.counts m b
  | pruneRollups =>
    have hrow : (Statement.run s.now .pruneRollups s.toTables).stored .minute m b =
        if b < s.now - retention .minute then none else s.stored .minute m b :=
      stored_pruneRollups s.now s.toTables m b
    rw [hrow]
    simp only [countedAfter]
    split
    · intro hne
      exact absurd rfl hne
    · exact hinv.counts m b

theorem samples_statement {s t : State} (h : machine.step s (.statement pass statement) = some t)
    (hx : x ∈ t.samples) : x ∈ s.samples := by
  rw [(step_statement h).1] at hx
  by_cases hprune : statement = .pruneSamples
  · subst hprune
    exact List.mem_of_mem_filter hx
  · rw [run_samples hprune] at hx
    exact hx

theorem mem_countedAfter {a : Action} {m : MonitorId} {b : ℤ} (h : x ∈ countedAfter s a m b) :
    x ∈ s.samples ∨ x ∈ s.counted m b := by
  unfold countedAfter at h
  split at h
  · split at h
    · exact .inl (List.mem_of_mem_filter h)
    · exact .inr h
  · split at h
    · cases h
    · exact .inr h
  · exact .inr h

theorem inv_of_reachable (h : counting.Reachable s) : Inv s := by
  refine h.induct ⟨fun _ _ hne => absurd rfl hne, nofun,
    nofun⟩ ?_
  intro s a t _ ih hstep
  cases a with
  | insert y =>
    obtain ⟨hsamples, hrollups, hrow, hcounted⟩ := counting_insert hstep
    refine ⟨?_, fun x hx => ?_, fun m b x hx => ?_⟩
    · simp only [Tables.stored, hcounted, hrollups]
      exact ih.counts
    · rw [hrow]
      rw [hsamples] at hx
      rcases List.mem_append.mp hx with hx | hx
      · exact Nat.lt_succ_of_lt (ih.stored x hx)
      · obtain rfl := List.mem_singleton.mp hx
        exact Nat.lt_succ_self _
    · rw [hrow]
      rw [hcounted] at hx
      exact Nat.lt_succ_of_lt (ih.counted m b x hx)
  | tick d =>
    obtain ⟨htables, hrow, hcounted⟩ := counting_tick hstep
    refine ⟨?_, ?_, ?_⟩
    · rw [htables, hcounted]
      exact ih.counts
    · rw [htables, hrow]
      exact ih.stored
    · rw [hrow, hcounted]
      exact ih.counted
  | statement pass statement =>
    obtain ⟨hrow, hcounted⟩ := counting_statement hstep
    refine ⟨counts_statement hstep ih, fun x hx => ?_, fun m b x hx => ?_⟩
    · rw [hrow]
      exact ih.stored x (samples_statement (counting_step hstep).1 hx)
    · rw [hrow]
      rw [hcounted] at hx
      rcases mem_countedAfter hx with hx | hx
      · exact ih.stored x hx
      · exact ih.counted m b x hx

/-! ### Counted exactly if rolled up -/

theorem nextRow_le {a : Action} (h : counting.step s a = some t) : s.nextRow ≤ t.nextRow := by
  cases a with
  | insert x => exact (counting_insert h).2.2.1 ▸ Nat.le_succ _
  | tick d => exact (counting_tick h).2.1.ge
  | statement pass statement => exact (counting_statement h).1.ge

theorem RolledUp.row_lt (h : RolledUp x acts) :
    ∀ {s : Counting}, counting.exec acts = some s → x.row < s.nextRow := by
  induction h with
  | now pass hexec hstored _ =>
    intro t ht
    obtain ⟨s', hs', hstep⟩ := counting.exec_concat_eq_some.mp ht
    obtain rfl := Option.some.inj (hexec.symm.trans hs')
    exact lt_of_lt_of_le ((inv_of_reachable ⟨_, hexec⟩).stored x hstored) (nextRow_le hstep)
  | since a h hexec _ ih =>
    intro t ht
    obtain ⟨s', hs', hstep⟩ := counting.exec_concat_eq_some.mp ht
    exact lt_of_lt_of_le (ih hs') (nextRow_le hstep)

/-- The minute of a stored sample is touched exactly if it is in the window. -/
theorem touchesMinute_iff {s : State} (hx : x ∈ s.samples) :
    TouchesMinute s x.monitorId (minuteOf x) ↔ minuteWindow s.now ≤ minuteOf x :=
  ⟨fun h => h.start.2, touchesMinute_of_mem hx (inBucket_iff.mpr ⟨rfl, rfl⟩)⟩

theorem mem_counted_iff (hexec : counting.exec acts = some s) (hx : x ∈ s.samples) :
    x ∈ s.counted x.monitorId (minuteOf x) ↔ RolledUp x acts := by
  induction acts using List.reverseRecOn generalizing s with
  | nil =>
    obtain rfl : counting.init = s := by simpa using hexec
    cases hx
  | append_singleton acts a ih =>
    obtain ⟨r, hr, hstep⟩ := counting.exec_concat_eq_some.mp hexec
    have hinv := inv_of_reachable ⟨acts, hr⟩
    rw [rolledUp_concat hr]
    cases a with
    | insert y =>
      obtain ⟨hsamples, -, -, hcounted⟩ := counting_insert hstep
      rw [hsamples] at hx
      rw [hcounted]
      rcases List.mem_append.mp hx with hold | hnew
      · simpa using ih hr hold
      · -- the new row is not counted yet, and was not stored when any statement ran
        have hrow : x.row = r.nextRow := congrArg Sample.row (List.mem_singleton.mp hnew)
        have hcount : x ∉ r.counted x.monitorId (minuteOf x) := by
          intro hmem
          exact absurd (hinv.counted _ _ x hmem) (by omega)
        have hrolled : ¬RolledUp x acts := by
          intro hrolled
          exact absurd (hrolled.row_lt hr) (by omega)
        simp [hcount, hrolled]
    | tick d =>
      obtain ⟨htables, -, hcounted⟩ := counting_tick hstep
      rw [htables] at hx
      rw [hcounted]
      simpa using ih hr hx
    | statement pass statement =>
      have hold := samples_statement (counting_step hstep).1 hx
      rw [(counting_statement hstep).2]
      cases statement with
      | rollupMinutes =>
        by_cases hwindow : minuteWindow r.now ≤ minuteOf x
        · have hin : inBucket minuteMs x.monitorId (minuteOf x) x = true :=
            inBucket_iff.mpr ⟨rfl, rfl⟩
          simp [countedAfter, (touchesMinute_iff hold).mpr hwindow, hold, hwindow, hin]
        · have htouch := mt (touchesMinute_iff hold).mp hwindow
          simpa [countedAfter, htouch, hwindow] using ih hr hold
      | pruneRollups =>
        by_cases hyoung : minuteOf x < r.now - retention .minute
        · simp [countedAfter, hyoung]
        · simpa [countedAfter, hyoung] using ih hr hold
      | _ => simpa [countedAfter] using ih hr hold

/-- A sample that a prune deletes is in the count of the row stored for its minute exactly if it was
rolled up. -/
theorem pruned_included_iff (acts : List Action) (s t : Counting) (pass : ℕ) (x : Sample)
    (hexec : counting.exec acts = some s) :
    counting.step s (.statement pass .pruneSamples) = some t → x ∈ s.samples → x ∉ t.samples →
      (Included s x ↔ RolledUp x acts) := by
  intro _ hstored _
  rw [← mem_counted_iff hexec hstored]
  refine ⟨fun h => h.1, fun h => ⟨h, ?_⟩⟩
  exact (inv_of_reachable ⟨acts, hexec⟩).counts _ _ (List.ne_nil_of_mem h)

/-! ### Two runs -/

def firstSample : Sample := ⟨0, 1, 0, true, .up, some 5⟩

/-- A sample, and a pass that starts after some time and stands still for some time. -/
def minutesRun (early late : ℕ) : List Action :=
  [.insert firstSample, .tick early] ++ [.statement 0 .rollupMinutes] ++ [.tick late]

def untilPrune (early late : ℕ) : List Action :=
  minutesRun early late ++ [.statement 0 .rollupHours] ++ [.statement 0 .rollupDays]

/-- A pass that comes in time counts the sample before it deletes it. -/
theorem pruned_included_of_pass :
    Included (counting.reached (untilPrune 300000 7200000)) firstSample := by
  refine (pruned_included_iff (untilPrune 300000 7200000) _ _ 0 firstSample
    (exec_reached (by decide +kernel)) (step_reached (by decide +kernel)) (by decide +kernel)
    (by decide +kernel)).mpr ?_
  refine .since _ (.since _ (.since _ (.now 0 (exec_reached (by decide +kernel)) (by decide +kernel)
    (by decide +kernel)) (exec_reached (by decide +kernel)) ?_) (exec_reached (by decide +kernel))
    ?_) (exec_reached (by decide +kernel)) ?_
  all_goals exact nofun

/-- After an outage of two hours a pass deletes a sample that it has not counted. -/
theorem pruned_not_included :
    ¬∀ acts s t pass x, counting.exec acts = some s →
      counting.step s (.statement pass .pruneSamples) = some t → x ∈ s.samples → x ∉ t.samples →
      Included s x := by
  intro hclaim
  have hincluded := hclaim (untilPrune 7500000 0) _ _ 0 firstSample
    (exec_reached (by decide +kernel)) (step_reached (by decide +kernel)) (by decide +kernel)
    (by decide +kernel)
  exact absurd hincluded.1 (by decide +kernel)

end Vigil.HighFreq.Pruned
