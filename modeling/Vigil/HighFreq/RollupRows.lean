import Vigil.HighFreq.Rollups

/-! What the row of a bucket is made of: the rows of the bucket in order, and the last row of the
window before it, which closes the gap across the leading boundary.  A later statement writes the
same row if and only if it finds the same rows and its leading gap is as good as the same. -/

namespace Vigil.HighFreq.RollupRows

open Lib Buckets Timeline Rollups

/-! ### Truncation -/

variable {unit b since : ℤ} {parts : List Part} {m : MonitorId} {t s : State}

theorem dateTrunc_le (h : 0 < unit) (t : ℤ) : dateTrunc unit t ≤ t :=
  Int.ediv_mul_le t h.ne'

theorem lt_dateTrunc_add (h : 0 < unit) (t : ℤ) : t < dateTrunc unit t + unit := by
  have := Int.lt_ediv_add_one_mul_self t h
  rw [add_mul, one_mul] at this
  exact this

theorem dvd_dateTrunc (unit t : ℤ) : unit ∣ dateTrunc unit t := Dvd.intro_left (t / unit) rfl

theorem dateTrunc_eq_iff (h : 0 < unit) (hb : unit ∣ b) (t : ℤ) :
    dateTrunc unit t = b ↔ b ≤ t ∧ t < b + unit := by
  constructor
  · rintro rfl
    exact ⟨dateTrunc_le h t, lt_dateTrunc_add h t⟩
  · rintro ⟨hle, hlt⟩
    obtain ⟨k, rfl⟩ := hb
    have hk : t / unit = k := by
      rw [Int.ediv_eq_iff_of_pos h, mul_comm k unit]
      exact ⟨hle, hlt⟩
    rw [dateTrunc, hk, mul_comm]

theorem dateTrunc_mono (h : 0 < unit) {t t' : ℤ} (ht : t ≤ t') :
    dateTrunc unit t ≤ dateTrunc unit t' :=
  Int.mul_le_mul_of_nonneg_right (Int.ediv_le_ediv h ht) h.le

theorem minuteMs_pos : 0 < minuteMs := by decide

theorem hourMs_pos : 0 < hourMs := by decide

theorem minuteWindow_mono {now now' : ℤ} (h : now ≤ now') : minuteWindow now ≤ minuteWindow now' :=
  dateTrunc_mono minuteMs_pos (by omega)

theorem hourWindow_mono {now now' : ℤ} (h : now ≤ now') : hourWindow now ≤ hourWindow now' :=
  dateTrunc_mono hourMs_pos (by omega)

/-! ### Nulls -/

theorem greatest_comm (x y : Option ℤ) : greatest x y = greatest y x := by
  cases x <;> cases y <;> simp [greatest, max_comm]

theorem greatest_assoc (x y z : Option ℤ) :
    greatest (greatest x y) z = greatest x (greatest y z) := by
  cases x <;> cases y <;> cases z <;> simp [greatest, max_assoc]

@[simp] theorem none_greatest (x : Option ℤ) : greatest none x = x := by
  cases x <;> rfl

@[simp] theorem greatest_self (x : Option ℤ) : greatest x x = x := by
  cases x <;> simp [greatest]

theorem maxOf_greatest {α : Type} (f g : α → Option ℤ) (l : List α) :
    greatest (maxOf (l.map f)) (maxOf (l.map g)) = maxOf (l.map fun a => greatest (f a) (g a)) := by
  induction l with
  | nil => rfl
  | cons a l ih =>
    simp only [maxOf, List.map_cons, List.foldr_cons] at ih ⊢
    rw [← ih, greatest_assoc, greatest_assoc, ← greatest_assoc _ (g a), greatest_comm _ (g a),
      greatest_assoc (g a)]

/-! ### The rows of a bucket and the row before it -/

/-- The rows of the bucket, in order. -/
def members (unit : ℤ) (parts : List Part) (m : MonitorId) (b : ℤ) : List Part :=
  sortByTime Part.time (parts.filter fun p => p.monitorId = m ∧ dateTrunc unit p.time = b)

/-- The last row of the window before the bucket. -/
def prior (since : ℤ) (parts : List Part) (m : MonitorId) (b : ℤ) : Option Part :=
  ((window since parts m).filter fun p => p.time < b).getLast?

/-- The gaps that a row knows of: its own, and the one from the end of the row before it. -/
def leading (before : Option ℤ) (p : Part) : Option ℤ :=
  greatest p.figures.maxGapMs (boundaryGap (p, before))

/-- The largest gap of rows in order, behind the end of another row. -/
def gapOf (before : Option ℤ) (l : List Part) : Option ℤ :=
  maxOf ((lags Part.last before l).map fun x => leading x.2 x.1)

theorem gapOf_cons (before : Option ℤ) (p : Part) (rest : List Part) :
    gapOf before (p :: rest) = greatest (leading before p) (gapOf (some p.last) rest) := rfl

theorem bucket_eq (hunit : 0 < unit) (hb : unit ∣ b) (hsince : since ≤ b) (parts : List Part)
    (m : MonitorId) : bucket unit since parts m b =
      collect ((members unit parts m b).map (·.figures))
        (gapOf ((prior since parts m b).map Part.last) (members unit parts m b)) := by
  have hsorted : (window since parts m).Pairwise fun p q => p.time ≤ q.time :=
    sortByTime_pairwise Part.time _
  have hmembers : (window since parts m).filter (fun p => b ≤ p.time ∧ p.time < b + unit) =
      members unit parts m b := by
    rw [window, members, ← sortByTime_filter, List.filter_filter]
    congr 2
    funext p
    rw [← Bool.decide_and]
    congr 1
    rw [dateTrunc_eq_iff hunit hb]
    refine propext ⟨fun h => ⟨h.2.1, h.1⟩, fun h => ⟨h.2, h.1, hsince.trans h.2.1⟩⟩
  have hrows : ((lags Part.last none (window since parts m)).filter fun x =>
      dateTrunc unit x.1.time = b) =
      lags Part.last ((prior since parts m b).map Part.last) (members unit parts m b) := by
    simp only [dateTrunc_eq_iff hunit hb]
    rw [filter_lags Part.time Part.last hsorted b (b + unit), hmembers]
    rfl
  have hfigures : ((lags Part.last ((prior since parts m b).map Part.last)
      (members unit parts m b)).map (·.1.figures)) = (members unit parts m b).map (·.figures) := by
    conv_rhs => rw [← map_fst_lags Part.last ((prior since parts m b).map Part.last)
      (members unit parts m b), List.map_map]
    rfl
  rw [bucket]
  simp only [hrows, hfigures]
  rw [maxOf_greatest]
  rfl

/-! ### When two leading gaps make the same row -/

/-- Two leading gaps that are the same, or neither of which exceeds the gaps inside. -/
def Steady (lead lead' inside : Option ℤ) : Prop :=
  lead = lead' ∨ greatest lead inside = inside ∧ greatest lead' inside = inside

instance (lead lead' inside : Option ℤ) : Decidable (Steady lead lead' inside) :=
  inferInstanceAs (Decidable (_ ∨ _))

theorem greatest_eq_iff_steady (lead lead' inside : Option ℤ) :
    greatest lead inside = greatest lead' inside ↔ Steady lead lead' inside := by
  unfold Steady
  cases inside with
  | none => cases lead <;> cases lead' <;> simp [greatest]
  | some g =>
    cases lead with
    | none => cases lead' <;> simp [greatest]
    | some x =>
      cases lead' with
      | none => simp [greatest]
      | some y =>
        simp only [greatest, Option.some.injEq]
        omega

/-! ### What a statement stores -/

theorem mem_groups : (m, b) ∈ groups unit since parts ↔
      ∃ p ∈ parts, since ≤ p.time ∧ p.monitorId = m ∧ dateTrunc unit p.time = b := by
  simp only [groups, List.mem_dedup, List.mem_map, List.mem_filter, decide_eq_true_eq,
    Prod.mk.injEq]
  constructor
  · rintro ⟨p, ⟨hp, hsince⟩, hm, hb⟩
    exact ⟨p, hp, hsince, hm, hb⟩
  · rintro ⟨p, hp, hsince, hm, hb⟩
    exact ⟨p, ⟨hp, hsince⟩, hm, hb⟩

theorem lookup_rollup (granularity : Granularity) (unit since : ℤ) (parts : List Part)
    (m : MonitorId) (b : ℤ) :
    lookup Rollup.key (rollup granularity unit since parts) (m, granularity, b) =
      if (m, b) ∈ groups unit since parts then
        some ⟨m, granularity, b, bucket unit since parts m b⟩
      else none := by
  split
  · rename_i hmem
    have hrow : (⟨m, granularity, b, bucket unit since parts m b⟩ : Rollup) ∈
        rollup granularity unit since parts := List.mem_map.mpr ⟨(m, b), hmem, rfl⟩
    obtain ⟨found, hfound⟩ := lookup_isSome Rollup.key hrow
    obtain ⟨hin, hkey⟩ := lookup_key Rollup.key hfound
    obtain ⟨⟨m', b'⟩, -, rfl⟩ := List.mem_map.mp hin
    obtain ⟨rfl, rfl⟩ : m' = m ∧ b' = b := by simpa [Rollup.key] using hkey
    exact hfound
  · rename_i hmem
    refine Option.eq_none_iff_forall_ne_some.mpr fun found hfound => hmem ?_
    obtain ⟨hin, hkey⟩ := lookup_key Rollup.key hfound
    obtain ⟨⟨m', b'⟩, hgroup, rfl⟩ := List.mem_map.mp hin
    obtain ⟨rfl, rfl⟩ : m' = m ∧ b' = b := by simpa [Rollup.key] using hkey
    exact hgroup

theorem granularity_of_mem_rollup {granularity : Granularity} {r : Rollup}
    (h : r ∈ rollup granularity unit since parts) : r.granularity = granularity := by
  obtain ⟨⟨m, b⟩, -, rfl⟩ := List.mem_map.mp h
  rfl

theorem figures_of_mem_rollup {granularity : Granularity} {r : Rollup}
    (h : r ∈ rollup granularity unit since parts) :
    (r.monitorId, r.bucketStart) ∈ groups unit since parts ∧
      r.figures = bucket unit since parts r.monitorId r.bucketStart := by
  obtain ⟨⟨m, b⟩, hgroup, rfl⟩ := List.mem_map.mp h
  exact ⟨hgroup, rfl⟩

theorem keys_rollup_nodup (granularity : Granularity) (unit since : ℤ) (parts : List Part) :
    ((rollup granularity unit since parts).map Rollup.key).Nodup := by
  rw [rollup, List.map_map]
  refine (List.nodup_dedup _).map ?_
  rintro ⟨m, b⟩ ⟨m', b'⟩ h
  simpa [Rollup.key] using h

/-- The leading gap of a bucket: from the last row of the window before it to its first row, or what
the first row knows itself. -/
def leadingGap (unit since : ℤ) (parts : List Part) (m : MonitorId) (b : ℤ) : Option ℤ :=
  (members unit parts m b).head?.bind (leading ((prior since parts m b).map Part.last))

/-- The largest gap after the first row of a bucket. -/
def insideGap (unit : ℤ) (parts : List Part) (m : MonitorId) (b : ℤ) : Option ℤ :=
  match members unit parts m b with
  | [] => none
  | p :: rest => gapOf (some p.last) rest

theorem bucket_eq_collect (hunit : 0 < unit) (hb : unit ∣ b) (hsince : since ≤ b)
    (parts : List Part) (m : MonitorId) : bucket unit since parts m b =
      collect ((members unit parts m b).map (·.figures))
        (greatest (leadingGap unit since parts m b) (insideGap unit parts m b)) := by
  rw [bucket_eq hunit hb hsince, leadingGap, insideGap]
  cases members unit parts m b with
  | nil => rfl
  | cons p rest => rw [gapOf_cons]; rfl

/-! ### Steps -/

theorem step_cases {a : Action} (h : step s a = some t) : (∃ x, a = .insert x ∧ t = { s with
        samples := s.samples ++ [{ x with row := s.nextRow }]
        nextRow := s.nextRow + 1 }) ∨
    (∃ d : ℕ, a = .tick d ∧ t = { s with now := s.now + d }) ∨
    (∃ pass statement, a = .statement pass statement ∧
      t.toTables = statement.run s.now s.toTables ∧ t.now = s.now ∧ t.nextRow = s.nextRow) := by
  cases a with
  | insert x => exact .inl ⟨x, rfl, (Option.some.inj h).symm⟩
  | tick d => exact .inr (.inl ⟨d, rfl, (Option.some.inj h).symm⟩)
  | statement pass statement =>
    obtain ⟨-, ht⟩ := Option.ite_none_right_eq_some.mp h
    cases ht
    exact .inr (.inr ⟨pass, statement, rfl, rfl, rfl, rfl⟩)

theorem step_statement {pass : ℕ} {statement : Statement}
    (h : machine.step s (.statement pass statement) = some t) :
    t.toTables = statement.run s.now s.toTables ∧ t.now = s.now := by
  obtain ⟨-, ht⟩ := Option.ite_none_right_eq_some.mp h
  cases ht
  exact ⟨rfl, rfl⟩

theorem now_le {a : Action} (h : step s a = some t) : s.now ≤ t.now := by
  obtain ⟨x, -, rfl⟩ | ⟨d, -, rfl⟩ | ⟨pass, statement, -, -, hnow, -⟩ := step_cases h
  · exact le_rfl
  · exact Int.le_add_of_nonneg_right (Int.natCast_nonneg d)
  · exact hnow.ge

theorem run_samples {statement : Statement} (h : statement ≠ .pruneSamples) (now : ℤ) (t : Tables) :
    (statement.run now t).samples = t.samples := by
  cases statement with
  | pruneSamples => exact absurd rfl h
  | _ => rfl

def inBucket (unit : ℤ) (m : MonitorId) (b : ℤ) (x : Sample) : Bool :=
  x.monitorId = m ∧ dateTrunc unit x.observedAt = b

/-- The samples of a minute stay while the minute is in the window, and none are added. -/
theorem samples_kept {a : Action} (h : step s a = some t)
    (hinsert : ∀ x, a = .insert x → inBucket minuteMs m b x = false)
    (hwindow : minuteWindow t.now ≤ b) :
    t.samples.filter (inBucket minuteMs m b) = s.samples.filter (inBucket minuteMs m b) := by
  obtain ⟨x, ha, rfl⟩ | ⟨d, -, rfl⟩ | ⟨pass, statement, -, htables, hnow, -⟩ := step_cases h
  · have hx : inBucket minuteMs m b { x with row := s.nextRow } = false := hinsert x ha
    simp [List.filter_append, hx]
  · rfl
  · by_cases hprune : statement = .pruneSamples
    · have hsamples : t.samples = (pruneSamples s.now s.toTables).samples := by
        rw [htables, hprune]
        rfl
      rw [hsamples, pruneSamples, List.filter_filter]
      apply List.filter_congr
      intro x _
      by_cases hx : inBucket minuteMs m b x = true
      · have hb : dateTrunc minuteMs x.observedAt = b := (of_decide_eq_true hx).2
        have hle := dateTrunc_le minuteMs_pos x.observedAt
        have hlt := lt_dateTrunc_add minuteMs_pos (t.now - minuteWindowMinutes * minuteMs)
        have hkept : ¬x.observedAt < s.now - hfRawRetentionMinutes * minuteMs := by
          simp only [minuteWindow, hnow, minuteWindowMinutes, minuteMs, hfRawRetentionMinutes] at *
          omega
        simp [hx, hkept]
      · simp [hx]
    · have hsamples : t.samples = s.samples := by rw [htables, run_samples hprune]
      rw [hsamples]

/-! ### Minutes -/

def minuteParts (t : Tables) : List Part := t.samples.map Part.ofSample

theorem members_minuteParts (t : Tables) (m : MonitorId) (b : ℤ) :
    members minuteMs (minuteParts t) m b =
      (sortByTime Sample.observedAt (t.samples.filter (inBucket minuteMs m b))).map
        Part.ofSample := by
  have hfilter : (minuteParts t).filter (fun p => p.monitorId = m ∧ dateTrunc minuteMs p.time = b) =
      (t.samples.filter (inBucket minuteMs m b)).map Part.ofSample := by
    rw [minuteParts, List.filter_map]
    rfl
  rw [members, hfilter, sortByTime_map Sample.observedAt Part.ofSample fun _ => rfl]

theorem stored_rollupMinutes (now : ℤ) (t : Tables) (m : MonitorId) (b : ℤ) :
    (rollupMinutes now t).stored .minute m b =
      if (m, b) ∈ groups minuteMs (minuteWindow now) (minuteParts t) then
        some ⟨m, .minute, b, bucket minuteMs (minuteWindow now) (minuteParts t) m b⟩
      else t.stored .minute m b := by
  rw [Tables.stored, rollupMinutes, upsertBucket, lookup_upsert, ← minuteParts, lookup_rollup]
  split
  · rfl
  · rfl

/-- The samples of a bucket and of the bucket before it have all come before the run `acts`. -/
def AllStored (unit : ℤ) (m : MonitorId) (b : ℤ) (acts : List Action) : Prop :=
  ∀ x, .insert x ∈ acts → inBucket unit m b x = false ∧ inBucket unit m (b - unit) x = false

theorem le_dateTrunc {unit since t : ℤ} (h : 0 < unit) (hsince : unit ∣ since) (ht : since ≤ t) :
    since ≤ dateTrunc unit t := by
  have hself : dateTrunc unit since = since :=
    (dateTrunc_eq_iff h hsince since).mpr ⟨le_rfl, lt_add_of_pos_right _ h⟩
  rw [← hself]
  exact dateTrunc_mono h ht

theorem start_of_mem_groups (h : 0 < unit) (hsince : unit ∣ since)
    (hmem : (m, b) ∈ groups unit since parts) : unit ∣ b ∧ since ≤ b := by
  obtain ⟨p, -, hp, -, rfl⟩ := mem_groups.mp hmem
  exact ⟨dvd_dateTrunc unit p.time, le_dateTrunc h hsince hp⟩

/-- Whether `rollupMinutes` writes the row of a minute. -/
def TouchesMinute (s : State) (m : MonitorId) (b : ℤ) : Prop :=
  (m, b) ∈ groups minuteMs (minuteWindow s.now) (minuteParts s.toTables)

instance (s : State) (m : MonitorId) (b : ℤ) : Decidable (TouchesMinute s m b) :=
  inferInstanceAs (Decidable (_ ∈ _))

def minuteLead (s : State) (m : MonitorId) (b : ℤ) : Option ℤ :=
  leadingGap minuteMs (minuteWindow s.now) (minuteParts s.toTables) m b

theorem TouchesMinute.start (h : TouchesMinute s m b) : minuteMs ∣ b ∧ minuteWindow s.now ≤ b :=
  start_of_mem_groups minuteMs_pos (dvd_dateTrunc _ _) h

/-- What `rollupMinutes` stores for a minute that it touches. -/
theorem stored_minute {pass : ℕ} (h : machine.step s (.statement pass .rollupMinutes) = some t)
    (htouch : TouchesMinute s m b) : t.stored .minute m b =
      some ⟨m, .minute, b, collect ((members minuteMs (minuteParts s.toTables) m b).map (·.figures))
        (greatest (minuteLead s m b) (insideGap minuteMs (minuteParts s.toTables) m b))⟩ := by
  obtain ⟨hb, hsince⟩ := htouch.start
  have hgroup : (m, b) ∈ groups minuteMs (minuteWindow s.now) (minuteParts s.toTables) := htouch
  have hstored := stored_rollupMinutes s.now s.toTables m b
  rw [if_pos hgroup, bucket_eq_collect minuteMs_pos hb hsince] at hstored
  rw [(step_statement h).1]
  exact hstored

theorem collect_inj_gap {l : List Figures} {g g' : Option ℤ} : collect l g = collect l g' ↔ g = g' :=
  ⟨congrArg Figures.maxGapMs, congrArg (collect l)⟩

/-- Between two statements that touch a minute, its samples stay as they are. -/
theorem members_of_run {acts : List Action} (hrun : machine.execFrom s acts = some t)
    (hinsert : ∀ x, .insert x ∈ acts → inBucket minuteMs m b x = false)
    (hwindow : minuteWindow t.now ≤ b) :
    t.samples.filter (inBucket minuteMs m b) = s.samples.filter (inBucket minuteMs m b) := by
  refine Machine.execFrom_induct (P := fun r => minuteWindow r.now ≤ b →
    r.samples.filter (inBucket minuteMs m b) = s.samples.filter (inBucket minuteMs m b))
    hrun (fun _ => rfl) ?_ hwindow
  intro r a r' ha ih hstep hr'
  rw [samples_kept hstep (fun x hx => hinsert x (hx ▸ ha)) hr',
    ih ((minuteWindow_mono (now_le hstep)).trans hr')]

/-- A later `rollupMinutes` leaves the row of a minute as it is exactly if the leading gaps that the
two statements see make no difference. -/
theorem stored_minute_eq_iff {s₁ s₂ s₃ s₄ : State} {acts : List Action} {p q : ℕ}
    (h₁ : machine.step s₁ (.statement p .rollupMinutes) = some s₂)
    (hrun : machine.execFrom s₂ acts = some s₃)
    (h₃ : machine.step s₃ (.statement q .rollupMinutes) = some s₄)
    (hinsert : ∀ x, .insert x ∈ acts → inBucket minuteMs m b x = false)
    (htouch₁ : TouchesMinute s₁ m b) (htouch₃ : TouchesMinute s₃ m b) :
    s₄.stored .minute m b = s₂.stored .minute m b ↔
      Steady (minuteLead s₃ m b) (minuteLead s₁ m b)
        (insideGap minuteMs (minuteParts s₁.toTables) m b) := by
  have hsamples : s₂.samples = s₁.samples := by
    rw [(step_statement h₁).1]
    rfl
  have hmembers : members minuteMs (minuteParts s₃.toTables) m b =
      members minuteMs (minuteParts s₁.toTables) m b := by
    rw [members_minuteParts, members_minuteParts, members_of_run hrun hinsert htouch₃.start.2,
      hsamples]
  have hinside : insideGap minuteMs (minuteParts s₃.toTables) m b =
      insideGap minuteMs (minuteParts s₁.toTables) m b := by
    rw [insideGap, insideGap, hmembers]
  rw [stored_minute h₁ htouch₁, stored_minute h₃ htouch₃, hmembers, hinside]
  simp only [Option.some.injEq, Rollup.mk.injEq, true_and, collect_inj_gap]
  exact greatest_eq_iff_steady _ _ _

end Vigil.HighFreq.RollupRows
