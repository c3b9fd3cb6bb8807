import Vigil.Monitors.Dispatch

/-! Who holds a monitor's next dispatch.  Every recorded outcome clears the claim column, whoever ran
the check; as long as an outcome that is recorded under a live claim is that of the check enqueued
under it, no monitor is handed out twice. -/

namespace Vigil.Monitors.DispatchClaims

open Record Dispatch Lib

/-! ### What a step does to rows and claims -/

/-- What a step does to the rows, the claims and the clock. -/
inductive Effect (s : State) (a : Action) (t : State) : Prop where
  /-- Rows that nobody holds are claimed. -/
  | hand (p : Row → Bool) (dispatcher : Dispatcher) (expiresAt : ℤ) (due : Row → Option ℤ)
      (free : ∀ r ∈ s.rows, p r = true → r.unclaimed s.now = true)
      (rows : t.rows = (s.hand p dispatcher expiresAt due).rows)
      (grants : t.grants = (s.hand p dispatcher expiresAt due).grants)
      (nextSerial : t.nextSerial = s.nextSerial + 1) (now : t.now = s.now)
      (dueBy : (∀ r ∈ s.rows, p r = true → r.isTime expiresAt = true ∧ due r = r.nextEvaluationAt) ∨
        ∃ check updated leaseSeconds, s.checks check = .reserving updated leaseSeconds ∧
          expiresAt = s.now + leaseSeconds * 1000 ∧ due = fun _ => updated.nextEvaluationAt)
  /-- An outcome is recorded. -/
  | apply (check : ℕ) (outcome : CheckResult) (delayMs : ℤ) (copy : Row) (claim : Option ℕ)
      (action : a = .apply check outcome delayMs) (phase : s.checks check = .probing copy claim)
      (rows : t.rows = s.rows.map (recordRow copy outcome s.now delayMs))
      (grants : t.grants =
        if s.rows.any fun r => UpdateMatches copy.monitor r.monitor then
          s.grants.map (spend claim copy.id)
        else s.grants)
      (nextSerial : t.nextSerial = s.nextSerial) (now : t.now = s.now)
  /-- No claim is taken or given back. -/
  | quiet (grants : t.grants = s.grants) (nextSerial : t.nextSerial = s.nextSerial)
      (now : s.now ≤ t.now) (keys : (s.rows.map Row.id).Nodup → (t.rows.map Row.id).Nodup)
      (rows : ∀ r' ∈ t.rows,
        (∃ r ∈ s.rows, r'.id = r.id ∧ r'.claimedUntil = r.claimedUntil) ∨
          r'.claimedUntil = none ∧ ∀ g ∈ s.grants, g.monitorId ≠ r'.id)

theorem Effect.same {s t : State} {a : Action} (hgrants : t.grants = s.grants)
    (hserial : t.nextSerial = s.nextSerial) (hnow : t.now = s.now) (hrows : t.rows = s.rows) :
    Effect s a t :=
  .quiet hgrants hserial hnow.ge (by rw [hrows]; exact id)
    fun r hr => .inl ⟨r, hrows ▸ hr, rfl, rfl⟩

theorem map_ids {rows : List Row} {f : Row → Row} (h : ∀ r, (f r).id = r.id) :
    (rows.map f).map Row.id = rows.map Row.id := by
  rw [List.map_map]
  exact List.map_congr_left fun r _ => h r

theorem isTime_mono {r : Row} {now later : ℤ} (h : r.isTime now = true) (hle : now ≤ later) :
    r.isTime later = true := by
  cases hnext : r.nextEvaluationAt with
  | none => simp [Row.isTime, hnext]
  | some next =>
    simp only [Row.isTime, hnext, Option.all_some, decide_eq_true_eq] at h ⊢
    omega

theorem takes_spec {now : ℤ} {chunk locked : List ℕ} {r : Row}
    (h : takes now chunk locked r = true) :
    r.unclaimed now = true ∧ r.isTime now = true := by
  simp only [takes, dueCondition, Bool.and_eq_true] at h
  exact ⟨h.2.2, h.2.1.2⟩

theorem applyOutcome_fields (s : State) (check : ℕ) (copy : Row) (claim : Option ℕ)
    (outcome : CheckResult) (delayMs : ℤ) :
    (applyOutcome s check copy claim outcome delayMs).rows =
        s.rows.map (recordRow copy outcome s.now delayMs) ∧
      (applyOutcome s check copy claim outcome delayMs).grants =
        (if s.rows.any fun r => UpdateMatches copy.monitor r.monitor then
          s.grants.map (spend claim copy.id)
        else s.grants) ∧
      (applyOutcome s check copy claim outcome delayMs).nextSerial = s.nextSerial ∧
      (applyOutcome s check copy claim outcome delayMs).now = s.now ∧
      (applyOutcome s check copy claim outcome delayMs).jobs = s.jobs ∧
      (applyOutcome s check copy claim outcome delayMs).ticks = s.ticks ∧
      ∃ phase, (applyOutcome s check copy claim outcome delayMs).checks =
        Function.update s.checks check phase ∧
          (phase = .idle ∨ ∃ updated, phase = .applied updated) := by
  unfold applyOutcome
  simp only
  split
  · exact ⟨rfl, rfl, rfl, rfl, rfl, rfl, .idle, rfl, .inl rfl⟩
  · rename_i updated _
    refine ⟨rfl, rfl, rfl, rfl, rfl, rfl, _, rfl, ?_⟩
    split
    · exact .inr ⟨updated, rfl⟩
    · exact .inl rfl

theorem step_effect {s t : State} {a : Action} (h : machine.step s a = some t) : Effect s a t := by
  cases a with
  | wait ms =>
    cases h
    exact .quiet rfl rfl (Int.le_add_of_nonneg_right (Int.natCast_nonneg ms)) id
      fun r hr => .inl ⟨r, hr, rfl, rfl⟩
  | create row =>
    obtain ⟨hfresh, ht⟩ := Option.ite_none_right_eq_some.mp h
    cases ht
    refine .quiet rfl rfl le_rfl (fun hkeys => ?_) fun r hr => ?_
    · simp only [List.map_append, List.map_cons, List.map_nil]
      refine hkeys.append (List.nodup_singleton _) (List.disjoint_singleton.mpr fun hmem => ?_)
      obtain ⟨r, hr, hid⟩ := List.mem_map.mp hmem
      exact hfresh.1 r hr hid
    rcases List.mem_append.mp hr with hr | hr
    · exact .inl ⟨r, hr, rfl, rfl⟩
    · obtain rfl := List.mem_singleton.mp hr
      exact .inr ⟨rfl, hfresh.2⟩
  | delete monitorId =>
    cases h
    exact .quiet rfl rfl le_rfl (fun hkeys => hkeys.sublist (List.filter_sublist.map _))
      fun r hr => .inl ⟨r, List.mem_of_mem_filter hr, rfl, rfl⟩
  | edit monitorId row =>
    obtain ⟨hid, ht⟩ := Option.ite_none_right_eq_some.mp h
    cases ht
    have hsame (r : Row) :
        (if r.id = monitorId then row.setClaim r.claimedUntil else r).id = r.id ∧
          (if r.id = monitorId then row.setClaim r.claimedUntil else r).claimedUntil =
            r.claimedUntil := by
      split
      · rename_i hmatch
        exact ⟨hid.trans hmatch.symm, rfl⟩
      · exact ⟨rfl, rfl⟩
    refine .quiet rfl rfl le_rfl (fun hkeys => ?_) fun r' hr' => ?_
    · rw [map_ids fun r => (hsame r).1]
      exact hkeys
    · obtain ⟨r, hr, rfl⟩ := List.mem_map.mp hr'
      exact .inl ⟨r, hr, hsame r⟩
  | find tick limit organizationId | enqueue tick accepted | runMonitorNow check monitorId
  | promote check copy | send check accepted =>
    simp only [machine, step] at h
    split at h
    · cases h
      exact .same rfl rfl rfl rfl
    · cases h
  | select tick held =>
    simp only [machine, step] at h
    split at h
    · cases h
      refine .quiet rfl rfl le_rfl (fun hkeys => ?_) fun r' hr' => ?_
      · simp only [State.setTick, deferHighFrequencyOwned]
        rw [map_ids fun r => by split <;> rfl]
        exact hkeys
      · obtain ⟨r, hr, rfl⟩ := List.mem_map.mp hr'
        refine .inl ⟨r, hr, ?_⟩
        split
        · exact ⟨rfl, rfl⟩
        · exact ⟨rfl, rfl⟩
    · cases h
  | claim tick locked =>
    simp only [machine, step] at h
    split at h
    · rename_i id rest claimed _
      cases h
      refine .hand (takes s.now ((id :: rest).take claimChunk) locked) (.tick tick)
        (s.now + enqueueLeaseSeconds * 1000) (·.nextEvaluationAt)
        (fun r _ hr => (takes_spec hr).1) rfl rfl rfl rfl (.inl fun r _ hr => ⟨?_, rfl⟩)
      exact isTime_mono (takes_spec hr).2 (by simp only [enqueueLeaseSeconds]; omega)
    · cases h
  | failTick tick =>
    cases h
    exact .same rfl rfl rfl rfl
  | start check job =>
    simp only [machine, step] at h
    split at h
    · obtain ⟨-, ht⟩ := Option.ite_none_right_eq_some.mp h
      split at ht
      · cases ht
        exact .same rfl rfl rfl rfl
      · cases ht
        exact .same rfl rfl rfl rfl
    · cases h
  | apply check outcome delayMs =>
    simp only [machine, step] at h
    split at h
    · rename_i copy claim hphase
      cases h
      obtain ⟨hrows, hgrants, hserial, hnow, -⟩ :=
        applyOutcome_fields s check copy claim outcome delayMs
      exact .apply check outcome delayMs copy claim rfl hphase hrows hgrants hserial hnow
    · cases h
  | decideFollowUp check =>
    simp only [machine, step] at h
    split at h
    · split at h
      · cases h
        exact .same rfl rfl rfl rfl
      · cases h
        exact .same rfl rfl rfl rfl
    · cases h
  | reserve check =>
    simp only [machine, step] at h
    split at h
    · rename_i updated leaseSeconds hphase
      cases h
      unfold reserveMonitorForFollowUp
      split
      · refine .hand (reserves s.now updated.id) (.check check) (s.now + leaseSeconds * 1000)
          (fun _ => updated.nextEvaluationAt) (fun r _ hr => ?_) rfl rfl rfl rfl
          (.inr ⟨check, updated, leaseSeconds, hphase, rfl, rfl⟩)
        simp only [reserves, Bool.and_eq_true] at hr
        exact hr.2
      · exact .same rfl rfl rfl rfl
    · cases h
  | failCheck check =>
    cases h
    exact .same rfl rfl rfl rfl

/-! ### One holder at a time -/

/-- The claim has not expired, and its check has not recorded its outcome. -/
def Live (s : State) (g : Grant) : Prop := g.recorded = false ∧ s.now < g.expiresAt

/-- A live claim stands on its row. -/
def Held (s : State) : Prop :=
  ∀ r ∈ s.rows, ∀ g ∈ s.grants, g.monitorId = r.id → Live s g → r.claimedUntil = some g.expiresAt

/-- An outcome that is recorded on a monitor with a live claim is that of the check enqueued under
the claim. -/
def OwnOutcome (s : State) : Action → Prop
  | .apply check _ _ =>
    ∀ copy claim, s.checks check = .probing copy claim →
      (s.rows.any fun r => UpdateMatches copy.monitor r.monitor) = true →
      ∀ g ∈ s.grants, g.monitorId = copy.id → Live s g → claim = some g.serial
  | _ => True

/-- A step hands a monitor out only when every earlier claim on it has expired or its check has
recorded its outcome, and to one dispatcher only. -/
def HandsOver (s : State) (_ : Action) (t : State) : Prop :=
  ∀ g ∈ t.grants, s.nextSerial ≤ g.serial →
    (∀ earlier ∈ s.grants, earlier.monitorId = g.monitorId →
      earlier.expiresAt ≤ s.now ∨ earlier.recorded = true) ∧
    ∀ other ∈ t.grants, s.nextSerial ≤ other.serial → other.monitorId = g.monitorId → other = g

theorem unclaimed_iff {r : Row} {now : ℤ} :
    r.unclaimed now = true ↔ ∀ u, r.claimedUntil = some u → u ≤ now := by
  cases h : r.claimedUntil <;> simp [Row.unclaimed, h]

theorem Held.not_live {s : State} (hheld : Held s) {r : Row} (hr : r ∈ s.rows)
    (hfree : r.unclaimed s.now = true) {g : Grant} (hg : g ∈ s.grants)
    (hid : g.monitorId = r.id) : ¬Live s g := by
  intro hlive
  have hle := unclaimed_iff.mp hfree _ (hheld r hr g hg hid hlive)
  exact absurd hlive.2 (not_lt.mpr hle)

/-- The claims that a step adds, and the rows they are on. -/
theorem mem_hand {s : State} {p : Row → Bool} {dispatcher : Dispatcher} {expiresAt : ℤ}
    {due : Row → Option ℤ} {g : Grant} (h : g ∈ (s.hand p dispatcher expiresAt due).grants) :
    g ∈ s.grants ∨ ∃ r ∈ s.rows, p r = true ∧
      g = ⟨s.nextSerial, r.id, dispatcher, expiresAt, due r, false⟩ := by
  rcases List.mem_append.mp h with h | h
  · exact .inl h
  · obtain ⟨r, hr, rfl⟩ := List.mem_map.mp h
    obtain ⟨hr, hp⟩ := List.mem_filter.mp hr
    exact .inr ⟨r, hr, hp, rfl⟩

theorem recordRow_id (copy : Row) (outcome : CheckResult) (now delayMs : ℤ) (r : Row) :
    (recordRow copy outcome now delayMs r).id = r.id :=
  recordCheckOutcome_id copy.monitor outcome now r.monitor

theorem recordRow_claimedUntil (copy : Row) (outcome : CheckResult) (now delayMs : ℤ) (r : Row) :
    (recordRow copy outcome now delayMs r).claimedUntil =
      if UpdateMatches copy.monitor r.monitor then none else r.claimedUntil := by
  unfold recordRow Row.claimedUntil
  by_cases hm : UpdateMatches copy.monitor r.monitor
  · simp only [recordCheckOutcome_of_matches hm, if_pos hm]
    rfl
  · simp only [recordCheckOutcome_of_not_matches hm, if_neg hm]

/-- What is known of a claim after an outcome was recorded. -/
theorem mem_spent {s : State} {copy : Row} {claim : Option ℕ} {g : Grant}
    (h : g ∈ (if s.rows.any fun r => UpdateMatches copy.monitor r.monitor then
      s.grants.map (spend claim copy.id) else s.grants)) :
    ∃ old ∈ s.grants, g.serial = old.serial ∧ g.monitorId = old.monitorId ∧
      g.dispatcher = old.dispatcher ∧ g.expiresAt = old.expiresAt ∧ g.due = old.due ∧
      (g.recorded = false → old.recorded = false ∧
        ¬((s.rows.any fun r => UpdateMatches copy.monitor r.monitor) = true ∧
          claim = some old.serial ∧ old.monitorId = copy.id)) := by
  split at h
  · rename_i hwritten
    obtain ⟨old, hold, rfl⟩ := List.mem_map.mp h
    refine ⟨old, hold, ?_⟩
    unfold spend
    split
    · exact ⟨rfl, rfl, rfl, rfl, rfl, nofun⟩
    · rename_i hother
      exact ⟨rfl, rfl, rfl, rfl, rfl, fun hrecorded =>
        ⟨hrecorded, fun hspent => hother ⟨hspent.2.1.symm, hspent.2.2⟩⟩⟩
  · rename_i hwritten
    exact ⟨g, h, rfl, rfl, rfl, rfl, rfl, fun hrecorded => ⟨hrecorded, fun hspent =>
      hwritten hspent.1⟩⟩

/-- A claim is still there after an outcome was recorded. -/
theorem exists_spent {s : State} {copy : Row} {claim : Option ℕ} {old : Grant}
    (h : old ∈ s.grants) :
    ∃ g ∈ (if s.rows.any fun r => UpdateMatches copy.monitor r.monitor then
      s.grants.map (spend claim copy.id) else s.grants),
      g.serial = old.serial ∧ g.monitorId = old.monitorId ∧ g.dispatcher = old.dispatcher := by
  split
  · refine ⟨spend claim copy.id old, List.mem_map_of_mem h, ?_⟩
    unfold spend
    split
    · exact ⟨rfl, rfl, rfl⟩
    · exact ⟨rfl, rfl, rfl⟩
  · exact ⟨old, h, rfl, rfl, rfl⟩

theorem Held.hand {s : State} (hheld : Held s) {p : Row → Bool} {dispatcher : Dispatcher}
    {expiresAt : ℤ} {due : Row → Option ℤ}
    (hfree : ∀ r ∈ s.rows, p r = true → r.unclaimed s.now = true)
    (hkeys : (s.rows.map Row.id).Nodup) : Held (s.hand p dispatcher expiresAt due) := by
  intro r' hr' g hg hid hlive
  obtain ⟨r, hr, rfl⟩ := List.mem_map.mp hr'
  have hrid : (if p r = true then r.setClaim (some expiresAt) else r).id = r.id := by
    split <;> rfl
  rw [hrid] at hid
  rcases mem_hand hg with hold | ⟨w, hw, hp, rfl⟩
  · by_cases hp : p r = true
    · exact absurd hlive (hheld.not_live hr (hfree r hr hp) hold hid)
    · rw [if_neg hp]
      exact hheld r hr g hold hid hlive
  · obtain rfl : w = r := List.inj_on_of_nodup_map hkeys hw hr hid
    rw [if_pos hp]
    rfl

theorem Held.step {s t : State} {a : Action} (hheld : Held s) (hkeys : (s.rows.map Row.id).Nodup)
    (hown : OwnOutcome s a) (hstep : machine.step s a = some t) : Held t := by
  cases step_effect hstep with
  | hand p dispatcher expiresAt due free rows grants _ now _ =>
    have hhanded : Held (s.hand p dispatcher expiresAt due) := hheld.hand free hkeys
    intro r hr g hg hid hlive
    rw [rows] at hr
    rw [grants] at hg
    exact hhanded r hr g hg hid ⟨hlive.1, now ▸ hlive.2⟩
  | apply check outcome delayMs copy claim action phase rows grants _ now =>
    subst action
    intro r' hr' g hg hid hlive
    rw [rows] at hr'
    rw [grants] at hg
    obtain ⟨r, hr, rfl⟩ := List.mem_map.mp hr'
    obtain ⟨old, hold, -, hmonitor, -, hexpires, -, hrecorded⟩ := mem_spent hg
    obtain ⟨hfalse, hspent⟩ := hrecorded hlive.1
    have hlive' : Live s old := ⟨hfalse, by rw [← hexpires, ← now]; exact hlive.2⟩
    rw [recordRow_id, hmonitor] at hid
    rw [recordRow_claimedUntil, hexpires]
    split
    · -- the update that cleared the column belongs to this claim, which is then spent
      rename_i hmatch
      have hwritten : (s.rows.any fun r => UpdateMatches copy.monitor r.monitor) = true :=
        List.any_eq_true.mpr ⟨r, hr, decide_eq_true hmatch⟩
      have hcopy : old.monitorId = copy.id := hid.trans hmatch.1
      exact absurd ⟨hwritten, hown copy claim phase hwritten old hold hcopy hlive', hcopy⟩ hspent
    · exact hheld r hr old hold hid hlive'
  | quiet grants _ now _ rows =>
    intro r' hr' g hg hid hlive
    rw [grants] at hg
    have hlive' : Live s g := ⟨hlive.1, lt_of_le_of_lt now hlive.2⟩
    rcases rows r' hr' with ⟨r, hr, hrid, hclaim⟩ | ⟨-, hfresh⟩
    · rw [hclaim]
      exact hheld r hr g hg (hid.trans hrid) hlive'
    · exact absurd hid (hfresh g hg)

theorem handsOver_of_step {s t : State} {a : Action} (hheld : Held s)
    (hkeys : (s.rows.map Row.id).Nodup) (hserials : ∀ g ∈ s.grants, g.serial < s.nextSerial)
    (hstep : machine.step s a = some t) : HandsOver s a t := by
  intro g hg hnew
  cases step_effect hstep with
  | hand p dispatcher expiresAt due free _ grants _ _ _ =>
    rw [grants] at hg
    rcases mem_hand hg with hold | ⟨r, hr, hp, rfl⟩
    · exact absurd (hserials g hold) (not_lt.mpr hnew)
    · refine ⟨fun earlier hearlier hid => ?_, fun other hother hother' hid => ?_⟩
      · have hdead := hheld.not_live hr (free r hr hp) hearlier hid
        by_contra hneither
        rw [not_or, not_le, Bool.not_eq_true] at hneither
        exact hdead ⟨hneither.2, hneither.1⟩
      · rw [grants] at hother
        rcases mem_hand hother with hold | ⟨w, hw, -, rfl⟩
        · exact absurd (hserials other hold) (not_lt.mpr hother')
        · obtain rfl : w = r := List.inj_on_of_nodup_map hkeys hw hr hid
          rfl
  | apply check outcome delayMs copy claim _ _ _ grants _ _ =>
    rw [grants] at hg
    obtain ⟨old, hold, hserial, -⟩ := mem_spent hg
    exact absurd (hserials old hold) (by omega)
  | quiet grants _ _ _ _ =>
    rw [grants] at hg
    exact absurd (hserials g hg) (not_lt.mpr hnew)

end Vigil.Monitors.DispatchClaims
