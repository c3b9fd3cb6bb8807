import Vigil.Monitors.DispatchClaims

/-! What is enqueued was claimed by the step that enqueued it, and a claim lets go of its monitor when
it expires.  Both hold in every reachable state; with the single holder of a claim they say what the
dispatch claims are for. -/

namespace Vigil.Monitors.DispatchOrder

open Record Dispatch DispatchClaims Lib

/-! ### What is enqueued, and when a claim lets go -/

/-- The claim was taken by the dispatcher. -/
def Granted (s : State) (c : Claim) (dispatcher : Dispatcher) : Prop :=
  ∃ g ∈ s.grants, g.serial = c.serial ∧ g.monitorId = c.monitorId ∧ g.dispatcher = dispatcher

/-- Every enqueued check was claimed or reserved by the dispatcher that enqueued it. -/
def Enqueued (s : State) : Prop := ∀ job ∈ s.jobs, Granted s job.claim job.dispatcher

/-- A monitor whose last claim has expired is selectable, if it may be scheduled and its due time is
still the one that the claim was taken for. -/
def Released (s : State) : Prop :=
  ∀ r ∈ s.rows, ∀ g ∈ s.grants, g.monitorId = r.id →
    (∀ other ∈ s.grants, other.monitorId = r.id → other.serial ≤ g.serial) →
    g.expiresAt ≤ s.now → r.monitor.paused = false →
    unscheduledCheckTypeIds.contains r.checkType = false → r.nextEvaluationAt = g.due →
    dueCondition unscheduledCheckTypeIds none s.now r = true

/-- What a tick has claimed was claimed by it. -/
def TickBacked (s : State) (n : ℕ) : TickPhase → Prop
  | .claiming _ claimed => ∀ c ∈ claimed, Granted s c (.tick n)
  | _ => True

/-- What a check is about to send was reserved by it, and what it is about to reserve is reserved
past its due time. -/
def CheckBacked (s : State) (n : ℕ) : CheckPhase → Prop
  | .reserving updated leaseSeconds =>
    ∀ next, updated.nextEvaluationAt = some next → next ≤ s.now + leaseSeconds * 1000
  | .sending updated serial => Granted s ⟨updated.id, serial⟩ (.check n)
  | _ => True

/-- The jobs, ticks and checks go back to claims. -/
structure Backed (s : State) : Prop where
  jobs : Enqueued s
  ticks : ∀ n, TickBacked s n (s.ticks n)
  checks : ∀ n, CheckBacked s n (s.checks n)

structure Orderly (s : State) : Prop extends Backed s where
  keys : (s.rows.map Row.id).Nodup
  serials : ∀ g ∈ s.grants, g.serial < s.nextSerial
  /-- The column holds the expiry of the last claim, or nothing. -/
  columns : ∀ r ∈ s.rows, ∀ g ∈ s.grants, g.monitorId = r.id →
    (∀ other ∈ s.grants, other.monitorId = r.id → other.serial ≤ g.serial) →
    r.claimedUntil = none ∨ r.claimedUntil = some g.expiresAt
  due : ∀ g ∈ s.grants, ∀ next, g.due = some next → next - tickGraceSeconds * 1000 ≤ g.expiresAt

variable {s t : State} {a : Action}

theorem Orderly.released (h : Orderly s) : Released s := by
  intro r hr g hg hid hlast hexpired hpaused hscheduled hdue
  have htime : r.isTime s.now = true := by
    cases hnext : r.nextEvaluationAt with
    | none => simp [Row.isTime, hnext]
    | some next =>
      have := h.due g hg next (hdue.symm.trans hnext)
      simp only [Row.isTime, hnext, Option.all_some, decide_eq_true_eq]
      omega
  have hfree : r.unclaimed s.now = true := by
    rw [unclaimed_iff]
    intro u hu
    rcases h.columns r hr g hg hid hlast with hnone | hsome
    · rw [hnone] at hu
      cases hu
    · obtain rfl := Option.some.inj (hsome.symm.trans hu)
      exact hexpired
  simp only [dueCondition, hpaused, hscheduled, htime, hfree]
  rfl

/-! ### Every step keeps the order -/

theorem Granted.step {c : Claim} {dispatcher : Dispatcher} (hc : Granted s c dispatcher)
    (hstep : machine.step s a = some t) : Granted t c dispatcher := by
  obtain ⟨g, hg, hserial, hmonitor, hdispatcher⟩ := hc
  cases step_effect hstep with
  | hand p _ expiresAt due _ _ grants _ _ _ =>
    refine ⟨g, ?_, hserial, hmonitor, hdispatcher⟩
    rw [grants]
    exact List.mem_append_left _ hg
  | apply check outcome delayMs copy claim _ _ _ grants _ _ =>
    obtain ⟨g', hg', hserial', hmonitor', hdispatcher'⟩ := @exists_spent s copy claim g hg
    rw [Granted, grants]
    exact ⟨g', hg', hserial'.trans hserial, hmonitor'.trans hmonitor,
      hdispatcher'.trans hdispatcher⟩
  | quiet grants _ _ _ _ => exact ⟨g, grants ▸ hg, hserial, hmonitor, hdispatcher⟩

theorem now_mono (hstep : machine.step s a = some t) : s.now ≤ t.now := by
  cases step_effect hstep with
  | hand _ _ _ _ _ _ _ _ now _ => exact now.ge
  | apply _ _ _ _ _ _ _ _ _ _ now => exact now.ge
  | quiet _ _ now _ _ => exact now

theorem TickBacked.step {n : ℕ} {phase : TickPhase} (hphase : TickBacked s n phase)
    (hstep : machine.step s a = some t) : TickBacked t n phase := by
  cases phase with
  | idle => trivial
  | found due => trivial
  | claiming rest claimed => exact fun c hc => (hphase c hc).step hstep

theorem CheckBacked.step {n : ℕ} {phase : CheckPhase} (hphase : CheckBacked s n phase)
    (hstep : machine.step s a = some t) : CheckBacked t n phase := by
  cases phase with
  | idle => trivial
  | probing copy claim => trivial
  | applied updated => trivial
  | reserving updated leaseSeconds =>
    intro next hnext
    have hbefore := hphase next hnext
    have hnow := now_mono hstep
    omega
  | sending updated serial => exact Granted.step hphase hstep

/-- A step keeps what it leaves as it was, and is asked about the rest. -/
theorem Backed.step (h : Backed s) (hstep : machine.step s a = some t)
    (jobs : ∀ job ∈ t.jobs, job ∈ s.jobs ∨ Granted t job.claim job.dispatcher)
    (ticks : ∀ n, t.ticks n = s.ticks n ∨ TickBacked t n (t.ticks n))
    (checks : ∀ n, t.checks n = s.checks n ∨ CheckBacked t n (t.checks n)) : Backed t where
  jobs job hjob := (jobs job hjob).elim (fun hold => (h.jobs job hold).step hstep) id
  ticks n := (ticks n).elim (fun hsame => hsame ▸ (h.ticks n).step hstep) id
  checks n := (checks n).elim (fun hsame => hsame ▸ (h.checks n).step hstep) id

theorem update_or {α : Type} {f : ℕ → α} {n : ℕ} {v : α} {P : ℕ → α → Prop} (h : P n v) (m : ℕ) :
    Function.update f n v m = f m ∨ P m (Function.update f n v m) := by
  by_cases hm : m = n
  · subst hm
    exact .inr (by rw [Function.update_self]; exact h)
  · exact .inl (Function.update_of_ne hm v f)

theorem le_ceilSeconds (ms : ℤ) : ms ≤ ceilSeconds ms * 1000 := by
  unfold ceilSeconds
  omega

/-- A follow-up is reserved past the time that it is due. -/
theorem followUpLease_spec {updated : Row} {now leaseSeconds next : ℤ}
    (h : followUpLease updated now = some leaseSeconds)
    (hnext : updated.nextEvaluationAt = some next) : next ≤ now + leaseSeconds * 1000 := by
  unfold followUpLease at h
  split at h
  · cases h
  · rw [hnext, Option.bind_some] at h
    split at h
    · cases h
    · cases h
      have hceil := le_ceilSeconds (max 0 (next - now))
      simp only [enqueueLeaseSeconds]
      omega

theorem claimedIds_granted (s : State) (tick : ℕ) (chunk locked : List ℕ) {c : Claim}
    (h : c ∈ claimedIds s chunk locked) :
    Granted (claimMonitorsForDispatch s tick chunk locked) c (.tick tick) := by
  obtain ⟨r, hr, rfl⟩ := List.mem_map.mp h
  exact ⟨_, List.mem_append_right _ (List.mem_map_of_mem hr), rfl, rfl, rfl⟩

theorem reserve_granted {check : ℕ} {updated : Row} {leaseSeconds : ℤ}
    (h : s.rows.any (reserves s.now updated.id) = true) :
    Granted (s.hand (reserves s.now updated.id) (.check check) (s.now + leaseSeconds * 1000)
      fun _ => updated.nextEvaluationAt) ⟨updated.id, s.nextSerial⟩ (.check check) := by
  obtain ⟨r, hr, hp⟩ := List.any_eq_true.mp h
  refine ⟨_, List.mem_append_right _ (List.mem_map_of_mem (List.mem_filter.mpr ⟨hr, hp⟩)), rfl, ?_,
    rfl⟩
  simp only [reserves, Bool.and_eq_true, decide_eq_true_eq] at hp
  exact hp.1.1

theorem backed_step (h : Backed s) (hstep : machine.step s a = some t) : Backed t := by
  have hmove := hstep
  cases a with
  | wait ms | delete monitorId =>
    cases hmove
    exact h.step hstep (fun _ hjob => .inl hjob) (fun _ => .inl rfl) fun _ => .inl rfl
  | create row | edit monitorId row =>
    obtain ⟨-, ht⟩ := Option.ite_none_right_eq_some.mp hmove
    cases ht
    exact h.step hstep (fun _ hjob => .inl hjob) (fun _ => .inl rfl) fun _ => .inl rfl
  | find tick limit organizationId =>
    simp only [machine, step] at hmove
    split at hmove
    · cases hmove
      exact h.step hstep (fun _ hjob => .inl hjob) (update_or trivial) fun _ => .inl rfl
    · cases hmove
  | select tick held =>
    simp only [machine, step] at hmove
    split at hmove
    · cases hmove
      refine h.step hstep (fun _ hjob => .inl hjob) (update_or fun c hc => ?_) fun _ => .inl rfl
      cases hc
    · cases hmove
  | claim tick locked =>
    simp only [machine, step] at hmove
    split at hmove
    · rename_i id rest claimed hphase
      cases hmove
      have hold : TickBacked s tick (.claiming (id :: rest) claimed) := hphase ▸ h.ticks tick
      refine h.step hstep (fun _ hjob => .inl hjob) (update_or fun c hc => ?_) fun _ => .inl rfl
      rcases List.mem_append.mp hc with hc | hc
      · exact (hold c hc).step hstep
      · exact claimedIds_granted s tick _ locked hc
    · cases hmove
  | enqueue tick accepted =>
    simp only [machine, step] at hmove
    split at hmove
    · rename_i claimed hphase
      cases hmove
      have hold : TickBacked s tick (.claiming [] claimed) := hphase ▸ h.ticks tick
      refine h.step hstep (fun job hjob => ?_) (update_or trivial) fun _ => .inl rfl
      rcases List.mem_append.mp hjob with hjob | hjob
      · exact .inl hjob
      · obtain ⟨c, hc, rfl⟩ := List.mem_map.mp hjob
        exact .inr ((hold c (List.mem_of_mem_filter hc)).step hstep)
    · cases hmove
  | failTick tick =>
    cases hmove
    exact h.step hstep (fun _ hjob => .inl hjob) (update_or trivial) fun _ => .inl rfl
  | start check job =>
    simp only [machine, step] at hmove
    split at hmove
    · obtain ⟨-, ht⟩ := Option.ite_none_right_eq_some.mp hmove
      split at ht
      · cases ht
        exact h.step hstep (fun _ hjob => .inl (List.mem_of_mem_erase hjob)) (fun _ => .inl rfl)
          fun _ => .inl rfl
      · cases ht
        exact h.step hstep (fun _ hjob => .inl (List.mem_of_mem_erase hjob)) (fun _ => .inl rfl)
          (update_or trivial)
    · cases hmove
  | runMonitorNow check monitorId | promote check copy =>
    simp only [machine, step] at hmove
    split at hmove
    · cases hmove
      exact h.step hstep (fun _ hjob => .inl hjob) (fun _ => .inl rfl) (update_or trivial)
    · cases hmove
  | apply check outcome delayMs =>
    simp only [machine, step] at hmove
    split at hmove
    · rename_i copy claim _
      cases hmove
      obtain ⟨-, -, -, -, hjobs, hticks, phase, hchecks, hphase⟩ :=
        applyOutcome_fields s check copy claim outcome delayMs
      refine h.step hstep (fun job hjob => .inl (hjobs ▸ hjob))
        (fun n => .inl (congrFun hticks n)) ?_
      rw [hchecks]
      refine update_or ?_
      rcases hphase with rfl | ⟨updated, rfl⟩
      · trivial
      · trivial
    · cases hmove
  | decideFollowUp check =>
    simp only [machine, step] at hmove
    split at hmove
    · split at hmove
      · cases hmove
        exact h.step hstep (fun _ hjob => .inl hjob) (fun _ => .inl rfl) (update_or trivial)
      · rename_i hlease
        cases hmove
        exact h.step hstep (fun _ hjob => .inl hjob) (fun _ => .inl rfl)
          (update_or fun next hnext => followUpLease_spec hlease hnext)
    · cases hmove
  | reserve check =>
    simp only [machine, step] at hmove
    split at hmove
    · rename_i updated leaseSeconds _
      cases hmove
      unfold reserveMonitorForFollowUp at hstep ⊢
      split at hstep
      · rename_i hany
        rw [if_pos hany]
        exact h.step hstep (fun _ hjob => .inl hjob) (fun _ => .inl rfl)
          (update_or (reserve_granted hany))
      · rename_i hany
        rw [if_neg hany]
        exact h.step hstep (fun _ hjob => .inl hjob) (fun _ => .inl rfl) (update_or trivial)
    · cases hmove
  | send check accepted =>
    simp only [machine, step] at hmove
    split at hmove
    · rename_i updated serial hphase
      cases hmove
      have hold : CheckBacked s check (.sending updated serial) := hphase ▸ h.checks check
      refine h.step hstep (fun job hjob => ?_) (fun _ => .inl rfl) (update_or trivial)
      simp only [State.setCheck] at hjob
      split at hjob
      · rcases List.mem_append.mp hjob with hjob | hjob
        · exact .inl hjob
        · obtain rfl := List.mem_singleton.mp hjob
          exact .inr (Granted.step hold hstep)
      · exact .inl hjob
    · cases hmove
  | failCheck check =>
    cases hmove
    exact h.step hstep (fun _ hjob => .inl hjob) (fun _ => .inl rfl) (update_or trivial)

theorem keys_step (h : (s.rows.map Row.id).Nodup) (hstep : machine.step s a = some t) :
    (t.rows.map Row.id).Nodup := by
  cases step_effect hstep with
  | hand p _ expiresAt _ _ rows _ _ _ _ =>
    rw [rows, State.hand, map_ids fun r => by split <;> rfl]
    exact h
  | apply check outcome delayMs copy _ _ _ rows _ _ _ =>
    rw [rows, map_ids (recordRow_id copy outcome s.now delayMs)]
    exact h
  | quiet _ _ _ keys _ => exact keys h

theorem serials_step (h : ∀ g ∈ s.grants, g.serial < s.nextSerial)
    (hstep : machine.step s a = some t) : ∀ g ∈ t.grants, g.serial < t.nextSerial := by
  intro g hg
  cases step_effect hstep with
  | hand p dispatcher expiresAt due _ _ grants nextSerial _ _ =>
    rw [grants] at hg
    rw [nextSerial]
    rcases mem_hand hg with hold | ⟨r, -, -, rfl⟩
    · exact Nat.lt_succ_of_lt (h g hold)
    · exact Nat.lt_succ_self _
  | apply _ _ _ copy claim _ _ _ grants nextSerial _ =>
    rw [grants] at hg
    obtain ⟨old, hold, hserial, -⟩ := mem_spent hg
    rw [nextSerial, hserial]
    exact h old hold
  | quiet grants nextSerial _ _ _ =>
    rw [nextSerial]
    exact h g (grants ▸ hg)

theorem columns_step (h : Orderly s) (hstep : machine.step s a = some t) :
    ∀ r ∈ t.rows, ∀ g ∈ t.grants, g.monitorId = r.id →
      (∀ other ∈ t.grants, other.monitorId = r.id → other.serial ≤ g.serial) →
      r.claimedUntil = none ∨ r.claimedUntil = some g.expiresAt := by
  intro r' hr' g hg hid hlast
  cases step_effect hstep with
  | hand p dispatcher expiresAt due _ rows grants _ _ _ =>
    rw [rows] at hr'
    rw [grants] at hg hlast
    obtain ⟨r, hr, rfl⟩ := List.mem_map.mp hr'
    have hrid : (if p r = true then r.setClaim (some expiresAt) else r).id = r.id := by
      split <;> rfl
    rw [hrid] at hid hlast
    by_cases hp : p r = true
    · -- the claim that was just taken is the last one
      have hnew := hlast _ (List.mem_append_right _
        (List.mem_map_of_mem (List.mem_filter.mpr ⟨hr, hp⟩))) rfl
      rcases mem_hand hg with hold | ⟨w, -, -, rfl⟩
      · exact absurd (h.serials g hold) (not_lt.mpr hnew)
      · rw [if_pos hp]
        exact .inr rfl
    · rw [if_neg hp]
      rcases mem_hand hg with hold | ⟨w, hw, hpw, rfl⟩
      · exact h.columns r hr g hold hid fun other hother =>
          hlast other (List.mem_append_left _ hother)
      · obtain rfl : w = r := List.inj_on_of_nodup_map h.keys hw hr hid
        exact absurd hpw hp
  | apply check outcome delayMs copy claim _ _ rows grants _ _ =>
    rw [rows] at hr'
    rw [grants] at hg hlast
    obtain ⟨r, hr, rfl⟩ := List.mem_map.mp hr'
    rw [recordRow_id] at hid hlast
    obtain ⟨old, hold, hserial, hmonitor, -, hexpires, -⟩ := mem_spent hg
    rw [recordRow_claimedUntil, hexpires]
    split
    · exact .inl rfl
    · refine h.columns r hr old hold (hmonitor.symm.trans hid) fun other hother hotherId => ?_
      obtain ⟨other', hother', hserial', hmonitor', -⟩ := @exists_spent s copy claim other hother
      have := hlast other' hother' (hmonitor'.trans hotherId)
      omega
  | quiet grants _ _ _ rows =>
    rw [grants] at hg hlast
    rcases rows r' hr' with ⟨r, hr, hrid, hclaim⟩ | ⟨hnone, -⟩
    · rw [hclaim]
      rw [hrid] at hid hlast
      exact h.columns r hr g hg hid hlast
    · exact .inl hnone

theorem due_step (h : Orderly s) (hstep : machine.step s a = some t) :
    ∀ g ∈ t.grants, ∀ next, g.due = some next → next - tickGraceSeconds * 1000 ≤ g.expiresAt := by
  intro g hg next hnext
  cases step_effect hstep with
  | hand p dispatcher expiresAt due _ _ grants _ _ dueBy =>
    rw [grants] at hg
    rcases mem_hand hg with hold | ⟨r, hr, hp, rfl⟩
    · exact h.due g hold next hnext
    · rcases dueBy with htick | ⟨check, updated, leaseSeconds, hphase, rfl, rfl⟩
      · obtain ⟨htime, hdue⟩ := htick r hr hp
        have hrow : r.nextEvaluationAt = some next := hdue.symm.trans hnext
        simpa [Row.isTime, hrow] using htime
      · have hcheck : CheckBacked s check (.reserving updated leaseSeconds) :=
          hphase ▸ h.checks check
        have := hcheck next hnext
        simp only [tickGraceSeconds]
        omega
  | apply _ _ _ copy claim _ _ _ grants _ _ =>
    rw [grants] at hg
    obtain ⟨old, hold, -, -, -, hexpires, hdue, -⟩ := mem_spent hg
    rw [hexpires]
    exact h.due old hold next (hdue.symm.trans hnext)
  | quiet grants _ _ _ _ => exact h.due g (grants ▸ hg) next hnext

theorem Orderly.init : Orderly machine.init where
  jobs _ h := by cases h
  ticks _ := trivial
  checks _ := trivial
  keys := List.nodup_nil
  serials _ h := by cases h
  columns _ h := by cases h
  due _ h := by cases h

theorem Orderly.step (h : Orderly s) (hstep : machine.step s a = some t) : Orderly t where
  toBacked := backed_step h.toBacked hstep
  keys := keys_step h.keys hstep
  serials := serials_step h.serials hstep
  columns := columns_step h hstep
  due := due_step h hstep

theorem orderly_of_reachable (h : machine.Reachable s) : Orderly s :=
  h.induct Orderly.init fun _ _ _ _ => Orderly.step

/-- In a run in which every outcome that is recorded on a monitor with a live claim is that of the
check enqueued under the claim, a monitor is handed out only after each earlier claim on it has
expired or its check has recorded its outcome.  In every run, each enqueued check was claimed or
reserved by the dispatcher that enqueued it, and an expired claim leaves its monitor selectable. -/
theorem dispatch_exclusive_of_ownOutcomes (acts : List Action)
    (h : machine.EachStep acts OwnOutcome) :
    machine.EachMove acts HandsOver ∧ machine.Always acts fun s => Enqueued s ∧ Released s := by
  have hheld : machine.Always acts Held :=
    Machine.Always.of_eachStep (fun _ hr => by cases hr)
      (fun s a t hs hheld hown hstep => hheld.step (orderly_of_reachable hs).keys hown hstep) h
  constructor
  · intro visited a hpre s t hs hstep
    have horder := orderly_of_reachable ⟨visited, hs⟩
    have hshort : visited <+: acts := (List.prefix_append visited [a]).trans hpre
    exact handsOver_of_step (hheld visited hshort s hs) horder.keys horder.serials hstep
  · exact .of_reachable (fun s hs =>
      ⟨(orderly_of_reachable hs).jobs, (orderly_of_reachable hs).released⟩) acts

/-! ### Two runs -/

/-- The monitor of the sample. -/
def site : Row where
  monitor :=
    { id := 7
      organizationId := "acme"
      name := "site"
      failureWindowSeconds := 0
      firstFailureAt := none
      dockerState := none
      paused := false
      currentStatus := .unknown
      consecutiveFailures := 0
      lastCheckedAt := none
      dispatchClaimedUntil := none
      shadowBridgeId := none }
  checkType := "http"
  highFrequency := false
  nextEvaluationAt := none

def success : CheckResult := ⟨true, none, .up, [], [], none⟩

/-- A tick claims the monitor and enqueues its check. -/
def handedOut : List Action :=
  [.create site, .find 0 100 none, .select 0 [], .claim 0 [], .enqueue 0 [7]]

/-- Another tick finds the monitor. -/
def foundAgain : List Action := [.find 1 100 none, .select 1 []]

/-- The job records the outcome of its check, and another tick claims the monitor. -/
def ownCheck : List Action :=
  handedOut ++ [.start 0 ⟨⟨7, 0⟩, .tick 0, none⟩, .apply 0 success 30000] ++ foundAgain ++
    [.claim 1 []]

/-- While the job waits, somebody runs the monitor by hand. -/
def manualCheck : List Action :=
  handedOut ++ [.runMonitorNow 0 7, .apply 0 success 30000] ++ foundAgain

/-- Whether an outcome recorded on a monitor with a live claim is that of the check enqueued under
it. -/
def ownOutcome (s : State) : Action → Bool
  | .apply check _ _ =>
    match s.checks check with
    | .probing copy claim => s.grants.all fun g =>
        g.monitorId ≠ copy.id || g.recorded || g.expiresAt ≤ s.now || claim = some g.serial
    | _ => true
  | _ => true

theorem ownOutcome_spec (s : State) (a : Action) (h : ownOutcome s a = true) : OwnOutcome s a := by
  cases a with
  | apply check outcome delayMs =>
    intro copy claim hphase _ g hg hid hlive
    simp only [ownOutcome, hphase, List.all_eq_true] at h
    have htest := h g hg
    simpa [hid, hlive.1, not_le.mpr hlive.2] using htest
  | _ => trivial

/-- The check of the claim was recorded before the monitor was claimed again. -/
theorem dispatch_exclusive_of_ownCheck :
    (machine.exec ownCheck).isSome = true ∧ (machine.reached ownCheck).grants.length = 2 ∧
      machine.EachMove ownCheck HandsOver ∧
      machine.Always ownCheck fun s => Enqueued s ∧ Released s :=
  ⟨by decide +kernel, by decide +kernel, dispatch_exclusive_of_ownOutcomes ownCheck
    (.of_checks ownOutcome_spec (by decide +kernel))⟩

/-- The outcome of a manual run clears the claim of the job that waits, and the monitor is handed out
again. -/
theorem dispatched_twice :
    ¬∀ acts : List Action,
      machine.EachMove acts HandsOver ∧ machine.Always acts fun s => Enqueued s ∧ Released s := by
  intro hclaim
  have hmove := (hclaim (manualCheck ++ [.claim 1 []])).1 manualCheck (.claim 1 []) List.prefix_rfl
    _ _ (Machine.exec_reached (by decide +kernel)) (Machine.step_reached (by decide +kernel))
  have hsecond : (⟨1, 7, .tick 1, 90000, some 30000, false⟩ : Grant) ∈
      (machine.reached (manualCheck ++ [.claim 1 []])).grants := by
    decide +kernel
  have hfirst : (⟨0, 7, .tick 0, 90000, none, false⟩ : Grant) ∈
      (machine.reached manualCheck).grants := by
    decide +kernel
  rcases (hmove _ hsecond (by decide +kernel)).1 _ hfirst rfl with hexpired | hrecorded
  · exact absurd hexpired (by decide +kernel)
  · cases hrecorded

end Vigil.Monitors.DispatchOrder
