import Vigil.Lib.Run
import Vigil.Monitors.Record
import Mathlib.Data.Rat.Defs

/-! Promotion, `highfreq/plane.ts`: which samples become observations of record, and what the slot
keeps of the row that comes back.  The compare-and-swap of a promotion compares with the slot's copy
of the row, and when it is refused the row is read again; ordinary checks, operators and reloads move
in between.  Times of the clock are milliseconds. -/

namespace Vigil.HighFreq.Promotion

open Monitors StatusController Record Lib

/-! ### Slots -/

/-- A monitor with the column that the cadence of promotions is taken from. -/
structure Row where
  monitor : Monitor
  intervalSeconds : ℕ

def HF_UNSETTLED_PROMOTION_MS : ℕ := 1000

/-- Where the call of `applyOutcome` stands. -/
inductive Phase where
  | idle
  | recording (copy : Row) (result : CheckResult) (issuedMono : ℚ) (now : ℤ)
  /-- The compare-and-swap was refused. -/
  | rereading (monitorId : ℕ) (result : CheckResult) (issuedMono : ℚ)
  /-- The row that `recordCheckOutcome` returned. -/
  | applied (updated : Row) (result : CheckResult) (issuedMono : ℚ)

/-- A slot, as far as promotions go. -/
structure Slot where
  monitor : Row
  promoting : Phase
  lastPromotedVerdict : Option Verdict
  lastPromotedMono : Option ℚ
  settled : Bool

/-- No promotion is under way. -/
def Phase.isIdle : Phase → Bool
  | .idle => true
  | _ => false

def shouldPromote (slot : Slot) (result : CheckResult) (nowMono : ℚ) : Bool :=
  if !slot.promoting.isIdle then false
  else
    match slot.lastPromotedMono with
    | none => true
    | some lastPromotedMono =>
      if some result.verdict ≠ slot.lastPromotedVerdict then true
      else
        let sinceMs := nowMono - lastPromotedMono
        if slot.settled then sinceMs ≥ (slot.monitor.intervalSeconds * 1000 : ℕ)
        else sinceMs ≥ HF_UNSETTLED_PROMOTION_MS

/-- Whether the plane takes the returned row for one that needs no faster observation. -/
def settles (updated : Row) : Bool :=
  updated.monitor.firstFailureAt = none || updated.monitor.currentStatus = .down

/-- The end of `promote`. -/
def Slot.promoted (slot : Slot) (updated : Row) (result : CheckResult) (issuedMono : ℚ) : Slot :=
  { slot with
    monitor := updated
    lastPromotedVerdict := some result.verdict
    lastPromotedMono := some issuedMono
    settled := settles updated
    promoting := .idle }

/-- A slot that a reload makes. -/
def newSlot (monitor : Row) : Slot where
  monitor := monitor
  promoting := .idle
  lastPromotedVerdict := none
  lastPromotedMono := none
  settled := true

/-! ### The machine -/

/-- The rows, the slots, and the copies of rows that were read. -/
structure State where
  rows : ℕ → Option Row
  /-- Every slot that was made, by reference; a promotion may outlive the place of its slot. -/
  slots : ℕ → Option Slot
  /-- The rows that reloads have read. -/
  loaded : ℕ → Option Row
  /-- The rows that ordinary checks have read. -/
  copies : ℕ → Option Row

def State.setRow (s : State) (monitorId : ℕ) (row : Option Row) : State :=
  { s with rows := Function.update s.rows monitorId row }

/-- A slot is made or changed. -/
def State.setSlot (s : State) (ref : ℕ) (slot : Slot) : State :=
  { s with slots := Function.update s.slots ref (some slot) }

/-- The transaction of `recordCheckOutcome` on a row. -/
def Row.record (row copy : Row) (outcome : CheckResult) (now : ℤ) : Row :=
  { row with monitor := (recordCheckOutcome row.monitor copy.monitor outcome now).1 }

/-- What operators, ordinary checks, reloads and the slots do. -/
inductive Action where
  | create (row : Row)
  | delete (monitorId : ℕ)
  | setPaused (monitorId : ℕ) (paused : Bool)
  | edit (monitorId : ℕ) (name : String) (failureWindowSeconds : ℤ) (intervalSeconds : ℕ)
  /-- An ordinary check reads the row, and records its outcome. -/
  | read (check monitorId : ℕ)
  | record (check : ℕ) (outcome : CheckResult) (now : ℤ)
  /-- A reload reads the row, and puts it on a slot or makes a slot for it. -/
  | load (reload monitorId : ℕ)
  | refresh (reload ref : ℕ)
  | place (reload ref : ℕ)
  /-- A probe of the slot has an answer, which is promoted or not. -/
  | sample (ref : ℕ) (result : CheckResult) (issuedMono : ℚ) (now : ℤ)
  | compareAndSwap (ref : ℕ)
  | reread (ref : ℕ)
  | complete (ref : ℕ)
  | fail (ref : ℕ)

/-- A step happens where its row, slot or copy is there. -/
def step (s : State) : Action → Option State
  | .create row =>
    if (s.rows row.monitor.id).isNone then some (s.setRow row.monitor.id (some row)) else none
  | .delete monitorId => some (s.setRow monitorId none)
  | .setPaused monitorId paused =>
    (s.rows monitorId).map fun row =>
      s.setRow monitorId (some { row with monitor := setMonitorPaused row.monitor paused })
  | .edit monitorId name failureWindowSeconds intervalSeconds =>
    (s.rows monitorId).map fun row =>
      s.setRow monitorId
        (some ⟨updateMonitor row.monitor name failureWindowSeconds, intervalSeconds⟩)
  | .read check monitorId =>
    (s.rows monitorId).map fun row =>
      { s with copies := Function.update s.copies check (some row) }
  | .record check outcome now => do
    let copy ← s.copies check
    let row ← s.rows copy.monitor.id
    some (s.setRow copy.monitor.id (some (row.record copy outcome now)))
  | .load reload monitorId =>
    (s.rows monitorId).map fun row =>
      { s with loaded := Function.update s.loaded reload (some row) }
  | .refresh reload ref => do
    let monitor ← s.loaded reload
    let slot ← s.slots ref
    if slot.monitor.monitor.id = monitor.monitor.id then some (s.setSlot ref { slot with monitor })
    else none
  | .place reload ref => do
    let monitor ← s.loaded reload
    if (s.slots ref).isNone then some (s.setSlot ref (newSlot monitor)) else none
  | .sample ref result issuedMono now =>
    (s.slots ref).map fun slot =>
      if shouldPromote slot result issuedMono then
        s.setSlot ref { slot with promoting := .recording slot.monitor result issuedMono now }
      else s
  | .compareAndSwap ref => do
    let slot ← s.slots ref
    match slot.promoting with
    | .recording copy result issuedMono now =>
      match s.rows copy.monitor.id with
      | none =>
        some (s.setSlot ref { slot with promoting := .rereading copy.monitor.id result issuedMono })
      | some row =>
        if UpdateMatches copy.monitor row.monitor then
          let updated := row.record copy result now
          some ((s.setRow copy.monitor.id (some updated)).setSlot ref
            { slot with promoting := .applied updated result issuedMono })
        else
          some (s.setSlot ref
            { slot with promoting := .rereading copy.monitor.id result issuedMono })
    | _ => none
  | .reread ref => do
    let slot ← s.slots ref
    match slot.promoting with
    | .rereading monitorId result issuedMono =>
      match s.rows monitorId with
      -- `NotFoundError`, which `promote` catches
      | none => some (s.setSlot ref { slot with promoting := .idle })
      | some current =>
        some (s.setSlot ref { slot with promoting := .applied current result issuedMono })
    | _ => none
  | .complete ref => do
    let slot ← s.slots ref
    match slot.promoting with
    | .applied updated result issuedMono =>
      some (s.setSlot ref (slot.promoted updated result issuedMono))
    | _ => none
  | .fail ref => (s.slots ref).map fun slot => s.setSlot ref { slot with promoting := .idle }

def machine : Machine State Action where
  init := ⟨fun _ => none, fun _ => none, fun _ => none, fun _ => none⟩
  step := step

/-! ### Agreement -/

/-- The status that a verdict establishes. -/
def statusOf : Verdict → MonitorStatus
  | .up => .up
  | .degraded => .degraded
  | .down => .down
  | .indeterminate => .unknown

/-- A promotion that completes leaves the slot settled only if the returned row has the status of the
verdict that the slot remembers. -/
def SettlesOnAgreement (_ : State) : Action → State → Prop
  | .complete ref, t =>
    ∀ slot verdict, t.slots ref = some slot → slot.lastPromotedVerdict = some verdict →
      slot.settled = true → slot.monitor.monitor.currentStatus = statusOf verdict
  | _, _ => True

/-- The row that a refused promotion reads again shows an open failure run that has not made the
monitor down, or the status that the verdict establishes. -/
def RereadsAgreeing (s : State) : Action → Prop
  | .reread ref =>
    ∀ slot monitorId result issuedMono row, s.slots ref = some slot →
      slot.promoting = .rereading monitorId result issuedMono → s.rows monitorId = some row →
      row.monitor.firstFailureAt ≠ none ∧ row.monitor.currentStatus ≠ .down ∨
        row.monitor.currentStatus = statusOf result.verdict
  | _ => True

variable {result : CheckResult} {ref : ℕ}

/-- What the compare-and-swap wrote settles the slot only with the status of the verdict. -/
theorem status_of_record {row copy : Row} {now : ℤ}
    (hmatch : UpdateMatches copy.monitor row.monitor)
    (hsettles : settles (row.record copy result now) = true) :
    (row.record copy result now).monitor.currentStatus = statusOf result.verdict := by
  simp only [settles, Row.record, recordCheckOutcome_of_matches hmatch, applyUpdate_firstFailureAt,
    applyUpdate_currentStatus, Bool.or_eq_true, decide_eq_true_eq] at hsettles ⊢
  cases hverdict : result.verdict with
  | up => simp [conclude, reconcile, deriveStatus, hverdict, statusOf]
  | degraded => simp [conclude, reconcile, deriveStatus, hverdict, statusOf]
  | indeterminate => simp [conclude, reconcile, deriveStatus, hverdict, statusOf]
  | down =>
    rcases hsettles with hnone | hdown
    · simp [hverdict, advanceFailureRun] at hnone
    · exact hdown

theorem settles_iff {row : Row} :
    settles row = true ↔
      ¬(row.monitor.firstFailureAt ≠ none ∧ row.monitor.currentStatus ≠ .down) := by
  simp only [settles, Bool.or_eq_true, decide_eq_true_eq]
  tauto

/-! ### Where a promotion stands -/

theorem slot_of_setSlot {s : State} {ref r : ℕ} {slot slot' : Slot}
    (h : (s.setSlot r slot).slots ref = some slot') :
    (ref = r ∧ slot' = slot) ∨ s.slots ref = some slot' := by
  have h := (Function.update_apply s.slots r (some slot) ref).symm.trans h
  split at h
  · rename_i href
    exact .inl ⟨href, (Option.some.inj h).symm⟩
  · exact .inr h

/-- How a row came to be the one that a promotion returns. -/
inductive Returns (s : State) (ref : ℕ) (updated : Row) (result : CheckResult) : Action → Prop where
  | swapped (copy row : Row) (now : ℤ) (hmatch : UpdateMatches copy.monitor row.monitor)
      (hupdated : updated = row.record copy result now) :
      Returns s ref updated result (.compareAndSwap ref)
  | reread (slot : Slot) (monitorId : ℕ) (issuedMono : ℚ) (hslot : s.slots ref = some slot)
      (hphase : slot.promoting = .rereading monitorId result issuedMono)
      (hrow : s.rows monitorId = some updated) : Returns s ref updated result (.reread ref)

/-- A promotion that has a row to return had it before, or has just got it. -/
theorem applied_of_step {s t : State} {a : Action} (h : machine.step s a = some t) {slot : Slot}
    {updated : Row} {issuedMono : ℚ} (hslot : t.slots ref = some slot)
    (hphase : slot.promoting = .applied updated result issuedMono) :
    (∃ before, s.slots ref = some before ∧ before.promoting = .applied updated result issuedMono) ∨
      Returns s ref updated result a := by
  have hkept (hsame : s.slots ref = some slot) : (∃ before, s.slots ref = some before ∧
      before.promoting = .applied updated result issuedMono) ∨ Returns s ref updated result a :=
    .inl ⟨slot, hsame, hphase⟩
  cases a with
  | create row =>
    obtain ⟨-, ht⟩ := Option.ite_none_right_eq_some.mp h
    obtain rfl := Option.some.inj ht
    exact hkept hslot
  | delete monitorId =>
    obtain rfl := Option.some.inj h
    exact hkept hslot
  | setPaused monitorId paused | edit monitorId name failureWindowSeconds intervalSeconds
  | read check monitorId | load reload monitorId =>
    obtain ⟨row, -, rfl⟩ := Option.map_eq_some_iff.mp h
    exact hkept hslot
  | record check outcome now =>
    obtain ⟨copy, -, h⟩ := Option.bind_eq_some_iff.mp h
    obtain ⟨row, -, h⟩ := Option.bind_eq_some_iff.mp h
    obtain rfl := Option.some.inj h
    exact hkept hslot
  | refresh reload r =>
    obtain ⟨monitor, -, h⟩ := Option.bind_eq_some_iff.mp h
    obtain ⟨old, hold, h⟩ := Option.bind_eq_some_iff.mp h
    obtain ⟨-, h⟩ := Option.ite_none_right_eq_some.mp h
    obtain rfl := Option.some.inj h
    rcases slot_of_setSlot hslot with ⟨rfl, rfl⟩ | hsame
    · exact .inl ⟨old, hold, hphase⟩
    · exact hkept hsame
  | place reload r =>
    obtain ⟨monitor, -, h⟩ := Option.bind_eq_some_iff.mp h
    obtain ⟨-, h⟩ := Option.ite_none_right_eq_some.mp h
    obtain rfl := Option.some.inj h
    rcases slot_of_setSlot hslot with ⟨-, rfl⟩ | hsame
    · cases hphase
    · exact hkept hsame
  | sample r result' issuedMono' now =>
    obtain ⟨old, -, rfl⟩ := Option.map_eq_some_iff.mp h
    split at hslot
    · rcases slot_of_setSlot hslot with ⟨-, rfl⟩ | hsame
      · cases hphase
      · exact hkept hsame
    · exact hkept hslot
  | compareAndSwap r =>
    obtain ⟨old, -, h⟩ := Option.bind_eq_some_iff.mp h
    split at h
    · split at h
      · obtain rfl := Option.some.inj h
        rcases slot_of_setSlot hslot with ⟨-, rfl⟩ | hsame
        · cases hphase
        · exact hkept hsame
      · split at h
        · rename_i hmatch
          obtain rfl := Option.some.inj h
          rcases slot_of_setSlot hslot with ⟨rfl, rfl⟩ | hsame
          · obtain ⟨rfl, rfl, rfl⟩ := Phase.applied.inj hphase
            exact .inr (.swapped _ _ _ hmatch rfl)
          · exact hkept hsame
        · obtain rfl := Option.some.inj h
          rcases slot_of_setSlot hslot with ⟨-, rfl⟩ | hsame
          · cases hphase
          · exact hkept hsame
    · cases h
  | reread r =>
    obtain ⟨old, hold, h⟩ := Option.bind_eq_some_iff.mp h
    split at h
    · rename_i hrereading
      split at h
      · obtain rfl := Option.some.inj h
        rcases slot_of_setSlot hslot with ⟨-, rfl⟩ | hsame
        · cases hphase
        · exact hkept hsame
      · rename_i hrow
        obtain rfl := Option.some.inj h
        rcases slot_of_setSlot hslot with ⟨rfl, rfl⟩ | hsame
        · obtain ⟨rfl, rfl, rfl⟩ := Phase.applied.inj hphase
          exact .inr (.reread old _ _ hold hrereading hrow)
        · exact hkept hsame
    · cases h
  | complete r =>
    obtain ⟨old, -, h⟩ := Option.bind_eq_some_iff.mp h
    split at h
    · obtain rfl := Option.some.inj h
      rcases slot_of_setSlot hslot with ⟨-, rfl⟩ | hsame
      · cases hphase
      · exact hkept hsame
    · cases h
  | fail r =>
    obtain ⟨old, -, rfl⟩ := Option.map_eq_some_iff.mp h
    rcases slot_of_setSlot hslot with ⟨-, rfl⟩ | hsame
    · cases hphase
    · exact hkept hsame

/-- A row that a promotion is about to return settles the slot only with the status of the
verdict. -/
def Agreed (s : State) : Prop :=
  ∀ ref slot updated result issuedMono, s.slots ref = some slot →
    slot.promoting = .applied updated result issuedMono → settles updated = true →
    updated.monitor.currentStatus = statusOf result.verdict

theorem Agreed.step {s t : State} {a : Action} (h : Agreed s) (hreread : RereadsAgreeing s a)
    (hstep : machine.step s a = some t) : Agreed t := by
  intro ref slot updated result issuedMono hslot hphase hsettles
  rcases applied_of_step hstep hslot hphase with ⟨before, hbefore, hphase'⟩ | hreturns
  · exact h ref before updated result issuedMono hbefore hphase' hsettles
  · cases hreturns with
    | swapped copy row now hmatch hupdated =>
      subst hupdated
      exact status_of_record hmatch hsettles
    | reread old monitorId issuedMono' hold hrereading hrow =>
      rcases hreread old monitorId result issuedMono' updated hold hrereading hrow
        with hopen | hstatus
      · exact absurd hopen (settles_iff.mp hsettles)
      · exact hstatus

theorem complete_spec {s t : State} (h : machine.step s (.complete ref) = some t) :
    ∃ slot updated result issuedMono, s.slots ref = some slot ∧
      slot.promoting = .applied updated result issuedMono ∧
      t.slots ref = some (slot.promoted updated result issuedMono) := by
  obtain ⟨slot, hslot, h⟩ := Option.bind_eq_some_iff.mp h
  split at h
  · rename_i updated result issuedMono hphase
    obtain rfl := Option.some.inj h
    exact ⟨slot, updated, result, issuedMono, hslot, hphase, Function.update_self ..⟩
  · cases h

/-- What a completed promotion has to do with the row that it returns. -/
theorem settlesOnAgreement_iff {s t : State} {slot : Slot} {updated : Row} {issuedMono : ℚ}
    (hslot : s.slots ref = some slot) (hphase : slot.promoting = .applied updated result issuedMono)
    (h : machine.step s (.complete ref) = some t) : SettlesOnAgreement s (.complete ref) t ↔
      (settles updated = true → updated.monitor.currentStatus = statusOf result.verdict) := by
  obtain ⟨slot', updated', result', issuedMono', hslot', hphase', ht⟩ := complete_spec h
  obtain rfl := Option.some.inj (hslot.symm.trans hslot')
  obtain ⟨rfl, rfl, rfl⟩ := Phase.applied.inj (hphase.symm.trans hphase')
  constructor
  · exact fun hagree => hagree _ _ ht rfl
  · intro hstatus after verdict hafter hverdict hsettled
    obtain rfl := Option.some.inj (ht.symm.trans hafter)
    obtain rfl := Option.some.inj hverdict
    exact hstatus hsettled

/-- A promotion that reads the row again and completes settles on agreement exactly if the row that
it read agrees. -/
theorem reread_complete_iff {s t u : State} (hread : machine.step s (.reread ref) = some t)
    (hcomplete : machine.step t (.complete ref) = some u) :
    SettlesOnAgreement t (.complete ref) u ↔ RereadsAgreeing s (.reread ref) := by
  obtain ⟨slot, hslot, h⟩ := Option.bind_eq_some_iff.mp hread
  split at h
  · rename_i monitorId result issuedMono hphase
    split at h
    · obtain rfl := Option.some.inj h
      obtain ⟨slot', _, _, _, hslot', hphase', -⟩ := complete_spec hcomplete
      rcases slot_of_setSlot hslot' with ⟨-, rfl⟩ | hsame
      · cases hphase'
      · obtain rfl := Option.some.inj (hslot.symm.trans hsame)
        cases hphase.symm.trans hphase'
    · rename_i current hrow
      obtain rfl := Option.some.inj h
      rw [settlesOnAgreement_iff (Function.update_self ..) rfl hcomplete]
      constructor
      · intro hstatus slot' monitorId' result' issuedMono' row hslot' hphase' hrow'
        obtain rfl := Option.some.inj (hslot.symm.trans hslot')
        obtain ⟨rfl, rfl, rfl⟩ := Phase.rereading.inj (hphase.symm.trans hphase')
        obtain rfl := Option.some.inj (hrow.symm.trans hrow')
        by_cases hsettles : settles current = true
        · exact .inr (hstatus hsettles)
        · exact .inl (not_not.mp (mt settles_iff.mpr hsettles))
      · intro hagree hsettles
        rcases hagree slot monitorId result issuedMono current hslot hphase hrow with hopen | hstatus
        · exact absurd hopen (settles_iff.mp hsettles)
        · exact hstatus
  · cases h

/-- In a run in which every row that a refused promotion reads again agrees, each promotion that
completes leaves its slot settled only on agreement; and a refused promotion does so only if its row
agrees. -/
theorem settles_on_agreement (acts : List Action) :
    (machine.EachStep acts RereadsAgreeing → machine.EachMove acts SettlesOnAgreement) ∧
      ∀ s t u ref, machine.step s (.reread ref) = some t →
        machine.step t (.complete ref) = some u →
        (SettlesOnAgreement t (.complete ref) u ↔ RereadsAgreeing s (.reread ref)) := by
  refine ⟨fun h visited a hpre s t hs hstep => ?_, fun _ _ _ _ => reread_complete_iff⟩
  have hagreed : machine.Always acts Agreed :=
    Machine.Always.of_eachStep (fun _ _ _ _ _ hslot => by cases hslot)
      (fun _ _ _ _ hagreed hreread hstep => hagreed.step hreread hstep) h
  cases a with
  | complete ref =>
    obtain ⟨slot, updated, result, issuedMono, hslot, hphase, -⟩ := complete_spec hstep
    have hshort : visited <+: acts := (List.prefix_append visited _).trans hpre
    exact (settlesOnAgreement_iff hslot hphase hstep).mpr
      (hagreed visited hshort s hs ref slot updated result issuedMono hslot hphase)
  | _ => trivial

/-! ### Two runs -/

/-- The monitor of the sample. -/
def site : Row where
  monitor :=
    { id := 7
      organizationId := "acme"
      name := "site"
      failureWindowSeconds := 60
      firstFailureAt := none
      dockerState := none
      paused := false
      currentStatus := .unknown
      consecutiveFailures := 0
      lastCheckedAt := none
      dispatchClaimedUntil := none
      shadowBridgeId := none }
  intervalSeconds := 60

def failure : CheckResult := ⟨false, some "connection refused", .down, [], [], none⟩

/-- A slot of the monitor. -/
def placed : List Action := [.create site, .load 0 7, .place 0 0]

/-- An ordinary check records the failure before the slot does. -/
def checkFirst : List Action :=
  placed ++ [.sample 0 failure 500 500, .read 0 7, .record 0 failure 400, .compareAndSwap 0,
    .reread 0, .complete 0]

/-- The slot records a failure; the monitor is paused and resumed, and the next failure is refused. -/
def resumedBetween : List Action :=
  placed ++ [.sample 0 failure 0 0, .compareAndSwap 0, .complete 0, .setPaused 7 true,
    .setPaused 7 false, .sample 0 failure 1000 1000, .compareAndSwap 0, .reread 0]

/-- Whether the row that a refused promotion would read again agrees. -/
def rereadsAgreeing (s : State) : Action → Bool
  | .reread ref =>
    match s.slots ref with
    | some ⟨_, .rereading monitorId result _, _, _, _⟩ =>
      (s.rows monitorId).all fun row =>
        row.monitor.firstFailureAt ≠ none && row.monitor.currentStatus ≠ .down ||
          row.monitor.currentStatus = statusOf result.verdict
    | _ => true
  | _ => true

theorem rereadsAgreeing_spec (s : State) (a : Action) (h : rereadsAgreeing s a = true) :
    RereadsAgreeing s a := by
  cases a with
  | reread ref =>
    intro slot monitorId result issuedMono row hslot hphase hrow
    obtain ⟨monitor, promoting, verdict, mono, settled⟩ := slot
    obtain rfl : promoting = .rereading monitorId result issuedMono := hphase
    simp only [rereadsAgreeing, hslot, hrow, Option.all_some] at h
    simpa using h
  | _ => trivial

/-- The failure run that the ordinary check opened keeps the slot unsettled. -/
theorem settles_on_agreement_of_checkFirst :
    (machine.exec checkFirst).isSome = true ∧ machine.EachMove checkFirst SettlesOnAgreement :=
  ⟨by decide +kernel, (settles_on_agreement checkFirst).1
    (.of_checks rereadsAgreeing_spec (by decide +kernel))⟩

/-- The row of a resumed monitor shows no failure run, and the slot of a failing monitor is
settled. -/
theorem settles_without_agreement :
    ¬∀ acts : List Action, machine.EachMove acts SettlesOnAgreement := by
  intro hclaim
  have hmove := hclaim (resumedBetween ++ [.complete 0]) resumedBetween (.complete 0)
    List.prefix_rfl _ _ (Machine.exec_reached (by decide +kernel))
    (Machine.step_reached (by decide +kernel))
  have hslot : ((machine.reached (resumedBetween ++ [.complete 0])).slots 0).map (fun slot =>
      (slot.lastPromotedVerdict, slot.settled, slot.monitor.monitor.currentStatus)) =
        some (some .down, true, .unknown) := by
    decide +kernel
  obtain ⟨slot, hslot, hfields⟩ := Option.map_eq_some_iff.mp hslot
  obtain ⟨hverdict, hsettled, hunknown⟩ : slot.lastPromotedVerdict = some .down ∧
      slot.settled = true ∧ slot.monitor.monitor.currentStatus = .unknown := by
    simpa using hfields
  have hdown := hmove slot .down hslot hverdict hsettled
  rw [hunknown] at hdown
  cases hdown

end Vigil.HighFreq.Promotion
