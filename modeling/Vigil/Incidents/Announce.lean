import Vigil.Lib.Run
import Vigil.Incidents.Store

/-! Who was told that an outage began is told that it ended.  The transactions of any number of
workers and operators on the automatic incidents of one monitor, in any order: opening, claiming the
right to page, resolving, an operator's change of status, and the deletion of the monitor. -/

namespace Vigil.Incidents.Announce

open Monitors.StatusController Monitors.Record Store Lib

/-- Every resolved incident whose beginning was announced has its end announced. -/
def Announced (db : Db) : Prop :=
  ∀ i ∈ db.incidents, i.status = .resolved → .opened i.id ∈ db.intents → .resolved i.id ∈ db.intents

/-! ### Each operation -/

variable {db db' : Db}

theorem Announced.setIncident {incident : Incident} (h : Announced db)
    (hincident : incident.status = .resolved → .opened incident.id ∈ db.intents → .resolved
      incident.id ∈ db.intents) : Announced (db.setIncident incident) := by
  intro i hi hresolved hopened
  rcases mem_setIncident hi with rfl | ⟨hi, -⟩
  · exact hincident hresolved hopened
  · exact h i hi hresolved hopened

theorem announced_open {db : Db} (monitor : Monitor) (h : Announced db) :
    Announced (openMonitorIncident db monitor).1 := by
  cases hres : (openMonitorIncident db monitor).2 with
  | none =>
    rw [openMonitorIncident_none hres]
    exact h
  | some incident =>
    obtain ⟨-, -, -, -, -, -, hstatus, -, -, -, -, message, hdb⟩ := openMonitorIncident_some hres
    rw [hdb]
    intro i hi hresolved hopened
    rcases List.mem_cons.mp hi with rfl | hi
    · rw [hstatus] at hresolved
      cases hresolved
    · exact h i hi hresolved hopened

theorem announced_close {now : ℤ} {type : EventType} {message : String} {createdBy : Option String}
    {incident : Incident} (hwf : WellFormed db) (h : Announced db) :
    Announced (closeIncident now type message createdBy db incident) := by
  unfold closeIncident
  split
  · exact h
  · rename_i found hfind
    obtain ⟨hmem, -, -⟩ := find_spec hfind
    dsimp only
    split
    · intro i hi hresolved hopened
      rw [recordDispatchIntent_incidents] at hi
      rcases mem_recordDispatchIntent.mp hopened with hopened | hopened
      · cases hopened
      · rw [mem_recordDispatchIntent]
        rcases mem_setIncident hi with rfl | ⟨hi, -⟩
        · exact .inl rfl
        · exact .inr (h i hi hresolved hopened)
    · rename_i hquiet
      refine h.setIncident fun _ hopened => ?_
      exact absurd (hwf.opened found hmem hopened) (by simpa using hquiet)

theorem announced_change {actor : String} {incidentId : ℕ} {seen next : IncidentStatus}
    {message : String} {now : ℤ} (h : Announced db)
    (hs : changeIncidentStatus db actor incidentId seen next message now = some db') :
    Announced db' := by
  unfold changeIncidentStatus at hs
  split at hs
  · split at hs
    · cases hs
    · rename_i found hfind
      cases hs
      intro i hi hresolved hopened
      rw [recordDispatchIntent_incidents] at hi
      rw [mem_recordDispatchIntent] at hopened ⊢
      rcases mem_setIncident hi with rfl | ⟨hi, -⟩
      · -- the operator's own resolution always records its intent
        have hnext : next = .resolved := hresolved
        simp [hnext]
      · rcases hopened with hopened | hopened
        · split at hopened <;> cases hopened
        · exact .inr (h i hi hresolved hopened)
  · cases hs

theorem announced_deleteRow (monitorId : ℕ) (h : Announced db) :
    Announced (deleteMonitorRow db monitorId) := by
  intro i hi hresolved hopened
  obtain ⟨j, hj, rfl⟩ := List.mem_map.mp hi
  by_cases hlinked : j.monitorId = some monitorId
  · rw [if_pos hlinked] at hresolved hopened ⊢
    exact h j hj hresolved hopened
  · rw [if_neg hlinked] at hresolved hopened ⊢
    exact h j hj hresolved hopened

/-- A claim of an incident leaves the end of every resolved one announced exactly if it does not
take effect on an incident that was resolved quietly. -/
theorem announced_claim_iff (incidentId : ℕ) (now : ℤ) (hwf : WellFormed db) (h : Announced db) :
    Announced (claimOpenedNotifications db incidentId now).1 ↔
      ∀ i ∈ db.incidents, i.id = incidentId → i.notifiedAt = none → i.status = .resolved →
        .resolved i.id ∈ db.intents := by
  unfold claimOpenedNotifications
  cases hfind : db.incidents.find? fun i => i.id = incidentId && i.notifiedAt.isNone with
  | none =>
    have hnone := List.find?_eq_none.mp hfind
    constructor
    · intro _ i hi hid hnotified
      exact absurd (by simp [hid, hnotified]) (hnone i hi)
    · exact fun _ => h
  | some found =>
    obtain ⟨hmem, hid, hnull⟩ := find_spec hfind
    have hnull : found.notifiedAt = none := by simpa using hnull
    have hthe : ∀ i ∈ db.incidents, i.id = incidentId → i = found := fun i hi hii =>
      List.inj_on_of_nodup_map hwf.unique hi hmem (hii.trans hid.symm)
    constructor
    · intro hannounced i hi hii _ hresolved
      obtain rfl := hthe i hi hii
      have hclaimed : { i with notifiedAt := some now } ∈
          (db.setIncident { i with notifiedAt := some now }).incidents :=
        List.mem_map.mpr ⟨i, hi, if_pos rfl⟩
      have := hannounced { i with notifiedAt := some now } (by simpa using hclaimed) hresolved
        (mem_recordDispatchIntent.mpr (.inl rfl))
      rcases mem_recordDispatchIntent.mp this with hcause | hcause
      · cases hcause
      · exact hcause
    · intro hquiet i hi hresolved hopened
      rw [recordDispatchIntent_incidents] at hi
      rw [mem_recordDispatchIntent] at hopened ⊢
      refine .inr ?_
      rcases mem_setIncident hi with rfl | ⟨hi, hne⟩
      · exact hquiet found hmem hid hnull hresolved
      · rcases hopened with hopened | hopened
        · exact absurd (CauseKey.opened.inj hopened) hne
        · exact h i hi hresolved hopened

/-! ### Every interleaving -/

/-- What checks, workers and operators do to the incidents of a monitor. -/
inductive Action where
  | monitorMoves (monitor : Monitor)
  | openIncident (monitor : Monitor)
  /-- Whoever holds the incident claims: the worker that opened it, one that repairs, a failsafe. -/
  | claim (incidentId : ℕ) (now : ℤ)
  | resolve (monitor : Monitor) (now : ℤ)
  | changeStatus (actor : String) (incidentId : ℕ) (seen next : IncidentStatus) (message : String)
      (now : ℤ)
  /-- The two writes of `deleteMonitor`, between which an incident can be inserted. -/
  | deleteIncidents (actor : String) (monitor : Monitor) (now : ℤ)
  | deleteRow (monitorId : ℕ)
  deriving DecidableEq, Repr

def step (db : Db) : Action → Option Db
  | .monitorMoves monitor =>
    if db.monitor.any (·.id = monitor.id) then some { db with monitor := some monitor } else none
  | .openIncident monitor => some (openMonitorIncident db monitor).1
  | .claim incidentId now => some (claimOpenedNotifications db incidentId now).1
  | .resolve monitor now => some (resolveMonitorIncidents db monitor now)
  | .changeStatus actor incidentId seen next message now =>
    changeIncidentStatus db actor incidentId seen next message now
  | .deleteIncidents actor monitor now => some (deleteMonitorIncidents db actor monitor now)
  | .deleteRow monitorId => some (deleteMonitorRow db monitorId)

def machine (monitor : Monitor) : Machine Db Action where
  init :=
    { monitor := some monitor, incidents := [], events := [], intents := [], nextId := 0,
      nextEventId := 0 }
  step := step

/-- A claim does not take effect on an incident that was resolved before anybody was alerted. -/
def ClaimsUnresolved (db : Db) : Action → Prop
  | .claim incidentId _ => ∀ i ∈ db.incidents, i.id = incidentId → i.notifiedAt = none →
      i.status = .resolved → .resolved i.id ∈ db.intents
  | _ => True

theorem step_wf {a : Action} (h : WellFormed db) (hs : step db a = some db') : WellFormed db' := by
  cases a with
  | monitorMoves monitor =>
    simp only [step] at hs
    split at hs
    · cases hs
      exact ⟨h.ids, h.unique, h.causes, h.events, h.opened⟩
    · cases hs
  | openIncident monitor =>
    cases hs
    exact openMonitorIncident_wf monitor h
  | claim incidentId now =>
    cases hs
    exact claimOpenedNotifications_wf incidentId now h
  | resolve monitor now | deleteIncidents actor monitor now =>
    cases hs
    exact List.foldlRecOn _ _ h fun _ h _ _ => closeIncident_wf h
  | changeStatus actor incidentId seen next message now => exact changeIncidentStatus_wf h hs
  | deleteRow monitorId =>
    cases hs
    exact deleteMonitorRow_wf monitorId h

theorem init_wf (monitor : Monitor) : WellFormed (machine monitor).init where
  ids := by simp [machine]
  unique := by simp [machine]
  causes := by simp [machine]
  events := by simp [machine]
  opened := by simp [machine]

theorem reachable_wf {monitor : Monitor} (h : (machine monitor).Reachable db) : WellFormed db :=
  h.induct (init_wf monitor) fun _ _ _ _ hwf hs => step_wf hwf hs

theorem announced_step_iff {a : Action} (hwf : WellFormed db) (h : Announced db)
    (hs : step db a = some db') : Announced db' ↔ ClaimsUnresolved db a := by
  have hclose : ∀ {now type message createdBy} (incidents : List Incident),
      WellFormed (incidents.foldl (closeIncident now type message createdBy) db) ∧
        Announced (incidents.foldl (closeIncident now type message createdBy) db) :=
    fun incidents =>
      List.foldlRecOn (motive := fun db => WellFormed db ∧ Announced db) incidents _ ⟨hwf, h⟩
        fun _ h _ _ => ⟨closeIncident_wf h.1, announced_close h.1 h.2⟩
  cases a with
  | claim incidentId now =>
    cases hs
    exact announced_claim_iff incidentId now hwf h
  | monitorMoves monitor =>
    refine iff_of_true ?_ trivial
    simp only [step] at hs
    split at hs
    · cases hs
      exact h
    · cases hs
  | openIncident monitor =>
    cases hs
    exact iff_of_true (announced_open monitor h) trivial
  | resolve monitor now | deleteIncidents actor monitor now =>
    cases hs
    exact iff_of_true (hclose _).2 trivial
  | changeStatus actor incidentId seen next message now =>
    exact iff_of_true (announced_change h hs) trivial
  | deleteRow monitorId =>
    cases hs
    exact iff_of_true (announced_deleteRow monitorId h) trivial

/-- In every run, whatever its order, every announced beginning has its end announced throughout
exactly if no claim of the run takes effect on an incident that was resolved quietly. -/
theorem announced_iff (monitor : Monitor) (acts : List Action) :
    (machine monitor).Always acts Announced ↔
      (machine monitor).EachStep acts ClaimsUnresolved :=
  Machine.always_iff_eachStep (by simp [Announced, machine])
    (fun _ _ _ hr h hs => announced_step_iff (reachable_wf hr) h hs) acts

/-- A monitor that is down without an incident. -/
def downMonitor : Monitor where
  id := 1
  organizationId := "org"
  name := "api"
  failureWindowSeconds := 0
  firstFailureAt := some 0
  dockerState := none
  paused := false
  currentStatus := .down
  consecutiveFailures := 1
  lastCheckedAt := some 0
  dispatchClaimedUntil := none
  shadowBridgeId := none

/-- The recovery lands between the insert of the incident and the claim: the incident is resolved
quietly, and the claim then announces that it began. -/
theorem recovery_before_claim_not_announced :
    ¬(machine downMonitor).Always
      [.openIncident downMonitor, .monitorMoves { downMonitor with currentStatus := .up },
        .resolve { downMonitor with currentStatus := .up } 1, .claim 0 2] Announced := by
  intro h
  obtain ⟨db, hdb, hstatus, hopened, hresolved⟩ : ∃ db,
      (machine downMonitor).exec
        [.openIncident downMonitor, .monitorMoves { downMonitor with currentStatus := .up },
          .resolve { downMonitor with currentStatus := .up } 1, .claim 0 2] = some db ∧
      (∃ i ∈ db.incidents, i.id = 0 ∧ i.status = .resolved) ∧ .opened 0 ∈ db.intents ∧
      .resolved 0 ∉ db.intents :=
    ⟨_, rfl, by decide, by decide, by decide⟩
  obtain ⟨i, hi, hid, hres⟩ := hstatus
  have := h _ List.prefix_rfl db hdb i hi hres (by rwa [hid])
  rw [hid] at this
  exact hresolved this

end Vigil.Incidents.Announce
