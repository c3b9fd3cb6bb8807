import Vigil.Bridge.EndShadow

/-! The first check that asks for an incident once shadow mode has ended.  It ends with a live
incident that was claimed, as long as nobody closes that incident under it for a recovery that is
over, and no line of the system hides it. -/

namespace Vigil.Bridge.AfterCutover

open Monitors StatusController Record Outcome Incidents Store Shadow ShadowSteps ShadowSilence
open EndShadow Lib
open Lifecycle (Ids Rows Actor)

/-- The row says that the monitor is failing, and that it is not paused. -/
def stillFailing (s : World) (m : ℕ) : Bool :=
  (s.monitorRow m).any fun row =>
    !row.paused && row.firstFailureAt.isSome && row.currentStatus ≠ .up

/-- The worker's next transaction records a check of the monitor that asks for an incident. -/
def asksFor (s : World) (worker m : ℕ) : Bool :=
  match s.workers worker with
  | .recording monitor outcome now =>
    monitor.id = m && (s.monitorRow m).any fun row =>
      (recordCheckOutcome row monitor outcome now).2.reconciliation.openIncident
  | _ => false

/-- A live incident is open on the monitor, and was claimed. -/
def alerted (s : World) (m : ℕ) : Bool :=
  s.db.incidents.any fun i => i.active m && !i.shadow && i.notifiedAt.isSome

/-- No handler holds anything back, no operator acts, and the worker goes on with its check. -/
def undisturbed (worker : ℕ) : Action → Bool
  | .start other _ => other ≠ worker
  | .answer _ _ _ => true
  | .advance _ held => held.isNone
  | .stop other => other ≠ worker
  | .lockFleet _ _ _ => true
  | .findOpen => true
  | .commit _ => true
  | .rollback => true
  | _ => false

/-- Each check that asks for an incident on a monitor whose shadow mode has ended, and that runs to
its end undisturbed while the monitor is failing, ends with a live incident that was claimed. -/
def AlertsAfterEnd (M : Machine World Action) (acts : List Action) : Prop :=
  ∀ before worker during, before ++ .advance worker none :: during <+: acts →
    ∀ s t u, M.exec before = some s → M.step s (.advance worker none) = some t →
    M.execFrom t during = some u → ∀ m ∈ s.ended, asksFor s worker m = true →
    (∀ a ∈ during, undisturbed worker a = true) →
    (∀ first r, first <+: during → M.execFrom t first = some r → stillFailing r m = true) →
    u.workers worker = .finished → alerted u m = true

/-- A worker that comes to resolve, or to look for an incident, on a monitor whose shadow mode has
ended and that is failing finds none open to resolve, and no open incident that a line of the system
hides. -/
structure Prompt (s : World) (a : Action) : Prop where
  resolver : ∀ worker held updated now, a = .advance worker held →
    s.workers worker = .resolving updated now → updated.id ∈ s.ended →
    stillFailing s updated.id = true → ∀ i ∈ s.db.incidents, i.active updated.id = false
  finder : ∀ worker held updated now, a = .advance worker held →
    s.workers worker = .finding updated now → updated.id ∈ s.ended →
    stillFailing s updated.id = true → ∀ i ∈ s.db.incidents, i.active updated.id = true →
    i.notifiedAt = none → marked s.db i.id = false

theorem view_monitorRow {s : World} {id : ℕ} {row : Monitor} (h : s.monitorRow id = some row) :
    (s.view (some id)).monitorRow id = some row := by
  simp [World.view, Db.monitorRow, h, (monitorRow_mem h).2]

/-! ### An incident stays open -/

/-- The incident is still open, and still claimed if it was. -/
def Kept (i j : Incident) (m : ℕ) : Prop :=
  j.id = i.id ∧ j.active m = true ∧ (i.notifiedAt ≠ none → j.notifiedAt ≠ none)

variable {db : Db} {now : ℤ}

theorem closeIncident_untouched {type : EventType} {message : String} {createdBy : Option String}
    {incident i : Incident} (hi : i ∈ db.incidents) (hid : i.id ≠ incident.id) :
    i ∈ (closeIncident now type message createdBy db incident).incidents := by
  unfold closeIncident
  split
  · exact hi
  · rename_i found hfind
    obtain ⟨-, hfound, -⟩ := find_spec hfind
    have hkept : i ∈ db.incidents.map fun k => if k.id = found.id then
        { found with
          status := .resolved
          resolvedAt := some now
          statusRevision := found.statusRevision + 1 } else k :=
      List.mem_map.mpr ⟨i, hi, if_neg (hfound.symm ▸ hid)⟩
    dsimp only
    split
    · rw [recordDispatchIntent_incidents]
      exact hkept
    · exact hkept

theorem closeAll_untouched {type : EventType} {message : String} {createdBy : Option String}
    {closed : List Incident} {i : Incident} (hi : i ∈ db.incidents)
    (hid : ∀ k ∈ closed, i.id ≠ k.id) :
    i ∈ (closed.foldl (closeIncident now type message createdBy) db).incidents := by
  induction closed generalizing db with
  | nil => exact hi
  | cons incident rest ih =>
    rw [List.forall_mem_cons] at hid
    exact ih (closeIncident_untouched hi hid.1) hid.2

theorem claim_other {incidentId : ℕ} {i : Incident} (hi : i ∈ db.incidents)
    (hid : i.id ≠ incidentId) : i ∈ (claimOpenedNotifications db incidentId now).1.incidents := by
  unfold claimOpenedNotifications
  split
  · exact hi
  · rename_i found hfind
    obtain ⟨-, hfound, -⟩ := find_spec hfind
    rw [recordDispatchIntent_incidents]
    exact List.mem_map.mpr ⟨i, hi, if_neg (hfound.symm ▸ hid)⟩

/-- An incident that is claimed was notified by now, at the latest. -/
theorem claim_self (hdb : Ids db) {i : Incident} (hi : i ∈ db.incidents) :
    ∃ j ∈ (claimOpenedNotifications db i.id now).1.incidents,
      j.id = i.id ∧ j.shadow = i.shadow ∧ (∀ m, j.active m = i.active m) ∧ j.notifiedAt ≠ none := by
  unfold claimOpenedNotifications
  split
  · rename_i hnone
    have hnotified := List.find?_eq_none.mp hnone i hi
    exact ⟨i, hi, rfl, rfl, fun _ => rfl, fun h => by simp [h] at hnotified⟩
  · rename_i found hfind
    obtain ⟨hmem, hfound, -⟩ := find_spec hfind
    obtain rfl := List.inj_on_of_nodup_map hdb.unique hmem hi hfound
    rw [recordDispatchIntent_incidents]
    refine ⟨{ found with notifiedAt := some now }, ?_, rfl, rfl, fun _ => rfl, by simp⟩
    exact List.mem_map.mpr ⟨found, hi, if_pos rfl⟩

theorem Kept.refl {i : Incident} {m : ℕ} (h : i.active m = true) : Kept i i m :=
  ⟨rfl, h, fun h => h⟩

section

variable {organizationOf : ℕ → String} {s t : World} {worker m : ℕ} {held : Option AlertHold}

theorem advance_keeps (hinv : Inv s) (hprompt : Prompt s (.advance worker held))
    (hm : m ∈ s.ended) (hfail : stillFailing s m = true) {i : Incident} (hi : i ∈ s.db.incidents)
    (hactive : i.active m = true) :
    ∃ j ∈ (advance held (s.view (locks (s.workers worker))) (s.workers worker)).1.incidents,
      Kept i j m := by
  have hsame : Kept i i m := .refl hactive
  cases hphase : s.workers worker with
  | recording monitor outcome now | finding updated now =>
    simp only [advance]
    split
    · exact ⟨i, hi, hsame⟩
    · exact ⟨i, hi, hsame⟩
  | opening updated outcome now =>
    simp only [advance]
    split
    · rename_i db created heq
      obtain ⟨_, -, -, -, -, -, -, -, -, -, -, message, hdb⟩ :=
        openMonitorIncident_some (congrArg Prod.snd heq)
      rw [heq] at hdb
      obtain rfl : db = _ := hdb
      exact ⟨i, List.mem_cons_of_mem _ hi, hsame⟩
    · rename_i db heq
      have hdb := openMonitorIncident_none (congrArg Prod.snd heq)
      rw [heq] at hdb
      obtain rfl : db = _ := hdb
      exact ⟨i, hi, hsame⟩
  | lines incident rest now =>
    cases rest with
    | nil => exact ⟨i, hi, hsame⟩
    | cons line rest => exact ⟨i, hi, hsame⟩
  | deciding incident now =>
    simp only [advance]
    split
    · exact ⟨i, hi, hsame⟩
    · split
      · exact ⟨i, hi, hsame⟩
      · exact ⟨i, hi, hsame⟩
  | claiming incident now =>
    simp only [advance]
    by_cases hid : i.id = incident.id
    · rw [← hid]
      obtain ⟨j, hj, hji, -, hja, hnotified⟩ := claim_self (view_ids hinv.ids) hi
      exact ⟨j, hj, hji, (hja m).trans hactive, fun _ => hnotified⟩
    · exact ⟨i, claim_other hi hid, hsame⟩
  | resolving updated now =>
    -- what is closed here belongs to another monitor
    have hne : updated.id ≠ m := by
      rintro rfl
      have hnone := hprompt.resolver worker held updated now rfl hphase hm hfail i hi
      rw [hactive] at hnone
      cases hnone
    refine ⟨i, closeAll_untouched hi fun k hk hid => ?_, hsame⟩
    obtain ⟨hkmem, hkactive⟩ := List.mem_filter.mp hk
    obtain rfl := List.inj_on_of_nodup_map hinv.ids.unique hi hkmem hid
    obtain ⟨-, -, hlink⟩ := active_spec.mp hactive
    obtain ⟨-, -, hlink'⟩ := active_spec.mp hkactive
    exact hne (Option.some.inj (hlink'.symm.trans hlink))
  | holding incident hold => exact ⟨i, hi, hsame⟩
  | idle => exact ⟨i, hi, hsame⟩
  | probing monitor => exact ⟨i, hi, hsame⟩
  | finished => exact ⟨i, hi, hsame⟩

theorem step_keeps (hinv : Inv s) (hsettled : Settled organizationOf s) {a : Action}
    (hstep : step s a = some t) (hquiet : undisturbed worker a = true) (hprompt : Prompt s a)
    (hm : m ∈ s.ended) (hfail : stillFailing s m = true) {i : Incident} (hi : i ∈ s.db.incidents)
    (hactive : i.active m = true) : ∃ j ∈ t.db.incidents, Kept i j m := by
  have hkept (hdb : t.db = s.db) : ∃ j ∈ t.db.incidents, Kept i j m :=
    ⟨i, hdb ▸ hi, .refl hactive⟩
  cases steps_of_step hstep with
  | advance held hfree => exact advance_keeps hinv hprompt hm hfail hi hactive
  | setPaused => cases hquiet
  | edit => cases hquiet
  | deleteRow => cases hquiet
  | operate hoperates =>
    cases hoperates with
    | _ => cases hquiet
  | commit now hending =>
    refine ⟨i, closeAllShadow_untouched hi fun hfound => ?_, .refl hactive⟩
    have hshadow := (hsettled.found _ _ hending rfl).only i hi hfound
    rw [hsettled.closed i hi m hm hactive] at hshadow
    cases hshadow
  | _ => exact hkept rfl

/-! ### The call -/

/-- How far a call that asked for an incident on the monitor has come. -/
def InCall (db : Db) (m : ℕ) : Phase → Prop
  | .opening updated _ _ => updated.id = m
  | .lines incident _ _ => ∃ i ∈ db.incidents, i.id = incident.id ∧ i.active m = true
  | .finding updated _ => updated.id = m ∧ ∃ i ∈ db.incidents, i.active m = true
  | .deciding incident _ => ∃ i ∈ db.incidents, i.id = incident.id ∧ i.active m = true
  | .claiming incident _ => ∃ i ∈ db.incidents, i.id = incident.id ∧ i.active m = true
  | .finished => ∃ i ∈ db.incidents, i.active m = true ∧ i.notifiedAt ≠ none
  | _ => False

theorem InCall.mono {db db' : Db} {phase : Phase} (h : InCall db m phase)
    (hkeeps : ∀ i ∈ db.incidents, i.active m = true → ∃ j ∈ db'.incidents, Kept i j m) :
    InCall db' m phase := by
  have hopen {incident : Incident}
      (h : ∃ i ∈ db.incidents, i.id = incident.id ∧ i.active m = true) :
      ∃ i ∈ db'.incidents, i.id = incident.id ∧ i.active m = true := by
    obtain ⟨i, hi, hid, hactive⟩ := h
    obtain ⟨j, hj, hji, hja, -⟩ := hkeeps i hi hactive
    exact ⟨j, hj, hji.trans hid, hja⟩
  cases phase with
  | opening updated outcome now => exact h
  | lines incident rest now => exact hopen h
  | finding updated now =>
    obtain ⟨hid, i, hi, hactive⟩ := h
    obtain ⟨j, hj, -, hja, -⟩ := hkeeps i hi hactive
    exact ⟨hid, j, hj, hja⟩
  | deciding incident now => exact hopen h
  | claiming incident now => exact hopen h
  | finished =>
    obtain ⟨i, hi, hactive, hnotified⟩ := h
    obtain ⟨j, hj, -, hja, hkept⟩ := hkeeps i hi hactive
    exact ⟨j, hj, hja, hkept hnotified⟩
  | _ => exact h.elim

/-- After its next transaction the call has come further. -/
theorem InCall.advance (hinv : Inv s) (hsettled : Settled organizationOf s)
    (hprompt : Prompt s (.advance worker none)) (hm : m ∈ s.ended)
    (hfail : stillFailing s m = true) (h : InCall s.db m (s.workers worker)) :
    InCall (advance none (s.view (locks (s.workers worker))) (s.workers worker)).1 m
      (advance none (s.view (locks (s.workers worker))) (s.workers worker)).2 := by
  cases hphase : s.workers worker with
  | opening updated outcome now =>
    rw [hphase] at h
    obtain rfl : updated.id = m := h
    simp only [Outcome.advance]
    split
    · rename_i db created heq
      obtain ⟨_, -, -, -, -, -, hstatus, hsource, hlink, -, -, message, hdb⟩ :=
        openMonitorIncident_some (congrArg Prod.snd heq)
      rw [heq] at hdb
      obtain rfl : db = _ := hdb
      exact ⟨created, List.mem_cons_self, rfl,
        active_spec.mpr ⟨hsource, by simp [hstatus], hlink⟩⟩
    · rename_i db heq
      have hdb := openMonitorIncident_none (congrArg Prod.snd heq)
      have hres := congrArg Prod.snd heq
      rw [heq] at hdb
      obtain rfl : db = _ := hdb
      -- nothing was inserted for a row that would have it, so one is open
      refine ⟨rfl, ?_⟩
      by_contra hnone
      have hnone' : s.db.incidents.any (Incident.active updated.id) = false := by
        rw [List.any_eq_false]
        exact fun i hi hactive => hnone ⟨i, hi, hactive⟩
      obtain ⟨row, hrow, hrowfail⟩ := (Option.any_eq_true _ _).mp hfail
      simp only [Bool.and_eq_true, decide_eq_true_eq, Bool.not_eq_eq_eq_not, Bool.not_true]
        at hrowfail
      have hinserts := openMonitorIncident_isSome_iff.mpr
        ⟨row, view_monitorRow hrow, hrowfail.2, hrowfail.1.1, hnone'⟩
      rw [show (openMonitorIncident (s.view (some updated.id)) updated).2 = none from hres]
        at hinserts
      cases hinserts
  | lines incident rest now =>
    rw [hphase] at h
    cases rest with
    | nil => exact h
    | cons line rest => exact h
  | finding updated now => 
    rw [hphase] at h
    obtain ⟨rfl, i, hi, hactive⟩ := h
    simp only [Outcome.advance]
    split
    · rename_i incident hfound
      obtain ⟨hmem, hopen, -⟩ := findUnhandledAutoIncident_some hfound
      exact ⟨incident, hmem, rfl, hopen⟩
    · rename_i hnone
      refine ⟨i, hi, hactive, fun hnull => ?_⟩
      have hmarked := hprompt.finder worker none updated now rfl hphase hm hfail i hi hactive hnull
      have hpassed := List.find?_eq_none.mp hnone i hi
      unfold marked at hmarked
      simp [hactive, hnull, World.view, hmarked] at hpassed
  | deciding incident now =>
    have hworker := hinv.workers worker
    rw [hphase] at h hworker
    obtain ⟨i, hi, hid, hactive⟩ := h
    obtain ⟨known, hknown, hkid, hkshadow⟩ := hworker
    obtain rfl := List.inj_on_of_nodup_map hinv.ids.unique hi hknown (hid.trans hkid.symm)
    have hlive : incident.shadow = false := hkshadow ▸ hsettled.closed i hi m hm hactive
    simp only [Outcome.advance, hlive, Bool.false_eq_true, if_false]
    exact ⟨i, hi, hid, hactive⟩
  | claiming incident now =>
    rw [hphase] at h
    obtain ⟨i, hi, hid, hactive⟩ := h
    simp only [Outcome.advance]
    rw [← hid]
    obtain ⟨j, hj, -, -, hja, hnotified⟩ := claim_self (view_ids hinv.ids) hi
    exact ⟨j, hj, (hja m).trans hactive, hnotified⟩
  | finished =>
    rw [hphase] at h
    exact h
  | _ =>
    rw [hphase] at h
    exact h.elim

theorem InCall.step (hinv : Inv s) (hsettled : Settled organizationOf s) {a : Action}
    (hstep : Shadow.step s a = some t) (hquiet : undisturbed worker a = true)
    (hprompt : Prompt s a) (hm : m ∈ s.ended) (hfail : stillFailing s m = true)
    (h : InCall s.db m (s.workers worker)) : InCall t.db m (t.workers worker) := by
  have hkept : InCall t.db m (s.workers worker) :=
    h.mono fun i hi hactive => step_keeps hinv hsettled hstep hquiet hprompt hm hfail hi hactive
  cases step_moves hstep with
  | none workers => exact workers ▸ hkept
  | begins other phase workers action =>
    rw [workers, Function.update_apply]
    split
    · rename_i hworker
      subst hworker
      rcases action with ⟨copy, rfl, -⟩ | ⟨monitor, outcome, now, rfl, -⟩ | ⟨rfl, -⟩
      · simp [undisturbed] at hquiet
      · -- a worker that waits for its answer has asked for nothing yet
        simp only [Shadow.step] at hstep
        split at hstep
        · rename_i hphase
          rw [hphase] at h
          exact h.elim
        · cases hstep
      · simp [undisturbed] at hquiet
    · exact hkept
  | advances other held action free db next result world =>
    subst action world
    by_cases hworker : worker = other
    · subst hworker
      obtain rfl : held = none := by simpa [undisturbed] using hquiet
      have hafter := h.advance hinv hsettled hprompt hm hfail
      rw [result] at hafter
      have hphase : ((s.store db).setPhase worker next).workers worker = next :=
        Function.update_self ..
      rw [hphase]
      exact hafter
    · have hphase : ((s.store db).setPhase other next).workers worker = s.workers worker :=
        Function.update_of_ne hworker ..
      rw [hphase]
      exact hkept

theorem advance_phase (hstep : Shadow.step s (.advance worker held) = some t) :
    t.workers worker = (advance held (s.view (locks (s.workers worker))) (s.workers worker)).2 := by
  obtain ⟨-, hstep⟩ := Option.ite_none_right_eq_some.mp hstep
  cases hstep
  exact Function.update_self ..

theorem inCall_of_asksFor (hasks : asksFor s worker m = true)
    (hstep : step s (.advance worker none) = some t) : InCall t.db m (t.workers worker) := by
  rw [advance_phase hstep]
  unfold asksFor at hasks
  split at hasks
  · rename_i monitor outcome now hrecording
    simp only [Bool.and_eq_true, decide_eq_true_eq] at hasks
    obtain ⟨rfl, hwants⟩ := hasks
    obtain ⟨row, hrow, hopen⟩ := (Option.any_eq_true _ _).mp hwants
    rw [hrecording]
    simp only [advance, locks, view_monitorRow hrow, afterRecord, hopen, if_true,
      recordCheckOutcome_monitor]
    exact (recordCheckOutcome_id monitor outcome now row).trans (monitorRow_mem hrow).2
  · cases hasks

theorem ended_mono {a : Action} (hstep : step s a = some t) (hm : m ∈ s.ended) : m ∈ t.ended := by
  cases step_end hstep with
  | none _ ended _ _ => exact ended ▸ hm
  | toggled _ _ _ _ ended _ => exact ended ▸ hm
  | locked _ _ _ _ ended _ _ => exact ended ▸ hm
  | found _ _ _ _ _ ended _ _ _ => exact ended ▸ hm
  | rolledBack _ ended _ _ => exact ended ▸ hm
  | committed _ _ _ _ _ _ _ ended _ _ _ _ => exact ended ▸ List.mem_append_right _ hm

theorem alerted_of_inCall (hsettled : Settled organizationOf s) (hm : m ∈ s.ended)
    (h : InCall s.db m .finished) : alerted s m = true := by
  obtain ⟨i, hi, hactive, hnotified⟩ := h
  refine List.any_eq_true.mpr ⟨i, hi, ?_⟩
  simp [hactive, hsettled.closed i hi m hm hactive, Option.isSome_iff_ne_none, hnotified]

end

theorem alertsAfterEnd_of_prompt {organizationOf : ℕ → String} {monitors : List Monitor}
    {acts : List Action} (hprompt : (machine organizationOf monitors).EachStep acts Prompt) :
    AlertsAfterEnd (machine organizationOf monitors) acts := by
  intro before worker during hpre s t u hs hst hrun m hm hasks hquiet hfail hfinished
  have hstep : step s (.advance worker none) = some t := hst
  have ht : (machine organizationOf monitors).exec (before ++ [.advance worker none]) = some t :=
    (Machine.exec_concat_eq_some _).mpr ⟨s, hs, hst⟩
  have hexec {visited : List Action} {r : World}
      (hr : (machine organizationOf monitors).execFrom t visited = some r) :
      (machine organizationOf monitors).exec (before ++ [.advance worker none] ++ visited) =
        some r :=
    Machine.exec_append_eq_some ht hr
  have hinCall : m ∈ u.ended ∧ InCall u.db m (u.workers worker) := by
    refine Machine.execFrom_induct_visited
      (P := fun r => m ∈ r.ended ∧ InCall r.db m (r.workers worker)) hrun
      ⟨ended_mono hstep hm, inCall_of_asksFor hasks hstep⟩ ?_
    rintro visited a r r' hvisited hr ⟨hended, hcall⟩ hnext
    have hreach : (machine organizationOf monitors).Reachable r := ⟨_, hexec hr⟩
    have hshort : visited <+: during := (List.prefix_append visited [a]).trans hvisited
    have hmem : a ∈ during := hvisited.subset (by simp)
    have hwhole : before ++ [.advance worker none] ++ visited ++ [a] <+: acts := by
      obtain ⟨rest, rfl⟩ := hvisited
      refine List.IsPrefix.trans ⟨rest, ?_⟩ hpre
      simp
    have hstepPrompt : Prompt r a := hprompt _ a hwhole r r' (hexec hr) hnext
    exact ⟨ended_mono hnext hended, hcall.step (inv_of_reachable hreach)
      (settled_of_reachable hreach) hnext (hquiet a hmem) hstepPrompt hended
      (hfail visited r hshort hr)⟩
  rw [hfinished] at hinCall
  exact alerted_of_inCall (settled_of_reachable ⟨_, hexec hrun⟩) hinCall.1 hinCall.2

/-- In every run, from the moment that shadow mode ends no open automatic incident of it is left on
the fleet and none of it was ever claimed; no incident changes its flag; none is opened on a monitor
that was abandoned until it is resumed.  And where nobody closes an incident for a recovery that is
over, and no line of the system hides one, the next check that asks for an incident on a monitor of
the fleet that is still failing ends with a live one that was claimed. -/
theorem shadow_ends (organizationOf : ℕ → String) (monitors : List Monitor) (acts : List Action) :
    (machine organizationOf monitors).Always acts ShadowOver ∧
    (machine organizationOf monitors).EachMove acts KeepsFlags ∧
    (machine organizationOf monitors).EachMove acts OpensOnResumed ∧
    ((machine organizationOf monitors).EachStep acts Prompt →
      AlertsAfterEnd (machine organizationOf monitors) acts) := by
  refine ⟨?_, ?_, ?_, alertsAfterEnd_of_prompt⟩
  · exact .of_reachable (fun _ h => shadowOver_of_reachable h) acts
  · exact .of_reachable (fun _ _ _ h => keepsFlags_step (inv_of_reachable h)) acts
  · exact .of_reachable
      (fun _ _ _ h => opensOnResumed_step (inv_of_reachable h) (settled_of_reachable h)) acts

/-! ### A run -/

def success : CheckResult := ⟨true, none, .up, [], [], none⟩

/-- A bridge is cut over, and the next check of its monitor fails. -/
def failsAfterCutover : List Action :=
  [.lockFleet .cutover "acme" 1, .findOpen, .commit 2000,
    .start 1 { imported with shadowBridgeId := none }, .answer 1 failure 3000, .advance 1 none,
    .advance 1 none, .advance 1 none, .advance 1 none, .advance 1 none]

/-- No worker comes to resolve an incident, or to look for one. -/
def opensOnly (s : World) : Action → Bool
  | .advance worker _ =>
    match s.workers worker with
    | .resolving _ _ => false
    | .finding _ _ => false
    | _ => true
  | _ => true

theorem prompt_of_opensOnly {s : World} {a : Action} (h : opensOnly s a = true) : Prompt s a where
  resolver worker held updated now haction hphase := by
    simp [opensOnly, haction, hphase] at h
  finder worker held updated now haction hphase := by
    simp [opensOnly, haction, hphase] at h

theorem shadow_ends_of_failsAfterCutover :
    AlertsAfterEnd (machine (fun _ => "acme") [imported]) failsAfterCutover ∧
      alerted ((machine (fun _ => "acme") [imported]).reached failsAfterCutover) 7 = true := by
  obtain ⟨-, -, -, halerts⟩ := shadow_ends (fun _ => "acme") [imported] failsAfterCutover
  refine ⟨halerts ?_, by decide +kernel⟩
  exact .of_checks (fun _ _ => prompt_of_opensOnly) (by decide +kernel)

/-- A worker records that the monitor is up and is slow to resolve its incidents; the bridge is cut
over, and another check is about to record a failure. -/
def slowRecovery : List Action :=
  [.start 3 imported, .answer 3 success 1000, .advance 3 none, .lockFleet .cutover "acme" 1,
    .findOpen, .commit 2000,
    .start 1 { imported with lastCheckedAt := some 1000, shadowBridgeId := none },
    .answer 1 failure 3000]

/-- The incident of the failure is opened, closed for the recovery, and claimed. -/
def overtaken : List Action :=
  [.advance 1 none, .advance 3 none, .advance 1 none, .advance 1 none, .advance 1 none]

theorem not_alerted_after_cutover :
    ¬∀ organizationOf monitors acts,
      (machine organizationOf monitors).Always acts ShadowOver ∧
      (machine organizationOf monitors).EachMove acts KeepsFlags ∧
      (machine organizationOf monitors).EachMove acts OpensOnResumed ∧
      AlertsAfterEnd (machine organizationOf monitors) acts := by
  intro hclaim
  have halerts := (hclaim (fun _ => "acme") [imported]
    (slowRecovery ++ .advance 1 none :: overtaken)).2.2.2
  have hstart : ((machine (fun _ => "acme") [imported]).exec
      (slowRecovery ++ [.advance 1 none])).isSome = true := by
    decide +kernel
  have hrun : ((machine (fun _ => "acme") [imported]).exec
      (slowRecovery ++ [.advance 1 none] ++ overtaken)).isSome = true := by
    decide +kernel
  have hfailing : ∀ k ≤ 5, stillFailing ((machine (fun _ => "acme") [imported]).reached
      (slowRecovery ++ [.advance 1 none] ++ overtaken.take k)) 7 = true := by
    decide +kernel
  have halerted := halerts slowRecovery 1 overtaken List.prefix_rfl _ _ _
    (Machine.exec_reached (by decide +kernel)) (Machine.step_reached hstart)
    (Machine.execFrom_reached hrun) 7 (by decide +kernel) (by decide +kernel) (by decide +kernel)
    (fun first r hfirst hr => ?_) (by decide +kernel)
  · have hnone : alerted ((machine (fun _ => "acme") [imported]).reached
        (slowRecovery ++ [.advance 1 none] ++ overtaken)) 7 = false := by
      decide +kernel
    rw [hnone] at halerted
    cases halerted
  · have hexec := Machine.exec_append_eq_some (Machine.exec_reached hstart) hr
    rw [← Machine.reached_of_exec hexec, List.prefix_iff_eq_take.mp hfirst]
    exact hfailing _ hfirst.length_le

end Vigil.Bridge.AfterCutover
