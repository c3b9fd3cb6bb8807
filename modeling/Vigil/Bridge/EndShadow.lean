import Vigil.Bridge.ShadowSilence

/-! What stands once shadow mode has ended.  The transaction locks its fleet before it looks for open
shadow incidents, so none is opened that it has not seen; when it commits, the rows are live and the
incidents closed, and a fleet that was abandoned is paused until somebody resumes it. -/

namespace Vigil.Bridge.EndShadow

open Monitors StatusController Record Outcome Incidents Store Shadow ShadowSteps ShadowSilence Lib
open Lifecycle (Ids Rows Actor)

/-! ### What a step does to the transaction -/

/-- What a step may do to the end of shadow mode: nothing, a pause or a resumption, or a step of its
transaction. -/
inductive EndStep (s : World) (a : Action) (t : World) : Prop where
  | none (ending : t.ending = s.ending) (ended : t.ended = s.ended)
      (silenced : t.silenced = s.silenced) (action : ∀ monitorId paused, a ≠ .setPaused monitorId paused)
  | toggled (monitorId : ℕ) (paused : Bool) (action : a = .setPaused monitorId paused)
      (ending : t.ending = s.ending) (ended : t.ended = s.ended)
      (silenced : t.silenced = if paused then s.silenced else s.silenced.filter (· ≠ monitorId))
  | locked (mode : Mode) (organizationId : String) (bridgeId : ℕ)
      (ending : t.ending = some ⟨mode, organizationId, (s.monitors.filter fun row =>
        row.shadowBridgeId = some bridgeId && row.organizationId = organizationId).map (·.id), none⟩)
      (ended : t.ended = s.ended) (silenced : t.silenced = s.silenced)
      (action : a = .lockFleet mode organizationId bridgeId)
  | found (mode : Mode) (organizationId : String) (fleet : List ℕ)
      (before : s.ending = some ⟨mode, organizationId, fleet, none⟩)
      (ending : t.ending =
        some ⟨mode, organizationId, fleet, openShadow s.db organizationId fleet⟩)
      (ended : t.ended = s.ended) (silenced : t.silenced = s.silenced) (db : t.db = s.db)
      (action : a = .findOpen)
  | committed (mode : Mode) (organizationId : String) (fleet found : List ℕ) (now : ℤ)
      (before : s.ending = some ⟨mode, organizationId, fleet, found⟩) (ending : t.ending = none)
      (ended : t.ended = fleet ++ s.ended)
      (silenced : t.silenced = if mode = .abandon then fleet ++ s.silenced else s.silenced)
      (db : t.db = found.foldl (closeShadow mode now) s.db)
      (monitors : t.monitors = s.monitors.map fun row =>
        if fleet.contains row.id then endedRow mode row else row)
      (action : a = .commit now)
  | rolledBack (ending : t.ending = none) (ended : t.ended = s.ended)
      (silenced : t.silenced = s.silenced) (action : a = .rollback)

theorem step_end {s t : World} {a : Action} (h : step s a = some t) : EndStep s a t := by
  cases steps_of_step h with
  | setPaused monitorId paused => exact .toggled monitorId paused rfl rfl rfl rfl
  | operate hoperates =>
    refine .none rfl rfl rfl fun monitorId paused haction => ?_
    subst haction
    cases hoperates
  | lockFleet mode organizationId bridgeId =>
    exact .locked mode organizationId bridgeId rfl rfl rfl rfl
  | findOpen hending => exact .found _ _ _ hending rfl rfl rfl rfl rfl
  | commit now hending => exact .committed _ _ _ _ now hending rfl rfl rfl rfl rfl rfl
  | rollback => exact .rolledBack rfl rfl rfl rfl
  | _ => exact .none rfl rfl rfl fun _ _ haction => by cases haction

/-! ### What it closes -/

variable {db : Db} {mode : Mode} {now : ℤ}

theorem closeShadow_untouched {incidentId : ℕ} {i : Incident} (hi : i ∈ db.incidents)
    (hid : i.id ≠ incidentId) : i ∈ (closeShadow mode now db incidentId).incidents := by
  unfold closeShadow
  split
  · exact hi
  · rename_i found hfind
    obtain ⟨-, hfound, -⟩ := find_spec hfind
    exact List.mem_map.mpr ⟨i, hi, if_neg (hfound.symm ▸ hid)⟩

theorem closeAllShadow_untouched {found : List ℕ} {i : Incident} (hi : i ∈ db.incidents)
    (hid : i.id ∉ found) : i ∈ (found.foldl (closeShadow mode now) db).incidents := by
  induction found generalizing db with
  | nil => exact hi
  | cons incidentId rest ih =>
    rw [List.mem_cons, not_or] at hid
    exact ih (closeShadow_untouched hi hid.1) hid.2

theorem closeShadow_closes {incidentId : ℕ} {j : Incident}
    (hj : j ∈ (closeShadow mode now db incidentId).incidents) (hid : j.id = incidentId) :
    j.status = .resolved := by
  unfold closeShadow at hj
  split at hj
  · rename_i hnone
    by_contra hopen
    have hfind := List.find?_eq_none.mp hnone j hj
    simp [hid, hopen] at hfind
  · rename_i found hfind
    obtain ⟨-, hfound, -⟩ := find_spec hfind
    rcases mem_setIncident hj with rfl | ⟨-, hne⟩
    · rfl
    · exact absurd (hid.trans hfound.symm) hne

theorem closeAllShadow_closes (hdb : Ids db) {found : List ℕ} {j : Incident}
    (hj : j ∈ (found.foldl (closeShadow mode now) db).incidents) (hid : j.id ∈ found) :
    j.status = .resolved := by
  induction found generalizing db with
  | nil => cases hid
  | cons incidentId rest ih =>
    have hfirst := (closeShadow_quietly hdb mode now incidentId).1
    have hids : Ids (closeShadow mode now db incidentId) := hdb.rows hfirst fun _ _ h => h.id
    rcases List.mem_cons.mp hid with heq | hrest
    · obtain ⟨i, hi, hij⟩ := (closeAllShadow_quietly hids mode now rest).1.before hj
      exact hij.resolved (closeShadow_closes hi (hij.id.symm.trans heq))
    · exact ih hids hj hrest

theorem recordCheckOutcome_organizationId (row monitor : Monitor) (outcome : CheckResult) (now : ℤ) :
    (recordCheckOutcome row monitor outcome now).1.organizationId = row.organizationId := by
  unfold recordCheckOutcome
  split
  · rfl
  · rfl

/-! ### The invariant -/

/-- The open shadow incidents of a fleet are all among `found`, and `found` names no other. -/
structure FoundAll (db : Db) (fleet found : List ℕ) : Prop where
  all : ∀ i ∈ db.incidents, i.shadow = true → ∀ m ∈ fleet, i.active m = true → i.id ∈ found
  only : ∀ i ∈ db.incidents, i.id ∈ found → i.shadow = true
  below : ∀ id ∈ found, id < db.nextId

/-- What every reachable state satisfies: rows and incidents agree on the organization of a monitor,
and shadow mode is over for the monitors that it was ended for. -/
structure Settled (organizationOf : ℕ → String) (s : World) : Prop where
  keys : (s.monitors.map (·.id)).Nodup
  organizations : ∀ row ∈ s.monitors, row.organizationId = organizationOf row.id
  copies : ∀ worker updated outcome now, s.workers worker = .opening updated outcome now →
    updated.organizationId = organizationOf updated.id
  linked : ∀ i ∈ s.db.incidents, ∀ m, i.monitorId = some m → i.organizationId = organizationOf m
  /-- The monitors whose shadow mode has ended are live, and so are their open incidents. -/
  live : ∀ row ∈ s.monitors, row.id ∈ s.ended → row.shadowBridgeId = none
  closed : ∀ i ∈ s.db.incidents, ∀ m ∈ s.ended, i.active m = true → i.shadow = false
  /-- The monitors that were abandoned and not resumed since are paused. -/
  paused : ∀ row ∈ s.monitors, row.id ∈ s.silenced → row.paused = true
  fleet : ∀ ending, s.ending = some ending → ∀ m ∈ ending.fleet,
    m ∉ s.ended ∧ organizationOf m = ending.organizationId
  /-- What the transaction has found are the open shadow incidents of its fleet. -/
  found : ∀ ending found, s.ending = some ending → ending.found = some found →
    FoundAll s.db ending.fleet found

theorem active_spec {i : Incident} {m : ℕ} :
    i.active m = true ↔ i.source = .monitor ∧ i.status ≠ .resolved ∧ i.monitorId = some m := by
  simp [Incident.active, and_assoc]

/-- A worker asks for an incident right after it has recorded its check, for the row that it wrote. -/
theorem opening_of_advance {s : World} {held : Option AlertHold} {phase : Phase} {updated : Monitor}
    {outcome : CheckResult}
    (h : (advance held (s.view (locks phase)) phase).2 = .opening updated outcome now) :
    ∃ monitor row, phase = .recording monitor outcome now ∧ s.monitorRow monitor.id = some row ∧
      UpdateMatches monitor row ∧ updated = (recordCheckOutcome row monitor outcome now).1 := by
  have hwritten := Interleaving.written_of_opening h
  cases phase with
  | recording monitor outcome' now' =>
    simp only [advance] at h
    split at h
    · cases h
    · rename_i row hrow
      have hmatch : UpdateMatches monitor row := by
        by_contra hm
        simp [Interleaving.written, hrow, hm] at hwritten
      simp only [afterRecord, recordCheckOutcome_monitor] at h
      split_ifs at h
      obtain ⟨rfl, rfl, rfl⟩ := Phase.opening.inj h
      exact ⟨monitor, row, rfl, Option.eq_some_of_filter_eq_some hrow, hmatch, rfl⟩
  | _ => exact absurd rfl hwritten

section

variable {organizationOf : ℕ → String} {s t : World} {a : Action}

theorem organizations_step (h : Settled organizationOf s) (hstep : step s a = some t) :
    ∀ row ∈ t.monitors, row.organizationId = organizationOf row.id := by
  intro row' hrow'
  obtain ⟨row, hrow, hchange⟩ := (step_rows hstep).rows row' hrow'
  rw [hchange.id.1, hchange.id.2]
  exact h.organizations row hrow

theorem copies_step (h : Settled organizationOf s) (hstep : step s a = some t) :
    ∀ worker updated outcome now, t.workers worker = .opening updated outcome now →
      updated.organizationId = organizationOf updated.id := by
  intro worker updated outcome now hphase
  cases step_moves hstep with
  | none workers => exact h.copies worker updated outcome now (workers ▸ hphase)
  | begins other phase workers action =>
    rw [workers, Function.update_apply] at hphase
    split at hphase
    · rcases action with ⟨copy, -, rfl⟩ | ⟨monitor, outcome', now', -, rfl⟩ | ⟨-, rfl⟩
      · cases hphase
      · cases hphase
      · cases hphase
    · exact h.copies worker updated outcome now hphase
  | advances other held _ _ db next result world =>
    subst world
    by_cases hworker : worker = other
    · subst hworker
      have hnext : next = .opening updated outcome now := by
        rw [← hphase]
        exact (Function.update_self worker next s.workers).symm
      have hadvance : (advance held (s.view (locks (s.workers worker))) (s.workers worker)).2 =
          .opening updated outcome now := by
        rw [result, hnext]
      obtain ⟨monitor, row, -, hrow, -, rfl⟩ := opening_of_advance hadvance
      rw [recordCheckOutcome_organizationId, recordCheckOutcome_id]
      exact h.organizations row (monitorRow_mem hrow).1
    · have hsame : ((s.store db).setPhase other next).workers worker = s.workers worker :=
        Function.update_of_ne hworker ..
      rw [hsame] at hphase
      exact h.copies worker updated outcome now hphase

theorem linked_step (hinv : Inv s) (h : Settled organizationOf s) (hstep : step s a = some t) :
    ∀ i ∈ t.db.incidents, ∀ m, i.monitorId = some m → i.organizationId = organizationOf m := by
  intro j hj m hlink
  rcases incident_before hinv.ids hstep hj with ⟨i, hi, hflags⟩ | ⟨-, horigin⟩
  · rcases hflags.monitorId with hsame | hnone
    · rw [hflags.organizationId]
      exact h.linked i hi m (hsame ▸ hlink)
    · rw [hnone] at hlink
      cases hlink
  · rcases horigin with ⟨updated, current, hopened⟩ | hcreated
    · obtain ⟨worker, held, outcome, now, -, hphase⟩ := hopened.step
      obtain rfl := Option.some.inj (hopened.monitorId.symm.trans hlink)
      rw [hopened.organizationId]
      exact h.copies worker updated outcome now hphase
    · rw [hcreated.monitorId] at hlink
      cases hlink

theorem shadowBridgeId_of_change {row row' : Monitor} (h : RowChange s a row row')
    (hlive : row.shadowBridgeId = none) : row'.shadowBridgeId = none := by
  cases h with
  | same eq => exact eq ▸ hlive
  | recorded worker held monitor outcome now _ _ _ eq =>
    subst eq
    unfold recordCheckOutcome
    split
    · exact hlive
    · exact hlive
  | paused paused _ eq => exact eq ▸ hlive
  | edited name failureWindowSeconds _ eq => exact eq ▸ hlive
  | ended mode _ _ _ _ _ _ _ eq =>
    subst eq
    cases mode with
    | cutover => rfl
    | abandon => rfl

theorem live_step (h : Settled organizationOf s) (hstep : step s a = some t) :
    ∀ row ∈ t.monitors, row.id ∈ t.ended → row.shadowBridgeId = none := by
  intro row' hrow' hended
  obtain ⟨row, hrow, hchange⟩ := (step_rows hstep).rows row' hrow'
  have hkept (hbefore : row'.id ∈ s.ended) : row'.shadowBridgeId = none :=
    shadowBridgeId_of_change hchange (h.live row hrow (hchange.id.1 ▸ hbefore))
  cases step_end hstep with
  | none _ ended _ _ => exact hkept (ended ▸ hended)
  | toggled _ _ _ _ ended _ => exact hkept (ended ▸ hended)
  | locked _ _ _ _ ended _ _ => exact hkept (ended ▸ hended)
  | found _ _ _ _ _ ended _ _ _ => exact hkept (ended ▸ hended)
  | rolledBack _ ended _ _ => exact hkept (ended ▸ hended)
  | committed mode _ fleet found now _ _ ended _ _ monitors _ =>
    rw [monitors] at hrow'
    obtain ⟨r, hr, rfl⟩ := List.mem_map.mp hrow'
    by_cases hmem : fleet.contains r.id = true
    · rw [if_pos hmem]
      cases mode with
      | cutover => rfl
      | abandon => rfl
    · rw [if_neg hmem] at hended ⊢
      rw [ended] at hended
      rcases List.mem_append.mp hended with hfleet | hended
      · exact absurd (by simpa using hfleet) hmem
      · exact h.live r hr hended

/-- An incident that a step leaves open on a monitor was open on it before, or was opened for it. -/
theorem active_before (hinv : Inv s) (hstep : step s a = some t) {j : Incident}
    (hj : j ∈ t.db.incidents) {m : ℕ} (hactive : j.active m = true) :
    (∃ i ∈ s.db.incidents, SameFlags i j ∧ i.active m = true) ∨
      ∃ updated current, Opened s a j updated current ∧ updated.id = m := by
  rcases incident_before hinv.ids hstep hj with ⟨i, hi, hflags⟩ | ⟨-, horigin⟩
  · exact .inl ⟨i, hi, hflags, hflags.active hactive⟩
  · obtain ⟨hsource, -, hlink⟩ := active_spec.mp hactive
    rcases horigin with ⟨updated, current, hopened⟩ | hcreated
    · exact .inr ⟨updated, current, hopened, Option.some.inj (hopened.monitorId.symm.trans hlink)⟩
    · rw [hcreated.source] at hsource
      cases hsource

theorem closed_step (hinv : Inv s) (h : Settled organizationOf s) (hstep : step s a = some t) :
    ∀ i ∈ t.db.incidents, ∀ m ∈ t.ended, i.active m = true → i.shadow = false := by
  intro j hj m hm hactive
  have hkept (hbefore : m ∈ s.ended) : j.shadow = false := by
    rcases active_before hinv hstep hj hactive with ⟨i, hi, hflags, hi'⟩ |
      ⟨updated, current, hopened, rfl⟩
    · exact hflags.shadow.trans (h.closed i hi m hbefore hi')
    · obtain ⟨hmem, hid⟩ := monitorRow_mem hopened.found
      rw [hopened.shadow, h.live current hmem (hid.symm ▸ hbefore)]
      rfl
  cases step_end hstep with
  | none _ ended _ _ => exact hkept (ended ▸ hm)
  | toggled _ _ _ _ ended _ => exact hkept (ended ▸ hm)
  | locked _ _ _ _ ended _ _ => exact hkept (ended ▸ hm)
  | found _ _ _ _ _ ended _ _ _ => exact hkept (ended ▸ hm)
  | rolledBack _ ended _ _ => exact hkept (ended ▸ hm)
  | committed mode organizationId fleet found now before _ ended _ db _ _ =>
    rw [ended] at hm
    rcases List.mem_append.mp hm with hfleet | hm
    · -- what was open under the flag was found, and is closed now
      rw [db] at hj
      obtain ⟨i, hi, hquiet⟩ := (closeAllShadow_quietly hinv.ids mode now found).1.before hj
      by_contra hshadow
      have hishadow : i.shadow = true := by simpa [hquiet.shadow] using hshadow
      have hfound := (h.found _ found before rfl).all i hi hishadow m hfleet
        (hquiet.toSameFlags.active hactive)
      have hresolved := closeAllShadow_closes hinv.ids hj (hquiet.id.symm ▸ hfound)
      exact (active_spec.mp hactive).2.1 hresolved
    · exact hkept hm

theorem paused_step (h : Settled organizationOf s) (hstep : step s a = some t) :
    ∀ row ∈ t.monitors, row.id ∈ t.silenced → row.paused = true := by
  intro row' hrow' hsilenced
  obtain ⟨row, hrow, hchange⟩ := (step_rows hstep).rows row' hrow'
  have hid := hchange.id.1
  have hkept (hbefore : row'.id ∈ s.silenced) (haction : ∀ p, a ≠ .setPaused row.id p) :
      row'.paused = true := by
    have hold := h.paused row hrow (hid ▸ hbefore)
    cases hchange with
    | same eq => exact eq ▸ hold
    | recorded worker held monitor outcome now _ _ _ eq =>
      rw [eq, recordCheckOutcome_paused]
      exact hold
    | paused paused action _ => exact absurd action (haction paused)
    | edited name failureWindowSeconds _ eq => exact eq ▸ hold
    | ended mode _ _ _ _ _ _ _ eq =>
      subst eq
      cases mode with
      | cutover => exact hold
      | abandon => rfl
  cases step_end hstep with
  | none _ _ silenced action => exact hkept (silenced ▸ hsilenced) fun p => action row.id p
  | toggled monitorId paused action _ _ silenced =>
    subst action
    rw [silenced] at hsilenced
    cases hchange with
    | same eq =>
      subst eq
      refine h.paused _ hrow ?_
      cases paused with
      | true => exact hsilenced
      | false => exact List.mem_of_mem_filter hsilenced
    | paused p action eq =>
      obtain ⟨-, rfl⟩ := Action.setPaused.inj action
      subst eq
      cases paused with
      | true => rfl
      | false =>
        have hne := (List.mem_filter.mp hsilenced).2
        obtain ⟨hmonitor, -⟩ := Action.setPaused.inj action
        simp [hmonitor, setMonitorPaused] at hne
    | recorded _ _ _ _ _ action => cases action
    | edited _ _ action => cases action
    | ended _ _ _ _ _ action => cases action
  | locked _ _ _ _ _ silenced action | found _ _ _ _ _ _ silenced _ action
  | rolledBack _ _ silenced action =>
    exact hkept (silenced ▸ hsilenced) fun p hp => by rw [action] at hp; cases hp
  | committed mode _ fleet found now _ _ _ silenced _ monitors action =>
    by_cases hbefore : row'.id ∈ s.silenced
    · exact hkept hbefore fun p hp => by rw [action] at hp; cases hp
    · rw [silenced] at hsilenced
      split at hsilenced
      · rename_i hmode
        have hfleet : row'.id ∈ fleet := by
          rcases List.mem_append.mp hsilenced with hfleet | hold
          · exact hfleet
          · exact absurd hold hbefore
        rw [monitors] at hrow'
        obtain ⟨r, hr, hrr⟩ := List.mem_map.mp hrow'
        split at hrr
        · rw [← hrr, hmode]
          rfl
        · rename_i hmem
          rw [← hrr] at hfleet
          exact absurd (by simpa using hfleet) hmem
      · exact absurd hsilenced hbefore

theorem fleet_step (h : Settled organizationOf s) (hstep : step s a = some t) :
    ∀ ending, t.ending = some ending → ∀ m ∈ ending.fleet,
      m ∉ t.ended ∧ organizationOf m = ending.organizationId := by
  intro ending hending m hm
  cases step_end hstep with
  | none same ended _ _ => exact ended ▸ h.fleet ending (same ▸ hending) m hm
  | toggled _ _ _ same ended _ => exact ended ▸ h.fleet ending (same ▸ hending) m hm
  | locked mode organizationId bridgeId locked ended _ _ =>
    obtain rfl := Option.some.inj (locked.symm.trans hending)
    obtain ⟨row, hrow, rfl⟩ := List.mem_map.mp hm
    obtain ⟨hmem, hshadow⟩ := List.mem_filter.mp hrow
    simp only [Bool.and_eq_true, decide_eq_true_eq] at hshadow
    refine ⟨fun hended => ?_, (h.organizations row hmem).symm.trans hshadow.2⟩
    rw [h.live row hmem (ended ▸ hended)] at hshadow
    cases hshadow.1
  | found mode organizationId fleet before found ended _ _ _ =>
    obtain rfl := Option.some.inj (found.symm.trans hending)
    exact ended ▸ h.fleet _ before m hm
  | committed _ _ _ _ _ _ none _ _ _ _ _ =>
    rw [none] at hending
    cases hending
  | rolledBack none _ _ _ =>
    rw [none] at hending
    cases hending

theorem mem_openShadow {db : Db} {organizationId : String} {fleet : List ℕ} {id : ℕ} :
    id ∈ openShadow db organizationId fleet ↔ ∃ i ∈ db.incidents, i.id = id ∧ i.shadow = true ∧
      i.organizationId = organizationId ∧ ∃ m ∈ fleet, i.active m = true := by
  constructor
  · intro h
    obtain ⟨i, hi, hid⟩ := List.mem_map.mp h
    obtain ⟨hmem, hopen⟩ := List.mem_filter.mp hi
    simp only [Bool.and_eq_true, decide_eq_true_eq, Option.any_eq_true] at hopen
    obtain ⟨⟨⟨⟨⟨m, hlink, hm⟩, horg⟩, hshadow⟩, hsource⟩, hstatus⟩ := hopen
    exact ⟨i, hmem, hid, hshadow, horg, m, by simpa using hm,
      active_spec.mpr ⟨hsource, hstatus, hlink⟩⟩
  · rintro ⟨i, hi, hid, hshadow, horg, m, hm, hactive⟩
    obtain ⟨hsource, hstatus, hlink⟩ := active_spec.mp hactive
    refine List.mem_map.mpr ⟨i, List.mem_filter.mpr ⟨hi, ?_⟩, hid⟩
    simp [hlink, hm, horg, hshadow, hsource, hstatus]

theorem FoundAll.step (hinv : Inv s) (hstep : step s a = some t) {ending : Ending}
    (hending : s.ending = some ending) {found : List ℕ} (h : FoundAll s.db ending.fleet found) :
    FoundAll t.db ending.fleet found := by
  refine ⟨fun j hj hshadow m hm hactive => ?_, fun j hj hmem => ?_, fun id hid => ?_⟩
  · rcases active_before hinv hstep hj hactive with ⟨i, hi, hflags, hi'⟩ |
      ⟨updated, current, hopened, rfl⟩
    · rw [hflags.id]
      exact h.all i hi (hflags.shadow ▸ hshadow) m hm hi'
    · -- nobody opens an incident for a row that the transaction has locked
      have hfree := hopened.free
      simp [World.free, hending, hm] at hfree
  · rcases incident_before hinv.ids hstep hj with ⟨i, hi, hflags⟩ | ⟨hnew, -⟩
    · exact hflags.shadow.trans (h.only i hi (hflags.id ▸ hmem))
    · have hbelow := h.below j.id hmem
      omega
  · exact lt_of_lt_of_le (h.below id hid) (nextId_mono hinv.ids hstep)

theorem found_step (hinv : Inv s) (h : Settled organizationOf s) (hstep : step s a = some t) :
    ∀ ending found, t.ending = some ending → ending.found = some found →
      FoundAll t.db ending.fleet found := by
  intro ending found hending hfound
  have hkept (hbefore : s.ending = some ending) : FoundAll t.db ending.fleet found :=
    (h.found ending found hbefore hfound).step hinv hstep hbefore
  cases step_end hstep with
  | none same _ _ _ => exact hkept (same ▸ hending)
  | toggled _ _ _ same _ _ => exact hkept (same ▸ hending)
  | locked mode organizationId bridgeId locked _ _ _ =>
    obtain rfl := Option.some.inj (locked.symm.trans hending)
    cases hfound
  | found mode organizationId fleet before same _ _ db _ =>
    obtain rfl := Option.some.inj (same.symm.trans hending)
    cases hfound
    rw [db]
    refine ⟨fun i hi hshadow m hm hactive => ?_, fun i hi hmem => ?_, fun id hid => ?_⟩
    · have horg : i.organizationId = organizationId :=
        (h.linked i hi m (active_spec.mp hactive).2.2).trans (h.fleet _ before m hm).2
      exact mem_openShadow.mpr ⟨i, hi, rfl, hshadow, horg, m, hm, hactive⟩
    · obtain ⟨other, hother, hid, hshadow, -⟩ := mem_openShadow.mp hmem
      obtain rfl := List.inj_on_of_nodup_map hinv.ids.unique hother hi hid
      exact hshadow
    · obtain ⟨i, hi, rfl, -⟩ := mem_openShadow.mp hid
      exact hinv.ids.below i hi
  | committed _ _ _ _ _ _ none _ _ _ _ _ =>
    rw [none] at hending
    cases hending
  | rolledBack none _ _ _ =>
    rw [none] at hending
    cases hending

theorem Settled.step (hinv : Inv s) (h : Settled organizationOf s)
    (hstep : Shadow.step s a = some t) : Settled organizationOf t where
  keys := h.keys.sublist (step_rows hstep).ids
  organizations := organizations_step h hstep
  copies := copies_step h hstep
  linked := linked_step hinv h hstep
  live := live_step h hstep
  closed := closed_step hinv h hstep
  paused := paused_step h hstep
  fleet := fleet_step h hstep
  found := found_step hinv h hstep

end

theorem Settled.init (organizationOf : ℕ → String) (monitors : List Monitor) :
    Settled organizationOf (machine organizationOf monitors).init where
  keys := by
    simp only [machine]
    split
    · rename_i hnodup
      exact hnodup.sublist (List.filter_sublist.map _)
    · exact List.nodup_nil
  organizations row hrow := by
    simp only [machine] at hrow
    split at hrow
    · simpa using (List.mem_filter.mp hrow).2
    · cases hrow
  copies _ _ _ _ hphase := by cases hphase
  linked _ hi := by cases hi
  live _ _ hended := by cases hended
  closed _ hi := by cases hi
  paused _ _ hsilenced := by cases hsilenced
  fleet _ hending := by cases hending
  found _ _ hending := by cases hending

theorem settled_of_reachable {organizationOf : ℕ → String} {monitors : List Monitor} {s : World}
    (h : (machine organizationOf monitors).Reachable s) : Settled organizationOf s :=
  h.induct (Settled.init organizationOf monitors) fun _ _ _ hr hs =>
    hs.step (inv_of_reachable hr)

/-! ### What holds in every run -/

/-- No unresolved automatic incident of shadow mode is left on a monitor whose shadow mode ended,
and none of shadow mode was ever claimed. -/
structure ShadowOver (s : World) : Prop where
  closed : ∀ i ∈ s.db.incidents, ∀ m ∈ s.ended, i.active m = true → i.shadow = false
  unnotified : ∀ i ∈ s.db.incidents, i.shadow = true → i.notifiedAt = none

/-- The step changes the shadow flag of no incident, and loses none. -/
def KeepsFlags (s : World) (_ : Action) (t : World) : Prop :=
  ∀ i ∈ s.db.incidents, ∃ j ∈ t.db.incidents, j.id = i.id ∧ j.shadow = i.shadow ∧
    ∀ k ∈ t.db.incidents, k.id = i.id → k = j

/-- The step opens no automatic incident on a monitor that was abandoned and not resumed since. -/
def OpensOnResumed (s : World) (_ : Action) (t : World) : Prop :=
  ∀ j ∈ t.db.incidents, (∀ i ∈ s.db.incidents, i.id ≠ j.id) → ∀ m, j.monitorId = some m →
    m ∉ s.silenced

theorem shadowOver_of_reachable {organizationOf : ℕ → String} {monitors : List Monitor} {s : World}
    (h : (machine organizationOf monitors).Reachable s) : ShadowOver s :=
  ⟨(settled_of_reachable h).closed, (inv_of_reachable h).unnotified⟩

theorem keepsFlags_step {s t : World} {a : Action} (hinv : Inv s) (hstep : step s a = some t) :
    KeepsFlags s a t := by
  intro i hi
  obtain ⟨j, hj, hflags⟩ := flags_step hinv.ids hstep hi
  refine ⟨j, hj, hflags.id, hflags.shadow, fun k hk hkid => ?_⟩
  exact List.inj_on_of_nodup_map (ids_step hinv.ids hstep).unique hk hj (hkid.trans hflags.id.symm)

theorem opensOnResumed_step {organizationOf : ℕ → String} {s t : World} {a : Action}
    (hinv : Inv s) (h : Settled organizationOf s) (hstep : step s a = some t) :
    OpensOnResumed s a t := by
  intro j hj hnew m hlink hsilenced
  rcases incident_before hinv.ids hstep hj with ⟨i, hi, hflags⟩ | ⟨-, horigin⟩
  · exact hnew i hi hflags.id.symm
  · rcases horigin with ⟨updated, current, hopened⟩ | hcreated
    · obtain rfl := Option.some.inj (hopened.monitorId.symm.trans hlink)
      obtain ⟨hmem, hid⟩ := monitorRow_mem hopened.found
      have hpaused := h.paused current hmem (hid.symm ▸ hsilenced)
      rw [hopened.paused] at hpaused
      cases hpaused
    · rw [hcreated.monitorId] at hlink
      cases hlink

end Vigil.Bridge.EndShadow
