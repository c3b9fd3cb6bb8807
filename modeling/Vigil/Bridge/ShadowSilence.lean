import Vigil.Bridge.ShadowSteps

/-! Whether an incident of shadow mode is ever announced.  No automatic path records an intent for
one, whatever the interleaving; the paths of an operator do not ask, and record one whenever the
operator changes its status, posts an update that is not internal, or changes its severity. -/

namespace Vigil.Bridge.ShadowSilence

open Monitors StatusController Record Outcome Incidents Store Shadow ShadowSteps Lib
open Lifecycle hiding World Action Operation Txn read write observe step machine Inv

/-! ### Where an intent comes from -/

/-- What an operator says about an incident: the change goes through, and it is told to others. -/
def Announces : Action → Incident → Prop
  | .changeStatus actor incidentId seen next _ _, i =>
    i.id = incidentId ∧ i.organizationId = actor.organizationId ∧ i.status = seen ∧
      canTransition seen next = true
  | .postUpdate actor incidentId _ internal, i =>
    i.id = incidentId ∧ i.organizationId = actor.organizationId ∧ i.status ≠ .resolved ∧
      internal = false
  | .changeSeverity actor seen severity, i =>
    i.id = seen.id ∧ i.organizationId = actor.organizationId ∧ i.status ≠ .resolved ∧
      seen.status ≠ .resolved ∧ seen.severity ≠ severity
  | _, _ => False

inductive Owed (s : World) (a : Action) (c : CauseKey) : Prop where
  | claimed (incidentId : ℕ) (claims : Claims s a incidentId) (cause : c = .opened incidentId)
  | closed (i : Incident) (mem : i ∈ s.db.incidents) (notified : i.notifiedAt ≠ none)
      (cause : c = .resolved i.id)
  | created (incident : Incident) (created : Created a incident)
      (cause : c = .opened s.db.nextId)
  | announced (i : Incident) (mem : i ∈ s.db.incidents) (announces : Announces a i)
      (cause : c.incidentId = i.id)

theorem findIncident_spec {db : Db} {organizationId : String} {id : ℕ} {found : Incident}
    (h : findIncident db organizationId id = some found) :
    found ∈ db.incidents ∧ found.id = id ∧ found.organizationId = organizationId := by
  obtain ⟨hmem, hid, horg⟩ := find_spec h
  exact ⟨hmem, hid, by simpa using horg⟩

variable {s t : World} {a : Action}

theorem advance_intents (hdb : Ids s.db) {worker : ℕ} {held : Option AlertHold} {c : CauseKey}
    (h : c ∈ (advance held (s.view (locks (s.workers worker))) (s.workers worker)).1.intents) :
    c ∈ s.db.intents ∨ Owed s (.advance worker held) c := by
  have hview : Ids (s.view (locks (s.workers worker))) := view_ids hdb
  cases hphase : s.workers worker with
  | recording monitor outcome now | finding updated now =>
    simp only [hphase, advance] at h
    split at h
    · exact .inl h
    · exact .inl h
  | opening updated outcome now =>
    rw [hphase] at h
    simp only [advance] at h
    split at h
    · rename_i db created heq
      obtain ⟨_, _, _, _, _, _, _, _, _, _, _, message, hdb'⟩ :=
        openMonitorIncident_some (congrArg Prod.snd heq)
      rw [heq] at hdb'
      obtain rfl : db = _ := hdb'
      exact .inl h
    · rename_i db heq
      have hsame := openMonitorIncident_none (congrArg Prod.snd heq)
      rw [heq] at hsame
      obtain rfl : db = _ := hsame
      exact .inl h
  | lines incident rest now =>
    rw [hphase] at h
    cases rest with
    | nil => exact .inl h
    | cons line rest => exact .inl h
  | deciding incident now =>
    simp only [hphase, advance] at h
    split at h
    · exact .inl h
    · split at h
      · exact .inl h
      · exact .inl h
  | claiming incident now =>
    rw [hphase] at h hview
    obtain ⟨-, hintents⟩ := claimOpenedNotifications_claims hview incident.id now
    rcases hintents c h with hcause | hc
    · exact .inr (.claimed incident.id ⟨worker, held, incident, now, rfl, hphase, rfl⟩ hcause)
    · exact .inl hc
  | resolving updated now =>
    rw [hphase] at h hview
    rcases closeAll_intents hview h with hc | ⟨i, hi, hnotified, hcause⟩
    · exact .inl hc
    · exact .inr (.closed i hi hnotified hcause)
  | holding incident hold =>
    rw [hphase] at h
    exact .inl h
  | idle =>
    rw [hphase] at h
    exact .inl h
  | probing monitor =>
    rw [hphase] at h
    exact .inl h
  | finished =>
    rw [hphase] at h
    exact .inl h

theorem operates_intents (hdb : Ids s.db) (h : Operates s a db) {c : CauseKey}
    (hc : c ∈ db.intents) : c ∈ s.db.intents ∨ Owed s a c := by
  cases h with
  | deleteIncidents actor monitorId monitor now =>
    rcases closeAll_intents hdb hc with hc | ⟨i, hi, hnotified, hcause⟩
    · exact .inl hc
    · exact .inr (.closed i hi hnotified hcause)
  | createIncident actor title severity message =>
    rcases mem_recordDispatchIntent.mp hc with hcause | hc
    · exact .inr (.created (createIncident s.db actor title severity message).2
        ⟨⟨actor, title, severity, message, rfl⟩, rfl, rfl, rfl⟩ hcause)
    · exact .inl hc
  | acknowledge hchanged =>
    rw [(acknowledgeIncident_quietly hdb hchanged).2] at hc
    exact .inl hc
  | changeStatus hfound hchanged =>
    obtain ⟨-, hcan, found, hmem, hid, hseen, cause, hcause, hintents⟩ :=
      changeIncidentStatus_quietly hdb hchanged
    rcases (hintents c).mp hc with rfl | hc
    · obtain ⟨owned, howned⟩ := Option.isSome_iff_exists.mp hfound
      obtain ⟨hmem', hid', horg⟩ := findIncident_spec howned
      obtain rfl := List.inj_on_of_nodup_map hdb.unique hmem hmem' (hid.trans hid'.symm)
      exact .inr (.announced found hmem ⟨hid, horg, hseen, hcan⟩ hcause)
    · exact .inl hc
  | postUpdate message internal hfind hopen =>
    obtain ⟨hmem, hid, horg⟩ := findIncident_spec hfind
    rcases ((postIncidentUpdate_quietly s.db _ _ message internal).2 c).mp hc with
      ⟨hpublic, rfl⟩ | hc
    · exact .inr (.announced _ hmem ⟨hid, horg, hopen, hpublic⟩ rfl)
    · exact .inl hc
  | changeSeverity hseen hchanged =>
    obtain ⟨-, found, hmem, hid, horg, hopen, hintents⟩ :=
      changeIncidentSeverity_quietly hdb hchanged
    rw [not_or] at hseen
    rcases (hintents c).mp hc with rfl | hc
    · exact .inr (.announced found hmem ⟨hid, horg, hopen, hseen.1, hseen.2⟩ rfl)
    · exact .inl hc

theorem step_intents (hdb : Ids s.db) (h : step s a = some t) {c : CauseKey}
    (hc : c ∈ t.db.intents) : c ∈ s.db.intents ∨ Owed s a c := by
  cases steps_of_step h with
  | advance held hfree => exact advance_intents hdb hc
  | operate hoperates => exact operates_intents hdb hoperates hc
  | commit now hending =>
    rw [(closeAllShadow_quietly hdb _ now _).2] at hc
    exact .inl hc
  | _ => exact .inl hc

theorem recorded_of_announces (hdb : Ids s.db) (h : step s a = some t) {i : Incident}
    (hannounces : Announces a i) : ∃ c ∈ t.db.intents, c.incidentId = i.id := by
  cases steps_of_step h with
  | operate hoperates =>
    cases hoperates with
    | changeStatus _ hchanged =>
      obtain ⟨-, -, found, -, hid, -, cause, hcause, hintents⟩ :=
        changeIncidentStatus_quietly hdb hchanged
      exact ⟨cause, (hintents cause).mpr (.inl rfl), hcause.trans (hid.trans hannounces.1.symm)⟩
    | postUpdate message internal hfind =>
      obtain ⟨hid, -, -, hpublic⟩ := hannounces
      exact ⟨_, ((postIncidentUpdate_quietly s.db _ _ message internal).2 _).mpr
        (.inl ⟨hpublic, rfl⟩), (findIncident_spec hfind).2.1.trans hid.symm⟩
    | changeSeverity _ hchanged =>
      obtain ⟨-, found, -, hid, -, -, hintents⟩ := changeIncidentSeverity_quietly hdb hchanged
      exact ⟨_, (hintents _).mpr (.inl rfl), hid.trans hannounces.1.symm⟩
    | _ => exact hannounces.elim
  | _ => exact hannounces.elim

/-! ### The invariant -/

/-- The tables hold the incident that a worker has a copy of, with the same flag. -/
def Known (db : Db) (incident : Incident) : Prop :=
  ∃ i ∈ db.incidents, i.id = incident.id ∧ i.shadow = incident.shadow

/-- A worker pages for no incident of shadow mode. -/
def PhaseOk (db : Db) : Phase → Prop
  | .lines incident _ _ => Known db incident
  | .deciding incident _ => Known db incident
  | .holding incident _ => Known db incident ∧ incident.shadow = false
  | .claiming incident _ => Known db incident ∧ incident.shadow = false
  | _ => True

structure Inv (s : World) : Prop where
  ids : Ids s.db
  causes : ∀ c ∈ s.db.intents, c.incidentId < s.db.nextId
  unnotified : ∀ i ∈ s.db.incidents, i.shadow = true → i.notifiedAt = none
  workers : ∀ worker, PhaseOk s.db (s.workers worker)

theorem ids_step (hdb : Ids s.db) (h : step s a = some t) : Ids t.db := by
  cases step_effect hdb h with
  | inserted incident rows id nextId _ _ =>
    refine ⟨fun i hi => ?_, ?_⟩
    · rw [rows] at hi
      rw [nextId]
      rcases List.mem_cons.mp hi with rfl | hi
      · exact id ▸ Nat.lt_succ_self _
      · exact Nat.lt_succ_of_lt (hdb.below i hi)
    · rw [rows, List.map_cons]
      refine List.nodup_cons.mpr ⟨fun hmem => ?_, hdb.unique⟩
      obtain ⟨i, hi, hii⟩ := List.mem_map.mp hmem
      exact absurd (hii.trans id) (ne_of_lt (hdb.below i hi))
  | claimed incidentId _ rows => exact hdb.rows rows fun _ _ hij => hij.1.id
  | kept rows => exact hdb.rows rows fun _ _ hij => hij.id

theorem nextId_mono (hdb : Ids s.db) (h : step s a = some t) : s.db.nextId ≤ t.db.nextId := by
  cases step_effect hdb h with
  | inserted _ _ _ nextId _ _ => exact nextId ▸ Nat.le_succ _
  | claimed _ _ rows => exact rows.nextId.ge
  | kept rows => exact rows.nextId.ge

/-- Every incident is still there after a step, under its flag. -/
theorem flags_step (hdb : Ids s.db) (h : step s a = some t) {i : Incident}
    (hi : i ∈ s.db.incidents) : ∃ j ∈ t.db.incidents, SameFlags i j := by
  cases step_effect hdb h with
  | inserted incident rows _ _ _ _ => exact ⟨i, rows ▸ List.mem_cons_of_mem _ hi, .refl i⟩
  | claimed _ _ rows =>
    obtain ⟨j, hj, hij⟩ := rows.after hi
    exact ⟨j, hj, hij.1⟩
  | kept rows =>
    obtain ⟨j, hj, hij⟩ := rows.after hi
    exact ⟨j, hj, hij.toSameFlags⟩

theorem Known.step {incident : Incident} (h : Known s.db incident) (hdb : Ids s.db)
    (hstep : step s a = some t) : Known t.db incident := by
  obtain ⟨i, hi, hid, hshadow⟩ := h
  obtain ⟨j, hj, hij⟩ := flags_step hdb hstep hi
  exact ⟨j, hj, hij.id.trans hid, hij.shadow.trans hshadow⟩

theorem PhaseOk.step {phase : Phase} (h : PhaseOk s.db phase) (hdb : Ids s.db)
    (hstep : step s a = some t) : PhaseOk t.db phase := by
  cases phase with
  | lines incident rest now => exact Known.step h hdb hstep
  | deciding incident now => exact Known.step h hdb hstep
  | holding incident hold => exact ⟨Known.step h.1 hdb hstep, h.2⟩
  | claiming incident now => exact ⟨Known.step h.1 hdb hstep, h.2⟩
  | _ => trivial

/-- The phase that a worker comes to, in the tables as its transaction leaves them. -/
theorem advance_phaseOk {held : Option AlertHold} {db : Db} {phase : Phase} (h : PhaseOk db phase) :
    PhaseOk (advance held db phase).1 (advance held db phase).2 := by
  cases phase with
  | recording monitor outcome now =>
    simp only [advance]
    split
    · trivial
    · simp only [afterRecord]
      split_ifs
      all_goals trivial
  | opening updated outcome now =>
    simp only [advance]
    split
    · rename_i db' created heq
      obtain ⟨_, -, -, -, -, -, -, -, -, -, -, message, hdb'⟩ :=
        openMonitorIncident_some (congrArg Prod.snd heq)
      rw [heq] at hdb'
      obtain rfl : db' = _ := hdb'
      exact ⟨created, List.mem_cons_self, rfl, rfl⟩
    · trivial
  | lines incident rest now =>
    cases rest with
    | nil => exact h
    | cons line rest => exact h
  | finding updated now =>
    simp only [advance]
    split
    · rename_i incident hfound
      exact ⟨incident, (findUnhandledAutoIncident_some hfound).1, rfl, rfl⟩
    · trivial
  | deciding incident now =>
    simp only [advance]
    split
    · trivial
    · rename_i hshadow
      have hquiet : incident.shadow = false := by simpa using hshadow
      split
      · exact ⟨h, hquiet⟩
      · exact ⟨h, hquiet⟩
  | _ => trivial

theorem workers_step (hworkers : ∀ worker, PhaseOk s.db (s.workers worker)) (hdb : Ids s.db)
    (hstep : step s a = some t) (worker : ℕ) : PhaseOk t.db (t.workers worker) := by
  have hkept : PhaseOk t.db (s.workers worker) := (hworkers worker).step hdb hstep
  cases step_moves hstep with
  | none workers => exact workers ▸ hkept
  | begins other phase workers action =>
    rw [workers, Function.update_apply]
    split
    · rcases action with ⟨copy, -, rfl⟩ | ⟨monitor, outcome, now, -, rfl⟩ | ⟨-, rfl⟩
      · trivial
      · trivial
      · trivial
    · exact hkept
  | advances other held _ _ db next result world =>
    subst world
    by_cases hworker : worker = other
    · subst hworker
      have hbefore : PhaseOk (s.view (locks (s.workers worker))) (s.workers worker) :=
        hworkers worker
      have hafter := @advance_phaseOk held _ _ hbefore
      rw [result] at hafter
      have hphase : ((s.store db).setPhase worker next).workers worker = next :=
        Function.update_self ..
      rw [hphase]
      exact hafter
    · have hphase : ((s.store db).setPhase other next).workers worker = s.workers worker :=
        Function.update_of_ne hworker ..
      rw [hphase]
      exact hkept

/-- A worker that claims has seen that its incident is none of shadow mode. -/
theorem Inv.claims (h : Inv s) {incidentId : ℕ} (hclaims : Claims s a incidentId) :
    ∃ i ∈ s.db.incidents, i.id = incidentId ∧ i.shadow = false := by
  obtain ⟨worker, held, incident, now, -, hphase, rfl⟩ := hclaims
  have hworker := h.workers worker
  rw [hphase] at hworker
  obtain ⟨⟨i, hi, hid, hshadow⟩, hlive⟩ := hworker
  exact ⟨i, hi, hid, hshadow.trans hlive⟩

theorem unnotified_step (h : Inv s) (hstep : step s a = some t) :
    ∀ i ∈ t.db.incidents, i.shadow = true → i.notifiedAt = none := by
  intro j hj hshadow
  cases step_effect h.ids hstep with
  | inserted incident rows _ _ notifiedAt _ =>
    rw [rows] at hj
    rcases List.mem_cons.mp hj with rfl | hj
    · exact notifiedAt
    · exact h.unnotified j hj hshadow
  | claimed incidentId claims rows =>
    obtain ⟨i, hi, hflags, hnotified⟩ := rows.before hj
    have hold : i.notifiedAt = none := h.unnotified i hi (hflags.shadow ▸ hshadow)
    rcases hnotified with hsame | hid
    · exact hsame.trans hold
    · obtain ⟨known, hknown, hkid, hlive⟩ := h.claims claims
      obtain rfl := List.inj_on_of_nodup_map h.ids.unique hi hknown (hid.trans hkid.symm)
      rw [hflags.shadow, hlive] at hshadow
      cases hshadow
  | kept rows =>
    obtain ⟨i, hi, hquiet⟩ := rows.before hj
    exact hquiet.notifiedAt.trans (h.unnotified i hi (hquiet.shadow ▸ hshadow))

theorem Inv.step (h : Inv s) (hstep : Shadow.step s a = some t) : Inv t where
  ids := ids_step h.ids hstep
  causes := by
    intro c hc
    have hmono := nextId_mono h.ids hstep
    rcases step_intents h.ids hstep hc with hold | howed
    · exact lt_of_lt_of_le (h.causes c hold) hmono
    · cases howed with
      | claimed incidentId claims cause =>
        obtain ⟨i, hi, hid, -⟩ := h.claims claims
        have hbelow := h.ids.below i hi
        rw [cause, CauseKey.incidentId]
        omega
      | closed i mem _ cause =>
        have hbelow := h.ids.below i mem
        rw [cause, CauseKey.incidentId]
        omega
      | created incident created cause =>
        obtain ⟨actor, title, severity, message, rfl⟩ := created.step
        obtain rfl := Option.some.inj hstep
        simp [cause, CauseKey.incidentId, createIncident, Db.addEvent]
      | announced i mem _ cause =>
        have hbelow := h.ids.below i mem
        omega
  unnotified := unnotified_step h hstep
  workers := workers_step h.workers h.ids hstep

theorem Inv.init (organizationOf : ℕ → String) (monitors : List Monitor) :
    Inv (machine organizationOf monitors).init where
  ids := ⟨fun _ hi => (by cases hi), List.nodup_nil⟩
  causes _ hc := by cases hc
  unnotified _ hi := by cases hi
  workers _ := trivial

theorem inv_of_reachable {organizationOf : ℕ → String} {monitors : List Monitor}
    (h : (machine organizationOf monitors).Reachable s) : Inv s :=
  h.induct (Inv.init organizationOf monitors) fun _ _ _ _ => Inv.step

/-! ### Silence -/

/-- No intent was recorded for an incident of shadow mode. -/
def Silent (s : World) : Prop :=
  ∀ i ∈ s.db.incidents, i.shadow = true → ∀ c ∈ s.db.intents, c.incidentId ≠ i.id

/-- No operator announces anything about an incident of shadow mode. -/
def QuietOnShadow (s : World) (a : Action) : Prop :=
  ∀ i ∈ s.db.incidents, Announces a i → i.shadow = false

theorem incident_before (hdb : Ids s.db) (hstep : step s a = some t) {j : Incident}
    (hj : j ∈ t.db.incidents) : (∃ i ∈ s.db.incidents, SameFlags i j) ∨ j.id = s.db.nextId ∧
      ((∃ updated current, Opened s a j updated current) ∨ Created a j) := by
  cases step_effect hdb hstep with
  | inserted incident rows id _ _ origin =>
    rw [rows] at hj
    rcases List.mem_cons.mp hj with rfl | hj
    · exact .inr ⟨id, origin⟩
    · exact .inl ⟨j, hj, .refl j⟩
  | claimed _ _ rows =>
    obtain ⟨i, hi, hij⟩ := rows.before hj
    exact .inl ⟨i, hi, hij.1⟩
  | kept rows =>
    obtain ⟨i, hi, hij⟩ := rows.before hj
    exact .inl ⟨i, hi, hij.toSameFlags⟩

/-- An intent that a step records is for no incident of shadow mode, unless an operator announces
something about it. -/
theorem shadow_false_of_owed (h : Inv s) (hquiet : QuietOnShadow s a) {c : CauseKey}
    (howed : Owed s a c) {i : Incident} (hi : i ∈ s.db.incidents) (hid : c.incidentId = i.id) :
    i.shadow = false := by
  cases howed with
  | claimed incidentId claims cause =>
    obtain ⟨known, hknown, hkid, hlive⟩ := h.claims claims
    rw [cause] at hid
    obtain rfl := List.inj_on_of_nodup_map h.ids.unique hi hknown (hid.symm.trans hkid.symm)
    exact hlive
  | closed j mem notified cause =>
    rw [cause] at hid
    obtain rfl := List.inj_on_of_nodup_map h.ids.unique hi mem hid.symm
    by_contra hshadow
    exact notified (h.unnotified i mem (by simpa using hshadow))
  | created incident _ cause =>
    have hbelow := h.ids.below i hi
    rw [cause, CauseKey.incidentId] at hid
    omega
  | announced j mem announces cause =>
    obtain rfl := List.inj_on_of_nodup_map h.ids.unique hi mem (hid.symm.trans cause)
    exact hquiet i mem announces

theorem silent_step_iff (h : Inv s) (hsilent : Silent s) (hstep : step s a = some t) :
    Silent t ↔ QuietOnShadow s a := by
  constructor
  · intro hafter i hi hannounces
    by_contra hshadow
    obtain ⟨j, hj, hflags⟩ := flags_step h.ids hstep hi
    obtain ⟨c, hc, hcause⟩ := recorded_of_announces h.ids hstep hannounces
    have hjshadow : j.shadow = true := hflags.shadow.trans (by simpa using hshadow)
    exact hafter j hj hjshadow c hc (hcause.trans hflags.id.symm)
  · intro hquiet j hj hshadow c hc hid
    rcases incident_before h.ids hstep hj with ⟨i, hi, hflags⟩ | ⟨hnew, horigin⟩
    · have hishadow : i.shadow = true := hflags.shadow ▸ hshadow
      have hiid : c.incidentId = i.id := hid.trans hflags.id
      rcases step_intents h.ids hstep hc with hold | howed
      · exact hsilent i hi hishadow c hold hiid
      · rw [shadow_false_of_owed h hquiet howed hi hiid] at hishadow
        cases hishadow
    · -- a new incident of shadow mode is one that a worker opened, and that records nothing
      rcases step_intents h.ids hstep hc with hold | howed
      · have hbelow := h.causes c hold
        omega
      · cases howed with
        | claimed incidentId claims cause =>
          obtain ⟨known, hknown, hkid, -⟩ := h.claims claims
          have hbelow := h.ids.below known hknown
          rw [cause, CauseKey.incidentId] at hid
          omega
        | closed i mem _ cause =>
          have hbelow := h.ids.below i mem
          rw [cause, CauseKey.incidentId] at hid
          omega
        | created incident created _ =>
          obtain ⟨actor, title, severity, message, rfl⟩ := created.step
          rcases horigin with ⟨updated, current, hopened⟩ | hcreated
          · obtain ⟨_, _, _, _, haction, -⟩ := hopened.step
            cases haction
          · rw [hcreated.shadow] at hshadow
            cases hshadow
        | announced i mem _ cause =>
          have hbelow := h.ids.below i mem
          omega

/-- No intent is ever recorded for an incident of shadow mode exactly if no operator changes the
status of one, posts an update on one that is not internal, or changes the severity of one. -/
theorem shadow_silent_iff (organizationOf : ℕ → String) (monitors : List Monitor)
    (acts : List Action) :
    (machine organizationOf monitors).Always acts Silent ↔
      (machine organizationOf monitors).EachStep acts QuietOnShadow :=
  Machine.always_iff_eachStep (fun _ hi => by cases hi)
    (fun _ _ _ hs hsilent hstep => silent_step_iff (inv_of_reachable hs) hsilent hstep) acts

/-! ### A run -/

/-- A monitor of bridge 1. -/
def imported : Monitor where
  id := 7
  organizationId := "acme"
  name := "site"
  failureWindowSeconds := 0
  firstFailureAt := none
  dockerState := none
  paused := false
  currentStatus := .up
  consecutiveFailures := 0
  lastCheckedAt := none
  dispatchClaimedUntil := none
  shadowBridgeId := some 1

def failure : CheckResult := ⟨false, some "connection refused", .down, [], [], none⟩

/-- A check of the monitor fails and opens an incident, which it marks. -/
def trialIncident : List Action :=
  [.start 0 imported, .answer 0 failure 1000, .advance 0 none, .advance 0 none, .advance 0 none,
    .advance 0 none]

/-- An operator says that somebody looks at it. -/
def posted : List Action := trialIncident ++ [.postUpdate ⟨"acme", "ann"⟩ 0 "We are looking" false]

theorem shadow_not_silent :
    ¬∀ organizationOf monitors acts, (machine organizationOf monitors).Always acts Silent := by
  intro hclaim
  have hsilent := hclaim (fun _ => "acme") [imported] posted posted List.prefix_rfl _
    (Machine.exec_reached (by decide +kernel))
  have hincident : ((machine (fun _ => "acme") [imported]).reached posted).db.incidents.any
      (fun i => i.id = 0 && i.shadow) = true := by
    decide +kernel
  obtain ⟨i, hi, hfields⟩ := List.any_eq_true.mp hincident
  simp only [Bool.and_eq_true, decide_eq_true_eq] at hfields
  have hintent : .updated 0 2 ∈
      ((machine (fun _ => "acme") [imported]).reached posted).db.intents := by
    decide +kernel
  exact hsilent i hi hfields.2 _ hintent hfields.1.symm

end Vigil.Bridge.ShadowSilence
