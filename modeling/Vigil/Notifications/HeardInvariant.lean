import Vigil.Notifications.Heard

/-! What the transactions on the incidents and their intents keep to: an intent is recorded for
everything that the incidents owe, and says so. -/

namespace Vigil.Notifications.HeardInvariant

open Monitors.Record Incidents.Store Intents Heard Lib
open Incidents.Announce hiding Action step machine step_wf reachable_wf
open Expansion hiding World Action step machine Inv step_inv reachable_inv

/-! ### Recording intents -/

def Free (queue : Expansion.Db) : Prop := ∀ id, queue.nextId ≤ id → queue.intents id = none

/-- `queue'` has the rows of `queue` and pending ones with `P` besides. -/
structure Grows (P : IntentRow → Prop) (queue queue' : Expansion.Db) : Prop where
  kept : ∀ id row, queue.intents id = some row → queue'.intents id = some row
  new : ∀ id row, queue'.intents id = some row →
    queue.intents id = some row ∨ row.state = .pending ∧ P row
  free : Free queue'
  outbox : queue'.outbox = queue.outbox
  audience : queue'.audience = queue.audience

theorem Grows.refl {P : IntentRow → Prop} {queue : Expansion.Db} (h : Free queue) :
    Grows P queue queue :=
  ⟨fun _ _ h => h, fun _ _ h => .inl h, h, rfl, rfl⟩

theorem Grows.trans {P : IntentRow → Prop} {a b c : Expansion.Db} (hab : Grows P a b)
    (hbc : Grows P b c) : Grows P a c where
  kept id row h := hbc.kept id row (hab.kept id row h)
  new id row h := by
    rcases hbc.new id row h with h | h
    · exact hab.new id row h
    · exact .inr h
  free := hbc.free
  outbox := hbc.outbox.trans hab.outbox
  audience := hbc.audience.trans hab.audience

theorem recordDispatchIntent_grows {P : IntentRow → Prop} {queue : Expansion.Db}
    {organizationId : String} {causeKey : Cause} {payload : DispatchIntentPayload}
    (hfree : Free queue) (hP : ∀ row : IntentRow, row.organizationId = organizationId →
      row.causeKey = causeKey → row.payload = payload → P row) :
    Grows P queue (Expansion.recordDispatchIntent queue organizationId causeKey payload) := by
  unfold Expansion.recordDispatchIntent
  split_ifs
  · exact .refl hfree
  · exact .refl hfree
  · refine ⟨fun id row h => ?_, fun id row h => ?_, fun id hid => ?_, rfl, rfl⟩
    · have hne : id ≠ queue.nextId := by
        rintro rfl
        rw [hfree _ le_rfl] at h
        cases h
      exact (setIntent_of_ne queue _ hne).trans h
    · by_cases hid : id = queue.nextId
      · subst hid
        obtain rfl := Option.some.inj ((setIntent_self queue queue.nextId _).symm.trans h)
        exact .inr ⟨rfl, hP _ rfl rfl rfl⟩
      · exact .inl ((setIntent_of_ne queue _ hid).symm.trans h)
    · have hid : queue.nextId + 1 ≤ id := hid
      exact (setIntent_of_ne queue _ (by omega)).trans (hfree id (by omega))

theorem recordDispatchIntent_recorded (queue : Expansion.Db) (organizationId : String)
    (causeKey : Cause) {payload : DispatchIntentPayload} (hpayload : payload.owesNothing = false) :
    ∃ id row, (Expansion.recordDispatchIntent queue organizationId causeKey payload).intents id =
      some row ∧ row.causeKey = causeKey := by
  unfold Expansion.recordDispatchIntent
  simp only [hpayload, Bool.false_eq_true, if_false]
  split
  · rename_i h
    obtain ⟨id, -, hany⟩ := List.any_eq_true.mp h
    obtain ⟨row, hrow, hcause⟩ := (Option.any_eq_true _ _).mp hany
    exact ⟨id, row, hrow, by simpa using hcause⟩
  · exact ⟨queue.nextId, _, setIntent_self queue queue.nextId _, rfl⟩

section Owed

variable {before after : Incidents.Store.Db} {organizationId : String}
  {payload : Incident → CauseKey → DispatchIntentPayload} {queue : Expansion.Db}

theorem recordOwed_grows {P : IntentRow → Prop} {cause : CauseKey} (hfree : Free queue)
    (hP : ∀ incident ∈ after.incidents, incident.id = cause.incidentId → ∀ row : IntentRow,
      row.organizationId = organizationId → row.causeKey = causeOf cause →
      row.payload = payload incident cause → P row) :
    Grows P queue (recordOwed after organizationId payload queue cause) := by
  unfold recordOwed
  split
  · exact .refl hfree
  · rename_i incident hfind
    exact recordDispatchIntent_grows hfree
      (hP incident (List.mem_of_find?_eq_some hfind) (by simpa using List.find?_some hfind))

theorem foldl_grows {P : IntentRow → Prop} (hfree : Free queue) (causes : List CauseKey)
    (hP : ∀ cause ∈ causes, ∀ incident ∈ after.incidents, incident.id = cause.incidentId →
      ∀ row : IntentRow, row.organizationId = organizationId → row.causeKey = causeOf cause →
      row.payload = payload incident cause → P row) :
    Grows P queue (causes.foldl (recordOwed after organizationId payload) queue) :=
  List.foldlRecOn (motive := Grows P queue) causes _ (.refl hfree) fun _ hgrows cause hc =>
    hgrows.trans (recordOwed_grows hgrows.free (hP cause hc))

theorem foldl_recorded (hfree : Free queue)
    (hpayload : ∀ incident cause, (payload incident cause).owesNothing = false)
    {causes : List CauseKey} {cause : CauseKey} (hcause : cause ∈ causes)
    (hincident : ∃ incident ∈ after.incidents, incident.id = cause.incidentId) :
    ∃ id row, (causes.foldl (recordOwed after organizationId payload) queue).intents id = some row ∧
      row.causeKey = causeOf cause := by
  induction causes generalizing queue with
  | nil => cases hcause
  | cons first rest ih =>
    have hfirst : Grows (fun _ => True) queue (recordOwed after organizationId payload queue first) :=
      recordOwed_grows hfree fun _ _ _ _ _ _ _ => trivial
    rcases List.mem_cons.mp hcause with rfl | hcause
    · obtain ⟨incident, hincident, hid⟩ := hincident
      obtain ⟨found, hfound⟩ : ∃ found,
          (after.incidents.find? fun i => i.id = cause.incidentId) = some found :=
        Option.isSome_iff_exists.mp (List.find?_isSome.mpr ⟨incident, hincident, by simpa using hid⟩)
      obtain ⟨id, row, hrow, hkey⟩ := recordDispatchIntent_recorded queue organizationId
        (causeOf cause) (hpayload found cause)
      -- the row stays there while the remaining causes are recorded
      have hrest : Grows (fun _ => True) (recordOwed after organizationId payload queue cause)
          (rest.foldl (recordOwed after organizationId payload)
            (recordOwed after organizationId payload queue cause)) :=
        foldl_grows hfirst.free rest fun _ _ _ _ _ _ _ _ _ => trivial
      refine ⟨id, row, hrest.kept id row ?_, hkey⟩
      rw [recordOwed, hfound]
      exact hrow
    · exact ih hfirst.free hcause

end Owed

/-! ### The invariant -/

/-- The end of the incident has been expanded. -/
def EndExpanded (queue : Expansion.Db) (incidentId : ℕ) : Prop :=
  ∃ id row, queue.intents id = some row ∧
    row.causeKey = .dispatch incidentId .incidentResolved none ∧ row.state = .expanded

/-- What the transactions keep to about the outbox: who was queued a beginning can be reached or was
queued the end, and once the end is expanded whoever can be reached was queued it. -/
structure Reaches (organizationOf : ℕ → String) (openedFor : ℕ → Option ℕ) (queue : Expansion.Db) :
    Prop where
  heard : ∀ incidentId monitorId, openedFor incidentId = some monitorId →
    ∀ listener : Listener, Queued queue.outbox (listener.key incidentId .opened) →
      Queued queue.outbox (listener.key incidentId .resolved) ∨
        reached queue.audience (organizationOf monitorId) monitorId listener = true
  told : ∀ incidentId monitorId, openedFor incidentId = some monitorId →
    EndExpanded queue incidentId → ∀ listener : Listener,
      reached queue.audience (organizationOf monitorId) monitorId listener = true →
      Queued queue.outbox (listener.key incidentId .resolved)

section Invariant

variable (organizationOf : ℕ → String)

/-- The incident of a monitor is linked to it, or resolved and left behind by it. -/
structure Linked (s : World) (i : Incident) (monitorId : ℕ) : Prop where
  source : i.source = .monitor
  organization : i.organizationId = organizationOf monitorId
  link : i.monitorId = some monitorId ∧ (∃ row, s.monitorRow monitorId = some row) ∨
    i.monitorId = none ∧ i.status = .resolved

/-- What holds in every reachable state of the monitors, the incidents and the queue. -/
structure Inv (s : World) : Prop where
  wf : WellFormed s.incidents
  announced : Announced s.incidents
  monitors : ∀ row ∈ s.monitors, row.organizationId = organizationOf row.id
  born : ∀ id monitorId, s.openedFor id = some monitorId → id < s.incidents.nextId
  linked : ∀ i ∈ s.incidents.incidents, ∃ monitorId, s.openedFor i.id = some monitorId ∧
    Linked organizationOf s i monitorId
  free : Free s.queue
  owed : ∀ id row, s.queue.intents id = some row → Owed organizationOf s.openedFor row
  caused : ∀ id row, s.queue.intents id = some row →
    ∃ cause ∈ s.incidents.intents, row.causeKey = causeOf cause
  recorded : ∀ cause ∈ s.incidents.intents,
    ∃ id row, s.queue.intents id = some row ∧ row.causeKey = causeOf cause
  known : ∀ incidentId (listener : Listener),
    Queued s.queue.outbox (listener.key incidentId .opened) →
      .opened incidentId ∈ s.incidents.intents
  reaches : Reaches organizationOf s.openedFor s.queue

end Invariant

variable {organizationOf : ℕ → String}

variable {s : World} {db : Incidents.Store.Db} {incidentId monitorId : ℕ} {monitor : Monitor}
  {checkType message : String} {now : ℤ}

theorem Inv.heardToTheEnd (h : Inv organizationOf s) : HeardToTheEnd s := by
  intro i hi hresolved hexpanded listener hopened
  have hend : .resolved i.id ∈ s.incidents.intents :=
    h.announced i hi hresolved (h.known i.id listener hopened)
  obtain ⟨id, row, hrow, hcause⟩ := h.recorded _ hend
  have hdone : EndExpanded s.queue i.id :=
    ⟨id, row, hrow, hcause, hexpanded id row hrow _ _ hcause⟩
  obtain ⟨monitorId, hopenedFor, -⟩ := h.linked i hi
  rcases h.reaches.heard i.id monitorId hopenedFor listener hopened with hqueued | hreached
  · exact hqueued
  · exact h.reaches.told i.id monitorId hopenedFor hdone listener hreached

/-- Recording intents queues nothing and expands nothing. -/
theorem Reaches.grows {openedFor : ℕ → Option ℕ} {P : IntentRow → Prop} {queue queue' : Expansion.Db}
    (h : Reaches organizationOf openedFor queue) (hgrows : Grows P queue queue') :
    Reaches organizationOf openedFor queue' where
  heard := by
    rw [hgrows.outbox, hgrows.audience]
    exact h.heard
  told := by
    rw [hgrows.outbox, hgrows.audience]
    rintro incidentId monitorId hopened ⟨id, row, hrow, hcause, hstate⟩
    rcases hgrows.new id row hrow with hold | ⟨hpending, -⟩
    · exact h.told incidentId monitorId hopened ⟨id, row, hold, hcause, hstate⟩
    · rw [hpending] at hstate
      cases hstate

/-- A transaction that deletes no monitor and says the right thing in its intents. -/
theorem Inv.transaction {after : Incidents.Store.Db} {organizationId : String}
    {payload : Incident → CauseKey → DispatchIntentPayload} (h : Inv organizationOf s)
    (hwf : WellFormed after) (hannounced : Announced after)
    (hrows : Incidents.Lifecycle.Rows Incidents.Lifecycle.SameLink s.incidents after)
    (hgrow : s.incidents.intents ⊆ after.intents)
    (hpayload : ∀ incident cause, (payload incident cause).owesNothing = false)
    (hnew : ∀ cause ∈ after.intents, cause ∉ s.incidents.intents → ∃ i ∈ s.incidents.incidents, i.id
      = cause.incidentId ∧ ∀ monitorId, s.openedFor i.id = some monitorId → Linked organizationOf s
      i monitorId → ∀ j, Incidents.Lifecycle.SameLink i j → ∀ row : IntentRow, row.organizationId =
      organizationId → row.causeKey = causeOf cause → row.payload = payload j cause →
      row.organizationId = organizationOf monitorId ∧ Says row j monitorId) : Inv organizationOf
      { s with
        incidents := after
        queue := recordAllOwed s.incidents after organizationId payload s.queue } := by
  have hmatch := Incidents.Lifecycle.forall₂_mem hrows.rows
  have hgrows : Grows (fun row => Owed organizationOf s.openedFor row ∧
        ∃ cause ∈ after.intents, row.causeKey = causeOf cause) s.queue
      (recordAllOwed s.incidents after organizationId payload s.queue) := by
    refine foldl_grows h.free _ fun cause hcause j hj hid row horg hkey hsays => ?_
    obtain ⟨hcause, hfresh⟩ := List.mem_filter.mp hcause
    refine ⟨?_, cause, hcause, hkey⟩
    obtain ⟨i, hi, hii, hrow⟩ := hnew cause hcause (by simpa using hfresh)
    obtain ⟨i', hi', hlink⟩ := hmatch.2 j hj
    obtain rfl : i' = i := List.inj_on_of_nodup_map h.wf.unique hi' hi
      (hlink.id.symm.trans (hid.trans hii.symm))
    obtain ⟨monitorId, hopened, hlinked⟩ := h.linked i' hi
    obtain ⟨horg, hsays⟩ := hrow monitorId hopened hlinked j hlink row horg hkey hsays
    exact ⟨j, monitorId, hlink.id ▸ hopened, horg, hlink.source.trans hlinked.source, hsays⟩
  refine ⟨hwf, hannounced, h.monitors, ?_, ?_, hgrows.free, ?_, ?_, ?_, ?_, h.reaches.grows hgrows⟩
  · intro id monitorId hid
    rw [hrows.nextId]
    exact h.born id monitorId hid
  · intro j hj
    obtain ⟨i, hi, hlink⟩ := hmatch.2 j hj
    obtain ⟨monitorId, hopened, hlinked⟩ := h.linked i hi
    refine ⟨monitorId, hlink.id ▸ hopened, hlink.source.trans hlinked.source,
      hlink.organizationId.trans hlinked.organization, ?_⟩
    rcases hlinked.link with ⟨hm, hrow⟩ | ⟨hm, hstatus⟩
    · exact .inl ⟨hlink.link.trans hm, hrow⟩
    · exact .inr ⟨hlink.link.trans hm, hlink.resolved hstatus⟩
  · intro id row hrow
    rcases hgrows.new id row hrow with hold | ⟨-, howed, -⟩
    · exact h.owed id row hold
    · exact howed
  · intro id row hrow
    rcases hgrows.new id row hrow with hold | ⟨-, -, hcaused⟩
    · obtain ⟨cause, hcause, hkey⟩ := h.caused id row hold
      exact ⟨cause, hgrow hcause, hkey⟩
    · exact hcaused
  · intro cause hcause
    by_cases hold : cause ∈ s.incidents.intents
    · obtain ⟨id, row, hrow, hkey⟩ := h.recorded cause hold
      exact ⟨id, row, hgrows.kept id row hrow, hkey⟩
    · obtain ⟨i, hi, hid, -⟩ := hnew cause hcause hold
      obtain ⟨j, hj, hlink⟩ := hmatch.1 i hi
      exact foldl_recorded h.free hpayload (List.mem_filter.mpr ⟨hcause, by simpa using hold⟩)
        ⟨j, hj, hlink.id.trans hid⟩
  · intro incidentId listener hqueued
    rw [hgrows.outbox] at hqueued
    exact hgrow (h.known incidentId listener hqueued)

/-! ### Each transaction -/

theorem ids_of_wf (h : WellFormed db) : Incidents.Lifecycle.Ids db :=
  ⟨h.ids, h.unique⟩

theorem inv_claim {pagedElsewhere : Bool} (h : Inv organizationOf s)
    (hcopy : monitor.organizationId = organizationOf monitor.id)
    (hopened : s.openedFor incidentId = some monitor.id)
    (hclaims : ClaimsUnresolved s.incidents (.claim incidentId now)) : Inv organizationOf
      { s with
        incidents := (claimOpenedNotifications s.incidents incidentId now).1
        queue := recordAllOwed s.incidents (claimOpenedNotifications s.incidents incidentId now).1
          monitor.organizationId
          (fun incident _ => openedIntent incident ⟨monitor.id, checkType⟩ pagedElsewhere)
          s.queue } := by
  have hintents : ∀ cause,
      cause ∈ (claimOpenedNotifications s.incidents incidentId now).1.intents →
      cause ∈ s.incidents.intents ∨
        cause = .opened incidentId ∧ ∃ i ∈ s.incidents.incidents, i.id = incidentId := by
    intro cause hcause
    unfold claimOpenedNotifications at hcause
    split at hcause
    · exact .inl hcause
    · rename_i found hfind
      obtain ⟨hmem, hid, -⟩ := find_spec hfind
      rcases mem_recordDispatchIntent.mp hcause with rfl | hcause
      · exact .inr ⟨congrArg CauseKey.opened hid, found, hmem, hid⟩
      · exact .inl hcause
  refine h.transaction (claimOpenedNotifications_wf incidentId now h.wf)
    ((announced_claim_iff incidentId now h.wf h.announced).mpr hclaims)
    (Incidents.Lifecycle.claimOpenedNotifications_rows (ids_of_wf h.wf) incidentId now) ?_ ?_ ?_
  · intro cause hcause
    unfold claimOpenedNotifications
    split
    · exact hcause
    · exact mem_recordDispatchIntent.mpr (.inr hcause)
  · intro incident cause
    rfl
  · intro cause hcause hfresh
    rcases hintents cause hcause with hold | ⟨rfl, i, hi, rfl⟩
    · exact absurd hold hfresh
    · refine ⟨i, hi, rfl, fun monitorId hfor hlinked j hlink row horg hkey hpayload => ?_⟩
      obtain rfl : monitor.id = monitorId := by simpa [hopened] using hfor
      refine ⟨horg.trans hcopy, .opened ?_ ?_ ⟨checkType, pagedElsewhere, hpayload⟩⟩
      · rw [hkey, hlink.id]
        rfl
      · rw [hlink.link]
        exact hlinked.link.imp And.left And.left

theorem closeAll_intents {type : EventType} {createdBy : Option String} (incidents : List Incident)
    (db : Incidents.Store.Db) (cause : CauseKey) : (cause ∈ db.intents → cause ∈
      (incidents.foldl (closeIncident now type message createdBy) db).intents) ∧
    (cause ∈ (incidents.foldl (closeIncident now type message createdBy) db).intents →
      cause ∈ db.intents ∨ ∃ i ∈ incidents, cause = .resolved i.id) := by
  induction incidents generalizing db with
  | nil => exact ⟨fun h => h, fun h => .inl h⟩
  | cons first rest ih =>
    have hfirst : (cause ∈ db.intents →
        cause ∈ (closeIncident now type message createdBy db first).intents) ∧
        (cause ∈ (closeIncident now type message createdBy db first).intents →
          cause ∈ db.intents ∨ cause = .resolved first.id) := by
      unfold closeIncident
      split
      · exact ⟨fun h => h, fun h => .inl h⟩
      · rename_i found hfind
        obtain ⟨-, hid, -⟩ := find_spec hfind
        dsimp only
        split
        · rw [mem_recordDispatchIntent, hid]
          exact ⟨fun h => .inr h, fun h => h.symm⟩
        · exact ⟨fun h => h, fun h => .inl h⟩
    refine ⟨fun h => (ih _).1 (hfirst.1 h), fun h => ?_⟩
    rcases (ih _).2 h with h | ⟨i, hi, hcause⟩
    · rcases hfirst.2 h with h | hcause
      · exact .inl h
      · exact .inr ⟨first, List.mem_cons_self, hcause⟩
    · exact .inr ⟨i, List.mem_cons_of_mem _ hi, hcause⟩

/-- Closing incidents that are linked to a monitor, with the intents of their end. -/
theorem inv_close {type : EventType} {createdBy : Option String} {incidents : List Incident}
    (h : Inv organizationOf s) (hcopy : monitor.organizationId = organizationOf monitor.id)
    (hincidents : ∀ i ∈ incidents, i ∈ s.incidents.incidents ∧ i.monitorId = some monitor.id) :
    Inv organizationOf
      { s with
        incidents := incidents.foldl (closeIncident now type message createdBy) s.incidents
        queue := recordAllOwed s.incidents
          (incidents.foldl (closeIncident now type message createdBy) s.incidents)
          monitor.organizationId
          (fun incident _ => resolvedIntent incident ⟨monitor.id, checkType⟩) s.queue } := by
  have hclosed : WellFormed (incidents.foldl (closeIncident now type message createdBy) s.incidents) ∧
      Announced (incidents.foldl (closeIncident now type message createdBy) s.incidents) :=
    List.foldlRecOn (motive := fun db => WellFormed db ∧ Announced db) incidents _
      ⟨h.wf, h.announced⟩ fun _ h _ _ => ⟨closeIncident_wf h.1, announced_close h.1 h.2⟩
  have hrows := Incidents.Lifecycle.closeAll_rows (ids_of_wf h.wf) now type message createdBy
    incidents
  refine h.transaction hclosed.1 hclosed.2 (hrows.mono fun _ _ h => h.sameLink)
    (fun cause => (closeAll_intents incidents s.incidents cause).1) (fun _ _ => rfl) ?_
  intro cause hcause hfresh
  rcases (closeAll_intents incidents s.incidents cause).2 hcause with hold | ⟨i, hi, rfl⟩
  · exact absurd hold hfresh
  · obtain ⟨hmem, hlinked⟩ := hincidents i hi
    refine ⟨i, hmem, rfl, fun monitorId _ hlink j hij row horg hkey hpayload => ?_⟩
    obtain rfl : monitor.id = monitorId := by
      rcases hlink.link with ⟨hm, -⟩ | ⟨hm, -⟩
      · exact Option.some.inj (hlinked.symm.trans hm)
      · cases hlinked.symm.trans hm
    refine ⟨horg.trans hcopy, .resolved ?_ (hij.link.trans hlinked) ?_⟩
    · rw [hkey, hij.id]
      rfl
    · rw [hpayload]
      exact ends_resolvedIntent j monitor.id checkType

theorem active_iff {i : Incident} : i.active monitorId = true ↔
      i.source = .monitor ∧ i.status ≠ .resolved ∧ i.monitorId = some monitorId := by
  simp [Incident.active, and_assoc]

theorem inv_resolve (h : Inv organizationOf s)
    (hcopy : monitor.organizationId = organizationOf monitor.id) : Inv organizationOf
      { s with
        incidents := resolveMonitorIncidents s.incidents monitor now
        queue := recordAllOwed s.incidents (resolveMonitorIncidents s.incidents monitor now)
          monitor.organizationId
          (fun incident _ => resolvedIntent incident ⟨monitor.id, checkType⟩) s.queue } := by
  refine inv_close h hcopy fun i hi => ?_
  obtain ⟨hmem, hactive⟩ := List.mem_filter.mp hi
  exact ⟨hmem, (active_iff.mp hactive).2.2⟩

theorem changeIncidentStatus_intents {db db' : Incidents.Store.Db} {actor : String}
    {seen next : IncidentStatus}
    (hs : changeIncidentStatus db actor incidentId seen next message now = some db') :
    ∃ found ∈ db.incidents, found.id = incidentId ∧ found.status ≠ .resolved ∧
      ∃ cause, (cause = .resolved incidentId ∨ ∃ eventId, cause = .updated incidentId eventId) ∧
        ∀ c, c ∈ db'.intents ↔ c = cause ∨ c ∈ db.intents := by
  unfold changeIncidentStatus at hs
  split at hs
  · rename_i hcan
    split at hs
    · cases hs
    · rename_i found hfind
      obtain ⟨hmem, rfl, hseen⟩ := find_spec hfind
      cases hs
      have hseen : found.status = seen := by simpa using hseen
      simp only [canTransition, Bool.and_eq_true, decide_eq_true_eq, ← hseen] at hcan
      refine ⟨found, hmem, rfl, hcan.1, _, ?_, fun c => mem_recordDispatchIntent⟩
      split
      · exact .inl rfl
      · exact .inr ⟨_, rfl⟩
  · cases hs

theorem monitorRow_exists_iff :
    (∃ row, s.monitorRow monitorId = some row) ↔ ∃ row ∈ s.monitors, row.id = monitorId := by
  rw [World.monitorRow, ← Option.isSome_iff_exists, List.find?_isSome]
  simp

theorem inv_changeStatus {actor : String} {seen next : IncidentStatus} {updated : Incident}
    (h : Inv organizationOf s)
    (hs : changeIncidentStatus s.incidents actor incidentId seen next message now = some db)
    (hupdated : db.incidents.find? (fun i => i.id = incidentId) = some updated) : Inv organizationOf
      { s with
        incidents := db
        queue := recordAllOwed s.incidents db updated.organizationId
          (operatorPayload (s.monitorForIncident checkType updated)) s.queue } := by
  have hrows := Incidents.Lifecycle.changeIncidentStatus_rows (ids_of_wf h.wf) hs
  obtain ⟨found, hfound, hid, hopen, cause, hcause, hintents⟩ := changeIncidentStatus_intents hs
  obtain ⟨i, hi, hlink⟩ := (Incidents.Lifecycle.forall₂_mem hrows.rows).2 updated
    (List.mem_of_find?_eq_some hupdated)
  have hsame : updated.id = incidentId := by simpa using List.find?_some hupdated
  obtain rfl : i = found := List.inj_on_of_nodup_map h.wf.unique hi hfound
    (hlink.id.symm.trans (hsame.trans hid.symm))
  refine h.transaction (changeIncidentStatus_wf h.wf hs) (announced_change h.announced hs) hrows
    (fun c hc => (hintents c).mpr (.inr hc)) ?_ ?_
  · intro incident cause
    cases cause <;> rfl
  · intro c hc hfresh
    obtain rfl := ((hintents c).mp hc).resolve_right hfresh
    refine ⟨i, hi, ?_, fun monitorId _ hlinked j hij row horg hkey hpayload => ?_⟩
    · rcases hcause with rfl | ⟨eventId, rfl⟩ <;> exact hid
    · refine ⟨horg.trans (hlink.organizationId.trans hlinked.organization), ?_⟩
      obtain ⟨hmonitor, found, hrow⟩ := hlinked.link.resolve_right fun hleft => hopen hleft.2
      have hfor : s.monitorForIncident checkType updated = some ⟨monitorId, checkType⟩ := by
        have hfoundId : found.id = monitorId := by simpa using List.find?_some hrow
        rw [World.monitorForIncident, hlink.link, hmonitor, Option.bind_some, hrow, Option.map_some,
          hfoundId]
      rw [hfor] at hpayload
      rcases hcause with rfl | ⟨eventId, rfl⟩
      · refine .resolved ?_ (hij.link.trans hmonitor) ?_
        · rw [hkey, hij.id, hid]
          rfl
        · rw [hpayload]
          exact ends_operatorIntent j monitorId checkType _
      · refine .updated eventId ?_ ⟨_, hpayload⟩
        rw [hkey, hij.id, hid]
        rfl

theorem inv_monitorMoves (h : Inv organizationOf s)
    (hcopy : monitor.organizationId = organizationOf monitor.id) : Inv organizationOf
      { s with
        monitors := s.monitors.map fun row => if row.id = monitor.id then monitor else row } := by
  refine { h with monitors := ?_, linked := ?_ }
  · intro row hrow
    obtain ⟨old, hold, rfl⟩ := List.mem_map.mp hrow
    split
    · exact hcopy
    · exact h.monitors old hold
  · intro i hi
    obtain ⟨monitorId, hopened, hlinked⟩ := h.linked i hi
    refine ⟨monitorId, hopened, hlinked.source, hlinked.organization, ?_⟩
    refine hlinked.link.imp_left fun ⟨hmonitor, hrow⟩ => ⟨hmonitor, ?_⟩
    obtain ⟨row, hmem, rfl⟩ := monitorRow_exists_iff.mp hrow
    refine monitorRow_exists_iff.mpr ⟨_, List.mem_map.mpr ⟨row, hmem, rfl⟩, ?_⟩
    split
    · rename_i hid
      exact hid.symm
    · rfl

/-- An incident of which nothing was queued is opened for a monitor. -/
theorem Reaches.update {openedFor : ℕ → Option ℕ} {queue : Expansion.Db} {id monitorId : ℕ}
    (h : Reaches organizationOf openedFor queue)
    (hopened : ∀ listener : Listener, ¬Queued queue.outbox (listener.key id .opened))
    (hend : ¬EndExpanded queue id) :
    Reaches organizationOf (Function.update openedFor id (some monitorId)) queue where
  heard incidentId monitorId hfor listener hqueued := by
    have hne : incidentId ≠ id := by
      rintro rfl
      exact hopened listener hqueued
    rw [Function.update_of_ne hne] at hfor
    exact h.heard incidentId monitorId hfor listener hqueued
  told incidentId monitorId hfor hdone := by
    have hne : incidentId ≠ id := by
      rintro rfl
      exact hend hdone
    rw [Function.update_of_ne hne] at hfor
    exact h.told incidentId monitorId hfor hdone

/-- An incident with a number of its own joins the others, and nothing is owed for it yet. -/
theorem Inv.opened {incident : Incident} (h : Inv organizationOf s) (hwf : WellFormed db)
    (hannounced : Announced db) (hid : incident.id = s.incidents.nextId)
    (hnext : db.nextId = s.incidents.nextId + 1)
    (hincidents : db.incidents = incident :: s.incidents.incidents)
    (hintents : db.intents = s.incidents.intents)
    (hlinked : Linked organizationOf s incident monitorId) : Inv organizationOf
      { s with
        incidents := db
        openedFor := Function.update s.openedFor incident.id (some monitorId) } := by
  have hfree : s.openedFor incident.id = none := by
    cases hfor : s.openedFor incident.id with
    | none => rfl
    | some monitorId =>
      have hlt := h.born _ _ hfor
      omega
  refine
    { wf := hwf
      announced := hannounced
      monitors := h.monitors
      born := ?_, linked := ?_
      free := h.free
      owed := fun id row hrow => (h.owed id row hrow).update hfree
      caused := ?_, recorded := ?_, known := ?_
      reaches := h.reaches.update ?_ ?_ }
  · intro id other hfor
    have hfor : Function.update s.openedFor incident.id (some monitorId) id = some other := hfor
    change id < db.nextId
    by_cases hsame : id = incident.id
    · omega
    · rw [Function.update_of_ne hsame] at hfor
      have hlt := h.born id other hfor
      omega
  · intro i hi
    rcases List.mem_cons.mp (hincidents ▸ hi) with rfl | hold
    · exact ⟨monitorId, Function.update_self .., hlinked.source, hlinked.organization, hlinked.link⟩
    · obtain ⟨other, hopened, hlinked⟩ := h.linked i hold
      have hlt := h.wf.ids i hold
      exact ⟨other, (Function.update_of_ne (by omega) _ _).trans hopened, hlinked.source,
        hlinked.organization, hlinked.link⟩
  · intro id row hrow
    obtain ⟨cause, hcause, hkey⟩ := h.caused id row hrow
    exact ⟨cause, hintents ▸ hcause, hkey⟩
  · intro cause hcause
    exact h.recorded cause (hintents ▸ hcause)
  · intro incidentId listener hqueued
    exact hintents ▸ h.known incidentId listener hqueued
  · intro listener hqueued
    have hlt : incident.id < _ := h.wf.causes _ (h.known incident.id listener hqueued)
    omega
  · rintro ⟨id, row, hrow, hcause, -⟩
    obtain ⟨monitorId, hopened⟩ := (h.owed id row hrow).cause hcause
    rw [hfree] at hopened
    cases hopened

theorem inv_openIncident (h : Inv organizationOf s)
    (hcopy : monitor.organizationId = organizationOf monitor.id) {incident : Option Incident}
    (hopen : openMonitorIncident { s.incidents with monitor := s.monitorRow monitor.id } monitor =
      (db, incident)) : Inv organizationOf
      { s with
        incidents := { db with monitor := none }
        openedFor := incident.elim s.openedFor fun i =>
          Function.update s.openedFor i.id (some monitor.id) } := by
  have hdb := congrArg Prod.fst hopen
  have hincident := congrArg Prod.snd hopen
  dsimp only at hdb hincident
  cases incident with
  | none =>
    rw [openMonitorIncident_none hincident] at hdb
    subst hdb
    exact
      { h with
        wf := ⟨h.wf.ids, h.wf.unique, h.wf.causes, h.wf.events, h.wf.opened⟩
        announced := h.announced
        linked := fun i hi =>
          let ⟨monitorId, hopened, hlinked⟩ := h.linked i hi
          ⟨monitorId, hopened, hlinked.source, hlinked.organization, hlinked.link⟩ }
  | some incident =>
    have hwf := @openMonitorIncident_wf { s.incidents with monitor := s.monitorRow monitor.id }
      monitor ⟨h.wf.ids, h.wf.unique, h.wf.causes, h.wf.events, h.wf.opened⟩
    have hannounced := @announced_open { s.incidents with monitor := s.monitorRow monitor.id }
      monitor h.announced
    have horganization := openMonitorIncident_organizationId hincident
    obtain ⟨current, hrow, -, -, -, hid, -, hsource, hmonitor, -, -, message, hnew⟩ :=
      openMonitorIncident_some hincident
    rw [hdb] at hwf hannounced hnew
    have hrow : s.monitorRow monitor.id = some current :=
      (Option.filter_eq_some_iff.mp hrow).1
    refine h.opened ⟨hwf.ids, hwf.unique, hwf.causes, hwf.events, hwf.opened⟩ hannounced hid ?_ ?_ ?_
      ⟨hsource, horganization.trans hcopy, .inl ⟨hmonitor, current, hrow⟩⟩
    · rw [hnew]
      rfl
    · rw [hnew]
      rfl
    · rw [hnew]
      rfl

end Vigil.Notifications.HeardInvariant
