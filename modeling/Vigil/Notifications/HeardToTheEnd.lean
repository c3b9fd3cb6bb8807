import Vigil.Notifications.HeardInvariant

/-! The deletion of a monitor and the expansion of an intent, and with them every run. -/

namespace Vigil.Notifications.HeardToTheEnd

open Monitors.Record Incidents.Store Intents Heard HeardInvariant Lib
open Incidents.Announce hiding Action step machine step_wf reachable_wf
open Expansion hiding World Action step machine Inv step_inv reachable_inv

variable {organizationOf : ℕ → String}

/-! ### The deletion of a monitor -/

variable {now : ℤ} {monitorId : ℕ}

theorem closeIncident_closes {db : Incidents.Store.Db} {type : EventType} {message : String}
    {createdBy : Option String} {incident j : Incident}
    (hj : j ∈ (closeIncident now type message createdBy db incident).incidents)
    (hid : j.id = incident.id) : j.status = .resolved := by
  unfold closeIncident at hj
  split at hj
  · rename_i hnone
    simpa [hid] using List.find?_eq_none.mp hnone j hj
  · rename_i found hfind
    obtain ⟨-, hfound, -⟩ := find_spec hfind
    have hj : j ∈ (db.setIncident { found with
        status := .resolved
        resolvedAt := some now
        statusRevision := found.statusRevision + 1 }).incidents := by
      dsimp only at hj
      split at hj
      · rw [recordDispatchIntent_incidents] at hj
        exact hj
      · exact hj
    rcases mem_setIncident hj with rfl | ⟨-, hne⟩
    · rfl
    · exact absurd (hid.trans hfound.symm) hne

theorem closeAll_closes {db : Incidents.Store.Db} {type : EventType} {message : String}
    {createdBy : Option String} {incidents : List Incident} (hdb : Incidents.Lifecycle.Ids db)
    {i j : Incident} (hi : i ∈ incidents)
    (hj : j ∈ (incidents.foldl (closeIncident now type message createdBy) db).incidents)
    (hid : j.id = i.id) : j.status = .resolved := by
  induction incidents generalizing db with
  | nil => cases hi
  | cons first rest ih =>
    have hfirst := Incidents.Lifecycle.closeIncident_rows hdb now type message createdBy first
    have hids := hdb.rows hfirst fun _ _ h => h.sameLink.id
    rcases List.mem_cons.mp hi with rfl | hi
    · obtain ⟨k, hk, hclosed⟩ := (Incidents.Lifecycle.forall₂_mem
        (Incidents.Lifecycle.closeAll_rows hids now type message createdBy rest).rows).2 j hj
      exact hclosed.sameLink.resolved
        (closeIncident_closes hk (hclosed.sameLink.id.symm.trans hid))
    · exact ih hids hi hj

theorem reached_cascade {audience : Audience} {organizationId : String} {monitorId other : ℕ}
    (h : other ≠ monitorId) (listener : Listener) :
    reached (cascade audience monitorId) organizationId other listener =
      reached audience organizationId other listener := by
  cases listener <;> simp [reached, cascade, Channel.inScope, StatusPage.lists, h]

theorem reached_of_cascade {audience : Audience} {organizationId : String} {listener : Listener}
    (h : reached (cascade audience monitorId) organizationId monitorId listener = true) :
    reached audience organizationId monitorId listener = true := by
  cases listener with
  | channel id =>
    obtain ⟨channel, hmem, hid, horganization, henabled, hclass, hscope, hprovider⟩ :=
      reached_channel_iff.mp h
    have hscope : channel.inScope audience (some monitorId) = true := by
      have hunscoped : channel.scopedToMonitors = false := by
        simpa [Channel.inScope, cascade] using hscope
      simp [Channel.inScope, hunscoped]
    exact reached_channel_iff.mpr
      ⟨channel, hmem, hid, horganization, henabled, hclass, hscope, hprovider⟩
  | subscriber pageId subscriberId =>
    obtain ⟨⟨page, -, -, -, -, -, hlists⟩, -⟩ := reached_subscriber_iff.mp h
    simp [StatusPage.lists, cascade] at hlists

/-- The second write of the deletion, once the incidents of the monitor are closed. -/
theorem inv_unlink {s : World} (h : Inv organizationOf s)
    (hclosed : ∀ i ∈ s.incidents.incidents, i.monitorId = some monitorId → i.status = .resolved)
    (htells : ∀ incidentId, s.openedFor incidentId = some monitorId → ∀ listener : Listener, reached
      s.queue.audience (organizationOf monitorId) monitorId listener = true → reached (cascade
      s.queue.audience monitorId) (organizationOf monitorId) monitorId listener = false → Queued
      s.queue.outbox (listener.key incidentId .opened) → Queued s.queue.outbox (listener.key
      incidentId .resolved)) : Inv organizationOf
      { s with
        monitors := s.monitors.filter (·.id ≠ monitorId)
        incidents := deleteMonitorRow s.incidents monitorId
        queue := { s.queue with audience := cascade s.queue.audience monitorId } } where
  wf := deleteMonitorRow_wf monitorId h.wf
  announced := announced_deleteRow monitorId h.announced
  monitors row hrow := h.monitors row (List.mem_of_mem_filter hrow)
  born := h.born
  linked i hi := by
    obtain ⟨j, hj, rfl⟩ := List.mem_map.mp hi
    obtain ⟨other, hopened, hlinked⟩ := h.linked j hj
    split
    · rename_i hmonitor
      exact ⟨other, hopened, hlinked.source, hlinked.organization,
        .inr ⟨rfl, hclosed j hj hmonitor⟩⟩
    · rename_i hmonitor
      refine ⟨other, hopened, hlinked.source, hlinked.organization, hlinked.link.imp_left ?_⟩
      rintro ⟨hother, hrow⟩
      obtain ⟨row, hmem, rfl⟩ := monitorRow_exists_iff.mp hrow
      refine ⟨hother, monitorRow_exists_iff.mpr ⟨row, List.mem_filter.mpr ⟨hmem, ?_⟩, rfl⟩⟩
      simpa [hother] using hmonitor
  free := h.free
  owed := h.owed
  caused := h.caused
  recorded := h.recorded
  known := h.known
  reaches :=
    { heard := by
        intro incidentId other hopened listener hqueued
        rcases h.reaches.heard incidentId other hopened listener hqueued with hend | hreached
        · exact .inl hend
        · by_cases hother : other = monitorId
          · subst hother
            cases hafter : reached (cascade s.queue.audience other) (organizationOf other) other
              listener with
            | true => exact .inr rfl
            | false => exact .inl (htells incidentId hopened listener hreached hafter hqueued)
          · exact .inr ((reached_cascade hother listener).trans hreached)
      told := by
        intro incidentId other hopened hend listener hreached
        refine h.reaches.told incidentId other hopened hend listener ?_
        by_cases hother : other = monitorId
        · subst hother
          exact reached_of_cascade hreached
        · exact (reached_cascade hother listener).symm.trans hreached }

theorem recordAllOwed_grows (before after : Incidents.Store.Db) (organizationId : String)
    (payload : Incident → CauseKey → DispatchIntentPayload) {queue : Expansion.Db}
    (hfree : Free queue) :
    Grows (fun _ => True) queue (recordAllOwed before after organizationId payload queue) :=
  foldl_grows hfree _ fun _ _ _ _ _ _ _ _ _ => trivial

theorem inv_deleteMonitorIncidents {s : World} {actor checkType : String} {monitor : Monitor}
    (h : Inv organizationOf s) (hcopy : monitor.organizationId = organizationOf monitor.id) :
    Inv organizationOf
      { s with
        incidents := deleteMonitorIncidents s.incidents actor monitor now
        queue := recordAllOwed s.incidents (deleteMonitorIncidents s.incidents actor monitor now)
          monitor.organizationId
          (fun incident _ => resolvedIntent incident ⟨monitor.id, checkType⟩) s.queue } := by
  refine inv_close h hcopy fun i hi => ?_
  obtain ⟨hmem, hactive⟩ := List.mem_filter.mp hi
  exact ⟨hmem, (active_iff.mp (Bool.and_eq_true_iff.mp hactive).1).2.2⟩

/-- The first write of the deletion leaves no incident of the monitor open. -/
theorem deleteMonitorIncidents_closes {s : World} {actor : String} {monitor : Monitor}
    (h : Inv organizationOf s) (hcopy : monitor.organizationId = organizationOf monitor.id)
    {j : Incident} (hj : j ∈ (deleteMonitorIncidents s.incidents actor monitor now).incidents)
    (hmonitor : j.monitorId = some monitor.id) : j.status = .resolved := by
  have hids := ids_of_wf h.wf
  obtain ⟨i, hi, hclosed⟩ := (Incidents.Lifecycle.forall₂_mem
    (Incidents.Lifecycle.closeAll_rows hids _ _ _ _ _).rows).2 j hj
  have hlink := hclosed.sameLink
  by_cases hopen : i.status = .resolved
  · exact hlink.resolved hopen
  · obtain ⟨monitorId, -, hlinked⟩ := h.linked i hi
    have hi' : i.monitorId = some monitor.id := hlink.link.symm.trans hmonitor
    obtain rfl : monitorId = monitor.id := by
      rcases hlinked.link with ⟨hm, -⟩ | ⟨hm, -⟩
      · exact Option.some.inj (hm.symm.trans hi')
      · cases hm.symm.trans hi'
    refine closeAll_closes hids (List.mem_filter.mpr ⟨hi, ?_⟩) hj hlink.id
    rw [Bool.and_eq_true, active_iff, decide_eq_true_eq, hcopy]
    exact ⟨⟨hlinked.source, hopen, hi'⟩, hlinked.organization⟩

theorem inv_deleteMonitor {s t : World} {actor checkType : String} (h : Inv organizationOf s)
    (htells : Tells organizationOf s (.deleteMonitor actor monitorId checkType now))
    (hs : step organizationOf s (.deleteMonitor actor monitorId checkType now) = some t) :
    Inv organizationOf t := by
  obtain ⟨monitor, hrow, rfl⟩ := Option.map_eq_some_iff.mp hs
  obtain rfl : monitor.id = monitorId := by simpa using List.find?_some hrow
  have hcopy := h.monitors monitor (List.mem_of_find?_eq_some hrow)
  have hgrows := recordAllOwed_grows s.incidents
    (deleteMonitorIncidents s.incidents actor monitor now) monitor.organizationId
    (fun incident _ => resolvedIntent incident ⟨monitor.id, checkType⟩) h.free
  refine inv_unlink (inv_deleteMonitorIncidents h hcopy)
    (fun j hj hmonitor => deleteMonitorIncidents_closes h hcopy hj hmonitor) ?_
  -- the intents are recorded, nothing is queued and nobody has gone yet
  rw [hgrows.outbox, hgrows.audience]
  exact htells

/-! ### The expansion of an intent -/

section Expand

variable {s : World} {intentId : ℕ} {row : IntentRow}

/-- The tables after the expansion of a pending intent. -/
def expandedQueue (queue : Expansion.Db) (intentId : ℕ) (row : IntentRow) : Expansion.Db :=
  { queue.setIntent intentId { row with state := .expanded, lastError := none } with
    outbox := enqueueMany (some intentId) queue.outbox
      (expandPayload .none queue.audience row.organizationId row.payload) }

/-- The rows of the intents are as they were, but for the state of the expanded one. -/
theorem expanded_intents {queue : Expansion.Db} {id : ℕ} {row' : IntentRow}
    (h : (expandedQueue queue intentId row).intents id = some row') :
    id = intentId ∧ row' = { row with state := .expanded, lastError := none } ∨
      queue.intents id = some row' := by
  by_cases hid : id = intentId
  · subst hid
    exact .inl ⟨rfl, (Option.some.inj ((setIntent_self queue id _).symm.trans h)).symm⟩
  · exact .inr ((setIntent_of_ne queue _ hid).symm.trans h)

theorem expanded_opened (howed : Owed organizationOf s.openedFor row) {incidentId : ℕ}
    {listener : Listener} (h : Queued (expandedQueue s.queue intentId row).outbox
      (listener.key incidentId .opened)) :
    Queued s.queue.outbox (listener.key incidentId .opened) ∨
      row.causeKey = .dispatch incidentId .incidentOpened none ∧
        ∃ monitorId, s.openedFor incidentId = some monitorId ∧
          reached s.queue.audience (organizationOf monitorId) monitorId listener = true := by
  obtain ⟨q, hq, hkey⟩ := h
  rcases mem_enqueueMany hq with hq | ⟨-, hmem⟩
  · exact .inl ⟨q, hq, hkey⟩
  · exact .inr (howed.opened hmem hkey)

theorem reaches_expand (h : Inv organizationOf s) (howed : Owed organizationOf s.openedFor row) :
    Reaches organizationOf s.openedFor (expandedQueue s.queue intentId row) := by
  have hgrow : ∀ key, Queued s.queue.outbox key →
      Queued (expandedQueue s.queue intentId row).outbox key :=
    fun key hkey => hkey.mono (subset_enqueueMany _ _ _)
  constructor
  · intro incidentId monitorId hfor listener hopened
    rcases expanded_opened howed hopened with hopened | ⟨-, other, hother, hreached⟩
    · exact (h.reaches.heard incidentId monitorId hfor listener hopened).imp_left (hgrow _)
    · obtain rfl : other = monitorId := Option.some.inj (hother.symm.trans hfor)
      exact .inr hreached
  · rintro incidentId monitorId hfor ⟨id, row', hrow', hcause, hstate⟩ listener hreached
    rcases expanded_intents hrow' with ⟨-, rfl⟩ | hrow'
    · obtain ⟨message, hmem, hkey⟩ := howed.resolved hcause hfor hreached
      obtain ⟨q, hq, hqkey⟩ := @enqueueMany_queued (some intentId) s.queue.outbox _ _ hmem
      exact ⟨q, hq, hqkey.trans hkey⟩
    · exact hgrow _ (h.reaches.told incidentId monitorId hfor ⟨id, row', hrow', hcause, hstate⟩
        listener hreached)

theorem inv_expandedQueue (h : Inv organizationOf s) (hrow : s.queue.intents intentId = some row) :
    Inv organizationOf { s with queue := expandedQueue s.queue intentId row } := by
  have howed := h.owed intentId row hrow
  refine
    { wf := h.wf
      announced := h.announced
      monitors := h.monitors
      born := h.born
      linked := fun i hi =>
        let ⟨monitorId, hopened, hlinked⟩ := h.linked i hi
        ⟨monitorId, hopened, hlinked.source, hlinked.organization, hlinked.link⟩
      free := ?_, owed := ?_, caused := ?_, recorded := ?_, known := ?_
      reaches := reaches_expand h howed }
  · intro id hid
    have hne : id ≠ intentId := by
      rintro rfl
      rw [h.free id hid] at hrow
      cases hrow
    exact (setIntent_of_ne s.queue _ hne).trans (h.free id hid)
  · intro id row' hrow'
    rcases expanded_intents hrow' with ⟨-, rfl⟩ | hrow'
    · exact howed.expanded
    · exact h.owed id row' hrow'
  · intro id row' hrow'
    rcases expanded_intents hrow' with ⟨-, rfl⟩ | hrow'
    · exact h.caused intentId row hrow
    · exact h.caused id row' hrow'
  · intro cause hcause
    obtain ⟨id, row', hrow', hkey⟩ := h.recorded cause hcause
    by_cases hid : id = intentId
    · subst hid
      obtain rfl := Option.some.inj (hrow.symm.trans hrow')
      exact ⟨id, _, setIntent_self s.queue id _, hkey⟩
    · exact ⟨id, row', (setIntent_of_ne s.queue _ hid).trans hrow', hkey⟩
  · intro incidentId listener hopened
    rcases expanded_opened howed hopened with hopened | ⟨hcause, -⟩
    · exact h.known incidentId listener hopened
    · obtain ⟨cause, hmem, hkey⟩ := h.caused intentId row hrow
      cases cause with
      | opened id =>
        obtain rfl : incidentId = id := (Cause.dispatch.inj (hcause.symm.trans hkey)).1
        exact hmem
      | resolved id => cases hcause.symm.trans hkey
      | updated id eventId => cases hcause.symm.trans hkey

theorem inv_expand (h : Inv organizationOf s) (intentId : ℕ) :
    Inv organizationOf { s with queue := expandOne .none s.queue intentId } := by
  unfold expandOne
  split
  · exact h
  · rename_i row hfilter
    exact inv_expandedQueue h (Option.filter_eq_some_iff.mp hfilter).1

end Expand

/-! ### Every run -/

theorem init_inv (organizationOf : ℕ → String) (monitors : List Monitor) (audience : Audience) :
    Inv organizationOf (machine organizationOf monitors audience).init where
  wf := ⟨by simp [machine], by simp [machine], by simp [machine], by simp [machine],
    by simp [machine]⟩
  announced := by simp [Announced, machine]
  monitors row hrow := by simpa using (List.mem_filter.mp hrow).2
  born _ _ h := by cases h
  linked i hi := by cases hi
  free _ _ := rfl
  owed _ _ h := by cases h
  caused _ _ h := by cases h
  recorded cause hcause := by cases hcause
  known incidentId listener h := by
    obtain ⟨q, hq, -⟩ := h
    cases hq
  reaches :=
    { heard := by
        rintro incidentId monitorId h
        cases h
      told := by
        rintro incidentId monitorId h
        cases h }

theorem step_inv {s t : World} {a : Action} (h : Inv organizationOf s)
    (htells : Tells organizationOf s a) (hs : step organizationOf s a = some t) :
    Inv organizationOf t := by
  cases a with
  | monitorMoves monitor =>
    obtain ⟨hcopy, ht⟩ := Option.ite_none_right_eq_some.mp hs
    cases ht
    exact inv_monitorMoves h hcopy
  | openIncident monitor =>
    obtain ⟨hcopy, ht⟩ := Option.ite_none_right_eq_some.mp hs
    cases ht
    exact inv_openIncident h hcopy rfl
  | claim incidentId monitor checkType pagedElsewhere now =>
    obtain ⟨⟨hcopy, hopened⟩, ht⟩ := Option.ite_none_right_eq_some.mp hs
    cases ht
    exact inv_claim h hcopy hopened htells
  | resolve monitor checkType now =>
    obtain ⟨hcopy, ht⟩ := Option.ite_none_right_eq_some.mp hs
    cases ht
    exact inv_resolve h hcopy
  | changeStatus actor incidentId seen next message checkType now =>
    simp only [step] at hs
    split at hs
    · cases hs
    · rename_i db hdb
      obtain ⟨updated, hupdated, rfl⟩ := Option.map_eq_some_iff.mp hs
      exact inv_changeStatus h hdb hupdated
  | deleteMonitor actor monitorId checkType now => exact inv_deleteMonitor h htells hs
  | expand intentId =>
    cases hs
    exact inv_expand h intentId

/-- In every run in which no claim announces an incident that was resolved quietly, and no deletion
takes the scope or the listing of a monitor from somebody who still has to hear the end, whoever was
queued the beginning is queued the end. -/
theorem heard_to_the_end (organizationOf : ℕ → String) (monitors : List Monitor)
    (audience : Audience) (acts : List Action)
    (h : (machine organizationOf monitors audience).EachStep acts (Tells organizationOf)) :
    (machine organizationOf monitors audience).Always acts HeardToTheEnd := by
  have hinv : (machine organizationOf monitors audience).Always acts (Inv organizationOf) := by
    refine .of_eachStep (G := Tells organizationOf) (init_inv organizationOf monitors audience) ?_ h
    exact fun s a t _ hinv htells hs => step_inv hinv htells hs
  exact fun visited hpre s hs => (hinv visited hpre s hs).heardToTheEnd

/-- One channel, which hears of the first monitor only. -/
def scopedSlack : Audience where
  channels :=
    [{ id := 7
       organizationId := "org"
       provider := "slack"
       enabled := true
       events := [.incident]
       scopedToMonitors := true }]
  channelMonitors := [(7, 1)]
  members := []
  pages := []
  pageMonitors := []
  subscribers := []

/-- An outage, from the first alert to the recovery. -/
theorem heard_recovery :
    (machine (fun _ => "org") [downMonitor] scopedSlack).Always
      [.openIncident downMonitor, .claim 0 downMonitor "http" false 1, .expand 0,
        .resolve downMonitor "http" 2, .expand 1] HeardToTheEnd := by
  refine heard_to_the_end (fun _ => "org") [downMonitor] scopedSlack _ ?_
  refine .cons fun s hs => ⟨trivial, .cons fun t _ => ⟨?_, .cons fun _ _ => ⟨trivial,
    .cons fun _ _ => ⟨trivial, .cons fun _ _ => ⟨trivial, .nil⟩⟩⟩⟩⟩
  intro i hi _ _ hresolved
  cases hs
  obtain rfl := List.mem_singleton.mp hi
  cases hresolved

/-- The monitor is deleted while its incident is open: the deletion owes the end to the channel, and
takes the scope that the expansion would have found it by. -/
theorem scoped_channel_not_told :
    ¬∀ acts, (machine (fun _ => "org") [downMonitor] scopedSlack).Always acts HeardToTheEnd := by
  intro h
  obtain ⟨s, hs, hresolved, hexpanded, hopened, hend⟩ : ∃ s,
      (machine (fun _ => "org") [downMonitor] scopedSlack).exec
        [.openIncident downMonitor, .claim 0 downMonitor "http" false 1, .expand 0,
          .deleteMonitor "ada" 1 "http" 2, .expand 1] = some s ∧
      (∃ i ∈ s.incidents.incidents, i.id = 0 ∧ i.status = .resolved) ∧ AllExpanded s.queue 0 ∧
      Queued s.queue.outbox ((Listener.channel 7).key 0 .opened) ∧
      ¬Queued s.queue.outbox ((Listener.channel 7).key 0 .resolved) := by
    refine ⟨_, rfl, ?_, ?_, ?_, ?_⟩
    · exact ⟨_, List.mem_cons_self, rfl, rfl⟩
    · intro id row hrow event key _
      match id with
      | 0 => obtain rfl := Option.some.inj hrow; rfl
      | 1 => obtain rfl := Option.some.inj hrow; rfl
      | n + 2 => cases hrow
    · exact ⟨_, List.mem_singleton.mpr rfl, rfl⟩
    · rintro ⟨q, hq, hkey⟩
      obtain rfl := List.mem_singleton.mp hq
      cases hkey
  obtain ⟨i, hi, hid, hstatus⟩ := hresolved
  exact hend (hid ▸ h _ _ List.prefix_rfl s hs i hi hstatus (hid ▸ hexpanded) (.channel 7)
    (hid ▸ hopened))

end Vigil.Notifications.HeardToTheEnd
