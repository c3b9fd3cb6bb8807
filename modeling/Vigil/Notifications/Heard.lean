import Vigil.Incidents.Announce
import Vigil.Incidents.Lifecycle
import Vigil.Notifications.Expansion

/-! Whoever was told that an outage began is told that it ended.  The transactions on the automatic
incidents of any number of monitors, each with the intent that it records, and the expansions of
those intents, in any order and without a policy.  The audience is resolved when an intent is
expanded, and the only transaction here that changes it is the deletion of a monitor. -/

namespace Vigil.Notifications.Heard

open Monitors.Record Incidents.Store Incidents.Announce Intents Expansion Lib

structure World where
  monitors : List Monitor
  /-- The incidents; its monitor is not used. -/
  incidents : Incidents.Store.Db
  /-- The intents, the outbox and the audience. -/
  queue : Expansion.Db
  /-- The monitor that each incident was opened for, which the link on the row forgets. -/
  openedFor : ℕ → Option ℕ

def causeOf : CauseKey → Cause
  | .opened id => .dispatch id .incidentOpened none
  | .resolved id => .dispatch id .incidentResolved none
  | .updated id eventId => .dispatch id .incidentUpdated (some eventId)

/-- Writes the intent of a cause that a transaction has recorded. -/
def recordOwed (after : Incidents.Store.Db) (organizationId : String)
    (payload : Incident → CauseKey → DispatchIntentPayload) (queue : Expansion.Db)
    (cause : CauseKey) : Expansion.Db :=
  match after.incidents.find? fun i => i.id = cause.incidentId with
  | none => queue
  | some incident => Expansion.recordDispatchIntent queue organizationId (causeOf cause)
      (payload incident cause)

/-- Writes the intents of all causes that a transaction has recorded. -/
def recordAllOwed (before after : Incidents.Store.Db) (organizationId : String)
    (payload : Incident → CauseKey → DispatchIntentPayload) (queue : Expansion.Db) : Expansion.Db :=
  (after.intents.filter fun cause => !before.intents.contains cause).foldl
    (recordOwed after organizationId payload) queue

/-- `ON DELETE CASCADE` of the scopes and the listings of a monitor. -/
def cascade (audience : Audience) (monitorId : ℕ) : Audience :=
  { audience with
    channelMonitors := audience.channelMonitors.filter fun scope => scope.2 ≠ monitorId
    pageMonitors := audience.pageMonitors.filter fun listing => listing.2 ≠ monitorId }

/-- What an operator's change of status owes; the responders who were paged hear of the end. -/
def operatorPayload (monitor : Option WebhookMonitor) (incident : Incident) :
    CauseKey → DispatchIntentPayload
  | .updated _ eventId => operatorIntent incident monitor .incidentUpdated (some eventId)
  | _ =>
    { operatorIntent incident monitor .incidentResolved none with
      memberEmail := (monitor.filter fun _ => incident.notifiedAt.isSome).bind fun monitor =>
        (resolvedIntent incident monitor).memberEmail }

/-! ### The transactions -/

/-- What can happen to the monitors, to the incidents and in the queue. -/
inductive Action where
  | monitorMoves (monitor : Monitor)
  | openIncident (monitor : Monitor)
  | claim (incidentId : ℕ) (monitor : Monitor) (checkType : String) (pagedElsewhere : Bool) (now : ℤ)
  | resolve (monitor : Monitor) (checkType : String) (now : ℤ)
  | changeStatus (actor : String) (incidentId : ℕ) (seen next : IncidentStatus) (message : String)
      (checkType : String) (now : ℤ)
  | deleteMonitor (actor : String) (monitorId : ℕ) (checkType : String) (now : ℤ)
  | expand (intentId : ℕ)
  deriving DecidableEq, Repr

def World.monitorRow (s : World) (id : ℕ) : Option Monitor :=
  s.monitors.find? fun row => row.id = id

/-- `monitorForIncident`, as far as a notification needs it. -/
def World.monitorForIncident (s : World) (checkType : String) (incident : Incident) :
    Option WebhookMonitor :=
  (incident.monitorId.bind s.monitorRow).map fun row => ⟨row.id, checkType⟩

/-- `organizationOf` is the organization of each monitor, which never changes; a worker's copy of a
monitor has it too. -/
def step (organizationOf : ℕ → String) (s : World) : Action → Option World
  | .monitorMoves monitor =>
    if monitor.organizationId = organizationOf monitor.id then
      some { s with monitors := s.monitors.map fun row => if row.id = monitor.id then monitor else row }
    else none
  | .openIncident monitor =>
    if monitor.organizationId = organizationOf monitor.id then
      let (db, incident) :=
        openMonitorIncident { s.incidents with monitor := s.monitorRow monitor.id } monitor
      some
        { s with
          incidents := { db with monitor := none }
          openedFor := incident.elim s.openedFor fun i =>
            Function.update s.openedFor i.id (some monitor.id) }
    else none
  | .claim incidentId monitor checkType pagedElsewhere now =>
    if monitor.organizationId = organizationOf monitor.id ∧
        s.openedFor incidentId = some monitor.id then
      let db := (claimOpenedNotifications s.incidents incidentId now).1
      some
        { s with
          incidents := db
          queue := recordAllOwed s.incidents db monitor.organizationId
            (fun incident _ => openedIntent incident ⟨monitor.id, checkType⟩ pagedElsewhere)
            s.queue }
    else none
  | .resolve monitor checkType now =>
    if monitor.organizationId = organizationOf monitor.id then
      let db := resolveMonitorIncidents s.incidents monitor now
      some
        { s with
          incidents := db
          queue := recordAllOwed s.incidents db monitor.organizationId
            (fun incident _ => resolvedIntent incident ⟨monitor.id, checkType⟩) s.queue }
    else none
  | .changeStatus actor incidentId seen next message checkType now =>
    match changeIncidentStatus s.incidents actor incidentId seen next message now with
    | none => none
    | some db =>
      (db.incidents.find? fun i => i.id = incidentId).map fun updated =>
        { s with
          incidents := db
          queue := recordAllOwed s.incidents db updated.organizationId
            (operatorPayload (s.monitorForIncident checkType updated)) s.queue }
  | .deleteMonitor actor monitorId checkType now =>
    (s.monitorRow monitorId).map fun monitor =>
      let db := deleteMonitorIncidents s.incidents actor monitor now
      let queue := recordAllOwed s.incidents db monitor.organizationId
        (fun incident _ => resolvedIntent incident ⟨monitor.id, checkType⟩) s.queue
      { s with
        monitors := s.monitors.filter (·.id ≠ monitorId)
        incidents := deleteMonitorRow db monitorId
        queue := { queue with audience := cascade queue.audience monitorId } }
  | .expand intentId => some { s with queue := expandOne .none s.queue intentId }

def machine (organizationOf : ℕ → String) (monitors : List Monitor) (audience : Audience) :
    Machine World Action where
  init :=
    { monitors := monitors.filter fun row => row.organizationId = organizationOf row.id
      incidents :=
        { monitor := none, incidents := [], events := [], intents := [], nextId := 0,
          nextEventId := 0 }
      queue := ⟨fun _ => none, 0, [], audience⟩
      openedFor := fun _ => none }
  step := step organizationOf

/-! ### Who hears -/

inductive Listener where
  | channel (id : ℕ)
  | subscriber (pageId subscriberId : ℕ)
  deriving DecidableEq, Repr

/-- The key of the row about the beginning or the end of an incident for a listener. -/
def Listener.key (incidentId : ℕ) (kind : SubscriberKind) : Listener → IdempotencyKey
  | .channel id => .channel (.dispatch incidentId kind.event none) id
  | .subscriber pageId subscriberId =>
    .subscriber (.subscribers incidentId kind none) pageId subscriberId

def Queued (outbox : List QueuedRow) (key : IdempotencyKey) : Prop :=
  ∃ q ∈ outbox, q.message.idempotencyKey = key

/-- Every intent of the incident is expanded. -/
def AllExpanded (queue : Expansion.Db) (incidentId : ℕ) : Prop :=
  ∀ id row, queue.intents id = some row → ∀ event key,
    row.causeKey = .dispatch incidentId event key → row.state = .expanded

/-- Whoever was queued the beginning of a resolved incident whose intents are all expanded is queued
its end. -/
def HeardToTheEnd (s : World) : Prop :=
  ∀ i ∈ s.incidents.incidents, i.status = .resolved → AllExpanded s.queue i.id →
    ∀ listener : Listener, Queued s.queue.outbox (listener.key i.id .opened) →
      Queued s.queue.outbox (listener.key i.id .resolved)

/-- Whether the end of an incident of a monitor reaches a listener, as the tables stand. -/
def reached (audience : Audience) (organizationId : String) (monitorId : ℕ) : Listener → Bool
  | .channel id => audience.channels.any fun channel =>
      channel.id = id && channel.organizationId = organizationId && channel.enabled &&
        channel.events.contains .incident && channel.inScope audience (some monitorId) &&
        channelProviders.contains channel.provider
  | .subscriber pageId subscriberId =>
    (audience.pages.any fun page => page.id = pageId && page.organizationId = organizationId &&
        page.published && page.isPublic && page.lists audience (some monitorId)) &&
      audience.subscribers.any fun subscriber => subscriber.id = subscriberId &&
        subscriber.statusPageId = pageId && subscriber.confirmedAt.isSome

/-- A claim does not take effect on an incident that was resolved quietly, and a deletion takes the
scope or the listing of a monitor from nobody who was queued the beginning of one of its incidents
and not yet its end. -/
def Tells (organizationOf : ℕ → String) (s : World) : Action → Prop
  | .claim incidentId _ _ _ now => ClaimsUnresolved s.incidents (.claim incidentId now)
  | .deleteMonitor _ monitorId _ _ => ∀ incidentId, s.openedFor incidentId = some monitorId →
      ∀ listener : Listener,
        reached s.queue.audience (organizationOf monitorId) monitorId listener = true →
        reached (cascade s.queue.audience monitorId) (organizationOf monitorId) monitorId listener =
          false →
        Queued s.queue.outbox (listener.key incidentId .opened) →
        Queued s.queue.outbox (listener.key incidentId .resolved)
  | _ => True

/-! ### What an intent queues -/

variable {audience : Audience} {organizationId : String} {incident : Incident} {listener : Listener}

theorem mem_routes {monitor : WebhookMonitor} {kind : SubscriberKind} {transition : Option ℕ}
    {channel : Channel} : channel ∈ resolveRoutes audience organizationId
        (incidentDispatch kind.event incident (some monitor) transition) ↔
      channel ∈ audience.channels ∧ channel.organizationId = organizationId ∧
        channel.enabled = true ∧ channel.events.contains .incident = true ∧
        channel.inScope audience (some monitor.id) = true := by
  have hclass : classifyEvent kind.event (some monitor.checkType) = some .incident := by
    cases kind <;> rfl
  simp [resolveRoutes, incidentDispatch, hclass, and_assoc]

theorem reached_channel_iff {monitorId id : ℕ} :
    reached audience organizationId monitorId (.channel id) = true ↔
      ∃ channel ∈ audience.channels, channel.id = id ∧ channel.organizationId = organizationId ∧
        channel.enabled = true ∧ channel.events.contains .incident = true ∧
        channel.inScope audience (some monitorId) = true ∧
        channelProviders.contains channel.provider = true := by
  simp only [reached, List.any_eq_true, Bool.and_eq_true, decide_eq_true_eq, and_assoc]

theorem reached_subscriber_iff {monitorId pageId subscriberId : ℕ} :
    reached audience organizationId monitorId (.subscriber pageId subscriberId) = true ↔
      (∃ page ∈ audience.pages, page.id = pageId ∧ page.organizationId = organizationId ∧
        page.published = true ∧ page.isPublic = true ∧
        page.lists audience (some monitorId) = true) ∧
      ∃ subscriber ∈ audience.subscribers, subscriber.id = subscriberId ∧
        subscriber.statusPageId = pageId ∧ subscriber.confirmedAt.isSome = true := by
  simp only [reached, List.any_eq_true, Bool.and_eq_true, decide_eq_true_eq, and_assoc]

/-- Who is queued the beginning of an incident could be reached. -/
theorem reached_of_opened {organizationId checkType : String} {monitorId incidentId : ℕ}
    {pagedElsewhere : Bool} {message : OutboxMessage} (hsource : incident.source = .monitor)
    (hlink : incident.monitorId = some monitorId ∨ incident.monitorId = none)
    (hmem : message ∈ expandPayload .none audience organizationId (openedIntent incident ⟨monitorId,
      checkType⟩ pagedElsewhere))
    (hkey : message.idempotencyKey = listener.key incidentId .opened) :
    incidentId = incident.id ∧ reached audience organizationId monitorId listener = true := by
  rcases mem_expandPayload.mp hmem with ⟨dispatch, hdispatch, hmem⟩ | ⟨email, -, hmem⟩ |
    ⟨target, htarget, hmem⟩
  · obtain ⟨channel, hroute, hprovider, rfl⟩ := mem_dispatchToChannels.mp hmem
    cases listener with
    | subscriber pageId subscriberId => cases hkey
    | channel id =>
      obtain ⟨hcause, rfl⟩ := IdempotencyKey.channel.inj hkey
      simp only [openedIntent, List.mem_cons, List.not_mem_nil, or_false] at hdispatch
      rcases hdispatch with rfl | rfl
      · cases hcause
      · obtain ⟨hmem, horganization, henabled, hclass, hscope⟩ := mem_routes.mp
          (show channel ∈ resolveRoutes audience organizationId
            (incidentDispatch SubscriberKind.opened.event incident _ none) from hroute)
        exact ⟨(Cause.dispatch.inj hcause).1.symm, reached_channel_iff.mpr
          ⟨channel, hmem, rfl, horganization, henabled, hclass, hscope, hprovider⟩⟩
  · obtain ⟨member, -, rfl⟩ := List.mem_map.mp hmem
    cases listener <;> cases hkey
  · cases htarget
    have hnotManual : (subscriberTarget incident .opened none).source ≠ .manual := by
      simp [subscriberTarget, hsource]
    obtain ⟨id, hid, page, hpage, ⟨horganization, hpublished, hpublic, hlists⟩, subscriber,
      hsubscriber, ⟨hof, hconfirmed⟩, rfl⟩ := (mem_enqueueSubscriberEmails hnotManual).mp hmem
    cases listener with
    | channel id => cases hkey
    | subscriber pageId subscriberId =>
      obtain ⟨hcause, rfl, rfl⟩ := IdempotencyKey.subscriber.inj hkey
      have hid : incident.monitorId = some id := hid
      obtain rfl : id = monitorId := by
        rcases hlink with hlink | hlink <;> simpa [hlink] using hid.symm
      exact ⟨(Cause.subscribers.inj hcause).1.symm, reached_subscriber_iff.mpr
        ⟨⟨page, hpage, rfl, horganization, hpublished, hpublic, hlists⟩, subscriber, hsubscriber,
          rfl, hof, hconfirmed⟩⟩

/-- What the intent of an incident's end is like, whoever wrote it. -/
structure Ends (incident : Incident) (monitorId : ℕ) (payload : DispatchIntentPayload) : Prop where
  dispatch : ∃ checkType, incidentDispatch .incidentResolved incident
    (some ⟨monitorId, checkType⟩) none ∈ payload.dispatches
  subscribers : payload.subscribers = some (subscriberTarget incident .resolved none)
  causes : ∀ dispatch ∈ payload.dispatches, ∀ id,
    dispatch.causeKey ≠ .dispatch id .incidentOpened none

/-- Whoever can be reached is queued the end of an incident. -/
theorem queued_of_reached {monitorId : ℕ} {payload : DispatchIntentPayload}
    (hsource : incident.source = .monitor) (hlink : incident.monitorId = some monitorId)
    (hends : Ends incident monitorId payload)
    (h : reached audience organizationId monitorId listener = true) :
    ∃ message ∈ expandPayload .none audience organizationId payload,
      message.idempotencyKey = listener.key incident.id .resolved := by
  cases listener with
  | channel id =>
    obtain ⟨channel, hmem, rfl, horganization, henabled, hclass, hscope, hprovider⟩ :=
      reached_channel_iff.mp h
    obtain ⟨checkType, hdispatch⟩ := hends.dispatch
    have hroute : channel ∈ resolveRoutes audience organizationId (incidentDispatch
        SubscriberKind.resolved.event incident (some ⟨monitorId, checkType⟩) none) :=
      mem_routes.mpr ⟨hmem, horganization, henabled, hclass, hscope⟩
    exact ⟨_, mem_expandPayload.mpr (.inl ⟨_, hdispatch, mem_dispatchToChannels.mpr
      ⟨channel, hroute, hprovider, rfl⟩⟩), rfl⟩
  | subscriber pageId subscriberId =>
    obtain ⟨⟨page, hpage, rfl, horganization, hpublished, hpublic, hlists⟩, subscriber, hsubscriber,
      rfl, hof, hconfirmed⟩ := reached_subscriber_iff.mp h
    have hnotManual : (subscriberTarget incident .resolved none).source ≠ .manual := by
      simp [subscriberTarget, hsource]
    exact ⟨_, mem_expandPayload.mpr (.inr (.inr ⟨_, hends.subscribers,
      (mem_enqueueSubscriberEmails hnotManual).mpr ⟨monitorId, hlink, page, hpage,
        ⟨horganization, hpublished, hpublic, hlists⟩, subscriber, hsubscriber, ⟨hof, hconfirmed⟩,
        rfl⟩⟩)), rfl⟩

/-- An intent without a cause of the beginning queues the beginning to nobody. -/
theorem not_opened {payload : DispatchIntentPayload} {message : OutboxMessage} {incidentId : ℕ}
    (hdispatches : ∀ dispatch ∈ payload.dispatches, ∀ id, dispatch.causeKey ≠ .dispatch id
      .incidentOpened none)
    (hsubscribers : ∀ target, payload.subscribers = some target → ∀ id, target.causeKey ≠
      .subscribers id .opened none)
    (hmem : message ∈ expandPayload .none audience organizationId payload) :
    message.idempotencyKey ≠ listener.key incidentId .opened := by
  intro hkey
  rcases mem_expandPayload.mp hmem with ⟨dispatch, hdispatch, hmem⟩ | ⟨email, -, hmem⟩ |
    ⟨target, htarget, hmem⟩
  · obtain ⟨channel, -, -, rfl⟩ := mem_dispatchToChannels.mp hmem
    cases listener with
    | subscriber pageId subscriberId => cases hkey
    | channel id => exact hdispatches dispatch hdispatch _ (IdempotencyKey.channel.inj hkey).1
  · obtain ⟨member, -, rfl⟩ := List.mem_map.mp hmem
    cases listener <;> cases hkey
  · obtain ⟨pageId, subscriberId, hsub⟩ := enqueueSubscriberEmails_key hmem
    rw [hsub] at hkey
    cases listener with
    | channel id => cases hkey
    | subscriber pageId' subscriberId' =>
      exact hsubscribers target htarget _ (IdempotencyKey.subscriber.inj hkey).1

/-! ### What the intents of an incident say -/

/-- What an intent of an incident, opened for a monitor, says. -/
inductive Says (row : IntentRow) (incident : Incident) (monitorId : ℕ) : Prop where
  | opened (cause : row.causeKey = .dispatch incident.id .incidentOpened none)
      (link : incident.monitorId = some monitorId ∨ incident.monitorId = none)
      (payload : ∃ checkType pagedElsewhere,
        row.payload = openedIntent incident ⟨monitorId, checkType⟩ pagedElsewhere)
  | resolved (cause : row.causeKey = .dispatch incident.id .incidentResolved none)
      (link : incident.monitorId = some monitorId) (ends : Ends incident monitorId row.payload)
  | updated (eventId : ℕ)
      (cause : row.causeKey = .dispatch incident.id .incidentUpdated (some eventId))
      (payload : ∃ monitor,
        row.payload = operatorIntent incident monitor .incidentUpdated (some eventId))

def Owed (organizationOf : ℕ → String) (openedFor : ℕ → Option ℕ) (row : IntentRow) : Prop :=
  ∃ incident monitorId, openedFor incident.id = some monitorId ∧
    row.organizationId = organizationOf monitorId ∧ incident.source = .monitor ∧
    Says row incident monitorId

theorem ends_resolvedIntent (incident : Incident) (monitorId : ℕ) (checkType : String) :
    Ends incident monitorId (resolvedIntent incident ⟨monitorId, checkType⟩) where
  dispatch := ⟨checkType, by simp [resolvedIntent]⟩
  subscribers := rfl
  causes := by simp [resolvedIntent, incidentDispatch]

theorem ends_operatorIntent (incident : Incident) (monitorId : ℕ) (checkType : String)
    (memberEmail : Option IntentEmail) :
    Ends incident monitorId { operatorIntent incident (some ⟨monitorId, checkType⟩)
      .incidentResolved none with memberEmail } where
  dispatch := ⟨checkType, by simp [operatorIntent]⟩
  subscribers := rfl
  causes := by simp [operatorIntent, incidentDispatch]

theorem Queued.mono {outbox outbox' : List QueuedRow} {key : IdempotencyKey} (h : outbox ⊆ outbox')
    (hkey : Queued outbox key) : Queued outbox' key := by
  obtain ⟨q, hq, hkey⟩ := hkey
  exact ⟨q, h hq, hkey⟩

section Rows

variable {organizationOf : ℕ → String}

variable {openedFor : ℕ → Option ℕ} {row : IntentRow}

theorem Owed.update {id monitorId : ℕ} (h : Owed organizationOf openedFor row)
    (hfree : openedFor id = none) :
    Owed organizationOf (Function.update openedFor id (some monitorId)) row := by
  obtain ⟨incident, monitorId', hopened, hrest⟩ := h
  have hne : incident.id ≠ id := by
    rintro rfl
    rw [hfree] at hopened
    cases hopened
  exact ⟨incident, monitorId', (Function.update_of_ne hne _ _).trans hopened, hrest⟩

theorem Owed.cause {incidentId : ℕ} {event : WebhookEvent} {key : Option ℕ}
    (h : Owed organizationOf openedFor row)
    (hcause : row.causeKey = .dispatch incidentId event key) :
    ∃ monitorId, openedFor incidentId = some monitorId := by
  obtain ⟨incident, monitorId, hopened, -, -, hsays⟩ := h
  have hid : incident.id = incidentId := by
    cases hsays with
    | opened cause _ _ => exact (Cause.dispatch.inj (cause.symm.trans hcause)).1
    | resolved cause _ _ => exact (Cause.dispatch.inj (cause.symm.trans hcause)).1
    | updated _ cause _ => exact (Cause.dispatch.inj (cause.symm.trans hcause)).1
  exact ⟨monitorId, hid ▸ hopened⟩

theorem Owed.expanded {state : IntentState} {lastError : Option Js.Text.JsString}
    (h : Owed organizationOf openedFor row) :
    Owed organizationOf openedFor { row with state, lastError } := by
  obtain ⟨incident, monitorId, hopened, horganization, hsource, hsays⟩ := h
  refine ⟨incident, monitorId, hopened, horganization, hsource, ?_⟩
  cases hsays with
  | opened cause link payload => exact .opened cause link payload
  | resolved cause link ends => exact .resolved cause link ends
  | updated eventId cause payload => exact .updated eventId cause payload

/-- Who is queued the beginning of an incident by an intent, and which intent it was. -/
theorem Owed.opened {audience : Audience} {message : OutboxMessage} {incidentId : ℕ}
    {listener : Listener} (h : Owed organizationOf openedFor row)
    (hmem : message ∈ expandPayload .none audience row.organizationId row.payload)
    (hkey : message.idempotencyKey = listener.key incidentId .opened) :
    row.causeKey = .dispatch incidentId .incidentOpened none ∧
      ∃ monitorId, openedFor incidentId = some monitorId ∧
        reached audience (organizationOf monitorId) monitorId listener = true := by
  obtain ⟨incident, monitorId, hopened, horganization, hsource, hsays⟩ := h
  cases hsays with
  | opened cause link payload =>
    obtain ⟨checkType, pagedElsewhere, hpayload⟩ := payload
    rw [hpayload] at hmem
    obtain ⟨rfl, hreached⟩ := reached_of_opened hsource link hmem hkey
    exact ⟨cause, monitorId, hopened, horganization ▸ hreached⟩
  | resolved cause link ends =>
    refine absurd hkey (not_opened ends.causes (fun target htarget id => ?_) hmem)
    rw [ends.subscribers] at htarget
    cases htarget
    simp [subscriberTarget]
  | updated eventId cause payload =>
    obtain ⟨monitor, hpayload⟩ := payload
    refine absurd hkey (not_opened ?_ (fun target htarget id => ?_) hmem)
    · rw [hpayload]
      simp [operatorIntent, incidentDispatch]
    · rw [hpayload] at htarget
      cases htarget
      simp [subscriberTarget]

/-- Whoever can be reached is queued the end when its intent is expanded. -/
theorem Owed.resolved {audience : Audience} {incidentId monitorId : ℕ} {listener : Listener}
    (h : Owed organizationOf openedFor row)
    (hcause : row.causeKey = .dispatch incidentId .incidentResolved none)
    (hfor : openedFor incidentId = some monitorId)
    (hreached : reached audience (organizationOf monitorId) monitorId listener = true) :
    ∃ message ∈ expandPayload .none audience row.organizationId row.payload,
      message.idempotencyKey = listener.key incidentId .resolved := by
  obtain ⟨incident, monitorId', hopened, horganization, hsource, hsays⟩ := h
  cases hsays with
  | opened cause link payload => cases cause.symm.trans hcause
  | updated eventId cause payload => cases cause.symm.trans hcause
  | resolved cause link ends =>
    obtain rfl : incident.id = incidentId := (Cause.dispatch.inj (cause.symm.trans hcause)).1
    obtain rfl : monitorId' = monitorId := Option.some.inj (hopened.symm.trans hfor)
    exact queued_of_reached hsource link ends (horganization ▸ hreached)

end Rows

end Vigil.Notifications.Heard
