import Vigil.Incidents.Store

/-! Dispatch intents and what they expand to: `notifications/intents.ts`, the audience that
`channel-service.ts`, `incident-emails.ts` and `subscriber-emails.ts` resolve at expansion, and the
insert of `outbox.ts`.  The texts of the messages are left out.  A key that the source writes as a
string is the tuple that the string is made of; the identifiers in it are numbers here. -/

namespace Vigil.Notifications.Intents

open Incidents.Store

/-- The events that a channel can be told. -/
inductive WebhookEvent where
  | incidentOpened
  | incidentUpdated
  | incidentResolved
  | monitorDown
  | monitorUp
  | webhookTest
  | recoveryExecute
  | recoveryTest
  deriving DecidableEq, Repr

/-- The classes of events that a channel subscribes to. -/
inductive EventClass where
  | monitor
  | incident
  | expiry
  deriving DecidableEq, Repr

def expiryMonitorTypes : List String := ["tls-expiry", "domain-expiry"]

/-- The class that a channel subscribes to; `none` is the class of events that are not routed. -/
def classifyEvent (event : WebhookEvent) (monitorType : Option String) : Option EventClass :=
  match event with
  | .monitorDown | .monitorUp =>
    some (if monitorType.any expiryMonitorTypes.contains then .expiry else .monitor)
  | .incidentOpened | .incidentUpdated | .incidentResolved => some .incident
  | .webhookTest | .recoveryExecute | .recoveryTest => none

inductive SubscriberKind where
  | opened
  | updated
  | resolved
  deriving DecidableEq, Repr

def SubscriberKind.event : SubscriberKind → WebhookEvent
  | .opened => .incidentOpened
  | .updated => .incidentUpdated
  | .resolved => .incidentResolved

/-- The key of a cause, from which the keys of its messages are made. -/
inductive Cause where
  /-- `incident:<id>:<event>`, followed by `:<timeline entry>` for an event that can recur. -/
  | dispatch (incidentId : ℕ) (event : WebhookEvent) (transitionKey : Option ℕ)
  /-- `incident:<id>:opened` and `incident:<id>:resolved`. -/
  | member (incidentId : ℕ) (resolved : Bool)
  /-- `incident:<id>:subscribers:<kind>`, followed by the timeline entry as above. -/
  | subscribers (incidentId : ℕ) (kind : SubscriberKind) (transitionKey : Option ℕ)
  /-- The cause of a recovery, an objective, a runbook or a task. -/
  | other (key : String)
  deriving DecidableEq, Repr

/-- An event that the channels of an organization are owed. -/
structure IntentDispatch where
  event : WebhookEvent
  causeKey : Cause
  monitorType : Option String
  monitorId : Option ℕ
  deriving DecidableEq, Repr

/-- A mail that the members of an organization are owed. -/
structure IntentEmail where
  event : WebhookEvent
  causeKey : Cause
  deriving DecidableEq, Repr

/-- A mail that the subscribers of the status pages are owed. -/
structure IntentSubscribers where
  kind : SubscriberKind
  causeKey : Cause
  incidentId : ℕ
  monitorId : Option ℕ
  source : IncidentSource
  deriving DecidableEq, Repr

/-- All that one intent owes. -/
structure DispatchIntentPayload where
  dispatches : List IntentDispatch
  memberEmail : Option IntentEmail
  subscribers : Option IntentSubscribers
  deriving DecidableEq, Repr

def DispatchIntentPayload.owesNothing (payload : DispatchIntentPayload) : Bool :=
  payload.dispatches.isEmpty && payload.memberEmail.isNone && payload.subscribers.isNone

/-! ### What a transition owes -/

/-- A monitor as an event names it. -/
structure WebhookMonitor where
  id : ℕ
  checkType : String
  deriving DecidableEq, Repr

def incidentDispatch (event : WebhookEvent) (incident : Incident)
    (monitor : Option WebhookMonitor) (transitionKey : Option ℕ) : IntentDispatch where
  event
  causeKey := .dispatch incident.id event transitionKey
  monitorType := monitor.map (·.checkType)
  monitorId := monitor.map (·.id)

def subscriberTarget (incident : Incident) (kind : SubscriberKind) (transitionKey : Option ℕ) :
    IntentSubscribers where
  kind
  causeKey := .subscribers incident.id kind transitionKey
  incidentId := incident.id
  monitorId := incident.monitorId
  source := incident.source

def openedIntent (incident : Incident) (monitor : WebhookMonitor) (pagedElsewhere : Bool) :
    DispatchIntentPayload where
  dispatches :=
    [incidentDispatch .monitorDown incident (some monitor) none,
      incidentDispatch .incidentOpened incident (some monitor) none]
  memberEmail := if pagedElsewhere then none else some ⟨.incidentOpened, .member incident.id false⟩
  subscribers := some (subscriberTarget incident .opened none)

/-- What the end of an incident owes. -/
def resolvedIntent (incident : Incident) (monitor : WebhookMonitor) : DispatchIntentPayload where
  dispatches :=
    [incidentDispatch .monitorUp incident (some monitor) none,
      incidentDispatch .incidentResolved incident (some monitor) none]
  memberEmail := some ⟨.incidentResolved, .member incident.id true⟩
  subscribers := some (subscriberTarget incident .resolved none)

def subscriberKind? : WebhookEvent → Option SubscriberKind
  | .incidentOpened => some .opened
  | .incidentUpdated => some .updated
  | .incidentResolved => some .resolved
  | _ => none

def operatorIntent (incident : Incident) (monitor : Option WebhookMonitor) (event : WebhookEvent)
    (transitionKey : Option ℕ) : DispatchIntentPayload where
  dispatches := [incidentDispatch event incident monitor transitionKey]
  memberEmail := none
  subscribers := (subscriberKind? event).map fun kind => subscriberTarget incident kind transitionKey

/-! ### The audience -/

/-- A row of `notification_channels`, as far as the routes read it. -/
structure Channel where
  id : ℕ
  organizationId : String
  provider : String
  enabled : Bool
  events : List EventClass
  scopedToMonitors : Bool
  deriving DecidableEq, Repr

/-- The roles of a member. -/
inductive Role where
  | owner
  | admin
  | responder
  | viewer
  deriving DecidableEq, Repr

def Role.notified : Role → Bool
  | .owner | .admin | .responder => true
  | .viewer => false

/-- A member of an organization. -/
structure Member where
  organizationId : String
  email : String
  role : Role
  deriving DecidableEq, Repr

/-- A status page, as far as its subscribers' mail reads it. -/
structure StatusPage where
  id : ℕ
  organizationId : String
  published : Bool
  isPublic : Bool
  deriving DecidableEq, Repr

/-- A subscriber of a status page, confirmed or not. -/
structure Subscriber where
  id : ℕ
  statusPageId : ℕ
  confirmedAt : Option ℤ
  deriving DecidableEq, Repr

/-- The tables that an expansion reads, each in the order that its query returns. -/
structure Audience where
  channels : List Channel
  /-- `notification_channel_monitors`: a channel and a monitor that it is scoped to. -/
  channelMonitors : List (ℕ × ℕ)
  members : List Member
  pages : List StatusPage
  /-- `status_page_monitors`: a page and a monitor that it lists. -/
  pageMonitors : List (ℕ × ℕ)
  subscribers : List Subscriber
  deriving DecidableEq, Repr

def channelProviders : List String :=
  ["slack", "discord", "teams", "telegram", "googlechat", "mattermost", "rocketchat", "matrix",
    "zulip", "line", "pagerduty", "jira", "pushover", "gotify", "ntfy", "pushbullet", "bark",
    "webpush", "homeassistant", "twilio", "twilio-whatsapp", "smtp", "resend", "webhook", "sns",
    "apprise"]

/-- Whether a channel that matches the class is addressed for the monitor of the event. -/
def Channel.inScope (audience : Audience) (monitorId : Option ℕ) (channel : Channel) : Bool :=
  !channel.scopedToMonitors ||
    monitorId.any fun id => audience.channelMonitors.contains (channel.id, id)

def resolveRoutes (audience : Audience) (organizationId : String) (dispatch : IntentDispatch) :
    List Channel :=
  match classifyEvent dispatch.event dispatch.monitorType with
  | none => []
  | some cls => audience.channels.filter fun channel =>
      channel.organizationId = organizationId && channel.enabled && channel.events.contains cls &&
        channel.inScope audience dispatch.monitorId

/-- The enabled channels that a policy named, in its order. -/
def channelsByIds (audience : Audience) (organizationId : String) (channelIds : List ℕ) :
    List Channel :=
  channelIds.filterMap fun id => audience.channels.find? fun channel =>
    channel.id = id && channel.organizationId = organizationId && channel.enabled

/-- The key that keeps a message from being queued twice. -/
inductive IdempotencyKey where
  /-- `<cause>:channel:<channel>`. -/
  | channel (cause : Cause) (channelId : ℕ)
  /-- `<cause>:<address>`. -/
  | member (cause : Cause) (email : String)
  /-- `<cause>:page:<page>:sub:<subscriber>`. -/
  | subscriber (cause : Cause) (pageId subscriberId : ℕ)
  deriving DecidableEq, Repr

structure OutboxMessage where
  organizationId : String
  idempotencyKey : IdempotencyKey
  event : WebhookEvent
  deriving DecidableEq, Repr

/-- What the registered policies answer about a cause; without one they answer nothing. -/
structure Policy where
  suppression : Cause → Bool
  routes : Cause → Option (List ℕ)

def Policy.none : Policy := ⟨fun _ => false, fun _ => Option.none⟩

def dispatchToChannels (policy : Policy) (audience : Audience) (organizationId : String)
    (dispatch : IntentDispatch) : List OutboxMessage :=
  if policy.suppression dispatch.causeKey then []
  else
    let matching := match policy.routes dispatch.causeKey with
      | some channelIds => channelsByIds audience organizationId channelIds
      | Option.none => resolveRoutes audience organizationId dispatch
    (matching.filter fun channel => channelProviders.contains channel.provider).map fun channel =>
      { organizationId
        idempotencyKey := .channel dispatch.causeKey channel.id
        event := dispatch.event }

def enqueueMemberEmails (audience : Audience) (organizationId : String) (email : IntentEmail) :
    List OutboxMessage :=
  (audience.members.filter fun member =>
      member.organizationId = organizationId && member.role.notified).map fun member =>
    { organizationId
      idempotencyKey := .member email.causeKey member.email
      event := email.event }

/-- Whether the page is mailed about the monitor; about a hand-written incident every page is. -/
def StatusPage.lists (audience : Audience) (monitorId : Option ℕ) (page : StatusPage) : Bool :=
  monitorId.all fun id => audience.pageMonitors.contains (page.id, id)

def enqueueSubscriberEmails (audience : Audience) (organizationId : String)
    (input : IntentSubscribers) : List OutboxMessage :=
  let listedMonitorId := if input.source = .manual then none else input.monitorId
  if input.source ≠ .manual && listedMonitorId.isNone then []
  else
    (audience.pages.filter fun page => page.organizationId = organizationId && page.published &&
        page.isPublic && page.lists audience listedMonitorId).flatMap fun page =>
      (audience.subscribers.filter fun subscriber =>
          subscriber.statusPageId = page.id && subscriber.confirmedAt.isSome).map fun subscriber =>
        { organizationId
          idempotencyKey := .subscriber input.causeKey page.id subscriber.id
          event := input.kind.event }

/-- Everything that an intent owes, in the order in which it is queued. -/
def expandPayload (policy : Policy) (audience : Audience) (organizationId : String)
    (payload : DispatchIntentPayload) : List OutboxMessage :=
  payload.dispatches.flatMap (dispatchToChannels policy audience organizationId) ++
    ((payload.memberEmail.filter fun email => !policy.suppression email.causeKey).elim []
      (enqueueMemberEmails audience organizationId)) ++
    (payload.subscribers.filter fun target => !policy.suppression target.causeKey).elim []
      (enqueueSubscriberEmails audience organizationId)

variable {audience : Audience} {organizationId : String} {message : OutboxMessage}

theorem mem_expandPayload {payload : DispatchIntentPayload} :
    message ∈ expandPayload .none audience organizationId payload ↔
      (∃ dispatch ∈ payload.dispatches,
        message ∈ dispatchToChannels .none audience organizationId dispatch) ∨
      (∃ email, payload.memberEmail = some email ∧
        message ∈ enqueueMemberEmails audience organizationId email) ∨
      ∃ target, payload.subscribers = some target ∧
        message ∈ enqueueSubscriberEmails audience organizationId target := by
  unfold expandPayload
  cases payload.memberEmail <;> cases payload.subscribers <;>
    simp [Policy.none, Option.filter]

theorem mem_dispatchToChannels {dispatch : IntentDispatch} :
    message ∈ dispatchToChannels .none audience organizationId dispatch ↔
      ∃ channel ∈ resolveRoutes audience organizationId dispatch,
        channelProviders.contains channel.provider = true ∧
        message = ⟨organizationId, .channel dispatch.causeKey channel.id, dispatch.event⟩ := by
  simp only [dispatchToChannels, Policy.none, Bool.false_eq_true, if_false, List.mem_map,
    List.mem_filter, and_assoc]
  exact exists_congr fun channel => and_congr_right' (and_congr_right' eq_comm)

theorem mem_enqueueSubscriberEmails {target : IntentSubscribers}
    (hsource : target.source ≠ .manual) :
    message ∈ enqueueSubscriberEmails audience organizationId target ↔
      ∃ monitorId, target.monitorId = some monitorId ∧
        ∃ page ∈ audience.pages, (page.organizationId = organizationId ∧ page.published = true ∧
          page.isPublic = true ∧ page.lists audience (some monitorId) = true) ∧
        ∃ subscriber ∈ audience.subscribers,
          (subscriber.statusPageId = page.id ∧ subscriber.confirmedAt.isSome = true) ∧
          message = ⟨organizationId, .subscriber target.causeKey page.id subscriber.id,
            target.kind.event⟩ := by
  unfold enqueueSubscriberEmails
  cases hmonitor : target.monitorId with
  | none => simp [hsource]
  | some monitorId =>
    simp only [hsource, if_false, Option.isNone_some, Bool.and_false, Bool.false_eq_true,
      List.mem_flatMap, List.mem_map, List.mem_filter, Bool.and_eq_true, decide_eq_true_eq,
      Option.some.injEq, exists_eq_left', and_assoc, eq_comm (a := message)]

theorem enqueueSubscriberEmails_key {target : IntentSubscribers}
    (h : message ∈ enqueueSubscriberEmails audience organizationId target) : ∃ pageId subscriberId,
      message.idempotencyKey = .subscriber target.causeKey pageId subscriberId := by
  unfold enqueueSubscriberEmails at h
  generalize (if target.source = .manual then none else target.monitorId) = listed at h
  dsimp only at h
  split at h
  · cases h
  · obtain ⟨page, -, h⟩ := List.mem_flatMap.mp h
    obtain ⟨subscriber, -, rfl⟩ := List.mem_map.mp h
    exact ⟨page.id, subscriber.id, rfl⟩

/-! ### The outbox -/

/-- A row of the outbox, and which intent's expansion inserted it, which is not a column. -/
structure QueuedRow where
  message : OutboxMessage
  queuedBy : Option ℕ
  deriving DecidableEq, Repr

def enqueue (queuedBy : Option ℕ) (outbox : List QueuedRow) (message : OutboxMessage) :
    List QueuedRow :=
  if outbox.any fun row => row.message.idempotencyKey = message.idempotencyKey then outbox
  else ⟨message, queuedBy⟩ :: outbox

def enqueueMany (queuedBy : Option ℕ) (outbox : List QueuedRow) (messages : List OutboxMessage) :
    List QueuedRow :=
  messages.foldl (enqueue queuedBy) outbox

variable {outbox : List QueuedRow}

theorem mem_enqueue {queuedBy : Option ℕ} {row : QueuedRow}
    (h : row ∈ enqueue queuedBy outbox message) : row ∈ outbox ∨ row = ⟨message, queuedBy⟩ := by
  unfold enqueue at h
  split at h
  · exact .inl h
  · exact (List.mem_cons.mp h).symm

theorem subset_enqueue (queuedBy : Option ℕ) (outbox : List QueuedRow) (message : OutboxMessage) :
    outbox ⊆ enqueue queuedBy outbox message := by
  unfold enqueue
  split
  · exact List.Subset.refl _
  · exact List.subset_cons_self _ _

theorem enqueue_queued (queuedBy : Option ℕ) (outbox : List QueuedRow) (message : OutboxMessage) :
    ∃ row ∈ enqueue queuedBy outbox message,
      row.message.idempotencyKey = message.idempotencyKey := by
  unfold enqueue
  split
  · rename_i h
    obtain ⟨row, hrow, hkey⟩ := List.any_eq_true.mp h
    exact ⟨row, hrow, by simpa using hkey⟩
  · exact ⟨_, List.mem_cons_self, rfl⟩

/-- What the unique index on the key keeps to. -/
def OneEach (outbox : List QueuedRow) : Prop :=
  (outbox.map fun row => row.message.idempotencyKey).Nodup

theorem OneEach.enqueue {outbox : List QueuedRow} (h : OneEach outbox) (queuedBy : Option ℕ)
    (message : OutboxMessage) : OneEach (enqueue queuedBy outbox message) := by
  unfold Intents.enqueue
  split
  · exact h
  · rename_i hnew
    refine List.nodup_cons.mpr ⟨fun hmem => hnew ?_, h⟩
    obtain ⟨row, hrow, hkey⟩ := List.mem_map.mp hmem
    exact List.any_eq_true.mpr ⟨row, hrow, by simpa using hkey⟩

theorem OneEach.enqueueMany (h : OneEach outbox) (queuedBy : Option ℕ)
    (messages : List OutboxMessage) : OneEach (enqueueMany queuedBy outbox messages) :=
  List.foldlRecOn messages _ h fun _ h message _ => h.enqueue queuedBy message

theorem mem_enqueueMany {queuedBy : Option ℕ} {messages : List OutboxMessage} {row : QueuedRow}
    (h : row ∈ enqueueMany queuedBy outbox messages) :
    row ∈ outbox ∨ row.queuedBy = queuedBy ∧ row.message ∈ messages := by
  induction messages generalizing outbox with
  | nil => exact .inl h
  | cons message rest ih =>
    rcases ih h with h | ⟨hby, hmem⟩
    · rcases mem_enqueue h with h | rfl
      · exact .inl h
      · exact .inr ⟨rfl, List.mem_cons_self⟩
    · exact .inr ⟨hby, List.mem_cons_of_mem _ hmem⟩

theorem subset_enqueueMany (queuedBy : Option ℕ) (outbox : List QueuedRow)
    (messages : List OutboxMessage) : outbox ⊆ enqueueMany queuedBy outbox messages := by
  induction messages generalizing outbox with
  | nil => exact List.Subset.refl _
  | cons message rest ih =>
    exact List.Subset.trans (subset_enqueue queuedBy outbox message)
      (ih (enqueue queuedBy outbox message))

theorem enqueueMany_queued (queuedBy : Option ℕ) {outbox : List QueuedRow}
    {messages : List OutboxMessage} {message : OutboxMessage} (h : message ∈ messages) :
    ∃ row ∈ enqueueMany queuedBy outbox messages,
      row.message.idempotencyKey = message.idempotencyKey := by
  induction messages generalizing outbox with
  | nil => cases h
  | cons first rest ih =>
    rcases List.mem_cons.mp h with rfl | h
    · obtain ⟨row, hrow, hkey⟩ := enqueue_queued queuedBy outbox message
      exact ⟨row, subset_enqueueMany queuedBy _ rest hrow, hkey⟩
    · exact ih h

end Vigil.Notifications.Intents
