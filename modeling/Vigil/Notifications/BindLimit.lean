import Vigil.Notifications.Expansion

/-! The statements of an expansion: `enqueueMany` writes all of its messages with one `INSERT`, and a
statement can bind 65,535 parameters, the limit that `monitors/service.ts` states beside
`CLAIM_CHUNK`. -/

namespace Vigil.Notifications.BindLimit

open Intents Expansion

/-- What one message binds: `organizationId`, `idempotencyKey`, `channel`, `event`, `destination`,
`payload` and the hours of `horizonSql()`, and for a channel its `channelId` and `provider`. -/
def parameters (message : OutboxMessage) : ℕ :=
  match message.idempotencyKey with
  | .channel _ _ => 9
  | .member _ _ => 7
  | .subscriber _ _ _ => 7

def maxParameters : ℕ := 65535

/-- The `INSERT` of `enqueueMany`; there is none for no message. -/
def insertOf (messages : List OutboxMessage) : List (List OutboxMessage) :=
  if messages = [] then [] else [messages]

/-- The statements of `expandPayload`, one after another. -/
def inserts (policy : Policy) (audience : Audience) (organizationId : String)
    (payload : DispatchIntentPayload) : List (List OutboxMessage) :=
  payload.dispatches.flatMap (fun dispatch =>
      insertOf (dispatchToChannels policy audience organizationId dispatch)) ++
    ((payload.memberEmail.filter fun email => !policy.suppression email.causeKey).elim []
      fun email => insertOf (enqueueMemberEmails audience organizationId email)) ++
    (payload.subscribers.filter fun target => !policy.suppression target.causeKey).elim []
      fun target => insertOf (enqueueSubscriberEmails audience organizationId target)

def bound (insert : List OutboxMessage) : ℕ := (insert.map parameters).sum

/-- `expandOne`, which throws where the database refuses a statement. -/
def tryExpandOne (policy : Policy) (db : Db) (id : ℕ) : Option Db :=
  match (db.intents id).filter (·.state = .pending) with
  | none => some db
  | some row =>
    if (inserts policy db.audience row.organizationId row.payload).all (bound · ≤ maxParameters) then
      some (expandOne policy db id)
    else none

theorem flatten_insertOf (messages : List OutboxMessage) :
    (insertOf messages).flatten = messages := by
  unfold insertOf
  split
  · rename_i h
    rw [h]
    rfl
  · exact List.flatten_singleton

variable (policy : Policy) (audience : Audience)

theorem flatten_inserts (audience : Audience) (organizationId : String)
    (payload : DispatchIntentPayload) : (inserts policy audience organizationId payload).flatten =
      expandPayload policy audience organizationId payload := by
  have hchannels : (payload.dispatches.flatMap fun dispatch =>
      insertOf (dispatchToChannels policy audience organizationId dispatch)).flatten =
        payload.dispatches.flatMap (dispatchToChannels policy audience organizationId) := by
    induction payload.dispatches with
    | nil => rfl
    | cons dispatch rest ih =>
      rw [List.flatMap_cons, List.flatMap_cons, List.flatten_append, flatten_insertOf, ih]
  rw [inserts, expandPayload, List.flatten_append, List.flatten_append, hchannels]
  congr 1
  · congr 1
    cases payload.memberEmail.filter fun email => !policy.suppression email.causeKey with
    | none => rfl
    | some email => exact flatten_insertOf _
  · cases payload.subscribers.filter fun target => !policy.suppression target.causeKey with
    | none => rfl
    | some target => exact flatten_insertOf _

/-! ### How large an audience is -/

/-- The channels that a dispatch goes to. -/
def routedChannels (policy : Policy) (audience : Audience) (organizationId : String)
    (dispatch : IntentDispatch) : ℕ :=
  if policy.suppression dispatch.causeKey then 0
  else
    (match policy.routes dispatch.causeKey with
      | some channelIds => channelsByIds audience organizationId channelIds
      | none => resolveRoutes audience organizationId dispatch).countP
        fun (channel : Channel) => channelProviders.contains channel.provider

def pagedMembers (audience : Audience) (organizationId : String) : ℕ :=
  audience.members.countP fun member =>
    member.organizationId = organizationId && member.role.notified

/-- The pages that tell their subscribers. -/
def toldPages (audience : Audience) (organizationId : String) (input : IntentSubscribers) :
    List StatusPage :=
  let listedMonitorId := if input.source = .manual then none else input.monitorId
  if input.source ≠ .manual && listedMonitorId.isNone then []
  else audience.pages.filter fun page => page.organizationId = organizationId && page.published &&
    page.isPublic && page.lists audience listedMonitorId

/-- The confirmed subscribers over all of these pages. -/
def confirmedSubscribers (audience : Audience) (organizationId : String)
    (input : IntentSubscribers) : ℕ :=
  ((toldPages audience organizationId input).map fun page =>
    audience.subscribers.countP fun subscriber =>
      subscriber.statusPageId = page.id && subscriber.confirmedAt.isSome).sum

/-- Each of the audiences is small enough for one statement. -/
structure FitsOneBind (policy : Policy) (audience : Audience) (organizationId : String)
    (payload : DispatchIntentPayload) : Prop where
  channels : ∀ dispatch ∈ payload.dispatches,
    routedChannels policy audience organizationId dispatch ≤ 7281
  members : ∀ email, payload.memberEmail = some email →
    policy.suppression email.causeKey = false → pagedMembers audience organizationId ≤ 9362
  subscribers : ∀ target, payload.subscribers = some target →
    policy.suppression target.causeKey = false →
      confirmedSubscribers audience organizationId target ≤ 9362

theorem length_dispatchToChannels (audience : Audience) (organizationId : String)
    (dispatch : IntentDispatch) :
    (dispatchToChannels policy audience organizationId dispatch).length =
      routedChannels policy audience organizationId dispatch := by
  unfold dispatchToChannels routedChannels
  split
  · rfl
  · cases policy.routes dispatch.causeKey with
    | none => exact (List.length_map _).trans List.countP_eq_length_filter.symm
    | some channelIds => exact (List.length_map _).trans List.countP_eq_length_filter.symm

theorem length_enqueueMemberEmails (organizationId : String) (email : IntentEmail) :
    (enqueueMemberEmails audience organizationId email).length =
      pagedMembers audience organizationId := by
  rw [enqueueMemberEmails, List.length_map, pagedMembers, List.countP_eq_length_filter]

theorem length_enqueueSubscriberEmails (organizationId : String) (input : IntentSubscribers) :
    (enqueueSubscriberEmails audience organizationId input).length =
      confirmedSubscribers audience organizationId input := by
  unfold enqueueSubscriberEmails confirmedSubscribers toldPages
  generalize (if input.source = .manual then none else input.monitorId) = listed
  dsimp only
  split
  · rfl
  · rw [List.length_flatMap]
    simp only [List.length_map, List.countP_eq_length_filter]

/-- A statement binds as many times what one of its messages binds as it has messages. -/
theorem bound_of_all {n : ℕ} {messages : List OutboxMessage}
    (h : ∀ message ∈ messages, parameters message = n) : bound messages = messages.length * n := by
  rw [bound, List.map_congr_left h, List.map_const', List.sum_replicate_nat]

theorem forall_insertOf {messages : List OutboxMessage} {n most : ℕ}
    (h : ∀ message ∈ messages, parameters message = n)
    (hmost : ∀ count, count * n ≤ maxParameters ↔ count ≤ most) :
    (∀ insert ∈ insertOf messages, bound insert ≤ maxParameters) ↔ messages.length ≤ most := by
  rw [← hmost, ← bound_of_all h]
  unfold insertOf
  split
  · rename_i hnil
    rw [hnil]
    exact ⟨fun _ => Nat.zero_le _, nofun⟩
  · exact List.forall_mem_singleton

theorem forall_dispatch_inserts (audience : Audience) (organizationId : String)
    (dispatch : IntentDispatch) :
    (∀ insert ∈ insertOf (dispatchToChannels policy audience organizationId dispatch),
      bound insert ≤ maxParameters) ↔
        routedChannels policy audience organizationId dispatch ≤ 7281 := by
  rw [← length_dispatchToChannels]
  refine forall_insertOf (n := 9) (fun message hmessage => ?_) fun count => ?_
  · unfold dispatchToChannels at hmessage
    split at hmessage
    · cases hmessage
    · obtain ⟨channel, -, rfl⟩ := List.mem_map.mp hmessage
      rfl
  · unfold maxParameters
    omega

theorem forall_member_inserts (organizationId : String) (email : IntentEmail) :
    (∀ insert ∈ insertOf (enqueueMemberEmails audience organizationId email),
      bound insert ≤ maxParameters) ↔ pagedMembers audience organizationId ≤ 9362 := by
  rw [← length_enqueueMemberEmails audience organizationId email]
  refine forall_insertOf (n := 7) (fun message hmessage => ?_) fun count => ?_
  · obtain ⟨member, -, rfl⟩ := List.mem_map.mp hmessage
    rfl
  · unfold maxParameters
    omega

theorem forall_subscriber_inserts (organizationId : String) (input : IntentSubscribers) :
    (∀ insert ∈ insertOf (enqueueSubscriberEmails audience organizationId input),
      bound insert ≤ maxParameters) ↔
        confirmedSubscribers audience organizationId input ≤ 9362 := by
  rw [← length_enqueueSubscriberEmails]
  refine forall_insertOf (n := 7) (fun message hmessage => ?_) fun count => ?_
  · unfold enqueueSubscriberEmails at hmessage
    generalize (if input.source = .manual then none else input.monitorId) = listed at hmessage
    dsimp only at hmessage
    split at hmessage
    · cases hmessage
    · obtain ⟨page, -, hmessage⟩ := List.mem_flatMap.mp hmessage
      obtain ⟨subscriber, -, rfl⟩ := List.mem_map.mp hmessage
      rfl
  · unfold maxParameters
    omega

theorem forall_optional {α β : Type} {p : β → Prop} (o : Option α) (keep : α → Bool)
    (f : α → List β) :
    (∀ x ∈ (o.filter keep).elim [] f, p x) ↔
      ∀ a, o = some a → keep a = true → ∀ x ∈ f a, p x := by
  cases o with
  | none =>
    exact ⟨fun _ a ha => (by cases ha), nofun⟩
  | some a =>
    rw [Option.filter_some]
    constructor
    · rintro h b ⟨⟩ hkeep
      rw [if_pos hkeep] at h
      exact h
    · intro h
      split
      · rename_i hkeep
        exact h a rfl hkeep
      · exact nofun

theorem inserts_fit_iff (audience : Audience) (organizationId : String)
    (payload : DispatchIntentPayload) :
    (∀ insert ∈ inserts policy audience organizationId payload, bound insert ≤ maxParameters) ↔
      FitsOneBind policy audience organizationId payload := by
  unfold inserts
  rw [List.forall_mem_append, List.forall_mem_append, List.forall_mem_flatMap, forall_optional,
    forall_optional]
  simp only [forall_dispatch_inserts, forall_member_inserts, forall_subscriber_inserts,
    Bool.not_eq_true']
  exact ⟨fun h => ⟨h.1.1, h.1.2, h.2⟩, fun h => ⟨⟨h.channels, h.members⟩, h.subscribers⟩⟩

/-- The expansion of a pending intent binds no more than a statement can, and so does not throw,
exactly when its audiences are small enough. -/
theorem expansion_fits_iff (policy : Policy) (db : Db) (id : ℕ) (row : IntentRow)
    (hrow : db.intents id = some row) (hpending : row.state = .pending) :
    ((∀ insert ∈ inserts policy db.audience row.organizationId row.payload,
        bound insert ≤ maxParameters) ∧
      tryExpandOne policy db id = some (expandOne policy db id)) ↔
        FitsOneBind policy db.audience row.organizationId row.payload := by
  rw [← inserts_fit_iff]
  refine ⟨fun h => h.1, fun h => ⟨h, ?_⟩⟩
  have hfilter : (db.intents id).filter (·.state = .pending) = some row := by
    rw [hrow, Option.filter_some, if_pos (by rw [hpending]; rfl)]
  have hall : (inserts policy db.audience row.organizationId row.payload).all
      (bound · ≤ maxParameters) = true :=
    List.all_eq_true.mpr fun insert hinsert => decide_eq_true (h insert hinsert)
  rw [tryExpandOne, hfilter]
  simp only [hall, if_true]

/-! ### One subscriber too many -/

/-- A page with so many confirmed subscribers. -/
def subscribed (count : ℕ) : Audience where
  channels := []
  channelMonitors := []
  members := []
  pages := [{ id := 1, organizationId := "org", published := true, isPublic := true }]
  pageMonitors := []
  subscribers := (List.range count).map fun id => { id, statusPageId := 1, confirmedAt := some 0 }

/-- An announcement written by hand, which is owed to the subscribers of the page. -/
def announcement : IntentSubscribers where
  kind := .opened
  causeKey := .subscribers 1 .opened none
  incidentId := 1
  monitorId := none
  source := .manual

def announced : IntentRow where
  organizationId := "org"
  causeKey := .dispatch 1 .incidentOpened none
  payload := { dispatches := [], memberEmail := none, subscribers := some announcement }
  state := .pending
  attempts := 0
  lastError := none

def announcing (count : ℕ) : Db where
  intents id := if id = 0 then some announced else none
  nextId := 1
  outbox := []
  audience := subscribed count

theorem confirmedSubscribers_subscribed (count : ℕ) :
    confirmedSubscribers (subscribed count) "org" announcement = count := by
  have hcount : (subscribed count).subscribers.countP (fun subscriber =>
      subscriber.statusPageId = 1 && subscriber.confirmedAt.isSome) = count := by
    rw [subscribed, List.countP_map]
    exact (List.countP_eq_length.mpr fun _ _ => rfl).trans List.length_range
  exact (Nat.add_zero _).trans hcount

theorem announcing_fits :
    ((∀ insert ∈ inserts .none (subscribed 2) "org" announced.payload,
        bound insert ≤ maxParameters) ∧
      tryExpandOne .none (announcing 2) 0 = some (expandOne .none (announcing 2) 0)) ↔
        FitsOneBind .none (subscribed 2) "org" announced.payload :=
  expansion_fits_iff .none (announcing 2) 0 announced rfl rfl

/-- The mail to 9,363 subscribers binds 65,541 parameters, and its expansion throws. -/
theorem announcing_throws :
    tryExpandOne .none (announcing 9363) 0 = none ∧
      ∃ insert ∈ inserts .none (subscribed 9363) "org" announced.payload,
        maxParameters < bound insert := by
  have hnot : ¬∀ insert ∈ inserts .none (subscribed 9363) "org" announced.payload,
      bound insert ≤ maxParameters := by
    rw [inserts_fit_iff]
    intro h
    have hmany := h.subscribers announcement rfl rfl
    rw [confirmedSubscribers_subscribed] at hmany
    omega
  have hall : (inserts .none (subscribed 9363) "org" announced.payload).all
      (bound · ≤ maxParameters) = false := by
    rw [Bool.eq_false_iff]
    intro h
    exact hnot fun insert hinsert => of_decide_eq_true (List.all_eq_true.mp h insert hinsert)
  constructor
  · have hrow : ((announcing 9363).intents 0).filter (·.state = .pending) = some announced := rfl
    rw [tryExpandOne, hrow]
    exact if_neg (by
      rw [show (announcing 9363).audience = subscribed 9363 from rfl]
      exact Bool.eq_false_iff.mp hall)
  · simpa using hnot

end Vigil.Notifications.BindLimit
