import Mathlib.Data.List.Perm.Subperm
import Vigil.Lib.Calls
import Vigil.Lib.Run
import Vigil.Notifications.Intents

/-! Which monitors a notification channel is scoped to: the calls of
`notifications/channel-service.ts` that save, copy, switch and delete channels, and the rows of
`notification_channel_monitors` that go when a monitor is deleted.  What `validateInput` finds
wrong with an input is a parameter, and every transaction is one step. -/

namespace Vigil.Notifications.ChannelScope

open Lib Lib.Calls Intents

/-- An error that the caller is shown. -/
structure AppError where
  message : String
  deriving DecidableEq, Repr

/-- The columns of a monitor that the scope is checked against. -/
structure Monitor where
  id : ℕ
  organizationId : String
  deriving DecidableEq, Repr

/-- What the form of a channel sends. -/
structure ChannelInput where
  provider : String
  events : List EventClass
  enabled : Bool
  /-- Absent leaves the scope alone, and the empty list is every monitor. -/
  monitorIds : Option (List ℕ)
  deriving DecidableEq, Repr

/-- A channel as the console shows it. -/
structure ChannelView where
  id : ℕ
  provider : String
  events : List EventClass
  enabled : Bool
  scopedToMonitors : Bool
  monitorIds : List ℕ
  deriving DecidableEq, Repr

structure Db where
  channels : List Channel
  /-- `notification_channel_monitors`: a channel and a monitor that it is scoped to. -/
  channelMonitors : List (ℕ × ℕ)
  monitors : List Monitor
  nextChannelId : ℕ
  nextMonitorId : ℕ
  deriving DecidableEq, Repr

/-- The tables that a dispatch reads, with the other ones as they are. -/
def Db.audience (db : Db) (others : Audience) : Audience :=
  { others with channels := db.channels, channelMonitors := db.channelMonitors }

/-! ### The calls -/

/-- A transaction that throws leaves the tables as they were. -/
def transaction {α : Type} (db : Db) (body : Except AppError (Db × α)) : Db × Except AppError α :=
  match body with
  | .ok (db', value) => (db', .ok value)
  | .error error => (db, .error error)

def Db.find (db : Db) (organizationId : String) (id : ℕ) : Option Channel :=
  db.channels.find? fun channel => channel.id = id && channel.organizationId = organizationId

def getChannel (db : Db) (organizationId : String) (id : ℕ) : Option ChannelView :=
  (db.find organizationId id).map fun row =>
    { id := row.id
      provider := row.provider
      events := row.events
      enabled := row.enabled
      scopedToMonitors := row.scopedToMonitors
      monitorIds := (db.channelMonitors.filter (·.1 = id)).map (·.2) }

def requireChannel (db : Db) (organizationId : String) (id : ℕ) : Except AppError Channel :=
  match db.find organizationId id with
  | none => .error ⟨"Channel not found."⟩
  | some row => .ok row

/-- The view of a channel that a transaction has left, or what the caller is told without one. -/
def viewOf (message : String) (organizationId : String) : Db × Except AppError ℕ →
    Db × Except AppError ChannelView
  | (db, .error error) => (db, .error error)
  | (db, .ok id) =>
    match getChannel db organizationId id with
    | none => (db, .error ⟨message⟩)
    | some view => (db, .ok view)

def Db.clearTargets (db : Db) (channelId : ℕ) : Db :=
  { db with channelMonitors := db.channelMonitors.filter (·.1 ≠ channelId) }

def Db.update (db : Db) (id : ℕ) (f : Channel → Channel) : Db :=
  { db with
    channels := db.channels.map fun channel => if channel.id = id then f channel else channel }

def Db.setScoped (db : Db) (channelId : ℕ) (scopedToMonitors : Bool) : Db :=
  db.update channelId fun channel => { channel with scopedToMonitors }

def Db.insertTargets (db : Db) (channelId : ℕ) (monitorIds : List ℕ) : Db :=
  { db with channelMonitors := db.channelMonitors ++ monitorIds.map fun id => (channelId, id) }

def Db.owned (db : Db) (organizationId : String) (wanted : List ℕ) : List Monitor :=
  db.monitors.filter fun monitor =>
    monitor.organizationId = organizationId && wanted.contains monitor.id

def replaceTargets (tx : Db) (organizationId : String) (channelId : ℕ) :
    Option (List ℕ) → Except AppError Db
  | none => .ok tx
  | some monitorIds =>
    let wanted := monitorIds.eraseDups
    let tx := (tx.clearTargets channelId).setScoped channelId (0 < wanted.length)
    if wanted.length = 0 then .ok tx
    else if (tx.owned organizationId wanted).length ≠ wanted.length then
      .error ⟨"A selected monitor does not exist in this workspace."⟩
    else .ok (tx.insertTargets channelId wanted)

def Db.insert (db : Db) (channel : Channel) : Db :=
  { db with channels := db.channels ++ [channel], nextChannelId := db.nextChannelId + 1 }

def Db.newChannel (db : Db) (organizationId : String) (input : ChannelInput) : Channel :=
  { id := db.nextChannelId
    organizationId
    provider := input.provider
    enabled := input.enabled
    events := input.events
    scopedToMonitors := false }

/-- The copy is disabled, and scoped as the channel is. -/
def Db.copyOf (db : Db) (organizationId : String) (current : Channel) : Channel :=
  { current with id := db.nextChannelId, organizationId, enabled := false }

/-- `finish` is what becomes of the audit row and the commit. -/
def createTx (validateInput : Option Channel → ChannelInput → Except AppError Unit) (db : Db)
    (organizationId : String) (input : ChannelInput) (finish : Except AppError Unit) :
    Except AppError (Db × ℕ) := do
  validateInput none input
  let row := db.newChannel organizationId input
  let tx ← replaceTargets (db.insert row) organizationId row.id input.monitorIds
  finish
  return (tx, row.id)

def createChannel (validateInput : Option Channel → ChannelInput → Except AppError Unit) (db : Db)
    (organizationId : String) (input : ChannelInput) (finish : Except AppError Unit) :
    Db × Except AppError ChannelView :=
  viewOf "Channel disappeared after creation." organizationId <|
    transaction db (createTx validateInput db organizationId input finish)

def duplicateTx (db : Db) (organizationId : String) (id : ℕ) (finish : Except AppError Unit) :
    Except AppError (Db × ℕ) := do
  let current ← requireChannel db organizationId id
  let row := db.copyOf organizationId current
  let tx := db.insert row
  let targets := (tx.channelMonitors.filter (·.1 = id)).map (·.2)
  finish
  return (tx.insertTargets row.id targets, row.id)

def duplicateChannel (db : Db) (organizationId : String) (id : ℕ) (finish : Except AppError Unit) :
    Db × Except AppError ChannelView :=
  viewOf "Channel disappeared after duplication." organizationId <|
    transaction db (duplicateTx db organizationId id finish)

/-- What an update writes to a row, if it is one of the organization. -/
def edited (organizationId : String) (input : ChannelInput) (channel : Channel) : Channel :=
  if channel.organizationId = organizationId then
    { channel with events := input.events, enabled := input.enabled }
  else channel

/-- The transaction that saves a channel's form. -/
def updateTx (validateInput : Option Channel → ChannelInput → Except AppError Unit) (db : Db)
    (organizationId : String) (id : ℕ) (input : ChannelInput) (finish : Except AppError Unit) :
    Except AppError (Db × ℕ) := do
  let current ← requireChannel db organizationId id
  if input.provider ≠ current.provider then
    throw ⟨"A channel cannot change provider; create a new one."⟩
  validateInput (some current) input
  let tx ← replaceTargets (db.update id (edited organizationId input)) organizationId id
    input.monitorIds
  finish
  return (tx, id)

def updateChannel (validateInput : Option Channel → ChannelInput → Except AppError Unit) (db : Db)
    (organizationId : String) (id : ℕ) (input : ChannelInput) (finish : Except AppError Unit) :
    Db × Except AppError ChannelView :=
  viewOf "Channel disappeared after update." organizationId <|
    transaction db (updateTx validateInput db organizationId id input finish)

def setChannelsEnabled (db : Db) (organizationId : String) (ids : List ℕ) (enabled : Bool) : Db :=
  { db with
    channels := db.channels.map fun channel =>
      if channel.organizationId = organizationId && ids.contains channel.id then
        { channel with enabled }
      else channel }

/-- The targeting rows of a channel go with it. -/
def deleteChannel (db : Db) (organizationId : String) (id : ℕ) : Db × Except AppError Unit :=
  transaction db do
    let _ ← requireChannel db organizationId id
    let channels := db.channels.filter fun channel =>
      !(channel.id = id && channel.organizationId = organizationId)
    return ({ db.clearTargets id with channels }, ())

def createMonitor (db : Db) (organizationId : String) : Db :=
  { db with
    monitors := ⟨db.nextMonitorId, organizationId⟩ :: db.monitors
    nextMonitorId := db.nextMonitorId + 1 }

/-- The targeting rows of a monitor go with it. -/
def deleteMonitor (db : Db) (organizationId : String) (id : ℕ) : Db :=
  if db.monitors.any fun monitor => monitor.id = id && monitor.organizationId = organizationId then
    { db with
      monitors := db.monitors.filter (·.id ≠ id)
      channelMonitors := db.channelMonitors.filter (·.2 ≠ id) }
  else db

/-! ### The machine -/

structure State where
  db : Db
  /-- The monitors that a channel was last saved with; a copy has those of the channel that it was
  made from. -/
  saved : ℕ → Option (List ℕ)

/-- What the console and the monitors' own forms do to the tables. -/
inductive Action where
  | createChannel (organizationId : String) (input : ChannelInput) (finish : Except AppError Unit)
  | duplicateChannel (organizationId : String) (id : ℕ) (finish : Except AppError Unit)
  | updateChannel (organizationId : String) (id : ℕ) (input : ChannelInput)
      (finish : Except AppError Unit)
  | setChannelsEnabled (organizationId : String) (ids : List ℕ) (enabled : Bool)
  | deleteChannel (organizationId : String) (id : ℕ)
  | createMonitor (organizationId : String)
  | deleteMonitor (organizationId : String) (id : ℕ)

/-- What is saved with the channel `id` from now on, when the call has not failed. -/
def State.after {α : Type} (s : State) (saved : Option (List ℕ)) (id : ℕ) :
    Db × Except AppError α → State
  | (db, .ok _) => ⟨db, Function.update s.saved id saved⟩
  | (db, .error _) => ⟨db, s.saved⟩

/-- One call, which keeps what a saved channel was saved with. -/
def step (validateInput : Option Channel → ChannelInput → Except AppError Unit) (s : State) :
    Action → Option State
  | .createChannel organizationId input finish =>
    some (s.after input.monitorIds s.db.nextChannelId
      (createChannel validateInput s.db organizationId input finish))
  | .duplicateChannel organizationId id finish =>
    some (s.after (s.saved id) s.db.nextChannelId (duplicateChannel s.db organizationId id finish))
  | .updateChannel organizationId id input finish =>
    some (s.after (input.monitorIds.or (s.saved id)) id
      (updateChannel validateInput s.db organizationId id input finish))
  | .setChannelsEnabled organizationId ids enabled =>
    some { s with db := setChannelsEnabled s.db organizationId ids enabled }
  | .deleteChannel organizationId id =>
    some { s with db := (deleteChannel s.db organizationId id).1 }
  | .createMonitor organizationId => some { s with db := createMonitor s.db organizationId }
  | .deleteMonitor organizationId id => some { s with db := deleteMonitor s.db organizationId id }

/-- The runs from empty tables. -/
def machine (validateInput : Option Channel → ChannelInput → Except AppError Unit) :
    Machine State Action where
  init := ⟨⟨[], [], [], 0, 0⟩, fun _ => none⟩
  step := step validateInput

/-! ### What the calls do -/

theorem of_find {db : Db} {organizationId : String} {id : ℕ} {channel : Channel}
    (h : db.find organizationId id = some channel) :
    channel ∈ db.channels ∧ channel.id = id ∧ channel.organizationId = organizationId := by
  have hpassed := List.find?_some h
  simp only [Bool.and_eq_true, decide_eq_true_eq] at hpassed
  exact ⟨List.mem_of_find?_eq_some h, hpassed⟩

theorem exists_getChannel {db : Db} {organizationId : String} {id : ℕ}
    (h : ∃ channel ∈ db.channels, channel.id = id ∧ channel.organizationId = organizationId) :
    ∃ view, getChannel db organizationId id = some view := by
  have hfound : (db.find organizationId id).isSome = true := by
    rw [Db.find, List.find?_isSome]
    obtain ⟨channel, hmem, hid, horganization⟩ := h
    exact ⟨channel, hmem, by simp [hid, horganization]⟩
  obtain ⟨channel, hchannel⟩ := Option.isSome_iff_exists.mp hfound
  rw [getChannel, hchannel]
  exact ⟨_, rfl⟩

theorem mem_insert (db : Db) (channel : Channel) : channel ∈ (db.insert channel).channels :=
  List.mem_append_right _ (List.mem_singleton_self channel)

/-- The columns that no call writes. -/
structure Keeps (f : Channel → Channel) : Prop where
  id : ∀ channel, (f channel).id = channel.id
  organizationId : ∀ channel, (f channel).organizationId = channel.organizationId

theorem exists_map {f : Channel → Channel} (hf : Keeps f) {channels : List Channel} {id : ℕ}
    {organizationId : String}
    (h : ∃ channel ∈ channels, channel.id = id ∧ channel.organizationId = organizationId) :
    ∃ channel ∈ channels.map f, channel.id = id ∧ channel.organizationId = organizationId := by
  obtain ⟨channel, hmem, hid, horganization⟩ := h
  refine ⟨f channel, List.mem_map_of_mem hmem, ?_, ?_⟩
  · rw [hf.id, hid]
  · rw [hf.organizationId, horganization]

theorem Keeps.ite {f : Channel → Channel} (hf : Keeps f) (p : Channel → Prop) [DecidablePred p] :
    Keeps fun channel => if p channel then f channel else channel := by
  constructor
  all_goals
    intro channel
    split
  · exact hf.id channel
  · rfl
  · exact hf.organizationId channel
  · rfl

theorem update_keeps {f : Channel → Channel} (hf : Keeps f) (db : Db) (id : ℕ) :
    ∃ g, Keeps g ∧ (db.update id f).channels = db.channels.map g :=
  ⟨_, hf.ite _, rfl⟩

theorem scoped_keeps (scopedToMonitors : Bool) :
    Keeps fun channel => { channel with scopedToMonitors } :=
  ⟨fun _ => rfl, fun _ => rfl⟩

/-- Every monitor that is wanted belongs to the organization when as many are found. -/
theorem owned_of_length {db : Db} (hids : (db.monitors.map (·.id)).Nodup) {organizationId : String}
    {wanted : List ℕ} (hlength : (db.owned organizationId wanted).length = wanted.length) {id : ℕ}
    (hid : id ∈ wanted) :
    ∃ monitor ∈ db.monitors, monitor.id = id ∧ monitor.organizationId = organizationId := by
  have hnodup : ((db.owned organizationId wanted).map (·.id)).Nodup :=
    hids.sublist (List.filter_sublist.map _)
  have hsubset : (db.owned organizationId wanted).map (·.id) ⊆ wanted := by
    intro id hmem
    obtain ⟨monitor, hmonitor, rfl⟩ := List.mem_map.mp hmem
    have hpassed := (List.mem_filter.mp hmonitor).2
    simp only [Bool.and_eq_true, List.contains_iff_mem] at hpassed
    exact hpassed.2
  have hperm : ((db.owned organizationId wanted).map (·.id)).Perm wanted :=
    (hnodup.subperm hsubset).perm_of_length_le (by simp [hlength])
  obtain ⟨monitor, hmonitor, hmonitorId⟩ := List.mem_map.mp (hperm.mem_iff.mpr hid)
  obtain ⟨hmem, hpassed⟩ := List.mem_filter.mp hmonitor
  simp only [Bool.and_eq_true, decide_eq_true_eq] at hpassed
  exact ⟨monitor, hmem, hmonitorId, hpassed.1⟩

/-- The flag and the rows of a channel after its scope was replaced. -/
inductive Replaced (tx : Db) (organizationId : String) (channelId : ℕ) :
    Option (List ℕ) → Db → Prop where
  | left : Replaced tx organizationId channelId none tx
  | wanted (monitorIds wanted : List ℕ) : (∀ id, id ∈ wanted ↔ id ∈ monitorIds) →
    (∀ id ∈ wanted, ∃ monitor ∈ tx.monitors,
      monitor.id = id ∧ monitor.organizationId = organizationId) →
    Replaced tx organizationId channelId (some monitorIds)
      (((tx.clearTargets channelId).setScoped channelId (0 < wanted.length)).insertTargets channelId
        wanted)

theorem replaceTargets_ok {tx tx' : Db} (hids : (tx.monitors.map (·.id)).Nodup)
    {organizationId : String} {channelId : ℕ} {monitorIds : Option (List ℕ)}
    (h : replaceTargets tx organizationId channelId monitorIds = .ok tx') :
    Replaced tx organizationId channelId monitorIds tx' := by
  cases monitorIds with
  | none =>
    obtain rfl : tx = tx' := Except.ok.inj h
    exact .left
  | some monitorIds =>
    simp only [replaceTargets] at h
    split at h
    · rename_i hempty
      have hnil : monitorIds.eraseDups = [] := List.length_eq_zero_iff.mp hempty
      have hreplaced : Replaced tx organizationId channelId (some monitorIds) _ :=
        .wanted monitorIds monitorIds.eraseDups (fun _ => List.mem_eraseDups) (by simp [hnil])
      rw [← Except.ok.inj h]
      simpa [hnil, Db.insertTargets] using hreplaced
    · split at h
      · contradiction
      · rename_i hlength
        rw [← Except.ok.inj h]
        refine .wanted monitorIds monitorIds.eraseDups (fun _ => List.mem_eraseDups) fun id hid => ?_
        exact @owned_of_length tx hids _ _ (not_not.mp hlength) _ hid

theorem Replaced.keeps {tx tx' : Db} {organizationId : String} {channelId : ℕ}
    {monitorIds : Option (List ℕ)} (h : Replaced tx organizationId channelId monitorIds tx') :
    ∃ f, Keeps f ∧ tx'.channels = tx.channels.map f := by
  cases h with
  | left => exact ⟨_, ⟨fun _ => rfl, fun _ => rfl⟩, (List.map_id' _).symm⟩
  | wanted monitorIds wanted _ _ => exact update_keeps (scoped_keeps _) _ channelId

theorem edited_keeps (organizationId : String) (input : ChannelInput) :
    Keeps (edited organizationId input) := by
  apply Keeps.ite
  exact ⟨fun _ => rfl, fun _ => rfl⟩

section Calls

variable {validateInput : Option Channel → ChannelInput → Except AppError Unit} {db tx : Db}
  {organizationId : String} {input : ChannelInput} {id newId : ℕ} {finish : Except AppError Unit}

theorem requireChannel_ok {channel : Channel}
    (h : requireChannel db organizationId id = .ok channel) :
    db.find organizationId id = some channel := by
  unfold requireChannel at h
  split at h
  · contradiction
  · rename_i row hrow
    rw [hrow, Except.ok.inj h]

theorem createTx_ok (hids : (db.monitors.map (·.id)).Nodup)
    (h : createTx validateInput db organizationId input finish = .ok (tx, newId)) :
    newId = db.nextChannelId ∧
      Replaced (db.insert (db.newChannel organizationId input)) organizationId db.nextChannelId
        input.monitorIds tx := by
  obtain ⟨_, _, h⟩ := bind_ok_iff.mp h
  obtain ⟨_, hreplace, h⟩ := bind_ok_iff.mp h
  obtain ⟨_, _, h⟩ := bind_ok_iff.mp h
  cases h
  refine ⟨rfl, replaceTargets_ok ?_ hreplace⟩
  exact hids

theorem duplicateTx_ok (h : duplicateTx db organizationId id finish = .ok (tx, newId)) :
    newId = db.nextChannelId ∧ ∃ current, db.find organizationId id = some current ∧
      tx = (db.insert (db.copyOf organizationId current)).insertTargets db.nextChannelId
        ((db.channelMonitors.filter (·.1 = id)).map (·.2)) := by
  obtain ⟨current, hcurrent, h⟩ := bind_ok_iff.mp h
  obtain ⟨_, _, h⟩ := bind_ok_iff.mp h
  cases h
  exact ⟨rfl, current, requireChannel_ok hcurrent, rfl⟩

theorem updateTx_ok (hids : (db.monitors.map (·.id)).Nodup)
    (h : updateTx validateInput db organizationId id input finish = .ok (tx, newId)) :
    newId = id ∧ (∃ current, db.find organizationId id = some current) ∧
      Replaced (db.update id (edited organizationId input)) organizationId id input.monitorIds
        tx := by
  obtain ⟨current, hcurrent, h⟩ := bind_ok_iff.mp h
  split at h
  · contradiction
  · obtain ⟨_, _, h⟩ := bind_ok_iff.mp h
    obtain ⟨_, hreplace, h⟩ := bind_ok_iff.mp h
    obtain ⟨_, _, h⟩ := bind_ok_iff.mp h
    cases h
    refine ⟨rfl, ⟨current, requireChannel_ok hcurrent⟩, replaceTargets_ok ?_ hreplace⟩
    exact hids

/-- A call whose channel is there after its transaction fails only when the transaction does. -/
theorem viewOf_cases {message : String} {body : Except AppError (Db × ℕ)}
    (hthere : ∀ tx newId, body = .ok (tx, newId) →
      ∃ channel ∈ tx.channels, channel.id = newId ∧ channel.organizationId = organizationId) :
    (∃ error, viewOf message organizationId (transaction db body) = (db, .error error)) ∨
    ∃ tx newId view, body = .ok (tx, newId) ∧
      viewOf message organizationId (transaction db body) = (tx, .ok view) := by
  cases hbody : body with
  | error error => exact .inl ⟨error, rfl⟩
  | ok result =>
    obtain ⟨tx, newId⟩ := result
    obtain ⟨view, hview⟩ := exists_getChannel (hthere tx newId hbody)
    refine .inr ⟨tx, newId, view, rfl, ?_⟩
    simp only [transaction, viewOf, hview]

variable (validateInput finish) in
theorem createChannel_cases (hids : (db.monitors.map (·.id)).Nodup) :
    (∃ error, createChannel validateInput db organizationId input finish = (db, .error error)) ∨
    ∃ tx view, createChannel validateInput db organizationId input finish = (tx, .ok view) ∧
      Replaced (db.insert (db.newChannel organizationId input)) organizationId db.nextChannelId
        input.monitorIds tx := by
  have hthere : ∀ tx newId,
      createTx validateInput db organizationId input finish = .ok (tx, newId) →
      ∃ channel ∈ tx.channels, channel.id = newId ∧ channel.organizationId = organizationId := by
    intro tx newId h
    obtain ⟨rfl, hreplaced⟩ := createTx_ok hids h
    obtain ⟨f, hf, hchannels⟩ := hreplaced.keeps
    rw [hchannels]
    exact exists_map hf ⟨db.newChannel organizationId input, mem_insert _ _, rfl, rfl⟩
  rcases viewOf_cases hthere with herror | ⟨tx, newId, view, hbody, hview⟩
  · exact .inl herror
  · exact .inr ⟨tx, view, hview, (createTx_ok hids hbody).2⟩

variable (finish) in
theorem duplicateChannel_cases :
    (∃ error, duplicateChannel db organizationId id finish = (db, .error error)) ∨
    ∃ current view, db.find organizationId id = some current ∧
      duplicateChannel db organizationId id finish =
        ((db.insert (db.copyOf organizationId current)).insertTargets db.nextChannelId
          ((db.channelMonitors.filter (·.1 = id)).map (·.2)), .ok view) := by
  have hthere : ∀ tx newId, duplicateTx db organizationId id finish = .ok (tx, newId) →
      ∃ channel ∈ tx.channels, channel.id = newId ∧ channel.organizationId = organizationId := by
    intro tx newId h
    obtain ⟨rfl, current, hcurrent, rfl⟩ := duplicateTx_ok h
    exact ⟨db.copyOf organizationId current, mem_insert _ _, rfl, rfl⟩
  rcases viewOf_cases hthere with herror | ⟨tx, newId, view, hbody, hview⟩
  · exact .inl herror
  · obtain ⟨-, current, hcurrent, rfl⟩ := duplicateTx_ok hbody
    exact .inr ⟨current, view, hcurrent, hview⟩

variable (validateInput finish) in
theorem updateChannel_cases (hids : (db.monitors.map (·.id)).Nodup) :
    (∃ error, updateChannel validateInput db organizationId id input finish = (db, .error error)) ∨
    ∃ current tx view, db.find organizationId id = some current ∧
      updateChannel validateInput db organizationId id input finish = (tx, .ok view) ∧
      Replaced (db.update id (edited organizationId input)) organizationId id input.monitorIds
        tx := by
  have hthere : ∀ tx newId,
      updateTx validateInput db organizationId id input finish = .ok (tx, newId) →
      ∃ channel ∈ tx.channels, channel.id = newId ∧ channel.organizationId = organizationId := by
    intro tx newId h
    obtain ⟨rfl, ⟨current, hcurrent⟩, hreplaced⟩ := updateTx_ok hids h
    obtain ⟨f, hf, hchannels⟩ := hreplaced.keeps
    obtain ⟨g, hg, hupdated⟩ := update_keeps (edited_keeps organizationId input) db newId
    rw [hchannels, hupdated]
    exact exists_map hf (exists_map hg ⟨current, of_find hcurrent⟩)
  rcases viewOf_cases hthere with herror | ⟨tx, newId, view, hbody, hview⟩
  · exact .inl herror
  · obtain ⟨-, ⟨current, hcurrent⟩, hreplaced⟩ := updateTx_ok hids hbody
    exact .inr ⟨current, tx, view, hcurrent, hview, hreplaced⟩

end Calls

/-! ### The tables -/

/-- A targeting row is about a channel and a monitor of one organization. -/
def Routed (db : Db) (row : ℕ × ℕ) : Prop :=
  ∃ channel ∈ db.channels, channel.id = row.1 ∧
    ∃ monitor ∈ db.monitors, monitor.id = row.2 ∧ monitor.organizationId = channel.organizationId

structure Tables (db : Db) : Prop where
  ids : (db.channels.map (·.id)).Nodup
  fresh : ∀ channel ∈ db.channels, channel.id < db.nextChannelId
  monitorIds : (db.monitors.map (·.id)).Nodup
  monitorFresh : ∀ monitor ∈ db.monitors, monitor.id < db.nextMonitorId
  routed : ∀ row ∈ db.channelMonitors, Routed db row

namespace Tables

variable {db : Db} (h : Tables db)

include h

theorem map {f : Channel → Channel} (hf : Keeps f) :
    Tables { db with channels := db.channels.map f } where
  ids := by
    have hsame : (·.id) ∘ f = (·.id) := funext hf.id
    rw [List.map_map, hsame]
    exact h.ids
  fresh := by
    intro channel hmem
    obtain ⟨old, hold, rfl⟩ := List.mem_map.mp hmem
    rw [hf.id]
    exact h.fresh old hold
  monitorIds := h.monitorIds
  monitorFresh := h.monitorFresh
  routed := by
    intro row hrow
    obtain ⟨channel, hmem, hid, monitor, hmonitor, hmonitorId, horganization⟩ := h.routed row hrow
    refine ⟨f channel, List.mem_map_of_mem hmem, ?_, monitor, hmonitor, hmonitorId, ?_⟩
    · rw [hf.id, hid]
    · rw [hf.organizationId, horganization]

theorem clearTargets (channelId : ℕ) : Tables (db.clearTargets channelId) where
  ids := h.ids
  fresh := h.fresh
  monitorIds := h.monitorIds
  monitorFresh := h.monitorFresh
  routed := fun row hrow => h.routed row (List.mem_filter.mp hrow).1

theorem insert {channel : Channel} (hid : channel.id = db.nextChannelId) :
    Tables (db.insert channel) where
  ids := by
    rw [Db.insert, List.map_append, List.nodup_append]
    refine ⟨h.ids, List.nodup_singleton _, ?_⟩
    intro old hold new hnew
    obtain ⟨row, hrow, rfl⟩ := List.mem_map.mp hold
    obtain rfl : new = channel.id := List.mem_singleton.mp hnew
    have hlt := h.fresh row hrow
    omega
  fresh := by
    intro row hrow
    show row.id < db.nextChannelId + 1
    rcases List.mem_append.mp hrow with hold | hnew
    · have hlt := h.fresh row hold
      omega
    · rw [List.mem_singleton.mp hnew, hid]
      omega
  monitorIds := h.monitorIds
  monitorFresh := h.monitorFresh
  routed := by
    intro row hrow
    obtain ⟨old, hold, hrest⟩ := h.routed row hrow
    exact ⟨old, List.mem_append_left _ hold, hrest⟩

theorem insertTargets {organizationId : String} {channelId : ℕ} {monitorIds : List ℕ}
    (hchannel : ∃ channel ∈ db.channels,
      channel.id = channelId ∧ channel.organizationId = organizationId)
    (howned : ∀ id ∈ monitorIds, ∃ monitor ∈ db.monitors,
      monitor.id = id ∧ monitor.organizationId = organizationId) :
    Tables (db.insertTargets channelId monitorIds) where
  ids := h.ids
  fresh := h.fresh
  monitorIds := h.monitorIds
  monitorFresh := h.monitorFresh
  routed := by
    intro row hrow
    rcases List.mem_append.mp hrow with hold | hnew
    · exact h.routed row hold
    · obtain ⟨id, hid, rfl⟩ := List.mem_map.mp hnew
      obtain ⟨channel, hmem, hchannelId, horganization⟩ := hchannel
      obtain ⟨monitor, hmonitor, hmonitorId, howner⟩ := howned id hid
      exact ⟨channel, hmem, hchannelId, monitor, hmonitor, hmonitorId,
        howner.trans horganization.symm⟩

theorem replaced {tx : Db} {organizationId : String} {channelId : ℕ}
    {monitorIds : Option (List ℕ)}
    (hchannel : ∃ channel ∈ db.channels,
      channel.id = channelId ∧ channel.organizationId = organizationId)
    (hreplaced : Replaced db organizationId channelId monitorIds tx) : Tables tx := by
  cases hreplaced with
  | left => exact h
  | wanted monitorIds wanted _ howned =>
    have hkeeps := (scoped_keeps (0 < wanted.length)).ite fun channel => channel.id = channelId
    exact ((h.clearTargets channelId).map hkeeps).insertTargets (exists_map hkeeps hchannel) howned

theorem deleteChannel (organizationId : String) (id : ℕ) :
    Tables (ChannelScope.deleteChannel db organizationId id).1 := by
  unfold ChannelScope.deleteChannel requireChannel
  cases db.find organizationId id with
  | none => exact h
  | some current =>
    refine ⟨h.ids.sublist (List.filter_sublist.map _),
      fun channel hmem => h.fresh channel (List.mem_filter.mp hmem).1, h.monitorIds,
      h.monitorFresh, fun row hrow => ?_⟩
    obtain ⟨hmem, hother⟩ := List.mem_filter.mp hrow
    obtain ⟨channel, hchannel, hid, hmonitor⟩ := h.routed row hmem
    have hother : row.1 ≠ id := of_decide_eq_true hother
    refine ⟨channel, List.mem_filter.mpr ⟨hchannel, ?_⟩, hid, hmonitor⟩
    simp [hid, hother]

theorem createMonitor (organizationId : String) :
    Tables (ChannelScope.createMonitor db organizationId) where
  ids := h.ids
  fresh := h.fresh
  monitorIds := by
    show (db.nextMonitorId :: db.monitors.map (·.id)).Nodup
    refine List.nodup_cons.mpr ⟨fun hmem => ?_, h.monitorIds⟩
    obtain ⟨monitor, hmonitor, hid⟩ := List.mem_map.mp hmem
    have hlt := h.monitorFresh monitor hmonitor
    omega
  monitorFresh := by
    intro monitor hmem
    show monitor.id < db.nextMonitorId + 1
    rcases List.mem_cons.mp hmem with rfl | hold
    · exact Nat.lt_succ_self _
    · have hlt := h.monitorFresh monitor hold
      omega
  routed := by
    intro row hrow
    obtain ⟨channel, hmem, hid, monitor, hmonitor, hrest⟩ := h.routed row hrow
    exact ⟨channel, hmem, hid, monitor, List.mem_cons_of_mem _ hmonitor, hrest⟩

theorem deleteMonitor (organizationId : String) (id : ℕ) :
    Tables (ChannelScope.deleteMonitor db organizationId id) := by
  unfold ChannelScope.deleteMonitor
  split
  · refine ⟨h.ids, h.fresh, h.monitorIds.sublist (List.filter_sublist.map _),
      fun monitor hmem => h.monitorFresh monitor (List.mem_filter.mp hmem).1, fun row hrow => ?_⟩
    obtain ⟨hmem, hother⟩ := List.mem_filter.mp hrow
    obtain ⟨channel, hchannel, hid, monitor, hmonitor, hmonitorId, horganization⟩ :=
      h.routed row hmem
    refine ⟨channel, hchannel, hid, monitor, List.mem_filter.mpr ⟨hmonitor, ?_⟩, hmonitorId,
      horganization⟩
    rw [hmonitorId]
    exact hother
  · exact h

end Tables

/-! ### The scope -/

/-- What the flags and the rows say about what the channels were last saved with. -/
structure Scoped (db : Db) (saved : ℕ → Option (List ℕ)) : Prop where
  flag : ∀ channel ∈ db.channels, ∀ monitorIds, saved channel.id = some monitorIds →
    monitorIds ≠ [] → channel.scopedToMonitors = true
  rows : ∀ row ∈ db.channelMonitors, ∀ monitorIds, saved row.1 = some monitorIds →
    row.2 ∈ monitorIds

namespace Scoped

variable {db : Db} {saved : ℕ → Option (List ℕ)} (h : Scoped db saved)

include h

theorem map {f : Channel → Channel} (hid : ∀ channel, (f channel).id = channel.id)
    (hflag : ∀ channel, (f channel).scopedToMonitors = channel.scopedToMonitors) :
    Scoped { db with channels := db.channels.map f } saved where
  flag := by
    intro channel hmem
    obtain ⟨old, hold, rfl⟩ := List.mem_map.mp hmem
    rw [hid, hflag]
    exact h.flag old hold
  rows := h.rows

theorem subset {db' : Db} (hchannels : db'.channels ⊆ db.channels)
    (hrows : db'.channelMonitors ⊆ db.channelMonitors) : Scoped db' saved where
  flag := fun channel hmem => h.flag channel (hchannels hmem)
  rows := fun row hmem => h.rows row (hrows hmem)

theorem insert (channel : Channel) :
    Scoped (db.insert channel) (Function.update saved channel.id none) where
  flag := by
    intro row hmem monitorIds hsaved hne
    by_cases hid : row.id = channel.id
    · rw [hid, Function.update_self] at hsaved
      contradiction
    · rw [Function.update_of_ne hid] at hsaved
      rcases List.mem_append.mp hmem with hold | hnew
      · exact h.flag row hold monitorIds hsaved hne
      · exact absurd (congrArg Channel.id (List.mem_singleton.mp hnew)) hid
  rows := by
    intro row hmem monitorIds hsaved
    by_cases hid : row.1 = channel.id
    · rw [hid, Function.update_self] at hsaved
      contradiction
    · rw [Function.update_of_ne hid] at hsaved
      exact h.rows row hmem monitorIds hsaved

theorem replaced {tx : Db} {organizationId : String} {channelId : ℕ}
    {monitorIds : Option (List ℕ)}
    (hreplaced : Replaced db organizationId channelId monitorIds tx) :
    Scoped tx (Function.update saved channelId (monitorIds.or (saved channelId))) := by
  cases hreplaced with
  | left =>
    rw [Option.none_or, Function.update_eq_self]
    exact h
  | wanted monitorIds wanted hwanted _ =>
    constructor
    · intro channel hmem list hsaved hne
      obtain ⟨old, hold, rfl⟩ := List.mem_map.mp hmem
      by_cases hid : old.id = channelId
      · rw [if_pos hid] at hsaved ⊢
        rw [show ({ old with scopedToMonitors := _ } : Channel).id = channelId from hid,
          Function.update_self, Option.some_or, Option.some.injEq] at hsaved
        subst hsaved
        obtain ⟨id, hmember⟩ := List.exists_mem_of_ne_nil _ hne
        exact decide_eq_true (List.length_pos_of_mem ((hwanted id).mpr hmember))
      · rw [if_neg hid] at hsaved ⊢
        rw [Function.update_of_ne hid] at hsaved
        exact h.flag old hold list hsaved hne
    · intro row hmem list hsaved
      rcases List.mem_append.mp hmem with hold | hnew
      · obtain ⟨hold, hother⟩ := List.mem_filter.mp hold
        rw [Function.update_of_ne (of_decide_eq_true hother)] at hsaved
        exact h.rows row hold list hsaved
      · obtain ⟨id, hid, rfl⟩ := List.mem_map.mp hnew
        rw [Function.update_self, Option.some_or, Option.some.injEq] at hsaved
        subst hsaved
        exact (hwanted id).mp hid

/-- A copy has the flag and the rows of the channel that it was made from. -/
theorem duplicated (htables : Tables db) {organizationId : String} {id : ℕ} {current : Channel}
    (hfind : db.find organizationId id = some current) :
    Scoped
      ((db.insert (db.copyOf organizationId current)).insertTargets db.nextChannelId
        ((db.channelMonitors.filter (·.1 = id)).map (·.2)))
      (Function.update saved db.nextChannelId (saved id)) := by
  obtain ⟨hcurrent, rfl, -⟩ := of_find hfind
  constructor
  · intro channel hmem monitorIds hsaved hne
    rcases List.mem_append.mp hmem with hold | hnew
    · have hlt := htables.fresh channel hold
      rw [Function.update_of_ne (by omega)] at hsaved
      exact h.flag channel hold monitorIds hsaved hne
    · obtain rfl : channel = db.copyOf organizationId current := List.mem_singleton.mp hnew
      have hsaved : saved current.id = some monitorIds :=
        (Function.update_self db.nextChannelId (saved current.id) saved).symm.trans hsaved
      exact h.flag current hcurrent monitorIds hsaved hne
  · intro row hmem monitorIds hsaved
    rcases List.mem_append.mp hmem with hold | hnew
    · obtain ⟨channel, hchannel, hid, -⟩ := htables.routed row hold
      have hlt := htables.fresh channel hchannel
      rw [Function.update_of_ne (by omega)] at hsaved
      exact h.rows row hold monitorIds hsaved
    · obtain ⟨id, hid, rfl⟩ := List.mem_map.mp hnew
      obtain ⟨source, hsource, rfl⟩ := List.mem_map.mp hid
      obtain ⟨hsource, hof⟩ := List.mem_filter.mp hsource
      rw [Function.update_self, ← of_decide_eq_true hof] at hsaved
      exact h.rows source hsource monitorIds hsaved

end Scoped

/-! ### Runs -/

structure Inv (s : State) : Prop where
  tables : Tables s.db
  scope : Scoped s.db s.saved

variable {validateInput : Option Channel → ChannelInput → Except AppError Unit}

variable {s : State}

theorem Inv.createChannel (h : Inv s) (organizationId : String) (input : ChannelInput)
    (finish : Except AppError Unit) : Inv (s.after input.monitorIds s.db.nextChannelId
      (ChannelScope.createChannel validateInput s.db organizationId input finish)) := by
  rcases createChannel_cases validateInput finish h.tables.monitorIds with
    ⟨error, herror⟩ | ⟨tx, view, hcall, hreplaced⟩
  · rw [herror]
    exact h
  · rw [hcall]
    have hinserted := h.tables.insert (show (s.db.newChannel organizationId input).id = _ from rfl)
    constructor
    · exact hinserted.replaced ⟨_, mem_insert _ _, rfl, rfl⟩ hreplaced
    · have hscoped := (h.scope.insert (s.db.newChannel organizationId input)).replaced hreplaced
      rw [show (s.db.newChannel organizationId input).id = s.db.nextChannelId from rfl,
        Function.update_self, Option.or_none, Function.update_idem] at hscoped
      exact hscoped

theorem Inv.duplicateChannel (h : Inv s) (organizationId : String) (id : ℕ)
    (finish : Except AppError Unit) : Inv (s.after (s.saved id) s.db.nextChannelId
      (ChannelScope.duplicateChannel s.db organizationId id finish)) := by
  rcases duplicateChannel_cases finish with
    ⟨error, herror⟩ | ⟨current, view, hfind, hcall⟩
  · rw [herror]
    exact h
  · rw [hcall]
    refine ⟨?_, h.scope.duplicated h.tables hfind⟩
    obtain ⟨hcurrent, rfl, rfl⟩ := of_find hfind
    have hinserted := h.tables.insert
      (show (s.db.copyOf current.organizationId current).id = s.db.nextChannelId from rfl)
    apply hinserted.insertTargets ⟨_, mem_insert _ _, rfl, rfl⟩
    intro monitorId hmonitorId
    obtain ⟨row, hrow, rfl⟩ := List.mem_map.mp hmonitorId
    obtain ⟨hrow, hof⟩ := List.mem_filter.mp hrow
    obtain ⟨channel, hchannel, hid, monitor, hmonitor, hmonitorId, howner⟩ :=
      h.tables.routed row hrow
    have hsame : channel = current := List.inj_on_of_nodup_map h.tables.ids hchannel hcurrent
      (hid.trans (of_decide_eq_true hof))
    exact ⟨monitor, hmonitor, hmonitorId, hsame ▸ howner⟩

theorem Inv.updateChannel (h : Inv s) (organizationId : String) (id : ℕ) (input : ChannelInput)
    (finish : Except AppError Unit) : Inv (s.after (input.monitorIds.or (s.saved id)) id
      (ChannelScope.updateChannel validateInput s.db organizationId id input finish)) := by
  rcases updateChannel_cases validateInput finish h.tables.monitorIds with
    ⟨error, herror⟩ | ⟨current, tx, view, hfind, hcall, hreplaced⟩
  · rw [herror]
    exact h
  · rw [hcall]
    have hkeeps := (edited_keeps organizationId input).ite fun channel => channel.id = id
    constructor
    · exact (h.tables.map hkeeps).replaced (exists_map hkeeps ⟨current, of_find hfind⟩) hreplaced
    · refine (h.scope.map hkeeps.id ?_).replaced hreplaced
      intro channel
      unfold edited
      split
      · split
        · rfl
        · rfl
      · rfl

theorem Inv.step {s t : State} {a : Action} (h : Inv s) (hstep : step validateInput s a = some t) :
    Inv t := by
  cases a with
  | createChannel organizationId input finish =>
    cases hstep
    exact h.createChannel organizationId input finish
  | duplicateChannel organizationId id finish =>
    cases hstep
    exact h.duplicateChannel organizationId id finish
  | updateChannel organizationId id input finish =>
    cases hstep
    exact h.updateChannel organizationId id input finish
  | setChannelsEnabled organizationId ids enabled =>
    cases hstep
    have hkeeps := (show Keeps fun channel => { channel with enabled } from
      ⟨fun _ => rfl, fun _ => rfl⟩).ite fun channel =>
        (channel.organizationId = organizationId && ids.contains channel.id) = true
    refine ⟨h.tables.map hkeeps, h.scope.map hkeeps.id fun channel => ?_⟩
    split
    · rfl
    · rfl
  | deleteChannel organizationId id =>
    cases hstep
    refine ⟨h.tables.deleteChannel organizationId id, ?_⟩
    show Scoped (ChannelScope.deleteChannel s.db organizationId id).1 s.saved
    unfold ChannelScope.deleteChannel requireChannel
    cases s.db.find organizationId id with
    | none => exact h.scope
    | some current => exact h.scope.subset (List.filter_subset_self _) (List.filter_subset_self _)
  | createMonitor organizationId =>
    cases hstep
    exact ⟨h.tables.createMonitor organizationId, h.scope.flag, h.scope.rows⟩
  | deleteMonitor organizationId id =>
    cases hstep
    refine ⟨h.tables.deleteMonitor organizationId id, ?_⟩
    show Scoped (ChannelScope.deleteMonitor s.db organizationId id) s.saved
    unfold ChannelScope.deleteMonitor
    split
    · exact h.scope.subset (List.Subset.refl _) (List.filter_subset_self _)
    · exact h.scope

theorem Inv.reachable (h : (machine validateInput).Reachable s) : Inv s := by
  refine h.induct ?_ fun s a t _ hs hstep => hs.step hstep
  constructor
  · constructor
    · exact List.nodup_nil
    · exact nofun
    · exact List.nodup_nil
    · exact nofun
    · exact nofun
  · constructor
    · exact nofun
    · exact nofun

/-- A scoped channel is addressed only for a monitor that it was last saved with. -/
theorem Inv.routes (h : Inv s) {channel : Channel} (hmem : channel ∈ s.db.channels)
    {monitorIds : List ℕ} (hsaved : s.saved channel.id = some monitorIds) (hne : monitorIds ≠ [])
    {others : Audience} {organizationId : String} {dispatch : IntentDispatch}
    (hroute : channel ∈ resolveRoutes (s.db.audience others) organizationId dispatch) :
    channel.organizationId = organizationId ∧
      ∃ id ∈ monitorIds, dispatch.monitorId = some id ∧
        ∃ monitor ∈ s.db.monitors, monitor.id = id ∧ monitor.organizationId = organizationId := by
  have hflag := h.scope.flag channel hmem monitorIds hsaved hne
  unfold resolveRoutes at hroute
  split at hroute
  · cases hroute
  · have hpassed := (List.mem_filter.mp hroute).2
    simp only [Bool.and_eq_true, decide_eq_true_eq, Channel.inScope, hflag, Bool.not_true,
      Bool.false_or, Option.any_eq_true, List.contains_iff_mem] at hpassed
    obtain ⟨⟨⟨rfl, -⟩, -⟩, id, hid, hrow⟩ := hpassed
    obtain ⟨owner, howner, hownerId, monitor, hmonitor, hmonitorId, horganization⟩ :=
      h.tables.routed (channel.id, id) hrow
    have hsame : owner = channel :=
      List.inj_on_of_nodup_map h.tables.ids howner hmem hownerId
    exact ⟨rfl, id, h.scope.rows (channel.id, id) hrow monitorIds hsaved, hid, monitor, hmonitor,
      hmonitorId, hsame ▸ horganization⟩

/-- Whatever is saved, copied, switched, created and deleted, in any order: a channel that was last
saved with some monitors is addressed only for events of those of them that are left, and all of
these are of its organization; and a save that fails changes no table. -/
theorem audience_never_widens
    (validateInput : Option Channel → ChannelInput → Except AppError Unit) {s : State}
    (hreach : (machine validateInput).Reachable s) :
    (∀ channel ∈ s.db.channels, ∀ monitorIds, s.saved channel.id = some monitorIds →
      monitorIds ≠ [] → ∀ others organizationId (dispatch : IntentDispatch),
      (channel ∈ resolveRoutes (s.db.audience others) organizationId dispatch →
        channel.organizationId = organizationId ∧
        ∃ id ∈ monitorIds, dispatch.monitorId = some id ∧
          (∃ monitor ∈ s.db.monitors, monitor.id = id) ∧
          ∀ monitor ∈ s.db.monitors, monitor.id = id →
            monitor.organizationId = organizationId) ∧
      ((∀ monitor ∈ s.db.monitors, monitor.id ∉ monitorIds) →
        channel ∉ resolveRoutes (s.db.audience others) organizationId dispatch)) ∧
    ∀ organizationId id input finish error,
      ((createChannel validateInput s.db organizationId input finish).2 = .error error →
        step validateInput s (.createChannel organizationId input finish) = some s) ∧
      ((duplicateChannel s.db organizationId id finish).2 = .error error →
        step validateInput s (.duplicateChannel organizationId id finish) = some s) ∧
      ((updateChannel validateInput s.db organizationId id input finish).2 = .error error →
        step validateInput s (.updateChannel organizationId id input finish) = some s) := by
  have hinv := Inv.reachable hreach
  constructor
  · intro channel hmem monitorIds hsaved hne others organizationId dispatch
    constructor
    · intro hroute
      obtain ⟨horganization, id, hid, hdispatch, monitor, hmonitor, hmonitorId, howner⟩ :=
        hinv.routes hmem hsaved hne hroute
      refine ⟨horganization, id, hid, hdispatch, ⟨monitor, hmonitor, hmonitorId⟩, ?_⟩
      intro other hother hotherId
      have hsame : other = monitor := List.inj_on_of_nodup_map hinv.tables.monitorIds hother
        hmonitor (hotherId.trans hmonitorId.symm)
      rw [hsame, howner]
    · intro hgone hroute
      obtain ⟨-, id, hid, -, monitor, hmonitor, rfl, -⟩ := hinv.routes hmem hsaved hne hroute
      exact hgone monitor hmonitor hid
  · intro organizationId id input finish error
    refine ⟨fun hfails => ?_, fun hfails => ?_, fun hfails => ?_⟩
    · rcases createChannel_cases validateInput finish hinv.tables.monitorIds with
        ⟨_, hcall⟩ | ⟨_, _, hcall, -⟩
      · rw [step, hcall]
        rfl
      · rw [hcall] at hfails
        contradiction
    · rcases duplicateChannel_cases finish with ⟨_, hcall⟩ | ⟨_, _, -, hcall⟩
      · rw [step, hcall]
        rfl
      · rw [hcall] at hfails
        contradiction
    · rcases updateChannel_cases validateInput finish hinv.tables.monitorIds with
        ⟨_, hcall⟩ | ⟨_, _, _, -, hcall, -⟩
      · rw [step, hcall]
        rfl
      · rw [hcall] at hfails
        contradiction

/-- A channel of `a` is scoped to two monitors, one of which is deleted. -/
def narrowed : State :=
  (machine fun _ _ => .ok ()).reached
    [.createMonitor "a", .createMonitor "b", .createMonitor "a",
      .createChannel "a" ⟨"slack", [.monitor], true, some [0, 2]⟩ (.ok ()), .deleteMonitor "a" 0]

theorem audience_never_widens_narrowed :
    ∃ id ∈ [0, 2], some 2 = some id ∧ (∃ monitor ∈ narrowed.db.monitors, monitor.id = id) ∧
      ∀ monitor ∈ narrowed.db.monitors, monitor.id = id → monitor.organizationId = "a" :=
  (((audience_never_widens (fun _ _ => .ok ()) (s := narrowed)
    ⟨_, Machine.exec_reached (by decide +kernel)⟩).1 ⟨0, "a", "slack", true, [.monitor], true⟩
    (by decide +kernel) [0, 2] (by decide +kernel) (by decide) ⟨[], [], [], [], [], []⟩ "a"
    ⟨.monitorDown, .dispatch 0 .monitorDown none, none, some 2⟩).1 (by decide +kernel)).2

end Vigil.Notifications.ChannelScope
