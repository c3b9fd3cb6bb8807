import Vigil.Lib.Run
import Vigil.Notifications.Smtp

/-! The class `Conversation` of `notifications/providers/smtp-client.ts`, and `smtpSend` over it.
Replies are cut out of what arrives as soon as it arrives, and wait in `pending` for the step that
reads them.  A unit keeps a note of the socket it was received over; nothing in the code reads it. -/

namespace Vigil.Notifications.SmtpConversation

open Js.Text Js.Utf8 Smtp Lib

/-- The socket of the connection, or the one that it was upgraded to. -/
inductive Channel where
  | first
  | upgraded
  deriving DecidableEq, Repr

abbrev Received := UInt16 × Channel

/-- The last line of a reply, with its code. -/
structure Reply where
  code : ℕ
  text : List Received
  deriving DecidableEq

/-- How a send ended. -/
inductive Result where
  | accepted (reply : JsString)
  | smtpError (message : JsString) (permanent : Bool)
  /-- An error of the socket, passed on as it is. -/
  | error (message : JsString)
  deriving DecidableEq

/-- Where `smtpSend` stands. -/
inductive Status where
  /-- In `read`, with a waiter. -/
  | reading (codes : List ℕ)
  /-- The reply is known, and `smtpSend` has not gone on yet. -/
  | answered (codes : List ℕ) (reply : Reply)
  | upgrading
  | finished (result : Result)
  deriving DecidableEq

/-- Where a send stands, with what it has read and written. -/
structure State where
  buffer : List Received
  pending : List Reply
  status : Status
  /-- What `smtpSend` does after the step it stands in. -/
  rest : List Instruction
  channel : Channel
  written : List JsString
  /-- The replies that decided a step after the upgrade. -/
  decided : List Reply

/-! ### Replies -/

/-- `\d` -/
def isDigit (c : UInt16) : Bool := 0x30 ≤ c && c ≤ 0x39

/-- What `.` does not match. -/
def isLineTerminator (c : UInt16) : Bool := c = 0x0A || c = 0x0D || c = 0x2028 || c = 0x2029

/-- The code of a line that `/^(\d{3})([ -]?)(.*)$/` matches and that is no continuation. -/
def finalCode : JsString → Option ℕ
  | a :: b :: c :: tail =>
    if isDigit a && isDigit b && isDigit c && tail.all (fun d => !isLineTerminator d) then
      if tail.head? = some 0x2D then none
      else some ((a.toNat - 0x30) * 100 + (b.toNat - 0x30) * 10 + (c.toNat - 0x30))
    else none
  | _ => none

def units (text : List Received) : JsString := text.map Prod.fst

def replyOf (line : List Received) : Option Reply :=
  (finalCode (units line)).map fun code => { code, text := line }

/-- The lines that end in a buffer, where `line` is what the first of them has so far, and what is
left of the buffer after them. -/
def splitLines : List Received → List Received → List (List Received) × List Received
  | line, [] => ([], line)
  | line, [a] => ([], line ++ [a])
  | line, a :: b :: rest =>
    if a.1 = cr ∧ b.1 = lf then
      let more := splitLines [] rest
      (line :: more.1, more.2)
    else splitLines (line ++ [a]) (b :: rest)

/-- A reply goes to the waiter, and to `pending` when there is none. -/
def hear (s : State) (reply : Reply) : State :=
  match s.status with
  | .reading codes => { s with status := .answered codes reply }
  | _ => { s with pending := s.pending ++ [reply] }

def consume (s : State) (text : List Received) : State :=
  let cut := splitLines [] (s.buffer ++ text)
  (cut.1.filterMap replyOf).foldl hear { s with buffer := cut.2 }

/-! ### `smtpSend` -/

def read (codes : List ℕ) (rest : List Instruction) (s : State) : State :=
  match s.pending with
  | queued :: pending => { s with pending, status := .answered codes queued, rest }
  | [] => { s with status := .reading codes, rest }

/-- What is done until the next `await`, where `last` is the text of the last reply. -/
def proceed (last : JsString) : List Instruction → State → State
  | [], s => { s with status := .finished (.accepted last), rest := [] }
  | .expect codes :: rest, s => read codes rest s
  | .command line codes :: rest, s => read codes rest { s with written := s.written ++ [line ++ CRLF] }
  | .write data :: rest, s => proceed last rest { s with written := s.written ++ [data] }
  | .upgradeToTls :: rest, s => { s with status := .upgrading, rest }
  | .refuse message :: rest, s => { s with status := .finished (.smtpError message true), rest }

/-- `attach`, when `smtpSend` has the upgraded socket. -/
def attach (s : State) : State := { s with buffer := [], channel := .upgraded }

/-- The replies that decided a step, with one more when the socket is the upgraded one. -/
def noted (s : State) (reply : Reply) : List Reply :=
  if s.channel = .upgraded then s.decided ++ [reply] else s.decided

/-- `expect`, after its `await`. -/
def judge (s : State) (codes : List ℕ) (reply : Reply) : State :=
  let judged := { s with decided := noted s reply }
  if reply.code ∈ codes then proceed (units reply.text) s.rest judged
  else
    { judged with
      status := .finished (.smtpError (js "SMTP: " ++ units reply.text) (500 ≤ reply.code)) }

/-- What can happen to the connection. -/
inductive Action where
  | chunk (bytes : List UInt8)
  /-- `smtpSend` goes on after an `await`. -/
  | resume
  | upgraded
  | upgradeFailed (message : JsString)
  /-- The transport has no `upgradeToTls`. -/
  | cannotUpgrade
  | timeout
  | socketError (message : JsString)

def finish (s : State) (result : Result) : State := { s with status := .finished result }

/-- While the socket is being upgraded nothing listens to its data. -/
def step (s : State) (action : Action) : Option State :=
  match action, s.status with
  | .chunk bytes, .reading _ => some (consume s ((decodeUtf8 bytes).map (·, s.channel)))
  | .chunk bytes, .answered _ _ => some (consume s ((decodeUtf8 bytes).map (·, s.channel)))
  | .resume, .answered codes reply => some (judge s codes reply)
  | .upgraded, .upgrading => some (proceed [] s.rest (attach s))
  | .upgradeFailed message, .upgrading =>
    some (finish s (.smtpError (js "TLS: " ++ message) false))
  | .cannotUpgrade, .upgrading =>
    some (finish s (.smtpError (js "This transport cannot upgrade to TLS.") true))
  | .timeout, .reading _ => some (finish s (.smtpError (js "SMTP server timed out") false))
  | .socketError message, .reading _ => some (finish s (.error message))
  | .socketError _, .answered _ _ => some s
  | .socketError _, .upgrading => some s
  | _, _ => none

def start : State :=
  { buffer := [], pending := [], status := .upgrading, rest := [], channel := .first, written := [],
    decided := [] }

/-- The conversation of one call of `smtpSend`. -/
def machine (script : List Instruction) : Machine State Action where
  init := proceed [] script start
  step := step

/-! ### What one step does -/

/-- Nothing but the buffer, the queue and the waiter depends on what arrives. -/
structure Heard (s t : State) : Prop where
  rest : t.rest = s.rest
  channel : t.channel = s.channel
  written : t.written = s.written
  decided : t.decided = s.decided
  upgrading : t.status = .upgrading ↔ s.status = .upgrading
  finished : ∀ result, t.status = .finished result → s.status = .finished result

theorem Heard.trans {s t u : State} (hst : Heard s t) (htu : Heard t u) : Heard s u :=
  ⟨htu.rest.trans hst.rest, htu.channel.trans hst.channel, htu.written.trans hst.written,
    htu.decided.trans hst.decided, htu.upgrading.trans hst.upgrading,
    fun result h => hst.finished result (htu.finished result h)⟩

theorem hear_heard (s : State) (reply : Reply) : Heard s (hear s reply) := by
  unfold hear
  split
  · rename_i codes hreading
    refine ⟨rfl, rfl, rfl, rfl, ?_, fun _ h => by cases h⟩
    rw [hreading]
    exact ⟨fun h => (by cases h), fun h => (by cases h)⟩
  · exact ⟨rfl, rfl, rfl, rfl, Iff.rfl, fun _ => id⟩

theorem consume_heard (s : State) (text : List Received) : Heard s (consume s text) := by
  refine List.foldlRecOn _ hear (motive := Heard s) ?_ fun t ht reply _ => ?_
  · exact ⟨rfl, rfl, rfl, rfl, Iff.rfl, fun _ => id⟩
  · exact ht.trans (hear_heard t reply)

/-- What the step that an action names does. -/
inductive Taken (s : State) : Action → State → Prop where
  | chunk (bytes : List UInt8) :
    Taken s (.chunk bytes) (consume s ((decodeUtf8 bytes).map (·, s.channel)))
  | resume {codes : List ℕ} {reply : Reply} (h : s.status = .answered codes reply) :
    Taken s .resume (judge s codes reply)
  | upgraded (h : s.status = .upgrading) : Taken s .upgraded (proceed [] s.rest (attach s))
  | finish {action : Action} (result : Result) (h : action ≠ .upgraded)
    (hresult : ∀ reply, result ≠ .accepted reply) : Taken s action (finish s result)
  | ignore (message : JsString) : Taken s (.socketError message) s

variable {action : Action} {s : State} {rest script done : List Instruction}

theorem step_taken {s t : State} (h : step s action = some t) : Taken s action t := by
  unfold step at h
  split at h
  · exact Option.some.inj h ▸ .chunk _
  · exact Option.some.inj h ▸ .chunk _
  · rename_i codes reply hanswered
    exact Option.some.inj h ▸ .resume hanswered
  · rename_i hupgrading
    exact Option.some.inj h ▸ .upgraded hupgrading
  · exact Option.some.inj h ▸ .finish _ (fun heq => by cases heq) fun _ heq => by cases heq
  · exact Option.some.inj h ▸ .finish _ (fun heq => by cases heq) fun _ heq => by cases heq
  · exact Option.some.inj h ▸ .finish _ (fun heq => by cases heq) fun _ heq => by cases heq
  · exact Option.some.inj h ▸ .finish _ (fun heq => by cases heq) fun _ heq => by cases heq
  · exact Option.some.inj h ▸ .ignore _
  · exact Option.some.inj h ▸ .ignore _
  · cases h

/-- The lines of a buffer, and what is left of it, are made of its units. -/
theorem mem_splitLines {p : Received → Prop} (line text : List Received)
    (hline : ∀ u ∈ line, p u) (htext : ∀ u ∈ text, p u) :
    (∀ l ∈ (splitLines line text).1, ∀ u ∈ l, p u) ∧ ∀ u ∈ (splitLines line text).2, p u := by
  fun_induction splitLines line text with
  | case1 line => exact ⟨nofun, hline⟩
  | case2 line a =>
    exact ⟨nofun, fun u hu =>
      (List.mem_append.mp hu).elim (hline u) (htext u)⟩
  | case3 line a b rest hcrlf more ih =>
    obtain ⟨hlines, hleft⟩ := ih nofun fun u hu =>
      htext u (List.mem_cons_of_mem _ (List.mem_cons_of_mem _ hu))
    refine ⟨fun l hl => ?_, hleft⟩
    rcases List.mem_cons.mp hl with rfl | hl
    · exact hline
    · exact hlines l hl
  | case4 line a b rest hcrlf ih =>
    refine ih (fun u hu => ?_) fun u hu => htext u (List.mem_cons_of_mem _ hu)
    rcases List.mem_append.mp hu with hu | hu
    · exact hline u hu
    · obtain rfl := List.mem_singleton.mp hu
      exact htext u List.mem_cons_self

/-! ### Where the replies come from -/

/-- A reply of which every unit was received over the upgraded socket. -/
def Secure (reply : Reply) : Prop := ∀ u ∈ reply.text, u.2 = .upgraded

/-- What is known of a conversation whose upgrade left no reply behind. -/
structure Isolated (s : State) : Prop where
  decided : ∀ reply ∈ s.decided, Secure reply
  buffer : s.channel = .upgraded → ∀ u ∈ s.buffer, u.2 = .upgraded
  pending : s.channel = .upgraded → ∀ reply ∈ s.pending, Secure reply
  answered : s.channel = .upgraded → ∀ codes reply, s.status = .answered codes reply → Secure reply

theorem Isolated.hear (h : Isolated s) {reply : Reply}
    (hreply : s.channel = .upgraded → Secure reply) : Isolated (hear s reply) := by
  unfold SmtpConversation.hear
  split
  · refine ⟨h.decided, h.buffer, h.pending, fun hchannel codes answer hanswer => ?_⟩
    cases hanswer
    exact hreply hchannel
  · refine ⟨h.decided, h.buffer, fun hchannel queued hqueued => ?_, h.answered⟩
    rcases List.mem_append.mp hqueued with hqueued | hqueued
    · exact h.pending hchannel queued hqueued
    · obtain rfl := List.mem_singleton.mp hqueued
      exact hreply hchannel

theorem Isolated.consume (h : Isolated s) (text : JsString) :
    Isolated (consume s (text.map (·, s.channel))) := by
  have hsplit (hchannel : s.channel = .upgraded) :=
    mem_splitLines (p := fun u => u.2 = .upgraded) [] (s.buffer ++ text.map (·, s.channel))
      nofun fun u hu => by
        rcases List.mem_append.mp hu with hu | hu
        · exact h.buffer hchannel u hu
        · obtain ⟨c, -, rfl⟩ := List.mem_map.mp hu
          exact hchannel
  have hfold : Isolated (SmtpConversation.consume s (text.map (·, s.channel))) ∧
      Heard s (SmtpConversation.consume s (text.map (·, s.channel))) := by
    refine List.foldlRecOn _ SmtpConversation.hear
      (motive := fun t => Isolated t ∧ Heard s t) ?_ fun t ht reply hreply => ?_
    · exact ⟨⟨h.decided, fun hchannel => (hsplit hchannel).2, h.pending, h.answered⟩,
        ⟨rfl, rfl, rfl, rfl, Iff.rfl, fun _ => id⟩⟩
    · refine ⟨ht.1.hear fun hchannel => ?_, ht.2.trans (hear_heard t reply)⟩
      obtain ⟨line, hline, hcode⟩ := List.mem_filterMap.mp hreply
      obtain ⟨code, -, rfl⟩ := Option.map_eq_some_iff.mp hcode
      exact (hsplit (ht.2.channel.symm.trans hchannel)).1 line hline
  exact hfold.1

/-- What is done until the next `await` reads at most one reply, out of the queue. -/
theorem Isolated.proceed {last : JsString} (hdecided : ∀ reply ∈ s.decided, Secure reply)
    (hbuffer : s.channel = .upgraded → ∀ u ∈ s.buffer, u.2 = .upgraded)
    (hpending : s.channel = .upgraded → ∀ reply ∈ s.pending, Secure reply) :
    Isolated (proceed last rest s) := by
  have hread {codes : List ℕ} {rest : List Instruction} {s : State}
      (hdecided : ∀ reply ∈ s.decided, Secure reply)
      (hbuffer : s.channel = .upgraded → ∀ u ∈ s.buffer, u.2 = .upgraded)
      (hpending : s.channel = .upgraded → ∀ reply ∈ s.pending, Secure reply) :
      Isolated (read codes rest s) := by
    unfold read
    split
    · rename_i queued pending hqueue
      rw [hqueue] at hpending
      refine ⟨hdecided, hbuffer, fun hchannel reply hreply => ?_, fun hchannel _ _ heq => ?_⟩
      · exact hpending hchannel reply (List.mem_cons_of_mem _ hreply)
      · cases heq
        exact hpending hchannel queued List.mem_cons_self
    · exact ⟨hdecided, hbuffer, hpending, nofun⟩
  induction rest generalizing s with
  | nil => exact ⟨hdecided, hbuffer, hpending, nofun⟩
  | cons instruction rest ih =>
    cases instruction with
    | expect codes => exact hread hdecided hbuffer hpending
    | command line codes => exact hread hdecided hbuffer hpending
    | write data => exact ih hdecided hbuffer hpending
    | upgradeToTls => exact ⟨hdecided, hbuffer, hpending, nofun⟩
    | refuse message => exact ⟨hdecided, hbuffer, hpending, nofun⟩

theorem Isolated.judge (h : Isolated s) {codes : List ℕ} {reply : Reply}
    (hanswered : s.status = .answered codes reply) : Isolated (judge s codes reply) := by
  have hnoted : ∀ known ∈ noted s reply, Secure known := by
    unfold noted
    split
    · rename_i hchannel
      intro known hknown
      rcases List.mem_append.mp hknown with hknown | hknown
      · exact h.decided known hknown
      · obtain rfl := List.mem_singleton.mp hknown
        exact h.answered hchannel codes known hanswered
    · exact h.decided
  unfold SmtpConversation.judge
  split
  · exact Isolated.proceed hnoted h.buffer h.pending
  · exact ⟨hnoted, h.buffer, h.pending, nofun⟩

/-- The upgraded socket is attached only when no reply is queued. -/
def NothingQueued (s : State) (action : Action) : Prop := action = .upgraded → s.pending = []

theorem Isolated.step {s t : State} (h : Isolated s) (hqueued : NothingQueued s action)
    (hstep : step s action = some t) : Isolated t := by
  cases step_taken hstep with
  | chunk bytes => exact h.consume _
  | resume hanswered => exact h.judge hanswered
  | upgraded hupgrading =>
    refine Isolated.proceed h.decided nofun fun _ reply hreply => ?_
    have hpending : (attach s).pending = [] := hqueued rfl
    rw [hpending] at hreply
    cases hreply
  | finish result hne _ => exact ⟨h.decided, h.buffer, h.pending, nofun⟩
  | ignore message => exact h

theorem Isolated.init (script : List Instruction) : Isolated (machine script).init :=
  Isolated.proceed nofun nofun
    nofun

/-! ### How far the script has come -/

/-- The instructions that were done, what they wrote, and whether the upgrade is among them. -/
structure Placed (script : List Instruction) (s : State) (done : List Instruction) : Prop where
  script : done ++ s.rest = script
  written : s.written = done.filterMap Instruction.written
  channel : s.channel = .upgraded → .upgradeToTls ∈ done
  decided : s.channel = .first → s.decided = []
  upgrading : s.status = .upgrading →
    ∃ before, done = before ++ [.upgradeToTls] ∧ (s.channel = .upgraded → .upgradeToTls ∈ before)
  accepted : ∀ reply, s.status = .finished (.accepted reply) → s.rest = []

theorem Placed.heard {s t : State} (h : Placed script s done) (ht : Heard s t) :
    Placed script t done where
  script := ht.rest ▸ h.script
  written := ht.written.trans h.written
  channel hchannel := h.channel (ht.channel.symm.trans hchannel)
  decided hchannel := ht.decided.trans (h.decided (ht.channel.symm.trans hchannel))
  upgrading hupgrading := by
    rw [ht.channel]
    exact h.upgrading (ht.upgrading.mp hupgrading)
  accepted reply haccepted := ht.rest.trans (h.accepted reply (ht.finished _ haccepted))

/-- A status other than that of the upgrade, or of an accepted mail, changes nothing of this. -/
theorem placed_of (hscript : done ++ s.rest = script)
    (hwritten : s.written = done.filterMap Instruction.written)
    (hchannel : s.channel = .upgraded → .upgradeToTls ∈ done)
    (hdecided : s.channel = .first → s.decided = []) (hstatus : s.status ≠ .upgrading)
    (haccepted : ∀ reply, s.status = .finished (.accepted reply) → s.rest = []) :
    Placed script s done :=
  ⟨hscript, hwritten, hchannel, hdecided, fun h => absurd h hstatus, haccepted⟩

theorem placed_read {codes : List ℕ} (hscript : done ++ rest = script)
    (hwritten : s.written = done.filterMap Instruction.written)
    (hchannel : s.channel = .upgraded → .upgradeToTls ∈ done)
    (hdecided : s.channel = .first → s.decided = []) : Placed script (read codes rest s) done := by
  unfold read
  split
  · exact placed_of hscript hwritten hchannel hdecided (fun h => by cases h) fun _ h => by cases h
  · exact placed_of hscript hwritten hchannel hdecided (fun h => by cases h) fun _ h => by cases h

theorem placed_proceed {last : JsString} :
    ∀ {done : List Instruction} {s : State}, done ++ rest = script →
      s.written = done.filterMap Instruction.written →
      (s.channel = .upgraded → .upgradeToTls ∈ done) → (s.channel = .first → s.decided = []) →
      ∃ done, Placed script (proceed last rest s) done := by
  induction rest with
  | nil =>
    intro done s hscript hwritten hchannel hdecided
    exact ⟨done, placed_of hscript hwritten hchannel hdecided nofun fun _ _ => rfl⟩
  | cons instruction rest ih =>
    intro done s hscript hwritten hchannel hdecided
    have hnext : (done ++ [instruction]) ++ rest = script := by
      rw [List.append_assoc]
      exact hscript
    have hlater (data : JsString) (hdata : instruction.written = some data) :
        s.written ++ [data] = (done ++ [instruction]).filterMap Instruction.written := by
      rw [List.filterMap_append, ← hwritten]
      simp [hdata]
    have hsame (hnone : instruction.written = none) :
        s.written = (done ++ [instruction]).filterMap Instruction.written := by
      rw [List.filterMap_append, ← hwritten]
      simp [hnone]
    have hmore (hupgraded : s.channel = .upgraded) : .upgradeToTls ∈ done ++ [instruction] :=
      List.mem_append_left _ (hchannel hupgraded)
    cases instruction with
    | expect codes => exact ⟨_, placed_read hnext (hsame rfl) hmore hdecided⟩
    | command line codes => exact ⟨_, placed_read hnext (hlater _ rfl) hmore hdecided⟩
    | write data => exact ih hnext (hlater data rfl) hmore hdecided
    | upgradeToTls =>
      exact ⟨_, hnext, hsame rfl, hmore, hdecided, fun _ => ⟨done, rfl, hchannel⟩,
        nofun⟩
    | refuse message =>
      exact ⟨_, placed_of hnext (hsame rfl) hmore hdecided nofun fun _ h => by
        cases h⟩

theorem Placed.step {s t : State} (h : Placed script s done) (hstep : step s action = some t) :
    ∃ done, Placed script t done := by
  cases step_taken hstep with
  | chunk bytes => exact ⟨done, h.heard (consume_heard s _)⟩
  | @resume codes reply hanswered =>
    have hdecided (hchannel : s.channel = .first) : noted s reply = [] := by
      rw [noted, if_neg (by rw [hchannel]; exact nofun)]
      exact h.decided hchannel
    unfold judge
    split
    · exact placed_proceed h.script h.written h.channel hdecided
    · exact ⟨done, placed_of h.script h.written h.channel hdecided nofun
        nofun⟩
  | upgraded hupgrading =>
    obtain ⟨before, hdone, -⟩ := h.upgrading hupgrading
    refine placed_proceed h.script h.written (fun _ => ?_) nofun
    rw [hdone]
    exact List.mem_append_right _ List.mem_cons_self
  | finish result hne hresult =>
    refine ⟨done, placed_of h.script h.written h.channel h.decided nofun ?_⟩
    exact fun reply heq => absurd (Status.finished.inj heq) (hresult reply)
  | ignore message => exact ⟨done, h⟩

theorem placed_of_reachable (h : (machine script).Reachable s) : ∃ done, Placed script s done := by
  refine h.induct (P := fun s => ∃ done, Placed script s done) ?_ ?_
  · exact placed_proceed (List.nil_append script) rfl nofun fun _ => rfl
  · intro _ _ _ _ ⟨_, hplaced⟩ hstep
    exact hplaced.step hstep

/-! ### One upgrade -/

theorem split_once {α : Type} {x : α} {p : α → Bool} (hx : p x = true)
    {first first' rest rest' : List α} (heq : first ++ x :: rest = first' ++ x :: rest')
    (honce : (first ++ x :: rest).countP p ≤ 1) : first = first' := by
  have hcount (before after : List α) :
      (before ++ x :: after).countP p = before.countP p + (after.countP p + 1) := by
    rw [List.countP_append, List.countP_cons_of_pos hx]
  have honce' : (first' ++ x :: rest').countP p ≤ 1 := heq ▸ honce
  rw [hcount] at honce honce'
  obtain ⟨more, rfl, hrest⟩ | ⟨more, rfl, hrest⟩ := List.append_eq_append_iff.mp heq
  · cases more with
    | nil => rw [List.append_nil]
    | cons y more =>
      obtain ⟨rfl, -⟩ := List.cons.inj hrest
      rw [hcount] at honce'
      omega
  · cases more with
    | nil => rw [List.append_nil]
    | cons y more =>
      obtain ⟨rfl, -⟩ := List.cons.inj hrest
      rw [hcount] at honce
      omega

def isUpgrade : Instruction → Bool
  | .upgradeToTls => true
  | _ => false

theorem upgrades_smtpSend (options : SmtpSendOptions) (mail : SmtpMail) (date : ℤ) :
    (smtpSend options mail date).countP isUpgrade ≤ 1 := by
  have hstart : (startTls options).countP isUpgrade ≤ 1 := by
    unfold startTls
    split <;> decide
  have hlogin : (authenticate options).countP isUpgrade = 0 := by
    unfold authenticate
    split
    · rfl
    · split
      · rfl
      · split <;> rfl
  have hrecipients : (mail.to_.map fun recipient =>
      Instruction.command (js "RCPT TO:<" ++ envelopeAddress recipient ++ js ">") [250, 251]).countP
        isUpgrade = 0 := by
    rw [List.countP_map]
    exact List.countP_eq_zero.mpr fun _ _ h => by cases h
  simp only [smtpSend, List.countP_append, hlogin, hrecipients]
  simpa [isUpgrade, greet] using hstart

/-- The conversation of one call. -/
def conversation (options : SmtpSendOptions) (mail : SmtpMail) (date : ℤ) : Machine State Action :=
  machine (smtpSend options mail date)

/-- Where the socket is being upgraded, everything that a later step can see is given. -/
theorem attach_eq {options : SmtpSendOptions} {mail : SmtpMail} {date : ℤ} {s s' : State}
    (hs : (conversation options mail date).Reachable s)
    (hs' : (conversation options mail date).Reachable s') (hupgrading : s.status = .upgrading)
    (hupgrading' : s'.status = .upgrading) (hpending : s.pending = s'.pending) :
    attach s = attach s' ∧ s.rest = s'.rest := by
  have honce := upgrades_smtpSend options mail date
  obtain ⟨done, hdone⟩ := placed_of_reachable hs
  obtain ⟨done', hdone'⟩ := placed_of_reachable hs'
  obtain ⟨before, rfl, hfirst⟩ := hdone.upgrading hupgrading
  obtain ⟨before', rfl, hfirst'⟩ := hdone'.upgrading hupgrading'
  have hscript : before ++ .upgradeToTls :: s.rest = smtpSend options mail date := by
    rw [← hdone.script, List.append_assoc]
    rfl
  have hscript' : before' ++ .upgradeToTls :: s'.rest = smtpSend options mail date := by
    rw [← hdone'.script, List.append_assoc]
    rfl
  obtain rfl := split_once (p := isUpgrade) rfl (hscript.trans hscript'.symm) (hscript ▸ honce)
  have hrest : s.rest = s'.rest :=
    (List.cons.inj (List.append_cancel_left (hscript.trans hscript'.symm))).2
  have hnone : Instruction.upgradeToTls ∉ before := by
    intro hmem
    have hpositive := List.countP_pos_iff.mpr ⟨_, hmem, (rfl : isUpgrade .upgradeToTls = true)⟩
    rw [← hscript, List.countP_append, List.countP_cons_of_pos rfl] at honce
    omega
  have hdecided : s.decided = s'.decided := by
    rw [hdone.decided, hdone'.decided]
    · cases hchannel : s'.channel with
      | first => rfl
      | upgraded => exact absurd (hfirst' hchannel) hnone
    · cases hchannel : s.channel with
      | first => rfl
      | upgraded => exact absurd (hfirst hchannel) hnone
  refine ⟨?_, hrest⟩
  unfold attach
  rw [hpending, hupgrading, hupgrading', hrest, hdone.written, hdone'.written, hdecided]

theorem exec_upgraded {options : SmtpSendOptions} {mail : SmtpMail} {date : ℤ} {acts : List Action}
    (hs : (conversation options mail date).exec acts = some s) (hupgrading : s.status = .upgrading)
    (later : List Action) : (conversation options mail date).exec (acts ++ .upgraded :: later) =
      (conversation options mail date).execFrom (proceed [] s.rest (attach s)) later := by
  have hstep : step s .upgraded = some (proceed [] s.rest (attach s)) := by
    simp only [step, hupgrading]
  have hrun : acts.foldlM (conversation options mail date).step (conversation options mail date).init =
      some s := hs
  rw [Machine.exec, List.foldlM_append, hrun]
  change (some s).bind (fun r => (step r .upgraded).bind _) = _
  rw [Option.bind_some, hstep, Option.bind_some]
  rfl

/-- Where no reply is queued when the upgraded socket is attached, every later reply came over it, and
two runs that come to the upgrade go on in the same way. -/
theorem replies_isolated (options : SmtpSendOptions) (mail : SmtpMail) (date : ℤ) :
    (∀ acts, (conversation options mail date).EachStep acts NothingQueued →
      (conversation options mail date).Always acts fun s => ∀ reply ∈ s.decided, Secure reply) ∧
    ∀ acts acts' later s s', (conversation options mail date).exec acts = some s →
      (conversation options mail date).exec acts' = some s' →
      s.status = .upgrading → s'.status = .upgrading →
      NothingQueued s .upgraded → NothingQueued s' .upgraded →
      (conversation options mail date).exec (acts ++ .upgraded :: later) =
        (conversation options mail date).exec (acts' ++ .upgraded :: later) := by
  constructor
  · intro acts heach visited hpre s hs
    have halways : (conversation options mail date).Always acts Isolated :=
      .of_eachStep (Isolated.init _) (fun _ _ _ _ h hqueued hstep => h.step hqueued hstep) heach
    exact (halways visited hpre s hs).decided
  · intro acts acts' later s s' hs hs' hupgrading hupgrading' hqueued hqueued'
    obtain ⟨hattach, hrest⟩ := attach_eq ⟨acts, hs⟩ ⟨acts', hs'⟩ hupgrading hupgrading'
      ((hqueued rfl).trans (hqueued' rfl).symm)
    rw [exec_upgraded hs hupgrading, exec_upgraded hs' hupgrading', hattach, hrest]

def sampleOptions : SmtpSendOptions := { security := .starttls, username := none, password := none }

def sampleMail : SmtpMail where
  from_ := js "vigil@example.org"
  to_ := [js "ops@example.org"]
  subject := js "Database is down ⚠"
  text := js "The database at £5 an hour stopped answering."
  messageId := js "41"

/-- The server greets, answers, accepts STARTTLS, and is heard again over the upgraded socket. -/
def honestRun : List Action :=
  [.chunk (utf8 (js "220 ready\r\n")), .resume, .chunk (utf8 (js "250-mx\r\n250 STARTTLS\r\n")), .resume,
    .chunk (utf8 (js "220 go\r\n250 o")), .resume, .upgraded, .chunk (utf8 (js "250 mx\r\n")), .resume]

/-- A reply to the second EHLO comes in the chunk that accepts STARTTLS. -/
def injectedRun : List Action :=
  [.chunk (utf8 (js "220 ready\r\n")), .resume, .chunk (utf8 (js "250 mx\r\n")), .resume,
    .chunk (utf8 (js "220 go\r\n250 injected\r\n")), .resume, .upgraded, .resume]

def nothingQueued (s : State) : Action → Bool
  | .upgraded => s.pending.isEmpty
  | _ => true

theorem honest_run_isolated :
    (conversation sampleOptions sampleMail 0).Always honestRun fun s =>
      ∀ reply ∈ s.decided, Secure reply := by
  refine (replies_isolated sampleOptions sampleMail 0).1 honestRun ?_
  have hchecks : Machine.checks step nothingQueued (conversation sampleOptions sampleMail 0).init
      honestRun = true := by decide +kernel
  refine .of_checks (fun s action htest heq => ?_) hchecks
  subst heq
  exact List.isEmpty_iff.mp htest

/-- The second EHLO is decided by a reply that came before the upgrade. -/
theorem injected_reply_decides :
    ∃ s, (conversation sampleOptions sampleMail 0).exec injectedRun = some s ∧
      ¬ ∀ reply ∈ s.decided, Secure reply := by
  have hrun : ((conversation sampleOptions sampleMail 0).exec injectedRun).any (fun s =>
      s.decided.any fun reply => reply.text.any fun u => u.2 = .first) = true := by decide +kernel
  obtain ⟨s, hs, hdecided⟩ := (Option.any_eq_true _ _).mp hrun
  refine ⟨s, hs, fun hsecure => ?_⟩
  obtain ⟨reply, hreply, hunit⟩ := List.any_eq_true.mp hdecided
  obtain ⟨u, hu, hfirst⟩ := List.any_eq_true.mp hunit
  rw [hsecure reply hreply u hu] at hfirst
  cases hfirst

/-! ### What is written -/

/-- What any run writes are whole commands, each one line, then the data and the farewell, and a run
that ends with the mail accepted has written all of them; the data are as they have to be. -/
theorem commands_and_data_framed (options : SmtpSendOptions) (mail : SmtpMail) (date : ℤ)
    (hclean : Clean mail) (hsubject : WellFormed mail.subject) (htext : WellFormed mail.text)
    (s : State) (hs : (conversation options mail date).Reachable s) :
    s.written <+: (commandLines options mail).map (· ++ CRLF) ++
        [mailData mail date, js "QUIT" ++ CRLF] ∧
      (∀ reply, s.status = .finished (.accepted reply) →
        s.written = (commandLines options mail).map (· ++ CRLF) ++
          [mailData mail date, js "QUIT" ++ CRLF]) ∧
      (∀ line ∈ commandLines options mail, OneLine line) ∧ Framed mail (mailData mail date) := by
  obtain ⟨done, hdone⟩ := placed_of_reachable hs
  have hall := written_smtpSend options mail date
  rw [← hdone.script, List.filterMap_append, ← hdone.written] at hall
  refine ⟨⟨_, hall⟩, fun reply haccepted => ?_, oneLine_commandLines options mail,
    hclean.framed hsubject htext date⟩
  rw [hdone.accepted reply haccepted, List.filterMap_nil, List.append_nil] at hall
  exact hall

theorem sample_mail_framed : Framed sampleMail (mailData sampleMail 0) := by
  have hclean : Clean sampleMail := {
    from_ := noControl_of_all (by decide)
    to_ := fun recipient hrecipient => by
      obtain rfl := List.mem_singleton.mp hrecipient
      exact noControl_of_all (by decide)
    messageId := noControl_of_all (by decide) }
  exact (commands_and_data_framed sampleOptions sampleMail 0 hclean ⟨_, rfl⟩ ⟨_, rfl⟩ _ .init).2.2.2

end Vigil.Notifications.SmtpConversation
