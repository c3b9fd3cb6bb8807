import Vigil.Access.Tokens
import Vigil.Lib.Run
import Vigil.Notifications.Intents

/-! The subscribers of a status page: `status-pages/subscribers.ts`, the actions of
`app/status/[slug]` that call it, and `deliverSubscriberEmail` of
`notifications/subscriber-emails.ts`.  Every request reads the tables and writes them later, so that
other requests, a removal of the same subscriber among them, come in between.  Who may confirm and
remove a subscription is decided by the token alone, which is sent to its address. -/

namespace Vigil.StatusPages.Subscribers

open Js.Text Function
open Access.Tokens Notifications.Intents
open Lib

/-- What the pages rest on: the signature, the texts of ids, and the form of addresses. -/
structure Site where
  hmac : List UInt8 → List UInt8 → JsString
  /-- `BETTER_AUTH_SECRET` -/
  secret : JsString
  uuid : ℕ → JsString
  /-- `z.email().max(254)` -/
  validEmail : JsString → Bool
  /-- `email.trim().toLowerCase()` -/
  normalizeEmail : JsString → JsString

structure Site.Lawful (site : Site) : Prop where
  digest : HexDigest site.hmac
  uuid_ne_nil : ∀ id, site.uuid id ≠ []
  uuid_inj : ∀ id id', site.uuid id = site.uuid id' → id = id'
  normalize_twice : ∀ email, site.normalizeEmail (site.normalizeEmail email) = site.normalizeEmail email

/-- A row of `status_page_subscribers`. -/
structure StatusPageSubscriber extends Subscriber where
  email : JsString
  deriving DecidableEq

/-- A mail as it is handed to the transport. -/
structure Mail where
  to_ : JsString
  /-- The token of its link. -/
  token : JsString
  /-- The subscriber and the page of a mail about an incident; a confirmation has none. -/
  about : Option (ℕ × ℕ)
  deriving DecidableEq

/-- How far a request has come. -/
inductive Phase where
  | idle
  /-- `subscribeToStatusPage` found no row. -/
  | subscribing (pageId : ℕ) (email : JsString)
  /-- `confirmSubscription` found a row that was not confirmed. -/
  | confirming (id : ℕ) (visitor : JsString)
  /-- `deliverSubscriberEmail` found a row that was. -/
  | sending (id pageId : ℕ) (to_ : JsString)
  deriving DecidableEq

structure State (Request : Type) where
  pages : List StatusPage
  pageMonitors : List (ℕ × ℕ)
  subscribers : List StatusPageSubscriber
  outbox : List QueuedRow
  requests : Request → Phase
  mails : List Mail
  /-- Every row that was ever inserted: its id, page and address. -/
  signups : List (ℕ × ℕ × JsString)
  /-- Whose visit confirmed which row. -/
  confirmations : List (ℕ × JsString)
  /-- The rows that were removed, by an unsubscription or with their page. -/
  removed : List ℕ

/-- What visitors, readers of mailboxes and the worker do. -/
inductive Action (Request : Type) where
  /-- `subscribeToStatusPageAction`, up to the row that it finds. -/
  | subscribe (request : Request) (pageId : ℕ) (email : JsString)
  /-- The insert of `subscribeToStatusPage`, and the mail after it. -/
  | insert (request : Request) (id : ℕ)
  /-- `confirmSubscription`, up to the row that it finds.  The visitor is known by the mailbox that
  they read. -/
  | confirm (request : Request) (visitor : JsString) (token : Option JsString)
  /-- The update of `confirmSubscription`. -/
  | finishConfirm (request : Request) (now : ℤ)
  /-- `unsubscribeByToken` -/
  | unsubscribe (visitor : JsString) (token : Option JsString)
  /-- `enqueueSubscriberEmails` -/
  | enqueue (organizationId : String) (target : IntentSubscribers)
  /-- `deliverSubscriberEmail`, up to the row that it finds. -/
  | deliver (request : Request) (row : QueuedRow)
  /-- The mail of `deliverSubscriberEmail`. -/
  | send (request : Request)
  /-- An operator changes, publishes or deletes pages. -/
  | edit (pages : List StatusPage) (pageMonitors : List (ℕ × ℕ))

section

variable {Request : Type} [DecidableEq Request] (site : Site)

def tokenOf (id : ℕ) : JsString := signSubscriptionToken site.hmac site.secret (site.uuid id)

/-- The id that a token was signed for; a comparison that throws is a page of its own. -/
def verified (token : Option JsString) : Option JsString :=
  match verifySubscriptionToken site.hmac site.secret token with
  | .error _ => none
  | .ok id => id

def State.setPhase (s : State Request) (request : Request) (phase : Phase) : State Request :=
  { s with requests := update s.requests request phase }

def State.audience (s : State Request) : Audience where
  channels := []
  channelMonitors := []
  members := []
  pages := s.pages
  pageMonitors := s.pageMonitors
  subscribers := s.subscribers.map (·.toSubscriber)

/-- `statusPageSubscribers.findFirst` by page and address. -/
def State.findByEmail (s : State Request) (pageId : ℕ) (email : JsString) :
    Option StatusPageSubscriber :=
  s.subscribers.find? fun row => row.statusPageId = pageId && row.email = email

def State.findByToken (s : State Request) (token : Option JsString) :
    Option StatusPageSubscriber :=
  (verified site token).bind fun text => s.subscribers.find? fun row => site.uuid row.id = text

def confirmationMail (id : ℕ) (email : JsString) : Mail where
  to_ := email
  token := tokenOf site id
  about := none

/-- The action mails the address that it normalized; the row has it normalized once more. -/
def subscribeStep (s : State Request) (request : Request) (pageId : ℕ) (rawEmail : JsString) :
    State Request :=
  let email := site.normalizeEmail rawEmail
  if !site.validEmail rawEmail then s
  -- The answer is the same whether there is such a page or not.
  else if !(s.pages.any fun page => page.id = pageId && page.published && page.isPublic) then s
  else
    match s.findByEmail pageId (site.normalizeEmail email) with
    | some existing =>
      if existing.confirmedAt.isSome then s
      else { s with mails := confirmationMail site existing.id email :: s.mails }
    | none => s.setPhase request (.subscribing pageId email)

def newSubscriber (id pageId : ℕ) (email : JsString) : StatusPageSubscriber where
  id := id
  statusPageId := pageId
  confirmedAt := none
  email := email

/-- The insert fails where the page is gone or its index has the address already. -/
def insertStep (s : State Request) (request : Request) (id pageId : ℕ) (email : JsString) :
    State Request :=
  let stored := site.normalizeEmail email
  let s := s.setPhase request .idle
  if !(s.pages.any fun page => page.id = pageId) || (s.findByEmail pageId stored).isSome then s
  else { s with
    subscribers := s.subscribers ++ [newSubscriber id pageId stored]
    signups := (id, pageId, stored) :: s.signups
    mails := confirmationMail site id email :: s.mails }

def confirmedNow (id : ℕ) (now : ℤ) (row : StatusPageSubscriber) : StatusPageSubscriber :=
  if row.id = id then { row with confirmedAt := some now } else row

/-- Rows that leave the table. -/
def State.remove (s : State Request) (gone : StatusPageSubscriber → Bool) : State Request :=
  { s with
    subscribers := s.subscribers.filter fun row => !gone row
    removed := (s.subscribers.filter gone).map (·.id) ++ s.removed }

def deliverStep (s : State Request) (request : Request) (row : QueuedRow) : State Request :=
  match row.message.idempotencyKey with
  | .channel _ _ | .member _ _ => s
  | .subscriber _ pageId subscriberId =>
    match s.subscribers.find? fun row => row.id = subscriberId && row.statusPageId = pageId with
    -- Permanent: the subscriber unsubscribed before this could be delivered.
    | none => s
    | some row =>
      if row.confirmedAt.isNone then s
      else s.setPhase request (.sending row.id row.statusPageId row.email)

/-- One step of a request or of the worker. -/
def step (s : State Request) : Action Request → Option (State Request)
  | .subscribe request pageId email =>
    if s.requests request ≠ .idle then none
    else some (subscribeStep site s request pageId email)
  | .insert request id =>
    match s.requests request with
    | .subscribing pageId email =>
      if id ∈ s.signups.map (·.1) then none
      else some (insertStep site s request id pageId email)
    | .idle | .confirming _ _ | .sending _ _ _ => none
  | .confirm request visitor token =>
    if s.requests request ≠ .idle then none
    else
      match s.findByToken site token with
      | none => some s
      | some row =>
        if row.confirmedAt.isSome then some s
        else some (s.setPhase request (.confirming row.id visitor))
  | .finishConfirm request now =>
    match s.requests request with
    | .confirming id visitor => some { s.setPhase request .idle with
        subscribers := s.subscribers.map (confirmedNow id now)
        confirmations := (id, visitor) :: s.confirmations }
    | .idle | .subscribing _ _ | .sending _ _ _ => none
  | .unsubscribe _ token =>
    match verified site token with
    | none => some s
    | some text => some (s.remove fun row => site.uuid row.id = text)
  | .enqueue organizationId target =>
    some { s with
      outbox := enqueueMany none s.outbox
        (enqueueSubscriberEmails s.audience organizationId target) }
  | .deliver request row =>
    if s.requests request ≠ .idle ∨ row ∉ s.outbox then none
    else some (deliverStep s request row)
  | .send request =>
    match s.requests request with
    | .sending id pageId to_ => some { s.setPhase request .idle with
        mails := { to_, token := tokenOf site id, about := some (id, pageId) } :: s.mails }
    | .idle | .subscribing _ _ | .confirming _ _ => none
  | .edit pages pageMonitors =>
    some { s.remove (fun row => !(pages.any fun page => page.id = row.statusPageId)) with
      pages := pages
      pageMonitors := pageMonitors }

def opened (pages : List StatusPage) (pageMonitors : List (ℕ × ℕ)) : State Request where
  pages := pages
  pageMonitors := pageMonitors
  subscribers := []
  outbox := []
  requests _ := .idle
  mails := []
  signups := []
  confirmations := []
  removed := []

/-- The runs from there. -/
def subscriptions (pages : List StatusPage) (pageMonitors : List (ℕ × ℕ)) :
    Machine (State Request) (Action Request) where
  init := opened pages pageMonitors
  step := step site

/-- A token that the server takes back was mailed to the visitor who shows it. -/
def Unforged (s : State Request) (a : Action Request) : Prop :=
  ∀ request visitor token text, a = .confirm request visitor (some token) →
    verified site (some token) = some text →
      ∃ mail ∈ s.mails, mail.to_ = visitor ∧ mail.token = token

end

/-! ### Tokens -/

section

variable {site : Site}

theorem verified_tokenOf (h : site.Lawful) (id : ℕ) :
    verified site (some (tokenOf site id)) = some (site.uuid id) := by
  have hdot := h.digest.no_dot site.secret (js "subscribe:" ++ site.uuid id)
  have hascii := h.digest.ascii site.secret (js "subscribe:" ++ site.uuid id)
  have hsame : sameToken (subscriptionHmac site.hmac site.secret (site.uuid id))
      (subscriptionHmac site.hmac site.secret (site.uuid id)) = .ok true :=
    (sameToken_ok hascii fun hwide => hwide.2 hascii).trans (by rw [decide_eq_true rfl])
  have hverify : verifySubscriptionToken site.hmac site.secret (some (tokenOf site id)) =
      .ok (some (site.uuid id)) :=
    (verifySubscriptionToken_cut site.hmac site.secret (h.uuid_ne_nil id) hdot).trans
      (congrArg _ hsame)
  rw [verified, hverify]

end

/-! ### Consent -/

section

variable {Request : Type} {site : Site}

/-- What a request knows when it has come to a phase. -/
def PhaseSound (site : Site) (s : State Request) : Phase → Prop
  | .idle => True
  | .subscribing _ email => ∃ rawEmail, email = site.normalizeEmail rawEmail
  | .confirming id visitor => ∃ pageId, (id, pageId, visitor) ∈ s.signups
  | .sending id pageId to_ => (id, to_) ∈ s.confirmations ∧ (id, pageId, to_) ∈ s.signups

/-- Tokens go to the address that they were signed up for, and what is mailed there was confirmed
there. -/
structure Sound (site : Site) (s : State Request) : Prop where
  unique : ∀ id pageId email pageId' email', (id, pageId, email) ∈ s.signups →
    (id, pageId', email') ∈ s.signups → pageId = pageId' ∧ email = email'
  rows : ∀ row ∈ s.subscribers, (row.id, row.statusPageId, row.email) ∈ s.signups
  confirmed : ∀ row ∈ s.subscribers, row.confirmedAt.isSome = true →
    (row.id, row.email) ∈ s.confirmations
  mails : ∀ mail ∈ s.mails, ∃ id pageId, (id, pageId, mail.to_) ∈ s.signups ∧
    mail.token = tokenOf site id
  phases : ∀ request, PhaseSound site s (s.requests request)
  told : ∀ mail ∈ s.mails, ∀ id pageId, mail.about = some (id, pageId) →
    (id, mail.to_) ∈ s.confirmations ∧ (id, pageId, mail.to_) ∈ s.signups

theorem PhaseSound.mono {s t : State Request} {phase : Phase} (h : PhaseSound site s phase)
    (hsignups : s.signups ⊆ t.signups) (hconfirmations : s.confirmations ⊆ t.confirmations) :
    PhaseSound site t phase := by
  cases phase with
  | idle => trivial
  | subscribing pageId email => exact h
  | confirming id visitor =>
    obtain ⟨pageId, hmem⟩ := h
    exact ⟨pageId, hsignups hmem⟩
  | sending id pageId to_ => exact ⟨hconfirmations h.1, hsignups h.2⟩

namespace Sound

variable {s : State Request}

theorem remove (h : Sound site s) (gone : StatusPageSubscriber → Bool) :
    Sound site (s.remove gone) where
  unique := h.unique
  rows row hrow := h.rows row (List.mem_of_mem_filter hrow)
  confirmed row hrow := h.confirmed row (List.mem_of_mem_filter hrow)
  mails := h.mails
  phases := h.phases
  told := h.told

theorem mail (h : Sound site s) {mail : Mail}
    (htoken : ∃ id pageId, (id, pageId, mail.to_) ∈ s.signups ∧ mail.token = tokenOf site id)
    (habout : ∀ id pageId, mail.about = some (id, pageId) →
      (id, mail.to_) ∈ s.confirmations ∧ (id, pageId, mail.to_) ∈ s.signups) :
    Sound site { s with mails := mail :: s.mails } where
  unique := h.unique
  rows := h.rows
  confirmed := h.confirmed
  mails := List.forall_mem_cons.mpr ⟨htoken, h.mails⟩
  phases := h.phases
  told := List.forall_mem_cons.mpr ⟨habout, h.told⟩

theorem signup (h : Sound site s) {id : ℕ} (hnew : id ∉ s.signups.map (·.1)) (pageId : ℕ)
    (email : JsString) :
    Sound site { s with
      subscribers := s.subscribers ++ [newSubscriber id pageId email]
      signups := (id, pageId, email) :: s.signups } where
  unique := by
    have hother (pageId' : ℕ) (email' : JsString) : (id, pageId', email') ∉ s.signups :=
      fun hmem => hnew (List.mem_map_of_mem hmem)
    intro i p e p' e' hin hin'
    rcases List.mem_cons.mp hin with heq | hold <;> rcases List.mem_cons.mp hin' with heq' | hold'
    · cases heq
      cases heq'
      exact ⟨rfl, rfl⟩
    · cases heq
      exact absurd hold' (hother _ _)
    · cases heq'
      exact absurd hold (hother _ _)
    · exact h.unique i p e p' e' hold hold'
  rows := by
    intro row hrow
    rcases List.mem_append.mp hrow with hold | hadded
    · exact List.mem_cons_of_mem _ (h.rows row hold)
    · obtain rfl := List.mem_singleton.mp hadded
      exact List.mem_cons_self
  confirmed := by
    intro row hrow hconfirmed
    rcases List.mem_append.mp hrow with hold | hadded
    · exact h.confirmed row hold hconfirmed
    · obtain rfl := List.mem_singleton.mp hadded
      cases hconfirmed
  mails := by
    intro mail hmail
    obtain ⟨id', pageId', hmem, htoken⟩ := h.mails mail hmail
    exact ⟨id', pageId', List.mem_cons_of_mem _ hmem, htoken⟩
  phases request := (h.phases request).mono (List.subset_cons_self _ _) (List.Subset.refl _)
  told mail hmail id' pageId' habout := by
    obtain ⟨hconfirmed, hmem⟩ := h.told mail hmail id' pageId' habout
    exact ⟨hconfirmed, List.mem_cons_of_mem _ hmem⟩

/-- A row is confirmed by a visitor to whom its token was sent. -/
theorem confirm (h : Sound site s) {id pageId : ℕ} {visitor : JsString}
    (hvisitor : (id, pageId, visitor) ∈ s.signups) (now : ℤ) :
    Sound site { s with
      subscribers := s.subscribers.map (confirmedNow id now)
      confirmations := (id, visitor) :: s.confirmations } where
  unique := h.unique
  rows := by
    intro row hrow
    obtain ⟨old, hold, rfl⟩ := List.mem_map.mp hrow
    have hsame := h.rows old hold
    unfold confirmedNow
    split
    · exact hsame
    · exact hsame
  confirmed := by
    intro row hrow hconfirmed
    obtain ⟨old, hold, rfl⟩ := List.mem_map.mp hrow
    unfold confirmedNow at hconfirmed ⊢
    by_cases hid : old.id = id
    · obtain ⟨-, hemail⟩ := h.unique id _ _ _ _ (hid ▸ h.rows old hold) hvisitor
      rw [if_pos hid, ← hemail, ← hid]
      exact List.mem_cons_self
    · rw [if_neg hid] at hconfirmed ⊢
      exact List.mem_cons_of_mem _ (h.confirmed old hold hconfirmed)
  mails := h.mails
  phases request := (h.phases request).mono (List.Subset.refl _) (List.subset_cons_self _ _)
  told mail hmail id' pageId' habout := by
    obtain ⟨hconfirmed, hmem⟩ := h.told mail hmail id' pageId' habout
    exact ⟨List.mem_cons_of_mem _ hconfirmed, hmem⟩

variable [DecidableEq Request]

theorem setPhase (h : Sound site s) (request : Request) {phase : Phase}
    (hphase : PhaseSound site s phase) : Sound site (s.setPhase request phase) where
  unique := h.unique
  rows := h.rows
  confirmed := h.confirmed
  mails := h.mails
  phases other := by
    have hother : PhaseSound site s ((s.setPhase request phase).requests other) := by
      simp only [State.setPhase, update_apply]
      split
      · exact hphase
      · exact h.phases other
    exact hother
  told := h.told

theorem setIdle (h : Sound site s) (request : Request) : Sound site (s.setPhase request .idle) :=
  h.setPhase request trivial

theorem subscribeStep (hsite : site.Lawful) (h : Sound site s) (request : Request) (pageId : ℕ)
    (rawEmail : JsString) : Sound site (subscribeStep site s request pageId rawEmail) := by
  simp only [Subscribers.subscribeStep, hsite.normalize_twice]
  split
  · exact h
  · split
    · exact h
    · split
      · rename_i existing hfound
        split
        · exact h
        · have hrow := h.rows existing (List.mem_of_find?_eq_some hfound)
          have hkey := List.find?_some hfound
          have hemail : existing.email = site.normalizeEmail rawEmail :=
            (Bool.and_eq_true_iff.mp hkey).2 |> of_decide_eq_true
          refine h.mail ⟨existing.id, existing.statusPageId, hemail ▸ hrow, rfl⟩ ?_
          intro id pageId habout
          cases habout
      · exact h.setPhase request ⟨rawEmail, rfl⟩

theorem insertStep (hsite : site.Lawful) (h : Sound site s) {request : Request} {id pageId : ℕ}
    {email : JsString} (hphase : s.requests request = .subscribing pageId email)
    (hnew : id ∉ s.signups.map (·.1)) :
    Sound site (insertStep site s request id pageId email) := by
  obtain ⟨rawEmail, rfl⟩ : ∃ rawEmail, email = site.normalizeEmail rawEmail := by
    have hknown := h.phases request
    rw [hphase] at hknown
    exact hknown
  have hidle := h.setIdle request
  simp only [Subscribers.insertStep, hsite.normalize_twice]
  split
  · exact hidle
  · refine (hidle.signup hnew pageId (site.normalizeEmail rawEmail)).mail
      ⟨id, pageId, List.mem_cons_self, rfl⟩ ?_
    intro id' pageId' habout
    cases habout

theorem deliverStep (h : Sound site s) (request : Request) (row : QueuedRow) :
    Sound site (deliverStep s request row) := by
  unfold Subscribers.deliverStep
  split
  · exact h
  · exact h
  · split
    · exact h
    · rename_i found hfound
      split
      · exact h
      · rename_i hconfirmed
        have hmem := List.mem_of_find?_eq_some hfound
        refine h.setPhase request ⟨h.confirmed found hmem ?_, h.rows found hmem⟩
        rwa [Option.isSome_iff_ne_none, ne_eq, ← Option.isNone_iff_eq_none]

end Sound

variable [DecidableEq Request]

omit [DecidableEq Request] in
theorem signup_of_token (hsite : site.Lawful) {s : State Request} (h : Sound site s)
    {visitor : JsString} {token : Option JsString} {row : StatusPageSubscriber}
    (hfound : s.findByToken site token = some row)
    (hunforged : ∀ text, verified site token = some text →
      ∃ mail ∈ s.mails, mail.to_ = visitor ∧ some mail.token = token) :
    ∃ pageId, (row.id, pageId, visitor) ∈ s.signups := by
  obtain ⟨text, htext, hrow⟩ := Option.bind_eq_some_iff.mp hfound
  obtain ⟨mail, hmail, rfl, rfl⟩ := hunforged text htext
  obtain ⟨id, pageId, hmem, htoken⟩ := h.mails mail hmail
  rw [htoken, verified_tokenOf hsite] at htext
  cases htext
  have hid : row.id = id := hsite.uuid_inj _ _ (by simpa using List.find?_some hrow)
  exact ⟨pageId, hid ▸ hmem⟩

theorem Sound.step (hsite : site.Lawful) {s t : State Request} {a : Action Request}
    (h : Sound site s) (hunforged : Unforged site s a) (hstep : step site s a = some t) :
    Sound site t := by
  cases a with
  | subscribe request pageId email =>
    simp only [Subscribers.step] at hstep
    split at hstep
    · cases hstep
    · exact Option.some.inj hstep ▸ h.subscribeStep hsite request pageId email
  | insert request id =>
    simp only [Subscribers.step] at hstep
    split at hstep
    · rename_i pageId email hphase
      split at hstep
      · cases hstep
      · exact Option.some.inj hstep ▸ h.insertStep hsite hphase ‹_›
    all_goals cases hstep
  | confirm request visitor token =>
    simp only [Subscribers.step] at hstep
    split at hstep
    · cases hstep
    · split at hstep
      · exact Option.some.inj hstep ▸ h
      · rename_i row hfound
        split at hstep
        · exact Option.some.inj hstep ▸ h
        · refine Option.some.inj hstep ▸ h.setPhase request ?_
          refine signup_of_token hsite h hfound fun text htext => ?_
          cases token with
          | none =>
            rw [verified, verifySubscriptionToken] at htext
            cases htext
          | some token =>
            obtain ⟨mail, hmail, hto, htoken⟩ := hunforged request visitor token text rfl htext
            exact ⟨mail, hmail, hto, congrArg some htoken⟩
  | finishConfirm request now =>
    simp only [Subscribers.step] at hstep
    split at hstep
    · rename_i id visitor hphase
      obtain ⟨pageId, hmem⟩ : ∃ pageId, (id, pageId, visitor) ∈ s.signups := by
        have hknown := h.phases request
        rw [hphase] at hknown
        exact hknown
      exact Option.some.inj hstep ▸ (h.setIdle request).confirm hmem now
    all_goals cases hstep
  | unsubscribe visitor token =>
    simp only [Subscribers.step] at hstep
    split at hstep
    · exact Option.some.inj hstep ▸ h
    · exact Option.some.inj hstep ▸ h.remove _
  | enqueue organizationId target =>
    cases hstep
    exact ⟨h.unique, h.rows, h.confirmed, h.mails, h.phases, h.told⟩
  | deliver request row =>
    simp only [Subscribers.step] at hstep
    split at hstep
    · cases hstep
    · exact Option.some.inj hstep ▸ h.deliverStep request row
  | send request =>
    simp only [Subscribers.step] at hstep
    split at hstep
    · rename_i id pageId to_ hphase
      have hknown : (id, to_) ∈ s.confirmations ∧ (id, pageId, to_) ∈ s.signups := by
        have hknown := h.phases request
        rw [hphase] at hknown
        exact hknown
      refine Option.some.inj hstep ▸ (h.setIdle request).mail
        ⟨id, pageId, hknown.2, rfl⟩ fun id' pageId' habout => ?_
      cases habout
      exact hknown
    all_goals cases hstep
  | edit pages pageMonitors =>
    have hremoved := h.remove fun row => !(pages.any fun page => page.id = row.statusPageId)
    cases hstep
    exact ⟨hremoved.unique, hremoved.rows, hremoved.confirmed, hremoved.mails, hremoved.phases,
      hremoved.told⟩

/-- In every run in which visitors show tokens that were mailed to them, whoever is mailed about an
incident has confirmed that subscription themselves, to that page and from that address. -/
theorem only_who_confirmed_is_mailed (hsite : site.Lawful) (pages : List StatusPage)
    (pageMonitors : List (ℕ × ℕ)) (acts : List (Action Request))
    (hunforged : (subscriptions site pages pageMonitors).EachStep acts (Unforged site)) :
    (subscriptions site pages pageMonitors).Always acts fun s =>
      ∀ mail ∈ s.mails, ∀ id pageId, mail.about = some (id, pageId) →
        (id, mail.to_) ∈ s.confirmations ∧ (id, pageId, mail.to_) ∈ s.signups := by
  have hinit : Sound site (opened pages pageMonitors : State Request) :=
    { unique := by simp [opened]
      rows := by simp [opened]
      confirmed := by simp [opened]
      mails := by simp [opened]
      phases := fun _ => trivial
      told := by simp [opened] }
  have hsound : (subscriptions site pages pageMonitors).Always acts (Sound site) :=
    Machine.Always.of_eachStep hinit (fun s a t _ hs ha hstep => hs.step hsite ha hstep) hunforged
  exact fun visited hpre s hs => (hsound visited hpre s hs).told

end

/-! ### A sample -/

/-- The digest of `subscribe:7` under the key `secret`. -/
def sampleSite : Site where
  hmac _ _ := sampleDigest
  secret := js "secret"
  uuid id := decimal id
  validEmail _ := true
  normalizeEmail email := email

theorem decimal_ne_nil (n : ℕ) : decimal n ≠ [] := by
  have hdigits : Nat.toDigits 10 n ≠ [] := Nat.toDigits_ne_nil
  obtain ⟨c, rest, hcons⟩ := List.exists_cons_of_ne_nil hdigits
  have hdecimal : decimal n = encodeUnits c ++ encodeUtf16 rest := by
    have hchars : decimal n = encodeUtf16 (Nat.toDigits 10 n) := rfl
    rw [hchars, hcons]
    rfl
  have hunits : encodeUnits c ≠ [] := by
    unfold encodeUnits
    split
    · exact List.cons_ne_nil _ _
    · exact List.cons_ne_nil _ _
  rw [hdecimal]
  exact List.append_ne_nil_of_left_ne_nil hunits _

theorem sampleSite_lawful : sampleSite.Lawful where
  digest :=
    ⟨fun _ _ => (by decide : sampleDigest.length = 64),
      fun _ _ => List.all_eq_true.mp (by decide : sampleDigest.all Net.Address.isLowerHex = true)⟩
  uuid_ne_nil := decimal_ne_nil
  uuid_inj id id' h := by exact_mod_cast decimal_inj h
  normalize_twice _ := rfl

def samplePage : StatusPage where
  id := 1
  organizationId := "o1"
  published := true
  isPublic := true

def sampleTarget : IntentSubscribers where
  kind := .opened
  causeKey := .subscribers 3 .opened none
  incidentId := 3
  monitorId := some 5
  source := .monitor

def sampleRow : QueuedRow where
  message :=
    { organizationId := "o1"
      idempotencyKey := .subscriber (.subscribers 3 .opened none) 1 7
      event := .incidentOpened }
  queuedBy := none

/-- Somebody signs up, confirms, is mailed about an incident, and leaves. -/
def sampleVisits : List (Action Unit) :=
  [.subscribe () 1 (js "a@b.c"), .insert () 7,
    .confirm () (js "a@b.c") (some (tokenOf sampleSite 7)), .finishConfirm () 0,
    .enqueue "o1" sampleTarget, .deliver () sampleRow, .send ()]

/-- The test of `Unforged`. -/
def unforged (s : State Unit) : Action Unit → Bool
  | .confirm _ visitor (some token) => s.mails.any fun mail => mail.to_ = visitor && mail.token = token
  | _ => true

theorem unforged_of_test {s : State Unit} {a : Action Unit} (h : unforged s a = true) :
    Unforged sampleSite s a := by
  rintro request visitor token text rfl -
  obtain ⟨mail, hmail, hboth⟩ := List.any_eq_true.mp h
  obtain ⟨hto, htoken⟩ := Bool.and_eq_true_iff.mp hboth
  exact ⟨mail, hmail, of_decide_eq_true hto, of_decide_eq_true htoken⟩

theorem unforged_sampleVisits :
    (subscriptions sampleSite [samplePage] [(1, 5)]).EachStep sampleVisits (Unforged sampleSite) :=
  .of_checks (fun _ _ => unforged_of_test) (by decide +kernel)

theorem sample_mail_was_confirmed :
    sampleSite.Lawful ∧
      (((subscriptions sampleSite [samplePage] [(1, 5)]).exec sampleVisits).map
        fun s => s.mails.map (·.about)) = some [some (7, 1), none] ∧
      (subscriptions sampleSite [samplePage] [(1, 5)]).Always sampleVisits fun s =>
        ∀ mail ∈ s.mails, ∀ id pageId, mail.about = some (id, pageId) →
          (id, mail.to_) ∈ s.confirmations ∧ (id, pageId, mail.to_) ∈ s.signups :=
  ⟨sampleSite_lawful, by decide +kernel,
    only_who_confirmed_is_mailed sampleSite_lawful [samplePage] [(1, 5)] sampleVisits
      unforged_sampleVisits⟩

end Vigil.StatusPages.Subscribers
