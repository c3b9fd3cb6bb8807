import Vigil.StatusPages.Subscribers

/-! The end of a subscription.  A subscriber who follows the link in a mail is gone from the table, and
although mails may be queued for them and delivered again and again, each delivery looks for the row
first. -/

namespace Vigil.StatusPages.Unsubscribe

open Js.Text Function
open Access.Tokens Notifications.Intents
open Lib Subscribers

section

variable {Request : Type} [DecidableEq Request] {site : Site}

/-- What a step does to the rows. -/
inductive RowsMove (s t : State Request) : Prop
  | same : t.subscribers = s.subscribers → t.signups = s.signups → t.removed = s.removed →
      RowsMove s t
  | added {id pageId : ℕ} {email : JsString} : id ∉ s.signups.map (·.1) →
      t.subscribers = s.subscribers ++ [newSubscriber id pageId email] →
      t.signups = (id, pageId, email) :: s.signups → t.removed = s.removed → RowsMove s t
  | confirmed {id : ℕ} {now : ℤ} : t.subscribers = s.subscribers.map (confirmedNow id now) →
      t.signups = s.signups → t.removed = s.removed → RowsMove s t
  | dropped {gone : StatusPageSubscriber → Bool} :
      t.subscribers = s.subscribers.filter (fun row => !gone row) → t.signups = s.signups →
      t.removed = (s.subscribers.filter gone).map (·.id) ++ s.removed → RowsMove s t

/-- What a step does: a mail about an incident comes of a request that was sending it, and such a
request found the row. -/
structure Moves (s t : State Request) : Prop where
  rows : RowsMove s t
  sending : ∀ request id pageId to_, t.requests request = .sending id pageId to_ →
    s.requests request = .sending id pageId to_ ∨ ∃ row ∈ s.subscribers, row.id = id
  mails : t.mails = s.mails ∨ ∃ mail, t.mails = mail :: s.mails ∧ ∀ id pageId,
    mail.about = some (id, pageId) → ∃ request, s.requests request = .sending id pageId mail.to_

section

variable {s t : State Request}

omit [DecidableEq Request] in
theorem Moves.stay (s : State Request) : Moves s s :=
  ⟨.same rfl rfl rfl, fun _ _ _ _ h => .inl h, .inl rfl⟩

theorem sending_of_setPhase {request other : Request} {phase : Phase} {id pageId : ℕ}
    {to_ : JsString} (hphase : phase ≠ .sending id pageId to_)
    (h : (s.setPhase request phase).requests other = .sending id pageId to_) :
    s.requests other = .sending id pageId to_ := by
  simp only [State.setPhase, update_apply] at h
  split at h
  · exact absurd h hphase
  · exact h

theorem Moves.setPhase (request : Request) {phase : Phase}
    (hphase : ∀ id pageId to_, phase = .sending id pageId to_ → ∃ row ∈ s.subscribers, row.id = id) :
    Moves s (s.setPhase request phase) where
  rows := .same rfl rfl rfl
  mails := .inl rfl
  sending other id pageId to_ h := by
    by_cases heq : phase = .sending id pageId to_
    · exact .inr (hphase id pageId to_ heq)
    · exact .inl (sending_of_setPhase heq h)

theorem moves_subscribe (request : Request) (pageId : ℕ) (rawEmail : JsString) :
    Moves s (subscribeStep site s request pageId rawEmail) := by
  simp only [subscribeStep]
  split
  · exact .stay s
  · split
    · exact .stay s
    · split
      · split
        · exact .stay s
        · refine ⟨.same rfl rfl rfl, fun _ _ _ _ h => .inl h, .inr ⟨_, rfl, ?_⟩⟩
          intro id pageId habout
          cases habout
      · exact .setPhase request fun _ _ _ h => by cases h

theorem moves_insert {request : Request} {id pageId : ℕ} {email : JsString}
    (hnew : id ∉ s.signups.map (·.1)) : Moves s (insertStep site s request id pageId email) := by
  have hidle : Moves s (s.setPhase request .idle) := .setPhase request fun _ _ _ h => by cases h
  simp only [insertStep]
  split
  · exact hidle
  · refine ⟨.added hnew rfl rfl rfl, hidle.sending, .inr ⟨_, rfl, fun _ _ habout => ?_⟩⟩
    cases habout

theorem moves_deliver (request : Request) (row : QueuedRow) :
    Moves s (deliverStep s request row) := by
  unfold deliverStep
  split
  · exact .stay s
  · exact .stay s
  · split
    · exact .stay s
    · rename_i found hfound
      split
      · exact .stay s
      · refine .setPhase request fun id pageId to_ h => ?_
        cases h
        exact ⟨found, List.mem_of_find?_eq_some hfound, rfl⟩

theorem moves_of_step {a : Action Request} (hstep : step site s a = some t) : Moves s t := by
  cases a with
  | subscribe request pageId email =>
    simp only [Subscribers.step] at hstep
    split at hstep
    · cases hstep
    · exact Option.some.inj hstep ▸ moves_subscribe request pageId email
  | insert request id =>
    simp only [Subscribers.step] at hstep
    split at hstep
    · split at hstep
      · cases hstep
      · exact Option.some.inj hstep ▸ moves_insert ‹_›
    all_goals cases hstep
  | confirm request visitor token =>
    simp only [Subscribers.step] at hstep
    split at hstep
    · cases hstep
    · split at hstep
      · exact Option.some.inj hstep ▸ .stay s
      · split at hstep
        · exact Option.some.inj hstep ▸ .stay s
        · exact Option.some.inj hstep ▸ .setPhase request fun _ _ _ h => by cases h
  | finishConfirm request now =>
    simp only [Subscribers.step] at hstep
    split at hstep
    · cases hstep
      refine ⟨.confirmed rfl rfl rfl, fun other id pageId to_ h => .inl ?_, .inl rfl⟩
      exact sending_of_setPhase (fun hphase => by cases hphase) h
    all_goals cases hstep
  | unsubscribe visitor token =>
    simp only [Subscribers.step] at hstep
    split at hstep
    · exact Option.some.inj hstep ▸ .stay s
    · cases hstep
      exact ⟨.dropped rfl rfl rfl, fun _ _ _ _ h => .inl h, .inl rfl⟩
  | enqueue organizationId target =>
    cases hstep
    exact ⟨.same rfl rfl rfl, fun _ _ _ _ h => .inl h, .inl rfl⟩
  | deliver request row =>
    simp only [Subscribers.step] at hstep
    split at hstep
    · cases hstep
    · exact Option.some.inj hstep ▸ moves_deliver request row
  | send request =>
    simp only [Subscribers.step] at hstep
    split at hstep
    · rename_i id pageId to_ hphase
      cases hstep
      refine ⟨.same rfl rfl rfl, fun other id' pageId' to' h => .inl ?_, .inr ⟨_, rfl, ?_⟩⟩
      · exact sending_of_setPhase (fun hidle => by cases hidle) h
      · intro id' pageId' habout
        cases habout
        exact ⟨request, hphase⟩
    all_goals cases hstep
  | edit pages pageMonitors =>
    cases hstep
    exact ⟨.dropped rfl rfl rfl, fun _ _ _ _ h => .inl h, .inl rfl⟩

end

/-- Every row was signed up for. -/
def Known (s : State Request) : Prop := ∀ row ∈ s.subscribers, row.id ∈ s.signups.map (·.1)

/-- A subscription that is over. -/
structure Gone (id : ℕ) (s : State Request) : Prop where
  known : id ∈ s.signups.map (·.1)
  rows : ∀ row ∈ s.subscribers, row.id ≠ id
  sending : ∀ request pageId to_, s.requests request ≠ .sending id pageId to_

section

variable {s t : State Request}

theorem map_id_confirmedNow (rows : List StatusPageSubscriber) (id : ℕ) (now : ℤ) :
    (rows.map (confirmedNow id now)).map (·.id) = rows.map (·.id) := by
  rw [List.map_map]
  refine List.map_congr_left fun row _ => ?_
  simp only [Function.comp_apply, confirmedNow]
  split
  · rfl
  · rfl

omit [DecidableEq Request] in
theorem Known.move (h : Known s) (hmove : RowsMove s t) : Known t := by
  intro row hrow
  cases hmove with
  | same hrows hsignups _ =>
    rw [hsignups]
    exact h row (hrows ▸ hrow)
  | added _ hrows hsignups _ =>
    rw [hsignups]
    rw [hrows] at hrow
    rcases List.mem_append.mp hrow with hold | hadded
    · exact List.mem_cons_of_mem _ (h row hold)
    · obtain rfl := List.mem_singleton.mp hadded
      exact List.mem_cons_self
  | confirmed hrows hsignups _ =>
    have hid : row.id ∈ s.subscribers.map (·.id) := by
      rw [← map_id_confirmedNow, ← hrows]
      exact List.mem_map_of_mem hrow
    obtain ⟨old, hold, heq⟩ := List.mem_map.mp hid
    rw [hsignups]
    exact heq ▸ h old hold
  | dropped hrows hsignups _ =>
    rw [hsignups]
    exact h row (List.mem_of_mem_filter (hrows ▸ hrow))

theorem known_reachable {pages : List StatusPage} {pageMonitors : List (ℕ × ℕ)}
    (h : (subscriptions site pages pageMonitors).Reachable s) : Known s :=
  h.induct (by simp [Known, subscriptions, opened])
    fun _ _ _ _ hs hstep => hs.move (moves_of_step hstep).rows

omit [DecidableEq Request] in
theorem Gone.move {id : ℕ} (h : Gone id s) (hmove : Moves s t) : Gone id t := by
  have hsending : ∀ request pageId to_, t.requests request ≠ .sending id pageId to_ := by
    intro request pageId to_ hphase
    rcases hmove.sending request id pageId to_ hphase with hbefore | ⟨row, hrow, hid⟩
    · exact h.sending request pageId to_ hbefore
    · exact h.rows row hrow hid
  cases hmove.rows with
  | same hrows hsignups _ => exact ⟨hsignups ▸ h.known, by rw [hrows]; exact h.rows, hsending⟩
  | added hnew hrows hsignups _ =>
    refine ⟨?_, ?_, hsending⟩
    · rw [hsignups]
      exact List.mem_cons_of_mem _ h.known
    · rw [hrows]
      intro row hrow
      rcases List.mem_append.mp hrow with hold | hadded
      · exact h.rows row hold
      · obtain rfl := List.mem_singleton.mp hadded
        rintro rfl
        exact hnew h.known
  | confirmed hrows hsignups _ =>
    refine ⟨hsignups ▸ h.known, ?_, hsending⟩
    intro row hrow heq
    have hid : row.id ∈ s.subscribers.map (·.id) := by
      rw [← map_id_confirmedNow, ← hrows]
      exact List.mem_map_of_mem hrow
    obtain ⟨old, hold, hsame⟩ := List.mem_map.mp hid
    exact h.rows old hold (hsame.trans heq)
  | dropped hrows hsignups _ =>
    refine ⟨hsignups ▸ h.known, ?_, hsending⟩
    rw [hrows]
    exact fun row hrow => h.rows row (List.mem_of_mem_filter hrow)

/-- The mails about incidents that went to a subscription. -/
def mailsTo (s : State Request) (id : ℕ) : List Mail :=
  s.mails.filter fun mail => mail.about.any fun about => about.1 = id

omit [DecidableEq Request] in
theorem Gone.mails {id : ℕ} (h : Gone id s) (hmove : Moves s t) : mailsTo t id = mailsTo s id := by
  rcases hmove.mails with hsame | ⟨mail, hmails, hsent⟩
  · rw [mailsTo, hsame]
    rfl
  · have hother : (mail.about.any fun about => about.1 = id) = false := by
      cases habout : mail.about with
      | none => rfl
      | some about =>
        obtain ⟨request, hphase⟩ := hsent about.1 about.2 habout
        refine decide_eq_false fun heq => ?_
        exact h.sending request about.2 mail.to_ (heq ▸ hphase)
    rw [mailsTo, hmails, List.filter_cons_of_neg (by rw [hother]; simp)]
    rfl

end

/-- Once the link in one of its mails was followed and no mail to it is on its way, a subscription is
never mailed again, whatever is queued for it and however often it is delivered. -/
theorem unsubscribed_is_not_mailed_again (hsite : site.Lawful) {pages : List StatusPage}
    {pageMonitors : List (ℕ × ℕ)} {s t u : State Request}
    (hreach : (subscriptions site pages pageMonitors).Reachable s)
    {row : StatusPageSubscriber} (hrow : row ∈ s.subscribers) {visitor : JsString}
    (hstep : (subscriptions site pages pageMonitors).step s
      (.unsubscribe visitor (some (tokenOf site row.id))) = some t)
    (hidle : ∀ request pageId to_, t.requests request ≠ .sending row.id pageId to_)
    {rest : List (Action Request)}
    (hrun : (subscriptions site pages pageMonitors).execFrom t rest = some u) :
    mailsTo u row.id = mailsTo s row.id ∧ ∀ other ∈ u.subscribers, other.id ≠ row.id := by
  have hstep : some (s.remove fun other => site.uuid other.id = site.uuid row.id) = some t := by
    rw [← hstep]
    simp only [subscriptions, Subscribers.step, verified_tokenOf hsite]
  cases hstep
  have hgone : Gone row.id (s.remove fun other => site.uuid other.id = site.uuid row.id) := by
    refine ⟨known_reachable hreach row hrow, fun other hother heq => ?_, hidle⟩
    have hkept := (List.mem_filter.mp hother).2
    simp [heq] at hkept
  have hend := Machine.execFrom_induct (P := fun v => Gone row.id v ∧
      mailsTo v row.id = mailsTo s row.id) hrun ⟨hgone, rfl⟩ fun v a w _ hv hmove =>
    ⟨hv.1.move (moves_of_step hmove), (hv.1.mails (moves_of_step hmove)).trans hv.2⟩
  exact ⟨hend.2, hend.1.rows⟩

end

/-! ### A sample -/

def sampleSubscriber : StatusPageSubscriber where
  id := 7
  statusPageId := 1
  confirmedAt := some 0
  email := js "a@b.c"

/-- The visitor follows the link of the mail, which then comes a second time to be delivered. -/
theorem sample_is_not_mailed_again :
    ∃ s t u, (subscriptions sampleSite [samplePage] [(1, 5)]).exec sampleVisits = some s ∧
      sampleSubscriber ∈ s.subscribers ∧ (mailsTo s 7).length = 1 ∧
      (subscriptions sampleSite [samplePage] [(1, 5)]).step s
        (.unsubscribe (js "a@b.c") (some (tokenOf sampleSite 7))) = some t ∧
      (subscriptions sampleSite [samplePage] [(1, 5)]).execFrom t
        [.deliver () sampleRow, .enqueue "o1" sampleTarget] = some u ∧
      mailsTo u 7 = mailsTo s 7 ∧ ∀ other ∈ u.subscribers, other.id ≠ 7 := by
  obtain ⟨s, hs⟩ : ∃ s, (subscriptions sampleSite [samplePage] [(1, 5)]).exec sampleVisits =
      some s := Option.isSome_iff_exists.mp (by decide +kernel)
  have hreached : (subscriptions sampleSite [samplePage] [(1, 5)]).reached sampleVisits = s :=
    Machine.reached_of_exec hs
  have hrow : sampleSubscriber ∈ s.subscribers := hreached ▸ (by decide +kernel)
  have hmails : (mailsTo s 7).length = 1 := hreached ▸ (by decide +kernel)
  have hidle : s.requests () = .idle := hreached ▸ (by decide +kernel)
  obtain ⟨u, hu⟩ : ∃ u, (subscriptions sampleSite [samplePage] [(1, 5)]).execFrom
      (s.remove fun other => sampleSite.uuid other.id = sampleSite.uuid 7)
      [.deliver () sampleRow, .enqueue "o1" sampleTarget] = some u :=
    Option.isSome_iff_exists.mp (hreached ▸ (by decide +kernel))
  have hstep : (subscriptions sampleSite [samplePage] [(1, 5)]).step s
      (.unsubscribe (js "a@b.c") (some (tokenOf sampleSite 7))) =
      some (s.remove fun other => sampleSite.uuid other.id = sampleSite.uuid 7) := by
    simp only [subscriptions, Subscribers.step, verified_tokenOf sampleSite_lawful]
  refine ⟨s, _, u, hs, hrow, hmails, hstep, hu, ?_⟩
  exact unsubscribed_is_not_mailed_again sampleSite_lawful ⟨sampleVisits, hs⟩ hrow hstep
    (fun _ _ _ hsending => by rw [State.remove, hidle] at hsending; cases hsending) hu

end Vigil.StatusPages.Unsubscribe
