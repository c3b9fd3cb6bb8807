import Vigil.Notifications.Fencing
import Vigil.Lib.Refines

/-! `pruneNotificationHistory` of `notifications/outbox.ts`, while workers drain the outbox.  Its
select and its delete are two statements of one transaction, and everything else may happen between
them.  Nobody can tell an outbox that is pruned from one that is not, except by the settled rows
that are gone from it: no message that is still to be sent is ever removed. -/

namespace Vigil.Notifications.Pruning

open Lib Outbox Fencing

structure World where
  db : Db
  createdAt : ℕ → ℤ
  /-- What each running prune has chosen. -/
  doomed : ℕ → List ℕ
  /-- What has been removed; a key is random and is not drawn again. -/
  removed : List ℕ

/-- A step of the outbox, or one of the two steps of a prune. -/
inductive Action where
  | outbox (action : Outbox.Action)
  | select (pass : ℕ) (ids : List ℕ) (retentionDays limit : ℕ) (now : ℤ)
  | delete (pass : ℕ)
  deriving DecidableEq, Repr

def dayMs : ℤ := 86400000

/-- What the select of a prune looks for. -/
def prunable (s : World) (retentionDays : ℕ) (now : ℤ) (id : ℕ) : Bool :=
  (s.db.rows id).any (·.state.terminal) && s.createdAt id < now - retentionDays * dayMs

/-- Rows and, by cascade, their attempts. -/
def hide (removed : List ℕ) (s : Db) : Db :=
  { s with
    rows := fun id => if id ∈ removed then none else s.rows id
    attempts := s.attempts.filter fun a => a.outboxId ∉ removed }

def enqueuedAt (createdAt : ℕ → ℤ) : Outbox.Action → ℕ → ℤ
  | .enqueue id now => Function.update createdAt id now
  | _ => createdAt

/-- Whether an action inserts a row under a key that was used before. -/
def reuses (removed : List ℕ) : Outbox.Action → Bool
  | .enqueue id _ => id ∈ removed
  | _ => false

/-- One step; a removed key is not enqueued again. -/
def step (policy : RetryPolicy) (s : World) : Action → Option World
  | .outbox action =>
    if reuses s.removed action then none
    else (Outbox.step policy s.db action).map fun db =>
      { s with db, createdAt := enqueuedAt s.createdAt action }
  | .select pass ids retentionDays limit now =>
    if ids.length ≤ limit ∧ ids.all (prunable s retentionDays now) then
      some { s with doomed := Function.update s.doomed pass ids }
    else none
  | .delete pass =>
    some
      { s with
        db := hide (s.doomed pass) s.db
        doomed := Function.update s.doomed pass []
        removed := s.doomed pass ++ s.removed }

def machine (policy : RetryPolicy) : Machine World Action where
  init :=
    { db := (Outbox.machine policy).init
      createdAt := fun _ => 0
      doomed := fun _ => []
      removed := [] }
  step := step policy

/-! ### What cannot be seen -/

def Settled (s : Db) (id : ℕ) : Prop := ∃ row, s.rows id = some row ∧ row.state.terminal = true

section Hide

variable {removed : List ℕ} {s : Db}

variable {id : ℕ}

theorem hide_rows_of_notMem (h : id ∉ removed) : (hide removed s).rows id = s.rows id :=
  if_neg h

theorem hide_rows_of_mem (h : id ∈ removed) : (hide removed s).rows id = none := if_pos h

theorem notMem_of_hide {row : OutboxRow} (h : (hide removed s).rows id = some row) :
    id ∉ removed ∧ s.rows id = some row := by
  by_cases hid : id ∈ removed
  · rw [hide_rows_of_mem hid] at h
    exact absurd h nofun
  · exact ⟨hid, by rwa [hide_rows_of_notMem hid] at h⟩

theorem hide_nil : hide [] s = s := by
  unfold hide
  simp

theorem hide_hide (more : List ℕ) : hide more (hide removed s) = hide (more ++ removed) s := by
  unfold hide
  congr 1
  · funext id
    by_cases hmore : id ∈ more
    · simp [hmore]
    · by_cases hid : id ∈ removed
      · simp [hid]
      · simp [hmore, hid]
  · rw [List.filter_filter]
    congr 1
    funext a
    simp

theorem hide_setRow (h : id ∉ removed) (row : OutboxRow) :
    (hide removed (s.setRow id row)).rows = ((hide removed s).setRow id row).rows := by
  unfold hide Db.setRow
  funext i
  by_cases hi : i = id
  · subst hi
    simp [h]
  · simp [hi]

theorem db_ext {s t : Db} (rows : s.rows = t.rows) (attempts : s.attempts = t.attempts)
    (work : s.work = t.work) (scans : s.scans = t.scans) : s = t := by
  cases s
  cases t
  subst rows attempts work scans
  rfl

end Hide

/-! ### The operations on what is left -/

section Operations

variable {removed : List ℕ} {s : Db}

theorem maxAttempt_hide {id : ℕ} (h : id ∉ removed) :
    maxAttempt (hide removed s).attempts id = maxAttempt s.attempts id := by
  unfold maxAttempt
  rw [hide, List.filter_filter]
  congr 2
  apply List.filter_congr
  intro a _
  by_cases hid : a.outboxId = id
  · simp [hid, h]
  · simp [hid]

theorem claimRow_hide {now : ℤ} {id : ℕ} {t : Db} (h : claimRow now (hide removed s) id = some t) :
    ∃ t', claimRow now s id = some t' ∧ t = hide removed t' := by
  unfold claimRow at h ⊢
  cases hrow : (hide removed s).rows id with
  | none =>
    rw [hrow] at h
    exact absurd h nofun
  | some row =>
    obtain ⟨hid, hrow'⟩ := notMem_of_hide hrow
    rw [hrow, maxAttempt_hide hid] at h
    rw [hrow']
    dsimp only at h ⊢
    split at h
    · rename_i hdue
      cases h
      rw [if_pos hdue]
      refine ⟨_, rfl, db_ext (hide_setRow hid _).symm ?_ rfl rfl⟩
      have hkept (a : Attempt) (ha : a.outboxId = id) (rest : List Attempt) :
          (a :: rest).filter (fun a => a.outboxId ∉ removed) =
            a :: rest.filter fun a => a.outboxId ∉ removed := by
        apply List.filter_cons_of_pos
        rw [ha]
        exact decide_eq_true hid
      exact (hkept _ rfl _).symm
    · exact absurd h nofun

theorem claimDue_hide {now : ℤ} {ids : List ℕ} {t : Db}
    (h : claimDue now (hide removed s) ids = some t) :
    ∃ t', claimDue now s ids = some t' ∧ t = hide removed t' := by
  induction ids generalizing s with
  | nil =>
    obtain rfl : hide removed s = t := by simpa [claimDue] using h
    exact ⟨s, rfl, rfl⟩
  | cons id ids ih =>
    simp only [claimDue, List.foldlM_cons, Option.bind_eq_bind, Option.bind_eq_some_iff] at h ⊢
    obtain ⟨r, hr, hrest⟩ := h
    obtain ⟨r', hr', rfl⟩ := claimRow_hide hr
    obtain ⟨t', ht', rfl⟩ := ih hrest
    exact ⟨t', ⟨r', hr', ht'⟩, rfl⟩

/-- What a claim still owns is not hidden, and what is hidden no claim owns. -/
theorem owned_hide (hsettled : ∀ id ∈ removed, Settled s id) (hi : Inv s) {id fence n : ℕ}
    (hlive : Live s id fence n) :
    ((hide removed s).rows id).filter (·.fence = fence) = (s.rows id).filter (·.fence = fence) ∧
      (id ∈ removed → (s.rows id).filter (·.fence = fence) = none) := by
  by_cases hid : id ∈ removed
  · obtain ⟨row, hrow, hterminal⟩ := hsettled id hid
    obtain ⟨own, hown, -, hsending⟩ := hi.claimed hlive
    obtain rfl : row = own := by simpa [hrow] using hown
    have hfence : row.fence ≠ fence := by
      intro hfence
      rw [hsending hfence.symm] at hterminal
      exact absurd hterminal nofun
    have hnone : (s.rows id).filter (·.fence = fence) = none := by
      rw [hrow]
      simp [Option.filter, hfence]
    rw [hide_rows_of_mem hid, hnone]
    exact ⟨rfl, fun _ => rfl⟩
  · rw [hide_rows_of_notMem hid]
    exact ⟨rfl, fun h => absurd h hid⟩

theorem filter_map_hide {f : Attempt → Attempt} (hf : ∀ a, (f a).outboxId = a.outboxId)
    (attempts : List Attempt) :
    (attempts.filter fun a => a.outboxId ∉ removed).map f =
      (attempts.map f).filter fun a => a.outboxId ∉ removed := by
  rw [List.filter_map]
  congr 1
  apply List.filter_congr
  intro a _
  rw [Function.comp_apply, hf]

theorem recordOutcome_hide (hsettled : ∀ id ∈ removed, Settled s id) (hi : Inv s) {id fence n : ℕ}
    (hlive : Live s id fence n) (policy : RetryPolicy) (outcome : DeliveryOutcome) (random : ℚ)
    (now : ℤ) :
    (recordOutcome policy (hide removed s) id fence n outcome random now).1 =
      hide removed (recordOutcome policy s id fence n outcome random now).1 := by
  obtain ⟨howned, hgone⟩ := owned_hide hsettled hi hlive
  unfold recordOutcome
  rw [howned]
  cases hrow : (s.rows id).filter (·.fence = fence) with
  | none =>
    exact db_ext rfl (filter_map_hide (fun a => by split <;> rfl) s.attempts) rfl rfl
  | some row =>
    have hid : id ∉ removed := fun hid => by
      rw [hgone hid] at hrow
      exact absurd hrow nofun
    exact db_ext (hide_setRow hid _).symm
      (filter_map_hide (fun a => by split <;> rfl) s.attempts) rfl rfl

theorem deferRow_hide (hsettled : ∀ id ∈ removed, Settled s id) (hi : Inv s) {id fence n : ℕ}
    (hlive : Live s id fence n) (delaySeconds now : ℤ) :
    deferRow (hide removed s) id fence n delaySeconds now =
      hide removed (deferRow s id fence n delaySeconds now) := by
  obtain ⟨howned, hgone⟩ := owned_hide hsettled hi hlive
  have hattempts (p : Attempt → Bool) : (hide removed s).attempts.filter p =
      (s.attempts.filter p).filter fun a => a.outboxId ∉ removed := by
    show (s.attempts.filter _).filter p = _
    rw [List.filter_comm]
  unfold deferRow
  dsimp only
  rw [howned]
  cases hrow : (s.rows id).filter (·.fence = fence) with
  | none => exact db_ext rfl (hattempts _) rfl rfl
  | some row =>
    have hid : id ∉ removed := fun hid => by
      rw [hgone hid] at hrow
      exact absurd hrow nofun
    have hany : (hide removed s).attempts.any (fun a => a.outboxId = id && a.attempt = n &&
          a.fence = fence && a.outcome = .claimed) =
        s.attempts.any fun a => a.outboxId = id && a.attempt = n && a.fence = fence &&
          a.outcome = .claimed := by
      show (s.attempts.filter _).any _ = _
      rw [List.any_filter]
      congr 1
      funext a
      by_cases ha : a.outboxId = id
      · simp [ha, hid]
      · simp [ha]
    dsimp only
    rw [hany]
    exact db_ext (hide_setRow hid _).symm (hattempts _) rfl rfl

theorem renewLease_hide (hsettled : ∀ id ∈ removed, Settled s id) (hi : Inv s) {id fence n : ℕ}
    (hlive : Live s id fence n) (now : ℤ) :
    renewLease (hide removed s) id fence now =
      (hide removed (renewLease s id fence now).1, (renewLease s id fence now).2) := by
  unfold renewLease
  by_cases hid : id ∈ removed
  · obtain ⟨-, hgone⟩ := owned_hide hsettled hi hlive
    obtain ⟨row, hrow, -⟩ := hsettled id hid
    have hlost : ¬row.fence = fence := by
      intro hfence
      have hnone := hgone hid
      rw [hrow] at hnone
      simp [Option.filter, hfence] at hnone
    rw [hide_rows_of_mem hid, hrow]
    dsimp only
    rw [if_neg hlost]
  · rw [hide_rows_of_notMem hid]
    cases s.rows id with
    | none => rfl
    | some row =>
      dsimp only
      split
      · exact Prod.ext (db_ext (hide_setRow hid _).symm rfl rfl rfl) rfl
      · rfl

end Operations

/-! ### The refinement -/

variable {policy : RetryPolicy} {action : Outbox.Action}

/-- Where no key is drawn twice, an action does to what is left of an outbox what it does to the
outbox. -/
theorem step_hide {removed : List ℕ} {s t : Db} (hsettled : ∀ id ∈ removed, Settled s id)
    (hi : Inv s) (hnew : reuses removed action = false)
    (h : Outbox.step policy (hide removed s) action = some t) :
    ∃ t', Outbox.step policy s action = some t' ∧ t = hide removed t' := by
  cases action with
  | enqueue id now =>
    have hid : id ∉ removed := of_decide_eq_false hnew
    simp only [Outbox.step, enqueue, hide_rows_of_notMem hid] at h ⊢
    cases hrow : s.rows id with
    | some row =>
      rw [hrow] at h
      cases h
    | none =>
      rw [hrow] at h
      cases h
      exact ⟨_, rfl, db_ext (hide_setRow hid _).symm rfl rfl rfl⟩
  | claimDue ids now => exact claimDue_hide h
  | deferRow id fence delaySeconds now =>
    obtain ⟨n, hwork, rfl⟩ := step_deferRow h
    have hheld : s.work id fence = .held n := hwork
    rw [deferRow_hide hsettled hi (live_of_held hheld)]
    refine ⟨(deferRow s id fence n delaySeconds now).setWork id fence .done, ?_, rfl⟩
    simp only [Outbox.step, hheld]
  | renewLease id fence now answered =>
    obtain ⟨n, hwork, rfl⟩ := step_renewLease h
    have hheld : s.work id fence = .held n := hwork
    rw [renewLease_hide hsettled hi (live_of_held hheld)]
    refine ⟨(renewLease s id fence now).1.setWork id fence (if !answered then .threw n
      else if (renewLease s id fence now).2 then .renewed n else .done), ?_, rfl⟩
    simp only [Outbox.step, hheld]
  | send id fence =>
    obtain ⟨n, hwork, rfl⟩ := step_send h
    have hrenewed : s.work id fence = .renewed n := hwork
    refine ⟨s.setWork id fence (.sent n), ?_, rfl⟩
    simp only [Outbox.step, hrenewed]
  | throw id fence =>
    obtain ⟨n, hwork, rfl⟩ := step_throw h
    refine ⟨s.setWork id fence (.threw n), ?_, rfl⟩
    rcases hwork with hwork | hwork
    · have hheld : s.work id fence = .held n := hwork
      simp only [Outbox.step, hheld]
    · have hrenewed : s.work id fence = .renewed n := hwork
      simp only [Outbox.step, hrenewed]
  | recordOutcome id fence outcome random now =>
    obtain ⟨n, hwork, rfl⟩ := step_recordOutcome h
    have hreportable : reportable outcome (s.work id fence) = some n := hwork
    rw [recordOutcome_hide hsettled hi (live_of_reportable hreportable)]
    refine ⟨(recordOutcome policy s id fence n outcome random now).1.setWork id fence .done, ?_,
      rfl⟩
    simp only [Outbox.step, hreportable]
  | expireScan worker ids now =>
    obtain ⟨hall, h⟩ := Option.ite_none_right_eq_some.mp h
    cases h
    refine ⟨{ s with scans := Function.update s.scans worker ids }, ?_, rfl⟩
    apply if_pos
    rw [List.all_eq_true] at hall ⊢
    intro id hid
    have hoverdue := hall id hid
    cases hrow : (hide removed s).rows id with
    | none =>
      rw [hrow] at hoverdue
      exact absurd hoverdue Bool.false_ne_true
    | some row =>
      rw [hrow] at hoverdue
      rw [(notMem_of_hide hrow).2]
      exact hoverdue
  | expireRow worker id =>
    simp only [Outbox.step] at h ⊢
    cases hrow : (hide removed s).rows id with
    | none =>
      rw [hrow] at h
      cases h
    | some row =>
      obtain ⟨hid, hrow'⟩ := notMem_of_hide hrow
      rw [hrow] at h
      rw [hrow']
      obtain ⟨hscan, h⟩ := Option.ite_none_right_eq_some.mp h
      cases h
      exact ⟨_, if_pos hscan, db_ext (hide_setRow hid _).symm rfl rfl rfl⟩
  | sweepStaleAttempts olderThan now =>
    cases h
    exact ⟨_, rfl, db_ext rfl (filter_map_hide (fun a => by split <;> rfl) s.attempts) rfl rfl⟩

theorem settled_step {s t : Db} (hi : Inv s) (h : Outbox.step policy s action = some t) {id : ℕ}
    (hid : Settled s id) : Settled t id := by
  obtain ⟨row, hrow, hterminal⟩ := hid
  by_cases hexpiry : ∃ worker i, action = .expireRow worker i
  · obtain ⟨worker, i, rfl⟩ := hexpiry
    obtain ⟨old, -, ht⟩ := expireRow_spec h
    by_cases hi : id = i
    · subst hi
      exact ⟨expiredRow old, by rw [ht, setRow_rows_self], rfl⟩
    · exact ⟨row, by rw [ht, setRow_rows_of_ne _ _ hi, hrow], hterminal⟩
  · obtain ⟨row', hrow', hlawful⟩ := step_lawful hi h (fun w i e => hexpiry ⟨w, i, e⟩) id row hrow
    exact ⟨row', hrow', by rw [hlawful.terminal hterminal, hterminal]⟩

/-- A pruned outbox, and the same outbox without any pruning. -/
structure Rel (w : World) (s : Db) : Prop where
  inv : Inv s
  db : w.db = hide w.removed s
  removed : ∀ id ∈ w.removed, Settled s id
  doomed : ∀ pass, ∀ id ∈ w.doomed pass, Settled s id

def seen : Action → Option Outbox.Action
  | .outbox action => some action
  | .select _ _ _ _ _ => none
  | .delete _ => none

theorem rel_outbox {w t : World} {s : Db} (hrel : Rel w s)
    (h : step policy w (.outbox action) = some t) :
    ∃ t', Outbox.step policy s action = some t' ∧ Rel t t' := by
  obtain ⟨hnew, h⟩ := Option.ite_none_left_eq_some.mp h
  obtain ⟨db, hstep, rfl⟩ := Option.map_eq_some_iff.mp h
  rw [hrel.db] at hstep
  obtain ⟨t', ht', rfl⟩ := step_hide hrel.removed hrel.inv (Bool.not_eq_true _ ▸ hnew) hstep
  exact ⟨t', ht', step_inv hrel.inv ht', rfl,
    fun id hid => settled_step hrel.inv ht' (hrel.removed id hid),
    fun pass id hid => settled_step hrel.inv ht' (hrel.doomed pass id hid)⟩

theorem rel_select (policy : RetryPolicy) {w t : World} {s : Db} {pass retentionDays limit : ℕ}
    {ids : List ℕ} {now : ℤ} (hrel : Rel w s)
    (h : step policy w (.select pass ids retentionDays limit now) = some t) : Rel t s := by
  obtain ⟨⟨-, hall⟩, h⟩ := Option.ite_none_right_eq_some.mp h
  cases h
  refine ⟨hrel.inv, hrel.db, hrel.removed, fun other id hid => ?_⟩
  replace hid : id ∈ Function.update w.doomed pass ids other := hid
  by_cases hother : other = pass
  · subst hother
    rw [Function.update_self] at hid
    have hterminal := (Bool.and_eq_true_iff.mp (List.all_eq_true.mp hall id hid)).1
    rw [hrel.db] at hterminal
    cases hrow : (hide w.removed s).rows id with
    | none =>
      rw [hrow] at hterminal
      exact absurd hterminal Bool.false_ne_true
    | some row =>
      rw [hrow] at hterminal
      exact ⟨row, (notMem_of_hide hrow).2, hterminal⟩
  · rw [Function.update_of_ne hother] at hid
    exact hrel.doomed other id hid

theorem rel_delete (policy : RetryPolicy) {w t : World} {s : Db} {pass : ℕ} (hrel : Rel w s)
    (h : step policy w (.delete pass) = some t) : Rel t s := by
  cases h
  refine ⟨hrel.inv, ?_, fun id hid => ?_, fun other id hid => ?_⟩
  · show hide (w.doomed pass) w.db = hide (w.doomed pass ++ w.removed) s
    rw [hrel.db, hide_hide]
  · rcases List.mem_append.mp hid with hid | hid
    · exact hrel.doomed pass id hid
    · exact hrel.removed id hid
  · replace hid : id ∈ Function.update w.doomed pass [] other := hid
    by_cases hother : other = pass
    · subst hother
      rw [Function.update_self] at hid
      cases hid
    · rw [Function.update_of_ne hother] at hid
      exact hrel.doomed other id hid

theorem refines (policy : RetryPolicy) :
    Refines (machine policy) (Outbox.machine policy) seen Rel where
  init := ⟨init_inv policy, hide_nil.symm, nofun,
    nofun⟩
  step := by
    intro w a t s b hrel h hseen
    cases a with
    | outbox action =>
      cases hseen
      exact rel_outbox hrel h
    | select _ _ _ _ _ => exact absurd hseen nofun
    | delete _ => exact absurd hseen nofun
  stutter := by
    intro w a t s hrel h hseen
    cases a with
    | outbox action => exact absurd hseen nofun
    | select _ _ _ _ _ => exact rel_select policy hrel h
    | delete _ => exact rel_delete policy hrel h

/-- Every run of a pruned outbox is a run of one that is never pruned, in which every worker stands
where it stands and every message is as it is, except that settled ones are gone with their
attempts. -/
theorem pruning_is_not_seen {policy : RetryPolicy} {acts : List Action} {w : World}
    (h : (machine policy).exec acts = some w) :
    ∃ s, (Outbox.machine policy).exec (acts.filterMap seen) = some s ∧ w.db = hide w.removed s ∧
      ∀ id ∈ w.removed, Settled s id := by
  obtain ⟨s, hs, hrel⟩ := (refines policy).exec h
  exact ⟨s, hs, hrel.db, hrel.removed⟩

/-- Of two messages the first is delivered, and removed a month later. -/
def prunedRun : List Action :=
  [.outbox (.enqueue 1 0), .outbox (.claimDue [1] 0), .outbox (.renewLease 1 1 0 true),
    .outbox (.send 1 1), .outbox (.recordOutcome 1 1 (.delivered none) 0 5),
    .outbox (.enqueue 2 7), .select 0 [1] 30 5000 2700000000, .outbox (.claimDue [2] 2700000000),
    .delete 0]

theorem pruned_run_is_not_seen :
    ∃ s, (Outbox.machine ⟨5, 1000⟩).exec (prunedRun.filterMap seen) = some s ∧
      ((machine ⟨5, 1000⟩).reached prunedRun).db =
        hide ((machine ⟨5, 1000⟩).reached prunedRun).removed s ∧
      ∀ id ∈ ((machine ⟨5, 1000⟩).reached prunedRun).removed, Settled s id :=
  pruning_is_not_seen (Machine.exec_reached (by rfl))

end Vigil.Notifications.Pruning
