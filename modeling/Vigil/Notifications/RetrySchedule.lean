import Vigil.Notifications.Fencing
import Mathlib.Tactic.Positivity

/-! The retry schedule of the outbox: where `recordOutcome` leaves a row whose delivery failed, and the
deadline past which no run of the outbox claims it.  The jitter is any rational in `[0, 1)`. -/

namespace Vigil.Notifications.RetrySchedule

open Lib Outbox Fencing

/-- `isRetryable` -/
def isRetryable : DeliveryOutcome → Bool
  | .retryable _ _ | .unknown _ => true
  | .delivered _ | .permanent _ => false

/-- What the provider asked for, of the failures that can carry it. -/
def retryAfterOf : DeliveryOutcome → ℤ
  | .retryable _ retryAfterMs => retryAfterMs.getD 0
  | _ => 0

/-- The delay before jitter. -/
def exponentialMs (attempts : ℕ) : ℤ := min (2 ^ attempts * 1000) backoffCeilingMs

/-- What is promised of the instant `t` of the next attempt. -/
structure NextAttempt (attempts : ℕ) (retryAfterMs now t : ℤ) : Prop where
  later : now < t
  atLeast : (now : ℚ) + 3 / 4 * (exponentialMs attempts : ℚ) ≤ t
  atMost : (t : ℚ) ≤
    now + max (5 / 4 * (exponentialMs attempts : ℚ)) (min retryAfterMs retryAfterCapMs : ℤ)
  asked : now + min retryAfterMs retryAfterCapMs ≤ t

/-- Where a failure that can be retried leaves its row. -/
inductive Rescheduled (policy : RetryPolicy) (attempts : ℕ) (retryAfterMs now : ℤ) (row : OutboxRow) :
    OutboxRow → Prop where
  | deadLetter {row' : OutboxRow} : row'.state = .deadLetter → policy.maxAttempts ≤ attempts →
    Rescheduled policy attempts retryAfterMs now row row'
  | expired {row' : OutboxRow} {expiresAt t : ℤ} : row'.state = .expired →
    row.expiresAt = some expiresAt → NextAttempt attempts retryAfterMs now t → expiresAt < t →
      Rescheduled policy attempts retryAfterMs now row row'
  | queued {row' : OutboxRow} : row'.state = .queued →
    NextAttempt attempts retryAfterMs now row'.nextAttemptAt →
    (∀ expiresAt, row.expiresAt = some expiresAt → row'.nextAttemptAt ≤ expiresAt) →
      Rescheduled policy attempts retryAfterMs now row row'

/-! ### The wait -/

/-- The delay is a multiple of four, so that a quarter of it either way is whole. -/
theorem exponentialMs_quarter (attempts : ℕ) :
    ∃ quarter : ℤ, 250 ≤ quarter ∧ exponentialMs attempts = 4 * quarter := by
  have hpow : (1 : ℤ) ≤ 2 ^ attempts := one_le_pow₀ (by norm_num)
  refine ⟨min (2 ^ attempts * 250) 450000, le_min (by omega) (by norm_num), ?_⟩
  rw [exponentialMs, backoffCeilingMs]
  omega

variable {random : ℚ} {outcome : DeliveryOutcome} {s t : Db} {now : ℤ}

theorem backoffMs_bounds (attempts : ℕ) (hnonneg : 0 ≤ random) (hlt : random < 1) :
    0 < backoffMs attempts random ∧
      3 / 4 * (exponentialMs attempts : ℚ) ≤ backoffMs attempts random ∧
      (backoffMs attempts random : ℚ) ≤ 5 / 4 * exponentialMs attempts := by
  obtain ⟨quarter, hquarter, hbase⟩ := exponentialMs_quarter attempts
  have hbackoff : backoffMs attempts random =
      ⌊(exponentialMs attempts : ℚ) * (3 / 4 + random * (1 / 2)) + 1 / 2⌋ := by
    rw [backoffMs, exponentialMs]
    push_cast
    rfl
  have hpos : (0 : ℚ) ≤ quarter := by exact_mod_cast (by omega : (0 : ℤ) ≤ quarter)
  have hjitter : 0 ≤ (quarter : ℚ) * random := by positivity
  have hjitter' : (quarter : ℚ) * random ≤ quarter := by
    calc (quarter : ℚ) * random ≤ quarter * 1 := by gcongr
      _ = quarter := mul_one _
  have hlow : 3 * quarter ≤ backoffMs attempts random := by
    rw [hbackoff, Int.le_floor, hbase]
    push_cast
    linarith
  have hhigh : backoffMs attempts random ≤ 5 * quarter := by
    rw [hbackoff, ← Int.lt_add_one_iff, Int.floor_lt, hbase]
    push_cast
    linarith
  refine ⟨by omega, ?_, ?_⟩
  · have hcast : (3 * quarter : ℚ) ≤ backoffMs attempts random := by exact_mod_cast hlow
    rw [hbase]
    push_cast
    linarith
  · have hcast : (backoffMs attempts random : ℚ) ≤ 5 * quarter := by exact_mod_cast hhigh
    rw [hbase]
    push_cast
    linarith

theorem askedMs_eq (h : 0 ≤ retryAfterOf outcome) :
    askedMs outcome = min (retryAfterOf outcome) retryAfterCapMs := by
  cases outcome with
  | retryable error retryAfterMs => rfl
  | delivered _ | permanent _ | unknown _ => rfl

theorem nextAttempt_wait (attempts : ℕ) (now : ℤ) (hnonneg : 0 ≤ random) (hlt : random < 1)
    (hasked : 0 ≤ retryAfterOf outcome) : NextAttempt attempts (retryAfterOf outcome) now
      (now + max (backoffMs attempts random) (askedMs outcome)) := by
  obtain ⟨hpos, hlow, hhigh⟩ := backoffMs_bounds attempts hnonneg hlt
  rw [askedMs_eq hasked]
  refine ⟨by omega, ?_, ?_, by omega⟩
  · have hle : (backoffMs attempts random : ℚ) ≤
        (max (backoffMs attempts random) (min (retryAfterOf outcome) retryAfterCapMs) : ℤ) := by
      exact_mod_cast le_max_left _ _
    push_cast at hle ⊢
    linarith
  · rw [Int.cast_add, Int.cast_max]
    have hmax := max_le_max hhigh (le_refl ((min (retryAfterOf outcome) retryAfterCapMs : ℤ) : ℚ))
    linarith

/-! ### The row -/

/-- The write of an owner puts the row of the outcome in place of its own. -/
theorem recordOutcome_owned (policy : RetryPolicy) {id fence : ℕ} {row : OutboxRow}
    (hrow : s.rows id = some row) (hfence : row.fence = fence) (attempt : ℕ)
    (outcome : DeliveryOutcome) (random : ℚ) (now : ℤ) :
    (recordOutcome policy s id fence attempt outcome random now).1.rows id =
      some (outcomeRow policy row attempt outcome random now) := by
  have howned : (s.rows id).filter (·.fence = fence) = some row := by
    rw [hrow, Option.filter_some, if_pos (decide_eq_true hfence)]
  rw [recordOutcome, howned]
  exact setRow_rows_self ..

theorem outcomeRow_rescheduled (policy : RetryPolicy) (row : OutboxRow) (attempts : ℕ) (now : ℤ)
    (hretry : isRetryable outcome = true) (hnonneg : 0 ≤ random) (hlt : random < 1)
    (hasked : 0 ≤ retryAfterOf outcome) : Rescheduled policy attempts (retryAfterOf outcome) now row
      (outcomeRow policy row attempts outcome random now) := by
  have hnext := nextAttempt_wait attempts now hnonneg hlt hasked
  have hsettled : settledState policy attempts outcome =
      if attempts ≥ policy.maxAttempts then some .deadLetter else none := by
    cases outcome with
    | retryable _ _ | unknown _ => rfl
    | delivered _ | permanent _ => cases hretry
  by_cases hmax : attempts ≥ policy.maxAttempts
  · have hrow : outcomeRow policy row attempts outcome random now =
        { row with leasedUntil := none, lastError := outcome.error?, state := .deadLetter } := by
      unfold outcomeRow
      rw [hsettled, if_pos hmax]
      cases outcome with
      | retryable _ _ | unknown _ => rfl
      | delivered _ | permanent _ => cases hretry
    rw [hrow]
    exact Rescheduled.deadLetter rfl hmax
  · have hrow : outcomeRow policy row attempts outcome random now =
        if row.expiresAt.any (· < now + max (backoffMs attempts random) (askedMs outcome)) then
          { row with leasedUntil := none, lastError := outcome.error?, state := .expired }
        else { row with
          leasedUntil := none
          lastError := outcome.error?
          state := .queued
          nextAttemptAt := now + max (backoffMs attempts random) (askedMs outcome) } := by
      unfold outcomeRow
      rw [hsettled, if_neg hmax]
      cases outcome with
      | retryable _ _ | unknown _ => rfl
      | delivered _ | permanent _ => cases hretry
    rw [hrow]
    split
    · rename_i hover
      obtain ⟨expiresAt, hexpiresAt, hover⟩ := (Option.any_eq_true _ _).mp hover
      exact Rescheduled.expired rfl hexpiresAt hnext (of_decide_eq_true hover)
    · rename_i hwithin
      refine Rescheduled.queued rfl hnext fun expiresAt hexpiresAt => ?_
      rw [hexpiresAt] at hwithin
      simpa using hwithin

/-! ### The deadline -/

/-- Whether a row may still be claimed at `now`, by its deadline. -/
def BeforeDeadline (row : OutboxRow) (now : ℤ) : Prop :=
  ∀ expiresAt, row.expiresAt = some expiresAt → now < expiresAt

def SameExpiry (row row' : OutboxRow) : Prop := row'.expiresAt = row.expiresAt

/-- Every attempt is of a row that is there, and was claimed before its deadline. -/
def ClaimedInTime (s : Db) : Prop :=
  ∀ a ∈ s.attempts, ∃ row, s.rows a.outboxId = some row ∧ BeforeDeadline row a.startedAt

theorem beforeDeadline_of_due {row : OutboxRow} (h : due row now = true) :
    BeforeDeadline row now := by
  intro expiresAt hexpiresAt
  simp only [due, Bool.and_eq_true, hexpiresAt] at h
  simpa using h.1.2

/-- The attempts of `t` were attempts of `s`, or closed since. -/
def SameStarts (s t : Db) : Prop :=
  ∀ a ∈ t.attempts, ∃ b ∈ s.attempts, b.outboxId = a.outboxId ∧ b.startedAt = a.startedAt

theorem ClaimedInTime.of_same (h : ClaimedInTime s) (hrows : RowsRel SameExpiry s t)
    (hattempts : SameStarts s t) : ClaimedInTime t := by
  intro a ha
  obtain ⟨b, hb, hid, hstarted⟩ := hattempts a ha
  obtain ⟨row, hrow, hbefore⟩ := h b hb
  obtain ⟨row', hrow', hexpiry⟩ := hrows _ row hrow
  refine ⟨row', hid ▸ hrow', fun expiresAt hexpiresAt => ?_⟩
  rw [← hstarted]
  exact hbefore expiresAt (hexpiry ▸ hexpiresAt)

theorem sameExpiry_of_eq (h : t.rows = s.rows) : RowsRel SameExpiry s t :=
  fun id row hrow => ⟨row, by rw [h, hrow], rfl⟩

theorem sameStarts_of_eq (h : t.attempts = s.attempts) : SameStarts s t :=
  fun a ha => ⟨a, h ▸ ha, rfl, rfl⟩

theorem sameStarts_map {f : Attempt → Attempt}
    (hf : ∀ a, (f a).outboxId = a.outboxId ∧ (f a).startedAt = a.startedAt)
    (h : t.attempts = s.attempts.map f) : SameStarts s t := by
  intro a ha
  rw [h] at ha
  obtain ⟨b, hb, rfl⟩ := List.mem_map.mp ha
  exact ⟨b, hb, (hf b).1.symm, (hf b).2.symm⟩

theorem closeAttempt_if (p : Attempt → Bool) (outcome : AttemptOutcome) (error : Option Js.Text.JsString)
    (now : ℤ) (a : Attempt) :
    (if p a then closeAttempt outcome error now a else a).outboxId = a.outboxId ∧
      (if p a then closeAttempt outcome error now a else a).startedAt = a.startedAt := by
  split
  · exact ⟨rfl, rfl⟩
  · exact ⟨rfl, rfl⟩

theorem claimRow_inTime {id : ℕ} (h : ClaimedInTime s) (hclaim : claimRow now s id = some t) :
    ClaimedInTime t ∧ RowsRel SameExpiry s t := by
  obtain ⟨row, n, hrow, hdue, -, -, rfl⟩ := claimRow_spec hclaim
  have hrows : RowsRel SameExpiry s (s.setRow id (claimedRow row n now)) :=
    .of_setRow (fun _ => rfl) rfl hrow rfl
  refine ⟨fun a ha => ?_, hrows⟩
  rcases List.mem_cons.mp ha with rfl | ha
  · exact ⟨_, setRow_rows_self .., fun _ he => beforeDeadline_of_due hdue _ he⟩
  · exact ClaimedInTime.of_same (t := s.setRow id (claimedRow row n now)) h hrows
      (sameStarts_of_eq rfl) a ha

theorem outcomeRow_expiresAt (policy : RetryPolicy) (row : OutboxRow) (n : ℕ)
    (outcome : DeliveryOutcome) (random : ℚ) (now : ℤ) :
    SameExpiry row (outcomeRow policy row n outcome random now) := by
  unfold SameExpiry outcomeRow
  cases outcome with
  | delivered _ | permanent _ => rfl
  | retryable _ _ | unknown _ =>
    dsimp only
    split
    · rfl
    · split
      · rfl
      · rfl

theorem recordOutcome_inTime (policy : RetryPolicy) (h : ClaimedInTime s) (id fence n : ℕ)
    (outcome : DeliveryOutcome) (random : ℚ) (now : ℤ) :
    ClaimedInTime (recordOutcome policy s id fence n outcome random now).1 := by
  unfold recordOutcome
  rcases owned_cases s id fence with hlost | ⟨row, hrow, -, howned⟩
  · rw [hlost]
    exact h.of_same (sameExpiry_of_eq rfl) (sameStarts_map (closeAttempt_if _ _ _ now) rfl)
  · rw [howned]
    exact h.of_same (.of_setRow (fun _ => rfl) rfl hrow (outcomeRow_expiresAt ..))
      (sameStarts_map (closeAttempt_if _ _ _ now) rfl)

theorem renewLease_inTime (h : ClaimedInTime s) (id fence : ℕ) (now : ℤ) :
    ClaimedInTime (renewLease s id fence now).1 := by
  unfold renewLease
  cases hrow : s.rows id with
  | none => exact h
  | some row =>
    dsimp only
    split
    · exact h.of_same (.of_setRow (fun _ => rfl) rfl hrow rfl) (sameStarts_of_eq rfl)
    · exact h

theorem deferRow_inTime (h : ClaimedInTime s) (id fence n : ℕ) (delaySeconds now : ℤ) :
    ClaimedInTime (deferRow s id fence n delaySeconds now) := by
  have hfilter : ∀ (t : Db) (p : Attempt → Bool), t.attempts = s.attempts.filter p →
      SameStarts s t := by
    intro t p ht a ha
    rw [ht] at ha
    exact ⟨a, List.mem_of_mem_filter ha, rfl, rfl⟩
  unfold deferRow
  rcases owned_cases s id fence with hlost | ⟨row, hrow, -, howned⟩
  · dsimp only
    rw [hlost]
    exact h.of_same (sameExpiry_of_eq rfl) (hfilter _ _ rfl)
  · dsimp only
    rw [howned]
    exact h.of_same (.of_setRow (fun _ => rfl) rfl hrow rfl) (hfilter _ _ rfl)

theorem step_inTime {policy : RetryPolicy} {a : Action} (h : ClaimedInTime s)
    (hs : step policy s a = some t) : ClaimedInTime t := by
  cases a with
  | enqueue id now =>
    obtain ⟨hnone, row, rfl⟩ := enqueue_spec hs
    exact h.of_same (rowsRel_enqueue (R := SameExpiry) (fun _ => rfl) hnone) (sameStarts_of_eq rfl)
  | claimDue ids now => exact claimDue_induct (fun _ _ _ hr hc => (claimRow_inTime hr hc).1) h hs
  | deferRow id fence delaySeconds now =>
    obtain ⟨n, -, rfl⟩ := step_deferRow hs
    exact deferRow_inTime h id fence n delaySeconds now
  | renewLease id fence now answered =>
    obtain ⟨n, -, rfl⟩ := step_renewLease hs
    exact renewLease_inTime h id fence now
  | send id fence =>
    obtain ⟨n, -, rfl⟩ := step_send hs
    exact h
  | throw id fence =>
    obtain ⟨n, -, rfl⟩ := step_throw hs
    exact h
  | recordOutcome id fence outcome random now =>
    obtain ⟨n, -, rfl⟩ := step_recordOutcome hs
    exact recordOutcome_inTime policy h id fence n outcome random now
  | expireScan worker ids now =>
    obtain ⟨-, hs⟩ := Option.ite_none_right_eq_some.mp hs
    cases hs
    exact h
  | expireRow worker id =>
    obtain ⟨row, hrow, rfl⟩ := step_expireRow hs
    exact h.of_same (.of_setRow (fun _ => rfl) rfl hrow rfl) (sameStarts_of_eq rfl)
  | sweepStaleAttempts olderThan now =>
    cases hs
    exact h.of_same (sameExpiry_of_eq rfl) (sameStarts_map (closeAttempt_if _ _ _ now) rfl)

/-- The rows that one `claimDue` claims are all before their deadlines. -/
theorem claimDue_inTime {ids : List ℕ} (h : claimDue now s ids = some t) :
    ∀ id ∈ ids, ∃ row, s.rows id = some row ∧ BeforeDeadline row now := by
  induction ids generalizing s with
  | nil => exact nofun
  | cons first ids ih =>
    simp only [claimDue, List.foldlM_cons, Option.bind_eq_bind, Option.bind_eq_some_iff] at h
    obtain ⟨r, hr, h⟩ := h
    obtain ⟨row, n, hrow, hdue, -, -, rfl⟩ := claimRow_spec hr
    intro id hid
    rcases List.mem_cons.mp hid with rfl | hid
    · exact ⟨row, hrow, beforeDeadline_of_due hdue⟩
    · obtain ⟨later, hlater, hbefore⟩ := ih h id hid
      by_cases hfirst : id = first
      · subst hfirst
        exact ⟨row, hrow, beforeDeadline_of_due hdue⟩
      · exact ⟨later, (setRow_rows_of_ne _ _ hfirst).symm.trans hlater, hbefore⟩

/-- A failure that can be retried leaves its row with an attempt in the bounds of the schedule, or
ended by the budget or the deadline; one that is permanent ends it; and no run of the outbox claims a
row at or after its deadline. -/
theorem retry_schedule (policy : RetryPolicy) :
    (∀ (s : Db) (id fence attempt : ℕ) (row : OutboxRow) (outcome : DeliveryOutcome) (random : ℚ)
      (now : ℤ), s.rows id = some row → row.fence = fence → 0 ≤ random → random < 1 →
      0 ≤ retryAfterOf outcome → isRetryable outcome = true →
      ∃ row', (recordOutcome policy s id fence attempt outcome random now).1.rows id = some row' ∧
        Rescheduled policy attempt (retryAfterOf outcome) now row row') ∧
    (∀ (s : Db) (id fence attempt : ℕ) (row : OutboxRow) error (random : ℚ) (now : ℤ),
      s.rows id = some row → row.fence = fence →
      ∃ row', (recordOutcome policy s id fence attempt (.permanent error) random now).1.rows id =
        some row' ∧ row'.state = .failed) ∧
    ∀ acts, (machine policy).EachMove acts (fun s a _ => ∀ ids now, a = .claimDue ids now →
        ∀ id ∈ ids, ∃ row, s.rows id = some row ∧ BeforeDeadline row now) ∧
      (machine policy).Always acts ClaimedInTime := by
  refine ⟨?_, ?_, fun acts => ⟨?_, ?_⟩⟩
  · intro s id fence attempt row outcome random now hrow hfence hnonneg hlt hasked hretry
    exact ⟨_, recordOutcome_owned policy hrow hfence attempt outcome random now,
      outcomeRow_rescheduled policy row attempt now hretry hnonneg hlt hasked⟩
  · intro s id fence attempt row error random now hrow hfence
    exact ⟨_, recordOutcome_owned policy hrow hfence attempt (.permanent error) random now, rfl⟩
  · rintro visited a - s t hs ht ids now rfl
    exact claimDue_inTime ht
  · refine Machine.Always.of_reachable (fun s hs => ?_) acts
    refine hs.induct nofun fun s a t _ h ht => ?_
    exact step_inTime h (show step policy s a = some t from ht)

/-- A row in its second attempt. -/
def secondAttempt : OutboxRow where
  state := .sending
  attempts := 2
  nextAttemptAt := 0
  leasedUntil := some 600000
  fence := 2
  lastClaimedAt := some 0
  expiresAt := some 21600000
  deliveredAt := none
  providerMessageId := none
  lastError := none

/-- The provider asks for more than the cap. -/
theorem retry_schedule_put_off :
    ∃ row', (recordOutcome ⟨20, 6⟩ ((machine ⟨20, 6⟩).init.setRow 7 secondAttempt) 7 2 2
        (.retryable (Js.Text.js "429") (some 9000000)) (1 / 3) 1000).1.rows 7 = some row' ∧
      Rescheduled ⟨20, 6⟩ 2 9000000 1000 secondAttempt row' :=
  (retry_schedule ⟨20, 6⟩).1 _ 7 2 2 _ _ _ _ (setRow_rows_self ..) rfl (by norm_num) (by norm_num)
    (by decide) rfl

end Vigil.Notifications.RetrySchedule
