import Vigil.Notifications.Outbox

/-! Fencing over whole runs of the outbox: what each operation may do to a row, the invariant that
ties a claim to the row and to its attempt, and what every interleaving keeps to. -/

namespace Vigil.Notifications.Fencing

open Lib Outbox

/-! ### What an operation does to the rows -/

section Tables

variable (s : Db) (id fence : ℕ) (row : OutboxRow) (work : Work)

@[simp] theorem setRow_rows_self : (s.setRow id row).rows id = some row := by simp [Db.setRow]

theorem setRow_rows_of_ne {id id' : ℕ} (h : id' ≠ id) :
    (s.setRow id row).rows id' = s.rows id' := by
  simp [Db.setRow, h]

@[simp] theorem setRow_work : (s.setRow id row).work = s.work := rfl

@[simp] theorem setRow_attempts : (s.setRow id row).attempts = s.attempts := rfl

@[simp] theorem setWork_rows : (s.setWork id fence work).rows = s.rows := rfl

@[simp] theorem setWork_attempts : (s.setWork id fence work).attempts = s.attempts := rfl

@[simp] theorem setWork_self : (s.setWork id fence work).work id fence = work := by
  simp [Db.setWork]

theorem setWork_of_ne {id fence id' fence' : ℕ} (h : ¬(id' = id ∧ fence' = fence)) :
    (s.setWork id fence work).work id' fence' = s.work id' fence' := by
  by_cases hid : id' = id
  · subst hid
    have hfence : fence' ≠ fence := fun hf => h ⟨rfl, hf⟩
    simp [Db.setWork, hfence]
  · simp [Db.setWork, hid]

end Tables

def RowsRel (R : OutboxRow → OutboxRow → Prop) (s t : Db) : Prop :=
  ∀ id row, s.rows id = some row → ∃ row', t.rows id = some row' ∧ R row row'

/-- What every operation but `expireOverdue` keeps to. -/
structure Lawful (row row' : OutboxRow) : Prop where
  fence : row.fence ≤ row'.fence
  terminal : row.state.terminal = true → row'.state = row.state

theorem Lawful.refl (row : OutboxRow) : Lawful row row := ⟨le_rfl, fun _ => rfl⟩

theorem Lawful.trans {a b c : OutboxRow} (hab : Lawful a b) (hbc : Lawful b c) : Lawful a c where
  fence := hab.fence.trans hbc.fence
  terminal h := (hbc.terminal (by rwa [hab.terminal h])).trans (hab.terminal h)

theorem RowsRel.of_eq {s t : Db} (h : t.rows = s.rows) : RowsRel Lawful s t :=
  fun id row hrow => ⟨row, by rw [h, hrow], .refl row⟩

theorem RowsRel.trans {r s t : Db} (hrs : RowsRel Lawful r s) (hst : RowsRel Lawful s t) :
    RowsRel Lawful r t := by
  intro id row hrow
  obtain ⟨row', hrow', h⟩ := hrs id row hrow
  obtain ⟨row'', hrow'', h'⟩ := hst id row' hrow'
  exact ⟨row'', hrow'', h.trans h'⟩

theorem RowsRel.of_setRow {R : OutboxRow → OutboxRow → Prop} {s t : Db} {id : ℕ}
    {row row' : OutboxRow} (hrefl : ∀ row, R row row) (ht : t.rows = (s.setRow id row').rows)
    (hrow : s.rows id = some row) (h : R row row') : RowsRel R s t := by
  intro i r hr
  by_cases hi : i = id
  · subst hi
    obtain rfl : row = r := by simpa [hrow] using hr
    exact ⟨row', by rw [ht, setRow_rows_self], h⟩
  · exact ⟨r, by rw [ht, setRow_rows_of_ne _ _ hi, hr], hrefl r⟩

/-! ### The invariant -/

/-- The worker has not finished with its claim of row `id` under `fence`, which is attempt `n`. -/
def Live (s : Db) (id fence n : ℕ) : Prop := (s.work id fence).attempt? = some n

def attemptKey (a : Attempt) : ℕ × ℕ × ℕ := (a.outboxId, a.attempt, a.fence)

structure Inv (s : Db) : Prop where
  /-- A claim is under a fence that the row has had, and a claim under the row's own fence means
  that the row is still being sent. -/
  claimed : ∀ {id fence n}, Live s id fence n →
    ∃ row, s.rows id = some row ∧ fence ≤ row.fence ∧ (fence = row.fence → row.state = .sending)
  evidence : ∀ {id fence n}, Live s id fence n → (id, n, fence) ∈ s.attempts.map attemptKey
  unique : (s.attempts.map fun a => (a.outboxId, a.attempt)).Nodup

theorem map_attemptKey {l : List Attempt} {f : Attempt → Attempt}
    (h : ∀ a, attemptKey (f a) = attemptKey a) :
    (l.map f).map attemptKey = l.map attemptKey := by
  rw [List.map_map]
  exact List.map_congr_left fun a _ => h a

theorem unique_of_keys {l l' : List Attempt} (h : l'.map attemptKey = l.map attemptKey)
    (hu : (l.map fun a => (a.outboxId, a.attempt)).Nodup) :
    (l'.map fun a => (a.outboxId, a.attempt)).Nodup := by
  have hproj : ∀ l : List Attempt, (l.map fun a => (a.outboxId, a.attempt)) =
      (l.map attemptKey).map fun k => (k.1, k.2.1) := fun l => by
    rw [List.map_map]
    rfl
  rw [hproj] at hu ⊢
  rwa [h]

def SameClaim (row row' : OutboxRow) : Prop := row'.fence = row.fence ∧ row'.state = row.state

/-- A step that keeps the fences, the states and the attempts keeps the invariant, if it brings no
claim to life. -/
theorem Inv.of_same {s t : Db} (h : Inv s) (hrows : RowsRel SameClaim s t)
    (hkeys : t.attempts.map attemptKey = s.attempts.map attemptKey)
    (hlive : ∀ id fence n, Live t id fence n → Live s id fence n) : Inv t where
  claimed := fun hl => by
    obtain ⟨row, hrow, hle, hsending⟩ := h.claimed (hlive _ _ _ hl)
    obtain ⟨row', hrow', hfence, hstate⟩ := hrows _ row hrow
    exact ⟨row', hrow', hfence ▸ hle, fun hf => hstate ▸ hsending (hfence ▸ hf)⟩
  evidence := fun hl => by
    rw [hkeys]
    exact h.evidence (hlive _ _ _ hl)
  unique := unique_of_keys hkeys h.unique

theorem rowsRel_sameClaim {s t : Db} (h : t.rows = s.rows) : RowsRel SameClaim s t :=
  fun _ row hrow => ⟨row, by rw [h, hrow], rfl, rfl⟩

theorem live_setWork {s : Db} {id fence n id' fence' : ℕ} {work : Work}
    (hl : Live (s.setWork id fence work) id' fence' n) :
    (id' = id ∧ fence' = fence ∧ work.attempt? = some n) ∨
      (¬(id' = id ∧ fence' = fence) ∧ Live s id' fence' n) := by
  by_cases hkey : id' = id ∧ fence' = fence
  · obtain ⟨rfl, rfl⟩ := hkey
    exact .inl ⟨rfl, rfl, by simpa [Live] using hl⟩
  · refine .inr ⟨hkey, ?_⟩
    rwa [Live, setWork_of_ne _ _ hkey] at hl

/-! ### The operations keep the invariant -/

variable {now : ℤ} {ids : List ℕ} {a : Action}

theorem not_terminal_of_due {row : OutboxRow} (h : due row now = true) :
    row.state.terminal = false := by
  simp only [due, Bool.and_eq_true, Bool.or_eq_true, decide_eq_true_eq] at h
  rcases h.2 with hstate | ⟨hstate, -⟩ <;> rw [hstate] <;> rfl

theorem claimRow_spec {s t : Db} {id : ℕ} (h : claimRow now s id = some t) :
    ∃ row n, s.rows id = some row ∧ due row now = true ∧ row.attempts < n ∧
      maxAttempt s.attempts id < n ∧ t = (({ s.setRow id (claimedRow row n now) with
        attempts := claimedAttempt id (claimedRow row n now) now :: s.attempts } : Db).setWork id
          (row.fence + 1) (.held n)) := by
  unfold claimRow at h
  cases hrow : s.rows id with
  | none => simp [hrow] at h
  | some row =>
    simp only [hrow] at h
    split at h
    · rename_i hdue
      exact ⟨row, _, rfl, hdue, by omega, by omega, (Option.some.inj h).symm⟩
    · cases h

theorem le_maxAttempt {l : List Attempt} {a : Attempt} (h : a ∈ l) :
    a.attempt ≤ maxAttempt l a.outboxId := by
  induction l with
  | nil => simp at h
  | cons b l ih =>
    unfold maxAttempt
    rcases List.mem_cons.mp h with rfl | h
    · simp
    · have := ih h
      unfold maxAttempt at this
      by_cases hb : b.outboxId = a.outboxId
      · simp [hb, this]
      · simp [hb, this]

theorem claimRow_inv {s t : Db} {id : ℕ} (hi : Inv s) (h : claimRow now s id = some t) : Inv t := by
  obtain ⟨row, n, hrow, hdue, -, hmax, rfl⟩ := claimRow_spec h
  refine ⟨fun {i f m} hl => ?_, fun {i f m} hl => ?_, ?_⟩
  · rcases live_setWork hl with ⟨rfl, rfl, -⟩ | ⟨hkey, hlive⟩
    · exact ⟨claimedRow row n now, setRow_rows_self s _ _, le_rfl, fun _ => rfl⟩
    · obtain ⟨r, hr, hf, hs⟩ := hi.claimed hlive
      by_cases hid : i = id
      · -- an older claim of the row that is claimed now
        subst hid
        obtain rfl : row = r := by simpa [hrow] using hr
        refine ⟨claimedRow row n now, setRow_rows_self s _ _, Nat.le_succ_of_le hf,
          fun hfence => ?_⟩
        exact absurd hfence (Nat.lt_succ_of_le hf).ne
      · exact ⟨r, (setRow_rows_of_ne s _ hid).trans hr, hf, hs⟩
  · rcases live_setWork hl with ⟨rfl, rfl, hn⟩ | ⟨-, hlive⟩
    · obtain rfl : n = m := by simpa [Work.attempt?] using hn
      exact List.mem_cons_self
    · exact List.mem_cons_of_mem _ (hi.evidence hlive)
  · refine List.nodup_cons.mpr ⟨fun hmem => ?_, hi.unique⟩
    obtain ⟨a, ha, hkey⟩ := List.mem_map.mp hmem
    obtain ⟨hid, hattempt⟩ := Prod.mk.inj hkey
    have hle := le_maxAttempt ha
    have hid : a.outboxId = id := hid
    have hattempt : a.attempt = n := hattempt
    rw [hid] at hle
    omega

theorem claimRow_lawful {s t : Db} {id : ℕ} (h : claimRow now s id = some t) :
    RowsRel Lawful s t := by
  obtain ⟨row, n, hrow, hdue, -, -, rfl⟩ := claimRow_spec h
  refine .of_setRow .refl rfl hrow ⟨Nat.le_succ _, fun hterminal => ?_⟩
  rw [not_terminal_of_due hdue] at hterminal
  cases hterminal

theorem claimDue_induct {P : Db → Prop} {s t : Db}
    (step : ∀ s id t, P s → claimRow now s id = some t → P t) (hs : P s)
    (h : claimDue now s ids = some t) : P t := by
  induction ids generalizing s with
  | nil =>
    obtain rfl : s = t := by simpa [claimDue] using h
    exact hs
  | cons id ids ih =>
    simp only [claimDue, List.foldlM_cons, Option.bind_eq_bind, Option.bind_eq_some_iff] at h
    obtain ⟨r, hr, h⟩ := h
    exact ih (step s id r hs hr) h

theorem claimDue_lawful {s t : Db} (h : claimDue now s ids = some t) : RowsRel Lawful s t :=
  claimDue_induct (fun _ _ _ hs hr => hs.trans (claimRow_lawful hr)) (.of_eq rfl) h

/-- `where id = .. and fence = ..`, as every write of a claim has it. -/
theorem owned_cases (s : Db) (id fence : ℕ) :
    (s.rows id).filter (·.fence = fence) = none ∨
      ∃ row, s.rows id = some row ∧ row.fence = fence ∧
        (s.rows id).filter (·.fence = fence) = some row := by
  cases hrow : s.rows id with
  | none => exact .inl rfl
  | some row =>
    by_cases hfence : row.fence = fence
    · exact .inr ⟨row, rfl, hfence, by simp [Option.filter, hfence]⟩
    · exact .inl (by simp [Option.filter, hfence])

/-- What a write of the claim `(id, fence)` leaves: if the row is still under that fence, one row
whose fence is the same; otherwise every row as it was. -/
structure FencedWrite (s t : Db) (id fence : ℕ) : Prop where
  lost : (∀ row, s.rows id = some row → row.fence ≠ fence) → t.rows = s.rows
  owned : ∀ row, s.rows id = some row → row.fence = fence →
    ∃ row', t.rows = (s.setRow id row').rows ∧ row'.fence = fence

theorem outcomeRow_fence (policy : RetryPolicy) (row : OutboxRow) (n : ℕ)
    (outcome : DeliveryOutcome) (random : ℚ) (now : ℤ) :
    (outcomeRow policy row n outcome random now).fence = row.fence := by
  unfold outcomeRow
  cases outcome <;> dsimp only <;> split <;> try split
  all_goals rfl

structure ClaimWrite (s t : Db) (id fence : ℕ) : Prop extends FencedWrite s t id fence where
  work : t.work = s.work
  attempts : t.attempts.map attemptKey = s.attempts.map attemptKey

theorem recordOutcome_spec (policy : RetryPolicy) (s : Db) (id fence n : ℕ)
    (outcome : DeliveryOutcome) (random : ℚ) (now : ℤ) :
    ClaimWrite s (recordOutcome policy s id fence n outcome random now).1 id fence := by
  have hkeys : ∀ (p : Attempt → Bool) o e, (s.attempts.map fun a =>
      if p a then closeAttempt o e now a else a).map attemptKey = s.attempts.map attemptKey := by
    intro p o e
    refine map_attemptKey fun a => ?_
    split
    · rfl
    · rfl
  unfold recordOutcome
  rcases owned_cases s id fence with hlost | ⟨row, hrow, hfence, howned⟩
  · simp only [hlost]
    refine ⟨⟨fun _ => rfl, fun row hrow hfence => ?_⟩, rfl, hkeys _ _ _⟩
    simp [hrow, Option.filter, hfence] at hlost
  · simp only [howned]
    refine ⟨⟨fun h => absurd hfence (h row hrow), fun r hr _ => ?_⟩, rfl, hkeys _ _ _⟩
    exact ⟨_, rfl, (outcomeRow_fence policy row n outcome random now).trans hfence⟩

theorem renewLease_spec (s : Db) (id fence : ℕ) (now : ℤ) :
    ClaimWrite s (renewLease s id fence now).1 id fence := by
  unfold renewLease
  cases hrow : s.rows id with
  | none => exact ⟨⟨fun _ => rfl, fun row h _ => by simp [hrow] at h⟩, rfl, rfl⟩
  | some row =>
    dsimp only
    split
    · rename_i hfence
      exact ⟨⟨fun h => absurd hfence (h row hrow), fun r hr _ => ⟨_, rfl, hfence⟩⟩, rfl, rfl⟩
    · rename_i hfence
      refine ⟨⟨fun _ => rfl, fun r hr hf => ?_⟩, rfl, rfl⟩
      obtain rfl : row = r := by simpa [hrow] using hr
      exact absurd hf hfence

theorem deferRow_spec (s : Db) (id fence n : ℕ) (delaySeconds now : ℤ) :
    FencedWrite s (deferRow s id fence n delaySeconds now) id fence ∧
      (deferRow s id fence n delaySeconds now).work = s.work ∧
      (deferRow s id fence n delaySeconds now).attempts = s.attempts.filter fun a =>
        !(a.outboxId = id && a.attempt = n && a.fence = fence && a.outcome = .claimed) := by
  unfold deferRow
  rcases owned_cases s id fence with hlost | ⟨row, hrow, hfence, howned⟩
  · simp only [hlost]
    refine ⟨⟨fun _ => rfl, fun row hrow hfence => ?_⟩, trivial, trivial⟩
    simp [hrow, Option.filter, hfence] at hlost
  · simp only [howned]
    exact ⟨⟨fun h => absurd hfence (h row hrow), fun r hr _ => ⟨_, rfl, hfence⟩⟩, rfl, rfl⟩

/-- A fenced write that ends its claim: the other claims of the row are under older fences. -/
theorem FencedWrite.claimed {s t : Db} {id fence n : ℕ} (hw : FencedWrite s t id fence)
    (hi : Inv s) (hlive : Live s id fence n) {id' fence' n' : ℕ}
    (hkey : ¬(id' = id ∧ fence' = fence)) (hlive' : Live s id' fence' n') :
    ∃ row, t.rows id' = some row ∧ fence' ≤ row.fence ∧
      (fence' = row.fence → row.state = .sending) := by
  obtain ⟨row, hrow, hle, hsending⟩ := hi.claimed hlive'
  obtain ⟨own, hown, -, -⟩ := hi.claimed hlive
  by_cases hfence : own.fence = fence
  · obtain ⟨row', ht, hfence'⟩ := hw.owned own hown hfence
    by_cases hid : id' = id
    · subst hid
      obtain rfl : own = row := by simpa [hown] using hrow
      refine ⟨row', by rw [ht, setRow_rows_self], by omega, fun h => ?_⟩
      exact absurd ⟨rfl, h.trans hfence'⟩ hkey
    · exact ⟨row, by rw [ht, setRow_rows_of_ne _ _ hid, hrow], hle, hsending⟩
  · refine ⟨row, ?_, hle, hsending⟩
    rw [hw.lost fun r hr => ?_, hrow]
    obtain rfl : own = r := by simpa [hown] using hr
    exact hfence

theorem FencedWrite.lawful {s t : Db} {id fence n : ℕ} (hw : FencedWrite s t id fence) (hi : Inv s)
    (hlive : Live s id fence n) : RowsRel Lawful s t := by
  obtain ⟨row, hrow, -, hsending⟩ := hi.claimed hlive
  by_cases hfence : row.fence = fence
  · obtain ⟨row', ht, hfence'⟩ := hw.owned row hrow hfence
    refine .of_setRow .refl ht hrow ⟨by omega, fun hterminal => ?_⟩
    rw [hsending hfence.symm] at hterminal
    cases hterminal
  · refine .of_eq (hw.lost fun r hr => ?_)
    obtain rfl : row = r := by simpa [hrow] using hr
    exact hfence

theorem live_of_held {s : Db} {id fence n : ℕ} (h : s.work id fence = .held n) :
    Live s id fence n := by simp [Live, h, Work.attempt?]

theorem live_of_renewed {s : Db} {id fence n : ℕ} (h : s.work id fence = .renewed n) :
    Live s id fence n := by simp [Live, h, Work.attempt?]

theorem live_of_reportable {s : Db} {id fence n : ℕ} {outcome : DeliveryOutcome}
    (h : reportable outcome (s.work id fence) = some n) : Live s id fence n := by
  unfold Live
  cases hw : s.work id fence <;> simp [hw, reportable, Work.attempt?] at h ⊢
  · exact h.2
  · exact h

theorem Inv.setWork {s : Db} {id fence n : ℕ} {work : Work} (hi : Inv s)
    (hlive : Live s id fence n) (hwork : ∀ m, work.attempt? = some m → m = n) :
    Inv (s.setWork id fence work) := by
  refine hi.of_same (rowsRel_sameClaim rfl) rfl fun i f m hl => ?_
  rcases live_setWork hl with ⟨rfl, rfl, hm⟩ | ⟨-, hl⟩
  · rwa [hwork m hm]
  · exact hl

theorem ClaimWrite.inv {s t : Db} {id fence n : ℕ} {work : Work} (hw : ClaimWrite s t id fence)
    (hi : Inv s) (hlive : Live s id fence n) (hdone : work.attempt? = none) :
    Inv (t.setWork id fence work) := by
  have hother : ∀ {i f m}, Live (t.setWork id fence work) i f m →
      ¬(i = id ∧ f = fence) ∧ Live s i f m := by
    intro i f m hl
    rcases live_setWork hl with ⟨-, -, hm⟩ | ⟨hkey, hl⟩
    · simp [hdone] at hm
    · exact ⟨hkey, by rwa [Live, hw.work] at hl⟩
  refine ⟨fun hl => ?_, fun hl => ?_, unique_of_keys hw.attempts hi.unique⟩
  · exact hw.toFencedWrite.claimed hi hlive (hother hl).1 (hother hl).2
  · show _ ∈ t.attempts.map attemptKey
    rw [hw.attempts]
    exact hi.evidence (hother hl).2

theorem renewLease_sameClaim (s : Db) (id fence : ℕ) (now : ℤ) :
    RowsRel SameClaim s (renewLease s id fence now).1 := by
  unfold renewLease
  cases hrow : s.rows id with
  | none => exact rowsRel_sameClaim rfl
  | some row =>
    dsimp only
    split
    · exact .of_setRow (fun _ => ⟨rfl, rfl⟩) rfl hrow ⟨rfl, rfl⟩
    · exact rowsRel_sameClaim rfl

theorem renewLease_inv {s : Db} {id fence n : ℕ} {work : Work} (now : ℤ) (hi : Inv s)
    (hlive : Live s id fence n) (hwork : ∀ m, work.attempt? = some m → m = n) :
    Inv ((renewLease s id fence now).1.setWork id fence work) := by
  have hspec := renewLease_spec s id fence now
  refine hi.of_same (renewLease_sameClaim s id fence now) hspec.attempts fun i f m hl => ?_
  rcases live_setWork hl with ⟨rfl, rfl, hm⟩ | ⟨-, hl⟩
  · rwa [hwork m hm]
  · rwa [Live, hspec.work] at hl

/-- A deferral withdraws the attempt of its own claim and of no other. -/
theorem deferRow_inv {s : Db} {id fence n : ℕ} (delaySeconds now : ℤ) (hi : Inv s)
    (hlive : Live s id fence n) :
    Inv ((deferRow s id fence n delaySeconds now).setWork id fence .done) := by
  obtain ⟨hw, hwork, hattempts⟩ := deferRow_spec s id fence n delaySeconds now
  have hother : ∀ {i f m}, Live ((deferRow s id fence n delaySeconds now).setWork id fence .done)
      i f m → ¬(i = id ∧ f = fence) ∧ Live s i f m := by
    intro i f m hl
    rcases live_setWork hl with ⟨-, -, hm⟩ | ⟨hkey, hl⟩
    · simp [Work.attempt?] at hm
    · exact ⟨hkey, by rwa [Live, hwork] at hl⟩
  refine ⟨fun hl => hw.claimed hi hlive (hother hl).1 (hother hl).2, fun {i f m} hl => ?_, ?_⟩
  · obtain ⟨hkey, hl⟩ := hother hl
    obtain ⟨a, ha, hak⟩ := List.mem_map.mp (hi.evidence hl)
    refine List.mem_map.mpr ⟨a, ?_, hak⟩
    rw [setWork_attempts, hattempts]
    refine List.mem_filter.mpr ⟨ha, ?_⟩
    obtain ⟨hid, hrest⟩ := Prod.mk.inj hak
    obtain ⟨-, hfence⟩ := Prod.mk.inj hrest
    have : ¬(a.outboxId = id ∧ a.fence = fence) := by rwa [hid, hfence]
    simp only [Bool.not_eq_true', Bool.and_eq_false_iff, decide_eq_false_iff_not]
    tauto
  · rw [setWork_attempts, hattempts]
    exact hi.unique.sublist ((List.filter_sublist).map _)

theorem setRow_inv {s t : Db} {id : ℕ} {row row' : OutboxRow} (hi : Inv s)
    (hrows : t.rows = (s.setRow id row').rows) (hwork : t.work = s.work)
    (hattempts : t.attempts = s.attempts) (hrow : s.rows id = some row)
    (hfence : row.fence < row'.fence) : Inv t where
  claimed := fun {i f n} hl => by
    rw [Live, hwork] at hl
    obtain ⟨r, hr, hle, hsending⟩ := hi.claimed hl
    by_cases hid : i = id
    · subst hid
      obtain rfl : row = r := by simpa [hrow] using hr
      exact ⟨row', by rw [hrows, setRow_rows_self], by omega, fun h => by omega⟩
    · exact ⟨r, by rw [hrows, setRow_rows_of_ne _ _ hid, hr], hle, hsending⟩
  evidence := fun hl => by
    rw [Live, hwork] at hl
    rw [hattempts]
    exact hi.evidence hl
  unique := hattempts ▸ hi.unique

theorem enqueue_spec {policy : RetryPolicy} {s t : Db} {id : ℕ}
    (h : enqueue policy s id now = some t) : s.rows id = none ∧ ∃ row, t = s.setRow id row := by
  unfold enqueue at h
  cases hrow : s.rows id with
  | some row => simp [hrow] at h
  | none =>
    simp only [hrow] at h
    exact ⟨rfl, _, (Option.some.inj h).symm⟩

theorem rowsRel_enqueue {R : OutboxRow → OutboxRow → Prop} (hrefl : ∀ row, R row row) {s : Db}
    {id : ℕ} {row : OutboxRow} (h : s.rows id = none) : RowsRel R s (s.setRow id row) := by
  intro i r hr
  have hi : i ≠ id := by
    rintro rfl
    simp [h] at hr
  exact ⟨r, by rw [setRow_rows_of_ne _ _ hi, hr], hrefl r⟩

theorem sweep_keys (s : Db) (olderThan now : ℤ) :
    (sweepStaleAttempts s olderThan now).attempts.map attemptKey = s.attempts.map attemptKey := by
  refine map_attemptKey fun a => ?_
  split
  · rfl
  · rfl

/-! ### What each action needs, and what it makes of the tables -/

section Step

variable {policy : RetryPolicy} {s t : Db} {id fence : ℕ}

theorem step_deferRow {delaySeconds now : ℤ}
    (h : step policy s (.deferRow id fence delaySeconds now) = some t) :
    ∃ n, s.work id fence = .held n ∧
      t = (deferRow s id fence n delaySeconds now).setWork id fence .done := by
  simp only [step] at h
  split at h
  · rename_i n hwork
    exact ⟨n, hwork, (Option.some.inj h).symm⟩
  · cases h

theorem step_renewLease {now : ℤ} {answered : Bool}
    (h : step policy s (.renewLease id fence now answered) = some t) :
    ∃ n, s.work id fence = .held n ∧ t = (renewLease s id fence now).1.setWork id fence
      (if !answered then .threw n else if (renewLease s id fence now).2 then .renewed n
        else .done) := by
  simp only [step] at h
  split at h
  · rename_i n hwork
    exact ⟨n, hwork, (Option.some.inj h).symm⟩
  · cases h

theorem step_send (h : step policy s (.send id fence) = some t) :
    ∃ n, s.work id fence = .renewed n ∧ t = s.setWork id fence (.sent n) := by
  simp only [step] at h
  split at h
  · rename_i n hwork
    exact ⟨n, hwork, (Option.some.inj h).symm⟩
  · cases h

theorem step_throw (h : step policy s (.throw id fence) = some t) :
    ∃ n, (s.work id fence = .held n ∨ s.work id fence = .renewed n) ∧
      t = s.setWork id fence (.threw n) := by
  simp only [step] at h
  split at h
  · rename_i n hwork
    exact ⟨n, .inl hwork, (Option.some.inj h).symm⟩
  · rename_i n hwork
    exact ⟨n, .inr hwork, (Option.some.inj h).symm⟩
  · cases h

theorem step_recordOutcome {outcome : DeliveryOutcome} {random : ℚ} {now : ℤ}
    (h : step policy s (.recordOutcome id fence outcome random now) = some t) :
    ∃ n, reportable outcome (s.work id fence) = some n ∧
      t = (recordOutcome policy s id fence n outcome random now).1.setWork id fence .done := by
  simp only [step] at h
  split at h
  · rename_i n hwork
    exact ⟨n, hwork, (Option.some.inj h).symm⟩
  · cases h

theorem step_expireRow {worker : ℕ} (h : step policy s (.expireRow worker id) = some t) :
    ∃ row, s.rows id = some row ∧ t = { s.setRow id (expiredRow row) with
      scans := Function.update s.scans worker ((s.scans worker).erase id) } := by
  simp only [step] at h
  split at h
  · rename_i row hrow
    obtain ⟨-, h⟩ := Option.ite_none_right_eq_some.mp h
    exact ⟨row, hrow, (Option.some.inj h).symm⟩
  · cases h

end Step

theorem step_inv {policy : RetryPolicy} {s t : Db} (hi : Inv s) (h : step policy s a = some t) :
    Inv t := by
  cases a with
  | enqueue id now =>
    obtain ⟨hnone, row, rfl⟩ := enqueue_spec h
    exact hi.of_same (rowsRel_enqueue (fun _ => ⟨rfl, rfl⟩) hnone) rfl fun _ _ _ hl => hl
  | claimDue ids now => exact claimDue_induct (fun _ _ _ hs hr => claimRow_inv hs hr) hi h
  | deferRow id fence delaySeconds now =>
    obtain ⟨n, hwork, rfl⟩ := step_deferRow h
    exact deferRow_inv delaySeconds now hi (live_of_held hwork)
  | renewLease id fence now answered =>
    obtain ⟨n, hwork, rfl⟩ := step_renewLease h
    refine renewLease_inv now hi (live_of_held hwork) fun m hm => ?_
    split_ifs at hm
    · exact (Option.some.inj hm).symm
    · exact (Option.some.inj hm).symm
    · cases hm
  | send id fence =>
    obtain ⟨n, hwork, rfl⟩ := step_send h
    refine hi.setWork (live_of_renewed hwork) fun m hm => ?_
    simpa [Work.attempt?, eq_comm] using hm
  | throw id fence =>
    obtain ⟨n, hwork, rfl⟩ := step_throw h
    refine hi.setWork (hwork.elim live_of_held live_of_renewed) fun m hm => ?_
    simpa [Work.attempt?, eq_comm] using hm
  | recordOutcome id fence outcome random now =>
    obtain ⟨n, hwork, rfl⟩ := step_recordOutcome h
    exact (recordOutcome_spec policy s id fence n outcome random now).inv hi
      (live_of_reportable hwork) rfl
  | expireScan worker ids now =>
    obtain ⟨-, h⟩ := Option.ite_none_right_eq_some.mp h
    cases h
    exact hi.of_same (rowsRel_sameClaim rfl) rfl fun _ _ _ hl => hl
  | expireRow worker id =>
    obtain ⟨row, hrow, rfl⟩ := step_expireRow h
    exact setRow_inv hi rfl rfl rfl hrow (Nat.lt_succ_self row.fence)
  | sweepStaleAttempts olderThan now =>
    cases h
    exact hi.of_same (rowsRel_sameClaim rfl) (sweep_keys s olderThan now) fun _ _ _ hl => hl

theorem init_inv (policy : RetryPolicy) : Inv (machine policy).init where
  claimed := nofun
  evidence := nofun
  unique := List.nodup_nil

theorem reachable_inv {policy : RetryPolicy} {s : Db} (h : (machine policy).Reachable s) : Inv s :=
  h.induct (init_inv policy) fun _ _ _ _ hi hs => step_inv hi hs

/-! ### What a step does to the rows -/

theorem expireRow_spec {policy : RetryPolicy} {s t : Db} {worker id : ℕ}
    (h : step policy s (.expireRow worker id) = some t) :
    ∃ row, s.rows id = some row ∧ t.rows = (s.setRow id (expiredRow row)).rows := by
  obtain ⟨row, hrow, rfl⟩ := step_expireRow h
  exact ⟨row, hrow, rfl⟩

theorem step_lawful {policy : RetryPolicy} {s t : Db} (hi : Inv s) (h : step policy s a = some t)
    (ha : ∀ worker id, a ≠ .expireRow worker id) : RowsRel Lawful s t := by
  cases a with
  | enqueue id now =>
    obtain ⟨hnone, row, rfl⟩ := enqueue_spec h
    exact rowsRel_enqueue .refl hnone
  | claimDue ids now => exact claimDue_lawful h
  | deferRow id fence delaySeconds now =>
    obtain ⟨n, hwork, rfl⟩ := step_deferRow h
    exact (deferRow_spec s id fence n delaySeconds now).1.lawful hi (live_of_held hwork)
  | renewLease id fence now answered =>
    obtain ⟨n, hwork, rfl⟩ := step_renewLease h
    exact (renewLease_spec s id fence now).lawful hi (live_of_held hwork)
  | send id fence =>
    obtain ⟨n, -, rfl⟩ := step_send h
    exact .of_eq rfl
  | throw id fence =>
    obtain ⟨n, -, rfl⟩ := step_throw h
    exact .of_eq rfl
  | recordOutcome id fence outcome random now =>
    obtain ⟨n, hwork, rfl⟩ := step_recordOutcome h
    exact (recordOutcome_spec policy s id fence n outcome random now).lawful hi
      (live_of_reportable hwork)
  | expireScan worker ids now =>
    obtain ⟨-, h⟩ := Option.ite_none_right_eq_some.mp h
    cases h
    exact .of_eq rfl
  | expireRow worker id => exact absurd rfl (ha worker id)
  | sweepStaleAttempts olderThan now =>
    cases h
    exact .of_eq rfl

theorem claimDue_fence {s t : Db} (h : claimDue now s ids = some t) {id : ℕ} (hid : id ∈ ids)
    {row : OutboxRow} (hrow : s.rows id = some row) :
    ∃ row', t.rows id = some row' ∧ row.fence < row'.fence := by
  induction ids generalizing s row with
  | nil => simp at hid
  | cons i ids ih =>
    simp only [claimDue, List.foldlM_cons, Option.bind_eq_bind, Option.bind_eq_some_iff] at h
    obtain ⟨r, hr, h⟩ := h
    rcases List.mem_cons.mp hid with rfl | hid
    · obtain ⟨row₀, n, hrow₀, -, -, -, rfl⟩ := claimRow_spec hr
      obtain rfl : row₀ = row := by simpa [hrow₀] using hrow
      obtain ⟨row', hrow', hlawful⟩ := claimDue_lawful h id _ (setRow_rows_self s id _)
      exact ⟨row', hrow', lt_of_lt_of_le (Nat.lt_succ_self _) hlawful.fence⟩
    · obtain ⟨row₁, hrow₁, hlawful⟩ := claimRow_lawful hr id row hrow
      obtain ⟨row', hrow', hlt⟩ := ih h hid hrow₁
      exact ⟨row', hrow', lt_of_le_of_lt hlawful.fence hlt⟩

/-! ### Fencing -/

/-- The action claims the row. -/
def Action.claims (id : ℕ) : Action → Prop
  | .claimDue ids _ => id ∈ ids
  | _ => False

def Action.writesAs (id fence : ℕ) : Action → Prop
  | .recordOutcome id' fence' _ _ _ => id' = id ∧ fence' = fence
  | .deferRow id' fence' _ _ => id' = id ∧ fence' = fence
  | .renewLease id' fence' _ _ => id' = id ∧ fence' = fence
  | _ => False

/-- A fence never falls, and rises with every claim. -/
def FenceRises (s : Db) (a : Action) (t : Db) : Prop :=
  ∀ id row, s.rows id = some row → ∃ row', t.rows id = some row' ∧ row.fence ≤ row'.fence ∧
    (Action.claims id a → row.fence < row'.fence)

/-- A write under a fence that is no longer the row's leaves the table as it is. -/
def StaleWriteIgnored (s : Db) (a : Action) (t : Db) : Prop :=
  ∀ id fence, Action.writesAs id fence a → (∀ row, s.rows id = some row → row.fence ≠ fence) →
    t.rows = s.rows

/-- A row in a terminal state stays in it. -/
def TerminalKept (s : Db) (_ : Action) (t : Db) : Prop :=
  RowsRel (fun row row' => row.state.terminal = true → row'.state = row.state) s t

/-- A request is started under a fence that an attempt row carries. -/
def SendEvidenced (s : Db) (a : Action) (_ : Db) : Prop :=
  ∀ id fence, a = .send id fence → ∃ b ∈ s.attempts, b.outboxId = id ∧ b.fence = fence

/-- What fencing promises of a run. -/
structure Fenced (policy : RetryPolicy) (acts : List Action) : Prop where
  fence : (machine policy).EachMove acts FenceRises
  stale : (machine policy).EachMove acts StaleWriteIgnored
  terminal : (machine policy).EachMove acts TerminalKept
  evidence : (machine policy).EachMove acts SendEvidenced
  unique : (machine policy).Always acts fun s =>
    (s.attempts.map fun b => (b.outboxId, b.attempt)).Nodup

/-- The `UPDATE` of `expireOverdue` reaches no row that has been delivered, failed or dead-lettered
since its sub-select chose it. -/
def ExpiresUnsettled (s : Db) : Action → Prop
  | .expireRow _ id => ∀ row, s.rows id = some row → row.state.terminal = true →
      row.state = .expired
  | _ => True

theorem fenceRises_of_step {policy : RetryPolicy} {s t : Db} (hr : (machine policy).Reachable s)
    (h : step policy s a = some t) : FenceRises s a t := by
  intro id row hrow
  by_cases ha : ∃ worker i, a = .expireRow worker i
  · obtain ⟨worker, i, rfl⟩ := ha
    obtain ⟨old, hold, ht⟩ := expireRow_spec h
    by_cases hid : id = i
    · subst hid
      obtain rfl : old = row := by simpa [hold] using hrow
      exact ⟨expiredRow old, by rw [ht, setRow_rows_self], Nat.le_succ _, False.elim⟩
    · exact ⟨row, by rw [ht, setRow_rows_of_ne _ _ hid, hrow], le_rfl, False.elim⟩
  · obtain ⟨row', hrow', hlawful⟩ :=
      step_lawful (reachable_inv hr) h (fun w i e => ha ⟨w, i, e⟩) id row hrow
    refine ⟨row', hrow', hlawful.fence, fun hclaims => ?_⟩
    cases a with
    | claimDue ids now =>
      obtain ⟨row'', hrow'', hlt⟩ := claimDue_fence h hclaims hrow
      obtain rfl : row' = row'' := by simpa [hrow'] using hrow''
      exact hlt
    | _ => exact hclaims.elim

theorem staleWriteIgnored_of_step {policy : RetryPolicy} {s t : Db} (h : step policy s a = some t) :
    StaleWriteIgnored s a t := by
  intro id fence hwrites hstale
  cases a with
  | recordOutcome id' fence' outcome random now =>
    obtain ⟨rfl, rfl⟩ := hwrites
    obtain ⟨n, -, rfl⟩ := step_recordOutcome h
    exact (recordOutcome_spec policy s id' fence' n outcome random now).lost hstale
  | deferRow id' fence' delaySeconds now =>
    obtain ⟨rfl, rfl⟩ := hwrites
    obtain ⟨n, -, rfl⟩ := step_deferRow h
    exact (deferRow_spec s id' fence' n delaySeconds now).1.lost hstale
  | renewLease id' fence' now answered =>
    obtain ⟨rfl, rfl⟩ := hwrites
    obtain ⟨n, -, rfl⟩ := step_renewLease h
    exact (renewLease_spec s id' fence' now).lost hstale
  | _ => exact hwrites.elim

theorem sendEvidenced_of_step {policy : RetryPolicy} {s t : Db} (hr : (machine policy).Reachable s)
    (h : step policy s a = some t) : SendEvidenced s a t := by
  rintro id fence rfl
  obtain ⟨n, hwork, -⟩ := step_send h
  obtain ⟨b, hb, hkey⟩ := List.mem_map.mp ((reachable_inv hr).evidence (live_of_renewed hwork))
  obtain ⟨hid, hrest⟩ := Prod.mk.inj hkey
  exact ⟨b, hb, hid, (Prod.mk.inj hrest).2⟩

/-- A step takes a row out of its terminal state exactly if it is an expiry that comes too late. -/
theorem terminalKept_iff {policy : RetryPolicy} {s t : Db} (hr : (machine policy).Reachable s)
    (h : step policy s a = some t) : TerminalKept s a t ↔ ExpiresUnsettled s a := by
  by_cases ha : ∃ worker i, a = .expireRow worker i
  · obtain ⟨worker, i, rfl⟩ := ha
    obtain ⟨old, hold, ht⟩ := expireRow_spec h
    constructor
    · intro hkept row hrow hterminal
      obtain ⟨row', hrow', hstate⟩ := hkept i row hrow
      obtain rfl : expiredRow old = row' := by simpa [ht] using hrow'
      exact (hstate hterminal).symm
    · intro hexpires
      exact .of_setRow (fun _ _ => rfl) ht hold fun hterminal =>
        (hexpires old hold hterminal).symm
  · have hlawful := step_lawful (reachable_inv hr) h fun w i e => ha ⟨w, i, e⟩
    constructor
    · intro _
      cases a with
      | expireRow worker i => exact absurd ⟨worker, i, rfl⟩ ha
      | _ => trivial
    · intro _ id row hrow
      obtain ⟨row', hrow', hl⟩ := hlawful id row hrow
      exact ⟨row', hrow', hl.terminal⟩

/-- A run is fenced exactly if no expiry in it comes too late for the row that it chose. -/
theorem fenced_iff (policy : RetryPolicy) (acts : List Action) :
    Fenced policy acts ↔ (machine policy).EachStep acts ExpiresUnsettled := by
  have hterminal : (machine policy).EachMove acts TerminalKept ↔
      (machine policy).EachStep acts ExpiresUnsettled := by
    refine Machine.eachMove_iff_eachStep (fun s a t hr hs => ?_) acts
    exact terminalKept_iff hr hs
  constructor
  · exact fun h => hterminal.mp h.terminal
  · intro h
    exact
      { fence := .of_reachable (fun _ _ _ hr hs => fenceRises_of_step hr hs) acts
        stale := .of_reachable (fun _ _ _ _ hs => staleWriteIgnored_of_step hs) acts
        terminal := hterminal.mpr h
        evidence := .of_reachable (fun _ _ _ hr hs => sendEvidenced_of_step hr hs) acts
        unique := .of_reachable (fun _ hr => (reachable_inv hr).unique) acts }

/-- The expiry chooses an abandoned row, its late worker commits `delivered`, and the `UPDATE` then
turns the delivered row into an expired one. -/
theorem late_expiry_not_fenced :
    ¬Fenced ⟨20, 1⟩
      [.enqueue 1 0, .claimDue [1] 0, .renewLease 1 1 0 true, .send 1 1,
        .expireScan 7 [1] 3600000, .recordOutcome 1 1 (.delivered none) 0 3600000,
        .expireRow 7 1] := by
  intro h
  obtain ⟨s, t, hs, ht, hbefore, hafter⟩ : ∃ s t,
      (machine ⟨20, 1⟩).exec
        [.enqueue 1 0, .claimDue [1] 0, .renewLease 1 1 0 true, .send 1 1,
          .expireScan 7 [1] 3600000, .recordOutcome 1 1 (.delivered none) 0 3600000] = some s ∧
      (machine ⟨20, 1⟩).step s (.expireRow 7 1) = some t ∧
      (s.rows 1).map (·.state) = some .delivered ∧ (t.rows 1).map (·.state) = some .expired :=
    ⟨_, _, rfl, rfl, rfl, rfl⟩
  obtain ⟨row, hrow, hstate⟩ := Option.map_eq_some_iff.mp hbefore
  obtain ⟨row', hrow', hkept⟩ := h.terminal _ _ List.prefix_rfl s t hs ht 1 row hrow
  rw [hrow', Option.map_some, hkept (by rw [hstate]; rfl), hstate] at hafter
  cases hafter

/-- Even a late expiry leaves a settled row settled: what is overwritten is the way it was
settled. -/
theorem settled_stays_settled (policy : RetryPolicy) (acts : List Action) :
    (machine policy).EachMove acts fun s _ t =>
      RowsRel (fun row row' => row.state.terminal = true → row'.state.terminal = true) s t := by
  refine .of_reachable (fun s a t hr hs => ?_) acts
  change step policy s a = some t at hs
  by_cases ha : ∃ worker i, a = .expireRow worker i
  · obtain ⟨worker, i, rfl⟩ := ha
    obtain ⟨old, hold, ht⟩ := expireRow_spec hs
    exact .of_setRow (fun _ h => h) ht hold fun _ => rfl
  · intro id row hrow
    obtain ⟨row', hrow', hl⟩ :=
      step_lawful (reachable_inv hr) hs (fun w i e => ha ⟨w, i, e⟩) id row hrow
    exact ⟨row', hrow', fun h => by rwa [hl.terminal h]⟩

end Vigil.Notifications.Fencing
