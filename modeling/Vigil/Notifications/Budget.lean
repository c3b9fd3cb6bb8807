import Vigil.Notifications.Fencing

/-! The attempt budget of the outbox over whole runs.  A claim spends an attempt and only the record
of an outcome compares what was spent with the budget, so the claims that were not deferred are
counted beside the tables. -/

namespace Vigil.Notifications.Budget

open Lib Outbox Fencing

/-- The outbox, with the claims that were made of it. -/
structure World where
  db : Outbox.Db
  /-- The row and the fence of every claim that was not deferred. -/
  started : List (ℕ × ℕ)

def claimRow (now : ℤ) (s : World) (id : ℕ) : Option World :=
  (Outbox.claimRow now s.db id).map fun db =>
    { db, started := (id, (db.rows id).elim 0 (·.fence)) :: s.started }

def step (policy : RetryPolicy) (s : World) : Action → Option World
  | .claimDue ids now => ids.foldlM (claimRow now) s
  | .deferRow id fence delaySeconds now =>
    (Outbox.step policy s.db (.deferRow id fence delaySeconds now)).map fun db =>
      { db, started := s.started.filter (· ≠ (id, fence)) }
  | a => (Outbox.step policy s.db a).map fun db => { s with db }

def machine (policy : RetryPolicy) : Machine World Action where
  init := ⟨(Outbox.machine policy).init, []⟩
  step := step policy

/-- The sends that were started for a row. -/
def World.sends (s : World) (id : ℕ) : ℕ := s.started.countP (·.1 = id)

/-- No row that is not terminal has had more sends than attempts are allowed. -/
def InBudget (policy : RetryPolicy) (s : World) : Prop :=
  ∀ id row, s.db.rows id = some row → row.state.terminal = false → s.sends id ≤ policy.maxAttempts

/-- A claim takes no row whose attempts are spent. -/
def ClaimsUnspent (policy : RetryPolicy) (s : World) : Action → Prop
  | .claimDue ids now => ∀ id ∈ ids, ∀ row, s.db.rows id = some row → due row now = true →
      row.attempts < policy.maxAttempts
  | _ => True

/-! ### The count beside the tables changes nothing -/

theorem foldlM_claimRow_db (now : ℤ) (ids : List ℕ) (s : World) :
    (ids.foldlM (claimRow now) s).map (·.db) = ids.foldlM (Outbox.claimRow now) s.db := by
  induction ids generalizing s with
  | nil => rfl
  | cons id rest ih =>
    simp only [List.foldlM_cons]
    cases h : Outbox.claimRow now s.db id with
    | none => simp [claimRow, h]
    | some db =>
      simp only [claimRow, h, Option.map_some, Option.bind_eq_bind, Option.bind_some]
      exact ih _

theorem step_db (policy : RetryPolicy) (s : World) (a : Action) :
    (step policy s a).map (·.db) = Outbox.step policy s.db a := by
  cases a with
  | claimDue ids now => exact foldlM_claimRow_db now ids s
  | _ => simp [step, Function.comp_def]

/-! ### What a step spends -/

/-- The attempts on the row, if it is there. -/
def spent (db : Outbox.Db) (id : ℕ) : ℕ := (db.rows id).elim 0 (·.attempts)

variable {db : Outbox.Db} {id : ℕ} {row : OutboxRow} {policy : RetryPolicy} {s t : World} {now : ℤ}

theorem spent_eq (h : db.rows id = some row) : spent db id = row.attempts := by
  rw [spent, h]
  rfl

theorem spent_setRow_self :
    spent (db.setRow id row) id = row.attempts := spent_eq (setRow_rows_self db id row)

theorem spent_setRow_of_ne {id other : ℕ} (h : other ≠ id) :
    spent (db.setRow id row) other = spent db other := by
  rw [spent, setRow_rows_of_ne _ _ h, spent]

/-- Nothing is given back, and no claim appears. -/
structure Keeps (s t : Outbox.Db) : Prop where
  spent : ∀ id, spent s id ≤ spent t id
  held : ∀ id fence n, t.work id fence = .held n → s.work id fence = .held n

theorem keeps_of_rows {s t : Outbox.Db} (hrows : t.rows = s.rows) (hwork : t.work = s.work) :
    Keeps s t where
  spent id := by simp [Budget.spent, hrows]
  held id fence n h := hwork ▸ h

theorem keeps_setRow {s : Outbox.Db} (h : spent s id ≤ row.attempts) :
    Keeps s (s.setRow id row) where
  spent other := by
    by_cases hother : other = id
    · subst hother
      rwa [spent_setRow_self]
    · rw [spent_setRow_of_ne hother]
  held _ _ _ h := h

theorem Keeps.setWork {s t : Outbox.Db} (h : Keeps s t) {id fence : ℕ} {work : Work}
    (hwork : ∀ n, work ≠ .held n) : Keeps s (t.setWork id fence work) where
  spent := h.spent
  held id' fence' n hheld := by
    by_cases hkey : id' = id ∧ fence' = fence
    · obtain ⟨rfl, rfl⟩ := hkey
      rw [setWork_self] at hheld
      exact absurd hheld (hwork n)
    · rw [setWork_of_ne _ _ hkey] at hheld
      exact h.held id' fence' n hheld

theorem outcomeRow_attempts (policy : RetryPolicy) (row : OutboxRow) (attempts : ℕ)
    (outcome : DeliveryOutcome) (random : ℚ) (now : ℤ) :
    (outcomeRow policy row attempts outcome random now).attempts = row.attempts := by
  unfold outcomeRow
  cases outcome <;> dsimp only <;> split <;> try split
  all_goals rfl

theorem step_keeps {s t : Outbox.Db} {a : Action} (hclaim : ∀ ids now, a ≠ .claimDue ids now)
    (hdefer : ∀ id fence delaySeconds now, a ≠ .deferRow id fence delaySeconds now)
    (hs : Outbox.step policy s a = some t) : Keeps s t := by
  cases a with
  | claimDue ids now => exact absurd rfl (hclaim ids now)
  | deferRow id fence delaySeconds now => exact absurd rfl (hdefer id fence delaySeconds now)
  | enqueue id now =>
    obtain ⟨hnone, row, rfl⟩ := enqueue_spec hs
    refine keeps_setRow ?_
    rw [spent, hnone]
    exact Nat.zero_le _
  | renewLease id fence now answered =>
    obtain ⟨n, -, rfl⟩ := step_renewLease hs
    have hrenewed : Keeps s (renewLease s id fence now).1 := by
      unfold renewLease
      split
      · exact keeps_of_rows rfl rfl
      · rename_i row hrow
        split
        · exact keeps_setRow (spent_eq hrow).le
        · exact keeps_of_rows rfl rfl
    refine hrenewed.setWork fun n => ?_
    split_ifs <;> simp
  | send id fence =>
    obtain ⟨n, -, rfl⟩ := step_send hs
    exact (keeps_of_rows rfl rfl).setWork (by simp)
  | throw id fence =>
    obtain ⟨n, -, rfl⟩ := step_throw hs
    exact (keeps_of_rows rfl rfl).setWork (by simp)
  | recordOutcome id fence outcome random now =>
    obtain ⟨n, -, rfl⟩ := step_recordOutcome hs
    refine Keeps.setWork ?_ (by simp)
    unfold recordOutcome
    dsimp only
    split
    · exact keeps_of_rows rfl rfl
    · rename_i row hfilter
      obtain ⟨hrow, -⟩ := Option.filter_eq_some_iff.mp hfilter
      have hset : Keeps s (s.setRow id (outcomeRow policy row n outcome random now)) :=
        keeps_setRow (by rw [spent_eq hrow, outcomeRow_attempts])
      exact ⟨hset.spent, hset.held⟩
  | expireScan worker ids now =>
    obtain ⟨-, ht⟩ := Option.ite_none_right_eq_some.mp hs
    cases ht
    exact keeps_of_rows rfl rfl
  | expireRow worker id =>
    obtain ⟨row, hrow, rfl⟩ := step_expireRow hs
    have hset : Keeps s (s.setRow id (expiredRow row)) := keeps_setRow (spent_eq hrow).le
    exact ⟨hset.spent, hset.held⟩
  | sweepStaleAttempts olderThan now =>
    cases hs
    exact keeps_of_rows rfl rfl

/-! ### Every send is paid for -/

/-- Each send that was started has an attempt on its row, and so has each claim that can still be
deferred. -/
structure Inv (s : World) : Prop where
  counted : ∀ id, s.sends id ≤ spent s.db id
  held : ∀ id fence n, s.db.work id fence = .held n → (id, fence) ∈ s.started

theorem Inv.keeps (h : Inv s) (hkeeps : Keeps s.db db) : Inv { s with db } where
  counted id := (h.counted id).trans (hkeeps.spent id)
  held id fence n hheld := h.held id fence n (hkeeps.held id fence n hheld)

theorem not_due_claimedRow (row : OutboxRow) (n : ℕ) (now : ℤ) :
    due (claimedRow row n now) now = false := by
  simp [due, claimedRow, leaseMs]

/-- A claim starts one send and spends one attempt, of a row that is due no more. -/
theorem claimRow_cases (hs : claimRow now s id = some t) :
    ∃ row n, s.db.rows id = some row ∧ due row now = true ∧ row.attempts < n ∧
      t.started = (id, row.fence + 1) :: s.started ∧
      t.db.rows = (s.db.setRow id (claimedRow row n now)).rows ∧
      t.db.work = (s.db.setWork id (row.fence + 1) (.held n)).work := by
  obtain ⟨db, hdb, rfl⟩ := Option.map_eq_some_iff.mp hs
  obtain ⟨row, n, hrow, hdue, hlt, -, rfl⟩ := claimRow_spec hdb
  refine ⟨row, n, hrow, hdue, hlt, ?_, rfl, rfl⟩
  simp only [setWork_rows, setRow_rows_self]
  rfl

theorem claimRow_sends {id other : ℕ} (hs : claimRow now s id = some t) :
    t.sends other = s.sends other + if other = id then 1 else 0 := by
  obtain ⟨row, n, -, -, -, hstarted, -, -⟩ := claimRow_cases hs
  simp [World.sends, hstarted, List.countP_cons, eq_comm]

theorem Inv.claimRow (h : Inv s) (hs : claimRow now s id = some t) : Inv t := by
  obtain ⟨row, n, hrow, -, hlt, hstarted, hrows, hwork⟩ := claimRow_cases hs
  refine ⟨fun other => ?_, fun id' fence m hheld => ?_⟩
  · rw [claimRow_sends hs, spent, hrows]
    have hold := h.counted other
    split
    · rename_i hother
      subst hother
      rw [spent_eq hrow] at hold
      change _ ≤ spent (s.db.setRow other (claimedRow row n now)) other
      rw [spent_setRow_self]
      exact (Nat.add_le_add_right hold 1).trans hlt
    · rename_i hother
      change _ ≤ spent (s.db.setRow id (claimedRow row n now)) other
      rw [spent_setRow_of_ne hother]
      exact hold
  · rw [hwork] at hheld
    rw [hstarted]
    by_cases hkey : id' = id ∧ fence = row.fence + 1
    · obtain ⟨rfl, rfl⟩ := hkey
      exact List.mem_cons_self
    · rw [setWork_of_ne _ _ hkey] at hheld
      exact List.mem_cons_of_mem _ (h.held id' fence m hheld)

theorem spent_deferRow (db : Outbox.Db) (id fence n : ℕ) (delaySeconds now : ℤ) (other : ℕ) :
    spent db other ≤
      spent (deferRow db id fence n delaySeconds now) other + if other = id then 1 else 0 := by
  unfold deferRow
  dsimp only
  split
  · exact Nat.le_add_right _ _
  · rename_i row hfilter
    obtain ⟨hrow, -⟩ := Option.filter_eq_some_iff.mp hfilter
    by_cases hother : other = id
    · subst hother
      rw [spent_eq hrow, spent_setRow_self, if_pos rfl]
      dsimp only
      split <;> omega
    · rw [spent_setRow_of_ne hother]
      exact Nat.le_add_right _ _

theorem deferRow_work (db : Outbox.Db) (id fence n : ℕ) (delaySeconds now : ℤ) :
    (deferRow db id fence n delaySeconds now).work = db.work := by
  unfold deferRow
  dsimp only
  split <;> rfl

/-- A deferral takes its send back, and gives back at most one attempt of its own row. -/
theorem Inv.deferRow {id fence : ℕ} {delaySeconds now : ℤ} (h : Inv s)
    (hs : Outbox.step policy s.db (.deferRow id fence delaySeconds now) = some db) :
    Inv { db, started := s.started.filter (· ≠ (id, fence)) } := by
  obtain ⟨n, hheld, rfl⟩ := step_deferRow hs
  have hmem := h.held id fence n hheld
  refine ⟨fun other => ?_, fun id' fence' m hheld' => ?_⟩
  · have hcount := List.countP_eq_countP_filter_add s.started (fun claim => claim.1 = other)
      fun claim => decide (claim ≠ (id, fence))
    have hspent := spent_deferRow s.db id fence n delaySeconds now other
    have hold : s.started.countP (·.1 = other) ≤ spent s.db other := h.counted other
    change List.countP _ (s.started.filter _) ≤
      spent (Outbox.deferRow s.db id fence n delaySeconds now) other
    split at hspent
    · rename_i hother
      -- the claim itself is among the sends of its row that are filtered out
      have hpos : 0 < (s.started.filter fun claim => !decide (claim ≠ (id, fence))).countP
          fun claim => claim.1 = other :=
        List.countP_pos_iff.mpr ⟨(id, fence), List.mem_filter.mpr ⟨hmem, by simp⟩,
          by simp [hother]⟩
      omega
    · omega
  · by_cases hkey : id' = id ∧ fence' = fence
    · obtain ⟨rfl, rfl⟩ := hkey
      rw [setWork_self] at hheld'
      cases hheld'
    · rw [setWork_of_ne _ _ hkey, deferRow_work] at hheld'
      exact List.mem_filter.mpr ⟨h.held id' fence' m hheld', by simp [hkey]⟩

/-! ### Every run -/

theorem foldlM_claimRow_inv {ids : List ℕ} (h : Inv s) (hs : ids.foldlM (claimRow now) s = some t) :
    Inv t := by
  induction ids generalizing s with
  | nil =>
    cases hs
    exact h
  | cons id rest ih =>
    obtain ⟨r, hr, hs⟩ := Option.bind_eq_some_iff.mp hs
    exact ih (h.claimRow hr) hs

theorem step_cases {a : Action} (hs : step policy s a = some t) :
    (∃ ids now, a = .claimDue ids now ∧ ids.foldlM (claimRow now) s = some t) ∨
    (∃ id fence delaySeconds now db, a = .deferRow id fence delaySeconds now ∧
      Outbox.step policy s.db a = some db ∧
      t = { db, started := s.started.filter (· ≠ (id, fence)) }) ∨
    ∃ db, t = { s with db } ∧ Keeps s.db db := by
  cases a with
  | claimDue ids now => exact .inl ⟨ids, now, rfl, hs⟩
  | deferRow id fence delaySeconds now =>
    obtain ⟨db, hdb, rfl⟩ := Option.map_eq_some_iff.mp hs
    exact .inr (.inl ⟨id, fence, delaySeconds, now, db, rfl, hdb, rfl⟩)
  | _ =>
    simp only [step] at hs
    obtain ⟨db, hdb, rfl⟩ := Option.map_eq_some_iff.mp hs
    exact .inr (.inr ⟨db, rfl, step_keeps (by simp) (by simp) hdb⟩)

theorem step_inv {a : Action} (h : Inv s) (hs : step policy s a = some t) : Inv t := by
  obtain ⟨ids, now, rfl, hs⟩ | ⟨id, fence, delaySeconds, now, db, rfl, hdb, rfl⟩ |
    ⟨db, rfl, hkeeps⟩ := step_cases hs
  · exact foldlM_claimRow_inv h hs
  · exact h.deferRow hdb
  · exact h.keeps hkeeps

theorem reachable_inv (h : (machine policy).Reachable s) : Inv s := by
  refine h.induct (P := Inv) ?_ fun s a t _ hinv hs => step_inv hinv hs
  exact ⟨fun _ => le_rfl, nofun⟩

/-- The sends of no row exceed the budget. -/
def Affordable (policy : RetryPolicy) (s : World) : Prop := ∀ id, s.sends id ≤ policy.maxAttempts

/-- The claims of one transaction, each of a row that has an attempt left. -/
theorem foldlM_claimRow_affordable {ids : List ℕ} (hinv : Inv s) (h : Affordable policy s)
    (hunspent : ∀ id ∈ ids, ∀ row, s.db.rows id = some row → due row now = true → row.attempts <
      policy.maxAttempts) (hs : ids.foldlM (claimRow now) s = some t) : Affordable policy t := by
  induction ids generalizing s with
  | nil =>
    cases hs
    exact h
  | cons id rest ih =>
    obtain ⟨r, hr, hs⟩ := Option.bind_eq_some_iff.mp hs
    obtain ⟨row, n, hrow, hdue, -, -, hrows, -⟩ := claimRow_cases hr
    refine ih (hinv.claimRow hr) (fun other => ?_) (fun other hother row' hrow' hdue' => ?_) hs
    · rw [claimRow_sends hr]
      split
      · rename_i heq
        subst heq
        have hlt := hunspent other List.mem_cons_self row hrow hdue
        have hcounted := hinv.counted other
        rw [spent_eq hrow] at hcounted
        omega
      · exact h other
    · rw [hrows] at hrow'
      by_cases heq : other = id
      · -- the row has just been claimed, so it is not claimed again
        subst heq
        obtain rfl := Option.some.inj ((setRow_rows_self s.db other _).symm.trans hrow')
        rw [not_due_claimedRow] at hdue'
        cases hdue'
      · rw [setRow_rows_of_ne _ _ heq] at hrow'
        exact hunspent other (List.mem_cons_of_mem _ hother) row' hrow' hdue'

theorem step_affordable {a : Action} (hinv : Inv s) (h : Affordable policy s)
    (hunspent : ClaimsUnspent policy s a) (hs : step policy s a = some t) :
    Affordable policy t := by
  obtain ⟨ids, now, rfl, hs⟩ | ⟨id, fence, delaySeconds, now, db, -, -, rfl⟩ | ⟨db, rfl, -⟩ :=
    step_cases hs
  · exact foldlM_claimRow_affordable hinv h hunspent hs
  · exact fun other => (List.filter_sublist.countP_le).trans (h other)
  · exact h

/-- In every run whose claims take no row with its attempts spent, the sends of a row stay within
the budget. -/
theorem sends_in_budget (policy : RetryPolicy) (acts : List Action)
    (h : (machine policy).EachStep acts (ClaimsUnspent policy)) :
    (machine policy).Always acts (InBudget policy) := by
  have haffordable : (machine policy).Always acts (Affordable policy) := by
    refine .of_eachStep (G := ClaimsUnspent policy) (fun _ => Nat.zero_le _) ?_ h
    exact fun s a t hr haffordable hunspent hs =>
      step_affordable (reachable_inv hr) haffordable hunspent hs
  exact fun visited hpre s hs id _ _ _ => haffordable visited hpre s hs id

theorem one_send_in_budget :
    (machine ⟨20, 6⟩).Always [.enqueue 0 0, .claimDue [0] 0] (InBudget ⟨20, 6⟩) := by
  refine sends_in_budget ⟨20, 6⟩ _ ?_
  refine .cons fun s hs => ⟨trivial, .cons fun _ _ => ⟨?_, .nil⟩⟩
  intro id hid row hrow _
  cases hs
  obtain rfl := List.mem_singleton.mp hid
  cases hrow
  decide

/-- Every worker dies after its claim, and the row is claimed again as soon as the lease is over,
with the defaults of twenty attempts in six hours. -/
def crashingWorkers : List Action :=
  .enqueue 0 0 :: (List.range 21).map fun i => .claimDue [0] (i * leaseMs)

theorem crashing_workers_exceed_budget :
    ¬(machine ⟨20, 6⟩).Always crashingWorkers (InBudget ⟨20, 6⟩) := by
  intro h
  obtain ⟨s, hs, hstate, hsends⟩ : ∃ s, (machine ⟨20, 6⟩).exec crashingWorkers = some s ∧
      (∃ row, s.db.rows 0 = some row ∧ row.state = .sending) ∧ s.sends 0 = 21 :=
    ⟨_, rfl, ⟨_, rfl, rfl⟩, rfl⟩
  obtain ⟨row, hrow, hsending⟩ := hstate
  have hle := h _ List.prefix_rfl s hs 0 row hrow (by rw [hsending]; rfl)
  rw [hsends] at hle
  exact absurd hle (by decide)

end Vigil.Notifications.Budget
