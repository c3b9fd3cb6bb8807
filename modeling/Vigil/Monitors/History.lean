import Vigil.Monitors.Record
import Mathlib.Tactic.Common
import Mathlib.Order.Nat

/-! What the two stored fields `currentStatus` and `firstFailureAt` say about the whole history of a
monitor.  A history is a sequence of observations, each with the failure window in force when it was
recorded; the operator may edit the window between any two of them. -/

namespace Vigil.Monitors.History

open StatusController Record

structure Observation where
  outcome : CheckResult
  now : Int
  failureWindowSeconds : Int

abbrev Observation.verdict (o : Observation) : Verdict := o.outcome.verdict

def fresh (monitor : Monitor) : Monitor :=
  { monitor with currentStatus := .unknown, firstFailureAt := none, paused := false }

/-- One check: the row is read with the window in force and the outcome is recorded on it. -/
def observe (row : Monitor) (o : Observation) : Monitor × RecordedCheck :=
  let monitor := { row with failureWindowSeconds := o.failureWindowSeconds }
  recordCheckOutcome monitor monitor o.outcome o.now

/-- The row before observation `n`, that is, after the first `n` observations. -/
def rowBefore (monitor : Monitor) (obs : ℕ → Observation) : ℕ → Monitor
  | 0 => fresh monitor
  | n + 1 => (observe (rowBefore monitor obs n) (obs n)).1

def recorded (monitor : Monitor) (obs : ℕ → Observation) (i : ℕ) : RecordedCheck :=
  (observe (rowBefore monitor obs i) (obs i)).2

/-! ### The history in its own terms -/

/-- Every observation from `j` up to and excluding `n` was down. -/
def DownFrom (obs : ℕ → Observation) (j n : ℕ) : Prop :=
  ∀ k, j ≤ k → k < n → (obs k).verdict = .down

/-- Among the observations before `n`, the first down verdict since the last up or degraded one is
observation `j`. -/
structure FirstFailure (obs : ℕ → Observation) (n j : ℕ) : Prop where
  lt : j < n
  down : (obs j).verdict = .down
  unrecovered : ∀ k, j < k → k < n → (obs k).verdict.recovers = false
  first : ∀ k, k < j → (obs k).verdict = .down → ∃ m, k < m ∧ m < j ∧ (obs m).verdict.recovers = true

/-- The latest verdict before `n` other than down is that of observation `j`. -/
structure LatestNotDown (obs : ℕ → Observation) (n j : ℕ) : Prop where
  lt : j < n
  not_down : (obs j).verdict ≠ .down
  down_after : DownFrom obs (j + 1) n

/-- At observation `j` the run that began at `first` had lasted for the window then in force. -/
def WindowElapsed (obs : ℕ → Observation) (j : ℕ) (first : Int) : Prop :=
  (obs j).now - first ≥ (obs j).failureWindowSeconds * 1000

/-- The status that the history before `n` establishes apart from the failure window. -/
def Establishes (obs : ℕ → Observation) (n : ℕ) (status : MonitorStatus) : Prop :=
  (∃ j, LatestNotDown obs n j ∧ status = (obs j).verdict.established) ∨
    (DownFrom obs 0 n ∧ status = .unknown)

variable {j n : ℕ}

theorem DownFrom.succ {obs : ℕ → Observation} (h : DownFrom obs j n)
    (hn : (obs n).verdict = .down) : DownFrom obs j (n + 1) := by
  intro k hjk hk
  rcases Nat.lt_succ_iff_lt_or_eq.mp hk with hk | rfl
  · exact h k hjk hk
  · exact hn

theorem DownFrom.pred {obs : ℕ → Observation} (h : DownFrom obs j (n + 1)) : DownFrom obs j n :=
  fun k hjk hk => h k hjk (by omega)

theorem FirstFailure.succ {obs : ℕ → Observation} (h : FirstFailure obs n j)
    (hn : (obs n).verdict.recovers = false) : FirstFailure obs (n + 1) j := by
  refine ⟨by have := h.lt; omega, h.down, fun k hjk hk => ?_, h.first⟩
  rcases Nat.lt_succ_iff_lt_or_eq.mp hk with hk | rfl
  · exact h.unrecovered k hjk hk
  · exact hn

theorem FirstFailure.pred {obs : ℕ → Observation} (h : FirstFailure obs (n + 1) j) (hj : j < n) :
    FirstFailure obs n j :=
  ⟨hj, h.down, fun k hjk hk => h.unrecovered k hjk (by omega), h.first⟩

theorem FirstFailure.unique {obs : ℕ → Observation} {n j j' : ℕ} (h : FirstFailure obs n j)
    (h' : FirstFailure obs n j') : j = j' := by
  have key : ∀ {a b : ℕ}, FirstFailure obs n a → FirstFailure obs n b → ¬a < b := by
    intro a b ha hb hab
    obtain ⟨m, ham, hmb, hm⟩ := hb.first a hab ha.down
    have := ha.unrecovered m ham (Nat.lt_trans hmb hb.lt)
    simp [this] at hm
  rcases Nat.lt_trichotomy j j' with hlt | heq | hgt
  · exact absurd hlt (key h h')
  · exact heq
  · exact absurd hgt (key h' h)

/-- Without an open run of failures, every down verdict has been followed by a recovery. -/
theorem recovered_of_no_firstFailure {obs : ℕ → Observation} {n k : ℕ}
    (hnone : ∀ j, ¬FirstFailure obs n j) (hk : k < n) (hdown : (obs k).verdict = .down) :
    ∃ m, k < m ∧ m < n ∧ (obs m).verdict.recovers = true := by
  by_contra hcon
  -- the earliest down verdict that nothing followed would be the start of a run
  have hex : ∃ j, j < n ∧ (obs j).verdict = .down ∧
      ∀ m, j < m → m < n → (obs m).verdict.recovers = false :=
    ⟨k, hk, hdown, fun m hkm hmn => by
      by_contra hm
      exact hcon ⟨m, hkm, hmn, by simpa using hm⟩⟩
  classical
  obtain ⟨hjn, hjd, hjr⟩ := Nat.find_spec hex
  refine hnone (Nat.find hex) ⟨hjn, hjd, hjr, fun i hij hid => ?_⟩
  have hmin := Nat.find_min hex hij
  simp only [not_and, not_forall] at hmin
  obtain ⟨m, him, hmn, hm⟩ := hmin (Nat.lt_trans hij hjn) hid
  have hm' : (obs m).verdict.recovers = true := by simpa using hm
  rcases Nat.lt_trichotomy m (Nat.find hex) with hlt | heq | hgt
  · exact ⟨m, him, hlt, hm'⟩
  · rw [heq, hjd] at hm'
    simp [Verdict.recovers] at hm'
  · simp [hjr m hgt hmn] at hm'

theorem not_firstFailure_of_recovers {obs : ℕ → Observation} (h : (obs n).verdict.recovers = true)
    (j : ℕ) : ¬FirstFailure obs (n + 1) j := by
  intro hj
  rcases Nat.lt_succ_iff_lt_or_eq.mp hj.lt with hjn | rfl
  · have := hj.unrecovered n hjn (by omega)
    simp [this] at h
  · simp [hj.down, Verdict.recovers] at h

/-- A verdict that neither fails nor recovers leaves the run of failures as it is. -/
theorem firstFailure_succ_of_not_down {obs : ℕ → Observation}
    (hnot : (obs n).verdict.recovers = false) (hdown : (obs n).verdict ≠ .down) :
    FirstFailure obs (n + 1) j ↔ FirstFailure obs n j := by
  constructor
  · intro hj
    rcases Nat.lt_succ_iff_lt_or_eq.mp hj.lt with hjn | rfl
    · exact hj.pred hjn
    · exact absurd hj.down hdown
  · exact fun hj => hj.succ hnot

/-- A down verdict with no run of failures open begins one. -/
theorem firstFailure_succ_of_down {obs : ℕ → Observation} (hnone : ∀ j, ¬FirstFailure obs n j)
    (hdown : (obs n).verdict = .down) : FirstFailure obs (n + 1) j ↔ j = n := by
  constructor
  · intro hj
    rcases Nat.lt_succ_iff_lt_or_eq.mp hj.lt with hjn | rfl
    · exact absurd (hj.pred hjn) (hnone j)
    · rfl
  · rintro rfl
    exact ⟨by omega, hdown, fun k hk hk' => by omega,
      fun k hk hkd => recovered_of_no_firstFailure hnone hk hkd⟩

/-! ### One step -/

section Step

variable {monitor : Monitor} {obs : ℕ → Observation}

theorem rowBefore_paused (n : ℕ) : (rowBefore monitor obs n).paused = false := by
  induction n with
  | zero => rfl
  | succ n ih => simp [rowBefore, observe, ih]

/-- In a history without pauses every update finds the row that it was derived from. -/
theorem matches_rowBefore (n : ℕ) :
    UpdateMatches
      { rowBefore monitor obs n with failureWindowSeconds := (obs n).failureWindowSeconds }
      { rowBefore monitor obs n with failureWindowSeconds := (obs n).failureWindowSeconds } :=
  updateMatches_self (rowBefore_paused n)

theorem observe_eq (n : ℕ) :
    observe (rowBefore monitor obs n) (obs n) =
      (rowBefore monitor obs (n + 1),
        ⟨rowBefore monitor obs (n + 1),
          conclude { rowBefore monitor obs n with
            failureWindowSeconds := (obs n).failureWindowSeconds } (obs n).outcome (obs n).now⟩) := by
  simp only [rowBefore, observe, recordCheckOutcome_of_matches (matches_rowBefore n)]

theorem firstFailureAt_succ (n : ℕ) :
    (rowBefore monitor obs (n + 1)).firstFailureAt =
      advanceFailureRun (rowBefore monitor obs n).firstFailureAt (obs n).verdict (obs n).now := by
  simp [rowBefore, observe, recordCheckOutcome_of_matches (matches_rowBefore n)]

theorem currentStatus_succ (n : ℕ) :
    (rowBefore monitor obs (n + 1)).currentStatus =
      (conclude { rowBefore monitor obs n with
        failureWindowSeconds := (obs n).failureWindowSeconds } (obs n).outcome (obs n).now).status := by
  simp [rowBefore, observe, recordCheckOutcome_of_matches (matches_rowBefore n)]

theorem currentStatus_succ_of_ne_down {n : ℕ} (h : (obs n).verdict ≠ .down) :
    (rowBefore monitor obs (n + 1)).currentStatus = (obs n).verdict.established := by
  rw [currentStatus_succ]
  exact deriveStatus_of_ne_down h

/-- A down verdict establishes `down` when the window has elapsed, and otherwise leaves the status
as it was. -/
theorem currentStatus_succ_of_down {n : ℕ} {first : Int} (h : (obs n).verdict = .down)
    (hf : (rowBefore monitor obs (n + 1)).firstFailureAt = some first) :
    (rowBefore monitor obs (n + 1)).currentStatus =
      if (obs n).now - first ≥ (obs n).failureWindowSeconds * 1000 then .down
      else (rowBefore monitor obs n).currentStatus := by
  rw [firstFailureAt_succ] at hf
  rw [currentStatus_succ]
  exact deriveStatus_of_down h hf

theorem firstFailureAt_succ_of_down {n : ℕ} (h : (obs n).verdict = .down) :
    (rowBefore monitor obs (n + 1)).firstFailureAt =
      some ((rowBefore monitor obs n).firstFailureAt.getD (obs n).now) := by
  rw [firstFailureAt_succ, h]
  rfl

end Step

/-! ### The whole history -/

section Histories

variable {monitor : Monitor} {obs : ℕ → Observation}

/-- The stored run of failures began at the first down verdict since the last recovery. -/
theorem firstFailureAt_iff (n : ℕ) (t : Int) :
    (rowBefore monitor obs n).firstFailureAt = some t ↔
      ∃ j, FirstFailure obs n j ∧ t = (obs j).now := by
  induction n generalizing t with
  | zero =>
    constructor
    · intro h
      simp [rowBefore, fresh] at h
    · rintro ⟨j, hj, -⟩
      exact absurd hj.lt (by omega)
  | succ n ih =>
    by_cases hrec : (obs n).verdict.recovers = true
    · rw [firstFailureAt_succ, advanceFailureRun_recovers hrec]
      constructor
      · intro h
        cases h
      · rintro ⟨j, hj, -⟩
        exact absurd hj (not_firstFailure_of_recovers hrec j)
    · have hnot : (obs n).verdict.recovers = false := by simpa using hrec
      by_cases hdown : (obs n).verdict = .down
      · rw [firstFailureAt_succ_of_down hdown]
        cases hprev : (rowBefore monitor obs n).firstFailureAt with
        | some first =>
          obtain ⟨j, hj, hfirst⟩ := (ih first).mp hprev
          constructor
          · intro h
            obtain rfl : first = t := by simpa using h
            exact ⟨j, hj.succ hnot, hfirst⟩
          · rintro ⟨j', hj', rfl⟩
            rw [hj'.unique (hj.succ hnot), hfirst]
            rfl
        | none =>
          have hnone : ∀ j, ¬FirstFailure obs n j := by
            intro j hj
            have := (ih _).mpr ⟨j, hj, rfl⟩
            simp [hprev] at this
          constructor
          · intro h
            obtain rfl : (obs n).now = t := by simpa using h
            exact ⟨n, (firstFailure_succ_of_down hnone hdown).mpr rfl, rfl⟩
          · rintro ⟨j, hj, rfl⟩
            obtain rfl := (firstFailure_succ_of_down hnone hdown).mp hj
            rfl
      · have hind : (obs n).verdict = .indeterminate := by
          cases hv : (obs n).verdict <;> simp_all [Verdict.recovers]
        have hsame : (rowBefore monitor obs (n + 1)).firstFailureAt =
            (rowBefore monitor obs n).firstFailureAt := by
          rw [firstFailureAt_succ, hind]
          rfl
        simp only [hsame, ih, firstFailure_succ_of_not_down hnot hdown]

theorem firstFailureAt_isSome_of_down (monitor : Monitor) {n : ℕ} (h : (obs n).verdict = .down) :
    ∃ first, (rowBefore monitor obs (n + 1)).firstFailureAt = some first :=
  ⟨_, firstFailureAt_succ_of_down h⟩

theorem firstFailureAt_kept {n : ℕ} {first : Int} (h : (obs n).verdict = .down)
    (hf : (rowBefore monitor obs n).firstFailureAt = some first) :
    (rowBefore monitor obs (n + 1)).firstFailureAt = some first := by
  rw [firstFailureAt_succ_of_down h, hf]
  rfl

/-- The stored status is `down` exactly when the block of down verdicts that the history ends in
contains one whose window had elapsed. -/
theorem currentStatus_down_iff (n : ℕ) :
    (rowBefore monitor obs n).currentStatus = .down ↔
      ∃ j first, j < n ∧ DownFrom obs j n ∧
        (rowBefore monitor obs n).firstFailureAt = some first ∧ WindowElapsed obs j first := by
  induction n with
  | zero => simp [rowBefore, fresh]
  | succ n ih =>
    by_cases hdown : (obs n).verdict = .down
    · obtain ⟨first, hfirst⟩ := firstFailureAt_isSome_of_down monitor hdown
      rw [currentStatus_succ_of_down hdown hfirst]
      by_cases hel : (obs n).now - first ≥ (obs n).failureWindowSeconds * 1000
      · simp only [hel, if_true, true_iff]
        exact ⟨n, first, by omega, fun k hk hk' => by
          obtain rfl : k = n := by omega
          exact hdown, hfirst, hel⟩
      · simp only [hel, if_false]
        rw [ih]
        constructor
        · rintro ⟨j, f, hj, hblock, hf, hw⟩
          exact ⟨j, f, by omega, hblock.succ hdown, firstFailureAt_kept hdown hf, hw⟩
        · rintro ⟨j, f, hj, hblock, hf, hw⟩
          obtain rfl : first = f := by simpa [hfirst] using hf
          -- the last observation of the block is not the one whose window elapsed
          have hjn : j < n := by
            rcases Nat.lt_succ_iff_lt_or_eq.mp hj with hjn | rfl
            · exact hjn
            · exact absurd hw hel
          obtain ⟨m, rfl⟩ : ∃ m, n = m + 1 := ⟨n - 1, by omega⟩
          obtain ⟨f', hf'⟩ := firstFailureAt_isSome_of_down monitor
            (hblock m (by omega) (by omega))
          obtain rfl : f' = first := by simpa [firstFailureAt_kept hdown hf'] using hfirst
          exact ⟨j, f', hjn, hblock.pred, hf', hw⟩
    · rw [currentStatus_succ_of_ne_down hdown]
      constructor
      · intro h
        exact absurd h (established_ne_down _)
      · rintro ⟨j, -, hj, hblock, -⟩
        exact absurd (hblock n (by omega) (by omega)) hdown

theorem Establishes.succ_of_down {n : ℕ} {status : MonitorStatus}
    (h : Establishes obs n status) (hdown : (obs n).verdict = .down) :
    Establishes obs (n + 1) status := by
  rcases h with ⟨j, hj, hs⟩ | ⟨hall, hs⟩
  · exact Or.inl ⟨j, ⟨by have := hj.lt; omega, hj.not_down, hj.down_after.succ hdown⟩, hs⟩
  · exact Or.inr ⟨hall.succ hdown, hs⟩

/-- A stored status other than `down` is the one that the latest verdict other than down
established. -/
theorem currentStatus_establishes (n : ℕ)
    (h : (rowBefore monitor obs n).currentStatus ≠ .down) :
    Establishes obs n (rowBefore monitor obs n).currentStatus := by
  induction n with
  | zero => exact Or.inr ⟨fun k _ hk => by omega, rfl⟩
  | succ n ih =>
    by_cases hdown : (obs n).verdict = .down
    · obtain ⟨first, hfirst⟩ := firstFailureAt_isSome_of_down monitor hdown
      have hst := currentStatus_succ_of_down hdown hfirst
      by_cases hel : (obs n).now - first ≥ (obs n).failureWindowSeconds * 1000
      · simp only [hel, if_true] at hst
        exact absurd hst h
      · simp only [hel, if_false] at hst
        rw [hst] at h ⊢
        exact (ih h).succ_of_down hdown
    · rw [currentStatus_succ_of_ne_down hdown]
      exact Or.inl ⟨n, ⟨by omega, hdown, fun k hk hk' => by omega⟩, rfl⟩

@[simp] theorem recorded_monitor (i : ℕ) :
    (recorded monitor obs i).monitor = rowBefore monitor obs (i + 1) := by
  rw [recorded, observe_eq]

theorem recorded_status (i : ℕ) :
    (recorded monitor obs i).reconciliation.status =
      (rowBefore monitor obs (i + 1)).currentStatus := by
  rw [recorded, observe_eq, currentStatus_succ]

theorem recorded_openIncident (i : ℕ) :
    (recorded monitor obs i).reconciliation.openIncident = true ↔
      (rowBefore monitor obs (i + 1)).currentStatus = .down := by
  rw [← recorded_status, recorded, observe_eq]
  exact reconcile_openIncident _ _

theorem recorded_resolveIncidents {i : ℕ} (h : (obs i).verdict.recovers = false) :
    (recorded monitor obs i).reconciliation.resolveIncidents = false := by
  rw [recorded, observe_eq, ← Bool.not_eq_true]
  intro hres
  have hrec : (obs i).verdict.recovers = true := recovers_of_resolves hres
  simp [h] at hrec

end Histories

/-- The status controller over a whole history: after observation `i`, the stored start of the
failure run is the first down verdict since the last recovery; the status is `down` exactly when `i`
ends a block of down verdicts that contains one whose window had elapsed, and otherwise the status
that the latest verdict other than down established; an incident is asked for exactly when the
status is `down`; and neither a down nor an indeterminate verdict resolves one. -/
theorem recorded_history (monitor : Monitor) (obs : ℕ → Observation) (i : ℕ) :
    let r := recorded monitor obs i
    (∀ t, r.monitor.firstFailureAt = some t ↔
      ∃ j, FirstFailure obs (i + 1) j ∧ t = (obs j).now) ∧
    (r.monitor.currentStatus = .down ↔
      ∃ j first, j ≤ i ∧ DownFrom obs j (i + 1) ∧ r.monitor.firstFailureAt = some first ∧
        WindowElapsed obs j first) ∧
    (r.monitor.currentStatus ≠ .down → Establishes obs (i + 1) r.monitor.currentStatus) ∧
    r.reconciliation.status = r.monitor.currentStatus ∧
    (r.reconciliation.openIncident = true ↔ r.monitor.currentStatus = .down) ∧
    ((obs i).verdict = .down ∨ (obs i).verdict = .indeterminate →
      r.reconciliation.resolveIncidents = false) := by
  simp only [recorded_monitor, recorded_status]
  refine ⟨firstFailureAt_iff (i + 1), ?_, currentStatus_establishes (i + 1), trivial,
    recorded_openIncident i, fun hv => recorded_resolveIncidents ?_⟩
  · simpa only [Nat.lt_succ_iff] using currentStatus_down_iff (i + 1)
  · rcases hv with hv | hv <;> rw [hv] <;> rfl

end Vigil.Monitors.History
