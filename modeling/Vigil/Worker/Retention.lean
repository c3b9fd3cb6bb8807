import Vigil.Incidents.EvidenceStore
import Vigil.Lib.Drain

/-! The loops of `worker/jobs/retention.ts`: old checks, old polls of a bridge, and the evidence of
incidents that were resolved long ago.  Each statement deletes a batch, and which rows are in it is
left to the plans of PostgreSQL. -/

namespace Vigil.Worker.Retention

open Lib.Drain
open Incidents.EvidenceStore (EvidenceRow inScope prunable)

/-- The columns of `monitor_checks` that the loop reads. -/
structure MonitorCheck where
  id : ℕ
  monitorId : ℕ
  checkedAt : ℤ
  deriving DecidableEq

/-- A poll of a bridge that was recorded. -/
structure BridgePoll where
  id : ℕ
  organizationId : String
  createdAt : ℤ
  deriving DecidableEq

/-- The tables that the retention job works on. -/
structure World where
  /-- Each monitor and its organization. -/
  monitors : List (ℕ × String)
  checks : List MonitorCheck
  polls : List BridgePoll
  store : Incidents.EvidenceStore.World

/-- Which rows the statements of the three loops choose. -/
structure Plans where
  checks : Plan MonitorCheck
  polls : Plan BridgePoll
  evidence : Plan EvidenceRow

/-- What the job writes to its log. -/
structure Report where
  deleted : ℕ
  batches : ℕ
  bridgePollsPruned : ℕ
  evidence : ℕ
  deriving DecidableEq, Repr

def pruneBatch : ℕ := 5000

def dayMs : ℤ := 86400000

/-- `CHECK_RETENTION_DAYS` before `now`. -/
def cutoff (now : ℤ) : ℤ := now - 90 * dayMs

/-- `EVIDENCE_RETENTION_DAYS` before `now`. -/
def evidenceCutoff (now : ℤ) : ℤ := now - 365 * dayMs

/-- A check counts for the organization of its monitor. -/
def expiredCheck (s : World) (now : ℤ) (organizationId : Option String) (check : MonitorCheck) :
    Bool :=
  check.checkedAt < cutoff now &&
    organizationId.all fun organization =>
      organization = "" ||
        s.monitors.any fun monitor => monitor.1 = check.monitorId && monitor.2 = organization

def expiredPoll (now : ℤ) (organizationId : Option String) (poll : BridgePoll) : Bool :=
  poll.createdAt < cutoff now && inScope organizationId poll.organizationId

/-- The evidence is cleared for every organization, whichever the job was asked for. -/
def expiredEvidence (s : World) (now : ℤ) (row : EvidenceRow) : Bool :=
  prunable s.store (evidenceCutoff now) none row

/-- One loop over a table with these keys. -/
def clear {α : Type} (key : α → ℕ) (p : α → Bool) (plan : Plan α) (fuel : ℕ) (rows : List α) :
    Option (ℕ × ℕ × List α) :=
  drain pruneBatch
    (fun n rest => rest.filter fun a => key a ∉ (plan.select p pruneBatch n rest).map key)
    fuel 0 0 rows

/-- `pruneOldChecks`, and `pruneIncidentEvidence` as it calls it. -/
def pruneOldChecks (plans : Plans) (fuel : ℕ) (now : ℤ) (organizationId : Option String)
    (s : World) : Option (Report × World) := do
  let (batches, deleted, checks) ←
    clear (·.id) (expiredCheck s now organizationId) plans.checks fuel s.checks
  let (_, bridgePollsPruned, polls) ←
    clear (·.id) (expiredPoll now organizationId) plans.polls fuel s.polls
  let (_, evidence, rows) ←
    clear (·.incidentId) (expiredEvidence s now) plans.evidence fuel s.store.evidence
  return ({ deleted, batches, bridgePollsPruned, evidence },
    { s with checks, polls, store := { s.store with evidence := rows } })

/-- The keys of a table are unique. -/
structure Keyed (s : World) : Prop where
  checks : (s.checks.map (·.id)).Nodup
  polls : (s.polls.map (·.id)).Nodup
  evidence : (s.store.evidence.map (·.incidentId)).Nodup

/-- One batch more than the full ones is enough for a loop, and it deletes what is old. -/
theorem clear_eq {α : Type} {key : α → ℕ} {p : α → Bool} {rows : List α} (plan : Plan α)
    (hunique : (rows.map key).Nodup) {fuel : ℕ} (hfuel : rows.length < fuel) :
    clear key p plan fuel rows =
      some (rows.countP p / pruneBatch + 1, rows.countP p, rows.filter (!p ·)) := by
  have hdelete (n : ℕ) (rest : List α) (hsub : rest.Sublist rows) :
      Deletes p pruneBatch rest
        (rest.filter fun a => key a ∉ (plan.select p pruneBatch n rest).map key) :=
    (plan.picks n (hunique.sublist (hsub.map key))).deletes (hunique.sublist (hsub.map key))
  have hbatches : rows.countP p / pruneBatch < fuel := by
    have hcount : rows.countP p ≤ rows.length := List.countP_le_length
    have hdiv := Nat.div_le_self (rows.countP p) pruneBatch
    omega
  rw [clear, drain_eq hdelete (by decide) hbatches, Nat.zero_add, Nat.zero_add]

/-- A statement of the loop over the evidence is a step of its table. -/
theorem prune_step {s : World} {now : ℤ} {rest : List EvidenceRow} {n : ℕ} (plan : Plan EvidenceRow)
    (hunique : (rest.map (·.incidentId)).Nodup) :
    let ids := (plan.select (expiredEvidence s now) pruneBatch n rest).map (·.incidentId)
    Incidents.EvidenceStore.step { s.store with evidence := rest }
        (.prune (evidenceCutoff now) none ids) =
      some { s.store with evidence := rest.filter fun row => row.incidentId ∉ ids } := by
  intro ids
  apply if_pos
  apply List.all_eq_true.mpr
  intro row hrow
  apply decide_eq_true
  intro hid
  obtain ⟨other, hother, hsame, hexpired⟩ := (plan.picks n hunique).found row.incidentId hid
  rw [List.inj_on_of_nodup_map hunique hother hrow hsame] at hexpired
  exact hexpired

/-- Whichever rows the statements choose, the job ends; it has deleted the rows that are old, of
every table and of the organization that it was asked for, and no other row. -/
theorem retention_deletes_exactly (plans : Plans) {fuel : ℕ} (now : ℤ)
    (organizationId : Option String) {s : World} (hkeyed : Keyed s)
    (hfuel : s.checks.length + s.polls.length + s.store.evidence.length < fuel) :
    pruneOldChecks plans fuel now organizationId s =
      some
        ({ deleted := s.checks.countP (expiredCheck s now organizationId)
           batches := s.checks.countP (expiredCheck s now organizationId) / pruneBatch + 1
           bridgePollsPruned := s.polls.countP (expiredPoll now organizationId)
           evidence := s.store.evidence.countP (expiredEvidence s now) },
          { s with
            checks := s.checks.filter (!expiredCheck s now organizationId ·)
            polls := s.polls.filter (!expiredPoll now organizationId ·)
            store := { s.store with
              evidence := s.store.evidence.filter (!expiredEvidence s now ·) } }) := by
  have hchecks := clear_eq (p := expiredCheck s now organizationId) plans.checks hkeyed.checks
    (show s.checks.length < fuel by omega)
  have hpolls := clear_eq (p := expiredPoll now organizationId) plans.polls hkeyed.polls
    (show s.polls.length < fuel by omega)
  have hevidence := clear_eq (p := expiredEvidence s now) plans.evidence hkeyed.evidence
    (show s.store.evidence.length < fuel by omega)
  rw [pruneOldChecks, hchecks, hpolls, hevidence]
  rfl

/-- The plan that meets the rows in the order of the table. -/
def sequential (α : Type) : Plan α := ⟨fun _ rows => rows, fun _ rows => .refl rows⟩

def samplePlans : Plans :=
  ⟨sequential _, ⟨fun _ rows => rows.reverse, fun _ rows => List.reverse_perm rows⟩,
    sequential _⟩

/-- A day's worth of old rows and new ones, of two organizations. -/
def sampleWorld : World where
  monitors := [(0, "acme"), (1, "umbrella")]
  checks := [⟨0, 0, 0⟩, ⟨1, 1, 0⟩, ⟨2, 0, 100 * dayMs⟩]
  polls := [⟨0, "acme", 0⟩, ⟨1, "acme", 5⟩]
  store := (Incidents.EvidenceStore.machine []).init

theorem sample_retention :
    pruneOldChecks samplePlans 10 (100 * dayMs) (some "acme") sampleWorld =
      some ({ deleted := 1, batches := 1, bridgePollsPruned := 2, evidence := 0 },
        { sampleWorld with checks := [⟨1, 1, 0⟩, ⟨2, 0, 100 * dayMs⟩], polls := [] }) :=
  retention_deletes_exactly samplePlans (100 * dayMs) (some "acme")
    ⟨by decide, by decide, by decide⟩ (by decide)

end Vigil.Worker.Retention
