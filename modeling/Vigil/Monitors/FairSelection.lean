import Vigil.Monitors.Dispatch
import Vigil.Notifications.DueRanking
import Mathlib.Data.Int.ConditionallyCompleteOrder
import Mathlib.Data.Prod.Lex

/-! The two queues that are drained fairly over tenants: the outbox, and the monitors that are due.
Both rank a tenant's due rows and take the best ranks, with different orders among equals. -/

namespace Vigil.Monitors.FairSelection

open Lib.Fair Dispatch Notifications.DueRanking

/-- The rows that are due. -/
def dueMonitors (rows : List Row) (now : ℤ) (organizationId : Option String) : List Row :=
  rows.filter (dueCondition unscheduledCheckTypeIds organizationId now)

/-- A monitor without a due time comes before all that have one. -/
def dueTime (r : Row) : WithBot ℤ := r.nextEvaluationAt.elim ⊥ fun next => (next : WithBot ℤ)

/-- What a tenant's monitors are ordered by. -/
def dueKey (r : Row) : WithBot ℤ ×ₗ ℕ := toLex (dueTime r, r.id)

theorem before_iff {a b : Row} : a.before b = true ↔ dueKey a < dueKey b := by
  rw [dueKey, dueKey, Prod.Lex.toLex_lt_toLex, Row.before, dueTime, dueTime]
  cases a.nextEvaluationAt with
  | none => cases b.nextEvaluationAt with
    | none => simp
    | some y => simp
  | some x => cases b.nextEvaluationAt with
    | none => simp
    | some y => simp

theorem before_eq_false_iff {a b : Row} : a.before b = false ↔ dueKey b ≤ dueKey a := by
  rw [← Bool.not_eq_true, before_iff, not_lt]

theorem ranked_monitors {due : List Row} (hids : (due.map (·.id)).Nodup) :
    Ranked (·.monitor.organizationId) Row.before due where
  nodup := hids.of_map _
  irrefl a _ := before_eq_false_iff.mpr le_rfl
  trans a _ b _ c _ hab hbc := before_iff.mpr ((before_iff.mp hab).trans (before_iff.mp hbc))
  total a ha b hb _ hne := by
    rw [before_iff, before_iff]
    refine lt_or_gt_of_ne fun heq => hne ?_
    exact List.inj_on_of_nodup_map hids ha hb (congrArg (fun key => (ofLex key).2) heq)

theorem findDueMonitors_fair {rows : List Row} (hids : (rows.map (·.id)).Nodup) (now : ℤ)
    (limit : ℕ) (organizationId : Option String) :
    ∃ selected, findDueMonitors rows now limit organizationId = selected.map (·.id) ∧
      IsFair (·.monitor.organizationId) Row.before (dueMonitors rows now organizationId) limit
        selected := by
  refine ⟨_, rfl, @isFair_take _ _ _ _ _ (fun a b => b.before a = false) _ _ _
    (ranked_monitors ?_) ?_ ?_ limit⟩
  · exact hids.sublist (List.filter_sublist.map _)
  · simp only [before_eq_false_iff]
    exact fun a b => le_total _ _
  · simp only [before_eq_false_iff]
    exact fun a b c => le_trans

/-- Both selections are fair over tenants. -/
theorem selections_fair :
    (∀ (rows : List Message) (now : ℤ) (limit : ℕ) (scope : Option String),
      (rows.map (·.id)).Nodup → ∃ selected,
        dueRankingSql rows now limit scope = selected.map (·.id) ∧
        IsFair (·.organizationId) Message.before (dueMessages rows now scope) limit selected) ∧
    (∀ (rows : List Row) (now : ℤ) (limit : ℕ) (organizationId : Option String),
      (rows.map (·.id)).Nodup → ∃ selected,
        findDueMonitors rows now limit organizationId = selected.map (·.id) ∧
        IsFair (·.monitor.organizationId) Row.before (dueMonitors rows now organizationId) limit
          selected) :=
  ⟨fun _ now limit scope hids => dueRankingSql_fair hids now limit scope,
    fun _ now limit organizationId hids => findDueMonitors_fair hids now limit organizationId⟩

def messageOf (id : ℕ) (organizationId : String) (nextAttemptAt : ℤ) : Message where
  id := id
  organizationId := organizationId
  row := { state := .queued, attempts := 0, nextAttemptAt := nextAttemptAt, leasedUntil := none
           fence := 0, lastClaimedAt := none, expiresAt := none, deliveredAt := none
           providerMessageId := none, lastError := none }

/-- Three messages of one tenant, all older than the only one of another. -/
def twoTenants : List Message :=
  [messageOf 1 "a" 10, messageOf 2 "a" 20, messageOf 3 "a" 30, messageOf 4 "b" 40]

example : dueRankingSql twoTenants 50 2 none = [1, 4] := by decide +kernel

theorem selections_fair_twoTenants : ∃ selected,
    dueRankingSql twoTenants 50 2 none = selected.map (·.id) ∧
    IsFair (·.organizationId) Message.before (dueMessages twoTenants 50 none) 2 selected :=
  selections_fair.1 twoTenants 50 2 none (by decide)

end Vigil.Monitors.FairSelection
