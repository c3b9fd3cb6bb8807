import Vigil.Lib.Fair
import Vigil.Notifications.Outbox
import Mathlib.Data.String.Basic

/-! `dueRankingSql` of `notifications/outbox.ts`: which due messages `claimDue` goes on to lock. -/

namespace Vigil.Notifications.DueRanking

open Lib.Fair Outbox

/-- A row of `notification_outbox` with the columns that name it and its tenant. -/
structure Message where
  id : ℕ
  organizationId : String
  row : OutboxRow
  deriving DecidableEq

/-- The `where` of the ranking. -/
def dueMessages (rows : List Message) (now : ℤ) (scope : Option String) : List Message :=
  rows.filter fun o => scope.all (o.organizationId = ·) && due o.row now

/-- `order by o.next_attempt_at, o.id`, within a tenant. -/
def Message.before (a b : Message) : Bool :=
  a.row.nextAttemptAt < b.row.nextAttemptAt ||
    a.row.nextAttemptAt = b.row.nextAttemptAt && a.id < b.id

/-- `next_attempt_at, organization_id`, among messages of one rank. -/
def Message.tie (a b : Message) : Prop :=
  a.row.nextAttemptAt < b.row.nextAttemptAt ∨
    a.row.nextAttemptAt = b.row.nextAttemptAt ∧ a.organizationId ≤ b.organizationId

instance : DecidableRel Message.tie := fun _ _ => inferInstanceAs (Decidable (_ ∨ _))

def dueRankingSql (rows : List Message) (now : ℤ) (limit : ℕ) (scope : Option String) : List ℕ :=
  let due := dueMessages rows now scope
  let ranked := due.insertionSort (byRank Message.tie (·.organizationId) Message.before due)
  (ranked.take limit).map (·.id)

theorem Message.before_iff {a b : Message} :
    a.before b = true ↔ a.row.nextAttemptAt < b.row.nextAttemptAt ∨
      a.row.nextAttemptAt = b.row.nextAttemptAt ∧ a.id < b.id := by
  simp [Message.before]

theorem ranked_messages {due : List Message} (hids : (due.map (·.id)).Nodup) :
    Ranked (·.organizationId) Message.before due where
  nodup := hids.of_map _
  irrefl a _ := by simp [Message.before]
  trans a _ b _ c _ hab hbc := by
    rw [Message.before_iff] at *
    omega
  total a ha b hb _ hne := by
    have hid : a.id ≠ b.id := fun h => hne (List.inj_on_of_nodup_map hids ha hb h)
    rw [Message.before_iff, Message.before_iff]
    omega

theorem Message.tie_total (a b : Message) : a.tie b ∨ b.tie a := by
  rcases lt_trichotomy a.row.nextAttemptAt b.row.nextAttemptAt with h | h | h
  · exact .inl (.inl h)
  · exact (le_total a.organizationId b.organizationId).imp (fun hle => .inr ⟨h, hle⟩)
      fun hle => .inr ⟨h.symm, hle⟩
  · exact .inr (.inl h)

theorem Message.tie_trans (a b c : Message) (hab : a.tie b) (hbc : b.tie c) : a.tie c := by
  rcases hab with hab | ⟨hab, hle⟩
  · rcases hbc with hbc | ⟨hbc, -⟩
    · exact .inl (hab.trans hbc)
    · exact .inl (hbc ▸ hab)
  · rcases hbc with hbc | ⟨hbc, hle'⟩
    · exact .inl (hab ▸ hbc)
    · exact .inr ⟨hab.trans hbc, hle.trans hle'⟩

theorem dueRankingSql_fair {rows : List Message} (hids : (rows.map (·.id)).Nodup) (now : ℤ)
    (limit : ℕ) (scope : Option String) :
    ∃ selected, dueRankingSql rows now limit scope = selected.map (·.id) ∧
      IsFair (·.organizationId) Message.before (dueMessages rows now scope) limit selected := by
  refine ⟨_, rfl, isFair_take (ranked_messages ?_) Message.tie_total Message.tie_trans limit⟩
  exact hids.sublist (List.filter_sublist.map _)

end Vigil.Notifications.DueRanking
