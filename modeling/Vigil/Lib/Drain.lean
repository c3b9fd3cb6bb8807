import Mathlib.Data.List.Nodup
import Mathlib.Data.List.Perm.Basic

/-! Clearing a table in batches.  A statement deletes as many rows that match as its limit allows,
and which of them is left to the plan of the database; the loop goes on until a statement has deleted
fewer than its limit.  Under every plan the loop ends, and the rows that match are gone and no
others. -/

namespace Vigil.Lib.Drain

variable {α : Type} {p : α → Bool} {limit : ℕ} {rows rest : List α}

/-- What a statement may leave of some rows. -/
structure Deletes (p : α → Bool) (limit : ℕ) (rows rest : List α) : Prop where
  sublist : rest.Sublist rows
  spared : rest.filter (!p ·) = rows.filter (!p ·)
  count : rest.length + min limit (rows.countP p) = rows.length

theorem length_filter_add_countP (p : α → Bool) (rows : List α) :
    (rows.filter (!p ·)).length + rows.countP p = rows.length := by
  have hsplit := List.length_eq_countP_add_countP p (l := rows)
  rw [← List.countP_eq_length_filter]
  simp only [Bool.not_eq_true, Bool.decide_eq_false] at hsplit
  omega

/-- What is left to delete is what matches, less what was deleted. -/
theorem Deletes.countP (h : Deletes p limit rows rest) :
    rest.countP p + min limit (rows.countP p) = rows.countP p := by
  have hrest := length_filter_add_countP p rest
  have hrows := length_filter_add_countP p rows
  have hcount := h.count
  rw [h.spared] at hrest
  omega

/-- A loop whose `n`-th statement is `delete n`: how many statements, how many rows they deleted,
and the rows that are left. -/
def drain (limit : ℕ) (delete : ℕ → List α → List α) :
    ℕ → ℕ → ℕ → List α → Option (ℕ × ℕ × List α)
  | 0, _, _, _ => none
  | fuel + 1, batches, deleted, rows =>
    let rest := delete batches rows
    let count := rows.length - rest.length
    if count < limit then some (batches + 1, deleted + count, rest)
    else drain limit delete fuel (batches + 1) (deleted + count) rest

theorem filter_of_drained (h : rows.countP p = 0) : rows.filter (!p ·) = rows := by
  apply List.filter_eq_self.mpr
  intro a ha
  rw [Bool.not_eq_true']
  exact Bool.not_eq_true _ ▸ List.countP_eq_zero.mp h a ha

/-- A batch more than the full ones is enough, and all that matches is deleted. -/
theorem drain_eq {delete : ℕ → List α → List α}
    (hdelete : ∀ n rest, rest.Sublist rows → Deletes p limit rest (delete n rest))
    (hlimit : 0 < limit) {fuel : ℕ}
    (hfuel : rows.countP p / limit < fuel) (batches deleted : ℕ) :
    drain limit delete fuel batches deleted rows =
      some (batches + (rows.countP p / limit + 1), deleted + rows.countP p, rows.filter (!p ·)) := by
  induction fuel generalizing rows batches deleted with
  | zero => exact absurd hfuel (Nat.not_lt_zero _)
  | succ fuel ih =>
    have hone := hdelete batches rows (List.Sublist.refl rows)
    have hcount : rows.length - (delete batches rows).length = min limit (rows.countP p) := by
      have := hone.count
      omega
    have hleft := hone.countP
    rw [drain, hcount]
    split
    · -- a short statement: there were fewer rows than its limit, and all of them are gone
      rename_i hshort
      have hfew : rows.countP p < limit := by omega
      have hnone : (delete batches rows).countP p = 0 := by omega
      have hrest : delete batches rows = rows.filter (!p ·) := by
        rw [← filter_of_drained hnone, hone.spared]
      rw [Nat.div_eq_of_lt hfew, Nat.min_eq_right (Nat.le_of_lt hfew), hrest]
    · rename_i hfull
      have hmany : limit ≤ rows.countP p := by omega
      have hdiv : rows.countP p / limit = (delete batches rows).countP p / limit + 1 := by
        have hsplit : rows.countP p = (delete batches rows).countP p + limit := by omega
        rw [hsplit, Nat.add_div_right _ hlimit]
      have hrest (n : ℕ) (rest : List α) (hsub : rest.Sublist (delete batches rows)) :
          Deletes p limit rest (delete n rest) := hdelete n rest (hsub.trans hone.sublist)
      rw [ih hrest (by omega), hone.spared, hdiv]
      have hmin : min limit (rows.countP p) = limit := Nat.min_eq_left hmany
      rw [hmin] at hleft ⊢
      have hbatches : batches + 1 + ((delete batches rows).countP p / limit + 1) =
          batches + ((delete batches rows).countP p / limit + 1 + 1) := by omega
      have hdeleted : deleted + limit + (delete batches rows).countP p =
          deleted + rows.countP p := by omega
      rw [hbatches, hdeleted]

/-- A statement picks as many rows that match as its limit allows, by their keys. -/
structure Picks {κ : Type} (key : α → κ) (p : α → Bool) (limit : ℕ) (rows : List α)
    (keys : List κ) : Prop where
  nodup : keys.Nodup
  found : ∀ k ∈ keys, ∃ a ∈ rows, key a = k ∧ p a = true
  length : keys.length = min limit (rows.countP p)

theorem Picks.deletes {κ : Type} [DecidableEq κ] {key : α → κ} {keys : List κ}
    (hunique : (rows.map key).Nodup) (h : Picks key p limit rows keys) :
    Deletes p limit rows (rows.filter fun a => key a ∉ keys) where
  sublist := List.filter_sublist
  spared := by
    rw [List.filter_filter]
    apply List.filter_congr
    intro a ha
    cases hp : p a with
    | true => rfl
    | false =>
      have hspared : key a ∉ keys := by
        intro hmem
        obtain ⟨b, hb, hkey, hpb⟩ := h.found (key a) hmem
        rw [List.inj_on_of_nodup_map hunique hb ha hkey, hp] at hpb
        exact absurd hpb Bool.false_ne_true
      simp [hspared]
  count := by
    have hpicked : ((rows.filter fun a => key a ∈ keys).map key).Perm keys := by
      apply (List.perm_ext_iff_of_nodup (hunique.sublist (List.filter_sublist.map _)) h.nodup).mpr
      intro k
      rw [List.mem_map]
      constructor
      · rintro ⟨a, ha, rfl⟩
        exact of_decide_eq_true (List.mem_filter.mp ha).2
      · intro hk
        obtain ⟨a, ha, rfl, -⟩ := h.found k hk
        exact ⟨a, List.mem_filter.mpr ⟨ha, decide_eq_true hk⟩, rfl⟩
    have hlength := hpicked.length_eq
    rw [List.length_map] at hlength
    have hsplit := List.length_eq_length_filter_add (fun a => decide (key a ∈ keys)) (l := rows)
    have hrest : (rows.filter fun a => key a ∉ keys) =
        rows.filter fun a => !decide (key a ∈ keys) := by
      apply List.filter_congr
      intro a _
      exact decide_not
    rw [hrest, ← h.length]
    omega

/-! ### What a database chooses -/

/-- The order in which each statement meets the rows that match. -/
structure Plan (α : Type) where
  order : ℕ → List α → List α
  perm : ∀ n rows, (order n rows).Perm rows

/-- The rows that the `n`-th statement selects. -/
def Plan.select (plan : Plan α) (p : α → Bool) (limit n : ℕ) (rows : List α) : List α :=
  (plan.order n (rows.filter p)).take limit

theorem Plan.picks {κ : Type} {key : α → κ} (plan : Plan α) (n : ℕ)
    (hunique : (rows.map key).Nodup) :
    Picks key p limit rows ((plan.select p limit n rows).map key) where
  nodup := by
    have hperm := (plan.perm n (rows.filter p)).map key
    have hmatch : ((rows.filter p).map key).Nodup :=
      hunique.sublist (List.filter_sublist.map _)
    exact (hperm.nodup_iff.mpr hmatch).sublist ((List.take_sublist _ _).map _)
  found := by
    intro k hk
    obtain ⟨a, ha, rfl⟩ := List.mem_map.mp hk
    have hmem : a ∈ rows.filter p := (plan.perm n _).mem_iff.mp (List.mem_of_mem_take ha)
    exact ⟨a, List.mem_of_mem_filter hmem, rfl, (List.mem_filter.mp hmem).2⟩
  length := by
    rw [List.length_map, select, List.length_take, (plan.perm n _).length_eq,
      List.countP_eq_length_filter]

end Vigil.Lib.Drain
