import Mathlib.Data.List.Sort

/-! Sorting by a rank.  `r` compares two members as their ranks are compared, and members of
different ranks come out in one order only, whatever order they are given in. -/

namespace Vigil.Lib.Ranking

variable {α κ : Type} [LinearOrder κ] {rank : α → κ} {r : α → α → Prop} [DecidableRel r]

/-- The comparison of two members is that of their ranks. -/
def Ranks (rank : α → κ) (r : α → α → Prop) : Prop := ∀ a b, r a b ↔ rank a ≤ rank b

variable (h : Ranks rank r)

include h

theorem pairwise_sort (xs : List α) : (xs.insertionSort r).Pairwise r := by
  have htotal : Std.Total r := ⟨fun a b => by
    rw [h, h]
    exact le_total _ _⟩
  have htrans : IsTrans α r := ⟨fun a b c hab hbc => by
    rw [h] at hab hbc ⊢
    exact hab.trans hbc⟩
  exact List.pairwise_insertionSort r xs

theorem sort_eq_of_perm {xs ys : List α} (hperm : xs.Perm ys)
    (hinj : ∀ a ∈ xs, ∀ b ∈ xs, rank a = rank b → a = b) :
    xs.insertionSort r = ys.insertionSort r := by
  refine List.Perm.eq_of_pairwise ?_ (pairwise_sort h xs) (pairwise_sort h ys)
    ((List.perm_insertionSort r xs).trans (hperm.trans (List.perm_insertionSort r ys).symm))
  intro a b ha hb hab hba
  have ha := (List.mem_insertionSort r).mp ha
  have hb := hperm.mem_iff.mpr ((List.mem_insertionSort r).mp hb)
  exact hinj a ha b hb (le_antisymm ((h a b).mp hab) ((h b a).mp hba))

/-- What is left out of the first members does not come before one of them. -/
theorem not_lt_of_notMem_take {xs : List α} {n : ℕ} {a b : α}
    (ha : a ∈ (xs.insertionSort r).take n) (hb : b ∈ xs)
    (hout : b ∉ (xs.insertionSort r).take n) : ¬rank b < rank a := by
  have hsorted := pairwise_sort h xs
  rw [← List.take_append_drop n (xs.insertionSort r), List.pairwise_append] at hsorted
  have hmem : b ∈ xs.insertionSort r := (List.mem_insertionSort r).mpr hb
  rw [← List.take_append_drop n (xs.insertionSort r)] at hmem
  have hdrop := (List.mem_append.mp hmem).resolve_left hout
  exact not_lt_of_ge ((h a b).mp (hsorted.2.2 a ha b hdrop))

end Vigil.Lib.Ranking
