import Mathlib.Data.List.Perm.Subperm
import Mathlib.Order.Bounds.Basic

/-! One-to-one matchings between two lists under a relation.  `greedy` goes through the first list
and takes for each member the first member of the second list that is left and related to it.  When
the related members form a staircase, so that a crossing pair of edges can be uncrossed at its later
end, no matching has more pairs. -/

namespace Vigil.Lib.Matching

variable {α β γ : Type} (R : α → β → Bool)

def greedy : List α → List β → List (α × β)
  | [], _ => []
  | x :: xs, ys =>
    match ys.find? (R x) with
    | some y => (x, y) :: greedy xs (ys.eraseP (R x))
    | none => greedy xs ys

/-- Related pairs, in which every place of either list is used at most once. -/
structure IsMatching (xs : List α) (ys : List β) (M : List (α × β)) : Prop where
  left : (M.map Prod.fst).Subperm xs
  right : (M.map Prod.snd).Subperm ys
  related : ∀ p ∈ M, R p.1 p.2 = true

/-- Two edges that cross leave an edge between their later ends. -/
def Staircase (xs : List α) (ys : List β) : Prop :=
  ∀ x x' y y', [x, x'].Sublist xs → [y, y'].Sublist ys → R x y' = true → R x' y = true →
    R x' y' = true

variable {R}

variable {x : α} {xs : List α} {ys : List β}

theorem greedy_cons_none (h : ys.find? (R x) = none) : greedy R (x :: xs) ys = greedy R xs ys := by
  rw [greedy, h]

theorem greedy_cons_some {y : β} (h : ys.find? (R x) = some y) :
    greedy R (x :: xs) ys = (x, y) :: greedy R xs (ys.eraseP (R x)) := by
  rw [greedy, h]

theorem IsMatching.of_perm {xs xs' : List α} {ys ys' : List β} {M : List (α × β)}
    (h : IsMatching R xs ys M) (hxs : xs.Perm xs') (hys : ys.Perm ys') :
    IsMatching R xs' ys' M :=
  ⟨h.left.trans hxs.subperm, h.right.trans hys.subperm, h.related⟩

theorem Staircase.of_sublist {xs xs' : List α} {ys ys' : List β} (h : Staircase R xs ys)
    (hxs : xs'.Sublist xs) (hys : ys'.Sublist ys) : Staircase R xs' ys' :=
  fun x x' y y' hx hy => h x x' y y' (hx.trans hxs) (hy.trans hys)

/-- Of a matching, either nothing is at the head of the list, or a single pair is. -/
theorem head_cases {f : γ → α} {M : List γ} (h : (M.map f).Subperm (x :: xs)) :
    (M.map f).Subperm xs ∨ ∃ p N, M.Perm (p :: N) ∧ f p = x ∧ (N.map f).Subperm xs := by
  obtain ⟨l, hl, hsub⟩ := h
  cases hsub with
  | cons _ hsub => exact .inl ⟨l, hl, hsub⟩
  | cons_cons _ hsub =>
    rename_i l'
    obtain ⟨p, hp, rfl⟩ := List.mem_map.mp (hl.mem_iff.mp List.mem_cons_self)
    obtain ⟨s, t, rfl⟩ := List.append_of_mem hp
    have hmiddle : (s ++ p :: t).Perm (p :: (s ++ t)) := List.perm_middle
    have htail : l'.Perm ((s ++ t).map f) := (hl.trans (hmiddle.map f)).cons_inv
    exact .inr ⟨p, s ++ t, hmiddle, rfl, l', htail, hsub⟩

theorem map_subperm_of_perm_cons {f : γ → α} {M N : List γ} {p : γ} (h : M.Perm (p :: N)) :
    (N.map f).Subperm (M.map f) :=
  ((List.sublist_cons_self p N).map f).subperm.trans (h.symm.map f).subperm

theorem eraseP_middle {p : β → Bool} {y : β} {l r : List β} (hl : ∀ b ∈ l, (!p b) = true)
    (hy : p y = true) : (l ++ y :: r).eraseP p = l ++ r := by
  rw [List.eraseP_append_right _ fun b hb => by simpa using hl b hb, List.eraseP_cons_of_pos hy]

theorem greedy_isMatching (xs : List α) (ys : List β) : IsMatching R xs ys (greedy R xs ys) := by
  induction xs generalizing ys with
  | nil => exact ⟨List.nil_subperm, List.nil_subperm, List.forall_mem_nil _⟩
  | cons x xs ih =>
    cases hfind : ys.find? (R x) with
    | none =>
      obtain ⟨hleft, hright, hrelated⟩ := ih ys
      rw [greedy_cons_none hfind]
      exact ⟨hleft.trans (List.sublist_cons_self x xs).subperm, hright, hrelated⟩
    | some y =>
      obtain ⟨hleft, hright, hrelated⟩ := ih (ys.eraseP (R x))
      rw [greedy_cons_some hfind]
      have hy : R x y = true := List.find?_some hfind
      obtain ⟨-, l, r, rfl, hl⟩ := List.find?_eq_some_iff_append.mp hfind
      rw [eraseP_middle hl hy] at hright hrelated hleft ⊢
      refine ⟨(List.subperm_cons x).mpr hleft, ?_, List.forall_mem_cons.mpr ⟨hy, hrelated⟩⟩
      exact ((List.subperm_cons y).mpr hright).trans List.perm_middle.symm.subperm

/-- Without a member for the head of the list, a matching is one of its tail. -/
theorem IsMatching.tail {M : List (α × β)} (h : IsMatching R (x :: xs) ys M)
    (hnone : ∀ y ∈ ys, R x y ≠ true) : IsMatching R xs ys M := by
  refine ⟨?_, h.right, h.related⟩
  rcases head_cases h.left with hleft | ⟨p, N, hperm, rfl, -⟩
  · exact hleft
  · have hp : p ∈ M := hperm.mem_iff.mpr List.mem_cons_self
    exact absurd (h.related p hp) (hnone p.2 (h.right.subset (List.mem_map_of_mem hp)))

/-- A matching gives up at most one pair when the head of the first list takes the first member
that is related to it. -/
theorem IsMatching.exchange {y : β} {l r : List β} {M : List (α × β)}
    (h : IsMatching R (x :: xs) (l ++ y :: r) M) (hl : ∀ b ∈ l, R x b ≠ true)
    (hstairs : Staircase R (x :: xs) (l ++ y :: r)) :
    ∃ N, IsMatching R xs (l ++ r) N ∧ M.length ≤ N.length + 1 := by
  have hsnd : (M.map Prod.snd).Subperm (y :: (l ++ r)) :=
    h.right.trans List.perm_middle.subperm
  rcases head_cases h.left with hleft | ⟨⟨x₀, y'⟩, N, hperm, hx, hleft⟩
  · rcases head_cases hsnd with hright | ⟨q, N, hperm, -, hright⟩
    · exact ⟨M, ⟨hleft, hright, h.related⟩, Nat.le_succ _⟩
    · refine ⟨N, ⟨(map_subperm_of_perm_cons hperm).trans hleft, hright, fun p hp => ?_⟩,
        hperm.length_eq.le⟩
      exact h.related p (hperm.mem_iff.mpr (List.mem_cons_of_mem q hp))
  · obtain rfl : x₀ = x := hx
    have hrelated : ∀ p ∈ N, R p.1 p.2 = true := fun p hp =>
      h.related p (hperm.mem_iff.mpr (List.mem_cons_of_mem _ hp))
    rcases head_cases hsnd with hright | ⟨⟨x', y₀⟩, N', hperm', hy, hright⟩
    · exact ⟨N, ⟨hleft, (map_subperm_of_perm_cons hperm).trans hright, hrelated⟩,
        hperm.length_eq.le⟩
    · obtain rfl : y₀ = y := hy
      by_cases hsame : (x', y₀) = (x₀, y')
      · rw [hsame] at hperm'
        have hN : N.Perm N' := (hperm.symm.trans hperm').cons_inv
        exact ⟨N, ⟨hleft, (hN.map Prod.snd).subperm.trans hright, hrelated⟩, hperm.length_eq.le⟩
      · -- two edges that cross: their later ends are matched, and the earlier ones given up
        have hmem : (x', y₀) ∈ N := by
          have hM : (x', y₀) ∈ (x₀, y') :: N :=
            hperm.mem_iff.mp (hperm'.mem_iff.mpr List.mem_cons_self)
          exact (List.mem_cons.mp hM).resolve_left hsame
        obtain ⟨s, t, rfl⟩ := List.append_of_mem hmem
        have hmiddle : (s ++ (x', y₀) :: t).Perm ((x', y₀) :: (s ++ t)) := List.perm_middle
        have hN' : N'.Perm ((x₀, y') :: (s ++ t)) := by
          have hall : ((x', y₀) :: N').Perm ((x', y₀) :: (x₀, y') :: (s ++ t)) :=
            hperm'.symm.trans (hperm.trans ((hmiddle.cons _).trans (.swap ..)))
          exact hall.cons_inv
        have hfst : (((x', y') :: (s ++ t)).map Prod.fst).Subperm xs :=
          (hmiddle.symm.map Prod.fst).subperm.trans hleft
        have hsecond : (((x', y') :: (s ++ t)).map Prod.snd).Subperm (l ++ r) :=
          (hN'.symm.map Prod.snd).subperm.trans hright
        have hxy' : R x₀ y' = true := h.related _ (hperm.mem_iff.mpr List.mem_cons_self)
        have hx'mem : x' ∈ xs := hfst.subset List.mem_cons_self
        have hy'mem : y' ∈ r := by
          have hlr : y' ∈ l ++ r := hsecond.subset List.mem_cons_self
          exact (List.mem_append.mp hlr).resolve_left fun hy' => hl y' hy' hxy'
        have hnew : R x' y' = true := by
          refine hstairs x₀ x' y₀ y' ?_ ?_ hxy' (hrelated _ hmem)
          · exact List.cons_sublist_cons.mpr (List.singleton_sublist.mpr hx'mem)
          · exact (List.cons_sublist_cons.mpr (List.singleton_sublist.mpr hy'mem)).trans
              (List.sublist_append_right l _)
        refine ⟨(x', y') :: (s ++ t), ⟨hfst, hsecond, ?_⟩, ?_⟩
        · refine List.forall_mem_cons.mpr ⟨hnew, fun p hp => ?_⟩
          exact hrelated p (hmiddle.mem_iff.mpr (List.mem_cons_of_mem _ hp))
        · rw [hperm.length_eq, List.length_cons, hmiddle.length_eq]
          rfl

theorem IsMatching.length_le_greedy {M : List (α × β)} (h : IsMatching R xs ys M)
    (hstairs : Staircase R xs ys) : M.length ≤ (greedy R xs ys).length := by
  induction xs generalizing ys M with
  | nil =>
    have hnil : M.map Prod.fst = [] := List.subperm_nil.mp h.left
    rw [List.map_eq_nil_iff.mp hnil]
    exact Nat.zero_le _
  | cons x xs ih =>
    have hxs : xs.Sublist (x :: xs) := List.sublist_cons_self x xs
    cases hfind : ys.find? (R x) with
    | none =>
      rw [greedy_cons_none hfind]
      exact ih (h.tail (List.find?_eq_none.mp hfind)) (hstairs.of_sublist hxs (.refl _))
    | some y =>
      rw [greedy_cons_some hfind]
      have hy : R x y = true := List.find?_some hfind
      obtain ⟨-, l, r, rfl, hl⟩ := List.find?_eq_some_iff_append.mp hfind
      obtain ⟨N, hN, hlength⟩ := h.exchange (fun b hb => by simpa using hl b hb) hstairs
      have hys : (l ++ r).Sublist (l ++ y :: r) := (List.sublist_cons_self y r).append_left l
      rw [eraseP_middle hl hy, List.length_cons]
      have hrest := ih hN (hstairs.of_sublist hxs hys)
      omega

theorem greedy_isGreatest (hstairs : Staircase R xs ys) :
    IsGreatest {n | ∃ M, IsMatching R xs ys M ∧ M.length = n} (greedy R xs ys).length := by
  constructor
  · exact ⟨greedy R xs ys, greedy_isMatching xs ys, rfl⟩
  · rintro n ⟨M, hM, rfl⟩
    exact hM.length_le_greedy hstairs

end Vigil.Lib.Matching
