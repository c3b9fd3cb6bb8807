import Mathlib.Data.List.TakeWhile

/-! Where a pattern or an element stands in a list, counted as `indexOf` and `lastIndexOf` count on
strings, and the two ways to read such an answer: as a cut of the list, and from the pieces. -/

namespace Vigil.Lib.Cut

variable {α : Type} [DecidableEq α]

/-- The first index at which `pattern` stands. -/
def indexOf (s pattern : List α) : Option ℕ :=
  (List.range (s.length + 1)).find? fun i => pattern.isPrefixOf (s.drop i)

/-- The last index at which `a` stands, among those up to `fromIndex`. -/
def lastIndexOf (s : List α) (a : α) : ℕ → Option ℕ
  | 0 => if s[0]? = some a then some 0 else none
  | i + 1 => if s[i + 1]? = some a then some (i + 1) else lastIndexOf s a i

variable {s pattern : List α} {i : ℕ} {a : α}

theorem indexOf_eq_some_iff : indexOf s pattern = some i ↔
      i ≤ s.length ∧ pattern <+: s.drop i ∧ ∀ j < i, ¬pattern <+: s.drop j := by
  have hiff : ∀ j, pattern.isPrefixOf (s.drop j) = false ↔ ¬pattern <+: s.drop j := fun j => by
    rw [← List.isPrefixOf_iff_prefix, Bool.not_eq_true]
  simp only [indexOf, List.find?_range_eq_some, List.isPrefixOf_iff_prefix, List.mem_range,
    Bool.not_eq_true', hiff, Nat.lt_succ_iff]
  constructor
  · rintro ⟨hp, hi, hj⟩
    exact ⟨hi, hp, hj⟩
  · rintro ⟨hi, hp, hj⟩
    exact ⟨hp, hi, hj⟩

theorem lastIndexOf_eq_some_iff {n i : ℕ} : lastIndexOf s a n = some i ↔
      i ≤ n ∧ s[i]? = some a ∧ ∀ j, i < j → j ≤ n → s[j]? ≠ some a := by
  induction n with
  | zero =>
    simp only [lastIndexOf, Option.ite_none_right_eq_some, Option.some.injEq, Nat.le_zero]
    constructor
    · rintro ⟨h, rfl⟩
      exact ⟨rfl, h, fun j hlt hj => by omega⟩
    · rintro ⟨rfl, h, -⟩
      exact ⟨h, rfl⟩
  | succ n ih =>
    rw [lastIndexOf]
    split
    · rename_i h
      rw [Option.some.injEq]
      constructor
      · rintro rfl
        exact ⟨le_rfl, h, fun j hlt hj => by omega⟩
      · rintro ⟨hi, -, hj⟩
        by_contra hne
        exact hj (n + 1) (by omega) le_rfl h
    · rename_i h
      rw [ih]
      constructor
      · rintro ⟨hi, hs, hj⟩
        refine ⟨by omega, hs, fun j hlt hle => ?_⟩
        rcases Nat.lt_or_ge n j with hn | hn
        · obtain rfl : j = n + 1 := by omega
          exact h
        · exact hj j hlt hn
      · rintro ⟨hi, hs, hj⟩
        refine ⟨?_, hs, fun j hlt hle => hj j hlt (by omega)⟩
        by_contra hne
        obtain rfl : i = n + 1 := by omega
        exact h hs

/-- A pattern that first stands at the end of `s` first stands there in every longer list. -/
theorem indexOf_append (h : indexOf s pattern = some i) (hend : i + pattern.length = s.length)
    (t : List α) : indexOf (s ++ t) pattern = some i := by
  obtain ⟨hi, hp, hj⟩ := indexOf_eq_some_iff.mp h
  refine indexOf_eq_some_iff.mpr ⟨by simp; omega, ?_, fun j hlt hpj => hj j hlt ?_⟩
  · rw [List.drop_append_of_le_length hi]
    exact hp.trans (List.prefix_append _ _)
  · rw [List.drop_append_of_le_length (by omega)] at hpj
    exact List.prefix_of_prefix_length_le hpj (List.prefix_append _ _) (by simp; omega)

theorem indexOf_extend (h : indexOf s pattern = some i) (t : List α) :
    indexOf (s ++ t) pattern = some i := by
  obtain ⟨hi, hp, hj⟩ := indexOf_eq_some_iff.mp h
  have hlength : pattern.length ≤ s.length - i := by
    have hle := hp.length_le
    rwa [List.length_drop] at hle
  refine indexOf_eq_some_iff.mpr ⟨?_, ?_, fun j hlt hpj => hj j hlt ?_⟩
  · rw [List.length_append]
    omega
  · rw [List.drop_append_of_le_length hi]
    exact hp.trans (List.prefix_append _ _)
  · rw [List.drop_append_of_le_length (by omega)] at hpj
    apply List.prefix_of_prefix_length_le hpj (List.prefix_append _ _)
    rw [List.length_drop]
    omega

theorem indexOf_take (h : indexOf s pattern = some i) :
    indexOf (s.take (i + pattern.length)) pattern = some i ∧
      (s.take (i + pattern.length)).length = i + pattern.length := by
  obtain ⟨hi, hp, hj⟩ := indexOf_eq_some_iff.mp h
  have hlength : i + pattern.length ≤ s.length := by
    have := hp.length_le
    rw [List.length_drop] at this
    omega
  have htake : (s.take (i + pattern.length)).length = i + pattern.length := by
    rw [List.length_take]
    omega
  refine ⟨indexOf_eq_some_iff.mpr ⟨by omega, ?_, fun j hlt hpj => hj j hlt ?_⟩, htake⟩
  · rw [List.drop_take, Nat.add_sub_cancel_left]
    exact List.prefix_take_iff.mpr ⟨hp, le_rfl⟩
  · rw [List.drop_take] at hpj
    exact hpj.trans (List.take_prefix _ _)

/-- The last `a` of a list cuts it in two, and the part after it has none. -/
theorem lastIndexOf_cut {n i : ℕ} (h : lastIndexOf s a n = some i) :
    s = s.take i ++ a :: s.drop (i + 1) := by
  obtain ⟨-, hs, -⟩ := lastIndexOf_eq_some_iff.mp h
  obtain ⟨hi, hget⟩ := List.getElem?_eq_some_iff.mp hs
  rw [← hget, List.getElem_cons_drop, List.take_append_drop]

theorem lastIndexOf_append {l m r : List α} (hm : a ∉ m) :
    lastIndexOf (l ++ a :: (m ++ r)) a (l.length + m.length) = some l.length := by
  refine lastIndexOf_eq_some_iff.mpr ⟨by omega, by simp, fun j hlt hle => ?_⟩
  obtain ⟨k, rfl⟩ : ∃ k, j = l.length + (k + 1) := ⟨j - l.length - 1, by omega⟩
  rw [List.getElem?_append_right (by omega), Nat.add_sub_cancel_left, List.getElem?_cons_succ,
    List.getElem?_append_left (by omega)]
  exact fun h => hm (List.mem_of_getElem? h)

/-- The first `a` of a list cuts it in two, and the part before it has none. -/
theorem idxOf?_cut (h : s.idxOf? a = some i) :
    s = s.take i ++ a :: s.drop (i + 1) ∧ a ∉ s.take i := by
  obtain ⟨hi, hget, hfirst⟩ := List.idxOf?_eq_some_iff.mp h
  refine ⟨by rw [← hget, List.getElem_cons_drop, List.take_append_drop], fun hmem => ?_⟩
  obtain ⟨j, hj, hget'⟩ := List.getElem_of_mem hmem
  rw [List.getElem_take] at hget'
  rw [List.length_take] at hj
  exact hfirst j (by omega) hget'

theorem idxOf?_append {l : List α} (h : a ∉ l) (r : List α) :
    (l ++ a :: r).idxOf? a = some l.length := by
  refine List.idxOf?_eq_some_iff.mpr ⟨by simp, by simp, fun j hj hget => h ?_⟩
  rw [List.getElem_append_left hj] at hget
  exact hget ▸ List.getElem_mem hj

omit [DecidableEq α] in
/-- How far the elements before the first one with `p` go. -/
theorem findIdx?_getD {p : α → Bool} (s : List α) :
    (s.findIdx? p).getD s.length = (s.takeWhile fun a => !p a).length := by
  induction s with
  | nil => rfl
  | cons a s ih =>
    rw [List.findIdx?_cons, List.takeWhile_cons]
    cases h : p a with
    | true => rfl
    | false =>
      simp only [Bool.false_eq_true, if_false, Bool.not_false, if_true, List.length_cons, ← ih]
      cases s.findIdx? p with
      | none => rfl
      | some i => rfl

end Vigil.Lib.Cut
