import Mathlib.Data.List.Basic

/-! Lines that each end with a terminator of two elements: where a terminator stands in their text, a
line ends. -/

namespace Vigil.Lib.Terminated

variable {α : Type} {cr lf : α}

/-- The text of some lines. -/
def ended (cr lf : α) (lines : List (List α)) : List α := lines.flatMap (· ++ [cr, lf])

@[simp] theorem ended_nil : ended cr lf [] = [] := rfl

theorem ended_cons (line : List α) (lines : List (List α)) :
    ended cr lf (line :: lines) = line ++ cr :: lf :: ended cr lf lines := by
  rw [ended, List.flatMap_cons, List.append_assoc]
  rfl

theorem ended_append (lines rest : List (List α)) :
    ended cr lf (lines ++ rest) = ended cr lf lines ++ ended cr lf rest :=
  List.flatMap_append

/-- A terminator in the text of lines that have no `cr` ends one of them. -/
theorem cut (hne : cr ≠ lf) {lines : List (List α)} (h : ∀ line ∈ lines, cr ∉ line) :
    ∀ {before after : List α}, ended cr lf lines = before ++ cr :: lf :: after →
    ∃ first line rest, lines = first ++ line :: rest ∧ before = ended cr lf first ++ line ∧
      after = ended cr lf rest := by
  induction lines with
  | nil =>
    intro before after heq
    exact absurd heq.symm (List.append_ne_nil_of_right_ne_nil _ (List.cons_ne_nil _ _))
  | cons line lines ih =>
    intro before after heq
    have hline : cr ∉ line := h line List.mem_cons_self
    rw [ended_cons] at heq
    obtain ⟨more, rfl, hrest⟩ | ⟨more, hbefore, hrest⟩ := List.append_eq_append_iff.mp heq
    · cases more with
      | nil =>
        obtain ⟨-, hrest⟩ := List.cons.inj hrest
        obtain ⟨-, hrest⟩ := List.cons.inj hrest
        exact ⟨[], line, lines, rfl, by rw [List.append_nil]; rfl, hrest.symm⟩
      | cons x more =>
        obtain ⟨hx, htail⟩ := List.cons.inj hrest
        cases more with
        | nil => exact absurd (List.cons.inj htail).1.symm hne
        | cons y more =>
          obtain ⟨hy, hmore⟩ := List.cons.inj htail
          subst hx hy
          obtain ⟨first, last, rest, rfl, rfl, rfl⟩ :=
            ih (fun l hl => h l (List.mem_cons_of_mem _ hl)) hmore
          refine ⟨line :: first, last, rest, rfl, ?_, rfl⟩
          rw [ended_cons, List.append_assoc]
          rfl
    · cases more with
      | nil =>
        rw [List.append_nil] at hbefore
        obtain ⟨-, hrest⟩ := List.cons.inj hrest
        obtain ⟨-, hrest⟩ := List.cons.inj hrest
        exact ⟨[], line, lines, rfl, hbefore.symm, hrest⟩
      | cons x more =>
        obtain ⟨hx, -⟩ := List.cons.inj hrest
        rw [hbefore, ← hx] at hline
        exact absurd (List.mem_append_right _ List.mem_cons_self) hline

/-- Where a line that stands between two terminators is found in the text, it is one of the lines
after the first. -/
theorem cut_line (hne : cr ≠ lf) {lines : List (List α)} (h : ∀ line ∈ lines, cr ∉ line)
    (found : List α) {before after : List α} (hfound : cr ∉ found)
    (heq : ended cr lf lines = before ++ cr :: lf :: (found ++ cr :: lf :: after)) :
    ∃ first rest, lines = first ++ found :: rest ∧ first ≠ [] ∧ after = ended cr lf rest := by
  obtain ⟨first, line, rest, rfl, -, hrest⟩ := cut hne h heq
  obtain ⟨first', line', rest', rfl, hbefore, rfl⟩ :=
    cut hne (fun l hl => h l (List.mem_append_right _ (List.mem_cons_of_mem _ hl))) hrest.symm
  cases first' with
  | nil =>
    rw [ended_nil, List.nil_append] at hbefore
    refine ⟨first ++ [line], rest', ?_, by simp, rfl⟩
    rw [hbefore, List.append_assoc]
    rfl
  | cons head tail =>
    rw [ended_cons] at hbefore
    exact absurd (hbefore ▸ List.mem_append_left _ (List.mem_append_right _ List.mem_cons_self))
      hfound

end Vigil.Lib.Terminated
