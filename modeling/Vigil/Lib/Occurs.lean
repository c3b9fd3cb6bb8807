import Vigil.Lib.Marked
import Mathlib.Data.List.Infix

/-! Where a word occurs in a text, and what replacing does to it.  Two words meet when some of one of
them can stand where some of the other does.  A word that does not meet what stands in the middle of
a text occurs before it or after it, and so replacing a word by one that it does not meet leaves none
of it, and brings back no other word that was gone. -/

namespace Vigil.Lib.Occurs

open Marked

variable {α : Type}

/-- Some stretch of a text can belong to both words. -/
def Meets (word other : List α) : Prop :=
  word <:+: other ∨ other <:+: word ∨
    (∃ part ∈ word.tails, part ≠ [] ∧ part <+: other) ∨
      ∃ part ∈ word.inits, part ≠ [] ∧ part <:+ other

instance [DecidableEq α] (word other : List α) : Decidable (Meets word other) :=
  inferInstanceAs (Decidable (_ ∨ _ ∨ _ ∨ _))

section

variable {word other before after : List α}

theorem Meets.of_within (h : word <:+: other) : Meets word other := .inl h

theorem Meets.of_contains (h : other <:+: word) : Meets word other := .inr (.inl h)

variable {part : List α}

theorem Meets.of_suffix (hword : part <:+ word) (hne : part ≠ []) (hother : part <+: other) :
    Meets word other :=
  .inr (.inr (.inl ⟨part, (List.mem_tails _ _).mpr hword, hne, hother⟩))

theorem Meets.of_start (hword : part <+: word) (hne : part ≠ []) (hother : part <:+ other) :
    Meets word other :=
  .inr (.inr (.inr ⟨part, (List.mem_inits _ _).mpr hword, hne, hother⟩))

/-- An occurrence that begins before the middle does not reach into it. -/
theorem not_prefix_middle (h : ¬Meets word other) (hpart : part <:+ word) (hne : part ≠ []) :
    ¬part <+: other ++ after := by
  intro hpre
  rcases List.prefix_or_prefix_of_prefix hpre (List.prefix_append other after) with hin | hover
  · exact h (.of_suffix hpart hne hin)
  · exact h (.of_contains (hover.isInfix.trans hpart.isInfix))

/-- A word that does not meet the middle of a text occurs on one side of it. -/
theorem infix_around_iff (h : ¬Meets word other) :
    word <:+: before ++ (other ++ after) ↔ word <:+: before ∨ word <:+: after := by
  constructor
  · intro hoccurs
    rcases List.infix_append_iff_ne_nil.mp hoccurs with hbefore | hrest | ⟨l, r, -, hr, rfl, -, hin⟩
    · exact .inl hbefore
    · rcases List.infix_append_iff_ne_nil.mp hrest with hother | hafter | ⟨l, r, hl, -, rfl, hin, -⟩
      · exact absurd (.of_within hother) h
      · exact .inr hafter
      · exact absurd (.of_start (List.prefix_append l r) hl hin) h
    · exact absurd hin (not_prefix_middle h (List.suffix_append l r) hr)
  · rintro (hbefore | hafter)
    · exact List.infix_append_of_infix_left hbefore
    · exact List.infix_append_of_infix_right (List.infix_append_of_infix_right hafter)

end

/-! ### Replacing -/

/-- A text with a word in it here and there, and the same text with another word in these places.
The first word does not occur between them. -/
inductive Weave (word replacement : List α) : List α → List α → Prop
  | last {piece : List α} : ¬word <:+: piece → Weave word replacement piece piece
  | more {piece text result : List α} : ¬word <:+: piece → Weave word replacement text result →
      Weave word replacement (piece ++ (word ++ text)) (piece ++ (replacement ++ result))

section

variable {word replacement : List α}

/-- An element in front, where the word does not begin, goes to the first piece. -/
theorem Weave.cons {a : α} {text result : List α} (h : Weave word replacement text result)
    (ha : ¬word <+: a :: text) : Weave word replacement (a :: text) (a :: result) := by
  have extend {piece : List α} (hpiece : ¬word <:+: piece) (hpre : piece <+: text) :
      ¬word <:+: a :: piece := by
    intro hoccurs
    rcases List.infix_cons_iff.mp hoccurs with hhead | htail
    · exact ha (hhead.trans (List.cons_prefix_cons.mpr ⟨rfl, hpre⟩))
    · exact hpiece htail
  cases h with
  | last hpiece => exact .last (extend hpiece List.prefix_rfl)
  | more hpiece hrest => exact .more (extend hpiece (List.prefix_append _ _)) hrest

/-- Where each piece between the replacements is free of a word that does not meet them, the whole
is free of it. -/
theorem Weave.free {text result other : List α} (h : Weave word replacement text result)
    (hmeets : ¬Meets other replacement)
    (hpieces : ∀ piece, ¬word <:+: piece → piece <:+: text → ¬other <:+: piece) :
    ¬other <:+: result := by
  induction h with
  | last hpiece => exact hpieces _ hpiece List.infix_rfl
  | @more piece text result hpiece _ ih =>
    rw [infix_around_iff hmeets, not_or]
    refine ⟨hpieces piece hpiece List.infix_append_left, ih fun piece' hfree hin => ?_⟩
    refine hpieces piece' hfree (hin.trans ?_)
    exact List.infix_append_of_infix_right List.infix_append_right

variable [DecidableEq α]

theorem replaceAll_start (hword : word ≠ []) (rest : List α) :
    replaceAll word replacement (word ++ rest) = replacement ++ replaceAll word replacement rest :=
  replaceFrom_word hword rest

theorem replaceAll_cons {a : α} {rest : List α} (h : ¬word <+: a :: rest) :
    replaceAll word replacement (a :: rest) = a :: replaceAll word replacement rest := by
  have hnot : word.isPrefixOf (a :: rest) = false := by
    rw [Bool.eq_false_iff, ne_eq, List.isPrefixOf_iff_prefix]
    exact h
  rw [replaceAll, replaceFrom, hnot]
  rfl

theorem weave_replaceAll (hword : word ≠ []) (text : List α) :
    Weave word replacement text (replaceAll word replacement text) := by
  induction hlen : text.length using Nat.strong_induction_on generalizing text with
  | _ n ih =>
    by_cases hpre : word <+: text
    · obtain ⟨rest, rfl⟩ := hpre
      rw [replaceAll_start hword]
      have hshorter : rest.length < n := by
        rw [← hlen, List.length_append]
        have := List.length_pos_iff.mpr hword
        omega
      have hnil : ¬word <:+: [] := fun h => hword (List.infix_nil.mp h)
      exact Weave.more hnil (ih rest.length hshorter rest rfl)
    · cases text with
      | nil => exact .last fun h => hpre (List.infix_nil.mp h ▸ List.prefix_rfl)
      | cons a rest =>
        rw [replaceAll_cons hpre]
        have hshorter : rest.length < n := by
          rw [← hlen, List.length_cons]
          omega
        exact (ih rest.length hshorter rest rfl).cons hpre

/-- Nothing of a word is left where every occurrence of it was replaced. -/
theorem not_infix_replaceAll (hword : word ≠ []) (hmeets : ¬Meets word replacement)
    (text : List α) : ¬word <:+: replaceAll word replacement text :=
  (weave_replaceAll hword text).free hmeets fun _ hfree _ => hfree

variable {text : List α}

theorem not_infix_replaceAll_of_not_infix (hword : word ≠ []) {other : List α}
    (hmeets : ¬Meets other replacement) (h : ¬other <:+: text) :
    ¬other <:+: replaceAll word replacement text :=
  (weave_replaceAll hword text).free hmeets fun _ _ hin hother => h (hother.trans hin)

theorem replaceAll_of_free (h : ¬word <:+: text) : replaceAll word replacement text = text := by
  induction text with
  | nil => rfl
  | cons a rest ih =>
    rw [replaceAll_cons fun hpre => h hpre.isInfix, ih fun hrest => h (hrest.trans ?_)]
    exact List.infix_cons_iff.mpr (.inr List.infix_rfl)

theorem replaceEach_of_free {words : List (List α)} (h : ∀ word ∈ words, ¬word <:+: text) :
    replaceEach replacement words text = text := by
  induction words with
  | nil => rfl
  | cons word words ih =>
    rw [replaceEach, replaceAll_of_free (h word List.mem_cons_self)]
    exact ih fun other hother => h other (List.mem_cons_of_mem _ hother)

/-- Words that were replaced one after another, by a text that none of them meets, are all gone. -/
theorem not_infix_replaceEach {words : List (List α)} (hne : ∀ word ∈ words, word ≠ [])
    (hmeets : ∀ word ∈ words, ¬Meets word replacement) {word : List α} (text : List α)
    (h : word ∈ words ∨ ¬Meets word replacement ∧ ¬word <:+: text) :
    ¬word <:+: replaceEach replacement words text := by
  induction words generalizing text with
  | nil => exact (h.resolve_left List.not_mem_nil).2
  | cons first words ih =>
    have hfirst := hne first List.mem_cons_self
    refine ih (fun w hw => hne w (List.mem_cons_of_mem _ hw))
      (fun w hw => hmeets w (List.mem_cons_of_mem _ hw)) (replaceAll first replacement text) ?_
    rcases h with hmem | ⟨hapart, hfree⟩
    · rcases List.mem_cons.mp hmem with rfl | hmem
      · have hself := hmeets word List.mem_cons_self
        exact .inr ⟨hself, not_infix_replaceAll hfirst hself text⟩
      · exact .inl hmem
    · exact .inr ⟨hapart, not_infix_replaceAll_of_not_infix hfirst hapart hfree⟩

end

end Vigil.Lib.Occurs
