import Mathlib.Data.List.Basic

/-! Texts in which some stretches are marked: a mark stands for a word that an environment gives it.
Where a word occurs in a text only at its own marks, replacing every occurrence of it is giving its
mark another word, and so two texts with the same marks become the same text. -/

namespace Vigil.Lib.Marked

variable {α μ : Type}

inductive Piece (α μ : Type) where
  | unit (a : α)
  | mark (m : μ)
  deriving DecidableEq

def Piece.text (words : μ → List α) : Piece α μ → List α
  | .unit a => [a]
  | .mark m => words m

/-- The text that the pieces stand for. -/
def render (words : μ → List α) (pieces : List (Piece α μ)) : List α :=
  pieces.flatMap (Piece.text words)

/-- A text without marks. -/
def plain (text : List α) : List (Piece α μ) := text.map .unit

section

variable {words words' : μ → List α}

@[simp] theorem render_nil : render words ([] : List (Piece α μ)) = [] := rfl

theorem render_cons (piece : Piece α μ) (pieces : List (Piece α μ)) :
    render words (piece :: pieces) = piece.text words ++ render words pieces := rfl

theorem render_append (pieces more : List (Piece α μ)) :
    render words (pieces ++ more) = render words pieces ++ render words more :=
  List.flatMap_append

theorem render_plain (text : List α) : render words (plain text : List (Piece α μ)) = text := by
  induction text with
  | nil => rfl
  | cons a text ih => exact congrArg (a :: ·) ih

theorem render_congr {pieces : List (Piece α μ)}
    (h : ∀ m, .mark m ∈ pieces → words m = words' m) : render words pieces = render words' pieces := by
  induction pieces with
  | nil => rfl
  | cons piece pieces ih =>
    rw [render_cons, render_cons, ih fun m hm => h m (List.mem_cons_of_mem _ hm)]
    cases piece with
    | unit a => rfl
    | mark m => rw [Piece.text, Piece.text, h m List.mem_cons_self]

end

variable [DecidableEq α]

/-- `text` with every occurrence of `word` replaced, from left to right, where the first `skip`
elements belong to an occurrence that was replaced already. -/
def replaceFrom (word replacement : List α) : ℕ → List α → List α
  | _, [] => []
  | skip + 1, _ :: rest => replaceFrom word replacement skip rest
  | 0, a :: rest =>
    if word.isPrefixOf (a :: rest) then
      replacement ++ replaceFrom word replacement (word.length - 1) rest
    else a :: replaceFrom word replacement 0 rest

/-- `text` with every occurrence of `word` replaced. -/
def replaceAll (word replacement text : List α) : List α := replaceFrom word replacement 0 text

section

variable {word replacement : List α}

/-- No occurrence of `word` begins in the first of two texts. -/
def nowhereIn (word : List α) : List α → List α → Bool
  | [], _ => true
  | a :: rest, after => !word.isPrefixOf (a :: (rest ++ after)) && nowhereIn word rest after

theorem replaceFrom_skip (skipped rest : List α) :
    replaceFrom word replacement skipped.length (skipped ++ rest) =
      replaceFrom word replacement 0 rest := by
  induction skipped with
  | nil => rfl
  | cons a skipped ih => exact ih

theorem replaceFrom_word (hword : word ≠ []) (rest : List α) :
    replaceFrom word replacement 0 (word ++ rest) =
      replacement ++ replaceFrom word replacement 0 rest := by
  cases word with
  | nil => exact absurd rfl hword
  | cons a word =>
    have hprefix : (a :: word).isPrefixOf (a :: (word ++ rest)) = true :=
      List.isPrefixOf_iff_prefix.mpr ⟨rest, rfl⟩
    rw [List.cons_append, replaceFrom, if_pos hprefix]
    exact congrArg _ (replaceFrom_skip word rest)

theorem replaceFrom_nowhere {text after : List α} (h : nowhereIn word text after = true) :
    replaceFrom word replacement 0 (text ++ after) =
      text ++ replaceFrom word replacement 0 after := by
  induction text with
  | nil => rfl
  | cons a text ih =>
    obtain ⟨hnot, hrest⟩ := Bool.and_eq_true_iff.mp h
    rw [Bool.not_eq_true'] at hnot
    rw [List.cons_append, replaceFrom, hnot, ih hrest]
    rfl

end

variable [DecidableEq μ] {words words' : μ → List α} {replacement : List α}

/-- The word of `m` occurs in the text only where `m` stands. -/
def onlyAt (words : μ → List α) (m : μ) : List (Piece α μ) → Bool
  | [] => true
  | piece :: rest =>
    (piece = .mark m || nowhereIn (words m) (piece.text words) (render words rest)) &&
      onlyAt words m rest

variable {pieces : List (Piece α μ)}

/-- Replacing a word that occurs only at its marks is giving these marks the other word. -/
theorem replaceAll_render {m : μ} (hword : words m ≠ []) (h : onlyAt words m pieces = true) :
    replaceAll (words m) replacement (render words pieces) =
      render (Function.update words m replacement) pieces := by
  unfold replaceAll
  induction pieces with
  | nil => rfl
  | cons piece pieces ih =>
    obtain ⟨hpiece, hrest⟩ := Bool.and_eq_true_iff.mp h
    rw [render_cons, render_cons, ← ih hrest]
    cases hmark : decide (piece = .mark m) with
    | true =>
      obtain rfl := of_decide_eq_true hmark
      rw [Piece.text, Piece.text, replaceFrom_word hword, Function.update_self]
    | false =>
      rw [hmark, Bool.false_or] at hpiece
      rw [replaceFrom_nowhere hpiece]
      cases piece with
      | unit a => rfl
      | mark n =>
        have hne : n ≠ m := fun heq => of_decide_eq_false hmark (congrArg _ heq)
        rw [Piece.text, Piece.text, Function.update_of_ne hne]

/-! ### One word after another -/

/-- Each of the words in turn replaced by one and the same text. -/
def replaceEach (replacement : List α) : List (List α) → List α → List α
  | [], text => text
  | word :: rest, text => replaceEach replacement rest (replaceAll word replacement text)

/-- When its turn comes, the word of each mark occurs only where the mark stands. -/
def apart (replacement : List α) : List μ → (μ → List α) → List (Piece α μ) → Bool
  | [], _, _ => true
  | m :: rest, words, pieces =>
    words m ≠ [] && onlyAt words m pieces &&
      apart replacement rest (Function.update words m replacement) pieces

/-- The words with those of some marks replaced. -/
def settle (replacement : List α) (marks : List μ) (words : μ → List α) (m : μ) : List α :=
  if m ∈ marks then replacement else words m

theorem replaceEach_render {marks : List μ} (hmarks : marks.Nodup) :
    ∀ {words : μ → List α}, apart replacement marks words pieces = true →
      replaceEach replacement (marks.map words) (render words pieces) =
        render (settle replacement marks words) pieces := by
  induction marks with
  | nil =>
    intro words _
    exact render_congr fun m _ => by rw [settle, if_neg List.not_mem_nil]
  | cons m marks ih =>
    intro words h
    obtain ⟨hfirst, hrest⟩ := Bool.and_eq_true_iff.mp h
    obtain ⟨hword, honly⟩ := Bool.and_eq_true_iff.mp hfirst
    obtain ⟨hnotin, hnodup⟩ := List.nodup_cons.mp hmarks
    have hsame : marks.map words = marks.map (Function.update words m replacement) := by
      refine List.map_congr_left fun n hn => ?_
      have hne : n ≠ m := fun heq => hnotin (heq ▸ hn)
      rw [Function.update_of_ne hne]
    rw [List.map_cons, replaceEach, replaceAll_render (of_decide_eq_true hword) honly, hsame,
      ih hnodup hrest]
    refine render_congr fun n _ => ?_
    unfold settle
    by_cases hn : n = m
    · subst hn
      rw [if_neg hnotin, Function.update_self, if_pos List.mem_cons_self]
    · rw [Function.update_of_ne hn]
      exact if_congr (by simp [hn]) rfl rfl

/-- Two texts with the same marks, of which every one is replaced, become the same text. -/
theorem replaceEach_congr {marks : List μ} (hmarks : marks.Nodup)
    (hpieces : ∀ m, .mark m ∈ pieces → m ∈ marks) (h : apart replacement marks words pieces = true)
    (h' : apart replacement marks words' pieces = true) :
    replaceEach replacement (marks.map words) (render words pieces) =
      replaceEach replacement (marks.map words') (render words' pieces) := by
  rw [replaceEach_render hmarks h, replaceEach_render hmarks h']
  refine render_congr fun m hm => ?_
  rw [settle, settle, if_pos (hpieces m hm), if_pos (hpieces m hm)]

end Vigil.Lib.Marked
