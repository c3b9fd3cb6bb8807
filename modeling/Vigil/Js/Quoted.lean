import Vigil.Js.Object

/-! What stands in a JSON text.  A string is quoted unit by unit, except that a pair of surrogates is
kept together, so the quoted form of a stretch of a string stands in that of the string where the
stretch cuts no pair.  Every string of a value, and every key, is quoted in the text of the value. -/

namespace Vigil.Js.Quoted

open Text Ledger.Canonical Ledger.JsonText Object

/-- The end of one string and the beginning of another make a pair of surrogates. -/
def joinsPair (s t : JsString) : Bool :=
  s.getLast?.any isHighSurrogate && t.head?.any isLowSurrogate

/-- A string that, wherever it stands, cuts no pair of surrogates. -/
def Whole (s : JsString) : Prop :=
  s.head?.any isLowSurrogate = false ∧ s.getLast?.any isHighSurrogate = false

instance (s : JsString) : Decidable (Whole s) := inferInstanceAs (Decidable (_ ∧ _))

theorem quoteBody_cons {c : UInt16} {s : JsString} (h : joinsPair [c] s = false) :
    quoteBody (c :: s) = escapeUnit c ++ quoteBody s := by
  cases s with
  | nil => rw [quoteBody, quoteBody, List.append_nil]
  | cons d s =>
    have hpair : ¬(isHighSurrogate c && isLowSurrogate d) = true := by
      rw [Bool.not_eq_true]
      exact h
    rw [quoteBody, if_neg hpair]

theorem quoteBody_append {s t : JsString} (h : joinsPair s t = false) :
    quoteBody (s ++ t) = quoteBody s ++ quoteBody t := by
  induction s using quoteBody.induct with
  | case1 => rfl
  | case2 c => exact quoteBody_cons h
  | case3 c d rest hpair ih =>
    have hrest : joinsPair rest t = false := by
      cases rest with
      | nil => rfl
      | cons e rest => exact h
    rw [List.cons_append, List.cons_append, quoteBody, if_pos hpair, quoteBody, if_pos hpair,
      ih hrest]
    rfl
  | case4 c d rest hpair ih =>
    rw [List.cons_append, List.cons_append, quoteBody, if_neg hpair, quoteBody, if_neg hpair,
      List.append_assoc, ← List.cons_append, ih h]

theorem joinsPair_left {s t : JsString} (h : s.getLast?.any isHighSurrogate = false) :
    joinsPair s t = false := by
  rw [joinsPair, h, Bool.false_and]

theorem joinsPair_right {s t : JsString} (h : t.head?.any isLowSurrogate = false) :
    joinsPair s t = false := by
  rw [joinsPair, h, Bool.and_false]

theorem quoteBody_within {s t : JsString} (hwhole : Whole s) (h : s <:+: t) :
    quoteBody s <:+: quoteBody t := by
  obtain ⟨before, after, rfl⟩ := h
  by_cases hnil : s = []
  · rw [hnil, quoteBody]
    exact List.nil_infix
  have hafter : joinsPair (before ++ s) after = false := by
    refine joinsPair_left ?_
    rw [List.getLast?_append_of_ne_nil _ hnil]
    exact hwhole.2
  rw [quoteBody_append hafter, quoteBody_append (joinsPair_right hwhole.1)]
  exact ⟨quoteBody before, quoteBody after, rfl⟩

/-! ### Values -/

mutual

/-- Every string of a value, the keys of its objects among them. -/
def strings : JsValue → List JsString
  | .undefined | .function | .null | .bool _ | .number _ => []
  | .string s => [s]
  | .array items => stringsOfItems items
  | .object entries => stringsOfEntries entries

def stringsOfItems : List JsValue → List JsString
  | [] => []
  | item :: rest => strings item ++ stringsOfItems rest

def stringsOfEntries : List (JsString × JsValue) → List JsString
  | [] => []
  | (key, value) :: rest => key :: (strings value ++ stringsOfEntries rest)

end

theorem mem_stringsOfEntries {entries : List (JsString × JsValue)} {s : JsString} :
    s ∈ stringsOfEntries entries ↔ ∃ entry ∈ entries, s = entry.1 ∨ s ∈ strings entry.2 := by
  induction entries with
  | nil => simp [stringsOfEntries]
  | cons entry rest ih =>
    obtain ⟨key, value⟩ := entry
    rw [stringsOfEntries, List.mem_cons, List.mem_append, ih, List.exists_mem_cons_iff, or_assoc]

mutual

/-- A value that JSON writes down whole. -/
def Solid : JsValue → Prop
  | .undefined | .function => False
  | .null | .bool _ | .number _ | .string _ => True
  | .array items => SolidItems items
  | .object entries => SolidEntries entries

/-- `Solid` of every item. -/
def SolidItems : List JsValue → Prop
  | [] => True
  | item :: rest => Solid item ∧ SolidItems rest

def SolidEntries : List (JsString × JsValue) → Prop
  | [] => True
  | (_, value) :: rest => Solid value ∧ SolidEntries rest

end

theorem infix_joinComma {parts : List JsString} {part : JsString} (h : part ∈ parts) :
    part <:+: joinComma parts := by
  induction parts with
  | nil => cases h
  | cons first rest ih =>
    cases rest with
    | nil =>
      obtain rfl := List.mem_singleton.mp h
      exact (joinComma_singleton part).symm ▸ List.infix_rfl
    | cons next rest =>
      rw [joinComma_cons_cons]
      rcases List.mem_cons.mp h with rfl | hrest
      · exact List.infix_append_left
      · exact List.infix_append_of_infix_right (List.infix_cons_iff.mpr (.inr (ih hrest)))

theorem infix_bracketed {o c : UInt16} {text inner : JsString} (h : text <:+: inner) :
    text <:+: o :: (inner ++ [c]) :=
  List.infix_cons_iff.mpr (.inr (List.infix_append_of_infix_left h))

mutual

/-- A value without gaps has a text, and every string of it is quoted there. -/
theorem stringify_quotes : ∀ value, Solid value → ∃ text, stringify value = some text ∧
    ∀ s ∈ strings value, jsonQuote s <:+: text
  | .undefined, h => h.elim
  | .function, h => h.elim
  | .null, _ => ⟨_, by rw [stringify], by simp [strings]⟩
  | .bool true, _ => ⟨_, by rw [stringify], by simp [strings]⟩
  | .bool false, _ => ⟨_, by rw [stringify], by simp [strings]⟩
  | .number x, _ => ⟨_, by rw [stringify], by simp [strings]⟩
  | .string s, _ => by
    refine ⟨_, by rw [stringify], fun t ht => ?_⟩
    obtain rfl := List.mem_singleton.mp ht
    exact List.infix_rfl
  | .array items, h => by
    refine ⟨_, by rw [stringify], fun s hs => infix_bracketed ?_⟩
    obtain ⟨part, hpart, hquote⟩ := stringifyItems_quotes items h s hs
    exact hquote.trans (infix_joinComma hpart)
  | .object entries, h => by
    refine ⟨_, by rw [stringify], fun s hs => infix_bracketed ?_⟩
    obtain ⟨part, hpart, hquote⟩ := stringifyEntries_quotes entries h s hs
    exact hquote.trans (infix_joinComma hpart)

theorem stringifyItems_quotes : ∀ items, SolidItems items → ∀ s ∈ stringsOfItems items,
    ∃ part ∈ stringifyItems items, jsonQuote s <:+: part
  | [], _, _, hs => by cases hs
  | item :: rest, h, s, hs => by
    obtain ⟨text, htext, hall⟩ := stringify_quotes item h.1
    rw [stringifyItems, htext]
    rcases List.mem_append.mp hs with hitem | hrest
    · exact ⟨text, List.mem_cons_self, hall s hitem⟩
    · obtain ⟨part, hpart, hquote⟩ := stringifyItems_quotes rest h.2 s hrest
      exact ⟨part, List.mem_cons_of_mem _ hpart, hquote⟩

theorem stringifyEntries_quotes : ∀ entries, SolidEntries entries →
    ∀ s ∈ stringsOfEntries entries, ∃ part ∈ stringifyEntries entries, jsonQuote s <:+: part
  | [], _, _, hs => by cases hs
  | (key, value) :: rest, h, s, hs => by
    obtain ⟨text, htext, hall⟩ := stringify_quotes value h.1
    rw [stringifyEntries, htext]
    rcases List.mem_cons.mp hs with rfl | hs
    · exact ⟨_, List.mem_cons_self, List.infix_append_left⟩
    rcases List.mem_append.mp hs with hvalue | hrest
    · refine ⟨_, List.mem_cons_self, (hall s hvalue).trans ?_⟩
      exact List.infix_append_of_infix_right (List.infix_cons_iff.mpr (.inr List.infix_rfl))
    · obtain ⟨part, hpart, hquote⟩ := stringifyEntries_quotes rest h.2 s hrest
      exact ⟨part, List.mem_cons_of_mem _ hpart, hquote⟩

end

end Vigil.Js.Quoted
