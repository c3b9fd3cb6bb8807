import Vigil.Ledger.JsonText
import Vigil.Js.ByteLength

/-! `Buffer.byteLength(JSON.stringify(value), "utf8")`.  The size of an object is the sum of what its
entries cost, and that of an array the sum of what its items cost, so a value whose parts are
smaller is smaller. -/

namespace Vigil.Ledger.JsonBytes

open Js.Text Js.ByteLength Canonical JsonText

/-- The bytes of the text of a value, none for a value that has no text. -/
def bytes (value : JsValue) : ℕ := byteLength ((stringify value).getD [])

/-- What an entry adds to the text of its object, a comma included. -/
def entryCost (key : JsString) (value : JsValue) : ℕ :=
  match stringify value with
  | none => 0
  | some text => byteLength (entryText key text) + 1

def entriesCost (entries : List (JsString × JsValue)) : ℕ :=
  (entries.map fun entry => entryCost entry.1 entry.2).sum

/-- What an item adds to the text of its array, a comma included. -/
def itemCost (item : JsValue) : ℕ := byteLength ((stringify item).getD (js "null")) + 1

def itemsCost (items : List JsValue) : ℕ := (items.map itemCost).sum

/-! ### The text -/

theorem wellFormed_unit {c : UInt16} (hc : isSurrogate c = false) {s : JsString}
    (hs : WellFormed s) : WellFormed (c :: s) :=
  WellFormed.append (.of_unit hc) hs

theorem wellFormed_entryText (key : JsString) {text : JsString} (h : WellFormed text) :
    WellFormed (entryText key text) :=
  (wellFormed_jsonQuote key).append (wellFormed_unit rfl h)

variable {parts : List JsString}

theorem wellFormed_bracket {o c : UInt16} (ho : isSurrogate o = false) (hc : isSurrogate c = false)
    (h : ∀ part ∈ parts, WellFormed part) : WellFormed (o :: (joinComma parts ++ [c])) :=
  wellFormed_unit ho ((wellFormed_joinComma h).append (.of_unit hc))

mutual

theorem wellFormed_stringify : ∀ value text, stringify value = some text → WellFormed text
  | .undefined, _, h => by cases h
  | .function, _, h => by cases h
  | .null, _, h => Option.some.inj h ▸ ⟨_, rfl⟩
  | .bool true, _, h => Option.some.inj h ▸ ⟨_, rfl⟩
  | .bool false, _, h => Option.some.inj h ▸ ⟨_, rfl⟩
  | .number x, _, h => Option.some.inj h ▸ ⟨x.chars, rfl⟩
  | .string s, _, h => Option.some.inj h ▸ wellFormed_jsonQuote s
  | .array items, _, h =>
    Option.some.inj h ▸ wellFormed_bracket rfl rfl (wellFormed_stringifyItems items)
  | .object entries, _, h =>
    Option.some.inj h ▸ wellFormed_bracket rfl rfl (wellFormed_stringifyEntries entries)

theorem wellFormed_stringifyItems : ∀ items, ∀ text ∈ stringifyItems items, WellFormed text
  | [], _, h => absurd h List.not_mem_nil
  | item :: rest, text, h => by
    rcases List.mem_cons.mp h with rfl | h
    · cases htext : stringify item with
      | none => exact ⟨_, rfl⟩
      | some text => exact wellFormed_stringify item text htext
    · exact wellFormed_stringifyItems rest text h

theorem wellFormed_stringifyEntries :
    ∀ entries, ∀ text ∈ stringifyEntries entries, WellFormed text
  | [], _, h => absurd h List.not_mem_nil
  | (key, value) :: rest, text, h => by
    rw [stringifyEntries] at h
    cases htext : stringify value with
    | none =>
      rw [htext] at h
      exact wellFormed_stringifyEntries rest text h
    | some valueText =>
      rw [htext] at h
      rcases List.mem_cons.mp h with rfl | h
      · exact wellFormed_entryText key (wellFormed_stringify value valueText htext)
      · exact wellFormed_stringifyEntries rest text h

end

mutual

/-- Nothing is left out of the text of a value that JSON has. -/
theorem stringify_of_plain : ∀ value, Plain value → stringify value = some (print value)
  | .undefined, h => h.elim
  | .function, h => h.elim
  | .null, _ => rfl
  | .bool true, _ => rfl
  | .bool false, _ => rfl
  | .number _, _ => rfl
  | .string _, _ => rfl
  | .array items, h => by rw [stringify, print, stringifyItems_of_plain items h]
  | .object entries, h => by rw [stringify, print, stringifyEntries_of_plain entries h.2]

theorem stringifyItems_of_plain : ∀ items, PlainItems items → stringifyItems items = printItems items
  | [], _ => rfl
  | item :: rest, h => by
    rw [stringifyItems, printItems, stringify_of_plain item h.1, stringifyItems_of_plain rest h.2]
    rfl

theorem stringifyEntries_of_plain :
    ∀ entries, PlainEntries entries → stringifyEntries entries = printEntries entries
  | [], _ => rfl
  | (key, value) :: rest, h => by
    rw [stringifyEntries, printEntries, stringify_of_plain value h.1,
      stringifyEntries_of_plain rest h.2]

end

/-! ### Sizes -/

theorem byteLength_unit {c : UInt16} (hc : isAscii c = true) (s : JsString) :
    byteLength (c :: s) = byteLength s + 1 := by
  have hone : byteLength [c] = 1 := by
    rw [(byteLength_eq_length_iff [c]).mpr (by simpa using hc)]
    rfl
  have hwell : WellFormed [c] := wellFormed_of_ascii (by simpa using hc)
  rw [← List.singleton_append, byteLength_append hwell, hone, Nat.add_comm]

theorem byteLength_joinComma (h : ∀ part ∈ parts, WellFormed part) :
    byteLength (joinComma parts) + 1 = max 1 (parts.map fun part => byteLength part + 1).sum := by
  induction parts with
  | nil => rfl
  | cons part rest ih =>
    have hpart := h part List.mem_cons_self
    have hrest := ih fun part hp => h part (List.mem_cons_of_mem _ hp)
    cases rest with
    | nil => simp [joinComma]
    | cons next rest =>
      have hpos : 1 ≤ ((next :: rest).map fun part => byteLength part + 1).sum := by
        simp only [List.map_cons, List.sum_cons]
        omega
      rw [joinComma_cons_cons, byteLength_append hpart, byteLength_unit (by decide), List.map_cons,
        List.sum_cons]
      omega

/-- A bracketed text is one byte longer than its parts with their commas, and has two bytes at
least. -/
theorem byteLength_bracket {o c : UInt16} (ho : isAscii o = true) (hc : isAscii c = true)
    (h : ∀ part ∈ parts, WellFormed part) : byteLength (o :: (joinComma parts ++ [c])) =
      1 + max 1 (parts.map fun part => byteLength part + 1).sum := by
  rw [byteLength_unit ho, byteLength_append (wellFormed_joinComma h), byteLength_unit hc,
    byteLength_nil, Nat.zero_add, byteLength_joinComma h, Nat.add_comm]

theorem byteLength_entryText (key text : JsString) :
    byteLength (entryText key text) = byteLength (jsonQuote key) + 1 + byteLength text := by
  rw [entryText, byteLength_append (wellFormed_jsonQuote key), byteLength_unit (by decide)]
  omega

theorem sum_stringifyEntries : ∀ entries : List (JsString × JsValue),
    ((stringifyEntries entries).map fun part => byteLength part + 1).sum = entriesCost entries
  | [] => rfl
  | (key, value) :: rest => by
    have hrest := sum_stringifyEntries rest
    unfold entriesCost at hrest ⊢
    rw [stringifyEntries, List.map_cons, List.sum_cons, entryCost]
    cases stringify value with
    | none => rw [hrest, Nat.zero_add]
    | some text => rw [List.map_cons, List.sum_cons, hrest]

theorem sum_stringifyItems : ∀ items : List JsValue,
    ((stringifyItems items).map fun part => byteLength part + 1).sum = itemsCost items
  | [] => rfl
  | item :: rest => by
    have hrest := sum_stringifyItems rest
    unfold itemsCost at hrest ⊢
    rw [stringifyItems, List.map_cons, List.sum_cons, hrest, List.map_cons, List.sum_cons]
    rfl

theorem bytes_object (entries : List (JsString × JsValue)) :
    bytes (.object entries) = 1 + max 1 (entriesCost entries) := by
  rw [← sum_stringifyEntries]
  exact byteLength_bracket (by decide) (by decide) (wellFormed_stringifyEntries entries)

theorem bytes_array (items : List JsValue) : bytes (.array items) = 1 + max 1 (itemsCost items) := by
  rw [← sum_stringifyItems]
  exact byteLength_bracket (by decide) (by decide) (wellFormed_stringifyItems items)

theorem entriesCost_cons (key : JsString) (value : JsValue) (rest : List (JsString × JsValue)) :
    entriesCost ((key, value) :: rest) = entryCost key value + entriesCost rest := rfl

theorem entryCost_string (key s : JsString) : entryCost key (.string s) =
    byteLength (jsonQuote key) + 1 + byteLength (jsonQuote s) + 1 :=
  congrArg (· + 1) (byteLength_entryText key (jsonQuote s))

/-! ### Strings -/

theorem byteLength_jsonQuote (s : JsString) :
    byteLength (jsonQuote s) = byteLength (quoteBody s) + 2 := by
  rw [jsonQuote, byteLength_unit (by decide), byteLength_append (quoteBody_spec s).2,
    byteLength_unit (by decide), byteLength_nil]

theorem isAscii_hexDigit : ∀ n < 16, isAscii (hexDigit n) = true := by
  decide

theorem isAscii_escape : ∀ pair ∈ escapes, isAscii pair.2 = true :=
  List.forall_iff_forall_mem.mp (by decide)

/-- A unit is spelled with one byte at least, and with six at most. -/
theorem byteLength_escapeUnit (c : UInt16) :
    1 ≤ byteLength (escapeUnit c) ∧ byteLength (escapeUnit c) ≤ 6 := by
  have hwide : byteLength (unicodeEscape c) = 6 := by
    rw [(byteLength_eq_length_iff _).mpr ?_]
    · rfl
    · refine List.all_eq_true.mpr fun d hd => ?_
      rcases mem_unicodeEscape hd with rfl | rfl | ⟨n, hn, rfl⟩
      · rfl
      · rfl
      · exact isAscii_hexDigit n hn
  unfold escapeUnit
  split
  · rename_i letter hletter
    obtain ⟨before, after, hsplit, -⟩ := List.lookup_eq_some_iff.mp hletter
    have hascii := isAscii_escape (c, letter) (by simp [hsplit])
    rw [byteLength_unit (by decide), byteLength_unit hascii, byteLength_nil]
    decide
  · split
    · rw [hwide]
      decide
    · have h := length_le_byteLength [c]
      have hle := byteLength_le [c]
      rw [List.length_singleton] at h hle
      omega

/-- A string is spelled with one byte for a unit at least, and with six at most. -/
theorem byteLength_quoteBody (s : JsString) :
    s.length ≤ byteLength (quoteBody s) ∧ byteLength (quoteBody s) ≤ 6 * s.length := by
  induction s using quoteBody.induct with
  | case1 => exact ⟨Nat.le_refl _, Nat.le_refl _⟩
  | case2 c => exact byteLength_escapeUnit c
  | case3 c d rest hpair ih =>
    obtain ⟨hc, hd⟩ := Bool.and_eq_true_iff.mp hpair
    have hwell : WellFormed [c, d] := .of_pair hc hd
    have hlow := length_le_byteLength [c, d]
    have hhigh := byteLength_le [c, d]
    rw [quoteBody, if_pos hpair]
    have happend := byteLength_append hwell (quoteBody rest)
    simp only [List.cons_append, List.nil_append, List.length_cons, List.length_nil] at happend hlow
    simp only [List.length_cons, List.length_nil] at hhigh ⊢
    omega
  | case4 c d rest hpair ih =>
    have hunit := byteLength_escapeUnit c
    rw [quoteBody, if_neg hpair, byteLength_append (wellFormed_escapeUnit c)]
    simp only [List.length_cons] at ih ⊢
    omega

end Vigil.Ledger.JsonBytes
