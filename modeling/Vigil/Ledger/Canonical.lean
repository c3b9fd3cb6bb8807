import Vigil.Js.Text
import Mathlib.Data.List.Sort

/-! `canonicalize` of `ledger/chain.ts`: JSON text with the keys of every object sorted.  Its values
are those that an observation or a decision carries: what JSON has, and `undefined` and functions,
which the code spells as `null` or leaves out.  Arrays have no holes, and a `bigint` is not a value
here because `JSON.stringify` throws on one. -/

namespace Vigil.Ledger.Canonical

open Js.Text Lib.Bracketed

/-- A number, as `Number::toString` sees it. -/
inductive JsNumber where
  | integer (n : ℤ)
  /-- `±s × 10 ^ (n - k)`, where `s` has `k` digits and `k` is as small as possible. -/
  | decimal (negative : Bool) (s : ℕ) (n : ℤ)
  | notFinite
  deriving DecidableEq, Repr

/-- A value of the language, as far as `canonicalize` tells values apart. -/
inductive JsValue where
  | undefined
  /-- A function or a symbol. -/
  | function
  | null
  | bool (b : Bool)
  | number (x : JsNumber)
  | string (s : JsString)
  | array (items : List JsValue)
  | object (entries : List (JsString × JsValue))

/-- `Number::toString` of `s × 10 ^ (n - k)`. -/
def positiveChars (s : ℕ) (n : ℤ) : List Char :=
  let digits := Nat.toDigits 10 s
  let k : ℤ := digits.length
  if k ≤ n ∧ n ≤ 21 then digits ++ List.replicate (n - k).toNat '0'
  else if 0 < n ∧ n ≤ 21 then digits.take n.toNat ++ '.' :: digits.drop n.toNat
  else if -6 < n ∧ n ≤ 0 then '0' :: '.' :: (List.replicate (-n).toNat '0' ++ digits)
  else
    let sign := if n - 1 < 0 then '-' else '+'
    let exponent := 'e' :: sign :: Nat.toDigits 10 (n - 1).natAbs
    if digits.length = 1 then digits ++ exponent
    else digits.take 1 ++ '.' :: (digits.drop 1 ++ exponent)

/-- `JSON.stringify` of a number. -/
def JsNumber.chars : JsNumber → List Char
  | .integer n => decimalChars n
  | .decimal negative s n => (if negative then ['-'] else []) ++ positiveChars s n
  | .notFinite => ['n', 'u', 'l', 'l']

def joinComma (parts : List JsString) : JsString := (parts.intersperse [0x2C]).flatten

def entryText (key value : JsString) : JsString := jsonQuote key ++ 0x3A :: value

def sortEntries (entries : List (JsString × JsString)) : List (JsString × JsString) :=
  entries.insertionSort fun a b => a.1 ≤ b.1

mutual

def canonicalize : JsValue → JsString
  | .undefined => js "null"
  | .function => js "null"
  | .null => js "null"
  | .bool true => js "true"
  | .bool false => js "false"
  | .number x => encodeUtf16 x.chars
  | .string s => jsonQuote s
  | .array items => 0x5B :: (joinComma (canonicalizeItems items) ++ [0x5D])
  | .object entries =>
    0x7B :: (joinComma ((sortEntries (canonicalizeEntries entries)).map (·.2)) ++ [0x7D])

def canonicalizeItems : List JsValue → List JsString
  | [] => []
  | item :: rest => canonicalize item :: canonicalizeItems rest

/-- The defined entries, each with its key and its text.  The code sorts before it renders; the
order depends on the keys alone. -/
def canonicalizeEntries : List (JsString × JsValue) → List (JsString × JsString)
  | [] => []
  | (_, .undefined) :: rest => canonicalizeEntries rest
  | (key, value) :: rest =>
    (key, entryText key (canonicalize value)) :: canonicalizeEntries rest

end

example : canonicalize (.object [(js "b", .array [.null, .number (.integer 2)]),
    (js "x", .undefined), (js "a", .string (js "\"\n"))]) = js "\x7b\"a\":\"\\\"\\n\",\"b\":[null,2]\x7d" := by
  decide

/-! ### Canonical text ends where it ends -/

/-- Text whose end can be told from the text itself, and that survives UTF-8. -/
structure CanonicalText (text : JsString) : Prop where
  selfContained : SelfContained jsonToken text
  wellFormed : WellFormed text

/-- A letter that nests nothing and quotes nothing. -/
def Inert (c : Char) : Prop := ∀ u ∈ encodeUnits c, jsonToken u = .plain

instance (c : Char) : Decidable (Inert c) :=
  decidable_of_iff ((encodeUnits c).Forall fun u => jsonToken u = .plain)
    List.forall_iff_forall_mem

theorem CanonicalText.of_inert {cs : List Char} (h : ∀ c ∈ cs, Inert c) :
    CanonicalText (encodeUtf16 cs) := by
  refine ⟨.of_plain fun u hu => ?_, ⟨cs, rfl⟩⟩
  obtain ⟨c, hc, hu⟩ := List.mem_flatMap.mp hu
  exact h c hc u hu

variable {c : Char}

theorem inert_of_isDigit (h : c.isDigit = true) : Inert c := by
  have hlt : c.toNat < 128 := by
    simp only [Char.isDigit, Bool.and_eq_true, decide_eq_true_eq] at h
    exact lt_of_le_of_lt (UInt32.le_iff_toNat_le.mp h.2) (by decide)
  have hall : ∀ n < 128, (Char.ofNat n).isDigit = true → Inert (Char.ofNat n) := by decide
  have := hall c.toNat hlt
  rw [Char.ofNat_toNat] at this
  exact this h

theorem inert_of_mem_toDigits {n : ℕ} (h : c ∈ Nat.toDigits 10 n) : Inert c :=
  inert_of_isDigit (isDigit_of_mem_toDigits h)

theorem inert_of_mem_decimalChars {n : ℤ} (h : c ∈ decimalChars n) : Inert c := by
  cases n with
  | ofNat n => exact inert_of_mem_toDigits h
  | negSucc n =>
    rcases List.mem_cons.mp h with rfl | h
    · decide
    · exact inert_of_mem_toDigits h

theorem inert_of_mem_positiveChars {s : ℕ} {n : ℤ} (h : c ∈ positiveChars s n) : Inert c := by
  have hpunctuation : ∀ c ∈ ['0', '.', '-', '+', 'e'], Inert c :=
    List.forall_iff_forall_mem.mp (by decide)
  have hsource : c ∈ ['0', '.', '-', '+', 'e'] ∨ c ∈ Nat.toDigits 10 s ∨
      c ∈ Nat.toDigits 10 (n - 1).natAbs := by
    unfold positiveChars at h
    have htake : ∀ k, c ∈ (Nat.toDigits 10 s).take k → c ∈ Nat.toDigits 10 s :=
      fun _ => List.mem_of_mem_take
    have hdrop : ∀ k, c ∈ (Nat.toDigits 10 s).drop k → c ∈ Nat.toDigits 10 s :=
      fun _ => List.mem_of_mem_drop
    split_ifs at h <;> grind
  rcases hsource with h | h | h
  · exact hpunctuation c h
  · exact inert_of_mem_toDigits h
  · exact inert_of_mem_toDigits h

theorem inert_of_mem_chars {x : JsNumber} (h : c ∈ x.chars) : Inert c := by
  cases x with
  | integer n => exact inert_of_mem_decimalChars h
  | decimal negative s n =>
    rcases List.mem_append.mp h with h | h
    · cases negative with
      | false => simp at h
      | true =>
        obtain rfl : c = '-' := by simpa using h
        decide
    · exact inert_of_mem_positiveChars h
  | notFinite =>
    have hnull : ∀ c ∈ ['n', 'u', 'l', 'l'], Inert c :=
      List.forall_iff_forall_mem.mp (by decide)
    exact hnull c h

theorem canonicalText_jsonQuote (s : JsString) : CanonicalText (jsonQuote s) :=
  ⟨selfContained_jsonQuote s, wellFormed_jsonQuote s⟩

theorem CanonicalText.append {s t : JsString} (hs : CanonicalText s) (ht : CanonicalText t) :
    CanonicalText (s ++ t) :=
  ⟨hs.selfContained.append ht.selfContained, hs.wellFormed.append ht.wellFormed⟩

theorem CanonicalText.entry {value : JsString} (key : JsString) (h : CanonicalText value) :
    CanonicalText (entryText key value) := by
  have hcolon : CanonicalText [0x3A] :=
    ⟨.of_plain (List.forall_mem_singleton.mpr rfl), .of_unit rfl⟩
  exact (canonicalText_jsonQuote key).append (hcolon.append h)

theorem wellFormed_joinComma {parts : List JsString} (h : ∀ part ∈ parts, WellFormed part) :
    WellFormed (joinComma parts) := by
  induction parts with
  | nil => exact .nil
  | cons part rest ih =>
    have hpart := h part List.mem_cons_self
    have hrest := ih fun part hp => h part (List.mem_cons_of_mem _ hp)
    cases rest with
    | nil => simpa [joinComma] using hpart
    | cons next rest => exact hpart.append (WellFormed.append (.of_unit rfl) hrest)

theorem CanonicalText.bracket {o c : UInt16} {parts : List JsString} (ho : jsonToken o = .opening)
    (hc : jsonToken c = .closing) (hounit : isSurrogate o = false) (hcunit : isSurrogate c = false)
    (h : ∀ part ∈ parts, CanonicalText part) :
    CanonicalText (o :: (joinComma parts ++ [c])) where
  selfContained := .bracket ho hc rfl fun part hp => (h part hp).selfContained
  wellFormed := WellFormed.append (.of_unit hounit)
    ((wellFormed_joinComma fun part hp => (h part hp).wellFormed).append (.of_unit hcunit))

theorem canonicalText_js {s : String} (h : s.toList.Forall Inert) : CanonicalText (js s) :=
  .of_inert (List.forall_iff_forall_mem.mp h)

mutual

theorem canonicalize_spec : ∀ value, CanonicalText (canonicalize value)
  | .undefined => canonicalText_js (by decide)
  | .function => canonicalText_js (by decide)
  | .null => canonicalText_js (by decide)
  | .bool true => canonicalText_js (by decide)
  | .bool false => canonicalText_js (by decide)
  | .number _ => .of_inert fun _ => inert_of_mem_chars
  | .string s => canonicalText_jsonQuote s
  | .array items => .bracket rfl rfl rfl rfl (canonicalizeItems_spec items)
  | .object entries => by
    refine .bracket rfl rfl rfl rfl fun part hpart => ?_
    obtain ⟨entry, hentry, rfl⟩ := List.mem_map.mp hpart
    exact canonicalizeEntries_spec entries entry ((List.mem_insertionSort _).mp hentry)

theorem canonicalizeItems_spec :
    ∀ items, ∀ text ∈ canonicalizeItems items, CanonicalText text
  | [], _, h => absurd h List.not_mem_nil
  | item :: rest, text, h => by
    rcases List.mem_cons.mp h with rfl | h
    · exact canonicalize_spec item
    · exact canonicalizeItems_spec rest text h

theorem canonicalizeEntries_spec :
    ∀ entries, ∀ entry ∈ canonicalizeEntries entries, CanonicalText entry.2
  | [], _, h => absurd h List.not_mem_nil
  | (key, value) :: rest, entry, h => by
    have htext := (canonicalize_spec value).entry key
    cases value with
    | undefined => exact canonicalizeEntries_spec rest entry h
    | _ =>
      rcases List.mem_cons.mp h with rfl | h
      · exact htext
      · exact canonicalizeEntries_spec rest entry h

end

end Vigil.Ledger.Canonical
