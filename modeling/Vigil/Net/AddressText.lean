import Vigil.Net.Address
import Mathlib.Data.List.Forall2

/-! Which texts the parser of `monitors/net.ts` accepts, against the text forms of IPv6 addresses:
eight groups of one to four hexadecimal digits between colons, at most one `::` for one group or
more, and a dotted quad for the last two groups.  The parser also accepts a dotted quad that stands
before the `::`. -/

namespace Vigil.Net.AddressText

open Js.Text Address

/-! ### Text forms -/

def colon : UInt16 := 0x3A

/-- A group of one to four hexadecimal digits and its value. -/
structure HexGroup (token : JsString) (group : ℕ) : Prop where
  length_pos : 1 ≤ token.length
  length_le : token.length ≤ 4
  digits : ∀ c ∈ token, isLowerHex c = true
  value : group = parseDigits 16 token

/-- Four decimal numbers up to 255, without leading zeros, with dots between them. -/
structure DottedQuad (text : JsString) (octets : List ℕ) : Prop where
  length : octets.length = 4
  bound : ∀ octet ∈ octets, octet ≤ 255
  text_eq : text = join (octets.map fun n : ℕ => decimal n) (js ".")

/-- Groups of hexadecimal digits, perhaps with a dotted quad after them for two more. -/
inductive Groups : List JsString → List ℕ → Prop
  | hex {tokens : List JsString} {groups : List ℕ} (h : List.Forall₂ HexGroup tokens groups) :
    Groups tokens groups
  | quad {tokens : List JsString} {groups : List ℕ} {text : JsString} {a b c d : ℕ}
    (h : List.Forall₂ HexGroup tokens groups) (hquad : DottedQuad text [a, b, c, d]) :
    Groups (tokens ++ [text]) (groups ++ [a * 256 + b, c * 256 + d])

def joinColon (tokens : List JsString) : JsString := [colon].intercalate tokens

/-- The eight groups that a text form of an IPv6 address stands for. -/
inductive Denotes : JsString → List ℕ → Prop
  | full {tokens : List JsString} {groups : List ℕ} (h : Groups tokens groups)
    (hlength : groups.length = 8) : Denotes (joinColon tokens) groups
  | elided {before after : List JsString} {leading trailing : List ℕ}
    (hleading : List.Forall₂ HexGroup before leading) (htrailing : Groups after trailing)
    (hlength : leading.length + trailing.length ≤ 7) :
    Denotes (joinColon before ++ colon :: colon :: joinColon after)
      (leading ++ List.replicate (8 - leading.length - trailing.length) 0 ++ trailing)

/-- A text that would be a text form if a dotted quad could stand before the `::`. -/
inductive QuadBeforeElision : JsString → List ℕ → Prop
  | mk {before after : List JsString} {quad : JsString} {a b c d : ℕ} {leading trailing : List ℕ}
    (hleading : List.Forall₂ HexGroup before leading) (hquad : DottedQuad quad [a, b, c, d])
    (htrailing : Groups after trailing) (hlength : leading.length + 2 + trailing.length ≤ 7) :
    QuadBeforeElision (joinColon (before ++ [quad]) ++ colon :: colon :: joinColon after)
      (leading ++ [a * 256 + b, c * 256 + d] ++
        List.replicate (8 - (leading.length + 2) - trailing.length) 0 ++ trailing)

/-! ### What `split` returns -/

theorem join_eq_intercalate (parts : List JsString) (separator : JsString) :
    join parts separator = separator.intercalate parts := rfl

theorem splitFrom_ne_nil (separator : JsString) (skip : ℕ) (current s : JsString) :
    splitFrom separator skip current s ≠ [] := by
  fun_induction splitFrom separator skip current s <;> simp_all

theorem splitFrom_singleton (c : UInt16) (current s : JsString) :
    splitFrom [c] 0 current s = (s.splitOn c).modifyHead (current ++ ·) := by
  induction s generalizing current with
  | nil => simp [splitFrom]
  | cons d s ih =>
    obtain ⟨part, parts, hparts⟩ := List.exists_cons_of_ne_nil (List.splitOn_ne_nil c s)
    by_cases hd : d = c
    · subst hd
      simp [splitFrom, ih, List.splitOn_cons_eq_if_modifyHead, hparts]
    · have hd' : ¬c = d := fun h => hd h.symm
      simp [splitFrom, ih, List.splitOn_cons_eq_if_modifyHead, hd, hd', hparts]

theorem split_singleton (c : UInt16) (s : JsString) : split [c] s = s.splitOn c := by
  obtain ⟨part, parts, hparts⟩ := List.exists_cons_of_ne_nil (List.splitOn_ne_nil c s)
  simp [split, splitFrom_singleton, hparts]

variable {separator text : JsString} {c : UInt16} {octets groups : List ℕ} {group : ℕ}
  {tokens before after : List JsString}

theorem intercalate_splitFrom (h : separator ≠ []) (skip : ℕ) (current s : JsString) :
    separator.intercalate (splitFrom separator skip current s) = current ++ s.drop skip := by
  fun_induction splitFrom separator skip current s with
  | case1 skip current => simp
  | case2 current skip c rest ih => simpa using ih
  | case3 current c rest hstarts ih =>
    obtain ⟨after, hafter⟩ := List.isPrefixOf_iff_prefix.mp hstarts
    have hdrop : rest.drop (separator.length - 1) = after := by
      obtain ⟨d, separator, rfl⟩ := List.exists_cons_of_ne_nil h
      obtain ⟨-, rfl⟩ := List.cons.inj hafter
      simp
    rw [List.intercalate_cons_of_ne_nil (splitFrom_ne_nil _ _ _ _), ih, hdrop, List.nil_append,
      List.append_assoc, hafter]
    rfl
  | case4 current c rest hstarts ih => simp [ih]

theorem intercalate_split (h : separator ≠ []) (s : JsString) :
    separator.intercalate (split separator s) = s := by
  rw [split, intercalate_splitFrom h]
  rfl

/-! ### Dotted quads -/

theorem isDigit_spec (h : isDigit c = true) :
    digitValue c < 10 ∧ c = (0x30 + digitValue c).toUInt16 := by
  have hbounds : 0x30 ≤ c.toNat ∧ c.toNat ≤ 0x39 := by
    simpa [isDigit, UInt16.le_iff_toNat_le] using h
  have hvalue : digitValue c = c.toNat - 0x30 := if_pos h
  refine ⟨by omega, ?_⟩
  rw [hvalue, Nat.add_sub_cancel' hbounds.1]
  simp

theorem decimal_one_digit : ∀ c < 10, decimal (c : ℕ) = [(0x30 + c).toUInt16] := by
  decide

theorem decimal_append_digit {m c : ℕ} (hm : 0 < m) (hc : c < 10) :
    decimal (m * 10 + c : ℕ) = decimal (m : ℕ) ++ [(0x30 + c).toUInt16] := by
  have hquotient : (m * 10 + c) / 10 = m := by omega
  have hremainder : (m * 10 + c) % 10 = c := by omega
  have hunit : ∀ c < 10, encodeUtf16 [Nat.digitChar c] = [(0x30 + c).toUInt16] := by decide
  have hdigits : Nat.toDigits 10 (m * 10 + c) = Nat.toDigits 10 m ++ [Nat.digitChar c] := by
    rw [Nat.toDigits_of_base_le (by decide) (by omega), hquotient, hremainder]
  change encodeUtf16 (Nat.toDigits 10 (m * 10 + c)) = encodeUtf16 (Nat.toDigits 10 m) ++ _
  rw [hdigits, ← hunit c hc, encodeUtf16, encodeUtf16, encodeUtf16, List.flatMap_append]

theorem decimal_two_digits {b c : ℕ} (hb : b < 10) (hc : c < 10) (hpos : 0 < b) :
    decimal (b * 10 + c : ℕ) = [(0x30 + b).toUInt16, (0x30 + c).toUInt16] := by
  rw [decimal_append_digit hpos hc, decimal_one_digit b hb]
  rfl

theorem decimal_three_digits {a b c : ℕ} (ha : a < 10) (hb : b < 10) (hc : c < 10)
    (hpos : 0 < a) : decimal ((a * 10 + b) * 10 + c : ℕ) =
      [(0x30 + a).toUInt16, (0x30 + b).toUInt16, (0x30 + c).toUInt16] := by
  rw [decimal_append_digit (by omega) hc, decimal_two_digits ha hb hpos]
  rfl

theorem digitValue_pos (h : isDigit c = true) (hc : c ≠ 0x30) : 0 < digitValue c := by
  obtain ⟨-, hunit⟩ := isDigit_spec h
  refine Nat.pos_of_ne_zero fun hzero => hc ?_
  rw [hunit, hzero]
  rfl

/-- A string of up to three digits without a leading zero is the decimal text of its value. -/
theorem decimal_parseDigits {part : JsString} (hpos : 1 ≤ part.length) (hle : part.length ≤ 3)
    (hdigits : ∀ c ∈ part, isDigit c = true) (hzero : 1 < part.length → part.head? ≠ some 0x30) :
    part = decimal (parseDigits 10 part) := by
  match part, hpos, hle with
  | [c], _, _ =>
    obtain ⟨hc, hunit⟩ := isDigit_spec (hdigits c (by simp))
    have := decimal_one_digit _ hc
    simpa [parseDigits, ← hunit] using this.symm
  | [b, c], _, _ =>
    have hb' := hdigits b (by simp)
    obtain ⟨hb, hbunit⟩ := isDigit_spec hb'
    obtain ⟨hc, hcunit⟩ := isDigit_spec (hdigits c (by simp))
    have hpos := digitValue_pos hb' (by simpa using hzero (by simp))
    have := decimal_two_digits hb hc hpos
    simpa [parseDigits, ← hbunit, ← hcunit] using this.symm
  | [a, b, c], _, _ =>
    have ha' := hdigits a (by simp)
    obtain ⟨ha, haunit⟩ := isDigit_spec ha'
    obtain ⟨hb, hbunit⟩ := isDigit_spec (hdigits b (by simp))
    obtain ⟨hc, hcunit⟩ := isDigit_spec (hdigits c (by simp))
    have hpos := digitValue_pos ha' (by simpa using hzero (by simp))
    have := decimal_three_digits ha hb hc hpos
    simpa [parseDigits, ← haunit, ← hbunit, ← hcunit] using this.symm

theorem parseOctet_decimal : ∀ n < 256, parseOctet (decimal (n : ℕ)) = some n := by
  decide +kernel

theorem parseOctet_eq_some_iff (part : JsString) (n : ℕ) :
    parseOctet part = some n ↔ n ≤ 255 ∧ part = decimal n := by
  constructor
  · intro h
    unfold parseOctet at h
    split at h
    · rename_i hshape
      simp only [Bool.and_eq_true, decide_eq_true_eq, List.all_eq_true] at hshape
      obtain ⟨⟨hpos, hle⟩, hdigits⟩ := hshape
      split at h
      · simp at h
      · rename_i hzero
        split at h
        · simp at h
        · rename_i hbound
          obtain rfl : parseDigits 10 part = n := by simpa using h
          refine ⟨by omega, decimal_parseDigits hpos hle hdigits fun hlong hhead => hzero ?_⟩
          obtain ⟨d, rest, rfl⟩ := List.exists_cons_of_length_pos (l := part) (by omega)
          obtain rfl : d = 0x30 := by simpa using hhead
          have hstarts : startsWith (0x30 :: rest) (js "0") = true := by
            simp [startsWith, js, encodeUtf16, encodeUnits, List.isPrefixOf]
          simp only [hstarts, Bool.and_true, decide_eq_true_eq]
          exact hlong
    · simp at h
  · rintro ⟨hn, rfl⟩
    exact parseOctet_decimal n (by omega)

theorem mapM_parseOctet_eq_some_iff (parts : List JsString) (octets : List ℕ) :
    parts.mapM parseOctet = some octets ↔
      (∀ octet ∈ octets, octet ≤ 255) ∧ parts = octets.map fun n : ℕ => decimal n := by
  induction parts generalizing octets with
  | nil => cases octets <;> simp
  | cons part parts ih =>
    cases octets with
    | nil => simp [Option.bind_eq_some_iff]
    | cons octet octets =>
      simp only [List.mapM_cons, Option.bind_eq_bind, Option.bind_eq_some_iff,
        parseOctet_eq_some_iff, ih, Option.pure_def, Option.some.injEq, List.cons.injEq,
        List.mem_cons, forall_eq_or_imp, List.map_cons]
      constructor
      · rintro ⟨n, ⟨hn, rfl⟩, ns, ⟨hns, rfl⟩, rfl, rfl⟩
        exact ⟨⟨hn, hns⟩, rfl, rfl⟩
      · rintro ⟨⟨hn, hns⟩, rfl, rfl⟩
        exact ⟨octet, ⟨hn, rfl⟩, octets, ⟨hns, rfl⟩, rfl, rfl⟩

theorem js_dot : js "." = [0x2E] := rfl

theorem isDigit_of_mem_decimal {n : ℕ} (h : c ∈ decimal (n : ℕ)) : isDigit c = true := by
  have hdigit : ∀ c < 10, isDigit (0x30 + c : ℕ).toUInt16 = true := by decide
  induction n using Nat.strong_induction_on with
  | _ n ih =>
    by_cases hsmall : n < 10
    · rw [decimal_one_digit n hsmall, List.mem_singleton] at h
      exact h ▸ hdigit n hsmall
    · have hsplit : n / 10 * 10 + n % 10 = n := by omega
      rw [← hsplit, decimal_append_digit (by omega) (by omega), List.mem_append,
        List.mem_singleton] at h
      rcases h with h | h
      · exact ih (n / 10) (by omega) h
      · exact h ▸ hdigit (n % 10) (by omega)

theorem dot_notMem_decimal (n : ℕ) : (0x2E : UInt16) ∉ decimal n :=
  fun h => absurd (isDigit_of_mem_decimal h) (by decide)

theorem parseIPv4_eq_some_iff (value : JsString) (octets : List ℕ) :
    parseIPv4 value = some octets ↔ DottedQuad value octets := by
  unfold parseIPv4
  rw [js_dot, split_singleton]
  constructor
  · intro h
    obtain ⟨hlength, h⟩ := Option.ite_none_left_eq_some.mp h
    obtain ⟨hbound, hparts⟩ := (mapM_parseOctet_eq_some_iff _ _).mp h
    refine ⟨by simpa [hparts] using hlength, hbound, ?_⟩
    rw [← hparts]
    exact (List.intercalate_splitOn _).symm
  · rintro ⟨hlength, hbound, rfl⟩
    have hparts : (join (octets.map fun n : ℕ => decimal n) (js ".")).splitOn 0x2E =
        octets.map fun n : ℕ => decimal n := by
      refine List.splitOn_intercalate _ (fun part hpart => ?_) ?_
      · obtain ⟨n, -, rfl⟩ := List.mem_map.mp hpart
        exact dot_notMem_decimal n
      · rintro hnil
        simp_all
    rw [hparts, if_neg (by simpa using hlength), mapM_parseOctet_eq_some_iff]
    exact ⟨hbound, rfl⟩

theorem mem_intercalate {parts : List JsString} (h : c ∈ separator.intercalate parts) :
    c ∈ separator ∨ ∃ part ∈ parts, c ∈ part := by
  induction parts with
  | nil => simp at h
  | cons part parts ih =>
    by_cases hparts : parts = []
    · subst hparts
      exact .inr ⟨part, by simp, by simpa using h⟩
    · rw [List.intercalate_cons_of_ne_nil hparts, List.append_assoc, List.mem_append,
        List.mem_append] at h
      rcases h with h | h | h
      · exact .inr ⟨part, by simp, h⟩
      · exact .inl h
      · rcases ih h with h | ⟨part, hpart, h⟩
        · exact .inl h
        · exact .inr ⟨part, by simp [hpart], h⟩

theorem DottedQuad.mem (h : DottedQuad text octets) (hc : c ∈ text) :
    isDigit c = true ∨ c = 0x2E := by
  rw [h.text_eq] at hc
  rcases mem_intercalate hc with hc | ⟨part, hpart, hc⟩
  · exact .inr (by simpa [js_dot] using hc)
  · obtain ⟨n, -, rfl⟩ := List.mem_map.mp hpart
    exact .inl (isDigit_of_mem_decimal hc)

theorem DottedQuad.exists_four (h : DottedQuad text octets) : ∃ a b c d, octets = [a, b, c, d] := by
  match octets, h.length with
  | [a, b, c, d], _ => exact ⟨a, b, c, d, rfl⟩

theorem DottedQuad.dot_mem (h : DottedQuad text octets) : (0x2E : UInt16) ∈ text := by
  obtain ⟨a, b, c, d, rfl⟩ := h.exists_four
  rw [h.text_eq]
  simp [join, js_dot]

/-! ### Groups -/

theorem shiftLeft_or {a b : ℕ} (hb : b ≤ 255) : a <<< 8 ||| b = a * 256 + b := by
  have hb : b < 2 ^ 8 := by omega
  rw [Nat.shiftLeft_eq, Nat.mul_comm, ← Nat.two_pow_add_eq_or_of_lt hb, Nat.mul_comm]

theorem isLowerHex_of_isDigit (h : isDigit c = true) : isLowerHex c = true := by
  simp [isLowerHex, h]

theorem HexGroup.dot_notMem {token : JsString} (h : HexGroup token group) :
    (0x2E : UInt16) ∉ token := by
  intro hdot
  have := h.digits _ hdot
  revert this
  decide

theorem Groups.eq_nil (h : Groups [] groups) : groups = [] := by
  generalize htokens : ([] : List JsString) = tokens at h
  cases h with
  | hex h =>
    subst htokens
    cases h
    rfl
  | quad h hquad => simp at htokens

theorem Groups.cons {token : JsString} {tokens : List JsString} {group : ℕ} {groups : List ℕ}
    (hgroup : HexGroup token group) (h : Groups tokens groups) :
    Groups (token :: tokens) (group :: groups) := by
  cases h with
  | hex h => exact .hex (.cons hgroup h)
  | @quad tokens groups text a b c d h hquad =>
    have := Groups.quad (List.Forall₂.cons hgroup h) hquad
    simpa using this

theorem Groups.singleton {a b c d : ℕ} (hquad : DottedQuad text [a, b, c, d]) :
    Groups [text] [a * 256 + b, c * 256 + d] := by
  have := Groups.quad List.Forall₂.nil hquad
  simpa using this

theorem Groups.cons_inv {token : JsString} (h : Groups (token :: tokens) groups) :
    (∃ group rest, HexGroup token group ∧ Groups tokens rest ∧ groups = group :: rest) ∨
      (∃ a b c d, DottedQuad token [a, b, c, d] ∧ tokens = [] ∧
        groups = [a * 256 + b, c * 256 + d]) := by
  generalize htokens : token :: tokens = all at h
  cases h with
  | hex h =>
    subst htokens
    cases h with
    | cons hgroup h => exact .inl ⟨_, _, hgroup, .hex h, rfl⟩
  | @quad before leading text a b c d h hquad =>
    cases h with
    | nil =>
      obtain ⟨rfl, rfl⟩ := List.cons.inj htokens
      exact .inr ⟨a, b, c, d, hquad, rfl, rfl⟩
    | cons hgroup h =>
      obtain ⟨rfl, rfl⟩ := List.cons.inj htokens
      exact .inl ⟨_, _, hgroup, .quad h hquad, rfl⟩

theorem parseIPv4_groups {token : JsString}
    (h : ((parseIPv4 token).map fun octets => [octets.getD 0 0 <<< 8 ||| octets.getD 1 0,
      octets.getD 2 0 <<< 8 ||| octets.getD 3 0]) = some groups) :
    ∃ a b c d, DottedQuad token [a, b, c, d] ∧ groups = [a * 256 + b, c * 256 + d] := by
  obtain ⟨octets, hoctets, rfl⟩ := Option.map_eq_some_iff.mp h
  have hquad := (parseIPv4_eq_some_iff _ _).mp hoctets
  obtain ⟨a, b, c, d, rfl⟩ := hquad.exists_four
  refine ⟨a, b, c, d, hquad, ?_⟩
  have hb := hquad.bound b (by simp)
  have hd := hquad.bound d (by simp)
  simp [shiftLeft_or hb, shiftLeft_or hd]

theorem expandTokens_eq_some (h : expandTokens tokens = some groups) : Groups tokens groups := by
  induction tokens generalizing groups with
  | nil =>
    obtain rfl : [] = groups := Option.some_inj.mp h
    exact .hex .nil
  | cons token tokens ih =>
    rw [expandTokens] at h
    split at h
    · obtain ⟨hlast, h⟩ := Option.ite_none_left_eq_some.mp h
      obtain rfl : tokens = [] := not_not.mp hlast
      obtain ⟨a, b, c, d, hquad, rfl⟩ := parseIPv4_groups h
      exact .singleton hquad
    · obtain ⟨hshape, h⟩ := Option.ite_none_right_eq_some.mp h
      obtain ⟨rest, hrest, rfl⟩ := Option.map_eq_some_iff.mp h
      simp only [Bool.and_eq_true, decide_eq_true_eq, List.all_eq_true] at hshape
      exact .cons ⟨hshape.1.1, hshape.1.2, hshape.2, rfl⟩ (ih hrest)

theorem Groups.expandTokens_eq (h : Groups tokens groups) : expandTokens tokens = some groups := by
  induction tokens generalizing groups with
  | nil => rw [h.eq_nil, expandTokens]
  | cons token tokens ih =>
    rw [expandTokens]
    rcases h.cons_inv with ⟨group, rest, hgroup, hrest, rfl⟩ | ⟨a, b, c, d, hquad, rfl, rfl⟩
    · have hshape : (decide (1 ≤ token.length) && decide (token.length ≤ 4) &&
          token.all isLowerHex) = true := by
        simp [hgroup.length_pos, hgroup.length_le, List.all_eq_true.mpr hgroup.digits]
      rw [if_neg (by simpa using hgroup.dot_notMem), if_pos hshape, ih hrest, hgroup.value]
      rfl
    · have hb := hquad.bound b (by simp)
      have hd := hquad.bound d (by simp)
      rw [if_pos (by simpa using hquad.dot_mem), if_neg (by simp),
        (parseIPv4_eq_some_iff _ _).mpr hquad]
      simp [shiftLeft_or hb, shiftLeft_or hd]

/-- A unit of a text form. -/
def isTextUnit (c : UInt16) : Bool := isLowerHex c || c = 0x2E || c = colon

theorem HexGroup.mem {token : JsString} (h : HexGroup token group) (hc : c ∈ token) :
    isLowerHex c = true ∨ c = 0x2E :=
  .inl (h.digits c hc)

/-- Each token of a text form has units, and no colon among them. -/
theorem Groups.token (h : Groups tokens groups) :
    ∀ token ∈ tokens, token ≠ [] ∧ ∀ c ∈ token, isLowerHex c = true ∨ c = 0x2E := by
  induction tokens generalizing groups with
  | nil => simp
  | cons token tokens ih =>
    rintro t ht
    rcases h.cons_inv with ⟨group, rest, hgroup, hrest, rfl⟩ | ⟨a, b, c, d, hquad, rfl, rfl⟩
    · rcases List.mem_cons.mp ht with rfl | ht
      · exact ⟨List.ne_nil_of_length_pos hgroup.length_pos, fun c => hgroup.mem⟩
      · exact ih hrest t ht
    · obtain rfl : t = token := by simpa using ht
      exact ⟨List.ne_nil_of_mem hquad.dot_mem,
        fun c hc => (hquad.mem hc).imp_left isLowerHex_of_isDigit⟩

theorem colon_notMem {token : JsString} (h : ∀ c ∈ token, isLowerHex c = true ∨ c = 0x2E) :
    colon ∉ token := by
  intro hcolon
  rcases h _ hcolon with h | h
  · revert h
    decide
  · revert h
    decide

theorem joinColon_cons (token : JsString) (h : tokens ≠ []) :
    joinColon (token :: tokens) = token ++ colon :: joinColon tokens := by
  rw [joinColon, List.intercalate_cons_of_ne_nil h]
  simp [joinColon]

theorem joinColon_eq_nil (h : ∀ token ∈ tokens, token ≠ []) :
    joinColon tokens = [] ↔ tokens = [] := by
  constructor
  · intro hnil
    cases tokens with
    | nil => rfl
    | cons token tokens =>
      have htoken := h token (by simp)
      by_cases htokens : tokens = []
      · subst htokens
        exact absurd (by simpa [joinColon] using hnil) htoken
      · rw [joinColon_cons token htokens] at hnil
        simp at hnil
  · rintro rfl
    rfl

theorem js_colon : js ":" = [colon] := rfl

theorem js_elision : js "::" = [colon, colon] := rfl

theorem expandGroups_eq_some_iff (segment : JsString) (groups : List ℕ) :
    expandGroups segment = some groups ↔
      groups.length ≤ 8 ∧ ∃ tokens, segment = joinColon tokens ∧ Groups tokens groups := by
  rw [expandGroups, js_colon, split_singleton]
  constructor
  · intro h
    split at h
    · rename_i hempty
      obtain rfl : [] = groups := Option.some_inj.mp h
      exact ⟨by simp, [], List.length_eq_zero_iff.mp hempty, .hex .nil⟩
    · obtain ⟨h, hlength⟩ := Option.filter_eq_some_iff.mp h
      exact ⟨by simpa using hlength, segment.splitOn colon,
        (List.intercalate_splitOn colon).symm, expandTokens_eq_some h⟩
  · rintro ⟨hlength, tokens, rfl, h⟩
    have htokens := h.token
    by_cases hnil : tokens = []
    · subst hnil
      rw [h.eq_nil]
      rfl
    · have hsegment : joinColon tokens ≠ [] := by
        rwa [ne_eq, joinColon_eq_nil fun token htoken => (htokens token htoken).1]
      have hsplit : (joinColon tokens).splitOn colon = tokens :=
        List.splitOn_intercalate _ (fun token htoken => colon_notMem (htokens token htoken).2) hnil
      rw [if_neg (by simpa using hsegment), hsplit, h.expandTokens_eq]
      simpa using hlength

/-! ### The elision -/

theorem splitFrom_token {token : JsString} (h : colon ∉ token) (current rest : JsString) :
    splitFrom [colon, colon] 0 current (token ++ rest) =
      splitFrom [colon, colon] 0 (current ++ token) rest := by
  induction token generalizing current with
  | nil => simp
  | cons c token ih =>
    have hc : ¬colon = c := fun hc => h (by simp [hc])
    have hstarts : [colon, colon].isPrefixOf (c :: (token ++ rest)) = false := by
      simp [List.isPrefixOf, hc]
    rw [List.cons_append, splitFrom, hstarts, if_neg (by simp), ih fun hmem => h (by simp [hmem])]
    simp

theorem joinColon_head (hnil : tokens ≠ []) (h : ∀ token ∈ tokens, token ≠ [] ∧ colon ∉ token)
    (rest : JsString) : ∃ c after, joinColon tokens ++ rest = c :: after ∧ c ≠ colon := by
  obtain ⟨token, tokens, rfl⟩ := List.exists_cons_of_ne_nil hnil
  obtain ⟨hne, hcolon⟩ := h token (by simp)
  obtain ⟨c, token, rfl⟩ := List.exists_cons_of_ne_nil hne
  refine ⟨c, token ++ ((joinColon ((c :: token) :: tokens)).drop (token.length + 1) ++ rest), ?_,
    fun hc => hcolon (by simp [hc])⟩
  by_cases htokens : tokens = []
  · subst htokens
    simp [joinColon]
  · simp [joinColon_cons _ htokens]

theorem splitFrom_joinColon (h : ∀ token ∈ tokens, token ≠ [] ∧ colon ∉ token)
    (current rest : JsString) : splitFrom [colon, colon] 0 current (joinColon tokens ++ rest) =
      splitFrom [colon, colon] 0 (current ++ joinColon tokens) rest := by
  induction tokens generalizing current with
  | nil => simp [joinColon]
  | cons token tokens ih =>
    have htoken := (h token (by simp)).2
    have htokens : ∀ t ∈ tokens, t ≠ [] ∧ colon ∉ t := fun t ht => h t (by simp [ht])
    by_cases hnil : tokens = []
    · subst hnil
      simpa [joinColon] using splitFrom_token htoken current rest
    · obtain ⟨c, after, hafter, hc⟩ := joinColon_head hnil htokens rest
      have hstarts : [colon, colon].isPrefixOf (colon :: (joinColon tokens ++ rest)) = false := by
        simp [hafter, List.isPrefixOf, hc.symm]
      rw [joinColon_cons token hnil, List.append_assoc, splitFrom_token htoken, List.cons_append,
        splitFrom, hstarts, if_neg (by simp), ih htokens]
      simp

theorem split_elision_full (h : ∀ token ∈ tokens, token ≠ [] ∧ colon ∉ token) :
    split (js "::") (joinColon tokens) = [joinColon tokens] := by
  have := splitFrom_joinColon h [] []
  rwa [List.append_nil, List.nil_append, splitFrom] at this

theorem split_elision_elided (hbefore : ∀ token ∈ before, token ≠ [] ∧ colon ∉ token)
    (hafter : ∀ token ∈ after, token ≠ [] ∧ colon ∉ token) :
    split (js "::") (joinColon before ++ colon :: colon :: joinColon after) =
      [joinColon before, joinColon after] := by
  have hstarts : [colon, colon].isPrefixOf (colon :: colon :: joinColon after) = true := by
    simp [List.isPrefixOf]
  rw [split, js_elision, splitFrom_joinColon hbefore, splitFrom, hstarts, if_pos rfl]
  have hrest : splitFrom [colon, colon] 0 [] (joinColon after) = [joinColon after] :=
    split_elision_full hafter
  simp [splitFrom, hrest]

theorem Groups.plain (h : Groups tokens groups) : ∀ token ∈ tokens, token ≠ [] ∧ colon ∉ token := by
  intro token htoken
  obtain ⟨hne, hunits⟩ := h.token token htoken
  exact ⟨hne, colon_notMem hunits⟩

/-- What a text with one elision stands for, to the parser. -/
theorem parseIPv6_elided {leading trailing : List ℕ} (hleading : Groups before leading)
    (htrailing : Groups after trailing) (hlength : leading.length + trailing.length ≤ 7) :
    parseIPv6 (joinColon before ++ colon :: colon :: joinColon after) =
      some (leading ++ List.replicate (8 - leading.length - trailing.length) 0 ++ trailing) := by
  have hbefore : expandGroups (joinColon before) = some leading :=
    (expandGroups_eq_some_iff _ _).mpr ⟨by omega, before, rfl, hleading⟩
  have hafter : expandGroups (joinColon after) = some trailing :=
    (expandGroups_eq_some_iff _ _).mpr ⟨by omega, after, rfl, htrailing⟩
  rw [parseIPv6, split_elision_elided hleading.plain htrailing.plain]
  simp only [hbefore, hafter]
  rw [if_neg (by omega)]

theorem Denotes.parseIPv6_eq (h : Denotes text groups) : parseIPv6 text = some groups := by
  cases h with
  | full h hlength =>
    rw [parseIPv6, split_elision_full h.plain]
    have := (expandGroups_eq_some_iff _ _).mpr ⟨hlength.le, _, rfl, h⟩
    simp [this, hlength]
  | elided hleading htrailing hlength =>
    exact parseIPv6_elided (.hex hleading) htrailing hlength

theorem QuadBeforeElision.parseIPv6_eq (h : QuadBeforeElision text groups) :
    parseIPv6 text = some groups := by
  obtain ⟨hleading, hquad, htrailing, hlength⟩ := h
  have := parseIPv6_elided (.quad hleading hquad) htrailing (by simpa using hlength)
  simpa using this

/-- The parser accepts the text forms, and those with a dotted quad before the elision. -/
theorem parseIPv6_eq_some_iff (text : JsString) (groups : List ℕ) :
    parseIPv6 text = some groups ↔ Denotes text groups ∨ QuadBeforeElision text groups := by
  constructor
  · intro h
    have hjoin : (js "::").intercalate (split (js "::") text) = text :=
      intercalate_split (by simp [js_elision]) text
    unfold parseIPv6 at h
    split at h
    · rename_i head hsplit
      obtain ⟨h, hlength⟩ := Option.filter_eq_some_iff.mp h
      obtain ⟨-, tokens, rfl, hgroups⟩ := (expandGroups_eq_some_iff _ _).mp h
      rw [hsplit, List.intercalate_singleton] at hjoin
      exact .inl (hjoin ▸ .full hgroups (by simpa using hlength))
    · rename_i head tail hsplit
      split at h
      · rename_i leading trailing hleading htrailing
        obtain ⟨hlength, h⟩ := Option.ite_none_left_eq_some.mp h
        obtain ⟨-, before, rfl, hbefore⟩ := (expandGroups_eq_some_iff _ _).mp hleading
        obtain ⟨-, after, rfl, hafter⟩ := (expandGroups_eq_some_iff _ _).mp htrailing
        cases h
        have htext : text = joinColon before ++ colon :: colon :: joinColon after := by
          rw [← hjoin, hsplit, js_elision]
          simp
        subst htext
        cases hbefore with
        | hex hbefore => exact .inl (.elided hbefore hafter (by omega))
        | quad hbefore hquad =>
          refine .inr ?_
          have := QuadBeforeElision.mk hbefore hquad hafter (by simp at hlength; omega)
          simpa using this
      · simp at h
    · simp at h
  · rintro (h | h)
    · exact h.parseIPv6_eq
    · exact h.parseIPv6_eq

theorem mem_joinColon {token : JsString} (ht : token ∈ tokens) (hc : c ∈ token) :
    c ∈ joinColon tokens := by
  induction tokens with
  | nil => simp at ht
  | cons first tokens ih =>
    by_cases hnil : tokens = []
    · subst hnil
      obtain rfl : token = first := by simpa using ht
      simpa [joinColon] using hc
    · rw [joinColon_cons first hnil, List.mem_append, List.mem_cons]
      rcases List.mem_cons.mp ht with rfl | ht
      · exact .inl hc
      · exact .inr (.inr (ih ht))

theorem dot_notMem_joinColon (h : List.Forall₂ HexGroup tokens groups) :
    (0x2E : UInt16) ∉ joinColon tokens := by
  have htokens : ∀ token ∈ tokens, (0x2E : UInt16) ∉ token := by
    induction h with
    | nil => simp
    | cons hgroup _ ih => exact List.forall_mem_cons.mpr ⟨hgroup.dot_notMem, ih⟩
  intro hdot
  rcases mem_intercalate hdot with hdot | ⟨token, htoken, hdot⟩
  · revert hdot
    decide
  · exact htokens token htoken hdot

theorem QuadBeforeElision.not_denotes {groups groups' : List ℕ}
    (h : QuadBeforeElision text groups) : ¬Denotes text groups' := by
  obtain ⟨hleading, hquad, htrailing, -⟩ := h
  intro h
  have hparts := split_elision_elided (Groups.quad hleading hquad).plain htrailing.plain
  generalize htext : joinColon _ ++ colon :: colon :: joinColon _ = text at h hparts
  cases h with
  | full h hlength =>
    rw [split_elision_full h.plain] at hparts
    simp at hparts
  | elided hleading' htrailing' hlength =>
    rw [split_elision_elided (Groups.hex hleading').plain htrailing'.plain] at hparts
    have hhead := (List.cons.inj hparts).1
    refine dot_notMem_joinColon hleading' ?_
    rw [hhead]
    exact mem_joinColon (by simp) hquad.dot_mem

/-! ### The units of an accepted text -/

theorem Groups.isTextUnit (h : Groups tokens groups) (hc : c ∈ joinColon tokens) :
    isTextUnit c = true := by
  rcases mem_intercalate hc with hc | ⟨token, htoken, hc⟩
  · simp_all [AddressText.isTextUnit]
  · rcases (h.token token htoken).2 c hc with hc | hc
    · simp [AddressText.isTextUnit, hc]
    · simp [AddressText.isTextUnit, hc]

theorem isTextUnit_elided {leading trailing : List ℕ} (hbefore : Groups before leading)
    (hafter : Groups after trailing)
    (hc : c ∈ joinColon before ++ colon :: colon :: joinColon after) : isTextUnit c = true := by
  simp only [List.mem_append, List.mem_cons] at hc
  rcases hc with hc | rfl | rfl | hc
  · exact hbefore.isTextUnit hc
  · rfl
  · rfl
  · exact hafter.isTextUnit hc

theorem Denotes.isTextUnit (h : Denotes text groups) (hc : c ∈ text) : isTextUnit c = true := by
  cases h with
  | full h => exact h.isTextUnit hc
  | elided hleading htrailing => exact isTextUnit_elided (.hex hleading) htrailing hc

theorem QuadBeforeElision.isTextUnit (h : QuadBeforeElision text groups) (hc : c ∈ text) :
    isTextUnit c = true := by
  obtain ⟨hleading, hquad, htrailing, -⟩ := h
  exact isTextUnit_elided (.quad hleading hquad) htrailing hc

theorem DottedQuad.isTextUnit (h : DottedQuad text octets) (hc : c ∈ text) :
    isTextUnit c = true := by
  rcases h.mem hc with hc | hc
  · simp [AddressText.isTextUnit, isLowerHex_of_isDigit hc]
  · simp [AddressText.isTextUnit, hc]

theorem DottedQuad.parseIPv6_eq (h : DottedQuad text octets) : parseIPv6 text = none := by
  obtain ⟨a, b, c, d, rfl⟩ := h.exists_four
  have htoken := Groups.singleton h
  have hgroups := (expandGroups_eq_some_iff (joinColon [text]) _).mpr ⟨by simp, _, rfl, htoken⟩
  have hsplit := split_elision_full htoken.plain
  rw [show joinColon [text] = text by simp [joinColon]] at hgroups hsplit
  rw [parseIPv6, hsplit]
  simp [hgroups]

/-! ### Sixteen bits -/

theorem foldl_digits_lt {base : ℕ} {s : JsString} (h : ∀ c ∈ s, digitValue c < base) (n : ℕ) :
    s.foldl (fun n c => n * base + digitValue c) n < (n + 1) * base ^ s.length := by
  induction s generalizing n with
  | nil => simp
  | cons c s ih =>
    have hc := h c (by simp)
    calc s.foldl (fun n c => n * base + digitValue c) (n * base + digitValue c)
        < (n * base + digitValue c + 1) * base ^ s.length := ih (fun d hd => h d (by simp [hd])) _
      _ ≤ (n + 1) * base * base ^ s.length := by
        refine Nat.mul_le_mul_right _ ?_
        rw [Nat.succ_mul]
        omega
      _ = (n + 1) * base ^ (c :: s).length := by
        rw [List.length_cons, Nat.pow_succ']
        ac_rfl

theorem digitValue_lt (h : isLowerHex c = true) : digitValue c < 16 := by
  rw [isLowerHex, Bool.or_eq_true] at h
  rcases h with h | h
  · have := (isDigit_spec h).1
    omega
  · have hbounds : 0x61 ≤ c.toNat ∧ c.toNat ≤ 0x66 := by
      simpa [UInt16.le_iff_toNat_le] using h
    by_cases hdigit : isDigit c = true
    · have := (isDigit_spec hdigit).1
      omega
    · rw [digitValue, if_neg hdigit]
      omega

theorem HexGroup.lt {token : JsString} (h : HexGroup token group) : group < 2 ^ 16 := by
  have hlt := foldl_digits_lt (fun c hc => digitValue_lt (h.digits c hc)) 0
  have hpow : 16 ^ token.length ≤ 16 ^ 4 := Nat.pow_le_pow_right (by decide) h.length_le
  rw [h.value, parseDigits]
  omega

theorem Groups.lt (h : Groups tokens groups) : ∀ group ∈ groups, group < 2 ^ 16 := by
  induction tokens generalizing groups with
  | nil => simp [h.eq_nil]
  | cons token tokens ih =>
    rcases h.cons_inv with ⟨group, rest, hgroup, hrest, rfl⟩ | ⟨a, b, c, d, hquad, rfl, rfl⟩
    · exact List.forall_mem_cons.mpr ⟨hgroup.lt, ih hrest⟩
    · have ha := hquad.bound a (by simp)
      have hb := hquad.bound b (by simp)
      have hc := hquad.bound c (by simp)
      have hd := hquad.bound d (by simp)
      simp only [List.mem_cons, List.not_mem_nil, or_false]
      rintro group (rfl | rfl)
      · omega
      · omega

theorem Denotes.lt (h : Denotes text groups) :
    groups.length = 8 ∧ ∀ group ∈ groups, group < 2 ^ 16 := by
  cases h with
  | full h hlength => exact ⟨hlength, h.lt⟩
  | elided hleading htrailing hlength =>
    refine ⟨by simp; omega, fun group hgroup => ?_⟩
    simp only [List.mem_append, List.mem_replicate] at hgroup
    rcases hgroup with (hgroup | ⟨-, rfl⟩) | hgroup
    · exact (Groups.hex hleading).lt group hgroup
    · decide
    · exact htrailing.lt group hgroup

end Vigil.Net.AddressText
