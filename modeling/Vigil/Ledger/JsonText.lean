import Vigil.Ledger.JsonNumber

/-! `JSON.stringify` and `JSON.parse` on the values of `Ledger.Canonical`.  Every value that JSON has
is read back from its text, whatever stands behind the text. -/

namespace Vigil.Ledger.JsonText

open Js.Text Canonical JsonNumber

/-! ### Writing -/

mutual

/-- `JSON.stringify(value)`; `none` stands for `undefined`. -/
def stringify : JsValue → Option JsString
  | .undefined => none
  | .function => none
  | .null => some (js "null")
  | .bool true => some (js "true")
  | .bool false => some (js "false")
  | .number x => some (encodeUtf16 x.chars)
  | .string s => some (jsonQuote s)
  | .array items => some (0x5B :: (joinComma (stringifyItems items) ++ [0x5D]))
  | .object entries => some (0x7B :: (joinComma (stringifyEntries entries) ++ [0x7D]))

/-- An item that has no text is written as `null`. -/
def stringifyItems : List JsValue → List JsString
  | [] => []
  | item :: rest => (stringify item).getD (js "null") :: stringifyItems rest

/-- An entry whose value has no text is left out. -/
def stringifyEntries : List (JsString × JsValue) → List JsString
  | [] => []
  | (key, value) :: rest =>
    match stringify value with
    | none => stringifyEntries rest
    | some text => entryText key text :: stringifyEntries rest

end

/-! ### Reading -/

def hexDigitValue (c : UInt16) : Option ℕ :=
  if 0x30 ≤ c ∧ c ≤ 0x39 then some (c.toNat - 0x30)
  else if 0x61 ≤ c ∧ c ≤ 0x66 then some (c.toNat - 0x61 + 10)
  else if 0x41 ≤ c ∧ c ≤ 0x46 then some (c.toNat - 0x41 + 10)
  else none

/-- The unit that four digits name. -/
def readHex (h₃ h₂ h₁ h₀ : UInt16) : Option UInt16 :=
  (hexDigitValue h₃).bind fun a => (hexDigitValue h₂).bind fun b =>
    (hexDigitValue h₁).bind fun c => (hexDigitValue h₀).map fun d =>
      (a * 4096 + b * 256 + c * 16 + d).toUInt16

/-- The unit that a letter after a backslash stands for. -/
def unescape (e : UInt16) : Option UInt16 :=
  if e = 0x2F then some e else (escapes.find? fun pair => pair.2 = e).map (·.1)

def prepend (c : UInt16) (read : Option (JsString × JsString)) : Option (JsString × JsString) :=
  read.map fun (s, rest) => (c :: s, rest)

/-- A string and what follows its closing quotation mark. -/
def readString : JsString → Option (JsString × JsString)
  | [] => none
  | c :: rest =>
    if c = quotationMark then some ([], rest)
    else if c = backslash then
      match rest with
      | [] => none
      | e :: rest =>
        if e = 0x75 then
          match rest with
          | h₃ :: h₂ :: h₁ :: h₀ :: rest =>
            (readHex h₃ h₂ h₁ h₀).bind fun u => prepend u (readString rest)
          | _ => none
        else (unescape e).bind fun u => prepend u (readString rest)
    else if c < 0x20 then none
    else prepend c (readString rest)

def isSpace (c : UInt16) : Bool := c = 0x20 || c = 0x09 || c = 0x0A || c = 0x0D

def skipSpace (text : JsString) : JsString := text.dropWhile isSpace

def readLiteral (name : JsString) (value : JsValue) (text : JsString) :
    Option (JsValue × JsString) :=
  if name.isPrefixOf text then some (value, text.drop name.length) else none

/-- A key that comes again keeps its place and takes the new value. -/
def setEntry (entries : List (JsString × JsValue)) (entry : JsString × JsValue) :
    List (JsString × JsValue) :=
  if entries.any fun e => e.1 = entry.1 then
    entries.map fun e => if e.1 = entry.1 then entry else e
  else entries ++ [entry]

mutual

/-- Reads one value, with fuel for the depth and the length; a key that comes again has its last
value. -/
def readValue : ℕ → JsString → Option (JsValue × JsString)
  | 0, _ => none
  | fuel + 1, text =>
    match skipSpace text with
    | [] => none
    | c :: rest =>
      if c = 0x7B then
        if (skipSpace rest).head? = some 0x7D then some (.object [], (skipSpace rest).tail)
        else
          (readMembers fuel rest).map fun (members, rest) =>
            (.object (members.foldl setEntry []), rest)
      else if c = 0x5B then
        if (skipSpace rest).head? = some 0x5D then some (.array [], (skipSpace rest).tail)
        else (readElements fuel rest).map fun (items, rest) => (.array items, rest)
      else if c = quotationMark then (readString rest).map fun (s, rest) => (.string s, rest)
      else if c = 0x74 then readLiteral (js "true") (.bool true) (c :: rest)
      else if c = 0x66 then readLiteral (js "false") (.bool false) (c :: rest)
      else if c = 0x6E then readLiteral (js "null") .null (c :: rest)
      else (readNumber (c :: rest)).map fun (x, rest) => (.number x, rest)

def readElements : ℕ → JsString → Option (List JsValue × JsString)
  | 0, _ => none
  | fuel + 1, text =>
    (readValue fuel text).bind fun (item, rest) =>
      if (skipSpace rest).head? = some 0x2C then
        (readElements fuel (skipSpace rest).tail).map fun (items, rest) => (item :: items, rest)
      else if (skipSpace rest).head? = some 0x5D then some ([item], (skipSpace rest).tail)
      else none

/-- Reads the members of an object up to its closing brace. -/
def readMembers : ℕ → JsString → Option (List (JsString × JsValue) × JsString)
  | 0, _ => none
  | fuel + 1, text =>
    if (skipSpace text).head? = some quotationMark then
      (readString (skipSpace text).tail).bind fun (key, rest) =>
        if (skipSpace rest).head? = some 0x3A then
          (readValue fuel (skipSpace rest).tail).bind fun (value, rest) =>
            if (skipSpace rest).head? = some 0x2C then
              (readMembers fuel (skipSpace rest).tail).map fun (members, rest) =>
                ((key, value) :: members, rest)
            else if (skipSpace rest).head? = some 0x7D then
              some ([(key, value)], (skipSpace rest).tail)
            else none
        else none
    else none

end

/-- `JSON.parse(text)`; `none` stands for the error it throws. -/
def parse (text : JsString) : Option JsValue :=
  (readValue (2 * text.length + 2) text).bind fun (value, rest) =>
    if skipSpace rest = [] then some value else none

example : (parse (js " \x7b\"b\" : [1, -0.5e1, \"\\u0041\\/\"], \"a\":1,\"a\":true\x7d ")).map canonicalize =
    some (js "\x7b\"a\":true,\"b\":[1,-5,\"A/\"]\x7d") := by
  decide +kernel

/-! ### Strings -/

variable {c : UInt16} {text rest : JsString} {value item : JsValue} {fuel : ℕ}

theorem readString_plain (hquote : c ≠ quotationMark) (hescape : c ≠ backslash)
    (hcontrol : ¬c < 0x20) (rest : JsString) :
    readString (c :: rest) = prepend c (readString rest) := by
  rw [readString.eq_def]
  simp only [if_neg hquote, if_neg hescape, if_neg hcontrol]

theorem readString_quotationMark (rest : JsString) :
    readString (quotationMark :: rest) = some ([], rest) := by
  rw [readString.eq_def]
  simp only [if_true]

theorem hexDigitValue_hexDigit {n : ℕ} (h : n < 16) : hexDigitValue (hexDigit n) = some n := by
  have hall : ∀ n < 16, hexDigitValue (hexDigit n) = some n := by decide
  exact hall n h

theorem readString_unicodeEscape (c : UInt16) (rest : JsString) :
    readString (unicodeEscape c ++ rest) = prepend c (readString rest) := by
  have hlt := c.toNat_lt
  have hvalue : c.toNat / 4096 * 4096 + c.toNat / 256 % 16 * 256 + c.toNat / 16 % 16 * 16 +
      c.toNat % 16 = c.toNat := by
    omega
  have hhex : readHex (hexDigit (c.toNat / 4096)) (hexDigit (c.toNat / 256 % 16))
      (hexDigit (c.toNat / 16 % 16)) (hexDigit (c.toNat % 16)) = some c := by
    rw [readHex, hexDigitValue_hexDigit (by omega), hexDigitValue_hexDigit (by omega),
      hexDigitValue_hexDigit (by omega), hexDigitValue_hexDigit (by omega)]
    simp only [Option.bind_some, Option.map_some, hvalue, Nat.toUInt16, UInt16.ofNat_toNat]
  have hback : backslash ≠ quotationMark := by decide
  rw [unicodeEscape, List.cons_append, List.cons_append, readString.eq_def]
  simp only [if_neg hback, if_true, List.cons_append, List.nil_append, hhex, Option.bind_some]

theorem unescape_letter {c e : UInt16} (h : escapes.lookup c = some e) :
    e ≠ 0x75 ∧ unescape e = some c := by
  have hall : ∀ pair ∈ escapes, pair.2 ≠ 0x75 ∧ unescape pair.2 = some pair.1 :=
    List.forall_iff_forall_mem.mp (by decide)
  obtain ⟨before, after, hsplit, -⟩ := List.lookup_eq_some_iff.mp h
  exact hall (c, e) (by simp [hsplit])

theorem readString_escapeUnit (c : UInt16) (rest : JsString) :
    readString (escapeUnit c ++ rest) = prepend c (readString rest) := by
  unfold escapeUnit
  cases h : escapes.lookup c with
  | some e =>
    obtain ⟨hne, hletter⟩ := unescape_letter h
    have hback : backslash ≠ quotationMark := by decide
    simp only [List.cons_append, List.nil_append]
    rw [readString.eq_def]
    simp only [if_neg hback, if_true, if_neg hne, hletter, Option.bind_some]
  | none =>
    obtain ⟨hback, hquote⟩ := ne_of_lookup_eq_none h
    by_cases hesc : (decide (c < 0x20) || isSurrogate c) = true
    · simp only [hesc, if_true]
      exact readString_unicodeEscape c rest
    · simp only [hesc]
      apply readString_plain hquote hback
      intro hcontrol
      exact hesc (by simp [hcontrol])

theorem isSurrogate_plain (h : isSurrogate c = true) :
    c ≠ quotationMark ∧ c ≠ backslash ∧ ¬c < 0x20 := by
  rw [isSurrogate_iff] at h
  refine ⟨?_, ne_backslash_of_isSurrogate ((isSurrogate_iff c).mpr h), fun hlt => ?_⟩
  · rintro rfl
    simp [quotationMark] at h
  · have := UInt16.lt_iff_toNat_lt.mp hlt
    simp at this
    omega

/-- A quoted string is read up to its closing quotation mark. -/
theorem readString_quoteBody (s rest : JsString) :
    readString (quoteBody s ++ quotationMark :: rest) = some (s, rest) := by
  induction s using quoteBody.induct with
  | case1 => exact readString_quotationMark rest
  | case2 c =>
    rw [quoteBody, readString_escapeUnit, readString_quotationMark]
    rfl
  | case3 c d tail hpair ih =>
    obtain ⟨hc, hd⟩ := Bool.and_eq_true_iff.mp hpair
    have hc' : isSurrogate c = true := by simp [isSurrogate, hc]
    have hd' : isSurrogate d = true := by simp [isSurrogate, hd]
    obtain ⟨hcquote, hcback, hccontrol⟩ := isSurrogate_plain hc'
    obtain ⟨hdquote, hdback, hdcontrol⟩ := isSurrogate_plain hd'
    rw [quoteBody, if_pos hpair, List.cons_append, List.cons_append,
      readString_plain hcquote hcback hccontrol, readString_plain hdquote hdback hdcontrol, ih]
    rfl
  | case4 c d tail hpair ih =>
    rw [quoteBody, if_neg hpair, List.append_assoc, readString_escapeUnit, ih]
    rfl

/-! ### Values -/

mutual

/-- The text of a value as JSON writes it, when nothing in it has to be left out. -/
def print : JsValue → JsString
  | .undefined => js "null"
  | .function => js "null"
  | .null => js "null"
  | .bool true => js "true"
  | .bool false => js "false"
  | .number x => encodeUtf16 x.chars
  | .string s => jsonQuote s
  | .array items => 0x5B :: (joinComma (printItems items) ++ [0x5D])
  | .object entries => 0x7B :: (joinComma (printEntries entries) ++ [0x7D])

def printItems : List JsValue → List JsString
  | [] => []
  | item :: rest => print item :: printItems rest

def printEntries : List (JsString × JsValue) → List JsString
  | [] => []
  | (key, value) :: rest => entryText key (print value) :: printEntries rest

end

mutual

/-- A value that JSON has: nothing undefined, no number that is not finite, no key twice. -/
def Plain : JsValue → Prop
  | .undefined => False
  | .function => False
  | .null => True
  | .bool _ => True
  | .number x => Standard x ∧ x ≠ .notFinite
  | .string _ => True
  | .array items => PlainItems items
  | .object entries => (entries.map (·.1)).Nodup ∧ PlainEntries entries

/-- `Plain` of every item. -/
def PlainItems : List JsValue → Prop
  | [] => True
  | item :: rest => Plain item ∧ PlainItems rest

def PlainEntries : List (JsString × JsValue) → Prop
  | [] => True
  | (_, value) :: rest => Plain value ∧ PlainEntries rest

end

theorem joinComma_cons_cons (part next : JsString) (parts : List JsString) :
    joinComma (part :: next :: parts) = part ++ 0x2C :: joinComma (next :: parts) := by
  simp [joinComma]

theorem joinComma_singleton (part : JsString) : joinComma [part] = part := by
  simp [joinComma]

theorem skipSpace_of_head (h : text.head? = some c) (hc : isSpace c = false) :
    skipSpace text = text := by
  obtain ⟨text, rfl⟩ := List.head?_eq_some_iff.mp h
  simp [skipSpace, hc]

theorem readNumber_head {x : JsNumber} (h : readNumber text = some (x, rest)) :
    ∃ c, text.head? = some c ∧ (isDigitUnit c = true ∨ c = 0x2D) := by
  cases text with
  | nil => simp [readNumber, readUnsigned] at h
  | cons c text =>
    refine ⟨c, rfl, ?_⟩
    by_cases hminus : c = 0x2D
    · exact .inr hminus
    · refine .inl ?_
      by_contra hdigit
      simp [readNumber, hminus, readUnsigned, hdigit] at h

theorem isDigitUnit_ne {c d : UInt16} (hc : isDigitUnit c = true) (hd : isDigitUnit d = false) :
    c ≠ d := by
  rintro rfl
  simp [hc] at hd

theorem isSpace_of_isDigitUnit (h : isDigitUnit c = true) : isSpace c = false := by
  simp only [isSpace, Bool.or_eq_false_iff, decide_eq_false_iff_not]
  exact ⟨⟨⟨isDigitUnit_ne h rfl, isDigitUnit_ne h rfl⟩, isDigitUnit_ne h rfl⟩, isDigitUnit_ne h rfl⟩

/-- The first unit of a value: no space and no closing bracket. -/
theorem print_head (h : Plain value) :
    ∃ c, (print value).head? = some c ∧ isSpace c = false ∧ c ≠ 0x5D ∧ c ≠ 0x7D := by
  cases value with
  | undefined => exact h.elim
  | function => exact h.elim
  | null => exact ⟨0x6E, rfl, by decide⟩
  | bool b =>
    cases b with
    | false => exact ⟨0x66, rfl, by decide⟩
    | true => exact ⟨0x74, rfl, by decide⟩
  | number x =>
    have hread := readNumber_chars h.1 h.2 NumberEnd.nil
    rw [List.append_nil] at hread
    obtain ⟨c, hc, hunit⟩ := readNumber_head hread
    refine ⟨c, hc, ?_⟩
    rcases hunit with hdigit | rfl
    · exact ⟨isSpace_of_isDigitUnit hdigit, isDigitUnit_ne hdigit rfl, isDigitUnit_ne hdigit rfl⟩
    · decide
  | string s => exact ⟨quotationMark, rfl, by decide⟩
  | array items => exact ⟨0x5B, rfl, by decide⟩
  | object entries => exact ⟨0x7B, rfl, by decide⟩

theorem readValue_cons (fuel : ℕ) (rest : JsString) (h : isSpace c = false) :
    readValue (fuel + 1) (c :: rest) =
      if c = 0x7B then
        if (skipSpace rest).head? = some 0x7D then some (.object [], (skipSpace rest).tail)
        else
          (readMembers fuel rest).map fun (members, rest) =>
            (.object (members.foldl setEntry []), rest)
      else if c = 0x5B then
        if (skipSpace rest).head? = some 0x5D then some (.array [], (skipSpace rest).tail)
        else (readElements fuel rest).map fun (items, rest) => (.array items, rest)
      else if c = quotationMark then (readString rest).map fun (s, rest) => (.string s, rest)
      else if c = 0x74 then readLiteral (js "true") (.bool true) (c :: rest)
      else if c = 0x66 then readLiteral (js "false") (.bool false) (c :: rest)
      else if c = 0x6E then readLiteral (js "null") .null (c :: rest)
      else (readNumber (c :: rest)).map fun (x, rest) => (.number x, rest) := by
  rw [readValue, skipSpace_of_head rfl h]

theorem readLiteral_append (name : JsString) (value : JsValue) (rest : JsString) :
    readLiteral name value (name ++ rest) = some (value, rest) := by
  have hstarts : name.isPrefixOf (name ++ rest) = true :=
    List.isPrefixOf_iff_prefix.mpr (List.prefix_append name rest)
  rw [readLiteral, if_pos hstarts, List.drop_left]

theorem readValue_null (fuel : ℕ) (rest : JsString) :
    readValue (fuel + 1) (js "null" ++ rest) = some (.null, rest) := by
  rw [← readLiteral_append (js "null") .null rest]
  exact readValue_cons fuel _ rfl

theorem readValue_bool (fuel : ℕ) (b : Bool) (rest : JsString) :
    readValue (fuel + 1) (print (.bool b) ++ rest) = some (.bool b, rest) := by
  cases b with
  | false =>
    have hread : readValue (fuel + 1) (js "false" ++ rest) = some (.bool false, rest) := by
      rw [← readLiteral_append (js "false") (.bool false) rest]
      exact readValue_cons fuel _ rfl
    simpa only [print] using hread
  | true =>
    have hread : readValue (fuel + 1) (js "true" ++ rest) = some (.bool true, rest) := by
      rw [← readLiteral_append (js "true") (.bool true) rest]
      exact readValue_cons fuel _ rfl
    simpa only [print] using hread

theorem readValue_string (fuel : ℕ) (s rest : JsString) :
    readValue (fuel + 1) (jsonQuote s ++ rest) = some (.string s, rest) := by
  have hread := readString_quoteBody s rest
  have htext : jsonQuote s ++ rest = quotationMark :: (quoteBody s ++ quotationMark :: rest) := by
    simp [jsonQuote]
  rw [htext, readValue_cons fuel _ (by decide), hread]
  rfl

theorem readValue_number (fuel : ℕ) {x : JsNumber} (h : Standard x) (hfinite : x ≠ .notFinite)
    (hrest : NumberEnd rest) :
    readValue (fuel + 1) (encodeUtf16 x.chars ++ rest) = some (.number x, rest) := by
  have hread := readNumber_chars h hfinite hrest
  obtain ⟨c, hc, hunit⟩ := readNumber_head hread
  obtain ⟨tail, htail⟩ := List.head?_eq_some_iff.mp hc
  rw [htail] at hread ⊢
  rcases hunit with hdigit | rfl
  · rw [readValue_cons fuel _ (isSpace_of_isDigitUnit hdigit), if_neg (isDigitUnit_ne hdigit rfl),
      if_neg (isDigitUnit_ne hdigit rfl), if_neg (isDigitUnit_ne hdigit rfl),
      if_neg (isDigitUnit_ne hdigit rfl), if_neg (isDigitUnit_ne hdigit rfl),
      if_neg (isDigitUnit_ne hdigit rfl), hread]
    rfl
  · rw [readValue_cons fuel _ (by decide), hread]
    rfl

theorem foldl_setEntry {before entries : List (JsString × JsValue)}
    (h : ((before ++ entries).map (·.1)).Nodup) :
    entries.foldl setEntry before = before ++ entries := by
  induction entries generalizing before with
  | nil => simp
  | cons entry entries ih =>
    have hnew : ¬(before.any fun e => e.1 = entry.1) = true := by
      simp only [List.any_eq_true, decide_eq_true_eq]
      rintro ⟨e, he, hkey⟩
      rw [List.map_append, List.map_cons] at h
      exact (List.nodup_append.mp h).2.2 e.1 (List.mem_map_of_mem he) entry.1
        List.mem_cons_self hkey
    have hstep : setEntry before entry = before ++ [entry] := if_neg hnew
    rw [List.foldl_cons, hstep, ih (by simpa using h), List.append_assoc]
    rfl

theorem numberEnd_cons (rest : JsString)
    (h : isDigitUnit c = false ∧ c ≠ 0x2E ∧ c ≠ 0x65 ∧ c ≠ 0x45) : NumberEnd (c :: rest) := by
  intro d hd
  obtain rfl : c = d := by simpa using hd
  exact h

theorem joinComma_printItems_head (items : List JsValue) (h : Plain item) (rest : JsString) :
    ∃ c, (joinComma (printItems (item :: items)) ++ rest).head? = some c ∧ isSpace c = false ∧
      c ≠ 0x5D := by
  obtain ⟨c, hc, hspace, hclose, -⟩ := print_head h
  obtain ⟨tail, htail⟩ := List.head?_eq_some_iff.mp hc
  refine ⟨c, ?_, hspace, hclose⟩
  cases items with
  | nil => simp [printItems, joinComma_singleton, htail]
  | cons next items => simp [printItems, joinComma_cons_cons, htail]

theorem joinComma_printEntries_head (entry : JsString × JsValue)
    (entries : List (JsString × JsValue)) (rest : JsString) :
    (joinComma (printEntries (entry :: entries)) ++ rest).head? = some quotationMark := by
  obtain ⟨key, value⟩ := entry
  cases entries with
  | nil => simp [printEntries, joinComma_singleton, entryText, jsonQuote]
  | cons next entries => simp [printEntries, joinComma_cons_cons, entryText, jsonQuote]

theorem readElements_last (h : readValue fuel (text ++ 0x5D :: rest) = some (item, 0x5D :: rest)) :
    readElements (fuel + 1) (text ++ 0x5D :: rest) = some ([item], rest) := by
  have hskip : skipSpace (0x5D :: rest) = 0x5D :: rest := skipSpace_of_head rfl rfl
  rw [readElements, h]
  simp [hskip]

theorem readElements_more {text more rest : JsString} {items : List JsValue}
    (h : readValue fuel (text ++ 0x2C :: more) = some (item, 0x2C :: more))
    (hmore : readElements fuel more = some (items, rest)) :
    readElements (fuel + 1) (text ++ 0x2C :: more) = some (item :: items, rest) := by
  have hskip : skipSpace (0x2C :: more) = 0x2C :: more := skipSpace_of_head rfl rfl
  rw [readElements, h]
  simp [hskip, hmore]

theorem readMembers_entry (fuel : ℕ) (key text rest : JsString) :
    readMembers (fuel + 1) (entryText key text ++ rest) =
      (readValue fuel (text ++ rest)).bind fun (value, rest) =>
        if (skipSpace rest).head? = some 0x2C then
          (readMembers fuel (skipSpace rest).tail).map fun (members, rest) =>
            ((key, value) :: members, rest)
        else if (skipSpace rest).head? = some 0x7D then
          some ([(key, value)], (skipSpace rest).tail)
        else none := by
  have hhead : (entryText key text ++ rest).head? = some quotationMark := rfl
  have htext : (entryText key text ++ rest).tail =
      quoteBody key ++ quotationMark :: 0x3A :: (text ++ rest) := by
    simp [entryText, jsonQuote]
  have hskip : skipSpace (0x3A :: (text ++ rest)) = 0x3A :: (text ++ rest) :=
    skipSpace_of_head rfl rfl
  rw [readMembers, skipSpace_of_head hhead (by decide), if_pos hhead, htext, readString_quoteBody,
    Option.bind_some]
  simp only [hskip, List.head?_cons, if_true, List.tail_cons]

theorem readMembers_last {key text rest : JsString}
    (h : readValue fuel (text ++ 0x7D :: rest) = some (value, 0x7D :: rest)) :
    readMembers (fuel + 1) (entryText key text ++ 0x7D :: rest) = some ([(key, value)], rest) := by
  have hskip : skipSpace (0x7D :: rest) = 0x7D :: rest := skipSpace_of_head rfl rfl
  rw [readMembers_entry, h]
  simp [hskip]

theorem readMembers_more {key text more rest : JsString} {entries : List (JsString × JsValue)}
    (h : readValue fuel (text ++ 0x2C :: more) = some (value, 0x2C :: more))
    (hmore : readMembers fuel more = some (entries, rest)) :
    readMembers (fuel + 1) (entryText key text ++ 0x2C :: more) =
      some ((key, value) :: entries, rest) := by
  have hskip : skipSpace (0x2C :: more) = 0x2C :: more := skipSpace_of_head rfl rfl
  rw [readMembers_entry, h]
  simp [hskip, hmore]

theorem readValue_array {items : List JsValue} (h : PlainItems items)
    (hread : items ≠ [] → readElements fuel (joinComma (printItems items) ++ 0x5D :: rest) = some
      (items, rest)) :
    readValue (fuel + 1) (print (.array items) ++ rest) = some (.array items, rest) := by
  have htext : print (.array items) ++ rest =
      0x5B :: (joinComma (printItems items) ++ 0x5D :: rest) := by
    simp [print]
  rw [htext, readValue_cons fuel _ rfl, if_neg (by decide), if_pos rfl]
  cases items with
  | nil => rfl
  | cons item items =>
    obtain ⟨c, hc, hspace, hclose⟩ := joinComma_printItems_head items h.1 (0x5D :: rest)
    rw [skipSpace_of_head hc hspace, hc, if_neg (by simpa using hclose), hread (by simp)]
    rfl

theorem readValue_object {entries : List (JsString × JsValue)} (h : (entries.map (·.1)).Nodup)
    (hread : entries ≠ [] → readMembers fuel (joinComma (printEntries entries) ++ 0x7D :: rest) =
      some (entries, rest)) :
    readValue (fuel + 1) (print (.object entries) ++ rest) = some (.object entries, rest) := by
  have htext : print (.object entries) ++ rest =
      0x7B :: (joinComma (printEntries entries) ++ 0x7D :: rest) := by
    simp [print]
  rw [htext, readValue_cons fuel _ rfl, if_pos rfl]
  cases entries with
  | nil => rfl
  | cons entry entries =>
    have hc := joinComma_printEntries_head entry entries (0x7D :: rest)
    have hset : (entry :: entries).foldl setEntry [] = entry :: entries := foldl_setEntry h
    rw [skipSpace_of_head hc (by decide), hc, if_neg (by decide), hread (by simp), Option.map_some]
    exact congrArg (fun members => some (JsValue.object members, rest)) hset

mutual

theorem readValue_print : ∀ value, Plain value → ∀ fuel rest, 2 * (print value).length ≤ fuel →
    NumberEnd rest → readValue fuel (print value ++ rest) = some (value, rest)
  | .undefined, h, _, _, _, _ => h.elim
  | .function, h, _, _, _, _ => h.elim
  | value, h, 0, rest, hfuel, hrest => by
    obtain ⟨c, hc, -⟩ := print_head h
    obtain ⟨tail, htail⟩ := List.head?_eq_some_iff.mp hc
    rw [htail] at hfuel
    simp at hfuel
  | .null, _, fuel + 1, rest, _, _ => by
    rw [print]
    exact readValue_null fuel rest
  | .bool b, _, fuel + 1, rest, _, _ => readValue_bool fuel b rest
  | .number x, h, fuel + 1, rest, _, hrest => by
    rw [print]
    exact readValue_number fuel h.1 h.2 hrest
  | .string s, _, fuel + 1, rest, _, _ => by
    rw [print]
    exact readValue_string fuel s rest
  | .array items, h, fuel + 1, rest, hfuel, _ => by
    apply readValue_array h
    intro hne
    apply readElements_print items hne h
    simp only [print, List.length_cons, List.length_append, List.length_nil] at hfuel
    omega
  | .object entries, h, fuel + 1, rest, hfuel, _ => by
    apply readValue_object h.1
    intro hne
    apply readMembers_print entries hne h.2
    simp only [print, List.length_cons, List.length_append, List.length_nil] at hfuel
    omega

theorem readElements_print : ∀ items, items ≠ [] → PlainItems items → ∀ fuel rest,
    2 * (joinComma (printItems items)).length + 2 ≤ fuel →
    readElements fuel (joinComma (printItems items) ++ 0x5D :: rest) = some (items, rest)
  | [], hne, _, _, _, _ => absurd rfl hne
  | _, _, _, 0, _, hfuel => by simp at hfuel
  | [item], _, h, fuel + 1, rest, hfuel => by
    rw [printItems, printItems, joinComma_singleton] at hfuel ⊢
    exact readElements_last (readValue_print item h.1 fuel _ (by omega)
      (numberEnd_cons rest (by decide)))
  | item :: next :: items, _, h, fuel + 1, rest, hfuel => by
    rw [printItems, printItems, joinComma_cons_cons] at hfuel ⊢
    rw [List.length_append, List.length_cons] at hfuel
    rw [List.append_assoc, List.cons_append]
    apply readElements_more
    · exact readValue_print item h.1 fuel _ (by omega) (numberEnd_cons _ (by decide))
    · have := readElements_print (next :: items) (by simp) h.2 fuel rest
      rw [printItems] at this
      exact this (by omega)

theorem readMembers_print : ∀ entries, entries ≠ [] → PlainEntries entries → ∀ fuel rest,
    2 * (joinComma (printEntries entries)).length + 2 ≤ fuel →
    readMembers fuel (joinComma (printEntries entries) ++ 0x7D :: rest) = some (entries, rest)
  | [], hne, _, _, _, _ => absurd rfl hne
  | _, _, _, 0, _, hfuel => by simp at hfuel
  | [(key, value)], _, h, fuel + 1, rest, hfuel => by
    rw [printEntries, printEntries, joinComma_singleton] at hfuel ⊢
    simp only [entryText, List.length_append, List.length_cons] at hfuel
    exact readMembers_last (readValue_print value h.1 fuel _ (by omega)
      (numberEnd_cons rest (by decide)))
  | (key, value) :: (key', value') :: entries, _, h, fuel + 1, rest, hfuel => by
    rw [printEntries, printEntries, joinComma_cons_cons] at hfuel ⊢
    simp only [List.length_append, List.length_cons] at hfuel
    have hentry : (print value).length ≤ (entryText key (print value)).length := by
      simp [entryText]
      omega
    rw [List.append_assoc, List.cons_append]
    apply readMembers_more
    · exact readValue_print value h.1 fuel _ (by omega) (numberEnd_cons _ (by decide))
    · have := readMembers_print ((key', value') :: entries) (by simp) h.2 fuel rest
      rw [printEntries] at this
      exact this (by omega)

end

theorem parse_print (h : Plain value) : parse (print value) = some value := by
  have hread := readValue_print value h (2 * (print value).length + 2) [] (by omega) .nil
  rw [List.append_nil] at hread
  rw [parse, hread]
  rfl

end Vigil.Ledger.JsonText
