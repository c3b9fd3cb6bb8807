import Vigil.Net.AddressText

/-! `parseAddress` of `monitors/net.ts` on hosts: an address may stand in brackets and have a zone.
The parser takes the zone away first, so it does not find the closing bracket of an address whose
zone stands inside the brackets. -/

namespace Vigil.Net.AddressExact

open Js.Text Address AddressText

def percent : UInt16 := 0x25

def openingBracket : UInt16 := 0x5B

def closingBracket : UInt16 := 0x5D

/-- A host that is an address, alone or in brackets, with or without a zone after it. -/
inductive Written : JsString → JsString → Prop
  | bare (text : JsString) : Written text text
  | zone (text zone : JsString) : Written (text ++ percent :: zone) text
  | bracketed (text : JsString) : Written (openingBracket :: (text ++ [closingBracket])) text
  | bracketedZone (text zone : JsString) :
    Written (openingBracket :: (text ++ closingBracket :: percent :: zone)) text

/-- A host that is an address and its zone, both inside the brackets. -/
inductive ZoneInside : JsString → JsString → Prop
  | mk (text zone : JsString) :
    ZoneInside (openingBracket :: (text ++ percent :: zone ++ [closingBracket])) text

/-- The eight groups that a host stands for, once brackets and zone are removed. -/
def AddressOf (host : JsString) (groups : List ℕ) : Prop :=
  ∃ text, (Written host text ∨ ZoneInside host text) ∧ Denotes (toLowerCase text) groups

/-! ### Brackets and zones -/

theorem headD_split_percent {base : JsString} (h : percent ∉ base) (zone : JsString) :
    (split (js "%") base).headD [] = base ∧
      (split (js "%") (base ++ percent :: zone)).headD [] = base := by
  have hpercent : js "%" = [percent] := rfl
  rw [hpercent, split_singleton, split_singleton, List.splitOn_append_cons_self_of_not_mem h,
    List.splitOn_eq_singleton h]
  exact ⟨rfl, rfl⟩

theorem js_openingBracket : js "[" = [openingBracket] := rfl

theorem js_closingBracket : js "]" = [closingBracket] := rfl

theorem marks_ne : percent ≠ openingBracket ∧ percent ≠ closingBracket ∧
    closingBracket ≠ openingBracket := by
  decide

/-- What `normalizeHost` does after the zone is gone. -/
def unbracket (base : JsString) : JsString :=
  if startsWith base (js "[") && endsWith base (js "]") then (base.drop 1).dropLast else base

theorem normalizeHost_of_zone {host base : JsString} (zone : JsString) (h : percent ∉ base)
    (hhost : host = base ∨ host = base ++ percent :: zone) :
    normalizeHost host = toLowerCase (unbracket base) := by
  obtain ⟨hbare, hzone⟩ := headD_split_percent h zone
  rcases hhost with rfl | rfl
  · rw [normalizeHost, hbare]
    rfl
  · rw [normalizeHost, hzone]
    rfl

theorem unbracket_bracketed (text : JsString) :
    unbracket (openingBracket :: (text ++ [closingBracket])) = text := by
  have hstarts : startsWith (openingBracket :: (text ++ [closingBracket])) (js "[") = true := by
    simp [startsWith, js_openingBracket, List.isPrefixOf]
  have hends : endsWith (openingBracket :: (text ++ [closingBracket])) (js "]") = true := by
    rw [endsWith, List.isSuffixOf_iff_suffix]
    exact ⟨openingBracket :: text, rfl⟩
  rw [unbracket, hstarts, hends]
  simp

theorem unbracket_cases (base : JsString) :
    base = openingBracket :: (unbracket base ++ [closingBracket]) ∨
      unbracket base = base ∧ ∀ text, base ≠ openingBracket :: (text ++ [closingBracket]) := by
  by_cases h : ∃ text, base = openingBracket :: (text ++ [closingBracket])
  · obtain ⟨text, rfl⟩ := h
    exact .inl (by rw [unbracket_bracketed])
  · push Not at h
    refine .inr ⟨if_neg fun hboth => ?_, h⟩
    rw [Bool.and_eq_true, startsWith, endsWith, List.isPrefixOf_iff_prefix,
      List.isSuffixOf_iff_suffix, js_openingBracket, js_closingBracket] at hboth
    obtain ⟨⟨after, rfl⟩, ⟨before, hbefore⟩⟩ := hboth
    cases before with
    | nil => exact marks_ne.2.2 (List.cons.inj hbefore).1
    | cons c before => exact h before (congrArg (openingBracket :: ·) (List.cons.inj hbefore).2.symm)

theorem exists_written (host : JsString) :
    ∃ text, Written host text ∧ normalizeHost host = toLowerCase text := by
  have hbase : ∃ base zone, percent ∉ base ∧ (host = base ∨ host = base ++ percent :: zone) := by
    by_cases h : percent ∈ host
    · obtain ⟨base, zone, hhost, hbase⟩ := List.eq_append_cons_of_mem h
      exact ⟨base, zone, hbase, .inr hhost⟩
    · exact ⟨host, [], h, .inl rfl⟩
  obtain ⟨base, zone, hpercent, hhost⟩ := hbase
  refine ⟨unbracket base, ?_, normalizeHost_of_zone zone hpercent hhost⟩
  rcases unbracket_cases base with hbracketed | ⟨hbare, -⟩
  · rcases hhost with rfl | rfl
    · nth_rewrite 1 [hbracketed]
      exact .bracketed _
    · nth_rewrite 1 [hbracketed]
      have := Written.bracketedZone (unbracket base) zone
      simpa using this
  · rw [hbare]
    rcases hhost with rfl | rfl
    · exact .bare _
    · exact .zone _ _

/-- A text without the marks that are removed. -/
def Unmarked (text : JsString) : Prop :=
  percent ∉ text ∧ openingBracket ∉ text ∧ closingBracket ∉ text

variable {text host : JsString} {groups : List ℕ}

theorem unbracket_of_unmarked (h : Unmarked text) : unbracket text = text := by
  rcases unbracket_cases text with hbracketed | ⟨hbare, -⟩
  · exact absurd (by rw [hbracketed]; simp) h.2.1
  · exact hbare

theorem Written.normalizeHost_eq (h : Written host text) (htext : Unmarked text) :
    normalizeHost host = toLowerCase text := by
  have hbracketed : percent ∉ openingBracket :: (text ++ [closingBracket]) := by
    simp [htext.1, marks_ne.1, marks_ne.2.1]
  cases h with
  | bare =>
    rw [normalizeHost_of_zone [] htext.1 (.inl rfl), unbracket_of_unmarked htext]
  | zone text zone =>
    rw [normalizeHost_of_zone zone htext.1 (.inr rfl), unbracket_of_unmarked htext]
  | bracketed =>
    rw [normalizeHost_of_zone [] hbracketed (.inl rfl), unbracket_bracketed]
  | bracketedZone text zone =>
    rw [normalizeHost_of_zone zone hbracketed (.inr (by simp)), unbracket_bracketed]

/-- The bracket that opens before an address stays when the zone takes the other one with it. -/
theorem ZoneInside.normalizeHost_eq (h : ZoneInside host text) (htext : Unmarked text) :
    normalizeHost host = toLowerCase (openingBracket :: text) := by
  obtain ⟨text, zone⟩ := h
  have hpercent : percent ∉ openingBracket :: text := by
    simp [htext.1, marks_ne.1]
  rw [normalizeHost_of_zone (zone ++ [closingBracket]) hpercent (.inr (by simp))]
  rcases unbracket_cases (openingBracket :: text) with hbracketed | ⟨hbare, -⟩
  · have := (List.cons.inj hbracketed).2
    exact absurd (by rw [this]; simp) htext.2.2
  · rw [hbare]

theorem mem_toLowerCase {c : UInt16} (hc : toLowerCase [c] = [c]) (h : c ∈ text) :
    c ∈ toLowerCase text :=
  List.mem_flatMap.mpr ⟨c, h, by simpa [toLowerCase] using congrArg (c ∈ ·) hc⟩

theorem unmarked_of_isTextUnit (h : ∀ c ∈ toLowerCase text, isTextUnit c = true) :
    Unmarked text := by
  refine ⟨fun hc => ?_, fun hc => ?_, fun hc => ?_⟩
  · have := h _ (mem_toLowerCase rfl hc)
    revert this
    decide
  · have := h _ (mem_toLowerCase rfl hc)
    revert this
    decide
  · have := h _ (mem_toLowerCase rfl hc)
    revert this
    decide

/-! ### When the parser is exact -/

/-- The host is accepted when it is an IPv6 address, and its groups are then those it stands for. -/
structure Exact (host : JsString) : Prop where
  accepted : (parseAddress host).isSome = true ↔ ∃ groups, AddressOf host groups
  groups : ∀ groups, AddressOf host groups → parseIPv6 (normalizeHost host) = some groups ∧
    groups.length = 8 ∧ ∀ group ∈ groups, group < 2 ^ 16

/-- The host has none of the shapes that the parser gets wrong or reads as IPv4. -/
structure Regular (host : JsString) : Prop where
  notIPv4 : ∀ text, Written host text → ∀ octets, ¬DottedQuad (toLowerCase text) octets
  quadLast : ∀ text, Written host text → ∀ groups, ¬QuadBeforeElision (toLowerCase text) groups
  zoneOutside : ∀ text, ZoneInside host text → ∀ groups, ¬Denotes (toLowerCase text) groups

theorem parseAddress_isSome_iff (host : JsString) : (parseAddress host).isSome = true ↔
    (∃ octets, DottedQuad (normalizeHost host) octets) ∨
      ∃ groups, parseIPv6 (normalizeHost host) = some groups := by
  simp only [← parseIPv4_eq_some_iff, ← Option.isSome_iff_exists]
  rw [parseAddress]
  cases parseIPv4 (normalizeHost host) with
  | some octets => simp
  | none => simp

theorem Written.normalizeHost_of_denotes (h : Written host text)
    (htext : Denotes (toLowerCase text) groups) : normalizeHost host = toLowerCase text :=
  h.normalizeHost_eq (unmarked_of_isTextUnit fun _ => htext.isTextUnit)

/-- A zone inside the brackets leaves a bracket that no text form has. -/
theorem ZoneInside.not_isTextUnit (h : ZoneInside host text)
    (htext : ∀ c ∈ toLowerCase text, isTextUnit c = true) :
    ¬∀ c ∈ normalizeHost host, isTextUnit c = true := by
  rw [h.normalizeHost_eq (unmarked_of_isTextUnit htext)]
  intro hunits
  have := hunits openingBracket (mem_toLowerCase rfl (by simp))
  revert this
  decide

theorem isTextUnit_of_parseIPv6 (h : parseIPv6 text = some groups) :
    ∀ c ∈ text, isTextUnit c = true := by
  rcases (parseIPv6_eq_some_iff _ _).mp h with h | h
  · exact fun _ => h.isTextUnit
  · exact fun _ => h.isTextUnit

theorem Exact.regular (h : Exact host) : Regular host where
  notIPv4 text htext octets hquad := by
    have hhost := htext.normalizeHost_eq (unmarked_of_isTextUnit fun _ => hquad.isTextUnit)
    obtain ⟨groups, haddress⟩ := h.accepted.mp
      ((parseAddress_isSome_iff host).mpr (.inl ⟨octets, hhost ▸ hquad⟩))
    have hparse := (h.groups groups haddress).1
    rw [hhost, hquad.parseIPv6_eq] at hparse
    simp at hparse
  quadLast text htext groups hquad := by
    have hhost := htext.normalizeHost_eq (unmarked_of_isTextUnit fun _ => hquad.isTextUnit)
    have hparse := hquad.parseIPv6_eq
    rw [← hhost] at hquad hparse
    obtain ⟨groups', text', htext' | hinside, hdenotes⟩ := h.accepted.mp
      ((parseAddress_isSome_iff host).mpr (.inr ⟨groups, hparse⟩))
    · rw [← htext'.normalizeHost_of_denotes hdenotes] at hdenotes
      exact hquad.not_denotes hdenotes
    · exact hinside.not_isTextUnit (fun _ => hdenotes.isTextUnit) fun _ => hquad.isTextUnit
  zoneOutside text hinside groups hdenotes :=
    hinside.not_isTextUnit (fun _ => hdenotes.isTextUnit)
      (isTextUnit_of_parseIPv6 (h.groups groups ⟨text, .inr hinside, hdenotes⟩).1)

theorem Regular.parse (h : Regular host) (haddress : AddressOf host groups) :
    parseIPv6 (normalizeHost host) = some groups ∧
      groups.length = 8 ∧ ∀ group ∈ groups, group < 2 ^ 16 := by
  obtain ⟨text, htext | hinside, hdenotes⟩ := haddress
  · rw [htext.normalizeHost_of_denotes hdenotes]
    exact ⟨hdenotes.parseIPv6_eq, hdenotes.lt⟩
  · exact absurd hdenotes (h.zoneOutside text hinside groups)

theorem Regular.exact (h : Regular host) : Exact host where
  accepted := by
    rw [parseAddress_isSome_iff]
    constructor
    · obtain ⟨text, htext, hhost⟩ := exists_written host
      rw [hhost]
      rintro (⟨octets, hquad⟩ | ⟨groups, hparse⟩)
      · exact absurd hquad (h.notIPv4 text htext octets)
      · rcases (parseIPv6_eq_some_iff _ _).mp hparse with hdenotes | hquad
        · exact ⟨groups, text, .inl htext, hdenotes⟩
        · exact absurd hquad (h.quadLast text htext groups)
    · rintro ⟨groups, haddress⟩
      exact .inr ⟨groups, (h.parse haddress).1⟩
  groups _ := h.parse

/-- The parser is exact on a host unless the host is IPv4 in brackets or with a zone, has a dotted
quad before the elision, or has its zone inside the brackets. -/
theorem parseAddress_exact_iff_regular (host : JsString) : Exact host ↔ Regular host :=
  ⟨Exact.regular, Regular.exact⟩

theorem hexGroup_fe80 : HexGroup (js "fe80") 0xfe80 :=
  ⟨by decide, by decide, List.all_eq_true.mp (by decide), by decide⟩

theorem hexGroup_one : HexGroup (js "1") 1 :=
  ⟨by decide, by decide, List.all_eq_true.mp (by decide), by decide⟩

theorem dottedQuad_1_2_3_4 : DottedQuad (js "1.2.3.4") [1, 2, 3, 4] :=
  (parseIPv4_eq_some_iff _ _).mp (by decide +kernel)

/-- An address with its zone inside the brackets is refused, and one with its dotted quad before the
elision is accepted. -/
theorem parseAddress_not_exact :
    ((∀ octets, ¬DottedQuad (js "[fe80::1%eth0]") octets) ∧ ¬Exact (js "[fe80::1%eth0]")) ∧
    (∀ octets, ¬DottedQuad (js "1.2.3.4::1") octets) ∧ ¬Exact (js "1.2.3.4::1") := by
  have hzone : ZoneInside (js "[fe80::1%eth0]") (js "fe80::1") :=
    .mk (js "fe80::1") (js "eth0")
  have hdenotes : Denotes (toLowerCase (js "fe80::1")) [0xfe80, 0, 0, 0, 0, 0, 0, 1] :=
    .elided (.cons hexGroup_fe80 .nil) (.hex (.cons hexGroup_one .nil)) (by simp)
  have hquad : QuadBeforeElision (toLowerCase (js "1.2.3.4::1")) [0x102, 0x304, 0, 0, 0, 0, 0, 1] :=
    .mk .nil dottedQuad_1_2_3_4 (.hex (.cons hexGroup_one .nil)) (by simp)
  refine ⟨⟨fun octets h => ?_, fun h => ?_⟩, fun octets h => ?_, fun h => ?_⟩
  · rw [← parseIPv4_eq_some_iff] at h
    revert h
    simp [show parseIPv4 (js "[fe80::1%eth0]") = none by decide +kernel]
  · exact h.regular.zoneOutside _ hzone _ hdenotes
  · rw [← parseIPv4_eq_some_iff] at h
    revert h
    simp [show parseIPv4 (js "1.2.3.4::1") = none by decide +kernel]
  · exact h.regular.quadLast _ (.bare _) _ hquad

end Vigil.Net.AddressExact
