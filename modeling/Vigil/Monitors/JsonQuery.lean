import Vigil.Js.Double
import Vigil.Ledger.JsonText
import Vigil.Net.AddressText
import Mathlib.Data.List.TakeWhile

/-! The value that a JSON query watches, in `monitors/types/probes/json-query.ts`: the path and its
tokens, the walk from the root of the document, and the text that is compared with what is
expected. -/

namespace Vigil.Monitors.JsonQuery

open Js.Text Js.Double Ledger.Canonical Ledger.JsonNumber Net.Address Net.AddressText

/-! ### Documents -/

abbrev FiniteNumber := {x : JsNumber // x ≠ .notFinite}

/-- What `JSON.parse` returns.  An object has its own members, in the order in which it lists them; a
number too large for a double is infinite. -/
inductive Document where
  | null
  | bool (b : Bool)
  | number (x : FiniteNumber)
  | infinite (negative : Bool)
  | string (s : JsString)
  | array (items : List Document)
  | object (entries : List (JsString × Document))

mutual

/-- The document for `JSON.stringify`. -/
def Document.toJs : Document → JsValue
  | .null => .null
  | .bool b => .bool b
  | .number x => .number x.val
  | .infinite _ => .number .notFinite
  | .string s => .string s
  | .array items => .array (toJsItems items)
  | .object entries => .object (toJsEntries entries)

def toJsItems : List Document → List JsValue
  | [] => []
  | item :: rest => item.toJs :: toJsItems rest

def toJsEntries : List (JsString × Document) → List (JsString × JsValue)
  | [] => []
  | (key, value) :: rest => (key, value.toJs) :: toJsEntries rest

end

mutual

/-- No array has more items than the language gives one. -/
def WellSized : Document → Prop
  | .array items => items.length < 2 ^ 32 ∧ WellSizedItems items
  | .object entries => WellSizedEntries entries
  | _ => True

/-- `WellSized` of every item. -/
def WellSizedItems : List Document → Prop
  | [] => True
  | item :: rest => WellSized item ∧ WellSizedItems rest

def WellSizedEntries : List (JsString × Document) → Prop
  | [] => True
  | (_, value) :: rest => WellSized value ∧ WellSizedEntries rest

end

abbrev JsonDocument := {document : Document // WellSized document}

/-! ### The path -/

inductive PathToken where
  | key (name : JsString)
  | index (n : ℕ)
  deriving DecidableEq, Repr

def isBracket (c : UInt16) : Bool := c = 0x5B || c = 0x5D

/-- The digits of each index in `(\[\d+\])*`, which takes the whole text. -/
def readIndices (text : JsString) : Option (List JsString) :=
  match text with
  | [] => some []
  | c :: rest =>
    let digits := rest.takeWhile isDigit
    let after := rest.dropWhile isDigit
    if c = 0x5B ∧ digits ≠ [] ∧ after.head? = some 0x5D then
      (readIndices after.tail).map fun indices => digits :: indices
    else none
termination_by text.length
decreasing_by
  have hle : (rest.dropWhile isDigit).length ≤ rest.length := (List.dropWhile_suffix _).length_le
  rw [List.length_tail, List.length_cons]
  omega

/-- `Number(digits)` -/
def numberOf (digits : JsString) : ℕ := roundNat (parseDigits 10 digits)

/-- The tokens of one segment: the part in front of the first bracket, and the indices. -/
def parseSegment (segment : JsString) : Option (List PathToken) := do
  let key := segment.takeWhile fun c => !isBracket c
  let indices ← readIndices (segment.dropWhile fun c => !isBracket c)
  if key.length = 0 ∧ indices.length = 0 then none
  else
    return (if 0 < key.length then [.key key] else []) ++
      indices.map fun digits => .index (numberOf digits)

def parseSegments : List JsString → Option (List PathToken)
  | [] => some []
  | segment :: rest => do
    let tokens ← parseSegment segment
    let more ← parseSegments rest
    return tokens ++ more

def parsePath (path : JsString) : Option (List PathToken) := do
  let tokens ← parseSegments (split (js ".") path)
  if 0 < tokens.length then return tokens else none

/-- The member or the item that a token leads to. -/
def step (current : Document) : PathToken → Option Document
  | .index n =>
    match current with
    | .array items => if items.length ≤ n then none else items[n]?
    | _ => none
  | .key name =>
    match current with
    | .object entries => entries.lookup name
    | _ => none

def walk (current : Document) : List PathToken → Option Document
  | [] => some current
  | token :: tokens => do
    let next ← step current token
    walk next tokens

/-- `none` is not found. -/
def resolvePath (root : Document) (path : JsString) : Option Document := do
  let tokens ← parsePath path
  walk root tokens

/-! ### The value -/

def maxValueChars : ℕ := 200

def stringifyValue : Document → JsString
  | .string s => s
  | .null => js "null"
  | .number x => encodeUtf16 x.val.chars
  | .infinite negative => if negative then js "-Infinity" else js "Infinity"
  | .bool b => if b then js "true" else js "false"
  | .array items => (Ledger.JsonText.stringify (Document.array items).toJs).getD []
  | .object entries => (Ledger.JsonText.stringify (Document.object entries).toJs).getD []

def ellipsis : JsString := [0x2026]

def truncate (value : JsString) : JsString :=
  if value.length ≤ maxValueChars then value else value.take maxValueChars ++ ellipsis

/-- What the probe reports about the path and the value, of a body that is JSON. -/
structure QueryFacts where
  pathFound : Bool
  actualValue : Option JsString
  /-- `matches` -/
  matched : Bool
  deriving DecidableEq, Repr

def queryFacts (parsed : Document) (jsonPath expectedValue : JsString) : QueryFacts :=
  match resolvePath parsed jsonPath with
  | none => { pathFound := false, actualValue := none, matched := false }
  | some value =>
    let actualValue := truncate (stringifyValue value)
    { pathFound := true, actualValue := some actualValue, matched := actualValue = expectedValue }

/-! ### Paths by their definition -/

def dot : UInt16 := 0x2E

/-- A key without brackets and indices behind it, of which one may be missing. -/
structure Segment where
  key : JsString
  /-- The digits of each index. -/
  indices : List JsString
  plain : ∀ c ∈ key, c ≠ dot ∧ isBracket c = false
  digits : ∀ digits ∈ indices, digits ≠ [] ∧ ∀ c ∈ digits, isDigit c = true
  nonempty : key ≠ [] ∨ indices ≠ []

def indicesText (indices : List JsString) : JsString :=
  indices.flatMap fun digits => 0x5B :: (digits ++ [0x5D])

def Segment.text (segment : Segment) : JsString := segment.key ++ indicesText segment.indices

/-- Where a segment leads: to the member that the key names, and to the items that the indices
number. -/
def Segment.steps (segment : Segment) : List PathToken :=
  (if segment.key = [] then [] else [.key segment.key]) ++
    segment.indices.map fun digits => .index (parseDigits 10 digits)

def pathText (segments : List Segment) : JsString := [dot].intercalate (segments.map Segment.text)

/-- One value leads to another by own members and items in range. -/
inductive Reaches : Document → List PathToken → Document → Prop where
  | done (value : Document) : Reaches value [] value
  | member {entries : List (JsString × Document)} {name : JsString} {next value : Document}
      {steps : List PathToken} (found : entries.lookup name = some next)
      (rest : Reaches next steps value) : Reaches (.object entries) (.key name :: steps) value
  | item {items : List Document} {n : ℕ} {next value : Document} {steps : List PathToken}
      (found : items[n]? = some next) (rest : Reaches next steps value) :
      Reaches (.array items) (.index n :: steps) value

/-! ### Parsing -/

theorem readIndices_cons {c : UInt16} {rest : JsString} {indices : List JsString}
    (h : readIndices (c :: rest) = some indices) :
    ∃ digits after more, digits ≠ [] ∧ (∀ d ∈ digits, isDigit d = true) ∧
      c :: rest = 0x5B :: (digits ++ 0x5D :: after) ∧ readIndices after = some more ∧
      indices = digits :: more := by
  rw [readIndices] at h
  split at h
  · rename_i hform
    obtain ⟨rfl, hdigits, hclose⟩ := hform
    obtain ⟨more, hmore, rfl⟩ := Option.map_eq_some_iff.mp h
    obtain ⟨after, hafter⟩ := List.head?_eq_some_iff.mp hclose
    refine ⟨_, after, more, hdigits, fun d hd => List.mem_takeWhile_imp hd, ?_, ?_, rfl⟩
    · rw [← hafter, List.takeWhile_append_dropWhile]
    · rwa [hafter, List.tail_cons] at hmore
  · cases h

theorem readIndices_index {digits : JsString} (hne : digits ≠ [])
    (hdigits : ∀ d ∈ digits, isDigit d = true) (after : JsString) :
    readIndices (0x5B :: (digits ++ 0x5D :: after)) =
      (readIndices after).map fun indices => digits :: indices := by
  have hclose : ¬isDigit (0x5D : UInt16) = true := by decide
  have htake : (digits ++ 0x5D :: after).takeWhile isDigit = digits := by
    rw [List.takeWhile_append_of_pos hdigits, List.takeWhile_cons_of_neg hclose, List.append_nil]
  have hdrop : (digits ++ 0x5D :: after).dropWhile isDigit = 0x5D :: after := by
    rw [List.dropWhile_append_of_pos hdigits, List.dropWhile_cons_of_neg hclose]
  rw [readIndices, htake, hdrop, if_pos ⟨rfl, hne, rfl⟩, List.tail_cons]

theorem indicesText_cons (digits : JsString) (indices : List JsString) :
    indicesText (digits :: indices) = 0x5B :: (digits ++ 0x5D :: indicesText indices) := by
  rw [indicesText, List.flatMap_cons, List.cons_append, List.append_assoc]
  rfl

theorem readIndices_eq_some_iff (text : JsString) (indices : List JsString) :
    readIndices text = some indices ↔
      text = indicesText indices ∧
        ∀ digits ∈ indices, digits ≠ [] ∧ ∀ c ∈ digits, isDigit c = true := by
  constructor
  · intro h
    induction indices generalizing text with
    | nil =>
      cases text with
      | nil => exact ⟨rfl, nofun⟩
      | cons c rest =>
        obtain ⟨_, _, _, -, -, -, -, hnil⟩ := readIndices_cons h
        cases hnil
    | cons digits indices ih =>
      cases text with
      | nil =>
        rw [readIndices] at h
        cases h
      | cons c rest =>
        obtain ⟨digits', after, more, hne, hdigits, htext, hmore, hcons⟩ := readIndices_cons h
        obtain ⟨rfl, rfl⟩ := List.cons.inj hcons
        obtain ⟨rfl, hrest⟩ := ih after hmore
        refine ⟨?_, List.forall_mem_cons.mpr ⟨⟨hne, hdigits⟩, hrest⟩⟩
        rw [htext, indicesText_cons]
  · rintro ⟨rfl, hindices⟩
    induction indices with
    | nil => rw [indicesText, List.flatMap_nil, readIndices]
    | cons digits indices ih =>
      obtain ⟨⟨hne, hdigits⟩, hrest⟩ := List.forall_mem_cons.mp hindices
      rw [indicesText_cons, readIndices_index hne hdigits, ih hrest]
      rfl

/-- The tokens that the code makes of where a path leads: `Number` rounds an index. -/
def PathToken.rounded : PathToken → PathToken
  | .key name => .key name
  | .index n => .index (roundNat n)

def Segment.tokens (segment : Segment) : List PathToken := segment.steps.map PathToken.rounded

variable (segment : Segment)

theorem tokens_eq : segment.tokens =
    (if 0 < segment.key.length then [.key segment.key] else []) ++
      segment.indices.map fun digits => .index (numberOf digits) := by
  rw [Segment.tokens, Segment.steps, List.map_append, List.map_map]
  cases segment.key <;> rfl

theorem takeWhile_key {key rest : JsString} (hkey : ∀ c ∈ key, isBracket c = false)
    (hrest : ∀ c ∈ rest.head?, isBracket c = true) :
    (key ++ rest).takeWhile (fun c => !isBracket c) = key ∧
      (key ++ rest).dropWhile (fun c => !isBracket c) = rest := by
  have hplain : ∀ c ∈ key, (!isBracket c) = true := fun c hc => by rw [hkey c hc]; rfl
  cases rest with
  | nil =>
    rw [List.append_nil, List.takeWhile_eq_self_iff.mpr hplain, List.dropWhile_eq_nil_iff.mpr hplain]
    exact ⟨rfl, rfl⟩
  | cons c rest =>
    have hbracket : ¬(!isBracket c) = true := by
      rw [hrest c rfl]
      decide
    rw [List.takeWhile_append_of_pos hplain, List.dropWhile_append_of_pos hplain,
      List.takeWhile_cons_of_neg (p := fun c => !isBracket c) hbracket,
      List.dropWhile_cons_of_neg (p := fun c => !isBracket c) hbracket, List.append_nil]
    exact ⟨rfl, rfl⟩

theorem indicesText_head (indices : List JsString) :
    ∀ c ∈ (indicesText indices).head?, isBracket c = true := by
  cases indices with
  | nil => exact nofun
  | cons digits indices =>
    intro c hc
    cases hc
    rfl

theorem parseSegment_text : parseSegment segment.text = some segment.tokens := by
  obtain ⟨hkey, hrest⟩ := takeWhile_key (fun c hc => (segment.plain c hc).2)
    (indicesText_head segment.indices)
  have hindices := (readIndices_eq_some_iff _ _).mpr ⟨rfl, segment.digits⟩
  have hnonempty : ¬(segment.key.length = 0 ∧ segment.indices.length = 0) := by
    rw [List.length_eq_zero_iff, List.length_eq_zero_iff]
    exact fun h => segment.nonempty.elim (fun hne => hne h.1) fun hne => hne h.2
  rw [parseSegment, Segment.text, hkey, hrest, hindices]
  simp only [Option.bind_eq_bind, Option.bind_some, if_neg hnonempty, tokens_eq]
  rfl

/-- A text without dots that has tokens is the text of a segment. -/
theorem exists_segment {text : JsString} {tokens : List PathToken} (hdot : dot ∉ text)
    (h : parseSegment text = some tokens) :
    ∃ segment : Segment, segment.text = text ∧ segment.tokens = tokens := by
  obtain ⟨indices, hindices, h⟩ := Option.bind_eq_some_iff.mp h
  obtain ⟨htext, hdigits⟩ := (readIndices_eq_some_iff _ _).mp hindices
  obtain ⟨key, hkey⟩ : ∃ key, key = text.takeWhile fun c => !isBracket c := ⟨_, rfl⟩
  have hsplit : text = key ++ indicesText indices := by
    rw [← htext, hkey, List.takeWhile_append_dropWhile]
  rw [← hkey] at h
  split at h
  · cases h
  · rename_i hnonempty
    refine ⟨⟨key, indices, fun c hc => ⟨?_, ?_⟩, hdigits, ?_⟩, hsplit.symm, ?_⟩
    · rintro rfl
      exact hdot (hsplit ▸ List.mem_append_left _ hc)
    · have hplain := List.mem_takeWhile_imp (hkey ▸ hc)
      rwa [Bool.not_eq_true'] at hplain
    · rw [List.length_eq_zero_iff, List.length_eq_zero_iff] at hnonempty
      exact not_and_or.mp hnonempty
    · rw [tokens_eq]
      exact Option.some_inj.mp h

theorem dot_notMem_of_mem_splitOn {text part : JsString} (h : part ∈ text.splitOn dot) :
    dot ∉ part := by
  induction text generalizing part with
  | nil =>
    obtain rfl := List.mem_singleton.mp h
    exact List.not_mem_nil
  | cons c text ih =>
    rw [List.splitOn_cons_eq_if_modifyHead] at h
    split at h
    · obtain rfl | h := List.mem_cons.mp h
      · exact List.not_mem_nil
      · exact ih h
    · rename_i hc
      obtain ⟨first, others, hsplit⟩ := List.exists_cons_of_ne_nil (List.splitOn_ne_nil dot text)
      rw [hsplit, List.modifyHead_cons] at h
      obtain rfl | h := List.mem_cons.mp h
      · rw [List.mem_cons, not_or]
        exact ⟨fun hdot => hc (beq_iff_eq.mpr hdot.symm), ih (hsplit ▸ List.mem_cons_self)⟩
      · exact ih (hsplit ▸ List.mem_cons_of_mem _ h)

theorem dot_notMem_text : dot ∉ segment.text := by
  rw [Segment.text, indicesText, List.mem_append, List.mem_flatMap, not_or]
  refine ⟨fun h => (segment.plain dot h).1 rfl, ?_⟩
  rintro ⟨digits, hmem, hdot⟩
  obtain h | hdot := List.mem_cons.mp hdot
  · cases h
  · obtain hdot | h := List.mem_append.mp hdot
    · cases (segment.digits digits hmem).2 dot hdot
    · cases List.mem_singleton.mp h

theorem parseSegments_text (segments : List Segment) :
    parseSegments (segments.map Segment.text) = some (segments.flatMap Segment.tokens) := by
  induction segments with
  | nil => rfl
  | cons segment segments ih =>
    rw [List.map_cons, parseSegments, parseSegment_text, ih]
    rfl

theorem exists_segments {texts : List JsString} {tokens : List PathToken}
    (hdot : ∀ text ∈ texts, dot ∉ text) (h : parseSegments texts = some tokens) :
    ∃ segments : List Segment,
      segments.map Segment.text = texts ∧ segments.flatMap Segment.tokens = tokens := by
  induction texts generalizing tokens with
  | nil => exact ⟨[], rfl, Option.some_inj.mp h⟩
  | cons text texts ih =>
    obtain ⟨htext, hrest⟩ := List.forall_mem_cons.mp hdot
    obtain ⟨first, hfirst, h⟩ := Option.bind_eq_some_iff.mp h
    obtain ⟨more, hmore, h⟩ := Option.bind_eq_some_iff.mp h
    obtain ⟨segment, rfl, rfl⟩ := exists_segment htext hfirst
    obtain ⟨segments, rfl, rfl⟩ := ih hrest hmore
    exact ⟨segment :: segments, rfl, Option.some_inj.mp h⟩

theorem tokens_ne_nil : segment.tokens ≠ [] := by
  rw [Segment.tokens, Segment.steps, ne_eq, List.map_eq_nil_iff, List.append_eq_nil_iff]
  rintro ⟨hkey, hindices⟩
  obtain h | h := segment.nonempty
  · rw [if_neg h] at hkey
    cases hkey
  · exact h (List.map_eq_nil_iff.mp hindices)

/-- A path has tokens when it is segments joined by dots. -/
theorem parsePath_eq_some_iff (path : JsString) (tokens : List PathToken) :
    parsePath path = some tokens ↔
      ∃ segments ≠ [], path = pathText segments ∧ segments.flatMap Segment.tokens = tokens := by
  rw [parsePath, show js "." = [dot] from rfl, split_singleton]
  constructor
  · intro h
    obtain ⟨parsed, hparsed, h⟩ := Option.bind_eq_some_iff.mp h
    obtain ⟨hlength, h⟩ := Option.ite_none_right_eq_some.mp h
    cases h
    obtain ⟨segments, htexts, rfl⟩ := exists_segments (fun _ => dot_notMem_of_mem_splitOn) hparsed
    refine ⟨segments, ?_, ?_, rfl⟩
    · rintro rfl
      cases hlength
    · rw [pathText, htexts, List.intercalate_splitOn]
  · rintro ⟨segments, hne, rfl, rfl⟩
    have hsplit : (pathText segments).splitOn dot = segments.map Segment.text := by
      refine List.splitOn_intercalate dot (fun text htext => ?_) fun hnil => ?_
      · obtain ⟨segment, -, rfl⟩ := List.mem_map.mp htext
        exact dot_notMem_text segment
      · exact hne (List.map_eq_nil_iff.mp hnil)
    have hlength : 0 < (segments.flatMap Segment.tokens).length := by
      obtain ⟨segment, rest, rfl⟩ := List.exists_cons_of_ne_nil hne
      rw [List.flatMap_cons, List.length_append]
      exact Nat.add_pos_left (List.length_pos_iff.mpr (tokens_ne_nil segment)) _
    rw [hsplit, parseSegments_text]
    exact if_pos hlength

/-! ### Walking -/

theorem wellSized_getElem? {items : List Document} {n : ℕ} {item : Document}
    (h : WellSizedItems items) (hitem : items[n]? = some item) : WellSized item := by
  induction items generalizing n with
  | nil => cases hitem
  | cons first items ih =>
    cases n with
    | zero =>
      cases hitem
      exact h.1
    | succ n => exact ih h.2 hitem

theorem wellSized_lookup {entries : List (JsString × Document)} {name : JsString}
    {value : Document} (h : WellSizedEntries entries) (hvalue : entries.lookup name = some value) :
    WellSized value := by
  induction entries with
  | nil => cases hvalue
  | cons entry entries ih =>
    rw [List.lookup_cons] at hvalue
    split at hvalue
    · cases hvalue
      exact h.1
    · exact ih h.2 hvalue

/-- An index past `2 ^ 53` is rounded, and then there is no item either. -/
theorem getElem?_roundNat {items : List Document} (h : items.length < 2 ^ 32) (n : ℕ) :
    (if items.length ≤ roundNat n then none else items[roundNat n]?) = items[n]? := by
  by_cases hn : n < 2 ^ 53
  · rw [roundNat_of_lt hn]
    split
    · rename_i hle
      exact (List.getElem?_eq_none hle).symm
    · rfl
  · have hround := le_roundNat (Nat.not_lt.mp hn)
    rw [if_pos (by omega), List.getElem?_eq_none (by omega)]

theorem step_eq_some_iff {current : Document} (h : WellSized current) (token : PathToken)
    (next : Document) :
    step current token.rounded = some next ↔ Reaches current [token] next := by
  constructor
  · intro hstep
    cases token with
    | key name =>
      cases current with
      | object entries => exact .member hstep (.done next)
      | _ => cases hstep
    | index n =>
      cases current with
      | array items => exact .item ((getElem?_roundNat h.1 n).symm.trans hstep) (.done next)
      | _ => cases hstep
  · intro hreaches
    cases hreaches with
    | member found rest =>
      cases rest
      exact found
    | item found rest =>
      cases rest
      exact (getElem?_roundNat h.1 _).trans found

theorem wellSized_of_reaches {current next : Document} {token : PathToken} (h : WellSized current)
    (hreaches : Reaches current [token] next) : WellSized next := by
  cases hreaches with
  | member found rest =>
    cases rest
    exact wellSized_lookup h found
  | item found rest =>
    cases rest
    exact wellSized_getElem? h.2 found

theorem reaches_cons_iff (current : Document) (token : PathToken) (tokens : List PathToken)
    (value : Document) :
    Reaches current (token :: tokens) value ↔
      ∃ next, Reaches current [token] next ∧ Reaches next tokens value := by
  constructor
  · intro h
    cases h with
    | member found rest => exact ⟨_, .member found (.done _), rest⟩
    | item found rest => exact ⟨_, .item found (.done _), rest⟩
  · rintro ⟨next, hfirst, hrest⟩
    cases hfirst with
    | member found rest =>
      cases rest
      exact .member found hrest
    | item found rest =>
      cases rest
      exact .item found hrest

theorem walk_eq_some_iff {root : Document} (h : WellSized root) (steps : List PathToken)
    (value : Document) :
    walk root (steps.map PathToken.rounded) = some value ↔ Reaches root steps value := by
  induction steps generalizing root with
  | nil =>
    constructor
    · intro hwalk
      obtain rfl := Option.some_inj.mp hwalk
      exact .done root
    · intro hreaches
      cases hreaches
      rfl
  | cons token steps ih =>
    rw [List.map_cons, walk, Option.bind_eq_bind, Option.bind_eq_some_iff, reaches_cons_iff]
    constructor
    · rintro ⟨next, hstep, hwalk⟩
      have hfirst := (step_eq_some_iff h token next).mp hstep
      exact ⟨next, hfirst, (ih (wellSized_of_reaches h hfirst)).mp hwalk⟩
    · rintro ⟨next, hfirst, hrest⟩
      have hwalk := (ih (wellSized_of_reaches h hfirst)).mpr hrest
      exact ⟨next, (step_eq_some_iff h token next).mpr hfirst, hwalk⟩

/-! ### Comparing -/

/-- A text that was cut is longer than any that it could be compared with. -/
theorem truncate_eq_iff {value expected : JsString} (h : expected.length ≤ maxValueChars) :
    truncate value = expected ↔ value = expected := by
  rw [truncate]
  split
  · rfl
  · rename_i hlong
    constructor
    · rintro rfl
      rw [List.length_append, List.length_take_of_le (Nat.le_of_not_le hlong)] at h
      exact absurd h (Nat.not_succ_le_self _)
    · rintro rfl
      exact absurd h hlong

/-- What a query finds and what it reports: the path names segments that lead to the value, and an
expected value of at most 200 units matches when it is the whole text of the value. -/
theorem query_spec (root : JsonDocument) (path : JsString) :
    (∀ value, resolvePath root.val path = some value ↔
        ∃ segments ≠ [], path = pathText segments ∧
          Reaches root.val (segments.flatMap Segment.steps) value) ∧
      ∀ expected : JsString, expected.length ≤ maxValueChars →
        ((queryFacts root.val path expected).matched = true ↔
          ∃ value, resolvePath root.val path = some value ∧ stringifyValue value = expected) := by
  refine ⟨fun value => ?_, fun expected hexpected => ?_⟩
  · have hflat : ∀ segments : List Segment, segments.flatMap Segment.tokens =
        (segments.flatMap Segment.steps).map PathToken.rounded :=
      fun segments => List.map_flatMap.symm
    rw [resolvePath, Option.bind_eq_bind, Option.bind_eq_some_iff]
    constructor
    · rintro ⟨tokens, htokens, hwalk⟩
      obtain ⟨segments, hne, hpath, rfl⟩ := (parsePath_eq_some_iff path tokens).mp htokens
      exact ⟨segments, hne, hpath, (walk_eq_some_iff root.property _ value).mp (hflat _ ▸ hwalk)⟩
    · rintro ⟨segments, hne, hpath, hreaches⟩
      refine ⟨_, (parsePath_eq_some_iff path _).mpr ⟨segments, hne, hpath, rfl⟩, ?_⟩
      rw [hflat]
      exact (walk_eq_some_iff root.property _ value).mpr hreaches
  · rw [queryFacts]
    cases hfound : resolvePath root.val path with
    | none =>
      refine iff_of_false Bool.false_ne_true ?_
      rintro ⟨_, hvalue, -⟩
      cases hvalue
    | some value =>
      dsimp only
      rw [decide_eq_true_eq, truncate_eq_iff hexpected]
      exact ⟨fun h => ⟨value, rfl, h⟩, fun ⟨_, hvalue, h⟩ => Option.some_inj.mp hvalue ▸ h⟩

end Vigil.Monitors.JsonQuery
