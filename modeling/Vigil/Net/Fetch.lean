import Vigil.Net.Address
import Mathlib.Data.List.Dedup
import Mathlib.Data.List.Sort

/-! The `Headers` of the fetch standard, as far as the egress loop uses them, and `requestHeaders`
of `monitors/egress.ts`.  Names are kept in lower case, so a header is the same in whatever case it
was given. -/

namespace Vigil.Net.Fetch

open Js.Text Address

def byteLowercase (name : JsString) : JsString := name.map lowerAscii

theorem lowerAscii_lowerAscii (c : UInt16) : lowerAscii (lowerAscii c) = lowerAscii c := by
  unfold lowerAscii
  by_cases h : (0x41 ≤ c && c ≤ 0x5A) = true
  · rw [if_pos h]
    refine if_neg ?_
    simp only [Bool.and_eq_true, decide_eq_true_eq, UInt16.le_iff_toNat_le] at h ⊢
    have hsum : (c + 32).toNat = c.toNat + 32 := by
      rw [UInt16.toNat_add]
      have : UInt16.toNat 0x5A = 90 := rfl
      have : UInt16.toNat 32 = 32 := rfl
      omega
    have h41 : UInt16.toNat 0x41 = 65 := rfl
    have h5A : UInt16.toNat 0x5A = 90 := rfl
    omega
  · rw [if_neg h, if_neg h]

theorem byteLowercase_byteLowercase (name : JsString) :
    byteLowercase (byteLowercase name) = byteLowercase name := by
  simp [byteLowercase, lowerAscii_lowerAscii]

def tokenMarks : JsString :=
  [0x21, 0x23, 0x24, 0x25, 0x26, 0x27, 0x2A, 0x2B, 0x2D, 0x2E, 0x5E, 0x5F, 0x60, 0x7C, 0x7E]

/-- A unit of a header name. -/
def isTokenUnit (c : UInt16) : Bool :=
  isDigit c || (0x41 ≤ c && c ≤ 0x5A) || (0x61 ≤ c && c ≤ 0x7A) || tokenMarks.contains c

def isHeaderName (name : JsString) : Bool := !name.isEmpty && name.all isTokenUnit

def isHttpWhitespace (c : UInt16) : Bool := c = 0x09 || c = 0x0A || c = 0x0D || c = 0x20

def normalizeValue (value : JsString) : JsString :=
  ((value.dropWhile isHttpWhitespace).reverse.dropWhile isHttpWhitespace).reverse

def isHeaderValue (value : JsString) : Bool :=
  value.all fun c => c ≤ 0xFF && c ≠ 0x00 && c ≠ 0x0A && c ≠ 0x0D

structure Headers where
  entries : List (JsString × JsString)
  lower : ∀ e ∈ entries, byteLowercase e.1 = e.1

def Headers.names (h : Headers) : List JsString := h.entries.map (·.1)

def Headers.empty : Headers := ⟨[], by simp⟩

/-- `none` is the `TypeError` for a name or a value that cannot be sent. -/
def Headers.append (h : Headers) (entry : JsString × JsString) : Option Headers :=
  if isHeaderName entry.1 && isHeaderValue (normalizeValue entry.2) then
    some
      { entries := h.entries ++ [(byteLowercase entry.1, normalizeValue entry.2)]
        lower := by
          intro e he
          rcases List.mem_append.mp he with he | he
          · exact h.lower e he
          · obtain rfl := List.mem_singleton.mp he
            exact byteLowercase_byteLowercase entry.1 }
  else none

/-- `headers.delete(name)` -/
def Headers.delete (h : Headers) (name : JsString) : Headers where
  entries := h.entries.filter (·.1 ≠ byteLowercase name)
  lower := fun e he => h.lower e (List.mem_filter.mp he).1

/-- What iterating over the headers gives: by name, and the values of a name in one. -/
def Headers.sortAndCombine (h : Headers) : List (JsString × JsString) :=
  (h.names.dedup.insertionSort (· ≤ ·)).flatMap fun name =>
    let values := (h.entries.filter (·.1 = name)).map (·.2)
    if name = js "set-cookie" then values.map fun value => (name, value)
    else [(name, join values (js ", "))]

/-- The shapes in which a caller may give headers. -/
inductive HeadersInit where
  | absent
  | headers (h : Headers)
  | pairs (entries : List (JsString × JsString))
  | record (entries : List (JsString × JsString))

/-- `new Headers(init)`. -/
def newHeaders : HeadersInit → Option Headers
  | .absent => some .empty
  | .headers h => h.sortAndCombine.foldlM Headers.append .empty
  | .pairs entries => entries.foldlM Headers.append .empty
  | .record entries => entries.foldlM Headers.append .empty

/-- A body that is sent as it is. -/
inductive Body where
  | text (s : JsString)
  | bytes (b : List UInt8)
  deriving DecidableEq, Repr

/-- How many bytes a body has. -/
def Body.byteLength : Body → ℕ
  | .text s => (utf8 s).length
  | .bytes b => b.length

/-- `record[name] = value`. -/
def setEntry (record : List (JsString × JsString)) (entry : JsString × JsString) :
    List (JsString × JsString) :=
  if record.any (·.1 = entry.1) then record.map fun e => if e.1 = entry.1 then entry else e
  else record ++ [entry]

def requestHeaders (init : HeadersInit) (body : Option Body) :
    Option (List (JsString × JsString)) :=
  (newHeaders init).map fun h =>
    let headers := h.sortAndCombine.foldl setEntry
      [(js "accept", js "*/*"), (js "accept-encoding", js "gzip, deflate, br")]
    match body with
    | none => headers
    | some body =>
      if headers.any (·.1 = js "content-length") then headers
      else setEntry headers (js "content-length", decimal body.byteLength)

/-! ### Which names are set -/

variable {h h' : Headers} {name : JsString}

theorem mem_names_append {entry : JsString × JsString} (ha : h.append entry = some h')
    (name : JsString) : name ∈ h'.names ↔ name ∈ h.names ∨ name = byteLowercase entry.1 := by
  unfold Headers.append at ha
  split at ha
  · cases ha
    simp [Headers.names]
  · cases ha

theorem mem_names_delete (h : Headers) (deleted name : JsString) :
    name ∈ (h.delete deleted).names ↔ name ∈ h.names ∧ name ≠ byteLowercase deleted := by
  simp only [Headers.names, Headers.delete, List.mem_map, List.mem_filter, decide_eq_true_eq]
  constructor
  · rintro ⟨e, ⟨he, hne⟩, rfl⟩
    exact ⟨⟨e, he, rfl⟩, hne⟩
  · rintro ⟨⟨e, he, rfl⟩, hne⟩
    exact ⟨e, ⟨he, hne⟩, rfl⟩

theorem lower_of_mem_names (hn : name ∈ h.names) : byteLowercase name = name := by
  obtain ⟨e, he, rfl⟩ := List.mem_map.mp hn
  exact h.lower e he

theorem mem_sortAndCombine {e : JsString × JsString} (he : e ∈ h.sortAndCombine) :
    e.1 ∈ h.names := by
  obtain ⟨name, hname, hmem⟩ := List.mem_flatMap.mp he
  have hset : name ∈ h.names :=
    List.mem_dedup.mp ((List.perm_insertionSort _ _).mem_iff.mp hname)
  dsimp only at hmem
  split at hmem
  · obtain ⟨value, -, rfl⟩ := List.mem_map.mp hmem
    exact hset
  · obtain rfl := List.mem_singleton.mp hmem
    exact hset

theorem mem_names_foldlM_append {entries : List (JsString × JsString)}
    (hf : entries.foldlM Headers.append h = some h') (hn : name ∈ h'.names) :
    name ∈ h.names ∨ ∃ e ∈ entries, name = byteLowercase e.1 := by
  induction entries generalizing h with
  | nil =>
    cases hf
    exact .inl hn
  | cons entry rest ih =>
    obtain ⟨middle, hmiddle, hrest⟩ := Option.bind_eq_some_iff.mp hf
    rcases ih hrest with hin | ⟨e, he, heq⟩
    · rcases (mem_names_append hmiddle name).mp hin with hin | heq
      · exact .inl hin
      · exact .inr ⟨entry, List.mem_cons_self, heq⟩
    · exact .inr ⟨e, List.mem_cons_of_mem _ he, heq⟩

theorem mem_names_copy (hc : newHeaders (.headers h) = some h') (hn : name ∈ h'.names) :
    name ∈ h.names := by
  rcases mem_names_foldlM_append hc hn with hempty | ⟨e, he, rfl⟩
  · cases hempty
  · have hset := mem_sortAndCombine he
    rwa [lower_of_mem_names hset]

theorem mem_setEntry {record : List (JsString × JsString)} {entry e : JsString × JsString}
    (he : e ∈ setEntry record entry) : e = entry ∨ e ∈ record := by
  unfold setEntry at he
  split at he
  · obtain ⟨e', he', rfl⟩ := List.mem_map.mp he
    split
    · exact .inl rfl
    · exact .inr he'
  · rcases List.mem_append.mp he with he | he
    · exact .inr he
    · exact .inl (List.mem_singleton.mp he)

theorem mem_foldl_setEntry {entries record : List (JsString × JsString)} {e : JsString × JsString}
    (he : e ∈ entries.foldl setEntry record) : e ∈ entries ∨ e ∈ record := by
  induction entries generalizing record with
  | nil => exact .inr he
  | cons entry rest ih =>
    rcases ih he with hin | hin
    · exact .inl (List.mem_cons_of_mem _ hin)
    · rcases mem_setEntry hin with rfl | hin
      · exact .inl List.mem_cons_self
      · exact .inr hin

def defaultNames : List JsString := [js "accept", js "accept-encoding", js "content-length"]

/-- On the wire stand the names that the caller set and the transport's own. -/
theorem mem_requestHeaders {init : HeadersInit} {body : Option Body}
    {wire : List (JsString × JsString)} (hw : requestHeaders init body = some wire)
    {e : JsString × JsString} (he : e ∈ wire) :
    e.1 ∈ defaultNames ∨ ∃ h, newHeaders init = some h ∧ e.1 ∈ h.names := by
  obtain ⟨h, hh, rfl⟩ := Option.map_eq_some_iff.mp hw
  have hbase : ∀ e ∈ h.sortAndCombine.foldl setEntry
      [(js "accept", js "*/*"), (js "accept-encoding", js "gzip, deflate, br")],
      e.1 ∈ defaultNames ∨ ∃ h, newHeaders init = some h ∧ e.1 ∈ h.names := by
    intro e he
    rcases mem_foldl_setEntry he with hin | hin
    · exact .inr ⟨h, hh, mem_sortAndCombine hin⟩
    · left
      rcases List.mem_cons.mp hin with rfl | hin
      · simp [defaultNames]
      · obtain rfl := List.mem_singleton.mp hin
        simp [defaultNames]
  cases body with
  | none => exact hbase e he
  | some body =>
    dsimp only at he
    split at he
    · exact hbase e he
    · rcases mem_setEntry he with rfl | he
      · left
        simp [defaultNames]
      · exact hbase e he

end Vigil.Net.Fetch
