import Vigil.Js.Base64
import Vigil.Lib.Marked
import Vigil.Monitors.Push
import Mathlib.Data.List.ProdSigma

/-! `redactErrorText` of `notifications/providers/types.ts`.  The two rewrites by a regular expression
that end it are scanners here: from left to right, and after a match they go on behind it. -/

namespace Vigil.Notifications.Redaction

open Js.Text Js.Base64 Lib.Marked

def redacted : JsString := js "[redacted]"

/-- One turn of the loop over the secrets. -/
def scrub (out value : JsString) : JsString :=
  if value.length < 4 then out
  else replaceAll (base64 (utf8 value)) redacted (replaceAll value redacted out)

/-! ### `/\b(Basic|Bearer|vapid)\s+[A-Za-z0-9+/=._~-]{8,}/gi` -/

/-- `\s` -/
def isSpace (c : UInt16) : Bool := Monitors.Push.isTrimmed c

/-- `[A-Za-z0-9]` -/
def isAlphanumeric (c : UInt16) : Bool :=
  (0x41 ≤ c && c ≤ 0x5A) || (0x61 ≤ c && c ≤ 0x7A) || (0x30 ≤ c && c ≤ 0x39)

/-- `\w` -/
def isWordUnit (c : UInt16) : Bool := isAlphanumeric c || c = 0x5F

/-- A letter of ASCII that is compared without its case. -/
def fold (c : UInt16) : UInt16 := if 0x41 ≤ c && c ≤ 0x5A then c + 0x20 else c

def isCredentialUnit (c : UInt16) : Bool := isAlphanumeric c || (js "+/=._~-").contains c

/-- The lengths of the scheme and of the whole match that begins a text. -/
def authorizationAt (text : JsString) : Option (ℕ × ℕ) :=
  [js "basic", js "bearer", js "vapid"].findSome? fun scheme =>
    if (text.take scheme.length).map fold = scheme then
      let spaces := (text.drop scheme.length).takeWhile isSpace
      let credential := (text.drop (scheme.length + spaces.length)).takeWhile isCredentialUnit
      if spaces ≠ [] ∧ 8 ≤ credential.length then
        some (scheme.length, scheme.length + spaces.length + credential.length)
      else none
    else none

/-- `inWord` says whether the unit before the text is a word unit, and the first `skip` units of the
text belong to a match. -/
def redactAuthorization : Bool → ℕ → JsString → JsString
  | _, _, [] => []
  | _, skip + 1, c :: rest => redactAuthorization (isWordUnit c) skip rest
  | inWord, 0, c :: rest =>
    match if inWord then none else authorizationAt (c :: rest) with
    | some (scheme, length) =>
      (c :: rest).take scheme ++
        (js " [redacted]" ++ redactAuthorization (isWordUnit c) (length - 1) rest)
    | none => c :: redactAuthorization (isWordUnit c) 0 rest

/-! ### `/(https?:\/\/)(?:[^\s/@]+@)?([^\s?#"']+)(?:[?#][^\s"']*)?/gi` -/

/-- `[^\s/@]` -/
def isUserUnit (c : UInt16) : Bool := !isSpace c && !(js "/@").contains c

def isPathUnit (c : UInt16) : Bool := !isSpace c && !(js "?#\"'").contains c

/-- `[^\s"']` -/
def isSuffixUnit (c : UInt16) : Bool := !isSpace c && !(js "\"'").contains c

def protocolLength (text : JsString) : Option ℕ :=
  if (text.take 8).map fold = js "https://" then some 8
  else if (text.take 7).map fold = js "http://" then some 7
  else none

/-- What is kept of a match after the protocol and the user, and how many units are matched. -/
def pathAt (text : JsString) : Option (JsString × ℕ) :=
  let path := text.takeWhile isPathUnit
  let after := text.drop path.length
  if path = [] then none
  else if after.head?.any (js "?#").contains then
    some (path, path.length + 1 + (after.tail.takeWhile isSuffixUnit).length)
  else some (path, path.length)

/-- The text that replaces the match that begins a text, and how many units are matched. -/
def urlAt (text : JsString) : Option (JsString × ℕ) :=
  (protocolLength text).bind fun protocol =>
    let after := text.drop protocol
    let user := after.takeWhile isUserUnit
    let whole (skipped : ℕ) := (pathAt (after.drop skipped)).map fun found =>
      (text.take protocol ++ found.1, protocol + skipped + found.2)
    if user ≠ [] ∧ (after.drop user.length).head? = some 0x40 then
      -- Where nothing follows the user, it is no user.
      (whole (user.length + 1)).or (whole 0)
    else whole 0

def redactUrls : ℕ → JsString → JsString
  | _, [] => []
  | skip + 1, _ :: rest => redactUrls skip rest
  | 0, c :: rest =>
    match urlAt (c :: rest) with
    | some (kept, length) => kept ++ redactUrls (length - 1) rest
    | none => c :: redactUrls 0 rest

/-- `redactErrorText`; the secrets are `Object.values(secrets)`. -/
def redactErrorText (text : JsString) (secrets : List JsString) : JsString :=
  (redactUrls 0 (redactAuthorization false 0 (secrets.foldl scrub text))).take 500

/-! ### Marks -/

/-- The form in which a secret stands in a text. -/
inductive Form where
  | raw
  | encoded
  deriving DecidableEq, Repr

/-- A secret by its place, in one of its forms. -/
abbrev Mark := ℕ × Form

abbrev Pieces := List (Piece UInt16 Mark)

/-- What the marks stand for. -/
def words (secrets : List JsString) : Mark → JsString
  | (i, .raw) => secrets.getD i []
  | (i, .encoded) => base64 (utf8 (secrets.getD i []))

/-- The marks in the order in which the loop comes to them. -/
def marks (count : ℕ) : List Mark := List.range count ×ˢ [Form.raw, Form.encoded]

theorem nodup_marks (count : ℕ) : (marks count).Nodup :=
  List.nodup_range.product (by decide)

theorem mem_marks {count : ℕ} {m : Mark} : m ∈ marks count ↔ m.1 < count := by
  obtain ⟨i, form⟩ := m
  rw [marks, List.mem_product, List.mem_range]
  cases form <;> simp

theorem map_marks (secrets : List JsString) :
    (marks secrets.length).map (words secrets) =
      secrets.flatMap fun value => [value, base64 (utf8 value)] := by
  have hvalues : (List.range secrets.length).map (fun i => secrets.getD i []) = secrets := by
    refine List.ext_getElem (by simp) fun i _ hi => ?_
    simp [List.getD_eq_getElem?_getD, List.getElem?_eq_getElem hi]
  have hmap : (marks secrets.length).map (words secrets) =
      ((List.range secrets.length).map fun i => secrets.getD i []).flatMap
        fun value => [value, base64 (utf8 value)] := by
    rw [marks, List.flatMap_map]
    exact List.map_flatMap
  rw [hmap, hvalues]

/-- The loop replaces each secret in each of its forms, one after another. -/
theorem foldl_scrub {secrets : List JsString} (hlong : ∀ value ∈ secrets, 4 ≤ value.length) :
    ∀ text, secrets.foldl scrub text =
      replaceEach redacted ((marks secrets.length).map (words secrets)) text := by
  rw [map_marks]
  induction secrets with
  | nil => exact fun _ => rfl
  | cons value secrets ih =>
    intro text
    have hvalue : ¬value.length < 4 := Nat.not_lt.mpr (hlong value List.mem_cons_self)
    rw [List.foldl_cons, scrub, if_neg hvalue,
      ih fun v hv => hlong v (List.mem_cons_of_mem _ hv)]
    rfl

/-- Every secret in a text, in either form, is marked; and when its turn comes it occurs nowhere but
at its marks. -/
structure Clear (secrets : List JsString) (text : Pieces) : Prop where
  marked : ∀ m, .mark m ∈ text → m.1 < secrets.length
  apart : apart redacted (marks secrets.length) (words secrets) text = true

theorem redactErrorText_congr {secrets secrets' : List JsString}
    (hcount : secrets'.length = secrets.length) (hlong : ∀ value ∈ secrets, 4 ≤ value.length)
    (hlong' : ∀ value ∈ secrets', 4 ≤ value.length) {text : Pieces} (h : Clear secrets text)
    (h' : Clear secrets' text) :
    redactErrorText (render (words secrets) text) secrets =
      redactErrorText (render (words secrets') text) secrets' := by
  have hapart := h'.apart
  rw [hcount] at hapart
  unfold redactErrorText
  rw [foldl_scrub hlong, foldl_scrub hlong', hcount,
    replaceEach_congr (nodup_marks _) (fun m hm => mem_marks.mpr (h.marked m hm)) h.apart hapart]

end Vigil.Notifications.Redaction
