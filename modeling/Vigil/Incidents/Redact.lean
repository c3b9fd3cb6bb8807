import Vigil.Js.Base64
import Vigil.Js.Quoted
import Vigil.Js.Uri
import Vigil.Lib.Occurs

/-! `lib/redact.ts`: what takes the secrets of a monitor out of the texts that are kept about it.  A
redactor holds every form in which a secret can stand in a text, the longest first, and replaces one
form after another.  `sealEvidence` looks at what came out once more, as the JSON text that is
stored. -/

namespace Vigil.Incidents.Redact

open Js.Text Js.Base64 Js.Uri Js.Quoted Js.Object
open Ledger.Canonical (JsValue)
open Ledger.JsonText (stringify setEntry)
open Lib.Marked Lib.Occurs

def secretPlaceholder : JsString := js "[redacted]"

def unsafePlaceholder : JsString := js "[withheld: this value could not be safely redacted]"

/-! ### Forms -/

/-- `buffer.toString("base64url")` -/
def base64url (bytes : List UInt8) : JsString :=
  ((base64 bytes).filter (· ≠ pad)).map fun c =>
    if c = 0x2B then 0x2D else if c = 0x2F then 0x5F else c

local instance lawfulTexts : LawfulBEq JsString := inferInstance

/-- A set of forms remembers the order in which they were added. -/
def add (secret candidate : JsString) (forms : List JsString) : List JsString :=
  if candidate ≠ [] ∧ candidate ≠ secret ∧ candidate ∉ forms then forms ++ [candidate] else forms

/-- The forms that percent encoding gives, when it does not throw. -/
def addUriForms (secret : JsString) (forms : List JsString) : List JsString :=
  match encodeURIComponent secret with
  | none => forms
  | some uri => add secret (replaceAll (js "%20") (js "+") uri) (add secret uri forms)

def encodingsOf (secret : JsString) : List JsString :=
  add secret (base64url (utf8 secret)) <| add secret (base64 (utf8 secret)) <|
    add secret (quoteBody secret) <| addUriForms secret [secret]

variable {secret candidate form : JsString} {forms secrets : List JsString}

theorem mem_add_of_mem (h : form ∈ forms) : form ∈ add secret candidate forms := by
  unfold add
  split
  · exact List.mem_append_left _ h
  · exact h

theorem mem_add_self (hne : candidate ≠ []) (hsecret : secret ∈ forms) :
    candidate ∈ add secret candidate forms := by
  unfold add
  split
  · exact List.mem_append_right _ (List.mem_singleton_self _)
  · rename_i h
    by_cases heq : candidate = secret
    · exact heq ▸ hsecret
    · exact not_not.mp fun hnot => h ⟨hne, heq, hnot⟩

theorem add_ne_nil (h : ∀ form ∈ forms, form ≠ []) :
    ∀ form ∈ add secret candidate forms, form ≠ [] := by
  unfold add
  split
  · rename_i hadd
    intro form hform
    rcases List.mem_append.mp hform with hold | hnew
    · exact h form hold
    · exact List.mem_singleton.mp hnew ▸ hadd.1
  · exact h

theorem mem_addUriForms (h : form ∈ forms) : form ∈ addUriForms secret forms := by
  unfold addUriForms
  split
  · exact h
  · exact mem_add_of_mem (mem_add_of_mem h)

theorem addUriForms_ne_nil (h : ∀ form ∈ forms, form ≠ []) :
    ∀ form ∈ addUriForms secret forms, form ≠ [] := by
  unfold addUriForms
  split
  · exact h
  · exact add_ne_nil (add_ne_nil h)

theorem mem_encodingsOf_self (secret : JsString) : secret ∈ encodingsOf secret :=
  mem_add_of_mem (mem_add_of_mem (mem_add_of_mem (mem_addUriForms (List.mem_singleton_self secret))))

theorem escapeUnit_ne_nil (c : UInt16) : escapeUnit c ≠ [] := by
  unfold escapeUnit
  split
  · exact List.cons_ne_nil _ _
  · split
    · exact List.cons_ne_nil _ _
    · exact List.cons_ne_nil _ _

theorem quoteBody_ne_nil {s : JsString} (h : s ≠ []) : quoteBody s ≠ [] := by
  induction s using quoteBody.induct with
  | case1 => exact absurd rfl h
  | case2 c => exact escapeUnit_ne_nil c
  | case3 c d rest hpair _ =>
    rw [quoteBody, if_pos hpair]
    exact List.cons_ne_nil _ _
  | case4 c d rest hpair _ =>
    rw [quoteBody, if_neg hpair]
    exact List.append_ne_nil_of_left_ne_nil (escapeUnit_ne_nil c) _

theorem quoteBody_mem_encodingsOf (h : secret ≠ []) : quoteBody secret ∈ encodingsOf secret :=
  mem_add_of_mem (mem_add_of_mem (mem_add_self (quoteBody_ne_nil h)
    (mem_addUriForms (List.mem_singleton_self secret))))

theorem encodingsOf_ne_nil (h : secret ≠ []) : ∀ form ∈ encodingsOf secret, form ≠ [] := by
  refine add_ne_nil (add_ne_nil (add_ne_nil (addUriForms_ne_nil fun form hform => ?_)))
  exact List.mem_singleton.mp hform ▸ h

/-! ### Redactors -/

/-- The forms that a redactor holds.  None of them is empty. -/
structure Redactor where
  unique : List JsString
  ne_nil : ∀ form ∈ unique, form ≠ []

/-- The longest form first; forms of one length keep their order. -/
def byLength (forms : List JsString) : List JsString :=
  forms.insertionSort fun a b => b.length ≤ a.length

theorem mem_unique_iff : form ∈ byLength ((secrets.filter (· ≠ [])).flatMap encodingsOf).eraseDups ↔
      ∃ secret ∈ secrets, secret ≠ [] ∧ form ∈ encodingsOf secret := by
  rw [byLength, List.mem_insertionSort, List.mem_eraseDups, List.mem_flatMap]
  simp only [List.mem_filter, decide_eq_true_eq, and_assoc]

def makeRedactor (secrets : List JsString) : Redactor where
  unique := byLength ((secrets.filter (· ≠ [])).flatMap encodingsOf).eraseDups
  ne_nil := by
    intro form hform
    obtain ⟨secret, -, hne, hmem⟩ := mem_unique_iff.mp hform
    exact encodingsOf_ne_nil hne form hmem

namespace Redactor

variable (r : Redactor)

/-- One turn of the loop over the forms. -/
def mask (out form : JsString) : JsString :=
  if out.length < form.length then out
  else if form <:+: out then replaceAll form secretPlaceholder out
  else out

def redact (text : JsString) : JsString :=
  if r.unique = [] then text else r.unique.foldl mask text

def isClean (text : JsString) : Bool := !r.unique.any fun form => form <:+: text

end Redactor

namespace Redactor

variable {r : Redactor}

theorem isClean_iff {text : JsString} : r.isClean text = true ↔ ∀ form ∈ r.unique, ¬form <:+: text := by
  simp [isClean]

theorem mask_eq (out form : JsString) : mask out form = replaceAll form secretPlaceholder out := by
  unfold mask
  split
  · rename_i hshort
    refine (replaceAll_of_free fun hin => ?_).symm
    have := hin.length_le
    omega
  · split
    · rfl
    · rename_i hout
      exact (replaceAll_of_free hout).symm

theorem redact_eq_replaceEach (r : Redactor) (text : JsString) :
    r.redact text = replaceEach secretPlaceholder r.unique text := by
  have hfold (forms : List JsString) (text : JsString) :
      forms.foldl mask text = replaceEach secretPlaceholder forms text := by
    induction forms generalizing text with
    | nil => rfl
    | cons form forms ih => rw [List.foldl_cons, ih, mask_eq, replaceEach]
  unfold redact
  split
  · rename_i hnone
    rw [hnone]
    rfl
  · exact hfold r.unique text

theorem redact_of_isClean {text : JsString} (h : r.isClean text = true) : r.redact text = text := by
  rw [redact_eq_replaceEach]
  exact replaceEach_of_free (isClean_iff.mp h)

theorem isClean_redact (hmeets : ∀ form ∈ r.unique, ¬Meets form secretPlaceholder)
    (text : JsString) : r.isClean (r.redact text) = true := by
  rw [isClean_iff, redact_eq_replaceEach]
  exact fun form hform => not_infix_replaceEach r.ne_nil hmeets text (.inl hform)

end Redactor

/-- Where no form of a secret can overlap with the placeholder, a redacted text holds no form of any
secret, and only texts that hold one are changed. -/
theorem redact_removes_every_form (secrets : List JsString)
    (hmeets : ∀ form ∈ (makeRedactor secrets).unique, ¬Meets form secretPlaceholder)
    (text : JsString) :
    (∀ secret ∈ secrets, secret ≠ [] → ∀ form ∈ encodingsOf secret,
        ¬form <:+: (makeRedactor secrets).redact text) ∧
      ((makeRedactor secrets).redact text = text ↔
        ∀ secret ∈ secrets, secret ≠ [] → ∀ form ∈ encodingsOf secret, ¬form <:+: text) := by
  have hclean := Redactor.isClean_redact hmeets text
  have hforms {out : JsString} : (makeRedactor secrets).isClean out = true ↔
      ∀ secret ∈ secrets, secret ≠ [] → ∀ form ∈ encodingsOf secret, ¬form <:+: out := by
    rw [Redactor.isClean_iff]
    constructor
    · exact fun h secret hmem hne form hform => h form (mem_unique_iff.mpr ⟨secret, hmem, hne, hform⟩)
    · intro h form hform
      obtain ⟨secret, hmem, hne, hin⟩ := mem_unique_iff.mp hform
      exact h secret hmem hne form hin
  refine ⟨hforms.mp hclean, ?_⟩
  rw [← hforms]
  exact ⟨fun hsame => hsame ▸ hclean, Redactor.redact_of_isClean⟩

theorem redact_removes_hunter :
    (∀ form ∈ (makeRedactor [js "hunter2", js "p@ss"]).unique, ¬Meets form secretPlaceholder) ∧
      ((makeRedactor [js "hunter2", js "p@ss"]).redact (js "?k=hunter2&q=p%40ss") =
          js "?k=[redacted]&q=[redacted]" ∧
        ∀ secret ∈ [js "hunter2", js "p@ss"], secret ≠ [] → ∀ form ∈ encodingsOf secret,
          ¬form <:+: (makeRedactor [js "hunter2", js "p@ss"]).redact (js "?k=hunter2&q=p%40ss")) := by
  have hmeets : ∀ form ∈ (makeRedactor [js "hunter2", js "p@ss"]).unique,
      ¬Meets form secretPlaceholder := by
    decide +kernel
  exact ⟨hmeets, by decide +kernel, (redact_removes_every_form _ hmeets _).1⟩

/-! ### Values -/

def maxDepth : ℕ := 12

def maxKeys : ℕ := 200

def tooDeeplyNested : JsString := js "[truncated: too deeply nested]"

def limited (depth : ℕ) (cleaned : JsValue) : JsValue :=
  if maxDepth < depth then .string tooDeeplyNested else cleaned

/-- A key that is listed before the others: `0` or a number without a leading zero, up to
`2 ^ 32 - 2`. -/
def isIndex (key : JsString) : Bool :=
  key ≠ [] && key.all Ledger.JsonNumber.isDigitUnit && (key.head? ≠ some 0x30 || key.length = 1) &&
    Ledger.JsonNumber.digitsValue key < 2 ^ 32 - 1

/-- The order in which an object lists its keys, of which those that are numbers were set in their
order. -/
def listed (entries : Entries) : Entries :=
  (entries.filter fun entry => isIndex entry.1) ++ entries.filter fun entry => !isIndex entry.1

mutual

def walk (r : Redactor) (depth : ℕ) : JsValue → JsValue
  | .undefined | .function | .null => limited depth .null
  | .string s => limited depth (.string (r.redact s))
  | .number x => limited depth (if x = .notFinite then .null else .number x)
  | .bool b => limited depth (.bool b)
  | .array items => limited depth (.array (walkItems r depth maxKeys items))
  | .object entries => limited depth (.object (listed (walkEntries r depth maxKeys entries [])))

/-- At most `left` more items. -/
def walkItems (r : Redactor) (depth : ℕ) : ℕ → List JsValue → List JsValue
  | 0, _ | _ + 1, [] => []
  | left + 1, item :: rest => walk r (depth + 1) item :: walkItems r depth left rest

/-- At most `left` more entries, the ones that are left out among them.  A key that a redactor changes
holds the placeholder, so none becomes `__proto__` and setting one is setting an entry. -/
def walkEntries (r : Redactor) (depth : ℕ) : ℕ → List (JsString × JsValue) → Entries → Entries
  | 0, _, out | _ + 1, [], out => out
  | left + 1, (key, entry) :: rest, out =>
    if key = protoKey ∨ key = js "constructor" then walkEntries r depth left rest out
    else
      walkEntries r depth left rest (setEntry out (r.redact key, walk r (depth + 1) entry))

end

def sealEvidence (value : JsValue) (r : Redactor) : JsValue :=
  let cleaned := walk r 0 value
  if r.isClean ((stringify cleaned).getD []) then cleaned else .string unsafePlaceholder

/-- What is thrown: an error, perhaps with another one as its cause, a text, or something else. -/
inductive Thrown where
  | error (message : JsString) (cause : Option JsString)
  | text (s : JsString)
  | other

/-- The message of what was thrown. -/
def rawMessage : Thrown → JsString
  | .error message (some cause) => if message = js "fetch failed" then cause else message
  | .error message none => message
  | .text s => s
  | .other => js "the step failed"

def safeMessage (error : Thrown) (r : Redactor) : JsString :=
  let masked := r.redact (rawMessage error)
  if r.isClean masked then masked else unsafePlaceholder

/-! ### What is stored -/

theorem solid_limited {depth : ℕ} {cleaned : JsValue} (h : Solid cleaned) :
    Solid (limited depth cleaned) := by
  unfold limited
  split
  · rw [Solid]
    trivial
  · exact h

theorem solidEntries_iff {entries : Entries} :
    SolidEntries entries ↔ ∀ entry ∈ entries, Solid entry.2 := by
  induction entries with
  | nil => simp [SolidEntries]
  | cons entry rest ih =>
    obtain ⟨key, value⟩ := entry
    rw [SolidEntries, ih, List.forall_mem_cons]

theorem mem_of_mem_setEntry {entries : Entries} {entry other : JsString × JsValue}
    (h : other ∈ setEntry entries entry) : other ∈ entries ∨ other = entry := by
  unfold setEntry at h
  split at h
  · obtain ⟨e, he, heq⟩ := List.mem_map.mp h
    split at heq
    · exact .inr heq.symm
    · exact .inl (heq ▸ he)
  · rcases List.mem_append.mp h with hold | hnew
    · exact .inl hold
    · exact .inr (List.mem_singleton.mp hnew)

mutual

theorem solid_walk (r : Redactor) : ∀ depth value, Solid (walk r depth value)
  | depth, .undefined => by rw [walk]; exact solid_limited trivial
  | depth, .function => by rw [walk]; exact solid_limited trivial
  | depth, .null => by rw [walk]; exact solid_limited trivial
  | depth, .bool b => by rw [walk]; exact solid_limited trivial
  | depth, .number x => by
    rw [walk]
    refine solid_limited ?_
    split
    · trivial
    · trivial
  | depth, .string s => by rw [walk]; exact solid_limited trivial
  | depth, .array items => by
    rw [walk]
    exact solid_limited (solid_walkItems r depth maxKeys items)
  | depth, .object entries => by
    rw [walk]
    refine solid_limited (solidEntries_iff.mpr fun entry hentry => ?_)
    have hwalked := solid_walkEntries r depth maxKeys entries [] nofun
    refine hwalked entry ?_
    rcases List.mem_append.mp hentry with h | h
    · exact List.mem_of_mem_filter h
    · exact List.mem_of_mem_filter h

theorem solid_walkItems (r : Redactor) : ∀ depth left items, SolidItems (walkItems r depth left items)
  | _, 0, _ => by rw [walkItems]; trivial
  | _, _ + 1, [] => by rw [walkItems]; trivial
  | depth, left + 1, item :: rest => by
    rw [walkItems]
    exact ⟨solid_walk r (depth + 1) item, solid_walkItems r depth left rest⟩

theorem solid_walkEntries (r : Redactor) : ∀ depth left entries out, (∀ entry ∈ out, Solid entry.2) →
    ∀ entry ∈ walkEntries r depth left entries out, Solid entry.2
  | _, 0, _, _, h => by rw [walkEntries]; exact h
  | _, _ + 1, [], _, h => by rw [walkEntries]; exact h
  | depth, left + 1, (key, value) :: rest, out, h => by
    rw [walkEntries]
    split
    · exact solid_walkEntries r depth left rest out h
    · refine solid_walkEntries r depth left rest _ fun entry hentry => ?_
      rcases mem_of_mem_setEntry hentry with hold | rfl
      · exact h entry hold
      · exact solid_walk r (depth + 1) value

end

theorem sealEvidence_cases (value : JsValue) (r : Redactor) :
    r.isClean ((stringify (walk r 0 value)).getD []) = true ∧ sealEvidence value r = walk r 0 value ∨
      sealEvidence value r = .string unsafePlaceholder := by
  simp only [sealEvidence]
  split
  · rename_i hclean
    exact .inl ⟨hclean, rfl⟩
  · exact .inr rfl

/-- What is held as JSON writes it is in no string of a value whose text is clean. -/
theorem not_infix_of_isClean {r : Redactor} {value : JsValue} (hheld : quoteBody form ∈ r.unique)
    (hwhole : Whole form) (hclean : r.isClean ((stringify (walk r 0 value)).getD []) = true)
    {s : JsString} (hs : s ∈ strings (walk r 0 value)) : ¬form <:+: s := by
  intro hin
  obtain ⟨text, htext, hquotes⟩ := stringify_quotes _ (solid_walk r 0 value)
  rw [htext, Option.getD_some, Redactor.isClean_iff] at hclean
  refine hclean _ hheld ((quoteBody_within hwhole hin).trans (.trans ?_ (hquotes s hs)))
  exact List.infix_cons_iff.mpr (.inr List.infix_append_left)

theorem sealEvidence_free {r : Redactor} (value : JsValue) (hheld : quoteBody form ∈ r.unique)
    (hwhole : Whole form) (hplaceholder : ¬form <:+: unsafePlaceholder) {s : JsString}
    (hs : s ∈ strings (sealEvidence value r)) : ¬form <:+: s := by
  rcases sealEvidence_cases value r with ⟨hclean, hsame⟩ | hwithheld
  · rw [hsame] at hs
    exact not_infix_of_isClean hheld hwhole hclean hs
  · rw [hwithheld, strings] at hs
    exact fun hin => hplaceholder (List.mem_singleton.mp hs ▸ hin)

theorem quoteBody_mem_unique (hne : secret ≠ []) (h : secret ∈ secrets) :
    quoteBody secret ∈ (makeRedactor secrets).unique :=
  mem_unique_iff.mpr ⟨secret, h, hne, quoteBody_mem_encodingsOf hne⟩

structure Traceable (secrets : List JsString) (form : JsString) : Prop where
  held : form ∈ (makeRedactor secrets).unique
  quoted : form ∈ secrets ∨ quoteBody form = form
  whole : Whole form

theorem Traceable.quoteBody_held (h : Traceable secrets form) :
    quoteBody form ∈ (makeRedactor secrets).unique := by
  rcases h.quoted with hsecret | hsame
  · exact quoteBody_mem_unique ((makeRedactor secrets).ne_nil form h.held) hsecret
  · exact hsame.symm ▸ h.held

/-- A value is sealed as it was redacted, or it is withheld, and then the text of what was redacted
still holds a form of a secret. -/
theorem sealEvidence_kept_or_withheld (r : Redactor) (value : JsValue) :
    sealEvidence value r = walk r 0 value ∨
      sealEvidence value r = .string unsafePlaceholder ∧
        ∃ text, stringify (walk r 0 value) = some text ∧ ∃ form ∈ r.unique, form <:+: text := by
  obtain ⟨text, htext, -⟩ := stringify_quotes _ (solid_walk r 0 value)
  cases hclean : r.isClean text with
  | true =>
    left
    simp only [sealEvidence, htext, Option.getD_some, hclean, if_true]
  | false =>
    refine .inr ⟨?_, text, htext, ?_⟩
    · simp only [sealEvidence, htext, Option.getD_some, hclean, Bool.false_eq_true, if_false]
    · by_contra hnone
      rw [← Bool.not_eq_true, Redactor.isClean_iff] at hclean
      exact hclean fun form hform hin => hnone ⟨form, hform, hin⟩

/-- No string and no key of what was sealed holds a secret, or a form that JSON leaves alone, but for
what the placeholder itself holds.  Where the redacted value still holds one it is withheld, and
otherwise it is withheld only where its text holds a form. -/
theorem sealEvidence_holds_no_secret (secrets : List JsString) (value : JsValue) :
    (∀ form, Traceable secrets form → ¬form <:+: unsafePlaceholder →
      ∀ s ∈ strings (sealEvidence value (makeRedactor secrets)), ¬form <:+: s) ∧
    (∀ form, Traceable secrets form → ∀ s ∈ strings (walk (makeRedactor secrets) 0 value),
      form <:+: s → sealEvidence value (makeRedactor secrets) = .string unsafePlaceholder) ∧
    (sealEvidence value (makeRedactor secrets) = walk (makeRedactor secrets) 0 value ∨
      sealEvidence value (makeRedactor secrets) = .string unsafePlaceholder ∧
        ∃ text, stringify (walk (makeRedactor secrets) 0 value) = some text ∧
          ∃ form ∈ (makeRedactor secrets).unique, form <:+: text) := by
  refine ⟨fun form h hplaceholder s hs => ?_, fun form h s hs hin => ?_,
    sealEvidence_kept_or_withheld _ value⟩
  · exact sealEvidence_free value h.quoteBody_held h.whole hplaceholder hs
  · rcases sealEvidence_cases value (makeRedactor secrets) with ⟨hclean, -⟩ | hwithheld
    · exact absurd hin (not_infix_of_isClean h.quoteBody_held h.whole hclean hs)
    · exact hwithheld

/-- A password in a key and in a text. -/
def sampleEvidence : JsValue :=
  .object [(js "hunter2", .string (js "tok=hunter2")), (js "depth", .array [.null, .number (.integer 7)])]

/-- The password is taken out of a key and a text; a secret that the placeholder completes makes the
value withheld. -/
theorem sealed_sample_holds_no_secret :
    (strings sampleEvidence = [js "hunter2", js "tok=hunter2", js "depth"] ∧
      ∀ s ∈ strings (sealEvidence sampleEvidence (makeRedactor [js "hunter2"])),
        ¬js "hunter2" <:+: s) ∧
      walk (makeRedactor [js "]x", js "k"]) 0 (.string (js "kx")) = .string (js "[redacted]x") ∧
      sealEvidence (.string (js "kx")) (makeRedactor [js "]x", js "k"]) =
        .string unsafePlaceholder := by
  have hhunter : Traceable [js "hunter2"] (js "hunter2") := {
    held := by decide +kernel
    quoted := .inl List.mem_cons_self
    whole := by decide +kernel }
  have hcompleted : Traceable [js "]x", js "k"] (js "]x") := {
    held := by decide +kernel
    quoted := .inl List.mem_cons_self
    whole := by decide +kernel }
  have hwalk : walk (makeRedactor [js "]x", js "k"]) 0 (.string (js "kx")) =
      .string (js "[redacted]x") := by
    have hredact : (makeRedactor [js "]x", js "k"]).redact (js "kx") = js "[redacted]x" := by
      decide +kernel
    rw [walk, hredact]
    rfl
  refine ⟨⟨by decide +kernel, ?_⟩, hwalk, ?_⟩
  · exact (sealEvidence_holds_no_secret [js "hunter2"] sampleEvidence).1 _ hhunter (by decide +kernel)
  · refine (sealEvidence_holds_no_secret [js "]x", js "k"] (.string (js "kx"))).2.1 _ hcompleted
      (js "[redacted]x") ?_ (by decide +kernel)
    rw [hwalk, strings]
    exact List.mem_singleton_self _

theorem safeMessage_isClean {r : Redactor} (h : r.isClean unsafePlaceholder = true) (error : Thrown) :
    r.isClean (safeMessage error r) = true := by
  simp only [safeMessage]
  split
  · assumption
  · exact h

end Vigil.Incidents.Redact
