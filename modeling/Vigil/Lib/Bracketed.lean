import Mathlib.Data.List.Basic

/-! Bracketed text over any alphabet.  A scanner keeps the nesting depth and whether it stands in a
quoted part; it stops at a separator or a closing bracket of depth zero.  A text that the scanner
crosses from any depth and leaves at that depth is self-contained: where such a text ends can be
told from the text itself, so two of them followed by delimiters cannot share one spelling. -/

namespace Vigil.Lib.Bracketed

/-- What a character is for the scanner. -/
inductive Token where
  | opening
  | closing
  | separator
  | quote
  | escape
  | plain
  deriving DecidableEq, Repr

inductive Scan where
  | outside (depth : ℕ)
  | inside (depth : ℕ)
  | escaped (depth : ℕ)
  deriving DecidableEq, Repr

/-- One step of the scanner, which fails on a delimiter of depth zero. -/
def Scan.next : Scan → Token → Option Scan
  | .outside d, .opening => some (.outside (d + 1))
  | .outside 0, .closing => none
  | .outside (d + 1), .closing => some (.outside d)
  | .outside 0, .separator => none
  | .outside (d + 1), .separator => some (.outside (d + 1))
  | .outside d, .quote => some (.inside d)
  | .outside d, .escape => some (.outside d)
  | .outside d, .plain => some (.outside d)
  | .inside d, .quote => some (.outside d)
  | .inside d, .escape => some (.escaped d)
  | .inside d, _ => some (.inside d)
  | .escaped d, _ => some (.inside d)

section

variable {α : Type} (kind : α → Token)

def scan (start : Scan) (text : List α) : Option Scan :=
  text.foldlM (fun st c => st.next (kind c)) start

/-- The scanner crosses the text from every depth and is back at that depth. -/
def SelfContained (text : List α) : Prop :=
  ∀ d, scan kind (.outside d) text = some (.outside d)

/-- The scanner crosses the text inside a quoted part and stays in it. -/
def QuotedText (text : List α) : Prop :=
  ∀ d, scan kind (.inside d) text = some (.inside d)

def Delimited (text : List α) : Prop :=
  ∀ c ∈ text.head?, kind c = .separator ∨ kind c = .closing

@[simp] theorem scan_nil (st : Scan) : scan kind st [] = some st := rfl

theorem scan_cons (st : Scan) (c : α) (text : List α) :
    scan kind st (c :: text) = (st.next (kind c)).bind fun st => scan kind st text := rfl

theorem scan_append (st : Scan) (s t : List α) :
    scan kind st (s ++ t) = (scan kind st s).bind fun st => scan kind st t := by
  simp only [scan, List.foldlM_append]
  rfl

variable {kind}

theorem SelfContained.append {s t : List α} (hs : SelfContained kind s)
    (ht : SelfContained kind t) : SelfContained kind (s ++ t) := by
  intro d
  rw [scan_append, hs d]
  exact ht d

variable {text : List α}

theorem SelfContained.of_plain (h : ∀ c ∈ text, kind c = .plain) : SelfContained kind text := by
  intro d
  induction text with
  | nil => rfl
  | cons c text ih =>
    rw [scan_cons, h c List.mem_cons_self]
    exact ih fun c hc => h c (List.mem_cons_of_mem _ hc)

theorem QuotedText.append {s t : List α} (hs : QuotedText kind s) (ht : QuotedText kind t) :
    QuotedText kind (s ++ t) := by
  intro d
  rw [scan_append, hs d]
  exact ht d

theorem QuotedText.of_plain (h : ∀ c ∈ text, kind c ≠ .quote ∧ kind c ≠ .escape) :
    QuotedText kind text := by
  intro d
  induction text with
  | nil => rfl
  | cons c text ih =>
    obtain ⟨hquote, hescape⟩ := h c List.mem_cons_self
    have hnext : (Scan.inside d).next (kind c) = some (.inside d) := by
      cases hk : kind c with
      | quote => exact absurd hk hquote
      | escape => exact absurd hk hescape
      | _ => rfl
    rw [scan_cons, hnext]
    exact ih fun c hc => h c (List.mem_cons_of_mem _ hc)

theorem QuotedText.escape {e c : α} (he : kind e = .escape) : QuotedText kind [e, c] := by
  intro d
  rw [scan_cons, he]
  rfl

theorem QuotedText.selfContained {q : α} (hq : kind q = .quote) (h : QuotedText kind text) :
    SelfContained kind (q :: (text ++ [q])) := by
  intro d
  have hopen : (Scan.outside d).next (kind q) = some (.inside d) := by
    rw [hq]
    cases d <;> rfl
  rw [scan_cons, hopen, Option.bind_some, scan_append, h d, Option.bind_some, scan_cons, hq]
  rfl

/-- Self-contained parts, separated and between brackets, are self-contained. -/
theorem SelfContained.bracket {o c s : α} {parts : List (List α)} (ho : kind o = .opening)
    (hc : kind c = .closing) (hs : kind s = .separator)
    (h : ∀ part ∈ parts, SelfContained kind part) :
    SelfContained kind (o :: ((parts.intersperse [s]).flatten ++ [c])) := by
  intro d
  have hbody : scan kind (.outside (d + 1)) (parts.intersperse [s]).flatten =
      some (.outside (d + 1)) := by
    induction parts with
    | nil => rfl
    | cons part rest ih =>
      have hpart := h part List.mem_cons_self (d + 1)
      have ih := ih fun part hp => h part (List.mem_cons_of_mem _ hp)
      cases rest with
      | nil => simpa using hpart
      | cons next rest =>
        rw [List.intersperse_cons_cons, List.flatten_cons, List.flatten_cons, scan_append, hpart,
          Option.bind_some, List.singleton_append, scan_cons, hs]
        exact ih
  have hopen : (Scan.outside d).next (kind o) = some (.outside (d + 1)) := by
    rw [ho]
    cases d <;> rfl
  rw [scan_cons, hopen, Option.bind_some, scan_append, hbody, Option.bind_some, scan_cons, hc]
  rfl

theorem scan_delimited {c : α} (text : List α) (h : kind c = .separator ∨ kind c = .closing) :
    scan kind (.outside 0) (c :: text) = none := by
  rw [scan_cons]
  rcases h with h | h <;> rw [h] <;> rfl

/-- Where a self-contained text ends is determined by what follows it. -/
theorem SelfContained.append_inj {s s' r r' : List α} (hs : SelfContained kind s)
    (hs' : SelfContained kind s') (hr : Delimited kind r) (hr' : Delimited kind r')
    (h : s ++ r = s' ++ r') : s = s' ∧ r = r' := by
  -- if one text were longer, the scanner would stop inside it at the delimiter after the other
  have hlonger : ∀ {s t r : List α}, SelfContained kind s → SelfContained kind (s ++ t) →
      Delimited kind (t ++ r) → t = [] := by
    intro s t r hs hst hr
    cases t with
    | nil => rfl
    | cons c t =>
      have := hst 0
      rw [scan_append, hs 0, Option.bind_some, scan_delimited t (hr c rfl)] at this
      cases this
  rcases List.append_eq_append_iff.mp h with ⟨t, rfl, rfl⟩ | ⟨t, rfl, rfl⟩
  · obtain rfl := hlonger hs hs' hr
    simp
  · obtain rfl := hlonger hs' hs hr'
    simp

theorem SelfContained.not_delimiter {c : α} (h : SelfContained kind (c :: text)) :
    ¬(kind c = .separator ∨ kind c = .closing) := by
  intro hc
  have := h 0
  rw [scan_delimited text hc] at this
  cases this

/-- What follows a part: the bracket `c`, or the separator `s` and the parts to come. -/
def afterPart (c s : α) : List (List α) → List α
  | [] => [c]
  | part :: rest => s :: (part ++ afterPart c s rest)

theorem separated_cons (c s : α) (part : List α) (rest : List (List α)) :
    ((part :: rest).intersperse [s]).flatten ++ [c] = part ++ afterPart c s rest := by
  induction rest generalizing part with
  | nil => simp [afterPart]
  | cons next rest ih => simp [afterPart, ← ih next]

theorem delimited_afterPart {c s : α} (hc : kind c = .closing) (hs : kind s = .separator)
    (rest : List (List α)) : Delimited kind (afterPart c s rest) := by
  intro d hd
  cases rest with
  | nil =>
    cases hd
    exact .inr hc
  | cons part rest =>
    cases hd
    exact .inl hs

theorem afterPart_inj {c s : α} {parts parts' : List (List α)} (hc : kind c = .closing)
    (hs : kind s = .separator) (h : ∀ part ∈ parts, SelfContained kind part)
    (h' : ∀ part ∈ parts', SelfContained kind part)
    (heq : afterPart c s parts = afterPart c s parts') : parts = parts' := by
  have hne : s ≠ c := by
    rintro rfl
    simp [hc] at hs
  induction parts generalizing parts' with
  | nil =>
    cases parts' with
    | nil => rfl
    | cons part' rest' => exact absurd (List.cons.inj heq).1.symm hne
  | cons part rest ih =>
    cases parts' with
    | nil => exact absurd (List.cons.inj heq).1 hne
    | cons part' rest' =>
      obtain ⟨rfl, hrest⟩ := (h part List.mem_cons_self).append_inj (h' part' List.mem_cons_self)
        (delimited_afterPart hc hs rest) (delimited_afterPart hc hs rest') (List.cons.inj heq).2
      rw [ih (fun part hp => h part (List.mem_cons_of_mem _ hp))
        (fun part hp => h' part (List.mem_cons_of_mem _ hp)) hrest]

/-- Separated parts that a closing bracket ends can be told apart. -/
theorem separated_inj {c s : α} {parts parts' : List (List α)} (hc : kind c = .closing)
    (hs : kind s = .separator) (h : ∀ part ∈ parts, part ≠ [] ∧ SelfContained kind part)
    (h' : ∀ part ∈ parts', part ≠ [] ∧ SelfContained kind part)
    (heq : (parts.intersperse [s]).flatten ++ [c] = (parts'.intersperse [s]).flatten ++ [c]) :
    parts = parts' := by
  -- a first part is not empty and does not begin with the bracket
  have hempty : ∀ (part : List α) rest, part ≠ [] ∧ SelfContained kind part →
      [c] ≠ ((part :: rest).intersperse [s]).flatten ++ [c] := by
    intro part rest hpart hclose
    rw [separated_cons] at hclose
    cases part with
    | nil => exact hpart.1 rfl
    | cons d part =>
      obtain rfl : c = d := (List.cons.inj hclose).1
      exact hpart.2.not_delimiter (.inr hc)
  cases parts with
  | nil =>
    cases parts' with
    | nil => rfl
    | cons part rest => exact absurd heq (hempty part rest (h' part List.mem_cons_self))
  | cons part rest =>
    cases parts' with
    | nil => exact absurd heq.symm (hempty part rest (h part List.mem_cons_self))
    | cons part' rest' =>
      rw [separated_cons, separated_cons] at heq
      obtain ⟨rfl, hrest⟩ := (h part List.mem_cons_self).2.append_inj
        (h' part' List.mem_cons_self).2 (delimited_afterPart hc hs rest)
        (delimited_afterPart hc hs rest') heq
      rw [afterPart_inj hc hs (fun part hp => (h part (List.mem_cons_of_mem _ hp)).2)
        (fun part hp => (h' part (List.mem_cons_of_mem _ hp)).2) hrest]

end

end Vigil.Lib.Bracketed
