import Vigil.Incidents.Correlate
import Mathlib.Algebra.Order.Field.Basic
import Mathlib.Data.List.Dedup
import Mathlib.Tactic.Linarith

/-! `meaningfulChanges` of `incidents/evidence/diff.ts`: what is different between the facts of the
last check that reached the target and those of the one that did not.  Numbers are compared as the
exact numbers that they are; on whole milliseconds the code's doubles agree with that. -/

namespace Vigil.Incidents.Diff

open Js.Text Js.Object Ledger.Canonical Evidence

/-- What the catalogue says about a fact. -/
structure FactDescriptor where
  key : JsString
  label : JsString
  unit : Option JsString

def slowerRatio : ℚ := 2

def fasterRatio : ℚ := 1 / 2

def MIN_DURATION_DELTA_MS : ℚ := 50

def MAX_CHANGES : ℕ := 12

/-- The number that is written; `none` for one that is not finite. -/
def toRat : JsNumber → Option ℚ
  | .integer n => some n
  | .decimal negative s n =>
    let magnitude : ℚ := s * 10 ^ (n - (Nat.toDigits 10 s).length)
    some (if negative then -magnitude else magnitude)
  | .notFinite => none

def isLower (c : UInt16) : Bool := 0x61 ≤ c && c ≤ 0x7A

/-- `key.toLowerCase()` on letters of ASCII, which is all that the comparison can see. -/
def fold (c : UInt16) : UInt16 := if 0x41 ≤ c && c ≤ 0x5A then c + 0x20 else c

/-- `/(^|[a-z])Ms$/` -/
def endsWithMs (key : JsString) : Bool :=
  match key.reverse with
  | 0x73 :: 0x4D :: before => before.head?.all isLower
  | _ => false

def isDuration (key : JsString) (descriptor : Option FactDescriptor) : Bool :=
  (descriptor.bind (·.unit)) = some (js "ms") || endsWithMs key ||
    (js "timems").isSuffixOf (key.map fold)

/-- `a === b`; two objects that were read apart are never the same one. -/
def sameEntry : JsValue → JsValue → Bool
  | .null, .null => true
  | .bool a, .bool b => a = b
  | .number .notFinite, .number .notFinite => false
  | .number a, .number b => a = b
  | .string a, .string b => a = b
  | _, _ => false

def sameEntries : List JsValue → List JsValue → Bool
  | [], [] => true
  | a :: as, b :: bs => sameEntry a b && sameEntries as bs
  | _, _ => false

def itemsOf : JsValue → Option (List JsValue)
  | .array items => some items
  | _ => none

def equalValues (a b : JsValue) : Bool :=
  match itemsOf a, itemsOf b with
  | some as, some bs => sameEntries as bs
  | none, none => sameEntry a b
  | _, _ => false

def sign (x : ℚ) : ℤ := if 0 < x then 1 else if x < 0 then -1 else 0

/-- Whether a duration moved enough to mention, and in which direction. -/
def durationNote (before after : ℚ) : Option ChangeNote :=
  let delta := after - before
  if |delta| < MIN_DURATION_DELTA_MS then none
  else if before < 0 ∨ after < 0 then
    -- An offset has a sign, and its magnitude is what is compared.
    if sign before ≠ sign after ∨ |before| * slowerRatio ≤ |after| ∨
        |after| ≤ |before| * fasterRatio then
      some .changed
    else none
  else if before = 0 then if 0 < delta then some .slower else none
  else if slowerRatio ≤ after / before then some .slower
  else if after / before ≤ fasterRatio then some .faster
  else none

/-- The note on two facts that are durations; nothing can be said of what is not finite. -/
def durationChange (before after : JsNumber) : Option ChangeNote :=
  (toRat before).bind fun before => (toRat after).bind fun after => durationNote before after

/-- The fact of a key, unless it is `undefined`. -/
def factOf (facts : EvidenceFacts) (key : JsString) : Option JsValue :=
  match facts.lookup key with
  | none | some .undefined => none
  | some value => some value

/-- `byKey.get(key)`, where a key that is declared again has its last descriptor. -/
def descriptorOf (descriptors : List FactDescriptor) (key : JsString) : Option FactDescriptor :=
  descriptors.reverse.find? (·.key = key)

section

variable (before after : EvidenceFacts) (descriptors : List FactDescriptor)

/-- The row for a key, if there is one. -/
def changeOf (key : JsString) : Option EvidenceChange :=
  let descriptor := descriptorOf descriptors key
  let row (from_ to_ : JsValue) (note : ChangeNote) : Option EvidenceChange := some {
    key := key
    label := (descriptor.map (·.label)).getD key
    unit := (descriptor.bind (·.unit)).filter (· ≠ [])
    before := from_
    after := to_
    note := note }
  match factOf before key, factOf after key with
  | none, none => none
  | none, some to_ => row .null to_ .appeared
  | some from_, none => row from_ .null .disappeared
  | some from_, some to_ =>
    if equalValues from_ to_ then none
    else
      match from_, to_ with
      | .number a, .number b =>
        if isDuration key descriptor then (durationChange a b).bind (row from_ to_)
        else row from_ to_ .changed
      | _, _ => row from_ to_ .changed

/-- The declared keys in their order, and then the others. -/
def changeKeys : List JsString :=
  let declared := descriptors.map (·.key)
  let extra := ((keys before ++ keys after).dedup.filter fun key =>
    !declared.contains key).insertionSort (· ≤ ·)
  declared ++ extra

/-- The loop over the keys, with room for so many more rows. -/
def collect : ℕ → List JsString → List EvidenceChange
  | 0, _ | _ + 1, [] => []
  | room + 1, key :: rest =>
    match changeOf before after descriptors key with
    | none => collect (room + 1) rest
    | some change => change :: collect room rest

end

def meaningfulChanges (before : Option EvidenceFacts) (after : EvidenceFacts)
    (descriptors : List FactDescriptor) : List EvidenceChange :=
  match before with
  | none => []
  | some before =>
    collect before after descriptors MAX_CHANGES (changeKeys before after descriptors)

variable {before after : EvidenceFacts} {descriptors : List FactDescriptor}

theorem factOf_eq_some {facts : EvidenceFacts} {key : JsString} {value : JsValue}
    (h : factOf facts key = some value) : facts.lookup key = some value := by
  unfold factOf at h
  split at h
  · cases h
  · cases h
  · rename_i found hfound
    rw [hfound, h]

variable {change : EvidenceChange}

/-- What a row says of a key is what the two bags have for it. -/
theorem changeOf_eq_some {key : JsString}
    (h : changeOf before after descriptors key = some change) :
    change.key = key ∧ (factOf before key ≠ none ∨ factOf after key ≠ none) ∧
      change.before = (factOf before key).getD .null ∧
      change.after = (factOf after key).getD .null := by
  unfold changeOf at h
  cases hbefore : factOf before key with
  | none =>
    cases hafter : factOf after key with
    | none => simp [hbefore, hafter] at h
    | some to_ =>
      simp only [hbefore, hafter, Option.some.injEq] at h
      subst h
      exact ⟨rfl, .inr (Option.some_ne_none _), rfl, rfl⟩
  | some from_ =>
    refine ⟨?_, .inl (Option.some_ne_none _), ?_⟩
    all_goals
      cases hafter : factOf after key with
      | none =>
        simp only [hbefore, hafter, Option.some.injEq] at h
        subst h
        simp
      | some to_ =>
        simp only [hbefore, hafter] at h
        split at h
        · cases h
        split at h
        · split at h
          · obtain ⟨note, -, hrow⟩ := Option.bind_eq_some_iff.mp h
            cases hrow
            simp
          · cases h
            simp
        · cases h
          simp

theorem mem_collect {room : ℕ} {keys : List JsString}
    (h : change ∈ collect before after descriptors room keys) :
    ∃ key ∈ keys, changeOf before after descriptors key = some change := by
  induction keys generalizing room with
  | nil => cases room <;> simp [collect] at h
  | cons key rest ih =>
    cases room with
    | zero => simp [collect] at h
    | succ room =>
      rw [collect] at h
      split at h
      · obtain ⟨other, hmem, hother⟩ := ih h
        exact ⟨other, List.mem_cons_of_mem _ hmem, hother⟩
      · rename_i first hfirst
        rcases List.mem_cons.mp h with rfl | hrest
        · exact ⟨key, List.mem_cons_self, hfirst⟩
        · obtain ⟨other, hmem, hother⟩ := ih hrest
          exact ⟨other, List.mem_cons_of_mem _ hmem, hother⟩

theorem mem_meaningfulChanges {before : Option EvidenceFacts}
    (h : change ∈ meaningfulChanges before after descriptors) :
    ∃ facts ∈ before, changeOf facts after descriptors change.key = some change := by
  cases before with
  | none => cases h
  | some facts =>
    obtain ⟨key, -, hkey⟩ := mem_collect h
    exact ⟨facts, rfl, (changeOf_eq_some hkey).1 ▸ hkey⟩

/-! ### The other way round -/

def mirrorNote : ChangeNote → ChangeNote
  | .changed => .changed
  | .appeared => .disappeared
  | .disappeared => .appeared
  | .slower => .faster
  | .faster => .slower

/-- The row that the same two facts give when they are read the other way round. -/
def mirror (change : EvidenceChange) : EvidenceChange :=
  { change with
    before := change.after
    after := change.before
    note := mirrorNote change.note }

theorem sameEntry_comm (a b : JsValue) : sameEntry a b = sameEntry b a := by
  cases a <;> cases b <;> try rfl
  case number.number x y =>
    cases x <;> cases y <;> simp [sameEntry, eq_comm]
  all_goals simp [sameEntry, eq_comm]

theorem sameEntries_comm (as bs : List JsValue) : sameEntries as bs = sameEntries bs as := by
  induction as generalizing bs with
  | nil => cases bs <;> rfl
  | cons a as ih =>
    cases bs with
    | nil => rfl
    | cons b bs => rw [sameEntries, sameEntries, sameEntry_comm, ih]

theorem equalValues_comm (a b : JsValue) : equalValues a b = equalValues b a := by
  unfold equalValues
  cases itemsOf a with
  | none =>
    cases itemsOf b with
    | none => exact sameEntry_comm a b
    | some bs => rfl
  | some as =>
    cases itemsOf b with
    | none => rfl
    | some bs => exact sameEntries_comm as bs

theorem durationNote_of_positive {a b : ℚ} (ha : 0 < a) (hb : 0 < b) :
    (slowerRatio ≤ b / a ↔ a / b ≤ fasterRatio) ∧ (b / a ≤ fasterRatio ↔ slowerRatio ≤ a / b) := by
  unfold slowerRatio fasterRatio
  rw [le_div_iff₀ ha, div_le_iff₀ hb, div_le_iff₀ ha, le_div_iff₀ hb]
  constructor
  · constructor <;> intro h <;> linarith
  · constructor <;> intro h <;> linarith

theorem durationNote_swap (a b : ℚ) : durationNote b a = (durationNote a b).map mirrorNote := by
  unfold durationNote
  simp only [abs_sub_comm a b]
  split
  · rfl
  rename_i hmoved
  by_cases hsigned : a < 0 ∨ b < 0
  · rw [if_pos hsigned.symm, if_pos hsigned]
    have hsame : (sign b ≠ sign a ∨ |b| * slowerRatio ≤ |a| ∨ |a| ≤ |b| * fasterRatio) ↔
        (sign a ≠ sign b ∨ |a| * slowerRatio ≤ |b| ∨ |b| ≤ |a| * fasterRatio) := by
      unfold slowerRatio fasterRatio
      rw [ne_comm, or_comm (a := |b| * 2 ≤ |a|)]
      refine or_congr_right (or_congr ?_ ?_)
      · constructor <;> intro h <;> linarith
      · constructor <;> intro h <;> linarith
    by_cases hchanged : sign a ≠ sign b ∨ |a| * slowerRatio ≤ |b| ∨ |b| ≤ |a| * fasterRatio
    · rw [if_pos (hsame.mpr hchanged), if_pos hchanged]
      rfl
    · rw [if_neg (mt hsame.mp hchanged), if_neg hchanged]
      rfl
  rw [if_neg (mt Or.symm hsigned), if_neg hsigned]
  have ha : 0 ≤ a := not_lt.mp fun h => hsigned (.inl h)
  have hb : 0 ≤ b := not_lt.mp fun h => hsigned (.inr h)
  rcases ha.eq_or_lt with rfl | ha
  · rcases hb.eq_or_lt with rfl | hb
    · exact absurd (by norm_num [MIN_DURATION_DELTA_MS]) hmoved
    · have hslower : ¬slowerRatio ≤ 0 / b := by norm_num [slowerRatio]
      have hfaster : (0 : ℚ) / b ≤ fasterRatio := by norm_num [fasterRatio]
      rw [if_neg hb.ne', if_neg hslower, if_pos hfaster, if_pos rfl, sub_zero, if_pos hb]
      rfl
  rcases hb.eq_or_lt with rfl | hb
  · have hslower : ¬slowerRatio ≤ 0 / a := by norm_num [slowerRatio]
    have hfaster : (0 : ℚ) / a ≤ fasterRatio := by norm_num [fasterRatio]
    rw [if_neg ha.ne', if_neg hslower, if_pos hfaster, if_pos rfl, sub_zero, if_pos ha]
    rfl
  obtain ⟨hslower, hfaster⟩ := durationNote_of_positive ha hb
  have hnotboth : slowerRatio ≤ b / a → ¬b / a ≤ fasterRatio := by
    unfold slowerRatio fasterRatio
    intro h h'
    linarith
  rw [if_neg ha.ne', if_neg hb.ne']
  by_cases hs : slowerRatio ≤ b / a
  · rw [if_pos hs, if_neg (mt hfaster.mpr (hnotboth hs)), if_pos (hslower.mp hs)]
    rfl
  · rw [if_neg hs]
    by_cases hf : b / a ≤ fasterRatio
    · rw [if_pos hf, if_pos (hfaster.mp hf)]
      rfl
    · rw [if_neg hf, if_neg (mt hfaster.mpr hf), if_neg (mt hslower.mpr hs)]
      rfl

theorem durationChange_swap (x y : JsNumber) :
    durationChange y x = (durationChange x y).map mirrorNote := by
  unfold durationChange
  cases toRat x with
  | none => cases toRat y <;> rfl
  | some x =>
    cases toRat y with
    | none => rfl
    | some y => exact durationNote_swap x y

theorem changeOf_swap (before after : EvidenceFacts) (descriptors : List FactDescriptor)
    (key : JsString) :
    changeOf after before descriptors key = (changeOf before after descriptors key).map mirror := by
  unfold changeOf
  cases hbefore : factOf before key with
  | none => cases factOf after key <;> rfl
  | some a =>
    cases hafter : factOf after key with
    | none => rfl
    | some b =>
      simp only [equalValues_comm b a]
      split
      · rfl
      cases a with
      | number x =>
        cases b with
        | number y =>
          dsimp only
          split
          · rw [durationChange_swap]
            cases durationChange x y <;> rfl
          · rfl
        | _ => rfl
      | _ => cases b <;> rfl

theorem collect_swap (before after : EvidenceFacts) (descriptors : List FactDescriptor) (room : ℕ)
    (keys : List JsString) :
    collect after before descriptors room keys =
      (collect before after descriptors room keys).map mirror := by
  induction keys generalizing room with
  | nil => cases room <;> simp [collect]
  | cons key rest ih =>
    cases room with
    | zero => simp [collect]
    | succ room =>
      rw [collect, collect, changeOf_swap]
      cases changeOf before after descriptors key with
      | none => exact ih (room + 1)
      | some change => exact congrArg (mirror change :: ·) (ih room)

theorem changeKeys_swap (before after : EvidenceFacts) (descriptors : List FactDescriptor) :
    changeKeys after before descriptors = changeKeys before after descriptors := by
  have hkeys : (keys after ++ keys before).dedup.Perm (keys before ++ keys after).dedup :=
    List.perm_append_comm.dedup
  let _ := Correlate.stringOrder
  have hranks : Lib.Ranking.Ranks id fun a b : JsString => a ≤ b := fun _ _ => Iff.rfl
  unfold changeKeys
  exact congrArg _ (Lib.Ranking.sort_eq_of_perm hranks (hkeys.filter _) fun _ _ _ _ h => h)

/-- Reading two checks the other way round gives the same rows, with their facts exchanged and
their direction reversed. -/
theorem meaningfulChanges_swap (before after : EvidenceFacts) (descriptors : List FactDescriptor) :
    meaningfulChanges (some after) before descriptors =
      (meaningfulChanges (some before) after descriptors).map mirror := by
  unfold meaningfulChanges
  dsimp only
  rw [changeKeys_swap, collect_swap]

end Vigil.Incidents.Diff
