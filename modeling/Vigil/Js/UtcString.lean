import Vigil.Js.Text

/-! `date.toUTCString()`, for a date at a number of milliseconds from the epoch. -/

namespace Vigil.Js.UtcString

open Text

structure CivilDate where
  year : ℤ
  month : ℕ
  day : ℕ

/-- The date of a day that is counted from the epoch.  The years are counted from the first of March,
in eras of four hundred, so that a leap day is the last of its year. -/
def civilDate (days : ℤ) : CivilDate :=
  let shifted := days + 719468
  let dayOfEra := (shifted % 146097).toNat
  let yearOfEra := (dayOfEra - dayOfEra / 1460 + dayOfEra / 36524 - dayOfEra / 146096) / 365
  let dayOfYear := dayOfEra - (365 * yearOfEra + yearOfEra / 4 - yearOfEra / 100)
  let fromMarch := (5 * dayOfYear + 2) / 153
  let month := if fromMarch < 10 then fromMarch + 3 else fromMarch - 9
  { year := yearOfEra + shifted / 146097 * 400 + if month ≤ 2 then 1 else 0
    month
    day := dayOfYear - (153 * fromMarch + 2) / 5 + 1 }

def dayNames : List String := ["Thu", "Fri", "Sat", "Sun", "Mon", "Tue", "Wed"]

def monthNames : List String :=
  ["Jan", "Feb", "Mar", "Apr", "May", "Jun", "Jul", "Aug", "Sep", "Oct", "Nov", "Dec"]

def name (names : List String) (i : ℕ) : List Char := (names.getD i "").toList

/-- The digits of a number, with zeros before them up to the width. -/
def padded (width n : ℕ) : List Char :=
  List.replicate (width - (Nat.toDigits 10 n).length) '0' ++ Nat.toDigits 10 n

def yearChars (year : ℤ) : List Char := (if year < 0 then ['-'] else []) ++ padded 4 year.natAbs

def utcChars (ms : ℤ) : List Char :=
  let days := ms / 86400000
  let second := (ms % 86400000).toNat / 1000
  let date := civilDate days
  name dayNames (days % 7).toNat ++ [',', ' '] ++ padded 2 date.day ++ [' '] ++
    name monthNames (date.month - 1) ++ [' '] ++ yearChars date.year ++ [' '] ++
    padded 2 (second / 3600) ++ [':'] ++ padded 2 (second / 60 % 60) ++ [':'] ++
    padded 2 (second % 60) ++ " GMT".toList

/-- `date.toUTCString()` -/
def toUTCString (ms : ℤ) : JsString := encodeUtf16 (utcChars ms)

/-- A character of printable ASCII. -/
def isPrintableChar (c : Char) : Bool := ' ' ≤ c && c ≤ '~'

theorem all_name {names : List String} (h : ∀ s ∈ names, s.toList.all isPrintableChar = true)
    (i : ℕ) : (name names i).all isPrintableChar = true := by
  unfold name
  rw [List.getD_eq_getElem?_getD]
  cases hget : names[i]? with
  | none => rfl
  | some s => exact h s (List.mem_of_getElem? hget)

theorem all_padded (width n : ℕ) : (padded width n).all isPrintableChar = true := by
  rw [List.all_eq_true]
  intro c hc
  rcases List.mem_append.mp hc with hc | hc
  · obtain rfl := List.eq_of_mem_replicate hc
    decide
  · have hdigit := isDigit_of_mem_toDigits hc
    simp only [Char.isDigit, Bool.and_eq_true, decide_eq_true_eq] at hdigit
    simp only [isPrintableChar, Bool.and_eq_true, decide_eq_true_eq]
    exact ⟨Char.le_def.mpr (UInt32.le_trans (by decide) hdigit.1),
      Char.le_def.mpr (UInt32.le_trans hdigit.2 (by decide))⟩

theorem all_utcChars (ms : ℤ) : (utcChars ms).all isPrintableChar = true := by
  have hday (i : ℕ) : (name dayNames i).all isPrintableChar = true := all_name (by decide) i
  have hmonth (i : ℕ) : (name monthNames i).all isPrintableChar = true := all_name (by decide) i
  have hyear (year : ℤ) : (yearChars year).all isPrintableChar = true := by
    unfold yearChars
    rw [List.all_append, all_padded, Bool.and_true]
    split <;> decide
  have hend : " GMT".toList.all isPrintableChar = true := by decide
  simp only [utcChars, List.all_append, hday, hmonth, hyear, hend, all_padded, Bool.true_and,
    Bool.and_true]
  decide

theorem toUTCString_printable (ms : ℤ) : ∀ c ∈ toUTCString ms, 0x20 ≤ c ∧ c ≤ 0x7E := by
  intro c hc
  obtain ⟨d, hd, hunits⟩ := List.mem_flatMap.mp hc
  have hprintable := List.all_eq_true.mp (all_utcChars ms) d hd
  simp only [isPrintableChar, Bool.and_eq_true, decide_eq_true_eq] at hprintable
  have hlow : 0x20 ≤ d.toNat := hprintable.1
  have hhigh : d.toNat ≤ 0x7E := hprintable.2
  rw [encodeUnits, if_pos (by omega), List.mem_singleton] at hunits
  have hvalue : c.toNat = d.toNat := by
    rw [hunits, Nat.toUInt16_eq, UInt16.toNat_ofNat', Nat.mod_eq_of_lt (by omega)]
  rw [UInt16.le_iff_toNat_le, UInt16.le_iff_toNat_le, hvalue]
  exact ⟨hlow, hhigh⟩

example : toUTCString 1785546000123 = js "Sat, 01 Aug 2026 01:00:00 GMT" := by decide +kernel

end Vigil.Js.UtcString
