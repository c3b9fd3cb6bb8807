import Vigil.Js.ByteLength

/-! The command of `monitors/types/probes/redis.ts`, and the grammar of RESP that a server reads it
by: an array of bulk strings, each of them bytes behind their number. -/

namespace Vigil.Wire.Redis

open Js.Text Js.ByteLength

/-! ### The command -/

def crlf : JsString := js "\r\n"

/-- One argument: its length in bytes, and the argument. -/
def bulk (arg : JsString) : JsString :=
  js "$" ++ (decimal (byteLength arg) ++ (crlf ++ (arg ++ crlf)))

def encodeCommand (args : List JsString) : List UInt8 :=
  utf8 (js "*" ++ (decimal args.length ++ (crlf ++ args.flatMap bulk)))

/-! ### The grammar -/

def isDigit (byte : UInt8) : Bool := 0x30 ≤ byte && byte ≤ 0x39

/-- The number that some digits write. -/
def digitsValue (digits : List UInt8) : ℕ :=
  digits.foldl (fun value byte => 10 * value + (byte.toNat - 0x30)) 0

def readCrlf : List UInt8 → Option (List UInt8)
  | 0x0D :: 0x0A :: rest => some rest
  | _ => none

/-- A line of a marker and a number. -/
def readHeader (marker : UInt8) : List UInt8 → Option (ℕ × List UInt8)
  | [] => none
  | byte :: rest => do
    guard (byte = marker)
    let digits := rest.takeWhile isDigit
    guard (digits ≠ [])
    return (digitsValue digits, ← readCrlf (rest.dropWhile isDigit))

/-- Bytes behind their number, and the end of a line behind them. -/
def readBulk (bytes : List UInt8) : Option (List UInt8 × List UInt8) := do
  let (length, rest) ← readHeader 0x24 bytes
  guard (length ≤ rest.length)
  return (rest.take length, ← readCrlf (rest.drop length))

def readBulks : ℕ → List UInt8 → Option (List (List UInt8) × List UInt8)
  | 0, bytes => some ([], bytes)
  | count + 1, bytes => do
    let (arg, rest) ← readBulk bytes
    let (args, rest) ← readBulks count rest
    return (arg :: args, rest)

/-- A command, which takes all of the bytes. -/
def readCommand (bytes : List UInt8) : Option (List (List UInt8)) := do
  let (count, rest) ← readHeader 0x2A bytes
  let (args, rest) ← readBulks count rest
  guard (rest = [])
  return args

/-! ### Reading back -/

/-- The digits of a number, as bytes. -/
def digitBytes (n : ℕ) : List UInt8 := (Nat.toDigits 10 n).map fun c => c.toNat.toUInt8

theorem isDigit_toUInt8 {c : Char} (h : c.isDigit = true) :
    isDigit c.toNat.toUInt8 = true ∧ c.toNat.toUInt8.toNat = c.toNat := by
  have hdigit : 0x30 ≤ c.toNat ∧ c.toNat ≤ 0x39 := by
    obtain ⟨hlow, hhigh⟩ := Bool.and_eq_true_iff.mp h
    exact ⟨UInt32.le_iff_toNat_le.mp (of_decide_eq_true hlow),
      UInt32.le_iff_toNat_le.mp (of_decide_eq_true hhigh)⟩
  have hbyte : c.toNat.toUInt8.toNat = c.toNat := Nat.mod_eq_of_lt (by omega)
  refine ⟨?_, hbyte⟩
  rw [isDigit, Bool.and_eq_true, decide_eq_true_eq, decide_eq_true_eq, UInt8.le_iff_toNat_le,
    UInt8.le_iff_toNat_le, hbyte]
  exact hdigit

theorem utf8EncodeChar_digit {c : Char} (h : c.isDigit = true) :
    String.utf8EncodeChar c = [c.toNat.toUInt8] := by
  have hle : c.val.toNat ≤ 0x7F := by
    have hhigh := UInt32.le_iff_toNat_le.mp (of_decide_eq_true (Bool.and_eq_true_iff.mp h).2)
    exact Nat.le_trans hhigh (by decide)
  rw [String.utf8EncodeChar, if_pos hle]
  rfl

theorem flatMap_utf8EncodeChar_digits {cs : List Char} (h : ∀ c ∈ cs, c.isDigit = true) :
    cs.flatMap String.utf8EncodeChar = cs.map fun c => c.toNat.toUInt8 := by
  induction cs with
  | nil => rfl
  | cons c cs ih =>
    rw [List.flatMap_cons, utf8EncodeChar_digit (h c List.mem_cons_self),
      ih fun d hd => h d (List.mem_cons_of_mem _ hd)]
    rfl

theorem utf8_decimal_append (n : ℕ) (rest : JsString) :
    utf8 (decimal n ++ rest) = digitBytes n ++ utf8 rest := by
  have hdecimal : decimal n = encodeUtf16 (Nat.toDigits 10 n) := rfl
  rw [hdecimal, utf8_encodeUtf16_append, flatMap_utf8EncodeChar_digits fun _ => isDigit_of_mem_toDigits]
  rfl

theorem isDigit_of_mem_digitBytes {n : ℕ} {byte : UInt8} (h : byte ∈ digitBytes n) :
    isDigit byte = true := by
  obtain ⟨c, hc, rfl⟩ := List.mem_map.mp h
  exact (isDigit_toUInt8 (isDigit_of_mem_toDigits hc)).1

theorem digitsValue_map {cs : List Char} (h : ∀ c ∈ cs, c.isDigit = true) (value : ℕ) :
    (cs.map fun c => c.toNat.toUInt8).foldl (fun value byte => 10 * value + (byte.toNat - 0x30)) value =
      Nat.ofDigitChars 10 cs value := by
  induction cs generalizing value with
  | nil => rfl
  | cons c cs ih =>
    rw [List.map_cons, List.foldl_cons, (isDigit_toUInt8 (h c List.mem_cons_self)).2,
      ih fun d hd => h d (List.mem_cons_of_mem _ hd)]
    rfl

theorem digitsValue_digitBytes (n : ℕ) : digitsValue (digitBytes n) = n := by
  rw [digitsValue, digitBytes, digitsValue_map fun _ => isDigit_of_mem_toDigits]
  simp

theorem digitBytes_ne_nil (n : ℕ) : digitBytes n ≠ [] := by
  intro h
  have hpos := Nat.length_toDigits_pos (b := 10) (n := n)
  rw [List.map_eq_nil_iff.mp h] at hpos
  exact Nat.lt_irrefl 0 hpos

theorem readHeader_digits (marker : UInt8) (n : ℕ) (rest : List UInt8) :
    readHeader marker (marker :: (digitBytes n ++ 0x0D :: 0x0A :: rest)) = some (n, rest) := by
  have htake : (digitBytes n ++ 0x0D :: 0x0A :: rest).takeWhile isDigit = digitBytes n := by
    rw [List.takeWhile_append_of_pos fun byte => isDigit_of_mem_digitBytes]
    exact List.append_nil _
  have hdrop : (digitBytes n ++ 0x0D :: 0x0A :: rest).dropWhile isDigit = 0x0D :: 0x0A :: rest :=
    List.dropWhile_append_of_pos fun byte => isDigit_of_mem_digitBytes
  simp [readHeader, htake, hdrop, digitBytes_ne_nil, digitsValue_digitBytes, readCrlf, guard]

/-- An argument is encoded by itself: the line ends around it belong to no pair of surrogates. -/
theorem utf8_bulk_append (arg rest : JsString) : utf8 (bulk arg ++ rest) =
    0x24 :: (digitBytes (byteLength arg) ++ 0x0D :: 0x0A :: (utf8 arg ++ 0x0D :: 0x0A :: utf8 rest)) := by
  have hmarker : ∀ t, utf8 (js "$" ++ t) = 0x24 :: utf8 t := utf8_encodeUtf16_append ['$']
  have hcrlf : ∀ t, utf8 (crlf ++ t) = 0x0D :: 0x0A :: utf8 t := utf8_encodeUtf16_append ['\r', '\n']
  have harg : utf8 (arg ++ (crlf ++ rest)) = utf8 arg ++ utf8 (crlf ++ rest) :=
    utf8_append arg (d := 0x0D) rfl (0x0A :: rest)
  rw [bulk]
  simp only [List.append_assoc]
  rw [hmarker, utf8_decimal_append, hcrlf, harg, hcrlf]

theorem readBulk_content (content rest : List UInt8) :
    readBulk (0x24 :: (digitBytes content.length ++ 0x0D :: 0x0A :: (content ++ 0x0D :: 0x0A :: rest))) =
      some (content, rest) := by
  simp [readBulk, readHeader_digits, readCrlf, guard]

theorem readBulks_bulk (args : List JsString) :
    readBulks args.length (utf8 (args.flatMap bulk)) = some (args.map utf8, []) := by
  induction args with
  | nil => rfl
  | cons arg args ih =>
    rw [List.flatMap_cons, utf8_bulk_append, List.length_cons, readBulks]
    have hread := readBulk_content (utf8 arg) (utf8 (args.flatMap bulk))
    rw [byteLength]
    simp [hread, ih]

/-- Whatever the arguments are made of, a server reads their bytes and nothing else. -/
theorem readCommand_encodeCommand (args : List JsString) :
    readCommand (encodeCommand args) = some (args.map utf8) := by
  have hmarker : ∀ t, utf8 (js "*" ++ t) = 0x2A :: utf8 t := utf8_encodeUtf16_append ['*']
  have hcrlf : ∀ t, utf8 (crlf ++ t) = 0x0D :: 0x0A :: utf8 t := utf8_encodeUtf16_append ['\r', '\n']
  rw [encodeCommand, hmarker, utf8_decimal_append, hcrlf, readCommand, readHeader_digits]
  simp [readBulks_bulk, guard]

end Vigil.Wire.Redis
