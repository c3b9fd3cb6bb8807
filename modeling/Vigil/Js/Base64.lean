import Vigil.Js.Text

/-! `buffer.toString("base64")`, and what reads such a text back. -/

namespace Vigil.Js.Base64

open Text

def pad : UInt16 := 0x3D

/-- The unit of the alphabet for six bits. -/
def symbol (n : ℕ) : UInt16 :=
  if n < 26 then (0x41 + n).toUInt16
  else if n < 52 then (0x61 + (n - 26)).toUInt16
  else if n < 62 then (0x30 + (n - 52)).toUInt16
  else if n = 62 then 0x2B
  else 0x2F

/-- `buffer.toString("base64")` -/
def base64 : List UInt8 → JsString
  | [] => []
  | [a] => [symbol (a.toNat / 4), symbol (a.toNat % 4 * 16), pad, pad]
  | [a, b] =>
    [symbol (a.toNat / 4), symbol (a.toNat % 4 * 16 + b.toNat / 16), symbol (b.toNat % 16 * 4), pad]
  | a :: b :: c :: rest =>
    symbol (a.toNat / 4) :: symbol (a.toNat % 4 * 16 + b.toNat / 16) ::
      symbol (b.toNat % 16 * 4 + c.toNat / 64) :: symbol (c.toNat % 64) :: base64 rest

/-- The six bits that a unit of the alphabet stands for. -/
def sextet (c : UInt16) : Option ℕ :=
  if 0x41 ≤ c ∧ c ≤ 0x5A then some (c.toNat - 0x41)
  else if 0x61 ≤ c ∧ c ≤ 0x7A then some (c.toNat - 0x61 + 26)
  else if 0x30 ≤ c ∧ c ≤ 0x39 then some (c.toNat - 0x30 + 52)
  else if c = 0x2B then some 62
  else if c = 0x2F then some 63
  else none

/-- The bytes that a text in groups of four units stands for. -/
def fromBase64 : JsString → Option (List UInt8)
  | [] => some []
  | w :: x :: y :: z :: rest =>
    if z = pad then
      if rest ≠ [] then none
      else if y = pad then do
        let w ← sextet w
        let x ← sextet x
        some [(w * 4 + x / 16).toUInt8]
      else do
        let w ← sextet w
        let x ← sextet x
        let y ← sextet y
        some [(w * 4 + x / 16).toUInt8, (x % 16 * 16 + y / 4).toUInt8]
    else do
      let w ← sextet w
      let x ← sextet x
      let y ← sextet y
      let z ← sextet z
      let bytes ← fromBase64 rest
      some ((w * 4 + x / 16).toUInt8 :: (x % 16 * 16 + y / 4).toUInt8 ::
        (y % 4 * 64 + z).toUInt8 :: bytes)
  | _ => none

/-- The units of the texts that are written: letters, digits, `+`, `/` and `=`. -/
def isBase64 (c : UInt16) : Bool :=
  (0x41 ≤ c && c ≤ 0x5A) || (0x61 ≤ c && c ≤ 0x7A) || (0x30 ≤ c && c ≤ 0x39) || c = 0x2B ||
    c = 0x2F || c = pad

theorem sextet_symbol : ∀ n < 64, sextet (symbol n) = some n := by
  decide

theorem symbol_ne_pad : ∀ n < 64, symbol n ≠ pad := by
  decide

theorem isBase64_symbol : ∀ n < 64, isBase64 (symbol n) = true := by
  decide

theorem toUInt8_of_eq {n : ℕ} {byte : UInt8} (h : n = byte.toNat) : n.toUInt8 = byte := by
  rw [h]
  exact UInt8.ofNat_toNat

theorem fromBase64_base64 (bytes : List UInt8) : fromBase64 (base64 bytes) = some bytes := by
  induction bytes using base64.induct with
  | case1 => rfl
  | case2 a =>
    have ha : a.toNat < 256 := a.toNat_lt
    rw [base64, fromBase64, if_pos rfl, if_neg (not_not.mpr rfl), if_pos rfl,
      sextet_symbol _ (by omega), sextet_symbol _ (by omega)]
    simp only [bind, Option.bind]
    rw [toUInt8_of_eq (by omega : a.toNat / 4 * 4 + a.toNat % 4 * 16 / 16 = a.toNat)]
  | case3 a b =>
    have ha : a.toNat < 256 := a.toNat_lt
    have hb : b.toNat < 256 := b.toNat_lt
    rw [base64, fromBase64, if_pos rfl, if_neg (not_not.mpr rfl), if_neg (symbol_ne_pad _ (by omega)),
      sextet_symbol _ (by omega), sextet_symbol _ (by omega), sextet_symbol _ (by omega)]
    simp only [bind, Option.bind]
    rw [toUInt8_of_eq (by omega : a.toNat / 4 * 4 + (a.toNat % 4 * 16 + b.toNat / 16) / 16 = a.toNat),
      toUInt8_of_eq (by omega : (a.toNat % 4 * 16 + b.toNat / 16) % 16 * 16 + b.toNat % 16 * 4 / 4 =
        b.toNat)]
  | case4 a b c rest ih =>
    have ha : a.toNat < 256 := a.toNat_lt
    have hb : b.toNat < 256 := b.toNat_lt
    have hc : c.toNat < 256 := c.toNat_lt
    rw [base64, fromBase64, if_neg (symbol_ne_pad _ (by omega)), sextet_symbol _ (by omega),
      sextet_symbol _ (by omega), sextet_symbol _ (by omega), sextet_symbol _ (by omega), ih]
    simp only [bind, Option.bind]
    rw [toUInt8_of_eq (by omega : a.toNat / 4 * 4 + (a.toNat % 4 * 16 + b.toNat / 16) / 16 = a.toNat),
      toUInt8_of_eq (by omega : (a.toNat % 4 * 16 + b.toNat / 16) % 16 * 16 +
        (b.toNat % 16 * 4 + c.toNat / 64) / 4 = b.toNat),
      toUInt8_of_eq (by omega : (b.toNat % 16 * 4 + c.toNat / 64) % 4 * 64 + c.toNat % 64 = c.toNat)]

theorem all_isBase64 (bytes : List UInt8) : (base64 bytes).all isBase64 = true := by
  induction bytes using base64.induct with
  | case1 => rfl
  | case2 a =>
    have ha : a.toNat < 256 := a.toNat_lt
    simp only [base64, List.all_cons, List.all_nil, isBase64_symbol (a.toNat / 4) (by omega),
      isBase64_symbol (a.toNat % 4 * 16) (by omega)]
    decide
  | case3 a b =>
    have ha : a.toNat < 256 := a.toNat_lt
    have hb : b.toNat < 256 := b.toNat_lt
    simp only [base64, List.all_cons, List.all_nil, isBase64_symbol (a.toNat / 4) (by omega),
      isBase64_symbol (a.toNat % 4 * 16 + b.toNat / 16) (by omega),
      isBase64_symbol (b.toNat % 16 * 4) (by omega)]
    decide
  | case4 a b c rest ih =>
    have ha : a.toNat < 256 := a.toNat_lt
    have hb : b.toNat < 256 := b.toNat_lt
    have hc : c.toNat < 256 := c.toNat_lt
    simp only [base64, List.all_cons, ih, isBase64_symbol (a.toNat / 4) (by omega),
      isBase64_symbol (a.toNat % 4 * 16 + b.toNat / 16) (by omega),
      isBase64_symbol (b.toNat % 16 * 4 + c.toNat / 64) (by omega),
      isBase64_symbol (c.toNat % 64) (by omega), Bool.and_self]

/-! ### A text that may be damaged -/

/-- The six bits of a unit of either alphabet. -/
def sextetOf (c : UInt16) : Option ℕ :=
  if c = 0x2D then some 62 else if c = 0x5F then some 63 else sextet c

/-- The bytes of a row of six bits each; what is left over at the end is dropped. -/
def bytesOfSextets : List ℕ → List UInt8
  | w :: x :: y :: z :: rest =>
    (w * 4 + x / 16).toUInt8 :: (x % 16 * 16 + y / 4).toUInt8 :: (y % 4 * 64 + z).toUInt8 ::
      bytesOfSextets rest
  | [w, x, y] => [(w * 4 + x / 16).toUInt8, (x % 16 * 16 + y / 4).toUInt8]
  | [w, x] => [(w * 4 + x / 16).toUInt8]
  | _ => []

/-- `Buffer.from(text, "base64")`: the padding ends the text, and what is of neither alphabet is
skipped. -/
def bufferFromBase64 (text : JsString) : List UInt8 :=
  bytesOfSextets ((text.takeWhile (· ≠ pad)).filterMap sextetOf)

theorem sextetOf_symbol : ∀ n < 64, sextetOf (symbol n) = some n := by
  decide

theorem sextets_symbol {n : ℕ} (h : n < 64) (rest : JsString) :
    ((symbol n :: rest).takeWhile (· ≠ pad)).filterMap sextetOf =
      n :: (rest.takeWhile (· ≠ pad)).filterMap sextetOf := by
  rw [List.takeWhile_cons_of_pos (by simp [symbol_ne_pad n h]),
    List.filterMap_cons_some (sextetOf_symbol n h)]

theorem sextets_pad (rest : JsString) :
    ((pad :: rest).takeWhile (· ≠ pad)).filterMap sextetOf = [] := by
  rw [List.takeWhile_cons_of_neg (by simp), List.filterMap_nil]

theorem bufferFromBase64_base64 (bytes : List UInt8) : bufferFromBase64 (base64 bytes) = bytes := by
  unfold bufferFromBase64
  induction bytes using base64.induct with
  | case1 => rfl
  | case2 a =>
    have ha : a.toNat < 256 := a.toNat_lt
    rw [base64, sextets_symbol (by omega), sextets_symbol (by omega), sextets_pad, bytesOfSextets,
      toUInt8_of_eq (by omega : a.toNat / 4 * 4 + a.toNat % 4 * 16 / 16 = a.toNat)]
  | case3 a b =>
    have ha : a.toNat < 256 := a.toNat_lt
    have hb : b.toNat < 256 := b.toNat_lt
    rw [base64, sextets_symbol (by omega), sextets_symbol (by omega), sextets_symbol (by omega),
      sextets_pad, bytesOfSextets,
      toUInt8_of_eq (by omega : a.toNat / 4 * 4 + (a.toNat % 4 * 16 + b.toNat / 16) / 16 = a.toNat),
      toUInt8_of_eq (by omega : (a.toNat % 4 * 16 + b.toNat / 16) % 16 * 16 + b.toNat % 16 * 4 / 4 =
        b.toNat)]
  | case4 a b c rest ih =>
    have ha : a.toNat < 256 := a.toNat_lt
    have hb : b.toNat < 256 := b.toNat_lt
    have hc : c.toNat < 256 := c.toNat_lt
    rw [base64, sextets_symbol (by omega), sextets_symbol (by omega), sextets_symbol (by omega),
      sextets_symbol (by omega), bytesOfSextets, ih,
      toUInt8_of_eq (by omega : a.toNat / 4 * 4 + (a.toNat % 4 * 16 + b.toNat / 16) / 16 = a.toNat),
      toUInt8_of_eq (by omega : (a.toNat % 4 * 16 + b.toNat / 16) % 16 * 16 +
        (b.toNat % 16 * 4 + c.toNat / 64) / 4 = b.toNat),
      toUInt8_of_eq (by omega : (b.toNat % 16 * 4 + c.toNat / 64) % 4 * 64 + c.toNat % 64 = c.toNat)]

end Vigil.Js.Base64
