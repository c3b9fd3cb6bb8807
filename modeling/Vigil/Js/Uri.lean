import Vigil.Js.Utf8
import Vigil.Ledger.JsonText

/-! `encodeURIComponent` and `decodeURIComponent`. -/

namespace Vigil.Js.Uri

open Text Utf8
open Ledger.JsonText (hexDigitValue)

/-- The units that stand for themselves: letters, digits and `-_.!~*'()`. -/
def isUnreserved (c : UInt16) : Bool :=
  (0x41 ≤ c && c ≤ 0x5A) || (0x61 ≤ c && c ≤ 0x7A) || (0x30 ≤ c && c ≤ 0x39) ||
    (js "-_.!~*'()").contains c

def upperHexDigit (n : ℕ) : UInt16 := (if n < 10 then 0x30 + n else 0x41 + (n - 10)).toUInt16

def percentByte (byte : UInt8) : JsString :=
  [0x25, upperHexDigit (byte.toNat / 16), upperHexDigit (byte.toNat % 16)]

def percentEncode (s : JsString) : JsString := (utf8 s).flatMap percentByte

/-- `encodeURIComponent(s)`; `none` stands for the error that a surrogate alone raises. -/
def encodeURIComponent : JsString → Option JsString
  | [] => some []
  | [c] =>
    if isUnreserved c then some [c]
    else if isSurrogate c then none
    else some (percentEncode [c])
  | c :: d :: rest =>
    if isHighSurrogate c && isLowSurrogate d then
      (encodeURIComponent rest).map (percentEncode [c, d] ++ ·)
    else if isUnreserved c then (encodeURIComponent (d :: rest)).map (c :: ·)
    else if isSurrogate c then none
    else (encodeURIComponent (d :: rest)).map (percentEncode [c] ++ ·)

example : encodeURIComponent (js "p@ss é😀") = some (js "p%40ss%20%C3%A9%F0%9F%98%80") := by
  decide +kernel

/-- The bytes that `%` and two digits each write at the beginning of a text, and what follows. -/
def percentRun : JsString → Option (List UInt8 × JsString)
  | [] => some ([], [])
  | c :: rest =>
    if c = 0x25 then
      match rest with
      | high :: low :: rest =>
        (hexDigitValue high).bind fun high => (hexDigitValue low).bind fun low =>
          (percentRun rest).map fun (bytes, after) => ((16 * high + low).toUInt8 :: bytes, after)
      | _ => none
    else some ([], c :: rest)

/-- The text of some bytes, if they are UTF-8. -/
def strictUtf8 (bytes : List UInt8) : Option JsString :=
  if utf8 (decodeUtf8 bytes) = bytes then some (decodeUtf8 bytes) else none

/-- As many steps as there are units are enough. -/
def decodeFrom : ℕ → JsString → Option JsString
  | 0, _ | _ + 1, [] => some []
  | fuel + 1, c :: rest =>
    if c = 0x25 then
      (percentRun (c :: rest)).bind fun (bytes, after) => (strictUtf8 bytes).bind fun text =>
        (decodeFrom fuel after).map (text ++ ·)
    else (decodeFrom fuel rest).map (c :: ·)

/-- `decodeURIComponent(s)`; `none` stands for the error that it throws. -/
def decodeURIComponent (s : JsString) : Option JsString := decodeFrom s.length s

example : decodeURIComponent (js "p%40ss%20%C3%A9") = some (js "p@ss é") ∧
    decodeURIComponent (js "50%") = none ∧ decodeURIComponent (js "%C3") = none := by
  decide +kernel

end Vigil.Js.Uri
