import Vigil.Js.Text

/-! `buffer.toString("utf8")`: the bytes that make a character become it, and where none stands, the
longest start of one, or else a single byte, becomes U+FFFD. -/

namespace Vigil.Js.Utf8

open Text

def isContinuation (byte : UInt8) : Bool := 0x80 ≤ byte && byte ≤ 0xBF

/-- Whether a byte can come second in a character of three or four bytes that begins with `lead`. -/
def isSecond (lead byte : UInt8) : Bool :=
  if lead = 0xE0 then 0xA0 ≤ byte && byte ≤ 0xBF
  else if lead = 0xED then 0x80 ≤ byte && byte ≤ 0x9F
  else if lead = 0xF0 then 0x90 ≤ byte && byte ≤ 0xBF
  else if lead = 0xF4 then 0x80 ≤ byte && byte ≤ 0x8F
  else isContinuation byte

/-- How many bytes one U+FFFD stands for where no character stands. -/
def invalidLength : List UInt8 → ℕ
  | lead :: second :: rest =>
    if 0xE0 ≤ lead && lead ≤ 0xF4 && isSecond lead second then
      match rest with
      | third :: _ => if 0xF0 ≤ lead && isContinuation third then 3 else 2
      | [] => 2
    else 1
  | _ => 1

/-- The characters of some bytes; as many steps as there are bytes are enough. -/
def decodeChars : ℕ → List UInt8 → List Char
  | 0, _ => []
  | _, [] => []
  | fuel + 1, byte :: rest =>
    match (byte :: rest).toByteArray.utf8DecodeChar? 0 with
    | some c => c :: decodeChars fuel ((byte :: rest).drop c.utf8Size)
    | none => '\uFFFD' :: decodeChars fuel ((byte :: rest).drop (invalidLength (byte :: rest)))

/-- `buffer.toString("utf8")` -/
def decodeUtf8 (bytes : List UInt8) : JsString := encodeUtf16 (decodeChars bytes.length bytes)

theorem decodeChars_cons (fuel : ℕ) (c : Char) (rest : List UInt8) :
    decodeChars (fuel + 1) (String.utf8EncodeChar c ++ rest) = c :: decodeChars fuel rest := by
  have hfound : (String.utf8EncodeChar c ++ rest).toByteArray.utf8DecodeChar? 0 = some c := by
    rw [List.toByteArray_append]
    exact ByteArray.utf8DecodeChar?_utf8EncodeChar_append
  have hdrop : (String.utf8EncodeChar c ++ rest).drop c.utf8Size = rest :=
    List.drop_left' (String.length_utf8EncodeChar c)
  cases hbytes : String.utf8EncodeChar c ++ rest with
  | nil =>
    have hnil := congrArg List.length (List.append_eq_nil_iff.mp hbytes).1
    rw [String.length_utf8EncodeChar] at hnil
    exact absurd hnil c.utf8Size_pos.ne'
  | cons byte bytes =>
    rw [hbytes] at hfound hdrop
    simp only [decodeChars, hfound, hdrop]

theorem decodeChars_encoded (cs : List Char) :
    ∀ fuel, cs.length ≤ fuel → decodeChars fuel (cs.flatMap String.utf8EncodeChar) = cs := by
  induction cs with
  | nil =>
    intro fuel _
    cases fuel <;> rfl
  | cons c cs ih =>
    intro fuel hfuel
    obtain ⟨fuel, rfl⟩ := Nat.exists_eq_succ_of_ne_zero
      (Nat.ne_of_gt (Nat.lt_of_lt_of_le (Nat.succ_pos _) hfuel))
    rw [List.flatMap_cons, decodeChars_cons, ih fuel (Nat.le_of_succ_le_succ hfuel)]

theorem length_le_length_utf8 (cs : List Char) :
    cs.length ≤ (cs.flatMap String.utf8EncodeChar).length := by
  induction cs with
  | nil => exact Nat.le_refl _
  | cons c cs ih =>
    have hsize := c.utf8Size_pos
    rw [List.flatMap_cons, List.length_append, String.length_utf8EncodeChar, List.length_cons]
    omega

/-- A string of which no surrogate stands alone is read back from its bytes. -/
theorem decodeUtf8_utf8 {s : JsString} (h : WellFormed s) : decodeUtf8 (utf8 s) = s := by
  obtain ⟨cs, rfl⟩ := h
  rw [decodeUtf8, utf8, codePoints_encodeUtf16, decodeChars_encoded cs _ (length_le_length_utf8 cs)]

theorem decodeUtf8_ne_nil {bytes : List UInt8} (h : bytes ≠ []) : decodeUtf8 bytes ≠ [] := by
  have hunits (c : Char) : encodeUnits c ≠ [] := by
    unfold encodeUnits
    split
    · exact List.cons_ne_nil _ _
    · exact List.cons_ne_nil _ _
  cases bytes with
  | nil => exact absurd rfl h
  | cons byte rest =>
    rw [decodeUtf8, List.length_cons, decodeChars]
    split
    · exact fun hnil => hunits _ (List.append_eq_nil_iff.mp hnil).1
    · exact fun hnil => hunits _ (List.append_eq_nil_iff.mp hnil).1

end Vigil.Js.Utf8
