import Vigil.Ledger.Canonical

/-! The numbers of JSON text.  `readNumber` is what `JSON.parse` does with a number, except that it
does not round: a number that `JSON.stringify` writes has the fewest digits that tell it from the
other doubles, so that reading it back rounds nothing. -/

namespace Vigil.Ledger.JsonNumber

open Js.Text Canonical

/-! ### Reading a number -/

def isDigitUnit (c : UInt16) : Bool := 0x30 ≤ c && c ≤ 0x39

def unitChar (c : UInt16) : Char := Char.ofNat c.toNat

def digitsValue (digits : JsString) : ℕ := Nat.ofDigitChars 10 (digits.map unitChar) 0

/-- `d × 10 ^ e` with the last zeros of `d` moved to the exponent, `fuel` of them at most. -/
def trimZeros : ℕ → ℕ → ℕ → ℕ × ℕ
  | 0, d, e => (d, e)
  | fuel + 1, d, e => if d % 10 = 0 then trimZeros fuel (d / 10) (e + 1) else (d, e)

/-- The number `±d × 10 ^ e`, as `Number::toString` sees it. -/
def ofDecimal (negative : Bool) (d : ℕ) (e : ℤ) : JsNumber :=
  if d = 0 then .integer 0
  else
    let (s, zeros) := trimZeros (Nat.toDigits 10 d).length d 0
    let exponent := e + zeros
    let n := (Nat.toDigits 10 s).length + exponent
    if 0 ≤ exponent ∧ n ≤ 21 then
      let magnitude : ℤ := s * 10 ^ exponent.toNat
      .integer (if negative then -magnitude else magnitude)
    else .decimal negative s n

/-- The digits after a point, when there is one. -/
def readFraction (text : JsString) : Option (JsString × JsString) :=
  if text.head? = some 0x2E then
    let digits := text.tail.takeWhile isDigitUnit
    if digits = [] then none else some (digits, text.tail.dropWhile isDigitUnit)
  else some ([], text)

def readSign (text : JsString) : Bool × JsString :=
  if text.head? = some 0x2D then (true, text.tail)
  else if text.head? = some 0x2B then (false, text.tail)
  else (false, text)

/-- The exponent, when there is one. -/
def readExponent (text : JsString) : Option (ℤ × JsString) :=
  if text.head? = some 0x65 ∨ text.head? = some 0x45 then
    let (negative, rest) := readSign text.tail
    let digits := rest.takeWhile isDigitUnit
    let value : ℤ := digitsValue digits
    if digits = [] then none
    else some (if negative then -value else value, rest.dropWhile isDigitUnit)
  else some (0, text)

def readUnsigned (negative : Bool) (text : JsString) : Option (JsNumber × JsString) :=
  let whole := text.takeWhile isDigitUnit
  if whole = [] ∨ whole.length > 1 ∧ whole.head? = some 0x30 then none
  else
    (readFraction (text.dropWhile isDigitUnit)).bind fun (fraction, rest) =>
      (readExponent rest).map fun (exponent, rest) =>
        (ofDecimal negative (digitsValue (whole ++ fraction)) (exponent - fraction.length), rest)

def readNumber (text : JsString) : Option (JsNumber × JsString) :=
  if text.head? = some 0x2D then readUnsigned true text.tail else readUnsigned false text

/-- The number is the one that `Number::toString` sees: an integer below `10 ^ 21`, or a decimal
that is none and has no zero at its end. -/
def Standard : JsNumber → Prop
  | .integer n => n.natAbs < 10 ^ 21
  | .decimal _ s n => s % 10 ≠ 0 ∧ (n < (Nat.toDigits 10 s).length ∨ 21 < n)
  | .notFinite => True

/-! ### Digits -/

/-- The units of the decimal digits of `n`. -/
def digitUnits (n : ℕ) : JsString := encodeUtf16 (Nat.toDigits 10 n)

theorem encodeUnits_of_isDigit {c : Char} (h : c.isDigit = true) :
    ∃ u, encodeUnits c = [u] ∧ isDigitUnit u = true ∧ unitChar u = c := by
  have hlt : c.toNat < 128 := by
    simp only [Char.isDigit, Bool.and_eq_true, decide_eq_true_eq] at h
    exact lt_of_le_of_lt (UInt32.le_iff_toNat_le.mp h.2) (by decide)
  have hall : ∀ n < 128, (Char.ofNat n).isDigit = true →
      encodeUnits (Char.ofNat n) = [n.toUInt16] ∧ isDigitUnit n.toUInt16 = true ∧
        unitChar n.toUInt16 = Char.ofNat n := by
    decide +kernel
  have := hall c.toNat hlt
  rw [Char.ofNat_toNat] at this
  exact ⟨_, this h⟩

variable {cs digits : List Char} {rest : JsString}

theorem encodeUtf16_digits (h : ∀ c ∈ cs, c.isDigit = true) :
    (encodeUtf16 cs).map unitChar = cs ∧ (encodeUtf16 cs).length = cs.length ∧
      ∀ u ∈ encodeUtf16 cs, isDigitUnit u = true := by
  induction cs with
  | nil => simp [encodeUtf16]
  | cons c cs ih =>
    obtain ⟨u, hu, hdigit, hchar⟩ := encodeUnits_of_isDigit (h c (by simp))
    obtain ⟨hmap, hlength, hall⟩ := ih fun d hd => h d (by simp [hd])
    have hcons : encodeUtf16 (c :: cs) = u :: encodeUtf16 cs := by
      simp [encodeUtf16, hu]
    rw [hcons]
    exact ⟨by simp [hmap, hchar], by simp [hlength], List.forall_mem_cons.mpr ⟨hdigit, hall⟩⟩

theorem encodeUtf16_append (cs ds : List Char) :
    encodeUtf16 (cs ++ ds) = encodeUtf16 cs ++ encodeUtf16 ds := by
  simp [encodeUtf16]

theorem digitsValue_encodeUtf16 (h : ∀ c ∈ cs, c.isDigit = true) :
    digitsValue (encodeUtf16 cs) = Nat.ofDigitChars 10 cs 0 := by
  rw [digitsValue, (encodeUtf16_digits h).1]

variable (n : ℕ) (negative : Bool)

theorem digitsValue_digitUnits : digitsValue (digitUnits n) = n := by
  rw [digitUnits, digitsValue_encodeUtf16 fun _ => isDigit_of_mem_toDigits,
    Nat.ofDigitChars_ten_toDigits]

theorem head_toDigits {n : ℕ} (h : 0 < n) : (Nat.toDigits 10 n).head? ≠ some '0' := by
  induction n using Nat.strong_induction_on with
  | _ n ih =>
    by_cases hlt : n < 10
    · have hall : ∀ n < 10, 0 < n → n.digitChar ≠ '0' := by decide
      rw [Nat.toDigits_of_lt_base hlt]
      simpa using hall n hlt h
    · rw [Nat.toDigits_of_base_le (by decide) (not_lt.mp hlt), List.head?_append_of_ne_nil _
        Nat.toDigits_ne_nil]
      exact ih (n / 10) (by omega) (by omega)

/-! ### Reading what was written -/

/-- What follows a number: nothing that the number could go on with. -/
def NumberEnd (rest : JsString) : Prop :=
  ∀ c, rest.head? = some c → isDigitUnit c = false ∧ c ≠ 0x2E ∧ c ≠ 0x65 ∧ c ≠ 0x45

theorem NumberEnd.nil : NumberEnd [] := by
  simp [NumberEnd]

theorem takeWhile_digits {digits rest : JsString} (h : ∀ u ∈ digits, isDigitUnit u = true)
    (hrest : ∀ c, rest.head? = some c → isDigitUnit c = false) :
    (digits ++ rest).takeWhile isDigitUnit = digits ∧
      (digits ++ rest).dropWhile isDigitUnit = rest := by
  rw [List.takeWhile_append_of_pos h, List.dropWhile_append_of_pos h]
  cases rest with
  | nil => simp
  | cons c rest => simp [hrest c rfl]

def fractionUnits (digits : JsString) : JsString := if digits = [] then [] else 0x2E :: digits

/-- An exponent with its sign. -/
def exponentUnits (exponent : ℤ) : JsString :=
  0x65 :: (if exponent < 0 then 0x2D else 0x2B) :: digitUnits exponent.natAbs

theorem readFraction_fractionUnits {digits rest : JsString}
    (h : ∀ u ∈ digits, isDigitUnit u = true)
    (hrest : ∀ c, rest.head? = some c → isDigitUnit c = false ∧ c ≠ 0x2E) :
    readFraction (fractionUnits digits ++ rest) = some (digits, rest) := by
  unfold readFraction fractionUnits
  by_cases hnil : digits = []
  · subst hnil
    have hpoint : ¬rest.head? = some 0x2E := fun hhead => (hrest _ hhead).2 rfl
    simp [hpoint]
  · obtain ⟨htake, hdrop⟩ := takeWhile_digits h fun c hc => (hrest c hc).1
    simp [hnil, htake, hdrop]

theorem digitUnits_digits : ∀ u ∈ digitUnits n, isDigitUnit u = true :=
  (encodeUtf16_digits fun _ => isDigit_of_mem_toDigits).2.2

theorem digitUnits_ne_nil : digitUnits n ≠ [] := by
  intro h
  have hdigits : ∀ c ∈ Nat.toDigits 10 n, c.isDigit = true := fun _ => isDigit_of_mem_toDigits
  have hlength := (encodeUtf16_digits hdigits).2.1
  rw [← digitUnits, h] at hlength
  exact Nat.toDigits_ne_nil (List.length_eq_zero_iff.mp hlength.symm)

theorem readExponent_none (h : NumberEnd rest) : readExponent rest = some (0, rest) := by
  unfold readExponent
  refine if_neg ?_
  rintro (hhead | hhead)
  · exact (h _ hhead).2.2.1 rfl
  · exact (h _ hhead).2.2.2 rfl

theorem readExponent_exponentUnits (exponent : ℤ) (h : NumberEnd rest) :
    readExponent (exponentUnits exponent ++ rest) = some (exponent, rest) := by
  obtain ⟨htake, hdrop⟩ := takeWhile_digits (digitUnits_digits exponent.natAbs)
    fun c hc => (h c hc).1
  unfold readExponent exponentUnits
  by_cases hnegative : exponent < 0
  · simp [hnegative, readSign, htake, hdrop, digitUnits_ne_nil, digitsValue_digitUnits,
      abs_of_neg hnegative]
  · simp [hnegative, readSign, htake, hdrop, digitUnits_ne_nil, digitsValue_digitUnits,
      abs_of_nonneg (not_lt.mp hnegative)]

theorem head_encodeUtf16_digits (h : ∀ c ∈ cs, c.isDigit = true) (hhead : cs.head? ≠ some '0') :
    (encodeUtf16 cs).head? ≠ some 0x30 := by
  cases cs with
  | nil => simp [encodeUtf16]
  | cons c cs =>
    obtain ⟨u, hu, -, hchar⟩ := encodeUnits_of_isDigit (h c (by simp))
    rw [List.head?_cons, ne_eq, Option.some_inj] at hhead
    rw [encodeUtf16, List.flatMap_cons, hu, List.cons_append, List.head?_cons, ne_eq,
      Option.some_inj]
    rintro rfl
    exact hhead (hchar.symm.trans (by decide))

/-- A number is read by its digits before the point, its digits after it, and its exponent. -/
theorem readUnsigned_parts {whole fraction : List Char} {exponent : ℤ} {exponentText : JsString}
    (hwhole : ∀ c ∈ whole, c.isDigit = true) (hne : whole ≠ [])
    (hzero : 1 < whole.length → whole.head? ≠ some '0')
    (hfraction : ∀ c ∈ fraction, c.isDigit = true)
    (hexponent : readExponent (exponentText ++ rest) = some (exponent, rest))
    (hnext : ∀ c, (exponentText ++ rest).head? = some c → isDigitUnit c = false ∧ c ≠ 0x2E) :
    readUnsigned negative (encodeUtf16 whole ++
        (fractionUnits (encodeUtf16 fraction) ++ (exponentText ++ rest))) =
      some (ofDecimal negative (Nat.ofDigitChars 10 (whole ++ fraction) 0)
        (exponent - fraction.length), rest) := by
  obtain ⟨-, hlength, hunits⟩ := encodeUtf16_digits hwhole
  obtain ⟨-, hlength', hunits'⟩ := encodeUtf16_digits hfraction
  have hpoint : ∀ c, (fractionUnits (encodeUtf16 fraction) ++ (exponentText ++ rest)).head? = some c →
      isDigitUnit c = false := by
    intro c hc
    unfold fractionUnits at hc
    split at hc
    · exact (hnext c hc).1
    · obtain rfl : 0x2E = c := by simpa using hc
      rfl
  obtain ⟨htake, hdrop⟩ := takeWhile_digits hunits hpoint
  have hstart : ¬(encodeUtf16 whole = [] ∨
      (encodeUtf16 whole).length > 1 ∧ (encodeUtf16 whole).head? = some 0x30) := by
    rintro (h | ⟨hlong, hhead⟩)
    · rw [h] at hlength
      exact hne (List.length_eq_zero_iff.mp hlength.symm)
    · exact head_encodeUtf16_digits hwhole (hzero (by omega)) hhead
  have hvalue : digitsValue (encodeUtf16 whole ++ encodeUtf16 fraction) =
      Nat.ofDigitChars 10 (whole ++ fraction) 0 := by
    rw [← encodeUtf16_append]
    apply digitsValue_encodeUtf16
    intro c hc
    rcases List.mem_append.mp hc with hc | hc
    · exact hwhole c hc
    · exact hfraction c hc
  unfold readUnsigned
  simp only [htake, hdrop]
  rw [if_neg hstart, readFraction_fractionUnits hunits' hnext, Option.bind_some, hexponent,
    Option.map_some, hvalue, hlength']

/-! ### Numbers in standard form -/

theorem trimZeros_spec (fuel d e : ℕ) :
    (trimZeros fuel d e).1 * 10 ^ (trimZeros fuel d e).2 = d * 10 ^ e := by
  fun_induction trimZeros fuel d e with
  | case1 d e => rfl
  | case2 d e fuel hzero ih =>
    rw [ih, pow_succ, ← mul_assoc, mul_right_comm, Nat.div_mul_cancel (Nat.dvd_of_mod_eq_zero hzero)]
  | case3 d e fuel hzero => rfl

theorem trimZeros_of_ne {d : ℕ} (h : d % 10 ≠ 0) (fuel e : ℕ) : trimZeros fuel d e = (d, e) := by
  cases fuel with
  | zero => rfl
  | succ fuel => rw [trimZeros, if_neg h]

theorem length_toDigits_trimmed {s zeros d : ℕ} (h : s * 10 ^ zeros = d) (hpos : d ≠ 0)
    (hlt : d < 10 ^ 21) : (Nat.toDigits 10 s).length + zeros ≤ 21 := by
  have hs : 0 < s := by
    apply Nat.pos_of_ne_zero
    rintro rfl
    exact hpos (by rw [← h, Nat.zero_mul])
  have hzeros : zeros < 21 := by
    apply (Nat.pow_lt_pow_iff_right (show 1 < 10 by decide)).mp
    calc 10 ^ zeros ≤ s * 10 ^ zeros := Nat.le_mul_of_pos_left _ hs
      _ < 10 ^ 21 := h ▸ hlt
  have hbound : s < 10 ^ (21 - zeros) := by
    apply Nat.lt_of_mul_lt_mul_right (a := 10 ^ zeros)
    rw [← pow_add, Nat.sub_add_cancel hzeros.le, h]
    exact hlt
  have := (Nat.length_toDigits_le_iff (by decide) (by omega)).mpr hbound
  omega

theorem ofDecimal_integer {d : ℕ} (h : d < 10 ^ 21) :
    ofDecimal negative d 0 = .integer (if negative then -(d : ℤ) else d) := by
  by_cases hzero : d = 0
  · subst hzero
    cases negative with
    | false => rfl
    | true => rfl
  · have hspec := trimZeros_spec (Nat.toDigits 10 d).length d 0
    rw [ofDecimal, if_neg hzero]
    generalize trimZeros (Nat.toDigits 10 d).length d 0 = trimmed at hspec ⊢
    obtain ⟨s, zeros⟩ := trimmed
    simp only [pow_zero, mul_one] at hspec
    have hlength := length_toDigits_trimmed hspec hzero h
    have hform : 0 ≤ (0 : ℤ) + zeros ∧ (Nat.toDigits 10 s).length + ((0 : ℤ) + zeros) ≤ 21 := by
      omega
    have hmagnitude : (s : ℤ) * 10 ^ ((0 : ℤ) + zeros).toNat = d := by
      rw [zero_add, Int.toNat_natCast]
      exact_mod_cast hspec
    simp only [if_pos hform, hmagnitude]

theorem ofDecimal_decimal {negative : Bool} {s : ℕ} {n : ℤ}
    (h : Standard (.decimal negative s n)) :
    ofDecimal negative s (n - (Nat.toDigits 10 s).length) = .decimal negative s n := by
  obtain ⟨hlast, hform⟩ := h
  have hpos : s ≠ 0 := by
    rintro rfl
    exact hlast rfl
  have hform' : ¬(0 ≤ n - (Nat.toDigits 10 s).length + (0 : ℕ) ∧
      (Nat.toDigits 10 s).length + (n - (Nat.toDigits 10 s).length + (0 : ℕ)) ≤ 21) := by
    omega
  unfold ofDecimal
  rw [if_neg hpos, trimZeros_of_ne hlast]
  simp only
  rw [if_neg hform']
  congr 1
  omega

theorem isDigit_toDigits : ∀ c ∈ Nat.toDigits 10 n, c.isDigit = true :=
  fun _ => isDigit_of_mem_toDigits

theorem fractionUnits_nil : fractionUnits (encodeUtf16 []) = [] := rfl

theorem readUnsigned_integer {d : ℕ} (h : d < 10 ^ 21) (hrest : NumberEnd rest) :
    readUnsigned negative (digitUnits d ++ rest) =
      some (.integer (if negative then -(d : ℤ) else d), rest) := by
  have hzero : 1 < (Nat.toDigits 10 d).length → (Nat.toDigits 10 d).head? ≠ some '0' := by
    intro hlong
    apply head_toDigits
    apply Nat.pos_of_ne_zero
    rintro rfl
    exact absurd hlong (by decide)
  have hexponent : readExponent ([] ++ rest) = some (0, rest) := readExponent_none hrest
  have hread := readUnsigned_parts negative (isDigit_toDigits d) Nat.toDigits_ne_nil hzero
    (List.forall_mem_nil _) hexponent fun c hc => ⟨(hrest c hc).1, (hrest c hc).2.1⟩
  rw [List.append_nil, Nat.ofDigitChars_ten_toDigits] at hread
  simpa [fractionUnits_nil, digitUnits, ofDecimal_integer negative h] using hread

theorem exponentUnits_head (exponent : ℤ) (c : UInt16)
    (h : (exponentUnits exponent ++ rest).head? = some c) : isDigitUnit c = false ∧ c ≠ 0x2E := by
  obtain rfl : 0x65 = c := by simpa [exponentUnits] using h
  decide

theorem encodeUtf16_point (h : ∀ c ∈ cs, c.isDigit = true) (hne : cs ≠ []) :
    encodeUtf16 ('.' :: cs) = fractionUnits (encodeUtf16 cs) := by
  have hlength := (encodeUtf16_digits h).2.1
  have hunits : encodeUtf16 cs ≠ [] := by
    intro hnil
    rw [hnil] at hlength
    exact hne (List.length_eq_zero_iff.mp hlength.symm)
  rw [fractionUnits, if_neg hunits]
  rfl

theorem encodeUtf16_exponent (n : ℤ) :
    encodeUtf16 ('e' :: (if n < 0 then '-' else '+') :: Nat.toDigits 10 n.natAbs) =
      exponentUnits n := by
  unfold exponentUnits
  split
  · rfl
  · rfl

/-- Digits with a point after the first `j` of them are read as one number. -/
theorem readUnsigned_split {j : ℕ} {exponent : ℤ} {exponentText : JsString}
    (hdigits : ∀ c ∈ digits, c.isDigit = true) (hhead : digits.head? ≠ some '0') (hj : 0 < j)
    (hle : j ≤ digits.length)
    (hexponent : readExponent (exponentText ++ rest) = some (exponent, rest))
    (hnext : ∀ c, (exponentText ++ rest).head? = some c → isDigitUnit c = false ∧ c ≠ 0x2E) :
    readUnsigned negative (encodeUtf16 (digits.take j) ++
        (fractionUnits (encodeUtf16 (digits.drop j)) ++ (exponentText ++ rest))) =
      some (ofDecimal negative (Nat.ofDigitChars 10 digits 0)
        (exponent - (digits.length - j : ℕ)), rest) := by
  have hne : digits.take j ≠ [] := List.ne_nil_of_length_pos (by rw [List.length_take]; omega)
  have hhead' : (digits.take j).head? ≠ some '0' := by
    rwa [List.head?_take, if_neg hj.ne']
  have hdrop : ∀ c ∈ digits.drop j, c.isDigit = true :=
    fun c hc => hdigits c (List.mem_of_mem_drop hc)
  have hread := readUnsigned_parts negative (fun c hc => hdigits c (List.mem_of_mem_take hc)) hne
    (fun _ => hhead') hdrop hexponent hnext
  rwa [List.take_append_drop, List.length_drop] at hread

theorem readUnsigned_point {j : ℕ} (hdigits : ∀ c ∈ digits, c.isDigit = true)
    (hhead : digits.head? ≠ some '0') (hj : 0 < j) (hlt : j < digits.length)
    (hrest : NumberEnd rest) :
    readUnsigned negative (encodeUtf16 (digits.take j ++ '.' :: digits.drop j) ++ rest) =
      some (ofDecimal negative (Nat.ofDigitChars 10 digits 0) (j - digits.length), rest) := by
  have hexponent : readExponent ([] ++ rest) = some (0, rest) := readExponent_none hrest
  have hread := readUnsigned_split negative hdigits hhead hj hlt.le hexponent
    fun c hc => ⟨(hrest c hc).1, (hrest c hc).2.1⟩
  have hdrop : digits.drop j ≠ [] := by simpa using hlt
  have hexp : (0 : ℤ) - (digits.length - j : ℕ) = j - digits.length := by omega
  rw [encodeUtf16_append, encodeUtf16_point (fun c hc => hdigits c (List.mem_of_mem_drop hc)) hdrop,
    List.append_assoc]
  rwa [hexp, List.nil_append] at hread

theorem ofDigitChars_zeros (digits : List Char) (zeros : ℕ) :
    Nat.ofDigitChars 10 (['0'] ++ (List.replicate zeros '0' ++ digits)) 0 =
      Nat.ofDigitChars 10 digits 0 := by
  rw [Nat.ofDigitChars_append, Nat.ofDigitChars_append, Nat.ofDigitChars_replicate_zero]
  simp [Nat.ofDigitChars_cons]

theorem readUnsigned_zeros (zeros : ℕ) (hdigits : ∀ c ∈ digits, c.isDigit = true)
    (hne : digits ≠ []) (hrest : NumberEnd rest) : readUnsigned negative
        (encodeUtf16 ('0' :: '.' :: (List.replicate zeros '0' ++ digits)) ++ rest) =
      some (ofDecimal negative (Nat.ofDigitChars 10 digits 0) (-zeros - digits.length), rest) := by
  have hzeros : ∀ c ∈ List.replicate zeros '0' ++ digits, c.isDigit = true := by
    intro c hc
    rcases List.mem_append.mp hc with hc | hc
    · obtain rfl := List.eq_of_mem_replicate hc
      decide
    · exact hdigits c hc
  have hexponent : readExponent ([] ++ rest) = some (0, rest) := readExponent_none hrest
  have hread := readUnsigned_parts negative (List.forall_mem_singleton.mpr (by decide))
    (List.cons_ne_nil '0' []) (by simp) hzeros hexponent
    fun c hc => ⟨(hrest c hc).1, (hrest c hc).2.1⟩
  have hexp : (0 : ℤ) - (List.replicate zeros '0' ++ digits).length = -zeros - digits.length := by
    simp
    omega
  rw [ofDigitChars_zeros, hexp, ← encodeUtf16_point hzeros (by simp [hne]), ← List.append_assoc,
    ← encodeUtf16_append, List.nil_append] at hread
  exact hread

theorem readUnsigned_exponent (e : ℤ) (hdigits : ∀ c ∈ digits, c.isDigit = true)
    (hhead : digits.head? ≠ some '0') (hne : digits ≠ []) (hrest : NumberEnd rest) :
    readUnsigned negative (encodeUtf16 (digits.take 1) ++
        (fractionUnits (encodeUtf16 (digits.drop 1)) ++ (exponentUnits e ++ rest))) =
      some (ofDecimal negative (Nat.ofDigitChars 10 digits 0) (e + 1 - digits.length), rest) := by
  have hpos := List.length_pos_of_ne_nil hne
  have hexp : e - (digits.length - 1 : ℕ) = e + 1 - digits.length := by omega
  rw [readUnsigned_split negative hdigits hhead Nat.one_pos hpos
    (readExponent_exponentUnits e hrest) (exponentUnits_head e), hexp]

/-- The decimal text of a number that is no integer below `10 ^ 21` is read back. -/
theorem readUnsigned_positiveChars {negative : Bool} {s : ℕ} {n : ℤ}
    (h : Standard (.decimal negative s n)) (hrest : NumberEnd rest) :
    readUnsigned negative (encodeUtf16 (positiveChars s n) ++ rest) =
      some (.decimal negative s n, rest) := by
  have hs : 0 < s := by
    apply Nat.pos_of_ne_zero
    rintro rfl
    exact h.1 rfl
  have hdigits := isDigit_toDigits s
  have hhead := head_toDigits hs
  have hne : Nat.toDigits 10 s ≠ [] := Nat.toDigits_ne_nil
  have hvalue : Nat.ofDigitChars 10 (Nat.toDigits 10 s) 0 = s := Nat.ofDigitChars_ten_toDigits
  have hdecimal := ofDecimal_decimal h
  have hform := h.2
  unfold positiveChars
  simp only
  split
  · omega
  split
  · rw [readUnsigned_point negative hdigits hhead (by omega) (by omega) hrest, hvalue,
      Int.toNat_of_nonneg (by omega), hdecimal]
  split
  · rw [readUnsigned_zeros negative _ hdigits hne hrest, hvalue, Int.toNat_of_nonneg (by omega),
      neg_neg, hdecimal]
  · have hread := readUnsigned_exponent negative (n - 1) hdigits hhead hne hrest
    rw [hvalue, sub_add_cancel, hdecimal] at hread
    rw [← hread]
    split
    · rename_i hone
      rw [encodeUtf16_append, encodeUtf16_exponent, List.take_of_length_le hone.le,
        List.drop_of_length_le hone.le, fractionUnits_nil, List.nil_append, List.append_assoc]
    · rename_i hmany
      have hpos := List.length_pos_of_ne_nil hne
      have hdrop : (Nat.toDigits 10 s).drop 1 ≠ [] :=
        List.ne_nil_of_length_pos (by rw [List.length_drop]; omega)
      have hdrop' : ∀ c ∈ (Nat.toDigits 10 s).drop 1, c.isDigit = true :=
        fun c hc => hdigits c (List.mem_of_mem_drop hc)
      rw [encodeUtf16_append, ← List.cons_append, encodeUtf16_append, encodeUtf16_exponent,
        encodeUtf16_point hdrop' hdrop, List.append_assoc, List.append_assoc]

theorem readNumber_of_readUnsigned {text rest : JsString} {x : JsNumber}
    (h : readUnsigned false text = some (x, rest)) : readNumber text = some (x, rest) := by
  have hhead : ¬text.head? = some 0x2D := by
    intro hhead
    obtain ⟨text, rfl⟩ := List.head?_eq_some_iff.mp hhead
    have hminus : isDigitUnit 0x2D = false := rfl
    simp [readUnsigned, hminus] at h
  rw [readNumber, if_neg hhead, h]

theorem readNumber_minus (text : JsString) : readNumber (0x2D :: text) = readUnsigned true text := by
  rw [readNumber, if_pos List.head?_cons]
  rfl

/-- A number in standard form is read back from its text. -/
theorem readNumber_chars {x : JsNumber} (h : Standard x) (hfinite : x ≠ .notFinite)
    (hrest : NumberEnd rest) : readNumber (encodeUtf16 x.chars ++ rest) = some (x, rest) := by
  cases x with
  | integer n =>
    cases n with
    | ofNat d => exact readNumber_of_readUnsigned (readUnsigned_integer false h hrest)
    | negSucc d => exact (readNumber_minus _).trans (readUnsigned_integer true h hrest)
  | decimal negative s n =>
    cases negative with
    | false => exact readNumber_of_readUnsigned (readUnsigned_positiveChars h hrest)
    | true => exact (readNumber_minus _).trans (readUnsigned_positiveChars h hrest)
  | notFinite => exact absurd rfl hfinite

end Vigil.Ledger.JsonNumber
