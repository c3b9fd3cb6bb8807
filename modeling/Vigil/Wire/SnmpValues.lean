import Vigil.Wire.SnmpCodec
import Vigil.Lib.TwosComplement
import Vigil.Lib.Contract
import Vigil.Net.AddressText
import Mathlib.Data.Nat.Log

/-! What the encoder of `monitors/types/probes/snmp-codec.ts` writes is read back: integers, object
identifiers, elements and responses. -/

namespace Vigil.Wire.SnmpValues

open Js.Text Js.Utf8 Lib.BigEndian Lib.TwosComplement SnmpCodec
open Net.Address (split join isDigit parseDigits digitValue)

/-! ### Integers -/

def IsInt32 (v : ℤ) : Prop := -0x80000000 ≤ v ∧ v ≤ 0x7FFFFFFF

theorem topBit_clear_iff (byte : UInt8) : byte &&& 0x80 = 0 ↔ byte.toNat < 128 := by
  have hlt : byte.toNat < 256 := byte.toNat_lt
  have hhigh : (byte.toNat &&& 2 ^ 7) / 2 ^ 7 = byte.toNat / 2 ^ 7 % 2 := by
    rw [Nat.and_div_two_pow, Nat.div_self (by decide), Nat.and_one_is_mod]
  have hrest : (byte.toNat &&& 2 ^ 7) % 2 ^ 7 = 0 := by
    rw [Nat.and_mod_two_pow, Nat.mod_self, Nat.and_zero]
  rw [← UInt8.toNat_inj, UInt8.toNat_and]
  show byte.toNat &&& 2 ^ 7 = 0 ↔ _
  omega

theorem topBit_iff (byte : UInt8) : byte &&& 0x80 ≠ 0 ↔ 128 ≤ byte.toNat := by
  rw [ne_eq, topBit_clear_iff, not_lt]

theorem readSignedInteger_cons (byteOffset : ℕ) (byte : UInt8) (more : List UInt8) :
    readSignedInteger ⟨byteOffset, byte :: more⟩ =
      if maxSafeInteger < signed (byte :: more) ∨ signed (byte :: more) < -maxSafeInteger then
        refuse "INTEGER out of range"
      else .ok (signed (byte :: more)) := by
  have hvalue : (if byte &&& 0x80 ≠ 0 then
      (bigEndian (byte :: more) : ℤ) - 256 ^ (byte :: more).length
        else (bigEndian (byte :: more) : ℤ)) = signed (byte :: more) :=
    if_congr (topBit_iff byte) rfl rfl
  rw [← hvalue]
  rfl

/-- The loop writes bytes as long as something but the sign is left. -/
theorem integerLoop_eq (value : ℤ) : ∀ (rounds : ℕ) (remaining : ℤ) (bytes : List UInt8),
    0 < rounds → (remaining / 256 ^ rounds = 0 ∨ remaining / 256 ^ rounds = -1) →
    ∃ count, integerLoop value rounds remaining bytes = lowBytes (count + 1) remaining ++ bytes ∧
      (remaining / 256 ^ (count + 1) = 0 ∨ remaining / 256 ^ (count + 1) = -1) ∧
      ∀ fewer < count, ¬(remaining / 256 ^ (fewer + 1) = 0 ∨ remaining / 256 ^ (fewer + 1) = -1) := by
  intro rounds
  induction rounds with
  | zero => exact fun _ _ h => absurd h (lt_irrefl 0)
  | succ rounds ih =>
    intro remaining bytes _ hrest
    have hdiv : ∀ count, remaining / 256 / 256 ^ count = remaining / 256 ^ (count + 1) := by
      intro count
      rw [Int.ediv_ediv_of_nonneg (by decide), pow_succ']
    rw [integerLoop]
    by_cases hsign : remaining / 256 = 0 ∨ remaining / 256 = -1
    · refine ⟨0, ?_, by simpa using hsign, fun fewer h => absurd h (Nat.not_lt_zero _)⟩
      have hleft : ¬(remaining / 256 ≠ 0 ∧ remaining / 256 ≠ -1) := by omega
      simp only [hleft, if_false, ite_self]
      rfl
    · have hpos : 0 < rounds := by
        rcases Nat.eq_zero_or_pos rounds with rfl | hpos
        · exact absurd (by simpa using hrest) hsign
        · exact hpos
      obtain ⟨count, heq, hlast, hfewer⟩ := ih (remaining / 256) (lowByte remaining :: bytes) hpos
        (by rw [hdiv]; exact hrest)
      refine ⟨count + 1, ?_, by rw [← hdiv]; exact hlast, ?_⟩
      · have hstop : ¬(value < 0 ∧ remaining / 256 = -1) := by omega
        have hmore : remaining / 256 ≠ 0 ∧ remaining / 256 ≠ -1 := by omega
        have hstep : lowBytes (count + 2) remaining =
          lowBytes (count + 1) (remaining / 256) ++ [lowByte remaining] := rfl
        rw [if_neg hstop, if_pos hmore, heq, hstep, List.append_assoc, List.singleton_append]
      · intro fewer hlt
        cases fewer with
        | zero => simpa using hsign
        | succ fewer =>
          rw [← hdiv]
          exact hfewer fewer (by omega)

/-- The content is as many of the lowest bytes as the integer needs and no more. -/
theorem integerContent_eq {v : ℤ} (hv : IsInt32 v) :
    ∃ count, integerContent v = lowBytes (count + 1) v ∧ Fits count v ∧
      ∀ fewer < count, ¬Fits fewer v := by
  obtain ⟨count, heq, hlast, hfewer⟩ := integerLoop_eq v 4 v [] (by decide)
    (div_eq_iff.mpr (by unfold IsInt32 at hv; omega))
  obtain ⟨hlow, hhigh⟩ := div_eq_iff.mp hlast
  have hfirst : (integerLoop v 4 v []).headD 0 = (v / 256 ^ count % 256).toNat.toUInt8 := by
    rw [heq, lowBytes_succ]
    rfl
  have htop : (integerLoop v 4 v []).headD 0 &&& 0x80 ≠ 0 ↔ 128 ≤ v / 256 ^ count % 256 := by
    rw [hfirst, topBit_iff, toNat_lowByte]
    omega
  have hclear : (integerLoop v 4 v []).headD 0 &&& 0x80 = 0 ↔ v / 256 ^ count % 256 < 128 := by
    rw [← not_iff_not, ← ne_eq, htop, not_lt]
  obtain ⟨hnonneg, hneg⟩ := sign_iff hlow hhigh
  unfold integerContent
  simp only [htop, hclear]
  by_cases hfits : Fits count v
  · refine ⟨count, ?_, hfits, fun fewer hlt hfewerFits => hfewer fewer hlt (div_eq_iff.mpr ?_)⟩
    · rw [if_neg (fun h => (hnonneg h.1).mp h.2 hfits), if_neg (fun h => (hneg h.1).mp h.2 hfits),
        heq, List.append_nil]
    · have hpos : (0 : ℤ) < 256 ^ fewer := by positivity
      obtain ⟨hfitsLow, hfitsHigh⟩ := hfewerFits
      rw [pow_succ']
      omega
  · refine ⟨count + 1, ?_, ?_, fun fewer hlt h => hfits (h.mono (by omega))⟩
    · rw [lowBytes_sign hlow hhigh, heq, List.append_nil]
      rcases lt_or_ge v 0 with hsign | hsign
      · rw [if_neg (fun h => absurd h.1 (not_le.mpr hsign)),
          if_pos ⟨hsign, (hneg hsign).mpr hfits⟩, if_neg (not_le.mpr hsign)]
      · rw [if_pos ⟨hsign, (hnonneg hsign).mpr hfits⟩, if_pos hsign]
    · have hpos : (0 : ℤ) < 256 ^ (count + 1) := by positivity
      exact ⟨by omega, by omega⟩

def integerSize (v : ℤ) : ℕ :=
  if -0x80 ≤ v ∧ v < 0x80 then 1
  else if -0x8000 ≤ v ∧ v < 0x8000 then 2
  else if -0x800000 ≤ v ∧ v < 0x800000 then 3
  else 4

theorem length_integerContent {v : ℤ} (hv : IsInt32 v) :
    (integerContent v).length = integerSize v := by
  obtain ⟨count, heq, hfits, hfewer⟩ := integerContent_eq hv
  have hfour : Fits 3 v := by
    unfold IsInt32 at hv
    unfold Fits
    omega
  have hcount : count ≤ 3 := not_lt.mp fun h => hfewer 3 h hfour
  rw [heq, length_lowBytes]
  unfold Fits at hfits hfewer
  unfold integerSize
  interval_cases count
  · rw [if_pos (by omega)]
  · have hone := hfewer 0 (by decide)
    rw [if_neg (by omega), if_pos (by omega)]
  · have hone := hfewer 0 (by decide)
    have htwo := hfewer 1 (by decide)
    rw [if_neg (by omega), if_neg (by omega), if_pos (by omega)]
  · have hone := hfewer 0 (by decide)
    have htwo := hfewer 1 (by decide)
    have hthree := hfewer 2 (by decide)
    rw [if_neg (by omega), if_neg (by omega), if_neg (by omega)]

/-- An encoded integer is read back from its content, and no other content that is read as the
integer is shorter. -/
theorem encodeInteger_spec {v : ℤ} (hv : IsInt32 v) :
    encodeInteger v = some (tlv tagInteger (integerContent v)) ∧
    (∀ byteOffset, readSignedInteger ⟨byteOffset, integerContent v⟩ = .ok v) ∧
    ∀ other : Buffer, readSignedInteger other = .ok v →
      (integerContent v).length ≤ other.length := by
  obtain ⟨count, heq, hfits, hfewer⟩ := integerContent_eq hv
  have hsigned := signed_lowBytes hfits
  refine ⟨if_neg (by unfold IsInt32 at hv; omega), ?_, ?_⟩
  · intro byteOffset
    rw [heq]
    rw [lowBytes_succ] at hsigned ⊢
    rw [readSignedInteger_cons, hsigned, if_neg]
    unfold IsInt32 at hv
    unfold maxSafeInteger
    omega
  · rintro ⟨byteOffset, bytes⟩ hread
    cases bytes with
    | nil => exact absurd hread (by simp [readSignedInteger, Buffer.length, refuse])
    | cons byte more =>
      rw [readSignedInteger_cons] at hread
      split at hread
      · cases hread
      · have hread := Except.ok.inj hread
        have hfitsOther : Fits more.length v := hread ▸ fits_signed byte more
        rw [heq, length_lowBytes]
        by_contra hshorter
        refine hfewer more.length ?_ hfitsOther
        simp only [Buffer.length, List.length_cons] at hshorter
        omega

/-! ### Object identifiers -/

/-- The number that some septets write. -/
def fromSeptets (read : ℕ) (septets : List UInt8) : ℕ :=
  septets.foldl (fun value septet => value * 128 + septet.toNat) read

variable (n : ℕ) (arcs : List ℕ)

theorem toNat_septet : (n % 128).toUInt8.toNat = n % 128 :=
  Nat.mod_eq_of_lt (by omega)

theorem fromSeptets_cons (read : ℕ) (septet : UInt8) (taken : List UInt8) :
    fromSeptets read (septet :: taken) = fromSeptets (read * 128 + septet.toNat) taken := rfl

theorem toNat_lowSeptet (byte : UInt8) : (byte &&& 0x7F).toNat = byte.toNat % 128 := by
  rw [UInt8.toNat_and]
  exact Nat.and_two_pow_sub_one_eq_mod byte.toNat 7

theorem toNat_continued {septet : UInt8} (h : septet.toNat < 128) :
    (septet ||| 0x80).toNat = septet.toNat + 128 := by
  rw [UInt8.toNat_or]
  exact Nat.or_two_pow_eq_add_of_lt (n := 7) h

theorem septets_spec (remaining : ℕ) (taken : List UInt8) :
    (∀ septet ∈ taken, septet.toNat < 128) →
    septets remaining taken ≠ [] ∧ (∀ septet ∈ septets remaining taken, septet.toNat < 128) ∧
      fromSeptets 0 (septets remaining taken) = fromSeptets remaining taken := by
  have hcons : ∀ (remaining : ℕ) (taken : List UInt8), (∀ septet ∈ taken, septet.toNat < 128) →
      ∀ septet ∈ (remaining % 128).toUInt8 :: taken, septet.toNat < 128 := by
    intro remaining taken h septet hmem
    rcases List.mem_cons.mp hmem with rfl | hmem
    · rw [toNat_septet]
      omega
    · exact h septet hmem
  have hread : ∀ (remaining : ℕ) (taken : List UInt8),
      fromSeptets (remaining / 128) ((remaining % 128).toUInt8 :: taken) =
        fromSeptets remaining taken := by
    intro remaining taken
    rw [fromSeptets_cons, toNat_septet, Nat.div_add_mod']
  induction remaining, taken using septets.induct with
  | case1 remaining taken taken' hmore ih =>
    intro h
    obtain ⟨hnil, hsmall, hvalue⟩ := ih (hcons remaining taken h)
    rw [septets, if_pos hmore]
    exact ⟨hnil, hsmall, hvalue.trans (hread remaining taken)⟩
  | case2 remaining taken hlast =>
    intro h
    rw [septets, if_neg hlast]
    refine ⟨List.cons_ne_nil _ _, hcons remaining taken h, ?_⟩
    rw [← hread remaining taken, Nat.eq_zero_of_not_pos hlast]

/-- What is left to read of a number, when every septet but the last carries a continuation bit. -/
theorem foldl_push : ∀ (taken : List UInt8) (accumulator : ℕ) (started : Bool),
    taken ≠ [] → (∀ septet ∈ taken, septet.toNat < 128) →
    (withContinuation taken).foldl OidRead.push ⟨arcs, accumulator, started⟩ =
      ⟨arcs ++ [fromSeptets accumulator taken], 0, false⟩ := by
  intro taken
  induction taken using withContinuation.induct with
  | case1 => exact fun _ _ h => absurd rfl h
  | case2 last =>
    intro accumulator started _ hsmall
    have hlast := hsmall last (List.mem_singleton_self last)
    have hclear := (topBit_clear_iff last).mpr hlast
    rw [withContinuation, List.foldl_cons, List.foldl_nil, OidRead.push, if_pos hclear,
      toNat_lowSeptet, Nat.mod_eq_of_lt hlast]
    rfl
  | case3 septet next rest ih =>
    intro accumulator started _ hsmall
    have hseptet := hsmall septet List.mem_cons_self
    have hvalue := toNat_continued hseptet
    have htop : ¬(septet ||| 0x80) &&& 0x80 = 0 := by
      rw [topBit_clear_iff, hvalue]
      omega
    have hlow : (septet.toNat + 128) % 128 = septet.toNat := by omega
    rw [withContinuation, List.foldl_cons, OidRead.push, if_neg htop, toNat_lowSeptet, hvalue, hlow,
      ih _ true (List.cons_ne_nil _ _) fun s hs => hsmall s (List.mem_cons_of_mem _ hs)]
    rfl

/-- A number that is written is read back after the arcs before it. -/
theorem foldl_base128 (value : ℕ) :
    (base128 value).foldl OidRead.push ⟨arcs, 0, false⟩ = ⟨arcs ++ [value], 0, false⟩ := by
  obtain ⟨hnil, hsmall, hvalue⟩ := septets_spec value [] nofun
  rw [base128, foldl_push arcs _ 0 false hnil hsmall, hvalue]
  rfl

theorem foldl_flatMap_base128 : ∀ before : List ℕ,
    (arcs.flatMap base128).foldl OidRead.push ⟨before, 0, false⟩ = ⟨before ++ arcs, 0, false⟩ := by
  induction arcs with
  | nil => exact fun before => by simp
  | cons arc arcs ih =>
    intro before
    rw [List.flatMap_cons, List.foldl_append, foldl_base128, ih, List.append_assoc,
      List.singleton_append]

theorem base128_ne_nil (value : ℕ) : base128 value ≠ [] := by
  intro hnil
  have hread := foldl_base128 [] value
  rw [hnil] at hread
  exact absurd (congrArg OidRead.arcs hread) (by simp)

def arcSize (arc : ℕ) : ℕ := Nat.log 128 arc + 1

theorem length_septets (remaining : ℕ) (taken : List UInt8) :
    (septets remaining taken).length = arcSize remaining + taken.length := by
  induction remaining, taken using septets.induct with
  | case1 remaining taken taken' hmore ih =>
    have hlog : Nat.log 128 remaining = Nat.log 128 (remaining / 128) + 1 := by
      rw [Nat.log_div_base, Nat.sub_add_cancel (Nat.log_pos (by decide) (by omega))]
    rw [septets, if_pos hmore, ih, List.length_cons, arcSize, arcSize, hlog]
    omega
  | case2 remaining taken hlast =>
    have hlog : Nat.log 128 remaining = 0 := Nat.log_of_lt (by omega)
    rw [septets, if_neg hlast, List.length_cons, arcSize, hlog]
    omega

theorem length_withContinuation (taken : List UInt8) :
    (withContinuation taken).length = taken.length := by
  induction taken using withContinuation.induct with
  | case1 => rfl
  | case2 => rfl
  | case3 septet next rest ih =>
    rw [withContinuation, List.length_cons, ih]
    rfl

theorem length_flatMap_base128 : (arcs.flatMap base128).length = (arcs.map arcSize).sum := by
  induction arcs with
  | nil => rfl
  | cons arc arcs ih =>
    rw [List.flatMap_cons, List.length_append, ih, base128, length_withContinuation, length_septets]
    rfl

theorem parseDigits_decimal : parseDigits 10 (decimal n) = n := by
  have hdigit : ∀ c < 10, digitValue (0x30 + c : ℕ).toUInt16 = c := by decide
  induction n using Nat.strong_induction_on with
  | _ n ih =>
    by_cases hsmall : n < 10
    · rw [Net.AddressText.decimal_one_digit n hsmall]
      exact (Nat.zero_add _).trans (hdigit n hsmall)
    · have hsplit : n / 10 * 10 + n % 10 = n := by omega
      have hdiv := ih (n / 10) (by omega)
      unfold parseDigits at hdiv ⊢
      rw [← hsplit, Net.AddressText.decimal_append_digit (by omega) (by omega), List.foldl_append,
        hdiv, List.foldl_cons, List.foldl_nil, hdigit _ (by omega)]

theorem parseArc_decimal : parseArc (decimal n) = some n := by
  have hnil : decimal (n : ℕ) ≠ [] := by
    by_cases hsmall : n < 10
    · rw [Net.AddressText.decimal_one_digit n hsmall]
      exact List.cons_ne_nil _ _
    · have hsplit : n / 10 * 10 + n % 10 = n := by omega
      rw [← hsplit, Net.AddressText.decimal_append_digit (by omega) (by omega)]
      exact List.append_ne_nil_of_right_ne_nil _ (List.cons_ne_nil _ _)
  rw [parseArc, if_pos ⟨hnil, List.all_eq_true.mpr fun _ => Net.AddressText.isDigit_of_mem_decimal⟩,
    parseDigits_decimal]

structure ObjectId where
  first : ℕ
  second : ℕ
  arcs : List ℕ
  first_le : first ≤ 2
  second_lt : first < 2 → second < 40

namespace ObjectId

variable (oid : ObjectId)

def text : JsString := oidText (oid.first :: oid.second :: oid.arcs)

def numbers : List ℕ := (oid.first * 40 + oid.second) :: oid.arcs

def size : ℕ := (oid.numbers.map arcSize).sum

end ObjectId

theorem splitFirst_eq {first second : ℕ} (hfirst : first ≤ 2) (hsecond : first < 2 → second < 40) :
    splitFirst (first * 40 + second) = [first, second] := by
  unfold splitFirst
  grind

theorem split_oidText {arcs : List ℕ} (h : arcs ≠ []) :
    split (js ".") (oidText arcs) = arcs.map fun arc : ℕ => decimal arc := by
  rw [Net.AddressText.js_dot, Net.AddressText.split_singleton, oidText,
    Net.AddressText.join_eq_intercalate]
  refine List.splitOn_intercalate _ (fun part hpart => ?_) (by simpa using h)
  obtain ⟨n, -, rfl⟩ := List.mem_map.mp hpart
  exact Net.AddressText.dot_notMem_decimal n

theorem mapM_parseArc : (arcs.map fun arc : ℕ => decimal arc).mapM parseArc = some arcs := by
  induction arcs with
  | nil => rfl
  | cons arc arcs ih =>
    rw [List.map_cons, List.mapM_cons, parseArc_decimal, ih]
    rfl

/-- An encoded object identifier is read back from its content. -/
theorem encodeOid_spec (oid : ObjectId) :
    ∃ content, encodeOid oid.text = some (tlv tagOid content) ∧ content.length = oid.size ∧
      ∀ byteOffset, readOid ⟨byteOffset, content⟩ = .ok oid.text := by
  obtain ⟨first, second, arcs, hfirst, hsecond⟩ := oid
  refine ⟨base128 (first * 40 + second) ++ arcs.flatMap base128, ?_, ?_, ?_⟩
  · rw [ObjectId.text, encodeOid, oidContent, split_oidText (List.cons_ne_nil _ _), mapM_parseArc]
    simp only
    rw [if_neg (by omega)]
    rfl
  · rw [← List.flatMap_cons, length_flatMap_base128]
    rfl
  · intro byteOffset
    have hlength : (base128 (first * 40 + second) ++ arcs.flatMap base128).length ≠ 0 := by
      simp [base128_ne_nil]
    unfold readOid Buffer.length
    rw [if_neg hlength]
    simp only [List.foldl_append, foldl_base128, foldl_flatMap_base128, List.nil_append,
      Bool.false_eq_true, if_false, List.singleton_append, splitFirst_eq hfirst hsecond]
    rfl

/-! ### Elements -/

theorem length_encodeLength (length : ℕ) : (encodeLength length).length + 1 =
    tlvHeaderLength length := by
  unfold encodeLength tlvHeaderLength
  split_ifs <;> rfl

theorem length_tlv (tag : UInt8) (content : List UInt8) :
    (tlv tag content).length = tlvHeaderLength content.length + content.length := by
  rw [tlv, List.length_cons, List.length_append, ← length_encodeLength]
  omega

def elementSize (contentLength : ℕ) : ℕ := tlvHeaderLength contentLength + contentLength

theorem toNat_toUInt8 : n.toUInt8.toNat = n % 256 := rfl

/-- A long length is as many bytes as its first byte says. -/
theorem encodeLength_long {length : ℕ} (hlong : ¬length < 0x80) (hsize : length < 2 ^ 24) :
    ∃ (first : UInt8) (bytes : List UInt8), encodeLength length = first :: bytes ∧
      ¬first &&& 0x80 = 0 ∧ (first &&& 0x7F).toNat = bytes.length ∧
      1 ≤ bytes.length ∧ bytes.length ≤ 4 ∧ bigEndian bytes = length := by
  unfold encodeLength
  rw [if_neg hlong]
  split_ifs
  · refine ⟨0x81, [length.toUInt8], rfl, by decide,
      (by decide : (0x81 &&& 0x7F : UInt8).toNat = 1), by simp, by simp, ?_⟩
    rw [bigEndian_singleton, toNat_toUInt8]
    omega
  · refine ⟨0x82, [(length / 0x100).toUInt8, length.toUInt8], rfl, by decide,
      (by decide : (0x82 &&& 0x7F : UInt8).toNat = 2), by simp, by simp, ?_⟩
    rw [bigEndian_cons, bigEndian_singleton, toNat_toUInt8, toNat_toUInt8, List.length_singleton]
    omega
  · refine ⟨0x83, [(length / 0x10000).toUInt8, (length / 0x100).toUInt8, length.toUInt8], rfl,
      by decide, (by decide : (0x83 &&& 0x7F : UInt8).toNat = 3), by simp, by simp, ?_⟩
    rw [bigEndian_cons, bigEndian_cons, bigEndian_singleton, toNat_toUInt8, toNat_toUInt8,
      toNat_toUInt8, List.length_cons, List.length_singleton]
    omega

variable {buffer : Buffer} {tag : UInt8} (before content after : List UInt8)

variable {byte : UInt8}

theorem read_append (h : buffer.bytes = before ++ byte :: after) :
    buffer.read before.length = .ok byte := by
  rw [Buffer.read, h, List.getElem?_append_right le_rfl, Nat.sub_self]
  rfl

theorem readLength_append (bytes : List UInt8) (h : buffer.bytes = before ++ (bytes ++ after)) :
    readLength buffer before.length bytes.length = .ok (bigEndian bytes) := by
  induction bytes using List.reverseRecOn generalizing after with
  | nil => rfl
  | append_singleton bytes byte ih =>
    have hread : buffer.read (before.length + bytes.length) = .ok byte := by
      rw [← List.length_append]
      exact read_append (before ++ bytes) after (by simp [h])
    rw [List.length_append, List.length_singleton, readLength,
      ih (byte :: after) (by simp [h]), hread, bigEndian_concat]
    rfl

theorem readContent_append (h : buffer.bytes = before ++ (content ++ after)) :
    readContent buffer tag before.length content.length =
      .ok ⟨tag, ⟨buffer.byteOffset + before.length, content⟩, before.length + content.length⟩ := by
  have hlength : buffer.length = before.length + (content.length + after.length) := by
    rw [Buffer.length, h, List.length_append, List.length_append]
  have htake : (buffer.bytes.take (before.length + content.length)).drop before.length = content := by
    rw [h, ← List.append_assoc, ← List.length_append, List.take_left, List.drop_left]
  rw [readContent, if_neg (by omega), Buffer.subarray, htake, hlength, min_eq_left (by omega)]

theorem readTlv_short (h : buffer.bytes = before ++ tag :: byte :: (content ++ after))
    (hclear : byte &&& 0x80 = 0) (hvalue : byte.toNat = content.length) :
    readTlv buffer before.length =
      .ok ⟨tag, ⟨buffer.byteOffset + (before.length + 2), content⟩,
        before.length + 2 + content.length⟩ := by
  have hlength : buffer.length = before.length + (content.length + after.length + 1 + 1) := by
    rw [Buffer.length, h]
    simp
  have htag : buffer.read before.length = .ok tag := read_append _ _ h
  have hbyte : buffer.read (before ++ [tag]).length = .ok byte :=
    read_append _ (content ++ after) (by simp [h])
  have hcontent : readContent buffer tag (before ++ [tag, byte]).length content.length =
      .ok ⟨tag, ⟨buffer.byteOffset + (before ++ [tag, byte]).length, content⟩,
        (before ++ [tag, byte]).length + content.length⟩ :=
    readContent_append _ _ after (by simp [h])
  simp only [List.length_append, List.length_cons, List.length_nil, Nat.zero_add] at hbyte hcontent
  rw [readTlv, if_neg (by omega), htag]
  simp only [bind, Except.bind, hbyte]
  rw [if_pos hclear, hvalue]
  exact hcontent

theorem readTlv_long (bytes : List UInt8)
    (h : buffer.bytes = before ++ tag :: byte :: (bytes ++ (content ++ after)))
    (hlong : ¬byte &&& 0x80 = 0) (hcount : (byte &&& 0x7F).toNat = bytes.length)
    (hpos : 1 ≤ bytes.length) (hle : bytes.length ≤ 4) (hvalue : bigEndian bytes = content.length) :
    readTlv buffer before.length =
      .ok ⟨tag, ⟨buffer.byteOffset + (before.length + 2 + bytes.length), content⟩,
        before.length + 2 + bytes.length + content.length⟩ := by
  have hlength : buffer.length =
      before.length + (bytes.length + (content.length + after.length) + 1 + 1) := by
    rw [Buffer.length, h]
    simp
  have htag : buffer.read before.length = .ok tag := read_append _ _ h
  have hbyte : buffer.read (before ++ [tag]).length = .ok byte :=
    read_append _ (bytes ++ (content ++ after)) (by simp [h])
  have hread : readLength buffer (before ++ [tag, byte]).length bytes.length =
      .ok (bigEndian bytes) :=
    readLength_append _ (content ++ after) bytes (by simp [h])
  have hcontent : readContent buffer tag (before ++ tag :: byte :: bytes).length content.length =
      .ok ⟨tag, ⟨buffer.byteOffset + (before ++ tag :: byte :: bytes).length, content⟩,
        (before ++ tag :: byte :: bytes).length + content.length⟩ :=
    readContent_append _ _ after (by simp [h])
  have hbefore : (before ++ tag :: byte :: bytes).length = before.length + 2 + bytes.length := by
    rw [List.length_append, List.length_cons, List.length_cons]
    omega
  rw [hbefore] at hcontent
  simp only [List.length_append, List.length_cons, List.length_nil, Nat.zero_add] at hbyte hread
  rw [readTlv, if_neg (by omega), htag]
  simp only [bind, Except.bind, hbyte]
  rw [if_neg hlong, hcount, if_neg (by omega), if_neg (by omega), hread, hvalue]
  exact hcontent

/-- An element that stands in a buffer is read as it was written. -/
theorem readTlv_append {offset : ℕ} (h : buffer.bytes = before ++ (tlv tag content ++ after))
    (hoffset : offset = before.length) (hsize : content.length < 2 ^ 24) :
    readTlv buffer offset =
      .ok ⟨tag, ⟨buffer.byteOffset + (offset + tlvHeaderLength content.length), content⟩,
        offset + (tlv tag content).length⟩ := by
  subst hoffset
  have hheader := length_encodeLength content.length
  rw [length_tlv, ← hheader]
  by_cases hshort : content.length < 0x80
  · have hencode : encodeLength content.length = [content.length.toUInt8] := if_pos hshort
    have hvalue : content.length.toUInt8.toNat = content.length := by
      rw [toNat_toUInt8]
      omega
    rw [tlv, hencode, List.singleton_append] at h
    rw [hencode, ← Nat.add_assoc before.length _ content.length]
    exact readTlv_short _ _ _ h ((topBit_clear_iff _).mpr (by omega)) hvalue
  · obtain ⟨first, bytes, hencode, hlong, hcount, hpos, hle, hvalue⟩ :=
      encodeLength_long hshort hsize
    have hheaderLength : before.length + ((encodeLength content.length).length + 1) =
        before.length + 2 + bytes.length := by
      rw [hencode, List.length_cons]
      omega
    rw [tlv, hencode, List.cons_append, List.cons_append, List.cons_append, List.append_assoc] at h
    rw [← Nat.add_assoc before.length _ content.length, hheaderLength]
    exact readTlv_long _ _ _ _ h hlong hcount hpos hle hvalue

theorem readTlv_head (h : buffer.bytes = tlv tag content ++ after)
    (hsize : content.length < 2 ^ 24) :
    readTlv buffer 0 =
      .ok ⟨tag, ⟨buffer.byteOffset + tlvHeaderLength content.length, content⟩,
        (tlv tag content).length⟩ := by
  have hread := readTlv_append [] content after h List.length_nil.symm hsize
  rwa [Nat.zero_add, Nat.zero_add] at hread

theorem expectTlv_append {offset : ℕ} (h : buffer.bytes = before ++ (tlv tag content ++ after))
    (hoffset : offset = before.length) (hsize : content.length < 2 ^ 24) :
    expectTlv buffer offset tag =
      .ok ⟨tag, ⟨buffer.byteOffset + (offset + tlvHeaderLength content.length), content⟩,
        offset + (tlv tag content).length⟩ := by
  rw [expectTlv, readTlv_append before content after h hoffset hsize]
  simp only [bind, Except.bind, ne_eq, not_true_eq_false, if_false]

theorem expectTlv_head (h : buffer.bytes = tlv tag content ++ after)
    (hsize : content.length < 2 ^ 24) :
    expectTlv buffer 0 tag =
      .ok ⟨tag, ⟨buffer.byteOffset + tlvHeaderLength content.length, content⟩,
        (tlv tag content).length⟩ := by
  rw [expectTlv, readTlv_head content after h hsize]
  simp only [bind, Except.bind, ne_eq, not_true_eq_false, if_false]

/-! ### Responses -/

/-- What is read back from an encoded value. -/
inductive Carries : List UInt8 → DecodedValue → Prop
  | integer {v : ℤ} {value : List UInt8} (hv : IsInt32 v) (h : encodeInteger v = some value) :
    Carries value ⟨js "Integer", some (decimal v), some v, none⟩
  | oid {oid : ObjectId} {value : List UInt8} (h : encodeOid oid.text = some value) :
    Carries value ⟨js "OID", some oid.text, none, none⟩
  | null : Carries encodeNull ⟨js "Null", none, none, none⟩
  | octetString {text : JsString} (hwell : WellFormed text)
    (hprintable : (utf8 text).all isPrintable = true) :
    Carries (encodeOctetString (utf8 text)) ⟨js "OctetString", some text, none, none⟩

theorem Carries.decodes {value : List UInt8} {decoded : DecodedValue} (h : Carries value decoded) :
    ∃ tag content, value = tlv tag content ∧
      ∀ byteOffset stop, decodeValue ⟨tag, ⟨byteOffset, content⟩, stop⟩ = .ok decoded := by
  cases h with
  | integer hv h =>
    obtain ⟨hencode, hread, -⟩ := encodeInteger_spec hv
    refine ⟨tagInteger, _, Option.some.inj (h.symm.trans hencode), fun byteOffset stop => ?_⟩
    show (do let value ← readSignedInteger ⟨byteOffset, _⟩; _) = _
    rw [hread byteOffset]
    rfl
  | oid h =>
    obtain ⟨content, hencode, -, hread⟩ := encodeOid_spec _
    refine ⟨tagOid, content, Option.some.inj (h.symm.trans hencode), fun byteOffset stop => ?_⟩
    show (do let value ← readOid ⟨byteOffset, _⟩; _) = _
    rw [hread byteOffset]
    rfl
  | null => exact ⟨tagNull, [], rfl, fun _ _ => rfl⟩
  | octetString hwell hprintable =>
    refine ⟨tagOctetString, _, rfl, fun byteOffset stop => ?_⟩
    have htext : readOctetString ⟨byteOffset, utf8 _⟩ = _ :=
      (if_pos hprintable).trans (decodeUtf8_utf8 hwell)
    show Except.ok (⟨_, some (readOctetString ⟨byteOffset, _⟩), none, none⟩ : DecodedValue) = _
    rw [htext]
    rfl

/-- A varbind: its object, the bytes of its value, and what the value carries. -/
structure Sent where
  oid : ObjectId
  value : List UInt8
  decoded : DecodedValue
  carries : Carries value decoded

namespace Sent

variable (sent : Sent)

def varbind : Varbind := ⟨sent.oid.text, sent.value⟩

def received : DecodedVarbind := ⟨sent.decoded, sent.oid.text⟩

def size : ℕ := elementSize (elementSize sent.oid.size + sent.value.length)

theorem encodes : ∃ entry, encodeVarbind sent.varbind = some entry ∧
    0 < entry.length ∧ entry.length = sent.size ∧
    ∀ (list : Buffer) (before after : List UInt8), entry.length < 2 ^ 24 →
      list.bytes = before ++ (entry ++ after) →
      readVarbind list before.length = .ok (sent.received, before.length + entry.length) := by
  obtain ⟨content, hoid, hoidSize, hread⟩ := encodeOid_spec sent.oid
  obtain ⟨tag, value, hvalue, hdecode⟩ := sent.carries.decodes
  have hentry : encodeVarbind sent.varbind =
      some (tlv tagSequence (tlv tagOid content ++ (tlv tag value ++ []))) := by
    rw [encodeVarbind, varbind, hoid, hvalue]
    rfl
  have hlength := length_tlv tagSequence (tlv tagOid content ++ (tlv tag value ++ []))
  have hoidLength := length_tlv tagOid content
  have hvalueLength := length_tlv tag value
  refine ⟨_, hentry, Nat.succ_pos _, ?_, fun list before after hsize h => ?_⟩
  · rw [hlength, List.length_append, List.append_nil, hoidLength, hoidSize, size, hvalue]
    rfl
  have hafter : tlv tagOid content ++ tlv tag value =
      tlv tagOid content ++ (tlv tag value ++ []) := by rw [List.append_nil]
  simp only [List.length_append, List.append_nil] at hlength
  simp only [List.append_nil] at hsize h ⊢
  rw [readVarbind, expectTlv_append before _ after h rfl (by rw [List.length_append]; omega)]
  simp only [bind, Except.bind]
  rw [expectTlv_head content (tlv tag value) rfl (by omega)]
  simp only
  rw [readTlv_append (tlv tagOid content) value [] hafter rfl (by omega)]
  simp only [hread, hdecode]
  rfl

end Sent

/-- The entries of a list, as they are encoded, and the loop that reads them. -/
theorem readVarbinds_entries (sent : List Sent) :
    ∃ entries, (sent.map Sent.varbind).mapM encodeVarbind = some entries ∧
      entries.length = sent.length ∧ entries.flatten.length = (sent.map Sent.size).sum ∧
      ∀ (list : Buffer) (before : List UInt8) (fuel : ℕ), entries.flatten.length < 2 ^ 24 →
        list.bytes = before ++ entries.flatten → entries.flatten.length < fuel →
        readVarbinds list fuel before.length = .ok (sent.map Sent.received) := by
  induction sent with
  | nil =>
    refine ⟨[], rfl, rfl, rfl, fun list before fuel _ h hfuel => ?_⟩
    obtain ⟨fuel, rfl⟩ := Nat.exists_eq_add_one_of_ne_zero hfuel.ne_bot
    have hlength : list.length = before.length := by
      rw [Buffer.length, h]
      simp
    rw [readVarbinds, if_neg (by omega)]
    rfl
  | cons first sent ih =>
    obtain ⟨entries, hentries, hcount, hsum, hreads⟩ := ih
    obtain ⟨entry, hentry, hpos, hentrySize, hread⟩ := first.encodes
    refine ⟨entry :: entries, ?_, ?_, ?_, fun list before fuel hsize h hfuel => ?_⟩
    · rw [List.map_cons, List.mapM_cons, hentry, hentries]
      rfl
    · rw [List.length_cons, List.length_cons, hcount]
    · rw [List.flatten_cons, List.length_append, hentrySize, hsum, List.map_cons, List.sum_cons]
    · rw [List.flatten_cons, List.length_append] at hsize hfuel
      rw [List.flatten_cons] at h
      have hlength : list.length = before.length + (entry.length + entries.flatten.length) := by
        rw [Buffer.length, h, List.length_append, List.length_append]
      cases fuel with
      | zero => omega
      | succ fuel =>
        have hrest := hreads list (before ++ entry) fuel (by omega) (by rw [h, List.append_assoc])
          (by omega)
        rw [List.length_append] at hrest
        rw [readVarbinds, if_pos (by omega), hread list before _ (by omega) h]
        simp only [bind, Except.bind, hrest]
        rfl

def responseSize (requestId errorStatus : ℤ) (sent : List Sent) : ℕ :=
  elementSize (integerSize requestId) + elementSize (integerSize errorStatus) + elementSize 1 +
    elementSize (sent.map Sent.size).sum

/-- What a response is read as. -/
def RoundTrips (requestId errorStatus : ℤ) (sent : List Sent) (message : List UInt8) : Prop :=
  ∀ byteOffset, decodePdu ⟨byteOffset, message⟩ 0 =
    .ok ⟨tagGetResponse, requestId, errorStatus, 0, sent.map Sent.received⟩

/-- A response whose varbinds the engine can pass and whose content three bytes of length can tell
is read back. -/
theorem response_round_trip {argumentLimit : ℕ} {requestId errorStatus : ℤ} {sent : List Sent}
    (hid : IsInt32 requestId) (hstatus : IsInt32 errorStatus) (hcount : sent.length ≤ argumentLimit)
    (hsize : responseSize requestId errorStatus sent < 2 ^ 24) :
    ∃ message, encodeResponsePdu argumentLimit requestId errorStatus (sent.map Sent.varbind) =
        some message ∧ RoundTrips requestId errorStatus sent message := by
  obtain ⟨hidEncode, hidRead, -⟩ := encodeInteger_spec hid
  obtain ⟨hstatusEncode, hstatusRead, -⟩ := encodeInteger_spec hstatus
  obtain ⟨hindexEncode, hindexRead, -⟩ := encodeInteger_spec (v := 0) (by unfold IsInt32; omega)
  obtain ⟨entries, hentries, hentriesCount, hentriesSize, hread⟩ := readVarbinds_entries sent
  have hspread : encodeSpread argumentLimit entries = some (tlv tagSequence entries.flatten) :=
    if_neg (by omega)
  unfold responseSize elementSize at hsize
  rw [← hentriesSize, ← length_integerContent hid, ← length_integerContent hstatus] at hsize
  have hindexLength : (integerContent 0).length = 1 :=
    length_integerContent (by unfold IsInt32; omega)
  generalize hidContent : integerContent requestId = idContent at hidEncode hidRead hsize
  generalize hstatusContent : integerContent errorStatus = statusContent
    at hstatusEncode hstatusRead hsize
  generalize hindexContent : integerContent 0 = indexContent at hindexEncode hindexRead hindexLength
  generalize hcontent : tlv tagInteger idContent ++ (tlv tagInteger statusContent ++
    (tlv tagInteger indexContent ++ (tlv tagSequence entries.flatten ++ []))) = content
  refine ⟨tlv tagGetResponse content, ?_, fun byteOffset => ?_⟩
  · rw [encodeResponsePdu, hidEncode, hstatusEncode, hindexEncode, hentries, ← hcontent]
    simp only [bind, Option.bind, hspread]
    rfl
  · have hlength := congrArg List.length hcontent
    simp only [List.length_append, List.length_nil, length_tlv, hindexLength] at hlength
    have hlt : content.length < 2 ^ 24 := by omega
    rw [decodePdu, readTlv_head content [] (List.append_nil _).symm hlt]
    simp only [bind, Except.bind]
    rw [if_neg (by decide), expectTlv_head idContent _ hcontent.symm (by omega)]
    simp only
    rw [expectTlv_append (tlv tagInteger idContent) statusContent _ hcontent.symm rfl (by omega)]
    simp only
    rw [expectTlv_append (tlv tagInteger idContent ++ tlv tagInteger statusContent) indexContent
      (tlv tagSequence entries.flatten ++ []) (by simp [← hcontent]) (by simp) (by omega)]
    simp only
    rw [expectTlv_append (tlv tagInteger idContent ++ tlv tagInteger statusContent ++
      tlv tagInteger indexContent) entries.flatten [] (by simp [← hcontent])
      (by simp [Nat.add_assoc]) (by omega)]
    simp only
    have hentriesRead : ∀ offset, readVarbinds ⟨offset, entries.flatten⟩
        (entries.flatten.length + 1) 0 = .ok (sent.map Sent.received) :=
      fun offset => hread ⟨offset, entries.flatten⟩ [] _ (by omega) rfl (Nat.lt_succ_self _)
    simp only [Buffer.length, hentriesRead, hidRead, hstatusRead, hindexRead]

/-- Integers and object identifiers are read back from what they were encoded as, an integer in no
more bytes than it takes, and so is every response with a list that the engine can pass and a
content that three bytes of length can tell. -/
theorem values_round_trip :
    (∀ v, IsInt32 v → ∃ content, encodeInteger v = some (tlv tagInteger content) ∧
      (∀ byteOffset, readSignedInteger ⟨byteOffset, content⟩ = .ok v) ∧
      ∀ other : Buffer, readSignedInteger other = .ok v → content.length ≤ other.length) ∧
    (∀ oid : ObjectId, ∃ content, encodeOid oid.text = some (tlv tagOid content) ∧
      ∀ byteOffset, readOid ⟨byteOffset, content⟩ = .ok oid.text) ∧
    ∀ (argumentLimit : ℕ) (requestId errorStatus : ℤ) (sent : List Sent), IsInt32 requestId →
      IsInt32 errorStatus → sent.length ≤ argumentLimit →
      responseSize requestId errorStatus sent < 2 ^ 24 →
      ∃ message, encodeResponsePdu argumentLimit requestId errorStatus (sent.map Sent.varbind) =
        some message ∧ RoundTrips requestId errorStatus sent message := by
  refine ⟨fun v hv => ⟨_, encodeInteger_spec hv⟩, fun oid => ?_, ?_⟩
  · obtain ⟨content, hencode, -, hread⟩ := encodeOid_spec oid
    exact ⟨content, hencode, hread⟩
  · exact fun _ _ _ _ hid hstatus hcount hsize => response_round_trip hid hstatus hcount hsize

/-- The object `1.3.6.1.2.1.1.3.0`. -/
def sysUpTime : ObjectId where
  first := 1
  second := 3
  arcs := [6, 1, 2, 1, 1, 3, 0]
  first_le := by decide
  second_lt := by decide

def sampleSent : Sent where
  oid := sysUpTime
  value := [0x02, 0x02, 0x01, 0x2C]
  decoded := ⟨js "Integer", some (decimal 300), some 300, none⟩
  carries := .integer (v := 300) (by unfold IsInt32; decide) (by decide)

theorem sample_round_trip :
    (∃ content, encodeInteger (-129) = some (tlv tagInteger content) ∧
      (∀ byteOffset, readSignedInteger ⟨byteOffset, content⟩ = .ok (-129)) ∧
      ∀ other : Buffer, readSignedInteger other = .ok (-129) → content.length ≤ other.length) ∧
    (∃ content, encodeOid sysUpTime.text = some (tlv tagOid content) ∧
      ∀ byteOffset, readOid ⟨byteOffset, content⟩ = .ok sysUpTime.text) ∧
    ∃ message, encodeResponsePdu 2 7 0 ([sampleSent, sampleSent].map Sent.varbind) = some message ∧
      RoundTrips 7 0 [sampleSent, sampleSent] message := by
  have hsize : responseSize 7 0 [sampleSent, sampleSent] < 2 ^ 24 := by decide +kernel
  exact ⟨values_round_trip.1 _ (by unfold IsInt32; decide), values_round_trip.2.1 sysUpTime,
    values_round_trip.2.2 2 7 0 _ (by unfold IsInt32; decide) (by unfold IsInt32; decide) le_rfl hsize⟩

/-! ### Lists that are too long -/

/-- A text of so many letters, as it is written in UTF-8. -/
theorem utf8_letters (count : ℕ) :
    utf8 (encodeUtf16 (List.replicate count 'a')) = List.replicate count 0x61 := by
  rw [utf8, codePoints_encodeUtf16]
  induction count with
  | zero => rfl
  | succ count ih =>
    rw [List.replicate_succ, List.flatMap_cons, ih]
    rfl

def textSent (count : ℕ) : Sent where
  oid := ⟨0, 0, [], by decide, by decide⟩
  value := encodeOctetString (utf8 (encodeUtf16 (List.replicate count 'a')))
  decoded := ⟨js "OctetString", some (encodeUtf16 (List.replicate count 'a')), none, none⟩
  carries := by
    refine .octetString ⟨_, rfl⟩ (List.all_eq_true.mpr fun byte hbyte => ?_)
    rw [utf8_letters] at hbyte
    rw [List.eq_of_mem_replicate hbyte]
    rfl

theorem size_textSent (count : ℕ) :
    (textSent count).size = elementSize (elementSize 1 + elementSize count) := by
  have hoid : (textSent count).oid.size = 1 := by simp [textSent, ObjectId.size, ObjectId.numbers, arcSize]
  have hvalue : (textSent count).value.length = elementSize count := by
    show (tlv tagOctetString (utf8 _)).length = _
    rw [length_tlv, utf8_letters, List.length_replicate, elementSize]
  rw [Sent.size, hoid, hvalue]

/-- A response whose lengths say that it ends after the length of its list. -/
theorem decodePdu_truncated (rest : List UInt8) :
    decodePdu ⟨0, [] ++ 0xA2 :: 0x83 :: ([0x00, 0x00, 0x0E] ++ ([0x02, 0x01, 0x00, 0x02, 0x01, 0x00,
      0x02, 0x01, 0x00, 0x30, 0x83, 0x00, 0x00, 0x00] ++ rest))⟩ 0 =
      .ok ⟨tagGetResponse, 0, 0, 0, []⟩ := by
  have hpdu : readTlv ⟨0, [] ++ 0xA2 :: 0x83 :: ([0x00, 0x00, 0x0E] ++ ([0x02, 0x01, 0x00, 0x02,
      0x01, 0x00, 0x02, 0x01, 0x00, 0x30, 0x83, 0x00, 0x00, 0x00] ++ rest))⟩ 0 =
      .ok ⟨0xA2, ⟨5, [0x02, 0x01, 0x00, 0x02, 0x01, 0x00, 0x02, 0x01, 0x00, 0x30, 0x83, 0x00, 0x00,
        0x00]⟩, 19⟩ :=
    readTlv_long [] _ rest [0x00, 0x00, 0x0E] rfl (by decide) rfl (by decide) (by decide) rfl
  have hbytes : ([0x02, 0x01, 0x00, 0x02, 0x01, 0x00, 0x02, 0x01, 0x00, 0x30, 0x83, 0x00, 0x00, 0x00] :
      List UInt8) = tlv tagInteger [0x00] ++ (tlv tagInteger [0x00] ++ (tlv tagInteger [0x00] ++
        [0x30, 0x83, 0x00, 0x00, 0x00])) := rfl
  have hlist : ∀ offset, readTlv ⟨offset, tlv tagInteger [0x00] ++ (tlv tagInteger [0x00] ++
      (tlv tagInteger [0x00] ++ [0x30, 0x83, 0x00, 0x00, 0x00]))⟩ 9 =
        .ok ⟨tagSequence, ⟨offset + 14, []⟩, 14⟩ :=
    fun offset => readTlv_long [0x02, 0x01, 0x00, 0x02, 0x01, 0x00, 0x02, 0x01, 0x00] [] []
      [0x00, 0x00, 0x00] rfl (by decide) rfl (by decide) (by decide) rfl
  have hzero : ∀ offset, readSignedInteger ⟨offset, [0x00]⟩ = .ok 0 :=
    (encodeInteger_spec (v := 0) (by unfold IsInt32; decide)).2.1
  rw [decodePdu, hpdu, hbytes]
  simp only [bind, Except.bind]
  rw [if_neg (by decide), expectTlv_head [0x00] _ rfl (by decide)]
  simp only
  rw [expectTlv_append (tlv tagInteger [0x00]) [0x00] _ rfl rfl (by decide)]
  simp only
  rw [expectTlv_append (tlv tagInteger [0x00] ++ tlv tagInteger [0x00]) [0x00]
    [0x30, 0x83, 0x00, 0x00, 0x00] rfl (by rfl) (by decide)]
  simp only
  have hstop : (tlv tagInteger [0x00]).length + (tlv tagInteger [0x00]).length +
      (tlv tagInteger [0x00]).length = 9 := rfl
  rw [hstop, expectTlv, hlist]
  simp only [bind, Except.bind, hzero]
  rfl

/-- Two texts of 2 ^ 23 - 13 letters make a list of 2 ^ 24 bytes, whose length is written as zero;
the engine passes as few arguments as two in any case. -/
theorem oversized_list_is_lost :
    ¬∀ (requestId errorStatus : ℤ) (sent : List Sent), IsInt32 requestId → IsInt32 errorStatus →
      sent.length ≤ 65535 →
      ∃ message, encodeResponsePdu 65535 requestId errorStatus (sent.map Sent.varbind) =
        some message ∧ RoundTrips requestId errorStatus sent message := by
  intro h
  have hzero : IsInt32 0 := by
    unfold IsInt32
    decide
  obtain ⟨message, hencode, hread⟩ :=
    h 0 0 [textSent (2 ^ 23 - 13), textSent (2 ^ 23 - 13)] hzero hzero (by decide)
  obtain ⟨entries, hentries, hcount, hsum, -⟩ :=
    readVarbinds_entries [textSent (2 ^ 23 - 13), textSent (2 ^ 23 - 13)]
  have hsize : entries.flatten.length = 2 ^ 24 := by
    rw [hsum, List.map_cons, List.map_cons, List.map_nil, size_textSent]
    decide
  have hlist : encodeSpread 65535 entries =
      some ([0x30, 0x83, 0x00, 0x00, 0x00] ++ entries.flatten) := by
    rw [encodeSpread, hcount, if_neg (by decide), encodeSequence, tlv, hsize]
    rfl
  have hinteger : encodeInteger 0 = some [0x02, 0x01, 0x00] := by decide
  have hpdu : [[0x02, 0x01, 0x00], [0x02, 0x01, 0x00], [0x02, 0x01, 0x00],
      [0x30, 0x83, 0x00, 0x00, 0x00] ++ entries.flatten].flatten = [0x02, 0x01, 0x00, 0x02, 0x01,
        0x00, 0x02, 0x01, 0x00, 0x30, 0x83, 0x00, 0x00, 0x00] ++ entries.flatten := by
    simp
  have hmessage : message = [] ++ 0xA2 :: 0x83 :: ([0x00, 0x00, 0x0E] ++ ([0x02, 0x01, 0x00, 0x02,
      0x01, 0x00, 0x02, 0x01, 0x00, 0x30, 0x83, 0x00, 0x00, 0x00] ++ entries.flatten)) := by
    rw [encodeResponsePdu, hinteger, hentries] at hencode
    simp only [bind, Option.bind, hlist] at hencode
    rw [hpdu, tlv, List.length_append, hsize] at hencode
    exact (Option.some.inj hencode).symm
  have hlost := hread 0
  rw [hmessage, decodePdu_truncated] at hlost
  have hvarbinds := congrArg (fun pdu => pdu.varbinds.length) (Except.ok.inj hlost)
  simp only [List.length_map, List.length_cons, List.length_nil] at hvarbinds
  omega

end Vigil.Wire.SnmpValues
