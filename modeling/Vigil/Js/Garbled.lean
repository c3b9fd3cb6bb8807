import Vigil.Js.ByteLength
import Vigil.Js.Utf8
import Vigil.Lib.Blur

/-! A text that is decoded chunk by chunk.  A cut inside a character garbles it, but what is decoded
has the same ASCII at the same places: it looks like the bytes, whatever the cut was. -/

namespace Vigil.Js.Garbled

open Text ByteLength Utf8 Lib.Blur

/-- What of a unit cannot be garbled. -/
def viewUnit (c : UInt16) : Option UInt16 := if isAscii c then some c else none

def viewByte (byte : UInt8) : Option UInt16 := if byte < 0x80 then some byte.toUInt16 else none

/-- Some units that look like some bytes, wherever they stand, and are no more than these. -/
structure Mirrors (units : JsString) (bytes : List UInt8) : Prop where
  length_le : units.length ≤ bytes.length
  blur : ∀ hidden, blur viewUnit hidden units = blur viewByte hidden bytes
  hiddenAt : ∀ hidden, hiddenAt viewUnit hidden units = hiddenAt viewByte hidden bytes

theorem Mirrors.nil : Mirrors [] [] := ⟨Nat.le_refl _, fun _ => rfl, fun _ => rfl⟩

theorem Mirrors.append {units more : JsString} {bytes rest : List UInt8} (h : Mirrors units bytes)
    (hmore : Mirrors more rest) : Mirrors (units ++ more) (bytes ++ rest) where
  length_le := by
    rw [List.length_append, List.length_append]
    exact Nat.add_le_add h.length_le hmore.length_le
  blur hidden := by rw [blur_append, blur_append, h.blur, h.hiddenAt, hmore.blur]
  hiddenAt hidden := by rw [hiddenAt_append, hiddenAt_append, h.hiddenAt, hmore.hiddenAt]

theorem Mirrors.of_runs {units : JsString} {bytes : List UInt8} (h : Run viewUnit units)
    (h' : Run viewByte bytes) (hle : units.length ≤ bytes.length) : Mirrors units bytes where
  length_le := hle
  blur hidden := by rw [h.blur, h'.blur]
  hiddenAt hidden := by rw [h.hiddenAt, h'.hiddenAt]

theorem viewUnit_wide {c : UInt16} (h : 0x80 ≤ c.toNat) : viewUnit c = none := by
  apply if_neg
  rw [isAscii_iff]
  omega

variable {byte : UInt8}

theorem viewByte_wide (h : 0x80 ≤ byte.toNat) : viewByte byte = none := by
  apply if_neg
  rw [UInt8.lt_iff_toNat_lt]
  exact Nat.not_lt.mpr h

/-! ### One character -/

theorem run_encodeUnits {c : Char} (h : 0x80 ≤ c.toNat) : Run viewUnit (encodeUnits c) := by
  have hvalid : c.toNat < 0xD800 ∨ 0xDFFF < c.toNat ∧ c.toNat < 0x110000 := c.valid
  have hunit {n : ℕ} (hn : n < 2 ^ 16) (hwide : 0x80 ≤ n) : viewUnit n.toUInt16 = none := by
    apply viewUnit_wide
    rwa [UInt16.toNat_ofNat', Nat.mod_eq_of_lt hn]
  unfold encodeUnits
  split
  · exact .single (hunit (by omega) h)
  · exact .cons (hunit (by omega) (by omega)) (.single (hunit (by omega) (by omega)))

theorem run_utf8EncodeChar {c : Char} (h : 0x80 ≤ c.toNat) :
    Run viewByte (String.utf8EncodeChar c) := by
  have hbyte {n : ℕ} (hn : n < 256) (hwide : 0x80 ≤ n) : viewByte (UInt8.ofNat n) = none := by
    apply viewByte_wide
    rwa [UInt8.toNat_ofNat', Nat.mod_eq_of_lt hn]
  have hval : c.val.toNat = c.toNat := rfl
  unfold String.utf8EncodeChar
  dsimp only
  rw [hval]
  split_ifs with hone htwo hthree
  · exact absurd h (by omega)
  · exact .cons (hbyte (by omega) (by omega)) (.single (hbyte (by omega) (by omega)))
  · exact .cons (hbyte (by omega) (by omega)) (.cons (hbyte (by omega) (by omega))
      (.single (hbyte (by omega) (by omega))))
  · exact .cons (hbyte (by omega) (by omega)) (.cons (hbyte (by omega) (by omega))
      (.cons (hbyte (by omega) (by omega)) (.single (hbyte (by omega) (by omega)))))

theorem length_encodeUnits_le (c : Char) :
    (encodeUnits c).length ≤ (String.utf8EncodeChar c).length := by
  have hval : c.val.toNat = c.toNat := rfl
  unfold encodeUnits String.utf8EncodeChar
  dsimp only
  rw [hval]
  split_ifs with hunit hone htwo hthree
  · exact Nat.le_refl _
  · exact Nat.le_succ _
  · exact Nat.le_add_left _ _
  · exact Nat.le_add_left _ _
  all_goals simp only [List.length_cons, List.length_nil]
  all_goals omega

theorem mirrors_char (c : Char) : Mirrors (encodeUnits c) (String.utf8EncodeChar c) := by
  rcases Nat.lt_or_ge c.toNat 0x80 with hascii | hwide
  · have hunits : encodeUnits c = [c.toNat.toUInt16] := if_pos (by omega)
    have hbytes : String.utf8EncodeChar c = [c.toNat.toUInt8] := by
      unfold String.utf8EncodeChar
      exact if_pos (Nat.le_of_lt_succ hascii)
    have hview : viewUnit c.toNat.toUInt16 = viewByte c.toNat.toUInt8 := by
      have hunit : c.toNat.toUInt16.toNat = c.toNat := Nat.mod_eq_of_lt (by omega)
      have hbyte : c.toNat.toUInt8.toNat = c.toNat := Nat.mod_eq_of_lt (by omega)
      have hplain : isAscii c.toNat.toUInt16 = true := by rwa [isAscii_iff, hunit]
      have hsmall : c.toNat.toUInt8 < 0x80 := by rwa [UInt8.lt_iff_toNat_lt, hbyte]
      rw [viewUnit, viewByte, if_pos hplain, if_pos hsmall]
      congr 1
      apply UInt16.toNat_inj.mp
      rw [hunit, UInt8.toNat_toUInt16, hbyte]
    rw [hunits, hbytes]
    constructor
    · exact Nat.le_refl _
    · intro hidden
      simp only [Lib.Blur.blur, hview]
    · intro hidden
      simp only [Lib.Blur.hiddenAt, hview]
  · exact .of_runs (run_encodeUnits hwide) (run_utf8EncodeChar hwide) (length_encodeUnits_le c)

/-! ### A chunk -/

theorem ascii_decodes (h : byte.toNat < 0x80) (rest : List UInt8) :
    (byte :: rest).toByteArray.utf8DecodeChar? 0 ≠ none := by
  have hvalid : byte.toNat.isValidChar := .inl (by omega)
  have hvalue : (Char.ofNat byte.toNat).toNat = byte.toNat := toNat_ofNat_of hvalid
  have hbytes : String.utf8EncodeChar (Char.ofNat byte.toNat) = [byte] := by
    unfold String.utf8EncodeChar
    have hval : (Char.ofNat byte.toNat).val.toNat = byte.toNat := hvalue
    dsimp only
    rw [hval, if_pos (by omega), UInt8.ofNat_toNat]
  have hfound : (byte :: rest).toByteArray.utf8DecodeChar? 0 = some (Char.ofNat byte.toNat) := by
    have happend : byte :: rest = String.utf8EncodeChar (Char.ofNat byte.toNat) ++ rest := by
      rw [hbytes, List.singleton_append]
    rw [happend, List.toByteArray_append]
    exact ByteArray.utf8DecodeChar?_utf8EncodeChar_append
  rw [hfound]
  exact Option.some_ne_none _

theorem isSecond_wide {lead byte : UInt8} (h : isSecond lead byte = true) : 0x80 ≤ byte.toNat := by
  unfold isSecond isContinuation at h
  split_ifs at h <;> rw [Bool.and_eq_true, decide_eq_true_eq, UInt8.le_iff_toNat_le] at h
  · exact Nat.le_trans (by decide) h.1
  · exact h.1
  · exact Nat.le_trans (by decide) h.1
  · exact h.1
  · exact h.1

theorem run_invalid (hwide : 0x80 ≤ byte.toNat) (rest : List UInt8) :
    Run viewByte ((byte :: rest).take (invalidLength (byte :: rest))) := by
  have hlead : viewByte byte = none := viewByte_wide hwide
  unfold invalidLength
  split
  · rename_i lead second more heq
    obtain ⟨rfl, rfl⟩ := List.cons.inj heq
    split
    · rename_i hlong
      have hsecond : viewByte second = none :=
        viewByte_wide (isSecond_wide (Bool.and_eq_true_iff.mp hlong).2)
      split
      · rename_i third _
        split
        · rename_i hlonger
          have hthird : viewByte third = none := by
            have hlow := (Bool.and_eq_true_iff.mp (Bool.and_eq_true_iff.mp hlonger).2).1
            exact viewByte_wide (UInt8.le_iff_toNat_le.mp (of_decide_eq_true hlow))
          exact .cons hlead (.cons hsecond (.single hthird))
        · exact .cons hlead (.single hsecond)
      · exact .cons hlead (.single hsecond)
    · exact .single hlead
  · exact .single hlead

theorem invalidLength_pos (bytes : List UInt8) : 0 < invalidLength bytes := by
  unfold invalidLength
  split
  · split
    · split
      · split <;> exact Nat.succ_pos _
      · exact Nat.succ_pos _
    · exact Nat.succ_pos _
  · exact Nat.succ_pos _

theorem mirrors_decodeChars (fuel : ℕ) {bytes : List UInt8} (h : bytes.length ≤ fuel) :
    Mirrors (encodeUtf16 (decodeChars fuel bytes)) bytes := by
  induction fuel generalizing bytes with
  | zero =>
    rw [List.length_eq_zero_iff.mp (Nat.le_zero.mp h)]
    exact .nil
  | succ fuel ih =>
    cases bytes with
    | nil => exact .nil
    | cons byte rest =>
      rw [decodeChars]
      cases hfound : (byte :: rest).toByteArray.utf8DecodeChar? 0 with
      | some c =>
        have hsplit : byte :: rest =
            String.utf8EncodeChar c ++ (byte :: rest).drop c.utf8Size := by
          obtain ⟨l, hl⟩ := ByteArray.exists_of_utf8DecodeChar?_eq_some hfound
          have hlist : byte :: rest = String.utf8EncodeChar c ++ l.data.toList := by
            have hdata := congrArg (fun b : ByteArray => b.data.toList) hl
            rwa [List.toList_data_toByteArray, ByteArray.toList_data_append,
              List.toList_data_toByteArray] at hdata
          rw [hlist, List.drop_left' (String.length_utf8EncodeChar c)]
        have hsize := c.utf8Size_pos
        have hshort : ((byte :: rest).drop c.utf8Size).length ≤ fuel := by
          rw [List.length_drop]
          omega
        show Mirrors (encodeUnits c ++ encodeUtf16 _) _
        have hmirrors := (mirrors_char c).append (ih hshort)
        rwa [← hsplit] at hmirrors
      | none =>
        have hwide : 0x80 ≤ byte.toNat := by
          by_contra hascii
          exact ascii_decodes (Nat.not_le.mp hascii) rest hfound
        have hpos := invalidLength_pos (byte :: rest)
        have hshort : ((byte :: rest).drop (invalidLength (byte :: rest))).length ≤ fuel := by
          rw [List.length_drop]
          omega
        have hmark : Run viewUnit (encodeUnits '\uFFFD') := run_encodeUnits (by decide)
        have hone : (encodeUnits '\uFFFD').length ≤
            ((byte :: rest).take (invalidLength (byte :: rest))).length :=
          List.length_pos_of_ne_nil (run_invalid hwide rest).1
        have hmirrors := (Mirrors.of_runs hmark (run_invalid hwide rest) hone).append (ih hshort)
        rwa [List.take_append_drop] at hmirrors

theorem mirrors_decodeUtf8 (bytes : List UInt8) : Mirrors (decodeUtf8 bytes) bytes :=
  mirrors_decodeChars bytes.length (Nat.le_refl _)

/-- What is decoded chunk by chunk looks like the bytes of all chunks. -/
theorem mirrors_chunks (chunks : List (List UInt8)) :
    Mirrors (chunks.map decodeUtf8).flatten chunks.flatten := by
  induction chunks with
  | nil => exact .nil
  | cons chunk chunks ih => exact (mirrors_decodeUtf8 chunk).append ih

theorem alike_chunks {chunks chunks' : List (List UInt8)} (h : chunks.flatten = chunks'.flatten) :
    Alike viewUnit (chunks.map decodeUtf8).flatten (chunks'.map decodeUtf8).flatten := by
  unfold Alike
  rw [(mirrors_chunks chunks).blur, (mirrors_chunks chunks').blur, h]

/-! ### Texts that look the same -/

theorem viewUnit_eq_some_iff {c d : UInt16} :
    viewUnit c = some d ↔ c = d ∧ isAscii c = true := by
  unfold viewUnit
  split
  · rename_i hascii
    rw [Option.some.injEq, hascii]
    exact (and_iff_left rfl).symm
  · rename_i hwide
    exact ⟨nofun, fun h => absurd h.2 hwide⟩

theorem viewUnit_ascii {c : UInt16} (h : isAscii c = true) : viewUnit c = some c := if_pos h

/-- A text that begins with a unit of ASCII looks like those that begin with it. -/
theorem alike_cons {c : UInt16} {s t : JsString} (hc : isAscii c = true)
    (h : Alike viewUnit (c :: s) t) : ∃ u, t = c :: u ∧ Alike viewUnit s u := by
  obtain ⟨d, u, rfl, hd, hrest⟩ := h.clear_cons (viewUnit_ascii hc)
  obtain ⟨rfl, -⟩ := viewUnit_eq_some_iff.mp hd
  exact ⟨u, rfl, hrest⟩

theorem alike_append {s more t : JsString} (hs : s.all isAscii = true)
    (h : Alike viewUnit (s ++ more) t) : ∃ u, t = s ++ u ∧ Alike viewUnit more u := by
  induction s generalizing t with
  | nil => exact ⟨t, rfl, h⟩
  | cons c s ih =>
    rw [List.all_cons, Bool.and_eq_true] at hs
    obtain ⟨u, rfl, hrest⟩ := alike_cons hs.1 h
    obtain ⟨v, rfl, hmore⟩ := ih hs.2 hrest
    exact ⟨v, rfl, hmore⟩

theorem isPrefixOf_alike {p s t : JsString} (hp : p.all isAscii = true) (h : Alike viewUnit s t) :
    p.isPrefixOf s = p.isPrefixOf t := by
  have hone {s t : JsString} (h : Alike viewUnit s t) (hs : p.isPrefixOf s = true) :
      p.isPrefixOf t = true := by
    obtain ⟨more, rfl⟩ := List.isPrefixOf_iff_prefix.mp hs
    obtain ⟨u, rfl, -⟩ := alike_append hp h
    exact List.isPrefixOf_iff_prefix.mpr (List.prefix_append _ _)
  exact Bool.eq_iff_iff.mpr ⟨hone h, hone h.symm⟩

theorem eq_alike {p s t : JsString} (hp : p.all isAscii = true) (h : Alike viewUnit s t) :
    s = p ↔ t = p := by
  have hone {s t : JsString} (h : Alike viewUnit s t) (hs : s = p) : t = p := by
    have happend : Alike viewUnit (p ++ []) t := by
      rw [List.append_nil]
      exact hs ▸ h
    obtain ⟨u, rfl, hnil⟩ := alike_append hp happend
    rw [hnil.nil_left, List.append_nil]
  exact ⟨hone h, hone h.symm⟩

end Vigil.Js.Garbled
