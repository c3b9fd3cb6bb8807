import Vigil.Net.AddressExact

/-! The class of an address does not depend on how the address is written.  An address that carries
an IPv4 address has the class of that one, and the ranges that no monitor may reach are never
classified as reachable. -/

namespace Vigil.Net.AddressClass

open Js.Text Address AddressText AddressExact

/-- An address, whatever its spelling. -/
inductive IpAddress where
  | v4 (octets : List ℕ)
  | v6 (groups : List ℕ)
  deriving DecidableEq, Repr

/-- A text of the address, without brackets and zone.  Texts with a dotted quad before the elision
are among them, as the parser accepts them. -/
def IpAddress.Text : IpAddress → JsString → Prop
  | .v4 octets, text => DottedQuad text octets
  | .v6 groups, text => Denotes text groups ∨ QuadBeforeElision text groups

/-- The host is the address in one of its renderings. -/
def IpAddress.Renders (address : IpAddress) (host : JsString) : Prop :=
  ∃ text, (Written host text ∨ ZoneInside host text) ∧ address.Text (toLowerCase text)

def IpAddress.classification : IpAddress → AddressClass
  | .v4 octets => classifyIPv4 octets
  | .v6 groups => classifyIPv6 groups

/-! ### Renderings -/

variable {address : IpAddress}

theorem IpAddress.Text.isTextUnit {text : JsString} (h : address.Text text) :
    ∀ c ∈ text, isTextUnit c = true := by
  cases address with
  | v4 octets => exact fun _ => DottedQuad.isTextUnit h
  | v6 groups =>
    rcases h with h | h
    · exact fun _ => h.isTextUnit
    · exact fun _ => h.isTextUnit

theorem parseAddress_eq (host : JsString) : parseAddress host =
    match parseIPv4 (normalizeHost host) with
    | some octets => some ⟨4, classifyIPv4 octets⟩
    | none => (parseIPv6 (normalizeHost host)).map fun hextets => ⟨6, classifyIPv6 hextets⟩ :=
  rfl

/-- The parser accepts exactly the texts of addresses, and answers with the class of the address. -/
theorem classifyAddress_eq_some_iff (host : JsString) (classification : AddressClass) :
    classifyAddress host = some classification ↔ ∃ address : IpAddress,
      address.Text (normalizeHost host) ∧ classification = address.classification := by
  rw [classifyAddress, parseAddress_eq]
  constructor
  · intro h
    cases hquad : parseIPv4 (normalizeHost host) with
    | some octets =>
      rw [hquad] at h
      exact ⟨.v4 octets, (parseIPv4_eq_some_iff _ _).mp hquad, (Option.some_inj.mp h).symm⟩
    | none =>
      rw [hquad, Option.map_map] at h
      obtain ⟨groups, hgroups, rfl⟩ := Option.map_eq_some_iff.mp h
      exact ⟨.v6 groups, (parseIPv6_eq_some_iff _ _).mp hgroups, rfl⟩
  · rintro ⟨address, htext, rfl⟩
    cases address with
    | v4 octets =>
      rw [(parseIPv4_eq_some_iff _ _).mpr htext]
      rfl
    | v6 groups =>
      have hparse : parseIPv6 (normalizeHost host) = some groups :=
        (parseIPv6_eq_some_iff _ _).mpr htext
      cases hquad : parseIPv4 (normalizeHost host) with
      | some octets =>
        rw [((parseIPv4_eq_some_iff _ _).mp hquad).parseIPv6_eq] at hparse
        simp at hparse
      | none =>
        rw [hparse]
        rfl

/-- Whatever the parser says of a rendering is the class of the address. -/
theorem IpAddress.Renders.classification_eq {host : JsString} (h : address.Renders host)
    {classification : AddressClass} (hclass : classifyAddress host = some classification) :
    classification = address.classification := by
  obtain ⟨text, hwritten | hinside, htext⟩ := h
  · have hhost := hwritten.normalizeHost_eq (unmarked_of_isTextUnit htext.isTextUnit)
    have := (classifyAddress_eq_some_iff host _).mpr ⟨address, hhost ▸ htext, rfl⟩
    rw [this] at hclass
    exact (Option.some_inj.mp hclass).symm
  · obtain ⟨address', htext', -⟩ := (classifyAddress_eq_some_iff host _).mp hclass
    exact absurd htext'.isTextUnit (hinside.not_isTextUnit htext.isTextUnit)

/-! ### Addresses that carry an IPv4 address -/

/-- The groups of an IPv6 address that carries an IPv4 address. -/
inductive Carries : List ℕ → List ℕ → Prop
  | mapped (a b c d : ℕ) : Carries [a, b, c, d] [0, 0, 0, 0, 0, 0xffff, a * 256 + b, c * 256 + d]
  | compatible (a b c d : ℕ) : Carries [a, b, c, d] [0, 0, 0, 0, 0, 0, a * 256 + b, c * 256 + d]
  | translated (a b c d : ℕ) :
    Carries [a, b, c, d] [0, 0, 0, 0, 0xffff, 0, a * 256 + b, c * 256 + d]
  | nat64 (a b c d : ℕ) :
    Carries [a, b, c, d] [0x64, 0xff9b, 0, 0, 0, 0, a * 256 + b, c * 256 + d]
  | sixToFour (a b c d s t u v w : ℕ) :
    Carries [a, b, c, d] [0x2002, a * 256 + b, c * 256 + d, s, t, u, v, w]

theorem splitHextet_eq {a b : ℕ} (hb : b ≤ 255) : splitHextet (a * 256 + b) = [a, b] := by
  have hhigh : (a * 256 + b) >>> 8 = a := by
    rw [Nat.shiftRight_eq_div_pow]
    omega
  have hlow : (a * 256 + b) &&& 0xff = b := by
    rw [show 0xff = 2 ^ 8 - 1 by rfl, Nat.and_two_pow_sub_one_eq_mod]
    omega
  rw [splitHextet, hhigh, hlow]

theorem classifyIPv6_compatible {octets : List ℕ} {high low : ℕ}
    (h : embeddedIPv4 [0, 0, 0, 0, 0, 0, high, low] = some octets)
    (hunspecified : [0, 0, 0, 0, 0, 0, high, low] ≠ [0, 0, 0, 0, 0, 0, 0, 0])
    (hloopback : [0, 0, 0, 0, 0, 0, high, low] ≠ [0, 0, 0, 0, 0, 0, 0, 1]) :
    classifyIPv6 [0, 0, 0, 0, 0, 0, high, low] = classifyIPv4 octets := by
  have hzeros : zeros [0, 0, 0, 0, 0, 0, high, low] 0 7 = false := by
    simpa [zeros] using hunspecified
  have hone : (zeros [0, 0, 0, 0, 0, 0, high, low] 0 6 && decide (low = 1)) = false := by
    simpa [zeros] using hloopback
  simp only [classifyIPv6, hzeros, Bool.false_eq_true, if_false]
  simp only [List.getD_cons_succ, List.getD_cons_zero, hone, Bool.false_eq_true, if_false, h]

theorem Carries.classifyIPv6_eq {octets groups : List ℕ} (h : Carries octets groups)
    (hbound : ∀ octet ∈ octets, octet ≤ 255) (hunspecified : groups ≠ [0, 0, 0, 0, 0, 0, 0, 0])
    (hloopback : groups ≠ [0, 0, 0, 0, 0, 0, 0, 1]) :
    classifyIPv6 groups = classifyIPv4 octets := by
  have hsplit : ∀ x, ∀ y ∈ octets, splitHextet (x * 256 + y) = [x, y] :=
    fun x y hy => splitHextet_eq (hbound y hy)
  cases h with
  | mapped a b c d => simp [classifyIPv6, embeddedIPv4, zeros, hsplit]
  | compatible a b c d =>
    have hembedded : embeddedIPv4 [0, 0, 0, 0, 0, 0, a * 256 + b, c * 256 + d] =
        some [a, b, c, d] := by
      simp [embeddedIPv4, zeros, hsplit]
    exact classifyIPv6_compatible hembedded hunspecified hloopback
  | translated a b c d => simp [classifyIPv6, embeddedIPv4, zeros, hsplit]
  | nat64 a b c d => simp [classifyIPv6, embeddedIPv4, zeros, hsplit]
  | sixToFour a b c d s t u v w => simp [classifyIPv6, embeddedIPv4, zeros, hsplit]

/-! ### Addresses that are never reachable -/

/-- The address is in one of the ranges that are link-local, multicast, for documentation, for
Teredo or to be discarded, or it is a metadata address. -/
inductive Guarded : IpAddress → Prop
  | linkLocal {g : ℕ} (rest : List ℕ) (h : 0xfe80 ≤ g ∧ g ≤ 0xfebf) : Guarded (.v6 (g :: rest))
  | multicast {g : ℕ} (rest : List ℕ) (h : 0xff00 ≤ g ∧ g ≤ 0xffff) : Guarded (.v6 (g :: rest))
  | documentation (rest : List ℕ) : Guarded (.v6 (0x2001 :: 0x0db8 :: rest))
  | teredo (rest : List ℕ) : Guarded (.v6 (0x2001 :: 0 :: rest))
  | discard (rest : List ℕ) : Guarded (.v6 (0x0100 :: 0 :: 0 :: 0 :: rest))
  | metadata : Guarded (.v6 [0xfd00, 0x0ec2, 0, 0, 0, 0, 0, 0x0254])
  | linkLocal4 (c d : ℕ) : Guarded (.v4 [169, 254, c, d])
  | testNet1 (d : ℕ) : Guarded (.v4 [192, 0, 2, d])
  | testNet2 (d : ℕ) : Guarded (.v4 [198, 51, 100, d])
  | testNet3 (d : ℕ) : Guarded (.v4 [203, 0, 113, d])
  | metadata4 {octets : List ℕ} {text : JsString} (htext : text ∈ METADATA_IPV4)
    (h : DottedQuad text octets) : Guarded (.v4 octets)

theorem and_linkLocal {g : ℕ} (h : 0xfe80 ≤ g ∧ g ≤ 0xfebf) :
    g &&& 0xff00 ≠ 0xff00 ∧ g &&& 0xffc0 = 0xfe80 := by
  have hall : ∀ k < 64, (0xfe80 + k) &&& 0xff00 ≠ 0xff00 ∧ (0xfe80 + k) &&& 0xffc0 = 0xfe80 := by
    decide
  have := hall (g - 0xfe80) (by omega)
  rwa [Nat.add_sub_cancel' h.1] at this

theorem and_multicast {g : ℕ} (h : 0xff00 ≤ g ∧ g ≤ 0xffff) : g &&& 0xff00 = 0xff00 := by
  have hall : ∀ k < 256, (0xff00 + k) &&& 0xff00 = 0xff00 := by decide +kernel
  have := hall (g - 0xff00) (by omega)
  rwa [Nat.add_sub_cancel' h.1] at this

theorem classifyIPv4_linkLocal (c d : ℕ) :
    classifyIPv4 [169, 254, c, d] = .metadata ∨ classifyIPv4 [169, 254, c, d] = .linkLocal := by
  have h : classifyIPv4 [169, 254, c, d] =
      if METADATA_IPV4.contains (join [decimal 169, decimal 254, decimal c, decimal d] (js "."))
      then .metadata else .linkLocal := rfl
  rw [h]
  split
  · exact .inl rfl
  · exact .inr rfl

theorem parseIPv4_METADATA_IP : parseIPv4 METADATA_IP = some [169, 254, 169, 254] := by
  decide +kernel

theorem Guarded.classification_mem (h : Guarded address) :
    address.classification ∈ [AddressClass.reserved, .linkLocal, .metadata] := by
  cases h with
  | @linkLocal g rest h =>
    obtain ⟨hmulticast, hlinkLocal⟩ := and_linkLocal h
    have hne : g ≠ 0 ∧ g ≠ 0x64 ∧ g ≠ 0x2002 ∧ g ≠ 0x2001 ∧ g ≠ 0x0100 := by omega
    simp [IpAddress.classification, classifyIPv6, embeddedIPv4, zeros, hne, hmulticast, hlinkLocal]
  | @multicast g rest h =>
    have hmulticast := and_multicast h
    have hne : g ≠ 0 ∧ g ≠ 0x64 ∧ g ≠ 0x2002 ∧ g ≠ 0x2001 ∧ g ≠ 0x0100 := by omega
    simp [IpAddress.classification, classifyIPv6, embeddedIPv4, zeros, hne, hmulticast]
  | documentation rest => simp [IpAddress.classification, classifyIPv6, embeddedIPv4, zeros]
  | teredo rest => simp [IpAddress.classification, classifyIPv6, embeddedIPv4, zeros]
  | discard rest => simp [IpAddress.classification, classifyIPv6, embeddedIPv4, zeros]
  | metadata => decide
  | linkLocal4 c d =>
    rcases classifyIPv4_linkLocal c d with h | h
    · simp [IpAddress.classification, h]
    · simp [IpAddress.classification, h]
  | testNet1 d => simp [IpAddress.classification, classifyIPv4]
  | testNet2 d => simp [IpAddress.classification, classifyIPv4]
  | testNet3 d => simp [IpAddress.classification, classifyIPv4]
  | @metadata4 octets text htext h =>
    rw [← parseIPv4_eq_some_iff] at h
    rcases List.mem_cons.mp htext with rfl | htext
    · rw [parseIPv4_METADATA_IP, Option.some_inj] at h
      subst h
      decide +kernel
    · obtain rfl : text = js "169.254.170.2" := by simpa using htext
      rw [show parseIPv4 (js "169.254.170.2") = some [169, 254, 170, 2] by decide +kernel,
        Option.some_inj] at h
      subst h
      decide +kernel

/-! ### The class and the address -/

/-- The octets of an IPv4 address. -/
def IsIPv4 (octets : List ℕ) : Prop := octets.length = 4 ∧ ∀ octet ∈ octets, octet ≤ 255

theorem toLowerCase_of_isTextUnit {text : JsString} (h : ∀ c ∈ text, isTextUnit c = true) :
    toLowerCase text = text := by
  have hunit : ∀ c, isTextUnit c = true → toLowerCase [c] = [c] := by
    intro c hc
    have hbounds : c.toNat < 0x41 ∨ 0x61 ≤ c.toNat ∧ c.toNat ≤ 0x66 := by
      simp only [isTextUnit, isLowerHex, isDigit, colon, Bool.or_eq_true, Bool.and_eq_true,
        decide_eq_true_eq, UInt16.le_iff_toNat_le, ← UInt16.toNat_inj] at hc
      simp at hc
      omega
    have hdotted : c ≠ 0x0130 ∧ c ≠ 0x212A := by
      constructor <;> rintro rfl <;> simp at hbounds
    have hupper : ¬(0x41 ≤ c ∧ c ≤ 0x5A) := by
      simp only [UInt16.le_iff_toNat_le]
      simp
      omega
    simp [toLowerCase, lowerAscii, hdotted, hupper]
  induction text with
  | nil => rfl
  | cons c text ih =>
    have hcons : toLowerCase (c :: text) = toLowerCase [c] ++ toLowerCase text := by
      simp [toLowerCase]
    rw [hcons, hunit c (h c (by simp)), ih fun d hd => h d (by simp [hd])]
    rfl

theorem IsIPv4.classifyAddress_eq {octets : List ℕ} (h : IsIPv4 octets) :
    classifyAddress (join (octets.map fun n : ℕ => decimal n) (js ".")) =
      some (classifyIPv4 octets) := by
  have hquad : DottedQuad (join (octets.map fun n : ℕ => decimal n) (js ".")) octets :=
    ⟨h.1, h.2, rfl⟩
  have hlower := toLowerCase_of_isTextUnit fun _ => hquad.isTextUnit
  have hhost := (Written.bare _).normalizeHost_eq
    (unmarked_of_isTextUnit (hlower ▸ fun _ => hquad.isTextUnit))
  refine (classifyAddress_eq_some_iff _ _).mpr ⟨.v4 octets, ?_, rfl⟩
  rw [hhost, hlower]
  exact hquad

/-- Two renderings of an address have one class, an address that carries an IPv4 address has the
class of that one, and no address that is guarded is classified public, private or loopback. -/
theorem classifyAddress_depends_on_address :
    (∀ (address : IpAddress) (host host' : JsString) (classification classification' : AddressClass),
      address.Renders host → address.Renders host' →
      classifyAddress host = some classification → classifyAddress host' = some classification' →
      classification = classification') ∧
    (∀ octets groups, IsIPv4 octets → Carries octets groups →
      groups ≠ [0, 0, 0, 0, 0, 0, 0, 0] → groups ≠ [0, 0, 0, 0, 0, 0, 0, 1] →
      ∀ host classification, (IpAddress.v6 groups).Renders host →
        classifyAddress host = some classification →
        classifyAddress (join (octets.map fun n : ℕ => decimal n) (js ".")) =
          some classification) ∧
    ∀ address, Guarded address → ∀ host classification, address.Renders host →
      classifyAddress host = some classification →
      classification ∉ [AddressClass.public_, .private_, .loopback] := by
  refine ⟨?_, ?_, ?_⟩
  · intro address host host' classification classification' hhost hhost' h h'
    rw [hhost.classification_eq h, hhost'.classification_eq h']
  · intro octets groups hoctets hcarries hunspecified hloopback host classification hhost h
    rw [hhost.classification_eq h, hoctets.classifyAddress_eq]
    exact congrArg some (hcarries.classifyIPv6_eq hoctets.2 hunspecified hloopback).symm
  · intro address hguarded host classification hhost h
    rw [hhost.classification_eq h]
    have := hguarded.classification_mem
    generalize address.classification = c at this ⊢
    revert this
    cases c <;> decide

theorem classifyAddress_of_metadata :
    classifyAddress (join ([169, 254, 169, 254].map fun n : ℕ => decimal n) (js ".")) =
      some .metadata := by
  have hgroup : HexGroup (js "a9fe") 0xa9fe :=
    ⟨by decide, by decide, List.all_eq_true.mp (by decide), by decide⟩
  have hffff : HexGroup (js "ffff") 0xffff :=
    ⟨by decide, by decide, List.all_eq_true.mp (by decide), by decide⟩
  have hrenders : (IpAddress.v6 [0, 0, 0, 0, 0, 0xffff, 0xa9fe, 0xa9fe]).Renders
      (js "[::FFFF:A9FE:A9FE]%eth0") :=
    ⟨js "::FFFF:A9FE:A9FE", .inl (.bracketedZone (js "::FFFF:A9FE:A9FE") (js "eth0")),
      .inl (.elided .nil (.hex (.cons hffff (.cons hgroup (.cons hgroup .nil)))) (by simp))⟩
  exact classifyAddress_depends_on_address.2.1 [169, 254, 169, 254] _ ⟨rfl, by simp⟩
    (.mapped 169 254 169 254) (by simp) (by simp) _ _ hrenders (by decide +kernel)

end Vigil.Net.AddressClass
