import Vigil.Ledger.Canonical
import Mathlib.Data.List.Chain

/-! The per-actor hash chain of `ledger/chain.ts`: `factHash` and `verifyChain`, and what a chain
that verifies commits its writer to.  SHA-256 is a function from bytes to the hexadecimal digest. -/

namespace Vigil.Ledger.Chain

open Js.Text Lib.Bracketed Canonical

inductive FactKind where
  | observation
  | decision
  deriving DecidableEq, Repr

/-- The kind as it is hashed. -/
def FactKind.text : FactKind → JsString
  | .observation => js "observation"
  | .decision => js "decision"

/-- All of a fact but its hash. -/
structure FactInput where
  actorId : JsString
  seq : ℤ
  hlc : ℤ
  prevHash : Option JsString
  kind : FactKind
  subject : JsString
  specVersion : Option ℤ
  claim : JsValue

structure Fact extends FactInput where
  hash : JsString

def nullable {α : Type} (f : α → JsValue) (x : Option α) : JsValue := (x.map f).getD .null

def hashedObject (input : FactInput) : JsValue :=
  .object
    [(js "actorId", .string input.actorId),
      (js "seq", .string (decimal input.seq)),
      (js "hlc", .string (decimal input.hlc)),
      (js "prevHash", nullable .string input.prevHash),
      (js "kind", .string input.kind.text),
      (js "subject", .string input.subject),
      (js "specVersion", nullable (fun v => .number (.integer v)) input.specVersion),
      (js "claim", input.claim)]

def factHash (sha256 : List UInt8 → JsString) (input : FactInput) : JsString :=
  sha256 (utf8 (canonicalize (hashedObject input)))

inductive Verification where
  | valid
  | invalid (index : ℕ) (reason : String)
  deriving DecidableEq, Repr

/-- The loop of `verifyChain` over the facts still to come. -/
def verifyFrom (sha256 : List UInt8 → JsString) (expectedPrev : Option JsString)
    (expectedSeq previousHlc : Option ℤ) (index : ℕ) : List Fact → Verification
  | [] => .valid
  | fact :: rest =>
    if expectedPrev.any fun prev => fact.prevHash ≠ some prev then
      .invalid index "prev_hash does not match"
    else if expectedSeq.any fun seq => fact.seq ≠ seq then
      .invalid index "sequence is not contiguous"
    else if previousHlc.any fun hlc => fact.hlc ≤ hlc then
      .invalid index "clock did not advance"
    else if factHash sha256 fact.toFactInput ≠ fact.hash then
      .invalid index "content does not match its hash"
    else
      verifyFrom sha256 (some fact.hash) (some (fact.seq + 1)) (some fact.hlc) (index + 1) rest

def verifyChain (sha256 : List UInt8 → JsString) (facts : List Fact) : Verification :=
  verifyFrom sha256 none none none 0 facts

/-! ### What verifies -/

/-- `b` follows `a` in a chain. -/
structure Linked (a b : Fact) : Prop where
  prevHash : b.prevHash = some a.hash
  seq : b.seq = a.seq + 1
  hlc : a.hlc < b.hlc

/-- Every fact carries its own hash. -/
def Sealed (sha256 : List UInt8 → JsString) (facts : List Fact) : Prop :=
  ∀ fact ∈ facts, factHash sha256 fact.toFactInput = fact.hash

variable {sha256 : List UInt8 → JsString}

variable {rest : List Fact}

theorem sealed_cons {fact : Fact} : Sealed sha256 (fact :: rest) ↔
      factHash sha256 fact.toFactInput = fact.hash ∧ Sealed sha256 rest := by
  simp [Sealed]

theorem verifyFrom_cons_valid_iff {expectedPrev : Option JsString}
    {expectedSeq previousHlc : Option ℤ} {index : ℕ} {fact : Fact} :
    verifyFrom sha256 expectedPrev expectedSeq previousHlc index (fact :: rest) = .valid ↔
      (∀ prev ∈ expectedPrev, fact.prevHash = some prev) ∧ (∀ seq ∈ expectedSeq, fact.seq = seq) ∧
        (∀ hlc ∈ previousHlc, hlc < fact.hlc) ∧
        factHash sha256 fact.toFactInput = fact.hash ∧
        verifyFrom sha256 (some fact.hash) (some (fact.seq + 1)) (some fact.hlc) (index + 1) rest =
          .valid := by
  rw [verifyFrom]
  split_ifs with hprev hseq hhlc hhash
  · cases expectedPrev <;> simp_all
  · cases expectedSeq <;> simp_all
  · cases previousHlc <;> simp_all
  · simp_all
  · cases expectedPrev <;> cases expectedSeq <;> cases previousHlc <;> simp_all

theorem verifyFrom_valid_iff (prev : Fact) (facts : List Fact) (index : ℕ) :
    verifyFrom sha256 (some prev.hash) (some (prev.seq + 1)) (some prev.hlc) index facts = .valid ↔
      Sealed sha256 facts ∧ (prev :: facts).IsChain Linked := by
  induction facts generalizing prev index with
  | nil => simp [verifyFrom, Sealed]
  | cons fact rest ih =>
    rw [verifyFrom_cons_valid_iff, ih, List.isChain_cons_cons, sealed_cons]
    simp only [Option.mem_def, Option.some.injEq, forall_eq']
    constructor
    · rintro ⟨hprev, hseq, hhlc, hhash, hsealed, hchain⟩
      exact ⟨⟨hhash, hsealed⟩, ⟨hprev, hseq, hhlc⟩, hchain⟩
    · rintro ⟨⟨hhash, hsealed⟩, hlinked, hchain⟩
      exact ⟨hlinked.prevHash, hlinked.seq, hlinked.hlc, hhash, hsealed, hchain⟩

/-- A chain verifies exactly when its facts carry their own hashes and each follows the one before
it; where the chain begins is not asked. -/
theorem verifyChain_valid_iff (facts : List Fact) :
    verifyChain sha256 facts = .valid ↔ Sealed sha256 facts ∧ facts.IsChain Linked := by
  cases facts with
  | nil => simp [verifyChain, verifyFrom, Sealed]
  | cons fact rest =>
    rw [verifyChain, verifyFrom_cons_valid_iff, verifyFrom_valid_iff, sealed_cons]
    simp [and_assoc]

/-! ### What a hash commits to -/

def claimEntry : JsValue → List JsString
  | .undefined => []
  | claim => [entryText (js "claim") (canonicalize claim)]

def hashedEntries (input : FactInput) : List JsString :=
  entryText (js "actorId") (canonicalize (.string input.actorId)) :: (claimEntry input.claim ++
    [entryText (js "hlc") (canonicalize (.string (decimal input.hlc))),
      entryText (js "kind") (canonicalize (.string input.kind.text)),
      entryText (js "prevHash") (canonicalize (nullable .string input.prevHash)),
      entryText (js "seq") (canonicalize (.string (decimal input.seq))),
      entryText (js "specVersion")
        (canonicalize (nullable (fun v => .number (.integer v)) input.specVersion)),
      entryText (js "subject") (canonicalize (.string input.subject))])

theorem canonicalize_hashedObject (input : FactInput) :
    canonicalize (hashedObject input) =
      0x7B :: (joinComma (hashedEntries input) ++ [0x7D]) := by
  have hentries : ∀ {key : JsString} {value : JsValue} {rest : List (JsString × JsValue)},
      value ≠ .undefined → canonicalizeEntries ((key, value) :: rest) =
        (key, entryText key (canonicalize value)) :: canonicalizeEntries rest := by
    intro key value rest hvalue
    cases value <;> first | rfl | exact absurd rfl hvalue
  have hnullable : ∀ {α : Type} {f : α → JsValue}, (∀ a, f a ≠ .undefined) → ∀ x : Option α,
      nullable f x ≠ .undefined := by
    intro α f hf x
    cases x with
    | none => exact JsValue.noConfusion
    | some a => exact hf a
  rw [hashedObject, canonicalize, hentries (by simp), hentries (by simp), hentries (by simp),
    hentries (hnullable (by simp) _), hentries (by simp), hentries (by simp),
    hentries (hnullable (by simp) _)]
  rw [hashedEntries]
  cases input.claim with
  | undefined => rfl
  | _ =>
    rw [hentries (by simp)]
    rfl

/-- Two facts agree on everything that is hashed, the claim up to its canonical text. -/
structure SameContent (a b : FactInput) : Prop where
  actorId : a.actorId = b.actorId
  seq : a.seq = b.seq
  hlc : a.hlc = b.hlc
  prevHash : a.prevHash = b.prevHash
  kind : a.kind = b.kind
  subject : a.subject = b.subject
  specVersion : a.specVersion = b.specVersion
  claim : canonicalize a.claim = canonicalize b.claim

theorem entryText_inj {key value value' : JsString}
    (h : entryText key value = entryText key value') : value = value' := by
  have := List.append_cancel_left h
  exact (List.cons.inj this).2

theorem FactKind.text_inj {k l : FactKind} (h : jsonQuote k.text = jsonQuote l.text) : k = l := by
  have := jsonQuote_inj h
  cases k <;> cases l <;> first | rfl | exact absurd this (by decide)

theorem nullable_string_inj {x y : Option JsString}
    (h : canonicalize (nullable .string x) = canonicalize (nullable .string y)) : x = y := by
  have hnull : ∀ s, js "null" ≠ jsonQuote s := fun s h => absurd (List.cons.inj h).1 (by decide)
  cases x with
  | none =>
    cases y with
    | none => rfl
    | some s => exact absurd h (hnull s)
  | some s =>
    cases y with
    | none => exact absurd h.symm (hnull s)
    | some t => exact congrArg some (jsonQuote_inj h)

theorem nullable_number_inj {x y : Option ℤ}
    (h : canonicalize (nullable (fun v => .number (.integer v)) x) =
      canonicalize (nullable (fun v => .number (.integer v)) y)) : x = y := by
  have hnull : ∀ n, js "null" ≠ decimal n := by
    intro n h
    have hchars := congrArg codePoints h
    rw [js, decimal, codePoints_encodeUtf16, codePoints_encodeUtf16] at hchars
    have hn : 'n' ∈ decimalChars n := hchars ▸ (by decide)
    cases n with
    | ofNat n =>
      exact absurd (isDigit_of_mem_toDigits hn) (by decide)
    | negSucc n =>
      rcases List.mem_cons.mp hn with hn | hn
      · exact absurd hn (by decide)
      · exact absurd (isDigit_of_mem_toDigits hn) (by decide)
  cases x with
  | none =>
    cases y with
    | none => rfl
    | some n => exact absurd h (hnull n)
  | some m =>
    cases y with
    | none => exact absurd h.symm (hnull m)
    | some n => exact congrArg some (decimal_inj h)

theorem claimEntry_inj {v w : JsValue} (h : claimEntry v = claimEntry w) :
    canonicalize v = canonicalize w := by
  by_cases hv : v = .undefined
  · subst hv
    cases w with
    | undefined => rfl
    | _ => cases h
  · have hentry : claimEntry v = [entryText (js "claim") (canonicalize v)] := by
      cases v <;> first | rfl | exact absurd rfl hv
    cases w with
    | undefined =>
      rw [hentry] at h
      cases h
    | _ =>
      rw [hentry] at h
      exact entryText_inj (List.cons.inj h).1

theorem hashedEntries_spec (input : FactInput) :
    ∀ part ∈ hashedEntries input, part ≠ [] ∧ SelfContained jsonToken part := by
  have hentry : ∀ key value, entryText key (canonicalize value) ≠ [] ∧
      SelfContained jsonToken (entryText key (canonicalize value)) := fun key value =>
    ⟨List.cons_ne_nil _ _, ((canonicalize_spec value).entry key).selfContained⟩
  intro part hpart
  rcases List.mem_cons.mp hpart with rfl | hpart
  · exact hentry _ _
  rcases List.mem_append.mp hpart with hclaim | hpart
  · cases h : input.claim with
    | undefined =>
      rw [h] at hclaim
      cases hclaim
    | _ =>
      rw [h] at hclaim
      exact List.mem_singleton.mp hclaim ▸ hentry _ _
  · simp only [List.mem_cons, List.not_mem_nil, or_false] at hpart
    rcases hpart with rfl | rfl | rfl | rfl | rfl | rfl <;> exact hentry _ _

/-- No content can move from one field to another: the hashed text determines the fields. -/
theorem sameContent_of_entries {a b : FactInput} (h : hashedEntries a = hashedEntries b) :
    SameContent a b := by
  obtain ⟨hactor, hrest⟩ := List.cons.inj h
  obtain ⟨hclaim, hfields⟩ := List.append_inj' hrest rfl
  simp only [List.cons.injEq, and_true] at hfields
  obtain ⟨hhlc, hkind, hprev, hseq, hspec, hsubject⟩ := hfields
  exact
    { actorId := jsonQuote_inj (entryText_inj hactor)
      seq := decimal_inj (jsonQuote_inj (entryText_inj hseq))
      hlc := decimal_inj (jsonQuote_inj (entryText_inj hhlc))
      prevHash := nullable_string_inj (entryText_inj hprev)
      kind := FactKind.text_inj (entryText_inj hkind)
      subject := jsonQuote_inj (entryText_inj hsubject)
      specVersion := nullable_number_inj (entryText_inj hspec)
      claim := claimEntry_inj hclaim }

theorem sameContent_of_factHash (hinj : Function.Injective sha256) {a b : FactInput}
    (h : factHash sha256 a = factHash sha256 b) : SameContent a b := by
  have htext : canonicalize (hashedObject a) = canonicalize (hashedObject b) :=
    utf8_inj (canonicalize_spec _).wellFormed (canonicalize_spec _).wellFormed (hinj h)
  rw [canonicalize_hashedObject, canonicalize_hashedObject] at htext
  exact sameContent_of_entries (separated_inj rfl rfl (hashedEntries_spec a) (hashedEntries_spec b)
    (List.cons.inj htext).2)

/-! ### Tamper evidence -/

theorem Sealed.sameContent (hinj : Function.Injective sha256) {a b : Fact} {as bs : List Fact}
    (ha : Sealed sha256 as) (hb : Sealed sha256 bs) (hmem : a ∈ as) (hmem' : b ∈ bs)
    (h : a.hash = b.hash) : SameContent a.toFactInput b.toFactInput := by
  refine sameContent_of_factHash hinj ?_
  rw [ha a hmem, hb b hmem', h]

/-- Two chains of one length with one last hash agree from the end to the beginning. -/
theorem agree_of_last_hash (hinj : Function.Injective sha256) {facts facts' : List Fact}
    (hsealed : Sealed sha256 facts) (hsealed' : Sealed sha256 facts')
    (hchain : facts.IsChain Linked) (hchain' : facts'.IsChain Linked)
    (hlength : facts.length = facts'.length)
    (hlast : facts.getLast?.map (·.hash) = facts'.getLast?.map (·.hash)) :
    List.Forall₂ (fun a b => a.hash = b.hash ∧ SameContent a.toFactInput b.toFactInput)
      facts facts' := by
  induction facts generalizing facts' with
  | nil => simp [List.length_eq_zero_iff.mp hlength.symm]
  | cons a rest ih =>
    cases facts' with
    | nil => simp at hlength
    | cons b rest' =>
      have hsame : a.hash = b.hash →
          SameContent a.toFactInput b.toFactInput :=
        hsealed.sameContent hinj hsealed' List.mem_cons_self List.mem_cons_self
      cases rest with
      | nil =>
        obtain rfl : rest' = [] := by simpa using hlength.symm
        have hhash : a.hash = b.hash := by simpa using hlast
        exact .cons ⟨hhash, hsame hhash⟩ .nil
      | cons next rest =>
        cases rest' with
        | nil => simp at hlength
        | cons next' rest' =>
          obtain ⟨hlinked, hchain⟩ := List.isChain_cons_cons.mp hchain
          obtain ⟨hlinked', hchain'⟩ := List.isChain_cons_cons.mp hchain'
          have hrest := ih (sealed_cons.mp hsealed).2 (sealed_cons.mp hsealed').2 hchain hchain'
            (Nat.succ.inj hlength) (by simpa using hlast)
          -- the facts after these two agree, so they name one previous hash
          have hprev := (List.forall₂_cons.mp hrest).1.2.prevHash
          rw [hlinked.prevHash, hlinked'.prevHash, Option.some_inj] at hprev
          exact .cons ⟨hprev, hsame hprev⟩ hrest

/-- Cutting facts off the front of a chain leaves a chain. -/
theorem verified_drop {facts : List Fact} (n : ℕ) (hsealed : Sealed sha256 facts)
    (hchain : facts.IsChain Linked) :
    Sealed sha256 (facts.drop n) ∧ (facts.drop n).IsChain Linked :=
  ⟨fun fact h => hsealed fact (List.mem_of_mem_drop h), hchain.suffix (List.drop_suffix n facts)⟩

theorem seq_of_chain {a fact : Fact} (hchain : (a :: rest).IsChain Linked) {n : ℕ}
    (h : (a :: rest)[n]? = some fact) : fact.seq = a.seq + n := by
  induction rest generalizing a n with
  | nil =>
    cases n with
    | zero => simpa using congrArg (Option.map (·.seq)) h.symm
    | succ n => simp at h
  | cons next rest ih =>
    obtain ⟨hlinked, hchain⟩ := List.isChain_cons_cons.mp hchain
    cases n with
    | zero => simpa using congrArg (Option.map (·.seq)) h.symm
    | succ n =>
      have := ih hchain (by simpa using h)
      rw [this, hlinked.seq]
      omega

/-- A verified chain with the first sequence number and the last hash of another is as long. -/
theorem length_le_of_last_hash (hinj : Function.Injective sha256) {facts facts' : List Fact}
    (hsealed : Sealed sha256 facts) (hsealed' : Sealed sha256 facts')
    (hchain : facts.IsChain Linked) (hchain' : facts'.IsChain Linked)
    (hlast : facts.getLast?.map (·.hash) = facts'.getLast?.map (·.hash))
    (hfirst : facts.head?.map (·.seq) = facts'.head?.map (·.seq)) :
    facts.length ≤ facts'.length := by
  by_contra hlonger
  cases facts with
  | nil => simp at hlonger
  | cons a rest =>
    cases facts' with
    | nil => simp at hfirst
    | cons b rest' =>
      obtain ⟨n, hn⟩ : ∃ n, (a :: rest).length = (b :: rest').length + (n + 1) :=
        ⟨(a :: rest).length - (b :: rest').length - 1, by omega⟩
      obtain ⟨hdsealed, hdchain⟩ := verified_drop (n + 1) hsealed hchain
      -- the longer chain without its first facts agrees with the shorter one
      have hlength : ((a :: rest).drop (n + 1)).length = (b :: rest').length := by
        rw [List.length_drop]
        omega
      have hagree := agree_of_last_hash hinj hdsealed hsealed' hdchain hchain' hlength
        (by rw [List.getLast?_drop]; simpa [hn] using hlast)
      cases hdrop : (a :: rest).drop (n + 1) with
      | nil => simp [hdrop] at hagree
      | cons c more =>
        rw [hdrop] at hagree
        have hseq := (List.forall₂_cons.mp hagree).1.2.seq
        have hget : (a :: rest)[n + 1]? = some c := by
          rw [← List.head?_drop, hdrop, List.head?_cons]
        have hc := seq_of_chain hchain hget
        have hab : a.seq = b.seq := by simpa using hfirst
        push_cast at hc
        omega

/-- Two chains that verify and end in one hash: if they are of one length they agree fact by fact on
everything that is hashed; and if they begin at one sequence number they are of one length, so
that no fact between can be left out. -/
theorem verifyChain_tamper_evident (sha256 : List UInt8 → JsString)
    (hinj : Function.Injective sha256) (facts facts' : List Fact)
    (hvalid : verifyChain sha256 facts = .valid) (hvalid' : verifyChain sha256 facts' = .valid)
    (hlast : facts.getLast?.map (·.hash) = facts'.getLast?.map (·.hash)) :
    (facts.length = facts'.length →
      List.Forall₂ (fun a b => SameContent a.toFactInput b.toFactInput) facts facts') ∧
    (facts.head?.map (·.seq) = facts'.head?.map (·.seq) → facts.length = facts'.length) := by
  obtain ⟨hsealed, hchain⟩ := (verifyChain_valid_iff facts).mp hvalid
  obtain ⟨hsealed', hchain'⟩ := (verifyChain_valid_iff facts').mp hvalid'
  refine ⟨fun hlength => ?_, fun hfirst => le_antisymm ?_ ?_⟩
  · exact (agree_of_last_hash hinj hsealed hsealed' hchain hchain' hlength hlast).imp
      fun _ _ h => h.2
  · exact length_le_of_last_hash hinj hsealed hsealed' hchain hchain' hlast hfirst
  · exact length_le_of_last_hash hinj hsealed' hsealed hchain' hchain hlast.symm hfirst.symm

/-- Two spellings of one claim: the chains differ in the order of its keys and in nothing that is
hashed. -/
theorem verifyChain_tamper_evident_reordered_keys :
    let sha256 : List UInt8 → JsString := List.map fun b => b.toUInt16
    let input (claim : JsValue) : FactInput :=
      ⟨js "worker", 1, 65536, none, .observation, js "m1", some 3, claim⟩
    let fact (claim : JsValue) : Fact := ⟨input claim, factHash sha256 (input claim)⟩
    let ok : JsString × JsValue := (js "ok", .bool true)
    let verdict : JsString × JsValue := (js "verdict", .string (js "up"))
    List.Forall₂ (fun a b : Fact => SameContent a.toFactInput b.toFactInput)
      [fact (.object [ok, verdict])] [fact (.object [verdict, ok])] := by
  intro sha256 input fact ok verdict
  have hinj : Function.Injective sha256 :=
    List.map_injective_iff.mpr fun b c h => by
      have := congrArg UInt16.toNat h
      exact UInt8.toNat_inj.mp (by simpa using this)
  have hvalid : ∀ claim, verifyChain sha256 [fact claim] = .valid := fun claim =>
    (verifyChain_valid_iff _).mpr ⟨by simp [Sealed, fact], by simp⟩
  exact (verifyChain_tamper_evident sha256 hinj [fact (.object [ok, verdict])]
    [fact (.object [verdict, ok])] (hvalid _) (hvalid _) (by decide +kernel)).1 rfl

end Vigil.Ledger.Chain
