import Vigil.Js.Base64
import Vigil.Js.Object
import Vigil.Js.Utf8
import Vigil.Ledger.JsonBytes
import Vigil.Lib.Entries
import Vigil.Lib.Run

/-! `notifications/secretbox.ts`: the envelopes that hold the secrets of a channel.  A migration left
some of them plain, and `sealPlainChannelSecrets` of `channel-service.ts` seals these while other
workers do the same and operators go on. -/

namespace Vigil.Notifications.Secretbox

open Js.Text Js.Utf8 Js.Base64 Js.Object
open Ledger.Canonical (JsValue)
open Ledger.JsonText Ledger.JsonBytes
open Lib

/-! ### Envelopes -/

abbrev SecretValues := List (JsString × JsString)

/-- Why an envelope does not open. -/
inductive SecretboxError where
  | unknownFormat
  | truncated
  | undecryptable
  | invalidJson
  | notAnObject
  deriving DecidableEq

/-- The text of the error. -/
def SecretboxError.message : SecretboxError → JsString
  | .unknownFormat => js "Stored channel secrets have an unknown format."
  | .truncated => js "Stored channel secrets are truncated."
  | .undecryptable =>
    js "Channel credentials cannot be decrypted. " ++
      js "If BETTER_AUTH_SECRET was rotated, re-enter this channel's credentials."
  | .invalidJson => js "Stored channel secrets are not valid JSON."
  | .notAnObject => js "Stored channel secrets are not an object."

def versionPrefix : JsString := js "enc1:"

def plainPrefix : JsString := js "plain:"

def ivLength : ℕ := 12

def tagLength : ℕ := 16

/-- `randomBytes(12)` -/
structure Iv where
  bytes : List UInt8
  length : bytes.length = ivLength

/-- `aes-256-gcm` -/
structure Cipher (Key : Type) where
  /-- The ciphertext and the tag of a plaintext. -/
  encrypt : Key → List UInt8 → List UInt8 → List UInt8 × List UInt8
  /-- The plaintext of an `iv`, a tag and a ciphertext; nothing where the tag does not fit. -/
  decrypt : Key → List UInt8 → List UInt8 → List UInt8 → Option (List UInt8)

structure Cipher.Sound {Key : Type} (cipher : Cipher Key) : Prop where
  opens : ∀ key iv text,
    cipher.decrypt key iv (cipher.encrypt key iv text).2 (cipher.encrypt key iv text).1 = some text
  tag : ∀ key iv text, (cipher.encrypt key iv text).2.length = tagLength
  length : ∀ key iv text, (cipher.encrypt key iv text).1.length = text.length

def isPlainEnvelope (envelope : JsString) : Bool := plainPrefix.isPrefixOf envelope

/-- The entries that `sealSecrets` writes. -/
def present (secrets : SecretValues) : SecretValues := secrets.filter fun entry => entry.2 ≠ []

def secretJson (secrets : SecretValues) : JsValue :=
  .object (secrets.map fun entry => (entry.1, .string entry.2))

def plaintextOf (secrets : SecretValues) : List UInt8 :=
  utf8 ((stringify (secretJson secrets)).getD [])

/-- A text that is written to `out.__proto__` is lost. -/
def assign (out : SecretValues) (key value : JsString) : SecretValues :=
  if key = protoKey then out else Entries.set key value out

def textOf : JsValue → Option JsString
  | .string text => some text
  | .undefined | .function | .null | .bool _ | .number _ | .array _ | .object _ => none

/-- One turn of the loop of `parseSecretJson`. -/
def keep (out : SecretValues) (entry : JsString × JsValue) : SecretValues :=
  match textOf entry.2 with
  | none => out
  | some text => if text = [] then out else assign out entry.1 text

def recordOf : JsValue → Option Entries
  | .object entries => some entries
  | .undefined | .function | .null | .bool _ | .number _ | .string _ | .array _ => none

def parseSecretJson (json : JsString) : Except SecretboxError SecretValues :=
  match parse json with
  | none => .error .invalidJson
  | some parsed =>
    match recordOf parsed with
    | none => .error .notAnObject
    | some entries => .ok (entries.foldl keep [])

section

variable {Key : Type} (cipher : Cipher Key) (key : Key)

/-- Nothing to keep is an empty envelope. -/
def sealSecrets (iv : Iv) (secrets : SecretValues) : JsString :=
  let entries := present secrets
  if entries = [] then []
  else
    let sealed := cipher.encrypt key iv.bytes (plaintextOf entries)
    versionPrefix ++ base64 (iv.bytes ++ sealed.2 ++ sealed.1)

def openSealed (raw : List UInt8) : Except SecretboxError SecretValues :=
  if raw.length ≤ ivLength + tagLength then .error .truncated
  else
    let iv := raw.take ivLength
    let tag := (raw.drop ivLength).take tagLength
    let ciphertext := raw.drop (ivLength + tagLength)
    match cipher.decrypt key iv tag ciphertext with
    | none => .error .undecryptable
    | some plaintext => parseSecretJson (decodeUtf8 plaintext)

def openSecrets (envelope : JsString) : Except SecretboxError SecretValues :=
  if envelope = [] then .ok []
  else if isPlainEnvelope envelope then parseSecretJson (envelope.drop plainPrefix.length)
  else if !versionPrefix.isPrefixOf envelope then .error .unknownFormat
  else openSealed cipher key (bufferFromBase64 (envelope.drop versionPrefix.length))

end

/-! ### What is read -/

/-- What comes back of secrets that were sealed. -/
def kept (secrets : SecretValues) : SecretValues :=
  (present secrets).filter fun entry => entry.1 ≠ protoKey

/-- Secrets as `parseSecretJson` makes them. -/
structure Readable (secrets : SecretValues) : Prop where
  keys : (secrets.map (·.1)).Nodup
  values : ∀ entry ∈ secrets, entry.2 ≠ []
  names : ∀ entry ∈ secrets, entry.1 ≠ protoKey

variable {secrets : SecretValues}

theorem Readable.kept (h : Readable secrets) : kept secrets = secrets := by
  have hvalues : present secrets = secrets :=
    List.filter_eq_self.mpr fun entry hentry => decide_eq_true (h.values entry hentry)
  unfold Secretbox.kept
  rw [hvalues]
  exact List.filter_eq_self.mpr fun entry hentry => decide_eq_true (h.names entry hentry)

theorem Readable.assign (h : Readable secrets) (key : JsString) {value : JsString}
    (hvalue : value ≠ []) : Readable (assign secrets key value) := by
  unfold Secretbox.assign
  split
  · exact h
  · rename_i hkey
    have hwritten {entry : JsString × JsString} (hentry : entry ∈ Entries.set key value secrets) :
        entry ∈ secrets ∨ entry = (key, value) := by
      unfold Entries.set at hentry
      split at hentry
      · obtain ⟨old, hold, rfl⟩ := List.mem_map.mp hentry
        split
        · exact .inr rfl
        · exact .inl hold
      · exact (List.mem_append.mp hentry).imp_right List.mem_singleton.mp
    constructor
    case keys => exact Entries.nodup_set h.keys key value
    case values =>
      intro entry hentry
      rcases hwritten hentry with hold | rfl
      · exact h.values entry hold
      · exact hvalue
    case names =>
      intro entry hentry
      rcases hwritten hentry with hold | rfl
      · exact h.names entry hold
      · exact hkey

theorem readable_foldl {entries : Entries} {out : SecretValues} (h : Readable out) :
    Readable (entries.foldl keep out) := by
  induction entries generalizing out with
  | nil => exact h
  | cons entry entries ih =>
    apply ih
    unfold keep
    split
    · exact h
    · split
      · exact h
      · exact h.assign _ (by assumption)

theorem readable_of_parse {json : JsString} (h : parseSecretJson json = .ok secrets) :
    Readable secrets := by
  unfold parseSecretJson at h
  split at h
  · cases h
  · split at h
    · cases h
    · cases h
      exact readable_foldl ⟨List.nodup_nil, by simp, by simp⟩

theorem readable_of_open {Key : Type} {cipher : Cipher Key} {key : Key} {envelope : JsString}
    (h : openSecrets cipher key envelope = .ok secrets) : Readable secrets := by
  unfold openSecrets at h
  split at h
  · cases h
    exact ⟨List.nodup_nil, by simp, by simp⟩
  · split at h
    · exact readable_of_parse h
    · split at h
      · cases h
      · unfold openSealed at h
        split at h
        · cases h
        · dsimp only at h
          split at h
          · cases h
          · exact readable_of_parse h

/-! ### Reading back -/

theorem plainEntries_secretJson (secrets : SecretValues) :
    PlainEntries (secrets.map fun entry => (entry.1, JsValue.string entry.2)) := by
  induction secrets with
  | nil => trivial
  | cons entry rest ih => exact ⟨trivial, ih⟩

theorem plain_secretJson (h : (secrets.map (·.1)).Nodup) : Plain (secretJson secrets) := by
  refine ⟨?_, plainEntries_secretJson secrets⟩
  rw [List.map_map]
  exact h

theorem foldl_keep {before secrets : SecretValues} (h : ((before ++ secrets).map (·.1)).Nodup) :
    (secrets.map fun entry => (entry.1, JsValue.string entry.2)).foldl keep before =
      before ++ kept secrets := by
  induction secrets generalizing before with
  | nil => simp [kept, present]
  | cons entry rest ih =>
    obtain ⟨name, value⟩ := entry
    have hrest : ((before ++ rest).map (·.1)).Nodup :=
      h.sublist (((List.sublist_cons_self _ rest).append_left before).map _)
    rw [List.map_cons, List.foldl_cons]
    by_cases hvalue : value = []
    · have hkeep : keep before (name, JsValue.string value) = before := if_pos hvalue
      have hkept : kept ((name, value) :: rest) = kept rest := by simp [kept, present, hvalue]
      rw [hkeep, hkept, ih hrest]
    · by_cases hname : name = protoKey
      · have hkeep : keep before (name, JsValue.string value) = before :=
          (if_neg hvalue).trans (if_pos hname)
        have hkept : kept ((name, value) :: rest) = kept rest := by simp [kept, present, hname]
        rw [hkeep, hkept, ih hrest]
      · have hnew : name ∉ before.map (·.1) := by
          rw [List.map_append] at h
          intro hmem
          exact (List.nodup_append.mp h).2.2 name hmem name (by simp) rfl
        have hkeep : keep before (name, JsValue.string value) = before ++ [(name, value)] :=
          ((if_neg hvalue).trans (if_neg hname)).trans (if_neg hnew)
        have hkept : kept ((name, value) :: rest) = (name, value) :: kept rest := by
          simp [kept, present, hvalue, hname]
        rw [hkeep, hkept, ih (by simpa using h), List.append_assoc]
        rfl

theorem parseSecretJson_stringify (h : (secrets.map (·.1)).Nodup) :
    parseSecretJson ((stringify (secretJson secrets)).getD []) = .ok (kept secrets) := by
  have hplain := plain_secretJson h
  have hparse : parse ((stringify (secretJson secrets)).getD []) = some (secretJson secrets) := by
    rw [stringify_of_plain _ hplain, Option.getD_some, parse_print hplain]
  have hfold : (secrets.map fun entry => (entry.1, JsValue.string entry.2)).foldl keep [] =
      [] ++ kept secrets := foldl_keep h
  rw [parseSecretJson, hparse]
  exact congrArg Except.ok hfold

theorem decodeUtf8_plaintextOf (secrets : SecretValues) :
    decodeUtf8 (plaintextOf secrets) = (stringify (secretJson secrets)).getD [] := by
  apply decodeUtf8_utf8
  exact wellFormed_stringify (secretJson secrets) _ rfl

theorem plaintextOf_ne_nil (secrets : SecretValues) : plaintextOf secrets ≠ [] := by
  intro hnil
  have hdecoded := decodeUtf8_plaintextOf secrets
  rw [hnil] at hdecoded
  cases hdecoded

theorem kept_present (secrets : SecretValues) : kept (present secrets) = kept secrets := by
  rw [kept, present, present, List.filter_filter]
  simp [kept, present]

section

variable {Key : Type} {cipher : Cipher Key} (key : Key) (iv : Iv)

variable {secrets : SecretValues}

/-- The bytes of an envelope fall apart where they were put together. -/
theorem openSealed_sealed (hsound : cipher.Sound) (h : (secrets.map (·.1)).Nodup) :
    openSealed cipher key
        (iv.bytes ++ (cipher.encrypt key iv.bytes (plaintextOf secrets)).2 ++
          (cipher.encrypt key iv.bytes (plaintextOf secrets)).1) = .ok (kept secrets) := by
  obtain ⟨ciphertext, tag, hsealed⟩ :
      ∃ c t, cipher.encrypt key iv.bytes (plaintextOf secrets) = (c, t) := ⟨_, _, rfl⟩
  have htag : tag.length = tagLength := by
    simpa [hsealed] using hsound.tag key iv.bytes (plaintextOf secrets)
  have hopens : cipher.decrypt key iv.bytes tag ciphertext = some (plaintextOf secrets) := by
    simpa [hsealed] using hsound.opens key iv.bytes (plaintextOf secrets)
  have hsome : 0 < ciphertext.length := by
    have hlength : ciphertext.length = (plaintextOf secrets).length := by
      simpa [hsealed] using hsound.length key iv.bytes (plaintextOf secrets)
    rw [hlength]
    exact List.length_pos_iff.mpr (plaintextOf_ne_nil secrets)
  have hiv : (iv.bytes ++ tag ++ ciphertext).take ivLength = iv.bytes := by
    rw [List.append_assoc, ← iv.length, List.take_left]
  have hmiddle : ((iv.bytes ++ tag ++ ciphertext).drop ivLength).take tagLength = tag := by
    rw [List.append_assoc, ← iv.length, List.drop_left, ← htag, List.take_left]
  have hend : (iv.bytes ++ tag ++ ciphertext).drop (ivLength + tagLength) = ciphertext := by
    rw [← iv.length, ← htag, ← List.length_append, List.drop_left]
  have hlong : ¬(iv.bytes ++ tag ++ ciphertext).length ≤ ivLength + tagLength := by
    rw [List.length_append, List.length_append, iv.length, htag]
    omega
  rw [hsealed, openSealed, if_neg hlong]
  dsimp only
  rw [hiv, hmiddle, hend, hopens]
  dsimp only
  rw [decodeUtf8_plaintextOf]
  exact parseSecretJson_stringify h

theorem isPlainEnvelope_sealed (body : JsString) :
    isPlainEnvelope (versionPrefix ++ body) = false := by
  have happ : versionPrefix ++ body = 0x65 :: (versionPrefix.tail ++ body) := rfl
  rw [happ]
  rfl

theorem isPlainEnvelope_sealSecrets (secrets : SecretValues) :
    isPlainEnvelope (sealSecrets cipher key iv secrets) = false := by
  unfold sealSecrets
  dsimp only
  split
  · rfl
  · exact isPlainEnvelope_sealed _

theorem open_sealSecrets (hsound : cipher.Sound) (h : (secrets.map (·.1)).Nodup) :
    openSecrets cipher key (sealSecrets cipher key iv secrets) = .ok (kept secrets) := by
  have hpresent : ((present secrets).map (·.1)).Nodup :=
    h.sublist (List.filter_sublist.map _)
  by_cases hnone : present secrets = []
  · rw [sealSecrets, if_pos hnone, openSecrets, if_pos rfl, kept, hnone, List.filter_nil]
  · have hprefix (body : JsString) : versionPrefix.isPrefixOf (versionPrefix ++ body) = true :=
      List.isPrefixOf_iff_prefix.mpr (List.prefix_append _ _)
    rw [sealSecrets, if_neg hnone]
    dsimp only
    have hnil (body : JsString) : versionPrefix ++ body ≠ [] :=
      List.append_ne_nil_of_left_ne_nil (by decide) body
    rw [openSecrets, if_neg (hnil _), isPlainEnvelope_sealed,
      if_neg Bool.false_ne_true, hprefix, if_neg (by simp), List.drop_left,
      bufferFromBase64_base64, openSealed_sealed key iv hsound hpresent, kept_present]

/-- Secrets that an envelope gave open again when they are sealed anew. -/
theorem open_reseal (hsound : cipher.Sound) {envelope : JsString}
    (h : openSecrets cipher key envelope = .ok secrets) :
    openSecrets cipher key (sealSecrets cipher key iv secrets) = .ok secrets := by
  have hreadable := readable_of_open h
  rw [open_sealSecrets key iv hsound hreadable.keys, hreadable.kept]

/-- A sealed envelope gives back the entries that have a value, in their order, and what it gives back
is given back again.  It is never taken for a plain one. -/
theorem sealed_secrets_come_back (hsound : cipher.Sound) (iv' : Iv) {secrets : SecretValues}
    (h : (secrets.map (·.1)).Nodup) :
    isPlainEnvelope (sealSecrets cipher key iv secrets) = false ∧
      openSecrets cipher key (sealSecrets cipher key iv secrets) =
        .ok (secrets.filter fun entry => entry.2 ≠ [] ∧ entry.1 ≠ protoKey) ∧
      openSecrets cipher key (sealSecrets cipher key iv'
          (secrets.filter fun entry => entry.2 ≠ [] ∧ entry.1 ≠ protoKey)) =
        .ok (secrets.filter fun entry => entry.2 ≠ [] ∧ entry.1 ≠ protoKey) := by
  have hkept : kept secrets = secrets.filter fun entry => entry.2 ≠ [] ∧ entry.1 ≠ protoKey := by
    rw [kept, present, List.filter_filter]
    simp [and_comm]
  have hopen := open_sealSecrets key iv hsound h
  rw [← hkept]
  exact ⟨isPlainEnvelope_sealSecrets key iv secrets, hopen, open_reseal key iv' hsound hopen⟩

end

/-! ### A sample -/

def sampleIv : Iv := ⟨[1, 2, 3, 4, 5, 6, 7, 8, 9, 10, 11, 12], rfl⟩

def sampleText : List UInt8 := utf8 (js "\x7b\"token\":\"x\"\x7d")

def sampleCiphertext : List UInt8 := [21, 161, 211, 250, 227, 88, 35, 209, 148, 187, 103, 2, 90]

def sampleTag : List UInt8 :=
  [252, 21, 233, 150, 197, 127, 230, 42, 43, 170, 206, 217, 60, 102, 58, 232]

/-- What the cipher makes of the sample under the key of a deployment. -/
def sampleCipher : Cipher Unit where
  encrypt _ iv text :=
    if iv = sampleIv.bytes ∧ text = sampleText then (sampleCiphertext, sampleTag)
    else (text, List.replicate 16 0)
  decrypt _ iv tag ciphertext :=
    if tag = List.replicate 16 0 then some ciphertext
    else if iv = sampleIv.bytes ∧ tag = sampleTag ∧ ciphertext = sampleCiphertext then
      some sampleText
    else none

theorem sampleCipher_sound : sampleCipher.Sound where
  opens key iv text := by
    cases key
    by_cases h : iv = sampleIv.bytes ∧ text = sampleText
    · obtain ⟨rfl, rfl⟩ := h
      decide
    · simp [sampleCipher, h]
  tag key iv text := by
    cases key
    by_cases h : iv = sampleIv.bytes ∧ text = sampleText
    · obtain ⟨rfl, rfl⟩ := h
      decide
    · simp [sampleCipher, h, tagLength]
  length key iv text := by
    cases key
    by_cases h : iv = sampleIv.bytes ∧ text = sampleText
    · obtain ⟨rfl, rfl⟩ := h
      decide
    · simp [sampleCipher, h]

/-- A token, and a field that was left empty. -/
theorem sample_secrets_come_back :
    sealSecrets sampleCipher () sampleIv [(js "token", js "x"), (js "secret", [])] =
        js "enc1:AQIDBAUGBwgJCgsM/BXplsV/5iorqs7ZPGY66BWh0/rjWCPRlLtnAlo=" ∧
      isPlainEnvelope (sealSecrets sampleCipher () sampleIv
        [(js "token", js "x"), (js "secret", [])]) = false ∧
      openSecrets sampleCipher () (sealSecrets sampleCipher () sampleIv
        [(js "token", js "x"), (js "secret", [])]) = .ok [(js "token", js "x")] := by
  have hkeys : ([(js "token", js "x"), (js "secret", [])].map (·.1)).Nodup := by decide
  have h := sealed_secrets_come_back () sampleIv sampleCipher_sound sampleIv hkeys
  exact ⟨by decide +kernel, h.1, h.2.1⟩

end Vigil.Notifications.Secretbox
