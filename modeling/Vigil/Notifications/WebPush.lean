import Vigil.Ledger.JsonBytes
import Vigil.Lib.TwosComplement

/-! `notifications/providers/webpush.ts`: the payload of a notification and the record it is encrypted
into. -/

namespace Vigil.Notifications.WebPush

open Js.Text Js.ByteLength Lib.TwosComplement Ledger.Canonical Ledger.JsonText Ledger.JsonBytes Lib.BigEndian

def recordSize : ℕ := 4096

/-- `MAX_PAYLOAD` -/
def maxPayload : ℕ := recordSize - 17 - 86

/-! ### The payload -/

/-- The severity of a message. -/
inductive MessageSeverity where
  | critical
  | warning
  | ok
  | info
  deriving DecidableEq, Repr

def MessageSeverity.text : MessageSeverity → JsString
  | .critical => js "critical"
  | .warning => js "warning"
  | .ok => js "ok"
  | .info => js "info"

/-- A message, as far as a push writes it. -/
structure ChannelMessage where
  title : JsString
  text : JsString
  url : Option JsString
  severity : MessageSeverity

/-- `truncate`, from `providers/types.ts`. -/
def truncate (value : JsString) (max : ℕ) : JsString :=
  if value.length ≤ max then value else value.take (max - 1) ++ [0x2026]

/-- `message.url ? { url: message.url } : {}` -/
def urlEntry : Option JsString → List (JsString × JsValue)
  | none => []
  | some url => if url = [] then [] else [(js "url", .string url)]

def fullPayload (message : ChannelMessage) : JsValue :=
  .object ([(js "title", .string (truncate message.title 200)),
    (js "body", .string (truncate (if message.text = [] then message.title else message.text) 1000))] ++
      urlEntry message.url ++ [(js "severity", .string message.severity.text)])

def titlePayload (message : ChannelMessage) : JsValue :=
  .object [(js "title", .string (truncate message.title 200)), (js "body", .string []),
    (js "severity", .string message.severity.text)]

/-- `JSON.stringify` of a value that has a text. -/
def jsonText (value : JsValue) : JsString := (stringify value).getD []

def webPushPayload (message : ChannelMessage) : JsString :=
  if byteLength (jsonText (fullPayload message)) ≤ maxPayload then jsonText (fullPayload message)
  else jsonText (titlePayload message)

/-! ### The record -/

/-- The primitives of `node:crypto` that are used: P-256, HKDF with SHA-256, and AES-128-GCM. -/
structure Crypto where
  /-- The public key of a private key. -/
  publicKey : List UInt8 → List UInt8
  computeSecret : List UInt8 → List UInt8 → List UInt8
  /-- `hkdfSync("sha256", ikm, salt, info, length)` -/
  hkdf : List UInt8 → List UInt8 → List UInt8 → ℕ → List UInt8
  /-- `cipher.update(plaintext)` and `cipher.final()` under a key and a nonce. -/
  encrypt : List UInt8 → List UInt8 → List UInt8 → List UInt8
  /-- `cipher.getAuthTag()` -/
  authTag : List UInt8 → List UInt8 → List UInt8 → List UInt8
  /-- What is decrypted from a ciphertext with its tag. -/
  decrypt : List UInt8 → List UInt8 → List UInt8 → List UInt8 → Option (List UInt8)

/-- What the primitives are documented to do: an uncompressed point has 65 bytes, both sides agree on
the secret, the cipher is a stream cipher with a tag of 16 bytes, and decryption undoes it. -/
structure Crypto.Lawful (crypto : Crypto) : Prop where
  publicKey_length : ∀ key, (crypto.publicKey key).length = 65
  agree : ∀ a b, crypto.computeSecret a (crypto.publicKey b) =
    crypto.computeSecret b (crypto.publicKey a)
  encrypt_length : ∀ key nonce plaintext, (crypto.encrypt key nonce plaintext).length = plaintext.length
  authTag_length : ∀ key nonce plaintext, (crypto.authTag key nonce plaintext).length = 16
  decrypt_encrypt : ∀ key nonce plaintext, crypto.decrypt key nonce
    (crypto.encrypt key nonce plaintext) (crypto.authTag key nonce plaintext) = some plaintext

/-- What is derived from a shared secret for one record. -/
structure RecordKeys where
  cek : List UInt8
  nonce : List UInt8

section Record

variable (crypto : Crypto)

/-- `Buffer.from(text + "\0", "utf8")` -/
def info (text : String) : List UInt8 := utf8 (js text) ++ [0x00]

def recordKeys (sharedSecret authSecret uaPublic asPublic salt : List UInt8) : RecordKeys :=
  let keyInfo := info "WebPush: info" ++ uaPublic ++ asPublic
  let ikm := crypto.hkdf sharedSecret authSecret keyInfo 32
  ⟨crypto.hkdf ikm salt (info "Content-Encoding: aes128gcm") 16,
    crypto.hkdf ikm salt (info "Content-Encoding: nonce") 12⟩

/-- A browser's subscription. -/
structure PushSubscription where
  endpoint : JsString
  p256dh : JsString
  auth : JsString

/-- The values that are else drawn at random. -/
structure Options where
  salt : Option (List UInt8) := none
  ephemeralPrivate : Option (List UInt8) := none

/-- `recordSize.writeUInt32BE(RECORD_SIZE, 0)` -/
def recordSizeBytes : List UInt8 :=
  [(recordSize / 2 ^ 24).toUInt8, (recordSize / 2 ^ 16).toUInt8, (recordSize / 2 ^ 8).toUInt8,
    recordSize.toUInt8]

/-- `encryptWebPush`, with the key that `generateKeys` and the salt that `randomBytes` would draw. -/
def encryptWebPush (fromB64url : JsString → List UInt8) (payload : JsString)
    (subscription : PushSubscription) (options : Options) (generatedKey randomSalt : List UInt8) :
    List UInt8 :=
  let uaPublic := fromB64url subscription.p256dh
  let authSecret := fromB64url subscription.auth
  let asPrivate := options.ephemeralPrivate.getD generatedKey
  let asPublic := crypto.publicKey asPrivate
  let sharedSecret := crypto.computeSecret asPrivate uaPublic
  let salt := options.salt.getD randomSalt
  let keys := recordKeys crypto sharedSecret authSecret uaPublic asPublic salt
  let plaintext := utf8 payload ++ [0x02]
  let ciphertext := crypto.encrypt keys.cek keys.nonce plaintext ++
    crypto.authTag keys.cek keys.nonce plaintext
  salt ++ recordSizeBytes ++ [asPublic.length.toUInt8] ++ asPublic ++ ciphertext

/-- What a browser with the private key and the secret of a subscription reads from a body: the salt,
the record size and the key at the offsets of the content coding, and the record behind them. -/
structure Record where
  salt : List UInt8
  size : ℕ
  keyLength : ℕ
  key : List UInt8
  sealed_ : List UInt8

def Record.ofBody (body : List UInt8) : Record :=
  let keyLength := (body.getD 20 0).toNat
  ⟨body.take 16, bigEndian ((body.drop 16).take 4), keyLength, (body.drop 21).take keyLength,
    body.drop (21 + keyLength)⟩

def Record.open_ (record : Record) (uaPrivate authSecret : List UInt8) : Option (List UInt8) :=
  let sharedSecret := crypto.computeSecret uaPrivate record.key
  let keys := recordKeys crypto sharedSecret authSecret (crypto.publicKey uaPrivate) record.key
    record.salt
  let length := record.sealed_.length - 16
  crypto.decrypt keys.cek keys.nonce (record.sealed_.take length) (record.sealed_.drop length)

end Record

/-! ### What the payload says and how long it is -/

theorem length_truncate {max : ℕ} (hpos : 0 < max) (value : JsString) :
    (truncate value max).length ≤ max := by
  unfold truncate
  split
  · assumption
  · rw [List.length_append, List.length_take, List.length_singleton]
    omega

/-- The notification that a payload shows. -/
def Shows (message : ChannelMessage) (payload : JsValue) : Prop :=
  ∃ entries : List (JsString × JsValue), payload = .object entries ∧
    entries.lookup (js "title") = some (.string (truncate message.title 200)) ∧
    entries.lookup (js "severity") = some (.string message.severity.text)

theorem parse_jsonText {value : JsValue} (h : Plain value) : parse (jsonText value) = some value := by
  rw [jsonText, stringify_of_plain value h]
  exact parse_print h

theorem urlEntry_cases (url : Option JsString) :
    urlEntry url = [] ∨ ∃ text, urlEntry url = [(js "url", .string text)] := by
  cases url with
  | none => exact .inl rfl
  | some text =>
    by_cases hnil : text = []
    · exact .inl (if_pos hnil)
    · exact .inr ⟨text, if_neg hnil⟩

variable (message : ChannelMessage)

theorem parse_fullPayload :
    parse (jsonText (fullPayload message)) = some (fullPayload message) := by
  have hkeys : ([js "title", js "body", js "severity"] : List JsString).Nodup := by decide
  have hkeysUrl : ([js "title", js "body", js "url", js "severity"] : List JsString).Nodup := by
    decide
  unfold fullPayload
  generalize (if message.text = [] then message.title else message.text) = body
  rcases urlEntry_cases message.url with hurl | ⟨url, hurl⟩
  · have hplain : Plain (.object [(js "title", .string (truncate message.title 200)),
        (js "body", .string (truncate body 1000)),
        (js "severity", .string message.severity.text)]) :=
      ⟨hkeys, trivial, trivial, trivial, trivial⟩
    rw [hurl]
    exact parse_jsonText hplain
  · have hplain : Plain (.object [(js "title", .string (truncate message.title 200)),
        (js "body", .string (truncate body 1000)), (js "url", .string url),
        (js "severity", .string message.severity.text)]) :=
      ⟨hkeysUrl, trivial, trivial, trivial, trivial, trivial⟩
    rw [hurl]
    exact parse_jsonText hplain

theorem parse_titlePayload :
    parse (jsonText (titlePayload message)) = some (titlePayload message) := by
  have hkeys : ([js "title", js "body", js "severity"] : List JsString).Nodup := by decide
  have hplain : Plain (titlePayload message) := ⟨hkeys, trivial, trivial, trivial, trivial⟩
  exact parse_jsonText hplain

theorem shows_fullPayload : Shows message (fullPayload message) := by
  refine ⟨_, rfl, rfl, ?_⟩
  rcases urlEntry_cases message.url with hurl | ⟨url, hurl⟩ <;> rw [hurl] <;> rfl

theorem shows_titlePayload : Shows message (titlePayload message) :=
  ⟨_, rfl, rfl, rfl⟩

/-- A title of 200 units takes 1200 bytes at most, so the payload without a body always fits. -/
theorem titlePayload_fits : byteLength (jsonText (titlePayload message)) ≤ maxPayload := by
  have htitle := (byteLength_quoteBody (truncate message.title 200)).2
  have hlength := length_truncate (by decide : 0 < 200) message.title
  have hseverity : byteLength (jsonQuote message.severity.text) ≤ 10 := by
    cases message.severity <;> decide
  have hkeys : byteLength (jsonQuote (js "title")) = 7 ∧ byteLength (jsonQuote (js "body")) = 6 ∧
      byteLength (jsonQuote (js "severity")) = 10 ∧ byteLength (jsonQuote []) = 2 := by
    decide
  have hbytes : byteLength (jsonText (titlePayload message)) = 1 + max 1 (entriesCost
      [(js "title", .string (truncate message.title 200)), (js "body", .string []),
        (js "severity", .string message.severity.text)]) := bytes_object _
  have hmax : maxPayload = 3993 := rfl
  rw [hbytes, entriesCost_cons, entriesCost_cons, entriesCost_cons, entryCost_string,
    entryCost_string, entryCost_string, byteLength_jsonQuote (truncate message.title 200)]
  have hnil : entriesCost [] = 0 := rfl
  omega

theorem webPushPayload_spec :
    (∃ payload, parse (webPushPayload message) = some payload ∧ Shows message payload) ∧
      byteLength (webPushPayload message) ≤ maxPayload := by
  unfold webPushPayload
  split
  · rename_i hfits
    exact ⟨⟨_, parse_fullPayload message, shows_fullPayload message⟩, hfits⟩
  · exact ⟨⟨_, parse_titlePayload message, shows_titlePayload message⟩, titlePayload_fits message⟩

/-! ### What the record is -/

section Encryption

variable {crypto : Crypto} (h : crypto.Lawful) (fromB64url : JsString → List UInt8)
  (payload : JsString) (subscription : PushSubscription) (options : Options)
  (generatedKey randomSalt : List UInt8)

/-- The parts that a body is put together from are the parts that are read from it. -/
theorem Record.ofBody_append {salt key : List UInt8} (hsalt : salt.length = 16)
    (hkey : key.length = 65) (sealed_ : List UInt8) :
    Record.ofBody (salt ++ (recordSizeBytes ++ (key.length.toUInt8 :: (key ++ sealed_)))) =
      ⟨salt, recordSize, 65, key, sealed_⟩ := by
  have hsize : (recordSizeBytes ++ (key.length.toUInt8 :: (key ++ sealed_))).take 4 =
      recordSizeBytes := rfl
  have hsizeValue : bigEndian recordSizeBytes = recordSize := by decide
  have hlengthByte : (salt ++ (recordSizeBytes ++ (key.length.toUInt8 :: (key ++ sealed_)))).getD 20 0 =
      key.length.toUInt8 := by
    rw [List.getD_eq_getElem?_getD, List.getElem?_append_right (by omega), hsalt]
    rfl
  have hlength : key.length.toUInt8.toNat = 65 := by
    rw [hkey]
    rfl
  have hkeyStart : (salt ++ (recordSizeBytes ++ (key.length.toUInt8 :: (key ++ sealed_)))).drop 21 =
      key ++ sealed_ := by
    rw [List.drop_append, hsalt, List.drop_of_length_le (by omega)]
    rfl
  have hsealed : (salt ++ (recordSizeBytes ++ (key.length.toUInt8 :: (key ++ sealed_)))).drop
      (21 + 65) = sealed_ := by
    rw [← List.drop_drop, hkeyStart, ← hkey, List.drop_left]
  unfold Record.ofBody
  rw [hlengthByte, hlength]
  simp only [hkeyStart, hsealed]
  rw [← hsalt, List.take_left, List.drop_left, hsize, hsizeValue, ← hkey, List.take_left]

include h in
/-- The body has the content-coding header of 86 bytes, and a browser that holds the private key of
the subscription reads the payload with its delimiter from the rest. -/
theorem encryptWebPush_spec (hsalt : (options.salt.getD randomSalt).length = 16)
    {body : List UInt8} (hbody : body = encryptWebPush crypto fromB64url payload subscription options
      generatedKey randomSalt) :
    body.length = byteLength payload + 103 ∧
      (Record.ofBody body).salt = options.salt.getD randomSalt ∧
      (Record.ofBody body).size = recordSize ∧ (Record.ofBody body).keyLength = 65 ∧
      (Record.ofBody body).key = crypto.publicKey (options.ephemeralPrivate.getD generatedKey) ∧
      ∀ uaPrivate, fromB64url subscription.p256dh = crypto.publicKey uaPrivate →
        (Record.ofBody body).open_ crypto uaPrivate (fromB64url subscription.auth) =
          some (utf8 payload ++ [0x02]) := by
  have hpublic := h.publicKey_length (options.ephemeralPrivate.getD generatedKey)
  have hagree := h.agree (options.ephemeralPrivate.getD generatedKey)
  simp only [encryptWebPush, List.append_assoc, List.cons_append, List.nil_append] at hbody
  generalize options.salt.getD randomSalt = salt at hbody hsalt ⊢
  generalize crypto.publicKey (options.ephemeralPrivate.getD generatedKey) = asPublic
    at hbody hpublic hagree ⊢
  generalize hkeys : recordKeys crypto (crypto.computeSecret
    (options.ephemeralPrivate.getD generatedKey) (fromB64url subscription.p256dh))
      (fromB64url subscription.auth) (fromB64url subscription.p256dh) asPublic salt = keys at hbody
  have htag := h.authTag_length keys.cek keys.nonce (utf8 payload ++ [0x02])
  have hcipher := h.encrypt_length keys.cek keys.nonce (utf8 payload ++ [0x02])
  have hopen := h.decrypt_encrypt keys.cek keys.nonce (utf8 payload ++ [0x02])
  generalize crypto.authTag keys.cek keys.nonce (utf8 payload ++ [0x02]) = tag at hbody htag hopen
  generalize crypto.encrypt keys.cek keys.nonce (utf8 payload ++ [0x02]) = ciphertext
    at hbody hcipher hopen
  have hrecord := Record.ofBody_append hsalt hpublic (ciphertext ++ tag)
  rw [← hbody] at hrecord
  have hlength : (ciphertext ++ tag).length - 16 = ciphertext.length := by
    rw [List.length_append, htag, Nat.add_sub_cancel]
  refine ⟨?_, by rw [hrecord], by rw [hrecord], by rw [hrecord], by rw [hrecord],
    fun uaPrivate hsubscription => ?_⟩
  · rw [hbody]
    simp only [List.length_append, List.length_cons, hsalt, hpublic, htag, hcipher, List.length_nil]
    have hsize : recordSizeBytes.length = 4 := rfl
    unfold byteLength
    omega
  · rw [hsubscription, hagree] at hkeys
    rw [hrecord, Record.open_]
    simp only [hkeys, hlength, List.take_left, List.drop_left, hopen]

/-- The payload of every message is JSON that shows the message and fits; its record has 4096 bytes
at most, the header of the content coding, and the payload with its delimiter in it. -/
theorem web_push_fits (h : crypto.Lawful) (message : ChannelMessage)
    (hsalt : (options.salt.getD randomSalt).length = 16) {body : List UInt8}
    (hbody : body = encryptWebPush crypto fromB64url (webPushPayload message) subscription options
      generatedKey randomSalt) :
    (∃ payload, parse (webPushPayload message) = some payload ∧ Shows message payload) ∧
      byteLength (webPushPayload message) ≤ maxPayload ∧ body.length ≤ 4096 ∧
      (Record.ofBody body).salt = options.salt.getD randomSalt ∧ (Record.ofBody body).size = 4096 ∧
      (Record.ofBody body).keyLength = 65 ∧
      (Record.ofBody body).key = crypto.publicKey (options.ephemeralPrivate.getD generatedKey) ∧
      ∀ uaPrivate, fromB64url subscription.p256dh = crypto.publicKey uaPrivate →
        (Record.ofBody body).open_ crypto uaPrivate (fromB64url subscription.auth) =
          some (utf8 (webPushPayload message) ++ [0x02]) := by
  obtain ⟨hshows, hfits⟩ := webPushPayload_spec message
  obtain ⟨hlength, hheader⟩ := encryptWebPush_spec h fromB64url (webPushPayload message) subscription
    options generatedKey randomSalt hsalt hbody
  refine ⟨hshows, hfits, ?_, hheader⟩
  have hmax : maxPayload = 3993 := rfl
  omega

end Encryption

/-! ### A message that was encrypted with the primitives themselves -/

def samplePrivate : List UInt8 :=
  lowBytes 32 0xC9F58F89813E9F8E872E71F42AA64E1757C9254DCC62B72DDC010BB4043EA11C

def sampleUaPrivate : List UInt8 :=
  lowBytes 32 0xAB5757A70DD4A53E553A6BBF71FFEFEA2874EC07A6B379E3C48F895A02DC33DE

def samplePublic : List UInt8 :=
  lowBytes 33 0x04FE33F4AB0DEA71914DB55823F73B54948F41306D920732DBB9A59A5328648220 ++
    lowBytes 32 0x0E597A7B7BC260BA1C227998580992E93973002F3012A28AE8F06BBB78E5EC0F

def sampleUaPublic : List UInt8 :=
  lowBytes 33 0x042571B2BECDFDE360551AAF1ED0F4CD366C11CEBE555F89BCB7B186A533391731 ++
    lowBytes 32 0x68ECE2EBE018597BD30479B86E3C8F8ECED577CA59187E9246990DB682008B0E

/-- What AES-128-GCM adds to the plaintext under the key and the nonce of the sample. -/
def sampleKeystream : List UInt8 :=
  lowBytes 41 0xA5FFBB3562D29A1621BCD38E79DA253F9D0584D5DB356AA9E593187CE1DA902B94BF3E5843600EBA36

def mask (text : List UInt8) : List UInt8 :=
  text.mapIdx fun index byte => byte ^^^ sampleKeystream.getD index 0

/-- The primitives, as they answer for the message of the sample. -/
def sampleCrypto : Crypto where
  publicKey key := if key = samplePrivate then samplePublic else sampleUaPublic
  computeSecret _ _ :=
    lowBytes 32 0x932ACBD63208387133837B0CD995911C3441EB66000998614A592727AEF6912B
  hkdf _ _ _ length :=
    if length = 32 then
      lowBytes 32 0x4B895831BFCBD05C427AAD16843C7CD772A0498A94DBA90ECB359476C5D8CAB8
    else if length = 16 then lowBytes 16 0xA088555B4E0C45DCB65CDF4288A2F14E
    else lowBytes 12 0xE21FFDE6495727913FAA7A0D
  encrypt _ _ plaintext := mask plaintext
  authTag _ _ _ := lowBytes 16 0xAF13B86BFC5FA4D70B9039320DF8BA81
  decrypt _ _ ciphertext _ := some (mask ciphertext)

theorem mask_mask (text : List UInt8) : mask (mask text) = text := by
  rw [mask, mask, List.mapIdx_mapIdx]
  refine List.ext_getElem (by rw [List.length_mapIdx]) fun index h _ => ?_
  rw [List.getElem_mapIdx]
  show (text[index] ^^^ _) ^^^ _ = text[index]
  rw [UInt8.xor_assoc, UInt8.xor_self, UInt8.xor_zero]

theorem sampleCrypto_lawful : sampleCrypto.Lawful where
  publicKey_length key := by
    show (if key = samplePrivate then samplePublic else sampleUaPublic).length = 65
    split
    · rw [samplePublic, List.length_append, length_lowBytes, length_lowBytes]
    · rw [sampleUaPublic, List.length_append, length_lowBytes, length_lowBytes]
  agree _ _ := rfl
  encrypt_length _ _ _ := List.length_mapIdx
  authTag_length _ _ _ := length_lowBytes
  decrypt_encrypt _ _ plaintext := congrArg some (mask_mask plaintext)

def sampleMessage : ChannelMessage := ⟨js "A", [], none, .ok⟩

def sampleSubscription : PushSubscription where
  endpoint := js "https://push.example/1"
  p256dh := js
    "BCVxsr7N_eNgVRqvHtD0zTZsEc6-VV-JvLexhqUzORcxaOzi6-AYWXvTBHm4bjyPjs7Vd8pZGH6SRpkNtoIAiw4"
  auth := js "BTBZMqHH6r4Tts7J_aSIgg"

/-- `Buffer.from(text, "base64url")`, on the two texts of the sample. -/
def sampleFromB64url (text : JsString) : List UInt8 :=
  if text = sampleSubscription.p256dh then sampleUaPublic
  else lowBytes 16 0x05305932A1C7EABE13B6CEC9FDA48882

def sampleSalt : List UInt8 := lowBytes 16 0x0C6BFAADAD67958803092D454676F397

theorem web_push_sample_fits :
    (∃ payload, parse (webPushPayload sampleMessage) = some payload ∧
      Shows sampleMessage payload) ∧
    byteLength (webPushPayload sampleMessage) ≤ maxPayload ∧
    ∃ body, body = encryptWebPush sampleCrypto sampleFromB64url (webPushPayload sampleMessage)
        sampleSubscription {} samplePrivate sampleSalt ∧
      body.length ≤ 4096 ∧
      (Record.ofBody body).open_ sampleCrypto sampleUaPrivate
        (sampleFromB64url sampleSubscription.auth) =
          some (utf8 (webPushPayload sampleMessage) ++ [0x02]) := by
  obtain ⟨hshows, hfits, hlength, -, -, -, -, hopen⟩ :=
    web_push_fits sampleFromB64url sampleSubscription {} samplePrivate sampleSalt
      sampleCrypto_lawful sampleMessage length_lowBytes rfl
  refine ⟨hshows, hfits, _, rfl, hlength, hopen sampleUaPrivate ?_⟩
  have hother : ¬sampleUaPrivate = samplePrivate := by decide
  show (if sampleSubscription.p256dh = sampleSubscription.p256dh then sampleUaPublic else _) =
    if sampleUaPrivate = samplePrivate then samplePublic else sampleUaPublic
  rw [if_pos rfl, if_neg hother]

end Vigil.Notifications.WebPush
