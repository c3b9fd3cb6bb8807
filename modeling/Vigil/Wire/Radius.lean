import Vigil.Js.ByteLength
import Vigil.Lib.Buffer
import Vigil.Lib.TwosComplement

/-! The Access-Request of `monitors/types/probes/radius.ts`, and how a server reads it.  MD5 and
HMAC-MD5 are whatever functions with digests of sixteen bytes. -/

namespace Vigil.Wire.Radius

open Js.Text Lib.BigEndian Lib.Buffer Lib.TwosComplement

/-- The two digests, of which the lengths are all that is used. -/
structure Digests where
  md5 : List UInt8 → List UInt8
  /-- `createHmac("md5", key).update(data).digest()` -/
  hmac : List UInt8 → List UInt8 → List UInt8
  length_md5 : ∀ data, (md5 data).length = 16
  length_hmac : ∀ key data, (hmac key data).length = 16

/-- The credentials of a monitor. -/
structure RadiusConfig where
  username : JsString
  password : JsString
  nasIdentifier : JsString

/-- The authenticator of a request, `randomBytes(16)`. -/
abbrev Authenticator := { bytes : List UInt8 // bytes.length = 16 }

def radiusAccessRequest : UInt8 := 1

def userName : UInt8 := 1

def userPassword : UInt8 := 2

def nasIdentifier : UInt8 := 32

def messageAuthenticator : UInt8 := 80

def headerBytes : ℕ := 20

def authenticatorBytes : ℕ := 16

def authenticatorOffset : ℕ := 4

def passwordBlockBytes : ℕ := 16

def maxRadiusAttributeBytes : ℕ := 253

/-- The error that `attribute` throws. -/
structure AttributeTooLong where
  length : ℕ
  deriving DecidableEq, Repr

/-- The text of the error. -/
def AttributeTooLong.message (e : AttributeTooLong) : String :=
  "a RADIUS attribute cannot carry " ++ toString e.length ++ " bytes (limit " ++
    toString maxRadiusAttributeBytes ++ ")"

/-- `Buffer.alloc(size)` -/
def alloc (size : ℕ) : List UInt8 := List.replicate size 0

/-- `attribute`: type, length, value, where length counts its own two bytes. -/
def encodeAttribute (type : UInt8) (value : List UInt8) : Except AttributeTooLong (List UInt8) :=
  if value.length > maxRadiusAttributeBytes then .error ⟨value.length⟩
  else
    let encoded := alloc (2 + value.length)
    let encoded := writeAt encoded 0 [type]
    let encoded := writeAt encoded 1 [(2 + value.length).toUInt8]
    .ok (writeAt encoded 2 value)

/-- What the loop of `encryptPassword` has at hand: the cipher so far, and what the next block is
chained to, which is the authenticator or the part of the cipher that begins at an offset. -/
structure Chain where
  cipher : List UInt8
  previous : Option ℕ

section Encrypt

variable (digests : Digests) (secret : JsString) (authenticator : List UInt8)

/-- The bytes that `previous` stands for; a part of the cipher is looked at when it is used. -/
def Chain.previousBytes (chain : Chain) : List UInt8 :=
  chain.previous.elim authenticator fun offset => slice chain.cipher offset passwordBlockBytes

/-- One round of the loop. -/
def encryptBlock (padded : List UInt8) (chain : Chain) (offset : ℕ) : Chain :=
  let keystream := digests.md5 (utf8 secret ++ chain.previousBytes authenticator)
  let cipher := (List.range passwordBlockBytes).foldl
    (fun cipher i => cipher.set (offset + i) (padded.getD (offset + i) 0 ^^^ keystream.getD i 0))
    chain.cipher
  { cipher, previous := some offset }

def encryptPassword (password : JsString) : List UInt8 :=
  let plain := utf8 password
  let blocks := max 1 ((plain.length + (passwordBlockBytes - 1)) / passwordBlockBytes)
  let padded := writeAt (alloc (blocks * passwordBlockBytes)) 0 plain
  let offsets := (List.range blocks).map (· * passwordBlockBytes)
  (offsets.foldl (encryptBlock digests secret authenticator padded)
    { cipher := alloc padded.length, previous := none }).cipher

end Encrypt

def encodeAttributes (digests : Digests) (config : RadiusConfig) (secret : JsString)
    (authenticator : Authenticator) : Except AttributeTooLong (List UInt8) := do
  let username ← encodeAttribute userName (utf8 config.username)
  let password ← encodeAttribute userPassword
    (encryptPassword digests secret authenticator.val config.password)
  let identifier ← encodeAttribute nasIdentifier (utf8 config.nasIdentifier)
  let signature ← encodeAttribute messageAuthenticator (alloc authenticatorBytes)
  return username ++ (password ++ (identifier ++ signature))

def encodeAccessRequest (digests : Digests) (config : RadiusConfig) (secret : JsString)
    (identifier : UInt8) (authenticator : Authenticator) :
    Except AttributeTooLong (List UInt8) := do
  let attributes ← encodeAttributes digests config secret authenticator
  let header := alloc headerBytes
  let header := writeAt header 0 [radiusAccessRequest]
  let header := writeAt header 1 [identifier]
  let header := writeAt header 2 (lowBytes 2 (headerBytes + attributes.length : ℕ))
  let header := writeAt header authenticatorOffset authenticator.val
  let packet := header ++ attributes
  return writeAt packet (packet.length - authenticatorBytes) (digests.hmac (utf8 secret) packet)

/-! ### The server -/

/-- An attribute as a server reads it. -/
structure Attribute where
  type : UInt8
  value : List UInt8
  deriving DecidableEq, Repr

/-- The attributes of a packet, which take all of the bytes. -/
def walk : List UInt8 → Option (List Attribute)
  | [] => some []
  | [_] => none
  | type :: length :: rest =>
    if length.toNat < 2 ∨ rest.length < length.toNat - 2 then none
    else (walk (rest.drop (length.toNat - 2))).map
      (⟨type, rest.take (length.toNat - 2)⟩ :: ·)
termination_by bytes => bytes.length
decreasing_by
  simp only [List.length_cons, List.length_drop]
  omega

def Attribute.bytes (a : Attribute) : List UInt8 :=
  a.type :: (2 + a.value.length).toUInt8 :: a.value

/-- Two blocks combined by exclusive or. -/
def xorBytes (a b : List UInt8) : List UInt8 := List.zipWith (· ^^^ ·) a b

/-- User-Password deciphered block by block; each block is keyed by the ciphertext before it. -/
def decrypt (digests : Digests) (secret : JsString) : ℕ → List UInt8 → List UInt8 → List UInt8
  | 0, _, _ => []
  | blocks + 1, previous, cipher =>
    let block := cipher.take passwordBlockBytes
    xorBytes block (digests.md5 (utf8 secret ++ previous)) ++
      decrypt digests secret blocks block (cipher.drop passwordBlockBytes)

/-- The attribute with its value zeroed when it is the Message-Authenticator. -/
def Attribute.zeroed (a : Attribute) : Attribute :=
  if a.type = messageAuthenticator then ⟨a.type, alloc a.value.length⟩ else a

/-- What the HMAC of a packet is taken over: the packet with the Message-Authenticator zeroed. -/
def signedBytes (packet : List UInt8) (attributes : List Attribute) : List UInt8 :=
  packet.take headerBytes ++ attributes.flatMap fun a => a.zeroed.bytes

/-! ### Attributes -/

theorem alloc_add (m n : ℕ) : alloc (m + n) = alloc m ++ alloc n :=
  (List.replicate_append_replicate).symm

theorem length_alloc (n : ℕ) : (alloc n).length = n := List.length_replicate

theorem encodeAttribute_eq {type : UInt8} {value : List UInt8} (h : value.length ≤ 253) :
    encodeAttribute type value = .ok (Attribute.bytes ⟨type, value⟩) := by
  have htype := writeAt_between [] [0] ([0] ++ alloc value.length) [type] rfl
  have hlength := writeAt_between [type] [0] (alloc value.length) [(2 + value.length).toUInt8] rfl
  have hvalue := writeAt_between [type, (2 + value.length).toUInt8] (alloc value.length) [] value
    (length_alloc _)
  simp only [List.append_nil, List.nil_append, List.cons_append, List.length_cons,
    List.length_nil] at htype hlength hvalue
  have halloc : alloc (2 + value.length) = 0 :: 0 :: alloc value.length := alloc_add 2 _
  rw [encodeAttribute, if_neg (by unfold maxRadiusAttributeBytes; omega)]
  dsimp only
  rw [halloc, htype, hlength, hvalue]
  rfl

theorem encodeAttribute_error {type : UInt8} {value : List UInt8} (h : 253 < value.length) :
    encodeAttribute type value = .error ⟨value.length⟩ := if_pos h

theorem walk_bytes (a : Attribute) (h : a.value.length ≤ 253) (rest : List UInt8) :
    walk (a.bytes ++ rest) = (walk rest).map (a :: ·) := by
  have hlength : (2 + a.value.length).toUInt8.toNat = 2 + a.value.length := Nat.mod_eq_of_lt (by omega)
  have hroom : ¬((2 + a.value.length).toUInt8.toNat < 2 ∨
      (a.value ++ rest).length < (2 + a.value.length).toUInt8.toNat - 2) := by
    rw [hlength, List.length_append]
    omega
  rw [Attribute.bytes, List.cons_append, List.cons_append, walk, if_neg hroom, hlength,
    Nat.add_sub_cancel_left, List.take_left, List.drop_left]

/-! ### The password -/

section Password

variable (digests : Digests) (secret : JsString)

/-- User-Password block by block. -/
def encrypt : ℕ → List UInt8 → List UInt8 → List UInt8
  | 0, _, _ => []
  | blocks + 1, previous, padded =>
    let block := xorBytes (padded.take passwordBlockBytes)
      (digests.md5 (utf8 secret ++ previous))
    block ++ encrypt blocks block (padded.drop passwordBlockBytes)

theorem xorBytes_xorBytes {a b : List UInt8} (h : a.length = b.length) :
    xorBytes (xorBytes a b) b = a := by
  refine List.ext_getElem (by simp [xorBytes, h]) fun i hi hi' => ?_
  simp only [xorBytes, List.getElem_zipWith]
  rw [UInt8.xor_assoc, UInt8.xor_self, UInt8.xor_zero]

theorem length_xorBytes {a b : List UInt8} {n : ℕ} (ha : a.length = n) (hb : b.length = n) :
    (xorBytes a b).length = n := by
  rw [xorBytes, List.length_zipWith, ha, hb, Nat.min_self]

theorem length_encrypt {blocks : ℕ} {previous padded : List UInt8}
    (h : padded.length = 16 * blocks) :
    (encrypt digests secret blocks previous padded).length = 16 * blocks := by
  induction blocks generalizing previous padded with
  | zero => rfl
  | succ blocks ih =>
    have hblock : (xorBytes (padded.take 16) (digests.md5 (utf8 secret ++ previous))).length = 16 :=
      length_xorBytes (by rw [List.length_take]; omega) (digests.length_md5 _)
    rw [encrypt, List.length_append, ih (by rw [List.length_drop]; unfold passwordBlockBytes; omega)]
    exact (congrArg (· + 16 * blocks) hblock).trans (by omega)

/-- Deciphering undoes the cipher, from the same authenticator. -/
theorem decrypt_encrypt {blocks : ℕ} {previous padded : List UInt8}
    (h : padded.length = 16 * blocks) :
    decrypt digests secret blocks previous (encrypt digests secret blocks previous padded) =
      padded := by
  induction blocks generalizing previous padded with
  | zero => exact (List.length_eq_zero_iff.mp h).symm
  | succ blocks ih =>
    have htake : (padded.take 16).length = 16 := by
      rw [List.length_take]
      omega
    have hkey : (digests.md5 (utf8 secret ++ previous)).length = 16 := digests.length_md5 _
    have hblock : (xorBytes (padded.take 16) (digests.md5 (utf8 secret ++ previous))).length = 16 :=
      length_xorBytes htake hkey
    have hrest : (padded.drop 16).length = 16 * blocks := by
      rw [List.length_drop]
      omega
    rw [encrypt, decrypt]
    unfold passwordBlockBytes
    rw [List.take_left' hblock, List.drop_left' hblock, ih hrest,
      xorBytes_xorBytes (htake.trans hkey.symm), List.take_append_drop]

variable (authenticator : List UInt8)

theorem map_xor {padded keystream : List UInt8} {offset : ℕ} (hpadded : offset + 16 ≤ padded.length)
    (hkey : keystream.length = 16) :
    ((List.range passwordBlockBytes).map fun i =>
        padded.getD (offset + i) 0 ^^^ keystream.getD i 0) =
      xorBytes ((padded.drop offset).take 16) keystream := by
  unfold passwordBlockBytes
  refine List.ext_getElem ?_ fun i hi hi' => ?_
  · rw [List.length_map, List.length_range, length_xorBytes _ hkey]
    rw [List.length_take, List.length_drop]
    omega
  · rw [List.length_map, List.length_range] at hi
    have hleft : offset + i < padded.length := by omega
    have hright : i < keystream.length := by omega
    simp [xorBytes, hleft, hright]

theorem cipher_encryptBlock {padded : List UInt8} {chain : Chain} {offset : ℕ}
    (hpadded : offset + 16 ≤ padded.length) (hcipher : offset + 16 ≤ chain.cipher.length) :
    (encryptBlock digests secret authenticator padded chain offset).cipher =
      writeAt chain.cipher offset (xorBytes ((padded.drop offset).take 16)
        (digests.md5 (utf8 secret ++ chain.previousBytes authenticator))) := by
  have hloop := foldl_set chain.cipher offset (fun i => padded.getD (offset + i) 0 ^^^
    (digests.md5 (utf8 secret ++ chain.previousBytes authenticator)).getD i 0)
    passwordBlockBytes hcipher
  rw [map_xor hpadded (digests.length_md5 _)] at hloop
  rw [encryptBlock]
  dsimp only
  rw [hloop]

/-- One round writes the block behind the blocks that are there, and the next round is chained to
it. -/
theorem encryptBlock_eq (padded : List UInt8) {done rest block : List UInt8} {chain : Chain}
    (hchain : chain.cipher = done ++ (alloc 16 ++ rest))
    (hpadded : done.length + 16 ≤ padded.length)
    (hblock : block = xorBytes ((padded.drop done.length).take 16)
      (digests.md5 (utf8 secret ++ chain.previousBytes authenticator))) :
    block.length = 16 ∧
      (encryptBlock digests secret authenticator padded chain done.length).cipher =
        done ++ (block ++ rest) ∧
      (encryptBlock digests secret authenticator padded chain done.length).previousBytes
        authenticator = block := by
  have hlength : block.length = 16 := by
    rw [hblock]
    refine length_xorBytes ?_ (digests.length_md5 _)
    rw [List.length_take, List.length_drop]
    omega
  have hroom : done.length + 16 ≤ chain.cipher.length := by
    rw [hchain, List.length_append, List.length_append, length_alloc]
    omega
  have hcipher : (encryptBlock digests secret authenticator padded chain done.length).cipher =
      done ++ (block ++ rest) := by
    rw [cipher_encryptBlock digests secret authenticator hpadded hroom, ← hblock, hchain]
    exact writeAt_between done (alloc 16) rest block ((length_alloc 16).trans hlength.symm)
  refine ⟨hlength, hcipher, ?_⟩
  have hprevious := slice_append done block rest
  rw [hlength, ← hcipher] at hprevious
  exact hprevious

theorem foldl_encryptBlock (padded : List UInt8) (blocks k : ℕ) (chain : Chain)
    (done : List UInt8) (hdone : done.length = k * 16)
    (hchain : chain.cipher = done ++ alloc (16 * blocks))
    (hpadded : padded.length = k * 16 + 16 * blocks) :
    (((List.range' k blocks).map (· * passwordBlockBytes)).foldl
        (encryptBlock digests secret authenticator padded) chain).cipher =
      done ++ encrypt digests secret blocks (chain.previousBytes authenticator)
        (padded.drop (k * 16)) := by
  induction blocks generalizing k chain done with
  | zero => exact hchain
  | succ blocks ih =>
    have hsplit : alloc (16 * (blocks + 1)) = alloc 16 ++ alloc (16 * blocks) := by
      rw [← alloc_add, Nat.mul_succ, Nat.add_comm]
    rw [hsplit] at hchain
    obtain ⟨hblock, hcipher, hprevious⟩ := encryptBlock_eq digests secret authenticator padded
      hchain (by omega) rfl
    rw [← List.append_assoc] at hcipher
    have hrest := ih (k + 1) _ _ (by rw [List.length_append, hblock, hdone]; omega) hcipher
      (by omega)
    have hdrop : padded.drop ((k + 1) * 16) = (padded.drop (k * 16)).drop 16 := by
      rw [List.drop_drop, Nat.succ_mul]
    rw [List.range'_succ, List.map_cons, List.foldl_cons, encrypt]
    unfold passwordBlockBytes at *
    rw [← hdone, hrest, hprevious, hdrop, hdone, List.append_assoc]

/-- The zeros that fill the last block of a password. -/
def padding (password : JsString) : ℕ :=
  16 * max 1 (((utf8 password).length + 15) / 16) - (utf8 password).length

def padded (password : JsString) : List UInt8 := utf8 password ++ alloc (padding password)

theorem length_padded (password : JsString) :
    (padded password).length = 16 * max 1 (((utf8 password).length + 15) / 16) := by
  rw [padded, List.length_append, length_alloc, padding]
  omega

theorem encryptPassword_eq (password : JsString) :
    encryptPassword digests secret authenticator password =
      encrypt digests secret (max 1 (((utf8 password).length + 15) / 16)) authenticator
        (padded password) := by
  obtain ⟨blocks, hblocks⟩ : ∃ blocks, blocks = max 1 (((utf8 password).length + 15) / 16) := ⟨_, rfl⟩
  have hlength := length_padded password
  have hwrite : writeAt (alloc (blocks * 16)) 0 (utf8 password) = padded password := by
    have hsplit : alloc (blocks * 16) =
        alloc (utf8 password).length ++ alloc (padding password) := by
      rw [← alloc_add, padding]
      congr 1
      omega
    have h := writeAt_between [] (alloc (utf8 password).length) (alloc (padding password))
      (utf8 password) (length_alloc _)
    rwa [List.nil_append, ← hsplit] at h
  have hloop := foldl_encryptBlock digests secret authenticator (padded password) blocks 0
    { cipher := alloc (padded password).length, previous := none } [] rfl
    (by rw [hlength, hblocks]; rfl) (by omega)
  unfold encryptPassword
  dsimp only
  rw [show passwordBlockBytes = 16 from rfl, ← hblocks, hwrite, List.range_eq_range']
  rw [List.nil_append, Nat.zero_mul, List.drop_zero] at hloop
  exact hloop

end Password

/-! ### The packet -/

theorem length_encryptPassword (digests : Digests) (secret password : JsString)
    (authenticator : List UInt8) :
    (encryptPassword digests secret authenticator password).length =
      16 * max 1 (((utf8 password).length + 15) / 16) := by
  rw [encryptPassword_eq, length_encrypt digests secret (length_padded password)]

/-- The header that is written over twenty zeros. -/
def header (identifier : UInt8) (authenticator : Authenticator) (length : ℕ) : List UInt8 :=
  [radiusAccessRequest, identifier] ++ (lowBytes 2 length ++ authenticator.val)

theorem header_eq (identifier : UInt8) (authenticator : Authenticator) (length : ℕ) :
    writeAt (writeAt (writeAt (writeAt (alloc headerBytes) 0 [radiusAccessRequest]) 1 [identifier]) 2
      (lowBytes 2 length)) authenticatorOffset authenticator.val =
        header identifier authenticator length := by
  have hbytes : (lowBytes 2 (length : ℤ)).length = 2 := length_lowBytes
  have hcode := writeAt_between [] [0] (alloc 19) [radiusAccessRequest] rfl
  have hid := writeAt_between [radiusAccessRequest] [0] (alloc 18) [identifier] rfl
  have hlength := writeAt_between [radiusAccessRequest, identifier] (alloc 2) (alloc 16)
    (lowBytes 2 length) hbytes.symm
  have hauthenticator := writeAt_between ([radiusAccessRequest, identifier] ++ lowBytes 2 length)
    (alloc 16) [] authenticator.val ((length_alloc 16).trans authenticator.property.symm)
  have hoffset : ([radiusAccessRequest, identifier] ++ lowBytes 2 length).length = 4 := by
    rw [List.length_append, hbytes]
    rfl
  rw [hoffset, List.append_nil, List.append_nil, List.append_assoc, List.append_assoc]
    at hauthenticator
  exact (congrArg (fun b => writeAt (writeAt (writeAt b 1 [identifier]) 2 (lowBytes 2 length)) 4
    authenticator.val) hcode).trans <|
      (congrArg (fun b => writeAt (writeAt b 2 (lowBytes 2 length)) 4 authenticator.val) hid).trans <|
      (congrArg (fun b => writeAt b 4 authenticator.val) hlength).trans hauthenticator

/-- The attributes of a request. -/
def attributesOf (config : RadiusConfig) (cipher mac : List UInt8) : List Attribute :=
  [⟨userName, utf8 config.username⟩, ⟨userPassword, cipher⟩,
    ⟨nasIdentifier, utf8 config.nasIdentifier⟩, ⟨messageAuthenticator, mac⟩]

/-- The values that fit their attributes; a password is filled up to whole blocks. -/
def Fits (config : RadiusConfig) : Prop :=
  (utf8 config.username).length ≤ 253 ∧ (utf8 config.password).length ≤ 240 ∧
    (utf8 config.nasIdentifier).length ≤ 253

/-- What a server that knows the secret reads in the packet. -/
structure Readable (digests : Digests) (config : RadiusConfig) (secret : JsString)
    (identifier : UInt8) (authenticator : Authenticator) (packet : List UInt8) : Prop where
  code : packet.take 2 = [radiusAccessRequest, identifier]
  length : bigEndian (slice packet 2 2) = packet.length
  echoed : slice packet authenticatorOffset authenticatorBytes = authenticator.val
  attributes : ∃ cipher mac,
    walk (packet.drop headerBytes) = some (attributesOf config cipher mac) ∧
    (∃ zeros, decrypt digests secret (cipher.length / passwordBlockBytes) authenticator.val cipher =
      utf8 config.password ++ alloc zeros) ∧
    mac = digests.hmac (utf8 secret) (signedBytes packet (attributesOf config cipher mac))

variable (digests : Digests) (config : RadiusConfig) (secret : JsString) (identifier : UInt8)
  (authenticator : Authenticator)

theorem readable_of_parts {cipher mac : List UInt8} {size : ℕ}
    (hsize : size = headerBytes + ((attributesOf config cipher mac).flatMap Attribute.bytes).length)
    (husername : (utf8 config.username).length ≤ 253) (hcipher : cipher.length ≤ 253)
    (hnas : (utf8 config.nasIdentifier).length ≤ 253) (hmac : mac.length = 16)
    (hplain : ∃ zeros, decrypt digests secret (cipher.length / passwordBlockBytes)
      authenticator.val cipher = utf8 config.password ++ alloc zeros)
    (hsigned : mac = digests.hmac (utf8 secret) (header identifier authenticator size ++
      (attributesOf config cipher (alloc 16)).flatMap Attribute.bytes)) :
    Readable digests config secret identifier authenticator
      (header identifier authenticator size ++
        (attributesOf config cipher mac).flatMap Attribute.bytes) := by
  have hlow : (lowBytes 2 (size : ℤ)).length = 2 := length_lowBytes
  have hheader : (header identifier authenticator size).length = headerBytes := by
    rw [header, List.length_append, List.length_append, hlow, authenticator.property]
    rfl
  have hbytes : ∀ a : Attribute, a.bytes.length = 2 + a.value.length := by
    intro a
    rw [Attribute.bytes, List.length_cons, List.length_cons]
    omega
  refine ⟨rfl, ?_, ?_, cipher, mac, ?_, hplain, ?_⟩
  · have hlength : (header identifier authenticator size ++
        (attributesOf config cipher mac).flatMap Attribute.bytes).length = size := by
      rw [List.length_append, hheader, hsize]
    have hsmall : size < 65536 := by
      have hmacBytes := hbytes ⟨messageAuthenticator, mac⟩
      have hnasBytes := hbytes ⟨nasIdentifier, utf8 config.nasIdentifier⟩
      have hcipherBytes := hbytes ⟨userPassword, cipher⟩
      have hnameBytes := hbytes ⟨userName, utf8 config.username⟩
      have hheaderBytes : headerBytes = 20 := rfl
      simp only [attributesOf, List.flatMap_cons, List.flatMap_nil, List.length_append,
        List.length_nil] at *
      omega
    have hvalue := bigEndian_lowBytes 2 size
    have hslice := slice_append [radiusAccessRequest, identifier] (lowBytes 2 size)
      (authenticator.val ++ (attributesOf config cipher mac).flatMap Attribute.bytes)
    rw [hlow] at hslice
    rw [hlength, header, List.append_assoc, List.append_assoc]
    refine (congrArg bigEndian hslice).trans ?_
    omega
  · have hslice := slice_append ([radiusAccessRequest, identifier] ++ lowBytes 2 size)
      authenticator.val ((attributesOf config cipher mac).flatMap Attribute.bytes)
    have hoffset : ([radiusAccessRequest, identifier] ++ lowBytes 2 size).length =
        authenticatorOffset := by
      rw [List.length_append, hlow]
      rfl
    rw [hoffset, authenticator.property] at hslice
    rw [header, ← List.append_assoc, List.append_assoc]
    exact hslice
  · rw [List.drop_left' hheader]
    simp only [attributesOf, List.flatMap_cons, List.flatMap_nil]
    rw [walk_bytes _ husername, walk_bytes _ hcipher, walk_bytes _ hnas,
      walk_bytes _ (hmac.trans_le (by decide)), walk]
    rfl
  · have hzeroed : ((attributesOf config cipher mac).flatMap fun a => a.zeroed.bytes) =
        (attributesOf config cipher (alloc 16)).flatMap Attribute.bytes := by
      simp only [attributesOf, List.flatMap_cons, List.flatMap_nil]
      rw [← hmac]
      rfl
    rw [signedBytes, List.take_left' hheader, hzeroed]
    exact hsigned

/-- The packet before its signature is copied in, and after. -/
theorem sign_eq (cipher mac : List UInt8) (size : ℕ) (hmac : mac.length = 16) :
    let packet := header identifier authenticator size ++
      (attributesOf config cipher (alloc 16)).flatMap Attribute.bytes
    writeAt packet (packet.length - authenticatorBytes) mac =
      header identifier authenticator size ++
        (attributesOf config cipher mac).flatMap Attribute.bytes := by
  intro packet
  obtain ⟨before, hbefore⟩ : ∃ before, before = header identifier authenticator size ++
      (Attribute.bytes ⟨userName, utf8 config.username⟩ ++ (Attribute.bytes ⟨userPassword, cipher⟩ ++
        (Attribute.bytes ⟨nasIdentifier, utf8 config.nasIdentifier⟩ ++
          [messageAuthenticator, 18]))) := ⟨_, rfl⟩
  have hparts : ∀ value : List UInt8, value.length = 16 →
      header identifier authenticator size ++
        (attributesOf config cipher value).flatMap Attribute.bytes = before ++ (value ++ []) := by
    intro value hvalue
    have hlast : Attribute.bytes ⟨messageAuthenticator, value⟩ = [messageAuthenticator, 18] ++ value := by
      rw [Attribute.bytes, hvalue]
      rfl
    simp only [attributesOf, List.flatMap_cons, List.flatMap_nil, hlast, hbefore, List.append_assoc]
  have hpacket : packet = before ++ (alloc 16 ++ []) := hparts _ (length_alloc 16)
  have hoffset : packet.length - authenticatorBytes = before.length := by
    rw [hpacket, List.length_append, List.append_nil, length_alloc]
    exact Nat.add_sub_cancel _ _
  rw [hoffset, hpacket, hparts mac hmac]
  exact writeAt_between before (alloc 16) [] mac ((length_alloc 16).trans hmac.symm)

theorem encodeAccessRequest_of_attributes {cipher : List UInt8}
    (hencrypt : cipher = encryptPassword digests secret authenticator.val config.password)
    (husername : (utf8 config.username).length ≤ 253) (hcipher : cipher.length ≤ 253)
    (hnas : (utf8 config.nasIdentifier).length ≤ 253) :
    ∃ size mac, size = headerBytes + ((attributesOf config cipher mac).flatMap Attribute.bytes).length ∧
      mac = digests.hmac (utf8 secret) (header identifier authenticator size ++
        (attributesOf config cipher (alloc 16)).flatMap Attribute.bytes) ∧
      encodeAccessRequest digests config secret identifier authenticator = .ok
        (header identifier authenticator size ++
          (attributesOf config cipher mac).flatMap Attribute.bytes) := by
  obtain ⟨size, hsize⟩ : ∃ size, size =
    headerBytes + ((attributesOf config cipher (alloc 16)).flatMap Attribute.bytes).length := ⟨_, rfl⟩
  obtain ⟨mac, hmac⟩ : ∃ mac, mac = digests.hmac (utf8 secret) (header identifier authenticator size ++
    (attributesOf config cipher (alloc 16)).flatMap Attribute.bytes) := ⟨_, rfl⟩
  have hlength : mac.length = 16 := by
    rw [hmac]
    exact digests.length_hmac _ _
  refine ⟨size, mac, ?_, hmac, ?_⟩
  · rw [hsize]
    simp only [attributesOf, Attribute.bytes, List.flatMap_cons, List.flatMap_nil,
      List.length_append, List.length_cons, List.length_nil, length_alloc, hlength]
  · have hattributes : encodeAttributes digests config secret authenticator =
        .ok ((attributesOf config cipher (alloc 16)).flatMap Attribute.bytes) := by
      rw [encodeAttributes, ← hencrypt, encodeAttribute_eq husername, encodeAttribute_eq hcipher,
        encodeAttribute_eq hnas, encodeAttribute_eq ((length_alloc _).trans_le (by decide))]
      simp only [attributesOf, List.flatMap_cons, List.flatMap_nil, List.append_nil]
      rfl
    rw [encodeAccessRequest, hattributes]
    refine congrArg Except.ok ?_
    rw [header_eq, ← hsize, ← hmac]
    exact sign_eq config identifier authenticator cipher mac size hlength

theorem encodeAttributes_error (h : ¬Fits config) :
    ∃ e, encodeAttributes digests config secret authenticator = .error e := by
  have hcipher := length_encryptPassword digests secret config.password authenticator.val
  by_cases husername : (utf8 config.username).length ≤ 253
  · rw [encodeAttributes, encodeAttribute_eq husername]
    by_cases hpassword : (utf8 config.password).length ≤ 240
    · rw [encodeAttribute_eq (by omega), encodeAttribute_error (by unfold Fits at h; omega)]
      exact ⟨_, rfl⟩
    · rw [encodeAttribute_error (by omega)]
      exact ⟨_, rfl⟩
  · rw [encodeAttributes, encodeAttribute_error (by omega)]
    exact ⟨_, rfl⟩

/-- A request is readable exactly when its values fit; otherwise nothing is produced. -/
theorem encodeAccessRequest_readable :
    (Fits config → ∃ packet, encodeAccessRequest digests config secret identifier authenticator =
      .ok packet ∧ Readable digests config secret identifier authenticator packet) ∧
    (¬Fits config →
      ∃ e, encodeAccessRequest digests config secret identifier authenticator = .error e) := by
  constructor
  · rintro ⟨husername, hpassword, hnas⟩
    obtain ⟨cipher, hencrypt⟩ : ∃ cipher,
      cipher = encryptPassword digests secret authenticator.val config.password := ⟨_, rfl⟩
    have hlength := length_encryptPassword digests secret config.password authenticator.val
    rw [← hencrypt] at hlength
    have hblocks : cipher.length / passwordBlockBytes =
        max 1 (((utf8 config.password).length + 15) / 16) := by
      rw [hlength]
      exact Nat.mul_div_cancel_left _ (by decide)
    obtain ⟨size, mac, hsize, hmac, hencode⟩ := encodeAccessRequest_of_attributes digests config secret
      identifier authenticator hencrypt husername (by omega) hnas
    refine ⟨_, hencode, readable_of_parts digests config secret identifier authenticator hsize husername
      (by omega) hnas (hmac ▸ digests.length_hmac _ _) ⟨padding config.password, ?_⟩ hmac⟩
    rw [hblocks, hencrypt, encryptPassword_eq,
      decrypt_encrypt digests secret (length_padded config.password)]
    rfl
  · intro h
    obtain ⟨e, he⟩ := encodeAttributes_error digests config secret authenticator h
    exact ⟨e, by rw [encodeAccessRequest, he]; rfl⟩

def sampleConfig : RadiusConfig where
  username := js "vigil-monitor"
  password := js "hunter2"
  nasIdentifier := js "vigil"

def sampleAuthenticator : Authenticator := ⟨(List.range 16).map Nat.toUInt8, by decide⟩

def sampleKeystream : List UInt8 :=
  [0x96, 0xEE, 0x09, 0xCA, 0x74, 0xFD, 0x7A, 0x1A, 0x10, 0x46, 0x07, 0x24, 0x00, 0x14, 0x82, 0x8B]

def sampleMac : List UInt8 :=
  [0x41, 0x6A, 0xBB, 0xFC, 0xE2, 0x54, 0x7D, 0x6E, 0x6F, 0x2A, 0x92, 0x9D, 0x3C, 0xAA, 0x91, 0xC8]

def sampleDigests : Digests where
  md5 := fun _ => sampleKeystream
  hmac := fun _ _ => sampleMac
  length_md5 := fun _ => rfl
  length_hmac := fun _ _ => rfl

def samplePacket : List UInt8 :=
  [0x01, 0x07, 0x00, 0x4E] ++ sampleAuthenticator.val ++
    [0x01, 0x0F] ++ utf8 (js "vigil-monitor") ++
    [0x02, 0x12, 0xFE, 0x9B, 0x67, 0xBE, 0x11, 0x8F, 0x48, 0x1A, 0x10, 0x46, 0x07, 0x24, 0x00, 0x14,
      0x82, 0x8B] ++
    [0x20, 0x07] ++ utf8 (js "vigil") ++ [0x50, 0x12] ++ sampleMac

theorem sample_request :
    encodeAccessRequest sampleDigests sampleConfig (js "testing123") 7 sampleAuthenticator =
      .ok samplePacket := by
  decide +kernel

/-- A server that shares `testing123` reads the packet of the sample. -/
theorem sample_request_readable :
    Readable sampleDigests sampleConfig (js "testing123") 7 sampleAuthenticator
      samplePacket := by
  obtain ⟨packet, hpacket, hreadable⟩ := (encodeAccessRequest_readable sampleDigests sampleConfig
    (js "testing123") 7 sampleAuthenticator).1 ⟨by decide, by decide, by decide⟩
  obtain rfl := Except.ok.inj (hpacket.symm.trans sample_request)
  exact hreadable

/-- A password of 121 characters, as its field accepts, and of 242 bytes, which an attribute could
carry but for the padding. -/
def longPassword : RadiusConfig where
  username := js "vigil-monitor"
  password := List.replicate 121 0xE9
  nasIdentifier := js "vigil"

theorem length_longPassword : (utf8 longPassword.password).length = 242 := by
  decide +kernel

/-- Not every request whose texts are within the limit of an attribute is produced: sixteen blocks of
password are longer than an attribute. -/
theorem long_password_refused :
    ¬∀ (digests : Digests) (config : RadiusConfig) (secret : JsString) (identifier : UInt8)
        (authenticator : Authenticator),
      (utf8 config.username).length ≤ 253 → (utf8 config.password).length ≤ 253 →
      (utf8 config.nasIdentifier).length ≤ 253 →
      ∃ packet, encodeAccessRequest digests config secret identifier authenticator = .ok packet := by
  intro h
  have hbytes := length_longPassword
  have hnot : ¬Fits longPassword := fun hfits => by
    have hle := hfits.2.1
    omega
  obtain ⟨packet, hpacket⟩ := h sampleDigests longPassword (js "testing123") 7 sampleAuthenticator
    (by decide) (by omega) (by decide)
  obtain ⟨e, he⟩ := encodeAttributes_error sampleDigests longPassword (js "testing123")
    sampleAuthenticator hnot
  rw [encodeAccessRequest, he] at hpacket
  cases hpacket

end Vigil.Wire.Radius
