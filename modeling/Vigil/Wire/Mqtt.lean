import Vigil.Lib.Buffer
import Vigil.Lib.TwosComplement
import Vigil.Lib.Varint
import Vigil.Wire.Redis

/-! The CONNECT packet of `monitors/types/probes/mqtt.ts`, and the layout of MQTT 3.1.1 that a broker
reads it by.  A string of more than 65,535 bytes does not fit its prefix, and throws. -/

namespace Vigil.Wire.Mqtt

open Js.Text Js.ByteLength Lib.BigEndian Lib.Buffer Lib.TwosComplement Lib.Varint

/-! ### The packet -/

/-- The credentials of a monitor, as far as they are given. -/
structure MqttConfig where
  username : Option JsString
  password : Option JsString
  deriving DecidableEq, Repr

def connect : UInt8 := 0x10

def protocolLevel : UInt8 := 0x04

def cleanSession : ℕ := 0x02

def usernameFlag : ℕ := 0x80

def passwordFlag : ℕ := 0x40

def keepAliveSeconds : ℕ := 60

def alloc (size : ℕ) : List UInt8 := List.replicate size 0

/-- `writeUInt16BE`, which throws for a number out of range. -/
def writeUInt16BE (buffer : List UInt8) (value offset : ℕ) : Option (List UInt8) :=
  if value ≤ 65535 then some (writeAt buffer offset (lowBytes 2 value)) else none

def encodeString (value : JsString) : Option (List UInt8) := do
  let bytes := utf8 value
  let framed ← writeUInt16BE (alloc (2 + bytes.length)) bytes.length 0
  return writeAt framed 2 bytes

def encodeRemainingLength (length : ℕ) : List UInt8 :=
  let septet := length % 128
  let remaining := length / 128
  if 0 < remaining then (septet ||| 0x80).toUInt8 :: encodeRemainingLength remaining
  else [septet.toUInt8]
termination_by length
decreasing_by omega

/-- `value === null ? [] : [encodeString(value)]` -/
def encodeOptional : Option JsString → Option (List UInt8)
  | none => some []
  | some value => encodeString value

def encodeConnect (config : MqttConfig) (clientId : JsString) : Option (List UInt8) := do
  let username := config.username
  -- A password without a user name is not sent.
  let password := if username.isNone then none else config.password
  let flags := cleanSession
  let flags := if username.isSome then flags ||| usernameFlag else flags
  let flags := if password.isSome then flags ||| passwordFlag else flags
  let keepAlive ← writeUInt16BE (alloc 2) keepAliveSeconds 0
  let body := (← encodeString (js "MQTT")) ++ [protocolLevel, flags.toUInt8] ++ keepAlive ++
    (← encodeString clientId) ++ (← encodeOptional username) ++ (← encodeOptional password)
  return [connect] ++ encodeRemainingLength body.length ++ body

/-! ### The layout -/

/-- A CONNECT packet as the protocol defines it. -/
structure ConnectPacket where
  cleanSession : Bool
  keepAlive : ℕ
  usernameFlag : Bool
  passwordFlag : Bool
  clientId : List UInt8
  will : Option (List UInt8 × List UInt8)
  username : Option (List UInt8)
  password : Option (List UInt8)
  deriving DecidableEq, Repr

/-- The remaining length, which takes four bytes at most. -/
def readRemainingLength (bytes : List UInt8) : Option (ℕ × List UInt8) := do
  let (length, rest) ← readVarint bytes
  guard (bytes.length ≤ rest.length + 4)
  return (length, rest)

def readUInt16 (bytes : List UInt8) : Option (ℕ × List UInt8) :=
  if bytes.length < 2 then none else some (bigEndian (bytes.take 2), bytes.drop 2)

/-- Bytes behind their number. -/
def readString (bytes : List UInt8) : Option (List UInt8 × List UInt8) := do
  let (length, bytes) ← readUInt16 bytes
  guard (length ≤ bytes.length)
  return (bytes.take length, bytes.drop length)

/-- A string that is there when its flag is set. -/
def readOptional : Bool → List UInt8 → Option (Option (List UInt8) × List UInt8)
  | false, bytes => some (none, bytes)
  | true, bytes => do
    let (value, bytes) ← readString bytes
    return (some value, bytes)

/-- The topic and the message of the will, which are there when its flag is set. -/
def readWill : Bool → List UInt8 → Option (Option (List UInt8 × List UInt8) × List UInt8)
  | false, bytes => some (none, bytes)
  | true, bytes => do
    let (topic, bytes) ← readString bytes
    let (message, bytes) ← readString bytes
    return (some (topic, message), bytes)

/-- The variable header and the payload, which take all of the bytes. -/
def readBody (bytes : List UInt8) : Option ConnectPacket := do
  let (name, bytes) ← readString bytes
  guard (name = utf8 (js "MQTT"))
  let (level, bytes) ← bytes.head?.map fun level => (level, bytes.tail)
  guard (level = 4)
  let (flags, bytes) ← bytes.head?.map fun flags => (flags.toNat, bytes.tail)
  -- The lowest bit is reserved, and a password needs a user name.
  guard (flags.testBit 0 = false ∧ (flags.testBit 6 = true → flags.testBit 7 = true))
  let (keepAlive, bytes) ← readUInt16 bytes
  let (clientId, bytes) ← readString bytes
  let (will, bytes) ← readWill (flags.testBit 2) bytes
  let (username, bytes) ← readOptional (flags.testBit 7) bytes
  let (password, bytes) ← readOptional (flags.testBit 6) bytes
  guard (bytes = [])
  return {
    cleanSession := flags.testBit 1
    keepAlive
    usernameFlag := flags.testBit 7
    passwordFlag := flags.testBit 6
    clientId, will, username, password }

/-- A packet whose remaining length is that of what follows. -/
def readConnect : List UInt8 → Option ConnectPacket
  | [] => none
  | type :: bytes => do
    guard (type = 0x10)
    let (length, bytes) ← readRemainingLength bytes
    guard (length = bytes.length)
    readBody bytes

/-! ### What is sent -/

/-- The password that goes out: none without a user name. -/
def MqttConfig.sentPassword (config : MqttConfig) : Option JsString :=
  config.username.bind fun _ => config.password

/-- Every string that goes out fits its prefix. -/
def Fits (config : MqttConfig) (clientId : JsString) : Prop :=
  byteLength clientId ≤ 65535 ∧ (∀ username ∈ config.username, byteLength username ≤ 65535) ∧
    ∀ password ∈ config.sentPassword, byteLength password ≤ 65535

def connectOf (config : MqttConfig) (clientId : JsString) : ConnectPacket where
  cleanSession := true
  keepAlive := 60
  usernameFlag := config.username.isSome
  passwordFlag := config.sentPassword.isSome
  clientId := utf8 clientId
  will := none
  username := config.username.map utf8
  password := config.sentPassword.map utf8

/-! ### Reading back -/

/-- A string as it goes out. -/
def prefixed (content : List UInt8) : List UInt8 := lowBytes 2 content.length ++ content

theorem length_prefixed (content : List UInt8) : (prefixed content).length = 2 + content.length := by
  rw [prefixed, List.length_append, length_lowBytes]

theorem encodeString_of_le (value : JsString) (h : byteLength value ≤ 65535) :
    encodeString value = some (prefixed (utf8 value)) := by
  obtain ⟨content, hcontent⟩ : ∃ content, content = utf8 value := ⟨_, rfl⟩
  have hbytes : (lowBytes 2 (content.length : ℤ)).length = 2 := length_lowBytes
  have hlength := writeAt_between [] (alloc 2) (alloc content.length) (lowBytes 2 content.length)
    hbytes.symm
  have hcopy := writeAt_between (lowBytes 2 (content.length : ℤ)) (alloc content.length) [] content
    List.length_replicate
  have halloc : alloc (2 + content.length) = alloc 2 ++ alloc content.length :=
    List.replicate_add _ _ _
  rw [List.append_nil, List.append_nil, hbytes] at hcopy
  have hle : content.length ≤ 65535 := by
    rw [hcontent]
    exact h
  rw [encodeString, writeUInt16BE, ← hcontent, if_pos hle, halloc]
  rw [List.nil_append, List.nil_append, List.length_nil] at hlength
  rw [hlength, Option.bind_eq_bind, Option.bind_some, hcopy]
  rfl

theorem encodeString_of_gt {value : JsString} (h : ¬byteLength value ≤ 65535) :
    encodeString value = none := by
  have hle : ¬(utf8 value).length ≤ 65535 := h
  rw [encodeString, writeUInt16BE, if_neg hle]
  rfl

theorem encodeRemainingLength_eq (length : ℕ) : encodeRemainingLength length = varint length := by
  induction length using varint.induct with
  | case1 n h =>
    rw [encodeRemainingLength, if_neg (by omega), Nat.mod_eq_of_lt h, varint_of_lt h]
  | case2 n h ih =>
    have hor : n % 128 ||| 0x80 = n % 128 + 128 := by
      have hadd := Nat.two_pow_add_eq_or_of_lt (i := 7) (b := n % 128) (by omega) 1
      rw [Nat.or_comm]
      exact hadd.symm.trans (Nat.add_comm _ _)
    rw [encodeRemainingLength, if_pos (by omega), hor, ih, varint_of_ge h]

theorem readRemainingLength_varint {length : ℕ} (h : length < 128 ^ 4) (rest : List UInt8) :
    readRemainingLength (varint length ++ rest) = some (length, rest) := by
  have hlength := length_varint_le (by decide) h
  have hguard : (varint length).length + rest.length ≤ rest.length + 4 := by omega
  rw [readRemainingLength, readVarint_varint]
  simp [hguard, guard]

theorem readUInt16_lowBytes (value : ℕ) (h : value ≤ 65535) (rest : List UInt8) :
    readUInt16 (lowBytes 2 value ++ rest) = some (value, rest) := by
  have hlength : (lowBytes 2 (value : ℤ)).length = 2 := length_lowBytes
  have hvalue := bigEndian_lowBytes 2 value
  rw [readUInt16, if_neg (by rw [List.length_append]; omega), List.take_left' hlength,
    List.drop_left' hlength]
  refine congrArg (fun n => some (n, rest)) ?_
  omega

theorem readString_prefixed (content : List UInt8) (h : content.length ≤ 65535)
    (rest : List UInt8) : readString (prefixed content ++ rest) = some (content, rest) := by
  rw [readString, prefixed, List.append_assoc, readUInt16_lowBytes _ h]
  simp [guard]

/-- A string that may be absent, as it goes out. -/
def optional (value : Option JsString) : List UInt8 := (value.map fun v => prefixed (utf8 v)).getD []

variable {value : Option JsString} {config : MqttConfig} {clientId : JsString}

theorem encodeOptional_of_le (h : ∀ v ∈ value, byteLength v ≤ 65535) :
    encodeOptional value = some (optional value) := by
  cases value with
  | none => rfl
  | some v => exact encodeString_of_le v (h v rfl)

theorem encodeOptional_of_gt (h : ¬∀ v ∈ value, byteLength v ≤ 65535) :
    encodeOptional value = none := by
  cases value with
  | none => exact absurd nofun h
  | some v => exact encodeString_of_gt fun hle => h fun w hw => Option.mem_some.mp hw ▸ hle

theorem readOptional_optional (h : ∀ v ∈ value, byteLength v ≤ 65535) (rest : List UInt8) :
    readOptional value.isSome (optional value ++ rest) =
      some (value.map utf8, rest) := by
  cases value with
  | none => rfl
  | some v =>
    have hread := readString_prefixed (utf8 v) (h v rfl) rest
    simp [readOptional, optional, hread]

theorem length_optional (h : ∀ v ∈ value, byteLength v ≤ 65535) :
    (optional value).length ≤ 65537 := by
  cases value with
  | none => exact Nat.zero_le _
  | some v =>
    have hle : (utf8 v).length ≤ 65535 := h v rfl
    have hlength := length_prefixed (utf8 v)
    show (prefixed (utf8 v)).length ≤ 65537
    omega

/-- The flags of what is present. -/
def flagsOf (username password : Bool) : UInt8 :=
  (cleanSession ||| (if username then usernameFlag else 0) ||| if password then passwordFlag else 0).toUInt8

/-- The body as it goes out. -/
def bodyOf (config : MqttConfig) (clientId : JsString) : List UInt8 :=
  prefixed (utf8 (js "MQTT")) ++ (protocolLevel ::
    flagsOf config.username.isSome config.sentPassword.isSome :: (lowBytes 2 keepAliveSeconds ++
      (prefixed (utf8 clientId) ++ (optional config.username ++ optional config.sentPassword))))

theorem readBody_bodyOf (h : Fits config clientId) :
    readBody (bodyOf config clientId) = some (connectOf config clientId) := by
  have hname := readString_prefixed (utf8 (js "MQTT")) (by decide)
  have hkeepAlive := readUInt16_lowBytes keepAliveSeconds (by decide)
  have hclient := readString_prefixed (utf8 clientId) h.1
  have husername := readOptional_optional h.2.1
  have hpassword := readOptional_optional h.2.2 []
  rw [List.append_nil] at hpassword
  have hflags : ∀ username password : Bool, (password = true → username = true) →
      (flagsOf username password).toNat % 2 = 0 ∧
      (flagsOf username password).toNat.testBit 1 = true ∧
      (flagsOf username password).toNat.testBit 2 = false ∧
      (flagsOf username password).toNat.testBit 6 = password ∧
      (flagsOf username password).toNat.testBit 7 = username := by decide
  have hneeds : config.sentPassword.isSome = true → config.username.isSome = true := by
    unfold MqttConfig.sentPassword
    cases config.username <;> simp
  obtain ⟨hreserved, hclean, hwill, hpasswordFlag, husernameFlag⟩ := hflags _ _ hneeds
  rw [readBody, bodyOf, hname]
  simp [guard, protocolLevel, hreserved, hclean, hwill, hpasswordFlag, husernameFlag,
    hkeepAlive, hclient, readWill, husername, hpassword]
  rw [if_pos hneeds]
  rfl

theorem encodeConnect_of_fits (h : Fits config clientId) : encodeConnect config clientId =
      some (connect :: (varint (bodyOf config clientId).length ++ bodyOf config clientId)) := by
  have hname := encodeString_of_le (js "MQTT") (by decide)
  have hclient := encodeString_of_le clientId h.1
  have husername := encodeOptional_of_le h.2.1
  have hpassword := encodeOptional_of_le h.2.2
  have hkeepAlive : writeUInt16BE (alloc 2) keepAliveSeconds 0 = some (lowBytes 2 keepAliveSeconds) := by
    decide
  have hsent : (if config.username.isNone then none else config.password) = config.sentPassword := by
    unfold MqttConfig.sentPassword
    cases config.username <;> rfl
  have hflags : ∀ username password : Bool,
      (if password then
        (if username then cleanSession ||| usernameFlag else cleanSession) ||| passwordFlag
      else if username then cleanSession ||| usernameFlag else cleanSession).toUInt8 =
        flagsOf username password := by decide
  rw [encodeConnect]
  simp only [hsent, hname, hclient, husername, hpassword, hkeepAlive, hflags, Option.bind_eq_bind,
    Option.bind_some, encodeRemainingLength_eq]
  simp [bodyOf]

theorem encodeConnect_of_not_fits (h : ¬Fits config clientId) :
    encodeConnect config clientId = none := by
  have hsent : (if config.username.isNone then none else config.password) = config.sentPassword := by
    unfold MqttConfig.sentPassword
    cases config.username <;> rfl
  have hname := encodeString_of_le (js "MQTT") (by decide)
  have hkeepAlive : writeUInt16BE (alloc 2) keepAliveSeconds 0 = some (lowBytes 2 keepAliveSeconds) := by
    decide
  rw [encodeConnect]
  simp only [hsent, hname, hkeepAlive, Option.bind_eq_bind, Option.bind_some]
  by_cases hclient : byteLength clientId ≤ 65535
  · by_cases husername : ∀ username ∈ config.username, byteLength username ≤ 65535
    · have hpassword : ¬∀ password ∈ config.sentPassword, byteLength password ≤ 65535 :=
        fun hpassword => h ⟨hclient, husername, hpassword⟩
      rw [encodeString_of_le _ hclient, encodeOptional_of_le husername,
        encodeOptional_of_gt hpassword]
      rfl
    · rw [encodeString_of_le _ hclient, encodeOptional_of_gt husername]
      rfl
  · rw [encodeString_of_gt hclient]
    rfl

theorem length_bodyOf (h : Fits config clientId) : (bodyOf config clientId).length < 128 ^ 4 := by
  have hclient : (utf8 clientId).length ≤ 65535 := h.1
  have husername := length_optional h.2.1
  have hpassword := length_optional h.2.2
  have hname : (prefixed (utf8 (js "MQTT"))).length = 6 := by decide
  simp only [bodyOf, List.length_append, List.length_cons, hname, length_prefixed, length_lowBytes]
  omega

theorem readConnect_encodeConnect (h : Fits config clientId) :
    ∃ packet, encodeConnect config clientId = some packet ∧
      readConnect packet = some (connectOf config clientId) := by
  refine ⟨_, encodeConnect_of_fits h, ?_⟩
  have hlength := readRemainingLength_varint (length_bodyOf h) (bodyOf config clientId)
  simp [readConnect, connect, guard, hlength, readBody_bodyOf h]

/-- A server reads the arguments of a command and nothing else, and a broker reads the client id, the
user name and, behind a user name only, the password.  A string that does not fit throws. -/
theorem credentials_read :
    (∀ args : List JsString, Redis.readCommand (Redis.encodeCommand args) = some (args.map utf8)) ∧
    ∀ (config : MqttConfig) (clientId : JsString),
      (Fits config clientId → ∃ packet, encodeConnect config clientId = some packet ∧
        readConnect packet = some (connectOf config clientId)) ∧
      (¬Fits config clientId → encodeConnect config clientId = none) :=
  ⟨Redis.readCommand_encodeCommand, fun _ _ => ⟨readConnect_encodeConnect, encodeConnect_of_not_fits⟩⟩

/-- A password without a user name. -/
def passwordOnly : MqttConfig where
  username := none
  password := some (js "secret")

/-- Not every password that is given is read: the one of a configuration without a user name is left
out. -/
theorem password_alone_dropped :
    ¬∀ (config : MqttConfig) (clientId : JsString) (packet : List UInt8),
      encodeConnect config clientId = some packet → ∃ read, readConnect packet = some read ∧
        read.clientId = utf8 clientId ∧ read.username = config.username.map utf8 ∧
        read.password = config.password.map utf8 ∧ (read.passwordFlag = config.password.isSome) := by
  intro h
  have hfits : Fits passwordOnly (js "vigil-monitor-00000000") :=
    ⟨by decide, by simp [passwordOnly], by simp [MqttConfig.sentPassword, passwordOnly]⟩
  obtain ⟨packet, hencode, hread⟩ := readConnect_encodeConnect hfits
  obtain ⟨read, hread', -, -, hpassword, -⟩ := h passwordOnly _ packet hencode
  rw [hread, Option.some_inj] at hread'
  rw [← hread'] at hpassword
  cases hpassword

end Vigil.Wire.Mqtt
