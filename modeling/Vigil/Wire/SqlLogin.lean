import Vigil.Js.Text
import Vigil.Lib.Buffer
import Vigil.Lib.LittleEndian

/-! The LOGIN7 message of `monitors/types/probes/sqlserver.ts`: a fixed header whose table says where
each string begins and how many characters it has, and the strings behind it.  An offset or a count
that does not fit its two bytes throws. -/

namespace Vigil.Wire.SqlLogin

open Js.Text Lib.Buffer Lib.LittleEndian

/-! ### The message -/

/-- What a connection is opened with. -/
structure SqlServerConnection where
  hostname : JsString
  username : JsString
  password : JsString
  database : Option JsString
  deriving DecidableEq, Repr

def clientName : JsString := js "vigil"

/-- TDS 7.4 -/
def tdsVersion : ℕ := 0x74000004

def login7FixedBytes : ℕ := 94

def alloc (size : ℕ) : List UInt8 := List.replicate size 0

/-- `Buffer.from(value, "ucs2")` -/
def ucs2 (value : JsString) : List UInt8 :=
  value.flatMap fun c => [(c.toNat % 256).toUInt8, (c.toNat / 256).toUInt8]

/-- `(((byte << 4) | (byte >> 4)) & 0xff) ^ 0xa5` -/
def scrambleByte (byte : UInt8) : UInt8 :=
  (((byte.toNat <<< 4 ||| byte.toNat >>> 4) &&& 0xff) ^^^ 0xa5).toUInt8

def obfuscatePassword (password : List UInt8) : List UInt8 :=
  (List.range password.length).foldl
    (fun scrambled index => scrambled.set index (scrambleByte (password.getD index 0)))
    (alloc password.length)

/-- `writeUInt16LE` and its kin, which throw for a number out of range. -/
def writeUIntLE (count : ℕ) (buffer : List UInt8) (value offset : ℕ) : Option (List UInt8) :=
  if value < 256 ^ count then some (writeAt buffer offset (leBytes count value)) else none

def writeUInt8 : List UInt8 → ℕ → ℕ → Option (List UInt8) := writeUIntLE 1

def writeUInt16LE : List UInt8 → ℕ → ℕ → Option (List UInt8) := writeUIntLE 2

def writeUInt32LE : List UInt8 → ℕ → ℕ → Option (List UInt8) := writeUIntLE 4

def writeInt32LE (buffer : List UInt8) (value : ℤ) (offset : ℕ) : Option (List UInt8) :=
  if -(2 ^ 31) ≤ value ∧ value < 2 ^ 31 then some (writeAt buffer offset (leBytes 4 value)) else none

/-- The flags and numbers in front of the table. -/
def writeFixed (login : List UInt8) : Option (List UInt8) := do
  let login ← writeUInt32LE login login.length 0
  let login ← writeUInt32LE login tdsVersion 4
  let login ← writeUInt32LE login 4096 8
  let login ← writeUInt32LE login 0 12
  let login ← writeUInt32LE login 0 16
  let login ← writeUInt32LE login 0 20
  let login ← writeUInt8 login 0xe0 24
  let login ← writeUInt8 login 0x03 25
  let login ← writeUInt8 login 0x00 26
  let login ← writeUInt8 login 0x00 27
  let login ← writeInt32LE login 0 28
  writeUInt32LE login 0 32

/-- What `place` writes to: the message, and where the next string goes. -/
structure Draft where
  login : List UInt8
  offset : ℕ
  deriving DecidableEq

def place (position : ℕ) (value : List UInt8) (draft : Draft) : Option Draft := do
  let login ← writeUInt16LE draft.login draft.offset position
  let login ← writeUInt16LE login (value.length / 2) (position + 2)
  return ⟨writeAt login draft.offset value, draft.offset + value.length⟩

/-- An entry of the table that is not used. -/
def unused (position : ℕ) (draft : Draft) : Option Draft := do
  let login ← writeUInt16LE draft.login 0 position
  let login ← writeUInt16LE login 0 (position + 2)
  return { draft with login }

/-- The strings, and the entries of the table that point at them. -/
def placeStrings (hostName userName password appName serverName libraryName database login :
    List UInt8) : Option (List UInt8) := do
  let draft ← place 36 hostName ⟨login, login7FixedBytes⟩
  let draft ← place 40 userName draft
  let draft ← place 44 password draft
  let draft ← place 48 appName draft
  let draft ← place 52 serverName draft
  let draft ← unused 56 draft
  let draft ← place 60 libraryName draft
  let draft ← unused 64 draft
  let draft ← place 68 database draft
  let draft ← unused 78 draft
  let draft ← unused 82 draft
  let draft ← unused 86 draft
  writeUInt32LE draft.login 0 90

def buildLogin7 (connection : SqlServerConnection) : Option (List UInt8) := do
  let hostName := ucs2 clientName
  let userName := ucs2 connection.username
  let password := obfuscatePassword (ucs2 connection.password)
  let appName := ucs2 clientName
  let serverName := ucs2 connection.hostname
  let libraryName := ucs2 clientName
  let database := ucs2 (connection.database.getD [])
  let content := hostName ++ (userName ++ (password ++ (appName ++ (serverName ++ (libraryName ++
    database)))))
  let login ← writeFixed (alloc (login7FixedBytes + content.length))
  placeStrings hostName userName password appName serverName libraryName database login

/-! ### Reading the table -/

/-- The units that some bytes write, two bytes each. -/
def fromUcs2 : List UInt8 → JsString
  | low :: high :: rest => (low.toNat + 256 * high.toNat).toUInt16 :: fromUcs2 rest
  | _ => []

/-- The nibbles back in place, after the exclusive or. -/
def unscrambleByte (byte : UInt8) : UInt8 :=
  let swapped := byte.toNat ^^^ 0xa5
  (swapped / 16 + 16 * (swapped % 16)).toUInt8

/-- An offset, and how many bytes from there on. -/
def rangeAt (login : List UInt8) (position : ℕ) : ℕ × ℕ :=
  (unsignedLE (slice login position 2), 2 * unsignedLE (slice login (position + 2) 2))

def bytesAt (login : List UInt8) (position : ℕ) : List UInt8 :=
  slice login (rangeAt login position).1 (rangeAt login position).2

def textAt (login : List UInt8) (position : ℕ) : JsString := fromUcs2 (bytesAt login position)

/-- What a server reads in the message. -/
structure Readable (connection : SqlServerConnection) (login : List UInt8) : Prop where
  length : unsignedLE (slice login 0 4) = login.length
  hostName : textAt login 36 = clientName
  userName : textAt login 40 = connection.username
  password : fromUcs2 ((bytesAt login 44).map unscrambleByte) = connection.password
  appName : textAt login 48 = clientName
  serverName : textAt login 52 = connection.hostname
  libraryName : textAt login 60 = clientName
  database : textAt login 68 = connection.database.getD []
  tiles : Tiles login7FixedBytes login.length ([36, 40, 44, 48, 52, 60, 68].map (rangeAt login))
  disjoint : ([36, 40, 44, 48, 52, 60, 68].map (rangeAt login)).Pairwise
    fun before after => before.1 + before.2 ≤ after.1

/-- Every offset and every count fits two bytes: the last offset is the largest, and the strings
before it are shorter than it is. -/
def Fits (connection : SqlServerConnection) : Prop :=
  login7FixedBytes + 2 * (3 * clientName.length + connection.username.length +
    connection.password.length + connection.hostname.length) ≤ 65535 ∧
  (connection.database.getD []).length ≤ 65535

/-! ### Strings and passwords -/

@[simp] theorem length_alloc (size : ℕ) : (alloc size).length = size := List.length_replicate

@[simp] theorem length_ucs2 (value : JsString) : (ucs2 value).length = 2 * value.length := by
  induction value with
  | nil => rfl
  | cons c value ih =>
    rw [ucs2, List.flatMap_cons, List.length_append, List.length_cons]
    have hrest : (value.flatMap fun c => [(c.toNat % 256).toUInt8, (c.toNat / 256).toUInt8]).length =
        2 * value.length := ih
    rw [hrest]
    simp only [List.length_cons, List.length_nil]
    omega

theorem fromUcs2_ucs2 (value : JsString) : fromUcs2 (ucs2 value) = value := by
  induction value with
  | nil => rfl
  | cons c value ih =>
    have hlt : c.toNat < 65536 := c.toNat_lt
    have hlow : (c.toNat % 256).toUInt8.toNat = c.toNat % 256 := Nat.mod_eq_of_lt (by omega)
    have hhigh : (c.toNat / 256).toUInt8.toNat = c.toNat / 256 := Nat.mod_eq_of_lt (by omega)
    have hunit : c.toNat % 256 + 256 * (c.toNat / 256) = c.toNat := Nat.mod_add_div _ _
    have hstep : fromUcs2 (ucs2 (c :: value)) =
        ((c.toNat % 256).toUInt8.toNat + 256 * (c.toNat / 256).toUInt8.toNat).toUInt16 ::
          fromUcs2 (ucs2 value) := rfl
    rw [hstep, hlow, hhigh, hunit, ih]
    simp

theorem unscrambleByte_scrambleByte (byte : UInt8) : unscrambleByte (scrambleByte byte) = byte := by
  have hall : ∀ n < 256, unscrambleByte (scrambleByte n.toUInt8) = n.toUInt8 := by
    decide +kernel
  have h := hall byte.toNat byte.toNat_lt
  simpa using h

theorem obfuscatePassword_eq (password : List UInt8) :
    obfuscatePassword password = password.map scrambleByte := by
  have hloop := foldl_set (alloc password.length) 0 (fun index => scrambleByte (password.getD index 0))
    password.length (by rw [length_alloc, Nat.zero_add])
  have hmap : (List.range password.length).map (fun index => scrambleByte (password.getD index 0)) =
      password.map scrambleByte := by
    apply List.ext_getElem (by simp)
    intro i hi _
    simp at hi
    simp [hi]
  have hwrite := writeAt_between [] (alloc password.length) [] (password.map scrambleByte)
    (by rw [length_alloc, List.length_map])
  rw [List.nil_append, List.append_nil, List.nil_append, List.append_nil] at hwrite
  simp only [Nat.zero_add] at hloop
  rw [obfuscatePassword, hloop, hmap]
  exact hwrite

/-! ### Writing -/

/-- The message under construction: the header so far and its zeros, the strings so far and the zeros
that the others go to. -/
def draftOf (header : List UInt8) (zeros : ℕ) (done : List UInt8) (left : ℕ) : List UInt8 :=
  header ++ (alloc zeros ++ (done ++ alloc left))

/-- What the table says of a string. -/
def entry (offset count : ℕ) : List UInt8 := leBytes 2 offset ++ leBytes 2 count

section Writing

variable {header done value : List UInt8} {zeros left position count n : ℕ}

theorem alloc_add (a b : ℕ) : alloc (a + b) = alloc a ++ alloc b := List.replicate_add _ _ _

theorem alloc_of_le (h : count ≤ zeros) : alloc zeros = alloc count ++ alloc (zeros - count) := by
  rw [← alloc_add, Nat.add_sub_cancel' h]

theorem writeAt_draftOf (done : List UInt8) (left : ℕ) (content : List UInt8)
    (h : content.length ≤ zeros)
    (hposition : header.length = position) :
    writeAt (draftOf header zeros done left) position content =
      draftOf (header ++ content) (zeros - content.length) done left := by
  have hwrite := writeAt_between header (alloc content.length)
    (alloc (zeros - content.length) ++ (done ++ alloc left)) content (length_alloc _)
  rw [draftOf, alloc_of_le h, ← hposition, List.append_assoc, hwrite, draftOf, List.append_assoc]

theorem writeUIntLE_draftOf (done : List UInt8) (left : ℕ) (h : n < 256 ^ count)
    (hzeros : count ≤ zeros)
    (hposition : header.length = position) :
    writeUIntLE count (draftOf header zeros done left) n position =
      some (draftOf (header ++ leBytes count n) (zeros - count) done left) := by
  have hwrite := writeAt_draftOf done left (leBytes count n)
    (by rwa [length_leBytes] : (leBytes count n).length ≤ zeros) hposition
  rw [length_leBytes] at hwrite
  rw [writeUIntLE, if_pos h, hwrite]

theorem draftOf_skip (h : count ≤ zeros) :
    draftOf header zeros done left = draftOf (header ++ alloc count) (zeros - count) done left := by
  rw [draftOf, alloc_of_le h, draftOf, List.append_assoc, List.append_assoc]

theorem place_draftOf {offset : ℕ} (hposition : header.length = position) (hzeros : 4 ≤ zeros)
    (hoffset : header.length + zeros + done.length = offset) (hfits : offset < 65536)
    (hcount : value.length / 2 < 65536) :
    place position value ⟨draftOf header zeros done (value.length + left), offset⟩ =
      some ⟨draftOf (header ++ entry offset (value.length / 2)) (zeros - 4) (done ++ value) left,
        offset + value.length⟩ := by
  have hfirst := writeUIntLE_draftOf done (value.length + left) hfits (by omega : 2 ≤ zeros)
    hposition
  have hnext : (header ++ leBytes 2 offset).length = position + 2 := by
    rw [List.length_append, length_leBytes, hposition]
  have hsecond := writeUIntLE_draftOf done (value.length + left) hcount
    (by omega : 2 ≤ zeros - 2) hnext
  have hlength : (header ++ entry offset (value.length / 2) ++ (alloc (zeros - 4) ++ done)).length =
      offset := by
    simp only [entry, List.length_append, length_leBytes, length_alloc]
    omega
  have hcopy := writeAt_between
    (header ++ entry offset (value.length / 2) ++ (alloc (zeros - 4) ++ done)) (alloc value.length)
    (alloc left) value (length_alloc _)
  rw [hlength] at hcopy
  have hdraft : draftOf (header ++ leBytes 2 offset ++ leBytes 2 (value.length / 2)) (zeros - 2 - 2) done
      (value.length + left) = header ++ entry offset (value.length / 2) ++
        (alloc (zeros - 4) ++ done) ++ (alloc value.length ++ alloc left) := by
    rw [draftOf, alloc_add, entry]
    simp only [List.append_assoc]
    rfl
  have hwrites : place position value ⟨draftOf header zeros done (value.length + left), offset⟩ =
      some ⟨writeAt (draftOf (header ++ leBytes 2 offset ++ leBytes 2 (value.length / 2)) (zeros - 2 - 2)
        done (value.length + left)) offset value, offset + value.length⟩ := by
    simp only [place, writeUInt16LE, hfirst, Option.bind_eq_bind, Option.bind_some]
    exact congrArg (fun written => Option.bind written fun login =>
      some (Draft.mk (writeAt login offset value) (offset + value.length))) hsecond
  rw [hwrites, hdraft, hcopy, draftOf]
  simp only [List.append_assoc]

theorem unused_draftOf {offset : ℕ} (hposition : header.length = position) (hzeros : 4 ≤ zeros) :
    unused position ⟨draftOf header zeros done left, offset⟩ =
      some ⟨draftOf (header ++ entry 0 0) (zeros - 4) done left, offset⟩ := by
  have hzero : 0 < 256 ^ 2 := by decide
  have hfirst := writeUIntLE_draftOf done left hzero (by omega : 2 ≤ zeros) hposition
  have hnext : (header ++ leBytes 2 (0 : ℕ)).length = position + 2 := by
    rw [List.length_append, length_leBytes, hposition]
  have hsecond := writeUIntLE_draftOf done left hzero (by omega : 2 ≤ zeros - 2) hnext
  rw [List.append_assoc, Nat.sub_sub] at hsecond
  simp only [unused, writeUInt16LE, hfirst, Option.bind_eq_bind, Option.bind_some]
  exact congrArg (fun written => Option.bind written fun login => some (Draft.mk login offset)) hsecond

theorem place_eq_some {draft draft' : Draft} (h : place position value draft = some draft') :
    draft.offset < 65536 ∧ value.length / 2 < 65536 ∧
      draft'.offset = draft.offset + value.length := by
  simp only [place, writeUInt16LE, writeUIntLE, Option.bind_eq_bind, Option.bind_eq_some_iff,
    Option.ite_none_right_eq_some] at h
  obtain ⟨_, ⟨hoffset, -⟩, _, ⟨hcount, -⟩, hdraft⟩ := h
  exact ⟨hoffset, hcount, (congrArg Draft.offset (Option.some_inj.mp hdraft)).symm⟩

theorem unused_eq_some {draft draft' : Draft} (h : unused position draft = some draft') :
    draft'.offset = draft.offset := by
  simp only [unused, writeUInt16LE, writeUIntLE, Option.bind_eq_bind, Option.bind_eq_some_iff] at h
  obtain ⟨_, -, _, -, hdraft⟩ := h
  exact (congrArg Draft.offset (Option.some_inj.mp hdraft)).symm

end Writing

/-! ### The layout -/

/-- The header in front of the table. -/
def fixedHeader (length : ℕ) : List UInt8 :=
  leBytes 4 length ++ leBytes 4 tdsVersion ++ leBytes 4 4096 ++ leBytes 4 0 ++ leBytes 4 0 ++
    leBytes 4 0 ++ leBytes 1 0xe0 ++ leBytes 1 0x03 ++ leBytes 1 0x00 ++ leBytes 1 0x00 ++
    leBytes 4 0 ++ leBytes 4 0

theorem writeFixed_draftOf {left : ℕ} (h : 94 + left < 256 ^ 4) :
    writeFixed (draftOf [] 94 [] left) = some (draftOf (fixedHeader (94 + left)) 58 [] left) := by
  have hlength : (draftOf [] 94 [] left).length = 94 + left := by
    simp only [draftOf, List.nil_append, List.length_append, length_alloc]
  have htimeZone : ∀ (buffer : List UInt8) (offset : ℕ),
      writeInt32LE buffer 0 offset = writeUIntLE 4 buffer 0 offset := fun _ _ => rfl
  simp only [writeFixed, writeUInt32LE, writeUInt8, htimeZone, Option.bind_eq_bind]
  rw [hlength]
  rw [writeUIntLE_draftOf _ _ h, Option.bind_some, writeUIntLE_draftOf, Option.bind_some,
    writeUIntLE_draftOf, Option.bind_some, writeUIntLE_draftOf, Option.bind_some,
    writeUIntLE_draftOf, Option.bind_some, writeUIntLE_draftOf, Option.bind_some,
    writeUIntLE_draftOf, Option.bind_some, writeUIntLE_draftOf, Option.bind_some,
    writeUIntLE_draftOf, Option.bind_some, writeUIntLE_draftOf, Option.bind_some,
    writeUIntLE_draftOf, Option.bind_some, writeUIntLE_draftOf]
  · rfl
  all_goals simp [tdsVersion]

section Strings

variable (hostName userName password appName serverName libraryName database : List UInt8)

/-- The header with the whole table. -/
def tableOf (front : List UInt8) : List UInt8 :=
  front ++ entry 94 (hostName.length / 2) ++
    entry (94 + hostName.length) (userName.length / 2) ++
    entry (94 + hostName.length + userName.length) (password.length / 2) ++
    entry (94 + hostName.length + userName.length + password.length) (appName.length / 2) ++
    entry (94 + hostName.length + userName.length + password.length + appName.length)
      (serverName.length / 2) ++ entry 0 0 ++
    entry (94 + hostName.length + userName.length + password.length + appName.length +
      serverName.length) (libraryName.length / 2) ++ entry 0 0 ++
    entry (94 + hostName.length + userName.length + password.length + appName.length +
      serverName.length + libraryName.length) (database.length / 2) ++ alloc 6 ++ entry 0 0 ++
    entry 0 0 ++ entry 0 0 ++ leBytes 4 0

variable {hostName userName password appName serverName libraryName database}

theorem placeStrings_draftOf {front : List UInt8} (hfront : front.length = 36)
    (hoffset : 94 + hostName.length + userName.length + password.length + appName.length +
      serverName.length + libraryName.length < 65536) (hcount : database.length / 2 < 65536) :
    placeStrings hostName userName password appName serverName libraryName database
      (draftOf front 58 [] (hostName.length + (userName.length + (password.length +
        (appName.length + (serverName.length + (libraryName.length + (database.length + 0)))))))) =
      some (tableOf hostName userName password appName serverName libraryName database front ++
        (hostName ++ (userName ++ (password ++ (appName ++ (serverName ++ (libraryName ++
          database))))))) := by
  simp only [placeStrings, Option.bind_eq_bind, login7FixedBytes]
  rw [place_draftOf, Option.bind_some, place_draftOf, Option.bind_some, place_draftOf,
    Option.bind_some, place_draftOf, Option.bind_some, place_draftOf, Option.bind_some,
    unused_draftOf, Option.bind_some, place_draftOf, Option.bind_some, unused_draftOf,
    Option.bind_some, place_draftOf, Option.bind_some,
    draftOf_skip (by decide : 6 ≤ 58 - 4 - 4 - 4 - 4 - 4 - 4 - 4 - 4 - 4), unused_draftOf,
    Option.bind_some, unused_draftOf, Option.bind_some, unused_draftOf, Option.bind_some,
    writeUInt32LE, writeUIntLE_draftOf]
  · simp [draftOf, tableOf, alloc]
  all_goals try simp only [entry, List.length_append, length_leBytes, length_alloc, hfront,
    List.length_nil]
  all_goals omega

theorem rangeAt_skip {before : List UInt8} {size : ℕ} (h : before.length = size)
    (after : List UInt8) (position : ℕ) :
    rangeAt (before ++ after) (size + position) = rangeAt after position := by
  rw [← h, rangeAt, rangeAt, Nat.add_assoc, slice_skip, slice_skip]

theorem length_entry (offset count : ℕ) : (entry offset count).length = 4 := by
  rw [entry, List.length_append, length_leBytes, length_leBytes]

theorem rangeAt_entry {offset count : ℕ} (hoffset : offset < 65536) (hcount : count < 65536)
    (after : List UInt8) : rangeAt (entry offset count ++ after) 0 = (offset, 2 * count) := by
  have hfirst := slice_append [] (leBytes 2 offset) (leBytes 2 count ++ after)
  have hsecond := slice_append (leBytes 2 offset) (leBytes 2 count) after
  rw [length_leBytes] at hfirst hsecond
  rw [length_leBytes] at hsecond
  have hrange : rangeAt (entry offset count ++ after) 0 =
      (unsignedLE (leBytes 2 offset), 2 * unsignedLE (leBytes 2 count)) := by
    rw [rangeAt, entry, List.append_assoc]
    exact congrArg₂ (fun a b => (unsignedLE a, 2 * unsignedLE b)) hfirst hsecond
  rw [hrange, unsignedLE_leBytes hoffset, unsignedLE_leBytes hcount]

theorem rangeAt_next (offset count : ℕ) (after : List UInt8) (position : ℕ) :
    rangeAt (entry offset count ++ after) (4 + position) = rangeAt after position :=
  rangeAt_skip (length_entry offset count) after position

variable {front : List UInt8}

theorem rangeAt_tableOf (hfront : front.length = 36)
    (hoffset : 94 + hostName.length + userName.length + password.length + appName.length +
      serverName.length + libraryName.length < 65536) (hcount : database.length / 2 < 65536)
    (content : List UInt8) :
    [36, 40, 44, 48, 52, 60, 68].map (rangeAt (tableOf hostName userName password appName serverName
      libraryName database front ++ content)) =
      [(94, 2 * (hostName.length / 2)), (94 + hostName.length, 2 * (userName.length / 2)),
        (94 + hostName.length + userName.length, 2 * (password.length / 2)),
        (94 + hostName.length + userName.length + password.length, 2 * (appName.length / 2)),
        (94 + hostName.length + userName.length + password.length + appName.length,
          2 * (serverName.length / 2)),
        (94 + hostName.length + userName.length + password.length + appName.length +
          serverName.length, 2 * (libraryName.length / 2)),
        (94 + hostName.length + userName.length + password.length + appName.length +
          serverName.length + libraryName.length, 2 * (database.length / 2))] := by
  have hskip := rangeAt_skip hfront
  simp only [tableOf, List.append_assoc, List.map_cons, List.map_nil]
  refine congrArg₂ _ ?_ (congrArg₂ _ ?_ (congrArg₂ _ ?_ (congrArg₂ _ ?_ (congrArg₂ _ ?_
    (congrArg₂ _ ?_ (congrArg₂ _ ?_ rfl))))))
  · rw [hskip _ 0, rangeAt_entry (by omega) (by omega)]
  · rw [hskip _ (4 + 0), rangeAt_next, rangeAt_entry (by omega) (by omega)]
  · rw [hskip _ (4 + (4 + 0)), rangeAt_next, rangeAt_next, rangeAt_entry (by omega) (by omega)]
  · rw [hskip _ (4 + (4 + (4 + 0))), rangeAt_next, rangeAt_next, rangeAt_next,
      rangeAt_entry (by omega) (by omega)]
  · rw [hskip _ (4 + (4 + (4 + (4 + 0)))), rangeAt_next, rangeAt_next, rangeAt_next, rangeAt_next,
      rangeAt_entry (by omega) (by omega)]
  · rw [hskip _ (4 + (4 + (4 + (4 + (4 + (4 + 0)))))), rangeAt_next, rangeAt_next, rangeAt_next,
      rangeAt_next, rangeAt_next, rangeAt_next, rangeAt_entry (by omega) (by omega)]
  · rw [hskip _ (4 + (4 + (4 + (4 + (4 + (4 + (4 + (4 + 0)))))))), rangeAt_next, rangeAt_next,
      rangeAt_next, rangeAt_next, rangeAt_next, rangeAt_next, rangeAt_next, rangeAt_next,
      rangeAt_entry (by omega) (by omega)]

theorem length_tableOf (hfront : front.length = 36) :
    (tableOf hostName userName password appName serverName libraryName database front).length = 94 := by
  simp only [tableOf, List.length_append, length_entry, length_leBytes, length_alloc, hfront]

/-- Every string is read back, and the ranges stand one after another behind the table. -/
theorem bytesAt_tableOf (hfront : front.length = 36)
    (hoffset : 94 + hostName.length + userName.length + password.length + appName.length +
      serverName.length + libraryName.length < 65536) (hcount : database.length / 2 < 65536)
    (heven : ∀ value ∈ [hostName, userName, password, appName, serverName, libraryName, database], 2
      * (value.length / 2) = value.length) {login : List UInt8}
    (hlogin : login = tableOf hostName userName password appName serverName libraryName database
      front ++ [hostName, userName, password, appName, serverName, libraryName, database].flatten) :
    [36, 40, 44, 48, 52, 60, 68].map (bytesAt login) =
      [hostName, userName, password, appName, serverName, libraryName, database] ∧
    Tiles 94 login.length ([36, 40, 44, 48, 52, 60, 68].map (rangeAt login)) := by
  have htable :
      (tableOf hostName userName password appName serverName libraryName database front).length =
        94 := length_tableOf hfront
  have hranges : [36, 40, 44, 48, 52, 60, 68].map (rangeAt login) =
      spans 94 [hostName, userName, password, appName, serverName, libraryName, database] := by
    simp only [List.mem_cons, List.not_mem_nil, or_false, forall_eq_or_imp, forall_eq] at heven
    obtain ⟨hhost, huser, hpassword, happ, hserver, hlibrary, hdatabase⟩ := heven
    rw [hlogin, rangeAt_tableOf hfront hoffset hcount, hhost, huser, hpassword, happ, hserver,
      hlibrary, hdatabase]
    rfl
  constructor
  · have hread := map_slice_spans (tableOf hostName userName password appName serverName libraryName
      database front) [hostName, userName, password, appName, serverName, libraryName, database]
    rw [← hlogin, htable, ← hranges, List.map_map] at hread
    exact hread
  · have htiles := tiles_spans 94 [hostName, userName, password, appName, serverName, libraryName, database]
    rw [← htable, ← List.length_append, ← hlogin, htable, ← hranges] at htiles
    exact htiles

end Strings

@[simp] theorem length_obfuscatePassword (password : List UInt8) :
    (obfuscatePassword password).length = password.length := by
  rw [obfuscatePassword_eq, List.length_map]

/-- The strings of a message, in order. -/
def strings (connection : SqlServerConnection) : List (List UInt8) :=
  [ucs2 clientName, ucs2 connection.username, obfuscatePassword (ucs2 connection.password),
    ucs2 clientName, ucs2 connection.hostname, ucs2 clientName, ucs2 (connection.database.getD [])]

theorem even_strings (connection : SqlServerConnection) :
    ∀ value ∈ strings connection, 2 * (value.length / 2) = value.length := by
  intro value hvalue
  simp only [strings, List.mem_cons, List.not_mem_nil, or_false] at hvalue
  have heven : ∃ n, value.length = 2 * n := by
    rcases hvalue with rfl | rfl | rfl | rfl | rfl | rfl | rfl <;> simp
  obtain ⟨n, hn⟩ := heven
  omega

/-- The message of a connection that fits. -/
def loginOf (connection : SqlServerConnection) : List UInt8 :=
  tableOf (ucs2 clientName) (ucs2 connection.username) (obfuscatePassword (ucs2 connection.password))
    (ucs2 clientName) (ucs2 connection.hostname) (ucs2 clientName)
    (ucs2 (connection.database.getD [])) (fixedHeader (94 + (strings connection).flatten.length)) ++
    (strings connection).flatten

theorem length_fixedHeader (length : ℕ) : (fixedHeader length).length = 36 := by
  simp only [fixedHeader, List.length_append, length_leBytes]

variable {connection : SqlServerConnection}

theorem length_strings_lt (h : Fits connection) :
    94 + (strings connection).flatten.length < 256 ^ 4 := by
  obtain ⟨hoffset, hcount⟩ := h
  have hbytes : login7FixedBytes = 94 := rfl
  simp only [strings, List.flatten_cons, List.flatten_nil, List.length_append, List.length_nil,
    length_ucs2, length_obfuscatePassword]
  omega

theorem buildLogin7_of_fits (h : Fits connection) :
    buildLogin7 connection = some (loginOf connection) := by
  obtain ⟨hoffset, hcount⟩ := h
  have hname : clientName.length = 5 := rfl
  have hbytes : login7FixedBytes = 94 := rfl
  have hflatten : ∀ a b c d e f g : List UInt8, a ++ (b ++ (c ++ (d ++ (e ++ (f ++ g))))) =
      [a, b, c, d, e, f, g].flatten := by
    intros
    simp
  have hlength : (strings connection).flatten.length =
      (ucs2 clientName).length + ((ucs2 connection.username).length +
        ((obfuscatePassword (ucs2 connection.password)).length + ((ucs2 clientName).length +
          ((ucs2 connection.hostname).length + ((ucs2 clientName).length +
            ((ucs2 (connection.database.getD [])).length + 0)))))) := by
    simp only [strings, List.flatten_cons, List.flatten_nil, List.length_append, List.length_nil]
  have halloc : ∀ n, alloc (login7FixedBytes + n) = draftOf [] 94 [] n := fun n => alloc_add 94 n
  have hplace := @placeStrings_draftOf (ucs2 clientName) (ucs2 connection.username)
    (obfuscatePassword (ucs2 connection.password)) (ucs2 clientName) (ucs2 connection.hostname)
    (ucs2 clientName) (ucs2 (connection.database.getD [])) _
    (length_fixedHeader (94 + (strings connection).flatten.length))
    (by simp only [length_ucs2, length_obfuscatePassword]; omega)
    (by simp only [length_ucs2]; omega)
  rw [← hlength, hflatten] at hplace
  have hbound := length_strings_lt ⟨hoffset, hcount⟩
  rw [buildLogin7, hflatten]
  show (writeFixed (alloc (login7FixedBytes + (strings connection).flatten.length))).bind _ = _
  rw [halloc, writeFixed_draftOf hbound, Option.bind_some]
  exact hplace

theorem readable_loginOf (h : Fits connection) : Readable connection (loginOf connection) := by
  obtain ⟨hoffset, hcount⟩ := h
  have hname : clientName.length = 5 := rfl
  have hbytes : login7FixedBytes = 94 := rfl
  obtain ⟨hread, htiles⟩ := bytesAt_tableOf (length_fixedHeader _)
    (by simp only [length_ucs2, length_obfuscatePassword]; omega)
    (by simp only [length_ucs2]; omega) (even_strings connection) (rfl : loginOf connection = _)
  simp only [List.map_cons, List.map_nil, List.cons.injEq, and_true] at hread
  obtain ⟨hhost, huser, hpassword, happ, hserver, hlibrary, hdatabase⟩ := hread
  refine ⟨?_, ?_, ?_, ?_, ?_, ?_, ?_, ?_, htiles, htiles.disjoint.2⟩
  · obtain ⟨rest, hrest⟩ : ∃ rest, loginOf connection =
        leBytes 4 (94 + (strings connection).flatten.length : ℕ) ++ rest := by
      simp only [loginOf, tableOf, fixedHeader, List.append_assoc]
      exact ⟨_, rfl⟩
    have hslice := slice_append [] (leBytes 4 (94 + (strings connection).flatten.length : ℕ)) rest
    have hlength : (loginOf connection).length = 94 + (strings connection).flatten.length := by
      rw [loginOf, List.length_append, length_tableOf (length_fixedHeader _)]
    rw [List.nil_append, ← hrest, length_leBytes, List.length_nil] at hslice
    rw [hslice, hlength, unsignedLE_leBytes (length_strings_lt ⟨hoffset, hcount⟩)]
  · rw [textAt, hhost, fromUcs2_ucs2]
  · rw [textAt, huser, fromUcs2_ucs2]
  · have hundone : ((ucs2 connection.password).map scrambleByte).map unscrambleByte =
        ucs2 connection.password := by
      rw [List.map_map]
      exact (List.map_congr_left fun byte _ => unscrambleByte_scrambleByte byte).trans (List.map_id _)
    rw [hpassword, obfuscatePassword_eq, hundone, fromUcs2_ucs2]
  · rw [textAt, happ, fromUcs2_ucs2]
  · rw [textAt, hserver, fromUcs2_ucs2]
  · rw [textAt, hlibrary, fromUcs2_ucs2]
  · rw [textAt, hdatabase, fromUcs2_ucs2]

theorem buildLogin7_of_not_fits (h : ¬Fits connection) : buildLogin7 connection = none := by
  rw [Option.eq_none_iff_forall_not_mem]
  intro login hlogin
  have hname : clientName.length = 5 := rfl
  obtain ⟨start, -, hstrings⟩ := Option.bind_eq_some_iff.mp hlogin
  simp only [placeStrings, Option.bind_eq_bind, Option.bind_eq_some_iff] at hstrings
  obtain ⟨d₁, h₁, d₂, h₂, d₃, h₃, d₄, h₄, d₅, h₅, d₆, h₆, d₇, h₇, d₈, h₈, d₉, h₉, -⟩ := hstrings
  have p₁ := place_eq_some h₁
  have p₂ := place_eq_some h₂
  have p₃ := place_eq_some h₃
  have p₄ := place_eq_some h₄
  have p₅ := place_eq_some h₅
  have p₆ := unused_eq_some h₆
  have p₇ := place_eq_some h₇
  have p₈ := unused_eq_some h₈
  have p₉ := place_eq_some h₉
  simp only [length_ucs2, length_obfuscatePassword] at p₁ p₂ p₃ p₄ p₅ p₇ p₉
  refine h ⟨?_, ?_⟩ <;> omega

/-- A message is produced exactly when its strings fit the table, and a server reads in it what was
given. -/
theorem buildLogin7_readable (connection : SqlServerConnection) :
    (Fits connection → ∃ login, buildLogin7 connection = some login ∧ Readable connection login) ∧
    (¬Fits connection → buildLogin7 connection = none) :=
  ⟨fun h => ⟨_, buildLogin7_of_fits h, readable_loginOf h⟩, buildLogin7_of_not_fits⟩

end Vigil.Wire.SqlLogin
