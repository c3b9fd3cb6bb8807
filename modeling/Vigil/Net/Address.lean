import Vigil.Js.Text

/-! What an address is: `monitors/net.ts`.  The string functions of the language come first.  Case
conversion is exact on ASCII and on the units whose image has an ASCII unit; it leaves other units
as they are, which no comparison below can tell from their image. -/

namespace Vigil.Net.Address

open Js.Text

/-! ### Functions of the language -/

/-- `split` from the place `skip` units ahead, where `current` is the part read so far. -/
def splitFrom (separator : JsString) : ℕ → JsString → JsString → List JsString
  | _, current, [] => [current]
  | skip + 1, current, _ :: rest => splitFrom separator skip current rest
  | 0, current, c :: rest =>
    if separator.isPrefixOf (c :: rest) then
      current :: splitFrom separator (separator.length - 1) [] rest
    else splitFrom separator 0 (current ++ [c]) rest

/-- `s.split(separator)` for a separator that is not empty. -/
def split (separator s : JsString) : List JsString := splitFrom separator 0 [] s

def startsWith (s text : JsString) : Bool := text.isPrefixOf s

def endsWith (s text : JsString) : Bool := text.isSuffixOf s

/-- `parts.join(separator)` -/
def join (parts : List JsString) (separator : JsString) : JsString :=
  (parts.intersperse separator).flatten

def lowerAscii (c : UInt16) : UInt16 := if 0x41 ≤ c && c ≤ 0x5A then c + 32 else c

def upperAscii (c : UInt16) : UInt16 := if 0x61 ≤ c && c ≤ 0x7A then c - 32 else c

def toLowerCase (s : JsString) : JsString :=
  s.flatMap fun c =>
    if c = 0x0130 then [0x69, 0x0307]
    else if c = 0x212A then js "k"
    else [lowerAscii c]

/-- The units outside ASCII whose upper case has an ASCII unit. -/
def upperToAscii : List (UInt16 × JsString) :=
  [(0x00DF, js "SS"), (0x0131, js "I"), (0x0149, [0x02BC, 0x4E]), (0x017F, js "S"),
    (0x01F0, [0x4A, 0x030C]), (0x1E96, [0x48, 0x0331]), (0x1E97, [0x54, 0x0308]),
    (0x1E98, [0x57, 0x030A]), (0x1E99, [0x59, 0x030A]), (0x1E9A, [0x41, 0x02BE]),
    (0xFB00, js "FF"), (0xFB01, js "FI"), (0xFB02, js "FL"), (0xFB03, js "FFI"),
    (0xFB04, js "FFL"), (0xFB05, js "ST"), (0xFB06, js "ST")]

def toUpperCase (s : JsString) : JsString :=
  s.flatMap fun c => (upperToAscii.lookup c).getD [upperAscii c]

/-- `\d` -/
def isDigit (c : UInt16) : Bool := 0x30 ≤ c && c ≤ 0x39

def isLowerHex (c : UInt16) : Bool := isDigit c || (0x61 ≤ c && c ≤ 0x66)

def digitValue (c : UInt16) : ℕ := if isDigit c then c.toNat - 0x30 else c.toNat - 0x61 + 10

/-- `Number(s)` and `Number.parseInt(s, base)` of a string of digits. -/
def parseDigits (base : ℕ) (s : JsString) : ℕ := s.foldl (fun n c => n * base + digitValue c) 0

/-! ### Classes -/

/-- What an address is to the guard. -/
inductive AddressClass where
  | public_
  | private_
  | loopback
  | linkLocal
  | metadata
  | unspecified
  | reserved
  deriving DecidableEq, Repr

/-- The version of an address and its class. -/
structure ParsedAddress where
  family : ℕ
  classification : AddressClass
  deriving DecidableEq, Repr

def FORBIDDEN_HOSTNAMES : List JsString := [js "metadata.google.internal", js "metadata.goog"]

def METADATA_IP : JsString := js "169.254.169.254"

def METADATA_IPV4 : List JsString := [METADATA_IP, js "169.254.170.2"]

/-- Classes no policy may ever unblock. -/
def NEVER_REACHABLE : List AddressClass := [.metadata, .linkLocal, .unspecified, .reserved]

/-- Lower-cased, unbracketed, zone-stripped. -/
def normalizeHost (host : JsString) : JsString :=
  let withoutZone := (split (js "%") host).headD []
  let unbracketed :=
    if startsWith withoutZone (js "[") && endsWith withoutZone (js "]") then
      (withoutZone.drop 1).dropLast
    else withoutZone
  toLowerCase unbracketed

/-! ### IPv4 -/

/-- One part of a dotted quad; leading zeros are rejected. -/
def parseOctet (part : JsString) : Option ℕ :=
  if 1 ≤ part.length && part.length ≤ 3 && part.all isDigit then
    if part.length > 1 && startsWith part (js "0") then none
    else if parseDigits 10 part > 255 then none
    else some (parseDigits 10 part)
  else none

def parseIPv4 (value : JsString) : Option (List ℕ) :=
  let parts := split (js ".") value
  if parts.length ≠ 4 then none else parts.mapM parseOctet

/-- The class of an address, by its first octets. -/
def classifyIPv4 (octets : List ℕ) : AddressClass :=
  let a := octets.getD 0 0
  let b := octets.getD 1 0
  let c := octets.getD 2 0
  let d := octets.getD 3 0
  if a = 0 then if b = 0 ∧ c = 0 ∧ d = 0 then .unspecified else .reserved
  else if a = 10 then .private_
  else if a = 127 then .loopback
  else if a = 100 ∧ b ≥ 64 ∧ b ≤ 127 then .private_
  else if a = 169 ∧ b = 254 then
    if METADATA_IPV4.contains (join (octets.map fun n => decimal n) (js ".")) then .metadata
    else .linkLocal
  else if a = 172 ∧ b ≥ 16 ∧ b ≤ 31 then .private_
  else if a = 192 ∧ b = 0 ∧ c = 0 then .reserved
  else if a = 192 ∧ b = 0 ∧ c = 2 then .reserved
  else if a = 192 ∧ b = 88 ∧ c = 99 then .reserved
  else if a = 192 ∧ b = 168 then .private_
  else if a = 198 ∧ (b = 18 ∨ b = 19) then .reserved
  else if a = 198 ∧ b = 51 ∧ c = 100 then .reserved
  else if a = 203 ∧ b = 0 ∧ c = 113 then .reserved
  else if a ≥ 224 then .reserved
  else .public_

/-! ### IPv6 -/

/-- The hextets of the tokens between colons; a dotted quad stands for the two last ones. -/
def expandTokens : List JsString → Option (List ℕ)
  | [] => some []
  | token :: rest =>
    if token.contains 0x2E then
      if rest ≠ [] then none
      else
        (parseIPv4 token).map fun octets =>
          [octets.getD 0 0 <<< 8 ||| octets.getD 1 0, octets.getD 2 0 <<< 8 ||| octets.getD 3 0]
    else if 1 ≤ token.length && token.length ≤ 4 && token.all isLowerHex then
      (expandTokens rest).map (parseDigits 16 token :: ·)
    else none

def expandGroups (segment : JsString) : Option (List ℕ) :=
  if segment.length = 0 then some []
  else (expandTokens (split (js ":") segment)).filter (·.length ≤ 8)

def parseIPv6 (value : JsString) : Option (List ℕ) :=
  match split (js "::") value with
  | [head] => (expandGroups head).filter (·.length = 8)
  | [head, tail] =>
    match expandGroups head, expandGroups tail with
    | some leading, some trailing =>
      -- an elision has to stand for at least one hextet
      if leading.length + trailing.length > 7 then none
      else some (leading ++ List.replicate (8 - leading.length - trailing.length) 0 ++ trailing)
    | _, _ => none
  | _ => none

def zeros (hextets : List ℕ) (first last : ℕ) : Bool :=
  ((hextets.drop first).take (last + 1 - first)).all (· = 0)

def splitHextet (hextet : ℕ) : List ℕ := [hextet >>> 8, hextet &&& 0xff]

/-- The IPv4 an address embeds, for the prefixes that embed one. -/
def embeddedIPv4 (hextets : List ℕ) : Option (List ℕ) :=
  let at_ (index : ℕ) := hextets.getD index 0
  let low := splitHextet (at_ 6) ++ splitHextet (at_ 7)
  if zeros hextets 0 4 && (at_ 5 = 0xffff || at_ 5 = 0x0000) then some low
  else if zeros hextets 0 3 && at_ 4 = 0xffff && at_ 5 = 0x0000 then some low
  else if at_ 0 = 0x0064 && at_ 1 = 0xff9b && zeros hextets 2 5 then some low
  else if at_ 0 = 0x2002 then some (splitHextet (at_ 1) ++ splitHextet (at_ 2))
  else none

/-- The class of an address; one that holds an IPv4 address has the class of that. -/
def classifyIPv6 (hextets : List ℕ) : AddressClass :=
  let at_ (index : ℕ) := hextets.getD index 0
  if zeros hextets 0 7 then .unspecified
  else if zeros hextets 0 6 && at_ 7 = 1 then .loopback
  else
    match embeddedIPv4 hextets with
    | some embedded => classifyIPv4 embedded
    | none =>
      if at_ 0 = 0x2001 && at_ 1 = 0x0000 then .reserved
      else if at_ 0 = 0x2001 && at_ 1 = 0x0db8 then .reserved
      else if at_ 0 = 0x0100 && zeros hextets 1 3 then .reserved
      else if at_ 0 &&& 0xff00 = 0xff00 then .reserved
      else if at_ 0 &&& 0xffc0 = 0xfe80 then .linkLocal
      else if at_ 0 &&& 0xffc0 = 0xfec0 then .private_
      else if at_ 0 = 0xfd00 && at_ 1 = 0x0ec2 && zeros hextets 2 6 && at_ 7 = 0x0254 then .metadata
      else if at_ 0 &&& 0xfe00 = 0xfc00 then .private_
      else .public_

/-! ### The questions that other modules ask -/

def parseAddress (value : JsString) : Option ParsedAddress :=
  let address := normalizeHost value
  match parseIPv4 address with
  | some octets => some ⟨4, classifyIPv4 octets⟩
  | none => (parseIPv6 address).map fun hextets => ⟨6, classifyIPv6 hextets⟩

/-- The class of an IP literal; `none` for anything else. -/
def classifyAddress (value : JsString) : Option AddressClass :=
  (parseAddress value).map (·.classification)

def isNeverReachable (classification : AddressClass) : Bool :=
  NEVER_REACHABLE.contains classification

def isForbiddenEgressHost (host : JsString) : Bool :=
  FORBIDDEN_HOSTNAMES.contains (normalizeHost host) ||
    (classifyAddress (normalizeHost host)).any isNeverReachable

example : classifyAddress (js "[::FFFF:169.254.169.254]") = some .metadata := by decide +kernel

end Vigil.Net.Address
