import Vigil.Monitors.Push
import Vigil.Net.Address

/-! The strings of another system in the forms that Vigil accepts, of `importers/rewrite.ts`.
`DOTTED_PATH` is the automaton of its pattern. -/

namespace Vigil.Importers.Rewrite

open Js.Text
open Monitors.Push (trim)
open Net.Address (isDigit)

/-- What `new URL` makes of a text.  `bare` is `toString` after the user name and the password were
set to nothing. -/
structure ParsedUrl where
  href : JsString
  username : JsString
  password : JsString
  hostname : JsString
  bare : JsString

/-- What the language knows of Unicode, of URLs and of writing a number down. -/
structure Platform where
  toUpperCase : JsString → JsString
  parseUrl : JsString → Option ParsedUrl
  numberText : ℚ → JsString

/-- `text.includes(part)` -/
def includes (text part : JsString) : Bool := text.tails.any part.isPrefixOf

def clamp (value minimum maximum : ℤ) : ℤ := min maximum (max minimum value)

/-! ### JSON paths -/

/-- `[A-Za-z0-9_-]` -/
def isPathUnit (c : UInt16) : Bool := Monitors.Push.isTokenUnit c

/-- How far the pattern has come: before a name, in one, after `[`, in an index, after `]`. -/
inductive PathState where
  | segment
  | name
  | opened
  | index
  | closed
  deriving DecidableEq

def PathState.step (state : PathState) (c : UInt16) : Option PathState :=
  match state with
  | .segment => if isPathUnit c then some .name else none
  | .name =>
    if isPathUnit c then some .name
    else if c = 0x5B then some .opened
    else if c = 0x2E then some .segment
    else none
  | .opened => if isDigit c then some .index else none
  | .index => if isDigit c then some .index else if c = 0x5D then some .closed else none
  | .closed =>
    if c = 0x5B then some .opened else if c = 0x2E then some .segment else none

/-- `DOTTED_PATH.test`. -/
def dottedPath (path : JsString) : Bool :=
  match path.foldlM PathState.step .segment with
  | some .name | some .closed => true
  | _ => false

def vigilJsonPath (sourcePath : JsString) : Option JsString :=
  let path := trim sourcePath
  if (js "$.").isPrefixOf path then
    let rest := path.drop 2
    if dottedPath rest then some rest else none
  else if path = js "$" then none
  else if dottedPath path then some path
  else none

/-! ### URLs -/

variable (p : Platform)

structure Stripped where
  url : JsString
  hadCredentials : Bool

def stripUrlCredentials (value : JsString) : Stripped :=
  match p.parseUrl (trim value) with
  | none => { url := trim value, hadCredentials := false }
  | some url =>
    if url.username = [] ∧ url.password = [] then { url := url.href, hadCredentials := false }
    else { url := url.bare, hadCredentials := true }

/-- `replace(/^\[|\]$/g, "")` -/
def unbracket (host : JsString) : JsString :=
  let opened := if (js "[").isPrefixOf host then host.drop 1 else host
  if (js "]").isSuffixOf opened then opened.dropLast else opened

/-- The host of a URL, without brackets. -/
def hostOf (value : JsString) : Option JsString :=
  match p.parseUrl (trim value) with
  | none => none
  | some url =>
    let host := unbracket url.hostname
    if host.length > 0 then some host else none

end Vigil.Importers.Rewrite
