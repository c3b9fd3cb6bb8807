import Vigil.Monitors.Config
import Mathlib.Data.List.DropRight

/-! The stored settings of a push monitor, of `types/specs/push.ts`.  A write that submits no token
draws one, so every push monitor that is stored has a token. -/

namespace Vigil.Monitors.Push

open Js.Text Js.Object Ledger.Canonical Config

/-- White space and line terminators, which `trim` takes off. -/
def isTrimmed (c : UInt16) : Bool :=
  (0x09 ≤ c && c ≤ 0x0D) || (0x2000 ≤ c && c ≤ 0x200A) ||
    [0x20, 0xA0, 0x1680, 0x2028, 0x2029, 0x202F, 0x205F, 0x3000, 0xFEFF].contains c

def trim (s : JsString) : JsString := (s.dropWhile isTrimmed).rdropWhile isTrimmed

theorem trim_trim (s : JsString) : trim (trim s) = trim s := by
  unfold trim
  have hstart : ((s.dropWhile isTrimmed).rdropWhile isTrimmed).dropWhile isTrimmed =
      (s.dropWhile isTrimmed).rdropWhile isTrimmed := by
    obtain ⟨rest, hrest⟩ := List.rdropWhile_prefix isTrimmed (s.dropWhile isTrimmed)
    cases hinner : (s.dropWhile isTrimmed).rdropWhile isTrimmed with
    | nil => rfl
    | cons c inner =>
      have hcons : s.dropWhile isTrimmed = c :: (inner ++ rest) := by
        rw [← hrest, hinner, List.cons_append]
      have hhead := List.head?_dropWhile_not isTrimmed s
      rw [hcons] at hhead
      exact List.dropWhile_cons_of_neg (by simpa using hhead)
  rw [hstart, List.rdropWhile_idempotent]

theorem trim_eq_self_iff {s : JsString} :
    trim s = s ↔ s.dropWhile isTrimmed = s ∧ s.rdropWhile isTrimmed = s := by
  constructor
  · intro h
    have hsuffix : s.dropWhile isTrimmed <:+ s := List.dropWhile_suffix isTrimmed
    have hprefix : trim s <+: s.dropWhile isTrimmed := List.rdropWhile_prefix isTrimmed _
    rw [h] at hprefix
    have hstart : s.dropWhile isTrimmed = s :=
      hsuffix.eq_of_length (le_antisymm hsuffix.length_le hprefix.length_le)
    rw [trim, hstart] at h
    exact ⟨hstart, h⟩
  · rintro ⟨hstart, hend⟩
    rw [trim, hstart, hend]

theorem trim_of_ends {first middle last : JsString} (hfirst : first ≠ []) (hlast : last ≠ [])
    (h : trim (first ++ (middle ++ last)) = first ++ (middle ++ last)) (middle' : JsString) :
    trim (first ++ (middle' ++ last)) = first ++ (middle' ++ last) := by
  rw [trim_eq_self_iff, List.dropWhile_eq_self_iff, List.rdropWhile_eq_self_iff] at h ⊢
  obtain ⟨hstart, hend⟩ := h
  have hpos : 0 < first.length := List.length_pos_iff.mpr hfirst
  refine ⟨fun hl => ?_, fun hl => ?_⟩
  · rw [List.getElem_append_left hpos]
    have := hstart (by rw [List.length_append]; omega)
    rwa [List.getElem_append_left hpos] at this
  · have := hend (List.append_ne_nil_of_left_ne_nil hfirst _)
    rw [List.getLast_append_of_ne_nil _ (List.append_ne_nil_of_right_ne_nil _ hlast),
      List.getLast_append_of_ne_nil _ hlast] at this ⊢
    exact this

/-- `[A-Za-z0-9_-]` -/
def isTokenUnit (c : UInt16) : Bool :=
  (0x41 ≤ c && c ≤ 0x5A) || (0x61 ≤ c && c ≤ 0x7A) || (0x30 ≤ c && c ≤ 0x39) ||
    c = 0x5F || c = 0x2D

/-- `TOKEN_PATTERN`. -/
def tokenPattern (s : JsString) : Bool :=
  32 ≤ s.length && s.length ≤ 128 && s.all isTokenUnit

def defaultHeartbeatGraceSeconds : ℤ := 30

def tokenKey : JsString := js "token"

def graceSecondsKey : JsString := js "graceSeconds"

/-- The field `token` of `pushStoredSchema`, where `drawn` is what `newPushToken` gives. -/
def parseToken (drawn : JsString) : JsValue → Option JsString
  | .undefined => some drawn
  | .string s => if tokenPattern (trim s) then some (trim s) else none
  | _ => none

def parseGraceSeconds : JsValue → Option ℤ
  | .undefined => some defaultHeartbeatGraceSeconds
  | .number (.integer n) => if 0 ≤ n ∧ n ≤ 86400 then some n else none
  | _ => none

/-- `pushStoredSchema`. -/
def pushStoredSchema (drawn : JsString) (o : JsObject) : Option JsValue := do
  let token ← parseToken drawn (o.get tokenKey)
  let graceSeconds ← parseGraceSeconds (o.get graceSecondsKey)
  return .object [(tokenKey, .string token), (graceSecondsKey, .number (.integer graceSeconds))]

def pushSpec (drawn : JsString) : CheckTypeSpec where
  id := "push"
  storedSchema := .object (pushStoredSchema drawn)
  secretFields := [tokenKey]
  nodup := List.nodup_singleton _
  no_proto := by decide

/-- `config ->> 'token'`, of a config whose token is a string or absent. -/
def tokenOf (config : JsValue) : Option JsString :=
  match (asRecord config).lookup tokenKey with
  | some (.string token) => some token
  | _ => none

theorem tokenOf_mergeConfig {drawn : JsString} {stored patch : JsValue}
    {storedCheckType : Option String} {config : JsValue}
    (h : mergeConfig (pushSpec drawn) stored patch storedCheckType = some config) :
    ∃ token, tokenOf config = some token := by
  obtain ⟨token, -, hrest⟩ := Option.bind_eq_some_iff.mp h
  obtain ⟨graceSeconds, -, hconfig⟩ := Option.bind_eq_some_iff.mp hrest
  cases hconfig
  refine ⟨token, ?_⟩
  rw [tokenOf, asRecord, List.lookup_cons_self]

end Vigil.Monitors.Push
