import Vigil.Js.Object

/-! Secrets in a monitor's config, of `monitors/types/config.ts`: what a form is given instead of
them, and how its patch is merged over the stored config.  A stored schema is whatever a type's
author wrote, so it is any function of the object that it is handed; it may throw, which is `none`
here. -/

namespace Vigil.Monitors.Config

open Js.Text Js.Object Ledger.Canonical

/-- `SECRET_MASK`. -/
def secretMask : JsString := js "__vigil_unchanged_secret__"

/-- The two kinds of stored schema: `flatColumnsOnly`, which takes anything, and a schema of an
object. -/
inductive StoredSchema where
  | flatColumnsOnly
  | object (parse : JsObject → Option JsValue)

/-- What a check type says about its config. -/
structure CheckTypeSpec where
  id : String
  storedSchema : StoredSchema
  secretFields : List JsString
  nodup : secretFields.Nodup
  /-- No object schema has such a field. -/
  no_proto : protoKey ∉ secretFields

def StoredSchema.parse : StoredSchema → JsObject → Option JsValue
  | .flatColumnsOnly, _ => some .null
  | .object parse, o => parse o

/-- `storedSchema.parse` of a value that may not be an object. -/
def StoredSchema.parseValue : StoredSchema → JsValue → Option JsValue
  | .flatColumnsOnly, _ => some .null
  | .object parse, .object entries => parse (.of entries)
  | .object _, _ => none

def asRecord : JsValue → Entries
  | .object entries => entries
  | _ => []

def isMask : JsValue → Bool
  | .string s => s = secretMask
  | _ => false

/-- What is shown for an entry of a secret map. -/
def maskEntry : JsValue → JsValue
  | .string [] => .string []
  | _ => .string secretMask

def maskMap (value : Entries) : Entries :=
  ((JsObject.of []).assignEach (fun _ entry => some (maskEntry entry)) value).own

/-- What is shown for a secret field, unless it is left as it is. -/
def maskValue : JsValue → Option JsValue
  | .null | .undefined => none
  | .object entries => some (.object (maskMap entries))
  | _ => some (.string secretMask)

def redactField (redacted : JsObject) (field : JsString) : JsObject :=
  match maskValue (redacted.get field) with
  | none => redacted
  | some value => redacted.assign field value

def redactConfig (spec : CheckTypeSpec) (config : JsValue) : JsValue :=
  if spec.secretFields = [] then config
  else .object (spec.secretFields.foldl redactField (.of (asRecord config))).own

def mergeSecretMap (stored : JsValue) (incoming : Entries) : Entries :=
  let existing := asRecord stored
  ((JsObject.of []).assignEach (fun key value =>
    if isMask value then existing.lookup key else some value) incoming).own

/-- What a submitted entry is merged to, unless it is passed over. -/
def mergeEntry (spec : CheckTypeSpec) (base : Entries) (key : JsString) (value : JsValue) :
    Option JsValue :=
  if spec.secretFields.contains key then
    if isMask value then none
    else match value with
      | .object entries => some (.object (mergeSecretMap ((JsObject.of base).get key) entries))
      | value => some value
  else some value

def baseOf (spec : CheckTypeSpec) (stored : JsValue) (storedCheckType : Option String) : Entries :=
  if storedCheckType.all (· = spec.id) then asRecord stored else []

/-- The value that `mergeConfig` hands to the stored schema. -/
def handed (spec : CheckTypeSpec) (stored patch : JsValue) (storedCheckType : Option String) :
    JsObject :=
  let base := baseOf spec stored storedCheckType
  match patch with
  | .undefined => .of base
  | patch => (JsObject.of base).assignEach (mergeEntry spec base) (asRecord patch)

def mergeConfig (spec : CheckTypeSpec) (stored patch : JsValue)
    (storedCheckType : Option String) : Option JsValue :=
  spec.storedSchema.parse (handed spec stored patch storedCheckType)

/-- No object has a key twice. -/
def WellKeyed (value : JsValue) : Prop :=
  (keys (asRecord value)).Nodup ∧ ∀ entry ∈ asRecord value, (keys (asRecord entry.2)).Nodup

/-- No secret map among the entries has the key `__proto__`. -/
def PlainMaps (spec : CheckTypeSpec) (entries : Entries) : Prop :=
  ∀ field ∈ spec.secretFields, ∀ m, (field, .object m) ∈ entries → protoKey ∉ keys m

/-! ### Maps -/

variable {m entries : Entries} {key : JsString} {value : JsValue} {storedCheckType : Option String}

theorem maskMap_eq (hkeys : (keys m).Nodup) (hproto : protoKey ∉ keys m) :
    maskMap m = m.map fun e => (e.1, maskEntry e.2) := by
  rw [maskMap, assignEach_of_nil hkeys hproto, ← List.filterMap_eq_map]
  rfl

theorem maskEntry_cases (value : JsValue) :
    (value = .string [] ∧ maskEntry value = .string []) ∨ maskEntry value = .string secretMask := by
  cases value with
  | string s =>
    cases s with
    | nil => exact .inl ⟨rfl, rfl⟩
    | cons c s => exact .inr rfl
  | _ => exact .inr rfl

theorem isMask_secretMask : isMask (.string secretMask) = true := by
  rw [isMask, decide_eq_true_eq]

theorem mem_unmask (hkeys : (keys m).Nodup) {e : JsString × JsValue} (he : e ∈ m) :
    (if isMask (maskEntry e.2) then m.lookup e.1 else some (maskEntry e.2)) = some e.2 := by
  rcases maskEntry_cases e.2 with ⟨hempty, hmasked⟩ | hmasked
  · rw [hmasked, if_neg (by decide), hempty]
  · rw [hmasked, if_pos isMask_secretMask, lookup_of_mem hkeys he]

theorem mergeSecretMap_maskMap (hkeys : (keys m).Nodup) (hproto : protoKey ∉ keys m) :
    mergeSecretMap (.object m) (maskMap m) = m := by
  have hsame : keys (m.map fun e => (e.1, maskEntry e.2)) = keys m := by
    rw [keys, List.map_map]
    rfl
  rw [maskMap_eq hkeys hproto, mergeSecretMap, assignEach_of_nil (by rwa [hsame]) (by rwa [hsame]),
    List.filterMap_map]
  calc m.filterMap _ = m.filterMap some := by
        refine List.filterMap_congr fun e he => ?_
        rw [Function.comp_apply, asRecord, mem_unmask hkeys he]
        rfl
    _ = m := List.filterMap_some

/-! ### Redaction -/

theorem get_of_lookup {o : JsObject} (h : o.own.lookup key = some value) : o.get key = value := by
  rw [JsObject.get, h]

theorem get_of_none (h : entries.lookup key = none) :
    (JsObject.of entries).get key = .function ∨ (JsObject.of entries).get key = .undefined := by
  rw [JsObject.get, JsObject.of, h]
  show (if key ∈ objectPrototype then JsValue.function else .undefined) = _ ∨
    (if key ∈ objectPrototype then JsValue.function else .undefined) = _
  split
  · exact .inl rfl
  · exact .inr rfl

theorem redactField_spec {o : JsObject} {field : JsString} (hfield : field ≠ protoKey) :
    (redactField o field).prototype = o.prototype ∧
    (∀ k, (redactField o field).own.lookup k =
      (if k = field then maskValue (o.get field) else none).or (o.own.lookup k)) ∧
    keys (redactField o field).own =
      if (maskValue (o.get field)).isSome ∧ field ∉ keys o.own then keys o.own ++ [field]
      else keys o.own := by
  rw [redactField]
  cases hmask : maskValue (o.get field) with
  | none => exact ⟨rfl, fun k => by simp, by simp⟩
  | some value =>
    dsimp only
    rw [assign_of_ne o hfield]
    refine ⟨rfl, fun k => ?_, ?_⟩
    · rw [lookup_setEntry]
      split
      · rfl
      · rfl
    · rw [keys_setEntry]
      by_cases hmem : field ∈ keys o.own
      · rw [if_pos hmem, if_neg (fun h => h.2 hmem)]
      · rw [if_neg hmem, if_pos ⟨rfl, hmem⟩]

theorem redactField_get {o : JsObject} {field k : JsString} (hfield : field ≠ protoKey)
    (hk : k ≠ field) : (redactField o field).get k = o.get k := by
  obtain ⟨hprototype, hlookup, -⟩ := redactField_spec (o := o) hfield
  rw [JsObject.get, JsObject.get, hprototype, hlookup k, if_neg hk, Option.none_or]

theorem foldl_redactField_lookup {fields : List JsString} (hnodup : fields.Nodup)
    (hproto : protoKey ∉ fields) (o : JsObject) (k : JsString) :
    (fields.foldl redactField o).own.lookup k =
      (if k ∈ fields then maskValue (o.get k) else none).or (o.own.lookup k) := by
  induction fields generalizing o with
  | nil => simp
  | cons field fields ih =>
    obtain ⟨hnew, hrest⟩ := List.nodup_cons.mp hnodup
    have hfield : field ≠ protoKey := fun h => hproto (h ▸ List.mem_cons_self)
    obtain ⟨-, hlookup, -⟩ := redactField_spec (o := o) hfield
    rw [List.foldl_cons, ih hrest (fun h => hproto (List.mem_cons_of_mem _ h)), hlookup]
    by_cases hk : k = field
    · subst hk
      rw [if_neg hnew, if_pos rfl, if_pos List.mem_cons_self, Option.none_or]
    · rw [redactField_get hfield hk, if_neg hk, Option.none_or]
      simp only [List.mem_cons, hk, false_or]

theorem foldl_redactField_nodup (fields : List JsString) {o : JsObject}
    (h : (keys o.own).Nodup) : (keys (fields.foldl redactField o).own).Nodup := by
  induction fields generalizing o with
  | nil => exact h
  | cons field fields ih =>
    refine ih ?_
    rw [redactField]
    cases maskValue (o.get field) with
    | none => exact h
    | some value => exact assign_nodup h field value

/-- Objects with the same keys, whose fields are masked alike, keep the same keys. -/
theorem foldl_redactField_keys {fields : List JsString} (hnodup : fields.Nodup)
    (hproto : protoKey ∉ fields) {o o' : JsObject} (hkeys : keys o.own = keys o'.own)
    (hmask : ∀ field ∈ fields, maskValue (o.get field) = maskValue (o'.get field)) :
    keys (fields.foldl redactField o).own = keys (fields.foldl redactField o').own := by
  induction fields generalizing o o' with
  | nil => exact hkeys
  | cons field fields ih =>
    obtain ⟨hnew, hrest⟩ := List.nodup_cons.mp hnodup
    have hfield : field ≠ protoKey := fun h => hproto (h ▸ List.mem_cons_self)
    refine ih hrest (fun h => hproto (List.mem_cons_of_mem _ h)) ?_ fun other hother => ?_
    · rw [(redactField_spec hfield).2.2, (redactField_spec hfield).2.2, hkeys,
        hmask field List.mem_cons_self]
    · have hne : other ≠ field := fun h => hnew (h ▸ hother)
      rw [redactField_get hfield hne, redactField_get hfield hne]
      exact hmask other (List.mem_cons_of_mem _ hother)

/-! ### The round trip -/

theorem maskValue_cases (value : JsValue) :
    (maskValue value = none ∧ ∀ entries, value ≠ .object entries) ∨
    (∃ entries, value = .object entries ∧ maskValue value = some (.object (maskMap entries))) ∨
    maskValue value = some (.string secretMask) := by
  cases value with
  | null => exact .inl ⟨rfl, nofun⟩
  | undefined => exact .inl ⟨rfl, nofun⟩
  | object entries => exact .inr (.inl ⟨entries, rfl, rfl⟩)
  | _ => exact .inr (.inr rfl)

/-! ### Merging an entry -/

theorem mergeEntry_mask {spec : CheckTypeSpec} (hkey : key ∈ spec.secretFields)
    (hmask : isMask value = true) (base : Entries) : mergeEntry spec base key value = none := by
  unfold mergeEntry
  rw [if_pos (List.contains_iff_mem.mpr hkey), if_pos hmask]

theorem mergeEntry_map {spec : CheckTypeSpec} (hkey : key ∈ spec.secretFields) (base m : Entries) :
    mergeEntry spec base key (.object m) =
      some (.object (mergeSecretMap ((JsObject.of base).get key) m)) := by
  unfold mergeEntry
  rw [if_pos (List.contains_iff_mem.mpr hkey)]
  rfl

theorem mergeEntry_value {spec : CheckTypeSpec} (hkey : key ∈ spec.secretFields)
    (hmask : isMask value = false) (hnot : ∀ m, value ≠ .object m) (base : Entries) :
    mergeEntry spec base key value = some value := by
  unfold mergeEntry
  rw [if_pos (List.contains_iff_mem.mpr hkey), hmask, if_neg Bool.false_ne_true]
  cases value with
  | object m => exact absurd rfl (hnot m)
  | _ => rfl

theorem mergeEntry_plain {spec : CheckTypeSpec} (hkey : key ∉ spec.secretFields) (base : Entries)
    (value : JsValue) : mergeEntry spec base key value = some value := by
  unfold mergeEntry
  exact if_neg (mt List.contains_iff_mem.mp hkey)

/-- An entry of the redacted config that is sent back is merged to what is stored, if to
anything. -/
theorem mergeEntry_redacted (spec : CheckTypeSpec)
    (hmaps : ∀ entry ∈ entries, (keys (asRecord entry.2)).Nodup) (hplain : PlainMaps spec entries)
    {shown value : JsValue}
    (hshown : (spec.secretFields.foldl redactField (.of entries)).own.lookup key = some shown)
    (hvalue : mergeEntry spec entries key shown = some value) :
    entries.lookup key = some value := by
  rw [foldl_redactField_lookup spec.nodup spec.no_proto] at hshown
  by_cases hsecret : key ∈ spec.secretFields
  · rw [if_pos hsecret] at hshown
    rcases maskValue_cases ((JsObject.of entries).get key) with
      ⟨hleft, hnot⟩ | ⟨m, hm, hmasked⟩ | hmasked
    · rw [hleft, Option.none_or] at hshown
      have hget := get_of_lookup hshown
      rw [hget] at hnot hleft
      have hmask : isMask shown = false := by
        cases shown with
        | string s => cases hleft
        | _ => rfl
      rw [mergeEntry_value hsecret hmask hnot] at hvalue
      exact (Option.some.inj hvalue) ▸ hshown
    · rw [hmasked, Option.some_or] at hshown
      cases hshown
      have hstored : entries.lookup key = some (.object m) := by
        cases hlookup : entries.lookup key with
        | none =>
          rcases get_of_none hlookup with hget | hget
          · rw [hm] at hget
            cases hget
          · rw [hm] at hget
            cases hget
        | some found =>
          have hfound := get_of_lookup (o := JsObject.of entries) hlookup
          rw [← hm, hfound]
      have hmem := mem_keys_of_lookup hstored
      have hnodup : (keys m).Nodup := hmaps _ hmem
      rw [mergeEntry_map hsecret, hm, mergeSecretMap_maskMap hnodup (hplain key hsecret m hmem)]
        at hvalue
      rw [hstored, hvalue]
    · rw [hmasked, Option.some_or] at hshown
      cases hshown
      rw [mergeEntry_mask hsecret isMask_secretMask] at hvalue
      cases hvalue
  · rw [if_neg hsecret, Option.none_or] at hshown
    rw [mergeEntry_plain hsecret] at hvalue
    exact (Option.some.inj hvalue) ▸ hshown

theorem handed_object (spec : CheckTypeSpec) (stored : JsValue) (patch : Entries)
    (storedCheckType : Option String) :
    handed spec stored (.object patch) storedCheckType =
      (JsObject.of (baseOf spec stored storedCheckType)).assignEach
        (mergeEntry spec (baseOf spec stored storedCheckType)) patch := rfl

theorem handed_redacted (spec : CheckTypeSpec) (hkeyed : WellKeyed (.object entries))
    (hplain : PlainMaps spec entries) (htype : storedCheckType.all (· = spec.id) = true) :
    handed spec (.object entries) (redactConfig spec (.object entries)) storedCheckType =
      .of entries := by
  obtain ⟨hkeys, hmaps⟩ := hkeyed
  have hbase : baseOf spec (.object entries) storedCheckType = entries := if_pos htype
  have hown : (keys (JsObject.of entries).own).Nodup := hkeys
  by_cases hnone : spec.secretFields = []
  · rw [redactConfig, if_pos hnone, handed_object, hbase]
    refine assignEach_same hown fun e he value hvalue => ?_
    rw [mergeEntry_plain (by rw [hnone]; exact List.not_mem_nil)] at hvalue
    rw [← Option.some.inj hvalue]
    exact lookup_of_mem hkeys he
  · rw [redactConfig, if_neg hnone, handed_object, hbase]
    refine assignEach_same hown fun e he value hvalue => ?_
    have hnodup := foldl_redactField_nodup spec.secretFields hown
    exact mergeEntry_redacted spec hmaps hplain (lookup_of_mem hnodup he) hvalue

/-- A config that is redacted and sent back is parsed as it is stored. -/
theorem mergeConfig_redactConfig (spec : CheckTypeSpec) {config : JsValue}
    (hkeyed : WellKeyed config) (hplain : PlainMaps spec (asRecord config))
    (htype : storedCheckType.all (· = spec.id) = true)
    (hparses : (spec.storedSchema.parseValue config).isSome = true) :
    mergeConfig spec config (redactConfig spec config) storedCheckType =
      spec.storedSchema.parseValue config := by
  unfold mergeConfig
  cases hschema : spec.storedSchema with
  | flatColumnsOnly => rfl
  | object parse =>
    rw [hschema] at hparses
    cases config with
    | object entries => rw [handed_redacted spec hkeyed hplain htype]; rfl
    | _ => cases hparses

/-! ### What a form can tell -/

/-- A secret that is one value: not absent, and not a map. -/
def IsScalar : JsValue → Prop
  | .null | .undefined | .object _ => False
  | _ => True

/-- Two secrets that differ at most in non-empty values. -/
def SecretAlike (value value' : JsValue) : Prop :=
  value = value' ∨ (IsScalar value ∧ IsScalar value') ∨
    ∃ m m', value = .object m ∧ value' = .object m' ∧
      List.Forall₂ (fun e e' => e.1 = e'.1 ∧
        (e.2 = e'.2 ∨ (e.2 ≠ .string [] ∧ e'.2 ≠ .string []))) m m'

/-- Two configs that differ at most in non-empty secret values. -/
def SameButSecrets (spec : CheckTypeSpec) (config config' : JsValue) : Prop :=
  config = config' ∨ ∃ entries entries', config = .object entries ∧ config' = .object entries' ∧
    List.Forall₂ (fun e e' => e.1 = e'.1 ∧
      (e.2 = e'.2 ∨ (e.1 ∈ spec.secretFields ∧ SecretAlike e.2 e'.2))) entries entries'

theorem maskEntry_of_ne (h : value ≠ .string []) : maskEntry value = .string secretMask :=
  (maskEntry_cases value).resolve_left fun hempty => h hempty.1

theorem maskValue_of_isScalar (h : IsScalar value) :
    maskValue value = some (.string secretMask) := by
  cases value with
  | null => exact h.elim
  | undefined => exact h.elim
  | object entries => exact h.elim
  | _ => rfl

theorem SecretAlike.maskValue_eq {value value' : JsValue} (h : SecretAlike value value') :
    maskValue value = maskValue value' := by
  rcases h with rfl | ⟨hscalar, hscalar'⟩ | ⟨m, m', rfl, rfl, hsame⟩
  · rfl
  · rw [maskValue_of_isScalar hscalar, maskValue_of_isScalar hscalar']
  · have hmaps : maskMap m = maskMap m' := by
      rw [maskMap, maskMap]
      refine congrArg _ (assignEach_congr (hsame.imp fun e e' he => ⟨he.1, ?_⟩))
      rcases he.2 with heq | ⟨hne, hne'⟩
      · rw [heq]
      · rw [maskEntry_of_ne hne, maskEntry_of_ne hne']
    exact congrArg (fun entries => some (JsValue.object entries)) hmaps

/-- Where nothing is shown instead of a secret, it is the same secret. -/
theorem SecretAlike.eq_of_none {value value' : JsValue} (h : SecretAlike value value')
    (hnone : maskValue value = none) : value = value' := by
  rcases h with heq | ⟨hscalar, -⟩ | ⟨m, m', rfl, rfl, -⟩
  · exact heq
  · rw [maskValue_of_isScalar hscalar] at hnone
    cases hnone
  · cases hnone

theorem lookup_forall₂ {R : JsString → JsValue → JsValue → Prop} {entries entries' : Entries}
    (h : List.Forall₂ (fun e e' => e.1 = e'.1 ∧ R e.1 e.2 e'.2) entries entries') (k : JsString) :
    (entries.lookup k = none ∧ entries'.lookup k = none) ∨
      ∃ v v', entries.lookup k = some v ∧ entries'.lookup k = some v' ∧ R k v v' := by
  induction h with
  | nil => exact .inl ⟨rfl, rfl⟩
  | @cons e e' rest rest' he _ ih =>
    obtain ⟨key, value⟩ := e
    obtain ⟨key', value'⟩ := e'
    obtain ⟨hkey, hR⟩ : key = key' ∧ R key value value' := he
    subst hkey
    by_cases hk : k = key
    · subst hk
      exact .inr ⟨value, value', List.lookup_cons_self, List.lookup_cons_self, hR⟩
    · rw [lookup_cons_of_ne hk, lookup_cons_of_ne hk]
      exact ih

theorem redactConfig_congr (spec : CheckTypeSpec) {config config' : JsValue}
    (hkeyed : WellKeyed config) (h : SameButSecrets spec config config') :
    redactConfig spec config = redactConfig spec config' := by
  rcases h with rfl | ⟨entries, entries', rfl, rfl, hsame⟩
  · rfl
  have hkeys : keys entries = keys entries' := by
    rw [keys, keys]
    exact List.forall₂_eq_eq_eq ▸ (List.forall₂_map_left_iff.mpr (List.forall₂_map_right_iff.mpr
      (hsame.imp fun _ _ he => he.1)))
  have halike : ∀ k, (entries.lookup k = none ∧ entries'.lookup k = none) ∨ ∃ v v',
      entries.lookup k = some v ∧ entries'.lookup k = some v' ∧
      (v = v' ∨ (k ∈ spec.secretFields ∧ SecretAlike v v')) := lookup_forall₂ hsame
  have hmask : ∀ k, maskValue ((JsObject.of entries).get k) =
      maskValue ((JsObject.of entries').get k) := by
    intro k
    rcases halike k with ⟨hnone, hnone'⟩ | ⟨v, v', hv, hv', hvv⟩
    · rw [JsObject.get, JsObject.get, JsObject.of, JsObject.of, hnone, hnone']
    · rw [get_of_lookup hv, get_of_lookup hv']
      rcases hvv with rfl | ⟨-, hvv⟩
      · rfl
      · exact hvv.maskValue_eq
  unfold redactConfig
  split
  · rename_i hnone
    have heq : entries = entries' := by
      refine entries_ext hkeys hkeyed.1 fun k => ?_
      rcases halike k with ⟨hnone, hnone'⟩ | ⟨v, v', hv, hv', rfl | ⟨hk, -⟩⟩
      · rw [hnone, hnone']
      · rw [hv, hv']
      · rw [hnone] at hk
        cases hk
    rw [heq]
  · refine congrArg JsValue.object (entries_ext
      (foldl_redactField_keys spec.nodup spec.no_proto hkeys fun k _ => hmask k)
      (foldl_redactField_nodup spec.secretFields hkeyed.1) fun k => ?_)
    rw [foldl_redactField_lookup spec.nodup spec.no_proto,
      foldl_redactField_lookup spec.nodup spec.no_proto]
    show Option.or _ (entries.lookup k) = Option.or _ (entries'.lookup k)
    rcases halike k with ⟨hnone, hnone'⟩ | ⟨v, v', hv, hv', rfl | ⟨hk, hvv⟩⟩
    · rw [asRecord, asRecord, hmask k, hnone, hnone']
    · rw [asRecord, asRecord, hmask k, hv, hv']
    · rw [asRecord, asRecord, hmask k, hv, hv', if_pos hk]
      cases hshown : maskValue ((JsObject.of entries').get k) with
      | some shown => rfl
      | none =>
        rw [get_of_lookup hv', ← hvv.maskValue_eq] at hshown
        rw [hvv.eq_of_none hshown]

/-! ### What is handed to the schema -/

/-- No secret field, and no entry of a secret map, is the mask. -/
def MaskFree (spec : CheckTypeSpec) (o : JsObject) : Prop :=
  ∀ field ∈ spec.secretFields, isMask (o.get field) = false ∧
    ∀ m, o.get field = .object m → ∀ e ∈ m, isMask e.2 = false

/-- How the secrets that are handed on follow from the stored ones and the patch. -/
structure SecretsFollow (spec : CheckTypeSpec) (base : Entries) (patch : Entries)
    (o : JsObject) : Prop where
  mask_free : MaskFree spec o
  unsubmitted : ∀ field ∈ spec.secretFields, field ∉ keys patch →
    o.get field = (JsObject.of base).get field
  masked : ∀ field ∈ spec.secretFields, ∀ value, (field, value) ∈ patch → isMask value = true →
    o.get field = (JsObject.of base).get field
  taken : ∀ field ∈ spec.secretFields, ∀ value, (field, value) ∈ patch → isMask value = false →
    (∀ m, value ≠ .object m) → o.get field = value
  /-- A submitted map has the keys that were submitted, each with its value, but for masked ones:
  these have the value that is stored, and are gone where none is. -/
  map : ∀ field ∈ spec.secretFields, ∀ m, (field, .object m) ∈ patch →
    ∃ merged, o.get field = .object merged ∧ (keys merged).Nodup ∧ ∀ key,
      merged.lookup key = (m.lookup key).bind fun value =>
        if isMask value then (asRecord ((JsObject.of base).get field)).lookup key else some value

theorem mergeSecretMap_lookup (stored : JsValue) (hkeys : (keys m).Nodup)
    (hproto : key ≠ protoKey) :
    (mergeSecretMap stored m).lookup key = (m.lookup key).bind fun value =>
      if isMask value then (asRecord stored).lookup key else some value := by
  rw [mergeSecretMap, assignEach_lookup hkeys hproto]
  exact Option.or_none

theorem mergeSecretMap_nodup (stored : JsValue) (m : Entries) :
    (keys (mergeSecretMap stored m)).Nodup :=
  assignEach_nodup List.nodup_nil

theorem mergeSecretMap_no_proto (stored : JsValue) (hkeys : (keys m).Nodup) :
    protoKey ∉ keys (mergeSecretMap stored m) :=
  (assignEach_setsPrototype hkeys List.not_mem_nil).1

/-- What a merged map has is stored or was submitted, and neither is the mask. -/
theorem mergeSecretMap_maskFree {stored : JsValue} (hkeys : (keys m).Nodup)
    (hstored : ∀ e ∈ asRecord stored, isMask e.2 = false) :
    ∀ e ∈ mergeSecretMap stored m, isMask e.2 = false := by
  intro e he
  have hproto : e.1 ≠ protoKey := fun h =>
    mergeSecretMap_no_proto stored hkeys (h ▸ List.mem_map_of_mem he)
  have hlookup := lookup_of_mem (mergeSecretMap_nodup stored m) he
  rw [mergeSecretMap_lookup stored hkeys hproto] at hlookup
  obtain ⟨value, -, hvalue⟩ := Option.bind_eq_some_iff.mp hlookup
  split_ifs at hvalue with hmask
  · exact hstored _ (mem_keys_of_lookup hvalue)
  · rw [← Option.some.inj hvalue]
    exact Bool.eq_false_iff.mpr hmask

/-- Whether the patch leaves the field to the stored config. -/
def Left (patch : Entries) (field : JsString) : Prop :=
  field ∉ keys patch ∨ ∃ value, (field, value) ∈ patch ∧ isMask value = true

/-- The entries `__proto__` of the patch and of its secret maps do not matter: no field that is left
to the stored config is read through the patch's, and that of a map is a mask with nothing stored
for it. -/
structure Harmless (spec : CheckTypeSpec) (base patch : Entries) : Prop where
  fields : ∀ value, (protoKey, value) ∈ patch → ∀ field ∈ spec.secretFields, Left patch field →
    ((JsObject.of base).assign protoKey value).get field = (JsObject.of base).get field
  maps : ∀ field ∈ spec.secretFields, ∀ m, (field, .object m) ∈ patch →
    ∀ value, (protoKey, value) ∈ m →
      isMask value = true ∧ protoKey ∉ keys (asRecord ((JsObject.of base).get field))

section Handed

variable {spec : CheckTypeSpec} {base patch : Entries}

/-- A field that is not assigned is read as when only `__proto__` is. -/
theorem merged_inherits (hkeys : (keys patch).Nodup) {field : JsString}
    (hfield : field ≠ protoKey) (hnone : (patch.lookup field).bind (mergeEntry spec base field) = none) :
    ((JsObject.of base).assignEach (mergeEntry spec base) patch).get field =
      match patch.lookup protoKey with
      | some value => ((JsObject.of base).assign protoKey value).get field
      | none => (JsObject.of base).get field := by
  rw [JsObject.get, assignEach_lookup hkeys hfield, hnone, Option.none_or]
  by_cases hbase : protoKey ∈ keys base
  · rw [assignEach_keepsPrototype hbase]
    cases patch.lookup protoKey with
    | none => rfl
    | some value =>
      dsimp only
      have hproto : ((JsObject.of base).assign protoKey value).prototype = .object [] :=
        @assignEach_keepsPrototype (.of base) (fun _ v => some v) [(protoKey, value)] hbase
      rw [JsObject.get, assign_lookup _ _ _ hfield, if_neg hfield, hproto]
      rfl
  · rw [(assignEach_setsPrototype hkeys hbase).2]
    cases patch.lookup protoKey with
    | none => rfl
    | some value =>
      rw [Option.bind_some, mergeEntry_plain spec.no_proto]
      dsimp only
      rw [assign_protoKey hbase, JsObject.get, setPrototype_own]

/-- What a secret field that was submitted has after the merge. -/
theorem merged_taken (hkeys : (keys patch).Nodup) {field : JsString}
    (hfield : field ∈ spec.secretFields) {value v : JsValue} (hmem : (field, value) ∈ patch)
    (hmerge : mergeEntry spec base field value = some v) :
    ((JsObject.of base).assignEach (mergeEntry spec base) patch).get field = v := by
  have hproto : field ≠ protoKey := fun h => spec.no_proto (h ▸ hfield)
  rw [JsObject.get, assignEach_lookup hkeys hproto, lookup_of_mem hkeys hmem, Option.bind_some,
    hmerge, Option.some_or]

theorem merged_left (hkeys : (keys patch).Nodup) {field : JsString}
    (hfield : field ∈ spec.secretFields) (hleft : Left patch field) :
    ((JsObject.of base).assignEach (mergeEntry spec base) patch).get field =
      match patch.lookup protoKey with
      | some value => ((JsObject.of base).assign protoKey value).get field
      | none => (JsObject.of base).get field := by
  refine merged_inherits hkeys (fun h => spec.no_proto (h ▸ hfield)) ?_
  rcases hleft with hnew | ⟨value, hmem, hmask⟩
  · rw [lookup_eq_none_iff.mpr hnew, Option.bind_none]
  · rw [lookup_of_mem hkeys hmem, Option.bind_some]
    exact mergeEntry_mask hfield hmask base

/-- A secret field that is left to the stored config keeps the stored secret. -/
theorem merged_kept (hkeys : (keys patch).Nodup) (hharmless : Harmless spec base patch)
    {field : JsString} (hfield : field ∈ spec.secretFields) (hleft : Left patch field) :
    ((JsObject.of base).assignEach (mergeEntry spec base) patch).get field =
      (JsObject.of base).get field := by
  rw [merged_left hkeys hfield hleft]
  cases hlookup : patch.lookup protoKey with
  | none => rfl
  | some value => exact hharmless.fields value (mem_keys_of_lookup hlookup) field hfield hleft

theorem merged_maskFree (hkeys : (keys patch).Nodup)
    (hmaps : ∀ e ∈ patch, (keys (asRecord e.2)).Nodup) (hharmless : Harmless spec base patch)
    (hbase : MaskFree spec (.of base)) :
    MaskFree spec ((JsObject.of base).assignEach (mergeEntry spec base) patch) := by
  intro field hfield
  by_cases hleft : Left patch field
  · rw [merged_kept hkeys hharmless hfield hleft]
    exact hbase field hfield
  obtain ⟨hin, hunmasked⟩ := not_or.mp hleft
  obtain ⟨⟨field', value⟩, hmem, rfl⟩ := List.mem_map.mp (not_not.mp hin)
  have hmask : isMask value = false :=
    Bool.eq_false_iff.mpr fun h => hunmasked ⟨value, hmem, h⟩
  cases value with
  | object m =>
    rw [merged_taken hkeys hfield hmem (mergeEntry_map hfield base m)]
    refine ⟨rfl, fun m' hm' => ?_⟩
    obtain rfl := JsValue.object.inj hm'
    have hnodup : (keys m).Nodup := hmaps _ hmem
    refine mergeSecretMap_maskFree hnodup fun e he => ?_
    cases hstored : (JsObject.of base).get field' with
    | object stored =>
      rw [hstored] at he
      exact (hbase _ hfield).2 stored hstored e he
    | _ =>
      rw [hstored] at he
      cases he
  | _ =>
    rw [merged_taken hkeys hfield hmem (mergeEntry_value hfield hmask nofun base)]
    exact ⟨hmask, fun m' hm' => by cases hm'⟩

theorem merged_follows (hkeys : (keys patch).Nodup)
    (hmaps : ∀ e ∈ patch, (keys (asRecord e.2)).Nodup) (hharmless : Harmless spec base patch)
    (hbase : MaskFree spec (.of base)) :
    SecretsFollow spec base patch
      ((JsObject.of base).assignEach (mergeEntry spec base) patch) where
  mask_free := merged_maskFree hkeys hmaps hharmless hbase
  unsubmitted _ hfield hnew := merged_kept hkeys hharmless hfield (.inl hnew)
  masked _ hfield value hmem hmask :=
    merged_kept hkeys hharmless hfield (.inr ⟨value, hmem, hmask⟩)
  taken _ hfield _ hmem hmask hnot := 
    merged_taken hkeys hfield hmem (mergeEntry_value hfield hmask hnot base)
  map field hfield m hmem := by
    have hnodup : (keys m).Nodup := hmaps _ hmem
    refine ⟨_, merged_taken hkeys hfield hmem (mergeEntry_map hfield base m),
      mergeSecretMap_nodup _ _, fun key => ?_⟩
    by_cases hkey : key = protoKey
    · subst hkey
      rw [lookup_eq_none_iff.mpr (mergeSecretMap_no_proto _ hnodup)]
      cases hlookup : m.lookup protoKey with
      | none => rfl
      | some value =>
        obtain ⟨hmask, hnone⟩ := hharmless.maps field hfield m hmem value (mem_keys_of_lookup hlookup)
        rw [Option.bind_some, if_pos hmask, lookup_eq_none_iff.mpr hnone]
    · exact mergeSecretMap_lookup _ hnodup hkey

theorem harmless_of_follows (hkeys : (keys patch).Nodup)
    (hmaps : ∀ e ∈ patch, (keys (asRecord e.2)).Nodup)
    (h : SecretsFollow spec base patch
      ((JsObject.of base).assignEach (mergeEntry spec base) patch)) :
    Harmless spec base patch where
  fields value hproto field hfield hleft := by
    have hget := @merged_left spec base patch hkeys field hfield hleft
    simp only [lookup_of_mem hkeys hproto] at hget
    rw [← hget]
    rcases hleft with hnew | ⟨value', hmem, hmask⟩
    · exact h.unsubmitted field hfield hnew
    · exact h.masked field hfield value' hmem hmask
  maps field hfield m hmem value hproto := by
    have hnodup : (keys m).Nodup := hmaps _ hmem
    obtain ⟨merged, hget, -, hlookup⟩ := h.map field hfield m hmem
    rw [merged_taken hkeys hfield hmem (mergeEntry_map hfield base m)] at hget
    have hat := hlookup protoKey
    rw [← JsValue.object.inj hget, lookup_eq_none_iff.mpr (mergeSecretMap_no_proto _ hnodup),
      lookup_of_mem hnodup hproto, Option.bind_some] at hat
    split_ifs at hat with hmask
    exact ⟨hmask, lookup_eq_none_iff.mp hat.symm⟩

end Handed

theorem handed_follows_iff (spec : CheckTypeSpec) (stored : JsValue) {patch : JsValue}
    (storedCheckType : Option String) (hkeyed : WellKeyed patch)
    (hbase : MaskFree spec (.of (baseOf spec stored storedCheckType))) :
    SecretsFollow spec (baseOf spec stored storedCheckType) (asRecord patch)
        (handed spec stored patch storedCheckType) ↔
      Harmless spec (baseOf spec stored storedCheckType) (asRecord patch) := by
  have hhanded : handed spec stored patch storedCheckType =
      (JsObject.of (baseOf spec stored storedCheckType)).assignEach
        (mergeEntry spec (baseOf spec stored storedCheckType)) (asRecord patch) := by
    cases patch with
    | _ => rfl
  rw [hhanded]
  exact ⟨harmless_of_follows hkeyed.1 hkeyed.2, fun h => merged_follows hkeyed.1 hkeyed.2 h hbase⟩

/-- A stored map that has a key `__proto__` comes back without it. -/
theorem plainMaps_of_roundTrip {spec : CheckTypeSpec} (hkeyed : WellKeyed (.object entries))
    (h : ((JsObject.of entries).assignEach (mergeEntry spec entries) (spec.secretFields.foldl
      redactField (.of entries)).own).own = entries) : PlainMaps spec entries := by
  intro field hfield m hmem hproto
  have hkeys : (keys entries).Nodup := hkeyed.1
  have hshown : (keys (spec.secretFields.foldl redactField (.of entries)).own).Nodup :=
    foldl_redactField_nodup spec.secretFields hkeys
  have hstored : (JsObject.of entries).get field = .object m :=
    get_of_lookup (lookup_of_mem hkeys hmem)
  have hredacted : (field, JsValue.object (maskMap m)) ∈
      (spec.secretFields.foldl redactField (.of entries)).own := by
    apply mem_keys_of_lookup
    rw [foldl_redactField_lookup spec.nodup spec.no_proto, if_pos hfield, hstored]
    rfl
  have hback := @merged_taken spec entries _ hshown field hfield _ _ hredacted
    (mergeEntry_map hfield entries (maskMap m))
  rw [get_of_lookup (by rw [h]; exact lookup_of_mem hkeys hmem)] at hback
  have hmask : (keys (maskMap m)).Nodup := assignEach_nodup List.nodup_nil
  exact mergeSecretMap_no_proto _ hmask (JsValue.object.inj hback ▸ hproto)

theorem roundTrip_iff (spec : CheckTypeSpec) {config : JsValue} (hkeyed : WellKeyed config)
    (htype : storedCheckType.all (· = spec.id) = true) :
    (∀ schema : StoredSchema, (schema.parseValue config).isSome = true →
      mergeConfig { spec with storedSchema := schema } config (redactConfig spec config)
        storedCheckType = schema.parseValue config) ↔ PlainMaps spec (asRecord config) := by
  constructor
  · intro hround
    cases config with
    | object entries =>
      have hown := hround (.object fun o => some (.object o.own)) rfl
      by_cases hnone : spec.secretFields = []
      · intro field hfield
        rw [hnone] at hfield
        cases hfield
      have hbase : baseOf spec (.object entries) storedCheckType = entries := if_pos htype
      have hhanded : some (JsValue.object (handed spec (.object entries)
          (redactConfig spec (.object entries)) storedCheckType).own) = some (.object entries) := hown
      rw [redactConfig, if_neg hnone, handed_object, hbase] at hhanded
      exact plainMaps_of_roundTrip hkeyed (JsValue.object.inj (Option.some.inj hhanded))
    | _ => exact nofun
  · intro hplain schema hparses
    exact mergeConfig_redactConfig { spec with storedSchema := schema } hkeyed hplain htype hparses

/-- A config that is redacted and sent back is parsed as it is stored, whatever the schema, exactly
where no secret map has the key `__proto__`.  No form can tell one non-empty secret from another.
What is handed to the schema has the secrets that the patch asks for exactly where its `__proto__`
entries do not matter. -/
theorem secrets_kept (spec : CheckTypeSpec) :
    (∀ (config : JsValue) (storedCheckType : Option String), WellKeyed config →
      storedCheckType.all (· = spec.id) = true →
      ((∀ schema : StoredSchema, (schema.parseValue config).isSome = true →
        mergeConfig { spec with storedSchema := schema } config (redactConfig spec config)
          storedCheckType = schema.parseValue config) ↔ PlainMaps spec (asRecord config))) ∧
    (∀ config config' : JsValue, WellKeyed config → SameButSecrets spec config config' →
      redactConfig spec config = redactConfig spec config') ∧
    (∀ (stored patch : JsValue) (storedCheckType : Option String), WellKeyed patch →
      MaskFree spec (.of (baseOf spec stored storedCheckType)) →
      (SecretsFollow spec (baseOf spec stored storedCheckType) (asRecord patch)
          (handed spec stored patch storedCheckType) ↔
        Harmless spec (baseOf spec stored storedCheckType) (asRecord patch))) :=
  ⟨fun _ _ hkeyed htype => roundTrip_iff spec hkeyed htype,
    fun _ _ hkeyed => redactConfig_congr spec hkeyed,
    fun stored _ storedCheckType hkeyed => handed_follows_iff spec stored storedCheckType hkeyed⟩

/-! ### `redis` -/

def redisStoredSchema (o : JsObject) : Option JsValue :=
  let password := match o.get (js "password") with
    | .string value =>
      if value.length ≤ 512 then some (if value = [] then JsValue.null else .string value) else none
    | .null | .undefined => some .null
    | _ => none
  password.map fun password => .object [(js "password", password)]

/-- The check type of Redis. -/
def redisSpec : CheckTypeSpec where
  id := "redis"
  storedSchema := .object redisStoredSchema
  secretFields := [js "password"]
  nodup := by decide +kernel
  no_proto := by decide +kernel

/-- A password survives an edit of a form that was shown the mask. -/
theorem secrets_kept_redis :
    mergeConfig redisSpec (.object [(js "password", .string (js "hunter2"))])
        (redactConfig redisSpec (.object [(js "password", .string (js "hunter2"))])) (some "redis") =
      redisSpec.storedSchema.parseValue (.object [(js "password", .string (js "hunter2"))]) := by
  have hkeyed : WellKeyed (.object [(js "password", .string (js "hunter2"))]) :=
    ⟨List.nodup_singleton _, fun e he => by
      rw [List.mem_singleton.mp he]
      exact List.nodup_nil⟩
  have hplain : PlainMaps redisSpec
      (asRecord (.object [(js "password", .string (js "hunter2"))])) := by
    intro field _ m hmem
    have hentry := List.mem_singleton.mp hmem
    cases (Prod.mk.inj hentry).2
  have htype : (some "redis").all (· = redisSpec.id) = true := by decide +kernel
  have hparses : (redisSpec.storedSchema.parseValue
      (.object [(js "password", .string (js "hunter2"))])).isSome = true := by decide +kernel
  exact (((secrets_kept redisSpec).1 _ (some "redis") hkeyed htype).mpr hplain) _ hparses

/-- `JSON.parse` makes an entry of `__proto__`. -/
def protoPatch : Entries := [(protoKey, .object [(js "password", .string secretMask)])]

/-- The mask is read through the prototype that the patch sets, and stored. -/
theorem mask_from_prototype :
    WellKeyed (.object protoPatch) ∧
    MaskFree redisSpec (.of (baseOf redisSpec .undefined none)) ∧
    mergeConfig redisSpec .undefined (.object protoPatch) none =
      some (.object [(js "password", .string secretMask)]) ∧
    ¬ SecretsFollow redisSpec (baseOf redisSpec .undefined none) protoPatch
      (handed redisSpec .undefined (.object protoPatch) none) := by
  have hbase : baseOf redisSpec .undefined none = [] := if_pos rfl
  have hhanded : handed redisSpec .undefined (.object protoPatch) none =
      { own := [], prototype := .object [(js "password", .string secretMask)] } := by
    rw [handed_object, hbase, protoPatch, assignEach_some (mergeEntry_plain redisSpec.no_proto _ _),
      @assign_protoKey [] List.not_mem_nil _]
    rfl
  have hget : (handed redisSpec .undefined (.object protoPatch) none).get (js "password") =
      .string secretMask := by
    rw [hhanded, JsObject.get]
    dsimp only [List.lookup_nil]
    rw [inherited, readFrom, List.lookup_cons_self]
  have hnone : (JsObject.of []).get (js "password") = .undefined := by
    rw [JsObject.get, JsObject.of]
    dsimp only [List.lookup_nil]
    rw [inherited, readFrom, List.lookup_nil]
    exact if_neg (by decide +kernel)
  refine ⟨⟨List.nodup_singleton _, fun e he => ?_⟩, fun field hmem => ?_, ?_, fun h => ?_⟩
  · rw [List.mem_singleton.mp he]
    exact List.nodup_singleton _
  · rw [List.mem_singleton.mp hmem, hbase, hnone]
    exact ⟨rfl, fun m hm => by cases hm⟩
  · show redisStoredSchema (handed redisSpec .undefined (.object protoPatch) none) = _
    rw [redisStoredSchema, hget]
    dsimp only
    rw [if_pos (by decide +kernel), if_neg (by decide +kernel), Option.map_some]
  · have hmask := (h.mask_free (js "password") (List.mem_singleton_self _)).1
    rw [hget, isMask_secretMask] at hmask
    cases hmask

end Vigil.Monitors.Config
