import Vigil.Ledger.JsonText

/-! Objects as code builds them: entries in the order of their keys, and a prototype.  Spreading an
object copies its own entries, but assigning to the key `__proto__` of an object that has no such
entry sets the prototype, and a read goes through it. -/

namespace Vigil.Js.Object

open Text Ledger.Canonical Ledger.JsonText

abbrev Entries := List (JsString × JsValue)

def keys (entries : Entries) : List JsString := entries.map (·.1)

def protoKey : JsString := js "__proto__"

/-- The properties that objects inherit; all of them are functions. -/
def objectPrototype : List JsString :=
  ["constructor", "__defineGetter__", "__defineSetter__", "hasOwnProperty", "__lookupGetter__",
    "__lookupSetter__", "isPrototypeOf", "propertyIsEnumerable", "toString", "valueOf",
    "toLocaleString"].map js

/-- The further properties that arrays inherit. -/
def arrayPrototype : List JsString :=
  ["at", "concat", "copyWithin", "fill", "find", "findIndex", "findLast", "findLastIndex",
    "lastIndexOf", "pop", "push", "reverse", "shift", "unshift", "slice", "sort", "splice",
    "includes", "indexOf", "join", "keys", "entries", "values", "forEach", "filter", "flat",
    "flatMap", "map", "every", "some", "reduce", "reduceRight", "toReversed", "toSorted",
    "toSpliced", "with"].map js

def arrayEntries (items : List JsValue) : Entries :=
  items.mapIdx (fun i item => (js (toString i), item)) ++
    [(js "length", .number (.integer items.length))]

def readFrom (own : Entries) (functions : List JsString) (key : JsString) : JsValue :=
  match own.lookup key with
  | some value => value
  | none => if key ∈ functions then .function else .undefined

/-- What an object with this prototype inherits.  Nothing makes a function a prototype. -/
def inherited : JsValue → JsString → JsValue
  | .null, _ => .undefined
  | .object entries, key => readFrom entries objectPrototype key
  | .array items, key => readFrom (arrayEntries items) (arrayPrototype ++ objectPrototype) key
  | _, key => readFrom [] objectPrototype key

structure JsObject where
  own : Entries
  prototype : JsValue

/-- An object that nothing was assigned to inherits what an empty object has. -/
def JsObject.of (entries : Entries) : JsObject := { own := entries, prototype := .object [] }

/-- `o[key]`, for another key than `__proto__`. -/
def JsObject.get (o : JsObject) (key : JsString) : JsValue :=
  match o.own.lookup key with
  | some value => value
  | none => inherited o.prototype key

/-- `o.__proto__ = value` -/
def JsObject.setPrototype (o : JsObject) (value : JsValue) : JsObject :=
  match value with
  | .object _ | .array _ | .function | .null => { o with prototype := value }
  | _ => o

/-- Whether an object with this prototype inherits the setter of `__proto__`. -/
def inheritsSetter : JsValue → Bool
  | .null => false
  | .object entries => (entries.lookup protoKey).isNone
  | _ => true

/-- `o[key] = value` -/
def JsObject.assign (o : JsObject) (key : JsString) (value : JsValue) : JsObject :=
  if key = protoKey && (o.own.lookup protoKey).isNone && inheritsSetter o.prototype then
    o.setPrototype value
  else { o with own := setEntry o.own (key, value) }

/-- A loop over `Object.entries` that assigns what `update` gives, and goes on where it gives
nothing. -/
def JsObject.assignEach (o : JsObject) (update : JsString → JsValue → Option JsValue)
    (entries : Entries) : JsObject :=
  entries.foldl (fun o entry =>
    match update entry.1 entry.2 with
    | none => o
    | some value => o.assign entry.1 value) o

/-! ### Entries -/

theorem lookup_cons_of_ne {k key : JsString} {value : JsValue} (h : k ≠ key) (rest : Entries) :
    ((key, value) :: rest : Entries).lookup k = rest.lookup k := by
  rw [List.lookup_cons, beq_false_of_ne h]

theorem mem_keys_of_lookup {entries : Entries} {key : JsString} {value : JsValue}
    (h : entries.lookup key = some value) : (key, value) ∈ entries := by
  obtain ⟨l, r, rfl, -⟩ := List.lookup_eq_some_iff.mp h
  exact List.mem_append_right l List.mem_cons_self

theorem lookup_eq_none_iff {entries : Entries} {key : JsString} :
    entries.lookup key = none ↔ key ∉ keys entries := by
  simp only [List.lookup_eq_none_iff, keys, List.mem_map, not_exists, not_and, bne_iff_ne]
  exact ⟨fun h e he heq => h e he heq.symm, fun h e he heq => h e he heq.symm⟩

theorem lookup_of_mem {entries : Entries} (h : (keys entries).Nodup) {key : JsString}
    {value : JsValue} (hmem : (key, value) ∈ entries) : entries.lookup key = some value := by
  cases hlookup : entries.lookup key with
  | none =>
    exact absurd (List.mem_map_of_mem hmem) (lookup_eq_none_iff.mp hlookup)
  | some found =>
    have hfound := mem_keys_of_lookup hlookup
    rw [(Prod.mk.inj (List.inj_on_of_nodup_map h hfound hmem rfl)).2]

theorem any_iff_mem_keys (entries : Entries) (key : JsString) :
    (entries.any fun e => e.1 = key) = true ↔ key ∈ keys entries := by
  simp [keys, List.any_eq_true]

theorem keys_setEntry (entries : Entries) (entry : JsString × JsValue) :
    keys (setEntry entries entry) =
      if entry.1 ∈ keys entries then keys entries else keys entries ++ [entry.1] := by
  unfold setEntry
  by_cases h : entry.1 ∈ keys entries
  · rw [if_pos ((any_iff_mem_keys entries entry.1).mpr h), if_pos h, keys, List.map_map]
    refine List.map_congr_left fun e _ => ?_
    rw [Function.comp_apply]
    split
    · rename_i heq
      exact heq.symm
    · rfl
  · rw [if_neg (mt (any_iff_mem_keys entries entry.1).mp h), if_neg h, keys, List.map_append]
    rfl

theorem lookup_map_entry (entries : Entries) (key : JsString) (value : JsValue) (k : JsString) :
    (entries.map fun e => if e.1 = key then (key, value) else e).lookup k =
      if k = key then (entries.lookup key).map fun _ => value else entries.lookup k := by
  induction entries with
  | nil => simp
  | cons e entries ih =>
    obtain ⟨k', v'⟩ := e
    rw [List.map_cons]
    by_cases hhere : k' = key
    · subst hhere
      by_cases hk : k = k'
      · subst hk
        simp
      · rw [if_pos rfl, lookup_cons_of_ne hk, lookup_cons_of_ne hk, ih, if_neg hk, if_neg hk]
    · rw [if_neg hhere, lookup_cons_of_ne (Ne.symm hhere)]
      by_cases hk : k = k'
      · subst hk
        simp [hhere]
      · rw [lookup_cons_of_ne hk, lookup_cons_of_ne hk, ih]

theorem lookup_setEntry (entries : Entries) (key : JsString) (value : JsValue) (k : JsString) :
    (setEntry entries (key, value)).lookup k = if k = key then some value else entries.lookup k := by
  by_cases hmem : key ∈ keys entries
  · rw [setEntry, if_pos ((any_iff_mem_keys entries key).mpr hmem), lookup_map_entry]
    split
    · obtain ⟨found, hfound⟩ := Option.ne_none_iff_exists'.mp
        (mt lookup_eq_none_iff.mp (not_not_intro hmem))
      rw [hfound]
      rfl
    · rfl
  · rw [setEntry, if_neg (mt (any_iff_mem_keys entries key).mp hmem), List.lookup_append]
    split
    · rename_i hk
      subst hk
      rw [lookup_eq_none_iff.mpr hmem]
      simp
    · rename_i hk
      rw [lookup_cons_of_ne hk, List.lookup_nil, Option.or_none]

theorem setEntry_same {entries : Entries} (hkeys : (keys entries).Nodup) {key : JsString}
    {value : JsValue} (h : entries.lookup key = some value) :
    setEntry entries (key, value) = entries := by
  have hmem := mem_keys_of_lookup h
  rw [setEntry, if_pos ((any_iff_mem_keys entries key).mpr (List.mem_map_of_mem hmem))]
  conv_rhs => rw [← List.map_id entries]
  refine List.map_congr_left fun e he => ?_
  rw [id]
  split
  · rename_i hkey
    exact List.inj_on_of_nodup_map hkeys hmem he hkey.symm
  · rfl

/-- Entries are determined by the order of their keys and by what is looked up. -/
theorem entries_ext {entries entries' : Entries} (hkeys : keys entries = keys entries')
    (hnodup : (keys entries).Nodup)
    (hlookup : ∀ k, entries.lookup k = entries'.lookup k) : entries = entries' := by
  induction entries generalizing entries' with
  | nil => exact (List.map_eq_nil_iff.mp hkeys.symm).symm
  | cons e entries ih =>
    obtain ⟨key, value⟩ := e
    obtain ⟨e', rest', rfl, hkey, hrest⟩ := List.map_eq_cons_iff.mp hkeys.symm
    obtain ⟨key', value'⟩ := e'
    obtain rfl : key' = key := hkey
    obtain ⟨hnew, hnodup'⟩ := List.nodup_cons.mp hnodup
    have hvalue : value = value' := by simpa using hlookup key'
    subst hvalue
    refine congrArg _ (ih hrest.symm hnodup' fun k => ?_)
    by_cases hk : k = key'
    · subst hk
      have hnew' : k ∉ keys rest' := by
        rw [keys, hrest]
        exact hnew
      rw [lookup_eq_none_iff.mpr hnew, lookup_eq_none_iff.mpr hnew']
    · have := hlookup k
      rwa [lookup_cons_of_ne hk, lookup_cons_of_ne hk] at this

/-! ### Assignments -/

theorem assign_of_ne (o : JsObject) {key : JsString} (h : key ≠ protoKey) (value : JsValue) :
    o.assign key value = { o with own := setEntry o.own (key, value) } := by
  rw [JsObject.assign, if_neg (by simp [h])]

theorem assign_same {o : JsObject} (hkeys : (keys o.own).Nodup) {key : JsString} {value : JsValue}
    (h : o.own.lookup key = some value) : o.assign key value = o := by
  rw [JsObject.assign, if_neg, setEntry_same hkeys h]
  simp only [Bool.and_eq_true, decide_eq_true_eq, not_and]
  rintro ⟨rfl, hnone⟩
  rw [h] at hnone
  cases hnone

theorem setPrototype_own (o : JsObject) (value : JsValue) : (o.setPrototype value).own = o.own := by
  cases value with
  | _ => rfl

theorem setPrototype_prototype (before entries : Entries) (value : JsValue) :
    ((JsObject.of entries).setPrototype value).prototype =
      ((JsObject.of before).setPrototype value).prototype := by
  cases value with
  | _ => rfl

theorem assign_protoKey {entries : Entries} (h : protoKey ∉ keys entries) (value : JsValue) :
    (JsObject.of entries).assign protoKey value = (JsObject.of entries).setPrototype value := by
  rw [JsObject.assign, if_pos]
  rw [JsObject.of, lookup_eq_none_iff.mpr h]
  rfl

theorem assign_lookup (o : JsObject) (key : JsString) (value : JsValue) {k : JsString}
    (hk : k ≠ protoKey) :
    (o.assign key value).own.lookup k = if k = key then some value else o.own.lookup k := by
  rw [JsObject.assign]
  split
  · rename_i hproto
    have hkey : key = protoKey := by
      simp only [Bool.and_eq_true, decide_eq_true_eq] at hproto
      exact hproto.1.1
    rw [setPrototype_own, if_neg (hkey ▸ hk)]
  · rw [lookup_setEntry]

theorem assign_nodup {o : JsObject} (h : (keys o.own).Nodup) (key : JsString) (value : JsValue) :
    (keys (o.assign key value).own).Nodup := by
  rw [JsObject.assign]
  split
  · rwa [setPrototype_own]
  · rw [keys_setEntry]
    split
    · exact h
    · rename_i hnew
      exact List.Nodup.append h (List.nodup_singleton _) (List.disjoint_singleton.mpr hnew)

section Each

variable {o : JsObject} {update : JsString → JsValue → Option JsValue} {key : JsString}
  {value v : JsValue} {entries : Entries}

theorem assignEach_none (h : update key value = none) :
    o.assignEach update ((key, value) :: entries) = o.assignEach update entries := by
  rw [JsObject.assignEach, List.foldl_cons, h]
  rfl

theorem assignEach_some (h : update key value = some v) :
    o.assignEach update ((key, value) :: entries) =
      (o.assign key v).assignEach update entries := by
  rw [JsObject.assignEach, List.foldl_cons, h]
  rfl

theorem assignEach_nodup (h : (keys o.own).Nodup) : (keys (o.assignEach update entries).own).Nodup := by
  induction entries generalizing o with
  | nil => exact h
  | cons e entries ih =>
    obtain ⟨key, value⟩ := e
    cases hupdate : update key value with
    | none =>
      rw [assignEach_none hupdate]
      exact ih h
    | some v =>
      rw [assignEach_some hupdate]
      exact ih (assign_nodup h key v)

/-- A loop that assigns only what is there changes nothing. -/
theorem assignEach_same (hkeys : (keys o.own).Nodup)
    (h : ∀ e ∈ entries, ∀ v, update e.1 e.2 = some v → o.own.lookup e.1 = some v) :
    o.assignEach update entries = o := by
  induction entries with
  | nil => rfl
  | cons e entries ih =>
    obtain ⟨key, value⟩ := e
    have hrest := ih fun e he => h e (List.mem_cons_of_mem _ he)
    cases hupdate : update key value with
    | none =>
      rw [assignEach_none hupdate]
      exact hrest
    | some v =>
      rw [assignEach_some hupdate, assign_same hkeys (h (key, value) List.mem_cons_self v hupdate)]
      exact hrest

theorem assignEach_congr {entries' : Entries}
    (h : List.Forall₂ (fun e e' => e.1 = e'.1 ∧ update e.1 e.2 = update e'.1 e'.2)
      entries entries') : o.assignEach update entries = o.assignEach update entries' := by
  induction h generalizing o with
  | nil => rfl
  | @cons e e' rest rest' he _ ih =>
    obtain ⟨key, value⟩ := e
    obtain ⟨key', value'⟩ := e'
    obtain ⟨hkey, hsame⟩ : key = key' ∧ update key value = update key' value' := he
    subst hkey
    cases hupdate : update key value with
    | none => rw [assignEach_none hupdate, assignEach_none (hsame ▸ hupdate), ih]
    | some v => rw [assignEach_some hupdate, assignEach_some (hsame ▸ hupdate), ih]

theorem ne_protoKey_of_notMem (h : protoKey ∉ keys ((key, value) :: entries)) :
    key ≠ protoKey ∧ protoKey ∉ keys entries :=
  ⟨fun heq => h (heq ▸ List.mem_cons_self), fun hmem => h (List.mem_cons_of_mem _ hmem)⟩

theorem assignEach_prototype (hproto : protoKey ∉ keys entries) :
    (o.assignEach update entries).prototype = o.prototype := by
  induction entries generalizing o with
  | nil => rfl
  | cons e entries ih =>
    obtain ⟨key, value⟩ := e
    obtain ⟨hkey, hrest⟩ := ne_protoKey_of_notMem hproto
    cases hupdate : update key value with
    | none => rw [assignEach_none hupdate, ih hrest]
    | some v => rw [assignEach_some hupdate, ih hrest, assign_of_ne o hkey]

/-- What a loop over entries with different keys leaves of an entry. -/
theorem assignEach_lookup (hkeys : (keys entries).Nodup) {k : JsString} (hproto : k ≠ protoKey) :
    (o.assignEach update entries).own.lookup k =
      ((entries.lookup k).bind (update k)).or (o.own.lookup k) := by
  induction entries generalizing o with
  | nil => simp [JsObject.assignEach]
  | cons e entries ih =>
    obtain ⟨key, value⟩ := e
    obtain ⟨hnew, hrest⟩ := List.nodup_cons.mp hkeys
    by_cases hk : k = key
    · subst hk
      rw [List.lookup_cons_self, Option.bind_some]
      cases hupdate : update k value with
      | none => rw [assignEach_none hupdate, ih hrest, lookup_eq_none_iff.mpr hnew,
          Option.bind_none]
      | some v => rw [assignEach_some hupdate, ih hrest, lookup_eq_none_iff.mpr hnew,
          assign_lookup o k v hproto, if_pos rfl, Option.bind_none, Option.none_or,
          Option.some_or]
    · rw [lookup_cons_of_ne hk]
      cases hupdate : update key value with
      | none => rw [assignEach_none hupdate, ih hrest]
      | some v => rw [assignEach_some hupdate, ih hrest, assign_lookup o key v hproto, if_neg hk]

theorem notMem_setEntry {entries : Entries} (h : protoKey ∉ keys entries) (hkey : key ≠ protoKey) :
    protoKey ∉ keys (setEntry entries (key, v)) := by
  rw [keys_setEntry]
  split
  · exact h
  · rw [List.mem_append, List.mem_singleton]
    exact fun hmem => hmem.elim h hkey.symm

theorem assignEach_notMem (hproto : protoKey ∉ keys entries) (h : protoKey ∉ keys o.own) :
    protoKey ∉ keys (o.assignEach update entries).own := by
  induction entries generalizing o with
  | nil => exact h
  | cons e entries ih =>
    obtain ⟨key, value⟩ := e
    obtain ⟨hkey, hrest⟩ := ne_protoKey_of_notMem hproto
    cases hupdate : update key value with
    | none =>
      rw [assignEach_none hupdate]
      exact ih hrest h
    | some v =>
      rw [assignEach_some hupdate, assign_of_ne o hkey]
      exact ih hrest (notMem_setEntry h hkey)

/-- A loop over entries with different keys sets the prototype where it comes to `__proto__`, and
makes no such entry. -/
theorem assignEach_setsPrototype {before : Entries} (hkeys : (keys entries).Nodup)
    (hbefore : protoKey ∉ keys before) :
    protoKey ∉ keys ((JsObject.of before).assignEach update entries).own ∧
      ((JsObject.of before).assignEach update entries).prototype =
        match (entries.lookup protoKey).bind (update protoKey) with
        | some v => ((JsObject.of before).setPrototype v).prototype
        | none => .object [] := by
  induction entries generalizing before with
  | nil => exact ⟨hbefore, rfl⟩
  | cons e entries ih =>
    obtain ⟨key, value⟩ := e
    obtain ⟨hnew, hrest⟩ := List.nodup_cons.mp hkeys
    by_cases hkey : protoKey = key
    · subst hkey
      rw [List.lookup_cons_self, Option.bind_some]
      cases hupdate : update protoKey value with
      | none =>
        rw [assignEach_none hupdate]
        exact ⟨assignEach_notMem hnew hbefore, assignEach_prototype hnew⟩
      | some v =>
        rw [assignEach_some hupdate, assign_protoKey hbefore, assignEach_prototype hnew]
        exact ⟨assignEach_notMem hnew (by rwa [setPrototype_own]), rfl⟩
    · rw [lookup_cons_of_ne hkey]
      cases hupdate : update key value with
      | none =>
        rw [assignEach_none hupdate]
        exact ih hrest hbefore
      | some v =>
        rw [assignEach_some hupdate, assign_of_ne _ (Ne.symm hkey)]
        have hset := ih hrest (@notMem_setEntry key v before hbefore (Ne.symm hkey))
        refine ⟨hset.1, hset.2.trans ?_⟩
        split
        · exact setPrototype_prototype before _ _
        · rfl

/-- An object that has an entry `__proto__` keeps its prototype. -/
theorem assignEach_keepsPrototype (h : protoKey ∈ keys o.own) :
    (o.assignEach update entries).prototype = o.prototype := by
  induction entries generalizing o with
  | nil => rfl
  | cons e entries ih =>
    obtain ⟨key, value⟩ := e
    cases hupdate : update key value with
    | none => rw [assignEach_none hupdate, ih h]
    | some v =>
      have hassign : o.assign key v = { o with own := setEntry o.own (key, v) } := by
        rw [JsObject.assign, if_neg]
        simp only [Bool.and_eq_true, Option.isNone_iff_eq_none, lookup_eq_none_iff]
        exact fun hset => hset.1.2 h
      have hmem : protoKey ∈ keys (setEntry o.own (key, v)) := by
        rw [keys_setEntry]
        split
        · exact h
        · exact List.mem_append_left _ h
      rw [assignEach_some hupdate, hassign, ih hmem]

theorem assignEach_append {before : Entries} {prototype : JsValue}
    (hkeys : (keys (before ++ entries)).Nodup) (hproto : protoKey ∉ keys entries) :
    (JsObject.assignEach ⟨before, prototype⟩ update entries).own =
      before ++ entries.filterMap fun e => (update e.1 e.2).map fun v => (e.1, v) := by
  induction entries generalizing before with
  | nil => simp [JsObject.assignEach]
  | cons e entries ih =>
    obtain ⟨key, value⟩ := e
    obtain ⟨hkey, hproto'⟩ := ne_protoKey_of_notMem hproto
    rw [keys, List.map_append, List.map_cons, List.nodup_middle, List.nodup_cons] at hkeys
    cases hupdate : update key value with
    | none =>
      rw [List.filterMap_cons_none (by rw [hupdate]; rfl), assignEach_none hupdate]
      exact ih (by rw [keys, List.map_append]; exact hkeys.2) hproto'
    | some v =>
      have hnew : key ∉ keys before := fun hmem => hkeys.1 (List.mem_append_left _ hmem)
      have hset : setEntry before (key, v) = before ++ [(key, v)] := by
        rw [setEntry, if_neg (mt (any_iff_mem_keys before key).mp hnew)]
      have hkeys' : (keys (before ++ [(key, v)] ++ entries)).Nodup := by
        rw [keys, List.map_append, List.map_append, List.append_assoc, List.map_singleton,
          List.singleton_append, List.nodup_middle, List.nodup_cons]
        exact hkeys
      rw [List.filterMap_cons_some (by rw [hupdate]; rfl), assignEach_some hupdate,
        assign_of_ne _ hkey, hset, ih hkeys' hproto', List.append_assoc, List.singleton_append]

theorem assignEach_of_nil (hkeys : (keys entries).Nodup) (hproto : protoKey ∉ keys entries) :
    ((JsObject.of []).assignEach update entries).own =
      entries.filterMap fun e => (update e.1 e.2).map fun v => (e.1, v) :=
  assignEach_append hkeys hproto

end Each

end Vigil.Js.Object
