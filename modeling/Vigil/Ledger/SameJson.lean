import Vigil.Ledger.JsonText

/-! What `canonicalize` tells apart.  A value denotes a JSON value, in which an object is a function
from keys to values: the order of the keys and the members that are undefined are gone.  The
canonical text of a value is the text of its normal form, and normal forms are told apart by what
they denote. -/

namespace Vigil.Ledger.SameJson

open Js.Text Canonical JsonNumber JsonText

/-! ### JSON values -/

inductive Json where
  | null
  | bool (b : Bool)
  | number (x : JsNumber)
  | string (s : JsString)
  | array (items : List Json)
  | object (members : JsString → Option Json)

mutual

/-- The JSON value that a value stands for. -/
def denote : JsValue → Json
  | .undefined => .null
  | .function => .null
  | .null => .null
  | .bool b => .bool b
  | .number x => if x = .notFinite then .null else .number x
  | .string s => .string s
  | .array items => .array (denoteItems items)
  | .object entries => .object (denoteMember entries)

def denoteItems : List JsValue → List Json
  | [] => []
  | item :: rest => denote item :: denoteItems rest

def denoteMember : List (JsString × JsValue) → JsString → Option Json
  | [], _ => none
  | (_, .undefined) :: rest, key => denoteMember rest key
  | (k, value) :: rest, key => if k = key then some (denote value) else denoteMember rest key

end

mutual

/-- A JSON-like value: numbers in standard form, no key twice, no functions, and `undefined` only
as a member or an item. -/
def JsonLike : JsValue → Prop
  | .undefined => False
  | .function => False
  | .null => True
  | .bool _ => True
  | .number x => Standard x
  | .string _ => True
  | .array items => JsonLikeItems items
  | .object entries => (entries.map (·.1)).Nodup ∧ JsonLikeEntries entries

def JsonLikeItems : List JsValue → Prop
  | [] => True
  | item :: rest => (item = .undefined ∨ JsonLike item) ∧ JsonLikeItems rest

def JsonLikeEntries : List (JsString × JsValue) → Prop
  | [] => True
  | (_, value) :: rest => (value = .undefined ∨ JsonLike value) ∧ JsonLikeEntries rest

end

/-! ### Leaving out what JSON has not -/

mutual

def strip : JsValue → JsValue
  | .undefined => .null
  | .function => .null
  | .null => .null
  | .bool b => .bool b
  | .number x => if x = .notFinite then .null else .number x
  | .string s => .string s
  | .array items => .array (stripItems items)
  | .object entries => .object (stripEntries entries)

def stripItems : List JsValue → List JsValue
  | [] => []
  | item :: rest => strip item :: stripItems rest

def stripEntries : List (JsString × JsValue) → List (JsString × JsValue)
  | [] => []
  | (_, .undefined) :: rest => stripEntries rest
  | (key, value) :: rest => (key, strip value) :: stripEntries rest

end

theorem stripEntries_keys (entries : List (JsString × JsValue)) :
    ((stripEntries entries).map (·.1)).Sublist (entries.map (·.1)) := by
  induction entries with
  | nil => exact List.Sublist.slnil
  | cons entry entries ih =>
    obtain ⟨key, value⟩ := entry
    cases value with
    | undefined => exact ih.cons key
    | _ => exact ih.cons_cons key

theorem strip_ne_undefined (value : JsValue) : strip value ≠ .undefined := by
  cases value with
  | number x =>
    rw [strip]
    split <;> simp
  | _ => simp [strip]

variable {value : JsValue} {entries entries' : List (JsString × JsValue)}

theorem stripEntries_cons (key : JsString) (rest : List (JsString × JsValue))
    (h : value ≠ .undefined) :
    stripEntries ((key, value) :: rest) = (key, strip value) :: stripEntries rest := by
  cases value with
  | undefined => exact absurd rfl h
  | _ => rfl

mutual

theorem plain_strip : ∀ value, JsonLike value → Plain (strip value)
  | .undefined, h => h.elim
  | .function, h => h.elim
  | .null, _ => trivial
  | .bool _, _ => trivial
  | .number x, h => by
    rw [strip]
    split
    · trivial
    · rename_i hfinite
      exact ⟨h, hfinite⟩
  | .string _, _ => trivial
  | .array items, h => plain_stripItems items h
  | .object entries, h =>
    ⟨h.1.sublist (stripEntries_keys entries), plain_stripEntries entries h.2⟩

theorem plain_stripItems : ∀ items, JsonLikeItems items → PlainItems (stripItems items)
  | [], _ => trivial
  | item :: rest, h => by
    refine ⟨?_, plain_stripItems rest h.2⟩
    rcases h.1 with rfl | hitem
    · trivial
    · exact plain_strip item hitem

theorem plain_stripEntries : ∀ entries, JsonLikeEntries entries → PlainEntries (stripEntries entries)
  | [], _ => trivial
  | (key, value) :: rest, h => by
    have hrest := plain_stripEntries rest h.2
    rcases h.1 with rfl | hvalue
    · exact hrest
    · have hne : value ≠ .undefined := by
        rintro rfl
        exact hvalue
      rw [stripEntries_cons key rest hne]
      exact ⟨plain_strip value hvalue, hrest⟩

end

mutual

theorem stringify_eq : ∀ value, JsonLike value → stringify value = some (print (strip value))
  | .undefined, h => h.elim
  | .function, h => h.elim
  | .null, _ => by rw [stringify, strip, print]
  | .bool true, _ => by rw [stringify, strip, print]
  | .bool false, _ => by rw [stringify, strip, print]
  | .number x, _ => by
    rw [stringify, strip]
    split
    · rename_i hfinite
      rw [hfinite, print]
      rfl
    · rw [print]
  | .string s, _ => by rw [stringify, strip, print]
  | .array items, h => by rw [stringify, strip, print, stringifyItems_eq items h]
  | .object entries, h => by rw [stringify, strip, print, stringifyEntries_eq entries h.2]

theorem stringifyItems_eq : ∀ items, JsonLikeItems items →
    stringifyItems items = printItems (stripItems items)
  | [], _ => rfl
  | item :: rest, h => by
    rw [stringifyItems, stripItems, printItems, stringifyItems_eq rest h.2]
    rcases h.1 with rfl | hitem
    · rw [stringify, strip, print]
      rfl
    · rw [stringify_eq item hitem, Option.getD_some]

theorem stringifyEntries_eq : ∀ entries, JsonLikeEntries entries →
    stringifyEntries entries = printEntries (stripEntries entries)
  | [], _ => rfl
  | (key, value) :: rest, h => by
    have hrest := stringifyEntries_eq rest h.2
    rw [stringifyEntries]
    rcases h.1 with rfl | hvalue
    · rw [stringify, stripEntries]
      exact hrest
    · have hne : value ≠ .undefined := by
        rintro rfl
        exact hvalue
      rw [stripEntries_cons key rest hne, printEntries, stringify_eq value hvalue, hrest]

end

/-! ### Normal forms -/

mutual

/-- The keys of every object sorted, by their UTF-16 units. -/
def sortKeys : JsValue → JsValue
  | .undefined => .undefined
  | .function => .function
  | .null => .null
  | .bool b => .bool b
  | .number x => .number x
  | .string s => .string s
  | .array items => .array (sortItems items)
  | .object entries => .object ((sortValues entries).insertionSort fun a b => a.1 ≤ b.1)

def sortItems : List JsValue → List JsValue
  | [] => []
  | item :: rest => sortKeys item :: sortItems rest

def sortValues : List (JsString × JsValue) → List (JsString × JsValue)
  | [] => []
  | (key, value) :: rest => (key, sortKeys value) :: sortValues rest

end

mutual

/-- A value that JSON has, written in the one order of its keys. -/
def Normal : JsValue → Prop
  | .undefined => False
  | .function => False
  | .null => True
  | .bool _ => True
  | .number x => Standard x ∧ x ≠ .notFinite
  | .string _ => True
  | .array items => NormalItems items
  | .object entries => (entries.Pairwise fun a b => a.1 < b.1) ∧ NormalEntries entries

/-- `Normal` of every item. -/
def NormalItems : List JsValue → Prop
  | [] => True
  | item :: rest => Normal item ∧ NormalItems rest

def NormalEntries : List (JsString × JsValue) → Prop
  | [] => True
  | (_, value) :: rest => Normal value ∧ NormalEntries rest

end

theorem normalEntries_iff (entries : List (JsString × JsValue)) :
    NormalEntries entries ↔ ∀ entry ∈ entries, Normal entry.2 := by
  induction entries with
  | nil => simp [NormalEntries]
  | cons entry entries ih => simp [NormalEntries, ih]

theorem sortValues_keys (entries : List (JsString × JsValue)) :
    (sortValues entries).map (·.1) = entries.map (·.1) := by
  induction entries with
  | nil => rfl
  | cons entry entries ih =>
    obtain ⟨key, value⟩ := entry
    rw [sortValues, List.map_cons, List.map_cons, ih]

theorem ne_of_key_lt {a b : JsString} (h : a < b) : a ≠ b := by
  rintro rfl
  exact List.lt_irrefl a h

/-- Sorting entries with different keys leaves no two keys equal or out of order. -/
theorem pairwise_sorted (h : (entries.map (·.1)).Nodup) :
    (entries.insertionSort fun a b => a.1 ≤ b.1).Pairwise fun a b => a.1 < b.1 := by
  have hperm := List.perm_insertionSort (fun a b : JsString × JsValue => a.1 ≤ b.1) entries
  have hnodup := (hperm.map (·.1)).nodup_iff.mpr h
  have hsorted : (entries.insertionSort fun a b => a.1 ≤ b.1).Pairwise fun a b => a.1 ≤ b.1 :=
    List.pairwise_insertionSort _ entries
  refine (hsorted.and (List.pairwise_map.mp hnodup)).imp ?_
  rintro a b ⟨hle, hne⟩
  by_contra hlt
  exact hne (List.le_antisymm hle (List.not_lt.mp hlt))

mutual

theorem normal_sortKeys : ∀ value, Plain value → Normal (sortKeys value)
  | .undefined, h => h.elim
  | .function, h => h.elim
  | .null, _ => trivial
  | .bool _, _ => trivial
  | .number _, h => h
  | .string _, _ => trivial
  | .array items, h => normal_sortItems items h
  | .object entries, h => by
    refine ⟨pairwise_sorted (by rw [sortValues_keys]; exact h.1), ?_⟩
    rw [normalEntries_iff]
    intro entry hentry
    exact normal_sortValues entries h.2 entry ((List.mem_insertionSort _).mp hentry)

theorem normal_sortItems : ∀ items, PlainItems items → NormalItems (sortItems items)
  | [], _ => trivial
  | item :: rest, h => ⟨normal_sortKeys item h.1, normal_sortItems rest h.2⟩

theorem normal_sortValues : ∀ entries, PlainEntries entries →
    ∀ entry ∈ sortValues entries, Normal entry.2
  | [], _, _, hentry => absurd hentry List.not_mem_nil
  | (key, value) :: rest, h, entry, hentry => by
    rcases List.mem_cons.mp hentry with rfl | hentry
    · exact normal_sortKeys value h.1
    · exact normal_sortValues rest h.2 entry hentry

end

mutual

theorem Normal.plain : ∀ {value}, Normal value → Plain value
  | .undefined, h => h.elim
  | .function, h => h.elim
  | .null, _ => trivial
  | .bool _, _ => trivial
  | .number _, h => h
  | .string _, _ => trivial
  | .array _, h => NormalItems.plain h
  | .object _, h =>
    ⟨List.pairwise_map.mpr (h.1.imp ne_of_key_lt), NormalEntries.plain h.2⟩

theorem NormalItems.plain : ∀ {items}, NormalItems items → PlainItems items
  | [], _ => trivial
  | _ :: _, h => ⟨h.1.plain, NormalItems.plain h.2⟩

theorem NormalEntries.plain : ∀ {entries}, NormalEntries entries → PlainEntries entries
  | [], _ => trivial
  | (_, _) :: _, h => ⟨h.1.plain, NormalEntries.plain h.2⟩

end

/-! ### The canonical text is the text of the normal form -/

theorem printEntries_eq_map (entries : List (JsString × JsValue)) :
    printEntries entries = entries.map fun entry => entryText entry.1 (print entry.2) := by
  induction entries with
  | nil => rfl
  | cons entry entries ih =>
    obtain ⟨key, value⟩ := entry
    rw [printEntries, List.map_cons, ih]

theorem printEntries_sorted (entries : List (JsString × JsValue)) :
    printEntries (entries.insertionSort fun a b => a.1 ≤ b.1) =
      (sortEntries (entries.map fun entry => (entry.1, entryText entry.1 (print entry.2)))).map
        (·.2) := by
  rw [printEntries_eq_map, sortEntries,
    ← List.map_insertionSort (fun a b : JsString × JsValue => a.1 ≤ b.1)
      (fun a b : JsString × JsString => a.1 ≤ b.1) _ _ (fun _ _ _ _ => Iff.rfl), List.map_map]
  rfl

mutual

theorem canonicalize_eq : ∀ value, canonicalize value = print (sortKeys (strip value))
  | .undefined => by rw [canonicalize, strip, sortKeys, print]
  | .function => by rw [canonicalize, strip, sortKeys, print]
  | .null => by rw [canonicalize, strip, sortKeys, print]
  | .bool true => by rw [canonicalize, strip, sortKeys, print]
  | .bool false => by rw [canonicalize, strip, sortKeys, print]
  | .number x => by
    rw [canonicalize, strip]
    split
    · rename_i hfinite
      rw [hfinite, sortKeys, print]
      rfl
    · rw [sortKeys, print]
  | .string s => by rw [canonicalize, strip, sortKeys, print]
  | .array items => by
    rw [canonicalize, strip, sortKeys, print, canonicalizeItems_eq items]
  | .object entries => by
    rw [canonicalize, strip, sortKeys, print, printEntries_sorted, canonicalizeEntries_eq entries]

theorem canonicalizeItems_eq : ∀ items,
    canonicalizeItems items = printItems (sortItems (stripItems items))
  | [] => rfl
  | item :: rest => by
    rw [canonicalizeItems, stripItems, sortItems, printItems, canonicalize_eq item,
      canonicalizeItems_eq rest]

theorem canonicalizeEntries_eq : ∀ entries, canonicalizeEntries entries =
    (sortValues (stripEntries entries)).map fun entry => (entry.1, entryText entry.1 (print entry.2))
  | [] => rfl
  | (key, value) :: rest => by
    have hvalue := canonicalize_eq value
    have hrest := canonicalizeEntries_eq rest
    cases value with
    | undefined => exact hrest
    | _ =>
      rw [canonicalizeEntries, stripEntries, sortValues, List.map_cons, hvalue, hrest] <;> simp

end

/-! ### The normal form denotes what the value does -/

theorem denoteMember_cons (key : JsString) (rest : List (JsString × JsValue))
    (h : value ≠ .undefined) (k : JsString) : denoteMember ((key, value) :: rest) k =
      if key = k then some (denote value) else denoteMember rest k := by
  cases value with
  | undefined => exact absurd rfl h
  | _ => rw [denoteMember]; simp

mutual

theorem denote_strip : ∀ value, denote (strip value) = denote value
  | .undefined => by rw [strip, denote, denote]
  | .function => by rw [strip, denote, denote]
  | .null => by rw [strip]
  | .bool _ => by rw [strip]
  | .number x => by
    rw [strip]
    split
    · rename_i hfinite
      rw [hfinite, denote, denote, if_pos rfl]
    · rfl
  | .string _ => by rw [strip]
  | .array items => by rw [strip, denote, denote, denoteItems_strip items]
  | .object entries => by
    rw [strip, denote, denote]
    exact congrArg _ (funext (denoteMember_strip entries))

theorem denoteItems_strip : ∀ items, denoteItems (stripItems items) = denoteItems items
  | [] => rfl
  | item :: rest => by
    rw [stripItems, denoteItems, denoteItems, denote_strip item, denoteItems_strip rest]

theorem denoteMember_strip : ∀ entries k,
    denoteMember (stripEntries entries) k = denoteMember entries k
  | [], _ => rfl
  | (key, value) :: rest, k => by
    have hrest := denoteMember_strip rest k
    have hdenote := denote_strip value
    by_cases hvalue : value = .undefined
    · subst hvalue
      rw [stripEntries, denoteMember, hrest]
    · rw [stripEntries_cons key rest hvalue, denoteMember_cons key _ (strip_ne_undefined value),
        denoteMember_cons key rest hvalue, hdenote, hrest]

end

theorem ne_undefined_of_plain (h : Plain value) : value ≠ .undefined := by
  rintro rfl
  exact h

theorem denoteMember_eq_none {k : JsString} (h : ∀ entry ∈ entries, entry.1 ≠ k) :
    denoteMember entries k = none := by
  induction entries with
  | nil => rfl
  | cons entry entries ih =>
    obtain ⟨key, value⟩ := entry
    have hrest := ih fun entry hentry => h entry (List.mem_cons_of_mem _ hentry)
    by_cases hvalue : value = .undefined
    · rw [hvalue, denoteMember, hrest]
    · rw [denoteMember_cons key entries hvalue, if_neg (h _ List.mem_cons_self), hrest]

/-- An object says of a key what the one entry under it says. -/
theorem denoteMember_eq_some_iff {k : JsString} {x : Json} (hkeys : (entries.map (·.1)).Nodup)
    (hplain : PlainEntries entries) :
    denoteMember entries k = some x ↔ ∃ value, (k, value) ∈ entries ∧ denote value = x := by
  induction entries with
  | nil => simp [denoteMember]
  | cons entry entries ih =>
    obtain ⟨key, value⟩ := entry
    obtain ⟨hnew, hkeys⟩ := List.nodup_cons.mp hkeys
    rw [denoteMember_cons key entries (ne_undefined_of_plain hplain.1)]
    by_cases hkey : key = k
    · subst hkey
      have hother : ∀ value', (key, value') ∉ entries := by
        intro value' hmem
        exact hnew (List.mem_map.mpr ⟨_, hmem, rfl⟩)
      simp [hother]
    · have hne : k ≠ key := Ne.symm hkey
      simp [hkey, hne, ih hkeys hplain.2]

theorem denoteMember_perm (hkeys : (entries.map (·.1)).Nodup) (hplain : PlainEntries entries)
    (hplain' : PlainEntries entries') (hperm : entries'.Perm entries) :
    denoteMember entries' = denoteMember entries := by
  funext k
  apply Option.ext
  intro x
  have hkeys' := (hperm.map (·.1)).nodup_iff.mpr hkeys
  rw [denoteMember_eq_some_iff hkeys hplain, denoteMember_eq_some_iff hkeys' hplain']
  simp only [hperm.mem_iff]

mutual

theorem denote_sortKeys : ∀ value, Plain value → denote (sortKeys value) = denote value
  | .undefined, h => h.elim
  | .function, h => h.elim
  | .null, _ => by rw [sortKeys]
  | .bool _, _ => by rw [sortKeys]
  | .number _, _ => by rw [sortKeys]
  | .string _, _ => by rw [sortKeys]
  | .array items, h => by rw [sortKeys, denote, denote, denoteItems_sortItems items h]
  | .object entries, h => by
    have hnormal := normal_sortKeys (.object entries) h
    have hkeys : ((sortValues entries).map (·.1)).Nodup := by
      rw [sortValues_keys]
      exact h.1
    have hplain : PlainEntries (sortValues entries) :=
      ((normalEntries_iff _).mpr (normal_sortValues entries h.2)).plain
    rw [sortKeys] at hnormal ⊢
    rw [denote, denote,
      denoteMember_perm hkeys hplain hnormal.2.plain (List.perm_insertionSort _ _)]
    exact congrArg _ (funext (denoteMember_sortValues entries h.2))

theorem denoteItems_sortItems : ∀ items, PlainItems items →
    denoteItems (sortItems items) = denoteItems items
  | [], _ => rfl
  | item :: rest, h => by
    rw [sortItems, denoteItems, denoteItems, denote_sortKeys item h.1,
      denoteItems_sortItems rest h.2]

theorem denoteMember_sortValues : ∀ entries, PlainEntries entries → ∀ k,
    denoteMember (sortValues entries) k = denoteMember entries k
  | [], _, _ => rfl
  | (key, value) :: rest, h, k => by
    have hsorted := (normal_sortKeys value h.1).plain
    rw [sortValues, denoteMember_cons key _ (ne_undefined_of_plain hsorted),
      denoteMember_cons key rest (ne_undefined_of_plain h.1), denote_sortKeys value h.1,
      denoteMember_sortValues rest h.2 k]

end

/-! ### Normal forms are told apart by what they denote -/

theorem denoteMember_lt {k : JsString} (h : ∀ entry ∈ entries, k < entry.1) :
    denoteMember entries k = none :=
  denoteMember_eq_none fun entry hentry => (ne_of_key_lt (h entry hentry)).symm

/-- The first keys of two objects that denote the same are the same. -/
theorem first_key_le {key key' : JsString} {value value' : JsValue} (hvalue : Plain value)
    (hsorted : ((key', value') :: entries').Pairwise fun a b => a.1 < b.1)
    (h : denoteMember ((key, value) :: entries) = denoteMember ((key', value') :: entries')) :
    key' ≤ key := by
  refine List.not_lt.mp fun hlt => ?_
  have hnone : denoteMember ((key', value') :: entries') key = none := by
    apply denoteMember_lt
    intro entry hentry
    rcases List.mem_cons.mp hentry with rfl | hentry
    · exact hlt
    · exact List.lt_trans hlt (List.rel_of_pairwise_cons hsorted hentry)
  rw [← h, denoteMember_cons key entries (ne_undefined_of_plain hvalue), if_pos rfl] at hnone
  cases hnone

/-- What is left of two objects after an entry under the same key. -/
theorem denoteMember_rest {key : JsString} {value value' : JsValue} (hvalue : Plain value)
    (hvalue' : Plain value') (hsorted : ((key, value) :: entries).Pairwise fun a b => a.1 < b.1)
    (hsorted' : ((key, value') :: entries').Pairwise fun a b => a.1 < b.1)
    (h : denoteMember ((key, value) :: entries) = denoteMember ((key, value') :: entries')) :
    denote value = denote value' ∧ denoteMember entries = denoteMember entries' := by
  have hat : ∀ k, (if key = k then some (denote value) else denoteMember entries k) =
      if key = k then some (denote value') else denoteMember entries' k := by
    intro k
    rw [← denoteMember_cons key entries (ne_undefined_of_plain hvalue), h,
      denoteMember_cons key entries' (ne_undefined_of_plain hvalue')]
  refine ⟨by simpa using hat key, funext fun k => ?_⟩
  by_cases hk : key = k
  · subst hk
    rw [denoteMember_lt fun entry => List.rel_of_pairwise_cons hsorted,
      denoteMember_lt fun entry => List.rel_of_pairwise_cons hsorted']
  · simpa [hk] using hat k

theorem denote_number {x : JsNumber} (h : x ≠ .notFinite) :
    denote (.number x) = .number x := by
  rw [denote, if_neg h]

mutual

theorem eq_of_denote : ∀ {value value'}, Normal value → Normal value' →
    denote value = denote value' → value = value'
  | .undefined, _, h, _, _ => h.elim
  | .function, _, h, _, _ => h.elim
  | _, .undefined, _, h, _ => h.elim
  | _, .function, _, h, _ => h.elim
  | .null, .null, _, _, _ => rfl
  | .bool _, .bool _, _, _, hdenote => by simpa [denote] using hdenote
  | .number _, .number _, h, h', hdenote => by
    rw [denote_number h.2, denote_number h'.2] at hdenote
    rw [Json.number.inj hdenote]
  | .string _, .string _, _, _, hdenote => by simpa [denote] using hdenote
  | .array _, .array _, h, h', hdenote => by
    rw [denote, denote] at hdenote
    rw [eq_of_denoteItems h h' (Json.array.inj hdenote)]
  | .object _, .object _, h, h', hdenote => by
    rw [denote, denote] at hdenote
    rw [eq_of_denoteMember h.1 h'.1 h.2 h'.2 (Json.object.inj hdenote)]
  | .number _, .null, h, _, hdenote => by simp [denote, h.2] at hdenote
  | .number _, .bool _, h, _, hdenote => by simp [denote, h.2] at hdenote
  | .number _, .string _, h, _, hdenote => by simp [denote, h.2] at hdenote
  | .number _, .array _, h, _, hdenote => by simp [denote, h.2] at hdenote
  | .number _, .object _, h, _, hdenote => by simp [denote, h.2] at hdenote
  | .null, .number _, _, h, hdenote => by simp [denote, h.2] at hdenote
  | .bool _, .number _, _, h, hdenote => by simp [denote, h.2] at hdenote
  | .string _, .number _, _, h, hdenote => by simp [denote, h.2] at hdenote
  | .array _, .number _, _, h, hdenote => by simp [denote, h.2] at hdenote
  | .object _, .number _, _, h, hdenote => by simp [denote, h.2] at hdenote

theorem eq_of_denoteItems : ∀ {items items'}, NormalItems items → NormalItems items' →
    denoteItems items = denoteItems items' → items = items'
  | [], [], _, _, _ => rfl
  | item :: rest, item' :: rest', h, h', hdenote => by
    rw [denoteItems, denoteItems] at hdenote
    obtain ⟨hitem, hrest⟩ := List.cons.inj hdenote
    rw [eq_of_denote h.1 h'.1 hitem, eq_of_denoteItems h.2 h'.2 hrest]

theorem eq_of_denoteMember : ∀ {entries entries' : List (JsString × JsValue)},
    (entries.Pairwise fun a b => a.1 < b.1) → (entries'.Pairwise fun a b => a.1 < b.1) →
    NormalEntries entries → NormalEntries entries' →
    denoteMember entries = denoteMember entries' → entries = entries'
  | [], [], _, _, _, _, _ => rfl
  | [], (key, _) :: entries', _, _, _, h', hdenote => by
    have hat := congrFun hdenote key
    rw [denoteMember_cons key entries' (ne_undefined_of_plain h'.1.plain), if_pos rfl] at hat
    cases hat
  | (key, _) :: entries, [], _, _, h, _, hdenote => by
    have hat := congrFun hdenote key
    rw [denoteMember_cons key entries (ne_undefined_of_plain h.1.plain), if_pos rfl] at hat
    cases hat
  | (key, value) :: entries, (key', value') :: entries', hsorted, hsorted', h, h', hdenote => by
    obtain rfl : key = key' := List.le_antisymm
      (first_key_le h'.1.plain hsorted hdenote.symm) (first_key_le h.1.plain hsorted' hdenote)
    obtain ⟨hvalue, hrest⟩ :=
      denoteMember_rest h.1.plain h'.1.plain hsorted hsorted' hdenote
    rw [eq_of_denote h.1 h'.1 hvalue,
      eq_of_denoteMember hsorted.of_cons hsorted'.of_cons h.2 h'.2 hrest]

end

/-! ### The canonical text decides -/

/-- The value after a trip through its JSON text: `JSON.parse(JSON.stringify(value))`. -/
def stored (value : JsValue) : Option JsValue := (stringify value).bind parse

theorem stored_eq (h : JsonLike value) : stored value = some (strip value) := by
  rw [stored, stringify_eq value h, Option.bind_some, parse_print (plain_strip value h)]

theorem denote_normal (h : JsonLike value) : denote (sortKeys (strip value)) = denote value := by
  rw [denote_sortKeys _ (plain_strip value h), denote_strip]

theorem canonicalize_eq_iff {a b : JsValue} (ha : JsonLike a) (hb : JsonLike b) :
    canonicalize a = canonicalize b ↔ denote a = denote b := by
  have hna := normal_sortKeys _ (plain_strip a ha)
  have hnb := normal_sortKeys _ (plain_strip b hb)
  rw [canonicalize_eq a, canonicalize_eq b, ← denote_normal ha, ← denote_normal hb]
  constructor
  · intro h
    have hparse : some (sortKeys (strip a)) = some (sortKeys (strip b)) := by
      rw [← parse_print hna.plain, h, parse_print hnb.plain]
    rw [Option.some.inj hparse]
  · intro h
    rw [eq_of_denote hna hnb h]

mutual

theorem jsonLike_of_plain : ∀ {value}, Plain value → JsonLike value
  | .undefined, h => h.elim
  | .function, h => h.elim
  | .null, _ => trivial
  | .bool _, _ => trivial
  | .number _, h => h.1
  | .string _, _ => trivial
  | .array _, h => jsonLikeItems_of_plain h
  | .object _, h => ⟨h.1, jsonLikeEntries_of_plain h.2⟩

theorem jsonLikeItems_of_plain : ∀ {items}, PlainItems items → JsonLikeItems items
  | [], _ => trivial
  | _ :: _, h => ⟨.inr (jsonLike_of_plain h.1), jsonLikeItems_of_plain h.2⟩

theorem jsonLikeEntries_of_plain : ∀ {entries}, PlainEntries entries → JsonLikeEntries entries
  | [], _ => trivial
  | (_, _) :: _, h => ⟨.inr (jsonLike_of_plain h.1), jsonLikeEntries_of_plain h.2⟩

end

/-- Two values have the same canonical text if and only if they denote the same JSON value, and a
value that was stored has the canonical text it had. -/
theorem canonicalize_decides_same_json (a b : JsValue) (ha : JsonLike a) (hb : JsonLike b) :
    (canonicalize a = canonicalize b ↔ denote a = denote b) ∧
      (stored a).map canonicalize = some (canonicalize a) := by
  refine ⟨canonicalize_eq_iff ha hb, ?_⟩
  have hstrip := jsonLike_of_plain (plain_strip a ha)
  rw [stored_eq ha, Option.map_some, (canonicalize_eq_iff hstrip ha).mpr (denote_strip a)]

/-- An undefined member and the order of the keys do not count. -/
theorem canonicalize_of_reordered :
    canonicalize (.object [(js "b", .number .notFinite), (js "x", .undefined),
        (js "a", .array [.undefined])]) =
      canonicalize (.object [(js "a", .array [.null]), (js "b", .null)]) := by
  refine (canonicalize_decides_same_json _ _ ?_ ?_).1.mpr ?_
  · refine ⟨by decide, ?_⟩
    simp [JsonLikeEntries, JsonLikeItems, JsonLike, Standard]
  · refine ⟨by decide, ?_⟩
    simp [JsonLikeEntries, JsonLikeItems, JsonLike]
  · rw [denote, denote]
    congr 1
    funext k
    have hne : js "a" ≠ js "b" := by decide
    simp only [denoteMember, denoteItems, denote, if_true]
    by_cases ha : js "a" = k
    · subst ha
      simp [hne.symm]
    · simp [ha]

end Vigil.Ledger.SameJson
