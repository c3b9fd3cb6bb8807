import Mathlib.Data.List.Induction
import Mathlib.Data.List.Nodup

/-! Maps as lists of entries.  A lookup finds the first entry of a key.  `set` is that of a map that
remembers the order in which its keys were added: it writes over the entry of a key, or adds one at
the end. -/

namespace Vigil.Lib.Entries

variable {α β : Type}

/-! ### Lookups -/

/-- Where every element gives a value, the values stand where the elements do. -/
theorem getElem?_filterMap {f : α → Option β} {l : List α}
    (h : ∀ a ∈ l, (f a).isSome = true) (place : ℕ) : (l.filterMap f)[place]? = l[place]?.bind f := by
  induction l generalizing place with
  | nil => rfl
  | cons a l ih =>
    obtain ⟨value, hvalue⟩ := Option.isSome_iff_exists.mp (h a List.mem_cons_self)
    rw [List.filterMap_cons_some hvalue]
    cases place with
    | zero => exact hvalue.symm
    | succ place =>
      rw [List.getElem?_cons_succ, List.getElem?_cons_succ]
      exact ih (fun b hb => h b (List.mem_cons_of_mem _ hb)) place

section Lookup

variable [BEq α] [LawfulBEq α] {entries : List (α × β)} {key : α} {value : β}

theorem mem_of_lookup (h : entries.lookup key = some value) : (key, value) ∈ entries := by
  obtain ⟨l₁, l₂, rfl, -⟩ := List.lookup_eq_some_iff.mp h
  exact List.mem_append_right _ List.mem_cons_self

theorem notMem_of_lookup (h : entries.lookup key = none) : key ∉ entries.map (·.1) := by
  intro hmem
  obtain ⟨entry, hentry, rfl⟩ := List.mem_map.mp hmem
  have hne := List.lookup_eq_none_iff.mp h entry hentry
  simp at hne

theorem lookup_isSome_of_mem (h : (key, value) ∈ entries) : (entries.lookup key).isSome = true := by
  rw [Option.isSome_iff_ne_none]
  intro hnone
  exact notMem_of_lookup hnone (List.mem_map_of_mem h)

omit [LawfulBEq α] in
theorem lookup_append_isSome (before after : List (α × β)) (key : α) :
    ((before ++ after).lookup key).isSome = true ↔
      (before.lookup key).isSome = true ∨ (after.lookup key).isSome = true := by
  rw [List.lookup_append, Option.isSome_or, Bool.or_eq_true]

theorem lookup_of_nodup (hkeys : (entries.map (·.1)).Nodup) (hmem : (key, value) ∈ entries) :
    entries.lookup key = some value := by
  induction entries with
  | nil => cases hmem
  | cons entry rest ih =>
    obtain ⟨hnew, hrest⟩ := List.nodup_cons.mp hkeys
    rcases List.mem_cons.mp hmem with rfl | hmem
    · rw [List.lookup_cons, beq_self_eq_true]
    · have hne : key ≠ entry.1 := by
        rintro rfl
        exact hnew (List.mem_map.mpr ⟨_, hmem, rfl⟩)
      rw [List.lookup_cons, beq_false_of_ne hne]
      exact ih hrest hmem

theorem lookup_eq_none_of_notMem (h : key ∉ entries.map (·.1)) : entries.lookup key = none := by
  cases hlookup : entries.lookup key with
  | none => rfl
  | some value => exact absurd (List.mem_map_of_mem (mem_of_lookup hlookup)) h

/-- With a value for each key, the values are found in their order. -/
theorem filterMap_lookup (hkeys : (entries.map (·.1)).Nodup) :
    (entries.map (·.1)).filterMap (fun key => entries.reverse.lookup key) =
      entries.map (·.2) := by
  have hfound : ∀ entry ∈ entries, entries.reverse.lookup entry.1 = some entry.2 := by
    intro entry hmem
    apply lookup_of_nodup
    · rw [List.map_reverse, List.nodup_reverse]
      exact hkeys
    · exact List.mem_reverse.mpr hmem
  rw [List.filterMap_map, ← List.filterMap_eq_map]
  exact List.filterMap_congr hfound

/-- The entry of a key that was set last is the one at the last place of the key. -/
theorem lookup_reverse_zipIdx (entries : List (α × β)) (key : α) :
    entries.reverse.lookup key =
      ((entries.map (·.1)).zipIdx.reverse.lookup key).bind fun place =>
        entries[place]?.map (·.2) := by
  induction entries using List.reverseRecOn with
  | nil => rfl
  | append_singleton entries entry ih =>
    have hplaces : ((entries ++ [entry]).map (·.1)).zipIdx.reverse =
        (entry.1, entries.length) :: (entries.map (·.1)).zipIdx.reverse := by
      rw [List.map_append, List.zipIdx_append, List.reverse_append, List.length_map, Nat.zero_add]
      rfl
    rw [hplaces, List.reverse_append, List.reverse_singleton, List.singleton_append,
      List.lookup_cons, List.lookup_cons]
    cases hkey : key == entry.1 with
    | true => simp
    | false =>
      rw [ih]
      refine Option.bind_congr fun place hplace => ?_
      have hlt : place < entries.length := by
        have hmem := List.mem_zipIdx_iff_getElem?.mp (List.mem_reverse.mp (mem_of_lookup hplace))
        rw [List.getElem?_map, Option.map_eq_some_iff] at hmem
        obtain ⟨found, hfound, -⟩ := hmem
        exact (List.getElem?_eq_some_iff.mp hfound).1
      rw [List.getElem?_append_left hlt]

/-- Of distinct keys, a filter keeps the entry of a key or leaves none. -/
theorem lookup_filter (hkeys : (entries.map (·.1)).Nodup) (p : α × β → Bool) (key : α) :
    (entries.filter p).lookup key = (entries.lookup key).filter fun value => p (key, value) := by
  cases hlookup : entries.lookup key with
  | none =>
    have hnone := notMem_of_lookup hlookup
    refine lookup_eq_none_of_notMem fun hmem => hnone ?_
    obtain ⟨entry, hentry, hkey⟩ := List.mem_map.mp hmem
    exact hkey ▸ List.mem_map_of_mem (List.mem_of_mem_filter hentry)
  | some value =>
    have hmem := mem_of_lookup hlookup
    have hkept : ((entries.filter p).map (·.1)).Nodup := hkeys.sublist (List.filter_sublist.map _)
    by_cases hp : p (key, value) = true
    · rw [Option.filter_some, if_pos hp]
      exact lookup_of_nodup hkept (List.mem_filter.mpr ⟨hmem, hp⟩)
    · rw [Option.filter_some, if_neg hp]
      refine lookup_eq_none_of_notMem fun hkey => hp ?_
      obtain ⟨⟨key', value'⟩, hentry, rfl⟩ := List.mem_map.mp hkey
      obtain ⟨hentry, hpass⟩ := List.mem_filter.mp hentry
      rwa [← Option.some.inj ((lookup_of_nodup hkeys hentry).symm.trans hlookup)]

end Lookup

/-! ### Writes -/

section Set

variable [DecidableEq α]

def set (key : α) (value : β) (entries : List (α × β)) : List (α × β) :=
  if key ∈ entries.map (·.1) then
    entries.map fun entry => if entry.1 = key then (key, value) else entry
  else entries ++ [(key, value)]

variable {entries : List (α × β)}

theorem keys_set (key : α) (value : β) (entries : List (α × β)) :
    (set key value entries).map (·.1) =
      if key ∈ entries.map (·.1) then entries.map (·.1) else entries.map (·.1) ++ [key] := by
  unfold set
  split
  · rw [List.map_map]
    refine List.map_congr_left fun entry _ => ?_
    rw [Function.comp_apply]
    split
    · rename_i heq
      exact heq.symm
    · rfl
  · rw [List.map_append]
    rfl

theorem nodup_set (h : (entries.map (·.1)).Nodup) (key : α) (value : β) :
    ((set key value entries).map (·.1)).Nodup := by
  rw [keys_set]
  split
  · exact h
  · rename_i hnew
    rw [← List.concat_eq_append]
    exact h.concat hnew

theorem length_set_of_mem {key : α} (h : key ∈ entries.map (·.1)) (value : β) :
    (set key value entries).length = entries.length := by
  rw [set, if_pos h, List.length_map]

theorem lookup_set (h : (entries.map (·.1)).Nodup) (key : α) (value : β) (other : α) :
    (set key value entries).lookup other =
      if other = key then some value else entries.lookup other := by
  have hnodup := nodup_set h key value
  split
  · rename_i heq
    subst heq
    apply lookup_of_nodup hnodup
    unfold set
    split
    · rename_i hmem
      obtain ⟨entry, hentry, hkey⟩ := List.mem_map.mp hmem
      exact List.mem_map.mpr ⟨entry, hentry, if_pos hkey⟩
    · exact List.mem_append_right _ (List.mem_singleton_self _)
  · rename_i hne
    cases hlookup : entries.lookup other with
    | none =>
      refine lookup_eq_none_of_notMem fun hmem => ?_
      have hnone := notMem_of_lookup hlookup
      rw [keys_set] at hmem
      split at hmem
      · exact hnone hmem
      · exact (List.mem_append.mp hmem).elim hnone fun heq => hne (List.mem_singleton.mp heq)
    | some found =>
      apply lookup_of_nodup hnodup
      have hmem := mem_of_lookup hlookup
      unfold set
      split
      · exact List.mem_map.mpr ⟨_, hmem, if_neg hne⟩
      · exact List.mem_append_left _ hmem

end Set

end Vigil.Lib.Entries
