import Mathlib.Data.List.Nodup

/-! Tables with a unique index: rows of which some have a key, and no two the same.  A write that
would give a row a key that another row has is refused, which is what keeps the index. -/

namespace Vigil.Lib.Keyed

variable {α κ : Type} {key : α → Option κ} {rows : List α} {row : α}

/-- No two rows have the same key. -/
def Unique (key : α → Option κ) (rows : List α) : Prop := (rows.filterMap key).Nodup

theorem unique_nil : Unique key [] := List.nodup_nil

theorem Unique.filter (h : Unique key rows) (p : α → Bool) : Unique key (rows.filter p) :=
  h.sublist ((List.filter_sublist).filterMap key)

theorem Unique.map {f : α → α} (h : Unique key rows) (hf : ∀ r ∈ rows, key (f r) = key r) :
    Unique key (rows.map f) := by
  rw [Unique, List.filterMap_map, List.filterMap_congr (by simpa using hf)]
  exact h

variable [DecidableEq κ]

/-- Whether the key of a row is that of one of the others. -/
def taken (key : α → Option κ) (others : List α) (row : α) : Bool :=
  (key row).any fun k => (others.filterMap key).contains k

theorem taken_iff : taken key rows row = true ↔ ∃ other ∈ rows, ∃ k, key other = some k ∧
    key row = some k := by
  rw [taken, Option.any_eq_true]
  constructor
  · rintro ⟨k, hk, hmem⟩
    obtain ⟨other, hother, hkey⟩ := List.mem_filterMap.mp (List.contains_iff_mem.mp hmem)
    exact ⟨other, hother, k, hkey, hk⟩
  · rintro ⟨other, hother, k, hkey, hk⟩
    exact ⟨k, hk, List.contains_iff_mem.mpr (List.mem_filterMap.mpr ⟨other, hother, hkey⟩)⟩

theorem taken_of_none (h : key row = none) : taken key rows row = false := by
  rw [taken, h]
  rfl

theorem unique_cons_iff :
    Unique key (row :: rows) ↔ taken key rows row = false ∧ Unique key rows := by
  unfold Unique
  cases hkey : key row with
  | none => rw [List.filterMap_cons_none hkey, taken_of_none hkey, eq_self, true_and]
  | some k =>
    rw [List.filterMap_cons_some hkey, List.nodup_cons, taken, hkey, Option.any_some,
      ← Bool.not_eq_true, List.contains_iff_mem]

section Replace

variable {ι : Type} [DecidableEq ι] {id : α → ι}

/-- The table after the row that has the same identifier was replaced. -/
def replace (id : α → ι) (row : α) (rows : List α) : List α :=
  rows.map fun r => if id r = id row then row else r

/-- The rows that have another identifier. -/
def others (id : α → ι) (row : α) (rows : List α) : List α := rows.filter fun r => id r ≠ id row

theorem mem_replace {r : α} (h : r ∈ replace id row rows) : r = row ∨ r ∈ others id row rows := by
  obtain ⟨s, hs, rfl⟩ := List.mem_map.mp h
  split
  · exact .inl rfl
  · rename_i hne
    exact .inr (List.mem_filter.mpr ⟨hs, by simpa using hne⟩)

theorem ids_replace (row : α) (rows : List α) : (replace id row rows).map id = rows.map id := by
  rw [replace, List.map_map]
  refine List.map_congr_left fun r _ => ?_
  rw [Function.comp_apply]
  split
  · rename_i heq
    exact heq.symm
  · rfl

/-! A row that is replaced, and the others. -/

theorem replace_of_notMem (h : id row ∉ rows.map id) : replace id row rows = rows := by
  conv_rhs => rw [← List.map_id rows]
  refine List.map_congr_left fun r hr => if_neg fun heq => h ?_
  exact heq ▸ List.mem_map_of_mem hr

theorem others_of_notMem (h : id row ∉ rows.map id) : others id row rows = rows := by
  rw [others, List.filter_eq_self]
  intro r hr
  simp only [decide_eq_true_eq]
  exact fun heq => h (heq ▸ List.mem_map_of_mem hr)

variable {r : α}

theorem replace_cons_self (hnew : id r ∉ rows.map id) (heq : id r = id row) :
    replace id row (r :: rows) = row :: rows := by
  rw [replace, List.map_cons, if_pos heq]
  exact congrArg _ (replace_of_notMem (heq ▸ hnew))

theorem others_cons_self (hnew : id r ∉ rows.map id) (heq : id r = id row) :
    others id row (r :: rows) = rows := by
  rw [others, List.filter_cons_of_neg (by simpa using heq)]
  exact others_of_notMem (heq ▸ hnew)

theorem replace_cons_of_ne (hne : id r ≠ id row) :
    replace id row (r :: rows) = r :: replace id row rows := by
  rw [replace, List.map_cons, if_neg hne]
  rfl

theorem others_cons_of_ne (hne : id r ≠ id row) :
    others id row (r :: rows) = r :: others id row rows :=
  List.filter_cons_of_pos (by simpa using hne)

/-- A replacement whose key no other row has keeps the index. -/
theorem Unique.replace (h : Unique key rows) (hids : (rows.map id).Nodup)
    (hfree : taken key (others id row rows) row = false) : Unique key (replace id row rows) := by
  induction rows with
  | nil => exact unique_nil
  | cons r rows ih =>
    obtain ⟨hnew, hids⟩ := List.nodup_cons.mp hids
    obtain ⟨hr, h⟩ := unique_cons_iff.mp h
    by_cases heq : id r = id row
    · rw [others_cons_self hnew heq] at hfree
      rw [replace_cons_self hnew heq]
      exact unique_cons_iff.mpr ⟨hfree, h⟩
    · rw [others_cons_of_ne heq] at hfree
      rw [replace_cons_of_ne heq]
      rw [Bool.eq_false_iff] at hr hfree
      refine unique_cons_iff.mpr ⟨Bool.eq_false_iff.mpr ?_, ih h hids (Bool.eq_false_iff.mpr ?_)⟩
      · intro htaken
        obtain ⟨s, hs, k, hk, hkey⟩ := taken_iff.mp htaken
        rcases mem_replace hs with rfl | hs
        · exact hfree (taken_iff.mpr ⟨r, List.mem_cons_self, k, hkey, hk⟩)
        · exact hr (taken_iff.mpr ⟨s, List.mem_of_mem_filter hs, k, hk, hkey⟩)
      · intro htaken
        obtain ⟨s, hs, k, hk⟩ := taken_iff.mp htaken
        exact hfree (taken_iff.mpr ⟨s, List.mem_cons_of_mem _ hs, k, hk⟩)

/-- A replaced row adds at most itself to a count over the others. -/
theorem countP_replace_le (hids : (rows.map id).Nodup) (p : α → Bool) (row : α) :
    (replace id row rows).countP p ≤ (others id row rows).countP p + if p row then 1 else 0 := by
  induction rows with
  | nil => exact Nat.zero_le _
  | cons r rows ih =>
    obtain ⟨hnew, hids⟩ := List.nodup_cons.mp hids
    by_cases heq : id r = id row
    · apply Nat.le_of_eq
      rw [others_cons_self hnew heq, replace_cons_self hnew heq, List.countP_cons]
    · rw [others_cons_of_ne heq, replace_cons_of_ne heq, List.countP_cons, List.countP_cons]
      have hrest := ih hids
      omega

/-- A count is that over the others and that of the row itself. -/
theorem countP_others (hids : (rows.map id).Nodup) (hmem : row ∈ rows) (p : α → Bool) :
    rows.countP p = (others id row rows).countP p + if p row then 1 else 0 := by
  induction rows with
  | nil => cases hmem
  | cons r rows ih =>
    obtain ⟨hnew, hids⟩ := List.nodup_cons.mp hids
    rcases List.mem_cons.mp hmem with rfl | hmem
    · rw [others_cons_self hnew rfl, List.countP_cons]
    · have hne : id r ≠ id row := fun heq => hnew (heq ▸ List.mem_map_of_mem hmem)
      have hrest := ih hids hmem
      rw [others_cons_of_ne hne, List.countP_cons, List.countP_cons]
      omega

end Replace

/-! Rows that are written over where their key is there, and added where it is not. -/

section Upsert

variable {ι : Type} [DecidableEq ι]

def upsert (id : α → ι) (i : ι) (onto : α → α) (new : α) (rows : List α) : List α :=
  if rows.any fun r => id r = i then rows.map fun r => if id r = i then onto r else r
  else new :: rows

variable {id : α → ι} {i : ι} {onto : α → α} {new : α}

theorem upsert_of_mem (h : ∃ r ∈ rows, id r = i) :
    upsert id i onto new rows = rows.map fun r => if id r = i then onto r else r :=
  if_pos (List.any_eq_true.mpr (by simpa using h))

theorem mem_upsert {r : α} (h : r ∈ upsert id i onto new rows) :
    (r = new ∧ ∀ s ∈ rows, id s ≠ i) ∨ ∃ s ∈ rows, r = if id s = i then onto s else s := by
  unfold upsert at h
  split at h
  · obtain ⟨s, hs, rfl⟩ := List.mem_map.mp h
    exact .inr ⟨s, hs, rfl⟩
  · rename_i hnone
    have hfree : ∀ s ∈ rows, id s ≠ i := fun s hs hid =>
      hnone (List.any_eq_true.mpr ⟨s, hs, by simpa using hid⟩)
    rcases List.mem_cons.mp h with rfl | h
    · exact .inl ⟨rfl, hfree⟩
    · exact .inr ⟨r, h, (if_neg (hfree r h)).symm⟩

/-- Each row is there still, or what was written onto it. -/
theorem image_mem_upsert {r : α} (h : r ∈ rows) :
    (if id r = i then onto r else r) ∈ upsert id i onto new rows := by
  unfold upsert
  split
  · exact List.mem_map.mpr ⟨r, h, rfl⟩
  · rename_i hnone
    rw [if_neg]
    · exact List.mem_cons_of_mem _ h
    · intro hid
      exact hnone (List.any_eq_true.mpr ⟨r, h, by simpa using hid⟩)

variable (hnew : id new = i) (honto : ∀ r, id r = i → id (onto r) = i)

include honto

theorem id_image (r : α) : id (if id r = i then onto r else r) = id r := by
  split
  · rename_i hid
    exact (honto r hid).trans hid.symm
  · rfl

theorem exists_upsert_of_mem {j : ι} (h : ∃ r ∈ rows, id r = j) :
    ∃ r ∈ upsert id i onto new rows, id r = j := by
  obtain ⟨r, hr, hid⟩ := h
  exact ⟨_, image_mem_upsert hr, (id_image honto r).trans hid⟩

include hnew

theorem exists_upsert : ∃ r ∈ upsert id i onto new rows, id r = i := by
  by_cases hany : ∃ r ∈ rows, id r = i
  · exact exists_upsert_of_mem honto hany
  · refine ⟨new, ?_, hnew⟩
    rw [upsert, if_neg fun h => hany (by simpa using h)]
    exact List.mem_cons_self

theorem nodup_upsert (h : (rows.map id).Nodup) :
    ((upsert id i onto new rows).map id).Nodup := by
  unfold upsert
  split
  · have hids : (rows.map fun r => if id r = i then onto r else r).map id = rows.map id := by
      rw [List.map_map]
      exact List.map_congr_left fun r _ => id_image honto r
    rw [hids]
    exact h
  · rename_i hnone
    refine List.nodup_cons.mpr ⟨fun hmem => hnone ?_, h⟩
    obtain ⟨r, hr, hid⟩ := List.mem_map.mp hmem
    exact List.any_eq_true.mpr ⟨r, hr, by simpa using hid.trans hnew⟩

end Upsert

end Vigil.Lib.Keyed
