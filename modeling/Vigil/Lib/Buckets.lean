import Vigil.Lib.Timeline

/-! Rows with a time, gathered in buckets.  `lags` pairs each row with the end of the row before it,
as a window function does; on rows in order of time, what it says of the rows of a stretch depends
on these rows and on the last row before the stretch.  `upsert` writes rows into a table with a
key. -/

namespace Vigil.Lib.Buckets

open Timeline

/-! ### Groups -/

theorem sum_groups {α κ M : Type} [DecidableEq κ] [AddCommMonoid M] (key : α → κ) (f : α → M)
    {keys : List κ} (hkeys : keys.Nodup) {l : List α} (hmem : ∀ a ∈ l, key a ∈ keys) :
    (keys.map fun k => ((l.filter fun a => key a = k).map f).sum).sum = (l.map f).sum := by
  induction keys generalizing l with
  | nil =>
    obtain rfl : l = [] := List.eq_nil_iff_forall_not_mem.mpr fun a ha =>
      List.not_mem_nil (hmem a ha)
    rfl
  | cons k keys ih =>
    obtain ⟨hk, hkeys⟩ := List.nodup_cons.mp hkeys
    have hrest : (keys.map fun k' => ((l.filter fun a => key a = k').map f).sum) =
        keys.map fun k' => (((l.filter fun a => !decide (key a = k)).filter
          fun a => key a = k').map f).sum := by
      refine List.map_congr_left fun k' hk' => ?_
      rw [List.filter_filter]
      congr 2
      refine List.filter_congr fun a _ => ?_
      by_cases ha : key a = k'
      · have hne : key a ≠ k := fun h => hk (h ▸ ha ▸ hk')
        rw [decide_eq_true ha, decide_eq_false hne]
        rfl
      · rw [decide_eq_false ha, Bool.false_and]
    rw [List.map_cons, List.sum_cons, hrest, ih hkeys]
    · rw [← List.sum_append, ← List.map_append]
      exact ((List.filter_append_perm (fun a => decide (key a = k)) l).map f).sum_eq
    · intro a ha
      obtain ⟨ha, hne⟩ := List.mem_filter.mp ha
      rcases List.mem_cons.mp (hmem a ha) with heq | hin
      · simp [heq] at hne
      · exact hin

/-! ### The row before -/

section Lags

variable {α : Type} (time last : α → ℤ)

/-- Each row with the end of the row before it. -/
def lags : Option ℤ → List α → List (α × Option ℤ)
  | _, [] => []
  | before, a :: rest => (a, before) :: lags (some (last a)) rest

theorem lags_append (before : Option ℤ) (l r : List α) :
    lags last before (l ++ r) =
      lags last before l ++ lags last ((l.getLast?.map last).or before) r := by
  induction l generalizing before with
  | nil => rfl
  | cons a l ih =>
    rw [List.cons_append, lags, lags, ih, List.cons_append, List.getLast?_cons]
    cases l.getLast? <;> rfl

theorem map_fst_lags (before : Option ℤ) (l : List α) : (lags last before l).map (·.1) = l := by
  induction l generalizing before with
  | nil => rfl
  | cons a l ih => rw [lags, List.map_cons, ih]

/-- Rows in order of time: those before an instant, and those from it on. -/
theorem filter_append_filter {l : List α} (sorted : l.Pairwise fun a b => time a ≤ time b) (t : ℤ) :
    (l.filter fun a => time a < t) ++ l.filter (fun a => t ≤ time a) = l := by
  induction l with
  | nil => rfl
  | cons a l ih =>
    obtain ⟨ha, hl⟩ := List.pairwise_cons.mp sorted
    by_cases hat : time a < t
    · simp [hat, ih hl]
    · have hnone : l.filter (fun b => time b < t) = [] := by
        rw [List.filter_eq_nil_iff]
        intro b hb
        have := ha b hb
        simp only [decide_eq_true_eq]
        omega
      have hall : l.filter (fun b => t ≤ time b) = l := by
        rw [List.filter_eq_self]
        intro b hb
        have := ha b hb
        simp only [decide_eq_true_eq]
        omega
      simp [hat, hnone, hall, not_lt.mp hat]

theorem filter_lags_eq_nil {before : Option ℤ} {l : List α} {p : α → Bool}
    (h : ∀ a ∈ l, p a = false) : (lags last before l).filter (fun x => p x.1) = [] := by
  rw [List.filter_eq_nil_iff]
  intro x hx
  have hmem : x.1 ∈ (lags last before l).map (·.1) := List.mem_map_of_mem hx
  rw [map_fst_lags] at hmem
  simp [h x.1 hmem]

theorem filter_lags_eq_self {before : Option ℤ} {l : List α} {p : α → Bool}
    (h : ∀ a ∈ l, p a = true) :
    (lags last before l).filter (fun x => p x.1) = lags last before l := by
  rw [List.filter_eq_self]
  intro x hx
  have hmem : x.1 ∈ (lags last before l).map (·.1) := List.mem_map_of_mem hx
  rw [map_fst_lags] at hmem
  exact h x.1 hmem

theorem filter_lags {l : List α} (sorted : l.Pairwise fun a b => time a ≤ time b)
    (start stop : ℤ) :
    (lags last none l).filter (fun x => decide (start ≤ time x.1 ∧ time x.1 < stop)) =
      lags last ((l.filter fun a => time a < start).getLast?.map last)
        (l.filter fun a => start ≤ time a ∧ time a < stop) := by
  have hlater := sorted.filter fun a => start ≤ time a
  have hstretch : (l.filter fun a => start ≤ time a).filter (fun a => time a < stop) =
      l.filter fun a => start ≤ time a ∧ time a < stop := by
    rw [List.filter_filter]
    congr 1
    funext a
    rw [Bool.decide_and, Bool.and_comm]
  have hsplit : l = (l.filter fun a => time a < start) ++
      ((l.filter fun a => start ≤ time a ∧ time a < stop) ++
        (l.filter fun a => start ≤ time a).filter fun a => stop ≤ time a) := by
    rw [← hstretch, filter_append_filter time hlater stop, filter_append_filter time sorted start]
  have hbefore : ∀ a ∈ l.filter (fun a => time a < start),
      decide (start ≤ time a ∧ time a < stop) = false := by
    intro a ha
    have := (List.mem_filter.mp ha).2
    simp only [decide_eq_true_eq, decide_eq_false_iff_not] at this ⊢
    omega
  have hin : ∀ a ∈ l.filter (fun a => start ≤ time a ∧ time a < stop),
      decide (start ≤ time a ∧ time a < stop) = true := fun a ha => (List.mem_filter.mp ha).2
  have hafter : ∀ a ∈ (l.filter fun a => start ≤ time a).filter (fun a => stop ≤ time a),
      decide (start ≤ time a ∧ time a < stop) = false := by
    intro a ha
    have := (List.mem_filter.mp ha).2
    simp only [decide_eq_true_eq, decide_eq_false_iff_not] at this ⊢
    omega
  conv_lhs => rw [hsplit]
  rw [lags_append, lags_append, List.filter_append, List.filter_append,
    filter_lags_eq_nil last hbefore, filter_lags_eq_self last hin, filter_lags_eq_nil last hafter,
    List.nil_append, List.append_nil, Option.or_none]

end Lags

/-! ### Tables with a key -/

section Tables

variable {α κ : Type} [DecidableEq κ] (key : α → κ)

def lookup (table : List α) (k : κ) : Option α := table.find? fun row => key row = k

/-- `insert … on conflict do update`: a row whose key is there takes the place of the old one. -/
def upsert (rows table : List α) : List α :=
  table.map (fun row => (lookup key rows (key row)).getD row) ++
    rows.filter fun row => (lookup key table (key row)).isNone

variable {table rows : List α} {row : α}

theorem lookup_key {k : κ} (h : lookup key table k = some row) : row ∈ table ∧ key row = k :=
  ⟨List.mem_of_find?_eq_some h, by simpa using List.find?_some h⟩

theorem lookup_isSome (h : row ∈ table) : ∃ found, lookup key table (key row) = some found := by
  cases hfound : lookup key table (key row) with
  | some found => exact ⟨found, rfl⟩
  | none => simpa using List.find?_eq_none.mp hfound row h

theorem key_getD_lookup (rows : List α) (row : α) :
    key ((lookup key rows (key row)).getD row) = key row := by
  cases h : lookup key rows (key row) with
  | none => rfl
  | some found => exact (lookup_key key h).2

theorem lookup_map {f : α → α} (hf : ∀ row, key (f row) = key row) (k : κ) :
    lookup key (table.map f) k = (lookup key table k).map f := by
  have hkey : (fun row => decide (key row = k)) ∘ f = fun row => decide (key row = k) := by
    funext row
    rw [Function.comp_apply, hf]
  rw [lookup, lookup, List.find?_map, hkey]

theorem lookup_filter {p : α → Bool} {q : κ → Bool} (hp : ∀ row, p row = q (key row)) (k : κ) :
    lookup key (table.filter p) k = if q k then lookup key table k else none := by
  rw [lookup, List.find?_filter]
  split
  · rename_i hq
    rw [lookup]
    congr 1
    funext row
    by_cases hrow : key row = k
    · simp [hp, hrow, hq]
    · simp [hrow]
  · rename_i hq
    rw [List.find?_eq_none]
    rintro row - hrow
    simp only [decide_eq_true_eq] at hrow
    rw [hp, hrow.2] at hrow
    exact hq hrow.1

/-- After an upsert a key has the row that was written, or the row it had. -/
theorem lookup_upsert (rows table : List α) (k : κ) :
    lookup key (upsert key rows table) k = (lookup key rows k).or (lookup key table k) := by
  have hold : lookup key (table.map fun row => (lookup key rows (key row)).getD row) k =
      (lookup key table k).map fun row => (lookup key rows (key row)).getD row :=
    lookup_map key (key_getD_lookup key rows) k
  have hnew : lookup key (rows.filter fun row => (lookup key table (key row)).isNone) k =
      if (lookup key table k).isNone then lookup key rows k else none :=
    lookup_filter key (q := fun k => (lookup key table k).isNone) (fun _ => rfl) k
  have happend : lookup key (upsert key rows table) k =
      (lookup key (table.map fun row => (lookup key rows (key row)).getD row) k).or
        (lookup key (rows.filter fun row => (lookup key table (key row)).isNone) k) := by
    rw [upsert, lookup, List.find?_append]
    rfl
  rw [happend, hold, hnew]
  cases htable : lookup key table k with
  | none => simp
  | some row =>
    have hkey := (lookup_key key htable).2
    cases hrows : lookup key rows k <;> simp [hkey, hrows]

theorem mem_upsert (h : row ∈ upsert key rows table) : row ∈ rows ∨ row ∈ table := by
  rcases List.mem_append.mp h with h | h
  · obtain ⟨old, hold, rfl⟩ := List.mem_map.mp h
    cases hfound : lookup key rows (key old) with
    | none => exact .inr hold
    | some found => exact .inl (lookup_key key hfound).1
  · exact .inl (List.mem_of_mem_filter h)

theorem keys_upsert_nodup (hrows : (rows.map key).Nodup) (htable : (table.map key).Nodup) :
    ((upsert key rows table).map key).Nodup := by
  have hold : (table.map fun row => (lookup key rows (key row)).getD row).map key = table.map key := by
    rw [List.map_map]
    exact List.map_congr_left fun row _ => key_getD_lookup key rows row
  rw [upsert, List.map_append, hold, List.nodup_append]
  refine ⟨htable, hrows.sublist (List.filter_sublist.map key), ?_⟩
  rintro k hk k' hk' rfl
  obtain ⟨row, hrow, rfl⟩ := List.mem_map.mp hk'
  obtain ⟨old, hmem, hkey⟩ := List.mem_map.mp hk
  obtain ⟨found, hfound⟩ := lookup_isSome key hmem
  have hnone := (List.mem_filter.mp hrow).2
  rw [← hkey, hfound] at hnone
  cases hnone

/-- Where every row written has its key in the table already, the rows of interest stay in their
places. -/
theorem filter_upsert {p : α → Bool} {q : κ → Bool} (hp : ∀ row, p row = q (key row))
    (h : ∀ row ∈ rows, p row = true → (lookup key table (key row)).isSome = true) :
    (upsert key rows table).filter p =
      (table.filter p).map fun row => (lookup key rows (key row)).getD row := by
  have hnew : (rows.filter fun row => (lookup key table (key row)).isNone).filter p = [] := by
    rw [List.filter_filter, List.filter_eq_nil_iff]
    intro row hrow
    cases hpr : p row with
    | false => simp
    | true => simp [Option.isSome_iff_ne_none.mp (h row hrow hpr)]
  rw [upsert, List.filter_append, hnew, List.append_nil, List.filter_map]
  congr 2
  funext row
  rw [Function.comp_apply, hp, hp, key_getD_lookup key]

end Tables

end Vigil.Lib.Buckets
