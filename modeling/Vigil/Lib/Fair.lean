import Mathlib.Data.List.MinMax
import Mathlib.Data.List.Sort
import Mathlib.Data.List.Perm.Subperm

/-! Fair selection among parties.  Each member of a list of due work is ranked among the members of
its own party, and the best ranks are taken, whatever orders those of one rank.  Then a party is
served in its own order, and none is served more than once beyond one that still waits. -/

namespace Vigil.Lib.Fair

variable {α κ : Type} [DecidableEq κ] (party : α → κ) (before : α → α → Bool)

/-- How many members of its own party come before `a`. -/
def rank (due : List α) (a : α) : ℕ :=
  (due.filter fun b => party b = party a && before b a).length

/-- `before` puts the members of each party in a row. -/
structure Ranked (due : List α) : Prop where
  nodup : due.Nodup
  irrefl : ∀ a ∈ due, before a a = false
  trans : ∀ a ∈ due, ∀ b ∈ due, ∀ c ∈ due, before a b = true → before b c = true →
    before a c = true
  total : ∀ a ∈ due, ∀ b ∈ due, party a = party b → a ≠ b → before a b = true ∨ before b a = true

/-- The due work cut in two, with the best ranks on one side. -/
structure Cut (due selected rest : List α) : Prop where
  perm : (selected ++ rest).Perm due
  ranked : ∀ a ∈ selected, ∀ b ∈ rest, rank party before due a ≤ rank party before due b

def served (selected : List α) (k : κ) : ℕ := (selected.filter fun a => party a = k).length

/-- What a fair selection of at most `limit` members is. -/
structure IsFair [DecidableEq α] (due : List α) (limit : ℕ) (selected : List α) : Prop where
  count : selected.length = min limit due.length
  subperm : selected.Subperm due
  in_order : ∀ a ∈ due, ∀ b ∈ selected, party a = party b → before a b = true → a ∈ selected
  in_turn : ∀ a ∈ due, a ∉ selected → ∀ k, k ≠ party a →
    served party selected k ≤ served party selected (party a) + 1

variable {party before}

theorem mem_earlier {due : List α} {a b : α} :
    b ∈ due.filter (fun b => party b = party a && before b a) ↔
      b ∈ due ∧ party b = party a ∧ before b a = true := by
  rw [List.mem_filter, Bool.and_eq_true, decide_eq_true_eq]

theorem Ranked.rank_lt {due : List α} (h : Ranked party before due) {a b : α} (ha : a ∈ due)
    (hb : b ∈ due) (hparty : party a = party b) (hbefore : before a b = true) :
    rank party before due a < rank party before due b := by
  have hnodup : (a :: due.filter fun c => party c = party a && before c a).Nodup := by
    refine List.nodup_cons.mpr ⟨fun hmem => ?_, h.nodup.filter _⟩
    have hself := (mem_earlier.mp hmem).2.2
    rw [h.irrefl a ha] at hself
    cases hself
  have hsub : (a :: due.filter fun c => party c = party a && before c a) ⊆
      due.filter fun c => party c = party b && before c b := by
    intro c hc
    rcases List.mem_cons.mp hc with rfl | hc
    · exact mem_earlier.mpr ⟨ha, hparty, hbefore⟩
    · obtain ⟨hcdue, hcparty, hca⟩ := mem_earlier.mp hc
      exact mem_earlier.mpr ⟨hcdue, hcparty.trans hparty, h.trans c hcdue a ha b hb hca hbefore⟩
  exact (List.subperm_of_subset hnodup hsub).length_le

theorem Ranked.rank_inj {due : List α} (h : Ranked party before due) {a b : α} (ha : a ∈ due)
    (hb : b ∈ due) (hparty : party a = party b)
    (heq : rank party before due a = rank party before due b) : a = b := by
  by_contra hne
  rcases h.total a ha b hb hparty hne with hab | hba
  · exact absurd heq (h.rank_lt ha hb hparty hab).ne
  · exact absurd heq (h.rank_lt hb ha hparty.symm hba).ne'

namespace Cut

variable {due selected rest : List α}

theorem mem_iff (h : Cut party before due selected rest) {a : α} :
    a ∈ due ↔ a ∈ selected ∨ a ∈ rest := by
  rw [← h.perm.mem_iff, List.mem_append]

theorem in_order (h : Cut party before due selected rest) (hranked : Ranked party before due)
    {a b : α} (ha : a ∈ due) (hb : b ∈ selected) (hparty : party a = party b)
    (hbefore : before a b = true) : a ∈ selected := by
  refine (h.mem_iff.mp ha).resolve_right fun hrest => ?_
  have hlt := hranked.rank_lt ha (h.mem_iff.mpr (.inl hb)) hparty hbefore
  exact absurd (h.ranked b hb a hrest) (Nat.not_le_of_lt hlt)

/-- Of a party that still waits, the first that does has been passed by those served alone. -/
theorem exists_waiting (h : Cut party before due selected rest)
    (hranked : Ranked party before due) {a : α} (ha : a ∈ rest) :
    ∃ b ∈ rest, party b = party a ∧
      rank party before due b ≤ served party selected (party a) := by
  have hmem : a ∈ rest.filter fun b => party b = party a :=
    List.mem_filter.mpr ⟨ha, decide_eq_true rfl⟩
  obtain ⟨b, hb⟩ : ∃ b, b ∈ (rest.filter fun b => party b = party a).argmin
      (rank party before due) :=
    Option.ne_none_iff_exists'.mp fun hnone => by
      rw [List.argmin_eq_none.mp hnone] at hmem
      exact List.not_mem_nil hmem
  obtain ⟨hbrest, hbparty⟩ := List.mem_filter.mp (List.argmin_mem hb)
  have hbdue := h.mem_iff.mpr (.inr hbrest)
  have hbparty := of_decide_eq_true hbparty
  refine ⟨b, hbrest, hbparty, (List.subperm_of_subset (hranked.nodup.filter _) ?_).length_le⟩
  intro c hc
  obtain ⟨hcdue, hcparty, hcb⟩ := mem_earlier.mp hc
  have hparty := hcparty.trans hbparty
  refine List.mem_filter.mpr ⟨(h.mem_iff.mp hcdue).resolve_right fun hcrest => ?_,
    decide_eq_true hparty⟩
  have hle := List.le_of_mem_argmin (List.mem_filter.mpr ⟨hcrest, decide_eq_true hparty⟩) hb
  exact absurd hle (Nat.not_le_of_lt (hranked.rank_lt hcdue hbdue hcparty hcb))

/-- No two members of a party have one rank, so few are served that have a small one. -/
theorem served_le (h : Cut party before due selected rest) (hranked : Ranked party before due)
    (k : κ) {n : ℕ} (hn : ∀ a ∈ selected, party a = k → rank party before due a ≤ n) :
    served party selected k ≤ n + 1 := by
  have hnodup : selected.Nodup := (h.perm.nodup_iff.mpr hranked.nodup).of_append_left
  have hranks : ((selected.filter fun a => party a = k).map (rank party before due)).Nodup := by
    refine List.Nodup.map_on (fun a ha b hb heq => ?_) (hnodup.filter _)
    obtain ⟨ha, hak⟩ := List.mem_filter.mp ha
    obtain ⟨hb, hbk⟩ := List.mem_filter.mp hb
    exact hranked.rank_inj (h.mem_iff.mpr (.inl ha)) (h.mem_iff.mpr (.inl hb))
      ((of_decide_eq_true hak).trans (of_decide_eq_true hbk).symm) heq
  have hsub : (selected.filter fun a => party a = k).map (rank party before due) ⊆
      List.range (n + 1) := by
    intro r hr
    obtain ⟨a, ha, rfl⟩ := List.mem_map.mp hr
    obtain ⟨ha, hak⟩ := List.mem_filter.mp ha
    exact List.mem_range.mpr (Nat.lt_succ_of_le (hn a ha (of_decide_eq_true hak)))
  have hlength := (List.subperm_of_subset hranks hsub).length_le
  rwa [List.length_map, List.length_range] at hlength

theorem isFair [DecidableEq α] (h : Cut party before due selected rest)
    (hranked : Ranked party before due) {limit : ℕ}
    (hcount : selected.length = min limit due.length) :
    IsFair party before due limit selected where
  count := hcount
  subperm := ((List.prefix_append _ _).sublist.subperm).trans h.perm.subperm
  in_order _ ha _ hb := h.in_order hranked ha hb
  in_turn a ha hwaits k _ := by
    obtain ⟨b, hb, hparty, hrank⟩ :=
      h.exists_waiting hranked ((h.mem_iff.mp ha).resolve_left hwaits)
    exact h.served_le hranked k fun c hc _ => (h.ranked c hc b hb).trans hrank

end Cut

/-! ### Selection by sorting -/

section Sorting

variable (tie : α → α → Prop) [DecidableRel tie]

/-- By rank, and by `tie` among those of one rank. -/
def byRank (party : α → κ) (before : α → α → Bool) (due : List α) (a b : α) : Prop :=
  rank party before due a < rank party before due b ∨
    rank party before due a = rank party before due b ∧ tie a b

instance (due : List α) : DecidableRel (byRank tie party before due) := fun _ _ =>
  inferInstanceAs (Decidable (_ ∨ _))

variable {tie}

theorem cut_of_sort (total : ∀ a b, tie a b ∨ tie b a)
    (trans : ∀ a b c, tie a b → tie b c → tie a c) (due : List α) (limit : ℕ) :
    Cut party before due ((due.insertionSort (byRank tie party before due)).take limit)
      ((due.insertionSort (byRank tie party before due)).drop limit) := by
  have htotal : Std.Total (byRank tie party before due) := ⟨fun a b => by
    rcases Nat.lt_trichotomy (rank party before due a) (rank party before due b) with h | h | h
    · exact .inl (.inl h)
    · exact (total a b).imp (fun ht => .inr ⟨h, ht⟩) fun ht => .inr ⟨h.symm, ht⟩
    · exact .inr (.inl h)⟩
  have htrans : IsTrans α (byRank tie party before due) := ⟨fun a b c hab hbc => by
    rcases hab with hab | ⟨hab, htab⟩
    · rcases hbc with hbc | ⟨hbc, -⟩
      · exact .inl (hab.trans hbc)
      · exact .inl (hbc ▸ hab)
    · rcases hbc with hbc | ⟨hbc, htbc⟩
      · exact .inl (hab ▸ hbc)
      · exact .inr ⟨hab.trans hbc, trans a b c htab htbc⟩⟩
  have hsorted := List.pairwise_insertionSort (byRank tie party before due) due
  rw [← List.take_append_drop limit (due.insertionSort (byRank tie party before due)),
    List.pairwise_append] at hsorted
  refine ⟨?_, fun a ha b hb => ?_⟩
  · rw [List.take_append_drop]
    exact List.perm_insertionSort _ _
  · rcases hsorted.2.2 a ha b hb with hlt | ⟨heq, -⟩
    · exact hlt.le
    · exact heq.le

/-- Sorting by rank and taking the first ones is a fair selection, whatever breaks the ties. -/
theorem isFair_take [DecidableEq α] {due : List α} (hranked : Ranked party before due)
    (total : ∀ a b, tie a b ∨ tie b a) (trans : ∀ a b c, tie a b → tie b c → tie a c)
    (limit : ℕ) :
    IsFair party before due limit
      ((due.insertionSort (byRank tie party before due)).take limit) :=
  (cut_of_sort total trans due limit).isFair hranked (by
    rw [List.length_take, List.length_insertionSort])

end Sorting

end Vigil.Lib.Fair
