import Mathlib.Order.ConditionallyCompleteLattice.Basic
import Mathlib.Data.Int.ConditionallyCompleteOrder
import Mathlib.Data.Int.Interval

/-! Timestamped samples that stand for a while.  A sample speaks for the instants from its own time
until the next sample, and for at most a horizon.  `standing` is the sample that speaks for an
instant, and `measure` counts the instants of a window that a sample of a given kind speaks for. The
samples are of any type, with a function that gives their time. -/

namespace Vigil.Lib.Timeline

variable {α β : Type} (time : α → ℤ)

/-- The samples in order of time, samples of one instant in the order given. -/
def sortByTime (l : List α) : List α := l.insertionSort fun a b => time a ≤ time b

/-- The latest sample at or before `t`. -/
def latest (l : List α) (t : ℤ) : Option α := (l.filter fun a => time a ≤ t).getLast?

/-- The latest sample at or before `t`, if it is younger than `horizon`. -/
def standing (horizon : ℤ) (l : List α) (t : ℤ) : Option α :=
  (latest time l t).filter fun a => t - time a < horizon

/-- The number of instants in `[start, stop)` for which a sample with `q` stands. -/
noncomputable def measure (horizon start stop : ℤ) (q : α → Bool) (l : List α) : ℕ :=
  ((Finset.Ico start stop).filter fun t => (standing time horizon l t).any q).card

/-! ### Sorting -/

instance total_time_le : Std.Total fun a b : α => time a ≤ time b :=
  ⟨fun a b => Int.le_total (time a) (time b)⟩

instance isTrans_time_le : IsTrans α fun a b => time a ≤ time b := ⟨fun _ _ _ => le_trans⟩

theorem sortByTime_pairwise (l : List α) :
    (sortByTime time l).Pairwise fun a b => time a ≤ time b :=
  List.pairwise_insertionSort _ l

variable {l : List α} {a : α} {t : ℤ}

@[simp] theorem mem_sortByTime : a ∈ sortByTime time l ↔ a ∈ l :=
  List.mem_insertionSort _

theorem filter_orderedInsert (p : α → Bool) (a : α) (l : List α)
    (sorted : l.Pairwise fun a b => time a ≤ time b) :
    (l.orderedInsert (fun a b => time a ≤ time b) a).filter p =
      if p a then (l.filter p).orderedInsert (fun a b => time a ≤ time b) a else l.filter p := by
  induction l with
  | nil => cases hp : p a <;> simp [hp]
  | cons b l ih =>
    obtain ⟨hb, hl⟩ := List.pairwise_cons.mp sorted
    by_cases hab : time a ≤ time b
    · rw [List.orderedInsert_cons, if_pos hab]
      cases hp : p a with
      | false => simp [hp]
      | true =>
        -- everything kept of the list is at or after `b`, so `a` goes first there too
        have hfirst : ∀ c ∈ (b :: l).filter p, time a ≤ time c := by
          intro c hc
          rcases List.mem_cons.mp (List.mem_of_mem_filter hc) with rfl | hc
          · exact hab
          · exact hab.trans (hb c hc)
        have hhead : (a :: b :: l).filter p = a :: (b :: l).filter p := by
          rw [List.filter_cons, hp]
          rfl
        rw [hhead]
        simp only [if_true]
        cases hkept : (b :: l).filter p with
        | nil => rfl
        | cons c rest =>
          rw [List.orderedInsert_cons, if_pos (hfirst c (by simp [hkept]))]
    · rw [List.orderedInsert_cons, if_neg hab, List.filter_cons, ih hl]
      cases hpb : p b with
      | false => simp [hpb]
      | true =>
        simp only [if_true, List.filter_cons, hpb]
        split
        · rw [List.orderedInsert_cons, if_neg hab]
        · rfl

theorem sortByTime_filter (p : α → Bool) (l : List α) :
    sortByTime time (l.filter p) = (sortByTime time l).filter p := by
  induction l with
  | nil => rfl
  | cons a l ih =>
    have hins : sortByTime time (a :: l) =
        (sortByTime time l).orderedInsert (fun a b => time a ≤ time b) a := rfl
    rw [hins, filter_orderedInsert time p a _ (sortByTime_pairwise time l), ← ih]
    cases hp : p a <;> simp [hp, sortByTime]

theorem sortByTime_eq_of_perm {l l' : List α} (h : l.Perm l') (distinct : (l.map time).Nodup) :
    sortByTime time l = sortByTime time l' := by
  have hperm : (sortByTime time l).Perm (sortByTime time l') :=
    (List.perm_insertionSort _ l).trans (h.trans (List.perm_insertionSort _ l').symm)
  refine hperm.eq_of_pairwise (fun a b ha hb hab hba => ?_) (sortByTime_pairwise time l)
    (sortByTime_pairwise time l')
  have ha : a ∈ l := by simpa using ha
  have hb : b ∈ l := h.mem_iff.mpr (by simpa using hb)
  exact List.inj_on_of_nodup_map distinct ha hb (le_antisymm hab hba)

theorem sortByTime_map {time' : β → ℤ} (f : α → β) (hf : ∀ a, time' (f a) = time a) (l : List α) :
    sortByTime time' (l.map f) = (sortByTime time l).map f :=
  (List.map_insertionSort _ _ f l fun a _ b _ => by rw [hf, hf]).symm

/-! ### The latest sample -/

theorem latest_cons (a : α) (l : List α) (t : ℤ) :
    latest time (a :: l) t = (latest time l t).or (if time a ≤ t then some a else none) := by
  unfold latest
  by_cases ha : time a ≤ t
  · simp only [List.filter_cons, ha, decide_true, if_true, List.getLast?_cons]
    cases (l.filter fun a => time a ≤ t).getLast? <;> rfl
  · simp [ha]

theorem latest_eq_none (h : ∀ a ∈ l, t < time a) : latest time l t = none := by
  simp only [latest, List.getLast?_eq_none_iff, List.filter_eq_nil_iff, decide_eq_true_eq, not_le]
  exact h

theorem latest_isSome (ha : a ∈ l) (hat : time a ≤ t) : ∃ b, latest time l t = some b := by
  have hne : l.filter (fun a => time a ≤ t) ≠ [] :=
    List.ne_nil_of_mem (List.mem_filter.mpr ⟨ha, by simpa using hat⟩)
  exact ⟨_, List.getLast?_eq_some_getLast hne⟩

theorem latest_some (h : latest time l t = some a) : a ∈ l ∧ time a ≤ t := by
  have := List.mem_of_getLast? h
  simpa using this

/-- A sample that a sorted list holds at or before `t` is no later than the latest one. -/
theorem le_latest (sorted : l.Pairwise fun a b => time a ≤ time b) {a b : α}
    (h : latest time l t = some b) (ha : a ∈ l) (hat : time a ≤ t) : time a ≤ time b := by
  have hmem : a ∈ l.filter fun a => time a ≤ t := List.mem_filter.mpr ⟨ha, by simpa using hat⟩
  have hsorted := sorted.filter fun a => time a ≤ t
  obtain ⟨init, hinit⟩ : ∃ init, l.filter (fun a => time a ≤ t) = init ++ [b] :=
    List.getLast?_eq_some_iff.mp h
  rw [hinit] at hmem hsorted
  rcases List.mem_append.mp hmem with ha | ha
  · exact (List.pairwise_append.mp hsorted).2.2 a ha b (by simp)
  · obtain rfl : a = b := by simpa using ha
    exact le_rfl

theorem latest_filter {p : α → Bool} (h : latest time l t = some a) (hp : p a = true) :
    latest time (l.filter p) t = some a := by
  obtain ⟨init, hinit⟩ : ∃ init, l.filter (fun a => time a ≤ t) = init ++ [a] :=
    List.getLast?_eq_some_iff.mp h
  unfold latest
  rw [List.filter_comm, hinit, List.filter_append]
  simp [hp]

/-! ### Counting instants -/

variable (horizon start stop : ℤ) (q : α → Bool)

/-- Dropping samples whose horizon passed before the window, or that lie after it, changes no
count. -/
theorem measure_filter (sorted : l.Pairwise fun a b => time a ≤ time b) :
    measure time horizon start stop q
        (l.filter fun a => time a + horizon > start ∧ time a < stop) =
      measure time horizon start stop q l := by
  unfold measure
  congr 1
  refine Finset.filter_congr fun t ht => ?_
  rw [Finset.mem_Ico] at ht
  suffices hst : standing time horizon
      (l.filter fun a => time a + horizon > start ∧ time a < stop) t = standing time horizon l t by
    rw [hst]
  unfold standing
  cases h : latest time l t with
  | none =>
    have hnone :
        latest time (l.filter fun a => time a + horizon > start ∧ time a < stop) t = none := by
      refine latest_eq_none time fun a ha => ?_
      by_contra hat
      obtain ⟨b, hb⟩ := latest_isSome time (List.mem_of_mem_filter ha) (not_lt.mp hat)
      simp [h] at hb
    rw [hnone]
  | some a =>
    obtain ⟨ha, hat⟩ := latest_some time h
    by_cases hp : time a + horizon > start
    · have hkept : decide (time a + horizon > start ∧ time a < stop) = true := by
        simp only [decide_eq_true_eq]
        omega
      rw [latest_filter time h hkept]
    · -- the latest sample has expired, and so has everything before it
      have hnone :
          latest time (l.filter fun a => time a + horizon > start ∧ time a < stop) t = none := by
        refine latest_eq_none time fun b hb => ?_
        obtain ⟨hbl, hbp⟩ := List.mem_filter.mp hb
        by_contra hbt
        have := le_latest time sorted h hbl (not_lt.mp hbt)
        simp only [decide_eq_true_eq] at hbp
        omega
      have hold : ¬t - time a < horizon := by omega
      rw [hnone]
      simp [Option.filter, hold]

/-- The length of the part of the window for which a sample at `at_` stands when the next sample
comes at `next`. -/
def segmentLength (at_ next : ℤ) : ℤ := min (min next stop) (at_ + horizon) - max at_ start

/-- When the next sample of a list that continues with `l` comes: at the end of the window if there
is none. -/
def nextTime (l : List α) : ℤ := (l.head?.map time).getD stop

variable {stop} in
/-- Before the next sample comes, the rest of the list says nothing. -/
theorem latest_of_lt_nextTime (sorted : l.Pairwise fun a b => time a ≤ time b)
    (ht : t < nextTime time stop l) : latest time l t = none := by
  refine latest_eq_none time fun b hb => ?_
  cases l with
  | nil => cases hb
  | cons c l =>
    have hc : t < time c := by simpa [nextTime] using ht
    rcases List.mem_cons.mp hb with rfl | hb
    · exact hc
    · exact hc.trans_le ((List.pairwise_cons.mp sorted).1 b hb)

variable {stop} in
theorem latest_of_nextTime_le (hstop : t < stop) (ht : nextTime time stop l ≤ t) :
    ∃ b, latest time l t = some b := by
  cases l with
  | nil =>
    have : stop ≤ t := by simpa [nextTime] using ht
    omega
  | cons c l => exact latest_isSome time List.mem_cons_self (by simpa [nextTime] using ht)

variable {start stop} in
/-- At an instant of the window a sample with `q` stands in a list exactly if one stands in its
tail, or its first sample has `q` and the instant lies in the segment of that sample. -/
theorem standing_cons_any (sorted : l.Pairwise fun a b => time a ≤ time b) (hstart : start ≤ t)
    (hstop : t < stop) : (standing time horizon (a :: l) t).any q = true ↔
      (standing time horizon l t).any q = true ∨ (q a = true ∧ max (time a) start ≤ t ∧
        t < min (min (nextTime time stop l) stop) (time a + horizon)) := by
  by_cases hnext : t < nextTime time stop l
  · simp only [standing, latest_cons, latest_of_lt_nextTime time sorted hnext]
    by_cases hat : time a ≤ t <;> by_cases hold : t - time a < horizon <;>
      simp [hat, hold, Option.filter] <;> omega
  · obtain ⟨b, hb⟩ := latest_of_nextTime_le time hstop (not_lt.mp hnext)
    simp only [standing, latest_cons, hb, Option.some_or]
    constructor
    · exact Or.inl
    · rintro (h | ⟨-, -, h⟩)
      · exact h
      · omega

/-- One more sample in front adds its own segment and nothing else. -/
theorem measure_cons (sorted : (a :: l).Pairwise fun a b => time a ≤ time b) :
    (measure time horizon start stop q (a :: l) : ℤ) =
      measure time horizon start stop q l +
        if q a then max 0 (segmentLength horizon start stop (time a) (nextTime time stop l))
        else 0 := by
  have hsorted := (List.pairwise_cons.mp sorted).2
  have hsplit : ((Finset.Ico start stop).filter fun t =>
        (standing time horizon (a :: l) t).any q) =
      ((Finset.Ico start stop).filter fun t => (standing time horizon l t).any q) ∪
        (if q a then Finset.Ico (max (time a) start)
          (min (min (nextTime time stop l) stop) (time a + horizon)) else ∅) := by
    ext t
    simp only [Finset.mem_filter, Finset.mem_union, Finset.mem_Ico]
    by_cases hwin : start ≤ t ∧ t < stop
    · rw [standing_cons_any time horizon q hsorted hwin.1 hwin.2]
      cases hq : q a <;> simp [hwin]
    · cases hq : q a
      · simp [hwin]
      · simp only [hwin, false_and, if_true, Finset.mem_Ico, false_or, false_iff]
        omega
  have hdisjoint : Disjoint
      ((Finset.Ico start stop).filter fun t => (standing time horizon l t).any q)
      (if q a then Finset.Ico (max (time a) start)
        (min (min (nextTime time stop l) stop) (time a + horizon)) else ∅) := by
    rw [Finset.disjoint_left]
    intro t ht hseg
    rw [Finset.mem_filter, Finset.mem_Ico] at ht
    cases hq : q a with
    | false => simp [hq] at hseg
    | true =>
      simp only [hq, if_true, Finset.mem_Ico] at hseg
      have hbefore : t < nextTime time stop l := by omega
      have hnone := latest_of_lt_nextTime time hsorted hbefore
      simp [standing, hnone] at ht
  rw [measure, hsplit, Finset.card_union_of_disjoint hdisjoint, Nat.cast_add, measure]
  congr 1
  cases hq : q a
  · simp
  · simp only [if_true, Int.card_Ico, segmentLength]
    omega

@[simp] theorem measure_nil : measure time horizon start stop q [] = 0 := by
  simp [measure, standing, latest]

theorem measure_split (l : List α) {mid : ℤ} (h₁ : start ≤ mid) (h₂ : mid ≤ stop) :
    measure time horizon start stop q l =
      measure time horizon start mid q l + measure time horizon mid stop q l := by
  unfold measure
  rw [← Finset.Ico_union_Ico_eq_Ico h₁ h₂, Finset.filter_union]
  exact Finset.card_union_of_disjoint
    (Finset.disjoint_filter_filter (Finset.Ico_disjoint_Ico_consecutive start mid stop))

theorem measure_le (l : List α) :
    (measure time horizon start stop q l : ℤ) ≤ max 0 (stop - start) := by
  have := Finset.card_filter_le (Finset.Ico start stop) fun t => (standing time horizon l t).any q
  rw [Int.card_Ico] at this
  unfold measure
  omega

theorem measure_mono {q r : α → Bool} (h : ∀ a, q a = true → r a = true) (l : List α) :
    measure time horizon start stop q l ≤ measure time horizon start stop r l := by
  refine Finset.card_le_card (Finset.monotone_filter_right _ fun t _ ht => ?_)
  cases hst : standing time horizon l t with
  | none => simp [hst] at ht
  | some a =>
    simp only [hst, Option.any_some] at ht ⊢
    exact h a ht

/-! ### Lists without gaps -/

/-- Samples follow one another, none later than the horizon of the one before. -/
def Gapless (l : List α) : Prop :=
  l.IsChain fun a b => time a < time b ∧ time b ≤ time a + horizon

variable {time horizon}

theorem Gapless.pairwise (h : Gapless time horizon l) : l.Pairwise fun a b => time a < time b := by
  have hlt : l.IsChain fun a b => time a < time b := h.imp fun _ _ hab => hab.1
  have htrans : Trans (fun a b : α => time a < time b) (fun a b => time a < time b)
      fun a b => time a < time b := ⟨lt_trans⟩
  exact hlt.pairwise

theorem Gapless.sorted (h : Gapless time horizon l) : l.Pairwise fun a b => time a ≤ time b :=
  h.pairwise.imp fun hab => hab.le

/-- Before a later sample of the list, the latest one has not expired. -/
theorem Gapless.latest_within (h : Gapless time horizon l) {a b : α} (ha : latest time l t = some a)
    (hb : b ∈ l) (hbt : t < time b) : t < time a + horizon := by
  induction l with
  | nil => cases hb
  | cons first l ih =>
    have hrest : Gapless time horizon l := h.tail
    rw [latest_cons] at ha
    cases hlatest : latest time l t with
    | some later =>
      rw [hlatest, Option.some_or] at ha
      obtain rfl := Option.some.inj ha
      rcases List.mem_cons.mp hb with rfl | hb
      · obtain ⟨hmem, hle⟩ := latest_some time hlatest
        have hlt := (List.pairwise_cons.mp h.pairwise).1 later hmem
        omega
      · exact ih hrest hlatest hb
    | none =>
      rw [hlatest, Option.none_or] at ha
      split at ha
      · rename_i hfirst
        cases ha
        cases l with
        | nil =>
          obtain rfl := List.mem_singleton.mp hb
          omega
        | cons second l =>
          have hgap := (List.isChain_cons_cons.mp h).1
          have hsecond : t < time second := by
            by_contra hle
            obtain ⟨_, hsome⟩ := latest_isSome time List.mem_cons_self (not_lt.mp hle)
            rw [hlatest] at hsome
            contradiction
          omega
      · contradiction

/-- From its first sample to its last, such a list covers every instant. -/
theorem Gapless.measure (h : Gapless time horizon l) {first last : α}
    (hfirst : l.head? = some first) (hlast : l.getLast? = some last) :
    (measure time horizon (time first) (time last) (fun _ => true) l : ℤ) =
      max 0 (time last - time first) := by
  have hall : ((Finset.Ico (time first) (time last)).filter fun t =>
      (standing time horizon l t).any fun _ => true) = Finset.Ico (time first) (time last) := by
    refine Finset.filter_true_of_mem fun t ht => ?_
    obtain ⟨hstart, hstop⟩ := Finset.mem_Ico.mp ht
    obtain ⟨a, ha⟩ := latest_isSome time (List.mem_of_head? hfirst) hstart
    have hlt := h.latest_within ha (List.mem_of_getLast? hlast) hstop
    have hyoung : t - time a < horizon := by omega
    simp [standing, ha, Option.filter, hyoung]
  rw [Timeline.measure, hall, Int.card_Ico]
  omega

end Vigil.Lib.Timeline
