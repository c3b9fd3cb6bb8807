import Vigil.Bridge.Verdict

/-! What `comparePair` makes of every event: one finding names it, and no more than one.  The loop
over the source events adds one finding for each of them and claims a Vigil event for some; the loop
over the Vigil events adds one for each that is not claimed.  A total counts the findings of its
kind, in a pair and in the whole report. -/

namespace Vigil.Bridge.Findings

open Lib.Timeline Compare Verdict

/-- The total of a pair that counts the findings of a kind. -/
def PairFindings.total (out : PairFindings) : MatchKind → ℕ
  | .matched => out.matched
  | .missed => out.missed
  | .extra => out.extra
  | .unprovable => out.unprovable
  | .belowWindow => out.belowWindow

/-- The total of a report that counts the findings of a kind. -/
def Totals.total (totals : Totals) : MatchKind → ℕ
  | .matched => totals.matched
  | .missed => totals.missed
  | .extra => totals.extra
  | .unprovable => totals.unprovable
  | .belowWindow => totals.belowWindow

def sourceKinds : List MatchKind := [.matched, .missed, .belowWindow, .unprovable]

def vigilKinds : List MatchKind := [.matched, .extra, .unprovable]

/-- One finding names the event, and it is of one of the kinds. -/
def NamedOnce (names : EventFinding → Option String) (kinds : List MatchKind)
    (findings : List EventFinding) (id : String) : Prop :=
  ∃ finding, findings.filter (fun f => names f = some id) = [finding] ∧ finding.kind ∈ kinds

/-- Every outage of the pair is in one finding, and no finding is about more than one of each side.
-/
structure Conserved (pair : ComparisonPair) (out : PairFindings) : Prop where
  source : ∀ event ∈ pair.sourceEvents,
    NamedOnce EventFinding.sourceEventId sourceKinds out.findings event.id
  vigil : ∀ event ∈ pair.vigilEvents,
    NamedOnce EventFinding.vigilEventId vigilKinds out.findings event.id
  /-- A finding that is a match is about two events, any other one about one. -/
  sides : ∀ f ∈ out.findings, f.sourceEventId.isSome = true ∧
    (f.vigilEventId.isSome = true ↔ f.kind = .matched) ∨
      f.sourceEventId = none ∧ f.vigilEventId.isSome = true ∧ f.kind ≠ .matched
  /-- No finding is about an event that is not there. -/
  known : ∀ f ∈ out.findings,
    (∀ id, f.sourceEventId = some id → id ∈ pair.sourceEvents.map (·.id)) ∧
      ∀ id, f.vigilEventId = some id → id ∈ pair.vigilEvents.map (·.id)
  totals : ∀ kind, PairFindings.total out kind = out.findings.countP fun f => f.kind = kind

/-! ### One turn of a loop -/

/-- A turn adds a finding, and counts it. -/
structure Adds (out out' : PairFindings) (f : EventFinding) : Prop where
  findings : out'.findings = out.findings ++ [f]
  totals : ∀ kind, PairFindings.total out' kind =
    PairFindings.total out kind + if f.kind = kind then 1 else 0

/-- A finding about a source event. -/
structure AboutSource (f : EventFinding) (event : SourceEvent) : Prop where
  source : f.sourceEventId = some event.id
  kind : f.kind ∈ sourceKinds
  vigil : f.vigilEventId.isSome = true ↔ f.kind = .matched

/-- A finding about a Vigil event that is not claimed. -/
structure AboutVigil (f : EventFinding) (event : VigilEvent) : Prop where
  source : f.sourceEventId = none
  vigil : f.vigilEventId = some event.id
  kind : f.kind = .extra ∨ f.kind = .unprovable

theorem addUnmatched_adds (pair : ComparisonPair) (out : PairFindings) (event : SourceEvent) :
    ∃ f, Adds out (addUnmatched pair out event) f ∧ AboutSource f event ∧
      f.vigilEventId = none := by
  unfold addUnmatched
  split
  · refine ⟨_, ⟨rfl, fun kind => ?_⟩, ⟨rfl, ?_, ?_⟩, rfl⟩
    · cases kind <;> rfl
    · simp [unpaired, sourceKinds]
    · simp [unpaired]
  · split
    · dsimp only
      split
      · refine ⟨_, ⟨rfl, fun kind => ?_⟩, ⟨rfl, ?_, ?_⟩, rfl⟩
        · cases kind <;> rfl
        · simp [unpaired, sourceKinds]
        · simp [unpaired]
      · refine ⟨_, ⟨rfl, fun kind => ?_⟩, ⟨rfl, ?_, ?_⟩, rfl⟩
        · cases kind <;> rfl
        · simp [unpaired, sourceKinds]
        · simp [unpaired]
    · refine ⟨_, ⟨rfl, fun kind => ?_⟩, ⟨rfl, ?_, ?_⟩, rfl⟩
      · cases kind <;> rfl
      · simp [unpaired, sourceKinds]
      · simp [unpaired]

theorem addMatched_adds (pair : ComparisonPair) (out : PairFindings) (event : SourceEvent)
    (vigil : VigilEvent) :
    ∃ f, Adds out (addMatched pair out event vigil) f ∧ AboutSource f event ∧
      f.vigilEventId = some vigil.id := by
  refine ⟨_, ⟨rfl, fun kind => ?_⟩, ⟨rfl, ?_, ?_⟩, rfl⟩
  · cases kind <;> rfl
  · simp [sourceKinds]
  · simp

/-- The loop over the source events adds a finding for the event, and claims what it names. -/
theorem judgeSource_adds (pair : ComparisonPair) (at_ : ℤ) (s : PairFindings × List String)
    (event : SourceEvent) :
    ∃ f, Adds s.1 (judgeSource pair at_ s event).1 f ∧ AboutSource f event ∧
      (judgeSource pair at_ s event).2 = s.2 ++ f.vigilEventId.toList := by
  rw [judgeSource]
  cases matchFor pair at_ s.2 event with
  | some vigil =>
    obtain ⟨f, hadds, habout, hvigil⟩ := addMatched_adds pair s.1 event vigil
    exact ⟨f, hadds, habout, by rw [hvigil]; rfl⟩
  | none =>
    obtain ⟨f, hadds, habout, hvigil⟩ := addUnmatched_adds pair s.1 event
    exact ⟨f, hadds, habout, by rw [hvigil]; exact (List.append_nil _).symm⟩

variable {event : VigilEvent}

theorem judgeVigil_claimed {pair : ComparisonPair} {coverage : List CoverageWindow}
    {claimed : List String} {out : PairFindings} (h : event.id ∈ claimed) :
    judgeVigil pair coverage claimed out event = out := by
  simp [judgeVigil, h]

theorem judgeVigil_adds (pair : ComparisonPair) (coverage : List CoverageWindow)
    {claimed : List String} (out : PairFindings) (h : event.id ∉ claimed) :
    ∃ f, Adds out (judgeVigil pair coverage claimed out event) f ∧ AboutVigil f event := by
  unfold judgeVigil
  rw [if_neg (by simpa using h)]
  split
  · refine ⟨_, ⟨rfl, fun kind => ?_⟩, ⟨rfl, rfl, .inl rfl⟩⟩
    cases kind <;> rfl
  · refine ⟨_, ⟨rfl, fun kind => ?_⟩, ⟨rfl, rfl, .inr rfl⟩⟩
    cases kind <;> rfl

/-! ### The loops -/

/-- A loop adds some findings, and counts them. -/
structure AddsAll (out out' : PairFindings) (added : List EventFinding) : Prop where
  findings : out'.findings = out.findings ++ added
  totals : ∀ kind, PairFindings.total out' kind =
    PairFindings.total out kind + added.countP fun f => f.kind = kind

theorem AddsAll.nil (out : PairFindings) : AddsAll out out [] :=
  ⟨(List.append_nil _).symm, fun _ => rfl⟩

theorem AddsAll.cons {out out' out'' : PairFindings} {f : EventFinding} {rest : List EventFinding}
    (hfirst : Adds out out' f) (hrest : AddsAll out' out'' rest) :
    AddsAll out out'' (f :: rest) where
  findings := by
    rw [hrest.findings, hfirst.findings, List.append_assoc]
    rfl
  totals kind := by
    rw [hrest.totals, hfirst.totals, List.countP_cons]
    simp only [decide_eq_true_eq]
    omega

theorem AddsAll.trans {out out' out'' : PairFindings} {added rest : List EventFinding}
    (hfirst : AddsAll out out' added) (hrest : AddsAll out' out'' rest) :
    AddsAll out out'' (added ++ rest) where
  findings := by rw [hrest.findings, hfirst.findings, List.append_assoc]
  totals kind := by
    rw [hrest.totals, hfirst.totals, List.countP_append]
    omega

theorem foldl_judgeSource_adds (pair : ComparisonPair) (at_ : ℤ) (events : List SourceEvent)
    (s : PairFindings × List String) :
    ∃ added, AddsAll s.1 (events.foldl (judgeSource pair at_) s).1 added ∧
      List.Forall₂ AboutSource added events ∧
      (events.foldl (judgeSource pair at_) s).2 =
        s.2 ++ added.filterMap (·.vigilEventId) := by
  induction events generalizing s with
  | nil => exact ⟨[], .nil _, .nil, (List.append_nil _).symm⟩
  | cons event events ih =>
    obtain ⟨f, hadds, habout, hclaims⟩ := judgeSource_adds pair at_ s event
    obtain ⟨added, hall, habouts, hrest⟩ := ih (judgeSource pair at_ s event)
    refine ⟨f :: added, .cons hadds hall, .cons habout habouts, ?_⟩
    rw [List.foldl_cons, hrest, hclaims, List.append_assoc, List.filterMap_cons]
    cases f.vigilEventId with
    | none => rfl
    | some id => rfl

theorem foldl_judgeVigil_adds (pair : ComparisonPair) (coverage : List CoverageWindow)
    (claimed : List String) (events : List VigilEvent) (out : PairFindings) :
    ∃ added, AddsAll out (events.foldl (judgeVigil pair coverage claimed) out) added ∧
      List.Forall₂ AboutVigil added (events.filter fun event => event.id ∉ claimed) := by
  induction events generalizing out with
  | nil => exact ⟨[], .nil _, .nil⟩
  | cons event events ih =>
    obtain ⟨added, hall, habouts⟩ := ih (judgeVigil pair coverage claimed out event)
    by_cases hclaimed : event.id ∈ claimed
    · rw [judgeVigil_claimed hclaimed] at hall
      refine ⟨added, ?_, ?_⟩
      · rw [List.foldl_cons, judgeVigil_claimed hclaimed]
        exact hall
      · rw [List.filter_cons_of_neg (by simpa using hclaimed)]
        exact habouts
    · obtain ⟨f, hadds, habout⟩ := judgeVigil_adds pair coverage out hclaimed
      refine ⟨f :: added, .cons hadds hall, ?_⟩
      rw [List.filter_cons_of_pos (by simpa using hclaimed)]
      exact .cons habout habouts

/-! ### Which Vigil events are claimed -/

theorem matchFor_some {pair : ComparisonPair} {at_ : ℤ} {claimed : List String}
    {event : SourceEvent} {vigil : VigilEvent} (h : matchFor pair at_ claimed event = some vigil) :
    vigil ∈ pair.vigilEvents ∧ vigil.id ∉ claimed ∧
      overlapsOrNear event vigil at_ graceMs = true := by
  have hspec := List.find?_some h
  simp only [Bool.and_eq_true, Bool.not_eq_true', List.contains_eq_mem, decide_eq_false_iff_not]
    at hspec
  exact ⟨(mem_sortByTime _).mp (List.mem_of_find?_eq_some h), hspec.1, hspec.2⟩

/-- No Vigil event is claimed twice, and none is claimed that is not there. -/
theorem foldl_claim_spec (pair : ComparisonPair) (at_ : ℤ) (events : List SourceEvent)
    {claimed : List String} (hunique : claimed.Nodup)
    (hknown : ∀ id ∈ claimed, id ∈ pair.vigilEvents.map (·.id)) :
    (events.foldl (claim pair at_) claimed).Nodup ∧
      ∀ id ∈ events.foldl (claim pair at_) claimed, id ∈ pair.vigilEvents.map (·.id) := by
  induction events generalizing claimed with
  | nil => exact ⟨hunique, hknown⟩
  | cons event events ih =>
    refine ih ?_ ?_
    · unfold claim
      cases hmatch : matchFor pair at_ claimed event with
      | none => simpa using hunique
      | some vigil =>
        have hfree := (matchFor_some hmatch).2.1
        refine List.nodup_append.mpr ⟨hunique, List.nodup_singleton _, fun a ha b hb hab => ?_⟩
        obtain rfl := List.mem_singleton.mp hb
        have hab : a = vigil.id := hab
        exact hfree (hab ▸ ha)
    · unfold claim
      cases hmatch : matchFor pair at_ claimed event with
      | none => simpa using hknown
      | some vigil =>
        intro id hid
        rcases List.mem_append.mp hid with hold | hnew
        · exact hknown id hold
        · obtain rfl := List.mem_singleton.mp hnew
          exact List.mem_map_of_mem (matchFor_some hmatch).1

/-! ### Counting -/

theorem filter_eq_singleton_of_count {names : EventFinding → Option String}
    {findings : List EventFinding} {id : String}
    (h : (findings.map names).count (some id) = 1) :
    ∃ finding, findings.filter (fun f => names f = some id) = [finding] := by
  apply List.length_eq_one_iff.mp
  rw [← h, List.count, List.countP_map, List.countP_eq_length_filter]
  congr 2
  exact funext fun f => (beq_eq_decide _ _).symm

theorem namedOnce_of_count {names : EventFinding → Option String} {kinds : List MatchKind}
    {findings : List EventFinding} {id : String}
    (hcount : (findings.map names).count (some id) = 1)
    (hkind : ∀ f ∈ findings, names f = some id → f.kind ∈ kinds) :
    NamedOnce names kinds findings id := by
  obtain ⟨finding, hfilter⟩ := filter_eq_singleton_of_count hcount
  have hmem : finding ∈ findings.filter fun f => names f = some id := by
    rw [hfilter]
    exact List.mem_singleton_self _
  obtain ⟨hfinding, hnames⟩ := List.mem_filter.mp hmem
  exact ⟨finding, hfilter, hkind finding hfinding (by simpa using hnames)⟩

/-- Ids that are split into those claimed and the others, which are all named once. -/
theorem count_claimed_append {events : List VigilEvent} (hunique : (events.map (·.id)).Nodup)
    {claimed : List String} (hclaimed : claimed.Nodup) (hevent : event ∈ events) :
    claimed.count event.id +
      ((events.filter fun v => v.id ∉ claimed).map (·.id)).count event.id = 1 := by
  have hfiltered : ((events.filter fun v => v.id ∉ claimed).map (·.id)).Nodup :=
    hunique.sublist (List.filter_sublist.map _)
  by_cases hmem : event.id ∈ claimed
  · have hnot : event.id ∉ (events.filter fun v => v.id ∉ claimed).map (·.id) := by
      intro h
      obtain ⟨v, hv, hid⟩ := List.mem_map.mp h
      have hfree := (List.mem_filter.mp hv).2
      simp only [decide_not, Bool.not_eq_true', decide_eq_false_iff_not] at hfree
      exact hfree (hid ▸ hmem)
    rw [List.count_eq_one_of_mem hclaimed hmem, List.count_eq_zero_of_not_mem hnot]
  · have hin : event.id ∈ (events.filter fun v => v.id ∉ claimed).map (·.id) :=
      List.mem_map_of_mem (List.mem_filter.mpr ⟨hevent, by simpa using hmem⟩)
    rw [List.count_eq_zero_of_not_mem hmem, List.count_eq_one_of_mem hfiltered hin]

theorem exists_of_forall₂ {α β : Type} {R : α → β → Prop} {l : List α} {l' : List β}
    (h : List.Forall₂ R l l') {a : α} (ha : a ∈ l) : ∃ b ∈ l', R a b := by
  induction h with
  | nil => cases ha
  | cons hab _ ih =>
    rcases List.mem_cons.mp ha with rfl | ha
    · exact ⟨_, List.mem_cons_self, hab⟩
    · obtain ⟨b, hb, hR⟩ := ih ha
      exact ⟨b, List.mem_cons_of_mem _ hb, hR⟩

theorem map_eq_of_forall₂ {α β γ : Type} {R : α → β → Prop} {f : α → γ} {g : β → γ}
    (hR : ∀ a b, R a b → f a = g b) {l : List α} {l' : List β} (h : List.Forall₂ R l l') :
    l.map f = l'.map g := by
  induction h with
  | nil => rfl
  | cons hab _ ih => rw [List.map_cons, List.map_cons, hR _ _ hab, ih]

/-! ### A pair -/

section

variable {pair : ComparisonPair} {F G : List EventFinding} {claimed : List String}

/-- The findings of the first loop name every source event, those of the second none. -/
theorem count_source (hunique : (pair.sourceEvents.map (·.id)).Nodup)
    (hF : List.Forall₂ AboutSource F (sourceOrder pair))
    (hG : List.Forall₂ AboutVigil G ((vigilOrder pair).filter fun v => v.id ∉ claimed))
    {event : SourceEvent} (hevent : event ∈ pair.sourceEvents) :
    ((F ++ G).map EventFinding.sourceEventId).count (some event.id) = 1 := by
  have hfirst : F.map EventFinding.sourceEventId = ((sourceOrder pair).map (·.id)).map some := by
    rw [List.map_map]
    exact map_eq_of_forall₂ (fun _ _ h => h.source) hF
  have hsecond : some event.id ∉ G.map EventFinding.sourceEventId := by
    intro h
    obtain ⟨f, hf, hid⟩ := List.mem_map.mp h
    obtain ⟨v, -, habout⟩ := exists_of_forall₂ hG hf
    rw [habout.source] at hid
    cases hid
  have hperm : ((sourceOrder pair).map (·.id)).Perm (pair.sourceEvents.map (·.id)) :=
    (List.perm_insertionSort _ _).map _
  rw [List.map_append, List.count_append, hfirst, List.count_eq_zero_of_not_mem hsecond,
    List.count_map_of_injective _ _ (Option.some_injective _)]
  exact List.count_eq_one_of_mem (hperm.symm.nodup hunique)
    (hperm.mem_iff.mpr (List.mem_map_of_mem hevent))

/-- The findings of the first loop name the Vigil events that it claims, those of the second the
others. -/
theorem count_vigil (hunique : (pair.vigilEvents.map (·.id)).Nodup) (hclaimed : claimed.Nodup)
    (hF : claimed = F.filterMap (·.vigilEventId))
    (hG : List.Forall₂ AboutVigil G ((vigilOrder pair).filter fun v => v.id ∉ claimed))
    {event : VigilEvent} (hevent : event ∈ pair.vigilEvents) :
    ((F ++ G).map EventFinding.vigilEventId).count (some event.id) = 1 := by
  have hfirst : (F.map EventFinding.vigilEventId).count (some event.id) =
      claimed.count event.id := by
    rw [hF, List.count_filterMap, List.count, List.countP_map]
    rfl
  have hsecond : G.map EventFinding.vigilEventId =
      (((vigilOrder pair).filter fun v => v.id ∉ claimed).map (·.id)).map some := by
    rw [List.map_map]
    exact map_eq_of_forall₂ (fun _ _ h => h.vigil) hG
  have hperm : ((vigilOrder pair).map (·.id)).Perm (pair.vigilEvents.map (·.id)) :=
    (List.perm_insertionSort _ _).map _
  rw [List.map_append, List.count_append, hfirst, hsecond,
    List.count_map_of_injective _ _ (Option.some_injective _)]
  exact count_claimed_append (hperm.symm.nodup hunique) hclaimed ((mem_sortByTime _).mpr hevent)

end

theorem comparePair_totals (pair : ComparisonPair) (coverage : List CoverageWindow) (at_ : ℤ)
    (kind : MatchKind) : PairFindings.total (comparePair pair coverage at_) kind =
      (comparePair pair coverage at_).findings.countP fun f => f.kind = kind := by
  obtain ⟨F, hF, -, -⟩ := foldl_judgeSource_adds pair at_ (sourceOrder pair) ({}, [])
  obtain ⟨G, hG, -⟩ := foldl_judgeVigil_adds pair coverage
    ((sourceOrder pair).foldl (judgeSource pair at_) ({}, [])).2 (vigilOrder pair)
    ((sourceOrder pair).foldl (judgeSource pair at_) ({}, [])).1
  obtain ⟨hfindings, htotals⟩ := hF.trans hG
  have hfindings : (comparePair pair coverage at_).findings = F ++ G := hfindings
  have hzero : PairFindings.total {} kind = 0 := by cases kind <;> rfl
  rw [hfindings]
  exact (htotals kind).trans (by rw [hzero, Nat.zero_add])

theorem comparePair_conserved (pair : ComparisonPair) (coverage : List CoverageWindow) (at_ : ℤ)
    (hsource : (pair.sourceEvents.map (·.id)).Nodup)
    (hvigil : (pair.vigilEvents.map (·.id)).Nodup) :
    Conserved pair (comparePair pair coverage at_) := by
  obtain ⟨F, hF, haboutF, hclaims⟩ := foldl_judgeSource_adds pair at_ (sourceOrder pair) ({}, [])
  set judged := (sourceOrder pair).foldl (judgeSource pair at_) ({}, []) with hjudged
  obtain ⟨G, hG, haboutG⟩ := foldl_judgeVigil_adds pair coverage judged.2 (vigilOrder pair) judged.1
  obtain ⟨hfindings, htotals⟩ := hF.trans hG
  have hfindings : (comparePair pair coverage at_).findings = F ++ G := hfindings
  have hspec := @foldl_claim_spec pair at_ (sourceOrder pair) [] List.nodup_nil (List.forall_mem_nil _)
  rw [← foldl_judgeSource_snd pair at_ (sourceOrder pair) ({}, []), ← hjudged] at hspec
  have hsplit {f : EventFinding} (hf : f ∈ F ++ G) :
      (∃ event ∈ pair.sourceEvents, AboutSource f event) ∨
        ∃ event ∈ pair.vigilEvents, AboutVigil f event := by
    rcases List.mem_append.mp hf with hf | hf
    · obtain ⟨event, hevent, habout⟩ := exists_of_forall₂ haboutF hf
      exact .inl ⟨event, (mem_sortByTime _).mp hevent, habout⟩
    · obtain ⟨event, hevent, habout⟩ := exists_of_forall₂ haboutG hf
      exact .inr ⟨event, (mem_sortByTime _).mp (List.mem_of_mem_filter hevent), habout⟩
  constructor
  · intro event hevent
    rw [hfindings]
    refine namedOnce_of_count (count_source hsource haboutF haboutG hevent) fun f hf hid => ?_
    rcases hsplit hf with ⟨_, -, habout⟩ | ⟨_, -, habout⟩
    · exact habout.kind
    · rw [habout.source] at hid
      cases hid
  · intro event hevent
    rw [hfindings]
    refine namedOnce_of_count (count_vigil hvigil hspec.1 hclaims haboutG hevent)
      fun f hf hid => ?_
    rcases hsplit hf with ⟨_, -, habout⟩ | ⟨_, -, habout⟩
    · have hkind := habout.vigil.mp (by rw [hid]; rfl)
      rw [hkind]
      exact List.mem_cons_self
    · rcases habout.kind with hkind | hkind
      · simp [hkind, vigilKinds]
      · simp [hkind, vigilKinds]
  · intro f hf
    rw [hfindings] at hf
    rcases hsplit hf with ⟨_, -, habout⟩ | ⟨_, -, habout⟩
    · exact .inl ⟨by rw [habout.source]; rfl, habout.vigil⟩
    · refine .inr ⟨habout.source, by rw [habout.vigil]; rfl, fun hmatched => ?_⟩
      rcases habout.kind with hkind | hkind
      · rw [hkind] at hmatched
        cases hmatched
      · rw [hkind] at hmatched
        cases hmatched
  · intro f hf
    rw [hfindings] at hf
    refine ⟨fun id hid => ?_, fun id hid => ?_⟩
    · rcases hsplit hf with ⟨event, hevent, habout⟩ | ⟨_, -, habout⟩
      · obtain rfl := Option.some.inj (habout.source.symm.trans hid)
        exact List.mem_map_of_mem hevent
      · rw [habout.source] at hid
        cases hid
    · rcases List.mem_append.mp hf with hfirst | hsecond
      · have hclaimed : id ∈ judged.2 := by
          rw [hclaims]
          exact List.mem_filterMap.mpr ⟨f, hfirst, hid⟩
        exact hspec.2 id hclaimed
      · obtain ⟨event, hevent, habout⟩ := exists_of_forall₂ haboutG hsecond
        obtain rfl := Option.some.inj (habout.vigil.symm.trans hid)
        exact List.mem_map_of_mem ((mem_sortByTime _).mp (List.mem_of_mem_filter hevent))
  · exact comparePair_totals pair coverage at_

/-! ### The report -/

theorem tallyPair_totals (coverage : List CoverageWindow) (at_ : ℤ) {tally : Tally} {kind : MatchKind}
    (h : Totals.total tally.totals kind = tally.findings.countP fun f => f.kind = kind)
    (pair : ComparisonPair) :
    Totals.total (tallyPair coverage at_ tally pair).totals kind =
      (tallyPair coverage at_ tally pair).findings.countP fun f => f.kind = kind := by
  have hcounted (totals : Totals) (outcome : Outcome) :
      Totals.total (countOutcome totals outcome) kind = Totals.total totals kind := by
    cases outcome <;> cases kind <;> rfl
  have hdeleted : Totals.total (if isDeleted pair then
      { countOutcome tally.totals pair.outcome with
        deleted := (countOutcome tally.totals pair.outcome).deleted + 1 }
      else countOutcome tally.totals pair.outcome) kind = Totals.total tally.totals kind := by
    rw [← hcounted tally.totals pair.outcome]
    split
    · cases kind <;> rfl
    · rfl
  have hresult (totals : Totals) (result : PairFindings) :
      Totals.total (countResult totals result) kind =
        Totals.total totals kind + PairFindings.total result kind := by
    cases kind <;> rfl
  unfold tallyPair
  by_cases hcompared : isCompared pair = true
  · simp only [if_pos hcompared]
    rw [hresult, hdeleted, h, comparePair_totals, List.countP_append]
  · simp only [if_neg hcompared]
    exact hdeleted.trans h

theorem compareBridge_totals (input : ComparisonInput) (kind : MatchKind) :
    Totals.total (compareBridge input).totals kind =
      (compareBridge input).findings.countP fun f => f.kind = kind := by
  have hloop (pairs : List ComparisonPair) (tally : Tally)
      (h : Totals.total tally.totals kind = tally.findings.countP fun f => f.kind = kind) :
      Totals.total (pairs.foldl (tallyPair (mergeCoverage input.coverage) input.at_) tally).totals
          kind =
        (pairs.foldl (tallyPair (mergeCoverage input.coverage) input.at_) tally).findings.countP
          fun f => f.kind = kind := by
    induction pairs generalizing tally with
    | nil => exact h
    | cons pair pairs ih => exact ih _ (tallyPair_totals _ _ h pair)
  refine hloop input.pairs _ ?_
  cases kind <;> rfl

/-- Every event of a pair is named by one finding, of a kind that fits it, no finding is about
anything else, and the totals of the pair and of the report count the findings of each kind. -/
theorem events_conserved :
    (∀ pair coverage at_, (pair.sourceEvents.map (·.id)).Nodup →
      (pair.vigilEvents.map (·.id)).Nodup → Conserved pair (comparePair pair coverage at_)) ∧
    ∀ input kind, Totals.total (compareBridge input).totals kind =
      (compareBridge input).findings.countP fun f => f.kind = kind :=
  ⟨comparePair_conserved, compareBridge_totals⟩

/-- An outage that both saw, one that Vigil missed, a blip, and one that Vigil alone saw. -/
def busyPair : ComparisonPair :=
  { quietPair with
    sourceEvents :=
      [⟨"s-2", "src-1", 30000000, some 30600000, 30600000, none⟩,
        ⟨"s-1", "src-1", 10000000, some 10600000, 10600000, some "timeout"⟩,
        ⟨"s-3", "src-1", 50000000, some 50010000, 50010000, none⟩]
    vigilEvents := [⟨"v-2", 70000000, none⟩, ⟨"v-1", 10060000, some 10660000⟩] }

theorem events_conserved_busyPair :
    Conserved busyPair (comparePair busyPair [⟨0, 86220000⟩] 90000000) ∧
      (comparePair busyPair [⟨0, 86220000⟩] 90000000).findings.map (·.kind) =
        [.matched, .missed, .belowWindow, .extra] :=
  ⟨events_conserved.1 busyPair _ _ (by decide) (by decide), by decide +kernel⟩

end Vigil.Bridge.Findings
