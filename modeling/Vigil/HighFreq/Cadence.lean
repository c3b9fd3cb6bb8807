import Vigil.HighFreq.InFlight

/-! The cadence of one slot over every run of the plane: where a pass of the scheduler leaves its due
time, how many of its probes can start in a span of time, and how the due time counts the boundaries
that were probed or missed.  The runs are those of the in-flight accounting, so that probes complete,
reloads and promotions come between the passes. -/

namespace Vigil.HighFreq.Cadence

open Lib Js.Text Net.Egress Leases Slots InFlight

/-! ### One slot in one pass -/

/-- What `advance` makes of the slot. -/
def advanced (slot : Slot) (mono : ℚ) : Option Refusal → Slot
  | some .shed => { slot with shedSlots := slot.shedSlots + 1, dueMono := mono + tickMs }
  | refusal =>
    let missed := if refusal = some .missed then 1 else 0
    let dueMono := slot.dueMono + slot.intervalMs
    let skipped : ℕ :=
      if dueMono > mono then 0 else (⌊(mono - dueMono) / slot.intervalMs⌋ + 1).toNat
    { slot with
      missedSlots := slot.missedSlots + missed + skipped
      dueMono := dueMono + skipped * slot.intervalMs }

/-- What a pass makes of a due slot. -/
inductive Served (held : List ℕ) (mono : ℚ) (slot : Slot) : Slot → Prop where
  | lapsed : shardOf slot.monitor.id ∉ held → Served held mono slot (advanced slot mono none)
  | refused (refusal : Refusal) : Served held mono slot (advanced slot mono (some refusal))
  | probed : Served held mono slot
      { advanced slot mono none with inFlight := true, probes := slot.probes + 1 }

theorem advance_objects (p : Plane) (ref : ℕ) (slot : Slot) (mono : ℚ) (refusal : Option Refusal) :
    (advance p ref slot mono refusal).objects = (p.setSlot ref (advanced slot mono refusal)).objects := by
  cases refusal with
  | none => rfl
  | some refusal =>
    cases refusal with
    | missed => rfl
    | shed => rfl

theorem advanced_probes (slot : Slot) (mono : ℚ) (refusal : Option Refusal) :
    (advanced slot mono refusal).probes = slot.probes := by
  cases refusal with
  | none => rfl
  | some refusal =>
    cases refusal with
    | missed => rfl
    | shed => rfl

/-- A slot that is not shed moves by whole intervals, as many as it missed and one for this time, and
past the pass. -/
theorem advanced_whole {slot : Slot} {mono : ℚ} {refusal : Option Refusal}
    (hinterval : 0 < slot.intervalMs) (hshed : refusal ≠ some .shed) :
    ∃ skipped : ℕ,
      (advanced slot mono refusal).dueMono = slot.dueMono + (skipped + 1) * slot.intervalMs ∧
      mono < (advanced slot mono refusal).dueMono ∧
      (advanced slot mono refusal).shedSlots = slot.shedSlots ∧
      (advanced slot mono refusal).missedSlots =
        slot.missedSlots + (if refusal = some .missed then 1 else 0) + skipped := by
  have hpos : (0 : ℚ) < slot.intervalMs := by exact_mod_cast hinterval
  have hskipped : ∀ skipped : ℕ,
      skipped = (if slot.dueMono + slot.intervalMs > mono then 0
        else (⌊(mono - (slot.dueMono + slot.intervalMs)) / slot.intervalMs⌋ + 1).toNat) →
      mono < slot.dueMono + slot.intervalMs + skipped * slot.intervalMs := by
    intro skipped hskipped
    split at hskipped
    · rename_i hlater
      rw [hskipped]
      simpa using hlater
    · rename_i hbehind
      have hbehind := sub_nonneg.mpr (not_lt.mp hbehind)
      have hfloor := Int.lt_floor_add_one
        ((mono - (slot.dueMono + slot.intervalMs)) / (slot.intervalMs : ℚ))
      have hnonneg := Int.floor_nonneg.mpr (div_nonneg hbehind hpos.le)
      have hcast : (skipped : ℚ) =
          (⌊(mono - (slot.dueMono + slot.intervalMs)) / (slot.intervalMs : ℚ)⌋ : ℚ) + 1 := by
        have hint : (skipped : ℤ) =
            ⌊(mono - (slot.dueMono + slot.intervalMs)) / (slot.intervalMs : ℚ)⌋ + 1 := by
          rw [hskipped, Int.toNat_of_nonneg (by omega)]
        exact_mod_cast hint
      rw [div_lt_iff₀ hpos, ← hcast] at hfloor
      linarith
  cases refusal with
  | none =>
    refine ⟨_, ?_, hskipped _ rfl, rfl, rfl⟩
    show slot.dueMono + slot.intervalMs + _ = _
    ring
  | some refusal =>
    cases refusal with
    | missed =>
      refine ⟨_, ?_, hskipped _ rfl, rfl, rfl⟩
      show slot.dueMono + slot.intervalMs + _ = _
      ring
    | shed => exact absurd rfl hshed

section Served

variable {held : List ℕ} {mono : ℚ} {slot slot' : Slot}

/-- The due time lies after the pass, whatever became of the slot. -/
theorem Served.later (h : Served held mono slot slot') (hinterval : 0 < slot.intervalMs) :
    mono < slot'.dueMono := by
  cases h with
  | lapsed _ | probed =>
    obtain ⟨skipped, -, hlater, -⟩ := @advanced_whole slot mono none hinterval (by simp)
    exact hlater
  | refused refusal =>
    cases refusal with
    | missed =>
      obtain ⟨skipped, -, hlater, -⟩ := @advanced_whole slot mono (some .missed) hinterval (by simp)
      exact hlater
    | shed =>
      show mono < mono + tickMs
      rw [tickMs]
      linarith

/-- A probe moves the due time by an interval or more, and nothing moves it back. -/
theorem Served.probes (h : Served held mono slot slot') (hinterval : 0 < slot.intervalMs)
    (hdue : slot.dueMono ≤ mono) :
    slot'.probes = slot.probes ∧ slot.dueMono ≤ slot'.dueMono ∨
      slot'.probes = slot.probes + 1 ∧ slot.dueMono + slot.intervalMs ≤ slot'.dueMono := by
  have hlater := h.later hinterval
  cases h with
  | lapsed _ => exact Or.inl ⟨advanced_probes slot mono none, (hdue.trans hlater.le)⟩
  | refused refusal => exact Or.inl ⟨advanced_probes slot mono _, (hdue.trans hlater.le)⟩
  | probed =>
    obtain ⟨skipped, hwhole, -⟩ := @advanced_whole slot mono none hinterval (by simp)
    refine Or.inr ⟨rfl, ?_⟩
    show _ ≤ (advanced slot mono none).dueMono
    rw [hwhole]
    have hnonneg : (0 : ℚ) ≤ skipped * slot.intervalMs := by positivity
    linarith

/-- Each boundary that the due time passes is counted once, as probed or as missed. -/
theorem Served.phase (h : Served held mono slot slot') (hinterval : 0 < slot.intervalMs)
    (hheld : shardOf slot.monitor.id ∈ held) :
    slot.shedSlots < slot'.shedSlots ∨
      slot'.shedSlots = slot.shedSlots ∧
        slot'.dueMono - slot.intervalMs * (slot'.probes + slot'.missedSlots : ℚ) =
          slot.dueMono - slot.intervalMs * (slot.probes + slot.missedSlots : ℚ) := by
  cases h with
  | lapsed hlapsed => exact absurd hheld hlapsed
  | refused refusal =>
    cases refusal with
    | missed =>
      obtain ⟨skipped, hwhole, -, hshed, hmissed⟩ :=
        @advanced_whole slot mono (some .missed) hinterval (by simp)
      refine Or.inr ⟨hshed, ?_⟩
      rw [hwhole, hmissed, advanced_probes, if_pos rfl]
      push_cast
      ring
    | shed => exact Or.inl (Nat.lt_succ_self _)
  | probed =>
    obtain ⟨skipped, hwhole, -, hshed, hmissed⟩ := @advanced_whole slot mono none hinterval (by simp)
    refine Or.inr ⟨hshed, ?_⟩
    show (advanced slot mono none).dueMono -
        slot.intervalMs * ((slot.probes + 1 : ℕ) + (advanced slot mono none).missedSlots : ℚ) = _
    rw [hwhole, hmissed, if_neg (by simp)]
    push_cast
    ring

end Served

/-! ### The slot over one step -/

/-- The table names no object twice, and none that was not made. -/
structure Table (p : Plane) : Prop where
  nodup : (p.slots.map (·.2)).Nodup
  below : ∀ ref ∈ p.slots.map (·.2), ref < p.nextRef
  made : ∀ ref, p.objects ref ≠ none → ref < p.nextRef

/-- What the clock of the slot keeps where no pass serves it. -/
structure Kept (slot slot' : Slot) : Prop where
  dueMono : slot'.dueMono = slot.dueMono
  probes : slot'.probes = slot.probes
  missedSlots : slot'.missedSlots = slot.missedSlots
  shedSlots : slot'.shedSlots = slot.shedSlots

/-- A slot is kept, or made with its counters at zero. -/
def Placed : Option Slot → Option Slot → Prop
  | none, none => True
  | none, some slot => slot.probes = 0 ∧ slot.missedSlots = 0 ∧ slot.shedSlots = 0
  | some _, none => False
  | some slot, some slot' => Kept slot slot'

/-- What one step does to the slot of a reference. -/
inductive Moves : Action → Option Slot → Option Slot → Prop where
  | placed {a : Action} {slot slot' : Option Slot} : Placed slot slot' → Moves a slot slot'
  | served {held : List ℕ} {saturated : Bool} {mono : ℚ} {slot slot' : Slot} :
    slot.dueMono ≤ mono → Served held mono slot slot' →
      Moves (.tick held saturated mono) (some slot) (some slot')

theorem Kept.refl (slot : Slot) : Kept slot slot := ⟨rfl, rfl, rfl, rfl⟩

theorem Placed.refl : ∀ slot : Option Slot, Placed slot slot
  | none => trivial
  | some slot => Kept.refl slot

theorem Placed.trans {a b c : Option Slot} (hab : Placed a b) (hbc : Placed b c) : Placed a c := by
  cases a with
  | none =>
    cases b with
    | none => exact hbc
    | some slot =>
      obtain ⟨hprobes, hmissed, hshed⟩ := hab
      cases c with
      | none => exact hbc.elim
      | some slot' =>
        exact ⟨hbc.probes.trans hprobes, hbc.missedSlots.trans hmissed, hbc.shedSlots.trans hshed⟩
  | some slot =>
    cases b with
    | none => exact hab.elim
    | some slot' =>
      cases c with
      | none => exact hbc.elim
      | some slot'' =>
        exact ⟨hbc.dueMono.trans hab.dueMono, hbc.probes.trans hab.probes,
          hbc.missedSlots.trans hab.missedSlots, hbc.shedSlots.trans hab.shedSlots⟩

section Step

variable {p : Plane}

theorem Placed.setSlot {ref r : ℕ} {slot slot' : Slot} (hslot : p.objects r = some slot)
    (hkept : Kept slot slot') : Placed (p.objects ref) ((p.setSlot r slot').objects ref) := by
  by_cases href : ref = r
  · subst href
    rw [hslot, setSlot_objects_self]
    exact hkept
  · rw [setSlot_objects_of_ne href]
    exact Placed.refl _

theorem Table.of_eq {q : Plane} (h : Table p) (hslots : q.slots = p.slots)
    (hnext : q.nextRef = p.nextRef)
    (hmade : ∀ ref, q.objects ref ≠ none → p.objects ref ≠ none) : Table q where
  nodup := hslots ▸ h.nodup
  below := by
    rw [hslots, hnext]
    exact h.below
  made ref href := by
    rw [hnext]
    exact h.made ref (hmade ref href)

theorem setSlot_made {ref r : ℕ} {slot slot' : Slot} (hslot : p.objects r = some slot)
    (href : (p.setSlot r slot').objects ref ≠ none) : p.objects ref ≠ none := by
  by_cases hr : ref = r
  · rw [hr, hslot]
    simp
  · rw [setSlot_objects_of_ne hr] at href
    exact href

/-! Reload -/

theorem place_placed (h : Table p) (parser : UrlParser) (mono : ℚ) (row : Monitor) :
    Table (place parser mono p row) ∧
      ∀ ref, Placed (p.objects ref) ((place parser mono p row).objects ref) := by
  unfold place
  dsimp only
  split
  · rename_i r _
    split
    · rename_i slot hslot
      exact ⟨h.of_eq rfl rfl fun ref => setSlot_made hslot,
        fun ref => Placed.setSlot hslot ⟨rfl, rfl, rfl, rfl⟩⟩
    · exact ⟨h, fun ref => Placed.refl _⟩
  · have hfresh : p.objects p.nextRef = none := by
      by_contra hmade
      exact (h.made _ hmade).false
    refine ⟨⟨?_, ?_, ?_⟩, ?_⟩
    · rw [List.map_append, List.map_singleton, List.nodup_append]
      refine ⟨h.nodup, List.nodup_singleton _, ?_⟩
      rintro old hold new hnew rfl
      obtain rfl := List.mem_singleton.mp hnew
      exact (h.below _ hold).false
    · intro ref href
      rw [List.map_append, List.map_singleton] at href
      show ref < p.nextRef + 1
      rcases List.mem_append.mp href with href | href
      · exact (h.below ref href).trans (Nat.lt_succ_self _)
      · obtain rfl := List.mem_singleton.mp href
        exact Nat.lt_succ_self _
    · intro ref href
      show ref < p.nextRef + 1
      by_cases hnew : ref = p.nextRef
      · omega
      · exact (h.made ref (by rwa [← setSlot_objects_of_ne hnew])).trans (Nat.lt_succ_self _)
    · intro ref
      by_cases hnew : ref = p.nextRef
      · subst hnew
        rw [hfresh]
        show Placed none ((p.setSlot _ _).objects _)
        rw [setSlot_objects_self]
        exact ⟨rfl, rfl, rfl⟩
      · show Placed _ ((p.setSlot _ _).objects _)
        rw [setSlot_objects_of_ne hnew]
        exact Placed.refl _

theorem placeAll_placed (parser : UrlParser) (mono : ℚ) (mine : List Monitor) :
    ∀ (p : Plane) (keep : List JsString), Table p →
      Table (placeAll parser mono mine p keep).1 ∧
        ∀ ref, Placed (p.objects ref) ((placeAll parser mono mine p keep).1.objects ref) := by
  induction mine with
  | nil => exact fun p keep h => ⟨h, fun ref => Placed.refl _⟩
  | cons row rest ih =>
    intro p keep h
    rw [placeAll]
    split
    · exact ⟨h, fun ref => Placed.refl _⟩
    · obtain ⟨htable, hplaced⟩ := place_placed h parser mono row
      obtain ⟨htable', hplaced'⟩ := ih _ _ htable
      exact ⟨htable', fun ref => (hplaced ref).trans (hplaced' ref)⟩

theorem rebuild_placed (h : Table p) (parser : UrlParser) (rows : List Monitor) (held : List ℕ)
    (mono : ℚ) :
    Table (rebuild parser p rows held mono) ∧
      ∀ ref, Placed (p.objects ref) ((rebuild parser p rows held mono).objects ref) := by
  obtain ⟨htable, hplaced⟩ := placeAll_placed parser mono
    (rows.filter fun row => held.contains (shardOf row.id)) p [] h
  refine ⟨⟨?_, ?_, htable.made⟩, hplaced⟩
  · exact (List.filter_sublist.map _).nodup htable.nodup
  · exact fun ref href => htable.below ref ((List.filter_sublist.map _).subset href)

/-! Tick -/

/-- A pass serves a due slot in one of the ways of `Served`, and touches no other. -/
theorem serve_served {ref : ℕ} {slot : Slot} (hslot : p.objects ref = some slot) (held : List ℕ)
    (saturated : Bool) (mono : ℚ) :
    ∃ slot', Served held mono slot slot' ∧
      (serve held saturated mono p ref).objects = (p.setSlot ref slot').objects ∧
      (serve held saturated mono p ref).slots = p.slots ∧
      (serve held saturated mono p ref).nextRef = p.nextRef := by
  have hnext : ∀ (q : Plane) (refusal : Option Refusal),
      (advance q ref slot mono refusal).nextRef = q.nextRef := by
    intro q refusal
    obtain ⟨slot', missedSlots, shedSlots, hadvance, -⟩ := @advance_spec q ref slot mono refusal
    rw [hadvance]
    rfl
  obtain ⟨⟨bucket, hbucket⟩, -⟩ := @refuse_spec p slot saturated mono
  unfold serve
  rw [hslot]
  dsimp only
  split
  · rename_i hlapsed
    exact ⟨_, Served.lapsed (by simpa using hlapsed), advance_objects p ref slot mono none,
      advance_slots, hnext p none⟩
  · rw [hbucket]
    cases hrefusal : (refuse p slot saturated mono).2 with
    | some refusal =>
      exact ⟨_, Served.refused refusal, advance_objects { p with bucket } ref slot mono _,
        advance_slots, hnext { p with bucket } _⟩
    | none =>
      have hobjects := advance_objects { p with bucket } ref slot mono none
      have hslots : (advance { p with bucket } ref slot mono none).slots = p.slots := advance_slots
      have hself : (advance { p with bucket } ref slot mono none).objects ref =
          some (advanced slot mono none) := by
        rw [hobjects]
        exact setSlot_objects_self
      refine ⟨_, Served.probed, ?_, ?_, ?_⟩
      · show (probe (advance { p with bucket } ref slot mono none) ref).objects = _
        rw [probe, hself]
        show Function.update (advance { p with bucket } ref slot mono none).objects ref _ = _
        rw [hobjects, advanced_probes]
        exact Function.update_idem ..
      · show (probe (advance { p with bucket } ref slot mono none) ref).slots = _
        rw [probe, hself]
        exact hslots
      · show (probe (advance { p with bucket } ref slot mono none) ref).nextRef = _
        rw [probe, hself]
        exact hnext { p with bucket } none

theorem serve_table (h : Table p) (held : List ℕ) (saturated : Bool) (mono : ℚ) (r : ℕ) :
    Table (serve held saturated mono p r) := by
  cases hslot : p.objects r with
  | none =>
    rw [serve, hslot]
    exact h
  | some slot =>
    obtain ⟨slot', -, hobjects, hslots, hnext⟩ := serve_served hslot held saturated mono
    refine h.of_eq hslots hnext fun ref href => ?_
    rw [hobjects] at href
    exact setSlot_made hslot href

theorem serve_of_ne (held : List ℕ) (saturated : Bool) (mono : ℚ) {ref r : ℕ} (hr : ref ≠ r) :
    (serve held saturated mono p r).objects ref = p.objects ref := by
  cases hslot : p.objects r with
  | none => rw [serve, hslot]
  | some slot =>
    obtain ⟨slot', -, hobjects, -, -⟩ := serve_served hslot held saturated mono
    rw [hobjects, setSlot_objects_of_ne hr]

theorem serveAll_table (held : List ℕ) (saturated : Bool) (mono : ℚ) (refs : List ℕ) :
    ∀ p : Plane, Table p → Table (refs.foldl (serve held saturated mono) p) := by
  induction refs with
  | nil => exact fun p h => h
  | cons r rest ih => exact fun p h => ih _ (serve_table h held saturated mono r)

theorem serveAll_of_notMem (held : List ℕ) (saturated : Bool) (mono : ℚ) {ref : ℕ}
    (refs : List ℕ) (href : ref ∉ refs) :
    ∀ p : Plane, (refs.foldl (serve held saturated mono) p).objects ref = p.objects ref := by
  induction refs with
  | nil => exact fun p => rfl
  | cons r rest ih =>
    intro p
    rw [List.foldl_cons, ih (fun hmem => href (List.mem_cons_of_mem _ hmem))]
    exact serve_of_ne held saturated mono fun heq => href (heq ▸ List.mem_cons_self)

theorem serveAll_served (held : List ℕ) (saturated : Bool) (mono : ℚ) {ref : ℕ} {slot : Slot}
    {refs : List ℕ} (href : ref ∈ refs) (hnodup : refs.Nodup) (hslot : p.objects ref = some slot) :
    ∃ slot', (refs.foldl (serve held saturated mono) p).objects ref = some slot' ∧
      Served held mono slot slot' := by
  obtain ⟨before, after, rfl⟩ := List.append_of_mem href
  obtain ⟨-, hafter, hdisjoint⟩ := List.nodup_append.mp hnodup
  have hbefore : ref ∉ before := fun hmem => hdisjoint ref hmem ref List.mem_cons_self rfl
  rw [List.foldl_append, List.foldl_cons, serveAll_of_notMem held saturated mono after
    (List.nodup_cons.mp hafter).1]
  have hreached := serveAll_of_notMem held saturated mono before hbefore p
  rw [hslot] at hreached
  obtain ⟨slot', hserved, hobjects, -⟩ := serve_served hreached held saturated mono
  refine ⟨slot', ?_, hserved⟩
  rw [hobjects]
  exact setSlot_objects_self

theorem mem_due_iff {mono : ℚ} {ref : ℕ} :
    ref ∈ due p mono ↔
      ref ∈ p.slots.map (·.2) ∧ ∃ slot, p.objects ref = some slot ∧ slot.dueMono ≤ mono := by
  simp only [due, List.mem_map, List.mem_insertionSort, List.mem_filterMap]
  constructor
  · rintro ⟨_, ⟨entry, hentry, hdue⟩, rfl⟩
    obtain ⟨slot, hslot, rfl⟩ := Option.map_eq_some_iff.mp hdue
    obtain ⟨hslot, hle⟩ := Option.filter_eq_some_iff.mp hslot
    exact ⟨⟨entry, hentry, rfl⟩, slot, hslot, of_decide_eq_true hle⟩
  · rintro ⟨⟨entry, hentry, rfl⟩, slot, hslot, hle⟩
    refine ⟨(slot.dueMono, entry.2), ⟨entry, hentry, ?_⟩, rfl⟩
    exact Option.map_eq_some_iff.mpr
      ⟨slot, Option.filter_eq_some_iff.mpr ⟨hslot, decide_eq_true hle⟩, rfl⟩

theorem due_nodup (h : Table p) (mono : ℚ) : (due p mono).Nodup := by
  have hsublist : ∀ entries : List (JsString × ℕ),
      ((entries.filterMap fun entry =>
        ((p.objects entry.2).filter (·.dueMono ≤ mono)).map fun slot =>
          (slot.dueMono, entry.2)).map (·.2)).Sublist (entries.map (·.2)) := by
    intro entries
    induction entries with
    | nil => exact List.Sublist.refl _
    | cons entry rest ih =>
      rw [List.filterMap_cons]
      split
      · exact ih.cons _
      · rename_i found hfound
        obtain ⟨slot, -, rfl⟩ := Option.map_eq_some_iff.mp hfound
        exact ih.cons_cons _
  have hperm := ((p.slots.filterMap fun entry =>
    ((p.objects entry.2).filter (·.dueMono ≤ mono)).map fun slot =>
      (slot.dueMono, entry.2)).perm_insertionSort fun a b => a.1 ≤ b.1).map (·.2)
  exact hperm.nodup_iff.mpr ((hsublist p.slots).nodup h.nodup)

/-- A pass serves a slot once if it is due, and leaves it alone otherwise. -/
theorem tick_served (h : Table p) (held : List ℕ) (saturated : Bool) {mono : ℚ} {ref : ℕ}
    (href : ref ∈ due p mono) :
    ∃ slot slot', p.objects ref = some slot ∧ slot.dueMono ≤ mono ∧
      (tick p held saturated mono).objects ref = some slot' ∧ Served held mono slot slot' := by
  obtain ⟨-, slot, hslot, hdue⟩ := mem_due_iff.mp href
  obtain ⟨slot', hslot', hserved⟩ :=
    serveAll_served held saturated mono href (due_nodup h mono) hslot
  exact ⟨slot, slot', hslot, hdue, hslot', hserved⟩

theorem tick_of_notMem (held : List ℕ) (saturated : Bool) {mono : ℚ} {ref : ℕ}
    (href : ref ∉ due p mono) :
    (tick p held saturated mono).objects ref = p.objects ref :=
  serveAll_of_notMem held saturated mono _ href p

/-! The step -/

theorem step_moves {parser : UrlParser} {organizationOf : JsString → String} {a : Action} {q : Plane}
    (h : Table p) (hs : step parser organizationOf p a = some q) :
    Table q ∧ ∀ ref, Moves a (p.objects ref) (q.objects ref) := by
  cases a with
  | tick held saturated mono =>
    cases hs
    refine ⟨serveAll_table held saturated mono _ p h, fun ref => ?_⟩
    by_cases href : ref ∈ due p mono
    · obtain ⟨slot, slot', hslot, hdue, hslot', hserved⟩ := tick_served h held saturated href
      rw [hslot, hslot']
      exact Moves.served hdue hserved
    · rw [tick_of_notMem held saturated href]
      exact Moves.placed (Placed.refl _)
  | complete done =>
    obtain ⟨-, hs⟩ := Option.ite_none_right_eq_some.mp hs
    cases hs
    unfold complete
    split
    · exact ⟨h, fun ref => Moves.placed (Placed.refl _)⟩
    · rename_i slot hslot
      exact ⟨h.of_eq rfl rfl fun ref => setSlot_made hslot,
        fun ref => Moves.placed (Placed.setSlot hslot ⟨rfl, rfl, rfl, rfl⟩)⟩
  | reload rows held mono =>
    obtain ⟨-, hs⟩ := Option.ite_none_right_eq_some.mp hs
    cases hs
    obtain ⟨htable, hplaced⟩ := rebuild_placed h parser rows held mono
    exact ⟨htable, fun ref => Moves.placed (hplaced ref)⟩
  | promoted r updated =>
    obtain ⟨slot, hslot, hs⟩ := Option.bind_eq_some_iff.mp hs
    obtain ⟨-, hs⟩ := Option.ite_none_right_eq_some.mp hs
    cases hs
    rw [promoted, hslot]
    exact ⟨h.of_eq rfl rfl fun ref => setSlot_made hslot,
      fun ref => Moves.placed (Placed.setSlot hslot ⟨rfl, rfl, rfl, rfl⟩)⟩

theorem table_start (mono : ℚ) : Table (start mono) where
  nodup := List.nodup_nil
  below _ h := absurd h List.not_mem_nil
  made _ h := absurd rfl h

end Step

/-! ### Runs -/

section Run

variable (parser : UrlParser) (organizationOf : JsString → String) (ref intervalMs : ℕ)

def probesOf (p : Plane) : ℕ := ((p.objects ref).map (·.probes)).getD 0

/-- How many probes of the slot start in a step from `p` to `q`, if it is a pass whose time lies in
the half-open span from `a` to `b`. -/
def startedIn (a b : ℚ) (p q : Plane) : Action → ℕ
  | .tick _ _ mono => if a ≤ mono ∧ mono < b then probesOf ref q - probesOf ref p else 0
  | _ => 0

/-- How many probes of the slot start in that span, in a run from `p`. -/
def started (a b : ℚ) : Plane → List Action → ℕ
  | _, [] => 0
  | p, act :: acts =>
    match step parser organizationOf p act with
    | none => 0
    | some q => startedIn ref a b p q act + started a b q acts

/-- The due time that the slot has when a run from `p` first sees it. -/
def firstDue : Plane → List Action → Option ℚ
  | p, [] => (p.objects ref).map (·.dueMono)
  | p, act :: acts =>
    match p.objects ref with
    | some slot => some slot.dueMono
    | none => (step parser organizationOf p act).bind fun q => firstDue q acts

/-- The interval of the slot, wherever there is one. -/
def Interval (p : Plane) : Prop := ∀ slot, p.objects ref = some slot → slot.intervalMs = intervalMs

/-- At every pass the worker holds the shard of the slot. -/
def LeaseHeld (p : Plane) : Action → Prop
  | .tick held _ _ => ∀ slot, p.objects ref = some slot → shardOf slot.monitor.id ∈ held
  | _ => True

/-- The runs from a plane. -/
def runsFrom (p : Plane) : Machine Plane Action where
  init := p
  step := step parser organizationOf

end Run

section Run

variable {parser : UrlParser} {organizationOf : JsString → String} {ref intervalMs : ℕ} {p q : Plane}
  {act : Action} {acts : List Action}

theorem Moves.kept_or_probed (hpos : 0 < intervalMs) (hinterval : Interval ref intervalMs p)
    (h : Moves act (p.objects ref) (q.objects ref)) :
    (probesOf ref q = probesOf ref p ∧ ∀ slot, p.objects ref = some slot →
      ∃ slot', q.objects ref = some slot' ∧ slot.dueMono ≤ slot'.dueMono) ∨
    ∃ held saturated mono slot slot', act = .tick held saturated mono ∧
      p.objects ref = some slot ∧ q.objects ref = some slot' ∧ slot.dueMono ≤ mono ∧
      mono < slot'.dueMono ∧ slot.dueMono + intervalMs ≤ slot'.dueMono ∧
      probesOf ref q = probesOf ref p + 1 := by
  generalize hp : p.objects ref = before at h
  generalize hq : q.objects ref = after at h
  cases h with
  | placed hplaced =>
    refine Or.inl ⟨?_, fun slot hslot => ?_⟩
    · rw [probesOf, probesOf, hp, hq]
      cases before with
      | none =>
        cases after with
        | none => rfl
        | some slot' => exact hplaced.1
      | some slot =>
        cases after with
        | none => exact hplaced.elim
        | some slot' => exact hplaced.probes
    · subst hslot
      cases after with
      | none => exact hplaced.elim
      | some slot' => exact ⟨slot', rfl, hplaced.dueMono.ge⟩
  | @served held saturated mono slot slot' hdue hserved =>
    have hslot := hinterval slot hp
    have hpos : 0 < slot.intervalMs := by omega
    rcases hserved.probes hpos hdue with ⟨hprobes, hle⟩ | ⟨hprobes, hle⟩
    · refine Or.inl ⟨?_, fun other hother => ?_⟩
      · rw [probesOf, probesOf, hp, hq]
        exact hprobes
      · cases hother
        exact ⟨slot', rfl, hle⟩
    · refine Or.inr ⟨held, saturated, mono, slot, slot', rfl, rfl, rfl, hdue, hserved.later hpos,
        ?_, ?_⟩
      · rw [← hslot]
        exact hle
      · rw [probesOf, probesOf, hp, hq]
        exact hprobes

theorem started_cons_kept {a b : ℚ} (hs : step parser organizationOf p act = some q)
    (hprobes : probesOf ref q = probesOf ref p) :
    started parser organizationOf ref a b p (act :: acts) =
      started parser organizationOf ref a b q acts := by
  have hnone : startedIn ref a b p q act = 0 := by
    cases act with
    | tick held saturated mono =>
      rw [startedIn, hprobes, Nat.sub_self, ite_self]
    | complete _ | reload _ _ _ | promoted _ _ => rfl
  rw [started, hs]
  show startedIn ref a b p q act + _ = _
  rw [hnone, Nat.zero_add]

theorem started_cons_probed {a b mono : ℚ} {held : List ℕ} {saturated : Bool}
    (hs : step parser organizationOf p (.tick held saturated mono) = some q)
    (hprobes : probesOf ref q = probesOf ref p + 1) :
    started parser organizationOf ref a b p (.tick held saturated mono :: acts) =
      (if a ≤ mono ∧ mono < b then 1 else 0) + started parser organizationOf ref a b q acts := by
  rw [started, hs]
  show startedIn ref a b p q _ + _ = _
  rw [startedIn, hprobes, Nat.add_sub_cancel_left]

/-- From a slot that is due at a given time, each probe but the first waits an interval more. -/
theorem started_from {a b : ℚ} (hpos : 0 < intervalMs) {slot : Slot} (htable : Table p)
    (hslot : p.objects ref = some slot)
    (hinterval : (runsFrom parser organizationOf p).Always acts (Interval ref intervalMs))
    (hone : 1 ≤ started parser organizationOf ref a b p acts) :
    slot.dueMono + (started parser organizationOf ref a b p acts - 1 : ℚ) * intervalMs < b := by
  induction acts generalizing p slot with
  | nil => exact absurd hone (by simp [started])
  | cons act acts ih =>
    cases hs : step parser organizationOf p act with
    | none =>
      rw [started, hs] at hone
      exact absurd hone (by simp)
    | some q =>
      obtain ⟨htable', hmoves⟩ := step_moves htable hs
      have hinterval' := hinterval.tail hs
      rcases (hmoves ref).kept_or_probed hpos hinterval.head with
        ⟨hprobes, hkept⟩ | ⟨held, saturated, mono, old, slot', rfl, hold, hslot', hdue, hlater, hle, hprobes⟩
      · obtain ⟨slot', hslot', hle⟩ := hkept slot hslot
        rw [started_cons_kept hs hprobes] at hone ⊢
        have hrest := ih htable' hslot' hinterval' hone
        linarith
      · obtain rfl := Option.some.inj (hslot.symm.trans hold)
        rw [started_cons_probed hs hprobes] at hone ⊢
        by_cases hspan : a ≤ mono ∧ mono < b
        · rw [if_pos hspan] at hone ⊢
          push_cast
          rcases Nat.eq_zero_or_pos (started parser organizationOf ref a b q acts) with hzero | hmore
          · rw [hzero]
            have hbefore := hdue.trans_lt hspan.2
            push_cast
            linarith
          · have hrest := ih htable' hslot' hinterval' hmore
            linarith
        · rw [if_neg hspan, Nat.zero_add] at hone ⊢
          have hrest := ih htable' hslot' hinterval' hone
          have hnonneg : (0 : ℚ) ≤ intervalMs := by positivity
          linarith

/-- In a span of time the second probe comes after its start, and then the next an interval later. -/
theorem started_in_span {a b : ℚ} (hpos : 0 < intervalMs) (htable : Table p)
    (hinterval : (runsFrom parser organizationOf p).Always acts (Interval ref intervalMs))
    (htwo : 2 ≤ started parser organizationOf ref a b p acts) :
    a + (started parser organizationOf ref a b p acts - 2 : ℚ) * intervalMs < b := by
  induction acts generalizing p with
  | nil => exact absurd htwo (by simp [started])
  | cons act acts ih =>
    cases hs : step parser organizationOf p act with
    | none =>
      rw [started, hs] at htwo
      exact absurd htwo (by simp)
    | some q =>
      obtain ⟨htable', hmoves⟩ := step_moves htable hs
      have hinterval' := hinterval.tail hs
      rcases (hmoves ref).kept_or_probed hpos hinterval.head with
        ⟨hprobes, -⟩ | ⟨held, saturated, mono, slot, slot', rfl, -, hslot', -, hlater, -, hprobes⟩
      · rw [started_cons_kept hs hprobes] at htwo ⊢
        exact ih htable' hinterval' htwo
      · rw [started_cons_probed hs hprobes] at htwo ⊢
        by_cases hspan : a ≤ mono ∧ mono < b
        · rw [if_pos hspan] at htwo ⊢
          have hrest := started_from hpos htable' hslot' hinterval' (a := a) (b := b) (by omega)
          push_cast
          linarith [hspan.1]
        · rw [if_neg hspan, Nat.zero_add] at htwo ⊢
          exact ih htable' hinterval' htwo

/-- The part of the due time that the counted boundaries leave. -/
def anchor (slot : Slot) : ℚ :=
  slot.dueMono - slot.intervalMs * (slot.probes + slot.missedSlots : ℚ)

theorem anchor_kept {slot slot' : Slot} (h : Kept slot slot')
    (hinterval : slot'.intervalMs = slot.intervalMs) : anchor slot' = anchor slot := by
  rw [anchor, anchor, h.dueMono, h.probes, h.missedSlots, hinterval]

theorem anchor_run (hpos : 0 < intervalMs) {slot : Slot} (htable : Table p)
    (hslot : p.objects ref = some slot)
    (hinterval : (runsFrom parser organizationOf p).Always acts (Interval ref intervalMs))
    (hheld : (runsFrom parser organizationOf p).EachStep acts (LeaseHeld ref)) {slot' : Slot}
    (hrun : (runsFrom parser organizationOf p).exec acts = some q)
    (hslot' : q.objects ref = some slot') :
    slot.shedSlots < slot'.shedSlots ∨
      slot'.shedSlots = slot.shedSlots ∧ anchor slot' = anchor slot := by
  induction acts generalizing p slot with
  | nil =>
    cases hrun
    obtain rfl := Option.some.inj (hslot.symm.trans hslot')
    exact Or.inr ⟨rfl, rfl⟩
  | cons act acts ih =>
    obtain ⟨r, hs, hrest⟩ := Option.bind_eq_some_iff.mp hrun
    obtain ⟨htable', hmoves⟩ := step_moves htable hs
    have hslotInterval := hinterval.head slot hslot
    have hmoved := hmoves ref
    rw [hslot] at hmoved
    generalize hnext : r.objects ref = after at hmoved
    have hlater : ∀ next, r.objects ref = some next →
        next.shedSlots < slot'.shedSlots ∨
          slot'.shedSlots = next.shedSlots ∧ anchor slot' = anchor next :=
      fun next hnext => ih htable' hnext (hinterval.tail hs) (hheld.tail hs) hrest
    have hsame : ∀ next, r.objects ref = some next → next.intervalMs = slot.intervalMs :=
      fun next hnext => ((hinterval.tail hs).head next hnext).trans hslotInterval.symm
    cases hmoved with
    | placed hplaced =>
      cases after with
      | none => exact hplaced.elim
      | some next =>
        have hkept : Kept slot next := hplaced
        rw [← hkept.shedSlots, ← anchor_kept hkept (hsame next hnext)]
        exact hlater next hnext
    | @served held saturated mono _ next hdue hserved =>
      have hheldHere := hheld.head hs slot hslot
      rcases hserved.phase (by omega) hheldHere with hshed | ⟨hshed, hanchor⟩
      · rcases hlater next hnext with hmore | ⟨hmore, -⟩
        · exact Or.inl (hshed.trans hmore)
        · exact Or.inl (hmore ▸ hshed)
      · have hanchor' : anchor next = anchor slot := by
          rw [anchor, hsame next hnext]
          exact hanchor
        rw [← hshed, ← hanchor']
        exact hlater next hnext

/-- A slot that the run made and never shed is anchored at its first due time. -/
theorem firstDue_run (hpos : 0 < intervalMs) (htable : Table p) (hnone : p.objects ref = none)
    (hinterval : (runsFrom parser organizationOf p).Always acts (Interval ref intervalMs))
    (hheld : (runsFrom parser organizationOf p).EachStep acts (LeaseHeld ref)) {slot : Slot}
    (hrun : (runsFrom parser organizationOf p).exec acts = some q)
    (hslot : q.objects ref = some slot) (hshed : slot.shedSlots = 0) :
    firstDue parser organizationOf ref p acts = some (anchor slot) := by
  induction acts generalizing p with
  | nil =>
    cases hrun
    exact absurd (hnone.symm.trans hslot) (by simp)
  | cons act acts ih =>
    obtain ⟨r, hs, hrest⟩ := Option.bind_eq_some_iff.mp hrun
    have hs : step parser organizationOf p act = some r := hs
    obtain ⟨htable', hmoves⟩ := step_moves htable hs
    have hfirst : firstDue parser organizationOf ref p (act :: acts) =
        firstDue parser organizationOf ref r acts := by
      rw [firstDue, hnone, hs]
      rfl
    rw [hfirst]
    cases hnext : r.objects ref with
    | none => exact ih htable' hnext (hinterval.tail hs) (hheld.tail hs) hrest
    | some made =>
      have hmade := hmoves ref
      rw [hnone, hnext] at hmade
      cases hmade with
      | placed hplaced =>
        obtain ⟨hprobes, hmissed, hshedMade⟩ := hplaced
        rcases anchor_run hpos htable' hnext (hinterval.tail hs) (hheld.tail hs) hrest hslot with
          hmore | ⟨-, hanchor⟩
        · omega
        · have hdue : firstDue parser organizationOf ref r acts = some made.dueMono := by
            cases acts with
            | nil => rw [firstDue, hnext, Option.map_some]
            | cons a rest => rw [firstDue, hnext]
          rw [hdue, hanchor, anchor, hprobes, hmissed]
          simp


/-- In every run in which the interval of a slot is fixed, a pass leaves the slot due after its time,
a span of time sees no burst of probes of it, and unless it is shed its due time is the first one and
an interval for each boundary that was probed or missed. -/
theorem cadence_kept {mono : ℚ} (hpos : 0 < intervalMs)
    (hinterval : (machine parser organizationOf mono).Always acts (Interval ref intervalMs)) :
    (machine parser organizationOf mono).EachMove acts (fun p act q =>
      ∀ held saturated now, act = .tick held saturated now → ref ∈ due p now →
        ∃ slot, q.objects ref = some slot ∧ now < slot.dueMono) ∧
    (∀ a length : ℚ, 0 ≤ length →
      (started parser organizationOf ref a (a + length) (start mono) acts : ℤ) ≤
        ⌊length / intervalMs⌋ + 2) ∧
    ((machine parser organizationOf mono).EachStep acts (LeaseHeld ref) →
      ∀ p slot, (machine parser organizationOf mono).exec acts = some p →
        p.objects ref = some slot → slot.shedSlots = 0 →
        ∃ first, firstDue parser organizationOf ref (start mono) acts = some first ∧
          slot.dueMono = first + intervalMs * (slot.probes + slot.missedSlots)) := by
  have hreachable : ∀ p, (machine parser organizationOf mono).Reachable p → Table p := by
    intro p hp
    exact hp.induct (table_start mono) fun s a t _ h hs =>
      (step_moves (show Table s from h) (show step parser organizationOf s a = some t from hs)).1
  refine ⟨?_, fun a length hlength => ?_, fun hheld p slot hp hslot hshed => ?_⟩
  · rintro visited act hpre p q hp hs held saturated now rfl href
    cases hs
    obtain ⟨slot, slot', hslot, -, hslot', hserved⟩ :=
      tick_served (hreachable p ⟨visited, hp⟩) held saturated href
    refine ⟨slot', hslot', hserved.later ?_⟩
    rw [hinterval visited ((List.prefix_append visited _).trans hpre) p hp slot hslot]
    exact hpos
  · have hposQ : (0 : ℚ) < intervalMs := by exact_mod_cast hpos
    by_cases htwo : 2 ≤ started parser organizationOf ref a (a + length) (start mono) acts
    · have hspan := started_in_span hpos (table_start mono) hinterval htwo
      have hle : ((started parser organizationOf ref a (a + length) (start mono) acts : ℤ) - 2 : ℤ) ≤
          ⌊length / intervalMs⌋ := by
        rw [Int.le_floor, le_div_iff₀ hposQ]
        push_cast
        linarith
      omega
    · have hnonneg := Int.floor_nonneg.mpr (div_nonneg hlength hposQ.le)
      omega
  · refine ⟨anchor slot, firstDue_run hpos (table_start mono) rfl hinterval hheld hp hslot hshed, ?_⟩
    rw [anchor, hinterval acts (List.prefix_refl _) p hp slot hslot]
    ring

end Run

/-! ### A run with a stall -/

/-- The slot is due at 375 ms and served; its probe ends, and the next pass comes after three more
boundaries. -/
def stalled : List Action :=
  [.reload [port5432] allShards 0, .tick allShards false 400, .complete ⟨0, js "a", "o",
    js "db.internal:5432"⟩, .tick allShards false 2400]

def intervalOf500 (p : Plane) : Bool := (p.objects 0).all fun slot => slot.intervalMs = 500

theorem intervalOf500_spec (p : Plane) (h : intervalOf500 p = true) : Interval 0 500 p := by
  intro slot hslot
  rw [intervalOf500, hslot] at h
  exact of_decide_eq_true h

def leaseHeld (p : Plane) : Action → Bool
  | .tick held _ _ => (p.objects 0).all fun slot => held.contains (shardOf slot.monitor.id)
  | _ => true

theorem leaseHeld_spec (p : Plane) (a : Action) (h : leaseHeld p a = true) : LeaseHeld 0 p a := by
  cases a with
  | tick held _ _ =>
    intro slot hslot
    rw [leaseHeld, hslot] at h
    exact List.contains_iff_mem.mp h
  | complete _ | reload _ _ _ | promoted _ _ => trivial

def clockOf (p : Plane) : Option (ℚ × ℕ × ℕ × ℕ) :=
  (p.objects 0).map fun slot => (slot.dueMono, slot.probes, slot.missedSlots, slot.shedSlots)

theorem cadence_kept_stalled :
    started noUrls (fun _ => "o") 0 0 3000 (start 0) stalled ≤ 8 ∧
    ∃ first, firstDue noUrls (fun _ => "o") 0 (start 0) stalled = some first ∧
      (2875 : ℚ) = first + 500 * (2 + 3) := by
  have hkept := @cadence_kept noUrls (fun _ => "o") 0 500 stalled 0 (by decide)
    (Machine.Always.of_checks intervalOf500_spec (by decide +kernel))
  have hrun : ((machine noUrls (fun _ => "o") 0).exec stalled).map clockOf =
      some (some (2875, 2, 3, 0)) := by decide +kernel
  obtain ⟨p, hp, hclock⟩ := Option.map_eq_some_iff.mp hrun
  obtain ⟨slot, hslot, hvalues⟩ := Option.map_eq_some_iff.mp hclock
  simp only [Prod.mk.injEq] at hvalues
  obtain ⟨hdue, hprobes, hmissed, hshed⟩ := hvalues
  constructor
  · have hspan := hkept.2.1 0 3000 (by norm_num)
    have hfloor : ⌊(3000 : ℚ) / ((500 : ℕ) : ℚ)⌋ = 6 := by norm_num
    rw [hfloor, zero_add] at hspan
    omega
  · obtain ⟨first, hfirst, heq⟩ := hkept.2.2
      (Machine.EachStep.of_checks leaseHeld_spec (by decide +kernel)) p slot hp hslot hshed
    rw [hdue, hprobes, hmissed] at heq
    exact ⟨first, hfirst, by exact_mod_cast heq⟩

end Vigil.HighFreq.Cadence
