import Vigil.HighFreq.Slots
import Vigil.Lib.Run

/-! The in-flight accounting of the high-frequency plane over every interleaving of ticks, completions,
reloads and promotions.  A probe takes its keys off the slot when it starts and again when it
completes, and a reload may write the slot, or make another one for the monitor, in between. -/

namespace Vigil.HighFreq.InFlight

open Lib Js.Text Net.Egress Leases Slots

inductive Action where
  | tick (held : List ℕ) (saturated : Bool) (mono : ℚ)
  | complete (done : Probe)
  | reload (rows : List Monitor) (held : List ℕ) (mono : ℚ)
  | promoted (ref : ℕ) (updated : Monitor)

section

variable (parser : UrlParser) (organizationOf : JsString → String)

/-- What a row of the database is: no update writes the organization of a monitor. -/
def Stored (row : Monitor) : Prop := row.organizationId = organizationOf row.id

instance (row : Monitor) : Decidable (Stored organizationOf row) :=
  inferInstanceAs (Decidable (_ = _))

def step (p : Plane) : Action → Option Plane
  | .tick held saturated mono => some (tick p held saturated mono)
  | .complete done => if done ∈ p.inFlight then some (complete p done) else none
  | .reload rows held mono =>
    if (rows.map (·.id)).Nodup ∧ ∀ row ∈ rows, Stored organizationOf row then
      some (rebuild parser p rows held mono)
    else none
  | .promoted ref updated => do
    let slot ← p.objects ref
    if updated.id = slot.monitor.id ∧ Stored organizationOf updated then
      some (promoted p ref updated)
    else none

def machine (mono : ℚ) : Machine Plane Action where
  init := start mono
  step := step parser organizationOf

end

/-! ### The accounting -/

/-- Each key counts the open probes that were charged to it. -/
def Counts {κ : Type} [DecidableEq κ] (counts : κ → ℕ) (chargedTo : Probe → κ)
    (inFlight : List Probe) : Prop :=
  ∀ key, counts key = inFlight.countP fun probe => chargedTo probe = key

structure Accounted (p : Plane) : Prop where
  perOrg : Counts p.inFlightPerOrg (·.organizationId) p.inFlight
  perTarget : Counts p.inFlightPerTarget (·.targetKey) p.inFlight
  idle : p.inFlight = [] → (∀ key, p.inFlightPerOrg key = 0) ∧ ∀ key, p.inFlightPerTarget key = 0
  oneProbe : (p.inFlight.map (·.monitorId)).Nodup

/-- A probe of the monitor that is open belongs to the slot in the table, and the row has the target
that the probe was charged to. -/
def Unmoved (parser : UrlParser) (p : Plane) (row : Monitor) : Prop :=
  ∀ probe ∈ p.inFlight, probe.monitorId = row.id →
    p.slotOf row.id = some probe.slot ∧ targetKeyOf parser row = probe.targetKey

/-- The rows that a reload places leave every open probe its slot and its target. -/
def ReloadsUnmoved (parser : UrlParser) (p : Plane) : Action → Prop
  | .reload rows held _ =>
    ∀ row ∈ (rows.filter fun row => held.contains (shardOf row.id)).take maxMonitorsPerWorker,
      Unmoved parser p row
  | _ => True

section Counts

variable {κ : Type} [DecidableEq κ] {counts : κ → ℕ} {chargedTo : Probe → κ} {inFlight : List Probe}

theorem Counts.charge (h : Counts counts chargedTo inFlight) (probe : Probe) :
    Counts (bump counts (chargedTo probe) 1) chargedTo (probe :: inFlight) := by
  intro key
  rw [List.countP_cons, ← h key, bump]
  by_cases hkey : key = chargedTo probe
  · subst hkey
    rw [Function.update_self, if_pos (decide_eq_true rfl)]
    omega
  · rw [Function.update_of_ne hkey, if_neg (by simpa using fun hk => hkey hk.symm), Nat.add_zero]

theorem Counts.discharge (h : Counts counts chargedTo inFlight) {probe : Probe}
    (hprobe : probe ∈ inFlight) :
    Counts (bump counts (chargedTo probe) (-1)) chargedTo (inFlight.erase probe) := by
  intro key
  have hcount := (List.perm_cons_erase hprobe).countP_eq fun probe => decide (chargedTo probe = key)
  rw [← h key, List.countP_cons] at hcount
  rw [bump]
  by_cases hkey : key = chargedTo probe
  · subst hkey
    rw [if_pos (decide_eq_true rfl)] at hcount
    rw [Function.update_self]
    omega
  · rw [if_neg (by simpa using fun hk => hkey hk.symm)] at hcount
    rw [Function.update_of_ne hkey]
    omega

end Counts

/-! ### The invariant -/

/-- A slot that carries the keys of an open probe. -/
structure Carries (slot : Slot) (probe : Probe) : Prop where
  inFlight : slot.inFlight = true
  id : slot.monitor.id = probe.monitorId
  organizationId : slot.monitor.organizationId = probe.organizationId
  targetKey : slot.targetKey = probe.targetKey

structure Inv (organizationOf : JsString → String) (p : Plane) : Prop where
  perOrg : Counts p.inFlightPerOrg (·.organizationId) p.inFlight
  perTarget : Counts p.inFlightPerTarget (·.targetKey) p.inFlight
  oneProbe : (p.inFlight.map (·.monitorId)).Nodup
  carried : ∀ probe ∈ p.inFlight, ∃ slot, p.objects probe.slot = some slot ∧ Carries slot probe
  made : ∀ ref slot, p.objects ref = some slot →
    ref < p.nextRef ∧ Stored organizationOf slot.monitor
  table : ∀ entry ∈ p.slots, ∃ slot, p.objects entry.2 = some slot ∧ slot.monitor.id = entry.1
  oneSlot : (p.slots.map (·.1)).Nodup
  /-- The table has no other slot for the monitor of an open probe. -/
  current : ∀ probe ∈ p.inFlight, ∀ entry ∈ p.slots, entry.1 = probe.monitorId →
    entry.2 = probe.slot

variable {organizationOf : JsString → String} {p : Plane}

theorem Inv.start (mono : ℚ) : Inv organizationOf (start mono) where
  perOrg _ := rfl
  perTarget _ := rfl
  oneProbe := List.nodup_nil
  carried _ h := absurd h List.not_mem_nil
  made _ _ h := by cases h
  table _ h := absurd h List.not_mem_nil
  oneSlot := List.nodup_nil
  current _ h := absurd h List.not_mem_nil

theorem Inv.accounted (h : Inv organizationOf p) : Accounted p where
  perOrg := h.perOrg
  perTarget := h.perTarget
  idle hidle := by
    refine ⟨fun key => ?_, fun key => ?_⟩
    · rw [h.perOrg key, hidle, List.countP_nil]
    · rw [h.perTarget key, hidle, List.countP_nil]
  oneProbe := h.oneProbe

theorem Inv.of_eq {q : Plane} (h : Inv organizationOf p) (hobjects : q.objects = p.objects)
    (hnext : q.nextRef = p.nextRef) (hslots : q.slots = p.slots)
    (horg : q.inFlightPerOrg = p.inFlightPerOrg) (htarget : q.inFlightPerTarget = p.inFlightPerTarget)
    (hinFlight : q.inFlight = p.inFlight) : Inv organizationOf q := by
  obtain ⟨perOrg, perTarget, oneProbe, carried, made, table, oneSlot, current⟩ := h
  rw [← hinFlight] at perOrg perTarget oneProbe carried current
  rw [← horg] at perOrg
  rw [← htarget] at perTarget
  rw [← hobjects] at carried made table
  rw [← hnext] at made
  rw [← hslots] at table oneSlot current
  exact ⟨perOrg, perTarget, oneProbe, carried, made, table, oneSlot, current⟩

variable {ref : ℕ} {slot slot' : Slot} {mono : ℚ}

theorem setSlot_objects_self :
    (p.setSlot ref slot).objects ref = some slot := Function.update_self ..

theorem setSlot_objects_of_ne {ref other : ℕ} (h : other ≠ ref) :
    (p.setSlot ref slot).objects other = p.objects other := Function.update_of_ne h ..

theorem Inv.carries_slot (h : Inv organizationOf p) {probe : Probe} (hprobe : probe ∈ p.inFlight)
    (hslot : p.objects probe.slot = some slot) : Carries slot probe := by
  obtain ⟨old, hold, hcarries⟩ := h.carried probe hprobe
  obtain rfl : slot = old := Option.some.inj (hslot.symm.trans hold)
  exact hcarries

theorem Inv.made_setSlot (h : Inv organizationOf p) (hslot : p.objects ref = some slot)
    (hstored : Stored organizationOf slot'.monitor) :
    ∀ other made, (p.setSlot ref slot').objects other = some made →
      other < p.nextRef ∧ Stored organizationOf made.monitor := by
  intro other made hmade
  by_cases href : other = ref
  · subst href
    obtain rfl : slot' = made := Option.some.inj (setSlot_objects_self.symm.trans hmade)
    exact ⟨(h.made _ _ hslot).1, hstored⟩
  · exact h.made other made ((setSlot_objects_of_ne href).symm.trans hmade)

theorem Inv.table_setSlot (h : Inv organizationOf p) (hslot : p.objects ref = some slot)
    (hid : slot'.monitor.id = slot.monitor.id) :
    ∀ entry ∈ p.slots, ∃ slot, (p.setSlot ref slot').objects entry.2 = some slot ∧
      slot.monitor.id = entry.1 := by
  intro entry hentry
  obtain ⟨old, hold, hname⟩ := h.table entry hentry
  by_cases href : entry.2 = ref
  · subst href
    obtain rfl : slot = old := Option.some.inj (hslot.symm.trans hold)
    exact ⟨slot', setSlot_objects_self, hid.trans hname⟩
  · exact ⟨old, (setSlot_objects_of_ne href).trans hold, hname⟩

/-- A slot may be written as long as an open probe finds its keys on it. -/
theorem Inv.setSlot (h : Inv organizationOf p) (hslot : p.objects ref = some slot)
    (hid : slot'.monitor.id = slot.monitor.id) (hstored : Stored organizationOf slot'.monitor)
    (hinFlight : slot'.inFlight = slot.inFlight)
    (hkey : ∀ probe ∈ p.inFlight, probe.slot = ref → slot'.targetKey = probe.targetKey) :
    Inv organizationOf (p.setSlot ref slot') where
  perOrg := h.perOrg
  perTarget := h.perTarget
  oneProbe := h.oneProbe
  carried probe hprobe := by
    obtain ⟨old, hold, hcarries⟩ := h.carried probe hprobe
    by_cases href : probe.slot = ref
    · subst href
      obtain rfl : slot = old := Option.some.inj (hslot.symm.trans hold)
      refine ⟨slot', setSlot_objects_self, ?_⟩
      exact {
        inFlight := hinFlight.trans hcarries.inFlight
        id := hid.trans hcarries.id
        organizationId := by
          rw [hstored, hid, ← (h.made _ _ hslot).2, hcarries.organizationId]
        targetKey := hkey probe hprobe rfl }
    · exact ⟨old, (setSlot_objects_of_ne href).trans hold, hcarries⟩
  made := h.made_setSlot hslot hstored
  table := h.table_setSlot hslot hid
  oneSlot := h.oneSlot
  current := h.current

/-! ### Tick -/

theorem refuse_spec {slot : Slot} {saturated : Bool} {mono : ℚ} :
    (∃ bucket, (refuse p slot saturated mono).1 = { p with bucket }) ∧
      ((refuse p slot saturated mono).2 = none → slot.inFlight = false) := by
  unfold refuse
  split
  · exact ⟨⟨p.bucket, rfl⟩, by simp⟩
  · rename_i hfree
    have hfree : slot.inFlight = false := Bool.eq_false_iff.mpr hfree
    split
    · exact ⟨⟨p.bucket, rfl⟩, fun _ => hfree⟩
    · split
      · exact ⟨⟨p.bucket, rfl⟩, fun _ => hfree⟩
      · split
        · exact ⟨⟨p.bucket, rfl⟩, fun _ => hfree⟩
        · exact ⟨⟨_, rfl⟩, fun _ => hfree⟩

theorem advance_spec {ref : ℕ} {slot : Slot} {mono : ℚ} {refusal : Option Refusal} :
    ∃ slot' missedSlots shedSlots,
      advance p ref slot mono refusal = { p.setSlot ref slot' with missedSlots, shedSlots } ∧
        slot'.monitor = slot.monitor ∧ slot'.inFlight = slot.inFlight ∧
        slot'.targetKey = slot.targetKey := by
  unfold advance
  split
  · exact ⟨_, _, _, rfl, rfl, rfl, rfl⟩
  · exact ⟨_, _, _, rfl, rfl, rfl, rfl⟩

theorem Inv.advance (h : Inv organizationOf p) {refusal : Option Refusal}
    (hslot : p.objects ref = some slot) : Inv organizationOf (advance p ref slot mono refusal) := by
  obtain ⟨slot', missedSlots, shedSlots, hadvance, hmonitor, hinFlight, hkey⟩ := advance_spec
  rw [hadvance]
  have hset : Inv organizationOf (p.setSlot ref slot') := by
    refine h.setSlot hslot (by rw [hmonitor]) ?_ hinFlight ?_
    · rw [hmonitor]
      exact (h.made _ _ hslot).2
    · rintro probe hprobe rfl
      exact hkey.trans (h.carries_slot hprobe hslot).targetKey
  exact hset.of_eq rfl rfl rfl rfl rfl rfl

/-- A free slot of the table has no open probe of its monitor, so its probe is the only one. -/
theorem Inv.probe (h : Inv organizationOf p) (hslot : p.objects ref = some slot)
    (hentry : (slot.monitor.id, ref) ∈ p.slots) (hfree : slot.inFlight = false) :
    Inv organizationOf (probe p ref) := by
  have hother : ∀ open_ ∈ p.inFlight, open_.slot ≠ ref := by
    rintro open_ hopen rfl
    have hbusy := (h.carries_slot hopen hslot).inFlight
    exact absurd (hfree.symm.trans hbusy) Bool.false_ne_true
  have hfirst : ∀ open_ ∈ p.inFlight, open_.monitorId ≠ slot.monitor.id := by
    intro open_ hopen hid
    exact hother open_ hopen (h.current open_ hopen _ hentry hid.symm).symm
  rw [Slots.probe, hslot]
  exact {
    perOrg := h.perOrg.charge ⟨ref, slot.monitor.id, slot.monitor.organizationId, slot.targetKey⟩
    perTarget :=
      h.perTarget.charge ⟨ref, slot.monitor.id, slot.monitor.organizationId, slot.targetKey⟩
    oneProbe := by
      rw [List.map_cons, List.nodup_cons]
      refine ⟨fun hmem => ?_, h.oneProbe⟩
      obtain ⟨open_, hopen, hid⟩ := List.mem_map.mp hmem
      exact hfirst open_ hopen hid
    carried := by
      intro open_ hopen
      rcases List.mem_cons.mp hopen with rfl | hopen
      · exact ⟨_, setSlot_objects_self, rfl, rfl, rfl, rfl⟩
      · obtain ⟨old, hold, hcarries⟩ := h.carried open_ hopen
        exact ⟨old, (setSlot_objects_of_ne (hother open_ hopen)).trans hold, hcarries⟩
    made := h.made_setSlot hslot (h.made _ _ hslot).2
    table := h.table_setSlot hslot rfl
    oneSlot := h.oneSlot
    current := by
      intro open_ hopen entry hentry' hid
      rcases List.mem_cons.mp hopen with rfl | hopen
      · exact congrArg Prod.snd (List.inj_on_of_nodup_map h.oneSlot hentry' hentry hid)
      · exact h.current open_ hopen entry hentry' hid }

/-- A due slot moves on, and its probe starts if the shard is held and the slot is free. -/
theorem serve_spec {held : List ℕ} {saturated : Bool} {mono : ℚ} {ref : ℕ} {slot : Slot}
    (hslot : p.objects ref = some slot) :
    ∃ bucket,
      (∃ refusal, serve held saturated mono p ref = advance { p with bucket } ref slot mono refusal) ∨
      shardOf slot.monitor.id ∈ held ∧ slot.inFlight = false ∧
        serve held saturated mono p ref = probe (advance { p with bucket } ref slot mono none) ref := by
  obtain ⟨⟨bucket, hbucket⟩, hfree⟩ := @refuse_spec p slot saturated mono
  unfold serve
  rw [hslot]
  dsimp only
  split
  · exact ⟨p.bucket, .inl ⟨none, rfl⟩⟩
  · rename_i hheld
    refine ⟨bucket, ?_⟩
    rw [hbucket]
    cases hrefusal : (refuse p slot saturated mono).2 with
    | some refusal => exact .inl ⟨some refusal, rfl⟩
    | none => exact .inr ⟨by simpa using hheld, hfree hrefusal, rfl⟩

theorem advance_slots {refusal : Option Refusal} :
    (advance p ref slot mono refusal).slots = p.slots := by
  obtain ⟨slot', missedSlots, shedSlots, hadvance, -⟩ := @advance_spec p ref slot mono refusal
  rw [hadvance]
  rfl

theorem Inv.serve (h : Inv organizationOf p) {held : List ℕ} {saturated : Bool}
    (href : ref ∈ p.slots.map (·.2)) : Inv organizationOf (serve held saturated mono p ref) ∧
      (serve held saturated mono p ref).slots = p.slots := by
  obtain ⟨⟨id, ref⟩, hentry, rfl⟩ := List.mem_map.mp href
  obtain ⟨slot, hslot, rfl⟩ := h.table _ hentry
  obtain ⟨bucket, ⟨refusal, hserve⟩ | ⟨-, hfree, hserve⟩⟩ :=
    @serve_spec p held saturated mono ref slot hslot
  · have hbase : Inv organizationOf { p with bucket } := h.of_eq rfl rfl rfl rfl rfl rfl
    rw [hserve]
    exact ⟨hbase.advance hslot, advance_slots⟩
  · have hbase : Inv organizationOf { p with bucket } := h.of_eq rfl rfl rfl rfl rfl rfl
    have hinv : Inv organizationOf (Slots.advance { p with bucket } ref slot mono none) :=
      hbase.advance hslot
    obtain ⟨slot', missedSlots, shedSlots, hadvance, hmonitor, hinFlight, -⟩ :=
      @advance_spec { p with bucket } ref slot mono none
    have hobject : (Slots.advance { p with bucket } ref slot mono none).objects ref = some slot' := by
      rw [hadvance]
      exact setSlot_objects_self
    rw [hserve]
    refine ⟨hinv.probe hobject ?_ (hinFlight.trans hfree), ?_⟩
    · rw [advance_slots, hmonitor]
      exact hentry
    · rw [Slots.probe, hobject]
      exact advance_slots

theorem mem_due (h : ref ∈ due p mono) : ref ∈ p.slots.map (·.2) := by
  simp only [due, List.mem_map, List.mem_insertionSort, List.mem_filterMap] at h
  obtain ⟨_, ⟨entry, hentry, hdue⟩, rfl⟩ := h
  obtain ⟨slot, -, rfl⟩ := Option.map_eq_some_iff.mp hdue
  exact List.mem_map_of_mem hentry

theorem Inv.serveAll (h : Inv organizationOf p) {held : List ℕ} {saturated : Bool} {refs : List ℕ}
    (hrefs : ∀ ref ∈ refs, ref ∈ p.slots.map (·.2)) :
    Inv organizationOf (refs.foldl (Slots.serve held saturated mono) p) := by
  induction refs generalizing p with
  | nil => exact h
  | cons ref rest ih =>
    obtain ⟨hinv, hslots⟩ := h.serve (hrefs ref List.mem_cons_self)
    refine ih hinv fun other hother => ?_
    rw [hslots]
    exact hrefs other (List.mem_cons_of_mem _ hother)

theorem Inv.tick (h : Inv organizationOf p) (held : List ℕ) (saturated : Bool) (mono : ℚ) :
    Inv organizationOf (tick p held saturated mono) := h.serveAll fun _ => mem_due

/-! ### Completion and promotion -/

theorem Inv.slot_ne (h : Inv organizationOf p) {probe other : Probe} (hprobe : probe ∈ p.inFlight)
    (hother : other ∈ p.inFlight) (hne : other ≠ probe) : other.slot ≠ probe.slot := by
  intro hslot
  obtain ⟨slot, hobject, hcarries⟩ := h.carried probe hprobe
  have hcarries' : Carries slot other := h.carries_slot hother (hslot ▸ hobject)
  exact hne (List.inj_on_of_nodup_map h.oneProbe hother hprobe
    (hcarries'.id.symm.trans hcarries.id))

theorem Inv.complete (h : Inv organizationOf p) {done : Probe} (hdone : done ∈ p.inFlight) :
    Inv organizationOf (complete p done) := by
  obtain ⟨slot, hslot, hcarries⟩ := h.carried done hdone
  have hnodup : p.inFlight.Nodup := h.oneProbe.of_map _
  have hmem : ∀ other, other ∈ p.inFlight.erase done → other ≠ done ∧ other ∈ p.inFlight :=
    fun other hother => hnodup.mem_erase_iff.mp hother
  rw [Slots.complete, hslot]
  exact {
    perOrg := by
      show Counts (bump _ slot.monitor.organizationId (-1)) _ _
      rw [hcarries.organizationId]
      exact h.perOrg.discharge hdone
    perTarget := by
      show Counts (bump _ slot.targetKey (-1)) _ _
      rw [hcarries.targetKey]
      exact h.perTarget.discharge hdone
    oneProbe := (List.erase_sublist.map _).nodup h.oneProbe
    carried := by
      intro other hother
      obtain ⟨hne, hother⟩ := hmem other hother
      obtain ⟨old, hold, hcarries⟩ := h.carried other hother
      exact ⟨old, (setSlot_objects_of_ne (h.slot_ne hdone hother hne)).trans hold, hcarries⟩
    made := h.made_setSlot hslot (h.made _ _ hslot).2
    table := h.table_setSlot hslot rfl
    oneSlot := h.oneSlot
    current := fun other hother => h.current other (hmem other hother).2 }

theorem Inv.promoted (h : Inv organizationOf p) {updated : Monitor}
    (hslot : p.objects ref = some slot) (hid : updated.id = slot.monitor.id)
    (hstored : Stored organizationOf updated) : Inv organizationOf (promoted p ref updated) := by
  rw [Slots.promoted, hslot]
  refine h.setSlot hslot hid hstored rfl ?_
  rintro probe hprobe rfl
  exact (h.carries_slot hprobe hslot).targetKey

end Vigil.HighFreq.InFlight
