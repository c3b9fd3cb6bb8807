import Vigil.HighFreq.InFlight

/-! The in-flight accounting over whole runs: what a reload does to the probes that are open, and the
runs in which it does them no harm. -/

namespace Vigil.HighFreq.Accounting

open Lib Js.Text Net.Egress Leases Slots InFlight

variable {organizationOf : JsString → String} {p : Plane}

/-! ### Reload -/

variable {monitorId : JsString} {parser : UrlParser} {mono : ℚ}

theorem slotOf_eq_some {ref : ℕ} (h : p.slotOf monitorId = some ref) :
    (monitorId, ref) ∈ p.slots := by
  obtain ⟨entry, hfound, rfl⟩ := Option.map_eq_some_iff.mp h
  have hid : entry.1 = monitorId := by simpa using List.find?_some hfound
  exact hid ▸ List.mem_of_find?_eq_some hfound

theorem slotOf_eq_none (h : p.slotOf monitorId = none) : monitorId ∉ p.slots.map (·.1) := by
  intro hmem
  obtain ⟨entry, hentry, hid⟩ := List.mem_map.mp hmem
  have hnot := List.find?_eq_none.mp (Option.map_eq_none_iff.mp h) entry hentry
  exact hnot (decide_eq_true hid)

theorem place_inFlight (parser : UrlParser) (mono : ℚ) (p : Plane) (row : Monitor) :
    (place parser mono p row).inFlight = p.inFlight := by
  unfold place
  dsimp only
  split
  · split <;> rfl
  · rfl

theorem place_slotOf_of_ne (parser : UrlParser) (mono : ℚ) (p : Plane) {row : Monitor}
    (h : monitorId ≠ row.id) : (place parser mono p row).slotOf monitorId = p.slotOf monitorId := by
  unfold place
  dsimp only
  split
  · split <;> rfl
  · have hrow : ¬ row.id = monitorId := fun hid => h hid.symm
    simp [Plane.slotOf, List.find?_append, hrow]

theorem place_inv (h : Inv organizationOf p) {row : Monitor} (hrow : Stored organizationOf row)
    (hunmoved : Unmoved parser p row) : Inv organizationOf (place parser mono p row) := by
  unfold place
  dsimp only
  split
  · rename_i ref href
    obtain ⟨slot, hslot, hid⟩ := h.table _ (slotOf_eq_some href)
    dsimp only at hslot hid
    rw [hslot]
    refine h.setSlot hslot hid.symm hrow rfl ?_
    rintro probe hprobe rfl
    have hcarries := h.carries_slot hprobe hslot
    exact (hunmoved probe hprobe (hcarries.id.symm.trans hid)).2
  · rename_i hnone
    have hfresh : ∀ ref slot, p.objects ref = some slot → ref ≠ p.nextRef :=
      fun ref slot hslot => (h.made ref slot hslot).1.ne
    exact {
      perOrg := h.perOrg
      perTarget := h.perTarget
      oneProbe := h.oneProbe
      carried := by
        intro probe hprobe
        obtain ⟨slot, hslot, hcarries⟩ := h.carried probe hprobe
        exact ⟨slot, (setSlot_objects_of_ne (hfresh _ _ hslot)).trans hslot, hcarries⟩
      made := by
        intro ref slot hslot
        by_cases href : ref = p.nextRef
        · subst href
          obtain rfl := Option.some.inj (setSlot_objects_self.symm.trans hslot)
          exact ⟨Nat.lt_succ_self _, hrow⟩
        · obtain ⟨hlt, hstored⟩ := h.made ref slot ((setSlot_objects_of_ne href).symm.trans hslot)
          exact ⟨hlt.trans (Nat.lt_succ_self _), hstored⟩
      table := by
        intro entry hentry
        rcases List.mem_append.mp hentry with hentry | hentry
        · obtain ⟨slot, hslot, hid⟩ := h.table entry hentry
          exact ⟨slot, (setSlot_objects_of_ne (hfresh _ _ hslot)).trans hslot, hid⟩
        · obtain rfl := List.mem_singleton.mp hentry
          exact ⟨_, setSlot_objects_self, rfl⟩
      oneSlot := by
        rw [List.map_append, List.map_singleton, List.nodup_append]
        refine ⟨h.oneSlot, List.nodup_singleton _, ?_⟩
        rintro old hold new hnew rfl
        obtain rfl := List.mem_singleton.mp hnew
        exact slotOf_eq_none hnone hold
      current := by
        intro probe hprobe entry hentry hid
        rcases List.mem_append.mp hentry with hentry | hentry
        · exact h.current probe hprobe entry hentry hid
        · obtain rfl := List.mem_singleton.mp hentry
          -- a new slot for the monitor of an open probe is what the condition excludes
          obtain ⟨hslot, -⟩ := hunmoved probe hprobe hid.symm
          exact absurd (hnone.symm.trans hslot) (by simp) }

theorem placeAll_inv {mine : List Monitor} {keep : List JsString} (h : Inv organizationOf p)
    (hids : (keep ++ mine.map (·.id)).Nodup) (hstored : ∀ row ∈ mine, Stored organizationOf row)
    (hunmoved : ∀ row ∈ mine.take (maxMonitorsPerWorker - keep.length), Unmoved parser p row) :
    Inv organizationOf (placeAll parser mono mine p keep).1 := by
  induction mine generalizing p keep with
  | nil => exact h
  | cons row rest ih =>
    rw [placeAll]
    split
    · exact h
    · rename_i hroom
      obtain ⟨room, hroom⟩ : ∃ room, maxMonitorsPerWorker - keep.length = room + 1 :=
        ⟨maxMonitorsPerWorker - keep.length - 1, by omega⟩
      rw [hroom, List.take_succ_cons] at hunmoved
      have hnew : row.id ∉ keep := by
        intro hmem
        have hdisjoint := List.disjoint_of_nodup_append hids
        exact hdisjoint hmem (by simp)
      have hlength : maxMonitorsPerWorker - (keep ++ [row.id]).length = room := by
        rw [List.length_append, List.length_singleton]
        omega
      have hrest : row.id ∉ rest.map (·.id) :=
        (List.nodup_cons.mp (List.Nodup.of_append_right hids)).1
      rw [if_neg (by simpa using hnew)]
      refine ih (place_inv h (hstored row List.mem_cons_self) (hunmoved row List.mem_cons_self)) ?_
        (fun other hother => hstored other (List.mem_cons_of_mem _ hother)) ?_
      · rw [List.append_assoc]
        exact hids
      · -- the rows are of different monitors, so that placing one does not move another
        intro other hother probe hprobe hid
        rw [hlength] at hother
        have hne : other.id ≠ row.id := by
          intro hsame
          exact hrest (hsame ▸ List.mem_map_of_mem (List.mem_of_mem_take hother))
        rw [place_slotOf_of_ne parser mono p hne]
        rw [place_inFlight] at hprobe
        exact hunmoved other (List.mem_cons_of_mem _ hother) probe hprobe hid

theorem rebuild_inv (h : Inv organizationOf p) {rows : List Monitor} {held : List ℕ}
    (hids : (rows.map (·.id)).Nodup) (hstored : ∀ row ∈ rows, Stored organizationOf row)
    (hunmoved : ∀ row ∈ (rows.filter fun row => held.contains (shardOf row.id)).take
      maxMonitorsPerWorker, Unmoved parser p row) :
    Inv organizationOf (rebuild parser p rows held mono) := by
  have hplaced : Inv organizationOf (placeAll parser mono
      (rows.filter fun row => held.contains (shardOf row.id)) p []).1 := by
    refine placeAll_inv h ?_ (fun row hrow => hstored row (List.mem_filter.mp hrow).1) hunmoved
    exact (List.filter_sublist.map _).nodup hids
  exact { hplaced with
    table := fun entry hentry => hplaced.table entry (List.mem_filter.mp hentry).1
    oneSlot := (List.filter_sublist.map _).nodup hplaced.oneSlot
    current := fun probe hprobe entry hentry =>
      hplaced.current probe hprobe entry (List.mem_filter.mp hentry).1 }

/-! ### Runs -/

theorem step_inv {a : Action} {q : Plane} (h : Inv organizationOf p)
    (hunmoved : ReloadsUnmoved parser p a) (hs : step parser organizationOf p a = some q) :
    Inv organizationOf q := by
  cases a with
  | tick held saturated mono =>
    cases hs
    exact h.tick held saturated mono
  | complete done =>
    obtain ⟨hdone, hs⟩ := Option.ite_none_right_eq_some.mp hs
    cases hs
    exact h.complete hdone
  | reload rows held mono =>
    obtain ⟨⟨hids, hstored⟩, hs⟩ := Option.ite_none_right_eq_some.mp hs
    cases hs
    exact rebuild_inv h hids hstored hunmoved
  | promoted ref updated =>
    obtain ⟨slot, hslot, hs⟩ := Option.bind_eq_some_iff.mp hs
    obtain ⟨⟨hid, hstored⟩, hs⟩ := Option.ite_none_right_eq_some.mp hs
    cases hs
    exact h.promoted hslot hid hstored

/-- As long as no reload takes the slot or the target away from a probe that is open, the counters
count the open probes and no monitor has two. -/
theorem accounted_always {parser : UrlParser} {organizationOf : JsString → String} {mono : ℚ}
    {acts : List Action}
    (h : (machine parser organizationOf mono).EachStep acts (ReloadsUnmoved parser)) :
    (machine parser organizationOf mono).Always acts Accounted := by
  have hinv : (machine parser organizationOf mono).Always acts (Inv organizationOf) :=
    Machine.Always.of_eachStep (Inv.start mono)
      (fun _ _ _ _ hinv hunmoved hs => step_inv hinv hunmoved hs) h
  exact fun visited hvisited p hp => (hinv visited hvisited p hp).accounted

/-! ### A reload while a probe is open -/

def oneOrganization : JsString → String := fun _ => "o"

def probeOfPort5432 : Probe := ⟨0, js "a", "o", js "db.internal:5432"⟩

theorem accounted_of_port5432 :
    (machine noUrls oneOrganization 0).Always
      [.reload [port5432] allShards 0, .tick allShards false 400, .reload [port5432] allShards 450,
        .complete probeOfPort5432] Accounted := by
  refine accounted_always (.cons fun p hp => ⟨?_, .cons fun q hq => ⟨trivial, .cons fun _ _ => ⟨?_,
    .cons fun _ _ => ⟨trivial, .nil⟩⟩⟩⟩)
  · intro row _ probe hprobe
    cases hprobe
  · cases hp
    cases hq
    intro row hrow
    obtain rfl : row = port5432 :=
      List.mem_singleton.mp (List.mem_filter.mp (List.mem_of_mem_take hrow)).1
    unfold Unmoved
    decide +kernel

/-- The monitor is retargeted while its probe is open. -/
def retargeted : List Action :=
  [.reload [port5432] allShards 0, .tick allShards false 400,
    .reload [{ port5432 with url := js "db2.internal" }] allShards 450, .complete probeOfPort5432]

/-- The monitor is taken out and put back while its probe is open. -/
def readded : List Action :=
  [.reload [port5432] allShards 0, .tick allShards false 400, .reload [] allShards 450,
    .reload [port5432] allShards 500, .tick allShards false 1000]

/-- The old target is counted for ever, and the monitor has two probes. -/
theorem reload_breaks_accounting :
    (∃ p, (machine noUrls oneOrganization 0).exec retargeted = some p ∧ p.inFlight = [] ∧
      p.inFlightPerTarget (js "db.internal:5432") = 1 ∧ ¬Accounted p) ∧
    ∃ p, (machine noUrls oneOrganization 0).exec readded = some p ∧
      p.inFlight.map (·.monitorId) = [js "a", js "a"] ∧ ¬Accounted p := by
  constructor
  · have hrun : ((machine noUrls oneOrganization 0).exec retargeted).map
        (fun p => (p.inFlight, p.inFlightPerTarget (js "db.internal:5432"))) = some ([], 1) := by
      decide +kernel
    obtain ⟨p, hp, hvalues⟩ := Option.map_eq_some_iff.mp hrun
    obtain ⟨hinFlight, hcount⟩ := Prod.mk.inj hvalues
    refine ⟨p, hp, hinFlight, hcount, fun h => ?_⟩
    exact absurd (hcount.symm.trans ((h.idle hinFlight).2 _)) Nat.one_ne_zero
  · have hrun : ((machine noUrls oneOrganization 0).exec readded).map
        (fun p => p.inFlight.map (·.monitorId)) = some [js "a", js "a"] := by
      decide +kernel
    obtain ⟨p, hp, hids⟩ := Option.map_eq_some_iff.mp hrun
    refine ⟨p, hp, hids, fun h => ?_⟩
    have hone := h.oneProbe
    rw [hids] at hone
    exact absurd hone (by simp)

end Vigil.HighFreq.Accounting
