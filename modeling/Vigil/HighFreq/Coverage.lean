import Vigil.HighFreq.Slots

/-! Which plane probes a monitor: the condition by which the ordinary plane leaves it alone against
the slots that a reload makes. -/

namespace Vigil.HighFreq.Coverage

open Js.Text Net.Egress Monitors.CheckTypes Leases Slots

/-- A worker's plane with its leases. -/
structure Replica where
  ownerId : String
  running : Bool
  wantsLeases : Bool
  leaseEpoch : ℕ
  leases : List Lease
  plane : Plane

/-- `claimNow`, when nothing comes between the claim and its answer. -/
def claimNow (r : Replica) (table : LeaseTable) (dbNow : ℤ) : Replica × LeaseTable :=
  let (table, granted) := claimShards table r.ownerId allShards dbNow
  ({ r with leases := granted }, table)

/-- The leases follow the fleet: the first half of `reload`, from the answer of its query on. -/
def followFleet (r : Replica) (table : LeaseTable) (rows : List Monitor) (wall dbNow : ℤ) :
    Replica × LeaseTable :=
  if rows ≠ [] then
    let r := { r with wantsLeases := true }
    if holdsShards r.leases wall = [] then claimNow r table dbNow else (r, table)
  else if r.wantsLeases || r.leases ≠ [] then
    ({ r with wantsLeases := false, leaseEpoch := r.leaseEpoch + 1, leases := [] },
      releaseShards table r.ownerId (r.leases.map (·.shard)))
  else (r, table)

/-- `wall` and `wall'` are the two readings of the clock, before and after the leases. -/
def reload (parser : UrlParser) (r : Replica) (table : LeaseTable) (rows : List Monitor)
    (wall dbNow wall' : ℤ) (mono : ℚ) : Replica × LeaseTable :=
  if !r.running then (r, table)
  else
    let (r, table) := followFleet r table rows wall dbNow
    ({ r with plane := rebuild parser r.plane rows (holdsShards r.leases wall') mono }, table)

/-- Whether the tick or the check of the ordinary plane passes over a monitor that it would
otherwise probe. -/
def skipped (table : LeaseTable) (now : ℤ) (monitor : Monitor) : Bool :=
  !monitor.paused && isScheduledKind (checkTypeKind monitor.checkType) &&
    highFrequencyClaims (live table now) monitor

def Plane.hasSlot (p : Plane) (monitorId : JsString) : Bool := (p.slotOf monitorId).isSome

/-! ### The slots that a reload makes -/

variable {monitorId : JsString} {parser : UrlParser} {mono : ℚ} {rows : List Monitor}
  {table : LeaseTable}

theorem hasSlot_iff {p : Plane} :
    Plane.hasSlot p monitorId = true ↔ monitorId ∈ p.slots.map (·.1) := by
  simp [Plane.hasSlot, Plane.slotOf, List.find?_isSome]

theorem place_slots (parser : UrlParser) (mono : ℚ) (p : Plane) (monitor : Monitor) :
    p.slots.map (·.1) ⊆ (place parser mono p monitor).slots.map (·.1) ∧
      monitor.id ∈ (place parser mono p monitor).slots.map (·.1) := by
  unfold place
  dsimp only
  split
  · rename_i ref hslot
    have hmem : monitor.id ∈ p.slots.map (·.1) := hasSlot_iff.mp (by simp [Plane.hasSlot, hslot])
    split
    · exact ⟨List.Subset.refl _, hmem⟩
    · exact ⟨List.Subset.refl _, hmem⟩
  · simp

theorem placeAll_slots {mine : List Monitor} {p : Plane} {keep : List JsString}
    (h : keep ⊆ p.slots.map (·.1)) :
    (placeAll parser mono mine p keep).2 ⊆ (placeAll parser mono mine p keep).1.slots.map (·.1) := by
  induction mine generalizing p keep with
  | nil => exact h
  | cons monitor rest ih =>
    rw [placeAll]
    split
    · exact h
    · obtain ⟨hsub, hmem⟩ := place_slots parser mono p monitor
      refine ih ?_
      split
      · exact List.Subset.trans h hsub
      · exact List.append_subset.mpr ⟨List.Subset.trans h hsub, by simpa using hmem⟩

theorem placeAll_keep {mine : List Monitor} {p : Plane} {keep : List JsString}
    (h : (keep ++ mine.map (·.id)).Nodup) (hcap : keep.length ≤ maxMonitorsPerWorker) :
    (placeAll parser mono mine p keep).2 =
      keep ++ (mine.take (maxMonitorsPerWorker - keep.length)).map (·.id) := by
  induction mine generalizing p keep with
  | nil => simp [placeAll]
  | cons monitor rest ih =>
    rw [placeAll]
    split
    · rename_i hfull
      have hzero : maxMonitorsPerWorker - keep.length = 0 := by omega
      rw [hzero]
      simp
    · rename_i hroom
      have hnew : monitor.id ∉ keep := by
        intro hmem
        have hdisjoint := List.disjoint_of_nodup_append h
        exact hdisjoint hmem (by simp)
      obtain ⟨room, hroom⟩ : ∃ room, maxMonitorsPerWorker - keep.length = room + 1 :=
        ⟨maxMonitorsPerWorker - keep.length - 1, by omega⟩
      rw [if_neg (by simpa using hnew), ih]
      · have hlength : maxMonitorsPerWorker - (keep ++ [monitor.id]).length = room := by
          rw [List.length_append, List.length_singleton]
          omega
        rw [hlength, hroom, List.take_succ_cons, List.map_cons, List.append_assoc]
        rfl
      · rw [List.append_assoc]
        exact h
      · rw [List.length_append, List.length_singleton]
        omega

theorem rebuild_hasSlot_iff {p : Plane} {held : List ℕ} (hids : (rows.map (·.id)).Nodup) :
    Plane.hasSlot (rebuild parser p rows held mono) monitorId = true ↔
      monitorId ∈ ((rows.filter fun row => held.contains (shardOf row.id)).take
        maxMonitorsPerWorker).map (·.id) := by
  obtain ⟨mine, hmine⟩ : ∃ mine, mine = rows.filter fun row => held.contains (shardOf row.id) :=
    ⟨_, rfl⟩
  have hnodup : (([] : List JsString) ++ mine.map (·.id)).Nodup := by
    rw [hmine]
    exact (List.filter_sublist.map _).nodup hids
  have hkeep : (placeAll parser mono mine p []).2 =
      (mine.take maxMonitorsPerWorker).map (·.id) := placeAll_keep hnodup (Nat.zero_le _)
  have hslots : (placeAll parser mono mine p []).2 ⊆
      (placeAll parser mono mine p []).1.slots.map (·.1) := placeAll_slots (List.nil_subset _)
  rw [hasSlot_iff, rebuild, ← hmine]
  dsimp only
  rw [← hkeep]
  constructor
  · intro hmem
    obtain ⟨entry, hentry, hid⟩ := List.mem_map.mp hmem
    rw [List.mem_filter, List.contains_iff_mem] at hentry
    exact hid ▸ hentry.2
  · intro hmem
    obtain ⟨entry, hentry, hid⟩ := List.mem_map.mp (hslots hmem)
    refine List.mem_map.mpr ⟨entry, List.mem_filter.mpr ⟨hentry, ?_⟩, hid⟩
    rw [List.contains_iff_mem, hid]
    exact hmem

/-! ### The shards that a reload works with -/

/-- Whether a replica that sees monitors will remember a lease on the shard at `wall'`: it keeps
what it holds at `wall`, and if that is nothing it claims. -/
def Replica.willHold (r : Replica) (table : LeaseTable) (wall dbNow wall' : ℤ) (shard : ℕ) : Bool :=
  if holdsShards r.leases wall = [] then
    allShards.contains shard && claimable table r.ownerId dbNow shard && dbNow + leaseTtlMs > wall'
  else (holdsShards r.leases wall').contains shard

theorem mem_holdsShards_claimShards {ownerId : String} {shards : List ℕ} {dbNow now : ℤ}
    {shard : ℕ} : shard ∈ holdsShards (claimShards table ownerId shards dbNow).2 now ↔
      shard ∈ shards ∧ claimable table ownerId dbNow shard = true ∧ now < dbNow + leaseTtlMs := by
  rw [mem_holdsShards]
  constructor
  · rintro ⟨lease, hmem, rfl, hlive⟩
    obtain ⟨shard, hshard, rfl⟩ := List.mem_map.mp hmem
    exact ⟨(List.mem_filter.mp hshard).1, (List.mem_filter.mp hshard).2, hlive⟩
  · rintro ⟨hshard, hclaimable, hlive⟩
    exact ⟨_, List.mem_map_of_mem (List.mem_filter.mpr ⟨hshard, hclaimable⟩), rfl, hlive⟩

theorem followFleet_holds {r : Replica} {wall dbNow wall' : ℤ} (hrows : rows ≠ []) {shard : ℕ} :
    (holdsShards (followFleet r table rows wall dbNow).1.leases wall').contains shard =
      r.willHold table wall dbNow wall' shard := by
  rw [followFleet, if_pos hrows, Replica.willHold]
  dsimp only
  split
  · rw [Bool.eq_iff_iff, List.contains_iff_mem, claimNow]
    simp only [mem_holdsShards_claimShards, Bool.and_eq_true, List.contains_iff_mem,
      decide_eq_true_eq, and_assoc, gt_iff_lt]
  · rfl

theorem reload_hasSlot_iff {r : Replica} {wall dbNow wall' : ℤ} (hrunning : r.running = true)
    (hids : (rows.map (·.id)).Nodup) :
    Plane.hasSlot (reload parser r table rows wall dbNow wall' mono).1.plane monitorId = true ↔
      monitorId ∈ ((rows.filter fun row =>
        r.willHold table wall dbNow wall' (shardOf row.id)).take maxMonitorsPerWorker).map (·.id) := by
  have hmine : (rows.filter fun row =>
      (holdsShards (followFleet r table rows wall dbNow).1.leases wall').contains (shardOf row.id)) =
      rows.filter fun row => r.willHold table wall dbNow wall' (shardOf row.id) := by
    cases rows with
    | nil => rfl
    | cons row rest =>
      have hne : row :: rest ≠ [] := List.cons_ne_nil row rest
      simp only [followFleet_holds hne]
  rw [reload, if_neg (by simp [hrunning]), ← hmine]
  exact rebuild_hasSlot_iff hids

/-! ### Coverage -/

/-- The query of a reload finds a monitor that the ordinary plane passes over by its type alone. -/
theorem discovered_of_skipped {now : ℤ} {monitor : Monitor} (h : skipped table now monitor = true) :
    monitor.discovered = highFrequencyTypeIds.contains monitor.checkType := by
  simp only [skipped, highFrequencyClaims, Bool.and_eq_true, Bool.not_eq_true'] at h
  obtain ⟨⟨hpaused, -⟩, ⟨hflag, hinterval⟩, -⟩ := h
  simp [Monitor.discovered, hpaused, hflag, hinterval]

/-- A monitor that the ordinary plane passes over has a slot after a reload if and only if its type
has high frequency, the replica remembers the lease, and so few rows come before it that the loop
gets to it. -/
theorem slot_of_skipped_iff {parser : UrlParser} {r : Replica} {table : LeaseTable}
    {monitors rows : List Monitor} {wall dbNow wall' now : ℤ} {mono : ℚ}
    (hrunning : r.running = true) (hids : (monitors.map (·.id)).Nodup)
    (hrows : rows.Perm (monitors.filter Monitor.discovered)) {monitor : Monitor}
    (hmonitor : monitor ∈ monitors)
    (hskipped : skipped (reload parser r table rows wall dbNow wall' mono).2 now monitor = true) :
    Plane.hasSlot (reload parser r table rows wall dbNow wall' mono).1.plane monitor.id = true ↔
      highFrequencyTypeIds.contains monitor.checkType = true ∧
      r.willHold table wall dbNow wall' (shardOf monitor.id) = true ∧
      (rows.filter fun row => r.willHold table wall dbNow wall' (shardOf row.id)).idxOf monitor <
        maxMonitorsPerWorker := by
  have hsub : rows ⊆ monitors := fun row hrow => (List.mem_filter.mp (hrows.mem_iff.mp hrow)).1
  have hrowIds : (rows.map (·.id)).Nodup :=
    (hrows.map _).nodup_iff.mpr ((List.filter_sublist.map _).nodup hids)
  obtain ⟨mine, hmine⟩ : ∃ mine, mine =
      rows.filter fun row => r.willHold table wall dbNow wall' (shardOf row.id) := ⟨_, rfl⟩
  have hmem : monitor ∈ mine ↔ highFrequencyTypeIds.contains monitor.checkType = true ∧
      r.willHold table wall dbNow wall' (shardOf monitor.id) = true := by
    rw [hmine, List.mem_filter, hrows.mem_iff, List.mem_filter, discovered_of_skipped hskipped]
    simp only [hmonitor, true_and]
  have hplaced : monitor.id ∈ (mine.take maxMonitorsPerWorker).map (·.id) ↔
      monitor ∈ mine.take maxMonitorsPerWorker := by
    refine ⟨fun hid => ?_, List.mem_map_of_mem⟩
    obtain ⟨row, hrow, hid⟩ := List.mem_map.mp hid
    have hfound : row ∈ rows := by
      have hin := List.mem_of_mem_take hrow
      rw [hmine] at hin
      exact (List.mem_filter.mp hin).1
    exact List.inj_on_of_nodup_map hids (hsub hfound) hmonitor hid ▸ hrow
  rw [reload_hasSlot_iff hrunning hrowIds, ← hmine, hplaced, ← and_assoc, ← hmem]
  constructor
  · intro htake
    have hin := List.mem_of_mem_take htake
    exact ⟨hin, (List.mem_take_iff_idxOf_lt hin).mp htake⟩
  · rintro ⟨hin, hlt⟩
    exact (List.mem_take_iff_idxOf_lt hin).mpr hlt

/-! ### A worker that starts -/

def worker : Replica where
  ownerId := "worker:1"
  running := true
  wantsLeases := false
  leaseEpoch := 0
  leases := []
  plane := start 0

/-- It had high frequency when its type was changed. -/
def changedToDns : Monitor :=
  { port5432 with id := js "b", checkType := "dns", port := none }

theorem slot_of_port5432 :
    skipped (reload noUrls worker (fun _ => none) [port5432] 0 0 0 0).2 0 port5432 = true ∧
      Plane.hasSlot (reload noUrls worker (fun _ => none) [port5432] 0 0 0 0).1.plane (js "a") =
        true := by
  have hskipped :
      skipped (reload noUrls worker (fun _ => none) [port5432] 0 0 0 0).2 0 port5432 = true := rfl
  have hrows : [port5432].Perm ([port5432, changedToDns].filter Monitor.discovered) :=
    List.Perm.refl [port5432]
  exact ⟨hskipped, (slot_of_skipped_iff rfl (by decide) hrows List.mem_cons_self hskipped).mpr
    ⟨rfl, rfl, by decide⟩⟩

theorem no_slot_after_change_of_type :
    [port5432].Perm ([port5432, changedToDns].filter Monitor.discovered) ∧
      (let (r, table) := reload noUrls worker (fun _ => none) [port5432] 0 0 0 0
      skipped table 0 changedToDns = true ∧
        (table (shardOf changedToDns.id)).map (·.ownerId) = some r.ownerId ∧
        (holdsShards r.leases 0).contains (shardOf changedToDns.id) = true ∧
        Plane.hasSlot r.plane changedToDns.id = false) :=
  ⟨List.Perm.refl [port5432], rfl, rfl, rfl, rfl⟩

end Vigil.HighFreq.Coverage
