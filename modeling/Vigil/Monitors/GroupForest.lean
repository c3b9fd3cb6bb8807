import Vigil.Lib.Calls
import Vigil.Lib.Links
import Vigil.Monitors.Groups
import Mathlib.Data.List.Nodup

/-! The parents on the monitors over every sequence of calls: what each call does to them, and when
they are a forest of groups. -/

namespace Vigil.Monitors.GroupForest

open Lib Lib.Calls Lib.Links CheckTypes Groups

/-! ### The forest -/

/-- The parent relation has no cycle, and every parent is a group of the same organization. -/
structure Forest (db : Db) : Prop where
  acyclic : Acyclic fun x y => db.parentOf x = some y
  groups : ∀ i ∈ db.monitors, ∀ parentId, i.parentId = some parentId →
    ∃ group ∈ db.monitors, group.id = parentId ∧ group.organizationId = i.organizationId ∧
      group.isGroup = true

/-- What the calls keep: identifiers are unique and below the next one. -/
structure Ids (db : Db) : Prop where
  below : ∀ i ∈ db.monitors, i.id < db.nextId
  unique : (db.monitors.map (·.id)).Nodup

/-- The checks of an update that moves a monitor into a group, but for the walk. -/
structure Admits (db : Db) (organizationId : String) (monitorId : ℕ) (patch : UpdateMonitorInput)
    (parentId : ℕ) : Prop where
  moves : patch.parentId = some (some parentId)
  existing : ∃ existing, db.find organizationId monitorId = some existing ∧
    hasSpec (updatedMonitor existing patch).checkType = true ∧
    (existing.isGroup = true → (updatedMonitor existing patch).isGroup = false →
      db.members monitorId = 0)
  group : ∃ group, db.find organizationId parentId = some group ∧ group.isGroup = true

/-- A monitor is moved into no group that is more than eight levels below it. -/
def NotFarBelow (db : Db) : Action → Prop
  | .updateMonitor organizationId monitorId patch => ∀ parentId,
      Admits db organizationId monitorId patch parentId →
        ∀ k, maxGroupNesting < k → climb db.parentOf k parentId ≠ some monitorId
  | _ => True

theorem Ids.eq {db : Db} (h : Ids db) {i j : Monitor} (hi : i ∈ db.monitors)
    (hj : j ∈ db.monitors) (hid : i.id = j.id) : i = j :=
  List.inj_on_of_nodup_map h.unique hi hj hid

theorem parentOf_eq_some_iff {db : Db} (h : Ids db) {x y : ℕ} :
    db.parentOf x = some y ↔ ∃ i ∈ db.monitors, i.id = x ∧ i.parentId = some y := by
  constructor
  · intro hparent
    obtain ⟨i, hfind, hi⟩ := Option.bind_eq_some_iff.mp hparent
    exact ⟨i, List.mem_of_find?_eq_some hfind, by simpa using List.find?_some hfind, hi⟩
  · rintro ⟨i, hi, rfl, hparent⟩
    obtain ⟨j, hfind⟩ : ∃ j, (db.monitors.find? fun monitor => monitor.id = i.id) = some j :=
      Option.isSome_iff_exists.mp (List.find?_isSome.mpr ⟨i, hi, by simp⟩)
    obtain rfl := h.eq (List.mem_of_find?_eq_some hfind) hi (by simpa using List.find?_some hfind)
    rw [Db.parentOf, hfind, Option.bind_some, hparent]

variable {monitor : Monitor}

theorem find_spec {db : Db} {organizationId : String} {id : ℕ}
    (h : db.find organizationId id = some monitor) :
    monitor ∈ db.monitors ∧ monitor.id = id ∧ monitor.organizationId = organizationId := by
  have hfound := List.find?_some h
  simp only [Bool.and_eq_true, decide_eq_true_eq] at hfound
  exact ⟨List.mem_of_find?_eq_some h, hfound⟩

/-! ### The walk of `assertParent` -/

theorem meets_iff {db : Db} {monitorId : ℕ} {steps : ℕ} {cursor : Option ℕ} :
    meets db (some monitorId) steps cursor = true ↔
      ∃ k < steps, cursor.bind (climb db.parentOf k) = some monitorId := by
  induction steps generalizing cursor with
  | zero => simp [meets]
  | succ steps ih =>
    cases cursor with
    | none => simp [meets]
    | some cursor =>
      rw [meets, Bool.or_eq_true, ih, decide_eq_true_eq]
      constructor
      · rintro (heq | ⟨k, hk, hclimb⟩)
        · exact ⟨0, Nat.succ_pos _, heq⟩
        · exact ⟨k + 1, Nat.succ_lt_succ hk, hclimb⟩
      · rintro ⟨k, hk, hclimb⟩
        cases k with
        | zero => exact .inl hclimb
        | succ k => exact .inr ⟨k, Nat.lt_of_succ_lt_succ hk, hclimb⟩

theorem assertParent_ok_iff {db : Db} {organizationId : String} {monitorId : Option ℕ}
    {parentId : ℕ} :
    assertParent db organizationId monitorId parentId = .ok () ↔
      some parentId ≠ monitorId ∧ ∃ parent, db.find organizationId parentId = some parent ∧
        parent.isGroup = true ∧ meets db monitorId maxGroupNesting parent.parentId = false := by
  unfold assertParent
  split_ifs with hself
  · simp [hself]
  · cases hfind : db.find organizationId parentId with
    | none => simp
    | some parent =>
      simp only [Option.some.injEq, exists_eq_left', ne_eq, hself, not_false_eq_true, true_and]
      split_ifs with hgroup hmeets
      · simp_all
      · simp_all
      · simp_all

/-- The walk refuses a group that is at most eight levels below the monitor. -/
theorem assertParent_ok_update_iff {db : Db} (h : Ids db) {organizationId : String}
    {monitorId parentId : ℕ} :
    assertParent db organizationId (some monitorId) parentId = .ok () ↔
      (∃ group, db.find organizationId parentId = some group ∧ group.isGroup = true) ∧
        ∀ k ≤ maxGroupNesting, climb db.parentOf k parentId ≠ some monitorId := by
  have hwalk : ∀ parent, db.find organizationId parentId = some parent →
      (meets db (some monitorId) maxGroupNesting parent.parentId = false ↔
        ∀ k < maxGroupNesting, climb db.parentOf (k + 1) parentId ≠ some monitorId) := by
    intro parent hfind
    obtain ⟨hmem, rfl, -⟩ := find_spec hfind
    have hparent : db.parentOf parent.id = parent.parentId := by
      cases hp : parent.parentId with
      | some y => exact (parentOf_eq_some_iff h).mpr ⟨parent, hmem, rfl, hp⟩
      | none =>
        rw [Option.eq_none_iff_forall_ne_some]
        intro y hy
        obtain ⟨i, hi, hid, hiy⟩ := (parentOf_eq_some_iff h).mp hy
        rw [h.eq hi hmem hid, hp] at hiy
        cases hiy
    rw [Bool.eq_false_iff, ne_eq, meets_iff]
    simp only [climb, hparent, not_exists, not_and, ne_eq]
  rw [assertParent_ok_iff]
  constructor
  · rintro ⟨hself, parent, hfind, hgroup, hmeets⟩
    refine ⟨⟨parent, hfind, hgroup⟩, fun k hk => ?_⟩
    cases k with
    | zero => exact hself
    | succ k => exact (hwalk parent hfind).mp hmeets k hk
  · rintro ⟨⟨parent, hfind, hgroup⟩, hclimb⟩
    refine ⟨hclimb 0 (Nat.zero_le _), parent, hfind, hgroup, (hwalk parent hfind).mpr ?_⟩
    exact fun k hk => hclimb (k + 1) hk

/-! ### A new monitor -/

theorem Ids.insert {db : Db} (h : Ids db) {monitor : Monitor} (hid : monitor.id = db.nextId) :
    Ids (db.insert monitor) where
  below i hi := by
    change i.id < db.nextId + 1
    rcases List.mem_cons.mp hi with rfl | hi
    · omega
    · exact Nat.lt_succ_of_lt (h.below i hi)
  unique := by
    refine List.nodup_cons.mpr ⟨fun hmem => ?_, h.unique⟩
    obtain ⟨i, hi, hii⟩ := List.mem_map.mp hmem
    have hlt := h.below i hi
    have hsame : i.id = monitor.id := hii
    omega

/-- Nobody is a member of a monitor that is not there yet, so it closes no cycle. -/
theorem Forest.insert {db : Db} (hids : Ids db) (h : Forest db) {monitor : Monitor}
    (hid : monitor.id = db.nextId) (hparent : ∀ parentId, monitor.parentId = some parentId →
      ∃ group ∈ db.monitors, group.id = parentId ∧
        group.organizationId = monitor.organizationId ∧ group.isGroup = true) :
    Forest (db.insert monitor) := by
  have hids' := hids.insert hid
  have hsub : ∀ x y, (db.insert monitor).parentOf x = some y →
      db.parentOf x = some y ∨ x = monitor.id ∧ monitor.parentId = some y := by
    intro x y hxy
    obtain ⟨i, hi, hix, hiy⟩ := (parentOf_eq_some_iff hids').mp hxy
    rcases List.mem_cons.mp hi with rfl | hi
    · exact .inr ⟨hix.symm, hiy⟩
    · exact .inl ((parentOf_eq_some_iff hids).mpr ⟨i, hi, hix, hiy⟩)
  have hkeep : ∀ x y, db.parentOf x = some y → (db.insert monitor).parentOf x = some y := by
    intro x y hxy
    obtain ⟨i, hi, hix, hiy⟩ := (parentOf_eq_some_iff hids).mp hxy
    exact (parentOf_eq_some_iff hids').mpr ⟨i, List.mem_cons_of_mem _ hi, hix, hiy⟩
  constructor
  · cases hp : monitor.parentId with
    | none =>
      refine h.acyclic.mono fun x y hxy => (hsub x y hxy).resolve_right fun hnew => ?_
      rw [hp] at hnew
      cases hnew.2
    | some parentId =>
      obtain ⟨group, hgroup, rfl, -, -⟩ := hparent parentId hp
      have hbelow := hids.below group hgroup
      refine (acyclic_link_iff (a := monitor.id) (p := group.id) h.acyclic (fun x y hxy => ?_)
        (fun x y hxy _ => hkeep x y hxy) ?_).mpr (not_reached (fun x hx => ?_) (by omega))
      · refine (hsub x y hxy).imp_right fun hnew => ⟨hnew.1, ?_⟩
        exact Option.some.inj (hnew.2.symm.trans hp)
      · exact (parentOf_eq_some_iff hids').mpr ⟨monitor, List.mem_cons_self, rfl, hp⟩
      · obtain ⟨i, hi, -, hiy⟩ := (parentOf_eq_some_iff hids).mp hx
        obtain ⟨found, hfound, hfoundId, -⟩ := h.groups i hi _ hiy
        have hlt := hids.below found hfound
        omega
  · intro i hi parentId hi'
    rcases List.mem_cons.mp hi with rfl | hi
    · obtain ⟨group, hgroup, hrest⟩ := hparent parentId hi'
      exact ⟨group, List.mem_cons_of_mem _ hgroup, hrest⟩
    · obtain ⟨group, hgroup, hrest⟩ := h.groups i hi parentId hi'
      exact ⟨group, List.mem_cons_of_mem _ hgroup, hrest⟩

theorem requireSpec_ok_iff {id : String} : requireSpec id = .ok () ↔ hasSpec id = true := by
  unfold requireSpec
  split <;> simp_all

theorem assertMembership_ok_iff {db : Db} {organizationId : String} {monitorId parentId : Option ℕ} :
    assertMembership db organizationId monitorId parentId = .ok () ↔
      ∀ id, parentId = some id → assertParent db organizationId monitorId id = .ok () := by
  cases parentId <;> simp [assertMembership]

theorem createMonitor_ok {db t : Db} {organizationId : String} {input : CreateMonitorInput}
    (h : createMonitor db organizationId input = .ok (t, monitor)) :
    t = db.insert monitor ∧ monitor.id = db.nextId ∧ monitor.organizationId = organizationId ∧
      ∀ parentId, monitor.parentId = some parentId →
        assertParent db organizationId none parentId = .ok () := by
  unfold createMonitor at h
  obtain ⟨_, -, h⟩ := bind_ok_iff.mp h
  obtain ⟨⟨⟩, hmembership, h⟩ := bind_ok_iff.mp h
  cases h
  exact ⟨rfl, rfl, rfl, assertMembership_ok_iff.mp hmembership⟩

theorem forest_create {db t : Db} {organizationId : String} {input : CreateMonitorInput}
    (hids : Ids db) (h : Forest db)
    (hcall : createMonitor db organizationId input = .ok (t, monitor)) : Forest t := by
  obtain ⟨rfl, hid, horganization, hassert⟩ := createMonitor_ok hcall
  refine h.insert hids hid fun parentId hp => ?_
  obtain ⟨-, group, hfind, hgroup, -⟩ := assertParent_ok_iff.mp (hassert parentId hp)
  obtain ⟨hmem, hgroupId, hgroupOrganization⟩ := find_spec hfind
  exact ⟨group, hmem, hgroupId, hgroupOrganization.trans horganization.symm, hgroup⟩

theorem cloneMonitor_ok {db t : Db} {organizationId name : String} {monitorId : ℕ}
    (h : cloneMonitor db organizationId monitorId name = .ok (t, monitor)) :
    ∃ source, db.find organizationId monitorId = some source ∧
      monitor = { source with id := db.nextId, name } ∧ t = db.insert monitor := by
  unfold cloneMonitor at h
  split at h
  · cases h
  · rename_i source hfind
    cases h
    exact ⟨source, hfind, rfl, rfl⟩

theorem forest_clone {db t : Db} {organizationId name : String} {monitorId : ℕ} (hids : Ids db)
    (h : Forest db) (hcall : cloneMonitor db organizationId monitorId name = .ok (t, monitor)) :
    Forest t := by
  obtain ⟨source, hfind, rfl, rfl⟩ := cloneMonitor_ok hcall
  exact h.insert hids rfl (h.groups source (find_spec hfind).1)

/-! ### A monitor that goes -/

/-- A row that stays is as it was, but for its membership of what is deleted. -/
theorem mem_remove {db : Db} {monitorId : ℕ} {j : Monitor}
    (h : j ∈ (db.remove monitorId).monitors) :
    ∃ i ∈ db.monitors, i.id ≠ monitorId ∧ j = i.release monitorId := by
  obtain ⟨i, hi, rfl⟩ := List.mem_map.mp h
  obtain ⟨hi, hne⟩ := List.mem_filter.mp hi
  exact ⟨i, hi, by simpa using hne, rfl⟩

theorem release_parentId {i : Monitor} {monitorId parentId : ℕ}
    (h : (i.release monitorId).parentId = some parentId) :
    i.parentId = some parentId ∧ parentId ≠ monitorId := by
  obtain ⟨hp, hne⟩ := Option.filter_eq_some_iff.mp h
  exact ⟨hp, by simpa using hne⟩

theorem Ids.remove {db : Db} (h : Ids db) (monitorId : ℕ) : Ids (db.remove monitorId) where
  below j hj := by
    obtain ⟨i, hi, -, rfl⟩ := mem_remove hj
    exact h.below i hi
  unique := by
    have hmap : (db.remove monitorId).monitors.map (·.id) =
        (db.monitors.filter (·.id ≠ monitorId)).map (·.id) := by
      rw [Db.remove, List.map_map]
      exact List.map_congr_left fun i _ => rfl
    rw [hmap]
    exact (List.filter_sublist.map _).nodup h.unique

theorem Forest.remove {db : Db} (hids : Ids db) (h : Forest db) (monitorId : ℕ) :
    Forest (db.remove monitorId) := by
  refine ⟨h.acyclic.mono fun x y hxy => ?_, fun j hj parentId hp => ?_⟩
  · obtain ⟨j, hj, hjx, hjy⟩ := (parentOf_eq_some_iff (hids.remove monitorId)).mp hxy
    obtain ⟨i, hi, -, rfl⟩ := mem_remove hj
    exact (parentOf_eq_some_iff hids).mpr ⟨i, hi, hjx, (release_parentId hjy).1⟩
  · obtain ⟨i, hi, -, rfl⟩ := mem_remove hj
    obtain ⟨hp, hne⟩ := release_parentId hp
    obtain ⟨group, hgroup, rfl, hrest⟩ := h.groups i hi parentId hp
    exact ⟨group.release monitorId,
      List.mem_map.mpr ⟨group, List.mem_filter.mpr ⟨hgroup, by simpa using hne⟩, rfl⟩, rfl, hrest⟩

theorem deleteMonitor_ok {db t : Db} {organizationId : String} {monitorId : ℕ}
    {releasedGroupId : Option ℕ}
    (h : deleteMonitor db organizationId monitorId = .ok (t, releasedGroupId)) :
    t = db.remove monitorId := by
  unfold deleteMonitor at h
  obtain ⟨_, -, h⟩ := bind_ok_iff.mp h
  exact (Prod.mk.inj (Except.ok.inj h)).1.symm

/-! ### A monitor that is changed -/

theorem findMonitorOrThrow_ok_iff {db : Db} {organizationId : String} {monitorId : ℕ} :
    findMonitorOrThrow db organizationId monitorId = .ok monitor ↔
      db.find organizationId monitorId = some monitor := by
  unfold findMonitorOrThrow
  split <;> simp_all

theorem assertKeepsType_ok_iff {db : Db} {existing updated : Monitor} :
    assertKeepsType db existing updated = .ok () ↔
      (existing.isGroup = true → updated.isGroup = false → db.members existing.id = 0) := by
  unfold assertKeepsType
  dsimp only
  split
  · rename_i hmembers
    simp only [Bool.and_eq_true, Bool.not_eq_true', decide_eq_true_eq] at hmembers
    obtain ⟨⟨hgroup, hno⟩, hpos⟩ := hmembers
    simp only [reduceCtorEq, hgroup, hno, true_implies, false_iff]
    omega
  · rename_i hmembers
    simp only [true_iff]
    intro hgroup hno
    simpa [hgroup, hno] using hmembers

theorem updateMonitor_ok_iff {db t : Db} {organizationId : String} {monitorId : ℕ}
    {patch : UpdateMonitorInput} {updated : Monitor} :
    updateMonitor db organizationId monitorId patch = .ok (t, updated) ↔
      ∃ existing, db.find organizationId monitorId = some existing ∧
        hasSpec (updatedMonitor existing patch).checkType = true ∧
        (∀ parentId, patch.parentId.getD none = some parentId →
          assertParent db organizationId (some monitorId) parentId = .ok ()) ∧
        (existing.isGroup = true → (updatedMonitor existing patch).isGroup = false →
          db.members existing.id = 0) ∧
        t = db.update monitorId patch ∧ updated = updatedMonitor existing patch := by
  unfold updateMonitor
  constructor
  · intro h
    obtain ⟨existing, hfind, h⟩ := bind_ok_iff.mp h
    obtain ⟨⟨⟩, hspec, h⟩ := bind_ok_iff.mp h
    obtain ⟨⟨⟩, hmembership, h⟩ := bind_ok_iff.mp h
    obtain ⟨⟨⟩, hkeeps, h⟩ := bind_ok_iff.mp h
    cases h
    exact ⟨existing, findMonitorOrThrow_ok_iff.mp hfind, requireSpec_ok_iff.mp hspec,
      assertMembership_ok_iff.mp hmembership, assertKeepsType_ok_iff.mp hkeeps, rfl, rfl⟩
  · rintro ⟨existing, hfind, hspec, hmembership, hkeeps, rfl, rfl⟩
    exact bind_ok_iff.mpr ⟨existing, findMonitorOrThrow_ok_iff.mpr hfind,
      bind_ok_iff.mpr ⟨(), requireSpec_ok_iff.mpr hspec,
        bind_ok_iff.mpr ⟨(), assertMembership_ok_iff.mpr hmembership,
          bind_ok_iff.mpr ⟨(), assertKeepsType_ok_iff.mpr hkeeps, rfl⟩⟩⟩⟩

theorem mem_update {db : Db} {monitorId : ℕ} {patch : UpdateMonitorInput} {existing j : Monitor}
    (hids : Ids db) (hexisting : existing ∈ db.monitors) (hid : existing.id = monitorId) :
    j ∈ (db.update monitorId patch).monitors ↔
      j = updatedMonitor existing patch ∨ j ∈ db.monitors ∧ j.id ≠ monitorId := by
  constructor
  · intro hj
    obtain ⟨i, hi, rfl⟩ := List.mem_map.mp hj
    split
    · rename_i hsame
      rw [hids.eq hi hexisting (hsame.trans hid.symm)]
      exact .inl rfl
    · rename_i hother
      exact .inr ⟨hi, hother⟩
  · rintro (rfl | ⟨hj, hne⟩)
    · exact List.mem_map.mpr ⟨existing, hexisting, if_pos hid⟩
    · exact List.mem_map.mpr ⟨j, hj, if_neg hne⟩

theorem Ids.update {db : Db} (h : Ids db) (monitorId : ℕ) (patch : UpdateMonitorInput) :
    Ids (db.update monitorId patch) := by
  have hmap : (db.update monitorId patch).monitors.map (·.id) = db.monitors.map (·.id) := by
    rw [Db.update, List.map_map]
    refine List.map_congr_left fun i _ => ?_
    simp only [Function.comp]
    split <;> rfl
  refine ⟨fun j hj => ?_, by rw [hmap]; exact h.unique⟩
  have hmem : j.id ∈ db.monitors.map (·.id) := hmap ▸ List.mem_map.mpr ⟨j, hj, rfl⟩
  obtain ⟨i, hi, hij⟩ := List.mem_map.mp hmem
  exact hij ▸ h.below i hi

section Update

variable {db : Db} {organizationId : String} {monitorId : ℕ} {patch : UpdateMonitorInput}
  {existing : Monitor}

theorem parentOf_update_iff (hids : Ids db) (hexisting : existing ∈ db.monitors)
    (hid : existing.id = monitorId) {x y : ℕ} :
    (db.update monitorId patch).parentOf x = some y ↔
      x = monitorId ∧ patch.parentId.getD existing.parentId = some y ∨
        x ≠ monitorId ∧ db.parentOf x = some y := by
  rw [parentOf_eq_some_iff (hids.update monitorId patch), parentOf_eq_some_iff hids]
  constructor
  · rintro ⟨j, hj, rfl, hjy⟩
    rcases (mem_update hids hexisting hid).mp hj with rfl | ⟨hj, hne⟩
    · exact .inl ⟨hid, hjy⟩
    · exact .inr ⟨hne, j, hj, rfl, hjy⟩
  · rintro (⟨rfl, hy⟩ | ⟨hne, j, hj, rfl, hjy⟩)
    · exact ⟨_, (mem_update hids hexisting hid).mpr (.inl rfl), hid, hy⟩
    · exact ⟨j, (mem_update hids hexisting hid).mpr (.inr ⟨hj, hne⟩), rfl, hjy⟩

theorem acyclic_update_iff (hids : Ids db) (h : Forest db) (hexisting : existing ∈ db.monitors)
    (hid : existing.id = monitorId) :
    (Acyclic fun x y => (db.update monitorId patch).parentOf x = some y) ↔
      ∀ parentId, patch.parentId = some (some parentId) →
        ∀ k, climb db.parentOf k parentId ≠ some monitorId := by
  have hparents : ∀ x y, (db.update monitorId patch).parentOf x = some y ↔ _ :=
    fun x y => parentOf_update_iff hids hexisting hid
  match hpatch : patch.parentId with
  | none =>
    rw [hpatch] at hparents
    refine iff_of_true (h.acyclic.mono fun x y hxy => ?_) nofun
    rcases (hparents x y).mp hxy with ⟨rfl, hy⟩ | ⟨-, hold⟩
    · exact (parentOf_eq_some_iff hids).mpr ⟨existing, hexisting, hid, hy⟩
    · exact hold
  | some none =>
    rw [hpatch] at hparents
    refine iff_of_true (h.acyclic.mono fun x y hxy => ?_) (by simp)
    rcases (hparents x y).mp hxy with ⟨rfl, hy⟩ | ⟨-, hold⟩
    · cases hy
    · exact hold
  | some (some parentId) =>
    rw [hpatch] at hparents
    rw [acyclic_link_iff (a := monitorId) (p := parentId) h.acyclic, reflTransGen_iff_climb]
    · simp
    · intro x y hxy
      rcases (hparents x y).mp hxy with ⟨rfl, hy⟩ | ⟨-, hold⟩
      · exact .inr ⟨rfl, (Option.some.inj hy).symm⟩
      · exact .inl hold
    · exact fun x y hxy hne => (hparents x y).mpr (.inr ⟨hne, hxy⟩)
    · exact (hparents _ _).mpr (.inl ⟨rfl, rfl⟩)

/-- An accepted update leaves every parent a group of the same organization. -/
theorem groups_update (hids : Ids db) (h : Forest db)
    (hfind : db.find organizationId monitorId = some existing)
    (hmembership : ∀ parentId, patch.parentId.getD none = some parentId →
      assertParent db organizationId (some monitorId) parentId = .ok ())
    (hkeeps : existing.isGroup = true → (updatedMonitor existing patch).isGroup = false →
      db.members existing.id = 0) :
    ∀ i ∈ (db.update monitorId patch).monitors, ∀ parentId, i.parentId = some parentId →
      ∃ group ∈ (db.update monitorId patch).monitors, group.id = parentId ∧
        group.organizationId = i.organizationId ∧ group.isGroup = true := by
  obtain ⟨hexisting, hid, horganization⟩ := find_spec hfind
  -- a group of the table that something is a member of is still one
  have hstays : ∀ i ∈ db.monitors, ∀ group ∈ db.monitors, i.parentId = some group.id →
      group.isGroup = true → ∃ group' ∈ (db.update monitorId patch).monitors,
        group'.id = group.id ∧ group'.organizationId = group.organizationId ∧
          group'.isGroup = true := by
    intro i hi group hgroup hparent hisGroup
    by_cases hsame : group.id = monitorId
    · obtain rfl := hids.eq hgroup hexisting (hsame.trans hid.symm)
      refine ⟨updatedMonitor group patch, (mem_update hids hexisting hid).mpr (.inl rfl), rfl, rfl, ?_⟩
      by_contra hno
      have hnone := hkeeps hisGroup (by simpa using hno)
      exact List.countP_eq_zero.mp hnone i hi (by simpa using hparent)
    · exact ⟨group, (mem_update hids hexisting hid).mpr (.inr ⟨hgroup, hsame⟩), rfl, rfl, hisGroup⟩
  intro j hj parentId hp
  rcases (mem_update hids hexisting hid).mp hj with rfl | ⟨hj, -⟩
  · have hp : patch.parentId.getD existing.parentId = some parentId := hp
    match hpatch : patch.parentId with
    | none =>
      rw [hpatch] at hp
      obtain ⟨group, hgroup, rfl, hgroupOrganization, hisGroup⟩ :=
        h.groups existing hexisting parentId hp
      obtain ⟨group', hgroup', hid', horganization', hisGroup'⟩ :=
        hstays existing hexisting group hgroup hp hisGroup
      exact ⟨group', hgroup', hid', horganization'.trans hgroupOrganization, hisGroup'⟩
    | some none =>
      rw [hpatch] at hp
      cases hp
    | some (some newParent) =>
      rw [hpatch] at hp
      obtain rfl : newParent = parentId := Option.some.inj hp
      obtain ⟨hself, group, hgroup, hisGroup, -⟩ :=
        assertParent_ok_iff.mp (hmembership newParent (by rw [hpatch]; rfl))
      obtain ⟨hmem, rfl, hgroupOrganization⟩ := find_spec hgroup
      have hne : group.id ≠ monitorId := fun heq => hself (congrArg some heq)
      exact ⟨group, (mem_update hids hexisting hid).mpr (.inr ⟨hmem, hne⟩), rfl,
        hgroupOrganization.trans horganization.symm, hisGroup⟩
  · obtain ⟨group, hgroup, rfl, hgroupOrganization, hisGroup⟩ := h.groups j hj parentId hp
    obtain ⟨group', hgroup', hid', horganization', hisGroup'⟩ := hstays j hj group hgroup hp hisGroup
    exact ⟨group', hgroup', hid', horganization'.trans hgroupOrganization, hisGroup'⟩

end Update

theorem forest_update_iff {db t : Db} {organizationId : String} {monitorId : ℕ}
    {patch : UpdateMonitorInput} {updated : Monitor} (hids : Ids db) (h : Forest db)
    (hcall : updateMonitor db organizationId monitorId patch = .ok (t, updated)) :
    Forest t ↔ ∀ parentId, patch.parentId = some (some parentId) →
      ∀ k, climb db.parentOf k parentId ≠ some monitorId := by
  obtain ⟨existing, hfind, -, hmembership, hkeeps, rfl, -⟩ := updateMonitor_ok_iff.mp hcall
  obtain ⟨hexisting, hid, -⟩ := find_spec hfind
  rw [← acyclic_update_iff hids h hexisting hid]
  exact ⟨fun hforest => hforest.acyclic,
    fun hacyclic => ⟨hacyclic, groups_update hids h hfind hmembership hkeeps⟩⟩

/-- A move that the walk alone could refuse is accepted if the group is far below the monitor. -/
theorem Admits.accepted {db : Db} {organizationId : String} {monitorId parentId k : ℕ}
    {patch : UpdateMonitorInput} (hids : Ids db) (h : Forest db)
    (hadmits : Admits db organizationId monitorId patch parentId) (hk : maxGroupNesting < k)
    (hclimb : climb db.parentOf k parentId = some monitorId) :
    ∃ result, updateMonitor db organizationId monitorId patch = .ok result := by
  obtain ⟨existing, hfind, hspec, hkeeps⟩ := hadmits.existing
  have hid : existing.id = monitorId := (find_spec hfind).2.1
  refine ⟨_, updateMonitor_ok_iff.mpr ⟨existing, hfind, hspec, fun id hp => ?_, hid ▸ hkeeps, rfl,
    rfl⟩⟩
  rw [hadmits.moves] at hp
  obtain rfl : parentId = id := Option.some.inj hp
  refine (assertParent_ok_update_iff hids).mpr ⟨hadmits.group, fun j hj hmeets => ?_⟩
  have hsame := h.acyclic.climb_inj hmeets hclimb
  omega

/-! ### Every run -/

/-- What holds of the table and after every call that succeeds holds after the call. -/
theorem commit_of {α : Type} {P : Db → Prop} {db : Db} {call : Except ServiceError (Db × α)}
    (h : P db) (hok : ∀ t result, call = .ok (t, result) → P t) : P (db.commit call) := by
  cases hcall : call with
  | error e => exact h
  | ok result => exact hok _ _ hcall

theorem step_ids {db t : Db} {a : Action} (hids : Ids db) (hs : step db a = some t) : Ids t := by
  cases a with
  | createMonitor organizationId input =>
    cases hs
    refine commit_of hids fun t monitor hcall => ?_
    obtain ⟨rfl, hid, -, -⟩ := createMonitor_ok hcall
    exact hids.insert hid
  | cloneMonitor organizationId monitorId name =>
    cases hs
    refine commit_of hids fun t monitor hcall => ?_
    obtain ⟨source, -, rfl, rfl⟩ := cloneMonitor_ok hcall
    exact hids.insert rfl
  | updateMonitor organizationId monitorId patch =>
    cases hs
    refine commit_of hids fun t monitor hcall => ?_
    obtain ⟨existing, -, -, -, -, rfl, -⟩ := updateMonitor_ok_iff.mp hcall
    exact hids.update monitorId patch
  | deleteMonitor organizationId monitorId =>
    cases hs
    refine commit_of hids fun t monitor hcall => ?_
    obtain rfl := deleteMonitor_ok hcall
    exact hids.remove monitorId

theorem reachable_ids {db : Db} (h : machine.Reachable db) : Ids db := by
  refine h.induct (P := Ids) ?_ fun db a t _ hids hs => step_ids hids hs
  exact ⟨nofun, List.nodup_nil⟩

theorem forest_step_iff {db t : Db} {a : Action} (hids : Ids db) (h : Forest db)
    (hs : step db a = some t) : Forest t ↔ NotFarBelow db a := by
  cases a with
  | createMonitor organizationId input =>
    cases hs
    exact iff_of_true (commit_of h fun _ _ hcall => forest_create hids h hcall) trivial
  | cloneMonitor organizationId monitorId name =>
    cases hs
    exact iff_of_true (commit_of h fun _ _ hcall => forest_clone hids h hcall) trivial
  | deleteMonitor organizationId monitorId =>
    cases hs
    refine iff_of_true (commit_of h fun t result hcall => ?_) trivial
    obtain rfl := deleteMonitor_ok hcall
    exact h.remove hids monitorId
  | updateMonitor organizationId monitorId patch =>
    cases hs
    cases hcall : updateMonitor db organizationId monitorId patch with
    | error e =>
      refine iff_of_true h fun parentId hadmits k hk hclimb => ?_
      obtain ⟨result, hok⟩ := hadmits.accepted hids h hk hclimb
      cases hcall.symm.trans hok
    | ok result =>
      refine (forest_update_iff hids h hcall).trans ⟨fun hclimb parentId hadmits k _ =>
        hclimb parentId hadmits.moves k, fun hfar parentId hmoves k => ?_⟩
      obtain ⟨existing, hfind, hspec, hmembership, hkeeps, -, -⟩ := updateMonitor_ok_iff.mp hcall
      obtain ⟨hgroup, hnear⟩ := (assertParent_ok_update_iff hids).mp
        (hmembership parentId (by rw [hmoves]; rfl))
      rcases Nat.lt_or_ge maxGroupNesting k with hk | hk
      · refine hfar parentId ⟨hmoves, ⟨existing, hfind, hspec, ?_⟩, hgroup⟩ k hk
        rw [← (find_spec hfind).2.1]
        exact hkeeps
      · exact hnear k hk

/-- In every run the parents are a forest of groups, exactly if no update moves a monitor into a
group more than eight levels below it. -/
theorem forest_iff (acts : List Action) :
    machine.Always acts Forest ↔ machine.EachStep acts NotFarBelow := by
  refine Machine.always_iff_eachStep ⟨fun a hcycle => ?_, nofun⟩
    (fun db a t hr h hs => forest_step_iff (reachable_ids hr) h hs) acts
  obtain ⟨y, hy, -⟩ := Relation.TransGen.head'_iff.mp hcycle
  cases hy

/-- Ten groups, each in the one before it, and then the first is moved into the last. -/
def deepChain : List Action :=
  .createMonitor "org" ⟨"group", "group", none⟩ ::
    ((List.range 9).map fun i => .createMonitor "org" ⟨"group", "group", some i⟩) ++
    [.updateMonitor "org" 0 ⟨none, none, some (some 9)⟩]

theorem deep_chain_closes_cycle : ¬machine.Always deepChain Forest := by
  intro h
  obtain ⟨db, hdb, hcycle⟩ : ∃ db, machine.exec deepChain = some db ∧
      climb db.parentOf 10 0 = some 0 := ⟨_, rfl, by decide⟩
  have hforest := h deepChain List.prefix_rfl db hdb
  have hsame := hforest.acyclic.climb_inj (j := 0) rfl hcycle
  omega

end Vigil.Monitors.GroupForest
