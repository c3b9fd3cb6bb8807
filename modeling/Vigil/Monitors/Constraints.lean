import Vigil.Monitors.Fleet

/-! What the calls keep of the table: identifiers, the two unique indexes, a token on every push
monitor, and the number of monitors on the plane.  A copy takes along the settings and the place on
the plane, so that of a push monitor is refused by the index, and that of a monitor on the plane is
counted by nobody. -/

namespace Vigil.Monitors.Constraints

open Lib Lib.Calls Lib.Keyed Js.Text Ledger.Canonical HighFreq.Capabilities Config Push Fleet

def HasToken (monitor : Monitor) : Prop :=
  monitor.checkType = "push" → ∃ token, tokenOf monitor.config = some token

structure Sound (db : Db) : Prop where
  below : ∀ row ∈ db.rows, row.id < db.nextId
  ids : (db.rows.map rowId).Nodup
  tokens : ∀ row ∈ db.rows, HasToken row
  pushTokens : Unique pushTokenKey db.rows
  importSources : Unique importSourceKey db.rows

/-- No organization has more monitors on the plane than it may have. -/
def WithinQuota (db : Db) : Prop :=
  ∀ organizationId, db.highFrequencyCount organizationId ≤ hfMaxMonitorsPerOrg

/-- A copy of a monitor that is on the plane is made only where there is room for one more. -/
def CloneFits (db : Db) : Action → Prop
  | .cloneMonitor organizationId monitorId _ => ∀ source,
      db.find organizationId monitorId = some source → source.checkType ≠ "push" →
        source.highFrequency = true → db.highFrequencyCount organizationId < hfMaxMonitorsPerOrg
  | _ => True

/-! ### Results -/

theorem find_spec {db : Db} {organizationId : String} {id : ℕ} {monitor : Monitor}
    (h : db.find organizationId id = some monitor) :
    monitor ∈ db.rows ∧ monitor.id = id ∧ monitor.organizationId = organizationId := by
  have hfound := List.find?_some h
  simp only [Bool.and_eq_true, decide_eq_true_eq] at hfound
  exact ⟨List.mem_of_find?_eq_some h, hfound⟩

theorem groups_find (db : Db) (organizationId : String) (id : ℕ) :
    db.groups.find organizationId id = (db.find organizationId id).map (·.toMonitor) := by
  rw [Groups.Db.find, Db.groups, List.find?_map]
  rfl

theorem findMonitorOrThrow_ok {db : Db} {organizationId : String} {monitorId : ℕ}
    {monitor : Monitor} (h : findMonitorOrThrow db organizationId monitorId = .ok monitor) :
    db.find organizationId monitorId = some monitor := by
  unfold findMonitorOrThrow at h
  split at h
  · cases h
  · rename_i found hfind
    rw [hfind, Except.ok.inj h]

theorem violatedIndex_eq_none_iff {others : List Monitor} {row : Monitor} :
    violatedIndex others row = none ↔
      taken pushTokenKey others row = false ∧ taken importSourceKey others row = false := by
  unfold violatedIndex
  cases taken pushTokenKey others row <;> cases taken importSourceKey others row <;> simp

theorem insert_ok_iff {db t : Db} {row found : Monitor} :
    db.insert row = .ok (t, found) ↔ violatedIndex db.rows row = none ∧
      t = { rows := row :: db.rows, nextId := db.nextId + 1 } ∧ found = row := by
  unfold Db.insert
  cases violatedIndex db.rows row with
  | some index => simp
  | none => simp [eq_comm]

theorem update_ok_iff {db t : Db} {row found : Monitor} :
    db.update row = .ok (t, found) ↔ violatedIndex (others rowId row db.rows) row = none ∧
      t = { db with rows := replace rowId row db.rows } ∧ found = row := by
  unfold Db.update
  cases violatedIndex (others rowId row db.rows) row with
  | some index => simp
  | none => simp [eq_comm]

theorem storedConfig_hasToken {specs : String → CheckTypeSpec} {drawn : JsString}
    {stored patch config : JsValue} {storedCheckType : Option String} {checkType : String}
    (h : storedConfig (specFor specs drawn checkType) stored patch storedCheckType = .ok config)
    (hpush : checkType = "push") : ∃ token, tokenOf config = some token := by
  rw [storedConfig, specFor, if_pos hpush] at h
  split at h
  · cases h
  · rename_i found hmerged
    rw [← Except.ok.inj h]
    exact tokenOf_mergeConfig hmerged

/-! ### What a call does -/

/-- A row that is made: it has the next identifier, and it is on no index twice. -/
structure Inserted (db : Db) (row : Monitor) (t : Db) : Prop where
  id : row.id = db.nextId
  free : violatedIndex db.rows row = none
  after : t = { rows := row :: db.rows, nextId := db.nextId + 1 }

/-- A row that is written over: it stays in its organization, and it is on no index twice. -/
structure Updated (db : Db) (existing row : Monitor) (t : Db) : Prop where
  stored : existing ∈ db.rows
  id : row.id = existing.id
  organizationId : row.organizationId = existing.organizationId
  token : HasToken existing → HasToken row
  free : violatedIndex (others rowId row db.rows) row = none
  after : t = { db with rows := replace rowId row db.rows }

section Calls

variable {specs : String → CheckTypeSpec} {drawn : JsString} {db t : Db} {organizationId : String}
  {monitorId : ℕ} {row : Monitor}

theorem createMonitor_ok {input : CreateMonitorInput}
    (h : createMonitor specs drawn db organizationId input = .ok (t, row)) :
    Inserted db row t ∧ HasToken row ∧ row.highFrequency = false := by
  obtain ⟨⟨groups, monitor⟩, hmember, h⟩ := bind_ok_iff.mp h
  obtain ⟨config, hconfig, h⟩ := bind_ok_iff.mp h
  obtain ⟨hfree, ht, rfl⟩ := insert_ok_iff.mp h
  obtain ⟨-, hid, -, -⟩ := GroupForest.createMonitor_ok (mapError_ok_iff.mp hmember)
  have htype : monitor.checkType = input.checkType := by
    obtain ⟨-, -, hmember⟩ := bind_ok_iff.mp (mapError_ok_iff.mp hmember)
    obtain ⟨-, -, hmember⟩ := bind_ok_iff.mp hmember
    rw [← (Prod.mk.inj (Except.ok.inj hmember)).2]
  refine ⟨⟨hid, hfree, ht⟩, fun hpush => ?_, rfl⟩
  exact storedConfig_hasToken hconfig (htype.symm.trans hpush)

theorem updateMonitor_ok {patch : UpdateMonitorInput}
    (h : updateMonitor specs drawn db organizationId monitorId patch = .ok (t, row)) :
    ∃ existing, Updated db existing row t ∧ row.highFrequency = existing.highFrequency := by
  obtain ⟨existing, hexisting, h⟩ := bind_ok_iff.mp h
  obtain ⟨⟨groups, updated⟩, hupdated, h⟩ := bind_ok_iff.mp h
  obtain ⟨config, hconfig, h⟩ := bind_ok_iff.mp h
  obtain ⟨hfree, ht, rfl⟩ := update_ok_iff.mp h
  have hfind := findMonitorOrThrow_ok hexisting
  obtain ⟨found, hfound, -, -, -, -, rfl⟩ :=
    GroupForest.updateMonitor_ok_iff.mp (mapError_ok_iff.mp hupdated)
  rw [groups_find, hfind] at hfound
  cases hfound
  exact ⟨existing, ⟨(find_spec hfind).1, rfl, rfl,
    fun _ hpush => storedConfig_hasToken hconfig hpush, hfree, ht⟩, rfl⟩

/-- A monitor comes on the plane only where the others of its organization leave room. -/
theorem setHighFrequency_ok {settings : HighFrequencySettings}
    (h : setHighFrequency db organizationId monitorId settings = .ok (t, row)) :
    ∃ existing, Updated db existing row t ∧ (row.highFrequency = true →
      (others rowId existing db.rows).countP (isHighFrequencyOf row.organizationId) <
        hfMaxMonitorsPerOrg) := by
  obtain ⟨existing, hexisting, h⟩ := bind_ok_iff.mp h
  obtain ⟨hmem, -, rfl⟩ := find_spec (findMonitorOrThrow_ok hexisting)
  split_ifs at h with hdisabled
  · obtain ⟨hfree, ht, rfl⟩ := update_ok_iff.mp h
    exact ⟨existing, ⟨hmem, rfl, rfl, id, hfree, ht⟩, fun hon => by cases hon⟩
  · obtain ⟨intervalMs, -, h⟩ := bind_ok_iff.mp h
    dsimp only at h
    split_ifs at h with hfull
    obtain ⟨hfree, ht, rfl⟩ := update_ok_iff.mp h
    exact ⟨existing, ⟨hmem, rfl, rfl, id, hfree, ht⟩, fun _ => Nat.not_le.mp hfull⟩

theorem recordSource_ok {importSource importSourceId : String}
    (h : recordSource db organizationId monitorId importSource importSourceId = .ok (t, row)) :
    ∃ existing, Updated db existing row t ∧ row.highFrequency = existing.highFrequency := by
  obtain ⟨existing, hexisting, h⟩ := bind_ok_iff.mp h
  obtain ⟨hfree, ht, rfl⟩ := update_ok_iff.mp h
  exact ⟨existing, ⟨(find_spec (findMonitorOrThrow_ok hexisting)).1, rfl, rfl, id, hfree, ht⟩, rfl⟩

theorem deleteMonitor_ok {releasedGroupId : Option ℕ}
    (h : deleteMonitor db organizationId monitorId = .ok (t, releasedGroupId)) :
    t = { db with rows := (db.rows.filter (·.id ≠ monitorId)).map (Monitor.release monitorId) } := by
  obtain ⟨_, -, h⟩ := bind_ok_iff.mp h
  exact (Prod.mk.inj (Except.ok.inj h)).1.symm

/-! ### Copies -/

/-- A copy of a monitor that is no push monitor is made: it has a key in neither index. -/
theorem cloneMonitor_of_ne {source : Monitor} (name : String)
    (hfind : db.find organizationId monitorId = some source) (hne : source.checkType ≠ "push") :
    ∃ clone : Monitor, clone.organizationId = source.organizationId ∧
      clone.highFrequency = source.highFrequency ∧ clone.checkType = source.checkType ∧
      Inserted db clone { rows := clone :: db.rows, nextId := db.nextId + 1 } ∧
      cloneMonitor db organizationId monitorId name =
        .ok ({ rows := clone :: db.rows, nextId := db.nextId + 1 }, clone) := by
  let clone : Monitor :=
    { source with id := db.nextId, name, importSource := none, importSourceId := none }
  have hfree : violatedIndex db.rows clone = none :=
    violatedIndex_eq_none_iff.mpr ⟨taken_of_none (if_neg hne), taken_of_none rfl⟩
  refine ⟨clone, rfl, rfl, rfl, ⟨rfl, hfree, rfl⟩, ?_⟩
  rw [cloneMonitor, hfind]
  exact insert_ok_iff.mpr ⟨hfree, rfl, rfl⟩

/-- A copy of a push monitor has the token of its source, which the index refuses. -/
theorem cloneMonitor_of_push (h : Sound db) {source : Monitor} (name : String)
    (hfind : db.find organizationId monitorId = some source) (hpush : source.checkType = "push") :
    cloneMonitor db organizationId monitorId name =
      .error (.duplicateKey "monitors_push_token_idx") := by
  obtain ⟨hmem, -, -⟩ := find_spec hfind
  obtain ⟨token, htoken⟩ := h.tokens source hmem hpush
  let clone : Monitor :=
    { source with id := db.nextId, name, importSource := none, importSourceId := none }
  have hkey : pushTokenKey source = some token := by rw [pushTokenKey, if_pos hpush, htoken]
  have hsame : pushTokenKey clone = some token := hkey
  have htaken : taken pushTokenKey db.rows clone = true :=
    taken_iff.mpr ⟨source, hmem, token, hkey, hsame⟩
  rw [cloneMonitor, hfind]
  show db.insert clone = _
  rw [Db.insert, violatedIndex, if_pos htaken]

end Calls

/-! ### What every call keeps -/

section Keeps

variable {db t : Db} {existing row : Monitor}

theorem sound_init : Sound ⟨[], 0⟩ where
  below := by simp
  ids := List.nodup_nil
  tokens := by simp
  pushTokens := unique_nil
  importSources := unique_nil

theorem Sound.inserted (h : Sound db) (hrow : Inserted db row t) (htoken : HasToken row) :
    Sound t := by
  obtain ⟨hid, hfree, rfl⟩ := hrow
  obtain ⟨hpush, himport⟩ := violatedIndex_eq_none_iff.mp hfree
  refine ⟨fun r hr => ?_, ?_, fun r hr => ?_, unique_cons_iff.mpr ⟨hpush, h.pushTokens⟩,
    unique_cons_iff.mpr ⟨himport, h.importSources⟩⟩
  · rcases List.mem_cons.mp hr with rfl | hr
    · exact hid ▸ Nat.lt_succ_self _
    · exact Nat.lt_succ_of_lt (h.below r hr)
  · refine List.nodup_cons.mpr ⟨fun hmem => ?_, h.ids⟩
    obtain ⟨r, hr, hsame⟩ := List.mem_map.mp hmem
    have hlt := h.below r hr
    have hsame' : r.id = row.id := hsame
    omega
  · rcases List.mem_cons.mp hr with rfl | hr
    · exact htoken
    · exact h.tokens r hr

theorem Sound.updated (h : Sound db) (hrow : Updated db existing row t) : Sound t := by
  obtain ⟨hmem, hid, -, htoken, hfree, rfl⟩ := hrow
  obtain ⟨hpush, himport⟩ := violatedIndex_eq_none_iff.mp hfree
  have hcases : ∀ r ∈ replace rowId row db.rows, r = row ∨ r ∈ db.rows := fun r hr =>
    (mem_replace hr).imp_right List.mem_of_mem_filter
  refine ⟨fun r hr => ?_, ?_, fun r hr => ?_, h.pushTokens.replace h.ids hpush,
    h.importSources.replace h.ids himport⟩
  · rcases hcases r hr with rfl | hr
    · exact hid ▸ h.below existing hmem
    · exact h.below r hr
  · rw [ids_replace]
    exact h.ids
  · rcases hcases r hr with rfl | hr
    · exact htoken (h.tokens existing hmem)
    · exact h.tokens r hr

theorem Sound.deleted (h : Sound db) (monitorId : ℕ) :
    Sound { db with
      rows := (db.rows.filter (·.id ≠ monitorId)).map (Monitor.release monitorId) } := by
  have hmem : ∀ r ∈ (db.rows.filter (·.id ≠ monitorId)).map (Monitor.release monitorId),
      ∃ r' ∈ db.rows, r = r'.release monitorId := by
    intro r hr
    obtain ⟨r', hr', rfl⟩ := List.mem_map.mp hr
    exact ⟨r', List.mem_of_mem_filter hr', rfl⟩
  refine ⟨fun r hr => ?_, ?_, fun r hr => ?_, (h.pushTokens.filter _).map fun _ _ => rfl,
    (h.importSources.filter _).map fun _ _ => rfl⟩
  · obtain ⟨r', hr', rfl⟩ := hmem r hr
    exact h.below r' hr'
  · rw [List.map_map]
    exact (List.filter_sublist.map rowId).nodup h.ids
  · obtain ⟨r', hr', rfl⟩ := hmem r hr
    exact h.tokens r' hr'

/-! The numbers of monitors on the plane. -/

theorem isHighFrequencyOf_congr (horganization : row.organizationId = existing.organizationId)
    (hplane : row.highFrequency = existing.highFrequency) (organizationId : String) :
    isHighFrequencyOf organizationId row = isHighFrequencyOf organizationId existing := by
  rw [isHighFrequencyOf, isHighFrequencyOf, horganization, hplane]

theorem count_inserted (hrow : Inserted db row t) (organizationId : String) :
    t.highFrequencyCount organizationId = db.highFrequencyCount organizationId +
      if isHighFrequencyOf organizationId row then 1 else 0 := by
  rw [hrow.after]
  exact List.countP_cons

/-- A row that is made leaves the quota kept exactly if it is off the plane, or finds room on it. -/
theorem WithinQuota.inserted_iff (hquota : WithinQuota db) (hrow : Inserted db row t) :
    WithinQuota t ↔ (row.highFrequency = true →
      db.highFrequencyCount row.organizationId < hfMaxMonitorsPerOrg) := by
  constructor
  · intro hafter hon
    have hle := hafter row.organizationId
    have hcounted : isHighFrequencyOf row.organizationId row = true := by
      simp [isHighFrequencyOf, hon]
    rw [count_inserted hrow, if_pos hcounted] at hle
    exact hle
  · intro hroom organizationId
    rw [count_inserted hrow]
    cases hon : isHighFrequencyOf organizationId row with
    | false => exact hquota organizationId
    | true =>
      simp only [isHighFrequencyOf, Bool.and_eq_true, decide_eq_true_eq] at hon
      obtain ⟨rfl, hon⟩ := hon
      exact hroom hon

theorem count_updated (h : Sound db) (hrow : Updated db existing row t) (organizationId : String) :
    t.highFrequencyCount organizationId ≤
      (others rowId existing db.rows).countP (isHighFrequencyOf organizationId) +
        if isHighFrequencyOf organizationId row then 1 else 0 := by
  have hid : rowId existing = rowId row := hrow.id.symm
  have hothers : others rowId existing db.rows = others rowId row db.rows := by
    unfold others
    rw [hid]
  rw [hrow.after, hothers]
  exact countP_replace_le h.ids _ row

theorem count_stored (h : Sound db) (hmem : existing ∈ db.rows) (organizationId : String) :
    db.highFrequencyCount organizationId =
      (others rowId existing db.rows).countP (isHighFrequencyOf organizationId) +
        if isHighFrequencyOf organizationId existing then 1 else 0 :=
  countP_others h.ids hmem _

theorem WithinQuota.updated (h : Sound db) (hquota : WithinQuota db)
    (hrow : Updated db existing row t) (hplane : row.highFrequency = existing.highFrequency) :
    WithinQuota t := by
  intro organizationId
  have hle := count_updated h hrow organizationId
  rw [isHighFrequencyOf_congr hrow.organizationId hplane,
    ← count_stored h hrow.stored organizationId] at hle
  exact hle.trans (hquota organizationId)

/-- A monitor that comes on the plane is counted with the others of its organization. -/
theorem WithinQuota.turned (h : Sound db) (hquota : WithinQuota db)
    (hrow : Updated db existing row t) (hroom : row.highFrequency = true →
      (others rowId existing db.rows).countP (isHighFrequencyOf row.organizationId) <
        hfMaxMonitorsPerOrg) : WithinQuota t := by
  intro organizationId
  have hle := count_updated h hrow organizationId
  have hstored := count_stored h hrow.stored organizationId
  have hbefore := hquota organizationId
  cases hon : isHighFrequencyOf organizationId row with
  | false =>
    rw [hon, if_neg Bool.false_ne_true] at hle
    omega
  | true =>
    simp only [isHighFrequencyOf, Bool.and_eq_true, decide_eq_true_eq] at hon
    obtain ⟨rfl, hplane⟩ := hon
    have hfits := hroom hplane
    split_ifs at hle
    · omega
    · omega

theorem WithinQuota.deleted (hquota : WithinQuota db) (monitorId : ℕ) :
    WithinQuota { db with
      rows := (db.rows.filter (·.id ≠ monitorId)).map (Monitor.release monitorId) } := by
  intro organizationId
  refine le_trans ?_ (hquota organizationId)
  rw [Db.highFrequencyCount, List.countP_map]
  exact List.filter_sublist.countP_le

end Keeps

/-! ### Runs -/

section Runs

variable {specs : String → CheckTypeSpec}

theorem commit_cases {α : Type} {P : Db → Prop} {db : Db} {result : Except FleetError (Db × α)}
    (hkept : P db) (hok : ∀ t a, result = .ok (t, a) → P t) : P (db.commit result) := by
  cases result with
  | error _ => exact hkept
  | ok found => exact hok found.1 found.2 rfl

theorem sound_step {db t : Db} {a : Action} (h : Sound db) (hstep : step specs db a = some t) :
    Sound t := by
  cases a with
  | createMonitor organizationId input drawn =>
    cases hstep
    refine commit_cases h fun t row hcall => ?_
    obtain ⟨hrow, htoken, -⟩ := createMonitor_ok hcall
    exact h.inserted hrow htoken
  | updateMonitor organizationId monitorId patch drawn =>
    cases hstep
    refine commit_cases h fun t row hcall => ?_
    obtain ⟨existing, hrow, -⟩ := updateMonitor_ok hcall
    exact h.updated hrow
  | cloneMonitor organizationId monitorId name =>
    cases hstep
    refine commit_cases h fun t row hcall => ?_
    cases hfind : db.find organizationId monitorId with
    | none =>
      rw [cloneMonitor, hfind] at hcall
      cases hcall
    | some source =>
      by_cases hpush : source.checkType = "push"
      · rw [cloneMonitor_of_push h name hfind hpush] at hcall
        cases hcall
      · obtain ⟨clone, -, -, htype, hrow, hclone⟩ := cloneMonitor_of_ne name hfind hpush
        obtain ⟨rfl, rfl⟩ := Prod.mk.inj (Except.ok.inj (hclone.symm.trans hcall))
        exact h.inserted hrow fun hcopy => absurd (htype.symm.trans hcopy) hpush
  | setHighFrequency organizationId monitorId settings =>
    cases hstep
    refine commit_cases h fun t row hcall => ?_
    obtain ⟨existing, hrow, -⟩ := setHighFrequency_ok hcall
    exact h.updated hrow
  | deleteMonitor organizationId monitorId =>
    cases hstep
    refine commit_cases h fun t released hcall => ?_
    rw [deleteMonitor_ok hcall]
    exact h.deleted monitorId
  | recordSource organizationId monitorId importSource importSourceId =>
    cases hstep
    refine commit_cases h fun t row hcall => ?_
    obtain ⟨existing, hrow, -⟩ := recordSource_ok hcall
    exact h.updated hrow

theorem sound_reachable {db : Db} (h : (machine specs).Reachable db) : Sound db :=
  h.induct sound_init fun _ _ _ _ => sound_step

/-- Only a copy can bring one monitor too many on the plane. -/
theorem withinQuota_step {db t : Db} {a : Action} (h : Sound db) (hquota : WithinQuota db)
    (hstep : step specs db a = some t) : WithinQuota t ↔ CloneFits db a := by
  cases a with
  | createMonitor organizationId input drawn =>
    cases hstep
    refine iff_of_true (commit_cases hquota fun t row hcall => ?_) trivial
    obtain ⟨hrow, -, hoff⟩ := createMonitor_ok hcall
    exact (hquota.inserted_iff hrow).mpr fun hon => absurd (hon.symm.trans hoff) (by decide)
  | updateMonitor organizationId monitorId patch drawn =>
    cases hstep
    refine iff_of_true (commit_cases hquota fun t row hcall => ?_) trivial
    obtain ⟨existing, hrow, hplane⟩ := updateMonitor_ok hcall
    exact hquota.updated h hrow hplane
  | cloneMonitor organizationId monitorId name =>
    cases hstep
    cases hfind : db.find organizationId monitorId with
    | none =>
      rw [cloneMonitor, hfind]
      exact iff_of_true hquota fun source hsource => by rw [hfind] at hsource; cases hsource
    | some source =>
      by_cases hpush : source.checkType = "push"
      · rw [cloneMonitor_of_push h name hfind hpush]
        refine iff_of_true hquota fun found hfound hne => ?_
        rw [hfind] at hfound
        exact absurd (Option.some.inj hfound ▸ hpush) hne
      · obtain ⟨clone, horganization, hplane, -, hrow, hclone⟩ :=
          cloneMonitor_of_ne name hfind hpush
        obtain ⟨-, -, hsource⟩ := find_spec hfind
        rw [hclone, Db.commit, hquota.inserted_iff hrow, hplane, horganization, hsource]
        constructor
        · intro hroom found hfound _ hon
          obtain rfl : source = found := Option.some.inj (hfind.symm.trans hfound)
          exact hroom hon
        · exact fun hfits => hfits source hfind hpush
  | setHighFrequency organizationId monitorId settings =>
    cases hstep
    refine iff_of_true (commit_cases hquota fun t row hcall => ?_) trivial
    obtain ⟨existing, hrow, hroom⟩ := setHighFrequency_ok hcall
    exact hquota.turned h hrow hroom
  | deleteMonitor organizationId monitorId =>
    cases hstep
    refine iff_of_true (commit_cases hquota fun t released hcall => ?_) trivial
    rw [deleteMonitor_ok hcall]
    exact hquota.deleted monitorId
  | recordSource organizationId monitorId importSource importSourceId =>
    cases hstep
    refine iff_of_true (commit_cases hquota fun t row hcall => ?_) trivial
    obtain ⟨existing, hrow, hplane⟩ := recordSource_ok hcall
    exact hquota.updated h hrow hplane

theorem withinQuota_init : WithinQuota ⟨[], 0⟩ := fun _ => Nat.zero_le _

theorem cloneMonitor_isOk_iff {db : Db} (h : Sound db) {organizationId : String} {monitorId : ℕ}
    {source : Monitor} (name : String) (hfind : db.find organizationId monitorId = some source) :
    (cloneMonitor db organizationId monitorId name).isOk = true ↔ source.checkType ≠ "push" := by
  by_cases hpush : source.checkType = "push"
  · rw [cloneMonitor_of_push h name hfind hpush]
    exact iff_of_false Bool.false_ne_true (not_not_intro hpush)
  · obtain ⟨clone, -, -, -, -, hclone⟩ := cloneMonitor_of_ne name hfind hpush
    rw [hclone]
    exact iff_of_true rfl hpush

end Runs

/-- In every state that calls can lead to, a copy is made of exactly the monitors that are no push
monitors; and no organization ever has too many monitors on the plane exactly if no copy of one of
them is made where there is no room for it. -/
theorem clone_constraints (specs : String → CheckTypeSpec) (acts : List Action) :
    ((machine specs).Always acts fun db => ∀ organizationId monitorId name source,
      db.find organizationId monitorId = some source →
        ((cloneMonitor db organizationId monitorId name).isOk = true ↔
          source.checkType ≠ "push")) ∧
    ((machine specs).Always acts WithinQuota ↔ (machine specs).EachStep acts CloneFits) := by
  constructor
  · exact Machine.Always.of_reachable (fun db hdb organizationId monitorId name source hfind =>
      cloneMonitor_isOk_iff (sound_reachable hdb) name hfind) acts
  · exact Machine.always_iff_eachStep withinQuota_init
      (fun db a t hdb hquota hstep => withinQuota_step (sound_reachable hdb) hquota hstep) acts

/-! ### A monitor that is copied again and again -/

/-- Specs of types whose settings are all in flat columns, as those of `tcp` are. -/
def flatSpecs (id : String) : CheckTypeSpec where
  id
  storedSchema := .flatColumnsOnly
  secretFields := []
  nodup := List.nodup_nil
  no_proto := List.not_mem_nil

def creates (checkType : String) : Action :=
  .createMonitor "acme" ⟨⟨"Checkout", checkType, none⟩, .undefined⟩ (List.replicate 32 0x61)

def turnsOn : Action := .setHighFrequency "acme" 0 ⟨true, some 1000⟩

def copies : Action := .cloneMonitor "acme" 0 "Checkout (copy)"

/-- The first monitor of the organization is on the plane, and so are its copies. -/
structure Copied (db : Db) (n : ℕ) : Prop where
  first : ∃ source, db.find "acme" 0 = some source ∧ source.checkType ≠ "push" ∧
    source.highFrequency = true
  next : db.nextId ≠ 0
  count : db.highFrequencyCount "acme" = n + 1

theorem Copied.step {db : Db} {n : ℕ} (h : Copied db n) :
    ∃ t, step flatSpecs db copies = some t ∧ Copied t (n + 1) := by
  obtain ⟨⟨source, hfind, hne, hon⟩, hnext, hcount⟩ := h
  obtain ⟨clone, horganization, hplane, -, hrow, hclone⟩ :=
    cloneMonitor_of_ne "Checkout (copy)" hfind hne
  obtain ⟨-, -, hsource⟩ := find_spec hfind
  refine ⟨_, rfl, ?_⟩
  rw [hclone]
  refine ⟨⟨source, ?_, hne, hon⟩, Nat.succ_ne_zero _, ?_⟩
  · have hother : clone.id ≠ 0 := hrow.id ▸ hnext
    rw [Db.commit, Db.find, List.find?_cons_of_neg (by simp [hother])]
    exact hfind
  · have hcounted : isHighFrequencyOf "acme" clone = true := by
      rw [isHighFrequencyOf_congr horganization hplane, isHighFrequencyOf, hsource, hon]
      rfl
    rw [Db.commit, count_inserted hrow, hcounted, if_pos rfl, hcount]

theorem exec_copies (n : ℕ) : ∃ db,
    (machine flatSpecs).exec (creates "tcp" :: turnsOn :: List.replicate n copies) = some db ∧
      Copied db n := by
  induction n with
  | zero =>
    refine ⟨_, rfl, ⟨_, rfl, by decide, rfl⟩, by decide, rfl⟩
  | succ n ih =>
    obtain ⟨db, hdb, hcopied⟩ := ih
    obtain ⟨t, ht, hcopied⟩ := hcopied.step
    refine ⟨t, ?_, hcopied⟩
    rw [List.replicate_succ', ← List.cons_append, ← List.cons_append]
    exact (machine flatSpecs).exec_concat_eq_some.mpr ⟨db, hdb, ht⟩

/-- A push monitor that was just created cannot be copied; and a monitor that is on the plane can
be copied fifty times, which makes fifty-one on it. -/
theorem copies_refused_and_uncounted :
    (∃ acts db source, (machine flatSpecs).exec acts = some db ∧
      db.find "acme" 0 = some source ∧
      (cloneMonitor db "acme" 0 "Checkout (copy)").isOk = false) ∧
    ∃ acts db, (machine flatSpecs).exec acts = some db ∧
      hfMaxMonitorsPerOrg < db.highFrequencyCount "acme" := by
  constructor
  · obtain ⟨db, hdb⟩ : ∃ db, (machine flatSpecs).exec [creates "push"] = some db := ⟨_, rfl⟩
    obtain ⟨source, hfind, htype⟩ : ∃ source, db.find "acme" 0 = some source ∧
        source.checkType = "push" := by
      cases hdb
      exact ⟨_, rfl, rfl⟩
    refine ⟨[creates "push"], db, source, hdb, hfind, ?_⟩
    rw [cloneMonitor_of_push (sound_reachable ⟨_, hdb⟩) _ hfind htype]
    rfl
  · obtain ⟨db, hdb, hcopied⟩ := exec_copies 50
    refine ⟨_, db, hdb, ?_⟩
    rw [hcopied.count]
    exact Nat.lt_succ_self 50

end Vigil.Monitors.Constraints
