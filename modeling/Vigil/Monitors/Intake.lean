import Vigil.Monitors.RoundTrip

/-! The two ways in which monitors are entered: the create form, `createMonitorAction`, and a file,
`importMonitors`.  Both send what they get through `createMonitorSchema` and `createMonitor`; the
second may stop between the insert and the pause.  Whatever is entered, by whichever organization
and in whatever order, can be exported, and another installation accounts for each record of the
file. -/

namespace Vigil.Monitors.Intake

open Lib
open Js.Text Config Portability RoundTrip

variable (specs : JsString → Option TypeSpec)

/-- What an organization enters. -/
inductive Call where
  | create (organizationId : ℕ) (input : MonitorInput) (environment : Environment)
  | importFile (organizationId : ℕ) (header : Header) (turns : List Turn)

/-- The form checks the values; the service is sent what the schema made of them. -/
def createMonitorAction (db : Db) (organizationId : ℕ) (input : MonitorInput)
    (environment : Environment) : Db :=
  match createMonitorSchema specs environment.checkDraw input with
  | none => db
  | some validated =>
    match createMonitor specs environment organizationId validated with
    | .error _ => db
    | .ok monitor => ⟨db.rows ++ [monitor]⟩

def step (db : Db) : Call → Db
  | .create organizationId input environment =>
    createMonitorAction specs db organizationId input environment
  | .importFile organizationId header turns =>
    match importMonitors specs organizationId db header turns with
    | .error _ => db
    | .ok (after, _) => after

/-- Calls of any organizations, in any order, on a table that was empty. -/
def machine : Machine Db Call where
  init := ⟨[]⟩
  step db call := some (step specs db call)

/-! ### Every row is a stored monitor -/

section

variable {specs} (hsound : ∀ checkType spec, specs checkType = some spec → SoundType spec)

theorem allStored_append {rows added : List Monitor} (h : AllStored specs ⟨rows⟩)
    (hadded : AllStored specs ⟨added⟩) : AllStored specs ⟨rows ++ added⟩ := by
  intro row hrow
  rcases List.mem_append.mp hrow with hrow | hrow
  · exact h row hrow
  · exact hadded row hrow

include hsound

theorem createMonitorAction_eq (db : Db) (organizationId : ℕ) (input : MonitorInput)
    (environment : Environment) :
    ∃ added, createMonitorAction specs db organizationId input environment =
      ⟨db.rows ++ added⟩ ∧ AllStored specs ⟨added⟩ := by
  have hnothing : ∃ added, db = ⟨db.rows ++ added⟩ ∧ AllStored specs ⟨added⟩ :=
    ⟨[], by rw [List.append_nil], fun row hrow => absurd hrow List.not_mem_nil⟩
  unfold createMonitorAction
  cases hform : createMonitorSchema specs environment.checkDraw input with
  | none => exact hnothing
  | some validated =>
    dsimp only
    cases hcreated : createMonitor specs environment organizationId validated with
    | error reason => exact hnothing
    | ok monitor =>
      refine ⟨[monitor], rfl, fun row hrow => ?_⟩
      obtain rfl := List.mem_singleton.mp hrow
      exact stored_of_createMonitor hform hcreated (hsound _)

theorem stored_of_created {organizationId : ℕ} {environment : Environment}
    {record : ExportedMonitor} {spec : TypeSpec} {monitor : Monitor}
    (h : created specs organizationId environment record spec = .ok monitor) :
    ∃ spec, specs monitor.checkType = some spec ∧ Stored spec monitor.toMonitorInput := by
  unfold created at h
  cases hform : createMonitorSchema specs environment.checkDraw (reentered spec record) with
  | none =>
    rw [hform] at h
    cases h
  | some validated =>
    rw [hform] at h
    exact stored_of_createMonitor hform h (hsound _)

theorem allStored_addedBy (organizationId : ℕ) (r : ExportedMonitor × Environment) :
    AllStored specs ⟨addedBy specs organizationId r⟩ := by
  obtain ⟨record, environment⟩ := r
  intro row hrow
  dsimp only [addedBy] at hrow
  cases hspec : specs record.checkType with
  | none =>
    rw [importRecord_unknown hspec] at hrow
    cases hrow
  | some spec =>
    cases hcreated : created specs organizationId environment record spec with
    | error reason =>
      rw [importRecord_error hspec hcreated] at hrow
      cases hrow
    | ok monitor =>
      have hstored := stored_of_created hsound hcreated
      by_cases hfails : record.paused = true ∧ environment.pauseError ≠ none
      · obtain ⟨message, hpause⟩ := Option.ne_none_iff_exists'.mp hfails.2
        rw [importRecord_left hspec hcreated hfails.1 hpause] at hrow
        obtain rfl := List.mem_singleton.mp hrow
        exact hstored
      · have hpause : record.paused = true → environment.pauseError = none := fun hpaused =>
          not_not.mp fun hne => hfails ⟨hpaused, hne⟩
        rw [importRecord_ok hspec hcreated hpause] at hrow
        -- no column of the form is written by the pause
        obtain rfl := List.mem_singleton.mp hrow
        exact hstored

theorem importMonitors_eq {organizationId : ℕ} {db after : Db} {header : Header}
    {turns : List Turn} {outcomes : List ImportOutcome}
    (himport : importMonitors specs organizationId db header turns = .ok (after, outcomes)) :
    ∃ added, after = ⟨db.rows ++ added⟩ ∧ AllStored specs ⟨added⟩ := by
  unfold importMonitors at himport
  split at himport
  · cases himport
  · split at himport
    · cases himport
    · rename_i records _
      split at himport
      · cases himport
      · rw [foldl_importRecord] at himport
        obtain ⟨rfl, -⟩ := Prod.mk.inj (Except.ok.inj himport)
        refine ⟨_, rfl, fun row hrow => ?_⟩
        obtain ⟨r, -, hmem⟩ := List.mem_flatMap.mp hrow
        exact allStored_addedBy hsound organizationId r row hmem

/-- A call adds stored monitors, and leaves the rows that are there. -/
theorem step_eq (db : Db) (call : Call) :
    ∃ added, step specs db call = ⟨db.rows ++ added⟩ ∧ AllStored specs ⟨added⟩ := by
  cases call with
  | create organizationId input environment =>
    exact createMonitorAction_eq hsound db organizationId input environment
  | importFile organizationId header turns =>
    unfold step
    dsimp only
    cases himport : importMonitors specs organizationId db header turns with
    | error reason =>
      exact ⟨[], by rw [List.append_nil], fun row hrow => absurd hrow List.not_mem_nil⟩
    | ok result => exact importMonitors_eq hsound himport

theorem allStored_step {db : Db} (h : AllStored specs db) (call : Call) :
    AllStored specs (step specs db call) := by
  obtain ⟨added, hstep, hadded⟩ := step_eq hsound db call
  rw [hstep]
  exact allStored_append h hadded

theorem allStored_of_reachable {db : Db} (h : (machine specs).Reachable db) :
    AllStored specs db := by
  apply h.induct (P := AllStored specs)
  · exact fun row hrow => absurd hrow List.not_mem_nil
  · intro before call after _ hbefore hstep
    cases hstep
    exact allStored_step hsound hbefore call

end

/-! ### What is entered can be moved -/

section

variable {specs}

theorem exists_exportMonitors {db : Db} (h : AllWritten specs db) (organizationId : ℕ)
    (monitorIds : List ℕ) :
    ∃ exported, exportMonitors specs db organizationId monitorIds = some exported := by
  unfold exportMonitors
  generalize hrows : db.rows.filter _ = rows
  have hkept : ∀ row ∈ rows, ∃ spec, specs row.checkType = some spec := fun row hrow =>
    (h row (List.mem_of_mem_filter (hrows ▸ hrow))).imp fun _ hspec => hspec.1
  clear hrows
  induction rows with
  | nil => exact ⟨[], rfl⟩
  | cons row rows ih =>
    obtain ⟨spec, hspec⟩ := hkept row List.mem_cons_self
    obtain ⟨exported, hexported⟩ := ih fun row hrow => hkept row (List.mem_cons_of_mem _ hrow)
    refine ⟨exportedOf spec row :: exported, ?_⟩
    rw [List.mapM_cons, toExported_eq hspec, hexported]
    rfl

/-- A file is no way around the rules of the form: every row is a stored monitor.  So whatever is
entered can be exported, and an import of the file has an outcome for each of the monitors, in the
order of the file. -/
theorem entered_can_be_moved
    (hsound : ∀ checkType spec, specs checkType = some spec → SoundType spec) {db : Db}
    (hentered : (machine specs).Reachable db) (source : ℕ) (monitorIds : List ℕ) :
    AllStored specs db ∧
    ∃ exported, exportMonitors specs db source monitorIds = some exported ∧
      ∀ (target : ℕ) (db : Db) (exportedAt : JsString) (turns : List Turn),
        Unaltered exported turns →
        ∃ after outcomes,
          importMonitors specs target db (exportHeader exportedAt) turns = .ok (after, outcomes) ∧
          outcomes.map (fun outcome => (outcome.name, outcome.checkType)) =
            exported.map fun record => (record.name, record.checkType) := by
  have hstored := allStored_of_reachable hsound hentered
  obtain ⟨exported, hexport⟩ := exists_exportMonitors hstored.written source monitorIds
  refine ⟨hstored, exported, hexport, fun target db exportedAt turns hunaltered => ?_⟩
  have hread := readRecords_unaltered (fun _ => isRecord_of_mem hstored.written hexport) hunaltered
  refine ⟨_, _, importMonitors_of_read hread db exportedAt, ?_⟩
  have hnames : ∀ r, ((outcomeFor specs target r).name, (outcomeFor specs target r).checkType) =
      (r.1.name, r.1.checkType) := fun r =>
    Prod.ext_iff.mpr (@importRecord_name specs target r.1 r.2)
  have hlength : exported.length ≤ (turns.map (·.environment)).length := by
    rw [List.length_map]
    exact (length_unaltered hunaltered).le
  rw [List.map_map]
  calc (exported.zip (turns.map (·.environment))).map
        ((fun outcome => (outcome.name, outcome.checkType)) ∘ outcomeFor specs target)
      = ((exported.zip (turns.map (·.environment))).map Prod.fst).map
          fun record => (record.name, record.checkType) := by
        rw [List.map_map]
        exact List.map_congr_left fun r _ => hnames r
    _ = exported.map fun record => (record.name, record.checkType) := by
        rw [List.map_fst_zip hlength]

end

/-! ### A Redis server -/

theorem sound_redisType : SoundType redisType where
  port := by decide +kernel
  config := by
    intro drawn o config h
    obtain ⟨password, hpassword, rfl⟩ := Option.map_eq_some_iff.mp
      (show redisStoredSchema o = some config from h)
    have hempty : asRecord password = [] := by
      split at hpassword
      · split at hpassword
        · cases hpassword
          split <;> rfl
        · cases hpassword
      · cases hpassword
        rfl
      · cases hpassword
        rfl
      · cases hpassword
    refine ⟨⟨List.nodup_singleton _, fun e he => ?_⟩, nofun⟩
    rw [List.mem_singleton.mp he, hempty]
    exact List.nodup_nil

/-- The server is entered in the form, and moved. -/
theorem moved_cache : AllStored redisOnly ⟨[cache]⟩ ∧ ∃ exported,
    exportMonitors redisOnly ⟨[cache]⟩ 1 [] = some exported ∧
    ∀ (target : ℕ) (db : Db) (exportedAt : JsString) (turns : List Turn),
      Unaltered exported turns →
      ∃ after outcomes,
        importMonitors redisOnly target db (exportHeader exportedAt) turns =
          .ok (after, outcomes) ∧
        outcomes.map (fun outcome => (outcome.name, outcome.checkType)) =
          exported.map fun record => (record.name, record.checkType) := by
  have hsound : ∀ checkType spec, redisOnly checkType = some spec → SoundType spec := by
    intro checkType spec h
    unfold redisOnly at h
    split at h
    · cases h
      exact sound_redisType
    · cases h
  exact entered_can_be_moved hsound ⟨[.create 1 cache.toMonitorInput (fine 1)], rfl⟩ 1 []

end Vigil.Monitors.Intake
