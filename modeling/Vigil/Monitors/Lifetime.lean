import Vigil.Monitors.Intake
import Vigil.Notifications.SmtpConversation

/-! The other two operations that write what a file tells of a monitor: `cloneMonitor` and
`updateMonitor` of `monitors/service.ts`.  What they leave need not pass the form: the name of a
clone is cut at a hundred units, and an edit may take away a port that the type requires.  Every row
is still `Written`, which is all that an export asks of it. -/

namespace Vigil.Monitors.Lifetime

open Lib Js.Text Ledger.Canonical Config Target Portability RoundTrip
open Edit (Method)
open Net.Address (endsWith isDigit)
open Notifications.SmtpConversation (isLineTerminator)
open Push (trim trim_trim)

/-! ### Clones -/

def copyMatch (name : JsString) : Option (JsString × Option JsString) :=
  let based (before : JsString) (digits : Option JsString) :=
    some (before.take (before.length - 7), digits)
  let parts :=
    if endsWith name (js " (copy)") then based name none
    else if endsWith name (js ")") then
      let numbered := name.dropLast
      let digits := numbered.rtakeWhile isDigit
      let before := numbered.rdropWhile isDigit
      if digits ≠ [] ∧ endsWith before (js " (copy ") then based before (some digits) else none
    else none
  parts.filter fun parts => parts.1.all fun c => !isLineTerminator c

variable (increment : JsString → JsString)

def cloneName (name : JsString) : JsString :=
  match copyMatch name with
  | none => (name ++ js " (copy)").take 100
  | some (base, digits) =>
    (base ++ js " (copy " ++ digits.elim (js "2") increment ++ js ")").take 100

def cloned (id : ℕ) (source : Monitor) : Monitor :=
  { source with name := cloneName increment source.name, paused := true, id }

def findMonitor (db : Db) (organizationId monitorId : ℕ) : Option Monitor :=
  db.rows.find? fun row => row.id = monitorId && row.organizationId = organizationId

def cloneMonitor (db : Db) (organizationId monitorId : ℕ) (environment : Environment) : Db :=
  match findMonitor db organizationId monitorId, environment.createError with
  | some source, none => ⟨db.rows ++ [cloned increment environment.id source]⟩
  | _, _ => db

/-! ### Edits -/

/-- A field that is absent stays; `some none` stands for `null`. -/
structure UpdateMonitorInput where
  name : Option JsString
  checkType : Option JsString
  url : Option JsString
  port : Option (Option ℤ)
  method : Option Method
  intervalSeconds : Option ℤ
  timeoutMs : Option ℤ
  degradedThresholdMs : Option ℤ
  expectedStatusCode : Option (Option ℤ)
  bodyKeyword : Option (Option JsString)
  keywordAbsent : Option Bool
  tlsCheck : Option Bool
  tlsWarnDays : Option ℤ
  failureWindowSeconds : Option ℤ
  config : JsValue

def trimmedPatch (patch : UpdateMonitorInput) : UpdateMonitorInput :=
  { patch with
    name := patch.name.map trim
    checkType := patch.checkType.map trim
    url := patch.url.map trim
    bodyKeyword := patch.bodyKeyword.map fun keyword => keyword.bind fun keyword =>
      if (trim keyword).length > 0 then some (trim keyword) else none }

/-- `monitorFields` of the fields that are there. -/
def patchValid (patch : UpdateMonitorInput) : Bool :=
  patch.name.all (fun name => within name.length 1 100) &&
    patch.checkType.all (fun checkType => within checkType.length 1 64) &&
    patch.url.all (fun url => within url.length 1 2048) &&
    patch.port.all (fun port => port.all (within · 1 65535)) &&
    patch.intervalSeconds.all (within · 2 86400) && patch.timeoutMs.all (within · 1000 30000) &&
    patch.degradedThresholdMs.all (within · 100 30000) &&
    patch.expectedStatusCode.all (fun code => code.all (within · 100 599)) &&
    patch.bodyKeyword.all (fun keyword => keyword.all fun keyword => keyword.length ≤ 200) &&
    patch.tlsWarnDays.all (within · 1 365) && patch.failureWindowSeconds.all (within · 0 86400)

variable (specs : JsString → Option TypeSpec)

def refinePatch (drawn : JsString) (patch : UpdateMonitorInput) : Bool :=
  match patch.checkType with
  | none => true
  | some checkType =>
    match specs checkType with
    | none => false
    | some spec =>
      patch.url.all spec.targetSchema &&
        !(spec.port.any fun port =>
          port.required && port.default_.isNone && (patch.port.getD none).isNone) &&
        ((spec.storedSchema drawn).parseValue (orEmpty patch.config)).isSome

def updateMonitorSchema (drawn : JsString) (patch : UpdateMonitorInput) :
    Option UpdateMonitorInput :=
  if patchValid (trimmedPatch patch) && refinePatch specs drawn (trimmedPatch patch) then
    some (trimmedPatch patch)
  else none

/-- The values of a row with those of a patch over them, and the stored password put back. -/
def patched (existing : MonitorInput) (patch : UpdateMonitorInput) : MonitorInput where
  name := patch.name.getD existing.name
  checkType := patch.checkType.getD existing.checkType
  url := (patch.url.map fun next => restoreTargetSecret next (some existing.url)).getD existing.url
  port := patch.port.getD existing.port
  method := patch.method.getD existing.method
  intervalSeconds := patch.intervalSeconds.getD existing.intervalSeconds
  timeoutMs := patch.timeoutMs.getD existing.timeoutMs
  degradedThresholdMs := patch.degradedThresholdMs.getD existing.degradedThresholdMs
  expectedStatusCode := patch.expectedStatusCode.getD existing.expectedStatusCode
  bodyKeyword := patch.bodyKeyword.getD existing.bodyKeyword
  keywordAbsent := patch.keywordAbsent.getD existing.keywordAbsent
  tlsCheck := patch.tlsCheck.getD existing.tlsCheck
  tlsWarnDays := patch.tlsWarnDays.getD existing.tlsWarnDays
  failureWindowSeconds := patch.failureWindowSeconds.getD existing.failureWindowSeconds
  config := patch.config

def updatedColumns (drawn : JsString) (existing : MonitorInput) (patch : UpdateMonitorInput) :
    Option MonitorInput := do
  let spec ← specs (patch.checkType.getD existing.checkType)
  let stored :=
    if patch.checkType.getD existing.checkType = existing.checkType then existing.config
    else .undefined
  let config ← mergeConfig (spec.drawing drawn) stored patch.config none
  return { flatColumns spec (patched existing patch) with config }

def updateMonitor (db : Db) (organizationId monitorId : ℕ) (patch : UpdateMonitorInput)
    (environment : Environment) : Db :=
  match updateMonitorSchema specs environment.checkDraw patch,
    findMonitor db organizationId monitorId with
  | some patch, some existing =>
    match updatedColumns specs environment.draw existing.toMonitorInput patch,
      environment.createError with
    | some columns, none =>
      ⟨db.rows.map fun row =>
        if row.id = monitorId then { existing with toMonitorInput := columns } else row⟩
    | _, _ => db
  | _, _ => db

/-! ### Whatever is written -/

inductive Operation where
  | enter (call : Intake.Call)
  | clone (organizationId monitorId : ℕ) (environment : Environment)
  | update (organizationId monitorId : ℕ) (patch : UpdateMonitorInput) (environment : Environment)

def step (db : Db) : Operation → Db
  | .enter call => Intake.step specs db call
  | .clone organizationId monitorId environment =>
    cloneMonitor increment db organizationId monitorId environment
  | .update organizationId monitorId patch environment =>
    updateMonitor specs db organizationId monitorId patch environment

def machine : Machine Db Operation where
  init := ⟨[]⟩
  step db operation := some (step increment specs db operation)

theorem within_cloneName (name : JsString) :
    within (cloneName increment name).length 1 100 = true := by
  have hplain : (js " (copy)").length = 7 := rfl
  have hnumbered : (js " (copy ").length = 7 := rfl
  rw [within_iff]
  unfold cloneName
  split
  all_goals
    simp only [List.length_take, List.length_append]
    omega

theorem written_cloned {spec : TypeSpec} {source : Monitor}
    (h : Written spec source.toMonitorInput) (id : ℕ) :
    Written spec (cloned increment id source).toMonitorInput where
  checkType := h.checkType
  target := h.target
  bodyKeyword := h.bodyKeyword
  valid := by
    have hvalid := (fieldsValid_iff _).mp h.valid
    exact (fieldsValid_iff _).mpr { hvalid with name := within_cloneName increment source.name }
  columns := congrArg (fun columns : MonitorInput =>
    { columns with name := cloneName increment source.name }) h.columns
  keyed := h.keyed
  not_array := h.not_array

theorem getD_of_all {α : Type} {P : α → Prop} {valid : α → Bool} (hvalid : ∀ a, valid a = true → P a)
    {next : Option α} (hnext : next.all valid = true) {current : α} (hcurrent : P current) :
    P (next.getD current) := by
  cases next with
  | none => exact hcurrent
  | some a => exact hvalid a hnext

/-- The facts that make up `patchValid`. -/
structure PatchValid (patch : UpdateMonitorInput) : Prop where
  name : patch.name.all (fun name => within name.length 1 100) = true
  checkType : patch.checkType.all (fun checkType => within checkType.length 1 64) = true
  url : patch.url.all (fun url => within url.length 1 2048) = true
  port : patch.port.all (fun port => port.all (within · 1 65535)) = true
  intervalSeconds : patch.intervalSeconds.all (within · 2 86400) = true
  timeoutMs : patch.timeoutMs.all (within · 1000 30000) = true
  degradedThresholdMs : patch.degradedThresholdMs.all (within · 100 30000) = true
  expectedStatusCode : patch.expectedStatusCode.all (fun code => code.all (within · 100 599)) = true
  bodyKeyword : patch.bodyKeyword.all
    (fun keyword => keyword.all fun keyword => decide (keyword.length ≤ 200)) = true
  tlsWarnDays : patch.tlsWarnDays.all (within · 1 365) = true
  failureWindowSeconds : patch.failureWindowSeconds.all (within · 0 86400) = true

theorem patchValid_iff (patch : UpdateMonitorInput) :
    patchValid patch = true ↔ PatchValid patch := by
  simp only [patchValid, Bool.and_eq_true, and_assoc]
  constructor
  · rintro ⟨h1, h2, h3, h4, h5, h6, h7, h8, h9, h10, h11⟩
    exact ⟨h1, h2, h3, h4, h5, h6, h7, h8, h9, h10, h11⟩
  · rintro ⟨h1, h2, h3, h4, h5, h6, h7, h8, h9, h10, h11⟩
    exact ⟨h1, h2, h3, h4, h5, h6, h7, h8, h9, h10, h11⟩

section Update

variable {specs} {spec : TypeSpec} {existing : MonitorInput} {patch : UpdateMonitorInput}

/-- The target that is written tells what the patch, or the row, did. -/
theorem withoutSecret_patched (existing : MonitorInput) (patch : UpdateMonitorInput) :
    withoutSecret (patched existing patch).url = withoutSecret (patch.url.getD existing.url) := by
  unfold patched
  cases patch.url with
  | none => rfl
  | some next => exact withoutSecret_restoreTargetSecret next _

theorem fieldsValid_patched (h : Written spec existing) (hvalid : PatchValid patch) :
    FieldsValid (told (patched existing patch)) := by
  have hbefore := (fieldsValid_iff _).mp h.valid
  have hurl : within (withoutSecret (patched existing patch).url).length 1 2048 = true := by
    rw [withoutSecret_patched]
    exact getD_of_all (P := fun url => within (withoutSecret url).length 1 2048 = true)
      (fun _ => within_withoutSecret) hvalid.url hbefore.url
  exact
    { name := getD_of_all (fun _ => id) hvalid.name hbefore.name
      checkType := getD_of_all (fun _ => id) hvalid.checkType hbefore.checkType
      url := hurl
      port := getD_of_all (fun _ => id) hvalid.port hbefore.port
      intervalSeconds := getD_of_all (fun _ => id) hvalid.intervalSeconds hbefore.intervalSeconds
      timeoutMs := getD_of_all (fun _ => id) hvalid.timeoutMs hbefore.timeoutMs
      degradedThresholdMs :=
        getD_of_all (fun _ => id) hvalid.degradedThresholdMs hbefore.degradedThresholdMs
      expectedStatusCode :=
        getD_of_all (fun _ => id) hvalid.expectedStatusCode hbefore.expectedStatusCode
      bodyKeyword := getD_of_all (fun _ => id) hvalid.bodyKeyword hbefore.bodyKeyword
      tlsWarnDays := getD_of_all (fun _ => id) hvalid.tlsWarnDays hbefore.tlsWarnDays
      failureWindowSeconds :=
        getD_of_all (fun _ => id) hvalid.failureWindowSeconds hbefore.failureWindowSeconds }

/-! What the schema makes of a patch is trimmed. -/

theorem checkType_patched (h : Written spec existing) (patch : UpdateMonitorInput) :
    trim (patched existing (trimmedPatch patch)).checkType =
      (patched existing (trimmedPatch patch)).checkType := by
  unfold patched trimmedPatch
  dsimp only
  cases patch.checkType with
  | none => exact h.checkType
  | some checkType => exact trim_trim checkType

theorem target_patched (h : Written spec existing) (patch : UpdateMonitorInput) :
    trim (withoutSecret (patched existing (trimmedPatch patch)).url) =
      withoutSecret (patched existing (trimmedPatch patch)).url := by
  rw [withoutSecret_patched]
  unfold trimmedPatch
  cases patch.url with
  | none => exact h.target
  | some next => exact trim_withoutSecret (trim_trim next)

theorem keyword_patched (h : Written spec existing) (patch : UpdateMonitorInput) :
    ((patched existing (trimmedPatch patch)).bodyKeyword.bind fun keyword =>
      if (trim keyword).length > 0 then some (trim keyword) else none) =
    (patched existing (trimmedPatch patch)).bodyKeyword := by
  unfold patched trimmedPatch
  dsimp only
  cases patch.bodyKeyword with
  | none => exact h.bodyKeyword
  | some keyword => exact keyword_trimmed keyword

/-- An edit that passes the schema leaves a written row, of whatever type. -/
theorem written_updatedColumns
    (hsound : ∀ checkType spec, specs checkType = some spec → SoundType spec)
    (h : Written spec existing) (hvalid : PatchValid (trimmedPatch patch)) {drawn : JsString}
    {columns : MonitorInput}
    (hcolumns : updatedColumns specs drawn existing (trimmedPatch patch) = some columns) :
    ∃ spec, specs columns.checkType = some spec ∧ Written spec columns := by
  obtain ⟨spec', hspec', hcolumns⟩ := Option.bind_eq_some_iff.mp hcolumns
  obtain ⟨config, hconfig, hkept⟩ := Option.bind_eq_some_iff.mp hcolumns
  cases hkept
  obtain ⟨hkeyed, harray⟩ := (hsound _ _ hspec').config _ _ _ hconfig
  refine ⟨spec', hspec', ?_⟩
  exact
    { checkType := checkType_patched h patch
      target := target_patched h patch
      bodyKeyword := by
        unfold flatColumns
        dsimp only
        split
        · exact keyword_patched h patch
        · rfl
      valid := (fieldsValid_iff _).mpr
        (fieldsValid_flatColumns (hsound _ _ hspec') (fieldsValid_patched h hvalid) config)
      columns := congrArg (fun columns : MonitorInput => { columns with config })
        (flatColumns_flatColumns spec' (patched existing (trimmedPatch patch)))
      keyed := hkeyed
      not_array := harray }

end Update

/-! ### Every row -/

section Rows

variable {specs} {increment}
  (hsound : ∀ checkType spec, specs checkType = some spec → SoundType spec)

variable {db : Db}

theorem mem_of_findMonitor {organizationId monitorId : ℕ} {row : Monitor}
    (h : findMonitor db organizationId monitorId = some row) : row ∈ db.rows :=
  List.mem_of_find?_eq_some h

theorem allWritten_cloneMonitor (h : AllWritten specs db) (organizationId monitorId : ℕ)
    (environment : Environment) :
    AllWritten specs (cloneMonitor increment db organizationId monitorId environment) := by
  unfold cloneMonitor
  split
  · rename_i source hfind hinserted
    intro row hrow
    rcases List.mem_append.mp hrow with hrow | hrow
    · exact h row hrow
    · obtain rfl := List.mem_singleton.mp hrow
      obtain ⟨spec, hspec, hwritten⟩ := h source (mem_of_findMonitor hfind)
      exact ⟨spec, hspec, written_cloned increment hwritten environment.id⟩
  · exact h

include hsound

theorem allWritten_updateMonitor (h : AllWritten specs db) (organizationId monitorId : ℕ)
    (patch : UpdateMonitorInput) (environment : Environment) :
    AllWritten specs (updateMonitor specs db organizationId monitorId patch environment) := by
  unfold updateMonitor
  split
  · rename_i validated existing hschema hfind
    split
    · rename_i columns hcolumns hinserted
      unfold updateMonitorSchema at hschema
      split at hschema
      · rename_i htaken
        cases hschema
        have hvalid := (patchValid_iff _).mp (Bool.and_eq_true_iff.mp htaken).1
        obtain ⟨spec, -, hwritten⟩ := h existing (mem_of_findMonitor hfind)
        intro row hrow
        obtain ⟨before, hbefore, rfl⟩ := List.mem_map.mp hrow
        split
        · exact written_updatedColumns hsound hwritten hvalid hcolumns
        · exact h before hbefore
      · cases hschema
    · exact h
  · exact h

theorem allWritten_step (h : AllWritten specs db) (operation : Operation) :
    AllWritten specs (step increment specs db operation) := by
  cases operation with
  | enter call =>
    obtain ⟨added, hstep, hadded⟩ := Intake.step_eq hsound db call
    unfold step
    dsimp only
    rw [hstep]
    intro row hrow
    rcases List.mem_append.mp hrow with hrow | hrow
    · exact h row hrow
    · exact hadded.written row hrow
  | clone organizationId monitorId environment =>
    exact allWritten_cloneMonitor h organizationId monitorId environment
  | update organizationId monitorId patch environment =>
    exact allWritten_updateMonitor hsound h organizationId monitorId patch environment

/-- In whatever order the form, files, clones and edits come, every row is a written one. -/
theorem allWritten_of_reachable (h : (machine increment specs).Reachable db) :
    AllWritten specs db := by
  apply h.induct (P := AllWritten specs)
  · exact fun row hrow => absurd hrow List.not_mem_nil
  · intro before operation after _ hbefore hstep
    obtain rfl := Option.some_inj.mp hstep
    exact allWritten_step hsound hbefore operation

/-- So any selection can be exported, and the file schema takes every record of the file. -/
theorem readable_of_reachable (h : (machine increment specs).Reachable db) (organizationId : ℕ)
    (monitorIds : List ℕ) :
    ∃ exported, exportMonitors specs db organizationId monitorIds = some exported ∧
      ∀ turns, Unaltered exported turns →
        readRecords turns = some (exported.zip (turns.map (·.environment))) := by
  have hwritten := allWritten_of_reachable hsound h
  obtain ⟨exported, hexport⟩ := Intake.exists_exportMonitors hwritten organizationId monitorIds
  exact ⟨exported, hexport, fun turns hunaltered =>
    readRecords_unaltered (fun _ => isRecord_of_mem hwritten hexport) hunaltered⟩

end Rows

/-! ### What the form would not leave -/

/-- The clone of a name of 99 characters ends with a blank, which the form takes away. -/
example : cloneName id (List.replicate 99 0x61) = List.replicate 99 0x61 ++ js " " := by
  decide +kernel

/-- A patch that takes away the port and nothing else. -/
def noPort : UpdateMonitorInput where
  name := none
  checkType := none
  url := none
  port := some none
  method := none
  intervalSeconds := none
  timeoutMs := none
  degradedThresholdMs := none
  expectedStatusCode := none
  bodyKeyword := none
  keywordAbsent := none
  tlsCheck := none
  tlsWarnDays := none
  failureWindowSeconds := none
  config := .undefined

/-- An edit that names neither the type nor the target takes a required port away. -/
example : (updateMonitorSchema (fun _ => some { redisType with port := some ⟨true, none⟩ }) []
    noPort).isSome = true ∧
    (updatedColumns (fun _ => some { redisType with port := some ⟨true, none⟩ }) []
      cache.toMonitorInput noPort).map (·.port) = some none := by
  decide +kernel

end Vigil.Monitors.Lifetime
