import Vigil.Monitors.Portability

/-! A file that is imported as it was exported.  Each record becomes a monitor with the fields of
the one that it was made from, but for the secrets that the file masks, and these are named: so far
as its check type takes the target without the password and the config without the secrets. -/

namespace Vigil.Monitors.RoundTrip

open Js.Text Js.Object Ledger.Canonical Config Target Portability
open Edit (Method)
open Push (trim trim_trim trim_of_ends)

variable (specs : JsString → Option TypeSpec)

/-! ### Stored monitors -/

/-- What the create form and `monitorColumnsFor` see to before a monitor of the type is stored. -/
structure Stored (spec : TypeSpec) (monitor : MonitorInput) : Prop where
  trimmed : trimmed monitor = monitor
  valid : fieldsValid monitor = true
  port : (spec.port.any fun port =>
    port.required && port.default_.isNone && monitor.port.isNone) = false
  columns : flatColumns spec monitor = monitor
  keyed : WellKeyed monitor.config
  not_array : ∀ items, monitor.config ≠ .array items

/-- Every row is a stored monitor of a type that the build has. -/
def AllStored (db : Db) : Prop :=
  ∀ row ∈ db.rows, ∃ spec, specs row.checkType = some spec ∧ Stored spec row.toMonitorInput

/-- The target with the mask taken out again. -/
def withoutSecret (url : JsString) : JsString := restoreTargetSecret (maskTargetSecret url) none

def told (monitor : MonitorInput) : MonitorInput :=
  { monitor with url := withoutSecret monitor.url }

structure Written (spec : TypeSpec) (monitor : MonitorInput) : Prop where
  checkType : trim monitor.checkType = monitor.checkType
  target : trim (withoutSecret monitor.url) = withoutSecret monitor.url
  bodyKeyword : (monitor.bodyKeyword.bind fun keyword =>
    if (trim keyword).length > 0 then some (trim keyword) else none) = monitor.bodyKeyword
  valid : fieldsValid (told monitor) = true
  columns : flatColumns spec monitor = monitor
  keyed : WellKeyed monitor.config
  not_array : ∀ items, monitor.config ≠ .array items

def AllWritten (db : Db) : Prop :=
  ∀ row ∈ db.rows, ∃ spec, specs row.checkType = some spec ∧ Written spec row.toMonitorInput

/-- The form leaves a keyword that it has trimmed, or taken away. -/
theorem keyword_trimmed (keyword : Option JsString) :
    ((keyword.bind fun keyword => if (trim keyword).length > 0 then some (trim keyword) else none).bind
      fun keyword => if (trim keyword).length > 0 then some (trim keyword) else none) =
    keyword.bind fun keyword => if (trim keyword).length > 0 then some (trim keyword) else none := by
  cases keyword with
  | none => rfl
  | some keyword =>
    rw [Option.bind_some]
    split
    · rename_i hlength
      rw [Option.bind_some, trim_trim, if_pos hlength]
    · rfl

theorem trimmed_trimmed (input : MonitorInput) : trimmed (trimmed input) = trimmed input := by
  unfold trimmed
  dsimp only
  rw [trim_trim, trim_trim, trim_trim, keyword_trimmed]

theorem flatColumns_flatColumns (spec : TypeSpec) (input : MonitorInput) :
    flatColumns spec (flatColumns spec input) = flatColumns spec input := by
  unfold flatColumns
  dsimp only
  congr 1
  · cases spec.port with
    | none => rfl
    | some port => rw [Option.bind_some, Option.bind_some, Option.or_assoc, Option.or_self]
  all_goals split <;> rfl

theorem within_iff {value minimum maximum : ℤ} :
    within value minimum maximum = true ↔ minimum ≤ value ∧ value ≤ maximum := by
  rw [within, Bool.and_eq_true, decide_eq_true_eq, decide_eq_true_eq]

/-- The facts that make up `fieldsValid`. -/
structure FieldsValid (input : MonitorInput) : Prop where
  name : within input.name.length 1 100 = true
  checkType : within input.checkType.length 1 64 = true
  url : within input.url.length 1 2048 = true
  port : input.port.all (within · 1 65535) = true
  intervalSeconds : within input.intervalSeconds 2 86400 = true
  timeoutMs : within input.timeoutMs 1000 30000 = true
  degradedThresholdMs : within input.degradedThresholdMs 100 30000 = true
  expectedStatusCode : input.expectedStatusCode.all (within · 100 599) = true
  bodyKeyword : input.bodyKeyword.all (fun keyword => decide (keyword.length ≤ 200)) = true
  tlsWarnDays : within input.tlsWarnDays 1 365 = true
  failureWindowSeconds : within input.failureWindowSeconds 0 86400 = true

theorem fieldsValid_iff (input : MonitorInput) : fieldsValid input = true ↔ FieldsValid input := by
  simp only [fieldsValid, Bool.and_eq_true, and_assoc]
  constructor
  · rintro ⟨h1, h2, h3, h4, h5, h6, h7, h8, h9, h10, h11⟩
    exact ⟨h1, h2, h3, h4, h5, h6, h7, h8, h9, h10, h11⟩
  · rintro ⟨h1, h2, h3, h4, h5, h6, h7, h8, h9, h10, h11⟩
    exact ⟨h1, h2, h3, h4, h5, h6, h7, h8, h9, h10, h11⟩

/-- What holds of the specs of the build: a port that a type has by default is one, and a config is
an object or `null`. -/
structure SoundType (spec : TypeSpec) : Prop where
  port : spec.port.all (fun port => port.default_.all (within · 1 65535)) = true
  config : ∀ drawn o config, (spec.storedSchema drawn).parse o = some config →
    WellKeyed config ∧ ∀ items, config ≠ .array items

variable {specs}

variable {input : MonitorInput} {url : JsString} {config : JsValue}

theorem trimmed_flatColumns (spec : TypeSpec) (h : trimmed input = input) (config : JsValue) :
    trimmed { flatColumns spec input with config } = { flatColumns spec input with config } := by
  have hname : trim input.name = input.name := congrArg MonitorInput.name h
  have hcheckType : trim input.checkType = input.checkType := congrArg MonitorInput.checkType h
  have hurl : trim input.url = input.url := congrArg MonitorInput.url h
  have hkeyword : (input.bodyKeyword.bind fun keyword =>
      if (trim keyword).length > 0 then some (trim keyword) else none) = input.bodyKeyword :=
    congrArg MonitorInput.bodyKeyword h
  unfold trimmed flatColumns
  dsimp only
  rw [hname, hcheckType, hurl]
  congr 1
  split
  · exact hkeyword
  · rfl

theorem fieldsValid_flatColumns {spec : TypeSpec} (hsound : SoundType spec) (h : FieldsValid input)
    (config : JsValue) : FieldsValid { flatColumns spec input with config } := by
  have hport : (flatColumns spec input).port.all (within · 1 65535) = true := by
    show (spec.port.bind fun port => input.port.or port.default_).all _ = true
    have hdefault := hsound.port
    cases hspec : spec.port with
    | none => rfl
    | some port =>
      rw [hspec] at hdefault
      rw [Option.bind_some]
      cases hinput : input.port with
      | none => exact hdefault
      | some value =>
        have hvalue := h.port
        rw [hinput] at hvalue
        exact hvalue
  refine ⟨h.name, h.checkType, h.url, hport, h.intervalSeconds, h.timeoutMs,
    h.degradedThresholdMs, ?_, ?_, ?_, h.failureWindowSeconds⟩
  all_goals
    unfold flatColumns
    dsimp only
    split
  · exact h.expectedStatusCode
  · rfl
  · exact h.bodyKeyword
  · rfl
  · exact h.tlsWarnDays
  · decide

/-- The port that is kept is there where the type requires one. -/
theorem port_flatColumns {spec : TypeSpec}
    (h : (spec.port.any fun port => port.required && port.default_.isNone && input.port.isNone) =
      false) : (spec.port.any fun port =>
      port.required && port.default_.isNone && (flatColumns spec input).port.isNone) = false := by
  show (spec.port.any fun port => port.required && port.default_.isNone &&
    (spec.port.bind fun port => input.port.or port.default_).isNone) = false
  cases hport : spec.port with
  | none => rfl
  | some port =>
    rw [hport, Option.any_some] at h
    rw [Option.any_some, Option.bind_some]
    cases hdefault : port.default_ with
    | none =>
      rw [hdefault] at h
      rw [Option.or_none]
      exact h
    | some value => rw [Option.isNone_some, Bool.and_false, Bool.false_and]

/-- A monitor that the create form and the service let through is a stored one. -/
theorem stored_of_createMonitor {drawn : JsString} {input validated : MonitorInput}
    {environment : Environment} {organizationId : ℕ} {monitor : Monitor}
    (hform : createMonitorSchema specs drawn input = some validated)
    (hcreated : createMonitor specs environment organizationId validated = .ok monitor)
    (hsound : ∀ spec, specs validated.checkType = some spec → SoundType spec) :
    ∃ spec, specs monitor.checkType = some spec ∧ Stored spec monitor.toMonitorInput := by
  unfold createMonitorSchema at hform
  split at hform
  · rename_i htaken
    cases hform
    obtain ⟨hvalid, hrefined⟩ := Bool.and_eq_true_iff.mp htaken
    unfold createMonitor at hcreated
    unfold refineTarget at hrefined
    cases hspec : specs (trimmed input).checkType with
    | none =>
      rw [hspec] at hcreated
      cases hcreated
    | some spec =>
      rw [hspec] at hcreated hrefined
      dsimp only at hcreated hrefined
      cases hcolumns : monitorColumnsFor spec environment.draw (trimmed input) with
      | none =>
        rw [hcolumns] at hcreated
        cases hcreated
      | some columns =>
        rw [hcolumns] at hcreated
        obtain ⟨config, hconfig, hkept⟩ := Option.bind_eq_some_iff.mp hcolumns
        cases hkept
        cases hinserted : environment.createError with
        | some message =>
          rw [hinserted] at hcreated
          cases hcreated
        | none =>
          rw [hinserted] at hcreated
          cases hcreated
          have hspecSound := hsound spec hspec
          obtain ⟨hkeyed, harray⟩ := hspecSound.config _ _ _ hconfig
          rw [Bool.and_eq_true, Bool.and_eq_true, Bool.not_eq_true'] at hrefined
          refine ⟨spec, hspec, ?_⟩
          exact
            { trimmed := trimmed_flatColumns spec (trimmed_trimmed input) config
              valid := (fieldsValid_iff _).mpr
                (fieldsValid_flatColumns hspecSound ((fieldsValid_iff _).mp hvalid) config)
              port := port_flatColumns hrefined.1.2
              columns := congrArg (fun columns : MonitorInput => { columns with config })
                (flatColumns_flatColumns spec (trimmed input))
              keyed := hkeyed
              not_array := harray }
  · cases hform

variable (specs)

/-! ### The two ways -/

/-- The file has the records of the export, as they are. -/
def Unaltered (exported : List ExportedMonitor) (turns : List Turn) : Prop :=
  turns.map (·.record) = exported.map recordOf

/-- The name of a secret that the file masks. -/
def MaskedSecret (spec : TypeSpec) (config : JsValue) (name : JsString) : Prop :=
  ∃ field ∈ spec.secretFields, ∃ value, (field, value) ∈ asRecord config ∧
    (isMask value = true ∧ name = field ∨
      ∃ m, value = .object m ∧ ∃ e ∈ m, isMask e.2 = true ∧ name = entryName field e.1)

local instance lawfulNames : LawfulBEq JsString := inferInstance

/-- The copy has the value of an entry, unless it is a masked secret. -/
def KeepsEntry (spec : TypeSpec) (copy : Entries) (e : JsString × JsValue) : Prop :=
  if e.1 ∈ spec.secretFields then
    match e.2 with
    | .object m => ∃ m', copy.lookup e.1 = some (.object m') ∧
      ∀ entry ∈ m, isMask entry.2 = false → m'.lookup entry.1 = some entry.2
    | value => isMask value = false → copy.lookup e.1 = some value
  else copy.lookup e.1 = some e.2

def KeepsConfig (spec : TypeSpec) : JsValue → JsValue → Prop
  | .object entries, copy => ∀ e ∈ entries, KeepsEntry spec (asRecord copy) e
  | config, copy => copy = config

/-- A record is imported as a monitor with its fields, and the secrets that it masks are named. -/
structure Copied (spec : TypeSpec) (record : ExportedMonitor) (copy : Monitor)
    (outcome : ImportOutcome) : Prop where
  imported : outcome.imported = true
  reported : outcome.monitorId = some copy.id
  fields : { copy.toExportedMonitor with url := record.url, config := record.config } = record
  url : copy.url = record.url ∨
    js "url" ∈ outcome.secretsToReenter ∧ copy.url = restoreTargetSecret record.url none
  config : KeepsConfig spec record.config copy.config
  secrets : ∀ name, MaskedSecret spec record.config name → name ∈ outcome.secretsToReenter

/-- A monitor and an outcome that an import may leave of a record. -/
def IsCopy (record : ExportedMonitor) (r : Monitor × ImportOutcome) : Prop :=
  ∃ spec, specs record.checkType = some spec ∧ Copied spec record r.1 r.2

/-- Each of the exported monitors is copied. -/
def RoundTrips (organizationId : ℕ) (db : Db) (exportedAt : JsString)
    (exported : List ExportedMonitor) (turns : List Turn) : Prop :=
  ∃ copies outcomes,
    importMonitors specs organizationId db (exportHeader exportedAt) turns =
      .ok (⟨db.rows ++ copies⟩, outcomes) ∧
    copies.length = exported.length ∧
    List.Forall₂ (IsCopy specs) exported (copies.zip outcomes)

/-- The form leaves the name as it is and misses no port, the check type takes the target without
its password and the config without its secrets, of which it keeps the rest, and the database takes
the monitor. -/
structure Reenterable (spec : TypeSpec) (record : ExportedMonitor) (environment : Environment) :
    Prop where
  name : trim record.name = record.name
  port : (spec.port.any fun port =>
    port.required && port.default_.isNone && record.port.isNone) = false
  target : spec.targetSchema (restoreTargetSecret record.url none) = true
  config : ((spec.storedSchema environment.checkDraw).parseValue
    (orEmpty (reenterConfig spec record.config).1)).isSome = true
  kept : ∃ config, mergeConfig (spec.drawing environment.draw) .undefined
    (reenterConfig spec record.config).1 none = some config ∧
      KeepsConfig spec record.config config
  inserted : environment.createError = none
  paused : record.paused = true → environment.pauseError = none

/-! ### What a file does not tell -/

/-- Two rows that differ at most in non-empty secret values and in the password of the target. -/
structure SecretsApart (row row' : Monitor) : Prop where
  same : { row with url := row'.url, config := row'.config } = row'
  url : row.url = row'.url ∨ SameButPassword row.url row'.url
  config : ∀ spec, specs row.checkType = some spec →
    SameButSecrets (spec.drawing []) row.config row'.config

variable {specs}

theorem maskConfig_object (spec : TypeSpec) (entries : Entries) :
    maskConfig spec (.object entries) = redactConfig (spec.drawing []) (.object entries) := rfl

/-- The record that a row is exported as. -/
def exportedOf (spec : TypeSpec) (row : Monitor) : ExportedMonitor :=
  { row.toExportedMonitor with
    url := maskTargetSecret row.url
    config := maskConfig spec row.config }

theorem toExported_eq {row : Monitor} {spec : TypeSpec} (hspec : specs row.checkType = some spec) :
    toExported specs row = some (exportedOf spec row) := by
  rw [toExported, hspec]
  rfl

theorem toExported_congr {row row' : Monitor} {spec : TypeSpec}
    (hspec : specs row.checkType = some spec) (hkeyed : WellKeyed row.config)
    (h : SecretsApart specs row row') : toExported specs row = toExported specs row' := by
  obtain ⟨url, config, rfl⟩ : ∃ url config, row' = { row with url := url, config := config } :=
    ⟨_, _, h.same.symm⟩
  have hurl : maskTargetSecret row.url = maskTargetSecret url := by
    rcases h.url with heq | hpassword
    · exact congrArg maskTargetSecret heq
    · exact maskTargetSecret_congr hpassword
  have hsame : SameButSecrets (spec.drawing []) row.config config := h.config spec hspec
  have hconfig : maskConfig spec row.config = maskConfig spec config := by
    rcases id hsame with heq | ⟨entries, entries', hentries, hentries', -⟩
    · rw [heq]
    · rw [hentries, hentries', maskConfig_object, maskConfig_object, ← hentries, ← hentries']
      exact redactConfig_congr _ hkeyed hsame
  have hother : toExported specs { row with url, config } = _ := toExported_eq hspec
  rw [toExported_eq hspec, hother, exportedOf, exportedOf, hurl, hconfig]

theorem exportMonitors_congr {db db' : Db} (hwritten : AllWritten specs db)
    (h : List.Forall₂ (SecretsApart specs) db.rows db'.rows) (organizationId : ℕ)
    (monitorIds : List ℕ) :
    exportMonitors specs db organizationId monitorIds =
      exportMonitors specs db' organizationId monitorIds := by
  obtain ⟨rows⟩ := db
  obtain ⟨rows'⟩ := db'
  unfold AllWritten at hwritten
  unfold exportMonitors
  dsimp only at h hwritten ⊢
  induction h with
  | nil => rfl
  | @cons row row' rows rows' hrow _ ih =>
    obtain ⟨spec, hspec, hrowWritten⟩ := hwritten row List.mem_cons_self
    have hrest := ih fun other hother => hwritten other (List.mem_cons_of_mem _ hother)
    have hchosen : ∀ id organization, row.organizationId = organization → row.id = id →
        row'.organizationId = organization ∧ row'.id = id := by
      rintro _ _ rfl rfl
      rw [← hrow.same]
      exact ⟨rfl, rfl⟩
    obtain ⟨horganization, hid⟩ := hchosen _ _ rfl rfl
    rw [List.filter_cons, List.filter_cons, horganization, hid]
    split
    · rw [List.mapM_cons, List.mapM_cons, hrest, toExported_congr hspec hrowWritten.keyed hrow]
    · exact hrest

/-! ### The file -/

theorem readInt_intValue {n minimum maximum : ℤ} (h : within n minimum maximum = true)
    (hminimum : -(2 ^ 53 - 1) ≤ minimum) (hmaximum : maximum ≤ 2 ^ 53 - 1) :
    readInt (intValue n) = some n := by
  obtain ⟨hlow, hhigh⟩ := within_iff.mp h
  exact if_pos ⟨hminimum.trans hlow, hhigh.trans hmaximum⟩

theorem readNullable_int {value : Option ℤ} {minimum maximum : ℤ}
    (h : value.all (within · minimum maximum) = true) (hminimum : -(2 ^ 53 - 1) ≤ minimum)
    (hmaximum : maximum ≤ 2 ^ 53 - 1) :
    readNullable readInt (nullable intValue value) = some value := by
  cases value with
  | none => rfl
  | some n => exact congrArg (Option.map some) (readInt_intValue h hminimum hmaximum)

theorem readNullable_string (value : Option JsString) :
    readNullable (readString 0) (nullable .string value) = some value := by
  cases value <;> rfl

theorem readString_string {minimum : ℕ} {s : JsString} (h : minimum ≤ s.length) :
    readString minimum (.string s) = some s := if_pos h

theorem readName_string {s : JsString} (h : within s.length 1 100 = true) :
    readName (.string s) = some s := by
  obtain ⟨hlow, hhigh⟩ := within_iff.mp h
  rw [readName, readString_string (by omega), Option.filter_some, if_pos]
  rw [decide_eq_true_eq]
  omega

theorem readMethod_methodValue (method : Method) :
    readMethod (methodValue method) = some method := by
  cases method with
  | get => rfl
  | head => rfl

/-- A record is read as what it was written from; the mask may make its target longer. -/
theorem exportedMonitorSchema_recordOf {e : ExportedMonitor}
    (hvalid : FieldsValid { e.toMonitorInput with url := url, config := config })
    (hurl : e.url ≠ []) : exportedMonitorSchema (recordOf e) = some e := by
  obtain ⟨entries, hentries, hname, hcheckType, hurlField, hport, hmethod, hintervalSeconds,
      htimeoutMs, hdegradedThresholdMs, hexpectedStatusCode, hbodyKeyword, hkeywordAbsent, htlsCheck,
      htlsWarnDays, hfailureWindowSeconds, hconfig, hpaused⟩ :
      ∃ entries, recordOf e = .object entries ∧
        fieldOf entries "name" = .string e.name ∧
        fieldOf entries "checkType" = .string e.checkType ∧
        fieldOf entries "url" = .string e.url ∧
        fieldOf entries "port" = nullable intValue e.port ∧
        fieldOf entries "method" = methodValue e.method ∧
        fieldOf entries "intervalSeconds" = intValue e.intervalSeconds ∧
        fieldOf entries "timeoutMs" = intValue e.timeoutMs ∧
        fieldOf entries "degradedThresholdMs" = intValue e.degradedThresholdMs ∧
        fieldOf entries "expectedStatusCode" = nullable intValue e.expectedStatusCode ∧
        fieldOf entries "bodyKeyword" = nullable .string e.bodyKeyword ∧
        fieldOf entries "keywordAbsent" = .bool e.keywordAbsent ∧
        fieldOf entries "tlsCheck" = .bool e.tlsCheck ∧
        fieldOf entries "tlsWarnDays" = intValue e.tlsWarnDays ∧
        fieldOf entries "failureWindowSeconds" = intValue e.failureWindowSeconds ∧
        fieldOf entries "config" = e.config ∧
        fieldOf entries "paused" = .bool e.paused :=
    ⟨_, rfl, rfl, rfl, rfl, rfl, rfl, rfl, rfl, rfl, rfl, rfl, rfl, rfl, rfl, rfl, rfl, rfl⟩
  have hcheckTypeLength := (within_iff.mp hvalid.checkType).1
  have hurlLength := List.length_pos_iff.mpr hurl
  dsimp only at hcheckTypeLength
  simp only [hentries, exportedMonitorSchema, hname, hcheckType, hurlField, hport, hmethod,
    hintervalSeconds, htimeoutMs, hdegradedThresholdMs, hexpectedStatusCode, hbodyKeyword,
    hkeywordAbsent, htlsCheck, htlsWarnDays, hfailureWindowSeconds, hconfig, hpaused,
    readName_string hvalid.name, readString_string (show 1 ≤ e.checkType.length by omega),
    readString_string (show 1 ≤ e.url.length by omega),
    readNullable_int hvalid.port (by decide) (by decide), readMethod_methodValue,
    readInt_intValue hvalid.intervalSeconds (by decide) (by decide),
    readInt_intValue hvalid.timeoutMs (by decide) (by decide),
    readInt_intValue hvalid.degradedThresholdMs (by decide) (by decide),
    readNullable_int hvalid.expectedStatusCode (by decide) (by decide), readNullable_string,
    readBool, readInt_intValue hvalid.tlsWarnDays (by decide) (by decide),
    readInt_intValue hvalid.failureWindowSeconds (by decide) (by decide), Option.bind_eq_bind,
    Option.bind_some]
  rfl

/-! ### The target -/

theorem scheme_ne_nil {scheme user password rest : JsString}
    (h : Credential scheme user password rest) : scheme ≠ [] := by
  obtain ⟨index, -, hlength⟩ := h.pieces.scheme_ends
  rintro rfl
  cases hlength

theorem withoutSecret_credential {scheme user password rest : JsString}
    (h : Credential scheme user password rest) :
    withoutSecret (withPassword scheme user password rest) = joined scheme user rest := by
  rw [withoutSecret, h.maskTargetSecret_eq, (h.replace secretMask_plain).restoreTargetSecret_mask]
  rfl

theorem trim_withoutSecret (h : trim url = url) : trim (withoutSecret url) = withoutSecret url := by
  rcases bare_or_credential url with hbare | ⟨scheme, user, password, rest, hcredential, rfl⟩
  · rw [withoutSecret, hbare.maskTargetSecret_eq, hbare.restoreTargetSecret_eq, h]
  · rw [withoutSecret_credential hcredential]
    exact trim_of_ends (scheme_ne_nil hcredential) (List.cons_ne_nil _ _) h user

/-- Which password is put back into a target does not show in what a file tells. -/
theorem withoutSecret_restoreTargetSecret (next : JsString) (stored : Option JsString) :
    withoutSecret (restoreTargetSecret next stored) = withoutSecret next := by
  rcases bare_or_credential next with hbare | ⟨scheme, user, password, rest, hcredential, rfl⟩
  · rw [hbare.restoreTargetSecret_eq]
  · by_cases hmask : password = secretMask
    · subst hmask
      rw [hcredential.restoreTargetSecret_mask, withoutSecret_credential hcredential]
      split
      · have hbare := hcredential.bare_joined
        rw [withoutSecret, hbare.maskTargetSecret_eq, hbare.restoreTargetSecret_eq]
      · exact withoutSecret_credential (hcredential.replace (storedSecret_plain stored))
    · rw [hcredential.restoreTargetSecret_of_ne hmask]

theorem within_withoutSecret {maximum : ℤ} (h : within url.length 1 maximum = true) :
    within (withoutSecret url).length 1 maximum = true := by
  rcases bare_or_credential url with hbare | ⟨scheme, user, password, rest, hcredential, rfl⟩
  · rwa [withoutSecret, hbare.maskTargetSecret_eq, hbare.restoreTargetSecret_eq]
  · rw [withoutSecret_credential hcredential]
    rw [within_iff] at h ⊢
    simp only [withPassword, joined, List.length_append, List.length_cons] at h ⊢
    omega

theorem maskTargetSecret_ne_nil (h : url ≠ []) : maskTargetSecret url ≠ [] := by
  rcases bare_or_credential url with hbare | ⟨scheme, user, password, rest, hcredential, rfl⟩
  · rwa [hbare.maskTargetSecret_eq]
  · rw [hcredential.maskTargetSecret_eq]
    exact List.append_ne_nil_of_left_ne_nil (scheme_ne_nil hcredential) _

/-- What the form and the service let through is among what may be written. -/
theorem Stored.written {spec : TypeSpec} {monitor : MonitorInput} (h : Stored spec monitor) :
    Written spec monitor where
  checkType := congrArg MonitorInput.checkType h.trimmed
  target := trim_withoutSecret (congrArg MonitorInput.url h.trimmed)
  bodyKeyword := congrArg MonitorInput.bodyKeyword h.trimmed
  valid := by
    have hvalid := (fieldsValid_iff _).mp h.valid
    exact (fieldsValid_iff _).mpr { hvalid with url := within_withoutSecret hvalid.url }
  columns := h.columns
  keyed := h.keyed
  not_array := h.not_array

theorem AllStored.written {db : Db} (h : AllStored specs db) : AllWritten specs db :=
  fun row hrow => (h row hrow).imp fun _ hspec => ⟨hspec.1, hspec.2.written⟩

/-! ### The config -/

theorem restoreMap_names (field : JsString) (m : Entries) {e : JsString × JsValue} (he : e ∈ m)
    (hmask : isMask e.2 = true) : entryName field e.1 ∈ (restoreMap field m).2 := by
  have hall : ∀ (rest : Entries) (s : JsObject × List JsString),
      (entryName field e.1 ∈ s.2 ∨ e ∈ rest) →
      entryName field e.1 ∈ (rest.foldl (fun s entry =>
        if isMask entry.2 then
          (s.1.assign entry.1 (.string []), s.2 ++ [entryName field entry.1])
        else (s.1.assign entry.1 entry.2, s.2)) s).2 := by
    intro rest
    induction rest with
    | nil => exact fun s h => h.resolve_right List.not_mem_nil
    | cons entry rest ih =>
      intro s h
      refine ih _ ?_
      dsimp only
      rcases h with h | h
      · left
        split
        · exact List.mem_append_left _ h
        · exact h
      · rcases List.mem_cons.mp h with rfl | h
        · left
          rw [if_pos hmask]
          exact List.mem_append_right _ (List.mem_singleton_self _)
        · exact .inr h
  exact hall m _ (.inr he)

theorem delete_get (o : JsObject) {key k : JsString} (hk : k ≠ key) :
    (delete o key).get k = o.get k := by
  have hlookup : (o.own.filter fun e => e.1 ≠ key).lookup k = o.own.lookup k := by
    induction o.own with
    | nil => rfl
    | cons e own ih =>
      obtain ⟨key', value⟩ := e
      by_cases hkey : key' = key
      · rw [List.filter_cons_of_neg (by simpa using hkey), ih,
          lookup_cons_of_ne (fun h => hk (h.trans hkey))]
      · rw [List.filter_cons_of_pos (by simpa using hkey), List.lookup_cons, List.lookup_cons, ih]
  rw [JsObject.get, JsObject.get, delete, hlookup]

theorem assign_get {o : JsObject} {key k : JsString} (hkey : key ≠ protoKey) (hk : k ≠ key)
    (value : JsValue) : (o.assign key value).get k = o.get k := by
  rw [assign_of_ne o hkey, JsObject.get, JsObject.get]
  dsimp only
  rw [lookup_setEntry, if_neg hk]

/-- A turn of the loop over the secret fields keeps the other fields and what was named. -/
theorem reenterField_spec (s : Reentry) {field : JsString} (hfield : field ≠ protoKey) :
    (∀ k, k ≠ field → (reenterField s field).incoming.get k = s.incoming.get k) ∧
    (∀ name ∈ s.secretsToReenter, name ∈ (reenterField s field).secretsToReenter) ∧
    (isMask (s.incoming.get field) = true → field ∈ (reenterField s field).secretsToReenter) ∧
    ∀ m, s.incoming.get field = .object m → ∀ e ∈ m, isMask e.2 = true →
      entryName field e.1 ∈ (reenterField s field).secretsToReenter := by
  unfold reenterField
  dsimp only
  split
  · rename_i hmask
    refine ⟨fun k hk => delete_get _ hk, fun name hname => List.mem_append_left _ hname,
      fun _ => List.mem_append_right _ (List.mem_singleton_self _), fun m hm => ?_⟩
    rw [hm] at hmask
    cases hmask
  · rename_i hmask
    split
    · rename_i entries hentries
      refine ⟨fun k hk => assign_get hfield hk _, fun name hname => List.mem_append_left _ hname,
        fun h => absurd h hmask, fun m hm e he hentry => List.mem_append_right _ ?_⟩
      obtain rfl := JsValue.object.inj (hentries.symm.trans hm)
      exact restoreMap_names field entries he hentry
    · rename_i hnot
      exact ⟨fun _ _ => rfl, fun _ hname => hname, fun h => absurd h hmask,
        fun m hm => absurd hm (hnot m)⟩

theorem foldl_reenterField_names {fields : List JsString} (hnodup : fields.Nodup)
    (hproto : protoKey ∉ fields) (s : Reentry) :
    (∀ name ∈ s.secretsToReenter, name ∈ (fields.foldl reenterField s).secretsToReenter) ∧
    ∀ field ∈ fields,
      (isMask (s.incoming.get field) = true →
        field ∈ (fields.foldl reenterField s).secretsToReenter) ∧
      ∀ m, s.incoming.get field = .object m → ∀ e ∈ m, isMask e.2 = true →
        entryName field e.1 ∈ (fields.foldl reenterField s).secretsToReenter := by
  induction fields generalizing s with
  | nil => exact ⟨fun _ h => h, nofun⟩
  | cons first fields ih =>
    obtain ⟨hnew, hrest⟩ := List.nodup_cons.mp hnodup
    have hfirst : first ≠ protoKey := fun h => hproto (h ▸ List.mem_cons_self)
    obtain ⟨hget, hkept, hscalar, hmap⟩ := reenterField_spec s hfirst
    obtain ⟨hlater, hothers⟩ := ih hrest (fun h => hproto (List.mem_cons_of_mem _ h))
      (reenterField s first)
    refine ⟨fun name hname => hlater name (hkept name hname), fun field hfield => ?_⟩
    rcases List.mem_cons.mp hfield with rfl | hfield
    · exact ⟨fun h => hlater _ (hscalar h),
        fun m hm e he hentry => hlater _ (hmap m hm e he hentry)⟩
    · have hne : field ≠ first := fun h => hnew (h ▸ hfield)
      rw [← hget field hne]
      exact hothers field hfield

theorem reenterConfig_names {spec : TypeSpec} (hkeys : (keys (asRecord config)).Nodup)
    {name : JsString} (h : MaskedSecret spec config name) :
    name ∈ (reenterConfig spec config).2 := by
  obtain ⟨field, hfield, value, hvalue, hmasked⟩ := h
  cases config with
  | object entries =>
    have hget : (JsObject.of entries).get field = value :=
      get_of_lookup (lookup_of_mem hkeys hvalue)
    have hsome : spec.secretFields ≠ [] := List.ne_nil_of_mem hfield
    obtain ⟨-, hnamed⟩ := foldl_reenterField_names spec.nodup spec.no_proto
      (⟨.of entries, []⟩ : Reentry)
    obtain ⟨hscalar, hmap⟩ := hnamed field hfield
    rw [hget] at hscalar hmap
    unfold reenterConfig
    rw [if_neg hsome]
    show name ∈ (spec.secretFields.foldl reenterField ⟨.of entries, []⟩).secretsToReenter
    rcases hmasked with ⟨hmask, rfl⟩ | ⟨m, hm, e, he, hmask, rfl⟩
    · exact hscalar hmask
    · exact hmap m hm e he hmask
  | _ => cases hvalue

theorem keys_maskConfig (spec : TypeSpec) (h : WellKeyed config)
    (harray : ∀ items, config ≠ .array items) :
    (keys (asRecord (maskConfig spec config))).Nodup := by
  unfold maskConfig
  split
  · exact h.1
  · cases config with
    | object entries => exact foldl_redactField_nodup spec.secretFields h.1
    | array items => exact absurd rfl (harray items)
    | _ => exact h.1

/-! ### One record -/

section Record

variable {spec : TypeSpec} {row : Monitor} {organizationId : ℕ} {environment : Environment}

/-- What the form makes of a record: only the name may change. -/
theorem trimmed_reentered (h : Written spec row.toMonitorInput) :
    trimmed (reentered spec (exportedOf spec row)) =
      { reentered spec (exportedOf spec row) with name := trim row.name } := by
  unfold trimmed reentered exportedOf
  dsimp only
  rw [h.checkType, h.bodyKeyword, ← withoutSecret, h.target]

theorem trimmed_reentered_self (h : Written spec row.toMonitorInput)
    (hname : trim row.name = row.name) :
    trimmed (reentered spec (exportedOf spec row)) = reentered spec (exportedOf spec row) := by
  rw [trimmed_reentered h, hname]
  rfl

theorem fieldsValid_reentered (h : Written spec row.toMonitorInput) :
    fieldsValid (reentered spec (exportedOf spec row)) = true :=
  h.valid

theorem flatColumns_reentered (h : Written spec row.toMonitorInput) :
    flatColumns spec (reentered spec (exportedOf spec row)) =
      reentered spec (exportedOf spec row) := by
  have hport : (spec.port.bind fun port => row.port.or port.default_) = row.port :=
    congrArg MonitorInput.port h.columns
  have hmethod : (if spec.form.contains .method then row.method else .get) = row.method :=
    congrArg MonitorInput.method h.columns
  have hexpected : (if spec.form.contains .expectedStatusCode then row.expectedStatusCode
      else none) = row.expectedStatusCode := congrArg MonitorInput.expectedStatusCode h.columns
  have hkeyword : (if spec.form.contains .keyword then row.bodyKeyword else none) =
      row.bodyKeyword := congrArg MonitorInput.bodyKeyword h.columns
  have habsent : (if spec.form.contains .keyword then row.keywordAbsent else false) =
      row.keywordAbsent := congrArg MonitorInput.keywordAbsent h.columns
  have htlsCheck : (if spec.form.contains .tlsWarning then row.tlsCheck else false) =
      row.tlsCheck := congrArg MonitorInput.tlsCheck h.columns
  have htlsWarnDays : (if spec.form.contains .tlsWarning then row.tlsWarnDays else 14) =
      row.tlsWarnDays := congrArg MonitorInput.tlsWarnDays h.columns
  unfold flatColumns reentered exportedOf
  dsimp only
  rw [hport, hmethod, hexpected, hkeyword, habsent, htlsCheck, htlsWarnDays]

theorem createMonitorSchema_reentered (hspec : specs row.checkType = some spec)
    (h : Written spec row.toMonitorInput) (hname : trim row.name = row.name)
    (hport : (spec.port.any fun port =>
      port.required && port.default_.isNone && row.port.isNone) = false)
    (drawn : JsString) (input : MonitorInput) :
    createMonitorSchema specs drawn (reentered spec (exportedOf spec row)) = some input ↔
      (spec.targetSchema (withoutSecret row.url) = true ∧
        ((spec.storedSchema drawn).parseValue
          (orEmpty (reenterConfig spec (exportedOf spec row).config).1)).isSome = true) ∧
      input = reentered spec (exportedOf spec row) := by
  have hrefine : refineTarget specs drawn (reentered spec (exportedOf spec row)) =
      (spec.targetSchema (withoutSecret row.url) && !false &&
        ((spec.storedSchema drawn).parseValue
          (orEmpty (reenterConfig spec (exportedOf spec row).config).1)).isSome) := by
    rw [← hport, refineTarget, show specs (reentered spec (exportedOf spec row)).checkType =
      some spec from hspec]
    rfl
  rw [createMonitorSchema, trimmed_reentered_self h hname, fieldsValid_reentered h, hrefine, Bool.true_and,
    Bool.not_false, Bool.and_true, ← Bool.and_eq_true]
  split
  · rename_i htaken
    rw [and_iff_right htaken, Option.some_inj, eq_comm]
  · rename_i hrefused
    exact iff_of_false nofun fun h => hrefused h.1

theorem createMonitor_reentered (hspec : specs row.checkType = some spec)
    (h : Written spec row.toMonitorInput) (copy : Monitor) :
    createMonitor specs environment organizationId (reentered spec (exportedOf spec row)) =
        .ok copy ↔
      environment.createError = none ∧
      ∃ config, mergeConfig (spec.drawing environment.draw) .undefined
          (reenterConfig spec (exportedOf spec row).config).1 none = some config ∧
        copy = { reentered spec (exportedOf spec row) with
          config, paused := false, id := environment.id, organizationId } := by
  have hcolumns : monitorColumnsFor spec environment.draw (reentered spec (exportedOf spec row)) =
      (mergeConfig (spec.drawing environment.draw) .undefined
        (reenterConfig spec (exportedOf spec row).config).1 none).map fun config =>
          { reentered spec (exportedOf spec row) with config } := by
    rw [monitorColumnsFor, flatColumns_reentered h, Option.map_eq_bind]
    rfl
  rw [createMonitor, show specs (reentered spec (exportedOf spec row)).checkType = some spec
    from hspec]
  dsimp only
  rw [hcolumns]
  cases mergeConfig (spec.drawing environment.draw) .undefined
      (reenterConfig spec (exportedOf spec row).config).1 none with
  | none =>
    refine iff_of_false nofun ?_
    rintro ⟨-, config, hconfig, -⟩
    cases hconfig
  | some config =>
    cases environment.createError with
    | some message => exact iff_of_false (fun h => by cases h) fun h => by cases h.1
    | none =>
      refine ⟨fun h => ⟨rfl, config, rfl, (Except.ok.inj h).symm⟩, ?_⟩
      rintro ⟨-, config', hconfig, rfl⟩
      cases hconfig
      rfl

/-- A stored monitor is created again from its record if its type takes what the file tells. -/
theorem created_exported (hspec : specs row.checkType = some spec)
    (h : Written spec row.toMonitorInput) (hname : trim row.name = row.name)
    (hport : (spec.port.any fun port =>
      port.required && port.default_.isNone && row.port.isNone) = false) (copy : Monitor) :
    created specs organizationId environment (exportedOf spec row) spec = .ok copy ↔
      (spec.targetSchema (withoutSecret row.url) = true ∧
        ((spec.storedSchema environment.checkDraw).parseValue
          (orEmpty (reenterConfig spec (exportedOf spec row).config).1)).isSome = true) ∧
      environment.createError = none ∧
      ∃ config, mergeConfig (spec.drawing environment.draw) .undefined
          (reenterConfig spec (exportedOf spec row).config).1 none = some config ∧
        copy = { reentered spec (exportedOf spec row) with
          config, paused := false, id := environment.id, organizationId } := by
  unfold created
  cases hform : createMonitorSchema specs environment.checkDraw
      (reentered spec (exportedOf spec row)) with
  | none =>
    refine iff_of_false nofun fun hright => ?_
    have htaken := (createMonitorSchema_reentered hspec h hname hport environment.checkDraw
      (reentered spec (exportedOf spec row))).mpr ⟨hright.1, rfl⟩
    rw [hform] at htaken
    cases htaken
  | some input =>
    obtain ⟨htaken, rfl⟩ := (createMonitorSchema_reentered hspec h hname hport _ _).mp hform
    exact (createMonitor_reentered hspec h copy).trans (and_iff_right htaken).symm

theorem createMonitor_name {input : MonitorInput} {monitor : Monitor}
    (hcreated : createMonitor specs environment organizationId input = .ok monitor) :
    monitor.name = input.name := by
  unfold createMonitor at hcreated
  split at hcreated
  · cases hcreated
  · split at hcreated
    · cases hcreated
    · rename_i columns hcolumns
      obtain ⟨config, -, hkept⟩ := Option.bind_eq_some_iff.mp hcolumns
      cases hkept
      split at hcreated
      · cases hcreated
      · cases hcreated
        rfl

/-- What is created from the record of a row has the name without the blanks at its ends, and the
port that the type requires. -/
theorem created_fits (hspec : specs row.checkType = some spec)
    (h : Written spec row.toMonitorInput) {monitor : Monitor}
    (hcreated : created specs organizationId environment (exportedOf spec row) spec =
      .ok monitor) :
    monitor.name = trim row.name ∧ (spec.port.any fun port =>
      port.required && port.default_.isNone && row.port.isNone) = false := by
  have htype : specs (trimmed (reentered spec (exportedOf spec row))).checkType = some spec := by
    rw [trimmed_reentered h]
    exact hspec
  unfold created createMonitorSchema at hcreated
  split at hcreated
  · cases hcreated
  · rename_i validated hform
    split at hform
    · rename_i htaken
      cases hform
      have hrefined := (Bool.and_eq_true_iff.mp htaken).2
      rw [refineTarget, htype] at hrefined
      dsimp only at hrefined
      rw [Bool.and_eq_true, Bool.and_eq_true, Bool.not_eq_true'] at hrefined
      rw [trimmed_reentered h] at hrefined hcreated
      exact ⟨createMonitor_name hcreated, hrefined.1.2⟩
    · cases hform

/-- What the record of a row becomes, if its type takes it. -/
def copyOf (spec : TypeSpec) (row : Monitor) (organizationId : ℕ) (environment : Environment)
    (config : JsValue) : Monitor :=
  { reentered spec (exportedOf spec row) with
    config
    paused := row.paused
    id := environment.id
    organizationId }

theorem importRecord_reenterable (hspec : specs row.checkType = some spec)
    (h : Written spec row.toMonitorInput)
    (hreenter : Reenterable spec (exportedOf spec row) environment) {config : JsValue}
    (hconfig : mergeConfig (spec.drawing environment.draw) .undefined
      (reenterConfig spec (exportedOf spec row).config).1 none = some config) :
    importRecord specs organizationId (exportedOf spec row) environment =
      ([copyOf spec row organizationId environment config],
        outcomeOf (exportedOf spec row) (secretsToReenter spec (exportedOf spec row))
          (.ok environment.id)) := by
  have hcreated : created specs organizationId environment (exportedOf spec row) spec = .ok _ :=
    (created_exported hspec h hreenter.name hreenter.port _).mpr
      ⟨⟨hreenter.target, hreenter.config⟩, hreenter.inserted, config, hconfig, rfl⟩
  have hpaused : (if row.paused then true else false) = row.paused := by cases row.paused <;> rfl
  have htype : specs (exportedOf spec row).checkType = some spec := hspec
  rw [importRecord_ok htype hcreated hreenter.paused]
  dsimp only
  rw [show (exportedOf spec row).paused = row.paused from rfl, hpaused]
  rfl

theorem copied_of_reenterable (hspec : specs row.checkType = some spec)
    (h : Written spec row.toMonitorInput)
    (hreenter : Reenterable spec (exportedOf spec row) environment) :
    ∃ copy, addedBy specs organizationId (exportedOf spec row, environment) = [copy] ∧
      Copied spec (exportedOf spec row) copy
        (outcomeFor specs organizationId (exportedOf spec row, environment)) := by
  obtain ⟨config, hconfig, hkept⟩ := hreenter.kept
  have himport : importRecord specs organizationId (exportedOf spec row) environment = _ :=
    importRecord_reenterable hspec h hreenter hconfig
  refine ⟨copyOf spec row organizationId environment config, congrArg Prod.fst himport, ?_⟩
  rw [outcomeFor, himport]
  refine ⟨rfl, rfl, rfl, ?_, hkept, fun name hname => ?_⟩
  · by_cases hurl : restoreTargetSecret (exportedOf spec row).url none = (exportedOf spec row).url
    · exact .inl hurl
    · refine .inr ⟨?_, rfl⟩
      show js "url" ∈ secretsToReenter spec (exportedOf spec row)
      rw [secretsToReenter, if_pos hurl]
      exact List.mem_append_right _ (List.mem_singleton_self _)
  · exact List.mem_append_left _
      (reenterConfig_names (keys_maskConfig spec h.keyed h.not_array) hname)

theorem reenterable_of_copied (hspec : specs row.checkType = some spec)
    (h : Written spec row.toMonitorInput) {copy : Monitor}
    (hadded : addedBy specs organizationId (exportedOf spec row, environment) = [copy])
    (hcopied : Copied spec (exportedOf spec row) copy
      (outcomeFor specs organizationId (exportedOf spec row, environment))) :
    Reenterable spec (exportedOf spec row) environment := by
  have htype : specs (exportedOf spec row).checkType = some spec := hspec
  have himported := hcopied.imported
  unfold addedBy at hadded
  unfold outcomeFor at himported
  cases hcreated : created specs organizationId environment (exportedOf spec row) spec with
  | error reason =>
    rw [importRecord_error htype hcreated] at hadded
    cases hadded
  | ok monitor =>
    have hpaused : (exportedOf spec row).paused = true → environment.pauseError = none := by
      intro hpaused
      cases hpause : environment.pauseError with
      | none => rfl
      | some message =>
        rw [importRecord_left htype hcreated hpaused hpause] at himported
        cases himported
    rw [importRecord_ok htype hcreated hpaused] at hadded
    obtain rfl := List.head_eq_of_cons_eq hadded
    obtain ⟨htrimmed, hport⟩ := created_fits hspec h hcreated
    have hname : trim row.name = row.name :=
      htrimmed.symm.trans (congrArg (fun record => record.toMonitorInput.name) hcopied.fields)
    obtain ⟨⟨htarget, hform⟩, hinserted, config, hconfig, hmonitor⟩ :=
      (created_exported hspec h hname hport monitor).mp hcreated
    refine ⟨hname, hport, htarget, hform, ⟨config, hconfig, ?_⟩, hinserted, hpaused⟩
    have hkept := hcopied.config
    rw [hmonitor] at hkept
    exact hkept

end Record

/-! ### A whole file -/

section File

variable {organizationId : ℕ}

/-- The record of a row. -/
def IsRecord (specs : JsString → Option TypeSpec) (record : ExportedMonitor) : Prop :=
  ∃ row spec, specs row.checkType = some spec ∧ Written spec row.toMonitorInput ∧
    record = exportedOf spec row

variable {record : ExportedMonitor} {exported : List ExportedMonitor} {turns : List Turn}

theorem reenterable_iff (hrecord : IsRecord specs record) (environment : Environment)
    (copy : Monitor) (hadded : addedBy specs organizationId (record, environment) = [copy]) :
    IsCopy specs record (copy, outcomeFor specs organizationId (record, environment)) ↔
      ∀ spec, specs record.checkType = some spec → Reenterable spec record environment := by
  obtain ⟨row, spec, hspec, hwritten, rfl⟩ := hrecord
  have htype : specs (exportedOf spec row).checkType = some spec := hspec
  constructor
  · rintro ⟨spec', hspec', hcopied⟩ spec'' hspec''
    obtain rfl := Option.some_inj.mp (htype.symm.trans hspec')
    obtain rfl := Option.some_inj.mp (htype.symm.trans hspec'')
    exact reenterable_of_copied hspec hwritten hadded hcopied
  · intro h
    obtain ⟨copy', hadded', hcopied⟩ := copied_of_reenterable hspec hwritten (h spec htype)
    obtain rfl := List.head_eq_of_cons_eq (hadded.symm.trans hadded')
    exact ⟨spec, htype, hcopied⟩

theorem imported_of_reenterable (hrecord : IsRecord specs record) {environment : Environment}
    (h : ∀ spec, specs record.checkType = some spec → Reenterable spec record environment) :
    (outcomeFor specs organizationId (record, environment)).imported = true := by
  obtain ⟨row, spec, hspec, hwritten, rfl⟩ := hrecord
  obtain ⟨copy, -, hcopied⟩ := copied_of_reenterable hspec hwritten (h spec hspec)
  exact hcopied.imported

theorem not_copied_of_skipped {outcome : ImportOutcome} (h : outcome.imported = false)
    (record : ExportedMonitor) (records : List ExportedMonitor) (copies : List Monitor)
    (outcomes : List ImportOutcome) :
    ¬List.Forall₂ (IsCopy specs) (record :: records) (copies.zip (outcome :: outcomes)) := by
  intro hall
  cases copies with
  | nil => cases hall
  | cons copy copies =>
    obtain ⟨⟨spec, -, hcopied⟩, -⟩ := List.forall₂_cons.mp hall
    rw [hcopied.imported] at h
    cases h

theorem forall₂_copied_iff {records : List (ExportedMonitor × Environment)}
    (hrecords : ∀ r ∈ records, IsRecord specs r.1) :
    List.Forall₂ (IsCopy specs) (records.map (·.1))
      ((records.flatMap (addedBy specs organizationId)).zip
        (records.map (outcomeFor specs organizationId))) ↔
    ∀ r ∈ records, ∀ spec, specs r.1.checkType = some spec → Reenterable spec r.1 r.2 := by
  induction records with
  | nil => simp
  | cons r records ih =>
    have hr := hrecords r List.mem_cons_self
    have hrest := ih fun r' hr' => hrecords r' (List.mem_cons_of_mem _ hr')
    have hskipped : (outcomeFor specs organizationId r).imported = false →
        ¬∀ spec, specs r.1.checkType = some spec → Reenterable spec r.1 r.2 := by
      intro hfalse h
      rw [imported_of_reenterable hr h] at hfalse
      cases hfalse
    rw [List.forall_mem_cons, List.map_cons, List.map_cons, List.flatMap_cons]
    rcases importRecord_cases specs organizationId r with
      ⟨-, -, hfalse, -⟩ | ⟨copy, hadded, -, -, -⟩ | ⟨copy, -, -, hfalse, -⟩
    · exact iff_of_false (not_copied_of_skipped hfalse _ _ _ _) fun h => hskipped hfalse h.1
    · rw [hadded, List.singleton_append, List.zip_cons_cons, List.forall₂_cons, hrest]
      exact and_congr_left' (reenterable_iff hr r.2 copy hadded)
    · exact iff_of_false (not_copied_of_skipped hfalse _ _ _ _) fun h => hskipped hfalse h.1

/-- There are as many copies as records where all of them can be entered again. -/
theorem length_copies {records : List (ExportedMonitor × Environment)}
    (hrecords : ∀ r ∈ records, IsRecord specs r.1)
    (h : ∀ r ∈ records, ∀ spec, specs r.1.checkType = some spec → Reenterable spec r.1 r.2) :
    (records.flatMap (addedBy specs organizationId)).length = records.length := by
  induction records with
  | nil => rfl
  | cons r records ih =>
    have hone : (addedBy specs organizationId r).length = 1 := by
      obtain ⟨row, spec, hspec, hwritten, hrecord⟩ := hrecords r List.mem_cons_self
      obtain ⟨record, environment⟩ := r
      obtain rfl : record = exportedOf spec row := hrecord
      obtain ⟨copy, hadded, -⟩ :=
        copied_of_reenterable hspec hwritten (h _ List.mem_cons_self spec hspec)
      rw [hadded, List.length_singleton]
    rw [List.flatMap_cons, List.length_append, hone, List.length_cons, Nat.add_comm,
      ih (fun r' hr' => hrecords r' (List.mem_cons_of_mem _ hr'))
        fun r' hr' => h r' (List.mem_cons_of_mem _ hr')]

theorem mem_of_mapM {α β : Type} {f : α → Option β} {l : List α} {r : List β}
    (h : l.mapM f = some r) {b : β} (hb : b ∈ r) : ∃ a ∈ l, f a = some b := by
  induction l generalizing r with
  | nil =>
    cases h
    cases hb
  | cons a l ih =>
    rw [List.mapM_cons] at h
    obtain ⟨first, hfirst, h⟩ := Option.bind_eq_some_iff.mp h
    obtain ⟨rest, hrest, h⟩ := Option.bind_eq_some_iff.mp h
    cases h
    rcases List.mem_cons.mp hb with rfl | hb
    · exact ⟨a, List.mem_cons_self, hfirst⟩
    · obtain ⟨a', ha', hvalue⟩ := ih hrest hb
      exact ⟨a', List.mem_cons_of_mem _ ha', hvalue⟩

theorem isRecord_of_mem {db : Db} (hwritten : AllWritten specs db) {source : ℕ}
    {monitorIds : List ℕ} (hexport : exportMonitors specs db source monitorIds = some exported)
    (h : record ∈ exported) : IsRecord specs record := by
  obtain ⟨row, hrow, hrecord⟩ := mem_of_mapM hexport h
  obtain ⟨spec, hspec, hrowWritten⟩ := hwritten row (List.mem_of_mem_filter hrow)
  rw [toExported_eq hspec] at hrecord
  exact ⟨row, spec, hspec, hrowWritten, (Option.some_inj.mp hrecord).symm⟩

theorem exportedMonitorSchema_isRecord (h : IsRecord specs record) :
    exportedMonitorSchema (recordOf record) = some record := by
  obtain ⟨row, spec, -, hwritten, rfl⟩ := h
  have hvalid := (fieldsValid_iff _).mp hwritten.valid
  have hlength : 1 ≤ ((withoutSecret row.url).length : ℤ) := (within_iff.mp hvalid.url).1
  have hurl : row.url ≠ [] := by
    intro hempty
    rw [hempty] at hlength
    exact absurd hlength (by decide)
  exact exportedMonitorSchema_recordOf hvalid (maskTargetSecret_ne_nil hurl)

theorem readRecords_unaltered (hrecords : ∀ record ∈ exported, IsRecord specs record)
    (h : Unaltered exported turns) :
    readRecords turns = some (exported.zip (turns.map (·.environment))) := by
  induction exported generalizing turns with
  | nil =>
    obtain rfl := List.map_eq_nil_iff.mp h
    rfl
  | cons record exported ih =>
    cases turns with
    | nil => cases h
    | cons turn turns =>
      obtain ⟨hturn, hrest⟩ := List.cons.inj h
      rw [readRecords_cons, ih (fun r hr => hrecords r (List.mem_cons_of_mem _ hr)) hrest]
      rw [show turn.record = recordOf record from hturn,
        exportedMonitorSchema_isRecord (hrecords record List.mem_cons_self)]
      rfl

theorem length_unaltered (h : Unaltered exported turns) : exported.length = turns.length := by
  have hlength := congrArg List.length h
  rwa [List.length_map, List.length_map, eq_comm] at hlength

/-- Each of the exported monitors can be entered again. -/
def AllReenterable (specs : JsString → Option TypeSpec) (exported : List ExportedMonitor)
    (turns : List Turn) : Prop :=
  ∀ r ∈ exported.zip (turns.map (·.environment)),
    ∀ spec, specs r.1.checkType = some spec → Reenterable spec r.1 r.2

/-- An unaltered file makes the round trip if and only if the types take what it tells. -/
theorem roundTrips_iff {db : Db} (hrecords : ∀ record ∈ exported, IsRecord specs record)
    (h : Unaltered exported turns) (exportedAt : JsString) :
    RoundTrips specs organizationId db exportedAt exported turns ↔
      AllReenterable specs exported turns := by
  have hread := readRecords_unaltered hrecords h
  have hzipped : ∀ r ∈ exported.zip (turns.map (·.environment)), IsRecord specs r.1 :=
    fun r hr => hrecords r.1 (List.of_mem_zip hr).1
  have hlength : exported.length = (turns.map (·.environment)).length := by
    rw [List.length_map, length_unaltered h]
  have hfirst : (exported.zip (turns.map (·.environment))).map (·.1) = exported :=
    List.map_fst_zip hlength.le
  have hcopied := @forall₂_copied_iff specs organizationId _ hzipped
  rw [hfirst] at hcopied
  rw [AllReenterable, ← hcopied]
  constructor
  · rintro ⟨copies, outcomes, himport, -, hall⟩
    rw [importMonitors_of_read hread] at himport
    obtain ⟨hdb, rfl⟩ := Prod.mk.inj (Except.ok.inj himport)
    obtain rfl := List.append_cancel_left (Db.mk.inj hdb)
    exact hall
  · intro hall
    refine ⟨_, _, importMonitors_of_read hread db exportedAt, ?_, hall⟩
    rw [length_copies hzipped (hcopied.mp hall), List.length_zip, ← hlength, Nat.min_self]

/-- A file is accounted for, makes the round trip where it is unaltered, and tells no secrets. -/
structure Portable (specs : JsString → Option TypeSpec) (db : Db) (source : ℕ)
    (monitorIds : List ℕ) (organizationId : ℕ) (target : Db) (exportedAt : JsString)
    (turns : List Turn) : Prop where
  accounts : Accounts specs organizationId target exportedAt turns
  round_trips : ∀ exported, exportMonitors specs db source monitorIds = some exported →
    Unaltered exported turns → RoundTrips specs organizationId target exportedAt exported turns
  hides : ∀ db', List.Forall₂ (SecretsApart specs) db.rows db'.rows →
    exportMonitors specs db source monitorIds = exportMonitors specs db' source monitorIds

/-- A file is portable if and only if its schema takes every record, no update that pauses a new
monitor throws and, where it is unaltered, each record can be entered again. -/
theorem portable_iff {db : Db} (hwritten : AllWritten specs db) (source : ℕ) (monitorIds : List ℕ)
    (target : Db) (exportedAt : JsString) (turns : List Turn) :
    Portable specs db source monitorIds organizationId target exportedAt turns ↔
      (Readable turns ∧
        ∀ turn ∈ turns, ∀ record, exportedMonitorSchema turn.record = some record →
          ¬PauseFails specs organizationId (record, turn.environment)) ∧
      ∀ exported, exportMonitors specs db source monitorIds = some exported →
        Unaltered exported turns → AllReenterable specs exported turns := by
  constructor
  · intro h
    refine ⟨(accounts_iff target exportedAt turns).mp h.accounts, ?_⟩
    intro exported hexport hunaltered
    exact (roundTrips_iff (fun _ => isRecord_of_mem hwritten hexport) hunaltered exportedAt).mp
      (h.round_trips exported hexport hunaltered)
  · rintro ⟨haccounts, hreenter⟩
    refine ⟨(accounts_iff target exportedAt turns).mpr haccounts, ?_, ?_⟩
    · intro exported hexport hunaltered
      exact (roundTrips_iff (fun _ => isRecord_of_mem hwritten hexport) hunaltered exportedAt).mpr
        (hreenter exported hexport hunaltered)
    · exact fun db' h => exportMonitors_congr hwritten h source monitorIds

end File

/-! ### A Redis server -/

/-- `redis`, with targets of letters, digits, hyphens and dots. -/
def redisType : TypeSpec where
  secretFields := redisSpec.secretFields
  nodup := redisSpec.nodup
  no_proto := redisSpec.no_proto
  storedSchema := fun _ => redisSpec.storedSchema
  targetSchema := fun target => target.all fun c => Push.isTokenUnit c || c = 0x2E
  form := [.port]
  port := some ⟨true, some 6379⟩

/-- A build with Redis alone. -/
def redisOnly (checkType : JsString) : Option TypeSpec :=
  if checkType = js "redis" then some redisType else none

/-- The Redis server of an organization. -/
def cache : Monitor where
  name := js "Cache"
  checkType := js "redis"
  url := js "cache.example"
  port := some 6379
  method := .get
  intervalSeconds := 60
  timeoutMs := 10000
  degradedThresholdMs := 2000
  expectedStatusCode := none
  bodyKeyword := none
  keywordAbsent := false
  tlsCheck := false
  tlsWarnDays := 14
  failureWindowSeconds := 180
  config := .object [(js "password", .string (js "hunter2"))]
  paused := false
  id := 1
  organizationId := 1

theorem stored_cache : AllStored redisOnly ⟨[cache]⟩ := by
  intro row hrow
  obtain rfl := List.mem_singleton.mp hrow
  refine ⟨redisType, rfl, ?_⟩
  exact
    { trimmed := rfl
      valid := by decide +kernel
      port := by decide +kernel
      columns := rfl
      keyed := ⟨List.nodup_singleton _, fun e he => by
        rw [List.mem_singleton.mp he]
        exact List.nodup_nil⟩
      not_array := nofun }

/-- A database that takes what it is sent. -/
def fine (id : ℕ) : Environment := ⟨id, [], [], none, none⟩

/-- The file with the record of the server, and with one more whose name was emptied. -/
def emptied : List Turn :=
  [⟨recordOf (exportedOf redisType cache), fine 2⟩,
    ⟨recordOf { exportedOf redisType cache with name := [] }, fine 3⟩]

/-- One record with an empty name, and no record has an outcome. -/
theorem not_portable_emptied : ¬ ∀ (specs : JsString → Option TypeSpec) (db : Db) (source : ℕ)
    (monitorIds : List ℕ) (organizationId : ℕ) (target : Db) (exportedAt : JsString)
    (turns : List Turn), AllStored specs db →
    Portable specs db source monitorIds organizationId target exportedAt turns := by
  intro h
  have haccounts := (h redisOnly ⟨[cache]⟩ 1 [] 2 ⟨[]⟩ [] emptied stored_cache).accounts
  have hreadable := ((accounts_iff _ _ _).mp haccounts).1
  have hsecond := hreadable ⟨recordOf { exportedOf redisType cache with name := [] }, fine 3⟩
    (List.mem_cons_of_mem _ List.mem_cons_self)
  exact absurd hsecond (by decide +kernel)

/-- The file as it was exported makes the round trip, without the password. -/
theorem portable_cache : Portable redisOnly ⟨[cache]⟩ 1 [] 2 ⟨[]⟩ []
    [⟨recordOf (exportedOf redisType cache), fine 2⟩] := by
  refine (portable_iff (AllStored.written stored_cache) 1 [] ⟨[]⟩ [] _).mpr ⟨⟨?_, ?_⟩, ?_⟩
  · intro turn hturn
    rw [List.mem_singleton.mp hturn]
    decide +kernel
  · intro turn hturn record _ hpause
    rw [List.mem_singleton.mp hturn] at hpause
    exact hpause.2.1 rfl
  · intro exported hexport hunaltered
    obtain rfl : [exportedOf redisType cache] = exported := Option.some_inj.mp hexport
    intro r hr spec hspec
    obtain rfl := List.mem_singleton.mp hr
    obtain rfl : redisType = spec := Option.some_inj.mp hspec
    exact
      { name := rfl
        port := by decide +kernel
        target := by decide +kernel
        config := by decide +kernel
        kept := ⟨.object [(js "password", .null)], rfl, fun e he => by
          obtain rfl : e = (js "password", .string secretMask) := List.mem_singleton.mp he
          have hsecret : js "password" ∈ redisType.secretFields := List.mem_singleton_self _
          rw [KeepsEntry, if_pos hsecret]
          intro hmask
          exact absurd hmask (by decide +kernel)⟩
        inserted := rfl
        paused := nofun }

end Vigil.Monitors.RoundTrip
