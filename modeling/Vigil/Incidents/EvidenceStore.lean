import Vigil.Incidents.Evidence
import Vigil.Incidents.Lifecycle

/-! The table of incident evidence: `captureIncidentEvidence` writes it, `getIncidentEvidence` reads
it and `pruneIncidentEvidence` clears it, of `incidents/evidence/capture.ts`, while incidents live
their lives.  Each is one statement, and a prune is as many as it takes.  What was captured first is
what stays, until its incident has been resolved for as long as a prune asks. -/

namespace Vigil.Incidents.EvidenceStore

open Lib Store Evidence Js.Text Monitors.StatusController Monitors.Record

/-- A row of `incident_evidence`. -/
structure EvidenceRow where
  incidentId : ℕ
  organizationId : String
  monitorId : Option ℕ
  schemaVersion : ℤ
  capturedAt : ℤ
  snapshot : IncidentEvidenceSnapshot

/-- The incidents and their evidence. -/
structure World where
  lifecycle : Lifecycle.World
  evidence : List EvidenceRow

inductive Action where
  | incident (action : Lifecycle.Action)
  | capture (row : EvidenceRow)
  /-- One statement of a prune, which removes the evidence of these incidents. -/
  | prune (cutoff : ℤ) (organizationId : Option String) (ids : List ℕ)

def hasMonitor (s : Lifecycle.World) (id : ℕ) : Bool := s.monitors.any (·.id = id)

/-- `on delete set null` -/
def EvidenceRow.unlink (s : Lifecycle.World) (row : EvidenceRow) : EvidenceRow :=
  { row with monitorId := row.monitorId.filter (hasMonitor s) }

/-- A row that names no incident or no monitor fails, and a second one for an incident does
nothing. -/
def captureIncidentEvidence (s : World) (row : EvidenceRow) : World :=
  if (s.lifecycle.incident? row.incidentId).isSome && row.monitorId.all (hasMonitor s.lifecycle) then
    if s.evidence.any (·.incidentId = row.incidentId) then s
    else { s with evidence := row :: s.evidence }
  else s

/-- The row that `getIncidentEvidence` finds for a reader of an organization. -/
def getIncidentEvidence (s : World) (organizationId : String) (incidentId : ℕ) :
    Option EvidenceRow :=
  s.evidence.find? fun row => row.incidentId = incidentId && row.organizationId = organizationId

def longResolved (cutoff : ℤ) (incident : Incident) : Bool :=
  incident.status = .resolved && incident.resolvedAt.any (· < cutoff)

/-- The condition on the organization, which an empty one leaves out. -/
def inScope (organizationId : Option String) (organization : String) : Bool :=
  organizationId.all fun id => id = "" || organization = id

/-- What the select of `pruneIncidentEvidence` joins. -/
def prunable (s : World) (cutoff : ℤ) (organizationId : Option String) (row : EvidenceRow) : Bool :=
  (s.lifecycle.incident? row.incidentId).any (longResolved cutoff) &&
    inScope organizationId row.organizationId

def step (s : World) : Action → Option World
  | .incident action => (Lifecycle.step s.lifecycle action).map fun lifecycle =>
      { lifecycle, evidence := s.evidence.map (EvidenceRow.unlink lifecycle) }
  | .capture row => some (captureIncidentEvidence s row)
  | .prune cutoff organizationId ids =>
    if s.evidence.all fun row => row.incidentId ∈ ids → prunable s cutoff organizationId row then
      some { s with evidence := s.evidence.filter fun row => row.incidentId ∉ ids }
    else none

def machine (monitors : List Monitor) : Machine World Action where
  init := { lifecycle := (Lifecycle.machine monitors).init, evidence := [] }
  step := step

/-! ### What a step leaves of a record -/

/-- The record of one moment; only its monitor may have been deleted since. -/
structure SameRecord (row row' : EvidenceRow) : Prop where
  incidentId : row'.incidentId = row.incidentId
  organizationId : row'.organizationId = row.organizationId
  monitorId : row'.monitorId = row.monitorId ∨ row'.monitorId = none
  schemaVersion : row'.schemaVersion = row.schemaVersion
  capturedAt : row'.capturedAt = row.capturedAt
  snapshot : row'.snapshot = row.snapshot

theorem SameRecord.refl (row : EvidenceRow) : SameRecord row row :=
  ⟨rfl, rfl, .inl rfl, rfl, rfl, rfl⟩

theorem SameRecord.trans {a b c : EvidenceRow} (hab : SameRecord a b) (hbc : SameRecord b c) :
    SameRecord a c where
  incidentId := hbc.incidentId.trans hab.incidentId
  organizationId := hbc.organizationId.trans hab.organizationId
  monitorId := by
    rcases hbc.monitorId with hsame | hnone
    · rw [hsame]
      exact hab.monitorId
    · exact .inr hnone
  schemaVersion := hbc.schemaVersion.trans hab.schemaVersion
  capturedAt := hbc.capturedAt.trans hab.capturedAt
  snapshot := hbc.snapshot.trans hab.snapshot

theorem sameRecord_unlink (s : Lifecycle.World) (row : EvidenceRow) :
    SameRecord row (row.unlink s) := by
  refine ⟨rfl, rfl, ?_, rfl, rfl, rfl⟩
  show row.monitorId.filter (hasMonitor s) = row.monitorId ∨
    row.monitorId.filter (hasMonitor s) = none
  cases row.monitorId with
  | none => exact .inl rfl
  | some id =>
    cases hid : hasMonitor s id with
    | true => exact .inl (by rw [Option.filter, if_pos hid])
    | false => exact .inr (by rw [Option.filter, hid]; rfl)

/-- An incident that was resolved before the cutoff. -/
def LongResolved (s : World) (cutoff : ℤ) (incidentId : ℕ) : Prop :=
  ∃ incident, s.lifecycle.incident? incidentId = some incident ∧ longResolved cutoff incident = true

/-- Either a step leaves a record where it is, or it prunes it, and its incident was resolved long
ago. -/
theorem step_record {s t : World} {a : Action} (h : step s a = some t) {row : EvidenceRow}
    (hrow : row ∈ s.evidence) :
    (∃ row' ∈ t.evidence, SameRecord row row') ∨
      ∃ cutoff organizationId ids, a = .prune cutoff organizationId ids ∧ row.incidentId ∈ ids ∧
        LongResolved t cutoff row.incidentId := by
  cases a with
  | incident action =>
    obtain ⟨lifecycle, -, rfl⟩ := Option.map_eq_some_iff.mp h
    exact .inl ⟨row.unlink lifecycle, List.mem_map_of_mem hrow, sameRecord_unlink lifecycle row⟩
  | capture new =>
    cases h
    refine .inl ⟨row, ?_, .refl row⟩
    unfold captureIncidentEvidence
    split
    · split
      · exact hrow
      · exact List.mem_cons_of_mem _ hrow
    · exact hrow
  | prune cutoff organizationId ids =>
    obtain ⟨hall, h⟩ := Option.ite_none_right_eq_some.mp h
    cases h
    by_cases hid : row.incidentId ∈ ids
    · refine .inr ⟨cutoff, organizationId, ids, rfl, hid, ?_⟩
      have hprunable : prunable s cutoff organizationId row = true :=
        of_decide_eq_true (List.all_eq_true.mp hall row hrow) hid
      have hany := (Bool.and_eq_true_iff.mp hprunable).1
      cases hincident : s.lifecycle.incident? row.incidentId with
      | none =>
        rw [hincident] at hany
        exact absurd hany Bool.false_ne_true
      | some incident =>
        rw [hincident] at hany
        exact ⟨incident, hincident, hany⟩
    · exact .inl ⟨row, List.mem_filter.mpr ⟨hrow, decide_eq_true hid⟩, .refl row⟩

/-! ### Every interleaving -/

/-- An incident stays resolved, and when it was resolved stays as it is. -/
theorem incident_longResolved {s t : Lifecycle.World} {a : Lifecycle.Action} {id : ℕ} {cutoff : ℤ}
    (hinv : Lifecycle.Inv s) (h : Lifecycle.step s a = some t) {incident : Incident}
    (hfound : s.incident? id = some incident) (hlong : longResolved cutoff incident = true) :
    ∃ incident', t.incident? id = some incident' ∧ longResolved cutoff incident' = true := by
  have hchange := (Lifecycle.step_change hinv.ids h).1
  have hids := hchange.ids hinv.ids
  obtain ⟨hmem, rfl⟩ := (Lifecycle.incident?_eq_some hinv.ids).mp hfound
  have hresolved : incident.status = .resolved :=
    of_decide_eq_true (Bool.and_eq_true_iff.mp hlong).1
  cases hchange with
  | inserted other fresh rows nextId =>
    refine ⟨incident, (Lifecycle.incident?_eq_some hids).mpr ⟨?_, rfl⟩, hlong⟩
    rw [rows]
    exact List.mem_cons_of_mem _ hmem
  | rewritten rows =>
    obtain ⟨incident', hmem', hlawful⟩ := (Lifecycle.forall₂_mem rows.rows).1 incident hmem
    refine ⟨incident', (Lifecycle.incident?_eq_some hids).mpr ⟨hmem', hlawful.id⟩, ?_⟩
    rcases hlawful.status with ⟨hstatus, hresolvedAt, -⟩ | ⟨hactive, -⟩
    · rwa [longResolved, hstatus, hresolvedAt]
    · exact absurd hresolved hactive

theorem step_longResolved {s t : World} {a : Action} (hinv : Lifecycle.Inv s.lifecycle)
    (h : step s a = some t) {id : ℕ} {cutoff : ℤ} (hlong : LongResolved s cutoff id) :
    LongResolved t cutoff id := by
  obtain ⟨incident, hfound, hresolved⟩ := hlong
  cases a with
  | incident action =>
    obtain ⟨lifecycle, hstep, rfl⟩ := Option.map_eq_some_iff.mp h
    exact incident_longResolved hinv hstep hfound hresolved
  | capture row =>
    cases h
    have hsame : (captureIncidentEvidence s row).lifecycle = s.lifecycle := by
      unfold captureIncidentEvidence
      split
      · split
        · rfl
        · rfl
      · rfl
    exact ⟨incident, by rw [hsame, hfound], hresolved⟩
  | prune cutoff organizationId ids =>
    obtain ⟨-, h⟩ := Option.ite_none_right_eq_some.mp h
    cases h
    exact ⟨incident, hfound, hresolved⟩

/-- What every reachable state satisfies. -/
structure Inv (s : World) : Prop where
  lifecycle : Lifecycle.Inv s.lifecycle
  /-- One record for each incident. -/
  unique : (s.evidence.map (·.incidentId)).Nodup

theorem step_inv {s t : World} {a : Action} (hinv : Inv s) (h : step s a = some t) : Inv t := by
  cases a with
  | incident action =>
    obtain ⟨lifecycle, hstep, rfl⟩ := Option.map_eq_some_iff.mp h
    refine ⟨Lifecycle.step_inv hinv.lifecycle hstep, ?_⟩
    show ((s.evidence.map (EvidenceRow.unlink lifecycle)).map (·.incidentId)).Nodup
    rw [List.map_map]
    exact hinv.unique
  | capture row =>
    cases h
    unfold captureIncidentEvidence
    split
    · split
      · exact hinv
      · rename_i hnew
        refine ⟨hinv.lifecycle, List.nodup_cons.mpr ⟨?_, hinv.unique⟩⟩
        intro hmem
        obtain ⟨other, hother, hsame⟩ := List.mem_map.mp hmem
        exact hnew (List.any_eq_true.mpr ⟨other, hother, decide_eq_true hsame⟩)
    · exact hinv
  | prune cutoff organizationId ids =>
    obtain ⟨-, h⟩ := Option.ite_none_right_eq_some.mp h
    cases h
    exact ⟨hinv.lifecycle, hinv.unique.sublist (List.filter_sublist.map _)⟩

theorem init_inv (monitors : List Monitor) : Inv (machine monitors).init :=
  ⟨Lifecycle.init_inv monitors, List.nodup_nil⟩

theorem reachable_inv {monitors : List Monitor} {s : World}
    (h : (machine monitors).Reachable s) : Inv s :=
  h.induct (P := Inv) (init_inv monitors) fun _ _ _ _ hinv hs => step_inv hinv hs

theorem eq_of_sameIncident {s : World} (hinv : Inv s) {row row' : EvidenceRow}
    (hrow : row ∈ s.evidence) (hrow' : row' ∈ s.evidence)
    (hsame : row'.incidentId = row.incidentId) : row' = row :=
  List.inj_on_of_nodup_map hinv.unique hrow' hrow hsame

/-- Whatever happens to an incident and whoever captures again: its evidence is what was captured
first, unless a prune has removed it, and then the incident had been resolved before the cutoff of
that prune. -/
theorem evidence_is_kept {monitors : List Monitor} {s t : World} {after : List Action}
    (hs : (machine monitors).Reachable s) (ht : (machine monitors).execFrom s after = some t)
    {row : EvidenceRow} (hrow : row ∈ s.evidence) :
    (∃ row' ∈ t.evidence, SameRecord row row' ∧
        ∀ other ∈ t.evidence, other.incidentId = row.incidentId → other = row') ∨
      ∃ cutoff organizationId ids, .prune cutoff organizationId ids ∈ after ∧
        row.incidentId ∈ ids ∧ LongResolved t cutoff row.incidentId := by
  have hkept : Inv t ∧ ((∃ row' ∈ t.evidence, SameRecord row row') ∨
      ∃ cutoff organizationId ids, .prune cutoff organizationId ids ∈ after ∧
        row.incidentId ∈ ids ∧ LongResolved t cutoff row.incidentId) := by
    apply Machine.execFrom_induct ht ⟨reachable_inv hs, .inl ⟨row, hrow, .refl row⟩⟩
    rintro r a r' ha ⟨hinv, hr⟩ hstep
    refine ⟨step_inv hinv hstep, ?_⟩
    rcases hr with ⟨row', hrow', hsame⟩ | ⟨cutoff, organizationId, ids, hprune, hid, hlong⟩
    · rcases step_record hstep hrow' with ⟨row'', hrow'', hsame'⟩ |
        ⟨cutoff, organizationId, ids, rfl, hid, hlong⟩
      · exact .inl ⟨row'', hrow'', hsame.trans hsame'⟩
      · rw [hsame.incidentId] at hid hlong
        exact .inr ⟨cutoff, organizationId, ids, ha, hid, hlong⟩
    · exact .inr ⟨cutoff, organizationId, ids, hprune, hid,
        step_longResolved hinv.lifecycle hstep hlong⟩
  obtain ⟨hinv, ⟨row', hrow', hsame⟩ | hpruned⟩ := hkept
  · refine .inl ⟨row', hrow', hsame, fun other hother hincident => ?_⟩
    exact eq_of_sameIncident hinv hrow' hother (hincident.trans hsame.incidentId.symm)
  · exact .inr hpruned

def sampleSnapshot : IncidentEvidenceSnapshot where
  schemaVersion := 1
  capturedAt := js "2026-01-01T00:00:00.000Z"
  monitor :=
    { id := js "m", name := js "Shop", checkType := js "http", target := js "https://shop.example",
      host := none, port := none }
  failure :=
    { at_ := none, verdict := some (js "down"), failureClass := none, error := some (js "refused"),
      statusCode := none, responseTimeMs := none, failedAssertions := [], facts := [] }
  stage := { stage := .tcp, basis := .unknown, reason := js "The connection was refused." }
  signature := none
  firstFailureAt := none
  lastSuccess := none
  lastSuccessFound := false
  changes := []
  burst := none
  correlations := []
  correlationsSkipped := false

/-- The record that a worker captures, at its own time. -/
def sampleRow (capturedAt : ℤ) : EvidenceRow where
  incidentId := 0
  organizationId := "acme"
  monitorId := none
  schemaVersion := 1
  capturedAt
  snapshot := sampleSnapshot

def opened : List Action :=
  [.incident (.begin 0 (.createIncident ⟨"acme", "ann"⟩ "Shop is down" .major none)),
    .incident (.write 0 5), .capture (sampleRow 6)]

/-- A second worker captures, and the incident is resolved. -/
def resolvedLater : List Action :=
  [.capture (sampleRow 9),
    .incident (.begin 1 (.changeIncidentStatus ⟨"acme", "ann"⟩ 0 .resolved "Fixed.")),
    .incident (.write 1 20), .prune 15 none []]

theorem first_evidence_is_kept :
    (∃ row' ∈ ((machine []).reached (opened ++ resolvedLater)).evidence,
        SameRecord (sampleRow 6) row' ∧
        ∀ other ∈ ((machine []).reached (opened ++ resolvedLater)).evidence,
          other.incidentId = 0 → other = row') ∨
      ∃ cutoff organizationId ids, .prune cutoff organizationId ids ∈ resolvedLater ∧ 0 ∈ ids ∧
        LongResolved ((machine []).reached (opened ++ resolvedLater)) cutoff 0 :=
  evidence_is_kept ⟨opened, Machine.exec_reached (by rfl)⟩ (Machine.execFrom_reached (by rfl))
    List.mem_cons_self

end Vigil.Incidents.EvidenceStore
