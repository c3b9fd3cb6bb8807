import Vigil.Incidents.Classify
import Vigil.Lib.Ranking
import Mathlib.Data.List.Lex
import Mathlib.Data.Prod.Lex

/-! Which failures an incident's evidence shows beside its own, `incidents/evidence/correlate.ts`.
Two failures are related when they share something that can earn a row on its own, and the related
ones are ranked and capped. -/

namespace Vigil.Incidents.Correlate

open Js.Text Ledger.Canonical Evidence Classify
open Net.Address (isDigit split join toLowerCase startsWith)

/-! ### Registrable domains -/

/-- The public suffixes of two labels that the product knows. -/
def TWO_LEVEL_SUFFIXES : List JsString :=
  ["ac.uk", "co.uk", "gov.uk", "ltd.uk", "me.uk", "mod.uk", "net.uk", "nhs.uk", "org.uk", "plc.uk",
    "police.uk", "sch.uk", "asn.au", "com.au", "edu.au", "gov.au", "id.au", "net.au", "org.au",
    "ac.jp", "ad.jp", "co.jp", "ed.jp", "go.jp", "gr.jp", "lg.jp", "ne.jp", "or.jp", "ac.nz",
    "co.nz", "geek.nz", "govt.nz", "health.nz", "iwi.nz", "kiwi.nz", "maori.nz", "mil.nz",
    "net.nz", "org.nz", "school.nz", "com.br", "edu.br", "gov.br", "net.br", "org.br", "ac.cn",
    "com.cn", "edu.cn", "gov.cn", "net.cn", "org.cn", "com.hk", "edu.hk", "gov.hk", "idv.hk",
    "net.hk", "org.hk", "com.sg", "edu.sg", "gov.sg", "net.sg", "org.sg", "per.sg", "ac.kr",
    "co.kr", "go.kr", "ne.kr", "or.kr", "pe.kr", "re.kr", "ac.in", "co.in", "edu.in", "firm.in",
    "gen.in", "gov.in", "ind.in", "net.in", "org.in", "res.in", "ac.id", "biz.id", "co.id",
    "go.id", "my.id", "net.id", "or.id", "sch.id", "web.id", "ac.th", "co.th", "go.th", "in.th",
    "mi.th", "net.th", "or.th", "ac.za", "co.za", "gov.za", "net.za", "org.za", "web.za", "ac.il",
    "co.il", "gov.il", "k12.il", "muni.il", "net.il", "org.il", "bel.tr", "com.tr", "edu.tr",
    "gov.tr", "k12.tr", "net.tr", "org.tr", "com.ar", "edu.ar", "gob.ar", "net.ar", "org.ar",
    "com.mx", "edu.mx", "gob.mx", "net.mx", "org.mx", "com.co", "edu.co", "gov.co", "net.co",
    "nom.co", "org.co", "com.es", "edu.es", "gob.es", "nom.es", "org.es", "com.pl", "edu.pl",
    "gov.pl", "net.pl", "org.pl", "com.pt", "edu.pt", "gov.pt", "net.pt", "nome.pt", "org.pt",
    "publ.pt", "edu.it", "gov.it", "asso.fr", "com.fr", "gouv.fr", "nom.fr", "prd.fr", "tm.fr",
    "com.ua", "edu.ua", "gov.ua", "in.ua", "net.ua", "org.ua", "com.ru", "net.ru", "org.ru"].map js

def isLetter (c : UInt16) : Bool := (0x41 ≤ c && c ≤ 0x5A) || (0x61 ≤ c && c ≤ 0x7A)

def isAlphanumeric (c : UInt16) : Bool := isLetter c || isDigit c

/-- `[a-z0-9]([a-z0-9-]{0,61}[a-z0-9])?` -/
def hostLabel (label : JsString) : Bool :=
  label.length ≤ 63 && (label.head?.any isAlphanumeric) && (label.getLast?.any isAlphanumeric) &&
    label.all fun c => isAlphanumeric c || c = 0x2D

/-- `[a-z]{2,}` -/
def topLabel (label : JsString) : Bool := 2 ≤ label.length && label.all isLetter

/-- `HOSTNAME_PATTERN.test(host)` -/
def hostnamePattern (host : JsString) : Bool :=
  let labels := split (js ".") host
  1 ≤ host.length && host.length ≤ 253 && 2 ≤ labels.length && labels.dropLast.all hostLabel &&
    labels.getLast?.any topLabel

/-- `labels.slice(-n)` -/
def lastLabels (n : ℕ) (labels : List JsString) : List JsString := labels.drop (labels.length - n)

def registrableDomain (value : JsString) : Option JsString :=
  let host := toLowerCase value
  if hostnamePattern host then
    let labels := split (js ".") host
    let suffixLabels :=
      if TWO_LEVEL_SUFFIXES.contains (join (lastLabels 2 labels) (js ".")) then 2 else 1
    if labels.length < suffixLabels + 1 then none
    else some (join (lastLabels (suffixLabels + 1) labels) (js "."))
  else none

/-! ### Signals -/

def MAX_CORRELATIONS : ℕ := 10

/-- `Number.MAX_SAFE_INTEGER` -/
def MAX_SAFE_INTEGER : ℤ := 9007199254740991

def STRONG : List CorrelationSignalKind :=
  [.sameHost, .sameDomain, .sameAddress, .sameSignature, .sameProbeLocation]

def GENERIC_SIGNATURES : List JsString :=
  ["TIMED_OUT", "ETIMEDOUT", "TIMEOUTERROR", "THE_OPERATION_WAS_ABORTED"].map js

def isStrong (signal : CorrelationSignal) : Bool :=
  if signal.kind ∉ STRONG then false
  else if signal.kind = .sameSignature then
    !GENERIC_SIGNATURES.contains signal.detail && !startsWith signal.detail (js "HTTP_")
  else true

/-- What the language does that signals do not depend on otherwise. -/
structure Engine where
  toLowerCase : JsString → JsString
  toISOString : ℤ → JsString

/-- A failing monitor.  The instant of its first failure is in milliseconds. -/
structure CorrelationCandidate where
  monitorId : JsString
  monitorName : JsString
  checkType : JsString
  host : Option JsString
  addresses : List JsString
  firstFailureAt : Option ℤ
  error : Option JsString
  statusCode : Option JsNumber
  failureClass : Option JsString
  incidentId : Option JsString
  probeLocations : Option (List JsString)

structure CorrelationSubject extends CorrelationCandidate where
  stage : EvidenceStage

def sharedValue (a b : Option (List JsString)) : Option JsString :=
  match a, b with
  | some a, some b => (a.insertionSort (· ≤ ·)).find? b.contains
  | _, _ => none

def hostSignal (subject candidate : CorrelationCandidate) : Option CorrelationSignal :=
  if subject.host ≠ none ∧ subject.host = candidate.host then
    subject.host.map (⟨.sameHost, ·⟩)
  else
    let a := subject.host.bind registrableDomain
    let b := candidate.host.bind registrableDomain
    if a ≠ none ∧ a = b then a.map (⟨.sameDomain, ·⟩) else none

variable (engine : Engine)

def signatureOf (failure : CorrelationCandidate) : Option JsString :=
  failureSignature engine.toLowerCase failure.error failure.statusCode

/-- The same signature. -/
def signatureSignal (subject candidate : CorrelationCandidate) : Option CorrelationSignal :=
  let mine := signatureOf engine subject
  if mine ≠ none ∧ mine = signatureOf engine candidate then mine.map (⟨.sameSignature, ·⟩)
  else none

/-- The signals that can be strong. -/
def earning (subject candidate : CorrelationCandidate) : List CorrelationSignal :=
  (hostSignal subject candidate).toList ++
    ((sharedValue (some subject.addresses) (some candidate.addresses)).map
      (⟨.sameAddress, ·⟩)).toList ++
    (signatureSignal engine subject candidate).toList ++
    ((sharedValue subject.probeLocations candidate.probeLocations).map
      (⟨.sameProbeLocation, ·⟩)).toList

def stageOf (candidate : CorrelationCandidate) : EvidenceStage :=
  let failure : ObservedFailure := {
    error := candidate.error
    failureClass := candidate.failureClass
    statusCode := candidate.statusCode }
  (classifyStage failure none).stage

def signalsBetween (subject : CorrelationSubject) (candidate : CorrelationCandidate) :
    List CorrelationSignal :=
  let signals := earning engine subject.toCorrelationCandidate candidate
  if signals.any isStrong then
    let stage := stageOf candidate
    let signals := signals ++
      (if stage ≠ .unknown ∧ stage = subject.stage then [⟨.sameStage, stage.text⟩] else []) ++
      (if subject.checkType = candidate.checkType then [⟨.sameCheckType, subject.checkType⟩]
        else [])
    signals.filter isStrong ++ signals.filter fun signal => !isStrong signal
  else []

/-! ### Ranking -/

/-- A row with what it is ranked by. -/
structure Scored where
  row : CorrelatedFailure
  strong : ℕ
  at_ : ℤ

/-- The row of a candidate that is related. -/
def scored (subject : CorrelationSubject) (candidate : CorrelationCandidate) : Option Scored :=
  let signals := signalsBetween engine subject candidate
  if signals.length = 0 then none
  else some {
    row := {
      monitorId := candidate.monitorId
      monitorName := candidate.monitorName
      checkType := candidate.checkType
      incidentId := candidate.incidentId
      firstFailureAt := candidate.firstFailureAt.map engine.toISOString
      signals := signals }
    strong := (signals.filter isStrong).length
    at_ := candidate.firstFailureAt.getD MAX_SAFE_INTEGER }

/-- The comparator of the ranking; a row is before another where it is negative. -/
def compare (a b : Scored) : ℤ :=
  if a.strong ≠ b.strong then (b.strong : ℤ) - a.strong
  else if a.row.signals.length ≠ b.row.signals.length then
    (b.row.signals.length : ℤ) - a.row.signals.length
  else if a.at_ ≠ b.at_ then a.at_ - b.at_
  else if a.row.monitorId < b.row.monitorId then -1 else 1

/-- `rows.sort(compare)`: a stable sort, in which a row passes those that it is before. -/
def ranked (rows : List Scored) : List Scored :=
  rows.insertionSort fun a b => ¬compare b a < 0

def rankCorrelations (subject : CorrelationSubject) (candidates : List CorrelationCandidate) :
    List CorrelatedFailure :=
  ((ranked (candidates.filterMap (scored engine subject))).take MAX_CORRELATIONS).map (·.row)

/-! ### Being related is symmetric -/

theorem hostSignal_comm (a b : CorrelationCandidate) : hostSignal a b = hostSignal b a := by
  unfold hostSignal
  by_cases hhost : a.host = b.host
  · rw [hhost]
  · have hab : ¬(a.host ≠ none ∧ a.host = b.host) := fun h => hhost h.2
    have hba : ¬(b.host ≠ none ∧ b.host = a.host) := fun h => hhost h.2.symm
    rw [if_neg hab, if_neg hba]
    dsimp only
    by_cases hdomain : a.host.bind registrableDomain = b.host.bind registrableDomain
    · rw [hdomain]
    · rw [if_neg fun h => hdomain h.2, if_neg fun h => hdomain h.2.symm]

theorem signatureSignal_comm (a b : CorrelationCandidate) :
    signatureSignal engine a b = signatureSignal engine b a := by
  unfold signatureSignal
  dsimp only
  by_cases hsame : signatureOf engine a = signatureOf engine b
  · rw [hsame]
  · rw [if_neg fun h => hsame h.2, if_neg fun h => hsame h.2.symm]

theorem sharedValue_isSome_iff (a b : List JsString) :
    (sharedValue (some a) (some b)).isSome = true ↔ ∃ value, value ∈ a ∧ value ∈ b := by
  simp [sharedValue, List.find?_isSome]

theorem sharedValue_isSome_comm (a b : Option (List JsString)) :
    (sharedValue a b).isSome = (sharedValue b a).isSome := by
  cases a with
  | none => cases b <;> rfl
  | some a =>
    cases b with
    | none => rfl
    | some b =>
      rw [Bool.eq_iff_iff, sharedValue_isSome_iff, sharedValue_isSome_iff]
      exact exists_congr fun value => and_comm

theorem any_isStrong_map {kind : CorrelationSignalKind} (hstrong : kind ∈ STRONG)
    (hkind : kind ≠ .sameSignature) (value : Option JsString) :
    ((value.map (⟨kind, ·⟩)).toList : List CorrelationSignal).any isStrong = value.isSome := by
  cases value with
  | none => rfl
  | some detail => simp [isStrong, hstrong, hkind]

theorem any_isStrong_earning (a b : CorrelationCandidate) :
    (earning engine a b).any isStrong =
      ((hostSignal a b).toList.any isStrong ||
        (sharedValue (some a.addresses) (some b.addresses)).isSome ||
        (signatureSignal engine a b).toList.any isStrong ||
        (sharedValue a.probeLocations b.probeLocations).isSome) := by
  rw [earning, List.any_append, List.any_append, List.any_append,
    any_isStrong_map (by decide) (by decide), any_isStrong_map (by decide) (by decide)]

theorem any_isStrong_earning_comm (a b : CorrelationCandidate) :
    (earning engine a b).any isStrong = (earning engine b a).any isStrong := by
  rw [any_isStrong_earning, any_isStrong_earning, hostSignal_comm,
    sharedValue_isSome_comm (some a.addresses), signatureSignal_comm,
    sharedValue_isSome_comm a.probeLocations]

theorem signalsBetween_strong {subject : CorrelationSubject} {candidate : CorrelationCandidate}
    (h : signalsBetween engine subject candidate ≠ []) :
    ∃ signal ∈ signalsBetween engine subject candidate, isStrong signal = true := by
  unfold signalsBetween at h ⊢
  dsimp only at h ⊢
  split at h
  · rename_i hstrong
    rw [if_pos hstrong]
    obtain ⟨signal, hmem, hsignal⟩ := List.any_eq_true.mp hstrong
    refine ⟨signal, List.mem_append_left _ (List.mem_filter.mpr ⟨?_, hsignal⟩), hsignal⟩
    exact List.mem_append_left _ (List.mem_append_left _ hmem)
  · exact absurd rfl h

theorem signalsBetween_eq_nil_iff (subject : CorrelationSubject) (candidate : CorrelationCandidate) :
    signalsBetween engine subject candidate = [] ↔
      (earning engine subject.toCorrelationCandidate candidate).any isStrong = false := by
  constructor
  · intro h
    rw [Bool.eq_false_iff]
    intro hstrong
    obtain ⟨signal, hmem, hsignal⟩ := List.any_eq_true.mp hstrong
    have hkept : signal ∈ signalsBetween engine subject candidate := by
      unfold signalsBetween
      dsimp only
      rw [if_pos hstrong]
      refine List.mem_append_left _ (List.mem_filter.mpr ⟨?_, hsignal⟩)
      exact List.mem_append_left _ (List.mem_append_left _ hmem)
    rw [h] at hkept
    exact List.not_mem_nil hkept
  · intro h
    unfold signalsBetween
    dsimp only
    rw [if_neg (Bool.eq_false_iff.mp h)]

theorem signalsBetween_nil_comm (a b : CorrelationSubject) :
    signalsBetween engine a b.toCorrelationCandidate = [] ↔
      signalsBetween engine b a.toCorrelationCandidate = [] := by
  rw [signalsBetween_eq_nil_iff, signalsBetween_eq_nil_iff, any_isStrong_earning_comm]

/-! ### The order of the ranking -/

/-- Strings in the order of their units. -/
abbrev stringOrder : LinearOrder JsString where
  le_refl := List.le_refl
  le_trans _ _ _ := List.le_trans
  lt_iff_le_not_ge _ _ := by
    rw [List.not_le]
    exact ⟨fun h => ⟨List.le_of_lt h, h⟩, fun h => h.2⟩
  le_antisymm _ _ := List.le_antisymm
  le_total := List.le_total
  toDecidableLE := inferInstance
  toDecidableLT := inferInstance
  toDecidableEq := inferInstance
  compare s t := compareOfLessAndEq s t
  compare_eq_compareOfLessAndEq _ _ := rfl

attribute [local instance] stringOrder

/-- What the comparator compares, one after another. -/
def rankOf (s : Scored) : ℤ ×ₗ ℤ ×ₗ ℤ ×ₗ JsString :=
  toLex (-(s.strong : ℤ), toLex (-(s.row.signals.length : ℤ), toLex (s.at_, s.row.monitorId)))

theorem compare_neg_iff (a b : Scored) : compare a b < 0 ↔ rankOf a < rankOf b := by
  simp only [rankOf, Prod.Lex.toLex_lt_toLex, compare]
  by_cases hstrong : a.strong = b.strong
  · by_cases hlength : a.row.signals.length = b.row.signals.length
    · by_cases hat : a.at_ = b.at_
      · by_cases hid : a.row.monitorId < b.row.monitorId <;> simp [hstrong, hlength, hat, hid]
      · simp only [hstrong, hlength, hat, ne_eq, not_true_eq_false, not_false_eq_true, if_true,
          if_false, lt_self_iff_false, false_and, or_false, true_and, false_or]
        omega
    · simp only [hstrong, hlength, ne_eq, not_true_eq_false, not_false_eq_true, if_true,
        if_false, lt_self_iff_false, true_and, false_or]
      omega
  · simp only [hstrong, ne_eq, not_false_eq_true, if_true]
    omega

theorem ranks : Lib.Ranking.Ranks rankOf fun a b : Scored => ¬compare b a < 0 := by
  intro a b
  dsimp only
  rw [compare_neg_iff, not_lt]

/-! ### The ranked rows -/

variable {engine} {subject : CorrelationSubject} {candidates : List CorrelationCandidate}

theorem scored_eq_some {candidate : CorrelationCandidate} {s : Scored}
    (h : scored engine subject candidate = some s) :
    s.row.monitorId = candidate.monitorId ∧
      s.row.signals = signalsBetween engine subject candidate ∧
      signalsBetween engine subject candidate ≠ [] := by
  unfold scored at h
  dsimp only at h
  split at h
  · cases h
  · rename_i hsome
    cases h
    exact ⟨rfl, rfl, fun hnil => hsome (by rw [hnil]; rfl)⟩

/-- Related candidates are told apart by the identifiers of their rows. -/
theorem scored_inj (hids : (candidates.map (·.monitorId)).Nodup) {s t : Scored}
    (hs : s ∈ candidates.filterMap (scored engine subject))
    (ht : t ∈ candidates.filterMap (scored engine subject))
    (hid : s.row.monitorId = t.row.monitorId) : s = t := by
  obtain ⟨a, ha, hs⟩ := List.mem_filterMap.mp hs
  obtain ⟨b, hb, ht⟩ := List.mem_filterMap.mp ht
  rw [(scored_eq_some hs).1, (scored_eq_some ht).1] at hid
  obtain rfl := List.inj_on_of_nodup_map hids ha hb hid
  exact Option.some.inj (hs.symm.trans ht)

theorem rankOf_inj (hids : (candidates.map (·.monitorId)).Nodup) {s t : Scored}
    (hs : s ∈ candidates.filterMap (scored engine subject))
    (ht : t ∈ candidates.filterMap (scored engine subject)) (h : rankOf s = rankOf t) :
    s = t := by
  simp only [rankOf, toLex_inj, Prod.mk.injEq] at h
  exact scored_inj hids hs ht h.2.2.2

theorem mem_rankCorrelations {row : CorrelatedFailure}
    (h : row ∈ rankCorrelations engine subject candidates) :
    ∃ s ∈ (ranked (candidates.filterMap (scored engine subject))).take MAX_CORRELATIONS,
      s ∈ candidates.filterMap (scored engine subject) ∧ s.row = row := by
  obtain ⟨s, hs, rfl⟩ := List.mem_map.mp h
  exact ⟨s, hs, (List.mem_insertionSort _).mp (List.mem_of_mem_take hs), rfl⟩

/-- Where there is room for all of them, every related candidate has its row. -/
theorem all_listed
    (hroom : (candidates.filterMap (scored engine subject)).length ≤ MAX_CORRELATIONS) {s : Scored}
    (hs : s ∈ candidates.filterMap (scored engine subject)) :
    s.row ∈ rankCorrelations engine subject candidates := by
  have hwhole : (ranked (candidates.filterMap (scored engine subject))).length ≤
      MAX_CORRELATIONS := by
    rw [ranked, List.length_insertionSort]
    exact hroom
  rw [rankCorrelations, List.take_of_length_le hwhole]
  exact List.mem_map_of_mem ((List.mem_insertionSort _).mpr hs)

/-- The rows of a snapshot are a function of the set of candidates: ten at most, each with a strong
signal, and no related candidate that is left out is before one that is listed; where no more than
ten are related, none is left out.  Whether two failures are related does not depend on whose
incident it is. -/
theorem rankCorrelations_spec (engine : Engine) (subject : CorrelationSubject)
    (candidates : List CorrelationCandidate) (hids : (candidates.map (·.monitorId)).Nodup) :
    (∀ candidates' : List CorrelationCandidate, candidates'.Perm candidates →
      rankCorrelations engine subject candidates' = rankCorrelations engine subject candidates) ∧
    (rankCorrelations engine subject candidates).length ≤ 10 ∧
    (∀ row ∈ rankCorrelations engine subject candidates,
      ∃ signal ∈ row.signals, isStrong signal = true) ∧
    (∀ listed ∈ candidates.filterMap (scored engine subject),
      ∀ omitted ∈ candidates.filterMap (scored engine subject),
        listed.row ∈ rankCorrelations engine subject candidates →
        omitted.row ∉ rankCorrelations engine subject candidates → ¬compare omitted listed < 0) ∧
    ((candidates.filterMap (scored engine subject)).length ≤ 10 →
      ∀ related ∈ candidates.filterMap (scored engine subject),
        related.row ∈ rankCorrelations engine subject candidates) ∧
    ∀ a b : CorrelationSubject, signalsBetween engine a b.toCorrelationCandidate = [] ↔
      signalsBetween engine b a.toCorrelationCandidate = [] := by
  refine ⟨fun candidates' hperm => ?_, ?_, fun row hrow => ?_, ?_,
    fun hroom related => all_listed hroom, signalsBetween_nil_comm engine⟩
  · have hscored := hperm.symm.filterMap (scored engine subject)
    unfold rankCorrelations ranked
    rw [Lib.Ranking.sort_eq_of_perm ranks hscored]
    exact fun s hs t ht => rankOf_inj hids hs ht
  · rw [rankCorrelations, List.length_map]
    exact List.length_take_le _ _
  · obtain ⟨s, -, hmem, rfl⟩ := mem_rankCorrelations hrow
    obtain ⟨candidate, -, hscored⟩ := List.mem_filterMap.mp hmem
    obtain ⟨-, hsignals, hrelated⟩ := scored_eq_some hscored
    rw [hsignals]
    exact signalsBetween_strong engine hrelated
  · intro listed hlisted omitted homitted hin hout hbefore
    obtain ⟨s, htaken, hs, hrow⟩ := mem_rankCorrelations hin
    obtain rfl := scored_inj hids hs hlisted (congrArg _ hrow)
    refine Lib.Ranking.not_lt_of_notMem_take ranks htaken homitted (fun hmem => ?_)
      ((compare_neg_iff _ _).mp hbefore)
    exact hout (List.mem_map_of_mem hmem)

def sampleEngine : Engine := ⟨id, fun _ => js "1970-01-01T00:00:00.000Z"⟩

def failing (id host : JsString) (checkType : JsString) : CorrelationCandidate where
  monitorId := id
  monitorName := id
  checkType := checkType
  host := some host
  addresses := []
  firstFailureAt := some 0
  error := none
  statusCode := none
  failureClass := none
  incidentId := none
  probeLocations := none

def sampleSubject : CorrelationSubject := ⟨failing (js "a") (js "h") (js "http"), .dns⟩

def sampleCandidates : List CorrelationCandidate :=
  [failing (js "b") (js "h") (js "dns"), failing (js "c") (js "h") (js "http"),
    failing (js "d") (js "g") (js "http")]

/-- The two monitors of the subject's host are listed, whatever the order they are read in; the one
that shares its type as well is first. -/
theorem rankCorrelations_sample :
    (rankCorrelations sampleEngine sampleSubject sampleCandidates).map (·.monitorId) =
        [js "c", js "b"] ∧
      rankCorrelations sampleEngine sampleSubject sampleCandidates.reverse =
        rankCorrelations sampleEngine sampleSubject sampleCandidates ∧
      (∀ row ∈ rankCorrelations sampleEngine sampleSubject sampleCandidates,
        ∃ signal ∈ row.signals, isStrong signal = true) ∧
      ∀ related ∈ sampleCandidates.filterMap (scored sampleEngine sampleSubject),
        related.row ∈ rankCorrelations sampleEngine sampleSubject sampleCandidates := by
  have hspec := rankCorrelations_spec sampleEngine sampleSubject sampleCandidates (by decide)
  exact ⟨by decide, hspec.1 _ (List.reverse_perm _), hspec.2.2.1, hspec.2.2.2.2.1 (by decide)⟩

end Vigil.Incidents.Correlate
