import Vigil.Importers.Translate

/-! What `translateCheck` makes of the fields of a check that bear on its behaviour.  Whatever a
check states is carried as it was stated or is named by a note or a refusal, but for the fields that
its kind does not read and the values that `Plain` leaves out. -/

namespace Vigil.Importers.FieldReport

open Js.Text Rewrite Lib.Noted Translate
open Monitors.Push (trim)
open Net.Address (isDigit parseDigits join)

/-! ### Fields -/

/-- What of a check bears on its behaviour. -/
inductive Field where
  | target | port | interval | timeout | failureTolerance | method | acceptedStatus | keyword
  | keywordAbsent | jsonPath | jsonOperator | headers | body | authentication | redirects
  | certificateDays | period | grace
  deriving DecidableEq

/-- The fields that a note says are not carried as they were stated. -/
@[simp] def noteFields : Note → List Field
  | .intervalUnreadable _ | .intervalClamped _ _ => [.interval]
  | .timeoutClamped _ _ => [.timeout]
  | .warnDaysClamped _ _ => [.certificateDays]
  | .statusCodes _ => [.acceptedStatus]
  | .headers _ => [.headers]
  | .requestBody => [.body]
  | .authentication => [.authentication]
  | .redirects => [.redirects]
  | .urlCredentials => [.target]
  | .keywordTooLong _ | .keywordOfHead => [.keyword, .keywordAbsent]
  | .jsonPathRewritten _ _ => [.jsonPath]
  | .periodClamped _ _ => [.period]
  | _ => []

@[simp] def refusalFields : Refusal → List Field
  | .noUrl | .noHost | .noDomain => [.target]
  | .method _ => [.method]
  | .jsonOperator _ => [.jsonOperator]
  | .jsonPath _ => [.jsonPath]
  | .noPort _ | .implicitTls _ _ => [.port]
  | .recordType _ => []

/-- What the texts call a field. -/
def Field.words : Field → List JsString
  | .target => [js "URL", js "hostname", js "registrable domain"]
  | .port => [js "port"]
  | .interval => [js "Interval", js "interval"]
  | .timeout => [js "Timeout"]
  | .failureTolerance => []
  | .method => [js "The source sends"]
  | .acceptedStatus => [js "accepted status codes"]
  | .keyword | .keywordAbsent => [js "body assertion"]
  | .jsonPath => [js "JSON path"]
  | .jsonOperator => [js "compares the JSON value"]
  | .headers => [js "request header(s)"]
  | .body => [js "request body"]
  | .authentication => [js "HTTP authentication"]
  | .redirects => [js "follow redirects"]
  | .certificateDays => [js "Certificate warning threshold"]
  | .period => [js "expected period"]
  | .grace => []

theorem infix_left {word text rest : JsString} (h : word <:+: text) : word <:+: text ++ rest :=
  h.trans (List.prefix_append text rest).isInfix

theorem infix_right (text word : JsString) : word <:+: text ++ word :=
  (List.suffix_append text word).isInfix

variable {field : Field} {build : Build}

/-- A note that names a field has a word for it in its text. -/
theorem text_of_mem_noteFields (p : Platform) {note : Note} (h : field ∈ noteFields note) :
    ∃ word ∈ field.words, word <:+: note.text p := by
  cases note with
  | intervalUnreadable requested =>
    obtain rfl := List.mem_singleton.mp h
    exact ⟨js "interval", List.mem_cons_of_mem _ List.mem_cons_self, by
      exact infix_left (infix_left (infix_left (infix_left (infix_left (infix_right _ _)))))⟩
  | keywordTooLong length | keywordOfHead =>
    have hwords : field.words = [js "body assertion"] := by
      rcases List.mem_pair.mp h with rfl | rfl <;> rfl
    refine ⟨_, hwords ▸ List.mem_cons_self, ?_⟩
    simp only [Note.text]
    repeat' first
      | with_reducible exact infix_right _ _
      | with_reducible apply infix_left
  | nameCut | retryPolicy | assertion | dnsValueTooLong | dnsValues | resolver | cron
  | newPushToken | loss | withheld | regions => cases h
  | _ =>
    obtain rfl := List.mem_singleton.mp h
    refine ⟨_, List.mem_cons_self, ?_⟩
    simp only [Note.text]
    repeat' first
      | with_reducible exact List.infix_refl _
      | with_reducible exact infix_right _ _
      | with_reducible apply infix_left

theorem text_of_mem_refusalFields (p : Platform) {refusal : Refusal}
    (h : field ∈ refusalFields refusal) : ∃ word ∈ field.words, word <:+: refusal.text p := by
  cases refusal with
  | noHost =>
    obtain rfl := List.mem_singleton.mp h
    refine ⟨js "hostname", List.mem_cons_of_mem _ List.mem_cons_self, ?_⟩
    exact infix_left (infix_right _ _)
  | noDomain =>
    obtain rfl := List.mem_singleton.mp h
    refine ⟨js "registrable domain",
      List.mem_cons_of_mem _ (List.mem_cons_of_mem _ List.mem_cons_self), ?_⟩
    exact infix_left (infix_right _ _)
  | recordType asked => cases h
  | _ =>
    obtain rfl := List.mem_singleton.mp h
    refine ⟨_, List.mem_cons_self, ?_⟩
    simp only [Refusal.text]
    repeat' first
      | with_reducible exact List.infix_refl _
      | with_reducible exact infix_right _ _
      | with_reducible apply infix_left

/-! ### What a kind reads -/

/-- The fields that only some kinds read, and the target. -/
def ownFields : Kind → List Field
  | .http => [.target, .method, .acceptedStatus, .keyword, .keywordAbsent, .headers, .body,
      .authentication, .redirects, .certificateDays]
  | .json => [.target, .jsonPath, .jsonOperator, .headers, .body, .authentication, .redirects]
  | .tcp | .smtp | .imap | .ftp | .ssh | .ntp | .grpc => [.target, .port]
  | .tls => [.target, .port, .certificateDays]
  | .domain => [.target, .certificateDays]
  | .heartbeat => [.target, .period, .grace]
  | .ping | .dns | .websocket | .group => [.target]
  | .udp | .unsupported => []

/-- The fields that the translation of a kind reads. -/
def fieldsRead (kind : Kind) : List Field :=
  [.interval, .timeout, .failureTolerance] ++ ownFields kind

section Stated

variable (p : Platform)

/-- A URL as `new URL(value).toString()` writes it. -/
def writtenUrl (value : JsString) : JsString :=
  match p.parseUrl (trim value) with
  | none => trim value
  | some url => url.href

/-- The target that a check of its kind states. -/
def targetOf (check : SourceCheck) : Option JsString :=
  match check.kind with
  | .http | .json | .websocket => check.target.url.map (writtenUrl p)
  | .domain => check.target.domain.map trim
  | .heartbeat | .group => check.target.label
  | _ => check.target.host.map fun host => hostText p (trim host)

def periodOf (check : SourceCheck) : Option ℚ :=
  if check.kind = .heartbeat then check.heartbeat.bind (·.periodSeconds) else none

/-- How often the check runs at its source. -/
def ownInterval (check : SourceCheck) : ℚ :=
  (periodOf check).getD (check.intervalSeconds.getD defaultIntervalSeconds)

/-- A count of failures without a spacing, which the check's own interval spaces. -/
def OwnSpacing (check : SourceCheck) : Prop :=
  ∃ retries, check.retries = some retries ∧ retries.windowSeconds = none ∧
    retries.intervalSeconds = none

/-- The threshold of a check that watches a certificate or a registration. -/
def warnDaysOf (check : SourceCheck) : Option ℚ :=
  if check.kind = .http then
    if check.http.bind (·.checkCertificateExpiry) = some true then
      check.http.bind (·.certificateWarnDays)
    else none
  else check.warnDays

/-- What the check states of a field is in the create input as it was stated. -/
def Carried (check : SourceCheck) (input : RawInput) : Field → Prop
  | .target => ∀ target, targetOf p check = some target → input.url = some target
  | .port => ∀ port, check.target.port = some port → input.port = some port
  | .interval =>
    ∀ interval, check.intervalSeconds = some interval → (input.intervalSeconds : ℚ) = interval
  | .timeout => ∀ timeout, check.timeoutMs = some timeout → (input.timeoutMs : ℚ) = timeout
  | .failureTolerance =>
    ∀ tolerance, toleranceOf check (ownInterval check) = some tolerance →
      ∃ window : ℤ, input.failureWindowSeconds = some window ∧ (window : ℚ) = tolerance
  | .method =>
    ∀ method, check.http.bind (·.method) = some method →
      input.method = some (p.toUpperCase method)
  | .acceptedStatus =>
    statedCodes (check.http.bind (·.acceptedStatus)) ≠ [] →
      ∃ code, statedCodes (check.http.bind (·.acceptedStatus)) = [code] ∧ threeDigits code ∧
        input.expectedStatusCode = some (parseDigits 10 code)
  | .keyword =>
    ∀ keyword, check.http.bind (·.keyword) = some keyword → keyword ≠ [] →
      input.bodyKeyword = some keyword
  | .keywordAbsent =>
    ∀ keyword absent, check.http.bind (·.keyword) = some keyword → keyword ≠ [] →
      check.http.bind (·.keywordAbsent) = some absent → input.keywordAbsent = some absent
  | .jsonPath =>
    ∀ path, check.http.bind (·.jsonPath) = some path →
      ∃ value, input.config = some (.jsonQuery (trim path) value)
  | .jsonOperator =>
    ∀ operator, check.http.bind (·.jsonOperator) = some operator →
      operator = js "==" ∨ operator = js "eq"
  | .headers => ∀ names, check.http.bind (·.headerNames) = some names → names = []
  | .body => check.http.bind (·.hasRequestBody) ≠ some true
  | .authentication => check.http.bind (·.hasBasicAuth) ≠ some true
  | .redirects => check.http.bind (·.followRedirects) ≠ some false
  | .certificateDays =>
    ∀ days, warnDaysOf check = some days → ∃ warnDays : ℤ, (warnDays : ℚ) = days ∧
      if check.kind = .http then input.tlsCheck = some true ∧ input.tlsWarnDays = some warnDays
      else input.config = some (.warnDays warnDays)
  | .period => ∀ period, periodOf check = some period → (input.intervalSeconds : ℚ) = period
  | .grace =>
    ∀ grace, check.heartbeat.bind (·.graceSeconds) = some grace →
      ∃ seconds : ℤ, (seconds : ℚ) = grace ∧ input.config = some (.push seconds)

end Stated

/-- A whole number of seconds between 0 and a day. -/
def WithinDay (seconds : ℚ) : Prop := ∃ n : ℤ, seconds = n ∧ 0 ≤ n ∧ n ≤ 86400

/-- The values of a field that are not carried without a word.  A timeout that is not positive is
one that the source never stored. -/
def Plain (check : SourceCheck) : Field → Prop
  | .interval => periodOf check = none
  | .timeout => ∀ timeout, check.timeoutMs = some timeout → ∃ n : ℤ, timeout = n ∧ 0 < n
  | .failureTolerance =>
    (∀ tolerance, toleranceOf check (ownInterval check) = some tolerance → WithinDay tolerance) ∧
      (OwnSpacing check → periodOf check = none)
  | .grace => ∀ grace, check.heartbeat.bind (·.graceSeconds) = some grace → WithinDay grace
  | _ => True

abbrev Names (field : Field) {α : Type} (x : Stage α) : Prop :=
  Tells (fun note : Note => field ∈ noteFields note)
    (fun refusal : Refusal => field ∈ refusalFields refusal) x

/-- A note or a refusal names the field, or the interval that spaces the failures it counts. -/
def Told (check : SourceCheck) (build : Build) (field : Field) : Prop :=
  Names field build ∨ field = .failureTolerance ∧ OwnSpacing check ∧ Names .interval build

/-! ### What every kind has, carried -/

variable {p : Platform} {check : SourceCheck} {input : RawInput}

theorem intervalFor_carries (check : SourceCheck) :
    Names .interval (intervalFor check) ∨
      ((intervalFor check).value : ℚ) = check.intervalSeconds.getD defaultIntervalSeconds := by
  unfold intervalFor
  cases check.intervalSeconds with
  | none => exact .inr rfl
  | some requested =>
    dsimp only
    split
    · left
      simp [noteFields]
    · split
      · left
        simp [noteFields]
      · rename_i happlied
        right
        simpa using not_not.mp happlied

theorem clamp_of_mem {value minimum maximum : ℤ} (hmin : minimum ≤ value)
    (hmax : value ≤ maximum) : clamp value minimum maximum = value := by
  rw [clamp, max_eq_right hmin, min_eq_right hmax]

theorem timeoutFor_carries (hplain : Plain check .timeout) :
    Names .timeout (timeoutFor check) ∨
      ∀ timeout, check.timeoutMs = some timeout → ((timeoutFor check).value : ℚ) = timeout := by
  unfold timeoutFor
  cases htimeout : check.timeoutMs with
  | none =>
    right
    intro timeout h
    cases h
  | some timeoutMs =>
    obtain ⟨n, rfl, hpos⟩ := hplain timeoutMs htimeout
    dsimp only
    rw [round_intCast, if_neg (by omega)]
    split
    · left
      simp [noteFields]
    · rename_i happlied
      right
      intro timeout h
      cases h
      exact congrArg _ (not_not.mp happlied)

/-- A timeout that is not positive falls back on the default. -/
theorem timeoutFor_of_nonpos {timeout : ℚ} (htimeout : check.timeoutMs = some timeout)
    (hnonpos : round timeout ≤ 0) : timeoutFor check = pure defaultTimeoutMs := by
  rw [timeoutFor, htimeout]
  exact if_pos hnonpos

theorem toleranceOf_of_spaced (hspaced : ¬OwnSpacing check) (a b : ℚ) :
    toleranceOf check a = toleranceOf check b := by
  unfold toleranceOf
  cases hretries : check.retries with
  | none => rfl
  | some retries =>
    cases hwindow : retries.windowSeconds with
    | some window => simp [hwindow]
    | none =>
      cases hspacing : retries.intervalSeconds with
      | none => exact absurd ⟨retries, hretries, hwindow, hspacing⟩ hspaced
      | some spacing => simp [hspacing]

theorem failureWindowFor_value (intervalSeconds : ℤ) :
    (failureWindowFor check intervalSeconds).value =
      (toleranceOf check intervalSeconds).map fun tolerance =>
        clamp (round tolerance) minFailureWindowSeconds maxFailureWindowSeconds := by
  unfold failureWindowFor
  cases check.retries.bind (·.note) <;> rfl

theorem failureWindowFor_carries (hplain : Plain check .failureTolerance) :
    OwnSpacing check ∧ Names .interval (intervalFor check) ∨
      ∀ tolerance, toleranceOf check (ownInterval check) = some tolerance →
        ∃ window, (failureWindowFor check (intervalFor check).value).value = some window ∧
          (window : ℚ) = tolerance := by
  obtain ⟨hday, hown⟩ := hplain
  by_cases htold : OwnSpacing check ∧ Names .interval (intervalFor check)
  · exact .inl htold
  · right
    intro tolerance htolerance
    obtain ⟨n, rfl, hmin, hmax⟩ := hday tolerance htolerance
    have hsame : toleranceOf check (intervalFor check).value =
        toleranceOf check (ownInterval check) := by
      by_cases hspacing : OwnSpacing check
      · have hcarried := (intervalFor_carries check).resolve_left fun h => htold ⟨hspacing, h⟩
        rw [ownInterval, hown hspacing, hcarried]
        rfl
      · exact toleranceOf_of_spaced hspacing _ _
    have hclamp : clamp n minFailureWindowSeconds maxFailureWindowSeconds = n :=
      clamp_of_mem hmin hmax
    refine ⟨n, ?_, rfl⟩
    rw [failureWindowFor_value, hsame, htolerance, Option.map_some, round_intCast, hclamp]

theorem warnDaysFor_carries (requested : Option ℚ) :
    Names .certificateDays (warnDaysFor requested) ∨
      ∀ days, requested = some days →
        ∃ applied : ℤ, (applied : ℚ) = days ∧ (warnDaysFor requested).value = some applied := by
  unfold warnDaysFor
  cases requested with
  | none =>
    right
    intro days h
    cases h
  | some requested =>
    dsimp only
    split
    · left
      simp [noteFields]
    · rename_i happlied
      right
      intro days h
      cases h
      exact ⟨_, not_not.mp happlied, rfl⟩

theorem urlFor_carries (check : SourceCheck) :
    Names .target (urlFor p check) ∨
      ∀ url, check.target.url = some url → (urlFor p check).value = writtenUrl p url := by
  unfold urlFor
  cases check.target.url with
  | none =>
    right
    intro url h
    cases h
  | some raw =>
    dsimp only [Option.getD_some]
    split
    · left
      simp [refusalFields]
    · cases hparsed : p.parseUrl (trim raw) with
      | none =>
        right
        intro url h
        cases h
        simp [stripUrlCredentials, writtenUrl, hparsed]
      | some parsed =>
        by_cases hbare : parsed.username = [] ∧ parsed.password = []
        · right
          intro url h
          cases h
          simp [stripUrlCredentials, writtenUrl, hparsed, hbare]
        · left
          simp [stripUrlCredentials, hparsed, hbare, noteFields]

theorem hostFor_carries (check : SourceCheck) :
    Names .target (hostFor p check) ∨
      ∀ host, check.target.host = some host → (hostFor p check).value = hostText p (trim host) := by
  unfold hostFor
  cases check.target.host with
  | none =>
    right
    intro host h
    cases h
  | some raw =>
    dsimp only [Option.getD_some]
    split
    · left
      simp [refusalFields]
    · right
      intro host h
      cases h
      rfl

/-! ### Each kind, carried -/

theorem expectedStatusFrom_carries (accepted : Option (List JsString)) :
    Names .acceptedStatus (expectedStatusFrom accepted) ∨
      (statedCodes accepted ≠ [] → ∃ code, statedCodes accepted = [code] ∧ threeDigits code ∧
        (expectedStatusFrom accepted).value = some (parseDigits 10 code)) := by
  unfold expectedStatusFrom
  rcases hcodes : statedCodes accepted with - | ⟨code, - | ⟨other, rest⟩⟩
  · right
    intro h
    exact absurd rfl h
  · by_cases hdigits : threeDigits code = true
    · right
      intro _
      exact ⟨code, rfl, hdigits, by simp [hdigits]⟩
    · left
      simp [hdigits, noteFields]
  · left
    simp [noteFields]

theorem keywordFor_carries (check : SourceCheck) :
    (Names .keyword (keywordFor p check) ∧ Names .keywordAbsent (keywordFor p check)) ∨
      ∀ keyword, check.http.bind (·.keyword) = some keyword → keyword ≠ [] →
        (keywordFor p check).value =
          some (keyword, decide (check.http.bind (·.keywordAbsent) = some true)) := by
  unfold keywordFor
  cases check.http.bind (·.keyword) with
  | none =>
    right
    intro keyword h
    cases h
  | some keyword =>
    dsimp only [Option.getD_some]
    split
    · rename_i hempty
      right
      intro stated h hne
      cases h
      exact absurd (List.length_eq_zero_iff.mp hempty) hne
    · split
      · left
        simp [noteFields]
      · split
        · left
          simp [noteFields]
        · right
          intro stated h _
          cases h
          rfl

theorem certificateFor_carries (hkind : check.kind = .http) :
    Names .certificateDays (certificateFor check) ∨
      ∀ days, warnDaysOf check = some days → ∃ warnDays : ℤ, (warnDays : ℚ) = days ∧
        (certificateFor check).value = some (some warnDays) := by
  unfold certificateFor warnDaysOf
  rw [if_pos hkind]
  split
  · rcases warnDaysFor_carries (check.http.bind (·.certificateWarnDays)) with htold | hcarried
    · left
      simp only [tells_bind]
      exact .inl htold
    · right
      intro days hdays
      obtain ⟨applied, happlied, hvalue⟩ := hcarried days hdays
      exact ⟨applied, happlied, by simp [hvalue]⟩
  · right
    intro days hdays
    cases hdays

theorem jsonConfigFor_carries (check : SourceCheck) :
    Names .jsonPath (jsonConfigFor check) ∨
      ∀ path, check.http.bind (·.jsonPath) = some path →
        ∃ value, (jsonConfigFor check).value = some (.jsonQuery (trim path) value) := by
  unfold jsonConfigFor
  dsimp only
  cases hpath : vigilJsonPath ((check.http.bind (·.jsonPath)).getD []) with
  | none =>
    left
    simp [refusalFields]
  | some path =>
    by_cases hsame : path = trim ((check.http.bind (·.jsonPath)).getD [])
    · right
      intro sourcePath hsource
      rw [hsource, Option.getD_some] at hsame
      refine ⟨(check.http.bind (·.jsonExpectedValue)).getD [], ?_⟩
      simp [hsource, hsame]
    · left
      simp [hsame, noteFields]

theorem operatorRefusal_carries (check : SourceCheck) :
    Names .jsonOperator (operatorRefusal check) ∨
      ∀ operator, check.http.bind (·.jsonOperator) = some operator →
        operator = js "==" ∨ operator = js "eq" := by
  unfold operatorRefusal
  cases check.http.bind (·.jsonOperator) with
  | none =>
    right
    intro operator h
    cases h
  | some operator =>
    by_cases hequal : operator = js "==" ∨ operator = js "eq"
    · right
      intro stated h
      cases h
      exact hequal
    · left
      simpa [refusalFields] using hequal

theorem periodFor_carries (check : SourceCheck) :
    Names .period (periodFor check) ∨
      ∀ period, check.heartbeat.bind (·.periodSeconds) = some period →
        ∃ applied : ℤ, (applied : ℚ) = period ∧ (periodFor check).value = some applied := by
  unfold periodFor
  cases check.heartbeat.bind (·.periodSeconds) with
  | none =>
    right
    intro period h
    cases h
  | some period =>
    dsimp only
    split
    · left
      simp [noteFields]
    · rename_i happlied
      right
      intro stated h
      cases h
      exact ⟨_, not_not.mp happlied, rfl⟩

section Losses

variable (check)

theorem names_losses {http : SourceHttpRequest} (hhttp : check.http = some http) (field : Field) :
    Names field (noteHttpLosses check) ↔
      (0 < (http.headerNames.getD []).length ∧
        field ∈ noteFields (.headers (http.headerNames.getD []))) ∨
      (http.hasRequestBody = some true ∧ field ∈ noteFields .requestBody) ∨
      (http.hasBasicAuth = some true ∧ field ∈ noteFields .authentication) ∨
      (http.followRedirects = some false ∧ field ∈ noteFields .redirects) ∨
      ∃ n ∈ (http.otherAssertions.getD []).map Note.assertion, field ∈ noteFields n := by
  unfold noteHttpLosses
  rw [hhttp]
  simp only [tells_bind, tells_noteIf, tells_noteAll, gt_iff_lt]

theorem losses_headers :
    Names .headers (noteHttpLosses check) ∨
      ∀ names, check.http.bind (·.headerNames) = some names → names = [] := by
  cases hhttp : check.http with
  | none =>
    right
    intro names h
    cases h
  | some http =>
    rcases Nat.eq_zero_or_pos (http.headerNames.getD []).length with hzero | hpos
    · right
      intro names h
      rw [Option.bind_some] at h
      rw [h, Option.getD_some] at hzero
      exact List.eq_nil_of_length_eq_zero hzero
    · exact .inl ((names_losses check hhttp _).mpr (.inl ⟨hpos, List.mem_singleton_self _⟩))

/-- A switch of the request that the source has set, and the note that it loses. -/
theorem losses_switch {field : Field} {switch : SourceHttpRequest → Option Bool} {value : Bool}
    (hnoted : ∀ http, check.http = some http → switch http = some value →
      Names field (noteHttpLosses check)) :
    Names field (noteHttpLosses check) ∨ check.http.bind switch ≠ some value := by
  by_cases hset : check.http.bind switch = some value
  · obtain ⟨http, hhttp, hswitch⟩ := Option.bind_eq_some_iff.mp hset
    exact .inl (hnoted http hhttp hswitch)
  · exact .inr hset

theorem losses_body :
    Names .body (noteHttpLosses check) ∨ check.http.bind (·.hasRequestBody) ≠ some true :=
  losses_switch check fun _ hhttp hset =>
    (names_losses check hhttp _).mpr (.inr (.inl ⟨hset, List.mem_singleton_self _⟩))

theorem losses_authentication :
    Names .authentication (noteHttpLosses check) ∨
      check.http.bind (·.hasBasicAuth) ≠ some true :=
  losses_switch check fun _ hhttp hset =>
    (names_losses check hhttp _).mpr (.inr (.inr (.inl ⟨hset, List.mem_singleton_self _⟩)))

theorem losses_redirects :
    Names .redirects (noteHttpLosses check) ∨
      check.http.bind (·.followRedirects) ≠ some false :=
  losses_switch check fun _ hhttp hset =>
    (names_losses check hhttp _).mpr (.inr (.inr (.inr (.inl ⟨hset, List.mem_singleton_self _⟩))))

end Losses

/-- A part of a build accounts for a field: it carries the field or names it. -/
def Accounts (p : Platform) (check : SourceCheck) (build : Build) (field : Field) : Prop :=
  Carried p check build.value field ∨ Names field build

theorem Accounts.of_url (hkind : check.kind = .http ∨ check.kind = .json ∨ check.kind = .websocket)
    (hvalue : build.value.url = some (urlFor p check).value)
    (hnames : Names .target (urlFor p check) → Names .target build) :
    Accounts p check build .target := by
  rcases urlFor_carries (p := p) check with htold | hcarried
  · exact .inr (hnames htold)
  · left
    intro target htarget
    have hurl : check.target.url.map (writtenUrl p) = some target := by
      rcases hkind with hkind | hkind | hkind <;> simpa [targetOf, hkind] using htarget
    obtain ⟨url, hstated, rfl⟩ := Option.map_eq_some_iff.mp hurl
    rw [hvalue, hcarried url hstated]

theorem http_names : Names field (http p check input) ↔
      Names field (urlFor p check) ∨
      ¬(methodFor p check = js "GET" ∨ methodFor p check = js "HEAD") ∧
        field ∈ refusalFields (.method (methodFor p check)) ∨
      Names field (expectedStatusFrom (check.http.bind (·.acceptedStatus))) ∨
      Names field (keywordFor p check) ∨ Names field (certificateFor check) ∨
      Names field (noteHttpLosses check) := by
  simp only [http, tells_bind, tells_refuseIf, tells_pure, or_false]

theorem http_accounts (hkind : check.kind = .http) (hfield : field ∈ ownFields .http) :
    Accounts p check (http p check input) field := by
  cases field with
  | target => exact Accounts.of_url (.inl hkind) rfl fun h => http_names.mpr (.inl h)
  | method =>
    by_cases hsent : methodFor p check = js "GET" ∨ methodFor p check = js "HEAD"
    · left
      intro method hmethod
      have hvalue : (http p check input).value.method = some (methodFor p check) := if_pos hsent
      rw [hvalue, methodFor, hmethod, Option.getD_some]
    · exact .inr (http_names.mpr (.inr (.inl ⟨hsent, List.mem_singleton_self _⟩)))
  | acceptedStatus =>
    exact (expectedStatusFrom_carries _).symm.imp id fun h => http_names.mpr (.inr (.inr (.inl h)))
  | keyword =>
    rcases keywordFor_carries (p := p) check with htold | hcarried
    · exact .inr (http_names.mpr (.inr (.inr (.inr (.inl htold.1)))))
    · left
      intro keyword hkeyword hne
      have hvalue : (http p check input).value.bodyKeyword =
          (keywordFor p check).value.map (·.1) := rfl
      rw [hvalue, hcarried keyword hkeyword hne, Option.map_some]
  | keywordAbsent =>
    rcases keywordFor_carries (p := p) check with htold | hcarried
    · exact .inr (http_names.mpr (.inr (.inr (.inr (.inl htold.2)))))
    · left
      intro keyword absent hkeyword hne habsent
      have hvalue : (http p check input).value.keywordAbsent =
          (keywordFor p check).value.map (·.2) := rfl
      rw [hvalue, hcarried keyword hkeyword hne, habsent, Option.map_some]
      cases absent <;> rfl
  | certificateDays =>
    rcases certificateFor_carries hkind with htold | hcarried
    · exact .inr (http_names.mpr (.inr (.inr (.inr (.inr (.inl htold))))))
    · left
      intro days hdays
      obtain ⟨warnDays, hwarn, hvalue⟩ := hcarried days hdays
      have htls : (http p check input).value.tlsCheck =
          (certificateFor check).value.map fun _ => true := rfl
      have hwarnDays : (http p check input).value.tlsWarnDays =
          (certificateFor check).value.join := rfl
      refine ⟨warnDays, hwarn, ?_⟩
      rw [if_pos hkind, htls, hwarnDays, hvalue]
      exact ⟨rfl, rfl⟩
  | headers =>
    exact (losses_headers check).symm.imp id fun h =>
      http_names.mpr (.inr (.inr (.inr (.inr (.inr h)))))
  | body =>
    exact (losses_body check).symm.imp id fun h =>
      http_names.mpr (.inr (.inr (.inr (.inr (.inr h)))))
  | authentication =>
    exact (losses_authentication check).symm.imp id fun h =>
      http_names.mpr (.inr (.inr (.inr (.inr (.inr h)))))
  | redirects =>
    exact (losses_redirects check).symm.imp id fun h =>
      http_names.mpr (.inr (.inr (.inr (.inr (.inr h)))))
  | interval | timeout | failureTolerance | port | jsonPath | jsonOperator | period | grace =>
    exact absurd hfield (by decide)

theorem json_names : Names field (json p check input) ↔
      Names field (urlFor p check) ∨ Names field (operatorRefusal check) ∨
      Names field (jsonConfigFor check) ∨ Names field (noteHttpLosses check) := by
  simp only [json, tells_bind, tells_pure, or_false]

theorem json_accounts (hkind : check.kind = .json) (hfield : field ∈ ownFields .json) :
    Accounts p check (json p check input) field := by
  cases field with
  | target => exact Accounts.of_url (.inr (.inl hkind)) rfl fun h => json_names.mpr (.inl h)
  | jsonPath =>
    exact (jsonConfigFor_carries check).symm.imp id fun h => json_names.mpr (.inr (.inr (.inl h)))
  | jsonOperator =>
    exact (operatorRefusal_carries check).symm.imp id fun h => json_names.mpr (.inr (.inl h))
  | headers =>
    exact (losses_headers check).symm.imp id fun h => json_names.mpr (.inr (.inr (.inr h)))
  | body =>
    exact (losses_body check).symm.imp id fun h => json_names.mpr (.inr (.inr (.inr h)))
  | authentication =>
    exact (losses_authentication check).symm.imp id fun h =>
      json_names.mpr (.inr (.inr (.inr h)))
  | redirects =>
    exact (losses_redirects check).symm.imp id fun h => json_names.mpr (.inr (.inr (.inr h)))
  | interval | timeout | failureTolerance | port | method | acceptedStatus | keyword
  | keywordAbsent | certificateDays | period | grace => exact absurd hfield (by decide)

/-! ### The other kinds -/

/-- The kinds that dial a host. -/
def dials : Kind → Bool
  | .ping | .tcp | .dns | .tls | .smtp | .imap | .ftp | .ssh | .ntp | .grpc => true
  | _ => false

theorem Accounts.of_host (hkind : dials check.kind = true)
    (hvalue : build.value.url = some (hostFor p check).value)
    (hnames : Names .target (hostFor p check) → Names .target build) :
    Accounts p check build .target := by
  rcases hostFor_carries (p := p) check with htold | hcarried
  · exact .inr (hnames htold)
  · left
    intro target htarget
    have hhost : check.target.host.map (fun host => hostText p (trim host)) = some target := by
      unfold targetOf at htarget
      cases hk : check.kind <;> simp_all [dials]
    obtain ⟨host, hstated, rfl⟩ := Option.map_eq_some_iff.mp hhost
    rw [hvalue, hcarried host hstated]

theorem ping_accounts (hkind : check.kind = .ping) :
    Accounts p check (ping p check input) .target := by
  refine Accounts.of_host (by rw [hkind]; rfl) rfl fun h => ?_
  simpa only [ping, tells_bind, tells_pure, or_false] using h

theorem portCheck_accounts (hkind : dials check.kind = true)
    (hfield : field ∈ [Field.target, .port]) :
    Accounts p check (portCheck p check input) field := by
  rcases List.mem_pair.mp hfield with rfl | rfl
  · refine Accounts.of_host hkind rfl fun h => ?_
    simp only [portCheck, tells_bind]
    exact .inl h
  · exact .inl fun port hport => hport

theorem protocol_accounts (hkind : dials check.kind = true) (hfield : field ∈ [.target, .port]) :
    Accounts p check (protocol p check input) field := by
  have hurl : (protocol p check input).value.url = some (hostFor p check).value := by
    unfold protocol
    cases check.target.port <;> rfl
  have hport : (protocol p check input).value.port = check.target.port := by
    unfold protocol
    cases check.target.port <;> rfl
  rcases List.mem_pair.mp hfield with rfl | rfl
  · refine Accounts.of_host hkind hurl fun h => ?_
    simp only [protocol, tells_bind]
    exact .inl h
  · exact .inl fun port h => hport.trans h

theorem dns_accounts (hkind : check.kind = .dns) :
    Accounts p check (dns p check input) .target := by
  refine Accounts.of_host (by rw [hkind]; rfl) ?_ fun h => ?_
  · simp only [dns, value_bind]
    split <;> rfl
  · simp only [dns, tells_bind]
    exact .inl h

theorem Accounts.of_warnDays (hkind : check.kind ≠ .http)
    (hvalue : build.value.config = (warnDaysFor check.warnDays).value.map .warnDays)
    (hnames : Names .certificateDays (warnDaysFor check.warnDays) → Names .certificateDays build) :
    Accounts p check build .certificateDays := by
  rcases warnDaysFor_carries check.warnDays with htold | hcarried
  · exact .inr (hnames htold)
  · left
    intro days hdays
    rw [warnDaysOf, if_neg hkind] at hdays
    obtain ⟨applied, happlied, hwarn⟩ := hcarried days hdays
    refine ⟨applied, happlied, ?_⟩
    rw [if_neg hkind, hvalue, hwarn, Option.map_some]

theorem tls_accounts (hkind : check.kind = .tls) (hfield : field ∈ ownFields .tls) :
    Accounts p check (tls p check input) field := by
  rcases List.mem_cons.mp hfield with rfl | hfield
  · refine Accounts.of_host (by rw [hkind]; rfl) rfl fun h => ?_
    simp only [tls, tells_bind]
    exact .inl h
  · rcases List.mem_pair.mp hfield with rfl | rfl
    · exact .inl fun port hport => hport
    · refine Accounts.of_warnDays (by rw [hkind]; decide) rfl fun h => ?_
      simp only [tls, tells_bind]
      exact .inr (.inl h)

theorem domain_accounts (hkind : check.kind = .domain) (hfield : field ∈ ownFields .domain) :
    Accounts p check (domain check input) field := by
  rcases List.mem_pair.mp hfield with rfl | rfl
  · left
    intro target htarget
    simp only [targetOf, hkind, Option.map_eq_some_iff] at htarget
    obtain ⟨stated, hstated, rfl⟩ := htarget
    have hvalue : (domain check input).value.url = some (trim (check.target.domain.getD [])) := rfl
    rw [hvalue, hstated, Option.getD_some]
  · refine Accounts.of_warnDays (by rw [hkind]; decide) rfl fun h => ?_
    simp only [domain, tells_bind]
    exact .inr (.inl h)

theorem websocket_accounts (hkind : check.kind = .websocket) :
    Accounts p check (websocket p check input) .target := by
  refine Accounts.of_url (.inr (.inr hkind)) rfl fun h => ?_
  simpa only [websocket, tells_bind, tells_pure, or_false] using h

/-- The target of a check that nothing dials is its label. -/
theorem Accounts.of_label (hkind : check.kind = .heartbeat ∨ check.kind = .group)
    (hvalue : build.value.url = some (check.target.label.getD check.name)) :
    Accounts p check build .target := by
  left
  intro target htarget
  have hlabel : check.target.label = some target := by
    rcases hkind with hkind | hkind <;> simpa [targetOf, hkind] using htarget
  rw [hvalue, hlabel, Option.getD_some]

theorem heartbeat_accounts (hkind : check.kind = .heartbeat) (hfield : field ∈ ownFields .heartbeat)
    (hplain : Plain check field) : Accounts p check (heartbeat check input) field := by
  rcases List.mem_cons.mp hfield with rfl | hfield
  · exact Accounts.of_label (.inl hkind) rfl
  · rcases List.mem_pair.mp hfield with rfl | rfl
    · rcases periodFor_carries check with htold | hcarried
      · right
        simp only [heartbeat, tells_bind]
        exact .inl htold
      · left
        intro period hperiod
        rw [periodOf, if_pos hkind] at hperiod
        obtain ⟨applied, happlied, hvalue⟩ := hcarried period hperiod
        have hinterval : (heartbeat check input).value.intervalSeconds =
            (periodFor check).value.getD input.intervalSeconds := rfl
        rw [hinterval, hvalue]
        exact happlied
    · left
      intro grace hgrace
      obtain ⟨n, rfl, hmin, hmax⟩ := hplain grace hgrace
      have hclamp : clamp n 0 maxGraceSeconds = n := clamp_of_mem hmin hmax
      refine ⟨n, rfl, ?_⟩
      simp only [heartbeat, value_bind, value_pure, hgrace, Option.map_some, round_intCast, hclamp]

theorem group_accounts (hkind : check.kind = .group) :
    Accounts p check (group check input) .target :=
  Accounts.of_label (.inr hkind) rfl

variable (p input) in
theorem byKind_accounts (hfield : field ∈ ownFields check.kind) (hplain : Plain check field) :
    Accounts p check (byKind p check input) field := by
  unfold byKind
  cases hkind : check.kind with
  | http => exact http_accounts hkind (hkind ▸ hfield)
  | json => exact json_accounts hkind (hkind ▸ hfield)
  | tls => exact tls_accounts hkind (hkind ▸ hfield)
  | domain => exact domain_accounts hkind (hkind ▸ hfield)
  | heartbeat => exact heartbeat_accounts hkind (hkind ▸ hfield) hplain
  | tcp =>
    rw [hkind] at hfield
    exact portCheck_accounts (by rw [hkind]; rfl) hfield
  | smtp | imap | ftp | ssh | ntp | grpc =>
    rw [hkind] at hfield
    exact protocol_accounts (by rw [hkind]; rfl) hfield
  | ping =>
    obtain rfl := List.mem_singleton.mp (hkind ▸ hfield)
    exact ping_accounts hkind
  | dns =>
    obtain rfl := List.mem_singleton.mp (hkind ▸ hfield)
    exact dns_accounts hkind
  | websocket =>
    obtain rfl := List.mem_singleton.mp (hkind ▸ hfield)
    exact websocket_accounts hkind
  | group =>
    obtain rfl := List.mem_singleton.mp (hkind ▸ hfield)
    exact group_accounts hkind
  | udp | unsupported =>
    rw [hkind] at hfield
    cases hfield

/-! ### The whole translation -/

/-- What every kind has is not changed by a kind, but for the interval of a heartbeat that states a
period. -/
theorem byKind_value (check : SourceCheck) (input : RawInput) :
    (byKind p check input).value.timeoutMs = input.timeoutMs ∧
      (byKind p check input).value.failureWindowSeconds = input.failureWindowSeconds ∧
      (periodOf check = none →
        (byKind p check input).value.intervalSeconds = input.intervalSeconds) := by
  unfold byKind
  cases hkind : check.kind with
  | heartbeat =>
    refine ⟨rfl, rfl, fun hperiod => ?_⟩
    rw [periodOf, if_pos hkind] at hperiod
    simp [heartbeat, periodFor, hperiod]
  | dns =>
    simp only [dns, value_bind]
    split <;> exact ⟨rfl, rfl, fun _ => rfl⟩
  | smtp | imap | ftp | ssh | ntp | grpc =>
    simp only [protocol, value_bind]
    cases check.target.port <;> exact ⟨rfl, rfl, fun _ => rfl⟩
  | _ => exact ⟨rfl, rfl, fun _ => rfl⟩

theorem names_buildOf (checkType : String) : Names field (buildOf p check checkType) ↔
      Names field (base check checkType) ∨
      Names field (byKind p check (base check checkType).value) ∨
      Names field (tailNotes check) := by
  simp only [buildOf, tells_bind, tells_pure, or_false]

theorem names_base (checkType : String) : Names field (base check checkType) ↔
      Names field (intervalFor check) ∨
      Names field (failureWindowFor check (intervalFor check).value) ∨
      Names field (nameFor check) ∨ Names field (timeoutFor check) := by
  simp only [base, tells_bind, tells_pure, or_false]

theorem buildOf_accounts (checkType : String) (hread : field ∈ fieldsRead check.kind)
    (hplain : Plain check field) : Carried p check (buildOf p check checkType).value field ∨
      Told check (buildOf p check checkType) field := by
  have hvalue : (buildOf p check checkType).value =
      (byKind p check (base check checkType).value).value := rfl
  have hbase : ∀ {field}, Names field (base check checkType) →
      Names field (buildOf p check checkType) := fun h => (names_buildOf checkType).mpr (.inl h)
  obtain ⟨htimeoutMs, hwindow, hinterval⟩ :=
    byKind_value (p := p) check (base check checkType).value
  rcases List.mem_append.mp hread with hcommon | hown
  · simp only [List.mem_cons, List.not_mem_nil, or_false] at hcommon
    rcases hcommon with rfl | rfl | rfl
    · rcases intervalFor_carries check with htold | hcarried
      · exact .inr (.inl (hbase ((names_base checkType).mpr (.inl htold))))
      · left
        intro interval hstated
        rw [hvalue, hinterval hplain]
        rw [hstated] at hcarried
        exact hcarried
    · rcases timeoutFor_carries hplain with htold | hcarried
      · exact .inr (.inl (hbase ((names_base checkType).mpr (.inr (.inr (.inr htold))))))
      · left
        intro timeout hstated
        rw [hvalue, htimeoutMs]
        exact hcarried timeout hstated
    · rcases failureWindowFor_carries hplain with ⟨hspacing, htold⟩ | hcarried
      · exact .inr (.inr ⟨rfl, hspacing, hbase ((names_base checkType).mpr (.inl htold))⟩)
      · left
        intro tolerance hstated
        rw [hvalue, hwindow]
        exact hcarried tolerance hstated
  · rcases byKind_accounts p (base check checkType).value hown hplain with
      hcarried | htold
    · exact .inl (hvalue ▸ hcarried)
    · exact .inr (.inl ((names_buildOf checkType).mpr (.inr (.inl htold))))

theorem not_told (hnotes : build.notes = []) (hrefusals : build.refusals = []) (field : Field) :
    ¬Told check build field := by
  rintro (htold | ⟨-, -, htold⟩)
  · exact not_tells _ _ hnotes hrefusals htold
  · exact not_tells _ _ hnotes hrefusals htold

theorem checkTypeByKind_isSome {kind : Kind} (hudp : kind ≠ .udp) (hkind : kind ≠ .unsupported) :
    ∃ checkType, checkTypeByKind kind = some checkType := by
  cases kind with
  | udp => exact absurd rfl hudp
  | unsupported => exact absurd rfl hkind
  | _ => exact ⟨_, rfl⟩

/-- A check of a kind that Vigil has becomes a create input, and what it states of a field that its
kind reads is carried as it was stated, or a note or a refusal names the field.  The other kinds are
refused with a reason. -/
theorem translateCheck_accounts (p : Platform) (check : SourceCheck) :
    (check.kind = .udp ∨ check.kind = .unsupported →
      ∃ detail, translateCheck p check = .unsupported detail) ∧
    (check.kind ≠ .udp → check.kind ≠ .unsupported →
      ∃ build, translateCheck p check = .build build ∧
        (∀ field ∈ fieldsRead check.kind, Plain check field →
          Carried p check build.value field ∨ Told check build field) ∧
        (build.notes = [] → build.refusals = [] →
          ∀ field ∈ fieldsRead check.kind, Plain check field → Carried p check build.value field) ∧
        ∀ timeout, check.timeoutMs = some timeout → round timeout ≤ 0 →
          build.value.timeoutMs = defaultTimeoutMs) := by
  constructor
  · rintro (hkind | hkind)
    · have htype : checkTypeByKind check.kind = none := by rw [hkind]; rfl
      have hdetail : refusedKinds check.kind = some udpDetail := by rw [hkind]; rfl
      have hsupported : check.kind ≠ .unsupported := by rw [hkind]; decide
      refine ⟨udpDetail, ?_⟩
      rw [translateCheck, if_neg hsupported, htype]
      dsimp only
      rw [hdetail, Option.getD_some]
    · exact ⟨_, if_pos hkind⟩
  · intro hudp hunsupported
    obtain ⟨checkType, htype⟩ := checkTypeByKind_isSome hudp hunsupported
    refine ⟨buildOf p check checkType, ?_, fun field hread hplain => ?_, ?_, ?_⟩
    · rw [translateCheck, if_neg hunsupported, htype]
    · exact buildOf_accounts checkType hread hplain
    · intro hnotes hrefusals field hread hplain
      exact (buildOf_accounts checkType hread hplain).resolve_right (not_told hnotes hrefusals field)
    · intro timeout hstated hnonpos
      have hvalue : (base check checkType).value.timeoutMs = (timeoutFor check).value := rfl
      have hkept := (byKind_value (p := p) check (base check checkType).value).1
      rw [hvalue, timeoutFor_of_nonpos hstated hnonpos] at hkept
      exact hkept

/-! ### A field that is not carried without a word -/

def asciiPlatform : Platform where
  toUpperCase := Net.Address.toUpperCase
  parseUrl _ := none
  numberText _ := []

/-- A ping that also names a port, from a source that writes 0 for a timeout it never stored. -/
def pingWithPort : SourceCheck where
  sourceId := js "1"
  name := js "edge"
  sourceType := js "ping"
  kind := .ping
  target := { host := some (js "example.com"), port := some 8080 }
  timeoutMs := some 0

/-- The build says nothing, and has neither the timeout nor the port. -/
theorem ping_says_nothing :
    ∃ build, translateCheck asciiPlatform pingWithPort = .build build ∧ build.notes = [] ∧
      build.refusals = [] ∧ build.value.timeoutMs = 10000 ∧ build.value.port = none ∧
      ¬Carried asciiPlatform pingWithPort build.value .timeout ∧
      ¬Carried asciiPlatform pingWithPort build.value .port := by
  have htimeoutMs : (buildOf asciiPlatform pingWithPort "ping").value.timeoutMs = 10000 := by
    decide +kernel
  have hport : (buildOf asciiPlatform pingWithPort "ping").value.port = none := rfl
  refine ⟨buildOf asciiPlatform pingWithPort "ping", rfl,
    List.isEmpty_iff.mp (by decide +kernel), List.isEmpty_iff.mp (by decide +kernel), htimeoutMs,
    hport, fun hcarried => ?_, fun hcarried => ?_⟩
  · have htimeout := hcarried 0 rfl
    rw [htimeoutMs] at htimeout
    norm_num at htimeout
  · have hstated := hcarried 8080 rfl
    rw [hport] at hstated
    cases hstated

end Vigil.Importers.FieldReport
