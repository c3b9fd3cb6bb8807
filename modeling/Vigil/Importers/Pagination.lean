import Vigil.Importers.Transport
import Vigil.Lib.Paging

/-! The reads of `providers/uptimerobot.ts` and `providers/betterstack.ts`: a list of groups that may
fail, and pages of monitors up to one that carries no next link.  How a row becomes a check and what
`new URL(next).searchParams.get("cursor")` gives are whatever they are. -/

namespace Vigil.Importers.Pagination

open Js.Text Ledger.Canonical Transport Lib.Paging

/-! ### Both providers -/

/-- The rows of a page. -/
def rows (response : JsValue) : List JsValue := arr (field (obj response) "data")

def groupNamesOf (name : Fields → JsValue) (data : JsValue) : List (JsString × JsString) :=
  (arr data).filterMap fun entry =>
    let group := obj entry
    match str (field group "id"), str (name group) with
    | some id, some name => some (id, name)
    | _, _ => none

/-- The entries that a list of groups sets; none when it cannot be read. -/
def readGroups (transport : ProviderTransport) (request : Request) (name : Fields → JsValue)
    (requests : ℕ) : ℕ × List (JsString × JsString) :=
  match transport.json request requests with
  | (requests, .error _) => (requests, [])
  | (requests, .ok response) =>
    match property response "data" with
    | .error _ => (requests, [])
    | .ok data => (requests, groupNamesOf name data)

variable {γ : Type} (transport : ProviderTransport)
  (toCheck : List (JsString × JsString) → Fields → γ)

def checksOf (groupNames : List (JsString × JsString)) (response : JsValue) : List γ :=
  (rows response).map fun row => toCheck groupNames (obj row)

/-! ### UptimeRobot -/

variable (cursorOf : JsString → Except ReadError (Option JsString))

def nextLink (response : JsValue) : JsValue := field (obj response) "nextLink"

/-- What the loop does with a page that it asked for by this cursor. -/
def uptimeRobotTurn (cursor : Option JsString) (response : JsValue) :
    Except ReadError (Option (Option JsString)) :=
  match property response "data" with
  | .error error => .error error
  | .ok _ =>
    match str (nextLink response) with
    | none => .ok none
    | some next =>
      match cursorOf next with
      | .error error => .error error
      | .ok parsed => if parsed = none ∨ parsed = cursor then .ok none else .ok (some parsed)

def uptimeRobotPages : Source (Option JsString) JsValue ReadError where
  ask cursor := transport.json
    { path := "/monitors"
      query := ("limit", js "200") ::
        match cursor with
        | none => []
        | some cursor => [("cursor", cursor)] }
  turn := uptimeRobotTurn cursorOf

/-- The checks, and the pages and requests that the facts count. -/
structure UptimeRobotSnapshot (γ : Type) where
  checks : List γ
  pages : ℕ
  requestCount : ℕ

def uptimeRobotGroups : ℕ × List (JsString × JsString) :=
  readGroups transport { path := "/monitor-groups", query := [] } (fun group => field group "name") 0

def uptimeRobotPush (groupNames : List (JsString × JsString)) (done : List γ × ℕ)
    (response : JsValue) : List γ × ℕ :=
  (done.1 ++ checksOf toCheck groupNames response, done.2 + 1)

/-- `uptimeRobotAdapter.read`; nothing when the fuel runs out. -/
def uptimeRobotRead (fuel : ℕ) : Option (Except ReadError (UptimeRobotSnapshot γ)) :=
  let (requests, groupNames) := uptimeRobotGroups transport
  match (uptimeRobotPages transport cursorOf).read (uptimeRobotPush toCheck groupNames) fuel none
      requests ([], 0) with
  | none => none
  | some (_, .error error) => some (.error error)
  | some (requests, .ok ((checks, pages), _)) =>
    some (.ok { checks, pages, requestCount := requests })

/-! ### Better Stack -/

def paginationNext (response : JsValue) : JsValue :=
  field (obj (field (obj response) "pagination")) "next"

/-- What the loop does with a page. -/
def betterStackTurn (page : ℕ) (response : JsValue) : Except ReadError (Option ℕ) :=
  match property response "data" with
  | .error error => .error error
  | .ok _ =>
    match str (paginationNext response) with
    | none => .ok none
    | some _ => .ok (some (page + 1))

def betterStackPages (path : String) : Source ℕ JsValue ReadError where
  ask page := transport.json
    { path, query := [("page", js (toString page)), ("per_page", js "250")] }
  turn := betterStackTurn

structure BetterStackSnapshot (γ : Type) where
  checks : List γ
  monitorCount : ℕ
  page : ℕ
  heartbeatCount : ℕ
  heartbeatPage : ℕ
  requestCount : ℕ

def betterStackGroups (path : String) (requests : ℕ) : ℕ × List (JsString × JsString) :=
  readGroups transport { path, query := [("per_page", js "250")] }
    (fun group => field (obj (field group "attributes")) "name") requests

def betterStackPush (groupNames : List (JsString × JsString)) (done : List γ) (response : JsValue) :
    List γ :=
  done ++ checksOf toCheck groupNames response

variable (toHeartbeat : List (JsString × JsString) → Fields → γ)

/-- `betterStackAdapter.read` from the heartbeats on. -/
def betterStackHeartbeats (fuel requests : ℕ) (checks : List γ) (page : ℕ) :
    Option (Except ReadError (BetterStackSnapshot γ)) :=
  let monitorCount := checks.length
  let (requests, heartbeatGroupNames) := betterStackGroups transport "/heartbeat-groups" requests
  match (betterStackPages transport "/heartbeats").read
      (betterStackPush toHeartbeat heartbeatGroupNames) fuel 1 requests checks with
  | none => none
  | some (_, .error error) => some (.error error)
  | some (requests, .ok (checks, heartbeatPage)) =>
    some (.ok
      { checks, monitorCount, page, heartbeatCount := checks.length - monitorCount, heartbeatPage
        requestCount := requests })

/-- `betterStackAdapter.read`; nothing when the fuel runs out. -/
def betterStackRead (fuel : ℕ) : Option (Except ReadError (BetterStackSnapshot γ)) :=
  let (requests, groupNames) := betterStackGroups transport "/monitor-groups" 0
  match (betterStackPages transport "/monitors").read (betterStackPush toCheck groupNames) fuel 1
      requests [] with
  | none => none
  | some (_, .error error) => some (.error error)
  | some (requests, .ok (checks, page)) =>
    betterStackHeartbeats transport toHeartbeat fuel requests checks page

/-! ### Links -/

/-- The field is there, and it is not `null`. -/
def present : JsValue → Bool
  | .undefined | .null => false
  | _ => true

/-- The next link of a page that was asked for by this cursor cannot be followed: it is no text, or
it has no cursor, or the same cursor again. -/
def UptimeRobotUnfollowable (cursor : Option JsString) (response : JsValue) : Prop :=
  present (nextLink response) = true ∧ (str (nextLink response) = none ∨
    ∃ text, str (nextLink response) = some text ∧
      (cursorOf text = .ok none ∨ cursorOf text = .ok cursor))

section

variable {transport toCheck cursorOf toHeartbeat}

theorem property_ok_iff {response value : JsValue} {name : String} :
    property response name = .ok value ↔
      present response = true ∧ value = field (obj response) name := by
  cases response <;> simp [property, present, eq_comm]

theorem present_of_str {value : JsValue} {text : JsString} (h : str value = some text) :
    present value = true := by
  cases value <;> simp_all [str, present]

variable {response : JsValue}

theorem present_of_field {name : String} (h : present (field (obj response) name) = true) :
    present response = true := by
  cases response <;> simp_all [present, obj, field]

theorem property_of_not_present (h : present response = false) (name : String) :
    property response name = .error .typeError := by
  cases response <;> simp_all [property, present]

theorem uptimeRobotTurn_next_iff {cursor next : Option JsString} :
    uptimeRobotTurn cursorOf cursor response = .ok (some next) ↔
      ∃ text parsed, str (nextLink response) = some text ∧ cursorOf text = .ok (some parsed) ∧
        some parsed ≠ cursor ∧ next = some parsed := by
  unfold uptimeRobotTurn
  cases hpresent : present response with
  | false =>
    rw [property_of_not_present hpresent]
    constructor
    · intro h
      contradiction
    · rintro ⟨text, _, htext, -⟩
      rw [present_of_field (present_of_str htext)] at hpresent
      contradiction
  | true =>
    rw [property_ok_iff.mpr ⟨hpresent, rfl⟩]
    dsimp only
    cases str (nextLink response) with
    | none => simp
    | some text =>
      cases hcursor : cursorOf text with
      | error error => simp [hcursor]
      | ok parsed =>
        cases parsed with
        | none => simp [hcursor]
        | some parsed =>
          by_cases hsame : some parsed = cursor
          · simp [hcursor, hsame]
            grind
          · simp [hcursor, hsame]
            grind

theorem uptimeRobotTurn_stop_iff {cursor : Option JsString} :
    uptimeRobotTurn cursorOf cursor response = .ok none ↔
      present response = true ∧ (str (nextLink response) = none ∨
        ∃ text, str (nextLink response) = some text ∧
          (cursorOf text = .ok none ∨ cursorOf text = .ok cursor)) := by
  unfold uptimeRobotTurn
  cases hpresent : present response with
  | false =>
    rw [property_of_not_present hpresent]
    simp
  | true =>
    rw [property_ok_iff.mpr ⟨hpresent, rfl⟩]
    dsimp only
    cases str (nextLink response) with
    | none => simp
    | some text =>
      cases hcursor : cursorOf text with
      | error error => simp [hcursor]
      | ok parsed => simp [hcursor, or_iff_not_imp_left]

theorem betterStackTurn_next_iff {page next : ℕ} : betterStackTurn page response = .ok (some next) ↔
      (str (paginationNext response)).isSome = true ∧ next = page + 1 := by
  unfold betterStackTurn
  cases hpresent : present response with
  | false =>
    rw [property_of_not_present hpresent]
    constructor
    · intro h
      contradiction
    · rintro ⟨htext, -⟩
      obtain ⟨text, htext⟩ := Option.isSome_iff_exists.mp htext
      rw [present_of_field (present_of_field (present_of_str htext))] at hpresent
      contradiction
  | true =>
    rw [property_ok_iff.mpr ⟨hpresent, rfl⟩]
    dsimp only
    cases str (paginationNext response) with
    | none => simp
    | some text => simp [eq_comm]

theorem betterStackTurn_stop_iff {page : ℕ} : betterStackTurn page response = .ok none ↔
      present response = true ∧ str (paginationNext response) = none := by
  unfold betterStackTurn
  cases hpresent : present response with
  | false =>
    rw [property_of_not_present hpresent]
    simp
  | true =>
    rw [property_ok_iff.mpr ⟨hpresent, rfl⟩]
    dsimp only
    cases str (paginationNext response) with
    | none => simp
    | some text => simp

end

/-- A page leads to the cursor in its next link. -/
def uptimeRobotLinks : Links (uptimeRobotPages transport cursorOf) where
  linked response := present (nextLink response) = true
  leads _ response next := ∃ text parsed,
    str (nextLink response) = some text ∧ cursorOf text = .ok (some parsed) ∧ next = some parsed
  linked_of_leads := by
    rintro _ _ _ ⟨text, _, htext, -⟩
    exact present_of_str htext
  unique := by
    rintro _ _ _ _ ⟨text, parsed, htext, hparsed, rfl⟩ ⟨text', parsed', htext', hparsed', rfl⟩
    obtain rfl : text = text' := Option.some.inj (htext.symm.trans htext')
    exact Except.ok.inj (hparsed.symm.trans hparsed')
  leads_of_turn := by
    intro _ _ _ hturn
    obtain ⟨text, parsed, htext, hparsed, -, hnext⟩ := uptimeRobotTurn_next_iff.mp hturn
    exact ⟨text, parsed, htext, hparsed, hnext⟩
  turn_of_leads := by
    rintro cursor response _ ⟨text, parsed, htext, hparsed, rfl⟩
    by_cases hsame : some parsed = cursor
    · have hpresent := present_of_field (present_of_str htext)
      exact .inr (uptimeRobotTurn_stop_iff.mpr
        ⟨hpresent, .inr ⟨text, htext, .inr (hsame ▸ hparsed)⟩⟩)
    · exact .inl (uptimeRobotTurn_next_iff.mpr ⟨text, parsed, htext, hparsed, hsame, rfl⟩)

/-- A page with a next link leads to the next page. -/
def betterStackLinks (path : String) : Links (betterStackPages transport path) where
  linked response := present (paginationNext response) = true
  leads page response next := (str (paginationNext response)).isSome = true ∧ next = page + 1
  linked_of_leads := by
    rintro _ _ _ ⟨htext, -⟩
    obtain ⟨text, htext⟩ := Option.isSome_iff_exists.mp htext
    exact present_of_str htext
  unique := by
    rintro _ _ _ _ ⟨-, rfl⟩ ⟨-, rfl⟩
    rfl
  leads_of_turn := fun hturn => betterStackTurn_next_iff.mp hturn
  turn_of_leads := fun hleads => .inl (betterStackTurn_next_iff.mpr hleads)

/-! ### All or nothing -/

/-- The read ends, and a snapshot that it returns has the rows of every page up to one without a
next link. -/
def UptimeRobotAllOrNothing : Prop :=
  ∃ outcome,
    (∀ fuel > transport.maxRequests, uptimeRobotRead transport toCheck cursorOf fuel = some outcome) ∧
    ∀ snapshot, outcome = .ok snapshot → ∃ pages,
      Chain (uptimeRobotLinks transport cursorOf) none (uptimeRobotGroups transport).1 pages
        snapshot.requestCount ∧
      snapshot.checks = pages.flatMap (checksOf toCheck (uptimeRobotGroups transport).2) ∧
      snapshot.pages = pages.length

/-- The read ends, and a snapshot has every page of both collections. -/
def BetterStackAllOrNothing : Prop :=
  ∃ outcome,
    (∀ fuel > transport.maxRequests,
      betterStackRead transport toCheck toHeartbeat fuel = some outcome) ∧
    ∀ snapshot, outcome = .ok snapshot → ∃ monitors heartbeats requests,
      Chain (betterStackLinks transport "/monitors") 1
        (betterStackGroups transport "/monitor-groups" 0).1 monitors requests ∧
      Chain (betterStackLinks transport "/heartbeats") 1
        (betterStackGroups transport "/heartbeat-groups" requests).1 heartbeats
        snapshot.requestCount ∧
      snapshot.checks =
        monitors.flatMap (checksOf toCheck (betterStackGroups transport "/monitor-groups" 0).2) ++
          heartbeats.flatMap
            (checksOf toHeartbeat (betterStackGroups transport "/heartbeat-groups" requests).2) ∧
      snapshot.page = monitors.length ∧ snapshot.heartbeatPage = heartbeats.length

/-- Another provider that answers the same up to the ceiling is read the same. -/
def UptimeRobotWithinCeiling : Prop :=
  ∀ fetch, transport.Agrees fetch → ∀ fuel,
    uptimeRobotRead { transport with fetch := fetch } toCheck cursorOf fuel =
      uptimeRobotRead transport toCheck cursorOf fuel

def BetterStackWithinCeiling : Prop :=
  ∀ fetch, transport.Agrees fetch → ∀ fuel,
    betterStackRead { transport with fetch := fetch } toCheck toHeartbeat fuel =
      betterStackRead transport toCheck toHeartbeat fuel

/-- By its next links the list comes to this page, and no further: it has no next link that is a
text. -/
def BetterStackEnds (path : String) (requests : ℕ) (response : JsValue) (requests' : ℕ) : Prop :=
  ∃ page before, Reached (betterStackLinks transport path) 1 requests page before ∧
    (betterStackPages transport path).ask page before = (requests', .ok response) ∧
    present response = true ∧ str (paginationNext response) = none

section

variable {transport toCheck cursorOf toHeartbeat}

theorem uptimeRobotPages_within : (uptimeRobotPages transport cursorOf).Within transport.maxRequests :=
  fun _ _ _ _ hask => transport.json_ok _ hask

theorem betterStackPages_within (path : String) :
    (betterStackPages transport path).Within transport.maxRequests :=
  fun _ _ _ _ hask => transport.json_ok _ hask

theorem foldl_uptimeRobotPush (groupNames : List (JsString × JsString)) (pages : List JsValue)
    (done : List γ × ℕ) : pages.foldl (uptimeRobotPush toCheck groupNames) done =
      (done.1 ++ pages.flatMap (checksOf toCheck groupNames), done.2 + pages.length) := by
  induction pages generalizing done with
  | nil => simp
  | cons page pages ih =>
    rw [List.foldl_cons, ih, uptimeRobotPush, List.flatMap_cons, List.length_cons, List.append_assoc]
    congr 1
    omega

theorem foldl_betterStackPush (groupNames : List (JsString × JsString)) (pages : List JsValue)
    (done : List γ) : pages.foldl (betterStackPush toCheck groupNames) done =
      done ++ pages.flatMap (checksOf toCheck groupNames) := by
  induction pages generalizing done with
  | nil => simp
  | cons page pages ih =>
    rw [List.foldl_cons, ih, betterStackPush, List.flatMap_cons, List.append_assoc]

/-- The loop stops at the page whose number is the number of pages. -/
theorem betterStack_page {path : String} {page page' requests requests' : ℕ}
    {pages : List JsValue} {last : JsValue}
    (h : Walk (betterStackPages transport path) page requests pages page' last requests') :
    page' + 1 = page + pages.length := by
  induction h with
  | stop => rfl
  | next _ hturn _ ih =>
    obtain ⟨-, rfl⟩ := betterStackTurn_next_iff.mp hturn
    rw [ih, List.length_cons]
    omega

theorem betterStackEnds_iff {path : String} {requests requests' : ℕ} {response : JsValue} :
    BetterStackEnds transport path requests response requests' ↔ ∃ pages page,
      Walk (betterStackPages transport path) 1 requests pages page response requests' := by
  have hgoes : ∀ key page next, (betterStackLinks transport path).leads key page next →
      (betterStackPages transport path).turn key page ≠ .ok none := by
    intro key page next hleads hstop
    have hnext := betterStackTurn_next_iff.mpr hleads
    rw [show betterStackTurn key page = .ok none from hstop] at hnext
    cases hnext
  constructor
  · rintro ⟨page, before, hreached, hask, hpresent, htext⟩
    obtain ⟨pages, hwalk⟩ := (walk_iff_reached hgoes).mpr
      ⟨before, hreached, hask, betterStackTurn_stop_iff.mpr ⟨hpresent, htext⟩⟩
    exact ⟨pages, page, hwalk⟩
  · rintro ⟨pages, page, hwalk⟩
    obtain ⟨before, hreached, hask, hturn⟩ := (walk_iff_reached hgoes).mp ⟨pages, hwalk⟩
    obtain ⟨hpresent, htext⟩ := betterStackTurn_stop_iff.mp hturn
    exact ⟨page, before, hreached, hask, hpresent, htext⟩

theorem uptimeRobotRead_eq {requests : ℕ} {answer : Except ReadError ((List γ × ℕ) × Option JsString)}
    {fuel : ℕ}
    (h : (uptimeRobotPages transport cursorOf).read
      (uptimeRobotPush toCheck (uptimeRobotGroups transport).2) fuel none
      (uptimeRobotGroups transport).1 ([], 0) = some (requests, answer)) :
    uptimeRobotRead transport toCheck cursorOf fuel = some (answer.map fun done =>
      { checks := done.1.1, pages := done.1.2, requestCount := requests }) := by
  unfold uptimeRobotRead
  dsimp only
  rw [h]
  cases answer with
  | error error => rfl
  | ok done => rfl

variable (transport toCheck cursorOf) in
/-- The read from UptimeRobot is all or nothing exactly when no page that its links reach has one
that cannot be followed. -/
theorem uptimeRobot_iff : UptimeRobotAllOrNothing transport toCheck cursorOf ↔
    ∀ cursor requests requests' response,
      Reached (uptimeRobotLinks transport cursorOf) none (uptimeRobotGroups transport).1 cursor
        requests →
      (uptimeRobotPages transport cursorOf).ask cursor requests = (requests', .ok response) →
        ¬UptimeRobotUnfollowable cursorOf cursor response := by
  have hstops : (∀ pages key last cost, Walk (uptimeRobotPages transport cursorOf) none
      (uptimeRobotGroups transport).1 pages key last cost →
        ¬(uptimeRobotLinks transport cursorOf).linked last) ↔
      ∀ cursor requests requests' response,
        Reached (uptimeRobotLinks transport cursorOf) none (uptimeRobotGroups transport).1 cursor
          requests →
        (uptimeRobotPages transport cursorOf).ask cursor requests = (requests', .ok response) →
          ¬UptimeRobotUnfollowable cursorOf cursor response := by
    rw [not_linked_iff]
    refine forall₄_congr fun cursor requests requests' response => forall₂_congr fun _ _ => ?_
    constructor
    · rintro h ⟨hlink, hstop⟩
      exact h hlink (uptimeRobotTurn_stop_iff.mpr ⟨present_of_field hlink, hstop⟩)
    · intro h hlink hturn
      exact h ⟨hlink, (uptimeRobotTurn_stop_iff.mp hturn).2⟩
  rw [← hstops]
  obtain ⟨⟨requests, answer⟩, hread⟩ := read_settles uptimeRobotPages_within
    (uptimeRobotPush toCheck (uptimeRobotGroups transport).2) none (uptimeRobotGroups transport).1
    ([], 0)
  have houtcome := fun fuel hfuel => uptimeRobotRead_eq (hread fuel hfuel)
  have hmore : transport.maxRequests + 1 > transport.maxRequests := Nat.lt_succ_self _
  cases answer with
  | error error =>
    constructor
    · intro _ pages key last cost hwalk
      cases hwalk.read _ (hread _ hmore)
    · intro _
      exact ⟨_, houtcome, nofun⟩
  | ok done =>
    obtain ⟨⟨checks, count⟩, key⟩ := done
    obtain ⟨pages, last, hwalk, hdone⟩ := walk_of_read (hread _ hmore)
    rw [foldl_uptimeRobotPush, List.nil_append, Nat.zero_add] at hdone
    cases hdone
    constructor
    · rintro ⟨outcome, hfuel, hwhole⟩ pages' key' last' cost' hwalk'
      have hsame := (hfuel _ hmore).symm.trans (houtcome _ hmore)
      obtain ⟨chain, hchain, -, hcount⟩ := hwhole _ (Option.some.inj hsame)
      obtain ⟨rfl, rfl, rfl, rfl⟩ := hwalk.unique hwalk'
      exact (hwalk.not_linked hchain hcount.symm).1
    · intro hlast
      refine ⟨_, houtcome, fun snapshot hsnapshot => ?_⟩
      cases hsnapshot
      exact ⟨pages, hwalk.chain (hlast _ _ _ _ hwalk), rfl, rfl⟩

theorem betterStackHeartbeats_eq {requests requests' page fuel : ℕ} {checks : List γ}
    {answer : Except ReadError (List γ × ℕ)}
    (h : (betterStackPages transport "/heartbeats").read
      (betterStackPush toHeartbeat (betterStackGroups transport "/heartbeat-groups" requests).2) fuel 1
      (betterStackGroups transport "/heartbeat-groups" requests).1 checks = some (requests', answer)) :
    betterStackHeartbeats transport toHeartbeat fuel requests checks page =
      some (answer.map fun done =>
        { checks := done.1, monitorCount := checks.length, page
          heartbeatCount := done.1.length - checks.length, heartbeatPage := done.2
          requestCount := requests' }) := by
  unfold betterStackHeartbeats
  dsimp only
  rw [h]
  cases answer with
  | error error => rfl
  | ok done => rfl

theorem betterStackRead_error {requests fuel : ℕ} {error : ReadError}
    (h : (betterStackPages transport "/monitors").read
      (betterStackPush toCheck (betterStackGroups transport "/monitor-groups" 0).2) fuel 1
      (betterStackGroups transport "/monitor-groups" 0).1 [] = some (requests, .error error)) :
    betterStackRead transport toCheck toHeartbeat fuel = some (.error error) := by
  unfold betterStackRead
  dsimp only
  rw [h]

theorem betterStackRead_ok {requests page fuel : ℕ} {checks : List γ}
    (h : (betterStackPages transport "/monitors").read
      (betterStackPush toCheck (betterStackGroups transport "/monitor-groups" 0).2) fuel 1
      (betterStackGroups transport "/monitor-groups" 0).1 [] = some (requests, .ok (checks, page))) :
    betterStackRead transport toCheck toHeartbeat fuel =
      betterStackHeartbeats transport toHeartbeat fuel requests checks page := by
  unfold betterStackRead
  dsimp only
  rw [h]

variable (transport toCheck toHeartbeat) in
/-- The read from Better Stack is all or nothing exactly when, if both lists come to an end, neither
of their last pages has a next link. -/
theorem betterStack_iff : BetterStackAllOrNothing transport toCheck toHeartbeat ↔
    ∀ response requests response' requests',
      BetterStackEnds transport "/monitors" (betterStackGroups transport "/monitor-groups" 0).1
        response requests →
      BetterStackEnds transport "/heartbeats"
        (betterStackGroups transport "/heartbeat-groups" requests).1 response' requests' →
      present (paginationNext response) = false ∧ present (paginationNext response') = false := by
  have hmore : transport.maxRequests + 1 > transport.maxRequests := Nat.lt_succ_self _
  obtain ⟨⟨requests, answer⟩, hread⟩ := read_settles (betterStackPages_within "/monitors")
    (betterStackPush toCheck (betterStackGroups transport "/monitor-groups" 0).2) 1
    (betterStackGroups transport "/monitor-groups" 0).1 []
  cases answer with
  | error error =>
    have houtcome := fun fuel hfuel =>
      @betterStackRead_error _ _ toCheck toHeartbeat _ _ _ (hread fuel hfuel)
    constructor
    · intro _ response requests' _ _ hends _
      obtain ⟨pages, page, hwalk⟩ := betterStackEnds_iff.mp hends
      cases hwalk.read _ (hread _ hmore)
    · intro _
      exact ⟨_, houtcome, nofun⟩
  | ok done =>
    obtain ⟨checks, page⟩ := done
    obtain ⟨monitors, last, hwalk, rfl⟩ := walk_of_read (hread _ hmore)
    rw [foldl_betterStackPush, List.nil_append] at hread
    obtain ⟨⟨requests', answer'⟩, hread'⟩ := read_settles (betterStackPages_within "/heartbeats")
      (betterStackPush toHeartbeat (betterStackGroups transport "/heartbeat-groups" requests).2) 1
      (betterStackGroups transport "/heartbeat-groups" requests).1
      (monitors.flatMap (checksOf toCheck (betterStackGroups transport "/monitor-groups" 0).2))
    have houtcome' := fun fuel hfuel =>
      (@betterStackRead_ok _ _ toCheck toHeartbeat _ _ _ _ (hread fuel hfuel)).trans
        (betterStackHeartbeats_eq (hread' fuel hfuel))
    have hpage := betterStack_page hwalk
    cases answer' with
    | error error =>
      constructor
      · intro _ response before response' requests'' hends hends'
        obtain ⟨pages, key, hwalk'⟩ := betterStackEnds_iff.mp hends
        obtain ⟨rfl, rfl, rfl, rfl⟩ := hwalk.unique hwalk'
        obtain ⟨pages', key', hwalk''⟩ := betterStackEnds_iff.mp hends'
        cases hwalk''.read _ (hread' _ hmore)
      · intro _
        exact ⟨_, houtcome', nofun⟩
    | ok done' =>
      obtain ⟨checks', page'⟩ := done'
      obtain ⟨heartbeats, last', hwalk', rfl⟩ := walk_of_read (hread' _ hmore)
      have hpage' := betterStack_page hwalk'
      rw [foldl_betterStackPush] at houtcome'
      constructor
      · rintro ⟨outcome, hfuel, hwhole⟩ response before response' after hends hends'
        obtain ⟨pages, key, hsame⟩ := betterStackEnds_iff.mp hends
        obtain ⟨rfl, rfl, rfl, rfl⟩ := hwalk.unique hsame
        obtain ⟨pages', key', hsame'⟩ := betterStackEnds_iff.mp hends'
        obtain ⟨rfl, rfl, rfl, rfl⟩ := hwalk'.unique hsame'
        have heq := (hfuel _ hmore).symm.trans (houtcome' _ hmore)
        obtain ⟨chain, chain', between, hchain, hchain', -, hcount, hcount'⟩ :=
          hwhole _ (Option.some.inj heq)
        obtain ⟨hlast, rfl, rfl⟩ := hwalk.not_linked hchain (by dsimp only at hcount; omega)
        obtain ⟨hlast', -⟩ := hwalk'.not_linked hchain' (by dsimp only at hcount'; omega)
        exact ⟨Bool.eq_false_of_not_eq_true hlast, Bool.eq_false_of_not_eq_true hlast'⟩
      · intro hlast
        obtain ⟨hmonitors, hheartbeats⟩ := hlast _ _ _ _
          (betterStackEnds_iff.mpr ⟨_, _, hwalk⟩) (betterStackEnds_iff.mpr ⟨_, _, hwalk'⟩)
        refine ⟨_, houtcome', fun snapshot hsnapshot => ?_⟩
        cases hsnapshot
        refine ⟨monitors, heartbeats, requests, hwalk.chain ?_, hwalk'.chain ?_, rfl, ?_, ?_⟩
        · exact fun hlinked => by rw [show present _ = true from hlinked] at hmonitors; contradiction
        · exact fun hlinked => by rw [show present _ = true from hlinked] at hheartbeats; contradiction
        · dsimp only
          omega
        · dsimp only
          omega

theorem pages_congr {fetch : ℕ → Request → Option HttpResponse} (h : transport.Agrees fetch) :
    readGroups { transport with fetch := fetch } = readGroups transport ∧
      uptimeRobotPages { transport with fetch := fetch } cursorOf =
        uptimeRobotPages transport cursorOf ∧
      ∀ path, betterStackPages { transport with fetch := fetch } path =
        betterStackPages transport path := by
  have hjson : { transport with fetch := fetch }.json = transport.json :=
    funext fun request => funext fun requests => h.json request requests
  refine ⟨?_, ?_, fun path => ?_⟩
  · funext request name requests
    unfold readGroups
    rw [hjson]
  · unfold uptimeRobotPages
    rw [hjson]
  · unfold betterStackPages
    rw [hjson]

variable (transport toCheck cursorOf) in
/-- What the provider would answer beyond the ceiling plays no part. -/
theorem uptimeRobot_within_ceiling : UptimeRobotWithinCeiling transport toCheck cursorOf := by
  intro fetch h fuel
  obtain ⟨hgroups, hpages, -⟩ := @pages_congr _ cursorOf fetch h
  unfold uptimeRobotRead uptimeRobotGroups
  rw [hgroups, hpages]

variable (transport toCheck toHeartbeat) in
theorem betterStack_within_ceiling : BetterStackWithinCeiling transport toCheck toHeartbeat := by
  intro fetch h fuel
  obtain ⟨hgroups, -, hpages⟩ := @pages_congr _ (fun _ => .ok none) fetch h
  unfold betterStackRead betterStackHeartbeats betterStackGroups
  rw [hgroups, hpages, hpages]

end

/-- Both reads end within the ceiling.  What they return is whole, exactly when no page from
UptimeRobot that the links reach has a next link without a cursor, with the cursor that the page was
asked for by, or that is no text; and for Better Stack when, if both lists come to a page without a
next link that is a text, neither page has another next link. -/
theorem read_all_or_nothing {γ : Type} (transport : ProviderTransport)
    (cursorOf : JsString → Except ReadError (Option JsString))
    (toCheck toHeartbeat : List (JsString × JsString) → Fields → γ) :
    (UptimeRobotWithinCeiling transport toCheck cursorOf ∧
        UptimeRobotAllOrNothing transport toCheck cursorOf ↔
      ∀ cursor requests requests' response,
        Reached (uptimeRobotLinks transport cursorOf) none (uptimeRobotGroups transport).1 cursor
          requests →
        (uptimeRobotPages transport cursorOf).ask cursor requests = (requests', .ok response) →
          ¬UptimeRobotUnfollowable cursorOf cursor response) ∧
    (BetterStackWithinCeiling transport toCheck toHeartbeat ∧
        BetterStackAllOrNothing transport toCheck toHeartbeat ↔
      ∀ response requests response' requests',
        BetterStackEnds transport "/monitors" (betterStackGroups transport "/monitor-groups" 0).1
          response requests →
        BetterStackEnds transport "/heartbeats"
          (betterStackGroups transport "/heartbeat-groups" requests).1 response' requests' →
        present (paginationNext response) = false ∧ present (paginationNext response') = false) :=
  ⟨(and_iff_right (uptimeRobot_within_ceiling transport toCheck cursorOf)).trans
      (uptimeRobot_iff transport toCheck cursorOf),
    (and_iff_right (betterStack_within_ceiling transport toCheck toHeartbeat)).trans
      (betterStack_iff transport toCheck toHeartbeat)⟩

/-! ### A next link without a cursor -/

def offsetLink : JsString := js "https://api.uptimerobot.com/v3/monitors?offset=200"

/-- A first page of two. -/
def firstPage : JsValue :=
  .object [(js "data", .array [.object [(js "id", .number (.integer 7))]]),
    (js "nextLink", .string offsetLink)]

/-- An account whose pages lead on by another parameter. -/
def offsetAccount : ProviderTransport where
  fetch _ request :=
    if request.path = "/monitors" then some { status := 200, body := some firstPage }
    else some { status := 403, body := none }

def noCursor (link : JsString) : Except ReadError (Option JsString) :=
  if link = offsetLink then .ok none else .error .typeError

def checkId (_ : List (JsString × JsString)) (row : Fields) : Option JsString := str (field row "id")

/-- The read returns the one page, whose next link it cannot follow. -/
theorem link_without_cursor_dropped :
    uptimeRobotRead offsetAccount checkId noCursor 5001 =
      some (.ok { checks := [some (js "7")], pages := 1, requestCount := 2 }) ∧
    present (nextLink firstPage) = true ∧
    ¬UptimeRobotAllOrNothing offsetAccount checkId noCursor := by
  refine ⟨by rfl, rfl, fun h => ?_⟩
  refine (uptimeRobot_iff offsetAccount checkId noCursor).mp h none 1 2 firstPage .start ?_ ?_
  · rfl
  · exact ⟨rfl, .inr ⟨offsetLink, by rfl, .inl (by rfl)⟩⟩

end Vigil.Importers.Pagination
