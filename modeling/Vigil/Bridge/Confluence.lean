import Vigil.Bridge.Polls
import Vigil.Bridge.Verdict

/-! What the evidence polls leave behind, however they overlap: the copies of the source's incidents,
and the windows that count as coverage. -/

namespace Vigil.Bridge.Confluence

open Lib Keyed Spans Compare Polls

/-! ### What was read -/

def Page.incidents (page : Page) : List SourceIncident := page.rows.filterMap toIncident

def Page.Readable (page : Page) : Prop := ∀ row ∈ page.rows, (toIncident row).isSome = true

/-- The last page says that there is no other. -/
def Finished (pages : List Page) : Prop := ∃ last, pages.getLast? = some last ∧ last.next = none

theorem finished_concat {pages : List Page} {page : Page} (h : page.next = none) :
    Finished (pages ++ [page]) :=
  ⟨page, List.getLast?_concat, h⟩

/-- A read holds what the pages so far say, and counts what it could not read. -/
structure Reads (read : EvidenceRead) (pages : List Page) : Prop where
  incidents : read.incidents = pages.flatMap Page.incidents
  readable : read.skipped = 0 → ∀ page ∈ pages, Page.Readable page

theorem reads_empty : Reads .empty [] :=
  ⟨rfl, nofun⟩

theorem Reads.add {read : EvidenceRead} {pages : List Page} (h : Reads read pages) (page : Page)
    (requests : ℕ) : Reads (read.add page requests) (pages ++ [page]) := by
  constructor
  · show read.incidents ++ _ = _
    rw [h.incidents, List.flatMap_append, List.flatMap_singleton]
    rfl
  · intro hskipped other hother
    have hsum : read.skipped + page.rows.countP (fun row => (toIncident row).isNone) = 0 := hskipped
    rcases List.mem_append.mp hother with hother | hother
    · exact h.readable (by omega) other hother
    · obtain rfl := List.mem_singleton.mp hother
      have hnone : other.rows.countP (fun row => (toIncident row).isNone) = 0 := by omega
      intro row hrow
      have hsome := List.countP_eq_zero.mp hnone row hrow
      simpa [Option.isSome_iff_ne_none] using hsome

theorem exists_byId {incidents : List SourceIncident} {incident : SourceIncident}
    (h : incident ∈ incidents) : ∃ kept ∈ byId incidents, kept.id = incident.id := by
  have hfold : ∀ found : List SourceIncident,
      (∃ kept ∈ found, kept.id = incident.id) ∨ incident ∈ incidents →
      ∃ kept ∈ incidents.foldl (fun found next =>
        upsert SourceIncident.id next.id (fun _ => next) next found) found,
        kept.id = incident.id := by
    clear h
    induction incidents with
    | nil =>
      intro found h
      rcases h with h | h
      · exact h
      · cases h
    | cons next rest ih =>
      intro found h
      apply ih
      rcases h with h | h
      · left
        exact exists_upsert_of_mem (fun _ _ => rfl) h
      · rcases List.mem_cons.mp h with rfl | h
        · left
          exact exists_upsert rfl fun _ _ => rfl
        · exact .inr h
  obtain ⟨kept, hkept, hid⟩ := hfold [] (.inr h)
  exact ⟨kept, List.mem_reverse.mpr hkept, hid⟩

/-! ### The copies -/

/-- There is a copy of the incident. -/
def Stored (copies : List Copy) (bridgeId : ℕ) (id : String) : Prop :=
  ∃ copy ∈ copies, copy.key = (bridgeId, id)

/-- What is written onto a copy is about the same incident. -/
theorem key_onto (incident : SourceIncident) (at_ : ℤ) {key : ℕ × String} (copy : Copy)
    (h : copy.key = key) : (incident.onto at_ copy).key = key :=
  h

section Store

variable {copies : List Copy} (bridgeId : ℕ) (incident : SourceIncident) (at_ : ℤ)

theorem stored_store : Stored (store copies bridgeId incident at_) bridgeId incident.id :=
  exists_upsert rfl (key_onto incident at_)

theorem Stored.store {other : ℕ} {id : String} (h : Stored copies other id) :
    Stored (store copies bridgeId incident at_) other id :=
  exists_upsert_of_mem (key_onto incident at_) h

theorem resolved_store {copy : Copy} (hcopy : copy ∈ copies)
    (hresolved : copy.resolvedAt.isSome = true) :
    ∃ copy' ∈ Polls.store copies bridgeId incident at_, copy'.key = copy.key ∧
      copy'.resolvedAt.isSome = true := by
  refine ⟨_, image_mem_upsert hcopy, id_image (key_onto incident at_) copy, ?_⟩
  split
  · show (incident.resolvedAt.or copy.resolvedAt).isSome = true
    rw [Option.isSome_or, hresolved, Bool.or_true]
  · exact hresolved

end Store

/-- The write is about the event of the copy. -/
def About (copy : Copy) (w : ℕ × SourceIncident) : Prop := (w.1, w.2.id) = copy.key

/-- What the copies are of all that was ever written, in whatever order. -/
structure Merged (copies : List Copy) (written : List (ℕ × SourceIncident)) : Prop where
  nodup : (copies.map Copy.key).Nodup
  stored : ∀ w ∈ written, Stored copies w.1 w.2.id
  source : ∀ copy ∈ copies, ∃ w ∈ written, About copy w
  resolved : ∀ copy ∈ copies, ∀ w ∈ written, About copy w → w.2.resolvedAt.isSome = true →
    copy.resolvedAt.isSome = true
  words : ∀ copy ∈ copies, copy.resolvedAt.isSome = true → ∃ w ∈ written, About copy w ∧
    w.2.resolvedAt = copy.resolvedAt ∧ w.2.status = copy.status ∧ w.2.cause = copy.cause

/-- The write of a copy that is there, and of one that is not. -/
theorem Merged.store {copies : List Copy} {written : List (ℕ × SourceIncident)}
    (h : Merged copies written) (bridgeId : ℕ) (incident : SourceIncident) (at_ : ℤ) :
    Merged (store copies bridgeId incident at_) ((bridgeId, incident) :: written) := by
  have hkey : ∀ old : Copy, (if old.key = (bridgeId, incident.id) then incident.onto at_ old
      else old).key = old.key := id_image (key_onto incident at_)
  have hnone : (∀ old ∈ copies, old.key ≠ (bridgeId, incident.id)) →
      ∀ w ∈ written, ¬ About (incident.row bridgeId at_) w := by
    intro hfree w hw habout
    obtain ⟨old, hold, hid⟩ := h.stored w hw
    exact hfree old hold (hid.trans habout)
  constructor
  · exact nodup_upsert rfl (key_onto incident at_) h.nodup
  · intro w hw
    rcases List.mem_cons.mp hw with rfl | hw
    · exact stored_store bridgeId incident at_
    · exact (h.stored w hw).store bridgeId incident at_
  · intro copy hcopy
    rcases mem_upsert hcopy with ⟨rfl, -⟩ | ⟨old, hold, rfl⟩
    · exact ⟨_, List.mem_cons_self, rfl⟩
    · obtain ⟨w, hw, habout⟩ := h.source old hold
      exact ⟨w, List.mem_cons_of_mem _ hw, habout.trans (hkey old).symm⟩
  · intro copy hcopy w hw habout hresolved
    rcases mem_upsert hcopy with ⟨rfl, hfree⟩ | ⟨old, hold, rfl⟩
    · rcases List.mem_cons.mp hw with rfl | hw
      · exact hresolved
      · exact absurd habout (hnone hfree w hw)
    · have habout : About old w := habout.trans (hkey old)
      rcases List.mem_cons.mp hw with rfl | hw
      · rw [if_pos habout.symm]
        show (incident.resolvedAt.or old.resolvedAt).isSome = true
        rw [Option.isSome_or, hresolved, Bool.true_or]
      · have hold := h.resolved old hold w hw habout hresolved
        split
        · show (incident.resolvedAt.or old.resolvedAt).isSome = true
          rw [Option.isSome_or, hold, Bool.or_true]
        · exact hold
  · intro copy hcopy hresolved
    rcases mem_upsert hcopy with ⟨rfl, -⟩ | ⟨old, hold, rfl⟩
    · exact ⟨_, List.mem_cons_self, rfl, rfl, rfl, rfl⟩
    · by_cases hsame : old.key = (bridgeId, incident.id)
      · rw [if_pos hsame] at hresolved ⊢
        cases hread : incident.resolvedAt with
        | some resolvedAt =>
          refine ⟨_, List.mem_cons_self, hsame.symm, ?_, ?_, ?_⟩
          · show incident.resolvedAt = incident.resolvedAt.or old.resolvedAt
            rw [hread, Option.some_or]
          · show incident.status = if incident.resolvedAt.isSome then incident.status else _
            rw [hread, Option.isSome_some, if_pos rfl]
          · show incident.cause = if incident.resolvedAt.isSome then incident.cause else _
            rw [hread, Option.isSome_some, if_pos rfl]
        | none =>
          have hresolved : (incident.resolvedAt.or old.resolvedAt).isSome = true := hresolved
          rw [hread, Option.none_or] at hresolved
          obtain ⟨w, hw, habout, hat, hstatus, hcause⟩ := h.words old hold hresolved
          refine ⟨w, List.mem_cons_of_mem _ hw, habout, ?_, ?_, ?_⟩
          · show w.2.resolvedAt = incident.resolvedAt.or old.resolvedAt
            rw [hread, Option.none_or, hat]
          · show w.2.status = if incident.resolvedAt.isSome then incident.status
              else if old.resolvedAt.isSome then old.status else incident.status
            rw [hread, if_neg (by simp), if_pos hresolved, hstatus]
          · show w.2.cause = if incident.resolvedAt.isSome then incident.cause
              else if old.resolvedAt.isSome then old.cause else incident.cause
            rw [hread, if_neg (by simp), if_pos hresolved, hcause]
      · rw [if_neg hsame] at hresolved ⊢
        obtain ⟨w, hw, hwords⟩ := h.words old hold hresolved
        exact ⟨w, List.mem_cons_of_mem _ hw, hwords⟩

/-! ### One poll -/

/-- What one step of a poll makes of the tables and of the poll. -/
inductive Moves (tables : Tables) (p : Poll) : Tables → Poll → Prop where
  | openMore {read : EvidenceRead} {page : Page} {requests : ℕ} : p.stage = .open_ read →
    Moves tables p tables { p with
      stage := .open_ (read.add page requests)
      heard := { p.heard with openPages := p.heard.openPages ++ [page] } }
  | openLast {read : EvidenceRead} {page : Page} {requests : ℕ} : p.stage = .open_ read →
    page.next = none →
    Moves tables p tables { p with
      stage := .window (read.add page requests) .empty
      heard := { p.heard with openPages := p.heard.openPages ++ [page] } }
  | windowMore {opened read : EvidenceRead} {page : Page} {requests : ℕ} :
    p.stage = .window opened read →
    Moves tables p tables { p with
      stage := .window opened (read.add page requests)
      heard := { p.heard with
        windowPages := p.heard.windowPages ++ [(windowQuery p.from_ p.now, page)] } }
  | windowLast {opened read : EvidenceRead} {page : Page} {requests : ℕ} :
    p.stage = .window opened read → page.next = none →
    Moves tables p tables { p.gather opened (read.add page requests) with
      heard := { p.heard with
        windowPages := p.heard.windowPages ++ [(windowQuery p.from_ p.now, page)] } }
  | store {incident : SourceIncident} {rest : List SourceIncident} {at_ : ℤ} :
    p.stage = .storing (incident :: rest) →
    Moves tables p
      { tables with
        copies := Polls.store tables.copies p.bridge.id incident at_
        written := (p.bridge.id, incident) :: tables.written }
      { p with stage := .storing rest }
  | look {found : List String} : p.stage = .storing [] →
    Moves tables p tables { p with stage := .refetching (stale found p.seen) }
  | refetched {id : String} {rest : List String} {record : FeedRow} {incident : SourceIncident}
      {requests : ℕ} : p.stage = .refetching (id :: rest) → toIncident record = some incident →
    Moves tables p tables { p with
      requestCount := p.requestCount + requests
      stage := .refetched incident rest
      heard := { p.heard with records := p.heard.records ++ [record] } }
  | absent {id : String} {rest : List String} {record : Option FeedRow} {requests : ℕ} :
    p.stage = .refetching (id :: rest) → record.bind toIncident = none →
    Moves tables p tables { p with
      requestCount := p.requestCount + requests
      stage := .refetching rest
      heard := { p.heard with records := p.heard.records ++ record.toList } }
  | storeRefetched {incident : SourceIncident} {rest : List String} {at_ : ℤ} :
    p.stage = .refetched incident rest →
    Moves tables p
      { tables with
        copies := Polls.store tables.copies p.bridge.id incident at_
        written := (p.bridge.id, incident) :: tables.written }
      { p with stage := .refetching rest }
  | fail {message : String} : p.stage.canFail = true →
    Moves tables p tables { p with failure := some message, stage := .failed }
  | record (at_ : ℤ) : p.stage = .refetching [] ∨ p.stage = .failed →
    Moves tables p { tables with polls := p.row at_ :: tables.polls }
      { p with stage := .noting (p.row at_), recorded := some (p.row at_) }
  | note {row : PollRow} {health : ℕ → PollHealth} : p.stage = .noting row →
    Moves tables p { tables with health } { p with stage := .done }
  | crash : Moves tables p tables { p with stage := .done }

variable {tables tables' : Tables}

theorem pollStep_moves {p p' : Poll} {action : PollAction}
    (h : pollStep tables p action = some (tables', p')) : Moves tables p tables' p' := by
  cases action with
  | openPage page requests =>
    simp only [pollStep] at h
    split at h
    · rename_i read hstage
      cases h
      cases hnext : page.next with
      | none => exact .openLast hstage hnext
      | some next => exact .openMore hstage
    · cases h
  | windowPage page requests =>
    simp only [pollStep] at h
    split at h
    · rename_i opened read hstage
      cases h
      cases hnext : page.next with
      | none => exact .windowLast hstage hnext
      | some next => exact .windowMore hstage
    · cases h
  | store at_ =>
    simp only [pollStep] at h
    split at h
    · rename_i incident rest hstage
      cases h
      exact .store hstage
    · cases h
  | look found =>
    simp only [pollStep] at h
    split at h
    · rename_i hstage
      split at h
      · cases h
        exact .look hstage
      · cases h
    · cases h
  | refetch record requests =>
    simp only [pollStep] at h
    split at h
    · rename_i id rest hstage
      cases h
      cases hread : record.bind toIncident with
      | none => exact .absent hstage hread
      | some incident =>
        obtain ⟨row, rfl, hrow⟩ := Option.bind_eq_some_iff.mp hread
        exact .refetched hstage hrow
    · cases h
  | storeRefetched at_ =>
    simp only [pollStep] at h
    split at h
    · rename_i incident rest hstage
      cases h
      exact .storeRefetched hstage
    · cases h
  | fail message =>
    simp only [pollStep] at h
    split at h
    · rename_i hcan
      cases h
      exact .fail hcan
    · cases h
  | record at_ =>
    simp only [pollStep] at h
    split at h
    · rename_i hstage
      cases h
      exact .record at_ (.inl hstage)
    · rename_i hstage
      cases h
      exact .record at_ (.inr hstage)
    · cases h
  | note at_ =>
    simp only [pollStep] at h
    split at h
    · rename_i row hstage
      cases h
      exact .note hstage
    · cases h
  | crash =>
    cases h
    exact .crash

/-- The pages of both feeds. -/
def feeds (p : Poll) : List Page := p.heard.openPages ++ p.heard.windowPages.map (·.2)

/-- Every incident that the source told this poll about. -/
def reported (p : Poll) : List SourceIncident :=
  (feeds p).flatMap Page.incidents ++ p.heard.records.filterMap toIncident

/-- Both feeds were read to the end, and `seen` names all that they told. -/
structure Gathered (p : Poll) : Prop where
  failure : p.failure = none
  opened : Finished p.heard.openPages
  finished : Finished (p.heard.windowPages.map (·.2))
  seen : ∀ incident ∈ (feeds p).flatMap Page.incidents, ∃ kept ∈ p.seen, kept.id = incident.id
  readable : p.skipped = 0 → ∀ page ∈ feeds p, Page.Readable page

def StageInv (copies : List Copy) (p : Poll) : Stage → Prop
  | .open_ read => p.failure = none ∧ Reads read p.heard.openPages ∧ p.heard.windowPages = [] ∧
      p.heard.records = []
  | .window opened read => p.failure = none ∧ Finished p.heard.openPages ∧
      Reads opened p.heard.openPages ∧ Reads read (p.heard.windowPages.map (·.2)) ∧
      p.heard.records = []
  | .storing rest => Gathered p ∧ p.heard.records = [] ∧
      ∀ incident ∈ p.seen, Stored copies p.bridge.id incident.id ∨ incident ∈ rest
  | .refetching _ => Gathered p ∧ ∀ incident ∈ reported p, Stored copies p.bridge.id incident.id
  | .refetched pending _ => Gathered p ∧
      ∀ incident ∈ reported p, Stored copies p.bridge.id incident.id ∨ incident = pending
  | .failed => p.failure.isSome = true
  | .noting _ | .done => True

/-- What the row of a poll says is so. -/
structure Recorded (copies : List Copy) (p : Poll) (row : PollRow) : Prop where
  bridgeId : row.bridgeId = p.bridge.id
  windowFrom : row.windowFrom = p.from_
  windowTo : row.windowTo = p.now
  complete : row.status ≠ .failed → Finished p.heard.openPages ∧
    Finished (p.heard.windowPages.map (·.2)) ∧
    ∀ incident ∈ reported p, Stored copies p.bridge.id incident.id
  readable : row.status = .ok → ∀ page ∈ feeds p, Page.Readable page

/-- The poll stores nothing more. -/
def Stage.closed : Stage → Bool
  | .noting _ | .done => true
  | _ => false

/-- What holds of a poll and the copies that it has stored. -/
structure Kept (copies : List Copy) (p : Poll) : Prop where
  queries : ∀ asked ∈ p.heard.windowPages, asked.1 = windowQuery p.from_ p.now
  fresh : Stage.closed p.stage = false → p.recorded = none
  stage : StageInv copies p p.stage
  recorded : ∀ row, p.recorded = some row → Recorded copies p row

/-- Copies are never taken away. -/
def Grows (copies copies' : List Copy) : Prop :=
  ∀ bridgeId id, Stored copies bridgeId id → Stored copies' bridgeId id

theorem grows_store (copies : List Copy) (bridgeId : ℕ) (incident : SourceIncident) (at_ : ℤ) :
    Grows copies (store copies bridgeId incident at_) :=
  fun _ _ h => h.store bridgeId incident at_

section Mono

variable {copies copies' : List Copy} {p : Poll} (hgrows : Grows copies copies')

include hgrows

theorem StageInv.mono {stage : Stage} (h : StageInv copies p stage) : StageInv copies' p stage := by
  cases stage with
  | open_ read | window opened read | failed | noting row | done => exact h
  | storing rest =>
    obtain ⟨hgathered, hrecords, hseen⟩ := h
    refine ⟨hgathered, hrecords, fun incident hincident => ?_⟩
    exact (hseen incident hincident).imp_left (hgrows _ _)
  | refetching rest =>
    obtain ⟨hgathered, hstored⟩ := h
    exact ⟨hgathered, fun incident hincident => hgrows _ _ (hstored incident hincident)⟩
  | refetched pending rest =>
    obtain ⟨hgathered, hstored⟩ := h
    refine ⟨hgathered, fun incident hincident => ?_⟩
    exact (hstored incident hincident).imp_left (hgrows _ _)

theorem Recorded.mono {row : PollRow} (h : Recorded copies p row) : Recorded copies' p row where
  bridgeId := h.bridgeId
  windowFrom := h.windowFrom
  windowTo := h.windowTo
  complete := by
    intro hstatus
    obtain ⟨hopened, hfinished, hstored⟩ := h.complete hstatus
    exact ⟨hopened, hfinished, fun incident hincident => hgrows _ _ (hstored incident hincident)⟩
  readable := h.readable

theorem Kept.mono (h : Kept copies p) : Kept copies' p :=
  ⟨h.queries, h.fresh, h.stage.mono hgrows, fun row hrow => (h.recorded row hrow).mono hgrows⟩

end Mono

theorem start_kept (copies : List Copy) (polls : List PollRow) (bridge : MigrationBridge) (now : ℤ) :
    Kept copies (Poll.start polls bridge now) := by
  constructor
  · intro asked hasked
    cases hasked
  · intro _
    rfl
  · exact ⟨rfl, reads_empty, rfl, rfl⟩
  · intro row hrow
    cases hrow

theorem gathered_gather {p : Poll} {opened window : EvidenceRead} {page : Page}
    (hfailure : p.failure = none) (hfinished : Finished p.heard.openPages)
    (hopened : Reads opened p.heard.openPages)
    (hwindow : Reads window (p.heard.windowPages.map (·.2) ++ [page])) (hlast : page.next = none) :
    Gathered { p.gather opened window with
      heard := { p.heard with
        windowPages := p.heard.windowPages ++ [(windowQuery p.from_ p.now, page)] } } := by
  have hpages : (p.heard.windowPages ++ [(windowQuery p.from_ p.now, page)]).map (·.2) =
      p.heard.windowPages.map (·.2) ++ [page] := List.map_append
  constructor
  · exact hfailure
  · exact hfinished
  · show Finished ((p.heard.windowPages ++ [(windowQuery p.from_ p.now, page)]).map (·.2))
    rw [hpages]
    exact finished_concat hlast
  · intro incident hincident
    apply exists_byId
    rw [feeds, hpages, List.flatMap_append, ← hopened.incidents, ← hwindow.incidents] at hincident
    exact List.mem_append.mpr (List.mem_append.mp hincident).symm
  · intro hskipped
    have hskipped : opened.skipped + window.skipped = 0 := hskipped
    intro other hother
    rw [feeds, hpages] at hother
    rcases List.mem_append.mp hother with hother | hother
    · exact hopened.readable (by omega) other hother
    · exact hwindow.readable (by omega) other hother

/-- A poll whose row does not say that it failed gathered and stored what it was told. -/
theorem recorded_row {copies : List Copy} {p : Poll} (at_ : ℤ)
    (h : StageInv copies p (.refetching []) ∨ p.failure.isSome = true) :
    Recorded copies p (p.row at_) := by
  have hgathered : (p.row at_).status ≠ .failed → StageInv copies p (.refetching []) := by
    intro hstatus
    rcases h with h | hfailure
    · exact h
    · exact absurd (if_pos hfailure) hstatus
  constructor
  · rfl
  · rfl
  · rfl
  · intro hstatus
    obtain ⟨hgathered, hstored⟩ := hgathered hstatus
    exact ⟨hgathered.opened, hgathered.finished, hstored⟩
  · intro hok
    obtain ⟨hgathered, -⟩ := hgathered (by rw [hok]; decide)
    apply hgathered.readable
    have hstatus : p.status = .ok := hok
    rw [Poll.status, hgathered.failure] at hstatus
    by_contra hskipped
    rw [if_neg (by simp), if_pos (Nat.pos_of_ne_zero hskipped)] at hstatus
    cases hstatus

theorem Kept.of_fresh {copies : List Copy} {p : Poll} (hfresh : p.recorded = none)
    (queries : ∀ asked ∈ p.heard.windowPages, asked.1 = windowQuery p.from_ p.now)
    (stage : StageInv copies p p.stage) : Kept copies p where
  queries := queries
  fresh := fun _ => hfresh
  stage := stage
  recorded := fun row hrow => by
    rw [hfresh] at hrow
    cases hrow

theorem Recorded.closed {copies : List Copy} {p : Poll} {row : PollRow} (h : Recorded copies p row)
    (stage : Stage) (recorded : Option PollRow) :
    Recorded copies { p with stage, recorded } row :=
  ⟨h.bridgeId, h.windowFrom, h.windowTo, h.complete, h.readable⟩

section Steps

variable {copies : List Copy} {p : Poll} (h : Kept copies p)

include h

theorem Kept.not_recorded {stage : Stage} (hstage : p.stage = stage)
    (hclosed : Stage.closed stage = false) : p.recorded = none :=
  h.fresh (hstage ▸ hclosed)

theorem Kept.stage_eq {stage : Stage} (hstage : p.stage = stage) : StageInv copies p stage :=
  hstage ▸ h.stage

theorem Kept.queries_concat (page : Page) :
    ∀ asked ∈ p.heard.windowPages ++ [(windowQuery p.from_ p.now, page)],
      asked.1 = windowQuery p.from_ p.now := by
  intro asked hasked
  rcases List.mem_append.mp hasked with hasked | hasked
  · exact h.queries asked hasked
  · rw [List.mem_singleton.mp hasked]

end Steps

/-- What a step of a poll does to the copies and to what was written. -/
theorem Moves.copies {p p' : Poll} (hm : Moves tables p tables' p') :
    (tables'.copies = tables.copies ∧ tables'.written = tables.written) ∨
      ∃ bridgeId incident at_, tables'.copies = Polls.store tables.copies bridgeId incident at_ ∧
        tables'.written = (bridgeId, incident) :: tables.written := by
  cases hm with
  | store _ | storeRefetched _ => exact .inr ⟨_, _, _, rfl, rfl⟩
  | openMore _ | openLast _ _ | windowMore _ | windowLast _ _ | look _ | refetched _ _
  | absent _ _ | fail _ | record _ _ | note _ | crash => exact .inl ⟨rfl, rfl⟩

theorem Moves.grows {p p' : Poll} (hm : Moves tables p tables' p') :
    Grows tables.copies tables'.copies := by
  rcases hm.copies with ⟨hcopies, -⟩ | ⟨bridgeId, incident, at_, hcopies, -⟩
  · rw [hcopies]
    exact fun _ _ h => h
  · rw [hcopies]
    exact grows_store _ bridgeId incident at_

theorem Moves.kept {p p' : Poll} (hm : Moves tables p tables' p') (h : Kept tables.copies p) :
    Kept tables'.copies p' := by
  cases hm with
  | openMore hstage =>
    obtain ⟨hfailure, hreads, hwindow, hrecords⟩ := h.stage_eq hstage
    have hfresh := h.not_recorded hstage rfl
    refine .of_fresh hfresh h.queries ?_
    exact ⟨hfailure, hreads.add _ _, hwindow, hrecords⟩
  | openLast hstage hlast =>
    obtain ⟨hfailure, hreads, hwindow, hrecords⟩ := h.stage_eq hstage
    have hfresh := h.not_recorded hstage rfl
    refine .of_fresh hfresh h.queries ?_
    refine ⟨hfailure, finished_concat hlast, hreads.add _ _, ?_, hrecords⟩
    show Reads .empty (p.heard.windowPages.map (·.2))
    rw [hwindow]
    exact reads_empty
  | @windowMore opened read page requests hstage =>
    obtain ⟨hfailure, hfinished, hopened, hreads, hrecords⟩ := h.stage_eq hstage
    have hfresh := h.not_recorded hstage rfl
    refine .of_fresh hfresh (h.queries_concat _) ?_
    refine ⟨hfailure, hfinished, hopened, ?_, hrecords⟩
    show Reads _ ((p.heard.windowPages ++ [(windowQuery p.from_ p.now, page)]).map (·.2))
    rw [List.map_append]
    exact hreads.add page requests
  | windowLast hstage hlast =>
    obtain ⟨hfailure, hfinished, hopened, hreads, hrecords⟩ := h.stage_eq hstage
    have hfresh := h.not_recorded hstage rfl
    refine .of_fresh hfresh (h.queries_concat _) ?_
    refine ⟨gathered_gather hfailure hfinished hopened (hreads.add _ _) hlast, hrecords, ?_⟩
    exact fun incident hincident => .inr hincident
  | @store incident rest at_ hstage =>
    obtain ⟨hgathered, hrecords, hseen⟩ := h.stage_eq hstage
    have hfresh := h.not_recorded hstage rfl
    refine .of_fresh hfresh h.queries ?_
    refine ⟨⟨hgathered.failure, hgathered.opened, hgathered.finished, hgathered.seen,
      hgathered.readable⟩, hrecords, fun other hother => ?_⟩
    rcases hseen other hother with hstored | hrest
    · exact .inl (hstored.store p.bridge.id incident at_)
    · rcases List.mem_cons.mp hrest with rfl | hrest
      · exact .inl (stored_store p.bridge.id other at_)
      · exact .inr hrest
  | look hstage =>
    obtain ⟨hgathered, hrecords, hseen⟩ := h.stage_eq hstage
    have hfresh := h.not_recorded hstage rfl
    refine .of_fresh hfresh h.queries ?_
    refine ⟨⟨hgathered.failure, hgathered.opened, hgathered.finished, hgathered.seen,
      hgathered.readable⟩, fun incident hincident => ?_⟩
    have hincident : incident ∈ (feeds p).flatMap Page.incidents ++
        p.heard.records.filterMap toIncident := hincident
    rw [hrecords, List.filterMap_nil, List.append_nil] at hincident
    obtain ⟨kept, hkept, hid⟩ := hgathered.seen incident hincident
    rw [← hid]
    exact (hseen kept hkept).resolve_right List.not_mem_nil
  | @refetched id rest record incident requests hstage hread =>
    obtain ⟨hgathered, hstored⟩ := h.stage_eq hstage
    have hfresh := h.not_recorded hstage rfl
    refine .of_fresh hfresh h.queries ?_
    refine ⟨⟨hgathered.failure, hgathered.opened, hgathered.finished, hgathered.seen,
      hgathered.readable⟩, fun other hother => ?_⟩
    have hother : other ∈ (feeds p).flatMap Page.incidents ++
        (p.heard.records ++ [record]).filterMap toIncident := hother
    rw [List.filterMap_append, ← List.append_assoc] at hother
    rcases List.mem_append.mp hother with hother | hother
    · exact .inl (hstored other hother)
    · rw [List.filterMap_cons_some hread] at hother
      exact .inr (List.mem_singleton.mp hother)
  | @absent id rest record requests hstage hread =>
    obtain ⟨hgathered, hstored⟩ := h.stage_eq hstage
    have hfresh := h.not_recorded hstage rfl
    refine .of_fresh hfresh h.queries ?_
    refine ⟨⟨hgathered.failure, hgathered.opened, hgathered.finished, hgathered.seen,
      hgathered.readable⟩, fun other hother => hstored other ?_⟩
    have hother : other ∈ (feeds p).flatMap Page.incidents ++
        (p.heard.records ++ record.toList).filterMap toIncident := hother
    have hnone : record.toList.filterMap toIncident = [] := by
      cases record with
      | none => rfl
      | some row => exact List.filterMap_cons_none hread
    rw [List.filterMap_append, hnone, List.append_nil] at hother
    exact hother
  | @storeRefetched incident rest at_ hstage =>
    obtain ⟨hgathered, hstored⟩ := h.stage_eq hstage
    have hfresh := h.not_recorded hstage rfl
    refine .of_fresh hfresh h.queries ?_
    refine ⟨⟨hgathered.failure, hgathered.opened, hgathered.finished, hgathered.seen,
      hgathered.readable⟩, fun other hother => ?_⟩
    rcases hstored other hother with hstored | rfl
    · exact hstored.store p.bridge.id incident at_
    · exact stored_store p.bridge.id other at_
  | fail hcan =>
    have hfresh : p.recorded = none := by
      apply h.fresh
      cases hstage : p.stage with
      | open_ _ | window _ _ | storing _ | refetching _ | refetched _ _ => rfl
      | failed | noting _ | done =>
        rw [hstage] at hcan
        cases hcan
    exact .of_fresh hfresh h.queries rfl
  | record at_ hstage =>
    refine ⟨h.queries, fun hclosed => Bool.noConfusion hclosed, trivial, fun row hrow => ?_⟩
    cases hrow
    apply Recorded.closed (recorded_row at_ ?_)
    exact hstage.imp h.stage_eq h.stage_eq
  | note hstage | crash =>
    refine ⟨h.queries, fun hclosed => Bool.noConfusion hclosed, trivial, fun row hrow => ?_⟩
    exact (h.recorded row hrow).closed .done p.recorded

theorem Moves.polls {p p' : Poll} (hm : Moves tables p tables' p') :
    (tables'.polls = tables.polls ∧ p'.recorded = p.recorded) ∨
      ∃ row, tables'.polls = row :: tables.polls ∧ p'.recorded = some row ∧
        Stage.closed p.stage = false := by
  cases hm with
  | record at_ hstage =>
    refine .inr ⟨_, rfl, rfl, ?_⟩
    rcases hstage with hstage | hstage
    · rw [hstage]
      rfl
    · rw [hstage]
      rfl
  | store _ | storeRefetched _ | openMore _ | openLast _ _ | windowMore _ | windowLast _ _ | look _
  | refetched _ _ | absent _ _ | fail _ | note _ | crash => exact .inl ⟨rfl, rfl⟩

/-! ### The polls together -/

structure Inv (s : State) : Prop where
  merged : Merged s.tables.copies s.tables.written
  kept : ∀ p ∈ s.pollers, Kept s.tables.copies p
  polls : ∀ row ∈ s.tables.polls, ∃ p ∈ s.pollers, p.recorded = some row

theorem init_inv : Inv initial := by
  refine ⟨⟨List.nodup_nil, ?_, ?_, ?_, ?_⟩, ?_, ?_⟩
  all_goals
    intro x hx
    cases hx

theorem Moves.merged {p p' : Poll} (hm : Moves tables p tables' p')
    (h : Merged tables.copies tables.written) : Merged tables'.copies tables'.written := by
  rcases hm.copies with ⟨hcopies, hwritten⟩ | ⟨bridgeId, incident, at_, hcopies, hwritten⟩
  · rw [hcopies, hwritten]
    exact h
  · rw [hcopies, hwritten]
    exact h.store bridgeId incident at_

theorem poll_inv {s : State} {i : ℕ} {p p' : Poll} (h : Inv s) (hp : s.pollers[i]? = some p)
    (hm : Moves s.tables p tables p') : Inv { tables, pollers := s.pollers.set i p' } := by
  obtain ⟨hlt, hget⟩ := List.getElem?_eq_some_iff.mp hp
  have hmem : p ∈ s.pollers := List.mem_of_getElem? hp
  have hnew : p' ∈ s.pollers.set i p' := List.mem_set hlt p'
  have hothers : ∀ q ∈ s.pollers, q = p ∨ q ∈ s.pollers.set i p' := by
    intro q hq
    obtain ⟨j, hj, rfl⟩ := List.mem_iff_getElem.mp hq
    by_cases hij : j = i
    · subst hij
      exact .inl hget
    · right
      rw [List.mem_iff_getElem]
      refine ⟨j, by simpa using hj, ?_⟩
      rw [List.getElem_set_ne (Ne.symm hij)]
  refine ⟨hm.merged h.merged, fun q hq => ?_, fun row hrow => ?_⟩
  · rcases List.mem_or_eq_of_mem_set hq with hq | rfl
    · exact (h.kept q hq).mono hm.grows
    · exact hm.kept (h.kept p hmem)
  · have hold : ∀ row ∈ s.tables.polls, p'.recorded = p.recorded ∨ p.recorded = none →
        ∃ q ∈ s.pollers.set i p', q.recorded = some row := by
      intro row hrow hsame
      obtain ⟨q, hq, hrecorded⟩ := h.polls row hrow
      rcases hothers q hq with rfl | hq
      · refine ⟨p', hnew, ?_⟩
        rcases hsame with hsame | hnone
        · exact hsame.trans hrecorded
        · rw [hnone] at hrecorded
          cases hrecorded
      · exact ⟨q, hq, hrecorded⟩
    rcases hm.polls with ⟨hpolls, hsame⟩ | ⟨own, hpolls, hown, hopen⟩
    · exact hold row (hpolls ▸ hrow) (.inl hsame)
    · rcases List.mem_cons.mp (hpolls ▸ hrow) with rfl | hrow
      · exact ⟨p', hnew, hown⟩
      · exact hold row hrow (.inr ((h.kept p hmem).fresh hopen))

theorem step_inv {s t : State} {a : Action} (h : Inv s) (hstep : step s a = some t) : Inv t := by
  cases a with
  | begin_ bridge now =>
    cases hstep
    split
    · refine ⟨h.merged, fun p hp => ?_, fun row hrow => ?_⟩
      · rcases List.mem_append.mp hp with hp | hp
        · exact h.kept p hp
        · rw [List.mem_singleton.mp hp]
          exact start_kept _ _ bridge now
      · obtain ⟨p, hp, hrecorded⟩ := h.polls row hrow
        exact ⟨p, List.mem_append_left _ hp, hrecorded⟩
    · exact h
  | poll i action =>
    obtain ⟨p, hp, hmap⟩ := Option.bind_eq_some_iff.mp hstep
    obtain ⟨⟨tables, p'⟩, hpoll, rfl⟩ := Option.map_eq_some_iff.mp hmap
    exact poll_inv h hp (pollStep_moves hpoll)
  | prune cutoff =>
    cases hstep
    exact ⟨h.merged, h.kept, fun row hrow => h.polls row (List.mem_of_mem_filter hrow)⟩

theorem reachable_inv {s : State} (h : machine.Reachable s) : Inv s :=
  h.induct (P := Inv) init_inv fun _ _ _ _ hinv hstep => step_inv hinv hstep

theorem step_resolved {s t : State} {a : Action} (hstep : step s a = some t) {key : ℕ × String}
    (h : ∃ copy ∈ s.tables.copies, copy.key = key ∧ copy.resolvedAt.isSome = true) :
    ∃ copy ∈ t.tables.copies, copy.key = key ∧ copy.resolvedAt.isSome = true := by
  cases a with
  | begin_ bridge now =>
    cases hstep
    split
    · exact h
    · exact h
  | poll i action =>
    obtain ⟨p, hp, hmap⟩ := Option.bind_eq_some_iff.mp hstep
    obtain ⟨⟨tables, p'⟩, hpoll, rfl⟩ := Option.map_eq_some_iff.mp hmap
    obtain ⟨copy, hcopy, hkey, hresolved⟩ := h
    rcases (pollStep_moves hpoll).copies with ⟨hcopies, -⟩ | ⟨bridgeId, incident, at_, hcopies, -⟩
    · exact ⟨copy, hcopies ▸ hcopy, hkey, hresolved⟩
    · obtain ⟨copy', hcopy', hkey', hresolved'⟩ :=
        resolved_store bridgeId incident at_ hcopy hresolved
      exact ⟨copy', hcopies ▸ hcopy', hkey'.trans hkey, hresolved'⟩
  | prune cutoff =>
    cases hstep
    exact h

/-- The dates of the query hold the instant. -/
def WindowQuery.Includes (query : WindowQuery) (t : ℤ) : Prop :=
  ∃ from_ to_, query = windowQuery from_ to_ ∧ from_ / 86400000 ≤ t / 86400000 ∧
    t / 86400000 ≤ to_ / 86400000

/-- The poll covers the instant: it succeeded, it asked for the incidents of dates that hold the
instant, it read the answer to its end and could read all of it, and what it read is stored. -/
structure Covers (copies : List Copy) (p : Poll) (t : ℤ) : Prop where
  succeeded : ∃ row, p.recorded = some row ∧ row.status = .ok
  asked : ∀ asked ∈ p.heard.windowPages, WindowQuery.Includes asked.1 t
  opened : Finished p.heard.openPages
  finished : Finished (p.heard.windowPages.map (·.2))
  readable : ∀ page ∈ feeds p, Page.Readable page
  stored : ∀ incident ∈ reported p, Stored copies p.bridge.id incident.id

theorem Inv.covers {s : State} (h : Inv s) {bridgeId : ℕ} {t : ℤ}
    (hcovered : Covered (okWindows s.tables.polls bridgeId) t) :
    ∃ p ∈ s.pollers, p.bridge.id = bridgeId ∧ Covers s.tables.copies p t := by
  obtain ⟨window, hwindow, hfrom, hto⟩ := hcovered
  obtain ⟨row, hrow, rfl⟩ := List.mem_map.mp hwindow
  obtain ⟨hrow, htest⟩ := List.mem_filter.mp hrow
  simp only [Bool.and_eq_true, decide_eq_true_eq] at htest
  obtain ⟨hbridge, hok⟩ := htest
  obtain ⟨p, hp, hrecorded⟩ := h.polls row hrow
  have hkept := h.kept p hp
  have hown := hkept.recorded row hrecorded
  obtain ⟨hopened, hfinished, hstored⟩ := hown.complete (by rw [hok]; decide)
  refine ⟨p, hp, hown.bridgeId.symm.trans hbridge, ⟨row, hrecorded, hok⟩, fun asked hasked => ?_,
    hopened, hfinished, hown.readable hok, hstored⟩
  have hfrom : row.windowFrom ≤ t := hfrom
  have hto : t < row.windowTo := hto
  rw [hown.windowFrom] at hfrom
  rw [hown.windowTo] at hto
  exact ⟨p.from_, p.now, hkept.queries asked hasked, by omega, by omega⟩

theorem Merged.count {copies : List Copy} {written : List (ℕ × SourceIncident)}
    (h : Merged copies written) {bridgeId : ℕ} {id : String} (hstored : Stored copies bridgeId id) :
    copies.countP (fun copy => copy.key = (bridgeId, id)) = 1 := by
  obtain ⟨copy, hcopy, hkey⟩ := hstored
  have hcount : (copies.map Copy.key).count (bridgeId, id) = 1 :=
    List.count_eq_one_of_mem h.nodup (hkey ▸ List.mem_map_of_mem hcopy)
  rw [List.count, List.countP_map] at hcount
  rw [← hcount]
  exact List.countP_congr fun copy _ => by simp

/-- Every resolved write about the copy says the same of its end. -/
def Agreed (written : List (ℕ × SourceIncident)) (copy : Copy) : Prop :=
  ∀ w ∈ written, ∀ w' ∈ written, About copy w → About copy w' → w.2.resolvedAt.isSome = true →
    w'.2.resolvedAt.isSome = true → w.2.resolvedAt = w'.2.resolvedAt ∧ w.2.status = w'.2.status ∧
      w.2.cause = w'.2.cause

/-- The same writes in another order make the same copies, as far as their ends go. -/
theorem Merged.confluent {copies copies' : List Copy} {written written' : List (ℕ × SourceIncident)}
    (h : Merged copies written) (h' : Merged copies' written')
    (hsame : ∀ w, w ∈ written ↔ w ∈ written') {copy : Copy} (hcopy : copy ∈ copies) :
    ∃ copy' ∈ copies', copy'.key = copy.key ∧
      copy'.resolvedAt.isSome = copy.resolvedAt.isSome ∧
      (copy.resolvedAt.isSome = true → Agreed written copy →
        copy'.resolvedAt = copy.resolvedAt ∧ copy'.status = copy.status ∧
          copy'.cause = copy.cause) := by
  obtain ⟨w, hw, habout⟩ := h.source copy hcopy
  obtain ⟨copy', hcopy', hkey⟩ := h'.stored w ((hsame w).mp hw)
  have hkey : copy'.key = copy.key := hkey.trans habout
  have habout' : ∀ {w}, About copy' w ↔ About copy w := fun {w} => by
    rw [About, About, hkey]
  refine ⟨copy', hcopy', hkey, ?_, fun hresolved hagreed => ?_⟩
  · rw [Bool.eq_iff_iff]
    constructor
    · intro hresolved
      obtain ⟨w, hw, habout, hat, -⟩ := h'.words copy' hcopy' hresolved
      exact h.resolved copy hcopy w ((hsame w).mpr hw) (habout'.mp habout) (hat ▸ hresolved)
    · intro hresolved
      obtain ⟨w, hw, habout, hat, -⟩ := h.words copy hcopy hresolved
      exact h'.resolved copy' hcopy' w ((hsame w).mp hw) (habout'.mpr habout) (hat ▸ hresolved)
  · obtain ⟨w, hw, habout, hat, hstatus, hcause⟩ := h.words copy hcopy hresolved
    have hresolved' : copy'.resolvedAt.isSome = true :=
      h'.resolved copy' hcopy' w ((hsame w).mp hw) (habout'.mpr habout) (hat ▸ hresolved)
    obtain ⟨w', hw', hother, hat', hstatus', hcause'⟩ := h'.words copy' hcopy' hresolved'
    obtain ⟨hsameAt, hsameStatus, hsameCause⟩ := hagreed w' ((hsame w').mpr hw') w hw
      (habout'.mp hother) habout (hat' ▸ hresolved') (hat ▸ hresolved)
    exact ⟨hat'.symm.trans (hsameAt.trans hat), hstatus'.symm.trans (hsameStatus.trans hstatus),
      hcause'.symm.trans (hsameCause.trans hcause)⟩

/-- However polls overlap, repeat and fail: a resolved copy stays resolved; no incident is stored
twice, and each one that the source told a poll which did not fail is stored; what the merged coverage
claims, a successful poll covered; and the same writes in another order end in the same copies. -/
theorem polls_converge {s : State} (h : machine.Reachable s) :
    (∀ acts t, machine.execFrom s acts = some t → ∀ copy ∈ s.tables.copies,
      copy.resolvedAt.isSome = true →
      ∃ copy' ∈ t.tables.copies, copy'.key = copy.key ∧ copy'.resolvedAt.isSome = true) ∧
    (s.tables.copies.map Copy.key).Nodup ∧
    (∀ p ∈ s.pollers, ∀ row, p.recorded = some row → row.status ≠ .failed →
      ∀ incident ∈ reported p,
        s.tables.copies.countP (fun copy => copy.key = (p.bridge.id, incident.id)) = 1) ∧
    (∀ bridgeId t, Covered (mergeCoverage (okWindows s.tables.polls bridgeId)) t →
      ∃ p ∈ s.pollers, p.bridge.id = bridgeId ∧ Covers s.tables.copies p t) ∧
    ∀ s', machine.Reachable s' → (∀ w, w ∈ s.tables.written ↔ w ∈ s'.tables.written) →
      ∀ copy ∈ s.tables.copies, ∃ copy' ∈ s'.tables.copies, copy'.key = copy.key ∧
        copy'.resolvedAt.isSome = copy.resolvedAt.isSome ∧
        (copy.resolvedAt.isSome = true → Agreed s.tables.written copy →
          copy'.resolvedAt = copy.resolvedAt ∧ copy'.status = copy.status ∧
            copy'.cause = copy.cause) := by
  have hinv := reachable_inv h
  refine ⟨fun acts t hrun copy hcopy hresolved => ?_, hinv.merged.nodup,
    fun p hp row hrow hstatus incident hincident => ?_, fun bridgeId t hcovered => ?_,
    fun s' hs' hsame copy hcopy => ?_⟩
  · refine Machine.execFrom_induct (P := fun s => ∃ copy' ∈ s.tables.copies,
      copy'.key = copy.key ∧ copy'.resolvedAt.isSome = true) hrun ?_ fun r a r' _ hr hstep => ?_
    · exact ⟨copy, hcopy, rfl, hresolved⟩
    · exact step_resolved hstep hr
  · obtain ⟨-, -, hstored⟩ := ((hinv.kept p hp).recorded row hrow).complete hstatus
    exact hinv.merged.count (hstored incident hincident)
  · exact hinv.covers ((Verdict.covered_mergeCoverage _ t).mp hcovered)
  · exact hinv.merged.confluent (reachable_inv hs').merged hsame hcopy

def outageRow : FeedRow :=
  { id := some "9001", resourceType := some "monitor", resourceId := some "2", cause := some "timeout"
    status := some "Started", startedAt := some 1000, acknowledgedAt := none, resolvedAt := none }

/-- The incident of that row. -/
def outage : SourceIncident :=
  { id := "9001", resourceType := some "monitor", resourceId := some "2", cause := some "timeout"
    status := "Started", startedAt := 1000, acknowledgedAt := none, resolvedAt := none }

def connectedBridge : MigrationBridge := { id := 1, createdAt := 0, connected := true }

/-- A poll that is told of an outage, and either reads the other feed or fails. -/
def pollTwoFeeds : List Action :=
  [.begin_ connectedBridge 5000, .poll 0 (.openPage ⟨[outageRow], none⟩ 1),
    .poll 0 (.windowPage ⟨[], none⟩ 1), .poll 0 (.store 5001), .poll 0 (.look ["9001"]),
    .poll 0 (.record 5002), .poll 0 (.note 5003)]

def pollOneFeed : List Action :=
  [.begin_ connectedBridge 5000, .poll 0 (.openPage ⟨[outageRow], none⟩ 1),
    .poll 0 (.fail (some "timeout")), .poll 0 (.record 5002), .poll 0 (.note 5003)]

theorem polls_converge_two_feeds :
    (machine.reached pollTwoFeeds).tables.copies.countP (fun copy => copy.key = (1, "9001")) = 1 := by
  have hrun : (machine.exec pollTwoFeeds).isSome = true := by decide +kernel
  obtain ⟨-, -, hstored, -⟩ := polls_converge ⟨pollTwoFeeds, Machine.exec_reached hrun⟩
  obtain ⟨p, hp, row, hrow, hstatus, hbridge, hreported⟩ :
      ∃ p ∈ (machine.reached pollTwoFeeds).pollers, ∃ row, p.recorded = some row ∧
        row.status ≠ .failed ∧ p.bridge.id = 1 ∧ outage ∈ reported p := by
    refine ⟨_, List.mem_cons_self, _, rfl, by decide, rfl, List.mem_cons_self⟩
  have honce := hstored p hp row hrow hstatus outage hreported
  rw [hbridge] at honce
  exact honce

/-- An incident that the source told a poll which failed need not be stored. -/
theorem told_and_not_stored : ∃ s, machine.Reachable s ∧ s.tables.copies = [] ∧
    ∃ p ∈ s.pollers, outage ∈ reported p ∧ p.stage = .done :=
  ⟨_, ⟨pollOneFeed, rfl⟩, rfl, _, List.mem_cons_self, List.mem_cons_self, rfl⟩

end Vigil.Bridge.Confluence
