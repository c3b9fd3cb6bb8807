import Vigil.Bridge.Import
import Vigil.Bridge.Verdict
import Vigil.Lib.Entries

/-! An import that is run again.  After a run every record is settled: its monitor is there by its
source id, or nothing that a run does makes one.  A run over settled records makes no monitor, so
it keeps every monitor id, and all that it changes of a pairing is the outcome of a record whose
monitor is there: it is recorded as skipped. -/

namespace Vigil.Bridge.Reimport

open Lib.Keyed Compare Verdict Import
open Lib.Entries (lookup_append_isSome lookup_isSome_of_mem)

section

variable {σ ρ : Type} (engine : Engine σ ρ)

/-- Nothing is made of the check where these keys are taken. -/
def Blocked (existing : List (List String × ℕ)) (check : SourceCheck σ) : Prop :=
  match engine.translateCheck check with
  | .unsupported _ => True
  | .build input _ refusals =>
    match engine.safeParse input with
    | .error _ => True
    | .ok input => refusals ≠ [] ∨
        (existing.lookup (identityKey engine input.checkType input.url input.name)).isSome = true ∨
        (engine.refusal input).isSome = true

/-- The outcome of a check that no earlier run imported and of which nothing is made. -/
def quietOutcome (check : SourceCheck σ) : Outcome :=
  match engine.translateCheck check with
  | .unsupported _ => .unsupported
  | .build _ _ _ => .skipped

def Settled (monitors : List Monitor) (existing : List (List String × ℕ)) (check : SourceCheck σ) :
    Prop :=
  (importedMonitor engine monitors check.sourceId).isSome = true ∨ Blocked engine existing check

/-- The keys that a run knows are keys of the rows. -/
def Loaded (running : Running) : Prop :=
  ∀ key, (running.existing.lookup key).isSome = true →
    ((loadExisting engine running.monitors).lookup key).isSome = true

/-! ### Lookups -/

variable {engine}

variable {check : SourceCheck σ} {running running' : Running} {result : Running × ReportEntry}

theorem Blocked.mono {existing existing' : List (List String × ℕ)}
    (h : ∀ key, (existing.lookup key).isSome = true → (existing'.lookup key).isSome = true)
    (hblocked : Blocked engine existing check) : Blocked engine existing' check := by
  unfold Blocked at hblocked ⊢
  split
  · trivial
  · rename_i input notes refusals htranslate
    rw [htranslate] at hblocked
    dsimp only at hblocked
    split
    · trivial
    · rename_i input' hparse
      rw [hparse] at hblocked
      exact hblocked.imp_right (Or.imp_left (h _))

theorem loadExisting_append (before after : List Monitor) :
    loadExisting engine (before ++ after) =
      loadExisting engine before ++ loadExisting engine after :=
  List.flatMap_append

theorem importedMonitor_append (before after : List Monitor) (sourceId : String) :
    importedMonitor engine (before ++ after) sourceId =
      (importedMonitor engine before sourceId).or (importedMonitor engine after sourceId) :=
  List.find?_append

/-! ### Groups -/

/-- Groups were added, which no record is the source of. -/
structure GroupsAdded (running running' : Running) : Prop where
  existing : running'.existing = running.existing
  monitors : ∃ groups, running'.monitors = groups ++ running.monitors ∧
    ∀ group ∈ groups, group.importSource = none

theorem GroupsAdded.refl (running : Running) : GroupsAdded running running :=
  ⟨rfl, [], rfl, by simp⟩

theorem GroupsAdded.trans {r₁ r₂ r₃ : Running} (h : GroupsAdded r₁ r₂) (h' : GroupsAdded r₂ r₃) :
    GroupsAdded r₁ r₃ := by
  obtain ⟨hexisting, groups, hmonitors, hgroups⟩ := h
  obtain ⟨hexisting', groups', hmonitors', hgroups'⟩ := h'
  refine ⟨hexisting'.trans hexisting, groups' ++ groups, ?_, fun group hgroup => ?_⟩
  · rw [hmonitors', hmonitors, List.append_assoc]
  · exact (List.mem_append.mp hgroup).elim (hgroups' group) (hgroups group)

theorem GroupsAdded.imported (h : GroupsAdded running running') (sourceId : String) :
    importedMonitor engine running'.monitors sourceId =
      importedMonitor engine running.monitors sourceId := by
  obtain ⟨-, groups, hmonitors, hgroups⟩ := h
  have hnone : importedMonitor engine groups sourceId = none := by
    refine List.find?_eq_none.mpr fun group hgroup => ?_
    simp [hgroups group hgroup]
  rw [hmonitors, importedMonitor_append, hnone, Option.none_or]

theorem GroupsAdded.loaded (h : GroupsAdded running running') (hloaded : Loaded engine running) :
    Loaded engine running' := by
  intro key hkey
  obtain ⟨hexisting, groups, hmonitors, -⟩ := h
  rw [hmonitors, loadExisting_append, lookup_append_isSome]
  exact .inr (hloaded key (hexisting ▸ hkey))

theorem resolve_spec {seen path : List String} {parentId parentId' : Option ℕ}
    (h : resolve engine running seen path parentId = .ok (running', parentId')) :
    GroupsAdded running running' := by
  induction path generalizing running seen parentId with
  | nil =>
    obtain ⟨rfl, -⟩ := Prod.mk.inj (Except.ok.inj h)
    exact .refl running
  | cons segment rest ih =>
    rw [resolve] at h
    dsimp only at h
    split at h
    · exact ih h
    · split at h
      · exact ih h
      · split at h
        · have hrest := ih h
          exact ⟨hrest.existing, hrest.monitors⟩
        · split at h
          · cases h
          · rename_i input hparse
            obtain ⟨hexisting, groups, hmonitors, hgroups⟩ := ih h
            refine ⟨hexisting, groups ++ [newGroup running input parentId], ?_, ?_⟩
            · rw [hmonitors, List.append_assoc]
              rfl
            · intro group hgroup
              rcases List.mem_append.mp hgroup with hgroup | hgroup
              · exact hgroups group hgroup
              · rw [List.mem_singleton.mp hgroup]
                rfl

variable (engine) in
theorem inGroup_spec (running : Running) (groupPath : List String) :
    GroupsAdded running (inGroup engine running groupPath).1 := by
  unfold inGroup
  split
  · exact .refl running
  · split
    · rename_i hresolve
      exact resolve_spec hresolve
    · rename_i hresolve
      exact resolve_spec hresolve
    · exact .refl running

/-! ### One check -/

/-- Nothing was made of a check, and nothing will be. -/
structure Quiet (engine : Engine σ ρ) (running : Running) (check : SourceCheck σ)
    (result : Running × ReportEntry) : Prop where
  groups : GroupsAdded running result.1
  outcome : result.2.outcome = quietOutcome engine check
  monitorId : result.2.monitorId = none
  settled : Settled engine result.1.monitors result.1.existing check

/-- A monitor was made of a check. -/
structure Made (engine : Engine σ ρ) (running : Running) (check : SourceCheck σ)
    (result : Running × ReportEntry) : Prop where
  open_ : ¬Blocked engine running.existing check
  outcome : result.2.outcome = .imported ∨ result.2.outcome = .transformed
  made : ∃ between monitor key, GroupsAdded running between ∧
    importedMonitor engine between.monitors check.sourceId = none ∧
    result.1.monitors = monitor :: between.monitors ∧
    result.1.existing = (key, monitor.id) :: between.existing ∧
    (key, monitor.id) ∈ rowKeys engine monitor ∧
    monitor.importSource = some engine.provider ∧
    monitor.importSourceId = some (engine.sourceKey check.sourceId) ∧
    result.2.monitorId = some monitor.id

theorem storeCheck_cases {running between : Running} {raw : ρ} {notes refusals : List String}
    (htranslate : engine.translateCheck check = .build raw notes refusals) {input : MonitorInput}
    (hparse : engine.safeParse raw = .ok input) (hrefusals : refusals = [])
    (hgroups : GroupsAdded running between) (parentId : Option ℕ) (told : List String) :
    Quiet engine running check (storeCheck engine between check input parentId told) ∨
      Made engine running check (storeCheck engine between check input parentId told) := by
  have hquiet : quietOutcome engine check = .skipped := by rw [quietOutcome, htranslate]
  have hblocked : ∀ existing, Blocked engine existing check ↔
      (existing.lookup (identityKey engine input.checkType input.url input.name)).isSome = true ∨
        (engine.refusal input).isSome = true := by
    intro existing
    simp [Blocked, htranslate, hparse, hrefusals]
  unfold storeCheck
  dsimp only
  split
  · rename_i hduplicate
    exact .inl ⟨hgroups, hquiet.symm, rfl, .inr ((hblocked _).mpr (.inl hduplicate))⟩
  · rename_i hfree
    cases hfailure : insertFailure engine between.monitors check input with
    | some failure =>
      refine .inl ⟨hgroups, hquiet.symm, rfl, ?_⟩
      unfold insertFailure at hfailure
      split at hfailure
      · rename_i found hrefusal
        exact .inr ((hblocked _).mpr (.inr (by rw [hrefusal]; rfl)))
      · split at hfailure
        · rename_i htaken
          exact .inl htaken
        · cases hfailure
    | none =>
      unfold insertFailure at hfailure
      split at hfailure
      · cases hfailure
      · rename_i hrefusal
        split at hfailure
        · cases hfailure
        · rename_i htaken
          refine .inr ⟨fun h => ?_, ?_, between, newMonitor engine between check input parentId, _,
            hgroups, Option.not_isSome_iff_eq_none.mp htaken, rfl, rfl, ?_, rfl, rfl, rfl⟩
          · rcases (hblocked _).mp h with h | h
            · exact hfree (hgroups.existing ▸ h)
            · rw [hrefusal] at h
              cases h
          · exact ite_eq_or_eq _ _ _
          · exact List.mem_append_right _ (List.mem_singleton.mpr rfl)

theorem importNew_cases (running : Running) (check : SourceCheck σ) :
    Quiet engine running check (importNew engine running check) ∨
      Made engine running check (importNew engine running check) := by
  unfold importNew
  cases htranslate : engine.translateCheck check with
  | unsupported detail =>
    refine .inl ⟨.refl running, ?_, rfl, .inr ?_⟩
    · rw [quietOutcome, htranslate]
      rfl
    · rw [Blocked, htranslate]
      trivial
  | build raw notes refusals =>
    have hgroups := inGroup_spec engine running check.groupPath
    have hquiet : quietOutcome engine check = .skipped := by rw [quietOutcome, htranslate]
    generalize inGroup engine running check.groupPath = grouped at hgroups ⊢
    obtain ⟨between, parentId, told⟩ := grouped
    dsimp only at hgroups ⊢
    cases hparse : engine.safeParse raw with
    | error issues =>
      dsimp only
      refine .inl ⟨hgroups, hquiet.symm, rfl, .inr ?_⟩
      simp [Blocked, htranslate, hparse]
    | ok input =>
      dsimp only
      split
      · rename_i hrefusals
        refine .inl ⟨hgroups, hquiet.symm, rfl, .inr ?_⟩
        simp [Blocked, htranslate, hparse, hrefusals]
      · rename_i hrefusals
        exact storeCheck_cases htranslate hparse (not_not.mp hrefusals) hgroups parentId _

theorem Made.imported (h : Made engine running check result) : ∃ monitor,
      importedMonitor engine result.1.monitors check.sourceId = some monitor ∧
        result.2.monitorId = some monitor.id := by
  obtain ⟨between, monitor, key, -, -, hmonitors, -, -, hsource, hsourceId, hid⟩ := h.made
  refine ⟨monitor, ?_, hid⟩
  rw [hmonitors, importedMonitor, List.find?_cons_of_pos (by simp [hsource, hsourceId])]

/-- No other source id leads to another monitor than before. -/
theorem Made.kept (h : Made engine running check result) {sourceId : String} {monitor : Monitor}
    (hmonitor : importedMonitor engine running.monitors sourceId = some monitor) :
    importedMonitor engine result.1.monitors sourceId = some monitor := by
  obtain ⟨between, made, key, hgroups, hnone, hmonitors, -, -, hsource, hsourceId, -⟩ := h.made
  rw [hmonitors, importedMonitor]
  rw [← hgroups.imported] at hmonitor
  by_cases hsame : engine.sourceKey check.sourceId = engine.sourceKey sourceId
  · rw [importedMonitor, hsame] at hnone
    rw [importedMonitor, hnone] at hmonitor
    cases hmonitor
  · rw [List.find?_cons_of_neg (by simp [hsourceId, hsame])]
    exact hmonitor

theorem Made.loaded (h : Made engine running check result) (hloaded : Loaded engine running) :
    Loaded engine result.1 := by
  obtain ⟨between, monitor, key, hgroups, -, hmonitors, hexisting, hkey, -⟩ := h.made
  intro other hother
  have hrow : loadExisting engine result.1.monitors =
      rowKeys engine monitor ++ loadExisting engine between.monitors := by
    rw [hmonitors]
    rfl
  rw [hrow, lookup_append_isSome]
  rw [hexisting, ← List.singleton_append, lookup_append_isSome] at hother
  rcases hother with hother | hother
  · left
    have hsame : other = key := by
      by_contra hne
      rw [List.lookup_cons, beq_false_of_ne hne] at hother
      cases hother
    rw [hsame]
    exact lookup_isSome_of_mem hkey
  · exact .inr (hgroups.loaded hloaded other hother)

theorem Quiet.kept (h : Quiet engine running check result) (sourceId : String) :
    importedMonitor engine result.1.monitors sourceId =
      importedMonitor engine running.monitors sourceId :=
  h.groups.imported sourceId

variable (engine) in
/-- A check that an earlier run imported is passed over; of any other, nothing is made or a monitor
is. -/
theorem importCheck_cases (imported : String → Option Monitor) (running : Running)
    (check : SourceCheck σ) :
    ((imported check.sourceId).isSome = true ∧
      (importCheck engine imported running check).1 = running ∧
      (importCheck engine imported running check).2.outcome = .skipped ∧
      (importCheck engine imported running check).2.monitorId = none) ∨
    (imported check.sourceId = none ∧
      (Quiet engine running check (importCheck engine imported running check) ∨
        Made engine running check (importCheck engine imported running check))) := by
  unfold importCheck
  cases himported : imported check.sourceId with
  | some already => exact .inl ⟨rfl, rfl, rfl, rfl⟩
  | none => exact .inr ⟨rfl, importNew_cases running check⟩

variable (engine) in
theorem importCheck_entry (imported : String → Option Monitor) (running : Running)
    (check : SourceCheck σ) :
    (importCheck engine imported running check).2.kind = .monitor ∧
      (importCheck engine imported running check).2.sourceId = check.sourceId := by
  unfold importCheck importNew storeCheck
  split
  · exact ⟨rfl, rfl⟩
  · split
    · exact ⟨rfl, rfl⟩
    · dsimp only
      split
      · exact ⟨rfl, rfl⟩
      · split
        · exact ⟨rfl, rfl⟩
        · split
          · exact ⟨rfl, rfl⟩
          · split
            · exact ⟨rfl, rfl⟩
            · exact ⟨rfl, rfl⟩

/-! ### The loop over the checks -/

/-- The check whose entry stands for the source id. -/
def lastCheck (checks : List (SourceCheck σ)) (sourceId : String) : Option (SourceCheck σ) :=
  checks.reverse.find? fun check => check.sourceId = sourceId

theorem lastCheck_concat (checks : List (SourceCheck σ)) (check : SourceCheck σ)
    (sourceId : String) : lastCheck (checks ++ [check]) sourceId =
      if check.sourceId = sourceId then some check else lastCheck checks sourceId := by
  rw [lastCheck, List.reverse_append, List.reverse_singleton, List.singleton_append]
  by_cases h : check.sourceId = sourceId
  · rw [List.find?_cons_of_pos (by simpa using h), if_pos h]
  · rw [List.find?_cons_of_neg (by simpa using h), if_neg h]
    rfl

theorem lastCheck_isSome_iff {checks : List (SourceCheck σ)} {sourceId : String} :
    (lastCheck checks sourceId).isSome = true ↔ ∃ check ∈ checks, check.sourceId = sourceId := by
  rw [lastCheck, List.find?_isSome]
  simp

theorem importChecks_concat (imported : String → Option Monitor) (running : Running)
    (checks : List (SourceCheck σ)) (check : SourceCheck σ) :
    importChecks engine imported running (checks ++ [check]) =
      ((importCheck engine imported (importChecks engine imported running checks).1 check).1,
        (check.sourceId,
          (importCheck engine imported (importChecks engine imported running checks).1 check).2) ::
          (importChecks engine imported running checks).2) := by
  rw [importChecks, List.foldl_append]
  rfl

/-- What the entry of the last check with a source id says, when the rows are these. -/
structure Told (engine : Engine σ ρ) (monitors : List Monitor) (check : SourceCheck σ)
    (entry : ReportEntry) : Prop where
  kind : entry.kind = .monitor
  sourceId : entry.sourceId = check.sourceId
  quiet : importedMonitor engine monitors check.sourceId = none →
    entry.outcome = quietOutcome engine check
  made : entry.outcome = .imported ∨ entry.outcome = .transformed →
    (importedMonitor engine monitors check.sourceId).isSome = true
  monitorId : ∀ id, entry.monitorId = some id →
    (importedMonitor engine monitors check.sourceId).map (·.id) = some id

theorem quietOutcome_ne (check : SourceCheck σ) :
    ¬(quietOutcome engine check = .imported ∨ quietOutcome engine check = .transformed) := by
  unfold quietOutcome
  split
  · simp
  · simp

theorem Told.mono {monitors monitors' : List Monitor} {entry : ReportEntry}
    (h : Told engine monitors check entry)
    (hkept : ∀ monitor, importedMonitor engine monitors check.sourceId = some monitor →
      importedMonitor engine monitors' check.sourceId = some monitor) :
    Told engine monitors' check entry := by
  have hsome : (importedMonitor engine monitors check.sourceId).isSome = true →
      (importedMonitor engine monitors' check.sourceId).isSome = true := by
    intro hfound
    obtain ⟨monitor, hmonitor⟩ := Option.isSome_iff_exists.mp hfound
    rw [hkept monitor hmonitor]
    rfl
  refine ⟨h.kind, h.sourceId, fun hnone => h.quiet ?_, fun hmade => hsome (h.made hmade),
    fun id hid => ?_⟩
  · rw [← Option.not_isSome_iff_eq_none] at hnone ⊢
    exact mt hsome hnone
  · obtain ⟨monitor, hmonitor, hid⟩ := Option.map_eq_some_iff.mp (h.monitorId id hid)
    rw [hkept monitor hmonitor]
    exact congrArg some hid

/-- What the loop has done after the checks. -/
structure Looped (engine : Engine σ ρ) (running : Running) (checks : List (SourceCheck σ))
    (result : Running × List (String × ReportEntry)) : Prop where
  kept : ∀ sourceId monitor, importedMonitor engine running.monitors sourceId = some monitor →
    importedMonitor engine result.1.monitors sourceId = some monitor
  keys : ∀ key, (running.existing.lookup key).isSome = true →
    (result.1.existing.lookup key).isSome = true
  loaded : Loaded engine running → Loaded engine result.1
  settled : ∀ check ∈ checks, Settled engine result.1.monitors result.1.existing check
  told : ∀ sourceId, (result.2.lookup sourceId = none ∧ lastCheck checks sourceId = none) ∨
    ∃ check entry, lastCheck checks sourceId = some check ∧ check.sourceId = sourceId ∧
      result.2.lookup sourceId = some entry ∧ Told engine result.1.monitors check entry

theorem Settled.mono {monitors monitors' : List Monitor}
    {existing existing' : List (List String × ℕ)}
    (hkept : ∀ sourceId monitor, importedMonitor engine monitors sourceId = some monitor →
      importedMonitor engine monitors' sourceId = some monitor)
    (hkeys : ∀ key, (existing.lookup key).isSome = true → (existing'.lookup key).isSome = true)
    (h : Settled engine monitors existing check) : Settled engine monitors' existing' check := by
  rcases h with h | h
  · obtain ⟨monitor, hmonitor⟩ := Option.isSome_iff_exists.mp h
    left
    rw [hkept _ _ hmonitor]
    rfl
  · exact .inr (h.mono hkeys)

variable (engine) in
/-- What one check does to the rows and keys of a loop, and what its entry says. -/
theorem importCheck_spec (start running : Running) (check : SourceCheck σ)
    (hstart : ∀ sourceId monitor, importedMonitor engine start.monitors sourceId = some monitor →
      importedMonitor engine running.monitors sourceId = some monitor) :
    let result := importCheck engine (importedMonitor engine start.monitors) running check
    (∀ sourceId monitor, importedMonitor engine running.monitors sourceId = some monitor →
      importedMonitor engine result.1.monitors sourceId = some monitor) ∧
    (∀ key, (running.existing.lookup key).isSome = true →
      (result.1.existing.lookup key).isSome = true) ∧
    (Loaded engine running → Loaded engine result.1) ∧
    Settled engine result.1.monitors result.1.existing check ∧
    Told engine result.1.monitors check result.2 := by
  intro result
  obtain ⟨hkind, hsourceId⟩ :=
    importCheck_entry engine (importedMonitor engine start.monitors) running check
  rcases importCheck_cases engine (importedMonitor engine start.monitors) running check with
    ⟨himported, hrunning, houtcome, hid⟩ | ⟨-, hquiet | hmade⟩
  · obtain ⟨monitor, hmonitor⟩ := Option.isSome_iff_exists.mp himported
    have hfound : importedMonitor engine result.1.monitors check.sourceId = some monitor := by
      rw [hrunning]
      exact hstart _ _ hmonitor
    refine ⟨fun _ _ h => by rw [hrunning]; exact h, fun _ h => by rw [hrunning]; exact h,
      fun h => by rw [hrunning]; exact h, .inl (by rw [hfound]; rfl),
      ⟨hkind, hsourceId, fun hnone => ?_, fun _ => by rw [hfound]; rfl, fun id h => ?_⟩⟩
    · rw [hfound] at hnone
      cases hnone
    · rw [hid] at h
      cases h
  · refine ⟨fun sourceId _ h => (hquiet.kept sourceId).trans h,
      fun key h => by rw [hquiet.groups.existing]; exact h, hquiet.groups.loaded, hquiet.settled,
      ⟨hkind, hsourceId, fun _ => hquiet.outcome, fun h => ?_, fun id h => ?_⟩⟩
    · rw [hquiet.outcome] at h
      exact absurd h (quietOutcome_ne check)
    · rw [hquiet.monitorId] at h
      cases h
  · obtain ⟨monitor, hmonitor, hid⟩ := hmade.imported
    refine ⟨fun _ _ h => hmade.kept h, fun key h => ?_, hmade.loaded,
      .inl (by rw [hmonitor]; rfl),
      ⟨hkind, hsourceId, fun hnone => ?_, fun _ => by rw [hmonitor]; rfl, fun id h => ?_⟩⟩
    · obtain ⟨between, made, other, hgroups, -, -, hexisting, -⟩ := hmade.made
      rw [hexisting, ← List.singleton_append, lookup_append_isSome, hgroups.existing]
      exact .inr h
    · rw [hmonitor] at hnone
      cases hnone
    · rw [hmonitor, Option.map_some, ← hid, h]

theorem importChecks_spec (start : Running) (checks : List (SourceCheck σ)) :
    Looped engine start checks
      (importChecks engine (importedMonitor engine start.monitors) start checks) := by
  induction checks using List.reverseRecOn with
  | nil => exact ⟨fun _ _ h => h, fun _ h => h, fun h => h, by simp, fun _ => .inl ⟨rfl, rfl⟩⟩
  | append_singleton checks check ih =>
    obtain ⟨hkept, hkeys, hloaded, hsettled, htold⟩ := importCheck_spec engine start
      (importChecks engine (importedMonitor engine start.monitors) start checks).1 check ih.kept
    rw [importChecks_concat]
    refine ⟨fun _ _ h => hkept _ _ (ih.kept _ _ h), fun _ h => hkeys _ (ih.keys _ h),
      fun h => hloaded (ih.loaded h), fun other hother => ?_, fun sourceId => ?_⟩
    · rcases List.mem_append.mp hother with hother | hother
      · exact (ih.settled other hother).mono hkept hkeys
      · rw [List.mem_singleton.mp hother]
        exact hsettled
    · rw [lastCheck_concat]
      by_cases hsame : check.sourceId = sourceId
      · rw [if_pos hsame]
        exact .inr ⟨check, _, rfl, hsame, by rw [← hsame]; exact List.lookup_cons_self, htold⟩
      · have hne : (sourceId == check.sourceId) = false := beq_false_of_ne (Ne.symm hsame)
        rw [if_neg hsame, List.lookup_cons, hne]
        rcases ih.told sourceId with hnone | ⟨other, entry, hlast, hother, hentry, htold'⟩
        · exact .inl hnone
        · exact .inr ⟨other, entry, hlast, hother, hentry,
            htold'.mono fun monitor hmonitor => hkept _ _ hmonitor⟩

theorem importChecks_settled (start : Running) (checks : List (SourceCheck σ))
    (hsettled : ∀ check ∈ checks, Settled engine start.monitors start.existing check) :
    let result := importChecks engine (importedMonitor engine start.monitors) start checks
    GroupsAdded start result.1 ∧
    ∀ sourceId check, lastCheck checks sourceId = some check → ∃ entry,
      result.2.lookup sourceId = some entry ∧ entry.monitorId = none ∧
      entry.outcome = if (importedMonitor engine start.monitors sourceId).isSome then .skipped
        else quietOutcome engine check := by
  induction checks using List.reverseRecOn with
  | nil => exact ⟨.refl start, nofun⟩
  | append_singleton checks check ih =>
    obtain ⟨hgroups, hentries⟩ :=
      ih fun other hother => hsettled other (List.mem_append_left _ hother)
    have hcheck := hsettled check (List.mem_append_right _ (List.mem_singleton.mpr rfl))
    have hstep : GroupsAdded start (importCheck engine (importedMonitor engine start.monitors)
          (importChecks engine (importedMonitor engine start.monitors) start checks).1 check).1 ∧
        (importCheck engine (importedMonitor engine start.monitors)
          (importChecks engine (importedMonitor engine start.monitors) start checks).1
            check).2.monitorId = none ∧
        (importCheck engine (importedMonitor engine start.monitors)
          (importChecks engine (importedMonitor engine start.monitors) start checks).1
            check).2.outcome =
          if (importedMonitor engine start.monitors check.sourceId).isSome then .skipped
          else quietOutcome engine check := by
      rcases importCheck_cases engine (importedMonitor engine start.monitors)
        (importChecks engine (importedMonitor engine start.monitors) start checks).1 check with
        ⟨himported, hrunning, houtcome, hid⟩ | ⟨hnone, hquiet | hmade⟩
      · exact ⟨by rw [hrunning]; exact hgroups, hid, by rw [if_pos himported]; exact houtcome⟩
      · refine ⟨hgroups.trans hquiet.groups, hquiet.monitorId, ?_⟩
        rw [hnone]
        exact hquiet.outcome
      · refine absurd ?_ hmade.open_
        rw [hgroups.existing]
        refine hcheck.resolve_left fun h => ?_
        rw [hnone] at h
        cases h
    obtain ⟨hgroups', hid, houtcome⟩ := hstep
    intro result
    refine ⟨?_, fun sourceId other hlast => ?_⟩
    · show GroupsAdded start (importChecks engine _ start (checks ++ [check])).1
      rw [importChecks_concat]
      exact hgroups'
    · show ∃ entry, (importChecks engine _ start (checks ++ [check])).2.lookup sourceId = _ ∧ _
      rw [importChecks_concat]
      rw [lastCheck_concat] at hlast
      by_cases hsame : check.sourceId = sourceId
      · rw [if_pos hsame] at hlast
        cases hlast
        subst hsame
        exact ⟨_, List.lookup_cons_self, hid, houtcome⟩
      · rw [if_neg hsame] at hlast
        obtain ⟨entry, hentry, hrest⟩ := hentries sourceId other hlast
        have hne : (sourceId == check.sourceId) = false := beq_false_of_ne (Ne.symm hsame)
        exact ⟨entry, by rw [List.lookup_cons, hne]; exact hentry, hrest⟩

end

/-! ### The mapping rows -/

/-- What a row of a record keeps when the record is mapped again as it was. -/
def Absorbed (m : Mapped) (row : Mapping) : Prop :=
  m.monitorId.or row.monitorId = row.monitorId ∧ (row.compared || m.compared) = row.compared ∧
    row.failureWindowSeconds.or m.failureWindowSeconds = row.failureWindowSeconds

/-- All that the comparison reads of a row but the outcome and the texts. -/
def SameFrame (row row' : Mapping) : Prop :=
  row'.sourceId = row.sourceId ∧ row'.monitorId = row.monitorId ∧ row'.compared = row.compared ∧
    row'.failureWindowSeconds = row.failureWindowSeconds

variable {row row' : Mapping}

theorem Absorbed.frame {m : Mapped} (h : Absorbed m row) (hsame : SameFrame row row') :
    Absorbed m row' := by
  obtain ⟨-, hid, hcompared, hwindow⟩ := hsame
  rw [Absorbed, hid, hcompared, hwindow]
  exact h

/-- Records with one source id are mapped to one monitor with one outcome. -/
def Consistent (ms : List Mapped) : Prop :=
  ∀ m ∈ ms, ∀ m' ∈ ms, m.sourceId = m'.sourceId → m.outcome = m'.outcome ∧
    m.monitorId = m'.monitorId ∧ m.failureWindowSeconds = m'.failureWindowSeconds

/-- The row says of its record what `m` does. -/
def Reflects (m : Mapped) (row : Mapping) : Prop :=
  row.sourceId = m.sourceId → row.outcome = m.outcome ∧ Absorbed m row

theorem or_or_self {α : Type} (x y : Option α) : (x.or y).or y = x.or y := by
  cases x <;> cases y <;> rfl

theorem or_self_or {α : Type} (x y : Option α) : x.or (x.or y) = x.or y := by
  cases x <;> cases y <;> rfl

theorem reflects_row (m : Mapped) : Reflects m m.row := by
  refine fun _ => ⟨rfl, ?_, Bool.or_self _, ?_⟩
  · exact Option.or_self
  · exact Option.or_self

theorem reflects_onto (m : Mapped) (row : Mapping) : Reflects m (m.onto row) :=
  fun _ => ⟨rfl, or_self_or _ _, by simp [Mapped.onto], or_or_self _ _⟩

/-- A row that says what one record of a source id does still says it after the next. -/
theorem Reflects.onto {m m' : Mapped} (hid : m'.sourceId = m.sourceId)
    (hagree : m.outcome = m'.outcome ∧ m.monitorId = m'.monitorId ∧ m.failureWindowSeconds =
      m'.failureWindowSeconds) (hrow : row.sourceId = m.sourceId) (h : Reflects m' row) :
    Reflects m' (m.onto row) := by
  obtain ⟨-, -, hcompared, -⟩ := h (hrow.trans hid.symm)
  obtain ⟨houtcome, hmonitor, hwindow⟩ := hagree
  refine fun _ => ⟨houtcome, ?_, ?_, ?_⟩
  · show m'.monitorId.or (m.monitorId.or row.monitorId) = m.monitorId.or row.monitorId
    rw [hmonitor, or_self_or]
  · show ((row.compared || m.compared) || m'.compared) = (row.compared || m.compared)
    rw [Bool.or_right_comm, hcompared]
  · show (row.failureWindowSeconds.or m.failureWindowSeconds).or m'.failureWindowSeconds =
      row.failureWindowSeconds.or m.failureWindowSeconds
    rw [hwindow, or_or_self]

theorem write_reflects_self (rows : List Mapping) (m : Mapped) :
    ∀ row ∈ Mapped.write rows m, Reflects m row := by
  intro row hrow
  rcases mem_upsert hrow with ⟨rfl, -⟩ | ⟨old, -, rfl⟩
  · exact reflects_row m
  · split
    · exact reflects_onto m old
    · rename_i hne
      exact fun hid => absurd hid hne

theorem write_reflects {rows : List Mapping} {m m' : Mapped}
    (hagree : m.sourceId = m'.sourceId → m.outcome = m'.outcome ∧ m.monitorId = m'.monitorId ∧
      m.failureWindowSeconds = m'.failureWindowSeconds)
    (hpresent : ∃ row ∈ rows, row.sourceId = m'.sourceId)
    (h : ∀ row ∈ rows, Reflects m' row) : ∀ row ∈ Mapped.write rows m, Reflects m' row := by
  intro row hrow
  by_cases hid : m.sourceId = m'.sourceId
  · rw [Mapped.write, upsert_of_mem (hid.symm ▸ hpresent)] at hrow
    obtain ⟨old, hold, rfl⟩ := List.mem_map.mp hrow
    split
    · rename_i hsame
      exact (h old hold).onto hid.symm (hagree hid) hsame
    · exact h old hold
  · rcases mem_upsert hrow with ⟨rfl, -⟩ | ⟨old, hold, rfl⟩
    · exact fun hsame => absurd hsame hid
    · split
      · rename_i hsame
        exact fun hother => absurd (hsame.symm.trans hother) hid
      · exact h old hold

theorem exists_write_of_mem {rows : List Mapping} (m : Mapped) {sourceId : String}
    (h : ∃ row ∈ rows, row.sourceId = sourceId) :
    ∃ row ∈ Mapped.write rows m, row.sourceId = sourceId := by
  refine exists_upsert_of_mem (fun _ hid => ?_) h
  exact hid

/-- After the writes of a run, every row says what its records do. -/
theorem foldl_write_reflects (rows : List Mapping) (ms : List Mapped) (h : Consistent ms) :
    ∀ m ∈ ms, (∃ row ∈ ms.foldl Mapped.write rows, row.sourceId = m.sourceId) ∧
      ∀ row ∈ ms.foldl Mapped.write rows, Reflects m row := by
  induction ms using List.reverseRecOn with
  | nil => simp
  | append_singleton ms last ih =>
    have hbefore := ih fun m hm m' hm' =>
      h m (List.mem_append_left _ hm) m' (List.mem_append_left _ hm')
    intro m hm
    rw [List.foldl_append, List.foldl_cons, List.foldl_nil]
    rcases List.mem_append.mp hm with hm | hm
    · obtain ⟨hpresent, hreflects⟩ := hbefore m hm
      refine ⟨exists_write_of_mem last hpresent, write_reflects ?_ hpresent hreflects⟩
      exact h last (List.mem_append_right _ (List.mem_singleton.mpr rfl)) m
        (List.mem_append_left _ hm)
    · rw [List.mem_singleton.mp hm]
      exact ⟨exists_upsert rfl fun _ h => h, write_reflects_self _ last⟩

/-- Writes that the rows have absorbed change nothing but outcomes and texts. -/
theorem foldl_write_absorbed (outcomeOf : String → Outcome) (ms : List Mapped)
    (houtcome : ∀ m ∈ ms, m.outcome = outcomeOf m.sourceId) (rows : List Mapping)
    (hpresent : ∀ m ∈ ms, ∃ row ∈ rows, row.sourceId = m.sourceId)
    (habsorbed : ∀ m ∈ ms, ∀ row ∈ rows, row.sourceId = m.sourceId → Absorbed m row) :
    ∃ f : Mapping → Mapping, ms.foldl Mapped.write rows = rows.map f ∧ ∀ row ∈ rows,
      SameFrame row (f row) ∧ (f row).outcome =
        if ms.any fun m => m.sourceId = row.sourceId then outcomeOf row.sourceId
        else row.outcome := by
  induction ms generalizing rows with
  | nil => exact ⟨id, (List.map_id rows).symm, fun row _ => ⟨⟨rfl, rfl, rfl, rfl⟩, rfl⟩⟩
  | cons m ms ih =>
    let g : Mapping → Mapping := fun row => if row.sourceId = m.sourceId then m.onto row else row
    have hg : ∀ row ∈ rows, SameFrame row (g row) := by
      intro row hrow
      dsimp only [g]
      split
      · rename_i hid
        exact ⟨rfl, habsorbed m List.mem_cons_self row hrow hid⟩
      · exact ⟨rfl, rfl, rfl, rfl⟩
    have hwrite : Mapped.write rows m = rows.map g := upsert_of_mem (hpresent m List.mem_cons_self)
    have hpresent' : ∀ m' ∈ ms, ∃ row ∈ rows.map g, row.sourceId = m'.sourceId := by
      intro m' hm'
      obtain ⟨row, hrow, hid⟩ := hpresent m' (List.mem_cons_of_mem _ hm')
      exact ⟨g row, List.mem_map_of_mem hrow, (hg row hrow).1.trans hid⟩
    have habsorbed' : ∀ m' ∈ ms, ∀ row ∈ rows.map g, row.sourceId = m'.sourceId →
        Absorbed m' row := by
      intro m' hm' row hrow hid
      obtain ⟨old, hold, rfl⟩ := List.mem_map.mp hrow
      have hframe := hg old hold
      exact (habsorbed m' (List.mem_cons_of_mem _ hm') old hold (hframe.1.symm.trans hid)).frame
        hframe
    obtain ⟨f, hf, hrows⟩ := ih (fun m hm => houtcome m (List.mem_cons_of_mem _ hm)) (rows.map g)
      hpresent' habsorbed'
    refine ⟨f ∘ g, ?_, fun row hrow => ?_⟩
    · rw [List.foldl_cons, hwrite, hf, List.map_map]
    · obtain ⟨⟨hid, hmonitor, hcompared, hwindow⟩, hout⟩ := hrows (g row) (List.mem_map_of_mem hrow)
      obtain ⟨hid', hmonitor', hcompared', hwindow'⟩ := hg row hrow
      refine ⟨⟨hid.trans hid', hmonitor.trans hmonitor', hcompared.trans hcompared',
        hwindow.trans hwindow'⟩, ?_⟩
      rw [Function.comp_apply, hout, hid', List.any_cons]
      by_cases hsame : row.sourceId = m.sourceId
      · have hnow : (g row).outcome = outcomeOf row.sourceId := by
          dsimp only [g]
          rw [if_pos hsame, hsame]
          exact houtcome m List.mem_cons_self
        rw [hnow, ite_self, if_pos (by simp [hsame])]
      · have hnow : (g row).outcome = row.outcome := congrArg _ (if_neg hsame)
        rw [hnow, decide_eq_false (Ne.symm hsame), Bool.false_or]

/-! ### A run -/

section Run

variable {σ ρ : Type} (engine : Engine σ ρ) (comparableTypes : String → Bool) (bridgeId : ℕ)
  (checks : List (SourceCheck σ))

/-- The tables after a run that is no dry run. -/
def run (store : Store) : Store :=
  (runBridgeImport engine comparableTypes bridgeId false store checks).1

/-- The loop of a run. -/
def loop (store : Store) : Running × List (String × ReportEntry) :=
  importChecks engine (importedMonitor engine store.monitors) (store.running engine) checks

/-- The outcome that a run tells for a source id. -/
def outcomeOf (store : Store) (sourceId : String) : Outcome :=
  (((loop engine checks store).2.lookup sourceId).map (·.outcome)).getD .skipped

def monitorIdOf (monitors : List Monitor) (sourceId : String) : Option ℕ :=
  (importedMonitor engine monitors sourceId).map (·.id)

/-- What a run maps a check to, as far as the comparison reads it. -/
structure IsMapped (monitors : List Monitor) (outcome : Outcome) (check : SourceCheck σ)
    (m : Mapped) : Prop where
  sourceId : m.sourceId = check.sourceId
  monitorId : m.monitorId = monitorIdOf engine monitors check.sourceId
  compared : m.compared =
    ((monitorIdOf engine monitors check.sourceId).isSome && comparableTypes check.sourceType)
  failureWindowSeconds : m.failureWindowSeconds =
    (monitorIdOf engine monitors check.sourceId).bind (failureWindowOf monitors)
  outcome : m.outcome = outcome

variable {engine comparableTypes bridgeId checks}

variable (engine checks) in
theorem looped (store : Store) :
    Looped engine (store.running engine) checks (loop engine checks store) :=
  importChecks_spec (store.running engine) checks

variable {check : SourceCheck σ}

variable (engine) in
theorem entry_of_mem (store : Store) (h : check ∈ checks) :
    ∃ last entry, lastCheck checks check.sourceId = some last ∧ last.sourceId = check.sourceId ∧
      (loop engine checks store).2.lookup check.sourceId = some entry ∧
      Told engine (loop engine checks store).1.monitors last entry := by
  have hlast : (lastCheck checks check.sourceId).isSome = true :=
    lastCheck_isSome_iff.mpr ⟨check, h, rfl⟩
  rcases (looped engine checks store).told check.sourceId with ⟨-, hnone⟩ | hfound
  · rw [hnone] at hlast
    cases hlast
  · exact hfound

theorem entryFor_eq (store : Store) (h : check ∈ checks) :
    entryFor (importSnapshot engine store checks).2 check.sourceId =
      (loop engine checks store).2.lookup check.sourceId := by
  obtain ⟨last, entry, -, hlast, hentry, htold⟩ := entry_of_mem engine store h
  have hmem : entry ∈ checks.filterMap fun check =>
      (loop engine checks store).2.lookup check.sourceId :=
    List.mem_filterMap.mpr ⟨check, h, hentry⟩
  have hsome : ((checks.filterMap fun check =>
      (loop engine checks store).2.lookup check.sourceId).find? fun entry =>
        entry.kind = .monitor && entry.sourceId = check.sourceId).isSome = true :=
    List.find?_isSome.mpr ⟨entry, hmem, by simp [htold.kind, htold.sourceId, hlast]⟩
  obtain ⟨found, hfound⟩ := Option.isSome_iff_exists.mp hsome
  have hsame : (loop engine checks store).2.lookup check.sourceId = some found := by
    obtain ⟨other, hother, hotherEntry⟩ := List.mem_filterMap.mp (List.mem_of_find?_eq_some hfound)
    obtain ⟨_, other', -, hlast', hentry', htold'⟩ := entry_of_mem engine store hother
    rw [hotherEntry] at hentry'
    cases hentry'
    have hid : found.sourceId = check.sourceId := by
      have := List.find?_some hfound
      simp only [Bool.and_eq_true, decide_eq_true_eq] at this
      exact this.2
    rw [htold'.sourceId, hlast'] at hid
    rw [← hid]
    exact hotherEntry
  rw [hsame]
  show List.find? _ (_ ++ _) = _
  rw [List.find?_append]
  exact (congrArg (Option.or · _) hfound).trans Option.some_or

/-! The monitors after a run are those of its loop, some of them in shadow. -/

variable (engine comparableTypes bridgeId checks) in
theorem monitors_run (store : Store) : ∃ createdIds,
    (run engine comparableTypes bridgeId checks store).monitors =
      (loop engine checks store).1.monitors.map (shadow bridgeId createdIds) :=
  ⟨_, rfl⟩

/-- A monitor in shadow is as it was, to whatever does not read the shadow. -/
theorem comp_shadow {α : Type} (f : Monitor → α) (createdIds : List ℕ)
    (hf : ∀ row shadowBridgeId, f { row with shadowBridgeId } = f row) :
    f ∘ shadow bridgeId createdIds = f := by
  funext row
  show f (shadow bridgeId createdIds row) = f row
  unfold shadow
  split
  · apply hf
  · rfl

theorem importedMonitor_shadow (createdIds : List ℕ) (monitors : List Monitor) (sourceId : String) :
    importedMonitor engine (monitors.map (shadow bridgeId createdIds)) sourceId =
      (importedMonitor engine monitors sourceId).map (shadow bridgeId createdIds) := by
  rw [importedMonitor, List.find?_map, comp_shadow _ _ fun _ _ => rfl]
  rfl

theorem loadExisting_shadow (createdIds : List ℕ) (monitors : List Monitor) :
    loadExisting engine (monitors.map (shadow bridgeId createdIds)) =
      loadExisting engine monitors := by
  rw [loadExisting, List.flatMap_map]
  apply congrArg (fun f => List.flatMap f monitors)
  exact comp_shadow (rowKeys engine) createdIds fun _ _ => rfl

theorem monitorIdOf_run (store : Store) (sourceId : String) :
    monitorIdOf engine (run engine comparableTypes bridgeId checks store).monitors sourceId =
      monitorIdOf engine (loop engine checks store).1.monitors sourceId := by
  obtain ⟨createdIds, hmonitors⟩ := monitors_run engine comparableTypes bridgeId checks store
  rw [monitorIdOf, hmonitors, importedMonitor_shadow, Option.map_map,
    comp_shadow _ _ fun _ _ => rfl]
  rfl

theorem settled_run (store : Store) : ∀ check ∈ checks,
    Settled engine (run engine comparableTypes bridgeId checks store).monitors
      (loadExisting engine (run engine comparableTypes bridgeId checks store).monitors) check := by
  intro check hcheck
  obtain ⟨createdIds, hmonitors⟩ := monitors_run engine comparableTypes bridgeId checks store
  have hloaded := (looped engine checks store).loaded fun key h => h
  rw [hmonitors, loadExisting_shadow]
  rcases (looped engine checks store).settled check hcheck with h | h
  · left
    rw [importedMonitor_shadow, Option.isSome_map]
    exact h
  · exact .inr (h.mono hloaded)

theorem mappings_eq (store : Store) : (run engine comparableTypes bridgeId checks store).mappings =
    (checks.filterMap fun check => (entryFor (importSnapshot engine store checks).2 check.sourceId).map
      (mapped engine comparableTypes (run engine comparableTypes bridgeId checks store).monitors
        check)).foldl Mapped.write store.mappings :=
  rfl

variable (engine comparableTypes bridgeId checks) in
theorem mappings_run (store : Store) : ∃ ms : List Mapped,
    (run engine comparableTypes bridgeId checks store).mappings =
      ms.foldl Mapped.write store.mappings ∧
    (∀ check ∈ checks, ∃ m ∈ ms, IsMapped engine comparableTypes
      (run engine comparableTypes bridgeId checks store).monitors
      (outcomeOf engine checks store check.sourceId) check m) ∧
    ∀ m ∈ ms, ∃ check ∈ checks, IsMapped engine comparableTypes
      (run engine comparableTypes bridgeId checks store).monitors
      (outcomeOf engine checks store check.sourceId) check m := by
  have hmapped : ∀ check ∈ checks, ∃ entry,
      entryFor (importSnapshot engine store checks).2 check.sourceId = some entry ∧
      IsMapped engine comparableTypes (run engine comparableTypes bridgeId checks store).monitors
        (outcomeOf engine checks store check.sourceId) check
        (mapped engine comparableTypes (run engine comparableTypes bridgeId checks store).monitors
          check entry) := by
    intro check hcheck
    obtain ⟨last, entry, -, hlast, hentry, htold⟩ := entry_of_mem engine store hcheck
    refine ⟨entry, (entryFor_eq store hcheck).trans hentry, ?_⟩
    have hid : (mapped engine comparableTypes
        (run engine comparableTypes bridgeId checks store).monitors check entry).monitorId =
        monitorIdOf engine (run engine comparableTypes bridgeId checks store).monitors
          check.sourceId := by
      show entry.monitorId.or (monitorIdOf engine _ check.sourceId) = _
      cases hmade : entry.monitorId with
      | none => exact Option.none_or
      | some id =>
        rw [Option.some_or, monitorIdOf_run, ← hlast]
        exact (htold.monitorId id hmade).symm
    refine ⟨rfl, hid, ?_, ?_, ?_⟩
    · rw [← hid]
      rfl
    · rw [← hid]
      rfl
    · rw [outcomeOf, hentry]
      rfl
  refine ⟨_, mappings_eq store, fun check hcheck => ?_, fun m hm => ?_⟩
  · obtain ⟨entry, hentry, hm⟩ := hmapped check hcheck
    refine ⟨_, List.mem_filterMap.mpr ⟨check, hcheck, ?_⟩, hm⟩
    rw [hentry]
    rfl
  · obtain ⟨check, hcheck, hentryMapped⟩ := List.mem_filterMap.mp hm
    obtain ⟨entry, hentry, hm'⟩ := hmapped check hcheck
    rw [hentry] at hentryMapped
    cases hentryMapped
    exact ⟨check, hcheck, hm'⟩

/-! ### A run over settled records -/

section Rerun

variable {store : Store} (hsettled : ∀ check ∈ checks,
  Settled engine store.monitors (loadExisting engine store.monitors) check)

include hsettled

theorem groupsAdded_loop : GroupsAdded (store.running engine) (loop engine checks store).1 :=
  (importChecks_settled (store.running engine) checks hsettled).1

theorem monitorIdOf_rerun (sourceId : String) :
    monitorIdOf engine (run engine comparableTypes bridgeId checks store).monitors sourceId =
      monitorIdOf engine store.monitors sourceId := by
  rw [monitorIdOf_run]
  exact congrArg (Option.map _) ((groupsAdded_loop hsettled).imported sourceId)

theorem failureWindowOf_rerun {id : ℕ} (hfound : ∃ row ∈ store.monitors, row.id = id) :
    failureWindowOf (run engine comparableTypes bridgeId checks store).monitors id =
      failureWindowOf store.monitors id := by
  obtain ⟨createdIds, hmonitors⟩ := monitors_run engine comparableTypes bridgeId checks store
  obtain ⟨-, groups, hgroups, -⟩ := groupsAdded_loop hsettled
  have hsome : (store.monitors.reverse.find? fun row => decide (row.id = id)).isSome = true := by
    obtain ⟨row, hrow, hrowId⟩ := hfound
    exact List.find?_isSome.mpr ⟨row, List.mem_reverse.mpr hrow, by simpa using hrowId⟩
  obtain ⟨found, hfind⟩ := Option.isSome_iff_exists.mp hsome
  have hstart : (store.running engine).monitors = store.monitors := rfl
  rw [failureWindowOf, hmonitors, hgroups, hstart, ← List.map_reverse, List.find?_map,
    comp_shadow _ _ fun _ _ => rfl, Option.map_map, comp_shadow _ _ fun _ _ => rfl, List.reverse_append, List.find?_append, hfind, Option.some_or,
    failureWindowOf, hfind]

theorem outcomeOf_rerun {check last : SourceCheck σ}
    (hlast : lastCheck checks check.sourceId = some last) :
    outcomeOf engine checks store check.sourceId =
      if (importedMonitor engine store.monitors check.sourceId).isSome then .skipped
      else quietOutcome engine last := by
  obtain ⟨entry, hentry, -, houtcome⟩ :=
    (importChecks_settled (store.running engine) checks hsettled).2 check.sourceId last hlast
  have hlookup : (loop engine checks store).2.lookup check.sourceId = some entry := hentry
  rw [outcomeOf, hlookup]
  exact houtcome

end Rerun

/-- The outcome that a row has after its record is imported again: skipped where the monitor is
there, and otherwise what it was. -/
def reimported (engine : Engine σ ρ) (monitors : List Monitor) (checks : List (SourceCheck σ))
    (row : Mapping) : Outcome :=
  if (checks.any fun check => check.sourceId = row.sourceId) &&
      (importedMonitor engine monitors row.sourceId).isSome then .skipped
  else row.outcome

theorem isSome_monitorIdOf (monitors : List Monitor) (sourceId : String) :
    (monitorIdOf engine monitors sourceId).isSome =
      (importedMonitor engine monitors sourceId).isSome :=
  Option.isSome_map

variable (engine comparableTypes bridgeId) in
theorem outcomeOf_first (store : Store) (hcheck : check ∈ checks) :
    ∃ last, lastCheck checks check.sourceId = some last ∧
      ((importedMonitor engine (run engine comparableTypes bridgeId checks store).monitors
          check.sourceId).isSome = false →
        outcomeOf engine checks store check.sourceId = quietOutcome engine last) ∧
      (outcomeOf engine checks store check.sourceId = .imported ∨
          outcomeOf engine checks store check.sourceId = .transformed →
        (importedMonitor engine (run engine comparableTypes bridgeId checks store).monitors
          check.sourceId).isSome = true) := by
  obtain ⟨last, entry, hlast, hid, hentry, htold⟩ := entry_of_mem engine store hcheck
  have houtcome : outcomeOf engine checks store check.sourceId = entry.outcome := by
    rw [outcomeOf, hentry]
    rfl
  rw [← isSome_monitorIdOf, monitorIdOf_run, isSome_monitorIdOf, houtcome, ← hid]
  refine ⟨last, hid ▸ hlast, fun h => htold.quiet ?_, htold.made⟩
  exact Option.isNone_iff_eq_none.mp (Option.isSome_eq_false_iff.mp h)

variable (engine comparableTypes bridgeId checks) in
/-- A second run keeps all of a row that the comparison reads, but for the outcome of a record
whose monitor is there. -/
theorem mappings_rerun (store : Store) :
    let once := run engine comparableTypes bridgeId checks store
    ∃ f : Mapping → Mapping, (run engine comparableTypes bridgeId checks once).mappings =
      once.mappings.map f ∧ ∀ row ∈ once.mappings, SameFrame row (f row) ∧
        (f row).outcome = reimported engine once.monitors checks row := by
  intro once
  have hsettled : ∀ check ∈ checks,
      Settled engine once.monitors (loadExisting engine once.monitors) check :=
    settled_run store
  obtain ⟨ms, hms, hall, hof⟩ := mappings_run engine comparableTypes bridgeId checks store
  obtain ⟨ms', hms', hall', hof'⟩ := mappings_run engine comparableTypes bridgeId checks once
  have hconsistent : Consistent ms := by
    intro m hm m' hm' hid
    obtain ⟨check, -, h⟩ := hof m hm
    obtain ⟨check', -, h'⟩ := hof m' hm'
    have hsame : check.sourceId = check'.sourceId := h.sourceId.symm.trans (hid.trans h'.sourceId)
    rw [h.outcome, h'.outcome, h.monitorId, h'.monitorId, h.failureWindowSeconds,
      h'.failureWindowSeconds, hsame]
    exact ⟨rfl, rfl, rfl⟩
  have hreflects := foldl_write_reflects store.mappings ms hconsistent
  rw [← hms] at hreflects
  have hpresent : ∀ m ∈ ms', ∃ row ∈ once.mappings, row.sourceId = m.sourceId := by
    intro m hm
    obtain ⟨check, hcheck, h⟩ := hof' m hm
    obtain ⟨m₁, hm₁, h₁⟩ := hall check hcheck
    obtain ⟨row, hrow, hid⟩ := (hreflects m₁ hm₁).1
    exact ⟨row, hrow, hid.trans (h₁.sourceId.trans h.sourceId.symm)⟩
  have habsorbed : ∀ m ∈ ms', ∀ row ∈ once.mappings, row.sourceId = m.sourceId →
      Absorbed m row := by
    intro m hm row hrow hid
    obtain ⟨check, hcheck, h⟩ := hof' m hm
    obtain ⟨m₁, hm₁, h₁⟩ := hall check hcheck
    have hsame := ((hreflects m₁ hm₁).2 row hrow
      (hid.trans (h.sourceId.trans h₁.sourceId.symm))).2
    have hmonitor : m.monitorId = m₁.monitorId := by
      rw [h.monitorId, h₁.monitorId, monitorIdOf_rerun hsettled]
    have hcompared : m.compared = m₁.compared := by
      rw [h.compared, h₁.compared, monitorIdOf_rerun hsettled]
    have hwindow : m.failureWindowSeconds = m₁.failureWindowSeconds := by
      rw [h.failureWindowSeconds, h₁.failureWindowSeconds, monitorIdOf_rerun hsettled]
      refine Option.bind_congr fun id hmade => failureWindowOf_rerun hsettled ?_
      obtain ⟨monitor, hmonitor, hmonitorId⟩ := Option.map_eq_some_iff.mp hmade
      exact ⟨monitor, List.mem_of_find?_eq_some hmonitor, hmonitorId⟩
    rw [Absorbed, hmonitor, hcompared, hwindow]
    exact hsame
  obtain ⟨f, hf, hrows⟩ := foldl_write_absorbed (outcomeOf engine checks once) ms'
    (fun m hm => by
      obtain ⟨check, -, h⟩ := hof' m hm
      rw [h.outcome, h.sourceId]) once.mappings hpresent habsorbed
  refine ⟨f, hms'.trans hf, fun row hrow => ⟨(hrows row hrow).1, ?_⟩⟩
  rw [(hrows row hrow).2, reimported]
  have hany : (ms'.any fun m => decide (m.sourceId = row.sourceId)) =
      checks.any fun check => decide (check.sourceId = row.sourceId) := by
    rw [Bool.eq_iff_iff, List.any_eq_true, List.any_eq_true]
    constructor
    · rintro ⟨m, hm, hid⟩
      obtain ⟨check, hcheck, h⟩ := hof' m hm
      exact ⟨check, hcheck, by simpa [← h.sourceId] using hid⟩
    · rintro ⟨check, hcheck, hid⟩
      obtain ⟨m, hm, h⟩ := hall' check hcheck
      exact ⟨m, hm, by simpa [h.sourceId] using hid⟩
  rw [hany]
  by_cases hchecked : (checks.any fun check => decide (check.sourceId = row.sourceId)) = true
  · obtain ⟨check, hcheck, hid⟩ := List.any_eq_true.mp hchecked
    have hid : check.sourceId = row.sourceId := by simpa using hid
    obtain ⟨m, hm, h⟩ := hall check hcheck
    obtain ⟨last, hlast, hquiet, -⟩ := outcomeOf_first engine comparableTypes bridgeId store hcheck
    rw [if_pos hchecked, hchecked, Bool.true_and, ← hid, outcomeOf_rerun hsettled hlast]
    split
    · rfl
    · rename_i hnone
      have hrow' := ((hreflects m hm).2 row hrow (hid.symm.trans h.sourceId.symm)).1
      rw [hrow', h.outcome, hquiet (Bool.eq_false_iff.mpr hnone)]
  · rw [if_neg hchecked, if_neg (by simp [hchecked])]

end Run

/-! ### The verdict -/

theorem Passes.frame {input input' : ComparisonInput} (hat : input'.at_ = input.at_)
    (hcoverage : input'.coverage = input.coverage) {evidence : Evidence}
    (hframe : SameFrame row row') (houtcome : row'.outcome = row.outcome)
    (h : Passes input (pairOf evidence row)) : Passes input' (pairOf evidence row') := by
  obtain ⟨sourceId, sourceName, sourceType, monitorId, outcome, detail, compared, window⟩ := row
  obtain ⟨sourceId', sourceName', sourceType', monitorId', outcome', detail', compared', window'⟩ :=
    row'
  obtain ⟨hid, hmonitor, hcompared, hwindow⟩ := hframe
  dsimp only at hid hmonitor hcompared hwindow houtcome
  subst hid hmonitor hcompared hwindow houtcome
  obtain ⟨himported, hmonitor, hcompared, hmissed, hextra, hsilent, hthin⟩ := h
  refine ⟨himported, hmonitor, hcompared, ?_, ?_, hsilent, ?_⟩
  · rw [hat]
    exact hmissed
  · rw [hat, hcoverage]
    exact hextra
  · have hoverlap : exactOverlapMs input' = exactOverlapMs input := by
      funext pair
      rw [exactOverlapMs, exactOverlapMs, hat, hcoverage]
    rw [hoverlap]
    exact hthin

theorem SameFrame.symm (h : SameFrame row row') : SameFrame row' row :=
  ⟨h.1.symm, h.2.1.symm, h.2.2.1.symm, h.2.2.2.symm⟩

theorem verdictOn_map (evidence : Evidence) {mappings : List Mapping} {f : Mapping → Mapping}
    (h : ∀ row ∈ mappings, SameFrame row (f row) ∧ (f row).outcome = row.outcome) :
    verdictOn evidence (mappings.map f) = verdictOn evidence mappings := by
  have hsafe : verdictOn evidence (mappings.map f) = .safe ↔ verdictOn evidence mappings = .safe := by
    rw [verdictOn, verdictOn, compareBridge_safe_iff, compareBridge_safe_iff,
      not_disqualified_iff, not_disqualified_iff]
    refine and_congr_right fun _ => ?_
    rw [List.map_map, List.forall_mem_map, List.forall_mem_map]
    refine forall₂_congr fun row hrow => ?_
    obtain ⟨hframe, houtcome⟩ := h row hrow
    constructor
    · intro hpasses
      apply Passes.frame _ _ hframe.symm houtcome.symm hpasses
      · rfl
      · rfl
    · intro hpasses
      apply Passes.frame _ _ hframe houtcome hpasses
      · rfl
      · rfl
  cases hafter : verdictOn evidence (mappings.map f) with
  | safe => exact (hsafe.mp hafter).symm
  | notSafe =>
    cases hbefore : verdictOn evidence mappings with
    | safe => exact absurd (hafter.symm.trans (hsafe.mpr hbefore)) (by decide)
    | notSafe => rfl

/-- What the claim of a row is about: the source record, its monitor, and what became of it. -/
structure Pairing where
  sourceId : String
  monitorId : Option ℕ
  outcome : Outcome

def pairing (row : Mapping) : Pairing :=
  { sourceId := row.sourceId, monitorId := row.monitorId, outcome := row.outcome }

/-- An import that is run again keeps every source id and monitor id, and every outcome but that of
a record whose monitor is there, which is skipped from then on; so each further run keeps all
pairings, and a run that keeps all pairings keeps the verdict on any evidence. -/
theorem reimport_settles {σ ρ : Type} (engine : Engine σ ρ) (comparableTypes : String → Bool)
    (bridgeId : ℕ) (checks : List (SourceCheck σ)) (store : Store) :
    let once := run engine comparableTypes bridgeId checks store
    let twice := run engine comparableTypes bridgeId checks once
    let thrice := run engine comparableTypes bridgeId checks twice
    twice.mappings.map pairing = once.mappings.map (fun row =>
      { pairing row with outcome := reimported engine once.monitors checks row }) ∧
    thrice.mappings.map pairing = twice.mappings.map pairing ∧
    (∀ evidence, verdictOn evidence thrice.mappings = verdictOn evidence twice.mappings) ∧
    ∀ evidence, twice.mappings.map pairing = once.mappings.map pairing →
      verdictOn evidence twice.mappings = verdictOn evidence once.mappings := by
  intro once twice thrice
  obtain ⟨f, hf, hrows⟩ := mappings_rerun engine comparableTypes bridgeId checks store
  obtain ⟨g, hg, hrows'⟩ := mappings_rerun engine comparableTypes bridgeId checks once
  have hsame : ∀ row ∈ twice.mappings, SameFrame row (g row) ∧ (g row).outcome = row.outcome := by
    intro row hrow
    refine ⟨(hrows' row hrow).1, (hrows' row hrow).2.trans ?_⟩
    have hmem : row ∈ once.mappings.map f := hf ▸ hrow
    obtain ⟨old, hold, rfl⟩ := List.mem_map.mp hmem
    have hid : (f old).sourceId = old.sourceId := (hrows old hold).1.1
    have himported : (importedMonitor engine twice.monitors old.sourceId).isSome =
        (importedMonitor engine once.monitors old.sourceId).isSome := by
      rw [← isSome_monitorIdOf, ← isSome_monitorIdOf]
      exact congrArg _ (monitorIdOf_rerun (settled_run store) old.sourceId)
    have hout : (f old).outcome = reimported engine once.monitors checks old := (hrows old hold).2
    show reimported engine twice.monitors checks (f old) = (f old).outcome
    rw [reimported, hid, himported, hout, reimported]
    split
    · rfl
    · rfl
  refine ⟨?_, ?_, fun evidence => ?_, fun evidence hkept => ?_⟩
  · show List.map pairing (run engine comparableTypes bridgeId checks once).mappings = _
    rw [hf, List.map_map]
    refine List.map_congr_left fun row hrow => ?_
    obtain ⟨⟨hid, hmonitor, -, -⟩, hout⟩ := hrows row hrow
    rw [Function.comp_apply, pairing, hid, hmonitor, hout]
    rfl
  · show List.map pairing (run engine comparableTypes bridgeId checks twice).mappings = _
    rw [hg, List.map_map]
    refine List.map_congr_left fun row hrow => ?_
    obtain ⟨⟨hid, hmonitor, -, -⟩, hout⟩ := hsame row hrow
    rw [Function.comp_apply, pairing, hid, hmonitor, hout]
    rfl
  · show verdictOn evidence (run engine comparableTypes bridgeId checks twice).mappings = _
    rw [hg]
    exact verdictOn_map evidence hsame
  · show verdictOn evidence (run engine comparableTypes bridgeId checks once).mappings = _
    have hkept' : (once.mappings.map f).map pairing = once.mappings.map pairing := hf ▸ hkept
    rw [List.map_map] at hkept'
    rw [hf]
    refine verdictOn_map evidence fun row hrow => ⟨(hrows row hrow).1, ?_⟩
    exact congrArg Pairing.outcome (List.map_inj_left.mp hkept' row hrow)

/-- A source of one record that translates as it is. -/
def plainEngine : Engine Unit Unit where
  provider := "betterstack"
  translateCheck := fun _ => .build () [] []
  safeParse := fun _ => .ok
    { checkType := "http", url := "https://example.com", name := "Homepage", token := none
      failureWindowSeconds := 300 }
  parseGroup := fun _ => .error "no groups"
  refusal := fun _ => none
  sourceTaken := "taken"
  tokenElsewhere := fun _ => false
  sourceKey := id
  trim := id
  toLowerCase := id
  groupName := id
  includes := fun _ _ => false

/-- A record of the source. -/
def homepage : SourceCheck Unit :=
  { sourceId := "2", name := "Homepage", sourceType := "status", paused := false, groupPath := []
    settings := () }

def quietWeek : Evidence :=
  { at_ := 7 * 86400000, coverage := [⟨0, 7 * 86400000⟩], manualNotes := []
    consecutivePollFailures := 0, createdAt := fun _ => some 0, vigilChecks := fun _ => 100
    vigilEvents := fun _ => [], sourceEvents := fun _ => [] }

/-- The second import of a record says that it was skipped, and the comparison then says that the
record did not become a monitor. -/
theorem imported_then_skipped :
    let once := run plainEngine (fun _ => true) 1 [homepage]
      { monitors := [], nextId := 1, mappings := [] }
    let twice := run plainEngine (fun _ => true) 1 [homepage] once
    once.mappings.map (fun row => (row.sourceId, row.monitorId, row.outcome)) =
      [("2", some 1, .imported)] ∧
    twice.mappings.map (fun row => (row.sourceId, row.monitorId, row.outcome)) =
      [("2", some 1, .skipped)] ∧
    verdictOn quietWeek once.mappings = .safe ∧
    verdictOn quietWeek twice.mappings = .notSafe := by
  decide +kernel

end Vigil.Bridge.Reimport
