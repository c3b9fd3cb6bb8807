import Vigil.Bridge.GroupPaths

/-! A second import of one snapshot after monitors were renamed.  A check that became a monitor is
known by its source id and passed over.  A check that did not, because the schema refuses it or
because another monitor has its name, type and target, is judged anew, and so are the groups on its
path: these are matched by names. -/

namespace Vigil.Bridge.Renamed

open Import Reimport GroupPaths
open Lib.Entries (mem_of_lookup lookup_isSome_of_mem)
open GroupTree (Beginning)

/-- Renames one after another, each of the monitor with that id. -/
def rename (renames : List (ℕ × String)) (monitors : List Monitor) : List Monitor :=
  renames.foldl (fun monitors change => monitors.map fun row =>
    if row.id = change.1 then { row with name := change.2 } else row) monitors

/-- Only the name is another one, and only of a monitor that was renamed. -/
structure Renaming (renames : List (ℕ × String)) (f : Monitor → Monitor) : Prop where
  name : ∀ row, f row = { row with name := (f row).name }
  other : ∀ row, row.id ∉ renames.map (·.1) → f row = row

theorem exists_renaming (renames : List (ℕ × String)) (monitors : List Monitor) :
    ∃ f, Renaming renames f ∧ rename renames monitors = monitors.map f := by
  induction renames using List.reverseRecOn with
  | nil => exact ⟨fun row => row, ⟨fun _ => rfl, fun _ _ => rfl⟩, (List.map_id' monitors).symm⟩
  | append_singleton renames change ih =>
    obtain ⟨f, hf, hmap⟩ := ih
    refine ⟨fun row => if (f row).id = change.1 then { f row with name := change.2 } else f row,
      ⟨fun row => ?_, fun row hrow => ?_⟩, ?_⟩
    · split
      · rw [hf.name row]
      · exact hf.name row
    · rw [List.map_append, List.mem_append, not_or] at hrow
      rw [hf.other row hrow.1]
      exact if_neg fun hsame => hrow.2 (by simp [hsame])
    · rw [rename, List.foldl_append]
      show List.map _ (rename renames monitors) = _
      rw [hmap, List.map_map]
      rfl

section

variable {σ ρ : Type} (engine : Engine σ ρ)

/-- The monitors that the first run leaves, and those that the second one leaves when they have been
renamed meanwhile. -/
def first (store : Store) (checks : List (SourceCheck σ)) : Running :=
  (importSnapshot engine store checks).1

def second (store : Store) (checks : List (SourceCheck σ)) (renames : List (ℕ × String)) : Running :=
  (importSnapshot engine
    { store with
      monitors := rename renames (first engine store checks).monitors
      nextId := (first engine store checks).nextId } checks).1

/-! ### Renamed rows -/

variable {engine} {renames : List (ℕ × String)} {f : Monitor → Monitor}

theorem Renaming.importedMonitor (hf : Renaming renames f) (monitors : List Monitor)
    (sourceId : String) :
    Import.importedMonitor engine (monitors.map f) sourceId =
      (Import.importedMonitor engine monitors sourceId).map f := by
  have hsame : (fun row => decide (row.importSource = some engine.provider) &&
      decide (row.importSourceId = some (engine.sourceKey sourceId))) ∘ f =
      fun row => decide (row.importSource = some engine.provider) &&
        decide (row.importSourceId = some (engine.sourceKey sourceId)) := by
    funext row
    rw [Function.comp_apply, hf.name row]
  rw [Import.importedMonitor, Import.importedMonitor, List.find?_map, hsame]

theorem Renaming.importedMonitor_eq_none (hf : Renaming renames f) {monitors : List Monitor}
    {sourceId : String} :
    Import.importedMonitor engine (monitors.map f) sourceId = none ↔
      Import.importedMonitor engine monitors sourceId = none := by
  rw [hf.importedMonitor, Option.map_eq_none_iff]

/-! ### Groups that are found by their names -/

variable {paths : List (List String)} {running : Running} {check : SourceCheck σ}
  {checks : List (SourceCheck σ)} {store : Store}

theorem resolve_found (hapart : ReadApart engine paths) (rest : List String) :
    ∀ (seen : List String) (parentId : Option ℕ) (running : Running),
      Beginning paths (seen ++ rest) →
      follow engine running.existing seen none = some parentId →
      (follow engine running.existing rest parentId).isSome = true →
      Followed engine running.existing paths running.byPath →
      ∃ running' id, resolve engine running seen rest parentId = .ok (running', id) ∧
        running'.monitors = running.monitors ∧ running'.nextId = running.nextId ∧
        running'.existing = running.existing ∧
        Followed engine running.existing paths running'.byPath := by
  induction rest with
  | nil =>
    intro seen parentId running _ _ _ hfollowed
    exact ⟨running, parentId, rfl, rfl, rfl, rfl, hfollowed⟩
  | cons segment rest ih =>
    intro seen parentId running hpath hseen hrest hfollowed
    rw [List.append_cons] at hpath
    have hbegins := hpath.of_prefix (List.prefix_append _ _)
    rw [follow] at hrest
    rw [resolve]
    dsimp only
    by_cases hblank : engine.groupName segment = ""
    · rw [if_pos hblank] at hrest ⊢
      refine ih _ _ _ hpath ?_ hrest hfollowed
      rw [follow_append, hseen, Option.bind_some, follow, if_pos hblank, follow]
    · rw [if_neg hblank] at hrest ⊢
      cases hfound : running.existing.lookup (groupKey engine parentId (engine.groupName segment)) with
      | none =>
        rw [hfound] at hrest
        contradiction
      | some id =>
        rw [hfound] at hrest
        have hstep : follow engine running.existing (seen ++ [segment]) none = some (some id) := by
          rw [follow_append, hseen, Option.bind_some, follow, if_neg hblank, hfound]
          rfl
        have hnamed : Named engine (seen ++ [segment]) := ⟨seen, segment, rfl, hblank⟩
        cases hknown : running.byPath.lookup ("/".intercalate (seen ++ [segment])) with
        | some known =>
          obtain ⟨path, hpath', hnamed', hkey, hfollow⟩ :=
            hfollowed _ _ (mem_of_lookup hknown)
          have hsame := hapart _ _ hpath' hbegins hnamed' hnamed hkey
          rw [hsame, hstep] at hfollow
          obtain rfl : id = known := Option.some.inj (Option.some.inj hfollow)
          exact ih _ _ _ hpath hstep hrest hfollowed
        | none =>
          refine ih _ _ { running with byPath := _, groupEntries := _ } hpath hstep hrest ?_
          intro key kept hmem
          rcases List.mem_cons.mp hmem with heq | hmem
          · obtain ⟨rfl, rfl⟩ := Prod.mk.inj heq
            exact ⟨_, hbegins, hnamed, rfl, hstep⟩
          · exact hfollowed key kept hmem

/-! ### A run over checks of which nothing is made -/

theorem storeCheck_taken {input : MonitorInput}
    (htaken : (running.existing.lookup (identityKey engine input.checkType input.url
      input.name)).isSome = true ∨ (engine.refusal input).isSome = true) (parentId : Option ℕ)
    (notes : List String) : (storeCheck engine running check input parentId notes).1 = running := by
  unfold storeCheck
  dsimp only
  split
  · rfl
  · rename_i hfree
    obtain ⟨failure, hfailure⟩ := Option.isSome_iff_exists.mp (htaken.resolve_left hfree)
    rw [insertFailure, hfailure]

/-- All that is left of a check of which nothing is made is what its path adds. -/
theorem importNew_blocked (hblocked : Blocked engine running.existing check) :
    (importNew engine running check).1 =
      if translates engine check then (inGroup engine running check.groupPath).1 else running := by
  unfold importNew translates
  unfold Blocked at hblocked
  cases htranslate : engine.translateCheck check with
  | unsupported detail => rfl
  | build raw notes refusals =>
    rw [htranslate] at hblocked
    dsimp only at hblocked ⊢
    rw [if_pos rfl]
    cases hparse : engine.safeParse raw with
    | error issues => rfl
    | ok input =>
      rw [hparse] at hblocked
      dsimp only at hblocked ⊢
      split
      · rfl
      · rename_i hrefusals
        refine storeCheck_taken ?_ _ _
        rw [(inGroup_spec engine running check.groupPath).existing]
        exact hblocked.resolve_left hrefusals

theorem inGroup_found (hapart : ReadApart engine paths) {path : List String} (hpath : path ∈ paths)
    (hfound : (follow engine running.existing path none).isSome = true)
    (hfollowed : Followed engine running.existing paths running.byPath) :
    (inGroup engine running path).1.monitors = running.monitors ∧
      (inGroup engine running path).1.existing = running.existing ∧
      Followed engine running.existing paths (inGroup engine running path).1.byPath := by
  obtain ⟨running', id, hresolve, hmonitors, -, hexisting, hfollowed'⟩ :=
    resolve_found hapart path [] none running ⟨path, hpath, List.prefix_rfl⟩ rfl hfound hfollowed
  unfold inGroup
  dsimp only
  split
  · exact ⟨rfl, rfl, hfollowed⟩
  · rw [hresolve]
    cases id with
    | none => exact ⟨hmonitors, hexisting, hfollowed'⟩
    | some id => exact ⟨hmonitors, hexisting, hfollowed'⟩

/-- Nothing is made of the check: an earlier run imported it, or it is blocked and its groups are
found. -/
def Still (engine : Engine σ ρ) (start : Running) (paths : List (List String))
    (check : SourceCheck σ) : Prop :=
  (importedMonitor engine start.monitors check.sourceId).isSome = true ∨
    Blocked engine start.existing check ∧
      (translates engine check = true → check.groupPath ∈ paths ∧
        (follow engine start.existing check.groupPath none).isSome = true)

theorem importChecks_still (hapart : ReadApart engine paths) {start : Running}
    (hstart : start.byPath = []) (hstill : ∀ check ∈ checks, Still engine start paths check) :
    let running := (importChecks engine (importedMonitor engine start.monitors) start checks).1
    running.monitors = start.monitors ∧ running.existing = start.existing ∧
      Followed engine start.existing paths running.byPath := by
  induction checks using List.reverseRecOn with
  | nil =>
    refine ⟨rfl, rfl, fun key id hmem => ?_⟩
    exact absurd (hstart ▸ hmem) List.not_mem_nil
  | append_singleton checks check ih =>
    obtain ⟨hmonitors, hexisting, hfollowed⟩ :=
      ih fun other hother => hstill other (List.mem_append_left _ hother)
    intro running
    have hrunning : running = (importCheck engine (importedMonitor engine start.monitors)
        (importChecks engine (importedMonitor engine start.monitors) start checks).1 check).1 := by
      show (importChecks engine _ start (checks ++ [check])).1 = _
      rw [importChecks_concat]
    rw [hrunning]
    generalize (importChecks engine (importedMonitor engine start.monitors) start checks).1 =
      between at hmonitors hexisting hfollowed
    unfold importCheck
    cases himported : importedMonitor engine start.monitors check.sourceId with
    | some already => exact ⟨hmonitors, hexisting, hfollowed⟩
    | none =>
      obtain ⟨hblocked, hgroups⟩ := (hstill check (by simp)).resolve_left (by simp [himported])
      dsimp only
      rw [importNew_blocked (hexisting ▸ hblocked)]
      by_cases htranslates : translates engine check = true
      · obtain ⟨hpath, hfound⟩ := hgroups htranslates
        obtain ⟨hmonitors', hexisting', hfollowed'⟩ :=
          inGroup_found hapart hpath (hexisting ▸ hfound) (hexisting.symm ▸ hfollowed)
        rw [if_pos htranslates, hmonitors', hexisting', ← hexisting]
        exact ⟨hmonitors, rfl, hfollowed'⟩
      · rw [if_neg htranslates]
        exact ⟨hmonitors, hexisting, hfollowed⟩

/-! ### Keys of renamed rows -/

theorem lookup_flatMap_congr {α β γ : Type} [BEq β] {g h : α → List (β × γ)} {key : β}
    {rows : List α} (hsame : ∀ row ∈ rows, (g row).lookup key = (h row).lookup key) :
    (rows.flatMap g).lookup key = (rows.flatMap h).lookup key := by
  induction rows with
  | nil => rfl
  | cons row rows ih =>
    rw [List.flatMap_cons, List.flatMap_cons, List.lookup_append, List.lookup_append,
      hsame row List.mem_cons_self, ih fun other hother => hsame other (List.mem_cons_of_mem _ hother)]

/-- The key of a group is found at the same group when no group was renamed. -/
theorem Renaming.lookup_groupKey (hf : Renaming renames f) {monitors : List Monitor}
    (hgroups : ∀ row ∈ monitors, row.checkType = "group" → row.id ∉ renames.map (·.1))
    (parentId : Option ℕ) (name : String) :
    (loadExisting engine (monitors.map f)).lookup (groupKey engine parentId name) =
      (loadExisting engine monitors).lookup (groupKey engine parentId name) := by
  unfold loadExisting
  rw [List.flatMap_map]
  apply lookup_flatMap_congr
  intro row hrow
  by_cases htype : row.checkType = "group"
  · rw [hf.other row (hgroups row hrow htype)]
  · rw [lookup_rowKeys_other htype, lookup_rowKeys_other (by rw [hf.name row]; exact htype)]

theorem follow_congr {existing existing' : List (List String × ℕ)}
    (hsame : ∀ parentId name, existing'.lookup (groupKey engine parentId name) =
      existing.lookup (groupKey engine parentId name)) (path : List String)
    (parentId : Option ℕ) :
    follow engine existing' path parentId = follow engine existing path parentId := by
  induction path generalizing parentId with
  | nil => rfl
  | cons segment path ih =>
    rw [follow, follow, hsame]
    split
    · exact ih parentId
    · split
      · exact ih _
      · rfl

theorem Renaming.lookup_isSome (hf : Renaming renames f) {monitors : List Monitor} {row : Monitor}
    (hrow : row ∈ monitors) (hother : row.id ∉ renames.map (·.1)) {key : List String}
    (hkey : key ∈ (rowKeys engine row).map (·.1)) :
    ((loadExisting engine (monitors.map f)).lookup key).isSome = true := by
  obtain ⟨entry, hmem, rfl⟩ := List.mem_map.mp hkey
  have hentry : (entry.1, entry.2) ∈ loadExisting engine (monitors.map f) := by
    refine List.mem_flatMap.mpr ⟨f row, List.mem_map_of_mem hrow, ?_⟩
    rw [hf.other row hother]
    exact hmem
  exact lookup_isSome_of_mem hentry

/-! ### The two runs -/

variable (engine) in
/-- Rows are added on top, and those of a check only where the check was not imported before. -/
theorem importChecks_adds (imported : String → Option Monitor) (start : Running)
    (checks : List (SourceCheck σ)) :
    ∃ new, (importChecks engine imported start checks).1.monitors = new ++ start.monitors ∧
      ∀ row ∈ new, row.importSource = none ∨ ∃ check ∈ checks, imported check.sourceId = none ∧
        row.importSourceId = some (engine.sourceKey check.sourceId) := by
  induction checks using List.reverseRecOn with
  | nil => exact ⟨[], rfl, fun _ hrow => absurd hrow List.not_mem_nil⟩
  | append_singleton checks check ih =>
    obtain ⟨new, hnew, hrows⟩ := ih
    have hold : ∀ row ∈ new, row.importSource = none ∨
        ∃ other ∈ checks ++ [check], imported other.sourceId = none ∧
          row.importSourceId = some (engine.sourceKey other.sourceId) :=
      fun row hrow => (hrows row hrow).imp_right fun ⟨other, hother, hrest⟩ =>
        ⟨other, List.mem_append_left _ hother, hrest⟩
    rw [importChecks_concat]
    rcases importCheck_cases engine imported (importChecks engine imported start checks).1 check
      with ⟨-, hrunning, -⟩ | ⟨himported, hquiet | hmade⟩
    · refine ⟨new, ?_, hold⟩
      rw [hrunning, hnew]
    · obtain ⟨groups, hmonitors, hgroups⟩ := hquiet.groups.monitors
      refine ⟨groups ++ new, ?_, fun row hrow => ?_⟩
      · rw [hmonitors, hnew, List.append_assoc]
      · rcases List.mem_append.mp hrow with hrow | hrow
        · exact .inl (hgroups row hrow)
        · exact hold row hrow
    · obtain ⟨between, monitor, _, hbetween, -, hmonitors, -, -, -, hsourceId, -⟩ := hmade.made
      obtain ⟨groups, hadded, hgroups⟩ := hbetween.monitors
      refine ⟨monitor :: (groups ++ new), ?_, fun row hrow => ?_⟩
      · rw [hmonitors, hadded, hnew, List.cons_append, List.append_assoc]
      · rcases List.mem_cons.mp hrow with rfl | hrow
        · exact .inr ⟨check, by simp, himported, hsourceId⟩
        · rcases List.mem_append.mp hrow with hrow | hrow
          · exact .inl (hgroups row hrow)
          · exact hold row hrow

variable (engine) in
/-- The key that a check would be stored under, if nothing else refuses it. -/
def naturalKey (check : SourceCheck σ) : Option (List String) :=
  match engine.translateCheck check with
  | .unsupported _ => none
  | .build input _ refusals =>
    match engine.safeParse input with
    | .error _ => none
    | .ok input =>
      if refusals ≠ [] ∨ (engine.refusal input).isSome = true then none
      else some (identityKey engine input.checkType input.url input.name)

theorem blocked_iff {existing : List (List String × ℕ)} : Blocked engine existing check ↔
      ∀ key, naturalKey engine check = some key → (existing.lookup key).isSome = true := by
  unfold Blocked naturalKey
  cases engine.translateCheck check with
  | unsupported detail =>
    constructor
    · intro _ key hkey
      contradiction
    · intro _
      trivial
  | build raw notes refusals =>
    dsimp only
    cases engine.safeParse raw with
    | error issues =>
      constructor
      · intro _ key hkey
        contradiction
      · intro _
        trivial
    | ok input =>
      dsimp only
      split
      · rename_i hrefused
        constructor
        · intro _ key hkey
          contradiction
        · intro _
          exact hrefused.imp_right .inr
      · rename_i hfree
        obtain ⟨hrefusals, hrefusal⟩ := not_or.mp hfree
        constructor
        · intro hblocked key hkey
          obtain rfl := Option.some.inj hkey
          exact (hblocked.resolve_left hrefusals).resolve_right hrefusal
        · intro hkeys
          exact .inr (.inl (hkeys _ rfl))

variable (engine) in
/-- No run has made a monitor of the check. -/
def Unmade (store : Store) (checks : List (SourceCheck σ)) (check : SourceCheck σ) : Prop :=
  check ∈ checks ∧
    importedMonitor engine (first engine store checks).monitors check.sourceId = none

variable (engine) in
/-- The renames leave alone what the checks without a monitor of their own are matched to: of the
monitors with the name, type and target of such a check one is not renamed, and no group is if such
a check names any. -/
structure LeavesMatches (store : Store) (checks : List (SourceCheck σ))
    (renames : List (ℕ × String)) : Prop where
  natural : ∀ check key, Unmade engine store checks check → naturalKey engine check = some key →
    (∃ row ∈ (first engine store checks).monitors, key ∈ (rowKeys engine row).map (·.1)) →
      ∃ row ∈ (first engine store checks).monitors, key ∈ (rowKeys engine row).map (·.1) ∧
        row.id ∉ renames.map (·.1)
  groups : ∀ check, Unmade engine store checks check → translates engine check = true →
    check.groupPath ≠ [] → ∀ row ∈ (first engine store checks).monitors, row.checkType = "group" →
      row.id ∉ renames.map (·.1)

variable (engine) in
/-- The first run leaves the groups of these checks one in the other. -/
structure LeavesGroups (store : Store) (checks : List (SourceCheck σ))
    (paths : List (List String)) : Prop where
  found : ∀ check, Unmade engine store checks check → translates engine check = true →
    check.groupPath ∈ paths ∧
      (follow engine (loadExisting engine (first engine store checks).monitors) check.groupPath
        none).isSome = true
  apart : ReadApart engine paths

theorem LeavesMatches.still (h : LeavesMatches engine store checks renames)
    (hgroups : LeavesGroups engine store checks paths) (hf : Renaming renames f)
    (hcheck : check ∈ checks) : let renamed : Store := { store with
      monitors := (first engine store checks).monitors.map f
      nextId := (first engine store checks).nextId }
    Still engine (renamed.running engine) paths check := by
  intro renamed
  have hlooped := @importChecks_spec σ ρ engine (store.running engine) checks
  cases himported : importedMonitor engine (first engine store checks).monitors check.sourceId with
  | some monitor =>
    left
    show (importedMonitor engine ((first engine store checks).monitors.map f) _).isSome = true
    rw [hf.importedMonitor, himported]
    rfl
  | none =>
    right
    have hunmade : Unmade engine store checks check := ⟨hcheck, himported⟩
    have hblocked : Blocked engine (loadExisting engine (first engine store checks).monitors)
        check := by
      have hsettled := (hlooped.settled check hcheck).resolve_left fun hsome => by
        have hnone : (importedMonitor engine (importChecks engine
            (importedMonitor engine (store.running engine).monitors) (store.running engine)
            checks).1.monitors check.sourceId) = none := himported
        rw [hnone] at hsome
        contradiction
      exact hsettled.mono (hlooped.loaded fun key hkey => hkey)
    constructor
    · rw [blocked_iff] at hblocked ⊢
      intro key hkey
      obtain ⟨id, hid⟩ := Option.isSome_iff_exists.mp (hblocked key hkey)
      obtain ⟨row, hrow, hmem⟩ := List.mem_flatMap.mp (mem_of_lookup hid)
      obtain ⟨kept, hkept, htaken, hother⟩ := h.natural check key hunmade hkey
        ⟨row, hrow, List.mem_map_of_mem hmem⟩
      exact hf.lookup_isSome hkept hother htaken
    · intro htranslates
      obtain ⟨hpath, hfound⟩ := hgroups.found check hunmade htranslates
      refine ⟨hpath, ?_⟩
      by_cases hnone : check.groupPath = []
      · rw [hnone]
        rfl
      · have hsame := @Renaming.lookup_groupKey σ ρ engine _ _ hf _
          (h.groups check hunmade htranslates hnone)
        rw [← hfound]
        exact congrArg _ (follow_congr hsame check.groupPath none)

/-- A check that no run has made a monitor of was not imported before the first. -/
theorem Unmade.imported (h : Unmade engine store checks check) :
    importedMonitor engine store.monitors check.sourceId = none := by
  obtain ⟨new, hnew, -⟩ := importChecks_adds engine
    (importedMonitor engine store.monitors) (store.running engine) checks
  have hnone := h.2
  rw [show (first engine store checks).monitors = new ++ store.monitors from hnew,
    importedMonitor_append, Option.or_eq_none_iff] at hnone
  exact hnone.2

theorem leavesGroups (h : Ordinary engine store checks paths) :
    LeavesGroups engine store checks paths where
  found := fun check hunmade htranslates =>
    ⟨h.among check hunmade.1 htranslates,
      (h.importChecks (List.Subset.refl checks) _).2 check hunmade.1 hunmade.imported htranslates⟩
  apart := h.apart

/-- Whatever was renamed, the second run changes no row and makes no monitor of a check that a run
has imported; and it adds no row at all when the renames leave alone what the other checks are
matched to and the groups of these are there, as they are after the first run of a snapshot of which
no two group paths coincide. -/
theorem reimport_adds_nothing (engine : Engine σ ρ) (store : Store) (checks : List (SourceCheck σ))
    (renames : List (ℕ × String)) :
    (∃ new, (second engine store checks renames).monitors =
        new ++ rename renames (first engine store checks).monitors ∧
      ∀ row ∈ new, row.importSource = none ∨ ∃ check, Unmade engine store checks check ∧
        row.importSourceId = some (engine.sourceKey check.sourceId)) ∧
    (∀ paths, LeavesMatches engine store checks renames → LeavesGroups engine store checks paths →
      (second engine store checks renames).monitors =
        rename renames (first engine store checks).monitors) ∧
    ∀ paths, Ordinary engine store checks paths → LeavesGroups engine store checks paths := by
  obtain ⟨f, hf, hmap⟩ := exists_renaming renames (first engine store checks).monitors
  refine ⟨?_, fun paths hleaves hgroups => ?_, fun paths => leavesGroups⟩
  · rw [second, hmap]
    obtain ⟨new, hnew, hrows⟩ := importChecks_adds engine
      (importedMonitor engine ((first engine store checks).monitors.map f)) _ checks
    refine ⟨new, hnew, fun row hrow => (hrows row hrow).imp_right ?_⟩
    rintro ⟨check, hcheck, hnone, hsourceId⟩
    exact ⟨check, ⟨hcheck, hf.importedMonitor_eq_none.mp hnone⟩, hsourceId⟩
  · rw [second, hmap]
    exact (importChecks_still hgroups.apart rfl fun check hcheck =>
      hleaves.still hgroups hf hcheck).1

end

/-! ### Two checks of one name, type and target -/

/-- A source whose records keep their name and address. -/
def folderEngine : Engine String MonitorInput where
  provider := "betterstack"
  translateCheck := fun check => .build
    { checkType := "http", url := check.settings, name := check.name, token := none
      failureWindowSeconds := 300 } [] []
  safeParse := fun input => .ok input
  parseGroup := fun name => .ok
    { checkType := "group", url := name, name, token := none, failureWindowSeconds := 300 }
  refusal := fun _ => none
  sourceTaken := "duplicate key value violates unique constraint"
  tokenElsewhere := fun _ => false
  sourceKey := id
  trim := id
  toLowerCase := id
  groupName := id
  includes := fun _ _ => false

/-- A record in a folder of the source. -/
def folderCheck (sourceId name : String) : SourceCheck String where
  sourceId := sourceId
  name := name
  sourceType := "status"
  paused := false
  groupPath := ["europe"]
  settings := "https://shop.example.com"

/-- The second check has the name, type and target of the first. -/
def twins : List (SourceCheck String) :=
  [folderCheck "1" "shop", folderCheck "2" "shop", folderCheck "3" "blog"]

def emptyStore : Store where
  monitors := []
  nextId := 1
  mappings := []

theorem twins_ordinary : Ordinary folderEngine emptyStore twins [["europe"]] := by
  have hbeginning : ∀ path, Beginning [["europe"]] path → Named folderEngine path →
      path = ["europe"] := by
    rintro path ⟨whole, hwhole, hbegins⟩ ⟨before, segment, rfl, -⟩
    obtain ⟨rest, rfl⟩ := hbegins
    have hlist := List.mem_singleton.mp hwhole
    cases before with
    | nil => rw [List.nil_append, (List.cons.inj hlist).1]
    | cons head before =>
      have hlength := congrArg List.length hlist
      simp at hlength
  have hdash : ∀ name : String, name = "europe" → Elsewhere folderEngine name := by
    rintro _ rfl parentId hplace
    cases parentId with
    | none => exact absurd hplace (by decide)
    | some n =>
      have hmem : 'e' ∈ Nat.toDigits 10 n := by
        rw [← Nat.toList_repr, show n.repr = "europe" from hplace.symm]
        decide
      exact absurd (Js.Text.isDigit_of_mem_toDigits hmem) (by decide)
  exact
    { ids := List.nodup_nil
      fresh := fun _ hrow => absurd hrow List.not_mem_nil
      plain := fun _ hrow => absurd hrow List.not_mem_nil
      among := by
        intro check hcheck _
        simp only [twins, List.mem_cons, List.not_mem_nil, or_false] at hcheck
        rcases hcheck with rfl | rfl | rfl <;> exact List.mem_singleton.mpr rfl
      leaves := by
        intro check _ raw notes refusals input htranslate hparse
        cases htranslate
        cases hparse
        show "http" ≠ "group"
        decide
      apart := fun path path' hpath hpath' hnamed hnamed' _ =>
        (hbeginning path hpath hnamed).trans (hbeginning path' hpath' hnamed').symm
      folded := fun path path' hpath hpath' hnamed hnamed' _ =>
        (hbeginning path hpath hnamed).trans (hbeginning path' hpath' hnamed').symm
      accepted := by
        intro path hpath segment hsegment _
        obtain rfl := List.mem_singleton.mp hpath
        obtain rfl := List.mem_singleton.mp hsegment
        exact ⟨_, rfl, rfl, hdash _ rfl, rfl⟩ }

/-- The first run makes the group 1, the monitor 2 of the first check and 3 of the third; the last
is renamed. -/
theorem reimport_adds_nothing_other_renamed :
    (second folderEngine emptyStore twins [(3, "journal")]).monitors =
      rename [(3, "journal")] (first folderEngine emptyStore twins).monitors := by
  have htheorem := reimport_adds_nothing folderEngine emptyStore twins [(3, "journal")]
  refine htheorem.2.1 _ ⟨?_, ?_⟩ (htheorem.2.2 _ twins_ordinary)
  · intro check key hunmade hkey _
    have hcheck := hunmade.1
    simp only [twins, List.mem_cons, List.not_mem_nil, or_false] at hcheck
    rcases hcheck with rfl | rfl | rfl
    · exact absurd hunmade.2 (by decide +kernel)
    · cases hkey
      decide +kernel
    · exact absurd hunmade.2 (by decide +kernel)
  · intro check _ _ _
    decide +kernel

/-- The monitor that a check without one of its own was matched to is renamed, and the second run
makes a monitor of that check. -/
theorem twin_made_again :
    (twins.map (·.sourceId)).Nodup ∧
    (first folderEngine emptyStore twins).monitors.map (fun row => (row.id, row.name)) =
      [(3, "blog"), (2, "shop"), (1, "europe")] ∧
    (second folderEngine emptyStore twins [(2, "storefront")]).monitors.map
        (fun row => (row.id, row.name)) =
      [(4, "shop"), (3, "blog"), (2, "storefront"), (1, "europe")] := by
  refine ⟨by decide, by decide +kernel, by decide +kernel⟩

end Vigil.Bridge.Renamed
