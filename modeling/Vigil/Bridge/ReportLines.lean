import Vigil.Bridge.Reimport

/-! The lines of a migration report beside the rows that the migration added.  A check's line is
made in its turn and kept in a map under its source id, and the report takes it from there, so a
check whose source id comes again is given the line of another turn. -/

namespace Vigil.Bridge.ReportLines

open Import Reimport
open Lib.Entries (mem_of_lookup notMem_of_lookup lookup_of_nodup filterMap_lookup
  lookup_reverse_zipIdx getElem?_filterMap)

section

variable {σ ρ : Type} (engine : Engine σ ρ)

/-- `totals().monitorsCreated`: the lines that carry a monitor. -/
def monitorsCreated (entries : List ReportEntry) : ℕ :=
  entries.countP fun entry => entry.monitorId.isSome

/-- What the import of the checks before a turn has done. -/
def before (store : Store) (checks : List (SourceCheck σ)) (turn : ℕ) : Running :=
  (importChecks engine (importedMonitor engine store.monitors) (store.running engine)
    (checks.take turn)).1

/-- The line that the check of a turn is told. -/
def told (store : Store) (checks : List (SourceCheck σ)) (turn : ℕ) (check : SourceCheck σ) :
    ReportEntry :=
  (importCheck engine (importedMonitor engine store.monitors) (before engine store checks turn)
    check).2

/-- The turn whose line is kept under a source id: the map is set anew in every turn. -/
def keptTurn (checks : List (SourceCheck σ)) (sourceId : String) : Option ℕ :=
  (checks.map (·.sourceId)).zipIdx.reverse.lookup sourceId

/-- The report says of every check what happened in its turn, in one line each, and the number of
monitors that it counts is the number of rows that were added.  The line of a check is made in the
turn that its source id keeps (`importSnapshot_line`), which has to be its own. -/
structure Balanced (store : Store) (checks : List (SourceCheck σ)) : Prop where
  own : ∀ turn check, checks[turn]? = some check → keptTurn checks check.sourceId = some turn
  length : ((importSnapshot engine store checks).2.filter (·.kind = .monitor)).length =
    checks.length
  lines : ∀ turn check, checks[turn]? = some check →
    ((importSnapshot engine store checks).2.filter (·.kind = .monitor))[turn]? =
      some (told engine store checks turn check)
  created : (importSnapshot engine store checks).1.monitors.length =
    store.monitors.length + monitorsCreated (importSnapshot engine store checks).2

/-! ### The map of lines -/

variable {engine} {store : Store} {checks : List (SourceCheck σ)}

theorem keptTurn_of_nodup (hids : (checks.map (·.sourceId)).Nodup) {turn : ℕ}
    {check : SourceCheck σ} (hcheck : checks[turn]? = some check) :
    keptTurn checks check.sourceId = some turn := by
  apply lookup_of_nodup
  · rw [List.map_reverse, List.nodup_reverse, List.zipIdx_map_fst]
    exact hids
  · rw [List.mem_reverse, List.mem_zipIdx_iff_getElem?, List.getElem?_map, hcheck]
    rfl

theorem nodup_of_keptTurn
    (hown : ∀ turn check, checks[turn]? = some check → keptTurn checks check.sourceId = some turn) :
    (checks.map (·.sourceId)).Nodup := by
  rw [List.nodup_iff_getElem?_ne_getElem?]
  intro i j hij hj hsame
  rw [List.length_map] at hj
  rw [List.getElem?_map, List.getElem?_map, List.getElem?_eq_getElem hj,
    List.getElem?_eq_getElem (hij.trans hj)] at hsame
  have hsame : checks[i].sourceId = checks[j].sourceId := Option.some.inj hsame
  have hi := hown i _ (List.getElem?_eq_getElem (hij.trans hj))
  rw [hsame, hown j _ (List.getElem?_eq_getElem hj)] at hi
  exact absurd (Option.some.inj hi) (by omega)

variable (imported : String → Option Monitor)

theorem length_importChecks (start : Running) (checks : List (SourceCheck σ)) :
    (importChecks engine imported start checks).2.length = checks.length := by
  induction checks using List.reverseRecOn with
  | nil => rfl
  | append_singleton checks check ih =>
    rw [importChecks_concat, List.length_cons, ih, List.length_append, List.length_singleton]

theorem importChecks_turn (start : Running) (checks : List (SourceCheck σ)) {turn : ℕ}
    {check : SourceCheck σ} (hcheck : checks[turn]? = some check) :
    (importChecks engine imported start checks).2.reverse[turn]? =
      some (check.sourceId, (importCheck engine imported
        (importChecks engine imported start (checks.take turn)).1 check).2) := by
  induction checks using List.reverseRecOn with
  | nil => contradiction
  | append_singleton checks last ih =>
    rw [importChecks_concat, List.reverse_cons]
    have hlength : (importChecks engine imported start checks).2.reverse.length = checks.length := by
      rw [List.length_reverse, length_importChecks]
    by_cases hturn : turn < checks.length
    · rw [List.getElem?_append_left hturn] at hcheck
      rw [List.getElem?_append_left (by omega), ih hcheck, List.take_append_of_le_length hturn.le]
    · obtain ⟨hlt, -⟩ := List.getElem?_eq_some_iff.mp hcheck
      rw [List.length_append, List.length_singleton] at hlt
      obtain rfl : turn = checks.length := by omega
      rw [List.getElem?_concat_length] at hcheck
      cases hcheck
      rw [← hlength, List.getElem?_concat_length, hlength, List.take_left']
      rfl

/-! ### The rows that are added -/

theorem monitorsCreated_append (entries entries' : List ReportEntry) :
    monitorsCreated (entries ++ entries') = monitorsCreated entries + monitorsCreated entries' :=
  List.countP_append

/-- Rows were added, those of groups and those that the lines are about. -/
structure Added (running : Running) (lines : List ReportEntry) (running' : Running) : Prop where
  rows : running'.monitors.length + monitorsCreated running.groupEntries =
    running.monitors.length + monitorsCreated running'.groupEntries + monitorsCreated lines
  kinds : (∀ entry ∈ running.groupEntries, entry.kind = .group) →
    ∀ entry ∈ running'.groupEntries, entry.kind = .group

theorem Added.refl (running : Running) : Added running [] running where
  rows := rfl
  kinds h := h

theorem Added.trans {r₁ r₂ r₃ : Running} {l l' : List ReportEntry} (h : Added r₁ l r₂)
    (h' : Added r₂ l' r₃) : Added r₁ (l ++ l') r₃ where
  rows := by
    have hrows := h.rows
    have hrows' := h'.rows
    rw [monitorsCreated_append]
    omega
  kinds hgroup := h'.kinds (h.kinds hgroup)

theorem resolve_added {running running' : Running} {seen path : List String}
    {parentId parentId' : Option ℕ}
    (h : resolve engine running seen path parentId = .ok (running', parentId')) :
    Added running [] running' := by
  induction path generalizing running seen parentId with
  | nil =>
    obtain ⟨rfl, -⟩ := Prod.mk.inj (Except.ok.inj h)
    exact .refl running
  | cons segment rest ih =>
    have hgroup : ∀ {entry : ReportEntry}, entry.kind = .group →
        (∀ line ∈ running.groupEntries, line.kind = .group) →
        ∀ line ∈ running.groupEntries ++ [entry], line.kind = .group := by
      intro entry hentry hlines line hline
      rcases List.mem_append.mp hline with hline | hline
      · exact hlines line hline
      · rw [List.mem_singleton.mp hline, hentry]
    rw [resolve] at h
    dsimp only at h
    split at h
    · exact ih h
    · split at h
      · exact ih h
      · split at h
        · refine Added.trans (l := []) ⟨?_, hgroup rfl⟩ (ih h)
          rw [monitorsCreated_append]
          rfl
        · split at h
          · cases h
          · refine Added.trans (l := []) ⟨?_, hgroup rfl⟩ (ih h)
            rw [monitorsCreated_append, List.length_cons]
            show _ = _ + (_ + 1) + 0
            omega

variable (engine) in
theorem inGroup_added (running : Running) (groupPath : List String) :
    Added running [] (inGroup engine running groupPath).1 := by
  unfold inGroup
  split
  · exact .refl running
  · split
    · rename_i hresolve
      exact resolve_added hresolve
    · rename_i hresolve
      exact resolve_added hresolve
    · exact .refl running

theorem storeCheck_added (running : Running) (check : SourceCheck σ) (input : MonitorInput)
    (parentId : Option ℕ) (notes : List String) :
    Added running [(storeCheck engine running check input parentId notes).2]
      (storeCheck engine running check input parentId notes).1 := by
  unfold storeCheck
  dsimp only
  split
  · exact ⟨rfl, id⟩
  · split
    · exact ⟨rfl, id⟩
    · refine ⟨?_, id⟩
      show running.monitors.length + 1 + monitorsCreated running.groupEntries =
        running.monitors.length + monitorsCreated running.groupEntries + 1
      omega

theorem importCheck_added (running : Running) (check : SourceCheck σ) :
    Added running [(importCheck engine imported running check).2]
      (importCheck engine imported running check).1 := by
  unfold importCheck
  split
  · exact ⟨rfl, id⟩
  · unfold importNew
    split
    · exact ⟨rfl, id⟩
    · have hgroup := inGroup_added engine running check.groupPath
      dsimp only
      split
      · exact hgroup.trans ⟨rfl, id⟩
      · split
        · exact hgroup.trans ⟨rfl, id⟩
        · exact hgroup.trans (storeCheck_added _ _ _ _ _)

variable (engine) in
theorem importChecks_added (start : Running) (checks : List (SourceCheck σ)) :
    Added start ((importChecks engine imported start checks).2.reverse.map (·.2))
      (importChecks engine imported start checks).1 := by
  induction checks using List.reverseRecOn with
  | nil => exact .refl start
  | append_singleton checks check ih =>
    rw [importChecks_concat, List.reverse_cons, List.map_append]
    exact ih.trans (importCheck_added imported _ check)

/-! ### The report -/

variable (engine) in
theorem importChecks_keys (start : Running) (checks : List (SourceCheck σ)) :
    (importChecks engine imported start checks).2.reverse.map (·.1) = checks.map (·.sourceId) := by
  induction checks using List.reverseRecOn with
  | nil => rfl
  | append_singleton checks check ih =>
    rw [importChecks_concat, List.reverse_cons, List.map_append, ih, List.map_append]
    rfl

variable (engine) in
theorem importChecks_kinds (start : Running) (checks : List (SourceCheck σ)) :
    ∀ line ∈ (importChecks engine imported start checks).2.reverse.map (·.2),
      line.kind = .monitor := by
  induction checks using List.reverseRecOn with
  | nil => exact nofun
  | append_singleton checks check ih =>
    rw [importChecks_concat, List.reverse_cons, List.map_append]
    intro line hline
    rcases List.mem_append.mp hline with hline | hline
    · exact ih line hline
    · rw [List.mem_singleton.mp hline]
      exact (importCheck_entry engine imported _ check).1

/-- What is kept under a source id is the line of the last turn with that id. -/
theorem lookup_line (sourceId : String) :
    (importChecks engine (importedMonitor engine store.monitors) (store.running engine)
        checks).2.lookup sourceId =
      (keptTurn checks sourceId).bind fun kept =>
        checks[kept]?.map (told engine store checks kept) := by
  have hlast := lookup_reverse_zipIdx (importChecks engine (importedMonitor engine store.monitors)
    (store.running engine) checks).2.reverse sourceId
  rw [List.reverse_reverse, importChecks_keys] at hlast
  rw [hlast]
  refine Option.bind_congr fun kept _ => ?_
  cases hcheck : checks[kept]? with
  | none =>
    have hlength := List.getElem?_eq_none_iff.mp hcheck
    rw [List.getElem?_eq_none_iff.mpr (by rw [List.length_reverse, length_importChecks]; exact hlength)]
    rfl
  | some check =>
    rw [importChecks_turn _ _ checks hcheck]
    rfl

theorem importSnapshot_filter :
    (importSnapshot engine store checks).2.filter (·.kind = .monitor) =
      checks.filterMap fun check =>
        (importChecks engine (importedMonitor engine store.monitors) (store.running engine)
          checks).2.lookup check.sourceId := by
  have hgroups := (importChecks_added engine (importedMonitor engine store.monitors)
    (store.running engine) checks).kinds nofun
  have hkinds := importChecks_kinds engine (importedMonitor engine store.monitors)
    (store.running engine) checks
  have hreport : (importSnapshot engine store checks).2 = (checks.filterMap fun check =>
      (importChecks engine (importedMonitor engine store.monitors) (store.running engine)
        checks).2.lookup check.sourceId) ++ (importSnapshot engine store checks).1.groupEntries := rfl
  rw [hreport, List.filter_append, List.filter_eq_self.mpr, List.filter_eq_nil_iff.mpr,
    List.append_nil]
  · intro line hline
    simp [show line.kind = .group from hgroups line hline]
  · intro line hline
    obtain ⟨check, -, hlookup⟩ := List.mem_filterMap.mp hline
    refine decide_eq_true (hkinds line ?_)
    exact List.mem_map.mpr ⟨_, List.mem_reverse.mpr (mem_of_lookup hlookup), rfl⟩

variable (engine store checks) in
/-- The report has one line for each check, and it is the one that was made in the last turn of a
check with the same source id. -/
theorem importSnapshot_line (turn : ℕ) :
    ((importSnapshot engine store checks).2.filter (·.kind = .monitor))[turn]? =
      checks[turn]?.bind fun check => (keptTurn checks check.sourceId).bind fun kept =>
        checks[kept]?.map (told engine store checks kept) := by
  have hfound : ∀ check ∈ checks, ((importChecks engine (importedMonitor engine store.monitors)
      (store.running engine) checks).2.lookup check.sourceId).isSome = true := by
    intro check hcheck
    rw [Option.isSome_iff_ne_none]
    intro hnone
    have hkeys := importChecks_keys engine (importedMonitor engine store.monitors)
      (store.running engine) checks
    refine notMem_of_lookup hnone ?_
    rw [← List.mem_reverse, ← List.map_reverse, hkeys]
    exact List.mem_map_of_mem hcheck
  rw [importSnapshot_filter, getElem?_filterMap hfound]
  exact Option.bind_congr fun check _ => lookup_line check.sourceId

/-- The lines of an import, in the order of the turns. -/
def inTurn (engine : Engine σ ρ) (store : Store) (checks : List (SourceCheck σ)) :
    List ReportEntry :=
  (importChecks engine (importedMonitor engine store.monitors) (store.running engine)
    checks).2.reverse.map (·.2)

/-- With a source id for each check, the report takes the lines in the order of the turns. -/
theorem importSnapshot_lines (hids : (checks.map (·.sourceId)).Nodup) :
    (importSnapshot engine store checks).2 =
      inTurn engine store checks ++ (importSnapshot engine store checks).1.groupEntries := by
  have hkeys := importChecks_keys engine (importedMonitor engine store.monitors)
    (store.running engine) checks
  have hlines := filterMap_lookup (hkeys ▸ hids)
  rw [hkeys, List.reverse_reverse, List.filterMap_map] at hlines
  exact congrArg (· ++ _) hlines

theorem importSnapshot_monitorLines (hids : (checks.map (·.sourceId)).Nodup) :
    (importSnapshot engine store checks).2.filter (·.kind = .monitor) =
      inTurn engine store checks := by
  have hkeys := importChecks_keys engine (importedMonitor engine store.monitors)
    (store.running engine) checks
  have hlines := filterMap_lookup (hkeys ▸ hids)
  rw [hkeys, List.reverse_reverse, List.filterMap_map] at hlines
  exact importSnapshot_filter.trans hlines

/-- The report balances exactly when no source id comes twice. -/
theorem report_balances (engine : Engine σ ρ) (store : Store) (checks : List (SourceCheck σ)) :
    Balanced engine store checks ↔ (checks.map (·.sourceId)).Nodup := by
  constructor
  · intro h
    exact nodup_of_keptTurn h.own
  · intro hids
    refine ⟨fun turn check hcheck => keptTurn_of_nodup hids hcheck, ?_, fun turn check hcheck => ?_,
      ?_⟩
    · rw [importSnapshot_monitorLines hids, inTurn, List.length_map, List.length_reverse,
        length_importChecks]
    · rw [importSnapshot_line, hcheck, Option.bind_some, keptTurn_of_nodup hids hcheck,
        Option.bind_some, hcheck, Option.map_some]
    · have hrows : (importSnapshot engine store checks).1.monitors.length + 0 =
          store.monitors.length + monitorsCreated (importSnapshot engine store checks).1.groupEntries +
            monitorsCreated (inTurn engine store checks) :=
        (importChecks_added engine (importedMonitor engine store.monitors) (store.running engine)
          checks).rows
      rw [importSnapshot_lines hids, monitorsCreated_append]
      omega

end

/-- A source whose records keep their name and address. -/
def namedEngine : Engine String MonitorInput where
  provider := "betterstack"
  translateCheck := fun check => .build
    { checkType := "http", url := check.settings, name := check.name, token := none
      failureWindowSeconds := 300 } [] []
  safeParse := fun input => .ok input
  parseGroup := fun _ => .error "no groups"
  refusal := fun _ => none
  sourceTaken := "duplicate key value violates unique constraint"
  tokenElsewhere := fun _ => false
  sourceKey := id
  trim := id
  toLowerCase := id
  groupName := id
  includes := fun _ _ => false

/-- Two records of one source id. -/
def twice : List (SourceCheck String) :=
  [{ sourceId := "7", name := "Shop", sourceType := "status", paused := false, groupPath := []
     settings := "https://shop.example.com" },
    { sourceId := "7", name := "Blog", sourceType := "status", paused := false, groupPath := []
      settings := "https://blog.example.com" }]

/-- The first record becomes a monitor and the second is refused; the report has the line of the
second for both and counts no monitor. -/
theorem repeated_id_miscounted :
    let store : Store := { monitors := [], nextId := 1, mappings := [] }
    let run := importSnapshot namedEngine store twice
    run.1.monitors.map (fun row => (row.id, row.name)) = [(1, "Shop")] ∧
    run.2.map (fun line => (line.label, line.outcome, line.monitorId)) =
      [("Blog", .skipped, none), ("Blog", .skipped, none)] ∧
    monitorsCreated run.2 = 0 ∧ ¬ Balanced namedEngine store twice := by
  refine ⟨by decide +kernel, by decide +kernel, by decide +kernel, fun h => ?_⟩
  have hcreated := h.created
  revert hcreated
  decide +kernel

end Vigil.Bridge.ReportLines
