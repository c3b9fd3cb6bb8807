import Vigil.Monitors.Groups
import Vigil.Monitors.Propagation

/-! How far up a chain of groups one outcome of a monitor reaches, when nothing else happens
meanwhile.  The walk that admits a parent looks at eight levels and refuses nothing beyond them; the
walk that refreshes the groups stops after eight. -/

namespace Vigil.Monitors.GroupChain

open Js.Text StatusController Conditions GroupVerdict CheckTypes Propagation

/-- No other transaction changes the monitors, and no statement fails. -/
structure Quiet (env : Env) : Prop where
  others : ∀ clock monitors, env.others clock monitors = monitors
  fails : ∀ clock, env.fails clock = false

/-- The groups from a parent up to one that has none, each an unpaused aggregate. -/
inductive Chain (monitors : List Monitor) : Option ℕ → List ℕ → Prop where
  | root : Chain monitors none []
  | group {id : ℕ} {group : Monitor} {rest : List ℕ} : findMonitor monitors id = some group →
    group.paused = false → checkTypeKind group.checkType = .aggregate →
    Chain monitors group.parentId rest → Chain monitors (some id) (id :: rest)

/-- Whether the groups from a parent up are the ones of the list. -/
def climbs (monitors : List Monitor) : Option ℕ → List ℕ → Bool
  | none, [] => true
  | some id, id' :: rest =>
    id = id' && (findMonitor monitors id).any fun group =>
      !group.paused && checkTypeKind group.checkType = .aggregate &&
        climbs monitors group.parentId rest
  | none, _ :: _ | some _, [] => false

theorem chain_iff_climbs (monitors : List Monitor) (parentId : Option ℕ) (chain : List ℕ) :
    Chain monitors parentId chain ↔ climbs monitors parentId chain = true := by
  induction chain generalizing parentId with
  | nil =>
    cases parentId with
    | none => exact ⟨fun _ => rfl, fun _ => .root⟩
    | some id =>
      constructor
      · intro h
        cases h
      · intro h
        simp only [climbs, Bool.false_eq_true] at h
  | cons id rest ih =>
    cases parentId with
    | none =>
      constructor
      · intro h
        cases h
      · intro h
        simp only [climbs, Bool.false_eq_true] at h
    | some parentId =>
      simp only [climbs, Bool.and_eq_true, decide_eq_true_eq, Option.any_eq_true,
        Bool.not_eq_true']
      constructor
      · rintro (_ | ⟨hfind, hpaused, hkind, hrest⟩)
        exact ⟨rfl, _, hfind, ⟨hpaused, hkind⟩, (ih _).mp hrest⟩
      · rintro ⟨rfl, group, hfind, ⟨hpaused, hkind⟩, hrest⟩
        exact .group hfind hpaused hkind ((ih _).mpr hrest)

instance (monitors : List Monitor) (parentId : Option ℕ) (chain : List ℕ) :
    Decidable (Chain monitors parentId chain) :=
  decidable_of_iff _ (chain_iff_climbs monitors parentId chain).symm

/-! ### One level -/

/-- What the members of a group make of it. -/
def derivedOutcome (monitors : List Monitor) (group : Monitor) : CheckResult :=
  let result := derive (childStates monitors group)
  { judgment := judge assertions () result, facts := result.facts, holdResolve := none }

/-- The table after the group's interval was made that of its slowest member. -/
def synced (monitors : List Monitor) (group : Monitor) (outcome : CheckResult) :
    List Monitor × ℕ :=
  match wholeFact outcome.facts (js "memberIntervalSeconds") with
  | none => (monitors, group.intervalSeconds)
  | some memberInterval =>
    if memberInterval = group.intervalSeconds then (monitors, group.intervalSeconds)
    else (updateMonitor monitors group.id fun row => { row with intervalSeconds := memberInterval },
      memberInterval)

/-- The table after a group was derived from its members as they are in `monitors`. -/
def derived (now : ℤ) (monitors : List Monitor) (group : Monitor) : List Monitor :=
  let outcome := derivedOutcome monitors group
  let (monitors, intervalSeconds) := synced monitors group outcome
  if shouldRecord group outcome intervalSeconds now then (recordUpdate group outcome now monitors).1
  else monitors

/-- Groups are derived one after another, each from the table that the one before left. -/
inductive Rederived : List Monitor → List ℕ → List Monitor → Prop where
  | done (monitors : List Monitor) : Rederived monitors [] monitors
  | level {monitors monitors' : List Monitor} {id : ℕ} {group : Monitor} {rest : List ℕ} (now : ℤ) :
    findMonitor monitors id = some group → Rederived (derived now monitors group) rest monitors' →
    Rederived monitors (id :: rest) monitors'

/-! ### What a level leaves alone -/

/-- The columns that the walk up the groups reads. -/
structure Keeps (f : Monitor → Monitor) : Prop where
  id : ∀ row, (f row).id = row.id
  parentId : ∀ row, (f row).parentId = row.parentId
  paused : ∀ row, (f row).paused = row.paused
  checkType : ∀ row, (f row).checkType = row.checkType

theorem Keeps.refl : Keeps fun row => row := by
  constructor
  all_goals
    intro row
    rfl

theorem Keeps.comp {f g : Monitor → Monitor} (hf : Keeps f) (hg : Keeps g) : Keeps (f ∘ g) where
  id := fun row => (hf.id _).trans (hg.id row)
  parentId := fun row => (hf.parentId _).trans (hg.parentId row)
  paused := fun row => (hf.paused _).trans (hg.paused row)
  checkType := fun row => (hf.checkType _).trans (hg.checkType row)

theorem Keeps.ite {f : Monitor → Monitor} (hf : Keeps f) (p : Monitor → Prop) [DecidablePred p] :
    Keeps fun row => if p row then f row else row := by
  constructor
  all_goals
    intro row
    split
  · exact hf.id row
  · rfl
  · exact hf.parentId row
  · rfl
  · exact hf.paused row
  · rfl
  · exact hf.checkType row
  · rfl

variable {monitors : List Monitor} {row monitor group : Monitor} {now : ℤ}

theorem of_findMonitor {id : ℕ} (hfind : findMonitor monitors id = some row) :
    row ∈ monitors ∧ row.id = id :=
  ⟨List.mem_of_find?_eq_some hfind, by simpa using List.find?_some hfind⟩

theorem findMonitor_map {f : Monitor → Monitor} (hf : Keeps f) (monitors : List Monitor) (id : ℕ) :
    findMonitor (monitors.map f) id = (findMonitor monitors id).map f := by
  have hid : (fun monitor : Monitor => decide (monitor.id = id)) ∘ f =
      fun monitor => decide (monitor.id = id) := by
    funext row
    rw [Function.comp_apply, hf.id]
  rw [findMonitor, findMonitor, List.find?_map, hid]

theorem Chain.map {parentId : Option ℕ} {chain : List ℕ} (h : Chain monitors parentId chain)
    {f : Monitor → Monitor} (hf : Keeps f) : Chain (monitors.map f) parentId chain := by
  induction h with
  | root => exact .root
  | @group id group rest hfind hpaused hkind _ ih =>
    have hfound : findMonitor (monitors.map f) id = some (f group) := by
      rw [findMonitor_map hf, hfind, Option.map_some]
    apply Chain.group hfound
    · rw [hf.paused, hpaused]
    · rw [hf.checkType, hkind]
    · rw [hf.parentId]
      exact ih

theorem ids_map {f : Monitor → Monitor} (hf : Keeps f) (monitors : List Monitor) :
    (monitors.map f).map (·.id) = monitors.map (·.id) := by
  rw [List.map_map]
  exact List.map_congr_left fun row _ => hf.id row

theorem recordUpdate_map (monitor : Monitor) (outcome : CheckResult) (now : ℤ)
    (monitors : List Monitor) :
    ∃ f, Keeps f ∧ (recordUpdate monitor outcome now monitors).1 = monitors.map f := by
  refine ⟨_, Keeps.ite (f := fun row =>
    { row with
      firstFailureAt := advanceFailureRun monitor.firstFailureAt outcome.judgment.verdict now
      currentStatus := (conclude monitor outcome now).status
      lastCheckedAt := some now }) ⟨?_, ?_, ?_, ?_⟩ _, rfl⟩
  all_goals
    intro row
    rfl

theorem synced_map (monitors : List Monitor) (group : Monitor) (outcome : CheckResult) :
    ∃ f, Keeps f ∧ (synced monitors group outcome).1 = monitors.map f := by
  unfold synced
  split
  · exact ⟨_, Keeps.refl, (List.map_id' monitors).symm⟩
  · rename_i memberInterval _
    split
    · exact ⟨_, Keeps.refl, (List.map_id' monitors).symm⟩
    · refine ⟨_, Keeps.ite (f := fun row => { row with intervalSeconds := memberInterval })
        ⟨?_, ?_, ?_, ?_⟩ _, rfl⟩
      all_goals
        intro row
        rfl

/-! ### One statement and one outcome -/

theorem bind_returned {α β : Type} (s : State) (value : α) (f : State → α → Result β) :
    (Result.returned s value).bind f = f s value := rfl

theorem bind_bind {α β γ : Type} (r : Result α) (f : State → α → Result β)
    (g : State → β → Result γ) : (r.bind f).bind g = r.bind fun s value => (f s value).bind g := by
  cases r with
  | outOfFuel | threw s | returned s value => rfl

theorem bind_unit (r : Result Unit) : (r.bind fun s _ => .returned s ()) = r := by
  cases r with
  | outOfFuel | threw s | returned s value => rfl

section Statements

variable {env : Env} (hquiet : Quiet env)

include hquiet

theorem statement_quiet {α : Type} (s : State) (run : List Monitor → List Monitor × α) :
    statement env s run =
      .returned { s with monitors := (run s.monitors).1, clock := s.clock + 1 }
        (run s.monitors).2 := by
  simp only [statement, hquiet.others, hquiet.fails, Bool.false_eq_true, if_false]

theorem evaluateMonitor_quiet (s : State) (group : Monitor) :
    evaluateMonitor env s group =
      .returned { s with clock := s.clock + 1, evaluated := group.id :: s.evaluated }
        (derivedOutcome s.monitors group) := by
  rw [evaluateMonitor, statement_quiet hquiet]
  rfl

theorem syncGroupCadence_quiet (s : State) (group : Monitor) (outcome : CheckResult) :
    ∃ clock, syncGroupCadence env s group outcome =
      .returned { s with monitors := (synced s.monitors group outcome).1, clock }
        (synced s.monitors group outcome).2 := by
  unfold syncGroupCadence synced
  cases wholeFact outcome.facts (js "memberIntervalSeconds") with
  | none => exact ⟨s.clock, rfl⟩
  | some memberInterval =>
    by_cases hsame : memberInterval = group.intervalSeconds
    · refine ⟨s.clock, ?_⟩
      simp only [if_pos hsame]
    · refine ⟨s.clock + 1, ?_⟩
      simp only [if_neg hsame]
      exact statement_quiet hquiet s _

end Statements

/-- A row that is found by its id is the only one that the update can be about. -/
theorem recordUpdate_parentId {monitor row updated : Monitor} (hids : (monitors.map (·.id)).Nodup)
    (hfind : findMonitor monitors monitor.id = some row) {outcome : CheckResult}
    (hupdated : (recordUpdate monitor outcome now monitors).2 = some updated) :
    updated.parentId = row.parentId := by
  obtain ⟨seen, hseen, rfl⟩ := Option.map_eq_some_iff.mp hupdated
  have hid : seen.id = monitor.id := by
    have hpassed := List.find?_some hseen
    simp only [Bool.and_eq_true, decide_eq_true_eq] at hpassed
    exact hpassed.1.1
  obtain ⟨hmem, hrow⟩ := of_findMonitor hfind
  have hsame : seen = row := List.inj_on_of_nodup_map hids (List.mem_of_find?_eq_some hseen)
    hmem (hid.trans hrow.symm)
  show seen.parentId = row.parentId
  rw [hsame]

/-- The row that the caller sees after the outcome is in the group that the stored row is in. -/
theorem recordCheckOutcome_quiet {env : Env} (hquiet : Quiet env) {s : State}
    (hids : (s.monitors.map (·.id)).Nodup) (hfind : findMonitor s.monitors monitor.id = some row)
    (outcome : CheckResult) (now : ℤ) : ∃ clock updated reconciliation,
      recordCheckOutcome env s monitor outcome now =
        .returned { s with monitors := (recordUpdate monitor outcome now s.monitors).1, clock }
          (updated, reconciliation) ∧
      updated.parentId = row.parentId := by
  rw [recordCheckOutcome, statement_quiet hquiet]
  cases hupdated : (recordUpdate monitor outcome now s.monitors).2 with
  | some updated =>
    exact ⟨_, updated, _, rfl, recordUpdate_parentId hids hfind hupdated⟩
  | none =>
    obtain ⟨f, hf, hmap⟩ := recordUpdate_map monitor outcome now s.monitors
    have hcurrent : findMonitor (recordUpdate monitor outcome now s.monitors).1 monitor.id =
        some (f row) := by
      rw [hmap, findMonitor_map hf, hfind, Option.map_some]
    simp only [Result.bind, statement_quiet hquiet, hcurrent]
    exact ⟨_, f row, _, rfl, hf.parentId row⟩

/-- When nothing else happens, an outcome is recorded and the groups above the row are refreshed. -/
theorem applyOutcome_quiet {env : Env} (hquiet : Quiet env) {s : State}
    (hids : (s.monitors.map (·.id)).Nodup) (hfind : findMonitor s.monitors monitor.id = some row)
    (fuel : ℕ) (outcome : CheckResult) (deps : ApplyOutcomeDeps) : ∃ clock updated,
      applyOutcome env (fuel + 1) s monitor outcome deps =
        (refreshGroups env fuel
          { s with
            monitors := (recordUpdate monitor outcome (deps.now.getD (env.wallClock s.clock))
              s.monitors).1
            clock }
          row.parentId deps).bind fun s _ => .returned s updated := by
  obtain ⟨clock, updated, reconciliation, hrecord, hparent⟩ :=
    recordCheckOutcome_quiet hquiet hids hfind outcome (deps.now.getD (env.wallClock s.clock))
  rw [applyOutcome, hrecord, ← hparent]
  simp only [Result.bind, statement_quiet hquiet]
  split
  · exact ⟨_, updated, rfl⟩
  · exact ⟨_, updated, rfl⟩

/-! ### The groups above -/

/-- The groups of `chain` were evaluated once each, the nearest first, and every one of them from
the table that the ones below it left. -/
structure Refreshed (s : State) (recorded : List Monitor) (chain : List ℕ) (s' : State) : Prop where
  evaluated : s'.evaluated = chain.reverse ++ s.evaluated
  rederived : Rederived recorded chain s'.monitors

theorem derived_recorded
    (hrecord : shouldRecord group (derivedOutcome monitors group) (synced monitors group
      (derivedOutcome monitors group)).2 now = true) : derived now monitors group =
      (recordUpdate group (derivedOutcome monitors group) now
        (synced monitors group (derivedOutcome monitors group)).1).1 :=
  if_pos hrecord

theorem derived_skipped
    (hrecord : ¬ shouldRecord group (derivedOutcome monitors group) (synced monitors group
      (derivedOutcome monitors group)).2 now = true) :
    derived now monitors group = (synced monitors group (derivedOutcome monitors group)).1 :=
  if_neg hrecord

theorem derived_map (now : ℤ) (monitors : List Monitor) (group : Monitor) :
    ∃ f, Keeps f ∧ derived now monitors group = monitors.map f := by
  obtain ⟨f, hf, hsynced⟩ := synced_map monitors group (derivedOutcome monitors group)
  by_cases hrecord : shouldRecord group (derivedOutcome monitors group)
      (synced monitors group (derivedOutcome monitors group)).2 now = true
  · obtain ⟨g, hg, hrecorded⟩ := recordUpdate_map group (derivedOutcome monitors group) now
      (synced monitors group (derivedOutcome monitors group)).1
    refine ⟨g ∘ f, hg.comp hf, ?_⟩
    rw [derived_recorded hrecord, hrecorded, hsynced, List.map_map]
  · refine ⟨f, hf, ?_⟩
    rw [derived_skipped hrecord, hsynced]

/-- One level, whether it is recorded or not: the group is derived, and the walk goes on above it
with one unit of depth less. -/
theorem refreshGroups_level {env : Env} (hquiet : Quiet env) {s : State} {id : ℕ}
    (hids : (s.monitors.map (·.id)).Nodup) (hfind : findMonitor s.monitors id = some group)
    (hpaused : group.paused = false) (hkind : checkTypeKind group.checkType = .aggregate)
    (deps : ApplyOutcomeDeps) (hdepth : deps.groupDepth.getD 0 < maxGroupDepth) (fuel : ℕ) :
    ∃ clock now later fuel', fuel ≤ fuel' ∧
      refreshGroups env (fuel + 2) s (some id) deps =
        (refreshGroups env fuel'
          { monitors := derived now s.monitors group, clock, evaluated := id :: s.evaluated }
          group.parentId { now := later, groupDepth := some (deps.groupDepth.getD 0 + 1) }).bind
            fun s _ => .returned s () := by
  have hopen : ¬ (group.paused || decide (checkTypeKind group.checkType ≠ .aggregate)) = true := by
    simp [hpaused, hkind]
  obtain ⟨_, rfl⟩ := of_findMonitor hfind
  rw [refreshGroups, if_neg (by omega), statement_quiet hquiet]
  simp only [bind_returned, hfind, if_neg hopen, evaluateMonitor_quiet hquiet]
  obtain ⟨clock, hsync⟩ := syncGroupCadence_quiet hquiet
    { s with clock := s.clock + 1 + 1, evaluated := group.id :: s.evaluated } group
    (derivedOutcome s.monitors group)
  rw [hsync, bind_returned]
  by_cases hrecord : shouldRecord group (derivedOutcome s.monitors group)
      (synced s.monitors group (derivedOutcome s.monitors group)).2
      (deps.now.getD (env.wallClock (s.clock + 1))) = true
  · obtain ⟨f, hf, hsynced⟩ := synced_map s.monitors group (derivedOutcome s.monitors group)
    have hids' : ((synced s.monitors group (derivedOutcome s.monitors group)).1.map
        (·.id)).Nodup := by
      rw [hsynced, ids_map hf]
      exact hids
    have hfind' : findMonitor (synced s.monitors group (derivedOutcome s.monitors group)).1
        group.id = some (f group) := by
      rw [hsynced, findMonitor_map hf, hfind, Option.map_some]
    rw [if_pos hrecord]
    obtain ⟨clock', updated, happly⟩ := applyOutcome_quiet hquiet
      (s := ⟨(synced s.monitors group (derivedOutcome s.monitors group)).1, clock,
        group.id :: s.evaluated⟩)
      hids' hfind' fuel (derivedOutcome s.monitors group)
      ⟨some (deps.now.getD (env.wallClock (s.clock + 1))), some (deps.groupDepth.getD 0 + 1)⟩
    refine ⟨clock', deps.now.getD (env.wallClock (s.clock + 1)),
      some (deps.now.getD (env.wallClock (s.clock + 1))), fuel, le_rfl, ?_⟩
    rw [derived_recorded hrecord, ← hf.parentId group]
    show Result.bind (applyOutcome _ _ _ _ _ _) _ = _
    rw [happly, bind_bind]
    rfl
  · rw [if_neg hrecord]
    refine ⟨clock, deps.now.getD (env.wallClock (s.clock + 1)), deps.now, fuel + 1,
      Nat.le_succ fuel, ?_⟩
    rw [derived_skipped hrecord, bind_unit]

/-- The walk derives as many of the groups as the depth leaves, and says nothing of the rest. -/
theorem refreshGroups_quiet {env : Env} (hquiet : Quiet env) (n : ℕ) :
    ∀ (deps : ApplyOutcomeDeps), maxGroupDepth - deps.groupDepth.getD 0 = n →
      ∀ (s : State) (parentId : Option ℕ) (chain : List ℕ), (s.monitors.map (·.id)).Nodup →
        Chain s.monitors parentId chain → ∀ fuel, 2 * n + 1 ≤ fuel →
          ∃ s', refreshGroups env fuel s parentId deps = .returned s' () ∧
            Refreshed s s.monitors (chain.take n) s' := by
  induction n with
  | zero =>
    intro deps hdepth s parentId chain hids hchain fuel hfuel
    obtain ⟨fuel, rfl⟩ : ∃ k, fuel = k + 1 := ⟨fuel - 1, by omega⟩
    have hdeep : deps.groupDepth.getD 0 ≥ maxGroupDepth := by omega
    refine ⟨s, ?_, ⟨rfl, .done s.monitors⟩⟩
    cases parentId with
    | none => rw [refreshGroups]
    | some id => rw [refreshGroups, if_pos hdeep]
  | succ n ih =>
    intro deps hdepth s parentId chain hids hchain fuel hfuel
    obtain ⟨fuel, rfl⟩ : ∃ k, fuel = k + 2 := ⟨fuel - 2, by omega⟩
    cases hchain with
    | root => exact ⟨s, by rw [refreshGroups], ⟨rfl, .done s.monitors⟩⟩
    | @group id group rest hfind hpaused hkind hrest =>
      obtain ⟨clock, now, later, fuel', hle, hlevel⟩ :=
        refreshGroups_level hquiet hids hfind hpaused hkind deps (by omega) fuel
      obtain ⟨f, hf, hmap⟩ := derived_map now s.monitors group
      obtain ⟨s', habove, hevaluated, hrederived⟩ :=
        ih { now := later, groupDepth := some (deps.groupDepth.getD 0 + 1) }
          (show maxGroupDepth - (deps.groupDepth.getD 0 + 1) = n by omega)
          { monitors := derived now s.monitors group, clock, evaluated := id :: s.evaluated }
          group.parentId rest (by rw [hmap, ids_map hf]; exact hids)
          (by rw [hmap]; exact hrest.map hf) fuel' (by omega)
      refine ⟨s', ?_, ?_, .level now hfind hrederived⟩
      · rw [hlevel, habove, bind_returned]
      · rw [hevaluated, List.take_succ_cons, List.reverse_cons, List.append_assoc,
          List.singleton_append]

/-! ### One outcome of a monitor -/

/-- What an outcome of `monitor` that arrives by itself leaves of the groups above it: the first
eight of them are refreshed. -/
theorem applyOutcome_refreshed {env : Env} (hquiet : Quiet env) {s : State} {chain : List ℕ}
    (hids : (s.monitors.map (·.id)).Nodup) (hfind : findMonitor s.monitors monitor.id = some row)
    (hchain : Chain s.monitors row.parentId chain) (outcome : CheckResult) (now : Option ℤ) :
    ∃ s' updated,
      (∀ fuel, 2 * maxGroupDepth + 2 ≤ fuel →
        applyOutcome env fuel s monitor outcome ⟨now, none⟩ = .returned s' updated) ∧
      Refreshed s (recordUpdate monitor outcome (now.getD (env.wallClock s.clock)) s.monitors).1
        (chain.take maxGroupDepth) s' := by
  obtain ⟨clock, updated, happly⟩ :=
    applyOutcome_quiet hquiet hids hfind (2 * maxGroupDepth + 1) outcome ⟨now, none⟩
  obtain ⟨f, hf, hmap⟩ :=
    recordUpdate_map monitor outcome (now.getD (env.wallClock s.clock)) s.monitors
  obtain ⟨s', hwalk, hrefreshed⟩ := refreshGroups_quiet hquiet maxGroupDepth ⟨now, none⟩ rfl
    { s with
      monitors := (recordUpdate monitor outcome (now.getD (env.wallClock s.clock)) s.monitors).1
      clock }
    row.parentId chain (by rw [hmap, ids_map hf]; exact hids) (by rw [hmap]; exact hchain.map hf)
    (2 * maxGroupDepth + 1) le_rfl
  have henough : applyOutcome env (2 * maxGroupDepth + 2) s monitor outcome ⟨now, none⟩ =
      .returned s' updated := by
    rw [happly]
    show Result.bind (refreshGroups _ _ _ _ _) _ = _
    rw [hwalk, bind_returned]
  refine ⟨s', updated, fun fuel hfuel => ?_, hrefreshed.evaluated, hrefreshed.rederived⟩
  rcases applyOutcome_extends env hfuel s monitor outcome ⟨now, none⟩ with hout | hsame
  · rw [henough] at hout
    contradiction
  · rw [hsame, henough]

/-- The outcome was recorded and every group above the monitor is refreshed. -/
def ReachesRoot (s : State) (recorded : List Monitor) (chain : List ℕ) : Result Monitor → Prop
  | .returned s' _ => Refreshed s recorded chain s'
  | .threw _ | .outOfFuel => False

/-- An outcome that arrives by itself reaches the root exactly when the monitor is under at most
eight groups, whatever the statuses, the intervals and the times of the last recordings on the
way. -/
theorem propagation_reaches_root {env : Env} (hquiet : Quiet env) {s : State}
    {monitor row : Monitor} {chain : List ℕ} (hids : (s.monitors.map (·.id)).Nodup)
    (hfind : findMonitor s.monitors monitor.id = some row)
    (hchain : Chain s.monitors row.parentId chain) (outcome : CheckResult) (now : Option ℤ) :
    ∃ result : Result Monitor,
      (∀ fuel, 2 * maxGroupDepth + 2 ≤ fuel →
        applyOutcome env fuel s monitor outcome ⟨now, none⟩ = result) ∧
      (ReachesRoot s
        (recordUpdate monitor outcome (now.getD (env.wallClock s.clock)) s.monitors).1 chain
        result ↔ chain.length ≤ maxGroupDepth) := by
  obtain ⟨s', updated, hruns, hrefreshed⟩ :=
    applyOutcome_refreshed hquiet hids hfind hchain outcome now
  refine ⟨.returned s' updated, hruns, ?_⟩
  constructor
  · rintro ⟨hevaluated, -⟩
    have hlengths := congrArg List.length (hevaluated.symm.trans hrefreshed.evaluated)
    simp only [List.length_append, List.length_reverse, List.length_take] at hlengths
    omega
  · intro hle
    rw [List.take_of_length_le hle] at hrefreshed
    exact hrefreshed

/-! ### Ten monitors, each in the one before -/

/-- A row of the service as the worker reads it before the first outcome. -/
def stored (monitor : Groups.Monitor) : Monitor :=
  { id := monitor.id
    name := js monitor.name
    parentId := monitor.parentId
    checkType := monitor.checkType
    shadowBridgeId := none
    paused := false
    currentStatus := .unknown
    intervalSeconds := 60
    failureWindowSeconds := 0
    firstFailureAt := none
    lastCheckedAt := none }

/-- Calls that create `n` groups, each in the one before, and a monitor in the last. -/
def nested (n : ℕ) : List Groups.Action :=
  (List.range (n + 1)).map fun k =>
    .createMonitor "org"
      { name := "Monitor"
        checkType := if k = n then "http" else "group"
        parentId := if k = 0 then none else some (k - 1) }

def nestedRows (n : ℕ) : List Monitor := (Groups.machine.reached (nested n)).monitors.map stored

def leaf (n : ℕ) : Monitor := stored ⟨n, "org", "Monitor", "http", some (n - 1)⟩

def alone : Env where
  others _ monitors := monitors
  fails _ := false
  incident _ := none
  wallClock _ := 0

def down : CheckResult := ⟨⟨.down, false, false, none, none, []⟩, [], none⟩

theorem alone_quiet : Quiet alone where
  others _ _ := rfl
  fails _ := rfl

theorem propagation_reaches_root_nested_two :
    ∃ result : Result Monitor,
      (∀ fuel, 18 ≤ fuel →
        applyOutcome alone fuel ⟨nestedRows 2, 0, []⟩ (leaf 2) down ⟨some 0, none⟩ = result) ∧
      (ReachesRoot ⟨nestedRows 2, 0, []⟩ (recordUpdate (leaf 2) down 0 (nestedRows 2)).1 [1, 0]
        result ↔ 2 ≤ maxGroupDepth) :=
  propagation_reaches_root alone_quiet (s := ⟨nestedRows 2, 0, []⟩) (by decide +kernel)
    (show findMonitor (nestedRows 2) (leaf 2).id = some (leaf 2) by decide +kernel)
    (show Chain (nestedRows 2) (some 1) [1, 0] by decide +kernel) down (some 0)

/-- The calls of the service put a monitor under nine groups, and the outermost one is not
refreshed. -/
theorem ninth_group_left_stale :
    (Groups.machine.exec (nested 9)).isSome = true ∧
    findMonitor (nestedRows 9) (leaf 9).id = some (leaf 9) ∧
    Chain (nestedRows 9) (leaf 9).parentId [8, 7, 6, 5, 4, 3, 2, 1, 0] ∧
    ∃ result : Result Monitor,
      (∀ fuel, 18 ≤ fuel →
        applyOutcome alone fuel ⟨nestedRows 9, 0, []⟩ (leaf 9) down ⟨some 0, none⟩ = result) ∧
      ¬ ReachesRoot ⟨nestedRows 9, 0, []⟩ (recordUpdate (leaf 9) down 0 (nestedRows 9)).1
        [8, 7, 6, 5, 4, 3, 2, 1, 0] result := by
  have hchain : Chain (nestedRows 9) (leaf 9).parentId [8, 7, 6, 5, 4, 3, 2, 1, 0] := by
    decide +kernel
  have hfind : findMonitor (nestedRows 9) (leaf 9).id = some (leaf 9) := by decide +kernel
  obtain ⟨s', updated, hruns, hrefreshed⟩ := applyOutcome_refreshed alone_quiet
    (s := ⟨nestedRows 9, 0, []⟩) (by decide +kernel) hfind hchain down (some 0)
  refine ⟨by decide +kernel, hfind, hchain, .returned s' updated, hruns, ?_⟩
  rintro ⟨hevaluated, -⟩
  have hlengths := congrArg List.length (hevaluated.symm.trans hrefreshed.evaluated)
  revert hlengths
  decide

end Vigil.Monitors.GroupChain
