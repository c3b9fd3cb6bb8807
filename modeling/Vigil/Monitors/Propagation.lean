import Vigil.Monitors.CheckTypes
import Vigil.Monitors.GroupVerdict

/-! `applyOutcome` and `refreshGroups` of `monitors/outcome.ts`, which call each other up the parents
that are stored on the monitors.  Any other transaction may change the monitors before each
statement, and a statement may fail; which incident is there to be handled is up to the environment
too.  The fuel is how deep the calls may nest. -/

namespace Vigil.Monitors.Propagation

open Js.Text Js.Object Ledger.Canonical StatusController Conditions GroupVerdict CheckTypes

/-- The columns of a monitor that the propagation reads or writes. -/
structure Monitor where
  id : ℕ
  name : JsString
  parentId : Option ℕ
  checkType : String
  shadowBridgeId : Option ℕ
  paused : Bool
  currentStatus : MonitorStatus
  intervalSeconds : ℕ
  failureWindowSeconds : ℤ
  firstFailureAt : Option ℤ
  lastCheckedAt : Option ℤ
  deriving DecidableEq, Repr

structure CheckResult where
  judgment : Judgment
  facts : Entries
  holdResolve : Option Bool

structure ApplyOutcomeDeps where
  now : Option ℤ
  groupDepth : Option ℕ

def maxGroupDepth : ℕ := 8

structure State where
  monitors : List Monitor
  /-- How many statements have run. -/
  clock : ℕ
  /-- The groups that `refreshGroups` evaluated, the last one first. -/
  evaluated : List ℕ

structure Env where
  /-- What other transactions make of the monitors before a statement. -/
  others : ℕ → List Monitor → List Monitor
  fails : ℕ → Bool
  /-- Whether the incident that was opened, or is still to be handled, is one of shadow mode. -/
  incident : ℕ → Option Bool
  wallClock : ℕ → ℤ

/-- A computation that ran out of fuel, threw, or returned. -/
inductive Result (α : Type) where
  | outOfFuel
  | threw (s : State)
  | returned (s : State) (value : α)

def Result.bind {α β : Type} : Result α → (State → α → Result β) → Result β
  | .outOfFuel, _ => .outOfFuel
  | .threw s, _ => .threw s
  | .returned s value, f => f s value

/-- One statement: it fails, or runs on the monitors as they have become. -/
def statement {α : Type} (env : Env) (s : State) (run : List Monitor → List Monitor × α) :
    Result α :=
  let monitors := env.others s.clock s.monitors
  if env.fails s.clock then .threw { s with monitors, clock := s.clock + 1 }
  else
    let (monitors, value) := run monitors
    .returned { s with monitors, clock := s.clock + 1 } value

def findMonitor (monitors : List Monitor) (id : ℕ) : Option Monitor :=
  monitors.find? fun monitor => monitor.id = id

def updateMonitor (monitors : List Monitor) (id : ℕ) (f : Monitor → Monitor) : List Monitor :=
  monitors.map fun monitor => if monitor.id = id then f monitor else monitor

/-- What the status controller concludes from the caller's copy of the row. -/
def conclude (monitor : Monitor) (outcome : CheckResult) (now : ℤ) : Reconciliation :=
  reconcile { failureWindowSeconds := monitor.failureWindowSeconds }
    { verdict := outcome.judgment.verdict
      firstFailureAt := advanceFailureRun monitor.firstFailureAt outcome.judgment.verdict now
      previousStatus := monitor.currentStatus
      now
      degradedResolves := some (outcome.holdResolve != some true) }

/-- The update of `recordCheckOutcome`, which asks for the row as the caller saw it. -/
def recordUpdate (monitor : Monitor) (outcome : CheckResult) (now : ℤ) (monitors : List Monitor) :
    List Monitor × Option Monitor :=
  let asSeen (row : Monitor) : Bool :=
    row.id = monitor.id && !row.paused && row.firstFailureAt = monitor.firstFailureAt
  let update (row : Monitor) : Monitor :=
    { row with
      firstFailureAt := advanceFailureRun monitor.firstFailureAt outcome.judgment.verdict now
      currentStatus := (conclude monitor outcome now).status
      lastCheckedAt := some now }
  (monitors.map fun row => if asSeen row then update row else row, (monitors.find? asSeen).map update)

def recordCheckOutcome (env : Env) (s : State) (monitor : Monitor) (outcome : CheckResult)
    (now : ℤ) : Result (Monitor × Reconciliation) :=
  (statement env s (recordUpdate monitor outcome now)).bind fun s updated =>
    match updated with
    | some updated => .returned s (updated, conclude monitor outcome now)
    | none =>
      (statement env s fun monitors => (monitors, findMonitor monitors monitor.id)).bind
        fun s current =>
          match current with
          | none => .threw s
          | some current =>
            .returned s (current, ⟨current.currentStatus, false, false⟩)

/-- The members of a group, by the shadow setting that the group was read with. -/
def childStates (monitors : List Monitor) (group : Monitor) : List ChildState :=
  (monitors.filter fun child => child.parentId = some group.id &&
      child.shadowBridgeId = group.shadowBridgeId).map fun child =>
    ⟨child.name, child.currentStatus, child.paused, child.intervalSeconds⟩

/-- `evaluateMonitor` of a group. -/
def evaluateMonitor (env : Env) (s : State) (group : Monitor) : Result CheckResult :=
  (statement env s fun monitors => (monitors, childStates monitors group)).bind fun s children =>
    let result := derive children
    .returned { s with evaluated := group.id :: s.evaluated }
      { judgment := judge assertions () result, facts := result.facts, holdResolve := none }

/-- `numberFact` of a fact that is a whole number or none. -/
def wholeFact (facts : Entries) (key : JsString) : Option ℕ :=
  match (JsObject.of facts).get key with
  | .number (.integer n) => some n.toNat
  | _ => none

/-- The group's interval after it was made equal to that of its slowest member. -/
def syncGroupCadence (env : Env) (s : State) (group : Monitor) (outcome : CheckResult) :
    Result ℕ :=
  match wholeFact outcome.facts (js "memberIntervalSeconds") with
  | none => .returned s group.intervalSeconds
  | some memberInterval =>
    if memberInterval = group.intervalSeconds then .returned s group.intervalSeconds
    else statement env s fun monitors =>
      (updateMonitor monitors group.id fun row => { row with intervalSeconds := memberInterval },
        memberInterval)

def shouldRecord (group : Monitor) (outcome : CheckResult) (intervalSeconds : ℕ) (now : ℤ) : Bool :=
  match group.lastCheckedAt with
  | none => true
  | some lastCheckedAt =>
    statusOf outcome.judgment.verdict ≠ group.currentStatus ||
      now - lastCheckedAt ≥ intervalSeconds * 1000

mutual

/-- An outcome is recorded, its incident handled, and the groups above refreshed. -/
def applyOutcome (env : Env) :
    ℕ → State → Monitor → CheckResult → ApplyOutcomeDeps → Result Monitor
  | 0, _, _, _, _ => .outOfFuel
  | fuel + 1, s, monitor, outcome, deps =>
    let now := deps.now.getD (env.wallClock s.clock)
    (recordCheckOutcome env s monitor outcome now).bind fun s (updated, reconciliation) =>
      -- The incident is opened or looked for, or incidents are resolved, in statements of their own.
      (statement env s fun monitors => (monitors, ())).bind fun s _ =>
        if reconciliation.openIncident ∧ env.incident s.clock = some true then
          -- An incident of shadow mode is marked and left alone; the groups are refreshed here.
          (statement env s fun monitors => (monitors, ())).bind fun s _ =>
            (refreshGroups env fuel s updated.parentId deps).bind fun s _ => .returned s updated
        else
          (refreshGroups env fuel s updated.parentId deps).bind fun s _ => .returned s updated

/-- A group and those above it are evaluated, up to a bound of the depth. -/
def refreshGroups (env : Env) : ℕ → State → Option ℕ → ApplyOutcomeDeps → Result Unit
  | 0, _, _, _ => .outOfFuel
  | _ + 1, s, none, _ => .returned s ()
  | fuel + 1, s, some groupId, deps =>
    let depth := deps.groupDepth.getD 0
    if depth ≥ maxGroupDepth then .returned s ()
    else
      let deeper := { deps with groupDepth := some (depth + 1) }
      (statement env s fun monitors => (monitors, findMonitor monitors groupId)).bind fun s group =>
        match group with
        | none => .returned s ()
        | some group =>
          if group.paused || checkTypeKind group.checkType ≠ .aggregate then .returned s ()
          else
            let now := deps.now.getD (env.wallClock s.clock)
            (evaluateMonitor env s group).bind fun s outcome =>
              (syncGroupCadence env s group outcome).bind fun s intervalSeconds =>
                if shouldRecord group outcome intervalSeconds now then
                  (applyOutcome env fuel s group outcome { deeper with now := some now }).bind
                    fun s _ => .returned s ()
                else refreshGroups env fuel s group.parentId deeper

end

/-! ### Enough fuel -/

/-- `r'` is what `r` becomes with more fuel. -/
def Result.Extends {α : Type} (r' r : Result α) : Prop := r = .outOfFuel ∨ r' = r

variable {α : Type}

theorem Result.Extends.refl (r : Result α) : r.Extends r := Or.inr rfl

theorem Result.Extends.trans {r₁ r₂ r₃ : Result α} (h₂₁ : r₂.Extends r₁) (h₃₂ : r₃.Extends r₂) :
    r₃.Extends r₁ := by
  rcases h₂₁ with hfuel | rfl
  · exact Or.inl hfuel
  · exact h₃₂

theorem Result.Extends.bind {α β : Type} (r : Result α) {f g : State → α → Result β}
    (hgf : ∀ s value, (g s value).Extends (f s value)) : (r.bind g).Extends (r.bind f) := by
  cases r with
  | outOfFuel => exact Or.inl rfl
  | threw s => exact Or.inr rfl
  | returned s value => exact hgf s value

theorem Result.Extends.bind_left {α β : Type} {r r' : Result α} (hr : r'.Extends r)
    (f : State → α → Result β) : (r'.bind f).Extends (r.bind f) := by
  rcases hr with rfl | rfl
  · exact Or.inl rfl
  · exact Result.Extends.refl _

variable (env : Env)

/-- One more unit of fuel changes nothing but a run that ended for want of it. -/
theorem propagation_extends (fuel : ℕ) : (∀ s monitor outcome deps,
      (applyOutcome env (fuel + 1) s monitor outcome deps).Extends
        (applyOutcome env fuel s monitor outcome deps)) ∧
    ∀ s groupId deps,
      (refreshGroups env (fuel + 1) s groupId deps).Extends
        (refreshGroups env fuel s groupId deps) := by
  induction fuel with
  | zero =>
    refine ⟨fun s monitor outcome deps => Or.inl ?_, fun s groupId deps => Or.inl ?_⟩
    · rw [applyOutcome]
    · rw [refreshGroups]
  | succ fuel ih =>
    obtain ⟨ihApply, ihRefresh⟩ := ih
    constructor
    · intro s monitor outcome deps
      rw [applyOutcome, applyOutcome]
      apply Result.Extends.bind
      rintro s ⟨updated, reconciliation⟩
      apply Result.Extends.bind
      intro s _
      show Result.Extends (if _ then _ else _) (if _ then _ else _)
      split
      · apply Result.Extends.bind
        intro s _
        exact (ihRefresh s updated.parentId deps).bind_left _
      · exact (ihRefresh s updated.parentId deps).bind_left _
    · intro s groupId deps
      cases groupId with
      | none =>
        rw [refreshGroups, refreshGroups]
        exact Result.Extends.refl _
      | some groupId =>
        rw [refreshGroups, refreshGroups]
        split
        · exact Result.Extends.refl _
        · apply Result.Extends.bind
          intro s group
          cases group with
          | none => exact Result.Extends.refl _
          | some group =>
            show Result.Extends (if _ then _ else _) (if _ then _ else _)
            split
            · exact Result.Extends.refl _
            · apply Result.Extends.bind
              intro s outcome
              apply Result.Extends.bind
              intro s intervalSeconds
              show Result.Extends (if _ then _ else _) (if _ then _ else _)
              split
              · exact (ihApply s group outcome _).bind_left _
              · exact ihRefresh s group.parentId _

theorem applyOutcome_extends {fuel fuel' : ℕ} (hle : fuel ≤ fuel') (s : State) (monitor : Monitor)
    (outcome : CheckResult) (deps : ApplyOutcomeDeps) :
    (applyOutcome env fuel' s monitor outcome deps).Extends
      (applyOutcome env fuel s monitor outcome deps) := by
  induction hle with
  | refl => exact Result.Extends.refl _
  | step _ ih => exact ih.trans ((propagation_extends env _).1 s monitor outcome deps)

theorem refreshGroups_extends {fuel fuel' : ℕ} (hle : fuel ≤ fuel') (s : State) (groupId : Option ℕ)
    (deps : ApplyOutcomeDeps) :
    (refreshGroups env fuel' s groupId deps).Extends (refreshGroups env fuel s groupId deps) := by
  induction hle with
  | refl => exact Result.Extends.refl _
  | step _ ih => exact ih.trans ((propagation_extends env _).2 s groupId deps)

/-! ### The groups on the way -/

/-- The run ends, and evaluated at most `bound` groups after `s`. -/
def Result.EndsWithin {α : Type} (s : State) (bound : ℕ) : Result α → Prop
  | .outOfFuel => False
  | .threw s' | .returned s' _ =>
    ∃ groups, s'.evaluated = groups ++ s.evaluated ∧ groups.length ≤ bound

theorem Result.EndsWithin.bind {α β : Type} {s : State} {n m : ℕ} {r : Result α}
    {f : State → α → Result β} (hr : r.EndsWithin s n)
    (hf : ∀ s' value, (f s' value).EndsWithin s' m) : (r.bind f).EndsWithin s (n + m) := by
  cases r with
  | outOfFuel => exact hr.elim
  | threw s' =>
    obtain ⟨groups, heq, hle⟩ := hr
    exact ⟨groups, heq, by omega⟩
  | returned s' value =>
    obtain ⟨groups, heq, hle⟩ := hr
    have hafter := hf s' value
    show (f s' value).EndsWithin s (n + m)
    cases hresult : f s' value with
    | outOfFuel => exact (hresult ▸ hafter).elim
    | threw s'' | returned s'' _ =>
      rw [hresult] at hafter
      obtain ⟨more, heq', hle'⟩ := hafter
      refine ⟨more ++ groups, ?_, ?_⟩
      · rw [heq', heq, List.append_assoc]
      · rw [List.length_append]
        omega

theorem Result.EndsWithin.le {s : State} {n m : ℕ} {r : Result α} (hr : r.EndsWithin s n)
    (hnm : n ≤ m) : r.EndsWithin s m := by
  cases r with
  | outOfFuel => exact hr
  | threw s' | returned s' _ =>
    obtain ⟨groups, heq, hle⟩ := hr
    exact ⟨groups, heq, hle.trans hnm⟩

theorem returned_endsWithin (s : State) (value : α) (n : ℕ) :
    (Result.returned s value).EndsWithin s n := ⟨[], rfl, Nat.zero_le n⟩

theorem statement_endsWithin (s : State) (run : List Monitor → List Monitor × α) :
    (statement env s run).EndsWithin s 0 := by
  unfold statement
  split
  · exact ⟨[], rfl, le_rfl⟩
  · exact ⟨[], rfl, le_rfl⟩

theorem recordCheckOutcome_endsWithin (s : State) (monitor : Monitor) (outcome : CheckResult)
    (now : ℤ) : (recordCheckOutcome env s monitor outcome now).EndsWithin s 0 := by
  unfold recordCheckOutcome
  apply (statement_endsWithin env s _).bind (m := 0)
  intro s updated
  cases updated with
  | some updated => exact returned_endsWithin s _ 0
  | none =>
    apply (statement_endsWithin env s _).bind (m := 0)
    intro s current
    cases current with
    | none => exact ⟨[], rfl, le_rfl⟩
    | some current => exact returned_endsWithin s _ 0

theorem evaluateMonitor_endsWithin (s : State) (group : Monitor) :
    (evaluateMonitor env s group).EndsWithin s 1 := by
  unfold evaluateMonitor
  apply (statement_endsWithin env s _).bind (m := 1)
  intro s children
  exact ⟨[group.id], rfl, le_rfl⟩

theorem syncGroupCadence_endsWithin (s : State) (group : Monitor) (outcome : CheckResult) :
    (syncGroupCadence env s group outcome).EndsWithin s 0 := by
  unfold syncGroupCadence
  split
  · exact returned_endsWithin s _ 0
  · split
    · exact returned_endsWithin s _ 0
    · exact statement_endsWithin env s _

/-- One level: what refreshing the groups needs above an outcome, the outcome needs too. -/
theorem applyOutcome_endsWithin {env : Env} {fuel : ℕ} {deps : ApplyOutcomeDeps} {n : ℕ}
    (hrefresh : ∀ s groupId, (refreshGroups env fuel s groupId deps).EndsWithin s n) (s : State)
    (monitor : Monitor) (outcome : CheckResult) :
    (applyOutcome env (fuel + 1) s monitor outcome deps).EndsWithin s n := by
  have hafter : ∀ (s : State) (updated : Monitor),
      ((refreshGroups env fuel s updated.parentId deps).bind fun s _ =>
        Result.returned s updated).EndsWithin s n := by
    intro s updated
    exact (hrefresh s updated.parentId).bind fun s' _ => returned_endsWithin s' updated 0
  rw [applyOutcome]
  apply ((recordCheckOutcome_endsWithin env s monitor outcome _).bind (m := n) _).le (by omega)
  rintro s ⟨updated, reconciliation⟩
  apply ((statement_endsWithin env s _).bind (m := n) _).le (by omega)
  intro s _
  show Result.EndsWithin s n (if _ then _ else _)
  split
  · apply ((statement_endsWithin env s _).bind (m := n) _).le (by omega)
    intro s _
    exact hafter s updated
  · exact hafter s updated

/-- The depth goes up with every group that is evaluated, so the levels left bound both. -/
theorem refreshGroups_endsWithin (n : ℕ) :
    ∀ (deps : ApplyOutcomeDeps), maxGroupDepth - deps.groupDepth.getD 0 ≤ n →
      ∀ (s : State) (groupId : Option ℕ),
        (refreshGroups env (2 * n + 1) s groupId deps).EndsWithin s n := by
  induction n with
  | zero =>
    intro deps hdepth s groupId
    have hdeep : deps.groupDepth.getD 0 ≥ maxGroupDepth := by omega
    cases groupId with
    | none =>
      rw [refreshGroups]
      exact returned_endsWithin s () 0
    | some groupId =>
      rw [refreshGroups, if_pos hdeep]
      exact returned_endsWithin s () 0
  | succ n ih =>
    intro deps hdepth s groupId
    cases groupId with
    | none =>
      rw [show 2 * (n + 1) + 1 = (2 * n + 2) + 1 by omega, refreshGroups]
      exact returned_endsWithin s () _
    | some groupId =>
      rw [show 2 * (n + 1) + 1 = (2 * n + 2) + 1 by omega, refreshGroups]
      split
      · exact returned_endsWithin s () _
      · have hdeeper : ∀ now, ∀ (s : State) (groupId : Option ℕ),
            (refreshGroups env (2 * n + 1) s groupId
              { deps with groupDepth := some (deps.groupDepth.getD 0 + 1), now }).EndsWithin s n := by
          intro now
          apply ih
          show maxGroupDepth - (deps.groupDepth.getD 0 + 1) ≤ n
          omega
        apply ((statement_endsWithin env s _).bind (m := n + 1) _).le (by omega)
        intro s group
        cases group with
        | none => exact returned_endsWithin s () _
        | some group =>
          show Result.EndsWithin s (n + 1) (if _ then _ else _)
          split
          · exact returned_endsWithin s () _
          · apply ((evaluateMonitor_endsWithin env s group).bind (m := n) _).le (by omega)
            intro s outcome
            apply ((syncGroupCadence_endsWithin env s group outcome).bind (m := n) _).le (by omega)
            intro s intervalSeconds
            show Result.EndsWithin s n (if _ then _ else _)
            split
            · apply (applyOutcome_endsWithin (hdeeper _) s group outcome).bind (m := 0)
              intro s _
              exact returned_endsWithin s () 0
            · have hmore := refreshGroups_extends env (Nat.le_succ (2 * n + 1)) s group.parentId
                { deps with groupDepth := some (deps.groupDepth.getD 0 + 1) }
              have hends := hdeeper deps.now s group.parentId
              rcases hmore with hfuel | hsame
              · exact (hfuel ▸ hends).elim
              · exact hsame ▸ hends

/-- A run that ends within a bound ends so with any more fuel, and with the same result. -/
theorem Result.EndsWithin.settled {s : State} {n enough : ℕ} {f : ℕ → Result α}
    (hends : (f enough).EndsWithin s n)
    (hextends : ∀ fuel, enough ≤ fuel → (f fuel).Extends (f enough)) :
    ∃ result : Result α, result.EndsWithin s n ∧ ∀ fuel, enough ≤ fuel → f fuel = result := by
  refine ⟨f enough, hends, fun fuel hfuel => ?_⟩
  rcases hextends fuel hfuel with hout | hsame
  · exact (hout ▸ hends).elim
  · exact hsame

/-- Whatever the parents that are stored, however other transactions change them meanwhile and
whichever statements fail, both functions end, and the groups that they evaluate are at most as many
as the depth leaves. -/
theorem propagation_ends (env : Env) (s : State) (deps : ApplyOutcomeDeps) :
    (∀ monitor outcome, ∃ result : Result Monitor,
      result.EndsWithin s (maxGroupDepth - deps.groupDepth.getD 0) ∧
      ∀ fuel, 2 * maxGroupDepth + 2 ≤ fuel →
        applyOutcome env fuel s monitor outcome deps = result) ∧
    ∀ groupId, ∃ result : Result Unit,
      result.EndsWithin s (maxGroupDepth - deps.groupDepth.getD 0) ∧
      ∀ fuel, 2 * maxGroupDepth + 1 ≤ fuel → refreshGroups env fuel s groupId deps = result := by
  have hends := refreshGroups_endsWithin env _ deps le_rfl
  constructor
  · intro monitor outcome
    obtain ⟨result, hresult, hsettled⟩ := (applyOutcome_endsWithin hends s monitor outcome).settled
      (f := fun fuel => applyOutcome env fuel s monitor outcome deps)
      fun fuel hfuel => applyOutcome_extends env hfuel s monitor outcome deps
    exact ⟨result, hresult, fun fuel hfuel => hsettled fuel (by omega)⟩
  · intro groupId
    obtain ⟨result, hresult, hsettled⟩ := (hends s groupId).settled
      (f := fun fuel => refreshGroups env fuel s groupId deps)
      fun fuel hfuel => refreshGroups_extends env hfuel s groupId deps
    exact ⟨result, hresult, fun fuel hfuel => hsettled fuel (by omega)⟩

end Vigil.Monitors.Propagation
