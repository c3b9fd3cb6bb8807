import Mathlib.Data.List.Infix

/-! Runs of a machine whose steps are named by actions.  Every choice that the environment makes,
such as which party moves, what the clock reads, or what a peer answers, is part of the action, so
a step is a partial function and a run is a list of actions.  The rules below reduce a property of
whole runs to a property of one step. -/

namespace Vigil.Lib

/-- A machine with states `S` and actions `A`; `step s a` is `none` when `a` cannot happen in
`s`. -/
structure Machine (S A : Type) where
  init : S
  step : S → A → Option S

namespace Machine

variable {S A : Type} (M : Machine S A)

def exec (acts : List A) : Option S := acts.foldlM M.step M.init

@[simp] theorem exec_nil : M.exec [] = some M.init := rfl

theorem exec_concat (acts : List A) (a : A) :
    M.exec (acts ++ [a]) = (M.exec acts).bind fun s => M.step s a := by
  simp [exec, List.foldlM_append]

theorem exec_concat_eq_some {acts : List A} {a : A} {t : S} :
    M.exec (acts ++ [a]) = some t ↔ ∃ s, M.exec acts = some s ∧ M.step s a = some t := by
  rw [exec_concat, Option.bind_eq_some_iff]

/-- The run `acts` from a given state. -/
def execFrom (s : S) (acts : List A) : Option S := acts.foldlM M.step s

/-- The state after a run that can happen. -/
def reached (acts : List A) : S := (M.exec acts).getD M.init

def Reachable (t : S) : Prop := ∃ acts, M.exec acts = some t

/-- `P` holds in every state that the run `acts` passes through. -/
def Always (acts : List A) (P : S → Prop) : Prop :=
  ∀ visited, visited <+: acts → ∀ s, M.exec visited = some s → P s

/-- `G` holds of every step that the run `acts` takes: of the state before it and its action. -/
def EachStep (acts : List A) (G : S → A → Prop) : Prop :=
  ∀ visited a, visited ++ [a] <+: acts → ∀ s t, M.exec visited = some s → M.step s a = some t →
    G s a

/-- `R` holds of every step that the run `acts` takes: of the state before it, its action and the
state after it. -/
def EachMove (acts : List A) (R : S → A → S → Prop) : Prop :=
  ∀ visited a, visited ++ [a] <+: acts → ∀ s t, M.exec visited = some s → M.step s a = some t →
    R s a t

variable {M}

theorem Reachable.init : M.Reachable M.init := ⟨[], rfl⟩

theorem Reachable.step {s t : S} {a : A} (h : M.Reachable s) (hs : M.step s a = some t) :
    M.Reachable t := by
  obtain ⟨acts, hacts⟩ := h
  exact ⟨acts ++ [a], M.exec_concat_eq_some.mpr ⟨s, hacts, hs⟩⟩

theorem exec_reached {acts : List A} (h : (M.exec acts).isSome = true) :
    M.exec acts = some (M.reached acts) := by
  obtain ⟨s, hs⟩ := Option.isSome_iff_exists.mp h
  rw [reached, hs, Option.getD_some]

theorem step_reached {acts : List A} {a : A} (h : (M.exec (acts ++ [a])).isSome = true) :
    M.step (M.reached acts) a = some (M.reached (acts ++ [a])) := by
  obtain ⟨s, hs, hstep⟩ := M.exec_concat_eq_some.mp (exec_reached h)
  rw [reached, hs]
  exact hstep

theorem reached_of_exec {acts : List A} {s : S} (h : M.exec acts = some s) : M.reached acts = s := by
  rw [reached, h, Option.getD_some]

theorem execFrom_reached {acts rest : List A} (h : (M.exec (acts ++ rest)).isSome = true) :
    M.execFrom (M.reached acts) rest = some (M.reached (acts ++ rest)) := by
  have hrun := exec_reached h
  rw [exec, List.foldlM_append] at hrun
  obtain ⟨s, hs, hrest⟩ := Option.bind_eq_some_iff.mp hrun
  rw [reached_of_exec hs]
  exact hrest

/-- A property of the initial state that every step keeps holds in every reachable state. -/
theorem Reachable.induct {P : S → Prop} (init : P M.init)
    (step : ∀ s a t, M.Reachable s → P s → M.step s a = some t → P t) {s : S}
    (h : M.Reachable s) : P s := by
  obtain ⟨acts, hacts⟩ := h
  induction acts using List.reverseRecOn generalizing s with
  | nil =>
    obtain rfl : M.init = s := by simpa using hacts
    exact init
  | append_singleton acts a ih =>
    obtain ⟨r, hr, hs⟩ := M.exec_concat_eq_some.mp hacts
    exact step r a s ⟨acts, hr⟩ (ih hr) hs

/-- A property of a state that every step of a run from it keeps holds at the end of the run. -/
theorem execFrom_induct {P : S → Prop} {s t : S} {acts : List A}
    (h : M.execFrom s acts = some t) (start : P s)
    (step : ∀ r a r', a ∈ acts → P r → M.step r a = some r' → P r') : P t := by
  induction acts generalizing s with
  | nil =>
    obtain rfl : s = t := by simpa [execFrom] using h
    exact start
  | cons a acts ih =>
    obtain ⟨r, hr, hrest⟩ := Option.bind_eq_some_iff.mp h
    exact ih hrest (step s a r List.mem_cons_self start hr)
      fun r a r' ha => step r a r' (List.mem_cons_of_mem _ ha)

/-- As `execFrom_induct`, for a property that a step keeps where the run has come to it. -/
theorem execFrom_induct_visited {P : S → Prop} {s t : S} {acts : List A}
    (h : M.execFrom s acts = some t) (start : P s)
    (step : ∀ visited a r r', visited ++ [a] <+: acts → M.execFrom s visited = some r → P r →
      M.step r a = some r' → P r') : P t := by
  induction acts using List.reverseRecOn generalizing t with
  | nil =>
    obtain rfl : s = t := by simpa [Machine.execFrom] using h
    exact start
  | append_singleton acts a ih =>
    rw [Machine.execFrom, List.foldlM_append] at h
    obtain ⟨r, hr, hs⟩ := Option.bind_eq_some_iff.mp h
    refine step acts a r t List.prefix_rfl hr (ih hr fun visited b r r' hpre => ?_) (by simpa using hs)
    exact step visited b r r' (hpre.trans (List.prefix_append acts [a]))

theorem exec_append_eq_some {acts rest : List A} {s t : S} (hs : M.exec acts = some s)
    (hrest : M.execFrom s rest = some t) : M.exec (acts ++ rest) = some t := by
  rw [exec, List.foldlM_append]
  exact Option.bind_eq_some_iff.mpr ⟨s, hs, hrest⟩

theorem Always.of_reachable {P : S → Prop} (h : ∀ s, M.Reachable s → P s) (acts : List A) :
    M.Always acts P :=
  fun visited _ s hs => h s ⟨visited, hs⟩

/-- A property that every step keeps when the step meets `G` holds throughout a run whose steps
all meet `G`. -/
theorem Always.of_eachStep {P : S → Prop} {G : S → A → Prop} {acts : List A} (init : P M.init)
    (step : ∀ s a t, M.Reachable s → P s → G s a → M.step s a = some t → P t)
    (hG : M.EachStep acts G) : M.Always acts P := by
  intro visited
  induction visited using List.reverseRecOn with
  | nil =>
    intro _ s hs
    obtain rfl : M.init = s := by simpa using hs
    exact init
  | append_singleton visited a ih =>
    intro hpre t ht
    obtain ⟨s, hs, hst⟩ := M.exec_concat_eq_some.mp ht
    have hshort : visited <+: acts := (List.prefix_append visited [a]).trans hpre
    exact step s a t ⟨visited, hs⟩ (ih hshort s hs) (hG visited a hpre s t hs hst) hst

theorem EachStep.nil {G : S → A → Prop} : M.EachStep [] G := by
  intro visited a hpre
  exact absurd (List.prefix_nil.mp hpre) (List.append_ne_nil_of_right_ne_nil visited (by simp))

/-- The steps of a run that is written out, one after another. -/
theorem EachStep.cons {G : S → A → Prop} {acts : List A} {a : A}
    (h : ∀ t, M.step M.init a = some t →
      G M.init a ∧ ({ M with init := t } : Machine S A).EachStep acts G) :
    M.EachStep (a :: acts) G := by
  intro visited b hpre s t hs hst
  cases visited with
  | nil =>
    obtain rfl : M.init = s := by simpa using hs
    obtain ⟨rfl, -⟩ := List.cons_prefix_cons.mp hpre
    exact (h t hst).1
  | cons c visited =>
    obtain ⟨rfl, hrest⟩ := List.cons_prefix_cons.mp hpre
    obtain ⟨r, hr, hs⟩ := Option.bind_eq_some_iff.mp hs
    exact (h r hr).2 visited b hrest s t hs hst

theorem Always.head {P : S → Prop} {acts : List A} (h : M.Always acts P) : P M.init :=
  h [] List.nil_prefix M.init rfl

/-- What holds throughout a run holds throughout what is left of it after its first step. -/
theorem Always.tail {P : S → Prop} {acts : List A} {a : A} {t : S} (h : M.Always (a :: acts) P)
    (ht : M.step M.init a = some t) : ({ M with init := t } : Machine S A).Always acts P := by
  intro visited hpre s hs
  refine h (a :: visited) (List.cons_prefix_cons.mpr ⟨rfl, hpre⟩) s ?_
  exact Option.bind_eq_some_iff.mpr ⟨t, ht, hs⟩

theorem EachStep.head {G : S → A → Prop} {acts : List A} {a : A} {t : S}
    (h : M.EachStep (a :: acts) G) (ht : M.step M.init a = some t) : G M.init a :=
  h [] a (List.cons_prefix_cons.mpr ⟨rfl, List.nil_prefix⟩) M.init t rfl ht

theorem EachStep.tail {G : S → A → Prop} {acts : List A} {a : A} {t : S}
    (h : M.EachStep (a :: acts) G) (ht : M.step M.init a = some t) :
    ({ M with init := t } : Machine S A).EachStep acts G := by
  intro visited b hpre s u hs hu
  refine h (a :: visited) b (List.cons_prefix_cons.mpr ⟨rfl, hpre⟩) s u ?_ hu
  exact Option.bind_eq_some_iff.mpr ⟨t, ht, hs⟩

/-- Whether every step of the run from `s` passes the test. -/
def checks (step : S → A → Option S) (test : S → A → Bool) : S → List A → Bool
  | _, [] => true
  | s, a :: acts => test s a && (step s a).all fun t => checks step test t acts

theorem EachStep.of_checks {G : S → A → Prop} {test : S → A → Bool}
    (hG : ∀ s a, test s a = true → G s a) {acts : List A}
    (h : checks M.step test M.init acts = true) : M.EachStep acts G := by
  induction acts generalizing M with
  | nil => exact .nil
  | cons a acts ih =>
    obtain ⟨htest, hrest⟩ := Bool.and_eq_true_iff.mp h
    refine .cons fun t ht => ⟨hG M.init a htest, ih ?_⟩
    rw [ht] at hrest
    exact hrest

/-- Whether every state of the run from `s` passes the test. -/
def checksStates (step : S → A → Option S) (test : S → Bool) : S → List A → Bool
  | s, [] => test s
  | s, a :: acts => test s && (step s a).all fun t => checksStates step test t acts

theorem Always.of_checks {P : S → Prop} {test : S → Bool} (hP : ∀ s, test s = true → P s)
    {acts : List A} (h : checksStates M.step test M.init acts = true) : M.Always acts P := by
  induction acts generalizing M with
  | nil =>
    intro visited hpre s hs
    obtain rfl := List.prefix_nil.mp hpre
    obtain rfl : M.init = s := by simpa using hs
    exact hP _ h
  | cons a acts ih =>
    obtain ⟨htest, hrest⟩ := Bool.and_eq_true_iff.mp h
    intro visited hpre s hs
    cases visited with
    | nil =>
      obtain rfl : M.init = s := by simpa using hs
      exact hP _ htest
    | cons b visited =>
      obtain ⟨rfl, hshort⟩ := List.cons_prefix_cons.mp hpre
      obtain ⟨t, ht, hs⟩ := Option.bind_eq_some_iff.mp hs
      rw [ht] at hrest
      exact ih (M := { M with init := t }) hrest visited hshort s hs

/-- When a step from a good state leads to a good state exactly if it meets `G`, a run stays good
exactly if all of its steps meet `G`. -/
theorem always_iff_eachStep {P : S → Prop} {G : S → A → Prop} (init : P M.init)
    (step : ∀ s a t, M.Reachable s → P s → M.step s a = some t → (P t ↔ G s a))
    (acts : List A) : M.Always acts P ↔ M.EachStep acts G := by
  constructor
  · intro h visited a hpre s t hs hst
    have hshort : visited <+: acts := (List.prefix_append visited [a]).trans hpre
    have ht : M.exec (visited ++ [a]) = some t := M.exec_concat_eq_some.mpr ⟨s, hs, hst⟩
    exact (step s a t ⟨visited, hs⟩ (h visited hshort s hs) hst).mp (h _ hpre t ht)
  · exact Always.of_eachStep init fun s a t hr hs hg hst => (step s a t hr hs hst).mpr hg

theorem EachMove.of_reachable {R : S → A → S → Prop}
    (h : ∀ s a t, M.Reachable s → M.step s a = some t → R s a t) (acts : List A) :
    M.EachMove acts R :=
  fun visited a _ s t hs hst => h s a t ⟨visited, hs⟩ hst

/-- When a step has `R` exactly if it meets `G`, the steps of a run all have `R` exactly if they all
meet `G`. -/
theorem eachMove_iff_eachStep {R : S → A → S → Prop} {G : S → A → Prop}
    (h : ∀ s a t, M.Reachable s → M.step s a = some t → (R s a t ↔ G s a)) (acts : List A) :
    M.EachMove acts R ↔ M.EachStep acts G := by
  constructor
  · exact fun hR visited a hpre s t hs hst =>
      (h s a t ⟨visited, hs⟩ hst).mp (hR visited a hpre s t hs hst)
  · exact fun hG visited a hpre s t hs hst =>
      (h s a t ⟨visited, hs⟩ hst).mpr (hG visited a hpre s t hs hst)

end Machine

end Vigil.Lib
