import Vigil.Lib.Run
import Mathlib.Algebra.Order.Ring.Int
import Mathlib.Algebra.Order.Group.Abs

/-! `SchedulerClock` of `highfreq/clock.ts`, with the two clocks of the host under it.  A monotonic
reading has three decimals of a millisecond, so readings are whole microseconds here; `Date.now()` is
the whole milliseconds of the wall clock.  Nothing runs between two readings of `Date.now()` in one
call, and the two are one. -/

namespace Vigil.HighFreq.Clock

open Lib

def reanchorThresholdMs : ℤ := 1000

structure ClockAnchor where
  wallMs : ℤ
  monoMs : ℤ
  deriving DecidableEq, Repr

structure SchedulerClock where
  anchor : ClockAnchor
  steps : ℕ
  deriving DecidableEq, Repr

/-- `Math.round` of a number of milliseconds: half of one is rounded up. -/
def round (ms : ℤ) : ℤ := (ms + 500) / 1000

def SchedulerClock.new (dateNow : ℤ) (monotonic : ℤ) : SchedulerClock :=
  { anchor := { wallMs := dateNow, monoMs := monotonic }, steps := 0 }

def SchedulerClock.reconstructed (clock : SchedulerClock) (monoMs : ℤ) : ℤ :=
  1000 * clock.anchor.wallMs + (monoMs - clock.anchor.monoMs)

def SchedulerClock.wallAt (clock : SchedulerClock) (dateNow : ℤ) (monoMs : ℤ) :
    ℤ × SchedulerClock :=
  if |1000 * dateNow - clock.reconstructed monoMs| > 1000 * reanchorThresholdMs then
    (dateNow, { steps := clock.steps + 1, anchor := { wallMs := dateNow, monoMs := monoMs } })
  else (round (clock.reconstructed monoMs), clock)

/-- What the host's clocks read, the scheduler's clock, and what its calls have returned. -/
structure Host where
  mono : ℤ
  wall : ℤ
  clock : SchedulerClock
  answers : List (ℤ × ℤ)
  deriving DecidableEq, Repr

def Host.dateNow (s : Host) : ℤ := s.wall / 1000

/-- How far the wall clock is ahead of the monotonic one. -/
def Host.offset (s : Host) : ℤ := s.wall - s.mono

/-- What happens to the clocks, and a question to the scheduler's. -/
inductive Action where
  /-- Both clocks advance. -/
  | elapse (micros : ℕ)
  /-- The wall clock is stepped. -/
  | setClock (by_ : ℤ)
  | wallAt (monoMs : ℤ)
  deriving DecidableEq, Repr

def boot (mono wall : ℤ) : Host :=
  { mono := mono, wall := wall, clock := .new (wall / 1000) mono, answers := [] }

/-- A call's argument is a reading that the monotonic clock has had since the start. -/
def step (start : ℤ) (s : Host) : Action → Option Host
  | .elapse micros => some { s with mono := s.mono + micros, wall := s.wall + micros }
  | .setClock by_ => some { s with wall := s.wall + by_ }
  | .wallAt monoMs =>
    if start ≤ monoMs ∧ monoMs ≤ s.mono then
      let (date, clock) := s.clock.wallAt s.dateNow monoMs
      some { s with clock := clock, answers := s.answers ++ [(monoMs, date)] }
    else none

def machine (mono wall : ℤ) : Machine Host Action where
  init := boot mono wall
  step := step mono

/-- A run in which the wall clock is not stepped. -/
def Steady (acts : List Action) : Prop := ∀ a ∈ acts, ∀ by_, a ≠ .setClock by_

/-- The date is the wall time that held at `monoMs`, to the millisecond: the anchor was read to the
millisecond, and the date is rounded to one. -/
def HeldAt (offset : ℤ) (answer : ℤ × ℤ) : Prop :=
  |answer.2 - (answer.1 + offset) / 1000| ≤ 1

/-- No step was counted, and every date returned is the one that held at its reading. -/
structure Truthful (mono wall : ℤ) (s : Host) : Prop where
  no_steps : s.clock.steps = 0
  held : ∀ answer ∈ s.answers, HeldAt (wall - mono) answer

/-- A call finds `Date.now()` at most a second past what the anchor from the start gives for its
argument. -/
def Fresh (mono wall : ℤ) (s : Host) : Action → Prop
  | .wallAt monoMs =>
    1000 * s.dateNow ≤ 1000 * (wall / 1000) + (monoMs - mono) + 1000 * reanchorThresholdMs
  | _ => True

/-- A call's argument is at most 999 ms old. -/
def Prompt (s : Host) : Action → Prop
  | .wallAt monoMs => s.mono - monoMs ≤ 999000
  | _ => True

instance (mono wall : ℤ) (s : Host) : DecidablePred (Fresh mono wall s)
  | .elapse _ | .setClock _ => .isTrue trivial
  | .wallAt _ => inferInstanceAs (Decidable (_ ≤ _))

instance (s : Host) : DecidablePred (Prompt s)
  | .elapse _ | .setClock _ => .isTrue trivial
  | .wallAt _ => inferInstanceAs (Decidable (_ ≤ _))

/-! ### One step -/

variable {start monoMs mono wall by_ : ℤ} {s t : Host} {a : Action}

theorem step_wallAt (h : step start s (.wallAt monoMs) = some t) :
    start ≤ monoMs ∧ monoMs ≤ s.mono ∧
      t = { s with clock := (s.clock.wallAt s.dateNow monoMs).2
                   answers := s.answers ++ [(monoMs, (s.clock.wallAt s.dateNow monoMs).1)] } := by
  obtain ⟨⟨hstart, hpast⟩, ht⟩ := Option.ite_none_right_eq_some.mp h
  exact ⟨hstart, hpast, (Option.some.inj ht).symm⟩

theorem wallAt_kept {clock : SchedulerClock} {dateNow : ℤ}
    (h : |1000 * dateNow - clock.reconstructed monoMs| ≤ 1000 * reanchorThresholdMs) :
    clock.wallAt dateNow monoMs = (round (clock.reconstructed monoMs), clock) := by
  rw [SchedulerClock.wallAt, if_neg (not_lt.mpr h)]

theorem wallAt_moved {clock : SchedulerClock} {dateNow : ℤ}
    (h : 1000 * reanchorThresholdMs < |1000 * dateNow - clock.reconstructed monoMs|) :
    clock.wallAt dateNow monoMs =
      (dateNow, { steps := clock.steps + 1
                  anchor := { wallMs := dateNow, monoMs := monoMs } }) := by
  rw [SchedulerClock.wallAt, if_pos h]

theorem offset_step (ha : ∀ by_, a ≠ .setClock by_) (hstep : step start s a = some t) :
    t.offset = s.offset := by
  cases a with
  | elapse micros =>
    cases hstep
    simp only [Host.offset]
    omega
  | setClock by_ => exact absurd rfl (ha by_)
  | wallAt monoMs =>
    obtain ⟨-, -, rfl⟩ := step_wallAt hstep
    rfl

/-- Without a step of the wall clock the offset stays, and until a step is counted the anchor is
the one from the start. -/
structure Unstepped (mono wall : ℤ) (s : Host) : Prop where
  offset : s.offset = wall - mono
  anchor : s.clock.steps = 0 → s.clock = .new (wall / 1000) mono

theorem unstepped_boot (mono wall : ℤ) : Unstepped mono wall (boot mono wall) where
  offset := rfl
  anchor _ := rfl

theorem Unstepped.step (h : Unstepped mono wall s) (ha : ∀ by_, a ≠ .setClock by_)
    (hstep : Clock.step start s a = some t) : Unstepped mono wall t := by
  refine ⟨(offset_step ha hstep).trans h.offset, ?_⟩
  cases a with
  | elapse micros =>
    cases hstep
    exact h.anchor
  | setClock by_ => exact absurd rfl (ha by_)
  | wallAt monoMs =>
    obtain ⟨-, -, rfl⟩ := step_wallAt hstep
    intro hsteps
    rcases le_or_gt |1000 * s.dateNow - s.clock.reconstructed monoMs|
      (1000 * reanchorThresholdMs) with hle | hgt
    · rw [wallAt_kept hle] at hsteps ⊢
      exact h.anchor hsteps
    · rw [wallAt_moved hgt] at hsteps
      exact absurd hsteps (Nat.succ_ne_zero _)

/-- With the anchor from the start a call stays truthful exactly if it is fresh. -/
theorem Unstepped.truthful_iff (h : Unstepped mono wall s) (htruthful : Truthful mono wall s)
    (ha : ∀ by_, a ≠ .setClock by_) (hstep : Clock.step mono s a = some t) :
    Truthful mono wall t ↔ Fresh mono wall s a := by
  have hclock := h.anchor htruthful.no_steps
  have hoffset := h.offset
  cases a with
  | elapse micros =>
    cases hstep
    exact iff_of_true ⟨htruthful.no_steps, htruthful.held⟩ trivial
  | setClock by_ => exact absurd rfl (ha by_)
  | wallAt monoMs =>
    obtain ⟨hstart, hpast, rfl⟩ := step_wallAt hstep
    have hrecon : s.clock.reconstructed monoMs = 1000 * (wall / 1000) + (monoMs - mono) := by
      rw [hclock]
      rfl
    simp only [Host.offset] at hoffset
    constructor
    · intro hafter
      by_contra hold
      have hmoved : 1000 * reanchorThresholdMs <
          |1000 * s.dateNow - s.clock.reconstructed monoMs| := by
        rw [hrecon]
        exact lt_of_lt_of_le (by simp only [Fresh] at hold; omega) (le_abs_self _)
      have hsteps := hafter.no_steps
      rw [wallAt_moved hmoved] at hsteps
      exact Nat.succ_ne_zero _ hsteps
    · intro hfresh
      have hkept : |1000 * s.dateNow - s.clock.reconstructed monoMs| ≤
          1000 * reanchorThresholdMs := by
        rw [hrecon, abs_le]
        simp only [Fresh, Host.dateNow, reanchorThresholdMs] at hfresh ⊢
        omega
      rw [wallAt_kept hkept]
      refine ⟨htruthful.no_steps, fun answer hanswer => ?_⟩
      rcases List.mem_append.mp hanswer with hanswer | hanswer
      · exact htruthful.held answer hanswer
      · obtain rfl := List.mem_singleton.mp hanswer
        rw [HeldAt, abs_le, hrecon, round]
        omega

/-! ### Runs without a step -/

theorem Steady.unstepped {acts : List Action} (h : Steady acts)
    (hs : (machine mono wall).exec acts = some s) : Unstepped mono wall s :=
  Machine.execFrom_induct hs (unstepped_boot mono wall)
    fun _ a _ ha hr hstep => hr.step (h a ha) hstep

theorem Steady.truthful_iff {acts : List Action} (h : Steady acts) :
    (machine mono wall).Always acts (Truthful mono wall) ↔
      (machine mono wall).EachStep acts (Fresh mono wall) := by
  have hsteady : ∀ {visited}, visited <+: acts → Steady visited :=
    fun hpre a ha => h a (hpre.subset ha)
  have honce : ∀ visited a, visited ++ [a] <+: acts → ∀ s t,
      (machine mono wall).exec visited = some s → (machine mono wall).step s a = some t →
      Truthful mono wall s → (Truthful mono wall t ↔ Fresh mono wall s a) :=
    fun visited a hpre s t hs hstep htruthful =>
      ((hsteady ((List.prefix_append visited [a]).trans hpre)).unstepped hs).truthful_iff htruthful
        (h a (hpre.subset (by simp))) hstep
  constructor
  · intro halways visited a hpre s t hs hstep
    have hbefore := halways visited ((List.prefix_append visited [a]).trans hpre) s hs
    have hafter := halways (visited ++ [a]) hpre t
      ((machine mono wall).exec_concat_eq_some.mpr ⟨s, hs, hstep⟩)
    exact (honce visited a hpre s t hs hstep hbefore).mp hafter
  · intro hfresh visited
    induction visited using List.reverseRecOn with
    | nil =>
      intro _ s hs
      cases hs
      exact ⟨rfl, nofun⟩
    | append_singleton visited a ih =>
      intro hpre t ht
      obtain ⟨s, hs, hstep⟩ := (machine mono wall).exec_concat_eq_some.mp ht
      have hbefore := ih ((List.prefix_append visited [a]).trans hpre) s hs
      exact (honce visited a hpre s t hs hstep hbefore).mpr (hfresh visited a hpre s t hs hstep)

/-! ### Runs with one step -/

/-- After a step by `by_` a call is told by more than the tolerance, and the millisecond to which
the clocks are compared. -/
def Noticed (mono wall : ℤ) (before : List Action) (by_ : ℤ) (after : List Action) : Prop :=
  ∃ visited monoMs s, visited ++ [.wallAt monoMs] <+: after ∧
    (machine mono wall).exec (before ++ .setClock by_ :: visited) = some s ∧
    1001000 ≤ |by_ + (s.mono - monoMs)|

/-- One step was counted, and the anchor is off by at most the age of the call that took it. -/
structure Settled (s : Host) : Prop where
  steps : s.clock.steps = 1
  lower : s.offset - 999 ≤ 1000 * s.clock.anchor.wallMs - s.clock.anchor.monoMs
  upper : 1000 * s.clock.anchor.wallMs - s.clock.anchor.monoMs ≤ s.offset + 999000

structure Stepped (mono wall by_ : ℤ) (s : Host) : Prop where
  offset : s.offset = wall - mono + by_
  anchor : s.clock = .new (wall / 1000) mono ∨ Settled s

theorem Unstepped.fresh (h : Unstepped mono wall s) (hprompt : Prompt s a) :
    Fresh mono wall s a := by
  cases a with
  | elapse micros => trivial
  | setClock by_ => trivial
  | wallAt monoMs =>
    have hoffset := h.offset
    simp only [Host.offset] at hoffset
    simp only [Prompt, Fresh, Host.dateNow, reanchorThresholdMs] at hprompt ⊢
    omega

/-- A clock that has followed the step follows no prompt call again. -/
theorem Settled.kept (h : Settled s) (hpast : monoMs ≤ s.mono) (hage : s.mono - monoMs ≤ 999000) :
    s.clock.wallAt s.dateNow monoMs = (round (s.clock.reconstructed monoMs), s.clock) := by
  apply wallAt_kept
  have hlower := h.lower
  have hupper := h.upper
  simp only [Host.offset] at hlower hupper
  simp only [abs_le, SchedulerClock.reconstructed, Host.dateNow, reanchorThresholdMs]
  omega

theorem Settled.of_moved (hclock : s.clock.steps = 0) (hpast : monoMs ≤ s.mono)
    (hage : s.mono - monoMs ≤ 999000)
    (hmoved : 1000 * reanchorThresholdMs < |1000 * s.dateNow - s.clock.reconstructed monoMs|)
    (answers : List (ℤ × ℤ)) :
    Settled { s with clock := (s.clock.wallAt s.dateNow monoMs).2, answers := answers } := by
  rw [wallAt_moved hmoved]
  refine ⟨by rw [hclock], ?_, ?_⟩
  all_goals
    simp only [Host.offset, Host.dateNow]
    omega

theorem Settled.step (h : Settled s) (ha : ∀ by_, a ≠ .setClock by_) (hprompt : Prompt s a)
    (hstep : Clock.step start s a = some t) : Settled t := by
  cases a with
  | elapse micros =>
    have hsame := offset_step ha hstep
    cases hstep
    exact ⟨h.steps, hsame ▸ h.lower, hsame ▸ h.upper⟩
  | setClock by_ => exact absurd rfl (ha by_)
  | wallAt monoMs =>
    obtain ⟨-, hpast, rfl⟩ := step_wallAt hstep
    rw [h.kept hpast hprompt]
    exact ⟨h.steps, h.lower, h.upper⟩

theorem Stepped.step (h : Stepped mono wall by_ s) (ha : ∀ by_, a ≠ .setClock by_)
    (hprompt : Prompt s a) (hstep : Clock.step mono s a = some t) : Stepped mono wall by_ t := by
  have hoffset := h.offset
  rcases h.anchor with hclock | hsettled
  · cases a with
    | elapse micros =>
      cases hstep
      refine ⟨?_, .inl hclock⟩
      simp only [Host.offset] at hoffset ⊢
      omega
    | setClock by_ => exact absurd rfl (ha by_)
    | wallAt monoMs =>
      obtain ⟨-, hpast, rfl⟩ := step_wallAt hstep
      refine ⟨hoffset, ?_⟩
      rcases le_or_gt |1000 * s.dateNow - s.clock.reconstructed monoMs|
        (1000 * reanchorThresholdMs) with hle | hgt
      · rw [wallAt_kept hle]
        exact .inl hclock
      · exact .inr (.of_moved (by rw [hclock]; rfl) hpast hprompt hgt _)
  · exact ⟨(offset_step ha hstep).trans hoffset, .inr (hsettled.step ha hprompt hstep)⟩

theorem Stepped.notice (h : Stepped mono wall by_ s) (hprompt : Prompt s (.wallAt monoMs))
    (htold : 1001000 ≤ |by_ + (s.mono - monoMs)|)
    (hstep : Clock.step mono s (.wallAt monoMs) = some t) : Settled t := by
  obtain ⟨-, hpast, rfl⟩ := step_wallAt hstep
  have hage := hprompt
  rcases h.anchor with hclock | hsettled
  · refine .of_moved (by rw [hclock]; rfl) hpast hage ?_ _
    have hoffset := h.offset
    simp only [Host.offset] at hoffset
    rw [hclock]
    simp only [SchedulerClock.reconstructed, SchedulerClock.new, Host.dateNow,
      reanchorThresholdMs, lt_abs]
    rcases le_abs.mp htold with hahead | hbehind
    · left
      omega
    · right
      omega
  · rw [hsettled.kept hpast hage]
    exact ⟨hsettled.steps, hsettled.lower, hsettled.upper⟩

/-- What holds when the wall clock has been stepped once. -/
theorem stepped_run {before after : List Action} (hbefore : Steady before) (hafter : Steady after)
    (hprompt : (machine mono wall).EachStep (before ++ .setClock by_ :: after) Prompt)
    (hs : (machine mono wall).exec (before ++ .setClock by_ :: after) = some s) :
    Stepped mono wall by_ s ∧ (Noticed mono wall before by_ after → Settled s) := by
  induction after using List.reverseRecOn generalizing s with
  | nil =>
    obtain ⟨r, hr, hstep⟩ := (machine mono wall).exec_concat_eq_some.mp hs
    have hunstepped := hbefore.unstepped hr
    have hfresh : (machine mono wall).EachStep before (Fresh mono wall) :=
      fun visited a hpre q t hq hst =>
        Unstepped.fresh (Steady.unstepped (fun b hb => hbefore b (hpre.subset (by simp [hb]))) hq)
          (hprompt visited a (hpre.trans (List.prefix_append _ _)) q t hq hst)
    have htruthful := hbefore.truthful_iff.mpr hfresh before List.prefix_rfl r hr
    cases hstep
    refine ⟨⟨?_, .inl (hunstepped.anchor htruthful.no_steps)⟩, ?_⟩
    · have hoffset := hunstepped.offset
      simp only [Host.offset] at hoffset ⊢
      omega
    · rintro ⟨visited, monoMs, q, hpre, -⟩
      exact absurd (List.prefix_nil.mp hpre) (by simp)
  | append_singleton after a ih =>
    rw [← List.cons_append, ← List.append_assoc] at hs hprompt
    obtain ⟨r, hr, hstep⟩ := (machine mono wall).exec_concat_eq_some.mp hs
    have hsteady : Steady after := fun b hb => hafter b (List.mem_append_left _ hb)
    have ha : ∀ by_, a ≠ .setClock by_ := hafter a (by simp)
    have hnow : Prompt r a := hprompt _ a List.prefix_rfl r s hr hstep
    obtain ⟨hstepped, hsettled⟩ := ih hsteady
      (fun visited b hpre => hprompt visited b (hpre.trans (List.prefix_append _ _))) hr
    refine ⟨hstepped.step ha hnow hstep, ?_⟩
    rintro ⟨visited, monoMs, q, hpre, hq, htold⟩
    rcases List.prefix_concat_iff.mp hpre with hlast | hearlier
    · obtain ⟨rfl, hone⟩ := List.append_inj' hlast rfl
      obtain rfl := (List.cons.inj hone).1
      obtain rfl := Option.some.inj (hr.symm.trans hq)
      exact hstepped.notice hnow htold hstep
    · exact (hsettled ⟨visited, monoMs, q, hearlier, hq, htold⟩).step ha hnow hstep

/-- Without a step the clock is truthful exactly as long as no call's argument is older than a
second.  When no argument is, one step is counted once, as soon as a call is told of it. -/
theorem clock_follows (mono wall : ℤ) :
    (∀ acts, Steady acts → ((machine mono wall).Always acts (Truthful mono wall) ↔
      (machine mono wall).EachStep acts (Fresh mono wall))) ∧
    (∀ before by_ after s, Steady before → Steady after →
      (machine mono wall).exec (before ++ .setClock by_ :: after) = some s →
      (machine mono wall).EachStep (before ++ .setClock by_ :: after) Prompt →
      s.clock.steps ≤ 1 ∧ (Noticed mono wall before by_ after → s.clock.steps = 1)) := by
  refine ⟨fun _ h => h.truthful_iff, fun before by_ after s hbefore hafter hs hprompt => ?_⟩
  obtain ⟨hstepped, hsettled⟩ := stepped_run hbefore hafter hprompt hs
  refine ⟨?_, fun hnoticed => (hsettled hnoticed).steps⟩
  rcases hstepped.anchor with hclock | hsettled
  · rw [hclock]
    exact Nat.zero_le 1
  · exact hsettled.steps.le

/-- A probe that took a second and a half is dated by its end, and counted as a step. -/
theorem old_reading_counted :
    Steady [.elapse 1500000, .wallAt 60000000] ∧
    (machine 60000000 1785000000000000).exec [.elapse 1500000, .wallAt 60000000] =
      some { mono := 61500000, wall := 1785000001500000
             clock := { anchor := { wallMs := 1785000001500, monoMs := 60000000 }, steps := 1 }
             answers := [(60000000, 1785000001500)] } ∧
    ¬HeldAt (1785000000000000 - 60000000) (60000000, 1785000001500) := by
  refine ⟨by simp [Steady], by decide +kernel, ?_⟩
  rw [HeldAt, abs_le]
  omega

/-- A run with prompt calls, and the same run with the clock set forward by five seconds. -/
theorem clock_follows_prompt :
    (machine 0 0).Always [.elapse 500000, .wallAt 0, .wallAt 500000] (Truthful 0 0) ∧
    ((machine 0 0).reached
      [.elapse 500000, .wallAt 0, .setClock 5000000, .wallAt 0, .wallAt 500000]).clock.steps = 1 := by
  constructor
  · exact ((clock_follows 0 0).1 _ (by simp [Steady])).mpr
      (.of_checks (fun _ _ => of_decide_eq_true) (by decide +kernel))
  · refine ((clock_follows 0 0).2 [.elapse 500000, .wallAt 0] 5000000 [.wallAt 0, .wallAt 500000]
      _ (by simp [Steady]) (by simp [Steady]) (Machine.exec_reached (by decide +kernel))
      (.of_checks (fun _ _ => of_decide_eq_true) (by decide +kernel))).2 ?_
    exact ⟨[], 0, _, by simp, Machine.exec_reached (by decide +kernel), by decide +kernel⟩

end Vigil.HighFreq.Clock
