import Vigil.HighFreq.HourRows

/-! Whether rollups converge.  Once all samples of a bucket and of the bucket before it are stored, a
later statement that touches the bucket writes all of its row again.  Everything but the largest gap
comes out the same; the largest gap does exactly if the leading gap is the same or does not show.  It
is lost when the bucket becomes the first of the window. -/

namespace Vigil.HighFreq.Convergence

open Lib Rollups RollupRows HourRows
open Machine (exec_reached step_reached execFrom_reached)

/-- Two statements that touch a minute; its samples and those of the minute before it are stored
before the first. -/
structure MinuteRuns (m : MonitorId) (b : ℤ) (s₁ s₂ s₃ s₄ : State) : Prop where
  reachable : machine.Reachable s₁
  first : ∃ pass, machine.step s₁ (.statement pass .rollupMinutes) = some s₂
  between : ∃ acts, machine.execFrom s₂ acts = some s₃ ∧ AllStored minuteMs m b acts
  later : ∃ pass, machine.step s₃ (.statement pass .rollupMinutes) = some s₄
  touched : TouchesMinute s₁ m b ∧ TouchesMinute s₃ m b

/-- Two statements that touch an hour; its samples and those of the hour before it are stored before
the statement of minutes that goes before the first. -/
structure HourRuns (m : MonitorId) (h : ℤ) (s₁ s₂ s₃ s₄ : State) : Prop where
  before : ∃ s pass t acts, machine.Reachable s ∧
    machine.step s (.statement pass .rollupMinutes) = some t ∧
    machine.execFrom t acts = some s₁ ∧ AllStored hourMs m h acts
  first : ∃ pass, machine.step s₁ (.statement pass .rollupHours) = some s₂
  between : ∃ acts, machine.execFrom s₂ acts = some s₃ ∧ AllStored hourMs m h acts
  later : ∃ pass, machine.step s₃ (.statement pass .rollupHours) = some s₄
  touched : TouchesHour s₁ m h ∧ TouchesHour s₃ m h

/-- The row of a bucket stays as it is exactly if the leading gaps of the two statements are the same
or neither exceeds the gaps inside the bucket. -/
theorem stored_unchanged_iff (m : MonitorId) (b : ℤ) (s₁ s₂ s₃ s₄ : State) :
    (MinuteRuns m b s₁ s₂ s₃ s₄ →
      (s₄.stored .minute m b = s₂.stored .minute m b ↔
        Steady (minuteLead s₃ m b) (minuteLead s₁ m b)
          (insideGap minuteMs (minuteParts s₁.toTables) m b))) ∧
    (HourRuns m b s₁ s₂ s₃ s₄ →
      (s₄.stored .hour m b = s₂.stored .hour m b ↔
        Steady (hourLead s₃ m b) (hourLead s₁ m b)
          (insideGap hourMs (hourParts s₁.toTables) m b))) := by
  constructor
  · rintro ⟨-, ⟨p, h₁⟩, ⟨acts, hrun, hall⟩, ⟨q, h₃⟩, htouch₁, htouch₃⟩
    exact stored_minute_eq_iff h₁ hrun h₃ (fun x hx => (hall x hx).1) htouch₁ htouch₃
  · rintro ⟨⟨s, pass, t, acts, hs, hst, hrun, hall⟩, ⟨p, h₁⟩, ⟨acts', hrun', hall'⟩, ⟨q, h₃⟩,
      htouch₁, htouch₃⟩
    refine stored_hour_eq_iff hs hst hrun h₁ hrun' h₃ (fun x hx => ?_) htouch₁ htouch₃
    rcases List.mem_append.mp hx with hx | hx
    · exact (hall x hx).1
    · exact (hall' x hx).1

/-! ### A run -/

def sampleAt (t : ℤ) : Sample := ⟨0, 1, t, true, .up, some 5⟩

/-- A sample two seconds before a minute and two samples in it, half a second apart; then so many
milliseconds. -/
def samplesThen (wait : ℕ) : List Action :=
  [.insert (sampleAt 598000), .insert (sampleAt 601000), .insert (sampleAt 601500), .tick wait]

def firstPass (wait : ℕ) : List Action := samplesThen wait ++ [.statement 0 .rollupMinutes]

def minuteLater (wait : ℕ) : List Action := firstPass wait ++ [.tick 60000]

def secondPass (wait : ℕ) : List Action := minuteLater wait ++ [.statement 1 .rollupMinutes]

theorem minuteRuns {wait : ℕ} (h₁ : (machine.exec (samplesThen wait)).isSome = true)
    (h₂ : (machine.exec (firstPass wait)).isSome = true)
    (h₃ : (machine.exec (minuteLater wait)).isSome = true)
    (h₄ : (machine.exec (secondPass wait)).isSome = true)
    (htouch₁ : TouchesMinute (machine.reached (samplesThen wait)) 1 600000)
    (htouch₃ : TouchesMinute (machine.reached (minuteLater wait)) 1 600000) :
    MinuteRuns 1 600000 (machine.reached (samplesThen wait)) (machine.reached (firstPass wait))
      (machine.reached (minuteLater wait)) (machine.reached (secondPass wait)) where
  reachable := ⟨_, exec_reached h₁⟩
  first := ⟨0, step_reached h₂⟩
  between := ⟨[.tick 60000], execFrom_reached h₃, fun x hx => by simp at hx⟩
  later := ⟨1, step_reached h₄⟩
  touched := ⟨htouch₁, htouch₃⟩

def firstHours : List Action := firstPass 1080000 ++ [.statement 0 .rollupHours]

def secondMinutes : List Action := firstHours ++ [.statement 1 .rollupMinutes]

def secondHours : List Action := secondMinutes ++ [.statement 1 .rollupHours]

theorem hourRuns : HourRuns 1 0 (machine.reached (firstPass 1080000)) (machine.reached firstHours)
    (machine.reached secondMinutes) (machine.reached secondHours) where
  before := ⟨machine.reached (samplesThen 1080000), 0, machine.reached (firstPass 1080000), [],
    ⟨_, exec_reached (by decide +kernel)⟩, step_reached (by decide +kernel), rfl,
    fun x hx => by simp at hx⟩
  first := ⟨0, step_reached (by decide +kernel)⟩
  between := ⟨[.statement 1 .rollupMinutes], execFrom_reached (by decide +kernel),
    fun x hx => by simp at hx⟩
  later := ⟨1, step_reached (by decide +kernel)⟩
  touched := by decide +kernel

/-- While the minute before is in the window, a later pass leaves the rows as they are. -/
theorem stored_unchanged_of_window :
    (machine.reached (secondPass 1080000)).stored .minute 1 600000 =
        (machine.reached (firstPass 1080000)).stored .minute 1 600000 ∧
      (machine.reached secondHours).stored .hour 1 0 =
        (machine.reached firstHours).stored .hour 1 0 := by
  have hruns : MinuteRuns 1 600000 (machine.reached (samplesThen 1080000))
      (machine.reached (firstPass 1080000)) (machine.reached (minuteLater 1080000))
      (machine.reached (secondPass 1080000)) :=
    minuteRuns (by decide +kernel) (by decide +kernel) (by decide +kernel) (by decide +kernel)
      (by decide +kernel) (by decide +kernel)
  constructor
  · refine ((stored_unchanged_iff 1 600000 _ _ _ _).1 hruns).mpr ?_
    decide +kernel
  · refine ((stored_unchanged_iff 1 0 _ _ _ _).2 hourRuns).mpr ?_
    decide +kernel

/-- The pass for which the minute is the first of the window loses the gap of three seconds. -/
theorem stored_changed :
    ¬∀ m b s₁ s₂ s₃ s₄, MinuteRuns m b s₁ s₂ s₃ s₄ →
      s₄.stored .minute m b = s₂.stored .minute m b := by
  intro hclaim
  have hruns : MinuteRuns 1 600000 (machine.reached (samplesThen 1140000))
      (machine.reached (firstPass 1140000)) (machine.reached (minuteLater 1140000))
      (machine.reached (secondPass 1140000)) :=
    minuteRuns (by decide +kernel) (by decide +kernel) (by decide +kernel) (by decide +kernel)
      (by decide +kernel) (by decide +kernel)
  have hgap :
      ((machine.reached (firstPass 1140000)).stored .minute 1 600000).map (·.figures.maxGapMs) =
        some (some 3000) := by
    decide +kernel
  have hlost :
      ((machine.reached (secondPass 1140000)).stored .minute 1 600000).map (·.figures.maxGapMs) =
        some (some 500) := by
    decide +kernel
  rw [hclaim _ _ _ _ _ _ hruns, hgap] at hlost
  cases hlost

end Vigil.HighFreq.Convergence
