/-! Computations that may throw, under a contract: what they return meets a condition, and what they
throw is expected. -/

namespace Vigil.Lib.Contract

variable {ε α β : Type} {expected : ε → Prop} {returned : α → Prop}

def Meets (expected : ε → Prop) (returned : α → Prop) : Except ε α → Prop
  | .ok value => returned value
  | .error failure => expected failure

variable {computation : Except ε α}

theorem Meets.bind {next : α → Except ε β} {returned' : β → Prop}
    (h : Meets expected returned computation)
    (hnext : ∀ value, returned value → Meets expected returned' (next value)) :
    Meets expected returned' (computation >>= next) := by
  cases computation with
  | error failure => exact h
  | ok value => exact hnext value h

theorem Meets.ite {condition : Prop} [Decidable condition] {computation other : Except ε α}
    (h : condition → Meets expected returned computation)
    (hother : ¬condition → Meets expected returned other) :
    Meets expected returned (if condition then computation else other) := by
  split
  · exact h ‹_›
  · exact hother ‹_›

/-- A value that is returned is the one that is returned. -/
theorem Meets.and_eq (h : Meets expected returned computation) :
    Meets expected (fun value => returned value ∧ computation = .ok value) computation := by
  cases computation with
  | error failure => exact h
  | ok value => exact ⟨h, rfl⟩

theorem Meets.of_ok (h : Meets expected returned computation) {value : α}
    (hvalue : computation = .ok value) : returned value := by
  rw [hvalue] at h
  exact h

theorem Meets.ok_or_error (h : Meets expected returned computation) :
    (∃ value, computation = .ok value) ∨ ∃ failure, computation = .error failure ∧
      expected failure := by
  cases computation with
  | error failure => exact .inr ⟨failure, rfl, h⟩
  | ok value => exact .inl ⟨value, rfl⟩

end Vigil.Lib.Contract
