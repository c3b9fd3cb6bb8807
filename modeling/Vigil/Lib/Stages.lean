import Mathlib.Order.Basic

/-! A value that is cut down in stages, each of which is taken only while the value is too large.
What comes out of the stages fits exactly if the value fits once all of them are taken. -/

namespace Vigil.Lib.Stages

variable {α : Type*} (size : α → ℕ) (cap : ℕ)

/-- `cut` is taken where the value is too large. -/
def stage (cut : α → α) (x : α) : α := if cap < size x then cut x else x

/-- `run` takes the stages of `cut` until the value fits. -/
structure Cuts (cut run : α → α) : Prop where
  shrinks : ∀ x, size (cut x) ≤ size x
  idle : ∀ x, size x ≤ cap → run x = x
  whole : ∀ x, cap < size (run x) → run x = cut x
  least : ∀ x, size (cut x) ≤ size (run x)

variable {size cap} {cut run cut' run' : α → α}

theorem stage_of_fits {x : α} (h : size x ≤ cap) : stage size cap cut x = x :=
  if_neg (Nat.not_lt.mpr h)

theorem stage_of_large {x : α} (h : cap < size x) : stage size cap cut x = cut x := if_pos h

theorem Cuts.stage (h : ∀ x, size (cut x) ≤ size x) : Cuts size cap cut (stage size cap cut) where
  shrinks := h
  idle _ hx := stage_of_fits hx
  whole x hx := by
    by_cases hfits : size x ≤ cap
    · rw [stage_of_fits hfits] at hx
      omega
    · exact stage_of_large (Nat.lt_of_not_le hfits)
  least x := by
    by_cases hfits : size x ≤ cap
    · rw [stage_of_fits hfits]
      exact h x
    · exact Nat.le_of_eq (congrArg size (stage_of_large (Nat.lt_of_not_le hfits)).symm)

theorem Cuts.comp (h : Cuts size cap cut run) (h' : Cuts size cap cut' run') :
    Cuts size cap (fun x => cut' (cut x)) fun x => run' (run x) where
  shrinks x := Nat.le_trans (h'.shrinks _) (h.shrinks x)
  idle x hx := by rw [h.idle x hx, h'.idle x hx]
  whole x hx := by
    by_cases hfits : size (run x) ≤ cap
    · rw [h'.idle _ hfits] at hx
      omega
    · rw [← h.whole x (Nat.lt_of_not_le hfits)]
      exact h'.whole _ hx
  least x := by
    by_cases hfits : size (run x) ≤ cap
    · rw [h'.idle _ hfits]
      exact Nat.le_trans (h'.shrinks _) (h.least x)
    · rw [← h.whole x (Nat.lt_of_not_le hfits)]
      exact h'.least _

/-- What comes out fits exactly if the value fits once all stages are taken. -/
theorem Cuts.fits_iff (h : Cuts size cap cut run) (x : α) :
    size (run x) ≤ cap ↔ size (cut x) ≤ cap := by
  constructor
  · exact Nat.le_trans (h.least x)
  · intro hcut
    by_contra hlarge
    have hsame := h.whole x (Nat.lt_of_not_le hlarge)
    rw [hsame] at hlarge
    exact hlarge hcut

theorem stage_of {P : α → Prop} {x : α} (hcut : P x → P (cut x)) (h : P x) :
    P (stage size cap cut x) := by
  unfold stage
  split
  · exact hcut h
  · exact h

end Vigil.Lib.Stages
