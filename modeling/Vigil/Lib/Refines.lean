import Vigil.Lib.Run

/-! Refinement of one machine by another.  Every step of the concrete machine is one step of the
abstract machine, or none that the abstract machine can see; then so is every run. -/

namespace Vigil.Lib

variable {S A S' A' : Type}

/-- `M` refines `N` along `rel`, where `seen` says which of its actions `N` takes part in. -/
structure Refines (M : Machine S A) (N : Machine S' A') (seen : A → Option A')
    (rel : S → S' → Prop) : Prop where
  init : rel M.init N.init
  step : ∀ {s a t s' b}, rel s s' → M.step s a = some t → seen a = some b →
    ∃ t', N.step s' b = some t' ∧ rel t t'
  stutter : ∀ {s a t s'}, rel s s' → M.step s a = some t → seen a = none → rel t s'

namespace Refines

variable {M : Machine S A} {N : Machine S' A'} {seen : A → Option A'} {rel : S → S' → Prop}

/-- A run is, of what can be seen of it, a run of the abstract machine, and the two end in related
states. -/
theorem exec (h : Refines M N seen rel) {acts : List A} {s : S} (hs : M.exec acts = some s) :
    ∃ s', N.exec (acts.filterMap seen) = some s' ∧ rel s s' := by
  induction acts using List.reverseRecOn generalizing s with
  | nil =>
    obtain rfl : M.init = s := by simpa using hs
    exact ⟨N.init, rfl, h.init⟩
  | append_singleton acts a ih =>
    obtain ⟨r, hr, hstep⟩ := M.exec_concat_eq_some.mp hs
    obtain ⟨r', hr', hrel⟩ := ih hr
    rw [List.filterMap_append]
    cases hseen : seen a with
    | none =>
      refine ⟨r', ?_, h.stutter hrel hstep hseen⟩
      rw [List.filterMap_cons_none hseen, List.filterMap_nil, List.append_nil]
      exact hr'
    | some b =>
      obtain ⟨t', ht', hrel'⟩ := h.step hrel hstep hseen
      refine ⟨t', ?_, hrel'⟩
      rw [List.filterMap_cons_some hseen, List.filterMap_nil]
      exact N.exec_concat_eq_some.mpr ⟨r', hr', ht'⟩

end Refines

end Vigil.Lib
