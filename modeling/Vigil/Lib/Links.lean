import Mathlib.Data.Nat.Notation
import Mathlib.Logic.Relation

/-! Acyclic relations, and what a change of one link does to them.  A link is an edge of the relation
out of one element; a forest that is stored as a parent on each element is the relation of a partial
function, in which an ancestor is found by climbing. -/

namespace Vigil.Lib.Links

open Relation

variable {α : Type*} {r r' : α → α → Prop} {a p x y : α}

def Acyclic (r : α → α → Prop) : Prop := ∀ a, ¬TransGen r a a

theorem Acyclic.mono (h : Acyclic r) (hsub : ∀ x y, r' x y → r x y) : Acyclic r' :=
  fun a hcycle => h a (TransGen.mono hsub a a hcycle)

/-- A path that may use a new link from `a` to `p` avoids it, or leads to `a` and goes on from `p`
by old links. -/
theorem transGen_link (hsub : ∀ x y, r' x y → r x y ∨ x = a ∧ y = p) (h : TransGen r' x y) :
    TransGen r x y ∨ ReflTransGen r x a ∧ ReflTransGen r p y := by
  induction h with
  | single hxy =>
    rcases hsub _ _ hxy with hold | ⟨rfl, rfl⟩
    · exact .inl (.single hold)
    · exact .inr ⟨.refl, .refl⟩
  | tail _ hyz ih =>
    rcases hsub _ _ hyz, ih with ⟨hold | ⟨rfl, rfl⟩, hpath | ⟨hleft, hright⟩⟩
    · exact .inl (hpath.tail hold)
    · exact .inr ⟨hleft, hright.tail hold⟩
    · exact .inr ⟨hpath.to_reflTransGen, .refl⟩
    · exact .inr ⟨hleft, .refl⟩

/-- A path to `a` stays when only the links out of `a` change. -/
theorem reflTransGen_keep (hkeep : ∀ x y, r x y → x ≠ a → r' x y) (h : ReflTransGen r p a) :
    ReflTransGen r' p a := by
  induction h using ReflTransGen.head_induction_on with
  | refl => exact .refl
  | @head x y hxy _ ih =>
    by_cases hx : x = a
    · subst hx
      exact .refl
    · exact .head (hkeep _ _ hxy hx) ih

/-- To link `a` to `p`, in place of its other links or besides them, closes a cycle exactly if there
is a path from `p` to `a`. -/
theorem acyclic_link_iff (h : Acyclic r) (hsub : ∀ x y, r' x y → r x y ∨ x = a ∧ y = p)
    (hkeep : ∀ x y, r x y → x ≠ a → r' x y) (hlink : r' a p) :
    Acyclic r' ↔ ¬ReflTransGen r p a := by
  constructor
  · intro hacyclic hpath
    exact hacyclic a (.head' hlink (reflTransGen_keep hkeep hpath))
  · intro hpath x hcycle
    rcases transGen_link hsub hcycle with hold | ⟨hleft, hright⟩
    · exact h x hold
    · exact hpath (hright.trans hleft)

/-- Nothing that no link leads to is reached from elsewhere. -/
theorem not_reached (h : ∀ x, ¬r x a) (hne : p ≠ a) : ¬ReflTransGen r p a := by
  intro hpath
  rcases ReflTransGen.cases_tail hpath with heq | ⟨x, -, hx⟩
  · exact hne heq.symm
  · exact h x hx

/-! ### Climbing -/

/-- The `k`-th element above `x`. -/
def climb (up : α → Option α) : ℕ → α → Option α
  | 0, x => some x
  | k + 1, x => (up x).bind (climb up k)

variable {up : α → Option α}

theorem reflTransGen_iff_climb :
    ReflTransGen (fun x y => up x = some y) x y ↔ ∃ k, climb up k x = some y := by
  constructor
  · intro h
    induction h using ReflTransGen.head_induction_on with
    | refl => exact ⟨0, rfl⟩
    | head hxy _ ih =>
      obtain ⟨k, hk⟩ := ih
      exact ⟨k + 1, by rw [climb, hxy, Option.bind_some, hk]⟩
  · rintro ⟨k, hk⟩
    induction k generalizing x with
    | zero =>
      cases hk
      exact .refl
    | succ k ih =>
      obtain ⟨z, hz, hk⟩ := Option.bind_eq_some_iff.mp hk
      exact .head hz (ih hk)

theorem climb_add (j k : ℕ) (x : α) : climb up (j + k) x = (climb up j x).bind (climb up k) := by
  induction j generalizing x with
  | zero => rw [Nat.zero_add, climb, Option.bind_some]
  | succ j ih =>
    rw [Nat.succ_add, climb, climb, Option.bind_assoc]
    exact Option.bind_congr fun y _ => ih y

/-- Climbing from an element meets each ancestor at one distance only. -/
theorem Acyclic.climb_inj (h : Acyclic fun x y => up x = some y) {j k : ℕ}
    (hj : climb up j x = some y) (hk : climb up k x = some y) : j = k := by
  have hnot : ∀ {i l : ℕ}, i < l → climb up i x = some y → climb up l x ≠ some y := by
    intro i l hlt hi hl
    obtain ⟨d, rfl⟩ := Nat.exists_eq_add_of_lt hlt
    rw [Nat.add_assoc, climb_add, hi, Option.bind_some] at hl
    obtain ⟨z, hz, hd⟩ := Option.bind_eq_some_iff.mp hl
    exact h y (.head' hz (reflTransGen_iff_climb.mpr ⟨d, hd⟩))
  rcases Nat.lt_trichotomy j k with hlt | heq | hlt
  · exact absurd hk (hnot hlt hj)
  · exact heq
  · exact absurd hj (hnot hlt hk)

end Vigil.Lib.Links
