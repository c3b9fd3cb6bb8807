import Mathlib.Data.List.Basic

/-! A value together with what was said while it was computed: the notes of a result that stands
and the refusals of one that does not.  A computation `Tells` of a subject when something that it
said names the subject. -/

namespace Vigil.Lib.Noted

structure Said (ν ρ α : Type) where
  value : α
  notes : List ν
  refusals : List ρ

variable {ν ρ α β : Type}

def note (n : ν) : Said ν ρ Unit := ⟨(), [n], []⟩

def refuse (r : ρ) : Said ν ρ Unit := ⟨(), [], [r]⟩

/-- One note after another. -/
def noteAll (ns : List ν) : Said ν ρ Unit := ⟨(), ns, []⟩

instance : Monad (Said ν ρ) where
  pure a := ⟨a, [], []⟩
  bind x f :=
    ⟨(f x.value).value, x.notes ++ (f x.value).notes, x.refusals ++ (f x.value).refusals⟩

/-- `if (c) notes.push(n)` -/
def noteIf (c : Prop) [Decidable c] (n : ν) : Said ν ρ Unit := if c then note n else pure ()

/-- `if (c) refusals.push(r)` -/
def refuseIf (c : Prop) [Decidable c] (r : ρ) : Said ν ρ Unit :=
  if c then refuse r else pure ()

section Values

variable (x : Said ν ρ α) (f : α → Said ν ρ β) (a : α)

@[simp] theorem value_bind : (x >>= f).value = (f x.value).value := rfl

@[simp] theorem notes_bind : (x >>= f).notes = x.notes ++ (f x.value).notes := rfl

@[simp] theorem refusals_bind : (x >>= f).refusals = x.refusals ++ (f x.value).refusals := rfl

@[simp] theorem value_pure : (pure a : Said ν ρ α).value = a := rfl

@[simp] theorem notes_pure : (pure a : Said ν ρ α).notes = [] := rfl

@[simp] theorem refusals_pure : (pure a : Said ν ρ α).refusals = [] := rfl

end Values

/-! ### What is told -/

variable (names : ν → Prop) (rejects : ρ → Prop)

/-- Something that was said names the subject. -/
def Tells (x : Said ν ρ α) : Prop := (∃ n ∈ x.notes, names n) ∨ ∃ r ∈ x.refusals, rejects r

@[simp] theorem tells_pure (a : α) : Tells names rejects (pure a : Said ν ρ α) ↔ False := by
  simp [Tells]

@[simp] theorem tells_note (n : ν) : Tells names rejects (note n : Said ν ρ Unit) ↔ names n := by
  simp [Tells, note]

@[simp] theorem tells_refuse (r : ρ) :
    Tells names rejects (refuse r : Said ν ρ Unit) ↔ rejects r := by
  simp [Tells, refuse]

@[simp] theorem tells_noteAll (ns : List ν) :
    Tells names rejects (noteAll ns : Said ν ρ Unit) ↔ ∃ n ∈ ns, names n := by
  simp [Tells, noteAll]

@[simp] theorem tells_bind (x : Said ν ρ α) (f : α → Said ν ρ β) :
    Tells names rejects (x >>= f) ↔
      Tells names rejects x ∨ Tells names rejects (f x.value) := by
  simp only [Tells, notes_bind, refusals_bind, List.mem_append]
  constructor
  · rintro (⟨n, hn | hn, h⟩ | ⟨r, hr | hr, h⟩)
    · exact .inl (.inl ⟨n, hn, h⟩)
    · exact .inr (.inl ⟨n, hn, h⟩)
    · exact .inl (.inr ⟨r, hr, h⟩)
    · exact .inr (.inr ⟨r, hr, h⟩)
  · rintro ((⟨n, hn, h⟩ | ⟨r, hr, h⟩) | (⟨n, hn, h⟩ | ⟨r, hr, h⟩))
    · exact .inl ⟨n, .inl hn, h⟩
    · exact .inr ⟨r, .inl hr, h⟩
    · exact .inl ⟨n, .inr hn, h⟩
    · exact .inr ⟨r, .inr hr, h⟩

@[simp] theorem tells_noteIf (c : Prop) [Decidable c] (n : ν) :
    Tells names rejects (noteIf c n : Said ν ρ Unit) ↔ c ∧ names n := by
  by_cases hc : c <;> simp [noteIf, hc]

@[simp] theorem tells_refuseIf (c : Prop) [Decidable c] (r : ρ) :
    Tells names rejects (refuseIf c r : Said ν ρ Unit) ↔ c ∧ rejects r := by
  by_cases hc : c <;> simp [refuseIf, hc]

theorem not_tells {x : Said ν ρ α} (hnotes : x.notes = []) (hrefusals : x.refusals = []) :
    ¬Tells names rejects x := by
  simp [Tells, hnotes, hrefusals]

end Vigil.Lib.Noted
