import Mathlib.Data.List.Induction

/-! What is left of a list where some elements are not seen clearly: the clear ones, and one mark for
each run of the others.  The mark of a run that crosses a cut is set on its first side. -/

namespace Vigil.Lib.Blur

variable {α γ : Type} (view : α → Option γ)

/-- `hidden` says whether the element before the list is an unclear one. -/
def blur : Bool → List α → List (Option γ)
  | _, [] => []
  | hidden, a :: rest =>
    match view a with
    | some c => some c :: blur false rest
    | none => if hidden then blur true rest else none :: blur true rest

/-- Whether the last element is an unclear one. -/
def hiddenAt : Bool → List α → Bool
  | hidden, [] => hidden
  | _, a :: rest => hiddenAt (view a).isNone rest

variable {view}

@[simp] theorem blur_nil (hidden : Bool) : blur view hidden [] = [] := rfl

variable {a : α} {c : γ} {s t : List α}

theorem blur_clear (h : view a = some c) (hidden : Bool) (rest : List α) :
    blur view hidden (a :: rest) = some c :: blur view false rest := by
  simp only [blur, h]

theorem blur_append (hidden : Bool) (s t : List α) :
    blur view hidden (s ++ t) = blur view hidden s ++ blur view (hiddenAt view hidden s) t := by
  induction s generalizing hidden with
  | nil => rfl
  | cons a rest ih =>
    cases hview : view a with
    | some c =>
      simp only [List.cons_append, blur, hiddenAt, hview, ih]
      rfl
    | none =>
      cases hidden with
      | true =>
        simp only [List.cons_append, blur, hiddenAt, hview, ih, if_pos]
        rfl
      | false =>
        simp only [List.cons_append, blur, hiddenAt, hview, ih]
        rfl

theorem hiddenAt_append (hidden : Bool) (s t : List α) :
    hiddenAt view hidden (s ++ t) = hiddenAt view (hiddenAt view hidden s) t := by
  induction s generalizing hidden with
  | nil => rfl
  | cons a rest ih => exact ih _

/-- A run of unclear elements, of which there is one at least. -/
def Run (view : α → Option γ) (s : List α) : Prop := s ≠ [] ∧ ∀ a ∈ s, view a = none

theorem Run.single (h : view a = none) : Run view [a] :=
  ⟨List.cons_ne_nil _ _, fun _ hb => List.mem_singleton.mp hb ▸ h⟩

theorem Run.cons {a : α} {s : List α} (h : view a = none) (hs : Run view s) : Run view (a :: s) :=
  ⟨List.cons_ne_nil _ _, List.forall_mem_cons.mpr ⟨h, hs.2⟩⟩

theorem blur_all_hidden (h : ∀ a ∈ s, view a = none) : blur view true s = [] := by
  induction s with
  | nil => rfl
  | cons a rest ih =>
    simp only [blur, h a List.mem_cons_self, if_pos]
    exact ih fun b hb => h b (List.mem_cons_of_mem _ hb)

theorem Run.blur (h : Run view s) (hidden : Bool) :
    blur view hidden s = if hidden then [] else [none] := by
  obtain ⟨hne, hall⟩ := h
  cases s with
  | nil => exact absurd rfl hne
  | cons a rest =>
    have hrest := blur_all_hidden fun b hb => hall b (List.mem_cons_of_mem _ hb)
    simp only [Blur.blur, hall a List.mem_cons_self, hrest]

theorem Run.hiddenAt (h : Run view s) (hidden : Bool) : hiddenAt view hidden s = true := by
  obtain ⟨hne, hall⟩ := h
  rw [← List.dropLast_concat_getLast hne, hiddenAt_append]
  simp only [Blur.hiddenAt, hall _ (List.getLast_mem hne), Option.isNone_none]

/-! ### Lists that look the same -/

/-- Nothing that is seen tells the two lists apart. -/
def Alike (view : α → Option γ) (s t : List α) : Prop := blur view false s = blur view false t

theorem Alike.nil_left (h : Alike view [] t) : t = [] := by
  cases t with
  | nil => rfl
  | cons a rest =>
    unfold Alike blur at h
    cases hview : view a with
    | some c => simp [hview] at h
    | none => simp [hview] at h

theorem Alike.symm (h : Alike view s t) : Alike view t s := Eq.symm h

/-- A list that begins clearly looks like no list that begins otherwise. -/
theorem Alike.clear_cons (hview : view a = some c) (h : Alike view (a :: s) t) :
    ∃ b u, t = b :: u ∧ view b = some c ∧ Alike view s u := by
  unfold Alike at h
  rw [blur_clear hview] at h
  cases t with
  | nil => exact absurd h (List.cons_ne_nil _ _)
  | cons b u =>
    cases hb : view b with
    | some d =>
      rw [blur_clear hb] at h
      obtain ⟨hc, hrest⟩ := List.cons.inj h
      exact ⟨b, u, rfl, hb.trans hc.symm, hrest⟩
    | none =>
      simp only [blur, hb] at h
      exact absurd (List.cons.inj h).1 (Option.some_ne_none c)

theorem getLast?_blur (s : List α) : (blur view false s).getLast? = s.getLast?.map view := by
  induction s using List.reverseRecOn with
  | nil => rfl
  | append_singleton s a ih =>
    rw [blur_append, List.getLast?_concat, Option.map_some]
    cases hview : view a with
    | some c => rw [blur_clear hview, blur_nil, List.getLast?_concat]
    | none =>
      cases hhidden : hiddenAt view false s with
      | false => simp [blur, hview]
      | true =>
        have hlast : s.getLast?.map view = some none := by
          obtain rfl | ⟨s, b, rfl⟩ := s.eq_nil_or_concat
          · exact absurd hhidden Bool.false_ne_true
          · rw [List.concat_eq_append, hiddenAt_append] at hhidden
            rw [List.concat_eq_append, List.getLast?_concat, Option.map_some]
            exact congrArg some (Option.isNone_iff_eq_none.mp hhidden)
        simp only [blur, hview, if_true, List.append_nil]
        rw [ih, hlast]

theorem Alike.getLast? (h : Alike view s t) : s.getLast?.map view = t.getLast?.map view := by
  rw [← getLast?_blur, ← getLast?_blur, h]

/-- Lists that look the same do so without a clear last element of both. -/
theorem Alike.dropLast {a b : α} (ha : view a = some c) (hb : view b = some c)
    (h : Alike view (s ++ [a]) (t ++ [b])) : Alike view s t := by
  unfold Alike at h
  rw [blur_append, blur_append, blur_clear ha, blur_clear hb] at h
  exact List.append_cancel_right h

/-! ### Cuts at a clear element -/

theorem mem_blur_iff {hidden : Bool} : some c ∈ blur view hidden s ↔ ∃ a ∈ s, view a = some c := by
  induction s generalizing hidden with
  | nil => simp
  | cons a rest ih =>
    cases hview : view a with
    | some d =>
      simp only [blur, hview, List.mem_cons, ih, Option.some.injEq, exists_eq_or_imp]
      exact or_congr_left eq_comm
    | none =>
      cases hidden with
      | true => simp [blur, hview, ih]
      | false => simp [blur, hview, ih]

theorem blur_cut (h : view a = some c) (hidden : Bool) (s rest : List α) :
    blur view hidden (s ++ a :: rest) = blur view hidden s ++ some c :: blur view false rest := by
  rw [blur_append, blur_clear h]

theorem first_cut {x : α} {p p' q q' : List α} (hp : x ∉ p) (hp' : x ∉ p')
    (h : p ++ x :: q = p' ++ x :: q') : p = p' ∧ q = q' := by
  induction p generalizing p' with
  | nil =>
    cases p' with
    | nil => exact ⟨rfl, (List.cons.inj h).2⟩
    | cons y p' => exact absurd (List.mem_cons.mpr (.inl (List.cons.inj h).1)) hp'
  | cons y p ih =>
    cases p' with
    | nil => exact absurd (List.mem_cons.mpr (.inl (List.cons.inj h).1.symm)) hp
    | cons z p' =>
      obtain ⟨rfl, hrest⟩ := List.cons.inj h
      obtain ⟨rfl, hq⟩ := ih (fun hmem => hp (List.mem_cons_of_mem _ hmem))
        (fun hmem => hp' (List.mem_cons_of_mem _ hmem)) hrest
      exact ⟨rfl, hq⟩

/-- Two lists that look the same are cut alike where a clear element stands first. -/
theorem Alike.cut (h : view a = some c) {s s' rest rest' : List α} (hs : ∀ b ∈ s, view b ≠ some c)
    (hs' : ∀ b ∈ s', view b ≠ some c) (halike : Alike view (s ++ a :: rest) (s' ++ a :: rest')) :
    Alike view s s' ∧ Alike view rest rest' := by
  have hfree {s : List α} (hs : ∀ b ∈ s, view b ≠ some c) : some c ∉ blur view false s := by
    rintro hmem
    obtain ⟨b, hb, hview⟩ := mem_blur_iff.mp hmem
    exact hs b hb hview
  unfold Alike at halike
  rw [blur_cut h, blur_cut h] at halike
  exact first_cut (hfree hs) (hfree hs') halike

end Vigil.Lib.Blur
