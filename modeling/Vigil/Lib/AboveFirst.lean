import Mathlib.Data.List.Nodup
import Mathlib.Logic.Relation

/-! A depth-first walk over items each of which has at most one item above it.  The walk goes up
before it places an item, and it does not enter an item that it has placed or is inside of.  Every
item is placed once, and after the item above it unless it is above itself. -/

namespace Vigil.Lib.AboveFirst

/-- The items that the walk has placed and is inside of, by their keys, and those placed in order. -/
structure Walk (α κ : Type) where
  placed : List κ := []
  visiting : List κ := []
  ordered : List α := []

variable {α κ : Type} [DecidableEq κ] (key : α → κ) (above : α → Option α)

namespace Walk

def entered (walk : Walk α κ) (item : α) : Walk α κ :=
  { walk with visiting := key item :: walk.visiting }

def left (walk : Walk α κ) (item : α) : Walk α κ where
  placed := key item :: walk.placed
  visiting := walk.visiting.filter (· ≠ key item)
  ordered := walk.ordered ++ [item]

end Walk

/-- The walk from one item.  It is `none` when the fuel does not last. -/
def visit : ℕ → α → Walk α κ → Option (Walk α κ)
  | 0, _, _ => none
  | fuel + 1, item, walk =>
    if key item ∈ walk.placed ∨ key item ∈ walk.visiting then some walk
    else
      match above item with
      | none => some ((walk.entered key item).left key item)
      | some parent => (visit fuel parent (walk.entered key item)).map (·.left key item)

def visitAll (fuel : ℕ) : List α → Walk α κ → Option (Walk α κ)
  | [], walk => some walk
  | item :: rest, walk => (visit key above fuel item walk).bind (visitAll fuel rest)

/-- One item is somewhere above another. -/
def Under : α → α → Prop := Relation.TransGen fun item parent => above item = some parent

/-- The items of a list that the walk is not inside of. -/
def outside (items : List α) (walk : Walk α κ) : ℕ :=
  (items.filter fun item => key item ∉ walk.visiting).length

/-- The walk has placed items of the list once each and after the items above them, and is inside
of none of them. -/
structure Ordered (items : List α) (walk : Walk α κ) : Prop where
  mem : ∀ item ∈ walk.ordered, item ∈ items
  placed : walk.placed = (walk.ordered.map key).reverse
  nodup : (walk.ordered.map key).Nodup
  apart : ∀ k ∈ walk.visiting, k ∉ walk.placed
  after : ∀ item ∈ walk.ordered, ∀ parent, above item = some parent →
    [parent, item].Sublist walk.ordered ∨ Under above item item

/-- What the walk from one item does to a walk: it only places items, and the item is one of them
unless the walk was inside of it. -/
structure Visited (items : List α) (item : α) (walk walk' : Walk α κ) : Prop where
  ordered : Ordered key above items walk'
  visiting : walk'.visiting = walk.visiting
  grows : walk.ordered <+: walk'.ordered
  placed : key item ∈ walk'.placed ∨ key item ∈ walk.visiting

variable {key above} {items : List α} {item : α} {walk walk' : Walk α κ}

omit [DecidableEq κ] in
theorem Ordered.mem_of_placed (h : Ordered key above items walk)
    (hkeys : ∀ a ∈ items, ∀ b ∈ items, key a = key b → a = b) (hitem : item ∈ items)
    (hplaced : key item ∈ walk.placed) : item ∈ walk.ordered := by
  rw [h.placed, List.mem_reverse] at hplaced
  obtain ⟨other, hother, hkey⟩ := List.mem_map.mp hplaced
  rwa [← hkeys other (h.mem other hother) item hitem hkey]

theorem outside_entered (hitem : item ∈ items) (hfree : key item ∉ walk.visiting) :
    outside key items (walk.entered key item) < outside key items walk := by
  have hsub : (items.filter fun a => key a ∉ (walk.entered key item).visiting).Sublist
      (items.filter fun a => key a ∉ walk.visiting) := by
    apply List.monotone_filter_right
    intro a ha
    simp only [Walk.entered, List.mem_cons, not_or, decide_eq_true_eq] at ha ⊢
    exact ha.2
  refine Nat.lt_of_le_of_ne hsub.length_le fun hlength => ?_
  have hmem : item ∈ items.filter fun a => key a ∉ walk.visiting :=
    List.mem_filter.mpr ⟨hitem, decide_eq_true hfree⟩
  rw [← hsub.eq_of_length hlength] at hmem
  simpa [Walk.entered] using (List.mem_filter.mp hmem).2

omit [DecidableEq κ] in
theorem Ordered.entered (h : Ordered key above items walk) (hfree : key item ∉ walk.placed) :
    Ordered key above items (walk.entered key item) where
  mem := h.mem
  placed := h.placed
  nodup := h.nodup
  apart := by
    intro k hk
    rcases List.mem_cons.mp hk with rfl | hk
    · exact hfree
    · exact h.apart k hk
  after := h.after

/-- Placing an item whose parent is placed, or under which the parent is. -/
theorem Ordered.left (h : Ordered key above items walk') (hitem : item ∈ items)
    (hvisiting : walk'.visiting = key item :: walk.visiting) (hfree : key item ∉ walk.visiting)
    (hparent : ∀ parent, above item = some parent →
      parent ∈ walk'.ordered ∨ Under above item item) :
    Ordered key above items (walk'.left key item) ∧
      (walk'.left key item).visiting = walk.visiting := by
  have hnew : key item ∉ walk'.placed :=
    h.apart _ (hvisiting ▸ List.mem_cons_self)
  have hback : (walk'.left key item).visiting = walk.visiting := by
    simp only [Walk.left, hvisiting, ne_eq, decide_not, List.filter_cons, decide_true,
      Bool.not_true, Bool.false_eq_true, if_false]
    apply List.filter_eq_self.mpr
    intro k hk
    simpa using fun heq : k = key item => hfree (heq ▸ hk)
  refine ⟨⟨?_, ?_, ?_, ?_, ?_⟩, hback⟩
  · intro a ha
    rcases List.mem_append.mp ha with ha | ha
    · exact h.mem a ha
    · rwa [List.mem_singleton.mp ha]
  · simp [Walk.left, h.placed]
  · have hnotMem : key item ∉ walk'.ordered.map key := by
      rwa [h.placed, List.mem_reverse] at hnew
    simpa [Walk.left, List.nodup_append, h.nodup] using hnotMem
  · intro k hk hplaced
    rw [hback] at hk
    rcases List.mem_cons.mp hplaced with rfl | hplaced
    · exact hfree hk
    · exact h.apart k (hvisiting ▸ List.mem_cons_of_mem _ hk) hplaced
  · intro a ha parent habove
    rcases List.mem_append.mp ha with ha | ha
    · exact (h.after a ha parent habove).imp_left fun hsub =>
        hsub.trans (List.sublist_append_left _ _)
    · obtain rfl := List.mem_singleton.mp ha
      refine (hparent parent habove).imp_left fun hmem => ?_
      exact (List.singleton_sublist.mpr hmem).append (List.Sublist.refl [a])

/-- With more fuel than there are items that the walk is not inside of, a visit comes to an end. -/
theorem visit_spec (hkeys : ∀ a ∈ items, ∀ b ∈ items, key a = key b → a = b)
    (habove : ∀ a ∈ items, ∀ parent, above a = some parent → parent ∈ items) (fuel : ℕ) (item : α)
    (walk : Walk α κ) (hfuel : outside key items walk < fuel) (hitem : item ∈ items)
    (hwalk : Ordered key above items walk)
    (hinside : ∀ a ∈ items, key a ∈ walk.visiting → Under above a item) :
    ∃ walk', visit key above fuel item walk = some walk' ∧
      Visited key above items item walk walk' := by
  induction fuel generalizing item walk with
  | zero => exact absurd hfuel (Nat.not_lt_zero _)
  | succ fuel ih =>
    rw [visit]
    by_cases hstop : key item ∈ walk.placed ∨ key item ∈ walk.visiting
    · exact ⟨walk, if_pos hstop, hwalk, rfl, List.prefix_rfl, hstop⟩
    · rw [if_neg hstop]
      obtain ⟨hplaced, hvisiting⟩ := not_or.mp hstop
      have hentered := hwalk.entered hplaced
      cases hparent : above item with
      | none =>
        obtain ⟨hordered, hback⟩ := hentered.left hitem rfl hvisiting fun parent h => by
          rw [hparent] at h
          cases h
        exact ⟨_, rfl, hordered, hback, List.prefix_append _ _, .inl List.mem_cons_self⟩
      | some parent =>
        have hmem : parent ∈ items := habove item hitem parent hparent
        have hstep : ∀ a ∈ items, key a ∈ (walk.entered key item).visiting →
            Under above a parent := by
          intro a ha hkey
          rcases List.mem_cons.mp hkey with hkey | hkey
          · rw [hkeys a ha item hitem hkey]
            exact .single hparent
          · exact (hinside a ha hkey).tail hparent
        obtain ⟨walk', hvisit, hdone⟩ := ih parent (walk.entered key item)
          (Nat.lt_of_lt_of_le (outside_entered hitem hvisiting) (Nat.le_of_lt_succ hfuel))
          hmem hentered hstep
        have hcycle : key parent ∈ (walk.entered key item).visiting → Under above item item := by
          intro hkey
          rcases List.mem_cons.mp hkey with hkey | hkey
          · exact .single (hkeys parent hmem item hitem hkey ▸ hparent)
          · exact (hinside parent hmem hkey).head hparent
        obtain ⟨hordered, hback⟩ := hdone.ordered.left hitem hdone.visiting hvisiting
          fun other hother => by
            obtain rfl := Option.some.inj (hparent.symm.trans hother)
            exact hdone.placed.imp (hdone.ordered.mem_of_placed hkeys hmem) hcycle
        refine ⟨walk'.left key item, ?_, hordered, hback, ?_, .inl List.mem_cons_self⟩
        · simp only [hvisit, Option.map_some]
        · exact hdone.grows.trans (List.prefix_append _ _)

variable {fuel : ℕ}

theorem visitAll_spec (hkeys : ∀ a ∈ items, ∀ b ∈ items, key a = key b → a = b)
    (habove : ∀ a ∈ items, ∀ parent, above a = some parent → parent ∈ items)
    (hfuel : items.length < fuel) (rest : List α) (walk : Walk α κ) (hrest : ∀ a ∈ rest, a ∈ items)
    (hwalk : Ordered key above items walk) (hout : walk.visiting = []) :
    ∃ walk', visitAll key above fuel rest walk = some walk' ∧ Ordered key above items walk' ∧
      walk.ordered <+: walk'.ordered ∧ ∀ a ∈ rest, a ∈ walk'.ordered := by
  induction rest generalizing walk with
  | nil => exact ⟨walk, rfl, hwalk, List.prefix_rfl, nofun⟩
  | cons item rest ih =>
    have hitem : item ∈ items := hrest item List.mem_cons_self
    obtain ⟨next, hvisit, hdone⟩ := visit_spec hkeys habove fuel item walk
      (Nat.lt_of_le_of_lt (List.length_filter_le _ _) hfuel) hitem hwalk fun a _ hinside => by
        rw [hout] at hinside
        cases hinside
    have hplaced : key item ∈ next.placed := hdone.placed.resolve_right fun hinside => by
      rw [hout] at hinside
      cases hinside
    obtain ⟨walk', hall, hordered, hgrows, hmem⟩ := ih next
      (fun a ha => hrest a (List.mem_cons_of_mem _ ha)) hdone.ordered (hdone.visiting.trans hout)
    refine ⟨walk', by rw [visitAll, hvisit, Option.bind_some, hall], hordered,
      hdone.grows.trans hgrows, ?_⟩
    intro a ha
    rcases List.mem_cons.mp ha with rfl | ha
    · exact hgrows.subset (hdone.ordered.mem_of_placed hkeys hitem hplaced)
    · exact hmem a ha

/-- A visit that comes to an end does the same with more fuel. -/
theorem visit_succ (h : visit key above fuel item walk = some walk') :
    visit key above (fuel + 1) item walk = some walk' := by
  induction fuel generalizing item walk walk' with
  | zero => cases h
  | succ fuel ih =>
    rw [visit] at h ⊢
    by_cases hstop : key item ∈ walk.placed ∨ key item ∈ walk.visiting
    · rwa [if_pos hstop] at h ⊢
    · rw [if_neg hstop] at h ⊢
      cases hparent : above item with
      | none => simpa only [hparent] using h
      | some parent =>
        simp only [hparent] at h ⊢
        obtain ⟨next, hvisit, rfl⟩ := Option.map_eq_some_iff.mp h
        rw [ih hvisit, Option.map_some]

theorem visitAll_succ {rest : List α} (h : visitAll key above fuel rest walk = some walk') :
    visitAll key above (fuel + 1) rest walk = some walk' := by
  induction rest generalizing walk with
  | nil => exact h
  | cons item rest ih =>
    obtain ⟨next, hvisit, hrest⟩ := Option.bind_eq_some_iff.mp h
    rw [visitAll, visit_succ hvisit, Option.bind_some]
    exact ih hrest

theorem visitAll_of_le {fuel more : ℕ} (hle : fuel ≤ more) {rest : List α}
    (h : visitAll key above fuel rest walk = some walk') :
    visitAll key above more rest walk = some walk' := by
  induction hle with
  | refl => exact h
  | step _ ih => exact visitAll_succ ih

/-- The walk over all items comes to an end and places each of them once, an item that is not above
itself after the item above it. -/
theorem visitAll_items (hnodup : (items.map key).Nodup)
    (habove : ∀ a ∈ items, ∀ parent, above a = some parent → parent ∈ items) :
    ∃ walk, (∀ fuel, items.length < fuel → visitAll key above fuel items {} = some walk) ∧
      walk.ordered.Perm items ∧
      ∀ item ∈ items, ∀ parent, above item = some parent → ¬Under above item item →
        [parent, item].Sublist walk.ordered := by
  have hstart : Ordered key above items {} :=
    ⟨nofun, rfl, List.nodup_nil,
      nofun, nofun⟩
  obtain ⟨walk, hall, hordered, -, hmem⟩ := visitAll_spec (List.inj_on_of_nodup_map hnodup) habove
    (Nat.lt_succ_self _) items {} (fun _ => id) hstart rfl
  refine ⟨walk, fun fuel hfuel => visitAll_of_le hfuel hall, ?_, ?_⟩
  · apply (List.perm_ext_iff_of_nodup hordered.nodup.of_map hnodup.of_map).mpr
    exact fun a => ⟨hordered.mem a, hmem a⟩
  · intro item hitem parent hparent hfree
    exact (hordered.after item (hmem item hitem) parent hparent).resolve_right hfree

end Vigil.Lib.AboveFirst
