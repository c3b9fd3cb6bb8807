import Vigil.Lib.AboveFirst
import Mathlib.Data.Int.Notation

/-! The order in which the Kuma importer creates monitors.  `creationOrder` walks from each row up to
the groups that it belongs to, so that a group is created before its members.  A row may name a
parent that is missing, itself, or a row that closes a cycle. -/

namespace Vigil.Importers.CreationOrder

open Lib.AboveFirst

/-- A row of Kuma's `monitor` table.  `columns` are those that the walk passes on. -/
structure KumaMonitorRow (Columns : Type) where
  id : ℤ
  parent : Option ℤ
  columns : Columns

variable {Columns : Type}

/-- `new Map(rows.map((row) => [row.id, row])).get(id)`: of two rows with one id, the later. -/
def byId (rows : List (KumaMonitorRow Columns)) (id : ℤ) : Option (KumaMonitorRow Columns) :=
  rows.reverse.find? fun row => row.id = id

def parentRow (rows : List (KumaMonitorRow Columns)) (row : KumaMonitorRow Columns) :
    Option (KumaMonitorRow Columns) :=
  row.parent.bind (byId rows)

/-- The order of the rows, where `fuel` bounds how deep `visit` calls itself. -/
def creationOrder (fuel : ℕ) (rows : List (KumaMonitorRow Columns)) :
    Option (List (KumaMonitorRow Columns)) :=
  (visitAll KumaMonitorRow.id (parentRow rows) fuel rows {}).map (·.ordered)

/-- A row is the other's parent, its parent's parent, or further up. -/
def Ancestor (rows : List (KumaMonitorRow Columns)) (ancestor row : KumaMonitorRow Columns) :
    Prop :=
  Relation.TransGen (fun row parent => parent ∈ rows ∧ row.parent = some parent.id) row ancestor

/-- The chain of ancestors of a row has no row twice. -/
def AcyclicChain (rows : List (KumaMonitorRow Columns)) (row : KumaMonitorRow Columns) : Prop :=
  ¬Ancestor rows row row ∧
    ∀ ancestor, Ancestor rows ancestor row → ¬Ancestor rows ancestor ancestor

section Parents

variable {rows : List (KumaMonitorRow Columns)}

theorem mem_of_parentRow {row parent : KumaMonitorRow Columns}
    (h : parentRow rows row = some parent) : parent ∈ rows ∧ row.parent = some parent.id := by
  obtain ⟨id, hid, hfind⟩ := Option.bind_eq_some_iff.mp h
  have hmem := List.mem_reverse.mp (List.mem_of_find?_eq_some hfind)
  have hkey : parent.id = id := by simpa using List.find?_some hfind
  exact ⟨hmem, hkey ▸ hid⟩

theorem parentRow_eq_some_iff (hids : (rows.map (·.id)).Nodup) {row parent : KumaMonitorRow Columns} :
    parentRow rows row = some parent ↔ parent ∈ rows ∧ row.parent = some parent.id := by
  refine ⟨mem_of_parentRow, ?_⟩
  rintro ⟨hmem, hparent⟩
  rw [parentRow, hparent, Option.bind_some, byId]
  cases hfind : rows.reverse.find? (fun row => row.id = parent.id) with
  | none =>
    have hnone := List.find?_eq_none.mp hfind parent (List.mem_reverse.mpr hmem)
    exact absurd (decide_eq_true rfl) hnone
  | some found =>
    have hfound := List.mem_reverse.mp (List.mem_of_find?_eq_some hfind)
    have hkey : found.id = parent.id := by simpa using List.find?_some hfind
    rw [List.inj_on_of_nodup_map hids hfound hmem hkey]

theorem under_iff (hids : (rows.map (·.id)).Nodup) {row ancestor : KumaMonitorRow Columns} :
    Under (parentRow rows) row ancestor ↔ Ancestor rows ancestor row := by
  have hedge : (fun item parent => parentRow rows item = some parent) =
      fun row parent => parent ∈ rows ∧ row.parent = some parent.id := by
    funext row parent
    exact propext (parentRow_eq_some_iff hids)
  rw [Under, Ancestor, hedge]

end Parents

/-- Whatever the parents are, the walk comes to an end with each row once.  A row that is not its
own ancestor comes after its parent, also where the chain of the parent runs into a cycle. -/
theorem creationOrder_parents_first (rows : List (KumaMonitorRow Columns))
    (hids : (rows.map (·.id)).Nodup) :
    ∃ ordered, (∀ fuel, rows.length < fuel → creationOrder fuel rows = some ordered) ∧
      ordered.Perm rows ∧
      (∀ row ∈ rows, ¬Ancestor rows row row → ∀ parent ∈ rows, row.parent = some parent.id →
        [parent, row].Sublist ordered) ∧
      ∀ row ∈ rows, AcyclicChain rows row → ∀ parent ∈ rows, row.parent = some parent.id →
        [parent, row].Sublist ordered := by
  obtain ⟨walk, hall, hperm, hafter⟩ := visitAll_items hids
    (fun _ _ _ h => (mem_of_parentRow h).1)
  have hfirst : ∀ row ∈ rows, ¬Ancestor rows row row → ∀ parent ∈ rows,
      row.parent = some parent.id → [parent, row].Sublist walk.ordered := by
    intro row hrow hown parent hmem hparent
    exact hafter row hrow parent ((parentRow_eq_some_iff hids).mpr ⟨hmem, hparent⟩)
      fun hunder => hown ((under_iff hids).mp hunder)
  refine ⟨walk.ordered, fun fuel hfuel => ?_, hperm, hfirst, fun row hrow hchain =>
    hfirst row hrow hchain.1⟩
  rw [creationOrder, hall fuel hfuel, Option.map_some]

/-- A member before its group, two groups in one another, and a member of one of these. -/
def entangled : List (KumaMonitorRow Unit) :=
  [⟨2, some 1, ()⟩, ⟨3, some 4, ()⟩, ⟨4, some 3, ()⟩, ⟨1, none, ()⟩, ⟨5, some 4, ()⟩]

theorem entangled_parents_first :
    ∃ ordered, (∀ fuel, 5 < fuel → creationOrder fuel entangled = some ordered) ∧
      ordered.Perm entangled := by
  obtain ⟨ordered, hends, hperm, -⟩ := creationOrder_parents_first entangled (by decide)
  exact ⟨ordered, hends, hperm⟩

example : (creationOrder 6 entangled).map (·.map (·.id)) = some [1, 2, 4, 3, 5] := by decide

end Vigil.Importers.CreationOrder
