import Mathlib.Data.List.Basic

/-! Buffers of a fixed size: lists that are read by slices and written over in place. -/

namespace Vigil.Lib.Buffer

variable {α : Type*}

/-- The `count` elements from `offset` on. -/
def slice (buffer : List α) (offset count : ℕ) : List α := (buffer.drop offset).take count

/-- The buffer with `content` written over what stands from `offset` on. -/
def writeAt (buffer : List α) (offset : ℕ) (content : List α) : List α :=
  buffer.take offset ++ (content ++ buffer.drop (offset + content.length))

theorem writeAt_nil (buffer : List α) (offset : ℕ) : writeAt buffer offset [] = buffer :=
  List.take_append_drop offset buffer

theorem slice_append (before content after : List α) :
    slice (before ++ (content ++ after)) before.length content.length = content := by
  rw [slice, List.drop_left, List.take_left]

theorem writeAt_between (before old after content : List α) (h : old.length = content.length) :
    writeAt (before ++ (old ++ after)) before.length content = before ++ (content ++ after) := by
  rw [writeAt, List.take_left, List.drop_append, List.drop_of_length_le (by omega),
    Nat.add_sub_cancel_left, ← h, List.drop_left, List.nil_append]

theorem writeAt_concat (buffer : List α) (offset : ℕ) (content : List α) (x : α)
    (h : offset + content.length < buffer.length) :
    (writeAt buffer offset content).set (offset + content.length) x =
      writeAt buffer offset (content ++ [x]) := by
  have hbefore : (buffer.take offset ++ content).length = offset + content.length := by
    rw [List.length_append, List.length_take]
    omega
  have hrest : buffer.drop (offset + content.length) =
      buffer[offset + content.length] :: buffer.drop (offset + content.length + 1) :=
    List.drop_eq_getElem_cons h
  rw [writeAt, writeAt, ← List.append_assoc, List.set_append_right _ _ (by omega), hbefore,
    Nat.sub_self, hrest, List.set_cons_zero, List.length_append, List.length_singleton,
    ← List.append_assoc, ← List.append_assoc, List.append_assoc _ [x], List.singleton_append]
  rfl

/-- A loop that sets one element after another writes all of them. -/
theorem foldl_set (buffer : List α) (offset : ℕ) (f : ℕ → α) (count : ℕ)
    (h : offset + count ≤ buffer.length) :
    (List.range count).foldl (fun buffer i => buffer.set (offset + i) (f i)) buffer =
      writeAt buffer offset ((List.range count).map f) := by
  induction count with
  | zero => exact (writeAt_nil buffer offset).symm
  | succ count ih =>
    have hlast := writeAt_concat buffer offset ((List.range count).map f) (f count)
      (by rw [List.length_map, List.length_range]; omega)
    rw [List.length_map, List.length_range] at hlast
    rw [List.range_succ, List.foldl_append, ih (by omega), List.map_append]
    exact hlast

theorem slice_skip (before after : List α) (offset count : ℕ) :
    slice (before ++ after) (before.length + offset) count = slice after offset count := by
  rw [slice, slice, List.drop_length_add_append]

/-! ### Contents one after another -/

/-- Where each of some contents begins, from `start` on, and how long it is. -/
def spans : ℕ → List (List α) → List (ℕ × ℕ)
  | _, [] => []
  | start, content :: contents =>
    (start, content.length) :: spans (start + content.length) contents

/-- Ranges of which each begins where the one before it ends, from `start` to `stop`. -/
def Tiles (start stop : ℕ) : List (ℕ × ℕ) → Prop
  | [] => start = stop
  | range :: ranges => range.1 = start ∧ Tiles (range.1 + range.2) stop ranges

theorem map_slice_spans (before : List α) (contents : List (List α)) :
    (spans before.length contents).map (fun r => slice (before ++ contents.flatten) r.1 r.2) =
      contents := by
  induction contents generalizing before with
  | nil => rfl
  | cons content contents ih =>
    have hrest := ih (before ++ content)
    rw [List.length_append, List.append_assoc] at hrest
    rw [spans, List.map_cons, List.flatten_cons, slice_append, hrest]

theorem tiles_spans (start : ℕ) (contents : List (List α)) :
    Tiles start (start + contents.flatten.length) (spans start contents) := by
  induction contents generalizing start with
  | nil => exact rfl
  | cons content contents ih =>
    have hrest := ih (start + content.length)
    rw [Nat.add_assoc, ← List.length_append, ← List.flatten_cons] at hrest
    exact ⟨rfl, hrest⟩

theorem Tiles.disjoint {start stop : ℕ} {ranges : List (ℕ × ℕ)} (h : Tiles start stop ranges) :
    (∀ range ∈ ranges, start ≤ range.1) ∧
      ranges.Pairwise fun before after => before.1 + before.2 ≤ after.1 := by
  induction ranges generalizing start with
  | nil => exact ⟨nofun, .nil⟩
  | cons range ranges ih =>
    obtain ⟨hstart, hrest⟩ := h
    obtain ⟨hafter, hpairwise⟩ := ih hrest
    refine ⟨fun other hother => ?_, List.pairwise_cons.mpr ⟨hafter, hpairwise⟩⟩
    rcases List.mem_cons.mp hother with rfl | hother
    · exact Nat.le_of_eq hstart.symm
    · have hle := hafter other hother
      omega

end Vigil.Lib.Buffer
