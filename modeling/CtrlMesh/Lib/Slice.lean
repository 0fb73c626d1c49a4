import Mathlib.Data.List.Basic
import Mathlib.Logic.Function.Basic
import Mathlib.Tactic.Common

/-!
# Go slices

A slice is a header over an array in memory: where it starts, how many elements it shows and how
many cells it may grow into. Headers are copied, cells are shared. `append` writes into the cells
behind a slice if there is room, so a removal by `append(s[:i], s[i+1:]...)` shifts the cells of
every slice of that array, and only the header it returns is shorter.
-/

namespace CtrlMesh.Lib

/-- Arrays by their addresses; those from `next` on are not in use. -/
structure Memory (α : Type) where
  cells : Nat → List α
  next : Nat

/-- A window of an array. -/
structure Slice where
  array : Nat
  start : Nat
  length : Nat
  capacity : Nat
  deriving DecidableEq

namespace Slice

/-- `s[:i]`. -/
def upTo (s : Slice) (i : Nat) : Slice := { s with length := i }

/-- `s[i:]`. -/
def after (s : Slice) (i : Nat) : Slice :=
  ⟨s.array, s.start + i, s.length - i, s.capacity - i⟩

end Slice

/-- The cells with some items written over those from `start` on. -/
def overwrite {α : Type} (cells : List α) (start : Nat) (items : List α) : List α :=
  cells.take start ++ items ++ cells.drop (start + items.length)

namespace Memory

variable {α : Type}

/-- What a holder of the slice sees. -/
def view (mem : Memory α) (s : Slice) : List α := ((mem.cells s.array).drop s.start).take s.length

/-- The slice lies in its array. -/
structure Holds (mem : Memory α) (s : Slice) : Prop where
  length : s.length ≤ s.capacity
  capacity : s.start + s.capacity ≤ (mem.cells s.array).length

/-- Write items into an array. -/
def write (mem : Memory α) (array start : Nat) (items : List α) : Memory α :=
  { mem with cells := Function.update mem.cells array (overwrite (mem.cells array) start items) }

/-- `append(s, items...)`. Without room the elements move to a new array. -/
def append (mem : Memory α) (s : Slice) (items : List α) : Memory α × Slice :=
  let length := s.length + items.length
  if length ≤ s.capacity then
    (mem.write s.array (s.start + s.length) items, { s with length := length })
  else
    (⟨Function.update mem.cells mem.next (mem.view s ++ items), mem.next + 1⟩,
      ⟨mem.next, 0, length, length⟩)

/-- `append(s[:i], s[i+1:]...)`. -/
def removeAt (mem : Memory α) (s : Slice) (i : Nat) : Memory α × Slice :=
  mem.append (s.upTo i) (mem.view (s.after (i + 1)))

section Views

variable {mem : Memory α} {s t : Slice} {i : Nat}

/-- A slice shows as many items as it has. -/
theorem Holds.length_view (holds : mem.Holds s) : (mem.view s).length = s.length := by
  have capacity := holds.capacity
  have length := holds.length
  rw [view, List.length_take, List.length_drop]
  omega

/-- The view of the rest of a slice. -/
theorem view_after : mem.view (s.after i) = (mem.view s).drop i := by
  simp only [view, Slice.after, List.drop_take, List.drop_drop]

/-- The cells before a slice, in it and behind it. -/
theorem Holds.exists_cells (holds : mem.Holds s) :
    ∃ before behind, mem.cells s.array = before ++ (mem.view s ++ behind) ∧
      before.length = s.start := by
  refine ⟨(mem.cells s.array).take s.start, (mem.cells s.array).drop (s.start + s.length), ?_, ?_⟩
  · rw [view, ← List.drop_drop, List.take_append_drop, List.take_append_drop]
  · have capacity := holds.capacity
    rw [List.length_take]
    omega

/-- A write changes one array. -/
theorem cells_write (array start : Nat) (items : List α) (other : Nat) :
    (mem.write array start items).cells other =
      if other = array then overwrite (mem.cells array) start items else mem.cells other :=
  Function.update_apply ..

variable {array start : Nat} {items : List α}

/-- A write is not seen through slices of other arrays. -/
theorem view_write_of_ne (other : s.array ≠ array) :
    (mem.write array start items).view s = mem.view s := by
  simp only [view, cells_write, if_neg other]

/-- A write that fits keeps the length. -/
theorem length_overwrite {cells : List α} (fits : start + items.length ≤ cells.length) :
    (overwrite cells start items).length = cells.length := by
  simp only [overwrite, List.length_append, List.length_take, List.length_drop]
  omega

/-- A write inside an array moves no slice out of its array. -/
theorem Holds.write (fits : start + items.length ≤ (mem.cells array).length) (holds : mem.Holds t) :
    (mem.write array start items).Holds t := by
  refine ⟨holds.length, ?_⟩
  rw [cells_write]
  split
  · next same =>
    rw [length_overwrite fits, ← same]
    exact holds.capacity
  · exact holds.capacity

end Views

section Removal

variable {mem : Memory α} {s t : Slice} {i : Nat}

/-- A removal stays in the array, since the slice it appends to keeps the capacity. -/
theorem removeAt_eq (holds : mem.Holds s) (inside : i < s.length) :
    mem.removeAt s i = (mem.write s.array (s.start + i) ((mem.view s).drop (i + 1)),
      { s with length := s.length - 1 }) := by
  have length : i + ((mem.view s).drop (i + 1)).length = s.length - 1 := by
    rw [List.length_drop, holds.length_view]
    omega
  have room : s.length - 1 ≤ s.capacity := by
    have := holds.length
    omega
  rw [removeAt, view_after]
  simp only [append, Slice.upTo, length, if_pos room]

/-- The removal writes inside the array. -/
theorem removeAt_fits (holds : mem.Holds s) (inside : i < s.length) :
    s.start + i + ((mem.view s).drop (i + 1)).length ≤ (mem.cells s.array).length := by
  have capacity := holds.capacity
  have length := holds.length
  rw [List.length_drop, holds.length_view]
  omega

/-- A removal leaves every slice in its array. -/
theorem Holds.removeAt (holds : mem.Holds s) (inside : i < s.length) (other : mem.Holds t) :
    (mem.removeAt s i).1.Holds t := by
  rw [removeAt_eq holds inside]
  exact other.write (removeAt_fits holds inside)

/-- The elements behind the removed one move up by one, and the last cell stays as it was. -/
theorem overwrite_shift {before elements behind : List α} (inside : i < elements.length) :
    overwrite (before ++ (elements ++ behind)) (before.length + i) (elements.drop (i + 1)) =
      before ++ (elements.eraseIdx i ++ (elements.getLast?.toList ++ behind)) := by
  have kept : (before ++ (elements ++ behind)).take (before.length + i) =
      before ++ elements.take i := by
    rw [List.take_length_add_append, List.take_append_of_le_length (Nat.le_of_lt inside)]
  have position : before.length + i + (elements.drop (i + 1)).length =
      before.length + (elements.length - 1) := by
    rw [List.length_drop]
    omega
  have last : elements.drop (elements.length - 1) = elements.getLast?.toList := by
    obtain ⟨init, final, rfl⟩ := (List.eq_nil_or_concat elements).resolve_left (by
      rintro rfl
      exact absurd inside (Nat.not_lt_zero i))
    simp
  have left : (before ++ (elements ++ behind)).drop (before.length + (elements.length - 1)) =
      elements.getLast?.toList ++ behind := by
    rw [List.drop_length_add_append, List.drop_append_of_le_length (by omega), last]
  rw [overwrite, kept, position, left, List.eraseIdx_eq_take_drop_succ]
  simp only [List.append_assoc]

/-- The cells from the start of the slice on, after a removal. -/
theorem exists_drop_cells_removeAt (holds : mem.Holds s) (inside : i < s.length) :
    ∃ behind, ((mem.removeAt s i).1.cells s.array).drop s.start =
      (mem.view s).eraseIdx i ++ ((mem.view s).getLast?.toList ++ behind) := by
  obtain ⟨before, behind, cells, start⟩ := holds.exists_cells
  have within : i < (mem.view s).length := by rwa [holds.length_view]
  refine ⟨behind, ?_⟩
  rw [removeAt_eq holds inside, cells_write, if_pos rfl, cells, ← start,
    overwrite_shift within, List.drop_left]

/-- Whoever has kept the old header sees the last element once more behind the others. -/
theorem view_removeAt_stale (holds : mem.Holds s) (inside : i < s.length) :
    (mem.removeAt s i).1.view s = (mem.view s).eraseIdx i ++ (mem.view s).getLast?.toList := by
  obtain ⟨behind, cells⟩ := exists_drop_cells_removeAt holds inside
  have within : i < (mem.view s).length := by rwa [holds.length_view]
  have some : mem.view s ≠ [] := List.ne_nil_of_length_pos (by omega)
  have length : ((mem.view s).eraseIdx i ++ (mem.view s).getLast?.toList).length = s.length := by
    rw [List.length_append, List.length_eraseIdx_of_lt within,
      List.getLast?_eq_some_getLast some, holds.length_view]
    simp only [Option.toList_some, List.length_singleton]
    omega
  rw [view, cells, ← List.append_assoc, ← length, List.take_left]

/-- A removal does not show in other arrays. -/
theorem view_removeAt_of_ne (holds : mem.Holds s) (inside : i < s.length)
    (other : t.array ≠ s.array) : (mem.removeAt s i).1.view t = mem.view t := by
  rw [removeAt_eq holds inside]
  exact view_write_of_ne other

end Removal

end Memory

end CtrlMesh.Lib
