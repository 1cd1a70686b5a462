import Mathlib.Data.List.Basic

/-!
# Blocks of memory

A block is the list of what it holds; an access outside it has no result.
-/

namespace Edgessh.Block

variable {α : Type*}

/-- The values at an offset. -/
def slice (block : List α) (offset len : Nat) : Option (List α) :=
  if offset + len ≤ block.length then some ((block.drop offset).take len) else none

/-- Copy values to an offset. -/
def copyTo (block : List α) (offset : Nat) (values : List α) : Option (List α) :=
  if offset + values.length ≤ block.length then
    some (block.take offset ++ (values ++ block.drop (offset + values.length)))
  else none

variable {front mid rest values : List α}

theorem slice_append (front mid rest : List α) :
    slice (front ++ (mid ++ rest)) front.length mid.length = some mid := by
  have hle : front.length + mid.length ≤ (front ++ (mid ++ rest)).length := by
    simp only [List.length_append]
    omega
  rw [slice, if_pos hle, List.drop_left, List.take_left]

/-- What was at the place is replaced. -/
theorem copyTo_append (front rest : List α) (h : mid.length = values.length) :
    copyTo (front ++ (mid ++ rest)) front.length values = some (front ++ (values ++ rest)) := by
  have hle : front.length + values.length ≤ (front ++ (mid ++ rest)).length := by
    simp only [List.length_append]
    omega
  rw [copyTo, if_pos hle, List.take_left, ← h, ← List.length_append, ← List.append_assoc front mid,
    List.drop_left]

end Edgessh.Block
