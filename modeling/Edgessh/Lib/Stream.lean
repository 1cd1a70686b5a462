import Mathlib.Data.List.Infix

/-!
# Segments of a growing stream

What a reader of an append-only stream holds is a segment of it: the elements between the
position at which it started to read and the position it has reached. The lemmas say how
segments behave when the stream grows and when two of them meet.
-/

namespace Edgessh.Stream

variable {α : Type*}

/-- The elements of `l` from position `i` up to position `j`. -/
def segment (l : List α) (i j : Nat) : List α := (l.take j).drop i

variable {l d s : List α} {i j k : Nat}

@[simp] theorem segment_self : segment l i i = [] := by
  simp [segment]

/-- What a reader has passed is not touched by what is appended. -/
theorem segment_append_of_le (hj : j ≤ l.length) : segment (l ++ d) i j = segment l i j := by
  unfold segment
  rw [List.take_append_of_le_length hj]

/-- A reader at the end of the stream also holds what is appended. -/
theorem segment_append_end (hi : i ≤ l.length) :
    segment (l ++ d) i (l ++ d).length = segment l i l.length ++ d := by
  unfold segment
  rw [List.take_length, List.take_length, List.drop_append_of_le_length hi]

theorem segment_append_segment (hij : i ≤ j) (hjk : j ≤ k) (hk : k ≤ l.length) :
    segment l i j ++ segment l j k = segment l i k := by
  unfold segment
  have hj : j ≤ (l.take k).length := by
    rw [List.length_take]
    omega
  have hlen : i ≤ ((l.take k).take j).length := by
    rw [List.length_take]
    omega
  have htake : l.take j = (l.take k).take j := by
    rw [List.take_take, Nat.min_eq_left hjk]
  rw [htake, ← List.drop_append_of_le_length hlen, List.take_append_drop]

/-- A suffix of the stream is the segment that ends where the stream ends. -/
theorem segment_of_suffix (h : s <:+ l) : segment l (l.length - s.length) l.length = s := by
  unfold segment
  rw [List.take_length]
  exact (List.suffix_iff_eq_drop.mp h).symm

end Edgessh.Stream
