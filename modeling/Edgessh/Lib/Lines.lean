import Mathlib.Data.List.Basic

/-!
# Lines

A text read line by line, each line with the terminator that ends it; the last one may have
none. Appending to a text leaves the lines before the last terminator as they are, and what
closes an unfinished line changes that line alone, and of its fields the last one.
-/

namespace Edgessh.Lines

variable {α : Type*} [DecidableEq α]

/-- The lines of a text, each with its terminator. -/
def lines (nl : α) : List α → List (List α)
  | [] => []
  | c :: cs =>
    if c = nl then [c] :: lines nl cs
    else
      match lines nl cs with
      | [] => [[c]]
      | l :: ls => (c :: l) :: ls

variable {nl sep c : α} {xs : List α}

@[simp] theorem lines_nil : lines nl ([] : List α) = [] := rfl

theorem lines_cons_self : lines nl (nl :: xs) = [nl] :: lines nl xs := by
  simp [lines]

theorem lines_cons_of_nil (hc : c ≠ nl) (hxs : lines nl xs = []) : lines nl (c :: xs) = [[c]] := by
  simp [lines, hc, hxs]

theorem lines_cons_of_cons {l : List α} {ls : List (List α)} (hc : c ≠ nl)
    (hxs : lines nl xs = l :: ls) : lines nl (c :: xs) = (c :: l) :: ls := by
  simp [lines, hc, hxs]

theorem lines_cons_ne_nil (c : α) (xs : List α) : lines nl (c :: xs) ≠ [] := by
  by_cases hc : c = nl
  · simp [lines, hc]
  · cases h : lines nl xs with
    | nil => simp [lines_cons_of_nil hc h]
    | cons l ls => simp [lines_cons_of_cons hc h]

theorem ne_nil_of_mem_lines {l : List α} (hl : l ∈ lines nl xs) : l ≠ [] := by
  induction xs generalizing l with
  | nil => cases hl
  | cons c cs ih =>
    by_cases hc : c = nl
    · subst hc
      rw [lines_cons_self] at hl
      rcases List.mem_cons.mp hl with rfl | hl
      · exact List.cons_ne_nil _ _
      · exact ih hl
    · cases h : lines nl cs with
      | nil =>
        rw [lines_cons_of_nil hc h, List.mem_singleton] at hl
        exact hl ▸ List.cons_ne_nil _ _
      | cons m ms =>
        rw [lines_cons_of_cons hc h] at hl
        rcases List.mem_cons.mp hl with rfl | hl
        · exact List.cons_ne_nil _ _
        · exact ih (h ▸ List.mem_cons_of_mem _ hl)

/-- What follows a terminator is read on its own. -/
theorem lines_append_cons (xs ys : List α) :
    lines nl (xs ++ nl :: ys) = lines nl (xs ++ [nl]) ++ lines nl ys := by
  induction xs with
  | nil => simp [lines_cons_self]
  | cons c cs ih =>
    by_cases hc : c = nl
    · subst hc
      simp only [List.cons_append, lines_cons_self, ih]
    · have hne : lines nl (cs ++ [nl]) ≠ [] := by
        cases cs with
        | nil => exact lines_cons_ne_nil _ _
        | cons d ds => exact lines_cons_ne_nil _ _
      obtain ⟨l, ls, hl⟩ := List.exists_cons_of_ne_nil hne
      rw [hl] at ih
      rw [List.cons_append, lines_cons_of_cons hc ih, List.cons_append, lines_cons_of_cons hc hl]
      rfl

/-- A line is one text without a terminator inside. -/
theorem lines_concat_of_notMem (hxs : nl ∉ xs) : lines nl (xs ++ [nl]) = [xs ++ [nl]] := by
  induction xs with
  | nil => exact lines_cons_self
  | cons c cs ih =>
    have hc : c ≠ nl := fun h => hxs (h ▸ List.mem_cons_self)
    exact lines_cons_of_cons hc (ih fun h => hxs (List.mem_cons_of_mem _ h))

/-- Closing an unfinished line changes this line only. -/
theorem lines_close (hxs : xs ≠ []) (hlast : xs.getLast? ≠ some nl) :
    ∃ init last, lines nl xs = init ++ [last] ∧ lines nl (xs ++ [nl]) = init ++ [last ++ [nl]] := by
  induction xs with
  | nil => exact absurd rfl hxs
  | cons c cs ih =>
    cases cs with
    | nil =>
      have hc : c ≠ nl := by simpa using hlast
      refine ⟨[], [c], lines_cons_of_nil hc rfl, ?_⟩
      exact lines_cons_of_cons hc lines_cons_self
    | cons d ds =>
      obtain ⟨init, last, hl, hl'⟩ := ih (List.cons_ne_nil _ _) (by simpa using hlast)
      by_cases hc : c = nl
      · subst hc
        exact ⟨[c] :: init, last, by rw [lines_cons_self, hl]; rfl,
          by rw [List.cons_append, lines_cons_self, hl']; rfl⟩
      · cases init with
        | nil =>
          exact ⟨[], c :: last, lines_cons_of_cons hc hl, lines_cons_of_cons hc hl'⟩
        | cons l ls =>
          exact ⟨(c :: l) :: ls, last, lines_cons_of_cons hc hl, lines_cons_of_cons hc hl'⟩

/-- What is appended to a text without a separator goes to its last field. -/
theorem splitOn_concat (xs : List α) (hc : c ≠ sep) :
    ∃ init last, xs.splitOn sep = init ++ [last] ∧
      (xs ++ [c]).splitOn sep = init ++ [last ++ [c]] := by
  induction xs with
  | nil => exact ⟨[], [], by simp, by simp [List.splitOn_cons_eq_if_modifyHead, hc]⟩
  | cons d ds ih =>
    obtain ⟨init, last, hl, hl'⟩ := ih
    by_cases hd : d = sep
    · refine ⟨[] :: init, last, ?_, ?_⟩
      · simp [List.splitOn_cons_eq_if_modifyHead, hd, hl]
      · simp [List.splitOn_cons_eq_if_modifyHead, hd, hl']
    · cases init with
      | nil =>
        refine ⟨[], d :: last, ?_, ?_⟩
        · simp [List.splitOn_cons_eq_if_modifyHead, hd, hl]
        · simp [List.splitOn_cons_eq_if_modifyHead, hd, hl']
      | cons l ls =>
        refine ⟨(d :: l) :: ls, last, ?_, ?_⟩
        · simp [List.splitOn_cons_eq_if_modifyHead, hd, hl]
        · simp [List.splitOn_cons_eq_if_modifyHead, hd, hl']

end Edgessh.Lines
