import Mathlib.Data.List.Basic

/-!
# Lives of a resource

What happens to a resource that is opened and closed again and again, as a list of these two
letters. A resource may also be dropped without a letter. `Follows` relates whether it is alive
before and after; a list that follows from anything has an opening between any two closings.
-/

namespace Edgessh

inductive Lifecycle where
  | opened
  | closed
  deriving DecidableEq, Repr

namespace Lifecycle

/-- The letters lead from `alive` to `alive'`: what is closed was alive, what is alive at the
end has been opened or was never closed. -/
def Follows (alive : Bool) : List Lifecycle → Bool → Prop
  | [], alive' => alive' = true → alive = true
  | .opened :: ls, alive' => Follows true ls alive'
  | .closed :: ls, alive' => alive = true ∧ Follows false ls alive'

@[simp] theorem follows_nil {a b : Bool} : Follows a [] b ↔ (b = true → a = true) := Iff.rfl

@[simp] theorem follows_opened {a b : Bool} {ls : List Lifecycle} :
    Follows a (.opened :: ls) b ↔ Follows true ls b := Iff.rfl

@[simp] theorem follows_closed {a b : Bool} {ls : List Lifecycle} :
    Follows a (.closed :: ls) b ↔ a = true ∧ Follows false ls b := Iff.rfl

theorem follows_refl (a : Bool) : Follows a [] a := id

/-- What follows from a dead resource follows from any. -/
theorem Follows.mono {a a' b : Bool} {ls : List Lifecycle} (h : Follows a ls b)
    (ha : a = true → a' = true) : Follows a' ls b := by
  cases ls with
  | nil => exact fun hb => ha (h hb)
  | cons l ls =>
    cases l with
    | opened => exact h
    | closed => exact ⟨ha h.1, h.2⟩

theorem Follows.append {a b c : Bool} {ls ls' : List Lifecycle} (h : Follows a ls b)
    (h' : Follows b ls' c) : Follows a (ls ++ ls') c := by
  induction ls generalizing a with
  | nil => exact h'.mono h
  | cons l ls ih =>
    cases l with
    | opened => exact ih h
    | closed => exact ⟨h.1, ih h.2⟩

end Lifecycle

end Edgessh
