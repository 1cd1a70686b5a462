import Mathlib.Data.List.Infix
import Edgessh.Lib.Run

/-!
# Queues that are polled

A receiver takes the items of a queue in the order in which they were sent; polling it never
waits. `Ordered` says of a step function that its steps keep the order of what they move from
the input to the output, and `Ordered.run` that its runs do.
-/

namespace Edgessh.Queue
open Run

/-- The answer of a poll. -/
inductive Poll (α : Type*) where
  | ready (a : α)
  | pending
  deriving DecidableEq, Repr

/-- The items in a queue; nothing can be sent any more when it is closed. -/
structure Receiver (α : Type*) where
  items : List α := []
  closed : Bool := false
  deriving DecidableEq, Repr

namespace Receiver

variable {α : Type*}

def send (a : α) (rx : Receiver α) : Receiver α := { rx with items := rx.items ++ [a] }

def close (rx : Receiver α) : Receiver α := { rx with closed := true }

/-- The next item, or none if the queue is closed and empty. -/
def pollRecv (rx : Receiver α) : Poll (Option α) × Receiver α :=
  match rx.items with
  | a :: items => (.ready (some a), { rx with items })
  | [] => (if rx.closed then .ready none else .pending, rx)

end Receiver

section Ordered

variable {S L α : Type*} {step : S → L → Option S}

variable (step) in
/-- What `f` gives at the steps of a run, one after the other. -/
def trace (f : S → L → List α) : S → List L → List α
  | _, [] => []
  | s, l :: ls => f s l ++ ((step s l).elim [] fun t => trace f t ls)

variable (step) in
/-- Every step keeps the order: what goes out, before what is held after it, is what was held,
before what comes in. -/
def Ordered (held : S → List α) (input output : S → L → List α) : Prop :=
  ∀ s l t, step s l = some t → held s ++ input s l = output s l ++ held t

theorem Ordered.run {held : S → List α} {input output : S → L → List α}
    (h : Ordered step held input output) {ls : List L} {s t : S} (hr : run step s ls = some t) :
    held s ++ trace step input s ls = trace step output s ls ++ held t := by
  induction ls generalizing s with
  | nil =>
    obtain rfl : s = t := by simpa using hr
    simp [trace]
  | cons l ls ih =>
    obtain ⟨u, hu, hr⟩ := run_cons_eq_some.mp hr
    have hstep := h s l u hu
    have hrest := ih hr
    simp only [trace, hu, Option.elim_some]
    rw [← List.append_assoc, hstep, List.append_assoc, hrest, List.append_assoc]

end Ordered

end Edgessh.Queue
