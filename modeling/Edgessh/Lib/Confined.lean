import Edgessh.Lib.Command

/-!
# Confined commands

A command that can only take certain steps. `r` says what one step may do to the state, and a
`Confined r` command carries the proof that it moves the state by any number of these steps,
whether it returns or throws. The operations of the monad keep the proof, so that a program
written with primitive steps alone is confined by its type, and an invariant of `r` is an
invariant of every such program.
-/

namespace Edgessh.Command
open Relation

universe u

variable {ε σ α β : Type u} {r : σ → σ → Prop}

/-- A command that moves the state along `r`. -/
structure Confined (r : σ → σ → Prop) (ε α : Type u) where
  run : EStateM ε σ α
  steps : Steps (ReflTransGen r) run

namespace Confined

instance : Monad (Confined r ε) where
  pure a := ⟨pure a, steps_pure (fun _ => .refl) a⟩
  bind m f := ⟨m.run >>= fun a => (f a).run,
    steps_bind (fun _ _ _ => .trans) m.steps fun a => (f a).steps⟩

instance : MonadExceptOf ε (Confined r ε) where
  throw e := ⟨throw e, steps_throw (fun _ => .refl) e⟩
  tryCatch m f := ⟨tryCatch m.run fun e => (f e).run,
    steps_tryCatch (fun _ _ _ => .trans) m.steps fun e => (f e).steps⟩

/-- The state. -/
def read : Confined r ε σ := ⟨get, fun _ => .refl⟩

/-- A computation that does not touch the state. -/
def lift (x : Except ε α) : Confined r ε α :=
  ⟨ofExcept x, fun s => by
    rw [wp_ofExcept]
    exact wpExcept_iff.mpr ⟨fun _ _ => .refl, fun _ _ => .refl⟩⟩

/-- One step. -/
def move (f : σ → σ) (h : ∀ s, r s (f s)) : Confined r ε PUnit :=
  ⟨modify f, fun s => .single (h s)⟩

/-- Some steps. -/
def moves (f : σ → σ) (h : ∀ s, ReflTransGen r s (f s)) : Confined r ε PUnit :=
  ⟨modify f, fun s => h s⟩

/-- Some steps that may fail, and change nothing then. -/
def tryMoves (f : σ → Except ε (α × σ)) (h : ∀ s a t, f s = .ok (a, t) → ReflTransGen r s t) :
    Confined r ε α :=
  ⟨fun s =>
    match f s with
    | .ok (a, t) => .ok a t
    | .error e => .error e s,
  fun s => by
    simp only [wp]
    cases hf : f s with
    | error e => exact ReflTransGen.refl
    | ok p => exact h s p.1 p.2 hf⟩

/-- One step that may fail, and changes nothing then. -/
def tryMove (f : σ → Except ε (α × σ)) (h : ∀ s a t, f s = .ok (a, t) → r s t) :
    Confined r ε α :=
  tryMoves f fun s a t hf => .single (h s a t hf)

/-- The command, where more steps may be taken. -/
def weaken {r' : σ → σ → Prop} (h : ∀ s t, r s t → r' s t) (m : Confined r ε α) :
    Confined r' ε α :=
  ⟨m.run, fun s =>
    wp_mono (m.steps s) (fun _ t => ReflTransGen.mono h s t) fun _ t => ReflTransGen.mono h s t⟩

section Run

@[simp] theorem run_bind (m : Confined r ε α) (f : α → Confined r ε β) :
    (m >>= f).run = m.run >>= fun a => (f a).run := rfl

@[simp] theorem run_pure (a : α) : (pure a : Confined r ε α).run = pure a := rfl

@[simp] theorem run_throw (e : ε) : (throw e : Confined r ε α).run = throw e := rfl

@[simp] theorem run_read : (read : Confined r ε σ).run = get := rfl

@[simp] theorem run_lift (x : Except ε α) : (lift x : Confined r ε α).run = ofExcept x := rfl

@[simp] theorem run_move (f : σ → σ) (h : ∀ s, r s (f s)) :
    (move f h : Confined r ε PUnit).run = modify f := rfl

theorem run_bind_of_ok {m : Confined r ε α} {f : α → Confined r ε β} {a : α} {s t : σ}
    (h : m.run s = .ok a t) : (m >>= f).run s = (f a).run t := by
  show (m.run >>= fun a => (f a).run) s = _
  simp only [bind, EStateM.bind, h]

theorem wp_run_bind (m : Confined r ε α) (f : α → Confined r ε β) {Q : β → σ → Prop}
    {E : ε → σ → Prop} {s : σ} :
    wp (m >>= f).run Q E s = wp m.run (fun a => wp (f a).run Q E) E s := by
  rw [run_bind, wp_bind]

theorem wp_seq {m : Confined r ε α} {f : α → Confined r ε β} {Q : α → σ → Prop}
    {Q' : β → σ → Prop} {E : ε → σ → Prop} {s : σ} (h : wp m.run Q E s)
    (hf : ∀ a t, Q a t → wp (f a).run Q' E t) : wp (m >>= f).run Q' E s := by
  rw [wp_run_bind]
  exact wp_mono h hf fun _ _ he => he

theorem wp_run_discard (m : Confined r ε α) {Q : PUnit → σ → Prop} {E : ε → σ → Prop} {s : σ} :
    wp (discard m).run Q E s = wp m.run (fun _ => Q ⟨⟩) E s := by
  show wp (m >>= fun _ => pure PUnit.unit).run Q E s = _
  rw [wp_run_bind]
  rfl

end Run

/-- What every step preserves holds after the command, whichever way it ends. -/
theorem wp_invariant {I : σ → Prop} (hI : ∀ s t, r s t → I s → I t) (m : Confined r ε α) {s : σ}
    (hs : I s) : wp m.run (fun _ t => I t) (fun _ t => I t) s := by
  have hgen : ∀ t, ReflTransGen r s t → I t := by
    intro t h
    induction h with
    | refl => exact hs
    | tail _ hstep ih => exact hI _ _ hstep ih
  exact wp_mono (m.steps s) (fun _ t => hgen t) fun _ t => hgen t

/-- One step, from a state of which more is known. -/
theorem wp_move {f : σ → σ} {h : ∀ s, r s (f s)} {I : σ → Prop} {s : σ}
    (hI : ∀ t, r s t → I t) :
    wp (move f h : Confined r ε PUnit).run (fun _ t => I t) (fun _ t => I t) s :=
  hI _ (h s)

theorem wp_tryMove {f : σ → Except ε (α × σ)} {h : ∀ s a t, f s = .ok (a, t) → r s t}
    {I : σ → Prop} {s : σ} (hs : I s) (hI : ∀ t, r s t → I t) :
    wp (tryMove f h).run (fun _ t => I t) (fun _ t => I t) s := by
  simp only [tryMove, tryMoves, wp]
  cases hf : f s with
  | error e => exact hs
  | ok p => exact hI p.2 (h s p.1 p.2 hf)

end Confined

end Edgessh.Command
