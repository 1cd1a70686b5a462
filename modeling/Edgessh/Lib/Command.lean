import Mathlib.Logic.Relation

/-!
# Commands that may fail

A command is a computation in `EStateM`: it changes a state and returns a value or throws, and a
command that throws keeps the changes it has made. `wp m Q E s` says that `m`, started in `s`,
ends in a value and a state that meet `Q`, or in an exception and a state that meet `E`; the
rules below compute it along the structure of the command. `Steps R m` says that `m` moves the
state along the relation `R`, whichever way it ends.
-/

namespace Edgessh.Command

universe u

variable {ε σ α β : Type u}

section Except

/-- `x` is a value that meets `Q` or an exception that meets `E`. -/
def wpExcept (x : Except ε α) (Q : α → Prop) (E : ε → Prop) : Prop :=
  match x with
  | .ok a => Q a
  | .error e => E e

variable {Q : α → Prop} {E : ε → Prop}

@[simp] theorem wpExcept_pure (a : α) : wpExcept (pure a : Except ε α) Q E = Q a := rfl

@[simp] theorem wpExcept_ok (a : α) : wpExcept (.ok a : Except ε α) Q E = Q a := rfl

@[simp] theorem wpExcept_throw (e : ε) : wpExcept (throw e : Except ε α) Q E = E e := rfl

@[simp] theorem wpExcept_error (e : ε) : wpExcept (.error e : Except ε α) Q E = E e := rfl

@[simp] theorem wpExcept_bind (x : Except ε α) (f : α → Except ε β) (Q : β → Prop) :
    wpExcept (x >>= f) Q E = wpExcept x (fun a => wpExcept (f a) Q E) E := by
  cases x <;> rfl

@[simp] theorem wpExcept_map (x : Except ε α) (f : α → β) (Q : β → Prop) :
    wpExcept (f <$> x) Q E = wpExcept x (fun a => Q (f a)) E := by
  cases x <;> rfl

@[simp] theorem wpExcept_mapError {ε' : Type u} (g : ε → ε') (x : Except ε α) (E : ε' → Prop) :
    wpExcept (x.mapError g) Q E = wpExcept x Q fun e => E (g e) := by
  cases x <;> rfl

theorem wpExcept_ite (c : Prop) [Decidable c] (x y : Except ε α) :
    wpExcept (if c then x else y) Q E ↔ (c → wpExcept x Q E) ∧ (¬c → wpExcept y Q E) := by
  split <;> simp_all

theorem wpExcept_mono {x : Except ε α} {Q' : α → Prop} {E' : ε → Prop} (h : wpExcept x Q E)
    (hQ : ∀ a, Q a → Q' a) (hE : ∀ e, E e → E' e) : wpExcept x Q' E' := by
  cases x with
  | ok a => exact hQ a h
  | error e => exact hE e h

/-- The value, with the fact that it is the one. -/
def attach : (x : Except ε α) → Except ε {a : α // x = .ok a}
  | .ok a => .ok ⟨a, rfl⟩
  | .error e => .error e

theorem wpExcept_attach {x : Except ε α} {Q : {a : α // x = .ok a} → Prop} :
    wpExcept (attach x) Q E ↔ (∀ a h, Q ⟨a, h⟩) ∧ ∀ e, x = .error e → E e := by
  cases x with
  | ok a => exact ⟨fun h => ⟨fun _ h' => by cases h'; exact h, by simp⟩, fun h => h.1 a rfl⟩
  | error e => exact ⟨fun h => ⟨by simp, fun _ h' => by cases h'; exact h⟩, fun h => h.2 e rfl⟩

/-- Facts about the value and about the exception that hold in any case may be used. -/
theorem wpExcept_iff {x : Except ε α} :
    wpExcept x Q E ↔ (∀ a, x = .ok a → Q a) ∧ ∀ e, x = .error e → E e := by
  cases x <;> simp

theorem bind_eq_ok {x : Except ε α} {f : α → Except ε β} {b : β} :
    x >>= f = .ok b ↔ ∃ a, x = .ok a ∧ f a = .ok b := by
  cases x <;> simp [bind, Except.bind]

theorem mapError_eq_ok {ε' : Type u} {g : ε → ε'} {x : Except ε α} {a : α} :
    x.mapError g = .ok a ↔ x = .ok a := by
  cases x with
  | error e =>
    show (Except.error (g e) : Except ε' α) = .ok a ↔ _
    simp
  | ok b =>
    show (Except.ok b : Except ε' α) = .ok a ↔ _
    simp

theorem pure_eq_ok {a b : α} : (pure a : Except ε α) = .ok b ↔ a = b := by
  simp [pure, Except.pure]

end Except

/-- `m`, started in `s`, ends in `Q` or throws in `E`. -/
def wp (m : EStateM ε σ α) (Q : α → σ → Prop) (E : ε → σ → Prop) (s : σ) : Prop :=
  match m s with
  | .ok a t => Q a t
  | .error e t => E e t

section Rules

variable {Q : α → σ → Prop} {E : ε → σ → Prop} {s : σ}

@[simp] theorem wp_pure (a : α) : wp (pure a : EStateM ε σ α) Q E s = Q a s := rfl

@[simp] theorem wp_throw (e : ε) : wp (throw e : EStateM ε σ α) Q E s = E e s := rfl

@[simp] theorem wp_bind (m : EStateM ε σ α) (f : α → EStateM ε σ β) (Q : β → σ → Prop) :
    wp (m >>= f) Q E s = wp m (fun a => wp (f a) Q E) E s := by
  simp only [wp, bind, EStateM.bind]
  cases m s <;> rfl

@[simp] theorem wp_map (m : EStateM ε σ α) (f : α → β) (Q : β → σ → Prop) :
    wp (f <$> m) Q E s = wp m (fun a => Q (f a)) E s := by
  simp only [wp, Functor.map, EStateM.map]
  cases m s <;> rfl

@[simp] theorem wp_get {Q : σ → σ → Prop} : wp (get : EStateM ε σ σ) Q E s = Q s s := rfl

@[simp] theorem wp_set {Q : PUnit → σ → Prop} (t : σ) :
    wp (set t : EStateM ε σ PUnit) Q E s = Q ⟨⟩ t := rfl

@[simp] theorem wp_modify {Q : PUnit → σ → Prop} (f : σ → σ) :
    wp (modify f : EStateM ε σ PUnit) Q E s = Q ⟨⟩ (f s) := rfl

/-- A command that does not touch the state. -/
@[simp] theorem wp_ofExcept (x : Except ε α) :
    wp (ofExcept x : EStateM ε σ α) Q E s = wpExcept x (fun a => Q a s) fun e => E e s := by
  cases x <;> rfl

theorem wp_ite (c : Prop) [Decidable c] (m n : EStateM ε σ α) :
    wp (if c then m else n) Q E s ↔ (c → wp m Q E s) ∧ (¬c → wp n Q E s) := by
  split <;> simp_all

theorem wp_mono {m : EStateM ε σ α} {Q' : α → σ → Prop} {E' : ε → σ → Prop} (h : wp m Q E s)
    (hQ : ∀ a t, Q a t → Q' a t) (hE : ∀ e t, E e t → E' e t) : wp m Q' E' s := by
  unfold wp at h ⊢
  split
  · rename_i a t hm
    rw [hm] at h
    exact hQ a t h
  · rename_i e t hm
    rw [hm] at h
    exact hE e t h

/-- What the first command establishes is what the rest starts from. -/
theorem wp_seq {m : EStateM ε σ α} {f : α → EStateM ε σ β} {Q' : β → σ → Prop} (h : wp m Q E s)
    (hf : ∀ a t, Q a t → wp (f a) Q' E t) : wp (m >>= f) Q' E s := by
  rw [wp_bind]
  exact wp_mono h hf fun _ _ he => he

theorem wp_of_ok {m : EStateM ε σ α} {a : α} {t : σ} (h : m s = .ok a t) :
    wp m Q E s = Q a t := by
  rw [wp, h]

theorem wp_and {m : EStateM ε σ α} {Q' : α → σ → Prop} {E' : ε → σ → Prop} (h : wp m Q E s)
    (h' : wp m Q' E' s) : wp m (fun a t => Q a t ∧ Q' a t) (fun e t => E e t ∧ E' e t) s := by
  unfold wp at h h' ⊢
  split <;> simp_all

/-- A command ends in some state. -/
theorem exists_of_wp {m : EStateM ε σ α} {I : σ → Prop}
    (h : wp m (fun _ t => I t) (fun _ t => I t) s) : ∃ t, I t := by
  rw [wp] at h
  split at h
  · exact ⟨_, h⟩
  · exact ⟨_, h⟩

/-- A command that cannot fail. -/
theorem exists_ok_of_wp {m : EStateM ε σ α} (h : wp m Q (fun _ _ => False) s) :
    ∃ a t, m s = .ok a t ∧ Q a t := by
  rw [wp] at h
  split at h
  · rename_i a t hm
    exact ⟨a, t, hm, h⟩
  · exact absurd h id

theorem wp_trivial {m : EStateM ε σ α} : wp m (fun _ _ => True) (fun _ _ => True) s := by
  unfold wp
  split <;> trivial

/-- What a command may do to the part of the state that `view` picks out and `put` puts back. -/
def zoom {τ : Type u} (view : τ → σ) (put : σ → τ → τ) (m : EStateM ε σ α) : EStateM ε τ α :=
  fun t =>
    match m (view t) with
    | .ok a s => .ok a (put s t)
    | .error e s => .error e (put s t)

@[simp] theorem wp_zoom {τ : Type u} (view : τ → σ) (put : σ → τ → τ) (m : EStateM ε σ α)
    (Q : α → τ → Prop) (E : ε → τ → Prop) (t : τ) :
    wp (zoom view put m) Q E t =
      wp m (fun a s => Q a (put s t)) (fun e s => E e (put s t)) (view t) := by
  simp only [wp, zoom]
  cases m (view t) <;> rfl

end Rules

section Inversion

variable {s t : σ}

theorem bind_eq_ok' {m : EStateM ε σ α} {f : α → EStateM ε σ β} {b : β} :
    (m >>= f) s = .ok b t ↔ ∃ a u, m s = .ok a u ∧ f a u = .ok b t := by
  simp only [bind, EStateM.bind]
  cases m s with
  | error e u => simp
  | ok a u =>
    refine ⟨fun h => ⟨a, u, rfl, h⟩, ?_⟩
    rintro ⟨a, u, ⟨rfl, rfl⟩, h⟩
    exact h

theorem ofExcept_eq_ok {x : Except ε α} {a : α} :
    (ofExcept x : EStateM ε σ α) s = .ok a t ↔ x = .ok a ∧ t = s := by
  cases x with
  | error e =>
    constructor
    · intro h
      cases h
    · rintro ⟨h, -⟩
      cases h
  | ok b =>
    constructor
    · intro h
      cases h
      exact ⟨rfl, rfl⟩
    · rintro ⟨h, rfl⟩
      cases h
      rfl

theorem pure_eq_ok' {a b : α} : (pure a : EStateM ε σ α) s = .ok b t ↔ a = b ∧ t = s := by
  simp [pure, EStateM.pure, eq_comm]

theorem throw_ne_ok {e : ε} {a : α} : (throw e : EStateM ε σ α) s ≠ .ok a t := by
  intro h
  cases h

theorem throw_bind_ne_ok {e : ε} {f : α → EStateM ε σ β} {b : β} :
    (throw e >>= f : EStateM ε σ β) s ≠ .ok b t := by
  intro h
  cases h

end Inversion

section Steps

variable {R : σ → σ → Prop}

/-- `m` moves the state along `R`, whichever way it ends. -/
def Steps (R : σ → σ → Prop) (m : EStateM ε σ α) : Prop :=
  ∀ s, wp m (fun _ t => R s t) (fun _ t => R s t) s

theorem Steps.of_ok {m : EStateM ε σ α} {s t : σ} {a : α} (h : Steps R m) (hm : m s = .ok a t) :
    R s t := by
  simpa [wp, hm] using h s

theorem Steps.of_error {m : EStateM ε σ α} {s t : σ} {e : ε} (h : Steps R m)
    (hm : m s = .error e t) : R s t := by
  simpa [wp, hm] using h s

theorem steps_pure (hr : ∀ s, R s s) (a : α) : Steps R (pure a : EStateM ε σ α) := hr

theorem steps_throw (hr : ∀ s, R s s) (e : ε) : Steps R (throw e : EStateM ε σ α) := hr

theorem steps_bind (ht : ∀ s t u, R s t → R t u → R s u) {m : EStateM ε σ α}
    {f : α → EStateM ε σ β} (hm : Steps R m) (hf : ∀ a, Steps R (f a)) : Steps R (m >>= f) := by
  intro s
  rw [wp_bind]
  refine wp_mono (hm s) (fun a t hst => ?_) fun _ _ hst => hst
  exact wp_mono (hf a t) (fun _ u => ht s t u hst) fun _ u => ht s t u hst

theorem tryCatch_apply (m : EStateM ε σ α) (f : ε → EStateM ε σ α) (s : σ) :
    (tryCatch m f) s = match m s with
      | .ok a t => .ok a t
      | .error e t => f e t := by
  show EStateM.tryCatch m f s = _
  delta EStateM.tryCatch
  cases m s <;> rfl

theorem steps_tryCatch (ht : ∀ s t u, R s t → R t u → R s u) {m : EStateM ε σ α}
    {f : ε → EStateM ε σ α} (hm : Steps R m) (hf : ∀ e, Steps R (f e)) :
    Steps R (tryCatch m f) := by
  intro s
  have h := hm s
  simp only [wp] at h ⊢
  rw [tryCatch_apply]
  cases hms : m s with
  | ok a t =>
    rw [hms] at h
    exact h
  | error e t =>
    rw [hms] at h
    exact wp_mono (hf e t) (fun _ u => ht s t u h) fun _ u => ht s t u h

end Steps

end Edgessh.Command
