import Mathlib.Data.List.Basic

/-!
# Simulation of runs with outputs

A step function takes a state and a label to an output and the next state, or fails. Two systems
match on a label where they fail alike, or give the same output and related states; systems that
match on every label that may be taken match on whole runs.
-/

namespace Edgessh.Simulation

variable {S T L O ε : Type*}

/-- The outputs of a run and the state after it, up to the first failure. -/
def runOutputs (step : S → L → Except ε (O × S)) : S → List L → Except ε (List O × S)
  | s, [] => .ok ([], s)
  | s, l :: ls =>
    match step s l with
    | .error e => .error e
    | .ok (o, t) =>
      match runOutputs step t ls with
      | .error e => .error e
      | .ok (os, u) => .ok (o :: os, u)

/-- `P` holds of the state and the label at every step of the run. -/
def Along (step : T → L → Except ε (O × T)) (P : T → L → Prop) : T → List L → Prop
  | _, [] => True
  | t, l :: ls => P t l ∧ ∀ o u, step t l = .ok (o, u) → Along step P u ls

/-- The same failure, or the same output and related states. -/
def Matches (R : S → T → Prop) : Except ε (O × S) → Except ε (O × T) → Prop
  | .ok (o, s), .ok (o', t) => o = o' ∧ R s t
  | .error e, .error e' => e = e'
  | _, _ => False

variable {R : S → T → Prop}

theorem Matches.ok {x : Except ε (O × S)} {o : O} {t : T} (h : Matches R x (.ok (o, t))) :
    ∃ s, x = .ok (o, s) ∧ R s t := by
  cases x with
  | error e => cases h
  | ok p =>
    obtain ⟨o', s⟩ := p
    obtain ⟨rfl, hR⟩ := h
    exact ⟨s, rfl, hR⟩

theorem Matches.error {x : Except ε (O × S)} {e : ε}
    (h : Matches R x (.error e : Except ε (O × T))) : x = .error e := by
  cases x with
  | error e' => exact congrArg Except.error h
  | ok p => cases h

theorem Matches.mono {R' : S → T → Prop} {x : Except ε (O × S)} {y : Except ε (O × T)}
    (h : Matches R x y) (hR : ∀ s t, R s t → R' s t) : Matches R' x y := by
  cases y with
  | error e => rw [h.error]; exact rfl
  | ok q =>
    obtain ⟨o, t⟩ := q
    obtain ⟨s, rfl, hs⟩ := h.ok
    exact ⟨rfl, hR s t hs⟩

/-- Related states stay related along a run. -/
theorem run_matches {step : S → L → Except ε (O × S)} {ref : T → L → Except ε (O × T)}
    {P : T → L → Prop}
    (hstep : ∀ s t l, R s t → P t l → Matches R (step s l) (ref t l)) {s : S} {t : T}
    (hR : R s t) {ls : List L} (hP : Along ref P t ls) :
    Matches R (runOutputs step s ls) (runOutputs ref t ls) := by
  induction ls generalizing s t with
  | nil => exact ⟨rfl, hR⟩
  | cons l ls ih =>
    obtain ⟨hl, hrest⟩ := hP
    have hmatch := hstep s t l hR hl
    rw [runOutputs, runOutputs]
    cases href : ref t l with
    | error e =>
      rw [href] at hmatch
      rw [hmatch.error]
      exact rfl
    | ok p =>
      obtain ⟨o, u⟩ := p
      rw [href] at hmatch
      obtain ⟨v, hv, hR'⟩ := hmatch.ok
      rw [hv]
      have htail := ih hR' (hrest o u href)
      show Matches R
        (match runOutputs step v ls with
          | .error e => .error e
          | .ok (os, u) => .ok (o :: os, u))
        (match runOutputs ref u ls with
          | .error e => .error e
          | .ok (os, u) => .ok (o :: os, u))
      cases hrun : runOutputs ref u ls with
      | error e =>
        rw [hrun] at htail
        rw [htail.error]
        exact rfl
      | ok q =>
        obtain ⟨os, z⟩ := q
        rw [hrun] at htail
        obtain ⟨y, hy, hyz⟩ := htail.ok
        rw [hy]
        exact ⟨rfl, hyz⟩

end Edgessh.Simulation
