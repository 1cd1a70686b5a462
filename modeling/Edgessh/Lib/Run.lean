import Edgessh.Lib.Trace
import Mathlib.Logic.Relation

/-!
# Runs of a partial step function

A step function `step : S → L → Option S` takes a state and a label and is undefined where
the label is not enabled. A run feeds it a list of labels. `Along` says that a condition on
the state and the label holds at every step of a run; `run_invariant` is the induction that
every safety result over runs uses.
-/

namespace Edgessh.Run

variable {S L : Type*} (step : S → L → Option S)

/-- The state after the labels `ls`, if every one of them is enabled when it is taken. -/
def run (s : S) (ls : List L) : Option S := ls.foldlM step s

/-- `P` holds of the state and the label at every step taken along `ls`. -/
def Along (P : S → L → Prop) : S → List L → Prop
  | _, [] => True
  | s, l :: ls => P s l ∧ ∀ t, step s l = some t → Along P t ls

/-- `s` is reached from `s₀` by some run. -/
def Reaches (s₀ s : S) : Prop := ∃ ls, run step s₀ ls = some s

variable {step}

@[simp] theorem run_nil (s : S) : run step s [] = some s := rfl

theorem run_cons (s : S) (l : L) (ls : List L) :
    run step s (l :: ls) = (step s l).bind fun t => run step t ls := rfl

theorem run_cons_eq_some {s t : S} {l : L} {ls : List L} :
    run step s (l :: ls) = some t ↔ ∃ u, step s l = some u ∧ run step u ls = some t := by
  rw [run_cons]
  exact Option.bind_eq_some_iff

instance Along.decidable {P : S → L → Prop} [∀ s l, Decidable (P s l)] :
    (ls : List L) → (s : S) → Decidable (Along step P s ls)
  | [], _ => isTrue trivial
  | l :: ls, s =>
    match h : step s l with
    | none => decidable_of_iff (P s l) (by simp [Along, h])
    | some t =>
      have : Decidable (Along step P t ls) := Along.decidable ls t
      decidable_of_iff (P s l ∧ Along step P t ls) (by simp [Along, h])

/-- An invariant that every step meeting `P` preserves holds after every run that meets `P`. -/
theorem run_invariant {P : S → L → Prop} {I : S → Prop}
    (hstep : ∀ s l t, I s → P s l → step s l = some t → I t) :
    ∀ (ls : List L) (s t : S), I s → Along step P s ls → run step s ls = some t → I t := by
  intro ls
  induction ls with
  | nil =>
    intro s t hs _ hr
    obtain rfl : s = t := by simpa using hr
    exact hs
  | cons l ls ih =>
    intro s t hs hal hr
    obtain ⟨u, hu, hr⟩ := run_cons_eq_some.mp hr
    exact ih u t (hstep s l u hs hal.1 hu) (hal.2 u hu) hr

/-- An invariant that speaks of the labels taken so far as well, and steps whose labels meet `Φ`
with those before them. -/
theorem run_invariant_traced {Φ : List L → L → Prop} {I : List L → S → Prop}
    (hstep : ∀ pre s l t, I pre s → Φ pre l → step s l = some t → I (pre ++ [l]) t)
    {ls pre : List L} {s t : S} (hs : I pre s) (hΦ : tracedAfter Φ pre ls)
    (hr : run step s ls = some t) : I (pre ++ ls) t := by
  induction ls generalizing pre s with
  | nil =>
    obtain rfl : s = t := by simpa using hr
    rwa [List.append_nil]
  | cons l ls ih =>
    obtain ⟨u, hu, hr⟩ := run_cons_eq_some.mp hr
    have hrest := ih (hstep pre s l u hs hΦ.1 hu) hΦ.2 hr
    rwa [List.append_assoc] at hrest

theorem Along.cons {P : S → L → Prop} {s t : S} {l : L} {ls : List L} (hp : P s l)
    (hs : step s l = some t) (hal : Along step P t ls) : Along step P s (l :: ls) := by
  refine ⟨hp, fun u hu => ?_⟩
  rw [← Option.some.inj (hs.symm.trans hu)]
  exact hal

/-- What follows from an invariant and `P` at one step holds along every run that meets `P`. -/
theorem Along.of_invariant {P Q : S → L → Prop} {I : S → Prop}
    (hstep : ∀ s l t, I s → P s l → step s l = some t → I t) (hQ : ∀ s l, I s → P s l → Q s l)
    {ls : List L} {s : S} (hs : I s) (hal : Along step P s ls) : Along step Q s ls := by
  induction ls generalizing s with
  | nil => trivial
  | cons l ls ih =>
    refine ⟨hQ s l hs hal.1, ?_⟩
    intro t ht
    exact ih (hstep s l t hs hal.1 ht) (hal.2 t ht)

/-- Two conditions that agree where an invariant holds agree along a run that keeps it. -/
theorem along_iff_of_invariant {P Q : S → L → Prop} {I : S → Prop}
    (hstep : ∀ s l t, I s → Q s l → step s l = some t → I t)
    (hiff : ∀ s l, I s → (P s l ↔ Q s l)) {ls : List L} {s : S} (hs : I s) :
    Along step P s ls ↔ Along step Q s ls := by
  induction ls generalizing s with
  | nil => exact Iff.rfl
  | cons l ls ih =>
    constructor
    · rintro ⟨hp, hrest⟩
      have hq := (hiff s l hs).mp hp
      exact ⟨hq, fun t ht => (ih (hstep s l t hs hq ht)).mp (hrest t ht)⟩
    · rintro ⟨hq, hrest⟩
      exact ⟨(hiff s l hs).mpr hq, fun t ht => (ih (hstep s l t hs hq ht)).mpr (hrest t ht)⟩

theorem Along.mono {P Q : S → L → Prop} (h : ∀ s l, P s l → Q s l) :
    ∀ {ls : List L} {s : S}, Along step P s ls → Along step Q s ls
  | [], _, _ => trivial
  | _ :: _, _, hal => ⟨h _ _ hal.1, fun t ht => (hal.2 t ht).mono h⟩

/-- A condition on the labels of a run alone. -/
theorem Along.and_labels {P : S → L → Prop} {Q : L → Prop} :
    ∀ {ls : List L} {s : S}, Along step P s ls → (∀ l ∈ ls, Q l) →
      Along step (fun s l => P s l ∧ Q l) s ls
  | [], _, _, _ => trivial
  | l :: _, _, hal, hq => by
    refine ⟨⟨hal.1, hq l List.mem_cons_self⟩, ?_⟩
    intro t ht
    exact (hal.2 t ht).and_labels fun l' hl' => hq l' (List.mem_cons_of_mem l hl')

theorem along_true (ls : List L) (s : S) : Along step (fun _ _ => True) s ls := by
  induction ls generalizing s with
  | nil => trivial
  | cons l ls ih => exact ⟨trivial, fun t _ => ih t⟩

/-- An invariant that every step preserves holds in every reached state. -/
theorem reaches_invariant {I : S → Prop} (hstep : ∀ s l t, I s → step s l = some t → I t)
    {s₀ s : S} (h₀ : I s₀) (h : Reaches step s₀ s) : I s := by
  obtain ⟨ls, hr⟩ := h
  exact run_invariant (P := fun _ _ => True) (fun s l t hs _ => hstep s l t hs) ls s₀ s h₀
    (along_true ls s₀) hr

end Edgessh.Run
