import Mathlib.Data.List.Induction

/-!
# Properties of what has happened

A system keeps the list of its events. `Traced Φ` says that every event met `Φ` with what had
happened before it. Events are only ever added at the end, so such a property is kept by looking
at the new ones. `Since p q` is about the last of them: what they have been since some event.
-/

namespace Edgessh

variable {E : Type*} {Φ Ψ : List E → E → Prop}

/-- Every event meets `Φ` with the events before it. -/
def Traced (Φ : List E → E → Prop) (events : List E) : Prop :=
  ∀ pre e post, events = pre ++ e :: post → Φ pre e

theorem traced_nil : Traced Φ [] := by
  intro pre e post h
  simp at h

theorem traced_append {events new : List E} :
    Traced Φ (events ++ new) ↔
      Traced Φ events ∧ ∀ pre e post, new = pre ++ e :: post → Φ (events ++ pre) e := by
  constructor
  · intro h
    refine ⟨fun pre e post he => h pre e (post ++ new) (by simp [he]), fun pre e post he => ?_⟩
    exact h (events ++ pre) e post (by simp [he])
  · rintro ⟨hold, hnew⟩ pre e post h
    rcases List.append_eq_append_iff.mp h with ⟨mid, hpre, hmid⟩ | ⟨mid, hev, hmid⟩
    · obtain rfl := hpre
      exact hnew mid e post hmid
    · cases mid with
      | nil =>
        rw [List.append_nil] at hev
        rw [List.nil_append] at hmid
        have h0 := hnew [] e post hmid.symm
        rwa [List.append_nil, hev] at h0
      | cons m mid =>
        rw [List.cons_append] at hmid
        obtain ⟨rfl, -⟩ := List.cons.inj hmid
        exact hold pre e mid hev

theorem traced_concat {events : List E} {e : E} :
    Traced Φ (events ++ [e]) ↔ Traced Φ events ∧ Φ events e := by
  rw [traced_append]
  refine and_congr_right fun _ => ⟨fun h => ?_, fun h pre e' post he => ?_⟩
  · simpa using h [] e [] rfl
  · cases pre with
    | nil =>
      obtain ⟨rfl, -⟩ := List.cons.inj he
      rwa [List.append_nil]
    | cons x pre => simp at he

theorem Traced.mono {events : List E} (h : Traced Φ events) (hΦ : ∀ pre e, Φ pre e → Ψ pre e) :
    Traced Ψ events :=
  fun pre e post he => hΦ pre e (h pre e post he)

theorem Traced.and {events : List E} (hΦ : Traced Φ events) (hΨ : Traced Ψ events) :
    Traced (fun pre e => Φ pre e ∧ Ψ pre e) events :=
  fun pre e post he => ⟨hΦ pre e post he, hΨ pre e post he⟩

theorem Traced.getElem? {events : List E} {e : E} {i : ℕ} (h : Traced Φ events)
    (he : events[i]? = some e) : Φ (events.take i) e := by
  refine h _ e (events.drop (i + 1)) ?_
  obtain ⟨hi, rfl⟩ := List.getElem?_eq_some_iff.mp he
  simp

/-- `Traced`, for the events behind `pre`. -/
def tracedAfter (Φ : List E → E → Prop) : List E → List E → Prop
  | _, [] => True
  | pre, e :: events => Φ pre e ∧ tracedAfter Φ (pre ++ [e]) events

theorem tracedAfter_iff {pre events : List E} :
    tracedAfter Φ pre events ↔ ∀ mid e post, events = mid ++ e :: post → Φ (pre ++ mid) e := by
  induction events generalizing pre with
  | nil => simp [tracedAfter]
  | cons e events ih =>
    rw [tracedAfter, ih]
    constructor
    · rintro ⟨he, hrest⟩ mid x post h
      cases mid with
      | nil =>
        obtain ⟨rfl, -⟩ := List.cons.inj h
        rwa [List.append_nil]
      | cons y mid =>
        obtain ⟨rfl, hmid⟩ := List.cons.inj h
        simpa using hrest mid x post hmid
    · intro h
      refine ⟨by simpa using h [] e events rfl, fun mid x post hx => ?_⟩
      simpa using h (e :: mid) x post (by rw [hx, List.cons_append])

theorem traced_append_iff_after {events new : List E} :
    Traced Φ (events ++ new) ↔ tracedAfter Φ [] events ∧ tracedAfter Φ events new := by
  rw [traced_append, tracedAfter_iff, tracedAfter_iff]
  rfl

instance tracedAfter.decidable [∀ pre e, Decidable (Φ pre e)] :
    (events pre : List E) → Decidable (tracedAfter Φ pre events)
  | [], _ => isTrue trivial
  | e :: events, pre =>
    have : Decidable (tracedAfter Φ (pre ++ [e]) events) := tracedAfter.decidable events _
    inferInstanceAs (Decidable (Φ pre e ∧ tracedAfter Φ (pre ++ [e]) events))

instance Traced.decidable [∀ pre e, Decidable (Φ pre e)] : DecidablePred (Traced Φ) :=
  fun events => decidable_of_iff (tracedAfter Φ [] events) tracedAfter_iff

/-- New events that meet `Φ` after anything that goes before them. -/
theorem Traced.append_of_forall {events new : List E} (h : Traced Φ events)
    (hnew : ∀ pre, ∀ e ∈ new, Φ (events ++ pre) e) : Traced Φ (events ++ new) :=
  traced_append.mpr ⟨h, fun pre e post he => hnew pre e (by simp [he])⟩

/-- Something that meets `p` has happened, and since then only what meets `q`. -/
def Since (p q : E → Prop) (events : List E) : Prop :=
  ∃ pre e post, events = pre ++ e :: post ∧ p e ∧ ∀ x ∈ post, q x

section Since

variable {p p' q q' : E → Prop} {events new : List E} {e : E}

theorem since_concat (h : p e) : Since p q (events ++ [e]) := ⟨events, e, [], rfl, h, by simp⟩

theorem not_since_nil : ¬Since p q [] := by
  rintro ⟨pre, e, post, h, -⟩
  simp at h

/-- The last event is the one, or only one of those since. -/
theorem since_concat_iff : Since p q (events ++ [e]) ↔ p e ∨ q e ∧ Since p q events := by
  constructor
  · rintro ⟨pre, x, post, hev, hx, hpost⟩
    rcases List.eq_nil_or_concat post with rfl | ⟨mid, y, rfl⟩
    · obtain ⟨-, hx'⟩ := List.append_inj' hev rfl
      obtain rfl := (List.cons.inj hx').1
      exact .inl hx
    · rw [List.concat_eq_append, ← List.cons_append, ← List.append_assoc] at hev
      obtain ⟨rfl, hy⟩ := List.append_inj' hev rfl
      obtain rfl := (List.cons.inj hy).1
      exact .inr ⟨hpost e (by simp), pre, x, mid, rfl, hx, fun z hz => hpost z (by simp [hz])⟩
  · rintro (h | ⟨hq, pre, x, post, rfl, hx, hpost⟩)
    · exact since_concat h
    · refine ⟨pre, x, post ++ [e], by simp, hx, fun z hz => ?_⟩
      rcases List.mem_append.mp hz with hz | hz
      · exact hpost z hz
      · exact List.mem_singleton.mp hz ▸ hq

/-- `Since`, for the events from the last one back. -/
def sinceLast (p q : E → Prop) : List E → Prop
  | [] => False
  | e :: events => p e ∨ q e ∧ sinceLast p q events

theorem sinceLast_reverse : sinceLast p q events.reverse ↔ Since p q events := by
  induction events using List.reverseRecOn with
  | nil => exact ⟨False.elim, not_since_nil⟩
  | append_singleton events e ih =>
    rw [since_concat_iff, List.reverse_append, ← ih]
    rfl

instance sinceLast.decidable [DecidablePred p] [DecidablePred q] :
    DecidablePred (sinceLast p q)
  | [] => isFalse id
  | e :: events =>
    have : Decidable (sinceLast p q events) := sinceLast.decidable events
    inferInstanceAs (Decidable (p e ∨ q e ∧ sinceLast p q events))

instance Since.decidable [DecidablePred p] [DecidablePred q] : DecidablePred (Since p q) :=
  fun _ => decidable_of_iff _ sinceLast_reverse

theorem Since.append (h : Since p q events) (hnew : ∀ x ∈ new, q x) :
    Since p q (events ++ new) := by
  obtain ⟨pre, e, post, rfl, he, hpost⟩ := h
  refine ⟨pre, e, post ++ new, by simp, he, fun x hx => ?_⟩
  exact (List.mem_append.mp hx).elim (hpost x) (hnew x)

theorem Since.mono (h : Since p q events) (hp : ∀ x, p x → p' x) (hq : ∀ x, q x → q' x) :
    Since p' q' events := by
  obtain ⟨pre, e, post, hev, he, hpost⟩ := h
  exact ⟨pre, e, post, hev, hp e he, fun x hx => hq x (hpost x hx)⟩

end Since

end Edgessh
