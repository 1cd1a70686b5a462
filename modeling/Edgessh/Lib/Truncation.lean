import Edgessh.Lib.Command

/-!
# Commands that are cut short

Two commands keep a log in their states. `Truncates log bad stop m n` says that `n` does what `m`
does, up to the first entry of the log that is bad: there `n` throws `stop` instead, and `m` goes
on. So the two agree exactly if `m` logs nothing bad.
-/

namespace Edgessh.Command

universe u

variable {ε σ α β E : Type u}

/-- The state in which a command has ended. -/
def endState : EStateM.Result ε σ α → σ
  | .ok _ t => t
  | .error _ t => t

/-- Entries that meet `p` have been added to the log. -/
def Logs (log : σ → List E) (p : E → Prop) (s t : σ) : Prop :=
  ∃ new, log t = log s ++ new ∧ ∀ e ∈ new, p e

section Logs

variable {log : σ → List E} {p q : E → Prop} {s t u : σ}

theorem Logs.of_eq (h : log t = log s) : Logs log p s t :=
  ⟨[], by rw [h, List.append_nil], by simp⟩

theorem Logs.refl (s : σ) : Logs log p s s := .of_eq rfl

theorem Logs.trans (hst : Logs log p s t) (htu : Logs log p t u) : Logs log p s u := by
  obtain ⟨new, ht, hnew⟩ := hst
  obtain ⟨new', hu, hnew'⟩ := htu
  refine ⟨new ++ new', by rw [hu, ht, List.append_assoc], fun e he => ?_⟩
  rcases List.mem_append.mp he with he | he
  · exact hnew e he
  · exact hnew' e he

theorem Logs.mono (h : Logs log p s t) (hpq : ∀ e, p e → q e) : Logs log q s t := by
  obtain ⟨new, ht, hnew⟩ := h
  exact ⟨new, ht, fun e he => hpq e (hnew e he)⟩

theorem Steps.mono {R R' : σ → σ → Prop} {m : EStateM ε σ α} (h : Steps R m)
    (hR : ∀ s t, R s t → R' s t) : Steps R' m := fun s =>
  wp_mono (h s) (fun _ t => hR s t) fun _ t => hR s t

theorem Steps.endState {R : σ → σ → Prop} {m : EStateM ε σ α} (h : Steps R m) (s : σ) :
    R s (endState (m s)) := by
  have hs := h s
  unfold wp at hs
  cases hm : m s with
  | ok a t =>
    rw [hm] at hs
    exact hs
  | error e t =>
    rw [hm] at hs
    exact hs

end Logs

/-- `n` stops with `stop` before a bad entry of the log, and `m` goes on. -/
def StopsBefore (log : σ → List E) (bad : E → Prop) (stop : ε)
    (r r' : EStateM.Result ε σ α) : Prop :=
  ∃ t e post, r' = .error stop t ∧ log (endState r) = log t ++ e :: post ∧ bad e

/-- `n` is `m`, cut short before the first bad entry of the log. -/
structure Truncates (log : σ → List E) (bad : E → Prop) (stop : ε) (m n : EStateM ε σ α) :
    Prop where
  grows : Steps (Logs log fun _ => True) m
  good : Steps (Logs log fun e => ¬bad e) n
  same_or_stops : ∀ s, n s = m s ∨ StopsBefore log bad stop (m s) (n s)

namespace Truncates

variable {log : σ → List E} {bad : E → Prop} {stop : ε} {m n : EStateM ε σ α}
  {f g : α → EStateM ε σ β}

theorem of_eq (heq : n = m) (hgrows : Steps (Logs log fun _ => True) m)
    (hgood : Steps (Logs log fun e => ¬bad e) n) : Truncates log bad stop m n :=
  ⟨hgrows, hgood, fun s => .inl (by rw [heq])⟩

/-- A command that logs nothing bad. -/
theorem refl (h : Steps (Logs log fun e => ¬bad e) m) : Truncates log bad stop m m :=
  .of_eq rfl (h.mono fun _ _ hst => hst.mono fun _ _ => trivial) h

theorem of_pure (a : α) : Truncates log bad stop (pure a : EStateM ε σ α) (pure a) :=
  .refl (steps_pure .refl a)

theorem of_throw (e : ε) : Truncates log bad stop (throw e : EStateM ε σ α) (throw e) :=
  .refl (steps_throw .refl e)

theorem of_get : Truncates log bad stop (get : EStateM ε σ σ) get := .refl Logs.refl

/-- What follows a look at the state may depend on that it is this state. -/
theorem of_read {f g : σ → EStateM ε σ α}
    (h : ∀ s, ∃ m n, Truncates log bad stop m n ∧ m s = f s s ∧ n s = g s s) :
    Truncates log bad stop (get >>= f) (get >>= g) where
  grows s := by
    obtain ⟨m, n, htrunc, hm, -⟩ := h s
    have hs := htrunc.grows s
    unfold wp at hs ⊢
    rwa [hm] at hs
  good s := by
    obtain ⟨m, n, htrunc, -, hn⟩ := h s
    have hs := htrunc.good s
    unfold wp at hs ⊢
    rwa [hn] at hs
  same_or_stops s := by
    obtain ⟨m, n, htrunc, hm, hn⟩ := h s
    have hs := htrunc.same_or_stops s
    rwa [hm, hn] at hs

theorem of_ofExcept (x : Except ε α) :
    Truncates log bad stop (ofExcept x : EStateM ε σ α) (ofExcept x) := by
  cases x with
  | ok a => exact .of_pure a
  | error e => exact .of_throw e

theorem of_modify {h : σ → σ} (hlog : ∀ s, Logs log (fun e => ¬bad e) s (h s)) :
    Truncates log bad stop (modify h : EStateM ε σ PUnit) (modify h) :=
  .refl hlog

theorem bind (h : Truncates log bad stop m n) (hf : ∀ a, Truncates log bad stop (f a) (g a)) :
    Truncates log bad stop (m >>= f) (n >>= g) where
  grows := steps_bind (fun _ _ _ => .trans) h.grows fun a => (hf a).grows
  good := steps_bind (fun _ _ _ => .trans) h.good fun a => (hf a).good
  same_or_stops s := by
    simp only [Bind.bind, EStateM.bind]
    rcases h.same_or_stops s with heq | ⟨t, e, post, hn, hlog, hbad⟩
    · rw [heq]
      cases m s with
      | ok a t => exact (hf a).same_or_stops t
      | error e t => exact .inl rfl
    · rw [hn]
      refine .inr ⟨t, e, ?_⟩
      cases hm : m s with
      | ok a u =>
        rw [hm] at hlog
        obtain ⟨new, hnew, -⟩ := (hf a).grows.endState u
        refine ⟨post ++ new, rfl, ?_, hbad⟩
        show log (endState (f a u)) = _
        rw [hnew]
        show log u ++ new = _
        rw [show log u = log t ++ e :: post from hlog, List.append_assoc, List.cons_append]
      | error e' u =>
        rw [hm] at hlog
        exact ⟨post, rfl, hlog, hbad⟩

/-- A handler that lets `stop` pass. -/
theorem of_tryCatch {f g : ε → EStateM ε σ α} (h : Truncates log bad stop m n)
    (hf : ∀ e, Truncates log bad stop (f e) (g e)) (hstop : g stop = throw stop) :
    Truncates log bad stop (tryCatch m f) (tryCatch n g) where
  grows := steps_tryCatch (fun _ _ _ => .trans) h.grows fun e => (hf e).grows
  good := steps_tryCatch (fun _ _ _ => .trans) h.good fun e => (hf e).good
  same_or_stops s := by
    rw [tryCatch_apply, tryCatch_apply]
    rcases h.same_or_stops s with heq | ⟨t, e, post, hn, hlog, hbad⟩
    · rw [heq]
      cases m s with
      | ok a t => exact .inl rfl
      | error e t => exact (hf e).same_or_stops t
    · rw [hn]
      refine .inr ⟨t, e, ?_⟩
      cases hm : m s with
      | ok a u =>
        rw [hm] at hlog
        exact ⟨post, congrFun hstop t, hlog, hbad⟩
      | error e' u =>
        rw [hm] at hlog
        obtain ⟨new, hnew, -⟩ := (hf e').grows.endState u
        refine ⟨post ++ new, congrFun hstop t, ?_, hbad⟩
        show log (endState (f e' u)) = _
        rw [hnew, show log u = log t ++ e :: post from hlog, List.append_assoc, List.cons_append]

theorem ite (c : Prop) [Decidable c] {m' n' : EStateM ε σ α} (h : Truncates log bad stop m n)
    (h' : Truncates log bad stop m' n') :
    Truncates log bad stop (if c then m else m') (if c then n else n') := by
  split
  · exact h
  · exact h'

/-- The two agree exactly if nothing bad is logged. -/
theorem eq_iff (h : Truncates log bad stop m n) (s : σ) :
    n s = m s ↔ Logs log (fun e => ¬bad e) s (endState (m s)) := by
  constructor
  · intro heq
    rw [← heq]
    exact h.good.endState s
  · rintro ⟨new, hnew, hall⟩
    rcases h.same_or_stops s with heq | ⟨t, e, post, hn, hlog, hbad⟩
    · exact heq
    · obtain ⟨before, hbefore, -⟩ := h.good.endState s
      rw [hn] at hbefore
      rw [hnew, show log t = log s ++ before from hbefore, List.append_assoc,
        List.append_cancel_left_eq] at hlog
      exact absurd hbad (hall e (by simp [hlog]))

/-- The states in which they end tell them apart. -/
theorem eq_of_endState (h : Truncates log bad stop m n) {s : σ}
    (heq : endState (n s) = endState (m s)) : n s = m s := by
  rcases h.same_or_stops s with hsame | ⟨t, e, post, hn, hlog, -⟩
  · exact hsame
  · rw [← heq, hn] at hlog
    exact absurd (congrArg List.length hlog) (by simp [endState])

end Truncates

end Edgessh.Command
