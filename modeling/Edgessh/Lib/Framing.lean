import Edgessh.Lib.Command

/-!
# Framed streams

A writer appends one frame for each message to its output, and a reader takes one frame off its
input. If whatever a writer writes for one message is read back by every reader that is in step
with it, and both are in step again afterwards, then whole sequences of messages are read back,
and nothing that stands behind them is touched. What the reader does for a message may depend on
its `turn`, which the reader knows without having read it.
-/

namespace Edgessh.Framing
open Edgessh.Command

variable {ε ε' ω ρ μ κ ν β : Type}

/-- A writer and a reader: what has been written, what is still to be read, the writers that some
reader can follow, and the readers that follow a writer. -/
structure Link (ω ρ β : Type) where
  output : ω → List β
  input : ρ → List β
  Ready : ω → Prop
  InStep : ω → ρ → Prop

/-- From `w` the command `m` appends bytes to the output that the command `n`, in every reader that
is in step with `w`, reads as `v`; what stands behind them stays, and the two are in step again. -/
def Link.Carries (L : Link ω ρ β) (w : ω) (m : EStateM ε ω PUnit) (n : EStateM ε' ρ ν)
    (v : ν) : Prop :=
  ∃ w' frame, m w = .ok ⟨⟩ w' ∧ L.output w' = L.output w ++ frame ∧ L.Ready w' ∧
    ∀ r tail, L.InStep w r → L.input r = frame ++ tail →
      ∃ r', n r = .ok v r' ∧ L.input r' = tail ∧ L.InStep w' r'

variable {L : Link ω ρ β} {Fits : μ → Prop} {write : μ → EStateM ε ω PUnit} {turn : μ → κ}
  {read : κ → EStateM ε' ρ ν} {value : μ → ν} {w : ω}

theorem forM_cons_ok {w' w'' : ω} {m : μ} {ms : List μ} (h : write m w = .ok ⟨⟩ w')
    (hs : ms.forM write w' = .ok ⟨⟩ w'') : (m :: ms).forM write w = .ok ⟨⟩ w'' := by
  show (write m >>= fun _ => ms.forM write) w = _
  simp only [bind, EStateM.bind, h, hs]

theorem mapM_cons_ok {r r' r'' : ρ} {k : κ} {ks : List κ} {v : ν} {vs : List ν}
    (h : read k r = .ok v r') (hs : ks.mapM read r' = .ok vs r'') :
    (k :: ks).mapM read r = .ok (v :: vs) r'' := by
  rw [List.mapM_cons]
  simp only [bind, EStateM.bind, h, hs]
  rfl

/-- What holds of one message holds of a sequence of them. -/
theorem Link.carries_all
    (h : ∀ m w, Fits m → L.Ready w → L.Carries w (write m) (read (turn m)) (value m))
    (ms : List μ) (hfits : ∀ m ∈ ms, Fits m) (hready : L.Ready w) :
    L.Carries w (ms.forM write) ((ms.map turn).mapM read) (ms.map value) := by
  induction ms generalizing w with
  | nil =>
    refine ⟨w, [], rfl, (List.append_nil _).symm, hready, ?_⟩
    intro r tail hstep hr
    exact ⟨r, rfl, hr, hstep⟩
  | cons m ms ih =>
    obtain ⟨w₁, frame, hwrite, hout, hready₁, hread⟩ := h m w (hfits m List.mem_cons_self) hready
    obtain ⟨w₂, bytes, hwrites, houts, hready₂, hreads⟩ :=
      ih (fun m hm => hfits m (List.mem_cons_of_mem _ hm)) hready₁
    refine ⟨w₂, frame ++ bytes, forM_cons_ok hwrite hwrites, ?_, hready₂, ?_⟩
    · rw [houts, hout, List.append_assoc]
    · intro r tail hstep hr
      rw [List.append_assoc] at hr
      obtain ⟨r₁, h₁, hr₁, hstep₁⟩ := hread r (bytes ++ tail) hstep hr
      obtain ⟨r₂, h₂, hr₂, hstep₂⟩ := hreads r₁ tail hstep₁ hr₁
      exact ⟨r₂, mapM_cons_ok h₁ h₂, hr₂, hstep₂⟩

end Edgessh.Framing
