import Mathlib.Data.List.TakeDrop
import Mathlib.Logic.Relation
import Edgessh.Russh.Error

/-!
# Compression

`compression.rs` with the feature `flate2`. The loops of `compress` and `decompress` call an
engine on what is left of the input and of the output, and differ in the status that makes them
enlarge the output and call again.
-/

namespace Edgessh.Russh.Flate2

/-- `flate2::Status`. -/
inductive Status where
  | ok
  | bufError
  | streamEnd
  deriving DecidableEq, Repr

/-- The answer to a call of an engine; without a status it is an error. -/
structure Call (Z : Type) where
  status : Option Status
  consumed : Nat
  output : Bytes
  state : Z

/-- A `flate2::Compress` or `flate2::Decompress`: a call gets a slice of the input and room for
some output, takes a part of the one and fills a part of the other. -/
structure Engine where
  Z : Type
  totalIn : Z → Nat
  totalOut : Z → Nat
  call : Z → Bytes → Nat → Call Z
  consumed_le : ∀ z input space, (call z input space).consumed ≤ input.length
  output_le : ∀ z input space, (call z input space).output.length ≤ space
  totalIn_call : ∀ z input space,
    totalIn (call z input space).state = totalIn z + (call z input space).consumed
  totalOut_call : ∀ z input space,
    totalOut (call z input space).state = totalOut z + (call z input space).output.length

/-- What an engine says about a call. `pending z` is the output that a flush still has to give
once all input is taken. -/
structure Engine.Honest (E : Engine) (pending : E.Z → Nat) : Prop where
  ok : ∀ z input space status, (E.call z input space).status = some status →
    0 < (E.call z input space).consumed ∨ (E.call z input space).output ≠ [] → status = .ok
  bufError : ∀ z input space, (E.call z input space).status = some .bufError →
    (E.call z input space).consumed = 0 ∧ (E.call z input space).output = [] ∧
      (space = 0 ∨ (input = [] ∧ pending (E.call z input space).state = 0))
  pending : ∀ z space,
    (E.call z [] space).output.length + pending (E.call z [] space).state = pending z

/-- `CryptoVec::resize`. -/
def resize (size : Nat) (buffer : Bytes) : Bytes :=
  buffer.take size ++ List.replicate (size - buffer.length) 0

/-- What is in the buffer after `b` has been written at a position. -/
def writeAt (position : Nat) (b buffer : Bytes) : Bytes :=
  buffer.take position ++ b ++ buffer.drop (position + b.length)

/-- What a loop returns: the slice, and besides it what the engine has produced. -/
structure Output (S : Type) where
  slice : Bytes
  produced : Bytes
  state : S
  deriving DecidableEq

/-- What a loop comes to, and the sizes it has given the output on the way. -/
structure Resized (α : Type) where
  sizes : List Nat
  value : α

/-- The loop of `compress` and `decompress`: it goes on while the engine says `again`. -/
def loop (E : Engine) (again : Status) (error : Error) (input : Bytes) (nIn nOut : Nat) :
    Nat → E.Z → Bytes → Bytes → Option (Resized (Except Exn (Output E.Z)))
  | 0, _, _, _ => none
  | fuel + 1, z, output, produced =>
    -- the subtractions and the slices of the source
    if E.totalIn z < nIn ∨ E.totalOut z < nOut ∨ input.length < E.totalIn z - nIn ∨
        output.length < E.totalOut z - nOut then some ⟨[], .error .panic⟩
    else
      let c := E.call z (input.drop (E.totalIn z - nIn)) (output.length - (E.totalOut z - nOut))
      let output := writeAt (E.totalOut z - nOut) c.output output
      let produced := produced ++ c.output
      match c.status with
      | none => some ⟨[], .error error⟩
      | some status =>
        if status = again then
          let size := output.length * 2
          (loop E again error input nIn nOut fuel c.state (resize size output) produced).map
            fun r => ⟨size :: r.sizes, r.value⟩
        else if E.totalOut c.state < nOut ∨ output.length < E.totalOut c.state - nOut then
          some ⟨[], .error .panic⟩
        else some ⟨[], .ok ⟨output.take (E.totalOut c.state - nOut), produced, c.state⟩⟩

/-- `Compress` -/
inductive Compress (E : Engine) where
  | none
  | zlib (z : E.Z)

/-- `Decompress` -/
inductive Decompress (E : Engine) where
  | none
  | zlib (z : E.Z)

/-- `Compress::compress`. -/
def Compress.compress {E : Engine} (fuel : Nat) (input : Bytes) :
    Compress E → Option (Resized (Except Exn (Output (Compress E))))
  | .none => some ⟨[], .ok ⟨input, input, .none⟩⟩
  | .zlib z =>
    let size := input.length + 10
    (loop E .bufError .compress input (E.totalIn z) (E.totalOut z) fuel z (resize size []) []).map
      fun r => ⟨size :: r.sizes, r.value.map fun r => ⟨r.slice, r.produced, .zlib r.state⟩⟩

/-- `Decompress::decompress`. -/
def Decompress.decompress {E : Engine} (fuel : Nat) (input : Bytes) :
    Decompress E → Option (Resized (Except Exn (Output (Decompress E))))
  | .none => some ⟨[], .ok ⟨input, input, .none⟩⟩
  | .zlib z =>
    let size := input.length
    (loop E .ok .decompress input (E.totalIn z) (E.totalOut z) fuel z (resize size []) []).map
      fun r => ⟨size :: r.sizes, r.value.map fun r => ⟨r.slice, r.produced, .zlib r.state⟩⟩

/-- The call of a loop that started from `z₀` and stands at a state with an output of some size. -/
def callAt (E : Engine) (input : Bytes) (z₀ : E.Z) (p : E.Z × Nat) : Call E.Z :=
  E.call p.1 (input.drop (E.totalIn p.1 - E.totalIn z₀)) (p.2 - (E.totalOut p.1 - E.totalOut z₀))

/-- The engine says `again`: the loop calls it once more, with an output twice as long. -/
def Again (E : Engine) (again : Status) (input : Bytes) (z₀ : E.Z) (p q : E.Z × Nat) : Prop :=
  (callAt E input z₀ p).status = some again ∧ q = ((callAt E input z₀ p).state, p.2 * 2)

/-- Where a loop makes its calls that starts from `z₀` with an output of this size. -/
def Calls (E : Engine) (again : Status) (input : Bytes) (z₀ : E.Z) (size : Nat) :
    E.Z × Nat → Prop :=
  Relation.ReflTransGen (Again E again input z₀) (z₀, size)

section Buffer

variable {size position : Nat} {b buffer : Bytes}

@[simp] theorem length_resize : (resize size buffer).length = size := by
  simp only [resize, List.length_append, List.length_take, List.length_replicate]
  omega

/-- Enlarging a buffer keeps its contents. -/
theorem take_resize (h : position ≤ buffer.length) (hsize : position ≤ size) :
    (resize size buffer).take position = buffer.take position := by
  rw [resize, List.take_append_of_le_length (by rw [List.length_take]; omega), List.take_take,
    Nat.min_eq_left hsize]

theorem length_writeAt (h : position + b.length ≤ buffer.length) :
    (writeAt position b buffer).length = buffer.length := by
  simp only [writeAt, List.length_append, List.length_take, List.length_drop]
  omega

theorem take_writeAt (h : position ≤ buffer.length) :
    (writeAt position b buffer).take (position + b.length) = buffer.take position ++ b := by
  rw [writeAt, List.take_append_of_le_length, List.take_of_length_le] <;>
    simp only [List.length_append, List.length_take] <;> omega

end Buffer

variable {E : Engine}

/-- Where a loop stands that started from `z₀`: what the engine has produced is at the front of
the output. -/
structure Position (E : Engine) (input : Bytes) (z₀ z : E.Z) (output produced : Bytes) : Prop where
  totalIn_le : E.totalIn z₀ ≤ E.totalIn z
  totalIn_input : E.totalIn z ≤ E.totalIn z₀ + input.length
  totalOut : E.totalOut z = E.totalOut z₀ + produced.length
  fits : produced.length ≤ output.length
  written : output.take produced.length = produced

theorem Position.start (input : Bytes) (z : E.Z) (output : Bytes) :
    Position E input z z output [] :=
  ⟨Nat.le_refl _, Nat.le_add_right _ _, rfl, Nat.zero_le _, rfl⟩

section Step

variable {again : Status} {error : Error} {input output produced : Bytes} {z₀ z : E.Z} {fuel : Nat}

/-- The call that a loop makes where it stands. -/
def nextCall (E : Engine) (input : Bytes) (z₀ z : E.Z) (output produced : Bytes) : Call E.Z :=
  E.call z (input.drop (E.totalIn z - E.totalIn z₀)) (output.length - produced.length)

theorem Position.call (h : Position E input z₀ z output produced) :
    Position E input z₀ (nextCall E input z₀ z output produced).state
      (writeAt produced.length (nextCall E input z₀ z output produced).output output)
      (produced ++ (nextCall E input z₀ z output produced).output) := by
  have hin := E.consumed_le z (input.drop (E.totalIn z - E.totalIn z₀))
    (output.length - produced.length)
  have hout := E.output_le z (input.drop (E.totalIn z - E.totalIn z₀))
    (output.length - produced.length)
  have htotalIn := E.totalIn_call z (input.drop (E.totalIn z - E.totalIn z₀))
    (output.length - produced.length)
  have htotalOut := E.totalOut_call z (input.drop (E.totalIn z - E.totalIn z₀))
    (output.length - produced.length)
  have hle := h.totalIn_le
  have hinput := h.totalIn_input
  have htotal := h.totalOut
  have hfits := h.fits
  rw [List.length_drop] at hin
  have hlen : produced.length + (nextCall E input z₀ z output produced).output.length ≤
      output.length := by
    unfold nextCall
    omega
  refine ⟨?_, ?_, ?_, ?_, ?_⟩
  · unfold nextCall
    omega
  · unfold nextCall
    omega
  · rw [List.length_append]
    unfold nextCall
    omega
  · rw [List.length_append, length_writeAt hlen]
    exact hlen
  · rw [List.length_append, take_writeAt hfits, h.written]

theorem Position.resize (h : Position E input z₀ z output produced) (size : Nat)
    (hsize : output.length ≤ size) : Position E input z₀ z (resize size output) produced := by
  have hfits := h.fits
  refine ⟨h.totalIn_le, h.totalIn_input, h.totalOut, ?_, ?_⟩
  · rw [length_resize]
    omega
  · rw [take_resize hfits (by omega), h.written]

theorem Position.produced_eq (h : Position E input z₀ z output produced) :
    E.totalOut z - E.totalOut z₀ = produced.length := by
  rw [h.totalOut]
  omega

/-- Where a loop stands, nothing is out of range. -/
theorem Position.inRange (h : Position E input z₀ z output produced) :
    ¬(E.totalIn z < E.totalIn z₀ ∨ E.totalOut z < E.totalOut z₀ ∨
      input.length < E.totalIn z - E.totalIn z₀ ∨
        output.length < E.totalOut z - E.totalOut z₀) := by
  have hle := h.totalIn_le
  have hinput := h.totalIn_input
  have htotal := h.totalOut
  have hfits := h.fits
  omega

theorem length_writeAt_nextCall (h : Position E input z₀ z output produced) :
    (writeAt produced.length (nextCall E input z₀ z output produced).output output).length =
      output.length := by
  have hfits := h.fits
  have hout := E.output_le z (input.drop (E.totalIn z - E.totalIn z₀))
    (output.length - produced.length)
  apply length_writeAt
  unfold nextCall
  omega

theorem nextCall_eq (h : Position E input z₀ z output produced) :
    nextCall E input z₀ z output produced = callAt E input z₀ (z, output.length) := by
  rw [nextCall, callAt, h.produced_eq]

theorem loop_error (h : Position E input z₀ z output produced)
    (hs : (nextCall E input z₀ z output produced).status = none) :
    loop E again error input (E.totalIn z₀) (E.totalOut z₀) (fuel + 1) z output produced =
      some ⟨[], .error error⟩ := by
  unfold nextCall at hs
  rw [loop, if_neg h.inRange]
  simp only [h.produced_eq, hs]

theorem loop_again (h : Position E input z₀ z output produced)
    (hs : (nextCall E input z₀ z output produced).status = some again) :
    loop E again error input (E.totalIn z₀) (E.totalOut z₀) (fuel + 1) z output produced =
      (loop E again error input (E.totalIn z₀) (E.totalOut z₀) fuel
        (nextCall E input z₀ z output produced).state
        (Flate2.resize (output.length * 2)
          (writeAt produced.length (nextCall E input z₀ z output produced).output output))
        (produced ++ (nextCall E input z₀ z output produced).output)).map
          fun r => ⟨output.length * 2 :: r.sizes, r.value⟩ := by
  have hlen := length_writeAt_nextCall h
  unfold nextCall at hs hlen ⊢
  rw [loop, if_neg h.inRange]
  simp only [h.produced_eq, hs, if_true, hlen]

/-- A loop that ends returns what has been produced. -/
theorem loop_done (h : Position E input z₀ z output produced) {status : Status}
    (hs : (nextCall E input z₀ z output produced).status = some status) (hne : status ≠ again) :
    loop E again error input (E.totalIn z₀) (E.totalOut z₀) (fuel + 1) z output produced =
      some ⟨[], .ok ⟨produced ++ (nextCall E input z₀ z output produced).output,
        produced ++ (nextCall E input z₀ z output produced).output,
        (nextCall E input z₀ z output produced).state⟩⟩ := by
  have hcall := h.call
  have htotal := hcall.totalOut
  have hfits := hcall.fits
  have hwritten := hcall.written
  have hguard : ¬(E.totalOut (nextCall E input z₀ z output produced).state < E.totalOut z₀ ∨
      (writeAt produced.length (nextCall E input z₀ z output produced).output output).length <
        E.totalOut (nextCall E input z₀ z output produced).state - E.totalOut z₀) := by
    omega
  unfold nextCall at hs hguard hwritten ⊢
  rw [loop, if_neg h.inRange]
  simp only [h.produced_eq, hs, if_neg hne]
  have hproduced := hcall.produced_eq
  unfold nextCall at hproduced
  rw [if_neg hguard, hproduced, hwritten]

/-- Where the loop stands after a call that made it go on. -/
theorem Position.goOn (h : Position E input z₀ z output produced) :
    Position E input z₀ (nextCall E input z₀ z output produced).state
      (Flate2.resize (output.length * 2)
        (writeAt produced.length (nextCall E input z₀ z output produced).output output))
      (produced ++ (nextCall E input z₀ z output produced).output) := by
  apply h.call.resize
  rw [length_writeAt_nextCall h]
  omega

/-- What a step of a loop that returns has done: the loop has ended with this call, or it has gone
on. -/
theorem loop_cases (h : Position E input z₀ z output produced) {sizes : List Nat}
    {value : Except Exn (Output E.Z)}
    (hr : loop E again error input (E.totalIn z₀) (E.totalOut z₀) (fuel + 1) z output produced =
      some ⟨sizes, value⟩) :
    (nextCall E input z₀ z output produced).status ≠ some again ∧ sizes = [] ∧
        (∀ r, value = .ok r →
          (nextCall E input z₀ z output produced).status ≠ none ∧ r.slice = r.produced ∧
            r.slice.length ≤ output.length ∧
            r.state = (nextCall E input z₀ z output produced).state) ∨
      (nextCall E input z₀ z output produced).status = some again ∧
        ∃ later, sizes = output.length * 2 :: later ∧
          loop E again error input (E.totalIn z₀) (E.totalOut z₀) fuel
            (nextCall E input z₀ z output produced).state
            (Flate2.resize (output.length * 2)
              (writeAt produced.length (nextCall E input z₀ z output produced).output output))
            (produced ++ (nextCall E input z₀ z output produced).output) =
              some ⟨later, value⟩ := by
  rcases hs : (nextCall E input z₀ z output produced).status with _ | status
  · rw [loop_error h hs] at hr
    cases hr
    exact .inl ⟨by simp, rfl, by rintro r ⟨⟩⟩
  · by_cases hagain : status = again
    · subst hagain
      rw [loop_again h hs] at hr
      obtain ⟨⟨later, value'⟩, hlater, hmap⟩ := Option.map_eq_some_iff.mp hr
      cases hmap
      exact .inr ⟨rfl, later, rfl, hlater⟩
    · rw [loop_done h hs hagain] at hr
      cases hr
      refine .inl ⟨by simpa using hagain, rfl, ?_⟩
      rintro r ⟨⟩
      have hfits := h.call.fits
      rw [length_writeAt_nextCall h] at hfits
      exact ⟨by simp, rfl, hfits, rfl⟩

/-- It is not longer than the output has been made. -/
theorem loop_slice_length (h : Position E input z₀ z output produced) {sizes : List Nat}
    {r : Output E.Z}
    (hr : loop E again error input (E.totalIn z₀) (E.totalOut z₀) fuel z output produced =
      some ⟨sizes, .ok r⟩) : ∃ n ∈ output.length :: sizes, r.slice.length ≤ n := by
  induction fuel generalizing z output produced sizes with
  | zero => cases hr
  | succ fuel ih =>
    rcases loop_cases h hr with ⟨-, -, hend⟩ | ⟨-, later, rfl, hlater⟩
    · exact ⟨output.length, List.mem_cons_self, (hend r rfl).2.2.1⟩
    · obtain ⟨n, hn, hle⟩ := ih h.goOn hlater
      rw [length_resize] at hn
      exact ⟨n, List.mem_cons_of_mem _ hn, hle⟩

/-- The sizes are those of the calls that the loop makes. -/
theorem mem_sizes_iff (h : Position E input z₀ z output produced) {sizes : List Nat}
    {value : Except Exn (Output E.Z)} {n : Nat}
    (hr : loop E again error input (E.totalIn z₀) (E.totalOut z₀) fuel z output produced =
      some ⟨sizes, value⟩) :
    n ∈ output.length :: sizes ↔
      ∃ z', Relation.ReflTransGen (Again E again input z₀) (z, output.length) (z', n) := by
  induction fuel generalizing z output produced sizes with
  | zero => cases hr
  | succ fuel ih =>
    simp only [Relation.ReflTransGen.cases_head_iff (a := (z, output.length)), Again,
      ← nextCall_eq h]
    rcases loop_cases h hr with ⟨hne, rfl, -⟩ | ⟨hs, later, rfl, hlater⟩
    · constructor
      · intro hn
        exact ⟨z, .inl (by rw [List.mem_singleton.mp hn])⟩
      · rintro ⟨z', heq | ⟨q, ⟨hagain, -⟩, -⟩⟩
        · rw [(Prod.mk.inj heq).2]
          exact List.mem_singleton_self n
        · exact absurd hagain hne
    · have hmem := ih h.goOn hlater
      rw [length_resize] at hmem
      rw [List.mem_cons, hmem]
      constructor
      · rintro (rfl | ⟨z', hcalls⟩)
        · exact ⟨z, .inl rfl⟩
        · exact ⟨z', .inr ⟨_, ⟨hs, rfl⟩, hcalls⟩⟩
      · rintro ⟨z', heq | ⟨q, ⟨-, rfl⟩, hcalls⟩⟩
        · exact .inl (Prod.mk.inj heq).2.symm
        · exact .inr ⟨z', hcalls⟩

theorem totalIn_nextCall (input output produced : Bytes) (z₀ z : E.Z) :
    E.totalIn (nextCall E input z₀ z output produced).state =
      E.totalIn z + (nextCall E input z₀ z output produced).consumed := E.totalIn_call _ _ _

end Step

/-- An honest engine that says `StreamEnd` has neither taken nor given anything. -/
theorem Engine.Honest.streamEnd {pending : E.Z → Nat} (hE : E.Honest pending) {z : E.Z}
    {input : Bytes} {space : Nat} (hs : (E.call z input space).status = some .streamEnd) :
    (E.call z input space).consumed = 0 := by
  by_contra hne
  have hok := hE.ok z input space .streamEnd hs (.inl (Nat.pos_of_ne_zero hne))
  cases hok

/-- A stream has finitely much to give: a call that reports `Ok` gets nearer to its end. -/
structure Engine.Finite (E : Engine) (rest : E.Z → Bytes → Nat) : Prop where
  ok : ∀ z input space, (E.call z input space).status = some .ok →
    rest (E.call z input space).state (input.drop (E.call z input space).consumed) < rest z input

/-- `decompress` returns, and it does not panic. -/
theorem decompress_loop_returns {rest : E.Z → Bytes → Nat} (hE : E.Finite rest) (error : Error)
    {input output produced : Bytes} {z₀ z : E.Z} (h : Position E input z₀ z output produced) :
    ∃ fuel sizes value, loop E .ok error input (E.totalIn z₀) (E.totalOut z₀) fuel z output
      produced = some ⟨sizes, value⟩ ∧ value ≠ .error .panic := by
  -- by induction on what the stream has left to give
  induction hn : rest z (input.drop (E.totalIn z - E.totalIn z₀)) using Nat.strongRecOn
    generalizing z output produced with
  | ind n ih =>
    rcases hs : (nextCall E input z₀ z output produced).status with _ | status
    · refine ⟨1, _, _, loop_error h hs, ?_⟩
      rintro ⟨⟩
    · by_cases hok : status = .ok
      · subst hok
        have hlt := hE.ok _ _ _ hs
        rw [hn, List.drop_drop] at hlt
        have hle := h.totalIn_le
        have htotal := totalIn_nextCall input output produced z₀ z
        have hdrop : E.totalIn z - E.totalIn z₀ + (nextCall E input z₀ z output produced).consumed =
            E.totalIn (nextCall E input z₀ z output produced).state - E.totalIn z₀ := by omega
        obtain ⟨fuel, sizes, value, hr, hne⟩ := ih _ hlt h.goOn
          (congrArg (fun k => rest _ (input.drop k)) hdrop.symm)
        refine ⟨fuel + 1, output.length * 2 :: sizes, value, ?_, hne⟩
        rw [loop_again h hs, hr]
        rfl
      · refine ⟨1, _, _, loop_done h hs hok, ?_⟩
        rintro ⟨⟩

/-- What a run of `compress` or `decompress` with an engine comes from. -/
theorem of_map_eq {α β : Type} {f : α → β} {size : Nat} {x : Option (Resized (Except Exn α))}
    {sizes : List Nat} {b : β}
    (h : x.map (fun r => Resized.mk (size :: r.sizes) (r.value.map f)) = some ⟨sizes, .ok b⟩) :
    ∃ later a, x = some ⟨later, .ok a⟩ ∧ sizes = size :: later ∧ b = f a := by
  obtain ⟨⟨later, value⟩, hx, hmap⟩ := Option.map_eq_some_iff.mp h
  rcases value with e | a
  · cases hmap
  · cases hmap
    exact ⟨later, a, hx, rfl, rfl⟩

/-- The sizes that the output of `decompress` gets are those of the calls of its loop. -/
theorem Decompress.mem_sizes_iff {input : Bytes} {z : E.Z} {fuel n : Nat}
    {r : Resized (Except Exn (Output (Decompress E)))}
    (hr : (Decompress.zlib z).decompress fuel input = some r) :
    n ∈ r.sizes ↔ ∃ z', Calls E .ok input z input.length (z', n) := by
  obtain ⟨⟨later, value⟩, hloop, rfl⟩ := Option.map_eq_some_iff.mp hr
  have hmem := Flate2.mem_sizes_iff (n := n) (Position.start input z (resize input.length [])) hloop
  rw [length_resize] at hmem
  exact hmem

/-- What `decompress` returns is a part of its output or the input. -/
theorem Decompress.slice_length {input : Bytes} {d : Decompress E} {fuel : Nat}
    {sizes : List Nat} {r : Output (Decompress E)}
    (hr : d.decompress fuel input = some ⟨sizes, .ok r⟩) :
    ∃ n ∈ input.length :: sizes, r.slice.length ≤ n := by
  cases d with
  | none =>
    cases hr
    exact ⟨input.length, List.mem_cons_self, Nat.le_refl _⟩
  | zlib z =>
    obtain ⟨later, r', hloop, rfl, rfl⟩ := of_map_eq hr
    obtain ⟨n, hn, hle⟩ := loop_slice_length (Position.start input z (resize input.length [])) hloop
    rw [length_resize] at hn
    exact ⟨n, List.mem_cons_of_mem _ hn, hle⟩

/-- `decompress` returns if the stream has finitely much to give. -/
theorem Decompress.returns {rest : E.Z → Bytes → Nat} (hE : E.Finite rest) (d : Decompress E)
    (input : Bytes) :
    ∃ fuel sizes value, d.decompress fuel input = some ⟨sizes, value⟩ ∧
      value ≠ .error .panic := by
  cases d with
  | none =>
    refine ⟨0, _, _, rfl, ?_⟩
    rintro ⟨⟩
  | zlib z =>
    obtain ⟨fuel, sizes, value, hr, hne⟩ := decompress_loop_returns hE .decompress
      (Position.start input z (resize input.length []))
    refine ⟨fuel, _, _, congrArg (Option.map _) hr, ?_⟩
    rcases value with e | r
    · intro heq
      exact hne (congrArg Except.error (Except.error.inj heq))
    · rintro ⟨⟩

/-- The state of an engine that writes every byte twice: its counters and what it has not given
out yet. -/
structure Doubling where
  totalIn : Nat := 0
  totalOut : Nat := 0
  queue : Bytes := []
  deriving DecidableEq

/-- An engine for data that gets longer: it takes all of its input and writes every byte twice. -/
def doubling : Engine where
  Z := Doubling
  totalIn := Doubling.totalIn
  totalOut := Doubling.totalOut
  call z input space :=
    let queue := z.queue ++ input.flatMap fun b => [b, b]
    { status := if input = [] ∧ queue.take space = [] then some .bufError else some .ok
      consumed := input.length
      output := queue.take space
      state :=
        ⟨z.totalIn + input.length, z.totalOut + (queue.take space).length, queue.drop space⟩ }
  consumed_le _ _ _ := Nat.le_refl _
  output_le _ _ space := by
    rw [List.length_take]
    exact Nat.min_le_left _ _
  totalIn_call _ _ _ := rfl
  totalOut_call _ _ _ := rfl

/-- What it still has to give out. -/
def Doubling.pending (z : Doubling) : Nat := z.queue.length

theorem doubling_finite : doubling.Finite
    fun (z : Doubling) input => z.queue.length + 3 * input.length := by
  refine ⟨?_⟩
  intro z input space hstatus
  simp only [doubling] at hstatus ⊢
  split at hstatus
  · cases hstatus
  · next hprogress =>
    have hdouble : ∀ l : Bytes, (l.flatMap fun b => [b, b]).length = 2 * l.length := by
      intro l
      induction l with
      | nil => rfl
      | cons b l ih =>
        rw [List.flatMap_cons, List.length_append, ih]
        simp only [List.length_cons, List.length_nil]
        omega
    rw [List.drop_length, List.length_drop, List.length_append, hdouble]
    rcases Nat.eq_zero_or_pos input.length with hinput | hinput
    · obtain rfl := List.length_eq_zero_iff.mp hinput
      -- without input, something has been given out
      have hout : (z.queue ++ ([] : Bytes).flatMap fun b => [b, b]).take space ≠ [] :=
        fun hnil => hprogress ⟨rfl, hnil⟩
      rw [List.flatMap_nil, List.append_nil] at hout
      have hpos := List.length_pos_iff.mpr hout
      rw [List.length_take] at hpos
      simp only [List.length_nil]
      omega
    · simp only [List.length_nil]
      omega

/-- An engine whose stream has ended: it leaves the input where it is. -/
def ended : Engine where
  Z := Unit
  totalIn _ := 0
  totalOut _ := 0
  call _ _ _ := ⟨some .streamEnd, 0, [], ()⟩
  consumed_le _ _ _ := Nat.zero_le _
  output_le _ _ _ := Nat.zero_le _
  totalIn_call _ _ _ := rfl
  totalOut_call _ _ _ := rfl

end Edgessh.Russh.Flate2
