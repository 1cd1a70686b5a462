import Edgessh.Lib.Queue
import Edgessh.Russh.Error

/-!
# The transport of the session object

`transport.rs`: the bytes that JavaScript pushes are read by the SSH session through a transport
that keeps the rest of a chunk between two reads. A read that completes without a byte means
the end of the stream.
-/

namespace Edgessh.ZerosshDo
open Edgessh.Run Edgessh.Queue Edgessh.Russh

/-- `JsCallbackTransport`, as far as it reads. -/
structure JsCallbackTransport where
  rx : Receiver Bytes := {}
  pending : Bytes := []
  offset : Nat := 0
  deriving DecidableEq, Repr

namespace JsCallbackTransport

/-- `poll_read` into a buffer that has `remaining` bytes left, with what is put into it. -/
def pollRead (remaining : Nat) (this : JsCallbackTransport) : Poll Bytes × JsCallbackTransport :=
  if this.offset < this.pending.length then
    let rest := this.pending.drop this.offset
    let n := min rest.length remaining
    let offset := this.offset + n
    (.ready (rest.take n),
      if this.pending.length ≤ offset then { this with pending := [], offset := 0 }
      else { this with offset })
  else
    match this.rx.pollRecv with
    | (.ready (some data), rx) =>
      let n := min data.length remaining
      (.ready (data.take n),
        if n < data.length then { rx, pending := data, offset := n } else { this with rx })
    | (.ready none, rx) => (.ready [], { this with rx })
    | (.pending, rx) => (.pending, { this with rx })

/-- What has been pushed and not been read. -/
def unread (this : JsCallbackTransport) : Bytes :=
  this.pending.drop this.offset ++ this.rx.items.flatten

/-- What a read takes is the front of what is unread. -/
theorem pollRead_unread (remaining : Nat) (this : JsCallbackTransport) :
    this.unread =
      (match (this.pollRead remaining).1 with
        | .ready b => b
        | .pending => []) ++ (this.pollRead remaining).2.unread := by
  unfold pollRead
  by_cases hp : this.offset < this.pending.length
  · rw [if_pos hp]
    -- the rest of a chunk is read first
    by_cases hn : this.pending.length ≤
        this.offset + min (this.pending.drop this.offset).length remaining
    · have hlen : (this.pending.drop this.offset).length ≤ remaining := by
        rw [List.length_drop] at hn ⊢
        omega
      simp only [hn, if_true, unread, List.drop_nil, List.nil_append]
      rw [List.take_of_length_le (by omega)]
    · simp only [hn, if_false, unread]
      rw [← List.append_assoc, ← List.drop_drop, List.take_append_drop]
  · rw [if_neg hp]
    have hdrop : this.pending.drop this.offset = [] := List.drop_eq_nil_of_le (by omega)
    rcases hitems : this.rx.items with _ | ⟨data, items⟩
    · cases hclosed : this.rx.closed <;>
        simp [Receiver.pollRecv, hitems, hclosed, unread, hdrop]
    · simp only [Receiver.pollRecv, hitems]
      by_cases hn : min data.length remaining < data.length
      · simp only [hn, if_true, unread, hdrop, hitems, List.nil_append, List.flatten_cons]
        rw [← List.append_assoc, List.take_append_drop]
      · have hlen : data.length ≤ min data.length remaining := by omega
        simp only [hn, if_false, unread, hdrop, hitems, List.nil_append, List.flatten_cons]
        rw [List.take_of_length_le hlen]

/-- A read puts nothing into the channel. -/
theorem mem_items_of_pollRead {remaining : Nat} {this : JsCallbackTransport} {c : Bytes}
    (h : c ∈ (this.pollRead remaining).2.rx.items) : c ∈ this.rx.items := by
  unfold pollRead at h
  by_cases hp : this.offset < this.pending.length
  · rw [if_pos hp] at h
    simp only at h
    split at h <;> exact h
  · rw [if_neg hp] at h
    rcases hitems : this.rx.items with _ | ⟨data, items⟩
    · cases hclosed : this.rx.closed <;> simp [Receiver.pollRecv, hitems, hclosed] at h
    · simp only [Receiver.pollRecv, hitems] at h
      split at h <;> exact List.mem_cons_of_mem data h

end JsCallbackTransport

/-- What happens to a transport: `push_data` of a feeder, the end of the last sender, a poll of
the reader. -/
inductive TransportEvent where
  | pushData (data : Bytes)
  | closeSenders
  | pollRead (remaining : Nat)
  deriving DecidableEq, Repr

namespace JsCallbackTransport

def next (this : JsCallbackTransport) : TransportEvent → Option JsCallbackTransport
  | .pushData data =>
    if this.rx.closed then none else some { this with rx := this.rx.send data }
  | .closeSenders => some { this with rx := this.rx.close }
  | .pollRead remaining => some (this.pollRead remaining).2

/-- What an event pushes. -/
def pushed (_ : JsCallbackTransport) : TransportEvent → Bytes
  | .pushData data => data
  | _ => []

/-- What a poll gives to the reader. -/
def delivered (this : JsCallbackTransport) : TransportEvent → Bytes
  | .pollRead remaining =>
    match (this.pollRead remaining).1 with
    | .ready b => b
    | .pending => []
  | _ => []

theorem ordered : Ordered next unread pushed delivered := by
  intro s e t ht
  cases e with
  | pushData data =>
    simp only [next] at ht
    split at ht
    · cases ht
    · cases ht
      simp [unread, pushed, delivered, Receiver.send]
  | closeSenders =>
    cases ht
    simp [unread, pushed, delivered, Receiver.close]
  | pollRead remaining =>
    cases ht
    simpa [pushed, delivered] using s.pollRead_unread remaining

/-- A read into a buffer with room that gives no byte comes after the end of the input, when
everything pushed has been read. -/
def EofIsFinal (this : JsCallbackTransport) : TransportEvent → Prop
  | .pollRead remaining =>
    0 < remaining → (this.pollRead remaining).1 = .ready [] →
      this.rx.closed = true ∧ this.unread = []
  | _ => True

/-- The read does not meet an empty chunk, unless nothing else will follow it. -/
def NextNotEmpty (this : JsCallbackTransport) : TransportEvent → Prop
  | .pollRead remaining =>
    0 < remaining → this.pending.length ≤ this.offset → this.rx.items.head? = some [] →
      this.rx.closed = true ∧ this.rx.items.flatten = []
  | _ => True

theorem eofIsFinal_iff (this : JsCallbackTransport) (e : TransportEvent) :
    this.EofIsFinal e ↔ this.NextNotEmpty e := by
  cases e with
  | pushData _ => exact Iff.rfl
  | closeSenders => exact Iff.rfl
  | pollRead remaining =>
    simp only [EofIsFinal, NextNotEmpty, pollRead]
    by_cases hp : this.offset < this.pending.length
    · rw [if_pos hp]
      -- something is left of a chunk, and it is given out
      constructor
      · intro _ _ hle
        omega
      · intro _ hr h
        have hlen := congrArg List.length (Poll.ready.inj h)
        rw [List.length_take, List.length_drop, List.length_nil] at hlen
        omega
    · rw [if_neg hp]
      have hdrop : this.pending.drop this.offset = [] := List.drop_eq_nil_of_le (by omega)
      rcases hitems : this.rx.items with _ | ⟨data, items⟩
      · cases hclosed : this.rx.closed <;>
          simp [Receiver.pollRecv, hitems, hclosed, unread, hdrop]
      · simp only [Receiver.pollRecv, hitems, List.head?_cons, Option.some.injEq, unread, hdrop,
          List.nil_append]
        constructor
        · intro h hr _ hdata
          apply h hr
          rw [hdata, List.take_nil]
        · intro h hr hready
          have hdata : data = [] := by
            have hlen := congrArg List.length (Poll.ready.inj hready)
            rw [List.length_take, List.length_nil] at hlen
            apply List.length_eq_zero_iff.mp
            omega
          exact h hr (by omega) hdata

/-- Where no chunk is empty, none is met. -/
theorem along_nextNotEmpty {events : List TransportEvent}
    (h : ∀ data, .pushData data ∈ events → data ≠ []) : Along next NextNotEmpty {} events := by
  have hlabels : ∀ e ∈ events, ∀ data, e = .pushData data → data ≠ [] := by
    rintro e he data rfl
    exact h data he
  refine ((along_true events _).and_labels hlabels).of_invariant
    (I := fun t => ∀ c ∈ t.rx.items, c ≠ []) ?_ ?_ (by simp)
  · rintro s e t hs ⟨-, he⟩ ht
    cases e with
    | pushData data =>
      simp only [next] at ht
      split at ht
      · cases ht
      · cases ht
        intro c hc
        rcases List.mem_append.mp hc with hc | hc
        · exact hs c hc
        · rw [List.mem_singleton.mp hc]
          exact he data rfl
    | closeSenders =>
      cases ht
      exact hs
    | pollRead remaining =>
      cases ht
      intro c hc
      apply hs
      exact mem_items_of_pollRead hc
  · rintro s e hs -
    cases e with
    | pushData _ => trivial
    | closeSenders => trivial
    | pollRead remaining =>
      intro _ _ hhead
      exact absurd rfl (hs [] (List.mem_of_head? hhead))

theorem along_eofIsFinal_iff (events : List TransportEvent) :
    Along next EofIsFinal {} events ↔ Along next NextNotEmpty {} events :=
  along_iff_of_invariant (I := fun _ => True) (fun _ _ _ _ _ _ => trivial)
    (fun s e _ => s.eofIsFinal_iff e) trivial

/-- Where no chunk is empty, the end of the stream is only reported at its end. -/
theorem along_eofIsFinal {events : List TransportEvent}
    (h : ∀ data, .pushData data ∈ events → data ≠ []) : Along next EofIsFinal {} events :=
  (along_eofIsFinal_iff events).mpr (along_nextNotEmpty h)

/-- In every run, what has been read and what is unread is what has been pushed, and the end of
the stream is only reported at its end. -/
def Faithful (events : List TransportEvent) : Prop :=
  (∀ t, run next {} events = some t →
    trace next pushed {} events = trace next delivered {} events ++ t.unread) ∧
  Along next EofIsFinal {} events

/-- The transport is faithful in the runs in which no read meets an empty chunk too early. -/
theorem transport_faithful_iff (events : List TransportEvent) :
    Faithful events ↔ Along next NextNotEmpty {} events := by
  constructor
  · intro h
    exact (along_eofIsFinal_iff events).mp h.2
  · intro h
    refine ⟨?_, (along_eofIsFinal_iff events).mpr h⟩
    intro t ht
    have horder := ordered.run ht
    simpa [unread] using horder

/-- An empty chunk that is read before the end is taken for the end. -/
theorem transport_faithful_fails : ¬Faithful [.pushData [], .pushData [83], .pollRead 4] := by
  intro h
  have hread := (h.2.2 _ rfl).2 _ rfl
  have hend := hread.1 (by decide) rfl
  exact absurd hend.1 (by decide)

end JsCallbackTransport

end Edgessh.ZerosshDo
