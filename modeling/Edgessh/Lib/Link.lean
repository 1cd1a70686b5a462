import Edgessh.Lib.Credit
import Mathlib.Algebra.Ring.Nat
import Mathlib.Logic.Relation

/-!
# A sender and the receiver that grants its credit

Between the two are the packets that the receiver has not read and the grants that the sender has
not read. The window of the receiver is what it has granted and not received. A receiver that
never lets its window fall to zero loses nothing, is never sent more than it has granted, and does
not make the sender wait for ever: when nothing is under way, everything submitted has arrived.
-/

namespace Edgessh.Credit

variable {α : Type*}

structure Link (α : Type*) where
  sender : Sender α
  /-- the packets under way, the oldest first -/
  packets : List (List α)
  /-- the grants under way, the oldest first -/
  grants : List Nat
  window : Nat
  received : List α

namespace Link

/-- One of the two does something. -/
inductive Step (bound : Nat) : Link α → Link α → Prop
  | submit {l : Link α} {packets : List (List α)} (xs : List α) :
      (l.sender.submit xs).sent = l.sender.sent ++ packets.flatten →
      Step bound l { l with sender := l.sender.submit xs, packets := l.packets ++ packets }
  | grant {l : Link α} {packets : List (List α)} {n : Nat} {grants : List Nat} :
      l.grants = n :: grants →
      (l.sender.grant n).sent = l.sender.sent ++ packets.flatten →
      Step bound l
        { l with sender := l.sender.grant n, packets := l.packets ++ packets, grants }
  | receive {l : Link α} {p : List α} {packets : List (List α)} {window : Nat}
      {granted : List Nat} :
      l.packets = p :: packets → window + p.length = l.window + granted.sum →
      0 < window → window ≤ bound →
      Step bound l
        { l with packets, received := l.received ++ p, window, grants := l.grants ++ granted }

/-- The invariant of a link. -/
structure Balanced (bound : Nat) (l : Link α) : Prop where
  settled : l.sender.Settled
  sent : l.received ++ l.packets.flatten = l.sender.sent
  /-- what is granted is credit, or it is under way in one of the two directions -/
  window : l.sender.credit + l.packets.flatten.length + l.grants.sum = l.window
  window_pos : 0 < l.window
  window_le : l.window ≤ bound

namespace Balanced

variable {bound : Nat} {l l' : Link α}

theorem step (h : l.Balanced bound) (hstep : Step bound l l') : l'.Balanced bound := by
  cases hstep with
  | submit xs hsent =>
    have hgranted := Sender.granted_submit xs l.sender
    simp only [Sender.granted, hsent, List.length_append] at hgranted
    have hwindow := h.window
    refine ⟨Sender.settled_submit _ _, ?_, ?_, h.window_pos, h.window_le⟩
    · show l.received ++ (l.packets ++ _).flatten = _
      rw [List.flatten_append, ← List.append_assoc, h.sent, hsent]
    · show (l.sender.submit xs).credit + (l.packets ++ _).flatten.length + l.grants.sum = l.window
      rw [List.flatten_append, List.length_append]
      omega
  | @grant packets n grants hgrants hsent =>
    have hgranted := Sender.granted_grant n l.sender
    simp only [Sender.granted, hsent, List.length_append] at hgranted
    have hwindow := h.window
    rw [hgrants, List.sum_cons] at hwindow
    refine ⟨Sender.settled_grant _ _, ?_, ?_, h.window_pos, h.window_le⟩
    · show l.received ++ (l.packets ++ _).flatten = _
      rw [List.flatten_append, ← List.append_assoc, h.sent, hsent]
    · show (l.sender.grant n).credit + (l.packets ++ packets).flatten.length + grants.sum =
        l.window
      rw [List.flatten_append, List.length_append]
      omega
  | @receive p packets window granted hp hwindow hpos hle =>
    have hsent := h.sent
    have hbefore := h.window
    rw [hp, List.flatten_cons] at hsent
    rw [hp, List.flatten_cons, List.length_append] at hbefore
    refine ⟨h.settled, ?_, ?_, hpos, hle⟩
    · show l.received ++ p ++ packets.flatten = _
      rw [List.append_assoc, hsent]
    · show l.sender.credit + packets.flatten.length + (l.grants ++ granted).sum = window
      rw [List.sum_append]
      omega

theorem reaches (h : l.Balanced bound) (hsteps : Relation.ReflTransGen (Step bound) l l') :
    l'.Balanced bound := by
  induction hsteps with
  | refl => exact h
  | tail _ hstep ih => exact ih.step hstep

/-- Everything under way fits into the window. -/
theorem fits (h : l.Balanced bound) : l.packets.flatten.length ≤ l.window := by
  have := h.window
  omega

/-- So does the next packet. -/
theorem head_fits (h : l.Balanced bound) {p : List α} {packets : List (List α)}
    (hp : l.packets = p :: packets) : p.length ≤ l.window := by
  have hfits := h.fits
  rw [hp, List.flatten_cons, List.length_append] at hfits
  omega

/-- So do the credit and the next grant together. -/
theorem credit_add_le (h : l.Balanced bound) {n : Nat} {grants : List Nat}
    (hn : l.grants = n :: grants) : l.sender.credit + n ≤ bound := by
  have hwindow := h.window
  have hle := h.window_le
  rw [hn, List.sum_cons] at hwindow
  omega

theorem credit_le (h : l.Balanced bound) : l.sender.credit ≤ bound := by
  have hwindow := h.window
  have hle := h.window_le
  omega

/-- Nothing is lost, repeated or moved. -/
theorem stream (h : l.Balanced bound) :
    l.received ++ l.packets.flatten ++ l.sender.queued = l.sender.stream := by
  rw [h.sent]
  rfl

/-- A sender that waits will hear from the receiver. -/
theorem complete (h : l.Balanced bound) (hpackets : l.packets = []) (hgrants : l.grants = []) :
    l.received = l.sender.stream := by
  have hwindow := h.window
  have hpos := h.window_pos
  have hqueued : l.sender.queued = [] := by
    by_contra hne
    have hcredit := h.settled hne
    rw [hpackets, hgrants, hcredit] at hwindow
    simp only [List.flatten_nil, List.length_nil, List.sum_nil] at hwindow
    omega
  have hstream := h.stream
  rw [hpackets, hqueued] at hstream
  simpa using hstream

end Balanced

end Link

end Edgessh.Credit
