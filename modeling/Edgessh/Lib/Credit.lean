import Mathlib.Data.List.TakeDrop

/-!
# A sender with credit

The purpose of a flow-controlled channel, without its buffers: items are submitted in an order,
the peer grants credit, and one item leaves for each unit of it. `pump` sends what the credit
allows. After it a sender is `Settled`: either nothing waits or there is no credit, so that an
item submitted next cannot overtake one that waits.
-/

namespace Edgessh.Credit

/-- What has been sent, what waits in order, and how many more items may be sent. -/
structure Sender (α : Type*) where
  sent : List α
  queued : List α
  credit : Nat

namespace Sender

variable {α : Type*}

/-- Everything submitted so far. -/
def stream (s : Sender α) : List α := s.sent ++ s.queued

/-- The credit granted so far. -/
def granted (s : Sender α) : Nat := s.sent.length + s.credit

def Settled (s : Sender α) : Prop := s.queued ≠ [] → s.credit = 0

/-- Send as much as the credit allows. -/
def pump (s : Sender α) : Sender α where
  sent := s.sent ++ s.queued.take s.credit
  queued := s.queued.drop s.credit
  credit := s.credit - s.queued.length

/-- Items are submitted behind those that wait. -/
def submit (xs : List α) (s : Sender α) : Sender α := pump { s with queued := s.queued ++ xs }

/-- The peer grants more credit. -/
def grant (n : Nat) (s : Sender α) : Sender α := pump { s with credit := s.credit + n }

@[ext] theorem ext {s t : Sender α} (hsent : s.sent = t.sent) (hqueued : s.queued = t.queued)
    (hcredit : s.credit = t.credit) : s = t := by
  cases s
  cases t
  simp_all

@[simp] theorem stream_pump (s : Sender α) : s.pump.stream = s.stream := by
  simp [stream, pump, List.append_assoc, List.take_append_drop]

@[simp] theorem granted_pump (s : Sender α) : s.pump.granted = s.granted := by
  simp only [granted, pump, List.length_append, List.length_take]
  omega

theorem settled_pump (s : Sender α) : s.pump.Settled := by
  intro hq
  have hlen : s.credit < s.queued.length := by
    by_contra hle
    exact hq (List.drop_eq_nil_of_le (by omega))
  simp only [pump]
  omega

@[simp] theorem stream_submit (xs : List α) (s : Sender α) :
    (s.submit xs).stream = s.stream ++ xs := by
  rw [submit, stream_pump]
  simp [stream]

@[simp] theorem granted_submit (xs : List α) (s : Sender α) :
    (s.submit xs).granted = s.granted := by
  rw [submit, granted_pump]
  rfl

theorem settled_submit (xs : List α) (s : Sender α) : (s.submit xs).Settled := settled_pump _

@[simp] theorem stream_grant (n : Nat) (s : Sender α) : (s.grant n).stream = s.stream := by
  rw [grant, stream_pump]
  rfl

@[simp] theorem granted_grant (n : Nat) (s : Sender α) :
    (s.grant n).granted = s.granted + n := by
  rw [grant, granted_pump]
  simp only [granted]
  omega

theorem settled_grant (n : Nat) (s : Sender α) : (s.grant n).Settled := settled_pump _

theorem sent_prefix_stream (s : Sender α) : s.sent <+: s.stream := List.prefix_append _ _

/-- A settled sender is determined by what it was given: items and credit. -/
theorem eq_of_settled {s t : Sender α} (hs : s.Settled) (ht : t.Settled)
    (hstream : s.stream = t.stream) (hgranted : s.granted = t.granted) : s = t := by
  have hlen : s.sent.length + s.queued.length = t.sent.length + t.queued.length := by
    simpa [stream] using congrArg List.length hstream
  simp only [granted] at hgranted
  have hq : ∀ u : Sender α, u.Settled → u.queued.length = 0 ∨ u.credit = 0 := by
    intro u hu
    by_cases hnil : u.queued = []
    · exact .inl (by simp [hnil])
    · exact .inr (hu hnil)
  have hsent : s.sent.length = t.sent.length := by
    rcases hq s hs with h | h <;> rcases hq t ht with h' | h' <;> omega
  obtain ⟨h₁, h₂⟩ := List.append_inj hstream hsent
  exact ext h₁ h₂ (by omega)

end Sender

end Edgessh.Credit
