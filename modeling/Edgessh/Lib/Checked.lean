import Edgessh.Lib.Command

/-!
# Checked arithmetic

Additions and subtractions of machine words that throw where the result does not fit, as a build
with overflow checks has them. The exception is a parameter.
-/

namespace Edgessh.Checked

variable {ε : Type} (e : ε)

/-- `a + b`, if it fits. -/
def addU32 (a b : UInt32) : Except ε UInt32 :=
  if a.toNat + b.toNat < UInt32.size then pure (a + b) else throw e

/-- `a - b`, if it fits. -/
def subU32 (a b : UInt32) : Except ε UInt32 :=
  if b.toNat ≤ a.toNat then pure (a - b) else throw e

variable {e} {a b c : UInt32}

theorem addU32_eq_ok : addU32 e a b = .ok c ↔ a.toNat + b.toNat < UInt32.size ∧ c = a + b := by
  unfold addU32
  split
  · rename_i h
    simp [h, pure, Except.pure, eq_comm]
  · rename_i h
    simp [h, throw, throwThe, MonadExceptOf.throw]

theorem addU32_of_lt (h : a.toNat + b.toNat < UInt32.size) : addU32 e a b = .ok (a + b) :=
  addU32_eq_ok.mpr ⟨h, rfl⟩

theorem subU32_eq_ok : subU32 e a b = .ok c ↔ b.toNat ≤ a.toNat ∧ c = a - b := by
  unfold subU32
  split
  · rename_i h
    simp [h, pure, Except.pure, eq_comm]
  · rename_i h
    simp [h, throw, throwThe, MonadExceptOf.throw]

theorem subU32_of_le (h : b.toNat ≤ a.toNat) : subU32 e a b = .ok (a - b) :=
  subU32_eq_ok.mpr ⟨h, rfl⟩

end Edgessh.Checked
