import Edgessh.Lib.Run
import Mathlib.Logic.Function.Basic

/-!
# The records of the passkey routes

The routes under `/register` and `/login` share two kinds of KV records: `user:owner`, and
`challenge:<id>` for a challenge that has been handed out. A single `get`, `put` or `delete` is
atomic; between two of them any other request may go on.
-/

namespace Edgessh.Worker.Passkey

abbrev RequestId := Nat

abbrev ChallengeId := Nat

structure StoredCredential where
  id : String
  /-- base64url -/
  publicKey : String
  counter : Nat
  transports : Option (List String)
  deriving DecidableEq, Repr

/-- `UserRecord`; its `id` and `type` are the same for every owner. -/
structure UserRecord where
  credentials : List StoredCredential
  createdAt : Nat
  deriving DecidableEq, Repr

inductive ChallengeType where
  | registration
  | authentication
  deriving DecidableEq, Repr

structure StoredChallenge where
  challenge : String
  type : ChallengeType
  deriving DecidableEq, Repr

structure Kv where
  owner : Option UserRecord
  challenges : ChallengeId → Option StoredChallenge

namespace Kv

def putOwner (user : UserRecord) (kv : Kv) : Kv := { kv with owner := some user }

def putChallenge (id : ChallengeId) (stored : StoredChallenge) (kv : Kv) : Kv :=
  { kv with challenges := Function.update kv.challenges id (some stored) }

/-- `delete`, and what happens when the record's five minutes are over. -/
def deleteChallenge (id : ChallengeId) (kv : Kv) : Kv :=
  { kv with challenges := Function.update kv.challenges id none }

@[simp] theorem deleteChallenge_self (id : ChallengeId) (kv : Kv) :
    (kv.deleteChallenge id).challenges id = none := by
  simp [deleteChallenge]

theorem deleteChallenge_of_ne {id id' : ChallengeId} (h : id' ≠ id) (kv : Kv) :
    (kv.deleteChallenge id).challenges id' = kv.challenges id' := by
  simp [deleteChallenge, h]

theorem putChallenge_of_ne {id id' : ChallengeId} (h : id' ≠ id) (stored : StoredChallenge)
    (kv : Kv) : (kv.putChallenge id stored).challenges id' = kv.challenges id' := by
  simp [putChallenge, h]

end Kv

end Edgessh.Worker.Passkey
