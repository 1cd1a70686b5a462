import Edgessh.Lib.Command
import Edgessh.Russh.Config

/-!
# What the two key exchange machines share

`NewKeys`, `KexProgress` and `SessionKexState`. A machine runs in a monad whose state is the
packet writer it seals its packets with.
-/

namespace Edgessh.Russh
open Edgessh.Command

/-- `sshbuffer.rs`, `IncomingSshPacket`; `seqn` is already the number of the next packet. -/
structure IncomingSshPacket where
  buffer : Bytes
  seqn : UInt32
  deriving DecidableEq, Repr

/-- `session.rs`, `NewKeys`. -/
structure NewKeys where
  exchange : Exchange
  names : Names
  kex : KexAlgorithm
  cipher : CipherPair
  sessionId : Bytes
  deriving DecidableEq

/-- `KexProgress`. -/
inductive KexProgress (K : Type) where
  | needsReply (kex : K) (resetSeqn : Bool)
  | done (serverHostKey : Option PublicKey) (newkeys : NewKeys)

/-- `SessionKexState`. -/
inductive SessionKexState (K : Type) where
  | idle
  | inProgress (kex : K)
  /-- A step of the machine is being worked on, or has failed. -/
  | taken

namespace SessionKexState

variable {K : Type}

/-- `active`. -/
def active : SessionKexState K → Bool
  | idle => false
  | inProgress _ => true
  | taken => true

end SessionKexState

abbrev WriterM := EStateM Exn PacketWriter

/-- `output.packet`. -/
def outputPacket (P : Primitives) (message : Message) : WriterM Unit := do
  let w ← get
  set (← ofExcept (w.packetRaw P message))

theorem outputPacket_eq_ok {P : Primitives} {message : Message} {w w' : PacketWriter} {u : Unit}
    (h : outputPacket P message w = .ok u w') : w.packetRaw P message = .ok w' := by
  obtain ⟨w₁, w₂, hget, hrest⟩ := bind_eq_ok'.mp h
  cases hget
  obtain ⟨w₃, w₄, hraw, hset⟩ := bind_eq_ok'.mp hrest
  obtain ⟨hok, rfl⟩ := ofExcept_eq_ok.mp hraw
  cases hset
  exact hok

/-- A packet that cannot be compressed changes nothing. -/
theorem outputPacket_error {P : Primitives} {message : Message} {w w' : PacketWriter} {e : Exn}
    (h : outputPacket P message w = .error e w') : w' = w := by
  have hrun : outputPacket P message w =
      (ofExcept (w.packetRaw P message) >>= fun w => set w : WriterM Unit) w := rfl
  rw [hrun] at h
  cases hp : w.packetRaw P message with
  | ok v =>
    rw [hp] at h
    cases h
  | error e' =>
    rw [hp] at h
    cases h
    rfl

/-- `strict_kex_violation` for the packet before `seqn`, in the wrapping arithmetic of a release
build. -/
def strictKexViolation (messageType : UInt8) (seqn : UInt32) : Error :=
  .strictKeyExchangeViolation messageType ((seqn.toNat + 2 ^ 64 - 1) % 2 ^ 64)

/-- `compute_keys` of `client/kex.rs` and `server/kex.rs`: the first exchange hash becomes the
session id. The MAC from the peer stands first. -/
def newKeys (P : Primitives) (role : Role) (hash : Bytes) (kex : KexAlgorithm) (names : Names)
    (exchange : Exchange) (sessionId : Option Bytes) : Except Exn NewKeys := do
  let sessionId := sessionId.getD hash
  let (remoteToLocalMac, localToRemoteMac) :=
    match role with
    | .client => (names.serverMac, names.clientMac)
    | .server => (names.clientMac, names.serverMac)
  let cipher ← kex.computeKeys P sessionId hash names.cipher remoteToLocalMac localToRemoteMac
    (role = .server)
  pure { exchange, names, kex, cipher, sessionId }

/-- What `compute_keys` says of the exchange. -/
theorem newKeys_eq_ok {P : Primitives} {role : Role} {hash : Bytes} {kex : KexAlgorithm}
    {names : Names} {exchange : Exchange} {sessionId : Option Bytes} {newkeys : NewKeys}
    (h : newKeys P role hash kex names exchange sessionId = .ok newkeys) :
    newkeys.names = names ∧ newkeys.sessionId = sessionId.getD hash ∧ newkeys.kex = kex := by
  unfold newKeys at h
  obtain ⟨cipher, -, h⟩ := bind_eq_ok.mp h
  cases h
  exact ⟨rfl, rfl, rfl⟩

end Edgessh.Russh
