import Edgessh.Russh.Kex.Progress

/-!
# The client's key exchange

`client/kex.rs`.
-/

namespace Edgessh.Russh
open Edgessh.Command

inductive ClientKexState where
  | created
  | waitingForGexReply (names : Names) (kex : KexAlgorithm)
  | waitingForDhReply (names : Names) (kex : KexAlgorithm)
  | waitingForNewKeys (serverHostKey : PublicKey) (newkeys : NewKeys)
  deriving DecidableEq

structure ClientKex where
  exchange : Exchange
  cause : KexCause
  state : ClientKexState
  config : ClientConfig
  deriving DecidableEq

namespace ClientKex

/-- `ClientKex::new`. -/
def new (config : ClientConfig) (serverSshid : Bytes) (cause : KexCause) : ClientKex where
  exchange := { clientId := config.clientId, serverId := serverSshid }
  cause := cause
  state := .created
  config := config

/-- `ClientKex::kexinit`. -/
def kexinit (P : Primitives) (rng : Entropy) (self : ClientKex) : WriterM ClientKex := do
  let w ← get
  let (w, payload) ← ofExcept (writeKex P rng self.config.preferred none w)
  set w
  pure { self with exchange := { self.exchange with clientKexInit := payload } }

theorem kexinit_eq_ok {P : Primitives} {rng : Entropy} {self kex : ClientKex}
    {w w' : PacketWriter} (h : self.kexinit P rng w = .ok kex w') :
    (kex.state = self.state ∧ kex.cause = self.cause ∧ kex.config = self.config) ∧
      ∃ payload, w.packetRaw P (.kexInit payload) = .ok w' := by
  obtain ⟨w₁, w₂, hget, h₁⟩ := bind_eq_ok'.mp h
  cases hget
  obtain ⟨⟨w₃, payload⟩, w₄, hwrite, h₂⟩ := bind_eq_ok'.mp h₁
  obtain ⟨hwrite, rfl⟩ := ofExcept_eq_ok.mp hwrite
  obtain ⟨_, w₅, hset, h₃⟩ := bind_eq_ok'.mp h₂
  cases hset
  obtain ⟨rfl, rfl⟩ := pure_eq_ok'.mp h₃
  obtain ⟨w₆, hraw, hdone⟩ := bind_eq_ok.mp hwrite
  cases hdone
  exact ⟨⟨rfl, rfl, rfl⟩, _, hraw⟩

/-- `step` in the state `Created`: the server's KEXINIT is expected. -/
def stepCreated (P : Primitives) (rng : Entropy) (self : ClientKex) (input : IncomingSshPacket) :
    WriterM (KexProgress ClientKex) := do
  if input.buffer.head? ≠ some Msg.kexInit then throw (Exn.error .kexInit)
  let exchange :=
    { self.exchange with serverKexInit := self.exchange.serverKexInit ++ input.buffer }
  let names ← ofExcept ((readKex .client input.buffer self.config.preferred none
    self.cause).mapError Exn.error)
  if names.strictKex && !self.cause.isRekey && input.seqn != 1 then
    throw (Exn.error (strictKexViolation Msg.kexInit input.seqn))
  let some kex := KexAlgorithm.make names.kex | throw (Exn.error .unknownAlgo)
  if kex.skipExchange then
    let newkeys ← ofExcept (newKeys P .client [] kex names exchange self.cause.sessionId)
    outputPacket P .newKeys
    pure (.done none newkeys)
  else if kex.isDhGex then
    let payload ← ofExcept (kex.clientDhGexInit self.config.gex)
    outputPacket P (.kex payload)
    pure (.needsReply { self with exchange, state := .waitingForGexReply names kex } false)
  else
    let (kex, clientEphemeral, payload) ←
      ofExcept (kex.clientDh P rng exchange.clientEphemeral)
    outputPacket P (.kex payload)
    pure (.needsReply
      { self with
        exchange := { exchange with clientEphemeral }
        state := .waitingForDhReply names kex } false)

/-- `step` in the state `WaitingForGexReply`. -/
def stepGexReply (P : Primitives) (rng : Entropy) (self : ClientKex) (names : Names)
    (kex : KexAlgorithm) (input : IncomingSshPacket) : WriterM (KexProgress ClientKex) := do
  if input.buffer.head? ≠ some Msg.kexDhGexGroup then throw (Exn.error .kexInit)
  let (prime, r) ← ofExcept ((decodeMpint (input.buffer.drop 1)).mapError fun e =>
    Exn.error (.sshEncoding e))
  let (generator, _) ← ofExcept ((decodeMpint r).mapError fun e =>
    Exn.error (.sshEncoding e))
  let group : DhGroup := ⟨natOfBytes prime, natOfBytes generator⟩
  if h : group.bitSize < self.config.gex.minGroupSize ∨
      self.config.gex.maxGroupSize < group.bitSize then
    throw (Exn.error .kexInit)
  else
    have hmin : 2048 ≤ group.bitSize := self.config.gex.le_of_accepted h
    let kex ← ofExcept (kex.dhGexSetGroup group (DhGroup.le_prime hmin))
    let (kex, clientEphemeral, payload) ←
      ofExcept (kex.clientDh P rng self.exchange.clientEphemeral)
    outputPacket P (.kex payload)
    pure (.needsReply
      { self with
        exchange := { self.exchange with gex := some (self.config.gex, group), clientEphemeral }
        state := .waitingForDhReply names kex } false)

/-- The first byte of the reply that is expected. -/
def expectedReply (kex : KexAlgorithm) : UInt8 :=
  if kex.isDhGex then Msg.kexDhGexReply else Msg.kexEcdhReply

/-- `step` in the state `WaitingForDhReply`: the signature of the server over the exchange hash
is verified. -/
def stepDhReply (P : Primitives) (self : ClientKex) (names : Names) (kex : KexAlgorithm)
    (input : IncomingSshPacket) : WriterM (KexProgress ClientKex) := do
  if names.ignoreGuessed then
    pure (.needsReply
      { self with state := .waitingForDhReply { names with ignoreGuessed := false } kex } false)
  else
    if input.buffer.head? ≠ some (expectedReply kex) then throw (Exn.error .kexInit)
    let (hostKey, r) ← ofExcept ((decodeBytes (input.buffer.drop 1)).mapError fun e =>
      Exn.error (.sshEncoding e))
    let some serverHostKey := P.decodePublicKey hostKey | throw (Exn.error .keys)
    let (serverEphemeral, r) ← ofExcept ((decodeBytes r).mapError fun e =>
      Exn.error (.sshEncoding e))
    let exchange :=
      { self.exchange with serverEphemeral := self.exchange.serverEphemeral ++ serverEphemeral }
    let kex ← ofExcept (kex.computeSharedSecret P exchange.serverEphemeral)
    let hash ← ofExcept
      (kex.computeExchangeHash P (encodeBytes serverHostKey.blob) exchange)
    let (signature, _) ← ofExcept ((decodeBytes r).mapError fun e =>
      Exn.error (.sshEncoding e))
    unless P.signatureDecodes signature do throw (Exn.error .sshKey)
    unless P.verify serverHostKey hash signature do throw (Exn.error .wrongServerSig)
    modify (PacketWriter.record (.verified serverHostKey hash))
    let newkeys ← ofExcept
      (newKeys P .client hash kex names exchange self.cause.sessionId)
    outputPacket P .newKeys
    let resetSeqn := newkeys.names.strictKex || self.cause.isStrictRekey
    pure (.needsReply
      { self with exchange, state := .waitingForNewKeys serverHostKey newkeys } resetSeqn)

/-- `step` in the state `WaitingForNewKeys`. -/
def stepNewKeys (serverHostKey : PublicKey) (newkeys : NewKeys) (input : IncomingSshPacket) :
    WriterM (KexProgress ClientKex) := do
  if input.buffer.head? ≠ some Msg.newKeys then throw (Exn.error .kex)
  pure (.done (some serverHostKey) newkeys)

/-- `ClientKex::step`. -/
def step (P : Primitives) (rng : Entropy) (self : ClientKex) (input : Option IncomingSshPacket) :
    WriterM (KexProgress ClientKex) := do
  let some input := input | throw (Exn.error .kexInit)
  match self.state with
  | .created => self.stepCreated P rng input
  | .waitingForGexReply names kex => self.stepGexReply P rng names kex input
  | .waitingForDhReply names kex => self.stepDhReply P names kex input
  | .waitingForNewKeys serverHostKey newkeys => stepNewKeys serverHostKey newkeys input

end ClientKex

end Edgessh.Russh
