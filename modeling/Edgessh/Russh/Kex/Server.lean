import Edgessh.Russh.Kex.Progress

/-!
# The server's key exchange

`server/kex.rs`. `lookupDhGexGroup` is what the handler answers.
-/

namespace Edgessh.Russh
open Edgessh.Command

inductive ServerKexState where
  | created
  | waitingForGexRequest (names : Names) (kex : KexAlgorithm)
  | waitingForDhInit (names : Names) (kex : KexAlgorithm)
  | waitingForNewKeys (newkeys : NewKeys)
  deriving DecidableEq

structure ServerKex where
  exchange : Exchange
  cause : KexCause
  state : ServerKexState
  config : ServerConfig
  deriving DecidableEq

/-- `Handler::lookup_dh_gex_group`. -/
abbrev LookupDhGexGroup := GexParams → Except Error (Option NamedGroup)

namespace ServerKex

/-- `ServerKex::new`. -/
def new (config : ServerConfig) (clientSshid : Bytes) (cause : KexCause) : ServerKex where
  exchange := { clientId := clientSshid, serverId := config.serverId }
  cause := cause
  state := .created
  config := config

/-- `ServerKex::kexinit`. -/
def kexinit (P : Primitives) (rng : Entropy) (self : ServerKex) : WriterM ServerKex := do
  let w ← get
  let (w, payload) ← ofExcept (writeKex P rng self.config.preferred (some self.config.keys) w)
  set w
  pure { self with exchange := { self.exchange with serverKexInit := payload } }

/-- `step` in the state `Created`: the client's KEXINIT is expected. -/
def stepCreated (P : Primitives) (self : ServerKex) (input : IncomingSshPacket) :
    WriterM (KexProgress ServerKex) := do
  if input.buffer.head? ≠ some Msg.kexInit then throw (Exn.error .kexInit)
  let exchange :=
    { self.exchange with clientKexInit := self.exchange.clientKexInit ++ input.buffer }
  let names ← ofExcept ((readKex .server input.buffer self.config.preferred
    (some self.config.keys) self.cause).mapError Exn.error)
  if names.strictKex && !self.cause.isRekey && input.seqn != 1 then
    throw (Exn.error (strictKexViolation Msg.kexInit input.seqn))
  let some kex := KexAlgorithm.make names.kex | throw (Exn.error .unknownAlgo)
  if kex.skipExchange then
    let newkeys ← ofExcept (newKeys P .server [] kex names exchange self.cause.sessionId)
    outputPacket P .newKeys
    pure (.done none newkeys)
  else if kex.isDhGex then
    pure (.needsReply { self with exchange, state := .waitingForGexRequest names kex } false)
  else
    pure (.needsReply { self with exchange, state := .waitingForDhInit names kex } false)

/-- `step` in the state `WaitingForGexRequest`. -/
def stepGexRequest (P : Primitives) (lookupDhGexGroup : LookupDhGexGroup) (self : ServerKex)
    (names : Names) (kex : KexAlgorithm) (input : IncomingSshPacket) :
    WriterM (KexProgress ServerKex) := do
  if input.buffer.head? ≠ some Msg.kexDhGexRequest then throw (Exn.error .kexInit)
  let gexParams ← ofExcept ((GexParams.decode (input.buffer.drop 1)).mapError Exn.error)
  let some dhGroup ← ofExcept ((lookupDhGexGroup gexParams).mapError Exn.error)
    | throw (Exn.error .kex)
  let kex ← ofExcept (kex.dhGexSetGroup dhGroup.group dhGroup.le_prime)
  outputPacket P (.kex (Msg.kexDhGexGroup :: encodeBytes (biguintToMpint dhGroup.group.prime) ++
    encodeBytes (biguintToMpint dhGroup.group.generator)))
  pure (.needsReply
    { self with
      exchange := { self.exchange with gex := some (gexParams, dhGroup.group) }
      state := .waitingForDhInit names kex } false)

/-- The first byte of the packet that is expected. -/
def expectedInit (kex : KexAlgorithm) : UInt8 :=
  if kex.isDhGex then Msg.kexDhGexInit else Msg.kexEcdhInit

/-- `step` in the state `WaitingForDhInit`: the exchange hash is signed. -/
def stepDhInit (P : Primitives) (rng : Entropy) (self : ServerKex) (names : Names)
    (kex : KexAlgorithm) (input : IncomingSshPacket) : WriterM (KexProgress ServerKex) := do
  if names.ignoreGuessed then
    pure (.needsReply
      { self with state := .waitingForDhInit { names with ignoreGuessed := false } kex } false)
  else
    if input.buffer.head? ≠ some (expectedInit kex) then throw (Exn.error .kexInit)
    let (clientEphemeral, _) ← ofExcept ((decodeBytes (input.buffer.drop 1)).mapError fun e =>
      Exn.error (.sshEncoding e))
    let exchange :=
      { self.exchange with clientEphemeral := self.exchange.clientEphemeral ++ clientEphemeral }
    let (kex, exchange) ← ofExcept (kex.serverDh P rng exchange input.buffer)
    let some key := self.config.keys.find? fun key => isKeyCompatibleWithAlgo key names.key
      | throw (Exn.error .unknownKey)
    let signatureHashAlg :=
      match names.key with
      | .rsa hash => hash
      | _ => none
    let hash ← ofExcept
      (kex.computeExchangeHash P (encodeBytes key.publicKey.blob) exchange)
    let signature ← ofExcept ((P.sign key signatureHashAlg hash).mapError Exn.error)
    let reply := if kex.isDhGex then Msg.kexDhGexReply else Msg.kexEcdhReply
    outputPacket P (.kex (reply :: encodeBytes key.publicKey.blob ++
      encodeBytes exchange.serverEphemeral ++ encodeBytes signature))
    outputPacket P .newKeys
    let newkeys ← ofExcept (newKeys P .server hash kex names exchange self.cause.sessionId)
    let resetSeqn := newkeys.names.strictKex || self.cause.isStrictRekey
    pure (.needsReply { self with exchange, state := .waitingForNewKeys newkeys } resetSeqn)

/-- `step` in the state `WaitingForNewKeys`. -/
def stepNewKeys (newkeys : NewKeys) (input : IncomingSshPacket) :
    WriterM (KexProgress ServerKex) := do
  if input.buffer.head? ≠ some Msg.newKeys then throw (Exn.error .kex)
  pure (.done none newkeys)

/-- `ServerKex::step`. -/
def step (P : Primitives) (lookupDhGexGroup : LookupDhGexGroup) (rng : Entropy)
    (self : ServerKex) (input : Option IncomingSshPacket) :
    WriterM (KexProgress ServerKex) := do
  let some input := input | throw (Exn.error .kexInit)
  match self.state with
  | .created => self.stepCreated P input
  | .waitingForGexRequest names kex => self.stepGexRequest P lookupDhGexGroup names kex input
  | .waitingForDhInit names kex => self.stepDhInit P rng names kex input
  | .waitingForNewKeys newkeys => stepNewKeys newkeys input

end ServerKex

end Edgessh.Russh
