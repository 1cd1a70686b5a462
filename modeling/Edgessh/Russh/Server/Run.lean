import Edgessh.Lib.Run
import Edgessh.Russh.Server.Encrypted
import Edgessh.Russh.Session.Turn

/-!
# The server's event loop

`process_packet` of `server/encrypted.rs`, `reply` of `server/mod.rs` and `run` of
`server/session.rs`. An input is what one turn of the loop waits for; the messages that a handle
sends are inputs too. The wait before a rejection is not modelled, and neither is the stream.
-/

namespace Edgessh.Russh
open Edgessh.Command

/-- The commands of the server session. -/
abbrev ServerM := SessionM ServerKex ServerConfig ServerOwn

namespace Server
open AppM

variable (P : Primitives)

section Packet

/-- The application is told that the client has been authenticated. -/
def tellAuthSucceeded (env : ServerEnv) : ServerAppM P Unit := do
  observe (.serverCallback .authSucceeded) rfl
  discard (respond env .authSucceeded)

/-- What follows an accepted authentication. -/
def succeedIfAccepted (env : ServerEnv) : ServerM Unit := do
  let s ← get
  match s.common.encrypted with
  | none => pure ()
  | some enc =>
    if enc.state = .initCompression then
      (AuthM.setState fun enc => (enc.state, enc.clientCompression.initDecompress)).run
      (tellAuthSucceeded P env).run

/-- `process_packet` while a request is waited for. -/
def processAuth (env : ServerEnv) (enc : Encrypted) (request : AuthRequest) (buf : Bytes) (msg : UInt8)
    (r : Bytes) : ServerM Unit :=
  if msg = Msg.userauthRequest then do
    (readAuthRequest P env buf enc request r).run
    AuthM.countAttempt.run
    succeedIfAccepted P env
  else if msg = Msg.userauthInfoResponse then do
    (readUserauthInfoResponse env request r).run
    succeedIfAccepted P env
  else pure ()

/-- The compression of what is sent begins with the first packet after the authentication. -/
def initCompression (s : ServerSession) : ServerSession :=
  match s.common.encrypted with
  | some enc =>
    (s.setWriter
        { s.common.packetWriter with compress := enc.serverCompression.initCompress }).setEncrypted
      { enc with state := .authenticated }
  | none => s

/-- `process_packet`, by the state of the authentication. -/
def processEncrypted (env : ServerEnv) (enc : Encrypted) : Bytes → ServerM Unit
  | [] => pure ()
  | msg :: r =>
    match enc.state with
    | .waitingAuthServiceRequest _ _ =>
      if msg = Msg.serviceRequest then (readServiceRequest env r).run else pure ()
    | .waitingAuthRequest request => processAuth P env enc request (msg :: r) msg r
    | .initCompression => do
      modify initCompression
      (readAuthenticated (P := P) env msg r).run
    | .authenticated => (readAuthenticated (P := P) env msg r).run

/-- `process_packet`. -/
def processPacket (env : ServerEnv) (buf : Bytes) : ServerM Unit := do
  let s ← get
  match s.common.encrypted with
  | none => throw (Exn.error .inconsistent)
  | some enc => processEncrypted P env enc buf

end Packet

/-- `begin_rekey`. -/
def beginRekey (env : ServerEnv) : ServerM Unit := beginRekeyWith serverStart P env.entropy

section Reply

/-- The order of the messages is checked while there are no keys, if strict kex is known. -/
def checkStrict : IncomingSshPacket → ServerM Unit :=
  checkStrictWith Msg.validateClientMsgStrictKex

/-- The client's KEXINIT offers the extension negotiation. -/
def hasKeyExtensionClient (exchange : Exchange) : Bool :=
  if exchange.clientKexInit.length < 17 then false
  else
    match decodeString (exchange.clientKexInit.drop 17) with
    | .ok (kexString, _) =>
      (select .server KexName.name [.extensionSupportAsClient] (splitNames kexString) .kex).isOk
    | .error _ => false

/-- `maybe_send_ext_info`. -/
def maybeSendExtInfo : ServerAppM P Unit := do
  let s ← Confined.read
  match s.common.encrypted with
  | none => pure ()
  | some enc =>
    if enc.exchange.any hasKeyExtensionClient then
      push (.extInfo (ascii "server-sig-algs")
        (joinNames (s.common.config.preferred.key.map Algorithm.name))) rfl

/-- The keys of the initial exchange are taken into use. -/
def initKeys (newkeys : NewKeys) (now : Nat) (s : ServerSession) : ServerSession :=
  { s with common :=
    s.common.initEncrypted (.waitingAuthServiceRequest false false) newkeys now }

/-- What a rekey does before it looks at the packets that have been held back. -/
def resumeAfterRekey (env : ServerEnv) : ServerAppM P Unit := do
  let s ← Confined.read
  setFields (fun enc => { enc with lastRekey := env.now s }) fun _ =>
    .of_eq rfl rfl rfl rfl rfl rfl rfl
  flushAllPending env.tableOrder

/-- The packets that have been held back during a rekey. -/
def processPending (env : ServerEnv) : List Bytes → ServerM Unit
  | [] => pure ()
  | p :: ps => do
    processPacket P env p
    processPending env ps

/-- The new keys are taken into use. -/
def installKeys (env : ServerEnv) (newkeys : NewKeys) : ServerM Unit := do
  let s ← get
  match s.common.encrypted with
  | some _ =>
    modify fun s => s.setWriter { s.common.packetWriter with bytes := 0 }
    (resumeAfterRekey P env).run
    let s ← get
    processPending P env s.pendingReads
    modify fun s => { s with pendingReads := [], common := s.common.newkeys newkeys }
    (flush (P := P) env).run
  | none =>
    modify fun s => initKeys newkeys (env.now s) s
    (maybeSendExtInfo P).run

/-- The end of an exchange. -/
def kexDone (env : ServerEnv) (newkeys : NewKeys) : ServerM Unit := do
  modify fun s => { s with common := { s.common with
    strictKex := s.common.strictKex || newkeys.names.strictKex } }
  installKeys P env newkeys
  modify fun s => { s with kex := .idle }

/-- A packet for the exchange that is under way; the number of the next packet. -/
def kexReply (env : ServerEnv) (kex : ServerKex) (pkt : IncomingSshPacket) : ServerM UInt32 := do
  let s ← get
  match ← onWriter (kex.step P (env.lookupDhGexGroup s) (env.entropy s) (some pkt)) with
  | .needsReply kex resetSeqn =>
    modify (continueKex kex resetSeqn)
    (flush (P := P) env).run
    pure pkt.seqn
  | .done _ newkeys =>
    kexDone P env newkeys
    let s ← get
    (flush (P := P) env).run
    pure (if s.common.strictKex then 0 else pkt.seqn)

/-- A KEXINIT of the client begins a rekey, if none is under way. -/
def beginIfAsked (env : ServerEnv) (buffer : Bytes) : ServerM Unit := do
  let s ← get
  if buffer.head? = some Msg.kexInit ∧ s.kex.active = false then beginRekey P env else pure ()

/-- `reply`, once the order of the messages is checked. -/
def dispatch (env : ServerEnv) (pkt : IncomingSshPacket) : ServerM UInt32 := do
  beginIfAsked P env pkt.buffer
  match ← takeKexFor pkt.buffer with
  | some kex => kexReply P env kex pkt
  | none =>
    processPacket P env pkt.buffer
    pure pkt.seqn

/-- `reply`; the number of the next packet. -/
def reply (env : ServerEnv) (pkt : IncomingSshPacket) : ServerM UInt32 := do
  checkStrict pkt
  if isSkipped pkt.buffer then pure pkt.seqn else dispatch P env pkt

end Reply

section Loop

/-- A packet has been read; `seqn` is the number of the next one. -/
def readPacket (env : ServerEnv) (seqn : UInt32) (payload : Bytes) : ServerM TurnResult := do
  let pkt ← maybeDecompress P seqn payload
  match pkt.buffer with
  | [] => pure (.next seqn)
  | msg :: _ =>
    modify (Session.record (.received pkt.buffer))
    if msg = Msg.disconnect then pure .stop
    else
      modify fun s => { s with common := { s.common with receivedData := true } }
      let seqn ← reply P env pkt
      pure (.next seqn)

/-- The timer of the keepalive. -/
def keepaliveTimer : ServerM Unit := do
  modify fun s =>
    { s with common := { s.common with aliveTimeouts := s.common.aliveTimeouts + 1 } }
  let s ← get
  if s.common.config.keepaliveMax ≠ 0 ∧ s.common.config.keepaliveMax < s.common.aliveTimeouts then
    throw (Exn.error .keepaliveTimeout)
  (keepaliveRequest (P := P)).run

/-- A message of the handles is taken. -/
def takeMessage : ServerM Unit := do
  let s ← get
  match s.own.receiver with
  | [] => pure ()
  | m :: ms =>
    set { s with own := { s.own with receiver := ms } }
    (handleMsg (P := P) m).run

/-- What the loop may wait for. -/
inductive ServerInput where
  /-- The payload of a packet that has been opened. -/
  | packet (payload : Bytes)
  /-- The stream has ended before a packet. -/
  | shortPacket
  | readError (e : Error)
  | keepaliveTimer
  | inactivityTimer
  /-- The loop takes a message of the handles. -/
  | receive
  /-- A handle sends a message. -/
  | send (m : ServerMsg)
  deriving DecidableEq

/-- The state of `run`: `seqn` is the number of the next packet of the peer, `result` what is
returned when the loop ends. -/
structure ServerLoop where
  session : ServerSession
  seqn : UInt32 := 0
  result : Except Exn Unit := .ok ()
  running : Bool := true

/-- What the `select!` of a turn does. -/
def select (env : ServerEnv) (seqn : UInt32) : ServerInput → ServerM TurnResult
  | .packet payload => readPacket P env (seqn + 1) payload
  | .shortPacket => pure .stop
  | .readError e => throw (Exn.error e)
  | .keepaliveTimer => do
    keepaliveTimer P
    pure (.next seqn)
  | .inactivityTimer => throw (Exn.error .inactivityTimeout)
  | .receive => do
    takeMessage P
    pure (.next seqn)
  | .send _ => pure (.next seqn)

/-- Whether the `select!` may take the input. -/
def enabled (s : ServerSession) : ServerInput → Bool
  | .keepaliveTimer => s.common.config.keepaliveInterval.isSome
  | .inactivityTimer => s.common.config.inactivityTimeout.isSome
  | .receive => !s.kex.active && !s.own.receiver.isEmpty
  | _ => true

/-- What every turn ends with. -/
def endTurn (env : ServerEnv) : ServerM Unit := do
  (flush (P := P) env).run
  modify fun s =>
    if s.common.receivedData then { s with common := { s.common with aliveTimeouts := 0 } } else s

/-- A turn of the loop. -/
def turn (env : ServerEnv) (seqn : UInt32) (input : ServerInput) : ServerM TurnResult := do
  modify fun s => { s with common := { s.common with receivedData := false } }
  let result ← select P env seqn input
  match result with
  | .stop => pure ()
  | _ => endTurn P env
  pure result

/-- The loop after a turn. -/
def afterTurn (l : ServerLoop) : EStateM.Result Exn ServerSession TurnResult → ServerLoop
  | .error e s => { l with session := s, result := .error e, running := false }
  | .ok .stop s => { l with session := s, running := false }
  | .ok (.disconnected result) s => { l with session := s, result, running := false }
  | .ok (.next seqn) s => { l with session := s, seqn, running := !s.common.disconnected }

/-- One step of a server: a message is sent to the loop, or the loop takes a turn. -/
def step (l : ServerLoop) : ServerEnv × ServerInput → Option ServerLoop
  | (env, input) =>
    if l.running && enabled l.session input then
      match input with
      | .send m => some { l with session := { l.session with
          own := { l.session.own with receiver := l.session.own.receiver ++ [m] } } }
      | _ => some (afterTurn l (turn P env l.seqn input l.session))
    else none

/-- The session that `run_stream` makes, once the identification of the client is read. -/
def newSession (config : ServerConfig) (remoteSshid : Bytes) : ServerSession where
  common := { remoteSshid, config }
  targetWindowSize := config.windowSize
  own := {}

/-- `run_stream`, up to the first turn of the loop. -/
def start (env : ServerEnv) (config : ServerConfig) (remoteSshid : Bytes) : ServerLoop :=
  match (do beginRekey P env; (flush (P := P) env).run) (newSession config remoteSshid) with
  | .ok () session => { session }
  | .error e session => { session, result := .error e, running := false }

end Loop

end Server

end Edgessh.Russh
