import Edgessh.Lib.Run
import Edgessh.Russh.Client.Encrypted
import Edgessh.Russh.Session.Turn

/-!
# The client's event loop

`client/mod.rs`: `handle_msg`, `begin_rekey`, `reply` and `run_inner`. An input is what one turn
of the loop waits for; the messages that a handle sends are inputs too. Every turn has its own
environment. Between two turns the bytes of the write buffer go to the stream, which is not
modelled.
-/

namespace Edgessh.Russh
open Edgessh.Command

/-- The commands of the client session. -/
abbrev ClientM := SessionM ClientKex ClientConfig ClientOwn

namespace Client
open AppM

variable (P : Primitives)

/-- `sent` is set when the SERVICE_REQUEST is sealed. -/
def requestService (enc : Encrypted) (accepted : Bool) : ClientM Unit := do
  onWriter (outputPacket P (.serviceRequest (ascii "ssh-userauth")))
  modify fun s => s.setEncrypted { enc with state := .waitingAuthServiceRequest true accepted }

/-- Whether a request may be written; the SERVICE_REQUEST goes first. -/
def isWaiting : ClientM Bool := do
  let s ← get
  match s.common.encrypted with
  | none => pure false
  | some enc =>
    match enc.state with
    | .waitingAuthRequest _ => pure true
    | .waitingAuthServiceRequest true accepted => pure accepted
    | .waitingAuthServiceRequest false accepted => do
      requestService P enc accepted
      pure accepted
    | .initCompression | .authenticated => pure false

def setAuthRequest (request : AuthRequest) (s : ClientSession) : ClientSession :=
  match s.common.encrypted with
  | some enc => s.setEncrypted { enc with state := .waitingAuthRequest request }
  | none => s

/-- If a request may be written it is, and is the current one. -/
def sendAuthRequest (waiting : Bool) (user : Bytes) (method : AuthMethod) : ClientM Unit :=
  if waiting then do
    (writeAuthRequest user method : ClientAppM P Unit).run
    modify (setAuthRequest (AuthRequest.new method))
  else pure ()

/-- `write_auth_request_if_needed`. -/
def writeAuthRequestIfNeeded (user : Bytes) (method : AuthMethod) : ClientM Bool := do
  let waiting ← isWaiting P
  sendAuthRequest P waiting user method
  modify fun s =>
    { s with common := { s.common with authUser := user, authMethod := some method } }
  pure waiting

/-- `handle_msg`, but for `Msg::Authenticate`. -/
def handleAppMsg (env : ClientEnv) : ClientMsg → ClientAppM P Unit
  | .authenticate _ _ => pure ()
  | .signed _ => pure ()
  | .authInfoResponse _ => pure ()
  | .channelOpenSession channelRef => discard (channelOpenSession (some channelRef))
  | .channelOpenX11 originatorAddress originatorPort channelRef =>
    discard (channelOpenX11 originatorAddress originatorPort (some channelRef))
  | .channelOpenDirectTcpIp hostToConnect portToConnect originatorAddress originatorPort
      channelRef =>
    discard (channelOpenDirectTcpip hostToConnect portToConnect originatorAddress originatorPort
      (some channelRef))
  | .channelOpenDirectStreamLocal socketPath channelRef =>
    discard (channelOpenDirectStreamlocal socketPath (some channelRef))
  | .tcpIpForward dest address port => tcpipForward dest address port
  | .cancelTcpIpForward dest address port => cancelTcpipForward dest address port
  | .streamLocalForward dest socketPath => streamlocalForward dest socketPath
  | .cancelStreamLocalForward dest socketPath => cancelStreamlocalForward dest socketPath
  | .disconnect reason description languageTag => disconnect reason description languageTag
  | .channel id msg => handleChannelMsg id msg
  | .rekey => initiateRekey env
  | .awaitExtensionInfo extensionName dest => do
    let some enc ← encrypted? | pure ()
    if extensionName ∉ enc.receivedExtensions ∧ enc.state ≠ .authenticated then
      setFields
        (fun enc => { enc with
          extensionInfoAwaiters := enc.extensionInfoAwaiters ++ [(extensionName, dest)] })
        fun _ => .of_eq rfl rfl rfl rfl rfl rfl rfl
  | .getServerSigAlgs dest => do
    let s ← Confined.read
    observe (.answer dest (.serverSigAlgs s.own.serverSigAlgs)) rfl
  | .keepalive wantReply => sendKeepalive wantReply
  | .ping dest => sendPing dest
  | .noMoreSessions wantReply => noMoreSessions wantReply
  | .close _ => throw Exn.panic

/-- `handle_msg`. -/
def handleMsg (env : ClientEnv) : ClientMsg → ClientM Unit
  | .authenticate user method => do
    let _ ← writeAuthRequestIfNeeded P user method
    pure ()
  | msg => (handleAppMsg P env msg).run

/-- `begin_rekey`. -/
def beginRekey (env : ClientEnv) : ClientM Unit := beginRekeyWith clientStart P env.entropy

section Reply

/-- The order of the messages is checked while there are no keys, if strict kex is known. -/
def checkStrict : IncomingSshPacket → ClientM Unit :=
  checkStrictWith Msg.validateServerMsgStrictKex

/-- `check_server_key`: a key that the application does not accept is an error. -/
def checkServerKey (env : ClientEnv) (key : PublicKey) : ClientM Unit := do
  modify (Session.record (.clientCallback (.checkServerKey key)))
  let s ← get
  let check ← ofExcept ((env.checkServerKey key s).mapError Exn.error)
  modify (Session.record (.serverKeyChecked key check))
  unless check do throw (Exn.error .unknownKey)

/-- The host key of the exchange is shown to the application, if it has one. -/
def checkHostKey (env : ClientEnv) : Option PublicKey → ClientM Unit
  | some key => checkServerKey env key
  | none => pure ()

/-- `initial_encrypted_state`. -/
def initialEncryptedState (s : ClientSession) : EncryptedState :=
  if s.common.config.anonymous then .authenticated else .waitingAuthServiceRequest false false

/-- The keys of the initial exchange are taken into use. -/
def initKeys (newkeys : NewKeys) (now : Nat) (s : ClientSession) : ClientSession :=
  { s with common := s.common.initEncrypted (initialEncryptedState s) newkeys now }

/-- What a rekey does before it looks at the packets that have been held back. -/
def resumeAfterRekey (env : ClientEnv) : ClientAppM P Unit := do
  let s ← Confined.read
  setFields (fun enc => { enc with lastRekey := env.now s }) fun _ =>
    .of_eq rfl rfl rfl rfl rfl rfl rfl
  flushAllPending env.tableOrder

/-- The packets that have been held back during a rekey. -/
def processPending (env : ClientEnv) : List Bytes → ClientM Unit
  | [] => pure ()
  | p :: ps => do
    modify Session.enter
    (processPacket (P := P) env p).run
    processPending env ps

/-- The new keys are taken into use. -/
def installKeys (env : ClientEnv) (serverHostKey : Option PublicKey) (newkeys : NewKeys) :
    ClientM Unit := do
  let s ← get
  match s.common.encrypted with
  | some _ =>
    modify fun s => s.setWriter { s.common.packetWriter with bytes := 0 }
    (resumeAfterRekey P env).run
    let s ← get
    processPending P env s.pendingReads
    modify fun s => { s with pendingReads := [], common := s.common.newkeys newkeys }
  | none =>
    checkHostKey env serverHostKey
    modify fun s => initKeys newkeys (env.now s) s

/-- The end of an exchange. -/
def kexDone (env : ClientEnv) (serverHostKey : Option PublicKey) (newkeys : NewKeys) :
    ClientM Unit := do
  modify fun s => { s with common := { s.common with
    strictKex := s.common.strictKex || newkeys.names.strictKex } }
  (callback env (.kexDone newkeys.kex.sharedSecretBytes newkeys.names) rfl :
    ClientAppM P Unit).run
  installKeys P env serverHostKey newkeys
  modify fun s => { s with kex := .idle }

/-- A packet for the exchange that is under way; the number of the next packet. -/
def kexReply (env : ClientEnv) (kex : ClientKex) (pkt : IncomingSshPacket) : ClientM UInt32 := do
  let s ← get
  match ← onWriter (kex.step P (env.entropy s) (some pkt)) with
  | .needsReply kex resetSeqn =>
    modify (continueKex kex resetSeqn)
    (flush (P := P) env).run
    pure pkt.seqn
  | .done serverHostKey newkeys =>
    kexDone P env serverHostKey newkeys
    let s ← get
    (flush (P := P) env).run
    pure (if s.common.strictKex then 0 else pkt.seqn)

/-- A KEXINIT of the server begins a rekey, if none is under way. -/
def beginIfAsked (env : ClientEnv) (buffer : Bytes) : ClientM Unit := do
  let s ← get
  if buffer.head? = some Msg.kexInit ∧ s.kex.active = false then beginRekey P env else pure ()

/-- `reply`, once the order of the messages is checked. -/
def dispatch (env : ClientEnv) (pkt : IncomingSshPacket) : ClientM UInt32 := do
  beginIfAsked P env pkt.buffer
  match ← takeKexFor pkt.buffer with
  | some kex => kexReply P env kex pkt
  | none =>
    modify Session.enter
    (processPacket (P := P) env pkt.buffer).run
    pure pkt.seqn

/-- `reply`; the number of the next packet. -/
def reply (env : ClientEnv) (pkt : IncomingSshPacket) : ClientM UInt32 := do
  checkStrict pkt
  if isSkipped pkt.buffer then pure pkt.seqn else dispatch P env pkt

end Reply

section Loop

/-- What `process_disconnect` reads. -/
def readDisconnect (r : Bytes) : Except Error Unit := do
  let (reason, r) ← decodeWith decodeU32 r
  unless 1 ≤ reason ∧ reason ≤ 15 do throw .inconsistent
  let (_, r) ← decodeWith decodeString r
  let _ ← decodeWith decodeString r

/-- A packet has been read; `seqn` is the number of the next one. -/
def readPacket (env : ClientEnv) (seqn : UInt32) (payload : Bytes) : ClientM TurnResult := do
  let pkt ← maybeDecompress P seqn payload
  match pkt.buffer with
  | [] => pure (.next seqn)
  | msg :: r =>
    modify (Session.record (.received pkt.buffer))
    if msg = Msg.disconnect then
      modify fun s => { s with common := { s.common with disconnected := true } }
      pure (.disconnected ((readDisconnect r).mapError Exn.error))
    else
      modify fun s => { s with common := { s.common with receivedData := true } }
      let seqn ← reply P env pkt
      pure (.next seqn)

/-- The timer of the keepalive. -/
def keepaliveTimer : ClientM Unit := do
  modify fun s =>
    { s with common := { s.common with aliveTimeouts := s.common.aliveTimeouts + 1 } }
  let s ← get
  if s.common.config.keepaliveMax ≠ 0 ∧ s.common.config.keepaliveMax < s.common.aliveTimeouts then
    throw (Exn.error .keepaliveTimeout)
  (sendKeepalive (P := P) true).run

/-- The messages of the handles are taken while no exchange is under way. -/
def takeMessages (env : ClientEnv) : Nat → ClientM Unit
  | 0 => pure ()
  | n + 1 => do
    let s ← get
    match s.own.receiver with
    | [] => pure ()
    | m :: ms =>
      if s.kex.active then pure ()
      else
        set { s with own := { s.own with receiver := ms } }
        handleMsg P env m
        takeMessages env n

/-- The messages of the channels are taken while no exchange is under way. -/
def takeInboundMessages (env : ClientEnv) : Nat → ClientM Unit
  | 0 => pure ()
  | n + 1 => do
    let s ← get
    match s.own.inboundChannelReceiver with
    | [] => pure ()
    | m :: ms =>
      if s.kex.active then pure ()
      else
        set { s with own := { s.own with inboundChannelReceiver := ms } }
        handleMsg P env m
        takeInboundMessages env n

/-- What the loop may wait for. -/
inductive ClientInput where
  /-- The payload of a packet that has been opened. -/
  | packet (payload : Bytes)
  /-- The stream has ended before a packet. -/
  | shortPacket
  | readError (e : Error)
  | keepaliveTimer
  | inactivityTimer
  /-- The loop takes the messages of the handles, or of the channels. -/
  | receive
  | receiveInbound
  /-- A handle, or a channel, sends a message. -/
  | send (m : ClientMsg)
  | sendInbound (m : ClientMsg)
  /-- Every handle is dropped. -/
  | dropHandles
  deriving DecidableEq

/-- The state of `run_inner`: `seqn` is the number of the next packet of the peer, `result` what
is returned when the loop ends. -/
structure ClientLoop where
  session : ClientSession
  seqn : UInt32 := 0
  result : Except Exn Unit := .error (Exn.error .disconnect)
  running : Bool := true

/-- What the `select!` of a turn does. -/
def select (env : ClientEnv) (seqn : UInt32) : ClientInput → ClientM TurnResult
  | .packet payload => readPacket P env (seqn + 1) payload
  | .shortPacket => pure .stop
  | .readError e => throw (Exn.error e)
  | .keepaliveTimer => do
    keepaliveTimer P
    pure (.next seqn)
  | .inactivityTimer => throw (Exn.error .inactivityTimeout)
  | .receive => do
    let s ← get
    if s.own.receiver = [] then
      modify fun s => { s with common := { s.common with disconnected := true } }
      pure .stop
    else
      takeMessages P env s.own.receiver.length
      pure (.next seqn)
  | .receiveInbound => do
    let s ← get
    takeInboundMessages P env s.own.inboundChannelReceiver.length
    pure (.next seqn)
  | .send _ | .sendInbound _ | .dropHandles => pure (.next seqn)

/-- Whether the `select!` may take the input. -/
def enabled (s : ClientSession) : ClientInput → Bool
  | .keepaliveTimer => s.common.config.keepaliveInterval.isSome
  | .inactivityTimer => s.common.config.inactivityTimeout.isSome
  | .receive => !s.kex.active && (!s.own.receiver.isEmpty || s.own.receiverClosed)
  | .receiveInbound => !s.kex.active && !s.own.inboundChannelReceiver.isEmpty
  | .send _ => !s.own.receiverClosed
  | _ => true

/-- The compression of what is sent begins after the authentication. -/
def initCompression (s : ClientSession) : ClientSession :=
  match s.common.encrypted with
  | some enc =>
    if enc.state = .initCompression then
      (s.setWriter
          { s.common.packetWriter with compress := enc.clientCompression.initCompress }).setEncrypted
        { enc with state := .authenticated }
    else s
  | none => s

/-- What every turn ends with. -/
def endTurn (env : ClientEnv) : ClientM Unit := do
  (flush (P := P) env).run
  modify initCompression
  modify fun s =>
    if s.common.receivedData then { s with common := { s.common with aliveTimeouts := 0 } } else s

/-- A turn of the loop. -/
def turn (env : ClientEnv) (seqn : UInt32) (input : ClientInput) : ClientM TurnResult := do
  modify fun s => { s with common := { s.common with receivedData := false } }
  let result ← select P env seqn input
  match result with
  | .stop => pure ()
  | _ => endTurn P env
  pure result

/-- The loop after a turn. -/
def afterTurn (l : ClientLoop) : EStateM.Result Exn ClientSession TurnResult → ClientLoop
  | .error e s => { l with session := s, result := .error e, running := false }
  | .ok .stop s => { l with session := s, running := false }
  | .ok (.disconnected result) s => { l with session := s, result, running := false }
  | .ok (.next seqn) s => { l with session := s, seqn, running := !s.common.disconnected }

/-- One step of a client: a message is sent to the loop, or the loop takes a turn. -/
def step (l : ClientLoop) : ClientEnv × ClientInput → Option ClientLoop
  | (env, input) =>
    if l.running && enabled l.session input then
      match input with
      | .send m => some { l with session := { l.session with
          own := { l.session.own with receiver := l.session.own.receiver ++ [m] } } }
      | .sendInbound m => some { l with session := { l.session with
          own := { l.session.own with
            inboundChannelReceiver := l.session.own.inboundChannelReceiver ++ [m] } } }
      | .dropHandles => some { l with session := { l.session with
          own := { l.session.own with receiverClosed := true } } }
      | _ => some (afterTurn l (turn P env l.seqn input l.session))
    else none

/-- The session that `connect_stream` makes, once the identification of the server is read. -/
def newSession (config : ClientConfig) (remoteSshid : Bytes) : ClientSession where
  common := { remoteSshid, config }
  targetWindowSize := config.windowSize
  own := {}

/-- `connect_stream`, up to the first turn of the loop. -/
def start (env : ClientEnv) (config : ClientConfig) (remoteSshid : Bytes) : ClientLoop :=
  match (do beginRekey P env; (flush (P := P) env).run) (newSession config remoteSshid) with
  | .ok () session => { session }
  | .error e session => { session, result := .error e, running := false }

end Loop

end Client

end Edgessh.Russh
