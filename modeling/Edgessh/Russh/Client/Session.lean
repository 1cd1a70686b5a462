import Edgessh.Russh.Kex.Client
import Edgessh.Russh.Session.App

/-!
# The methods of the client session

`client/session.rs`, the messages and the handler of `client/mod.rs`. A method that only sends a
CHANNEL_REQUEST or a GLOBAL_REQUEST is the application of the common operation to its own name
and fields.
-/

namespace Edgessh.Russh
open Edgessh.Command AppM

/-- `client::Msg`. -/
inductive ClientMsg where
  | authenticate (user : Bytes) (method : AuthMethod)
  | authInfoResponse (responses : List Bytes)
  | signed (data : Bytes)
  | channelOpenSession (channelRef : ChannelRef)
  | channelOpenX11 (originatorAddress : Bytes) (originatorPort : Nat) (channelRef : ChannelRef)
  | channelOpenDirectTcpIp (hostToConnect : Bytes) (portToConnect : Nat)
      (originatorAddress : Bytes) (originatorPort : Nat) (channelRef : ChannelRef)
  | channelOpenDirectStreamLocal (socketPath : Bytes) (channelRef : ChannelRef)
  | tcpIpForward (dest : Option ReplyChannel) (address : Bytes) (port : Nat)
  | cancelTcpIpForward (dest : Option ReplyChannel) (address : Bytes) (port : Nat)
  | streamLocalForward (dest : Option ReplyChannel) (socketPath : Bytes)
  | cancelStreamLocalForward (dest : Option ReplyChannel) (socketPath : Bytes)
  | close (id : ChannelId)
  | disconnect (reason : Nat) (description languageTag : Bytes)
  | channel (id : ChannelId) (msg : ChannelMsg)
  | rekey
  | awaitExtensionInfo (extensionName : Bytes) (dest : ReplyChannel)
  | getServerSigAlgs (dest : ReplyChannel)
  | keepalive (wantReply : Bool)
  | ping (dest : ReplyChannel)
  | noMoreSessions (wantReply : Bool)
  deriving DecidableEq, Repr

/-- The fields that only `client::Session` has: the two queues of messages, and the signature
algorithms of the server. -/
structure ClientOwn where
  receiver : List ClientMsg := []
  /-- Every handle has been dropped. -/
  receiverClosed : Bool := false
  inboundChannelReceiver : List ClientMsg := []
  serverSigAlgs : Option (List Algorithm) := none
  deriving DecidableEq, Repr

abbrev ClientSession := Session ClientKex ClientConfig ClientOwn

def clientStart : KexStart ClientKex ClientConfig where
  role := .client
  new := ClientKex.new
  kexinit := ClientKex.kexinit
  kexinit_writes h := (ClientKex.kexinit_eq_ok h).2
  mayOpen state := state = .authenticated
  isAuthenticated_of_mayOpen h := by simp_all [EncryptedState.isAuthenticated]

/-- The methods of `client::Session` that a handler may call. -/
inductive ClientCall where
  | channelOpenSession
  | channelOpenX11 (originatorAddress : Bytes) (originatorPort : Nat)
  | channelOpenDirectTcpip (hostToConnect : Bytes) (portToConnect : Nat)
      (originatorAddress : Bytes) (originatorPort : Nat)
  | channelOpenDirectStreamlocal (socketPath : Bytes)
  /-- `data`, `eof`, `close` and the channel requests: the method that takes such a message. -/
  | channel (id : ChannelId) (msg : ChannelMsg)
  | tcpipForward (dest : Option ReplyChannel) (address : Bytes) (port : Nat)
  | cancelTcpipForward (dest : Option ReplyChannel) (address : Bytes) (port : Nat)
  | streamlocalForward (dest : Option ReplyChannel) (socketPath : Bytes)
  | cancelStreamlocalForward (dest : Option ReplyChannel) (socketPath : Bytes)
  | sendKeepalive (wantReply : Bool)
  | sendPing (dest : ReplyChannel)
  | noMoreSessions (wantReply : Bool)
  | disconnect (reason : Nat) (description languageTag : Bytes)
  | initiateRekey
  deriving DecidableEq, Repr

/-- What the session meets while it works: random numbers, the clock, the order of its hash
table, the receivers of new channels and the application. Each may depend on all that has
happened so far. A call of the handler is a list of calls of the session, whose results it may
use as it likes, and its own result. -/
structure ClientEnv where
  /-- The receiver of the replies has not been dropped. -/
  handleAlive : ClientSession → Bool
  entropy : ClientSession → Entropy
  now : ClientSession → Nat
  tableOrder : ClientSession → List ChannelId
  channelRef : ClientSession → ChannelRef
  handler : ClientCallback → ClientSession → List ClientCall × Except Error Unit
  checkServerKey : PublicKey → ClientSession → Except Error Bool
  adjustWindow : ChannelId → Nat → ClientSession → Nat
  shouldAcceptUnknownServerChannel : ChannelId → Bytes → ClientSession → Bool

namespace Client

variable {P : Primitives}

/-- The programs of the client while the packet `pkt` is worked on. -/
abbrev ClientPacketM (P : Primitives) (pkt : Option Bytes) := AppM clientStart P pkt ClientOwn

abbrev ClientAppM (P : Primitives) := ClientPacketM P none

/-- `Session::flush`. -/
def flush (env : ClientEnv) : ClientAppM P Unit := do
  let s ← Confined.read
  let due ← flushWrite s.common.config.limits env.now
  if due then beginRekeyIfIdle env.entropy

/-- `initiate_rekey`. -/
def initiateRekey (env : ClientEnv) : ClientAppM P Unit := do
  setFields (fun enc => { enc with rekeyWanted := true }) fun _ =>
    .of_eq rfl rfl rfl rfl rfl rfl rfl
  flush env

section ChannelOpen

/-- `channel_open_generic`, and what the application has of the channel. -/
def channelOpenGeneric (kind suffix : Bytes) (chan : Option ChannelRef) :
    ClientAppM P ChannelId := do
  let s ← Confined.read
  openChannel .notAuthenticated kind s.common.config.windowSize s.common.config.maximumPacketSize
    suffix chan

/-- `channel_open_session`. -/
def channelOpenSession : Option ChannelRef → ClientAppM P ChannelId :=
  channelOpenGeneric (ascii "session") []

/-- `channel_open_x11`. -/
def channelOpenX11 (originatorAddress : Bytes) (originatorPort : Nat) :
    Option ChannelRef → ClientAppM P ChannelId :=
  channelOpenGeneric (ascii "x11") (encodeBytes originatorAddress ++ encodeU32 originatorPort)

/-- `channel_open_direct_tcpip`. -/
def channelOpenDirectTcpip (hostToConnect : Bytes) (portToConnect : Nat)
    (originatorAddress : Bytes) (originatorPort : Nat) :
    Option ChannelRef → ClientAppM P ChannelId :=
  channelOpenGeneric (ascii "direct-tcpip") (encodeBytes hostToConnect ++ encodeU32 portToConnect ++
    encodeBytes originatorAddress ++ encodeU32 originatorPort)

/-- `channel_open_direct_streamlocal`. -/
def channelOpenDirectStreamlocal (socketPath : Bytes) : Option ChannelRef → ClientAppM P ChannelId :=
  channelOpenGeneric (ascii "direct-streamlocal@openssh.com")
    (encodeBytes socketPath ++ encodeBytes [] ++ encodeU32 0)

end ChannelOpen

section ChannelRequests

/-- `request_pty`; the mode `TTY_OP_END` ends the list and is not sent twice. -/
def requestPty (id : ChannelId) (wantReply : Bool) (term : Bytes)
    (colWidth rowHeight pixWidth pixHeight : Nat) (terminalModes : List (UInt8 × Nat)) :
    ClientAppM P Unit :=
  channelRequest (.requestPty wantReply term colWidth rowHeight pixWidth pixHeight terminalModes) rfl
    id (ascii "pty-req") wantReply (encodeBytes term ++ encodeU32 colWidth ++
    encodeU32 rowHeight ++ encodeU32 pixWidth ++ encodeU32 pixHeight ++
    encodeU32 (1 + 5 * terminalModes.length) ++
    (terminalModes.flatMap fun m => if m.1 = 0 then [] else m.1 :: encodeU32 m.2) ++ [0])

/-- `request_x11`. -/
def requestX11 (id : ChannelId) (wantReply singleConnection : Bool)
    (x11AuthenticationProtocol x11AuthenticationCookie : Bytes) (x11ScreenNumber : Nat) :
    ClientAppM P Unit :=
  channelRequest (.requestX11 wantReply singleConnection x11AuthenticationProtocol
    x11AuthenticationCookie x11ScreenNumber) rfl id (ascii "x11-req") wantReply
    (encodeBool singleConnection ++ encodeBytes x11AuthenticationProtocol ++
    encodeBytes x11AuthenticationCookie ++ encodeU32 x11ScreenNumber)

/-- `set_env`. -/
def setEnv (id : ChannelId) (wantReply : Bool) (variableName variableValue : Bytes) :
    ClientAppM P Unit :=
  channelRequest (.setEnv wantReply variableName variableValue) rfl id (ascii "env") wantReply
    (encodeBytes variableName ++ encodeBytes variableValue)

/-- `request_shell`. -/
def requestShell (wantReply : Bool) (id : ChannelId) : ClientAppM P Unit :=
  channelRequest (.requestShell wantReply) rfl id (ascii "shell") wantReply []

/-- `exec`. -/
def exec (id : ChannelId) (wantReply : Bool) (command : Bytes) : ClientAppM P Unit :=
  channelRequest (.exec wantReply command) rfl id (ascii "exec") wantReply (encodeBytes command)

/-- `signal`. -/
def signal (id : ChannelId) (signal : Bytes) : ClientAppM P Unit :=
  channelRequest (.signal signal) rfl id (ascii "signal") false (encodeBytes signal)

/-- `request_subsystem`. -/
def requestSubsystem (wantReply : Bool) (id : ChannelId) (name : Bytes) : ClientAppM P Unit :=
  channelRequest (.requestSubsystem wantReply name) rfl id (ascii "subsystem") wantReply
    (encodeBytes name)

/-- `window_change`. -/
def windowChange (id : ChannelId) (colWidth rowHeight pixWidth pixHeight : Nat) :
    ClientAppM P Unit :=
  channelRequest (.windowChange colWidth rowHeight pixWidth pixHeight) rfl id (ascii "window-change")
    false (encodeU32 colWidth ++ encodeU32 rowHeight ++
    encodeU32 pixWidth ++ encodeU32 pixHeight)

/-- `agent_forward`. -/
def agentForward (id : ChannelId) (wantReply : Bool) : ClientAppM P Unit :=
  channelRequest (.agentForward wantReply) rfl id (ascii "auth-agent-req@openssh.com") wantReply []

end ChannelRequests

section GlobalRequests

/-- The forwarding requests: the answer is waited for where there is a receiver for it. -/
def forward (name : Bytes) (response : ReplyChannel → GlobalRequestResponse)
    (dest : Option ReplyChannel) (data : Bytes) : ClientAppM P Unit := do
  let some _ ← encrypted? | pure ()
  globalRequest (dest.map response) name dest.isSome (by simp) data

/-- `tcpip_forward`. -/
def tcpipForward (dest : Option ReplyChannel) (address : Bytes) (port : Nat) :
    ClientAppM P Unit :=
  forward (ascii "tcpip-forward") .tcpIpForward dest (encodeBytes address ++ encodeU32 port)

/-- `cancel_tcpip_forward`. -/
def cancelTcpipForward (dest : Option ReplyChannel) (address : Bytes) (port : Nat) :
    ClientAppM P Unit :=
  forward (ascii "cancel-tcpip-forward") .cancelTcpIpForward dest
    (encodeBytes address ++ encodeU32 port)

/-- `streamlocal_forward`. -/
def streamlocalForward (dest : Option ReplyChannel) (socketPath : Bytes) : ClientAppM P Unit :=
  forward (ascii "streamlocal-forward@openssh.com") .streamLocalForward dest
    (encodeBytes socketPath)

/-- `cancel_streamlocal_forward`. -/
def cancelStreamlocalForward (dest : Option ReplyChannel) (socketPath : Bytes) :
    ClientAppM P Unit :=
  forward (ascii "cancel-streamlocal-forward@openssh.com") .cancelStreamLocalForward dest
    (encodeBytes socketPath)

/-- `send_keepalive`. -/
def sendKeepalive (wantReply : Bool) : ClientAppM P Unit :=
  globalRequest (some .keepalive) (ascii "keepalive@openssh.com") wantReply (fun _ => rfl) []

/-- `send_ping`. -/
def sendPing (dest : ReplyChannel) : ClientAppM P Unit :=
  globalRequest (some (.ping dest)) (ascii "keepalive@openssh.com") true (fun _ => rfl) []

/-- `no_more_sessions`. -/
def noMoreSessions (wantReply : Bool) : ClientAppM P Unit :=
  globalRequest (some .noMoreSessions) (ascii "no-more-sessions@openssh.com") wantReply
    (fun _ => rfl) []

end GlobalRequests

/-- The method that takes a message about a channel. -/
def handleChannelMsg (id : ChannelId) : ChannelMsg → ClientAppM P Unit
  | .data buf => data id buf
  | .eof => eof id
  | .extendedData buf ext => extendedData id ext buf
  | .requestPty wantReply term colWidth rowHeight pixWidth pixHeight terminalModes =>
    requestPty id wantReply term colWidth rowHeight pixWidth pixHeight terminalModes
  | .windowChange colWidth rowHeight pixWidth pixHeight =>
    windowChange id colWidth rowHeight pixWidth pixHeight
  | .requestX11 wantReply singleConnection protocol cookie screenNumber =>
    requestX11 id wantReply singleConnection protocol cookie screenNumber
  | .setEnv wantReply variableName variableValue => setEnv id wantReply variableName variableValue
  | .requestShell wantReply => requestShell wantReply id
  | .exec wantReply command => exec id wantReply command
  | .signal name => signal id name
  | .requestSubsystem wantReply name => requestSubsystem wantReply id name
  | .agentForward wantReply => agentForward id wantReply
  | .close => close id
  | _ => throw Exn.panic

/-- A call of a handler. -/
def call (env : ClientEnv) : ClientCall → ClientAppM P Unit
  | .channelOpenSession => discard (channelOpenSession none)
  | .channelOpenX11 address port => discard (channelOpenX11 address port none)
  | .channelOpenDirectTcpip host port address originatorPort =>
    discard (channelOpenDirectTcpip host port address originatorPort none)
  | .channelOpenDirectStreamlocal socketPath =>
    discard (channelOpenDirectStreamlocal socketPath none)
  | .channel id msg => handleChannelMsg id msg
  | .tcpipForward dest address port => tcpipForward dest address port
  | .cancelTcpipForward dest address port => cancelTcpipForward dest address port
  | .streamlocalForward dest socketPath => streamlocalForward dest socketPath
  | .cancelStreamlocalForward dest socketPath => cancelStreamlocalForward dest socketPath
  | .sendKeepalive wantReply => sendKeepalive wantReply
  | .sendPing dest => sendPing dest
  | .noMoreSessions wantReply => noMoreSessions wantReply
  | .disconnect reason description languageTag => disconnect reason description languageTag
  | .initiateRekey => initiateRekey env

/-- The calls of a handler, one after the other; an error is its business. -/
def calls (env : ClientEnv) : List ClientCall → ClientAppM P Unit
  | [] => pure ()
  | c :: cs => do
    tryCatch (call env c) fun
      | .error _ => pure ()
      | e => throw e
    calls env cs

/-- What the handler does with the session that it has in its hands. -/
def respond (env : ClientEnv) (cb : ClientCallback) : ClientAppM P Unit := do
  let s ← Confined.read
  let (cs, result) := env.handler cb s
  calls env cs
  Confined.lift (result.mapError Exn.error)

/-- A call of the handler that does not hand on data. -/
def callback {pkt : Option Bytes} (env : ClientEnv) (cb : ClientCallback)
    (h : (Event.clientCallback cb).isObservation = true) : ClientPacketM P pkt Unit := do
  observe (.clientCallback cb) h
  quiet (respond env cb)

end Client

end Edgessh.Russh
