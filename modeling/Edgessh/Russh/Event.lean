import Edgessh.Russh.Kex.Algorithm
import Edgessh.Russh.Auth
import Edgessh.Russh.Parsing

/-!
# Events

What a session does that can be seen from outside: the packets it seals, the host keys it
verifies and asks about, its calls of the application's handler and what it sends to the handles
and the channels. A session keeps the list of its events in the order they happen. The packets
that are read or written into a queue and the calls of `Encrypted::flush` are in the list too, so
that a statement can say when they happen.
-/

namespace Edgessh.Russh

/-- `ChannelOpenFailure`, `unknown` for a number that it does not have. -/
inductive ChannelOpenFailure where
  | unknown
  | administrativelyProhibited
  | connectFailed
  | unknownChannelType
  | resourceShortage
  deriving DecidableEq, Repr

/-- `ChannelOpenFailure::from_u32`, with its default. -/
def ChannelOpenFailure.fromU32 : Nat → ChannelOpenFailure
  | 1 => .administrativelyProhibited
  | 2 => .connectFailed
  | 3 => .unknownChannelType
  | 4 => .resourceShortage
  | _ => .unknown

def ChannelOpenFailure.code : ChannelOpenFailure → Nat
  | .unknown => 0
  | .administrativelyProhibited => 1
  | .connectFailed => 2
  | .unknownChannelType => 3
  | .resourceShortage => 4

/-- `ChannelMsg`. A `Sig` stands by its name, a `Pty` by its number. -/
inductive ChannelMsg where
  | open (id : ChannelId) (maxPacketSize windowSize : Nat)
  | data (buf : Bytes)
  | extendedData (buf : Bytes) (ext : Nat)
  | eof
  | close
  | requestPty (wantReply : Bool) (term : Bytes) (colWidth rowHeight pixWidth pixHeight : Nat)
      (terminalModes : List (UInt8 × Nat))
  | requestShell (wantReply : Bool)
  | exec (wantReply : Bool) (command : Bytes)
  | signal (signal : Bytes)
  | requestSubsystem (wantReply : Bool) (name : Bytes)
  | requestX11 (wantReply singleConnection : Bool) (x11AuthenticationProtocol : Bytes)
      (x11AuthenticationCookie : Bytes) (x11ScreenNumber : Nat)
  | setEnv (wantReply : Bool) (variableName variableValue : Bytes)
  | windowChange (colWidth rowHeight pixWidth pixHeight : Nat)
  | agentForward (wantReply : Bool)
  | xonXoff (clientCanDo : Bool)
  | exitStatus (exitStatus : Nat)
  | exitSignal (signalName : Bytes) (coreDumped : Bool) (errorMessage langTag : Bytes)
  | windowAdjusted (newSize : Nat)
  | success
  | failure
  | openFailure (reason : ChannelOpenFailure)
  deriving DecidableEq, Repr

/-- The data in a message to a channel. -/
def ChannelMsg.payload : ChannelMsg → Option Bytes
  | data buf => some buf
  | extendedData buf _ => some buf
  | _ => none

theorem ChannelMsg.payload_data (buf : Bytes) : (data buf).payload.isSome = true := rfl

theorem ChannelMsg.payload_extendedData (buf : Bytes) (ext : Nat) :
    (extendedData buf ext).payload.isSome = true := rfl

theorem ChannelMsg.payload_eof : eof.payload = none := rfl

theorem ChannelMsg.payload_open (c : ChannelOpenConfirmation) :
    (ChannelMsg.open c.recipientChannel c.maximumPacketSize c.initialWindowSize).payload = none :=
  rfl

/-- The answer to a CHANNEL_REQUEST. -/
def ChannelMsg.isAnswer : ChannelMsg → Bool
  | success | failure => true
  | _ => false

/-- The sending half of the queue of a `Channel`, and its shared window size. -/
structure ChannelRef where
  token : Nat
  deriving DecidableEq, Repr

/-- `client::Reply`: what a client session tells its handle. -/
inductive Reply where
  | authSuccess
  | authFailure (proceedWithMethods : MethodSet) (partialSuccess : Bool)
  | channelOpenFailure
  | signRequest (key : PublicKey) (data : Bytes)
  | authInfoRequest (name instructions : Bytes) (prompts : List (Bytes × Bool))
  deriving DecidableEq, Repr

/-- The receiver of a oneshot answer. -/
abbrev ReplyChannel := Nat

/-- What is sent to a oneshot receiver. -/
inductive Answer where
  | unit
  | port (port : Option Nat)
  | bool (ok : Bool)
  | serverSigAlgs (algs : Option (List Algorithm))
  | extensionInfo
  deriving DecidableEq, Repr

/-- The answer to a call that has made a global request. -/
def Answer.isResponse : Answer → Bool
  | unit | port _ | bool _ => true
  | serverSigAlgs _ | extensionInfo => false

/-- `GlobalRequestResponse`. -/
inductive GlobalRequestResponse where
  | keepalive
  | ping (dest : ReplyChannel)
  | noMoreSessions
  | tcpIpForward (dest : ReplyChannel)
  | cancelTcpIpForward (dest : ReplyChannel)
  | streamLocalForward (dest : ReplyChannel)
  | cancelStreamLocalForward (dest : ReplyChannel)
  deriving DecidableEq, Repr

/-- The calls of `client::Handler`. -/
inductive ClientCallback where
  | authBanner (banner : Bytes)
  | checkServerKey (key : PublicKey)
  | kexDone (sharedSecret : Option Bytes) (names : Names)
  | channelOpenConfirmation (id : ChannelId) (maxPacketSize windowSize : Nat)
  | channelSuccess (id : ChannelId)
  | channelFailure (id : ChannelId)
  | channelClose (id : ChannelId)
  | channelEof (id : ChannelId)
  | channelOpenFailure (id : ChannelId) (reason : ChannelOpenFailure) (descr language : Bytes)
  /-- One of the `server_channel_open_*` calls. -/
  | serverChannelOpen (id : ChannelId) (typ : ChannelType)
  | shouldAcceptUnknownServerChannel (id : ChannelId) (typ : Bytes)
  | data (id : ChannelId) (buf : Bytes)
  | extendedData (id : ChannelId) (ext : Nat) (buf : Bytes)
  | xonXoff (id : ChannelId) (clientCanDo : Bool)
  | exitStatus (id : ChannelId) (exitStatus : Nat)
  | exitSignal (id : ChannelId) (signalName : Bytes) (coreDumped : Bool)
      (errorMessage langTag : Bytes)
  | windowAdjusted (id : ChannelId) (newSize : Nat)
  | adjustWindow (id : ChannelId) (window : Nat)
  | opensshExtHostKeysAnnounced (keys : List PublicKey)
  deriving DecidableEq, Repr

/-- The calls of `server::Handler`. -/
inductive ServerCallback where
  | authenticationBanner
  | authNone (user : Bytes)
  | authPassword (user password : Bytes)
  | authPublickeyOffered (user : Bytes) (key : PublicKey)
  | authPublickey (user : Bytes) (key : PublicKey)
  | authOpensshCertificate (user : Bytes) (cert : Certificate)
  | authKeyboardInteractive (user submethods : Bytes) (responses : Option (List (Option Bytes)))
  | authSucceeded
  | channelClose (id : ChannelId)
  | channelEof (id : ChannelId)
  /-- One of the `channel_open_*` calls. -/
  | channelOpen (id : ChannelId) (typ : ChannelType)
  | channelOpenConfirmation (id : ChannelId) (maxPacketSize windowSize : Nat)
  | data (id : ChannelId) (buf : Bytes)
  | extendedData (id : ChannelId) (ext : Nat) (buf : Bytes)
  | windowAdjusted (id : ChannelId) (newSize : Nat)
  | adjustWindow (id : ChannelId) (current : Nat)
  /-- One of the calls for a CHANNEL_REQUEST: the request as the channel has it. -/
  | channelRequest (id : ChannelId) (request : ChannelMsg)
  | tcpipForward (address : Bytes) (port : Nat)
  | cancelTcpipForward (address : Bytes) (port : Nat)
  | streamlocalForward (socketPath : Bytes)
  | cancelStreamlocalForward (socketPath : Bytes)
  deriving DecidableEq, Repr

/-- A call for a packet of the connection protocol. -/
def ServerCallback.isConnection : ServerCallback → Bool
  | authenticationBanner | authNone _ | authPassword _ _ | authPublickeyOffered _ _ => false
  | authPublickey _ _ | authOpensshCertificate _ _ | authKeyboardInteractive _ _ _ => false
  | authSucceeded => false
  | _ => true

/-- A packet as the cipher sealed it: `epoch` counts the calls of `set_cipher` before it. -/
structure Sealed where
  message : Message
  key : CipherKey
  epoch : Nat
  seqn : UInt32
  deriving DecidableEq, Repr

inductive Event where
  /-- A packet has been read. -/
  | received (buffer : Bytes)
  | packet (s : Sealed)
  /-- Bytes put into the write buffer as they are, without a cipher. -/
  | unsealed (message : Message)
  /-- A packet is put behind `write`, to be sealed later. -/
  | wrote (message : Message)
  /-- `Encrypted::flush` is called while these packets wait in `write`. -/
  | flushed (queue : List Message)
  /-- `duration_since` has returned the time between these two. -/
  | clock (now earlier : Nat)
  /-- `set_cipher` -/
  | setCipher (key : CipherKey)
  /-- The signature over the exchange hash has been verified with the host key. -/
  | verified (key : PublicKey) (hash : Bytes)
  /-- The answer of `check_server_key`. -/
  | serverKeyChecked (key : PublicKey) (ok : Bool)
  | clientCallback (call : ClientCallback)
  | serverCallback (call : ServerCallback)
  /-- The answer of an `auth_*` call: whether it is `Auth::Accept`. -/
  | authAnswered (call : ServerCallback) (accepted : Bool)
  /-- The signature of a user over this data has been verified with the key. -/
  | authVerified (key : PublicKey) (data : Bytes)
  /-- A method that sends a GLOBAL_REQUEST is called: what it puts into the queue, its
  `want_reply`, and whether there is a key. -/
  | requested (response : Option GlobalRequestResponse) (wantReply encrypted : Bool)
  /-- What is taken from the queue for a reply of the peer. -/
  | resolved (response : Option GlobalRequestResponse)
  /-- `request_success` or `request_failure` is called. -/
  | replyCalled
  /-- `process_packet` of a client is entered in this state of the authentication. -/
  | entered (state : EncryptedState)
  /-- A channel is put into the table, in this state of the authentication. -/
  | opening (state : EncryptedState)
  /-- The values of a channel are set from a CHANNEL_OPEN_CONFIRMATION. -/
  | confirmed (c : ChannelOpenConfirmation)
  /-- A channel is taken out of the table for a CHANNEL_OPEN_FAILURE. -/
  | failed (id : ChannelId)
  /-- A number that no channel has is chosen for a channel of the peer. -/
  | numbered (id : ChannelId)
  /-- The entry of a channel notes whether a CHANNEL_REQUEST wants an answer. -/
  | noted (id : ChannelId) (wantsReply : Bool)
  /-- The entry of a channel is dropped for a CHANNEL_CLOSE, without an answer. -/
  | dropped (id : ChannelId)
  /-- `channel_open_failure` is called. -/
  | refused (id : ChannelId)
  /-- The method that takes such a message about the channel is called: whether the peer has
  confirmed the channel, if there is an entry for it. -/
  | called (id : ChannelId) (msg : ChannelMsg) (confirmed : Option Bool)
  /-- A method asserts that the channel is confirmed: whether it is. -/
  | asserted (id : ChannelId) (confirmed : Bool)
  | reply (reply : Reply)
  | answer (dest : ReplyChannel) (answer : Answer)
  | toChannel (id : ChannelId) (dest : ChannelRef) (msg : ChannelMsg)
  /-- `try_send`, which may find the queue full. -/
  | tryToChannel (dest : ChannelRef) (msg : ChannelMsg)
  /-- `WindowSizeRef::update` -/
  | windowSize (dest : ChannelRef) (size : Nat)
  deriving DecidableEq, Repr

namespace Event

def isReceived : Event → Bool
  | received _ => true
  | _ => false

/-- Data of the peer reaches the application or a channel: the bytes. -/
def delivered : Event → Option Bytes
  | clientCallback (.data _ buf) => some buf
  | clientCallback (.extendedData _ _ buf) => some buf
  | serverCallback (.data _ buf) => some buf
  | serverCallback (.extendedData _ _ buf) => some buf
  | toChannel _ _ msg => msg.payload
  | _ => none

/-- Something that the session tells a handle, a channel or the application of a client, and
that is neither data nor the success of an authentication nor the answer to a global request. -/
def isObservation : Event → Bool
  | clientCallback call => (clientCallback call).delivered.isNone
  | toChannel id dest msg => (toChannel id dest msg).delivered.isNone
  | serverCallback .authSucceeded => true
  | reply r => r != .authSuccess
  | answer _ a => !a.isResponse
  | tryToChannel _ _ => true
  | windowSize _ _ => true
  | _ => false

theorem isObservation_openFailure (id : ChannelId) (dest : ChannelRef)
    (reason : ChannelOpenFailure) :
    (toChannel id dest (.openFailure reason)).isObservation = true := rfl

end Event

end Edgessh.Russh
