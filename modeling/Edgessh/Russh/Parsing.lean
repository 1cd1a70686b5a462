import Edgessh.Russh.Msg

/-!
# Parsing of channel messages

`parsing.rs`.
-/

namespace Edgessh.Russh

/-- The lift of a decoder to the errors of `russh` (`map_err!`). -/
def decodeWith {α : Type} (d : Decoder α) (r : Bytes) : Except Error (α × Bytes) :=
  (d r).mapError Error.sshEncoding

structure TcpChannelInfo where
  hostToConnect : Bytes
  portToConnect : Nat
  originatorAddress : Bytes
  originatorPort : Nat
  deriving DecidableEq, Repr

/-- `ChannelType`. -/
inductive ChannelType where
  | session
  | x11 (originatorAddress : Bytes) (originatorPort : Nat)
  | directTcpip (info : TcpChannelInfo)
  | directStreamLocal (socketPath : Bytes)
  | forwardedTcpIp (info : TcpChannelInfo)
  | forwardedStreamLocal (socketPath : Bytes)
  | agentForward
  | unknown (typ : Bytes)
  deriving DecidableEq, Repr

structure OpenChannelMessage where
  typ : ChannelType
  recipientChannel : Nat
  recipientWindowSize : Nat
  recipientMaximumPacketSize : Nat
  deriving DecidableEq, Repr

/-- `TcpChannelInfo::decode`. -/
def decodeTcpChannelInfo : Decoder TcpChannelInfo := fun r => do
  let (hostToConnect, r) ← decodeString r
  let (portToConnect, r) ← decodeU32 r
  let (originatorAddress, r) ← decodeString r
  let (originatorPort, r) ← decodeU32 r
  pure (⟨hostToConnect, portToConnect, originatorAddress, originatorPort⟩, r)

/-- What follows the type, window and packet size of a CHANNEL_OPEN. -/
def decodeChannelType (typ : Bytes) : Decoder ChannelType := fun r =>
  if typ = ascii "session" then pure (.session, r)
  else if typ = ascii "x11" then do
    let (originatorAddress, r) ← decodeString r
    let (originatorPort, r) ← decodeU32 r
    pure (.x11 originatorAddress originatorPort, r)
  else if typ = ascii "direct-tcpip" then do
    let (info, r) ← decodeTcpChannelInfo r
    pure (.directTcpip info, r)
  else if typ = ascii "direct-streamlocal@openssh.com" then do
    let (socketPath, r) ← decodeString r
    pure (.directStreamLocal socketPath, r)
  else if typ = ascii "forwarded-tcpip" then do
    let (info, r) ← decodeTcpChannelInfo r
    pure (.forwardedTcpIp info, r)
  else if typ = ascii "forwarded-streamlocal@openssh.com" then do
    let (socketPath, r) ← decodeString r
    pure (.forwardedStreamLocal socketPath, r)
  else if typ = ascii "auth-agent@openssh.com" then pure (.agentForward, r)
  else pure (.unknown typ, r)

namespace OpenChannelMessage

/-- `OpenChannelMessage::parse`. -/
def parse : Decoder OpenChannelMessage := fun r => do
  let (typ, r) ← decodeString r
  let (sender, r) ← decodeU32 r
  let (window, r) ← decodeU32 r
  let (maxPacket, r) ← decodeU32 r
  let (typ, r) ← decodeChannelType typ r
  pure (⟨typ, sender, window, maxPacket⟩, r)

/-- `OpenChannelMessage::confirm`. -/
def confirm (msg : OpenChannelMessage) (senderChannel windowSize packetSize : Nat) : Message :=
  .channelOpenConfirmation msg.recipientChannel senderChannel windowSize packetSize

/-- `OpenChannelMessage::fail`. -/
def fail (msg : OpenChannelMessage) (reason : UInt8) (message : Bytes) : Message :=
  .channelOpenFailure msg.recipientChannel reason.toNat message (ascii "en")

end OpenChannelMessage

structure ChannelOpenConfirmation where
  recipientChannel : Nat
  senderChannel : Nat
  initialWindowSize : Nat
  maximumPacketSize : Nat
  deriving DecidableEq, Repr

/-- `ChannelOpenConfirmation::decode`. -/
def decodeChannelOpenConfirmation : Decoder ChannelOpenConfirmation := fun r => do
  let (recipientChannel, r) ← decodeU32 r
  let (senderChannel, r) ← decodeU32 r
  let (initialWindowSize, r) ← decodeU32 r
  let (maximumPacketSize, r) ← decodeU32 r
  pure (⟨recipientChannel, senderChannel, initialWindowSize, maximumPacketSize⟩, r)

section Packets

/-- The number behind the kind of a packet: that of the channel, in the packets about one. -/
def recipientNumber? : Bytes → Option ChannelId
  | [] => none
  | _ :: r => (decodeU32 r).toOption.map (·.1)

/-- A CHANNEL_OPEN. -/
def channelOpen? : Bytes → Option OpenChannelMessage
  | [] => none
  | msg :: r =>
    if msg = Msg.channelOpen then (OpenChannelMessage.parse r).toOption.map (·.1) else none

/-- A CHANNEL_OPEN_CONFIRMATION. -/
def channelOpenConfirmation? : Bytes → Option ChannelOpenConfirmation
  | [] => none
  | msg :: r =>
    if msg = Msg.channelOpenConfirmation then
      (decodeChannelOpenConfirmation r).toOption.map (·.1)
    else none

/-- The channel of a CHANNEL_REQUEST, and whether it wants an answer. -/
def channelRequest? : Bytes → Option (ChannelId × Bool)
  | [] => none
  | msg :: r =>
    if msg = Msg.channelRequest then do
      let (id, r) ← (decodeU32 r).toOption
      let (_, r) ← (decodeString r).toOption
      let (wantsReply, _) ← (decodeU8 r).toOption
      pure (id, wantsReply != 0)
    else none

/-- The requests that a client hands to the application; it answers every other one. -/
def isHandledRequest (req : Bytes) : Bool :=
  req = ascii "xon-xoff" || req = ascii "exit-status" || req = ascii "exit-signal"

/-- The channel of a CHANNEL_REQUEST that a client answers. -/
def answeredRequest? : Bytes → Option ChannelId
  | [] => none
  | msg :: r =>
    if msg = Msg.channelRequest then do
      let (id, r) ← (decodeU32 r).toOption
      let (req, r) ← (decodeString r).toOption
      let (wantsReply, _) ← (decodeU8 r).toOption
      if isHandledRequest req = false ∧ wantsReply = 1 then some id else none
    else none

variable {msg : UInt8} {r r' : Bytes}

theorem recipientNumber?_of (msg : UInt8) {id : ChannelId} (h : decodeU32 r = .ok (id, r')) :
    recipientNumber? (msg :: r) = some id := by
  simp [recipientNumber?, h, Except.toOption]

theorem channelOpen?_of {m : OpenChannelMessage} (hmsg : msg = Msg.channelOpen)
    (h : OpenChannelMessage.parse r = .ok (m, r')) : channelOpen? (msg :: r) = some m := by
  simp [channelOpen?, hmsg, h, Except.toOption]

theorem channelOpenConfirmation?_of {c : ChannelOpenConfirmation}
    (hmsg : msg = Msg.channelOpenConfirmation)
    (h : decodeChannelOpenConfirmation r = .ok (c, r')) :
    channelOpenConfirmation? (msg :: r) = some c := by
  simp [channelOpenConfirmation?, hmsg, h, Except.toOption]

theorem channelRequest?_of {id : ChannelId} {req r₁ r₂ : Bytes} {wantsReply : UInt8}
    (hmsg : msg = Msg.channelRequest) (hid : decodeU32 r = .ok (id, r₁))
    (hreq : decodeString r₁ = .ok (req, r₂)) (hwants : decodeU8 r₂ = .ok (wantsReply, r')) :
    channelRequest? (msg :: r) = some (id, wantsReply != 0) := by
  simp [channelRequest?, hmsg, hid, hreq, hwants, Except.toOption]

theorem answeredRequest?_of {id : ChannelId} {req r₁ r₂ : Bytes} (hmsg : msg = Msg.channelRequest)
    (hid : decodeU32 r = .ok (id, r₁)) (hreq : decodeString r₁ = .ok (req, r₂))
    (hhandled : isHandledRequest req = false) (hwants : decodeU8 r₂ = .ok (1, r')) :
    answeredRequest? (msg :: r) = some id := by
  simp [answeredRequest?, hmsg, hid, hreq, hhandled, hwants, Except.toOption]

theorem head?_of_channelOpen? {buf : Bytes} {m : OpenChannelMessage}
    (h : channelOpen? buf = some m) : buf.head? = some Msg.channelOpen := by
  cases buf with
  | nil => cases h
  | cons msg r =>
    rw [channelOpen?] at h
    split at h
    · rename_i hmsg
      rw [hmsg]
      rfl
    · cases h

theorem head?_of_channelOpenConfirmation? {buf : Bytes} {c : ChannelOpenConfirmation}
    (h : channelOpenConfirmation? buf = some c) :
    buf.head? = some Msg.channelOpenConfirmation := by
  cases buf with
  | nil => cases h
  | cons msg r =>
    rw [channelOpenConfirmation?] at h
    split at h
    · rename_i hmsg
      rw [hmsg]
      rfl
    · cases h

end Packets

end Edgessh.Russh
