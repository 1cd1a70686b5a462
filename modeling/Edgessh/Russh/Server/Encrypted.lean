import Edgessh.Russh.Server.Auth

/-!
# Packets that the server reads

The rest of `server/encrypted.rs`. What the server does with a packet of the connection protocol
is a program of `AppM`; `processPacket` runs these and those of the authentication.
-/

namespace Edgessh.Russh
open Edgessh.Command

namespace Server
open AppM

variable {P : Primitives} {pkt : Bytes} {msg : UInt8} {r : Bytes}

section Channels

/-- A CHANNEL_CLOSE. -/
def readChannelClose (hmsg : msg = Msg.channelClose) (env : ServerEnv) (r : Bytes) :
    ServerPacketM P (some (msg :: r)) Unit := do
  let ⟨(id, _), hid⟩ ← decoded decodeU32 r
  dropChannel (firstByte?_of hmsg) (recipientNumber?_of msg hid)
  removeChannel id
  discard (callback env (.channelClose id) rfl rfl rfl)

/-- A CHANNEL_EOF. -/
def readChannelEof (env : ServerEnv) (r : Bytes) : ServerPacketM P (some pkt) Unit := do
  let (id, _) ← decode decodeU32 r
  toChannel id .eof ChannelMsg.payload_eof
  discard (callback env (.channelEof id) rfl rfl rfl)

/-- The window of the channel shrinks by the data, and the application may change how large it
is to be. -/
def takeData {id : ChannelId} (hmsg : IsData (some pkt))
    (hid : (some pkt).bind recipientNumber? = some id) (env : ServerEnv) (buf : Bytes) :
    ServerPacketM P (some pkt) Unit := do
  let s ← Confined.read
  if ← adjustWindowSize hmsg hid buf s.targetWindowSize then
    serve (.adjustWindow id s.targetWindowSize) rfl rfl rfl
    let s ← Confined.read
    let window := env.adjustWindow id s.targetWindowSize s
    if 0 < window then setTargetWindowSize window

/-- A CHANNEL_DATA. -/
def readChannelData (hmsg : IsData (some (msg :: r))) (env : ServerEnv) :
    ServerPacketM P (some (msg :: r)) Unit := do
  let ⟨(id, r), hid⟩ ← decoded decodeU32 r
  let (buf, _) ← decode decodeBytes r
  takeData hmsg (recipientNumber?_of msg hid) env buf
  quiet (flush env)
  deliverToChannel hmsg id (.data buf) (ChannelMsg.payload_data buf)
  deliver hmsg (.serverCallback (.data id buf)) rfl
  discard (quiet (respond env (.data id buf)))

/-- A CHANNEL_EXTENDED_DATA. -/
def readChannelExtendedData (hmsg : IsData (some (msg :: r))) (env : ServerEnv) :
    ServerPacketM P (some (msg :: r)) Unit := do
  let ⟨(id, r), hid⟩ ← decoded decodeU32 r
  let (ext, r) ← decode decodeU32 r
  let (buf, _) ← decode decodeBytes r
  takeData hmsg (recipientNumber?_of msg hid) env buf
  quiet (flush env)
  deliverToChannel hmsg id (.extendedData buf ext) (ChannelMsg.payload_extendedData buf ext)
  deliver hmsg (.serverCallback (.extendedData id ext buf)) rfl
  discard (quiet (respond env (.extendedData id ext buf)))

/-- A CHANNEL_WINDOW_ADJUST. What is reported is the window before the flush. -/
def readChannelWindowAdjust (env : ServerEnv) (r : Bytes) : ServerPacketM P (some pkt) Unit := do
  let (id, r) ← decode decodeU32 r
  let (amount, _) ← decode decodeU32 r
  let some (size, _) ← windowAdjust id (UInt32.ofNat amount) | pure ()
  let newSize := size.toNat
  let s ← Confined.read
  if let some chan := s.channels id then
    observe (.windowSize chan newSize) rfl
    observe (.tryToChannel chan (.windowAdjusted newSize)) rfl
  discard (callback env (.windowAdjusted id newSize) rfl rfl rfl)

/-- A CHANNEL_OPEN_CONFIRMATION. -/
def readChannelOpenConfirmation (hmsg : msg = Msg.channelOpenConfirmation) (env : ServerEnv)
    (r : Bytes) : ServerPacketM P (some (msg :: r)) Unit := do
  let ⟨(c, _), hc⟩ ← decoded decodeChannelOpenConfirmation r
  confirmOpened (channelOpenConfirmation?_of hmsg hc)
  toChannel c.recipientChannel
    (.open c.recipientChannel c.maximumPacketSize c.initialWindowSize) (ChannelMsg.payload_open c)
  discard (callback env (.channelOpenConfirmation c.recipientChannel c.maximumPacketSize
    c.initialWindowSize) rfl rfl rfl)

/-- A CHANNEL_OPEN_FAILURE. -/
def readChannelOpenFailure (hmsg : msg = Msg.channelOpenFailure) (r : Bytes) :
    ServerPacketM P (some (msg :: r)) Unit := do
  let ⟨(id, r), hid⟩ ← decoded decodeU32 r
  let (code, r) ← decode decodeU32 r
  let (_, r) ← decode decodeString r
  let (_, _) ← decode decodeString r
  failOpened (firstByte?_of hmsg) (recipientNumber?_of msg hid)
  let s ← Confined.read
  removeChannel id
  if let some chan := s.channels id then
    let reason := ChannelOpenFailure.fromU32 code
    observe (.toChannel id chan (.openFailure reason))
      (Event.isObservation_openFailure id chan reason)

/-- `finalize_channel_open`. -/
def finalizeChannelOpen {m : OpenChannelMessage} (hm : (some pkt).bind channelOpen? = some m)
    (id : ChannelId) (allowed : Bool) : ServerPacketM P (some pkt) Unit := do
  let s ← Confined.read
  if allowed then
    confirmChannel hm id s.common.config.windowSize s.common.config.maximumPacketSize none
  else reject hm Msg.sshOpenAdministrativelyProhibited (ascii "Rejected")

/-- A channel that the application is asked about. -/
def askChannelOpen {m : OpenChannelMessage} (hm : (some pkt).bind channelOpen? = some m)
    (env : ServerEnv) (id : ChannelId) : ServerPacketM P (some pkt) Unit := do
  let s ← Confined.read
  let allowed ← callback env (.channelOpen id m.typ) rfl rfl rfl
  insertChannel hm id (env.channelRef s)
  finalizeChannelOpen hm id allowed

/-- `server_handle_channel_open`. -/
def handleChannelOpen (hmsg : msg = Msg.channelOpen) (env : ServerEnv) (r : Bytes) :
    ServerPacketM P (some (msg :: r)) Unit := do
  let ⟨(m, _), hparse⟩ ← decoded OpenChannelMessage.parse r
  have hm : (some (msg :: r)).bind channelOpen? = some m := channelOpen?_of hmsg hparse
  let some id ← newChannelId hm | throw Exn.panic
  match m.typ with
  | .forwardedStreamLocal _ | .agentForward =>
    reject hm Msg.sshOpenAdministrativelyProhibited (ascii "Unsupported channel type")
  | .unknown _ => rejectUnknownType hm
  | _ => askChannelOpen hm env id

end Channels

section ChannelRequests

/-- The codes that `Pty::from_u8` knows. -/
def isPtyCode (x : UInt8) : Bool :=
  (1 ≤ x && x ≤ 18) || (30 ≤ x && x ≤ 42) || (50 ≤ x && x ≤ 62) || (70 ≤ x && x ≤ 75) ||
    (90 ≤ x && x ≤ 93) || x = 128 || x = 129

/-- The loop over the modes of a `pty-req`; a code that is not known has no mode. -/
def readPtyModes : Bytes → Except Exn (List (Option (UInt8 × Nat)))
  | [] => pure []
  | 0 :: _ => pure []
  | code :: a :: b :: c :: d :: rest => do
    let modes ← readPtyModes rest
    pure ((if isPtyCode code then some (code, u32OfBytes a b c d) else none) :: modes)
  | _ => throw .panic

/-- The array of modes, with `TTY_OP_END` where none has been set. -/
def ptyTable (modes : List (Option (UInt8 × Nat))) : List (UInt8 × Nat) :=
  (modes.map (Option.getD · (0, 0)) ++ List.replicate 130 (0, 0)).take 130

/-- `&modes[0..i]`. -/
def ptySlice (modes : List (Option (UInt8 × Nat))) : Except Exn (List (UInt8 × Nat)) :=
  if modes.length ≤ 130 then pure ((ptyTable modes).take modes.length) else throw .panic

/-- A request is handed to the channel and to the application. -/
def passRequest (env : ServerEnv) (id : ChannelId) (m : ChannelMsg) (h : m.payload = none) :
    ServerPacketM P (some pkt) Unit := do
  toChannel id m h
  discard (callback env (.channelRequest id m) rfl rfl rfl)

/-- A `pty-req`. -/
def readPtyRequest (env : ServerEnv) (id : ChannelId) (r : Bytes) :
    ServerPacketM P (some pkt) Unit := do
  let (term, r) ← decode decodeString r
  let (colWidth, r) ← decode decodeU32 r
  let (rowHeight, r) ← decode decodeU32 r
  let (pixWidth, r) ← decode decodeU32 r
  let (pixHeight, r) ← decode decodeU32 r
  let (modeString, _) ← decode decodeBytes r
  let modes ← Confined.lift (readPtyModes modeString)
  toChannel id
    (.requestPty true term colWidth rowHeight pixWidth pixHeight (ptyTable modes)) rfl
  let slice ← Confined.lift (ptySlice modes)
  discard (callback env (.channelRequest id
    (.requestPty true term colWidth rowHeight pixWidth pixHeight slice)) rfl rfl rfl)

/-- An `x11-req`. -/
def readX11Request (env : ServerEnv) (id : ChannelId) (r : Bytes) :
    ServerPacketM P (some pkt) Unit := do
  let (singleConnection, r) ← decode decodeU8 r
  let (x11AuthProtocol, r) ← decode decodeString r
  let (x11AuthCookie, r) ← decode decodeString r
  let (x11ScreenNumber, _) ← decode decodeU32 r
  passRequest env id
    (.requestX11 true (singleConnection != 0) x11AuthProtocol x11AuthCookie x11ScreenNumber) rfl

/-- An `env`. -/
def readEnvRequest (env : ServerEnv) (id : ChannelId) (r : Bytes) :
    ServerPacketM P (some pkt) Unit := do
  let (envVariable, r) ← decode decodeString r
  let (envValue, _) ← decode decodeString r
  passRequest env id (.setEnv true envVariable envValue) rfl

/-- A `window-change`. -/
def readWindowChange (env : ServerEnv) (id : ChannelId) (r : Bytes) :
    ServerPacketM P (some pkt) Unit := do
  let (colWidth, r) ← decode decodeU32 r
  let (rowHeight, r) ← decode decodeU32 r
  let (pixWidth, r) ← decode decodeU32 r
  let (pixHeight, _) ← decode decodeU32 r
  passRequest env id (.windowChange colWidth rowHeight pixWidth pixHeight) rfl

/-- `request_success` and `request_failure`, as they answer an `auth-agent-req@openssh.com`. -/
def answerAgentRequest (hmsg : firstByte? (some pkt) = some Msg.channelRequest) (response : Bool) :
    ServerPacketM P (some pkt) Unit := do
  let s ← Confined.read
  if response then
    if s.common.wantsReply then
      setWantsReply false
      answer (.inr hmsg) (.requestSuccess []) Message.isReply_requestSuccess_nil
  else
    setWantsReply false
    answer (.inr hmsg) .requestFailure Message.isReply_requestFailure

/-- An `auth-agent-req@openssh.com`. -/
def readAgentRequest (hmsg : firstByte? (some pkt) = some Msg.channelRequest) (env : ServerEnv)
    (id : ChannelId) : ServerPacketM P (some pkt) Unit := do
  toChannel id (.agentForward true) rfl
  let response ← callback env (.channelRequest id (.agentForward true)) rfl rfl rfl
  answerAgentRequest hmsg response

/-- The channel notes whether an answer is wanted. -/
def noteWantsReply {id : ChannelId} {wantsReply : Bool}
    (hreq : (some pkt).bind channelRequest? = some (id, wantsReply)) :
    ServerPacketM P (some pkt) Unit :=
  Confined.move
    (fun s =>
      match s.common.encrypted with
      | none => s
      | some enc =>
        match enc.channels id with
        | some channel => (s.record (.noted id wantsReply)).setEncrypted
            (enc.setChannel id { channel with wantsReply })
        | none => s)
    fun s => by
      cases hc : s.common.encrypted with
      | none => exact .frame (.refl s)
      | some enc =>
        dsimp only
        cases hch : enc.channels id with
        | none => exact .frame (.refl s)
        | some channel => exact .noteRequest hreq hc hch

/-- What follows the name of a CHANNEL_REQUEST and its `want_reply`. -/
def readRequest (hmsg : firstByte? (some pkt) = some Msg.channelRequest) (env : ServerEnv) (id : ChannelId)
    (req r : Bytes) : ServerPacketM P (some pkt) Unit :=
  if req = ascii "pty-req" then readPtyRequest env id r
  else if req = ascii "x11-req" then readX11Request env id r
  else if req = ascii "env" then readEnvRequest env id r
  else if req = ascii "shell" then passRequest env id (.requestShell true) rfl
  else if req = ascii "auth-agent-req@openssh.com" then readAgentRequest hmsg env id
  else if req = ascii "exec" then do
    let (command, _) ← decode decodeBytes r
    passRequest env id (.exec true command) rfl
  else if req = ascii "subsystem" then do
    let (name, _) ← decode decodeString r
    passRequest env id (.requestSubsystem true name) rfl
  else if req = ascii "window-change" then readWindowChange env id r
  else if req = ascii "signal" then do
    let (signal, _) ← decode decodeString r
    passRequest env id (.signal signal) rfl
  else channelFailure id

/-- A CHANNEL_REQUEST. -/
def readChannelRequest (hmsg : msg = Msg.channelRequest) (env : ServerEnv) (r : Bytes) :
    ServerPacketM P (some (msg :: r)) Unit := do
  let ⟨(id, r), hid⟩ ← decoded decodeU32 r
  let ⟨(req, r), hreq⟩ ← decoded decodeString r
  let ⟨(_, r), hwants⟩ ← decoded decodeU8 r
  noteWantsReply (channelRequest?_of hmsg hid hreq hwants)
  readRequest (firstByte?_of hmsg) env id req r

end ChannelRequests

section GlobalRequests

/-- The answer to a GLOBAL_REQUEST. -/
def answerGlobalRequest (hmsg : firstByte? (some pkt) = some Msg.globalRequest) (result : Bool)
    (data : Bytes) :
    ServerPacketM P (some pkt) Unit :=
  if result then answer (.inl hmsg) (.requestSuccess data) (Message.isReply_requestSuccess data)
  else answer (.inl hmsg) .requestFailure Message.isReply_requestFailure

/-- A `tcpip-forward`. -/
def readTcpipForward (hmsg : firstByte? (some pkt) = some Msg.globalRequest) (env : ServerEnv)
    (r : Bytes) :
    ServerPacketM P (some pkt) Unit := do
  let (address, r) ← decode decodeString r
  let (port, _) ← decode decodeU32 r
  let s ← Confined.read
  let returnedPort := env.returnedPort address port s
  let result ← callback env (.tcpipForward address port) rfl rfl rfl
  let s ← Confined.read
  answerGlobalRequest hmsg result
    (if s.common.wantsReply && port = 0 && returnedPort ≠ 0 then encodeU32 returnedPort else [])

/-- A `cancel-tcpip-forward`. -/
def readCancelTcpipForward (hmsg : firstByte? (some pkt) = some Msg.globalRequest) (env : ServerEnv)
    (r : Bytes) : ServerPacketM P (some pkt) Unit := do
  let (address, r) ← decode decodeString r
  let (port, _) ← decode decodeU32 r
  let result ← callback env (.cancelTcpipForward address port) rfl rfl rfl
  answerGlobalRequest hmsg result []

/-- A `streamlocal-forward@openssh.com`. -/
def readStreamlocalForward (hmsg : firstByte? (some pkt) = some Msg.globalRequest) (env : ServerEnv)
    (r : Bytes) : ServerPacketM P (some pkt) Unit := do
  let (serverSocketPath, _) ← decode decodeString r
  let result ← callback env (.streamlocalForward serverSocketPath) rfl rfl rfl
  answerGlobalRequest hmsg result []

/-- A `cancel-streamlocal-forward@openssh.com`. -/
def readCancelStreamlocalForward (hmsg : firstByte? (some pkt) = some Msg.globalRequest) (env : ServerEnv)
    (r : Bytes) : ServerPacketM P (some pkt) Unit := do
  let (socketPath, _) ← decode decodeString r
  let result ← callback env (.cancelStreamlocalForward socketPath) rfl rfl rfl
  answerGlobalRequest hmsg result []

/-- A GLOBAL_REQUEST. -/
def readGlobalRequest (hmsg : firstByte? (some pkt) = some Msg.globalRequest) (env : ServerEnv)
    (r : Bytes) :
    ServerPacketM P (some pkt) Unit := do
  let (req, r) ← decode decodeString r
  let (wantsReply, r) ← decode decodeU8 r
  setWantsReply (wantsReply != 0)
  if req = ascii "tcpip-forward" then readTcpipForward hmsg env r
  else if req = ascii "cancel-tcpip-forward" then readCancelTcpipForward hmsg env r
  else if req = ascii "streamlocal-forward@openssh.com" then readStreamlocalForward hmsg env r
  else if req = ascii "cancel-streamlocal-forward@openssh.com" then
    readCancelStreamlocalForward hmsg env r
  else answer (.inl hmsg) .requestFailure Message.isReply_requestFailure

/-- A REQUEST_SUCCESS. -/
def readRequestSuccess (hmsg : firstByte? (some pkt) = some Msg.requestSuccess) (r : Bytes) :
    ServerPacketM P (some pkt) Unit :=
  takeReply (.inl hmsg) fun
    | .ping dest => some (dest, .unit)
    | .tcpIpForward dest =>
      let result :=
        if r = [] then some 0
        else
          match decodeU32 r with
          | .ok (port, _) => some port
          | .error _ => none
      some (dest, .port result)
    | .cancelTcpIpForward dest => some (dest, .bool true)
    | _ => none

/-- A REQUEST_FAILURE. -/
def readRequestFailure (hmsg : firstByte? (some pkt) = some Msg.requestFailure) :
    ServerPacketM P (some pkt) Unit :=
  takeReply (.inr hmsg) fun
    | .ping dest => some (dest, .unit)
    | .tcpIpForward dest => some (dest, .port none)
    | .cancelTcpIpForward dest => some (dest, .bool false)
    | _ => none

end GlobalRequests

/-- `server_read_authenticated`. -/
def readAuthenticated (env : ServerEnv) (msg : UInt8) (r : Bytes) :
    ServerPacketM P (some (msg :: r)) Unit :=
  if h : msg = Msg.channelOpen then handleChannelOpen h env r
  else if h : msg = Msg.channelClose then readChannelClose h env r
  else if msg = Msg.channelEof then readChannelEof env r
  else if h : msg = Msg.channelExtendedData then
    readChannelExtendedData (.inr (firstByte?_of h)) env
  else if h : msg = Msg.channelData then readChannelData (.inl (firstByte?_of h)) env
  else if msg = Msg.channelWindowAdjust then readChannelWindowAdjust env r
  else if h : msg = Msg.channelOpenConfirmation then readChannelOpenConfirmation h env r
  else if h : msg = Msg.channelRequest then readChannelRequest h env r
  else if h : msg = Msg.globalRequest then readGlobalRequest (firstByte?_of h) env r
  else if h : msg = Msg.channelOpenFailure then readChannelOpenFailure h r
  else if h : msg = Msg.requestSuccess then readRequestSuccess (firstByte?_of h) r
  else if h : msg = Msg.requestFailure then readRequestFailure (firstByte?_of h)
  else pure ()

end Server

end Edgessh.Russh
