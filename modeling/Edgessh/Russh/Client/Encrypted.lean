import Edgessh.Russh.Client.Session

/-!
# Packets that the client reads

`client/encrypted.rs`. `processPacket` and all that it calls are programs of `AppM`; only
`writeAuthRequestIfNeeded` seals a packet at once and is a command of its own.
-/

namespace Edgessh.Russh

/-- `AlgorithmExt::with_hash_alg`. -/
def Algorithm.withHashAlg (hashAlg : Option HashAlg) : Algorithm → Algorithm
  | .rsa _ => .rsa hashAlg
  | a => a

/-- `PrivateKeyWithHashAlg::algorithm`. -/
def PrivateKeyWithHashAlg.algorithm (key : PrivateKeyWithHashAlg) : Algorithm :=
  key.key.algorithm.withHashAlg key.hashAlg

/-- `PublicKeyOrCertificate`, by the two strings that a request has of it. -/
structure PublicKeyOrCertificate where
  algorithm : Bytes
  blob : Bytes
  deriving DecidableEq, Repr

namespace Client
open Edgessh.Command AppM

variable {P : Primitives} {pkt : Option Bytes}

/-- `self.sender.send`: it fails when the handle has been dropped. -/
def sendReply (env : ClientEnv) (reply : Reply) (h : (Event.reply reply).isObservation = true) :
    ClientPacketM P pkt Unit := do
  let s ← Confined.read
  if env.handleAlive s then observe (.reply reply) h else throw (Exn.error .sendError)

section Authentication

/-- `Encrypted::write_auth_request`, the packet. -/
def authRequest (user : Bytes) : AuthMethod → Message
  | .none => .userauthRequest user (ascii "none") []
  | .password password =>
    .userauthRequest user (ascii "password") (encodeBool false ++ encodeBytes password)
  | .publicKey key =>
    .userauthRequest user (ascii "publickey")
      (encodeBool false ++ encodeBytes key.algorithm.name ++ encodeBytes key.key.publicKey.blob)
  | .openSshCertificate _ cert =>
    .userauthRequest user (ascii "publickey")
      (encodeBool false ++ encodeBytes cert.certificateType ++ encodeBytes cert.blob)
  | .futurePublicKey key algorithm hashAlg =>
    .userauthRequest user (ascii "publickey")
      (encodeBool false ++ encodeBytes (algorithm.withHashAlg hashAlg).name ++ encodeBytes key.blob)
  | .keyboardInteractive submethods =>
    .userauthRequest user (ascii "keyboard-interactive") (encodeBytes [] ++ encodeBytes submethods)

theorem isQuiet_authRequest (user : Bytes) (method : AuthMethod) :
    (authRequest user method).isQuiet = true := by
  cases method <;> rfl

theorem isAuthRequest_authRequest (user : Bytes) (method : AuthMethod) :
    (authRequest user method).isAuthRequest = true := by
  cases method <;> rfl

/-- `write_auth_request`. -/
def writeAuthRequest (user : Bytes) (method : AuthMethod) : ClientPacketM P pkt Unit :=
  push (authRequest user method) (isQuiet_authRequest user method)

/-- `client_make_to_sign`: the buffer, and where the request begins in it. -/
def makeToSign (sessionId user : Bytes) (key : PublicKeyOrCertificate) : Bytes × Nat :=
  (encodeBytes sessionId ++ Msg.userauthRequest :: encodeBytes user ++
      encodeBytes (ascii "ssh-connection") ++ encodeBytes (ascii "publickey") ++ encodeBool true ++
      encodeBytes key.algorithm ++ encodeBytes key.blob,
    (encodeBytes sessionId).length)

/-- `client_send_signature`, for a key and what it signs with. -/
def sendSignature (enc : Encrypted) (user : Bytes) (key : PublicKeyOrCertificate)
    (signer : PrivateKey) (hashAlg : Option HashAlg) : ClientPacketM P pkt Unit := do
  let (buffer, i0) := makeToSign enc.sessionId user key
  setBuffer buffer
  let signature ← Confined.lift ((P.sign signer hashAlg buffer).mapError Exn.error)
  let buffer := buffer ++ encodeBytes signature
  setBuffer buffer
  push (.raw (buffer.drop i0)) rfl

/-- The first message that is wanted, and those after it. -/
def dropUntil {α : Type} (want : ClientMsg → Option α) :
    List ClientMsg → Option (α × List ClientMsg)
  | [] => none
  | m :: ms =>
    match want m with
    | some a => some (a, ms)
    | none => dropUntil want ms

/-- The wait inside `process_packet` for a message of the handle; other messages are dropped. -/
def waitFor {α : Type} (want : ClientMsg → Option α) : ClientPacketM P pkt α := do
  let s ← Confined.read
  match dropUntil want s.own.receiver with
  | some (a, rest) =>
    setOwn fun own => { own with receiver := rest }
    pure a
  | none =>
    setOwn fun own => { own with receiver := [] }
    if s.own.receiverClosed then throw (Exn.error .recvError) else throw Exn.blocked

/-- The prompts of a USERAUTH_INFO_REQUEST. -/
def readPrompts : Nat → Bytes → ClientPacketM P pkt (List (Bytes × Bool))
  | 0, _ => pure []
  | n + 1, r => do
    let (prompt, r) ← decode decodeString r
    let (echo, r) ← decode decodeU8 r
    let prompts ← readPrompts n r
    pure ((prompt, echo != 0) :: prompts)

/-- A challenge of the server is answered by the handle. -/
def readInfoRequest (env : ClientEnv) (r : Bytes) : ClientPacketM P pkt Unit := do
  let (name, r) ← decode decodeString r
  let (instructions, r) ← decode decodeString r
  let (_, r) ← decode decodeString r
  let (n, r) ← decode decodeU32 r
  let prompts ← readPrompts n r
  sendReply env (.authInfoRequest name instructions prompts) rfl
  let responses ← waitFor fun
    | .authInfoResponse responses => some responses
    | _ => none
  push (.userauthInfoResponse responses) rfl

/-- The request is signed by the handle. -/
def signByHandle (env : ClientEnv) (enc : Encrypted) (user : Bytes) (key : PublicKey)
    (algorithm : Algorithm) (hashAlg : Option HashAlg) : ClientPacketM P pkt Unit := do
  let (buffer, i) := makeToSign enc.sessionId user
    ⟨(algorithm.withHashAlg hashAlg).name, key.blob⟩
  setBuffer []
  sendReply env (.signRequest key buffer) rfl
  let signed ← waitFor fun
    | .signed data => some data
    | _ => none
  setBuffer signed
  if signed.length ≠ buffer.length then
    -- an index past the end of what the handle has sent
    if signed.length < i then throw Exn.panic
    push (.raw (signed.drop i)) rfl

/-- What follows a USERAUTH_PK_OK: the request is sent again with a signature. -/
def continueWithSignature (env : ClientEnv) (enc : Encrypted) : ClientPacketM P pkt Unit := do
  let s ← Confined.read
  let user := s.common.authUser
  setAuthMethod none
  match s.common.authMethod with
  | some (.publicKey key) =>
    sendSignature enc user ⟨key.algorithm.name, key.key.publicKey.blob⟩ key.key key.hashAlg
  | some (.openSshCertificate key cert) =>
    sendSignature enc user ⟨cert.certificateType, cert.blob⟩ key none
  | some (.futurePublicKey key algorithm hashAlg) =>
    signByHandle env enc user key algorithm hashAlg
  | _ => pure ()

end Authentication

section ExtInfo

/-- An extension has been seen: it is noted and those who wait for it are told. -/
def receiveExtension (name : Bytes) : ClientPacketM P pkt Unit := do
  let some enc ← encrypted? | pure ()
  setFields
    (fun enc =>
      { enc with
        receivedExtensions := enc.receivedExtensions ++ [name]
        extensionInfoAwaiters := enc.extensionInfoAwaiters.filter fun a => a.1 ≠ name })
    fun _ => .of_eq rfl rfl rfl rfl rfl rfl rfl
  for a in enc.extensionInfoAwaiters.filter fun a => a.1 = name do
    observe (.answer a.2 .extensionInfo) rfl

/-- The loop of `handle_ext_info`. -/
def readExtensions : Nat → Bytes → ClientPacketM P pkt Unit
  | 0, _ => pure ()
  | n + 1, r => do
    let (name, r) ← decode decodeString r
    if name = ascii "server-sig-algs" then
      let (algs, r) ← decode decodeNameList r
      setOwn fun own => { own with serverSigAlgs := some (algs.filterMap P.parseAlgorithm) }
      receiveExtension name
      readExtensions n r
    else
      let (_, r) ← decode decodeBytes r
      receiveExtension name
      readExtensions n r

/-- `handle_ext_info`. -/
def handleExtInfo (r : Bytes) : ClientPacketM P pkt Unit := do
  let (n, r) ← decode decodeU32 r
  readExtensions n r

end ExtInfo

section Authenticated

variable {msg : UInt8} {r : Bytes}

/-- A CHANNEL_OPEN_CONFIRMATION. -/
def readChannelOpenConfirmation (hmsg : msg = Msg.channelOpenConfirmation) (env : ClientEnv)
    (r : Bytes) : ClientPacketM P (some (msg :: r)) Unit := do
  let ⟨(c, _), hc⟩ ← decoded decodeChannelOpenConfirmation r
  confirmOpened (channelOpenConfirmation?_of hmsg hc)
  toChannel c.recipientChannel
    (.open c.recipientChannel c.maximumPacketSize c.initialWindowSize) (ChannelMsg.payload_open c)
  callback env (.channelOpenConfirmation c.recipientChannel c.maximumPacketSize
    c.initialWindowSize) rfl

/-- What the session does with a CHANNEL_CLOSE before it tells the application. -/
def closeByPeer {id : ChannelId} (hmsg : firstByte? pkt = some Msg.channelClose)
    (hid : pkt.bind recipientNumber? = some id) : ClientPacketM P pkt Unit := do
  closeChannel rfl hmsg hid
  removeChannel id

/-- A CHANNEL_CLOSE. -/
def readChannelClose (hmsg : msg = Msg.channelClose) (env : ClientEnv) (r : Bytes) :
    ClientPacketM P (some (msg :: r)) Unit := do
  let ⟨(id, _), hid⟩ ← decoded decodeU32 r
  closeByPeer (firstByte?_of hmsg) (recipientNumber?_of msg hid)
  callback env (.channelClose id) rfl

/-- A CHANNEL_EOF. -/
def readChannelEof (env : ClientEnv) (r : Bytes) : ClientPacketM P pkt Unit := do
  let (id, _) ← decode decodeU32 r
  toChannel id .eof ChannelMsg.payload_eof
  callback env (.channelEof id) rfl

/-- A CHANNEL_OPEN_FAILURE. -/
def readChannelOpenFailure (hmsg : msg = Msg.channelOpenFailure) (env : ClientEnv) (r : Bytes) :
    ClientPacketM P (some (msg :: r)) Unit := do
  let ⟨(id, r), hid⟩ ← decoded decodeU32 r
  let (code, r) ← decode decodeU32 r
  let (descr, r) ← decode decodeString r
  let (language, _) ← decode decodeString r
  let reason := ChannelOpenFailure.fromU32 code
  failOpened (firstByte?_of hmsg) (recipientNumber?_of msg hid)
  let s ← Confined.read
  removeChannel id
  if let some chan := s.channels id then
    observe (.toChannel id chan (.openFailure reason))
      (Event.isObservation_openFailure id chan reason)
  if env.handleAlive s then observe (.reply .channelOpenFailure) rfl
  callback env (.channelOpenFailure id reason descr language) rfl

/-- The window of the channel shrinks by the data, and the application may change how large it
is to be. -/
def takeData {id : ChannelId} (hmsg : IsData pkt) (hid : pkt.bind recipientNumber? = some id)
    (env : ClientEnv) (buf : Bytes) : ClientPacketM P pkt Unit := do
  let s ← Confined.read
  if ← adjustWindowSize hmsg hid buf s.common.config.windowSize then
    observe (.clientCallback (.adjustWindow id s.targetWindowSize)) rfl
    let s ← Confined.read
    let nextWindow := env.adjustWindow id s.targetWindowSize s
    if 0 < nextWindow then setTargetWindowSize nextWindow

/-- A CHANNEL_DATA. -/
def readChannelData (hmsg : IsData (some (msg :: r))) (env : ClientEnv) :
    ClientPacketM P (some (msg :: r)) Unit := do
  let ⟨(id, r), hid⟩ ← decoded decodeU32 r
  let (buf, _) ← decode decodeBytes r
  takeData hmsg (recipientNumber?_of msg hid) env buf
  deliverToChannel hmsg id (.data buf) (ChannelMsg.payload_data buf)
  deliver hmsg (.clientCallback (.data id buf)) rfl
  quiet (respond env (.data id buf))

/-- A CHANNEL_EXTENDED_DATA. -/
def readChannelExtendedData (hmsg : IsData (some (msg :: r))) (env : ClientEnv) :
    ClientPacketM P (some (msg :: r)) Unit := do
  let ⟨(id, r), hid⟩ ← decoded decodeU32 r
  let (ext, r) ← decode decodeU32 r
  let (buf, _) ← decode decodeBytes r
  takeData hmsg (recipientNumber?_of msg hid) env buf
  deliverToChannel hmsg id (.extendedData buf ext) (ChannelMsg.payload_extendedData buf ext)
  deliver hmsg (.clientCallback (.extendedData id ext buf)) rfl
  quiet (respond env (.extendedData id ext buf))

/-- The answer to a channel request. -/
def answerRequest {id : ChannelId} (hreq : pkt.bind answeredRequest? = some id)
    (m : ChannelMessage) (h : m.isAnswer = true) : ClientPacketM P pkt Unit := do
  let some _ ← encrypted? | pure ()
  setWantsReply false
  answerTo rfl hreq m h

/-- A CHANNEL_REQUEST. -/
def readChannelRequest (hmsg : msg = Msg.channelRequest) (env : ClientEnv) (r : Bytes) :
    ClientPacketM P (some (msg :: r)) Unit := do
  let ⟨(id, r), hid⟩ ← decoded decodeU32 r
  let ⟨(req, r), hreq⟩ ← decoded decodeString r
  if h₁ : req = ascii "xon-xoff" then
    let (_, r) ← decode decodeU8 r
    let (clientCanDo, _) ← decode decodeU8 r
    toChannel id (.xonXoff (clientCanDo != 0)) rfl
    callback env (.xonXoff id (clientCanDo != 0)) rfl
  else if h₂ : req = ascii "exit-status" then
    let (_, r) ← decode decodeU8 r
    let (exitStatus, _) ← decode decodeU32 r
    toChannel id (.exitStatus exitStatus) rfl
    callback env (.exitStatus id exitStatus) rfl
  else if h₃ : req = ascii "exit-signal" then
    let (_, r) ← decode decodeU8 r
    let (signalName, r) ← decode decodeString r
    let (coreDumped, r) ← decode decodeU8 r
    let (errorMessage, r) ← decode decodeString r
    let (langTag, _) ← decode decodeString r
    toChannel id (.exitSignal signalName (coreDumped != 0) errorMessage langTag) rfl
    callback env (.exitSignal id signalName (coreDumped != 0) errorMessage langTag) rfl
  else if req = ascii "keepalive@openssh.com" then
    let ⟨(wantsReply, _), hwants⟩ ← decoded decodeU8 r
    if hw : wantsReply = 1 then
      answerRequest (answeredRequest?_of hmsg hid hreq (by simp [isHandledRequest, h₁, h₂, h₃])
        (hw ▸ hwants)) .success rfl
  else
    let ⟨(wantsReply, _), hwants⟩ ← decoded decodeU8 r
    if hw : wantsReply = 1 then
      answerRequest (answeredRequest?_of hmsg hid hreq (by simp [isHandledRequest, h₁, h₂, h₃])
        (hw ▸ hwants)) .failure rfl

/-- A CHANNEL_WINDOW_ADJUST. -/
def readChannelWindowAdjust (env : ClientEnv) (r : Bytes) : ClientPacketM P pkt Unit := do
  let (id, r) ← decode decodeU32 r
  let (amount, _) ← decode decodeU32 r
  let some (size, wrote) ← windowAdjust id (UInt32.ofNat amount) | pure ()
  let newSize := (size - UInt32.ofNat wrote).toNat
  let s ← Confined.read
  if let some chan := s.channels id then
    observe (.windowSize chan newSize) rfl
    observe (.tryToChannel chan (.windowAdjusted newSize)) rfl
  callback env (.windowAdjusted id newSize) rfl

/-- The host keys of a `hostkeys-00@openssh.com`: those that can be read, up to the end of the
packet. -/
def readHostKeys : Nat → Bytes → ClientPacketM P pkt (List PublicKey)
  | 0, _ => pure []
  | n + 1, r =>
    match decodeBytes r with
    | .error .length => pure []
    | .error e => throw (Exn.error (.sshEncoding e))
    | .ok (key, r) => do
      let keys ← readHostKeys n r
      pure ((P.decodePublicKey key).toList ++ keys)

/-- A GLOBAL_REQUEST. -/
def readGlobalRequest (hmsg : firstByte? pkt = some Msg.globalRequest) (env : ClientEnv) (r : Bytes) :
    ClientPacketM P pkt Unit := do
  let (req, r) ← decode decodeString r
  let (wantsReply, r) ← decode decodeU8 r
  if (ascii "keepalive").isPrefixOf req then
    if wantsReply = 1 then
      setWantsReply false
      answer (.inl hmsg) (.requestSuccess []) Message.isReply_requestSuccess_nil
    setReceivedData false
  else if req = ascii "hostkeys-00@openssh.com" then
    -- every key takes four bytes at least
    let keys ← readHostKeys r.length r
    callback env (.opensshExtHostKeysAnnounced keys) rfl
  else
    setWantsReply false
    answer (.inl hmsg) .requestFailure Message.isReply_requestFailure
    setReceivedData false

/-- A CHANNEL_SUCCESS. -/
def readChannelSuccess (env : ClientEnv) (r : Bytes) : ClientPacketM P pkt Unit := do
  let (id, _) ← decode decodeU32 r
  toChannel id .success rfl
  callback env (.channelSuccess id) rfl

/-- A CHANNEL_FAILURE. -/
def readChannelFailure (env : ClientEnv) (r : Bytes) : ClientPacketM P pkt Unit := do
  let (id, _) ← decode decodeU32 r
  toChannel id .failure rfl
  callback env (.channelFailure id) rfl

/-- `confirm` and `accept_server_initiated_channel`. -/
def acceptChannel {m : OpenChannelMessage} (hm : pkt.bind channelOpen? = some m) (env : ClientEnv)
    (id : ChannelId) : ClientPacketM P pkt Unit := do
  let s ← Confined.read
  confirmChannel hm id s.common.config.windowSize s.common.config.maximumPacketSize
    (some (env.channelRef s))

/-- A CHANNEL_OPEN. -/
def readChannelOpen (hmsg : msg = Msg.channelOpen) (env : ClientEnv) (r : Bytes) :
    ClientPacketM P (some (msg :: r)) Unit := do
  let ⟨(m, _), hparse⟩ ← decoded OpenChannelMessage.parse r
  have hm : (some (msg :: r)).bind channelOpen? = some m := channelOpen?_of hmsg hparse
  let some id ← newChannelId hm | throw (Exn.error .inconsistent)
  match m.typ with
  | .unknown typ =>
    observe (.clientCallback (.shouldAcceptUnknownServerChannel id typ)) rfl
    let s ← Confined.read
    if env.shouldAcceptUnknownServerChannel id typ s then
      acceptChannel hm env id
      callback env (.serverChannelOpen id m.typ) rfl
    else rejectUnknownType hm
  | _ =>
    acceptChannel hm env id
    callback env (.serverChannelOpen id m.typ) rfl

/-- A REQUEST_SUCCESS. -/
def readRequestSuccess (hmsg : firstByte? pkt = some Msg.requestSuccess) (r : Bytes) :
    ClientPacketM P pkt Unit :=
  takeReply (.inl hmsg) fun
    | .keepalive => none
    | .ping dest => some (dest, .unit)
    | .noMoreSessions => none
    | .tcpIpForward dest =>
      let result :=
        if r = [] then some 0
        else
          match decodeU32 r with
          | .ok (port, _) => some port
          | .error _ => none
      some (dest, .port result)
    | .cancelTcpIpForward dest => some (dest, .bool true)
    | .streamLocalForward dest => some (dest, .bool true)
    | .cancelStreamLocalForward dest => some (dest, .bool true)

/-- A REQUEST_FAILURE. -/
def readRequestFailure (hmsg : firstByte? pkt = some Msg.requestFailure) :
    ClientPacketM P pkt Unit :=
  takeReply (.inr hmsg) fun
    | .keepalive => none
    | .ping dest => some (dest, .unit)
    | .noMoreSessions => none
    | .tcpIpForward dest => some (dest, .port none)
    | .cancelTcpIpForward dest => some (dest, .bool false)
    | .streamLocalForward dest => some (dest, .bool false)
    | .cancelStreamLocalForward dest => some (dest, .bool false)

/-- `client_read_authenticated`. -/
def readAuthenticated (env : ClientEnv) (buf : Bytes) : ClientPacketM P (some buf) Unit :=
  match buf with
  | [] => pure ()
  | msg :: r =>
    if h : msg = Msg.channelOpenConfirmation then readChannelOpenConfirmation h env r
    else if h : msg = Msg.channelClose then readChannelClose h env r
    else if msg = Msg.channelEof then readChannelEof env r
    else if h : msg = Msg.channelOpenFailure then readChannelOpenFailure h env r
    else if h : msg = Msg.channelData then readChannelData (.inl (firstByte?_of h)) env
    else if h : msg = Msg.channelExtendedData then
      readChannelExtendedData (.inr (firstByte?_of h)) env
    else if h : msg = Msg.channelRequest then readChannelRequest h env r
    else if msg = Msg.channelWindowAdjust then readChannelWindowAdjust env r
    else if h : msg = Msg.globalRequest then readGlobalRequest (firstByte?_of h) env r
    else if msg = Msg.channelSuccess then readChannelSuccess env r
    else if msg = Msg.channelFailure then readChannelFailure env r
    else if h : msg = Msg.channelOpen then readChannelOpen h env r
    else if h : msg = Msg.requestSuccess then readRequestSuccess (firstByte?_of h) r
    else if h : msg = Msg.requestFailure then readRequestFailure (firstByte?_of h)
    else pure ()

end Authenticated

section Packet

/-- A SERVICE_ACCEPT. -/
def readServiceAccept (hmsg : firstByte? pkt = some Msg.serviceAccept) (r : Bytes) :
    ClientPacketM P pkt Unit := do
  let (service, _) ← decode decodeBytes r
  if service = ascii "ssh-userauth" then
    setAccepted hmsg
    let s ← Confined.read
    if let some method := s.common.authMethod then
      startRequest hmsg (authRequest s.common.authUser method)
        (isAuthRequest_authRequest s.common.authUser method) (AuthRequest.new method)

/-- `process_packet` while the service is waited for. -/
def readWaitingAuthServiceRequest (buf : Bytes) : ClientPacketM P (some buf) Unit :=
  match buf with
  | [] => throw (Exn.error .inconsistent)
  | msg :: r =>
    if h : msg = Msg.serviceAccept then readServiceAccept (firstByte?_of h) r
    else if msg = Msg.extInfo then handleExtInfo r
    else throw (Exn.error .inconsistent)

/-- A USERAUTH_SUCCESS. -/
def readUserauthSuccess (hmsg : firstByte? pkt = some Msg.userauthSuccess) (env : ClientEnv) :
    ClientPacketM P pkt Unit := do
  let s ← Confined.read
  if env.handleAlive s then succeed hmsg else throw (Exn.error .sendError)

/-- A USERAUTH_FAILURE. -/
def readUserauthFailure (hmsg : firstByte? pkt = some Msg.userauthFailure) (env : ClientEnv)
    (r : Bytes) :
    ClientPacketM P pkt Unit := do
  let (names, r) ← decode decodeNameList r
  let remaining := MethodSet.ofNames names
  let (partialSuccess, _) ← decode decodeU8 r
  setRequest (.inl hmsg) fun request => { request with methods := remaining }
  setAuthMethod none
  sendReply env (.authFailure remaining (partialSuccess != 0)) rfl
  if remaining.methods = [] then throw (Exn.error .noAuthMethod)

/-- The server has accepted the key of the request. -/
def AuthRequest.pkOk (request : AuthRequest) : AuthRequest :=
  match request.current with
  | some (.publicKey key algo _) => { request with current := some (.publicKey key algo true) }
  | _ => request

/-- A USERAUTH_INFO_REQUEST or a USERAUTH_PK_OK: the number is the same. -/
def readInfoRequestOrPkOk (hmsg : firstByte? pkt = some Msg.userauthInfoRequestOrUserauthPkOk)
    (env : ClientEnv) (enc : Encrypted) (request : AuthRequest) (r : Bytes) :
    ClientPacketM P pkt Unit :=
  match request.current with
  | some (.publicKey _ _ _) => do
    setRequest (.inr hmsg) AuthRequest.pkOk
    continueWithSignature env enc
  | some (.keyboardInteractive _) => readInfoRequest env r
  | none => continueWithSignature env enc

/-- `process_packet` while a request is waited for. -/
def readWaitingAuthRequest (env : ClientEnv) (enc : Encrypted) (request : AuthRequest)
    (buf : Bytes) : ClientPacketM P (some buf) Unit :=
  match buf with
  | [] => throw (Exn.error .inconsistent)
  | msg :: r =>
    if h : msg = Msg.userauthSuccess then readUserauthSuccess (firstByte?_of h) env
    else if msg = Msg.userauthBanner then do
      let (banner, _) ← decode decodeString r
      callback env (.authBanner banner) rfl
    else if h : msg = Msg.userauthFailure then readUserauthFailure (firstByte?_of h) env r
    else if h : msg = Msg.userauthInfoRequestOrUserauthPkOk then
      readInfoRequestOrPkOk (firstByte?_of h) env enc request r
    else if msg = Msg.extInfo then handleExtInfo r
    else throw (Exn.error .inconsistent)

/-- `process_packet`. -/
def processPacket (env : ClientEnv) (buf : Bytes) : ClientPacketM P (some buf) Unit := do
  match ← encrypted? with
  | none => pure ()
  | some enc =>
    match enc.state with
    | .waitingAuthServiceRequest _ _ => readWaitingAuthServiceRequest buf
    | .waitingAuthRequest request => readWaitingAuthRequest env enc request buf
    | .initCompression => throw Exn.panic
    | .authenticated => readAuthenticated env buf

end Packet

end Client

end Edgessh.Russh
