import Edgessh.Russh.Kex.Server
import Edgessh.Russh.Session.App

/-!
# The methods of the server session

`server/session.rs`, and the handler of `server/mod.rs`.
-/

namespace Edgessh.Russh
open Edgessh.Command AppM

/-- `server::Msg`. -/
inductive ServerMsg where
  | channelOpenAgent (channelRef : ChannelRef)
  | channelOpenSession (channelRef : ChannelRef)
  | channelOpenDirectTcpIp (hostToConnect : Bytes) (portToConnect : Nat)
      (originatorAddress : Bytes) (originatorPort : Nat) (channelRef : ChannelRef)
  | channelOpenDirectStreamLocal (socketPath : Bytes) (channelRef : ChannelRef)
  | channelOpenForwardedTcpIp (connectedAddress : Bytes) (connectedPort : Nat)
      (originatorAddress : Bytes) (originatorPort : Nat) (channelRef : ChannelRef)
  | channelOpenForwardedStreamLocal (serverSocketPath : Bytes) (channelRef : ChannelRef)
  | channelOpenX11 (originatorAddress : Bytes) (originatorPort : Nat) (channelRef : ChannelRef)
  | tcpIpForward (dest : Option ReplyChannel) (address : Bytes) (port : Nat)
  | cancelTcpIpForward (dest : Option ReplyChannel) (address : Bytes) (port : Nat)
  | disconnect (reason : Nat) (description languageTag : Bytes)
  | channel (id : ChannelId) (msg : ChannelMsg)
  deriving DecidableEq, Repr

/-- The field that only `server::Session` has. -/
structure ServerOwn where
  receiver : List ServerMsg := []
  deriving DecidableEq, Repr

abbrev ServerSession := Session ServerKex ServerConfig ServerOwn

theorem ServerKex.kexinit_eq_ok {P : Primitives} {rng : Entropy} {self kex : ServerKex}
    {w w' : PacketWriter} (h : self.kexinit P rng w = .ok kex w') :
    (kex.state = self.state ∧ kex.cause = self.cause ∧ kex.config = self.config) ∧
      ∃ payload, w.packetRaw P (.kexInit payload) = .ok w' := by
  obtain ⟨w₁, w₂, hget, h₁⟩ := bind_eq_ok'.mp h
  cases hget
  obtain ⟨⟨w₃, payload⟩, w₄, hwrite, h₂⟩ := bind_eq_ok'.mp h₁
  obtain ⟨hwrite, rfl⟩ := ofExcept_eq_ok.mp hwrite
  obtain ⟨_, w₅, hset, h₃⟩ := bind_eq_ok'.mp h₂
  cases hset
  obtain ⟨rfl, rfl⟩ := pure_eq_ok'.mp h₃
  obtain ⟨w₆, hraw, hdone⟩ := bind_eq_ok.mp hwrite
  cases hdone
  exact ⟨⟨rfl, rfl, rfl⟩, _, hraw⟩

def serverStart : KexStart ServerKex ServerConfig where
  role := .server
  new := ServerKex.new
  kexinit := ServerKex.kexinit
  kexinit_writes h := (ServerKex.kexinit_eq_ok h).2
  mayOpen := EncryptedState.isAuthenticated
  isAuthenticated_of_mayOpen h := h

/-- `server::Auth`. -/
inductive Auth where
  | reject (proceedWithMethods : Option MethodSet) (partialSuccess : Bool)
  | accept
  | unsupportedMethod
  /-- `Partial` -/
  | moreInformation (name instructions : Bytes) (prompts : List (Bytes × Bool))
  deriving DecidableEq, Repr

/-- The methods of `server::Session` that a handler may call. -/
inductive ServerCall where
  | flush
  | flushPending (id : ChannelId)
  | disconnect (reason : Nat) (description languageTag : Bytes)
  | debug (alwaysDisplay : Bool) (message languageTag : Bytes)
  | requestSuccess
  | requestFailure
  | channelOpenFailure (id : ChannelId) (reason : ChannelOpenFailure) (description language : Bytes)
  /-- `data`, `eof`, `close` and the answers and requests of a channel: the method that takes such
  a message. -/
  | channel (id : ChannelId) (msg : ChannelMsg)
  | keepaliveRequest
  | sendPing (dest : ReplyChannel)
  | channelOpenSession
  | channelOpenDirectTcpip (hostToConnect : Bytes) (portToConnect : Nat)
      (originatorAddress : Bytes) (originatorPort : Nat)
  | channelOpenDirectStreamlocal (socketPath : Bytes)
  | channelOpenForwardedTcpip (connectedAddress : Bytes) (connectedPort : Nat)
      (originatorAddress : Bytes) (originatorPort : Nat)
  | channelOpenForwardedStreamlocal (socketPath : Bytes)
  | channelOpenX11 (originatorAddress : Bytes) (originatorPort : Nat)
  | channelOpenAgent
  | tcpipForward (address : Bytes) (port : Nat) (dest : Option ReplyChannel)
  | cancelTcpipForward (address : Bytes) (port : Nat) (dest : Option ReplyChannel)
  deriving DecidableEq, Repr

/-- What the session meets while it works: random numbers, the clock, the order of its hash
table, the receivers of new channels and the application. Each may depend on all that has
happened so far. A call of the handler for a packet of the connection is a list of calls of the
session, whose results it may use as it likes, and its own result; a call that returns nothing
returns `true` here. -/
structure ServerEnv where
  entropy : ServerSession → Entropy
  now : ServerSession → Nat
  tableOrder : ServerSession → List ChannelId
  channelRef : ServerSession → ChannelRef
  lookupDhGexGroup : ServerSession → LookupDhGexGroup
  authenticationBanner : ServerSession → Except Error (Option Bytes)
  /-- The `auth_*` calls. -/
  auth : ServerCallback → ServerSession → Except Error Auth
  handler : ServerCallback → ServerSession → List ServerCall × Except Error Bool
  /-- The port that `tcpip_forward` returns. -/
  returnedPort : Bytes → Nat → ServerSession → Nat
  adjustWindow : ChannelId → Nat → ServerSession → Nat

namespace Server

variable {P : Primitives}

/-- The programs of the server while the packet `pkt` is worked on. -/
abbrev ServerPacketM (P : Primitives) (pkt : Option Bytes) := AppM serverStart P pkt ServerOwn

abbrev ServerAppM (P : Primitives) := ServerPacketM P none

section Flush

/-- `enc.exchange.take()`: whether there was one. -/
def takeExchange : ServerAppM P Bool := do
  let taken ← update (fun enc => .ok (enc.exchange.isSome, { enc with exchange := none }))
    fun _ _ _ h => by
      cases h
      exact ⟨[], .of_eq rfl rfl rfl rfl rfl rfl rfl⟩
  pure (taken.getD false)

/-- What `flush` does when a rekey is due. -/
def rekeyIfIdle (env : ServerEnv) : ServerAppM P Unit := do
  let s ← Confined.read
  if s.kex.active = false then
    if ← takeExchange then beginRekeyIfIdle env.entropy

/-- `Session::flush`. -/
def flush (env : ServerEnv) : ServerAppM P Unit := do
  let s ← Confined.read
  let due ← flushWrite s.common.config.limits env.now
  if due then rekeyIfIdle env

/-- `flush_pending`. -/
def flushPending (id : ChannelId) : ServerAppM P Unit := do
  let _ ← update (fun enc => (enc.flushPending id).map fun p => ((), p.1)) fun enc a enc' h => by
    cases hf : enc.flushPending id with
    | error e => simp [hf, Except.map] at h
    | ok p =>
      simp only [hf, Except.map] at h
      cases h
      exact EncStep.flushPending hf
  pure ()

end Flush

/-- `debug`. -/
def debug (alwaysDisplay : Bool) (message languageTag : Bytes) : ServerAppM P Unit :=
  pushOrUnsealed (.debug alwaysDisplay message languageTag) rfl rfl

section Answers

/-- `request_success`, as the application calls it. -/
def requestSuccess : ServerAppM P Unit := do
  let s ← Confined.read
  if s.common.wantsReply && s.common.encrypted.isSome then
    setWantsReply false
    replyCalled (.requestSuccess []) Message.isReply_requestSuccess_nil

/-- `request_failure`, as the application calls it. -/
def requestFailure : ServerAppM P Unit := do
  let s ← Confined.read
  if s.common.encrypted.isSome then
    setWantsReply false
    replyCalled .requestFailure Message.isReply_requestFailure

/-- `channel_success` and `channel_failure`: the answer that the channel waits for. -/
def answerChannel {pkt : Option Bytes} (id : ChannelId) (cm : ChannelMsg) (m : ChannelMessage)
    (h : cm = .success ∧ m = .success ∨ cm = .failure ∧ m = .failure) :
    ServerPacketM P pkt Unit where
  run s :=
    match s.common.encrypted with
    | none => .ok () s
    | some enc =>
      match enc.channels id with
      | none => .ok () (s.recordAll [.called id cm none])
      | some channel =>
        if !channel.confirmed then
          .error Exn.panic (s.recordAll [.called id cm (some false), .asserted id false])
        else if channel.wantsReply then
          .ok () ((s.recordAll [.called id cm (some true), .asserted id true]).wrote
            ((enc.setChannel id { channel with wantsReply := false }).push
              (.channel id channel.recipientChannel m)) [.channel id channel.recipientChannel m])
        else .ok () (s.recordAll [.called id cm (some true), .asserted id true])
  steps s := by
    simp only [wp]
    cases hc : s.common.encrypted with
    | none => exact Relation.ReflTransGen.refl
    | some enc =>
      dsimp only
      cases hch : enc.channels id with
      | none =>
        have hnone : enc.confirmed? id = none := by simp [Encrypted.confirmed?, hch]
        have hcalled : AppStep serverStart P pkt s
            (s.recordAll [.called id cm (enc.confirmed? id)]) :=
          .called hc (List.nil_sublist (enc.assertion id)) fun _ c hc' => by
            rw [hch] at hc'
            cases hc'
        exact .single (hnone ▸ hcalled)
      | some channel =>
        have hcalled : ∀ b, channel.confirmed = b → (b = true → channel.wantsReply = false) →
            AppStep serverStart P pkt s
              (s.recordAll [.called id cm (some b), .asserted id b]) := by
          rintro b rfl hw
          have hsome : enc.confirmed? id = some channel.confirmed := by
            simp [Encrypted.confirmed?, hch]
          have hassert : [Event.asserted id channel.confirmed].Sublist (enc.assertion id) := by
            simp [Encrypted.assertion, hsome]
          rw [← hsome]
          refine .called hc hassert fun _ c hc' hconf => ?_
          obtain rfl : channel = c := by simpa [hch] using hc'
          exact hw hconf
        dsimp only
        by_cases hconf : channel.confirmed = true
        · by_cases hw : channel.wantsReply = true
          · rw [if_neg (by simp [hconf]), if_pos hw]
            exact .single (.answerChannel cm hc hch hconf hw h)
          · rw [if_neg (by simp [hconf]), if_neg hw]
            exact .single (hcalled true hconf fun _ => by simpa using hw)
        · rw [if_pos (by simp [hconf])]
          exact .single (hcalled false (by simpa using hconf) nofun)

/-- `channel_success`. -/
def channelSuccess (id : ChannelId) : ServerAppM P Unit :=
  answerChannel id .success .success (.inl ⟨rfl, rfl⟩)

/-- `channel_failure`. -/
def channelFailure {pkt : Option Bytes} (id : ChannelId) : ServerPacketM P pkt Unit :=
  answerChannel id .failure .failure (.inr ⟨rfl, rfl⟩)

/-- `channel_open_failure`. -/
def channelOpenFailure (id : ChannelId) (reason : ChannelOpenFailure)
    (description language : Bytes) : ServerAppM P Unit :=
  Confined.move
    (fun s =>
      match s.common.encrypted with
      | some enc => (s.record (.refused id)).wrote
          (enc.push (.channelOpenFailure id reason.code description language))
          [.channelOpenFailure id reason.code description language]
      | none => s)
    fun s => by
      cases hc : s.common.encrypted with
      | some enc => exact .refuse id reason description language hc
      | none => exact .frame (.refl s)

end Answers

section ChannelRequests

/-- A CHANNEL_REQUEST of the server for the message `m`, on a channel that has been confirmed. -/
def confirmedRequest (m : ChannelMsg) (hm : m.isAnswer = false) (id : ChannelId)
    (name body : Bytes) : ServerAppM P Unit :=
  onChannel id m hm false
    (fun enc =>
      match enc.channels id with
      | none => .ok enc
      | some channel =>
        if channel.confirmed then .ok (enc.byte id (.request name false body))
        else .error Exn.panic)
    fun enc enc' he => by
      cases hc : enc.channels id with
      | none =>
        simp only [hc] at he
        cases he
        exact ⟨[], .refl enc⟩
      | some channel =>
        simp only [hc] at he
        split at he
        · cases he
          exact EncStep.byte rfl rfl rfl
        · cases he

/-- `xon_xoff_request`. -/
def xonXoffRequest (id : ChannelId) (clientCanDo : Bool) : ServerAppM P Unit :=
  confirmedRequest (.xonXoff clientCanDo) rfl id (ascii "xon-xoff") (encodeBool clientCanDo)

/-- `exit_status_request`. -/
def exitStatusRequest (id : ChannelId) (exitStatus : Nat) : ServerAppM P Unit :=
  confirmedRequest (.exitStatus exitStatus) rfl id (ascii "exit-status") (encodeU32 exitStatus)

/-- `exit_signal_request`. -/
def exitSignalRequest (id : ChannelId) (signal : Bytes) (coreDumped : Bool)
    (errorMessage languageTag : Bytes) : ServerAppM P Unit :=
  confirmedRequest (.exitSignal signal coreDumped errorMessage languageTag) rfl id
    (ascii "exit-signal") (encodeBytes signal ++ encodeBool coreDumped ++
    encodeBytes errorMessage ++ encodeBytes languageTag)

end ChannelRequests

section GlobalRequests

/-- A GLOBAL_REQUEST of the server: the answer is waited for where there is a receiver for it. -/
def request (response : Option GlobalRequestResponse) (name data : Bytes) : ServerAppM P Unit := do
  let some _ ← encrypted? | pure ()
  globalRequest response name response.isSome id data

/-- `keepalive_request`. -/
def keepaliveRequest : ServerAppM P Unit :=
  request (some .keepalive) (ascii "keepalive@openssh.com") []

/-- `send_ping`. -/
def sendPing (dest : ReplyChannel) : ServerAppM P Unit :=
  request (some (.ping dest)) (ascii "keepalive@openssh.com") []

/-- `tcpip_forward`. -/
def tcpipForward (address : Bytes) (port : Nat) (dest : Option ReplyChannel) :
    ServerAppM P Unit :=
  request (dest.map .tcpIpForward) (ascii "tcpip-forward") (encodeBytes address ++ encodeU32 port)

/-- `cancel_tcpip_forward`. -/
def cancelTcpipForward (address : Bytes) (port : Nat) (dest : Option ReplyChannel) :
    ServerAppM P Unit :=
  request (dest.map .cancelTcpIpForward) (ascii "cancel-tcpip-forward")
    (encodeBytes address ++ encodeU32 port)

end GlobalRequests

section ChannelOpen

/-- `channel_open_generic`, and what the application has of the channel. -/
def channelOpenGeneric (kind suffix : Bytes) (chan : Option ChannelRef) :
    ServerAppM P ChannelId := do
  let s ← Confined.read
  openChannel .inconsistent kind s.common.config.windowSize s.common.config.maximumPacketSize
    suffix chan

/-- `channel_open_session`. -/
def channelOpenSession : Option ChannelRef → ServerAppM P ChannelId :=
  channelOpenGeneric (ascii "session") []

/-- `channel_open_direct_tcpip`. -/
def channelOpenDirectTcpip (hostToConnect : Bytes) (portToConnect : Nat)
    (originatorAddress : Bytes) (originatorPort : Nat) :
    Option ChannelRef → ServerAppM P ChannelId :=
  channelOpenGeneric (ascii "direct-tcpip") (encodeBytes hostToConnect ++ encodeU32 portToConnect ++
    encodeBytes originatorAddress ++ encodeU32 originatorPort)

/-- `channel_open_direct_streamlocal`. -/
def channelOpenDirectStreamlocal (socketPath : Bytes) : Option ChannelRef → ServerAppM P ChannelId :=
  channelOpenGeneric (ascii "direct-streamlocal@openssh.com")
    (encodeBytes socketPath ++ encodeBytes [] ++ encodeU32 0)

/-- `channel_open_forwarded_tcpip`. -/
def channelOpenForwardedTcpip (connectedAddress : Bytes) (connectedPort : Nat)
    (originatorAddress : Bytes) (originatorPort : Nat) :
    Option ChannelRef → ServerAppM P ChannelId :=
  channelOpenGeneric (ascii "forwarded-tcpip") (encodeBytes connectedAddress ++
    encodeU32 connectedPort ++ encodeBytes originatorAddress ++ encodeU32 originatorPort)

/-- `channel_open_forwarded_streamlocal`. -/
def channelOpenForwardedStreamlocal (socketPath : Bytes) :
    Option ChannelRef → ServerAppM P ChannelId :=
  channelOpenGeneric (ascii "forwarded-streamlocal@openssh.com")
    (encodeBytes socketPath ++ encodeBytes [])

/-- `channel_open_x11`. -/
def channelOpenX11 (originatorAddress : Bytes) (originatorPort : Nat) :
    Option ChannelRef → ServerAppM P ChannelId :=
  channelOpenGeneric (ascii "x11") (encodeBytes originatorAddress ++ encodeU32 originatorPort)

/-- `channel_open_agent`. -/
def channelOpenAgent : Option ChannelRef → ServerAppM P ChannelId :=
  channelOpenGeneric (ascii "auth-agent@openssh.com") []

end ChannelOpen

/-- The method that takes a message about a channel. -/
def handleChannelMsg (id : ChannelId) : ChannelMsg → ServerAppM P Unit
  | .data buf => data id buf
  | .extendedData buf ext => extendedData id ext buf
  | .eof => eof id
  | .close => close id
  | .success => channelSuccess id
  | .failure => channelFailure id
  | .xonXoff clientCanDo => xonXoffRequest id clientCanDo
  | .exitStatus exitStatus => exitStatusRequest id exitStatus
  | .exitSignal signalName coreDumped errorMessage langTag =>
    exitSignalRequest id signalName coreDumped errorMessage langTag
  | .windowAdjusted _ => pure ()
  | _ => throw Exn.panic

/-- What the loop does with a message. -/
def handleMsg : ServerMsg → ServerAppM P Unit
  | .channel id msg => handleChannelMsg id msg
  | .channelOpenAgent channelRef => discard (channelOpenAgent (some channelRef))
  | .channelOpenSession channelRef => discard (channelOpenSession (some channelRef))
  | .channelOpenDirectTcpIp hostToConnect portToConnect originatorAddress originatorPort
      channelRef =>
    discard (channelOpenDirectTcpip hostToConnect portToConnect originatorAddress originatorPort
      (some channelRef))
  | .channelOpenDirectStreamLocal socketPath channelRef =>
    discard (channelOpenDirectStreamlocal socketPath (some channelRef))
  | .channelOpenForwardedTcpIp connectedAddress connectedPort originatorAddress originatorPort
      channelRef =>
    discard (channelOpenForwardedTcpip connectedAddress connectedPort originatorAddress
      originatorPort (some channelRef))
  | .channelOpenForwardedStreamLocal serverSocketPath channelRef =>
    discard (channelOpenForwardedStreamlocal serverSocketPath (some channelRef))
  | .channelOpenX11 originatorAddress originatorPort channelRef =>
    discard (channelOpenX11 originatorAddress originatorPort (some channelRef))
  | .tcpIpForward dest address port => tcpipForward address port dest
  | .cancelTcpIpForward dest address port => cancelTcpipForward address port dest
  | .disconnect reason description languageTag => disconnect reason description languageTag

/-- A call of a handler. -/
def call (env : ServerEnv) : ServerCall → ServerAppM P Unit
  | .flush => flush env
  | .flushPending id => flushPending id
  | .disconnect reason description languageTag => disconnect reason description languageTag
  | .debug alwaysDisplay message languageTag => debug alwaysDisplay message languageTag
  | .requestSuccess => requestSuccess
  | .requestFailure => requestFailure
  | .channelOpenFailure id reason description language =>
    channelOpenFailure id reason description language
  | .channel id msg => handleChannelMsg id msg
  | .keepaliveRequest => keepaliveRequest
  | .sendPing dest => sendPing dest
  | .channelOpenSession => discard (channelOpenSession none)
  | .channelOpenDirectTcpip host port address originatorPort =>
    discard (channelOpenDirectTcpip host port address originatorPort none)
  | .channelOpenDirectStreamlocal socketPath =>
    discard (channelOpenDirectStreamlocal socketPath none)
  | .channelOpenForwardedTcpip address port originator originatorPort =>
    discard (channelOpenForwardedTcpip address port originator originatorPort none)
  | .channelOpenForwardedStreamlocal socketPath =>
    discard (channelOpenForwardedStreamlocal socketPath none)
  | .channelOpenX11 address port => discard (channelOpenX11 address port none)
  | .channelOpenAgent => discard (channelOpenAgent none)
  | .tcpipForward address port dest => tcpipForward address port dest
  | .cancelTcpipForward address port dest => cancelTcpipForward address port dest

/-- The calls of a handler, one after the other; an error is its business. -/
def calls (env : ServerEnv) : List ServerCall → ServerAppM P Unit
  | [] => pure ()
  | c :: cs => do
    tryCatch (call env c) fun
      | .error _ => pure ()
      | e => throw e
    calls env cs

/-- What the handler does with the session that it has in its hands, and what it returns. -/
def respond (env : ServerEnv) (cb : ServerCallback) : ServerAppM P Bool := do
  let s ← Confined.read
  let (cs, result) := env.handler cb s
  calls env cs
  Confined.lift (result.mapError Exn.error)

/-- A call of the handler for a packet of the connection that does not hand on data. -/
def callback {pkt : Option Bytes} (env : ServerEnv) (cb : ServerCallback)
    (hpkt : pkt.isSome = true) (hcall : cb.isConnection = true)
    (hdata : (Event.serverCallback cb).delivered = none) : ServerPacketM P pkt Bool := do
  serve cb hpkt hcall hdata
  quiet (respond env cb)

end Server

end Edgessh.Russh
