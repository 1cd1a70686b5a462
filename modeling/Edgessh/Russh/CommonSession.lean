import Edgessh.Russh.Session

/-!
# What the two sessions share

`CommonSession` of `session.rs`, and the fields that the `Session` of the client and that of the
server have in common. The opening key that the source moves between the session and the reader
is one field here.
-/

namespace Edgessh.Russh
open Edgessh.Command

/-- `CommonSession`. -/
structure CommonSession (C : Type) where
  authUser : Bytes := []
  remoteSshid : Bytes
  config : C
  encrypted : Option Encrypted := none
  authMethod : Option AuthMethod := none
  authAttempts : Nat := 0
  packetWriter : PacketWriter := {}
  remoteToLocal : CipherKey := .clear
  wantsReply : Bool := false
  disconnected : Bool := false
  buffer : Bytes := []
  strictKex : Bool := false
  aliveTimeouts : Nat := 0
  receivedData : Bool := false

namespace CommonSession

variable {C : Type}

/-- `newkeys`: the keys of a rekey are taken into use. -/
def newkeys (newkeys : NewKeys) (self : CommonSession C) : CommonSession C :=
  match self.encrypted with
  | none => self
  | some enc =>
    { self with
      encrypted := some
        { enc with
          exchange := some newkeys.exchange
          kex := newkeys.kex
          decompress := enc.serverCompression.initDecompress }
      remoteToLocal := newkeys.cipher.remoteToLocal
      packetWriter :=
        { self.packetWriter.setCipher newkeys.cipher.localToRemote with
          compress := enc.clientCompression.initCompress }
      strictKex := self.strictKex || newkeys.names.strictKex }

/-- `encrypted`: the keys of the initial exchange are taken into use. -/
def initEncrypted (state : EncryptedState) (newkeys : NewKeys) (now : Nat)
    (self : CommonSession C) : CommonSession C :=
  { self with
    encrypted := some (Encrypted.new state newkeys now)
    remoteToLocal := newkeys.cipher.remoteToLocal
    packetWriter := self.packetWriter.setCipher newkeys.cipher.localToRemote
    strictKex := newkeys.names.strictKex }

/-- A packet goes to `write`, or into the write buffer as it is before there is a key. -/
def pushOrUnsealed (message : Message) (self : CommonSession C) : CommonSession C :=
  match self.encrypted with
  | some enc =>
    { self with
      encrypted := some (enc.push message)
      packetWriter := self.packetWriter.record (.wrote message) }
  | none => { self with packetWriter := self.packetWriter.record (.unsealed message) }

/-- `disconnect`: once only. -/
def disconnect (reason : Nat) (description languageTag : Bytes) (self : CommonSession C) :
    CommonSession C :=
  if self.disconnected then self
  else
    { self with disconnected := true }.pushOrUnsealed
      (.disconnect reason description languageTag)

/-- `debug`. -/
def debug (alwaysDisplay : Bool) (message languageTag : Bytes) (self : CommonSession C) :
    CommonSession C :=
  self.pushOrUnsealed (.debug alwaysDisplay message languageTag)

/-- `reset_seqn`. -/
def resetSeqn (self : CommonSession C) : CommonSession C :=
  { self with packetWriter := self.packetWriter.resetSeqn }

end CommonSession

/-- The loop of `Encrypted::flush`: the packets are sealed one by one. What is left when one of
them fails stays in `write`. -/
def sealPackets (P : Primitives) :
    List Message → PacketWriter → List Message × PacketWriter × Option Exn
  | [], w => ([], w, none)
  | m :: ms, w =>
    match w.packetRaw P m with
    | .ok w => sealPackets P ms w
    | .error e => (m :: ms, w, some e)

namespace Encrypted

/-- What `flush` returns where the exchange is not skipped: whether a rekey is due. -/
def rekeyDue (limits : Limits) (dur bytes : Nat) (enc : Encrypted) : Bool :=
  enc.rekeyWanted || limits.rekeyWriteLimit ≤ bytes || limits.rekeyTimeLimit ≤ dur

end Encrypted

/-- The fields of `client::Session` and `server::Session` that are the same; `own` holds those
that are not. -/
structure Session (K C X : Type) where
  kex : SessionKexState K := .idle
  common : CommonSession C
  channels : ChannelId → Option ChannelRef := fun _ => none
  targetWindowSize : Nat
  pendingReads : List Bytes := []
  openGlobalRequests : List GlobalRequestResponse := []
  own : X

namespace Session

variable {K C X : Type}

def events (s : Session K C X) : List Event := s.common.packetWriter.events

def setWriter (w : PacketWriter) (s : Session K C X) : Session K C X :=
  { s with common := { s.common with packetWriter := w } }

def setEncrypted (enc : Encrypted) (s : Session K C X) : Session K C X :=
  { s with common := { s.common with encrypted := some enc } }

def record (event : Event) (s : Session K C X) : Session K C X :=
  s.setWriter (s.common.packetWriter.record event)

def recordAll (events : List Event) (s : Session K C X) : Session K C X :=
  s.setWriter (s.common.packetWriter.recordAll events)

/-- `process_packet` of a client is entered. -/
def enter (s : Session K C X) : Session K C X :=
  match s.common.encrypted with
  | some enc => s.record (.entered enc.state)
  | none => s

/-- The session after an operation that has put `new` behind `write`. -/
def wrote (enc : Encrypted) (new : List Message) (s : Session K C X) : Session K C X :=
  (s.setWriter (s.common.packetWriter.recordAll (new.map .wrote))).setEncrypted enc

end Session

end Edgessh.Russh
