import Edgessh.Russh.Encoding

/-!
# Messages

The message numbers of `msg.rs`, and the packets that the two sessions write. The source appends
the bytes of a packet to a buffer; the model keeps the packet, and `Message.encode` is the bytes.
-/

namespace Edgessh.Russh

/-- `ChannelId`: the number this side has given to a channel. -/
abbrev ChannelId := Nat

namespace Msg

def disconnect : UInt8 := 1
def ignore : UInt8 := 2
def unimplemented : UInt8 := 3
def debug : UInt8 := 4
def serviceRequest : UInt8 := 5
def serviceAccept : UInt8 := 6
def extInfo : UInt8 := 7
def kexInit : UInt8 := 20
def newKeys : UInt8 := 21
def kexEcdhInit : UInt8 := 30
def kexEcdhReply : UInt8 := 31
def kexDhGexRequest : UInt8 := 34
def kexDhGexGroup : UInt8 := 31
def kexDhGexInit : UInt8 := 32
def kexDhGexReply : UInt8 := 33
def kexHybridInit : UInt8 := 30
def userauthRequest : UInt8 := 50
def userauthFailure : UInt8 := 51
def userauthSuccess : UInt8 := 52
def userauthBanner : UInt8 := 53
def userauthInfoRequestOrUserauthPkOk : UInt8 := 60
def userauthInfoResponse : UInt8 := 61
def globalRequest : UInt8 := 80
def requestSuccess : UInt8 := 81
def requestFailure : UInt8 := 82
def channelOpen : UInt8 := 90
def channelOpenConfirmation : UInt8 := 91
def channelOpenFailure : UInt8 := 92
def channelWindowAdjust : UInt8 := 93
def channelData : UInt8 := 94
def channelExtendedData : UInt8 := 95
def channelEof : UInt8 := 96
def channelClose : UInt8 := 97
def channelRequest : UInt8 := 98
def channelSuccess : UInt8 := 99
def channelFailure : UInt8 := 100
def sshOpenUnknownChannelType : UInt8 := 3
def sshOpenAdministrativelyProhibited : UInt8 := 1

/-- `ALL_KEX_MESSAGES`. -/
def allKexMessages : List UInt8 :=
  [kexInit, kexEcdhInit, kexEcdhReply, kexDhGexGroup, kexDhGexInit, kexDhGexReply,
    kexDhGexRequest, newKeys]

/-- `is_kex_msg`. -/
def isKexMsg (msg : UInt8) : Bool := allKexMessages.contains msg

/-- `validate_msg_strict_kex`: whether the message is valid at this position of the order, if
the order covers it. -/
def validateMsgStrictKex (msgType : UInt8) (seqno : Nat) (order : List UInt8) : Option Bool :=
  order[seqno]?.map (· == msgType)

/-- `validate_msg_strict_kex_alt_order`. -/
def validateMsgStrictKexAltOrder (msgType : UInt8) (seqno : Nat) (orders : List (List UInt8)) :
    Option Bool :=
  orders.foldl (fun valid order =>
    match valid, validateMsgStrictKex msgType seqno order with
    | some true, _ => some true
    | _, some true => some true
    | _, some false => some false
    | valid, none => valid) none

/-- The two functions below differ in the orders they accept. -/
def validateStrictKex (orders : List (List UInt8)) (msgType : UInt8) (seqno : Nat) :
    Except Error Unit :=
  if validateMsgStrictKexAltOrder msgType seqno orders = some false then
    throw (.strictKeyExchangeViolation msgType seqno)
  else pure ()

/-- `validate_client_msg_strict_kex`. -/
def validateClientMsgStrictKex : UInt8 → Nat → Except Error Unit :=
  validateStrictKex
    [[kexInit, kexEcdhInit, newKeys], [kexInit, kexDhGexRequest, kexDhGexInit, newKeys]]

/-- `validate_server_msg_strict_kex`. -/
def validateServerMsgStrictKex : UInt8 → Nat → Except Error Unit :=
  validateStrictKex
    [[kexInit, kexEcdhReply, newKeys], [kexInit, kexDhGexGroup, kexDhGexReply, newKeys]]

end Msg

/-- A packet directed at a channel of the peer. -/
inductive ChannelMessage where
  | windowAdjust (amount : Nat)
  | data (buf : Bytes)
  | extendedData (ext : Nat) (buf : Bytes)
  | eof
  | close
  | request (name : Bytes) (wantReply : Bool) (body : Bytes)
  | success
  | failure
  deriving DecidableEq, Repr

/-- The bytes of a packet for the channel that the peer knows as `recipient`. -/
def ChannelMessage.encode (recipient : Nat) : ChannelMessage → Bytes
  | .windowAdjust amount => Msg.channelWindowAdjust :: encodeU32 recipient ++ encodeU32 amount
  | .data buf => Msg.channelData :: encodeU32 recipient ++ encodeBytes buf
  | .extendedData ext buf =>
    Msg.channelExtendedData :: encodeU32 recipient ++ encodeU32 ext ++ encodeBytes buf
  | .eof => Msg.channelEof :: encodeU32 recipient
  | .close => Msg.channelClose :: encodeU32 recipient
  | .request name wantReply body =>
    Msg.channelRequest :: encodeU32 recipient ++ encodeBytes name ++ encodeBool wantReply ++ body
  | .success => Msg.channelSuccess :: encodeU32 recipient
  | .failure => Msg.channelFailure :: encodeU32 recipient

/-- The packets that the sessions write. -/
inductive Message where
  | disconnect (reason : Nat) (description languageTag : Bytes)
  | debug (alwaysDisplay : Bool) (message languageTag : Bytes)
  | serviceRequest (name : Bytes)
  | serviceAccept (name : Bytes)
  | extInfo (name value : Bytes)
  /-- A packet of `negotiation::write_kex`. -/
  | kexInit (payload : Bytes)
  /-- A packet of the negotiated key exchange algorithm. -/
  | kex (payload : Bytes)
  | newKeys
  | userauthRequest (user method data : Bytes)
  | userauthFailure (methods : List Bytes) (partialSuccess : Bool)
  | userauthSuccess
  | userauthBanner (banner : Bytes)
  | userauthPkOk (algo key : Bytes)
  | userauthInfoRequest (name instructions : Bytes) (prompts : List (Bytes × Bool))
  | userauthInfoResponse (responses : List Bytes)
  /-- Bytes written as they are: a signed authentication request. -/
  | raw (payload : Bytes)
  | globalRequest (name : Bytes) (wantReply : Bool) (data : Bytes)
  | requestSuccess (data : Bytes)
  | requestFailure
  | channelOpen (kind : Bytes) (sender : ChannelId) (window maxPacket : Nat) (data : Bytes)
  | channelOpenConfirmation (recipient sender window maxPacket : Nat)
  | channelOpenFailure (recipient reason : Nat) (description language : Bytes)
  /-- A packet about the channel that this side knows as `sender`. -/
  | channel (sender : ChannelId) (recipient : Nat) (msg : ChannelMessage)
  deriving DecidableEq, Repr

/-- The payload of the packet. -/
def Message.encode : Message → Bytes
  | .disconnect reason description languageTag =>
    Msg.disconnect :: encodeU32 reason ++ encodeBytes description ++ encodeBytes languageTag
  | .debug alwaysDisplay message languageTag =>
    Msg.debug :: encodeBool alwaysDisplay ++ encodeBytes message ++ encodeBytes languageTag
  | .serviceRequest name => Msg.serviceRequest :: encodeBytes name
  | .serviceAccept name => Msg.serviceAccept :: encodeBytes name
  | .extInfo name value =>
    Msg.extInfo :: encodeU32 1 ++ encodeBytes name ++ encodeBytes value
  | .kexInit payload => payload
  | .kex payload => payload
  | .newKeys => [Msg.newKeys]
  | .userauthRequest user method data =>
    Msg.userauthRequest :: encodeBytes user ++ encodeBytes (ascii "ssh-connection") ++
      encodeBytes method ++ data
  | .userauthFailure methods partialSuccess =>
    Msg.userauthFailure :: encodeNameList methods ++ encodeBool partialSuccess
  | .userauthSuccess => [Msg.userauthSuccess]
  | .userauthBanner banner => Msg.userauthBanner :: encodeBytes banner ++ encodeBytes []
  | .userauthPkOk algo key =>
    Msg.userauthInfoRequestOrUserauthPkOk :: encodeBytes algo ++ encodeBytes key
  | .userauthInfoRequest name instructions prompts =>
    Msg.userauthInfoRequestOrUserauthPkOk :: encodeBytes name ++ encodeBytes instructions ++
      encodeBytes [] ++ encodeU32 prompts.length ++
      prompts.flatMap fun p => encodeBytes p.1 ++ encodeBool p.2
  | .userauthInfoResponse responses =>
    Msg.userauthInfoResponse :: encodeU32 responses.length ++ responses.flatMap encodeBytes
  | .raw payload => payload
  | .globalRequest name wantReply data =>
    Msg.globalRequest :: encodeBytes name ++ encodeBool wantReply ++ data
  | .requestSuccess data => Msg.requestSuccess :: data
  | .requestFailure => [Msg.requestFailure]
  | .channelOpen kind sender window maxPacket data =>
    Msg.channelOpen :: encodeBytes kind ++ encodeU32 sender ++ encodeU32 window ++
      encodeU32 maxPacket ++ data
  | .channelOpenConfirmation recipient sender window maxPacket =>
    Msg.channelOpenConfirmation :: encodeU32 recipient ++ encodeU32 sender ++ encodeU32 window ++
      encodeU32 maxPacket
  | .channelOpenFailure recipient reason description language =>
    Msg.channelOpenFailure :: encodeU32 recipient ++ encodeU32 reason ++
      encodeBytes description ++ encodeBytes language
  | .channel _ recipient msg => msg.encode recipient

/-- A packet of a key exchange. -/
def Message.isKex : Message → Bool
  | .kexInit _ | .kex _ | .newKeys => true
  | _ => false

end Edgessh.Russh
