import Edgessh.Russh.Kex.Progress
import Mathlib.Logic.Function.Basic

/-!
# The encrypted part of a session

`session.rs`: the channel table, the data that waits for the peer's window, and the packets that
have been written and not sealed yet. A packet of `write` is kept whole instead of behind its
length. The windows are 32 bits wide; buffers and offsets are `usize`, and the source truncates
them to 32 bits where it compares them with a window.
-/

namespace Edgessh.Russh

/-- An entry of `pending_data`: a buffer, its extended stream and the offset of the first byte
that has not been written. -/
structure PendingData where
  buf : Bytes
  ext : Option Nat
  offset : Nat
  deriving DecidableEq, Repr

/-- `ChannelParams`. -/
structure ChannelParams where
  recipientChannel : Nat
  senderChannel : ChannelId
  recipientWindowSize : UInt32
  senderWindowSize : UInt32
  recipientMaximumPacketSize : Nat
  senderMaximumPacketSize : Nat
  confirmed : Bool
  wantsReply : Bool
  pendingData : List PendingData := []
  pendingEof : Bool := false
  pendingClose : Bool := false
  deriving DecidableEq, Repr

/-- `ChannelFlushResult`. -/
inductive ChannelFlushResult where
  | incomplete (wrote : Nat)
  | complete (wrote : Nat) (pendingEof pendingClose : Bool)
  deriving DecidableEq, Repr

/-- `ChannelFlushResult::wrote`. -/
def ChannelFlushResult.wrote : ChannelFlushResult → Nat
  | incomplete wrote => wrote
  | complete wrote _ _ => wrote

namespace ChannelParams

/-- The entry that `new_channel` makes. -/
def opened (windowSize maxpacket : Nat) (id : ChannelId) : ChannelParams :=
  { recipientChannel := 0
    senderChannel := id
    senderWindowSize := UInt32.ofNat windowSize
    recipientWindowSize := 0
    senderMaximumPacketSize := maxpacket
    recipientMaximumPacketSize := 0
    confirmed := false
    wantsReply := false }

/-- `ChannelParams::confirm`. -/
def confirm (c : ChannelOpenConfirmation) (channel : ChannelParams) : ChannelParams :=
  { channel with
    recipientChannel := c.senderChannel
    recipientWindowSize := UInt32.ofNat c.initialWindowSize
    recipientMaximumPacketSize := c.maximumPacketSize
    confirmed := true }

/-- The window grows by a CHANNEL_WINDOW_ADJUST (`saturating_add`). -/
def enlarge (amount : UInt32) (channel : ChannelParams) : ChannelParams :=
  { channel with
    recipientWindowSize :=
      UInt32.ofNat (min (channel.recipientWindowSize.toNat + amount.toNat) (UInt32.size - 1)) }

/-- A CHANNEL_DATA or a CHANNEL_EXTENDED_DATA. -/
def dataMessage (a : Option Nat) (buf : Bytes) : ChannelMessage :=
  match a with
  | none => .data buf
  | some ext => .extendedData ext buf

/-- The loop of `data_noqueue`. Every round takes a byte off the buffer, unless packets may not
have any: then the loop does not end. -/
def writePackets (maximumPacketSize : Nat) (a : Option Nat) :
    Nat → Bytes → UInt32 → Except Exn (List ChannelMessage × UInt32)
  | _, [], window => pure ([], window)
  | 0, _ :: _, _ => throw .diverge
  | fuel + 1, buf, window => do
    let off := min buf.length maximumPacketSize
    let (packets, window) ← writePackets maximumPacketSize a fuel (buf.drop off)
      (window - UInt32.ofNat off)
    pure (dataMessage a (buf.take off) :: packets, window)

/-- Whether `data_noqueue` takes the rest of the buffer to be larger than the window. -/
def exceedsWindow (window : UInt32) (buf0 : Bytes) (offset : Nat) : Bool :=
  UInt32.ofNat buf0.length > UInt32.ofNat offset + window

/-- `&buf0[from..to]`. -/
def slice (buf0 : Bytes) (offset stop : Nat) : Except Exn Bytes :=
  if stop ≤ buf0.length then pure ((buf0.take stop).drop offset) else throw .panic

/-- The part of the buffer that `data_noqueue` writes. -/
def fittingPart (window : UInt32) (buf0 : Bytes) (offset : Nat) : Except Exn Bytes :=
  if exceedsWindow window buf0 offset then slice buf0 offset (offset + window.toNat)
  else pure (buf0.drop offset)

/-- `data_noqueue`: the packets, and how many bytes are in them. -/
def dataNoqueue (channel : ChannelParams) (buf0 : Bytes) (a : Option Nat) (offset : Nat) :
    Except Exn (List ChannelMessage × ChannelParams × Nat) := do
  if buf0.length ≤ offset then pure ([], channel, 0)
  else
    let buf ← fittingPart channel.recipientWindowSize buf0 offset
    let (packets, window) ← writePackets channel.recipientMaximumPacketSize a buf.length buf
      channel.recipientWindowSize
    pure (packets, { channel with recipientWindowSize := window }, buf.length)

/-- The loop of `flush_channel` over the data that waits. -/
def flushPendingData (channel : ChannelParams) (pendingSize : Nat) :
    List PendingData → Except Exn (List ChannelMessage × ChannelParams × ChannelFlushResult)
  | [] => pure ([], { channel with pendingData := [] },
      .complete pendingSize channel.pendingEof channel.pendingClose)
  | p :: ps => do
    let (packets, channel, size) ← channel.dataNoqueue p.buf p.ext p.offset
    if p.offset + size < p.buf.length then
      pure (packets, { channel with pendingData := { p with offset := p.offset + size } :: ps },
        .incomplete (pendingSize + size))
    else
      let (packets', channel, result) ← flushPendingData channel (pendingSize + size) ps
      pure (packets ++ packets', channel, result)

/-- `flush_channel`. -/
def flushChannel (channel : ChannelParams) :
    Except Exn (List ChannelMessage × ChannelParams × ChannelFlushResult) :=
  channel.flushPendingData 0 channel.pendingData

end ChannelParams

/-- The channel table, a `HashMap`. -/
abbrev Channels := ChannelId → Option ChannelParams

/-- `Encrypted`. -/
structure Encrypted where
  state : EncryptedState
  exchange : Option Exchange
  kex : KexAlgorithm
  sessionId : Bytes
  channels : Channels
  lastChannelId : UInt32
  write : List Message
  lastRekey : Nat
  serverCompression : Compression
  clientCompression : Compression
  decompress : Decompress
  rekeyWanted : Bool
  receivedExtensions : List Bytes
  /-- The receivers that wait for an extension, by its name. -/
  extensionInfoAwaiters : List (Bytes × ReplyChannel)

namespace Encrypted

/-- The `Encrypted` of `CommonSession::encrypted`. -/
def new (state : EncryptedState) (newkeys : NewKeys) (now : Nat) : Encrypted where
  state := state
  exchange := some newkeys.exchange
  kex := newkeys.kex
  sessionId := newkeys.sessionId
  channels := fun _ => none
  lastChannelId := 1
  write := []
  lastRekey := now
  serverCompression := newkeys.names.serverCompression
  clientCompression := newkeys.names.clientCompression
  decompress := .none
  rekeyWanted := false
  receivedExtensions := []
  extensionInfoAwaiters := []

/-- `push_packet!` on `write`. -/
def push (message : Message) (enc : Encrypted) : Encrypted :=
  { enc with write := enc.write ++ [message] }

/-- Packets about one channel are written. -/
def pushChannel (id : ChannelId) (recipient : Nat) (packets : List ChannelMessage)
    (enc : Encrypted) : Encrypted :=
  { enc with write := enc.write ++ packets.map (.channel id recipient) }

def setChannel (id : ChannelId) (channel : ChannelParams) (enc : Encrypted) : Encrypted :=
  { enc with channels := Function.update enc.channels id (some channel) }

def removeChannel (id : ChannelId) (enc : Encrypted) : Encrypted :=
  { enc with channels := Function.update enc.channels id none }

/-- `byte`, for the packets that name a channel and nothing else. -/
def byte (id : ChannelId) (msg : ChannelMessage) (enc : Encrypted) : Encrypted :=
  match enc.channels id with
  | some channel => enc.pushChannel id channel.recipientChannel [msg]
  | none => enc

/-- `has_pending_data`. -/
def hasPendingData (id : ChannelId) (enc : Encrypted) : Bool :=
  match enc.channels id with
  | some channel => !channel.pendingData.isEmpty
  | none => false

/-- `has_pending_data_mut`. -/
def pendingChannel? (id : ChannelId) (enc : Encrypted) : Option ChannelParams :=
  (enc.channels id).filter fun channel => !channel.pendingData.isEmpty

/-- `eof`. -/
def eof (id : ChannelId) (enc : Encrypted) : Encrypted :=
  match enc.pendingChannel? id with
  | some channel => enc.setChannel id { channel with pendingEof := true }
  | none => enc.byte id .eof

/-- `close`. -/
def close (id : ChannelId) (enc : Encrypted) : Encrypted :=
  match enc.pendingChannel? id with
  | some channel => enc.setChannel id { channel with pendingClose := true }
  | none =>
    (enc.byte id .close).removeChannel id

/-- `sender_window_size`. -/
def senderWindowSize (id : ChannelId) (enc : Encrypted) : Nat :=
  match enc.channels id with
  | some channel => channel.senderWindowSize.toNat
  | none => 0

/-- `adjust_window_size`: whether the peer's window has been enlarged. -/
def adjustWindowSize (id : ChannelId) (data : Bytes) (target : UInt32) (enc : Encrypted) :
    Encrypted × Bool :=
  match enc.channels id with
  | none => (enc, false)
  | some channel =>
    let size :=
      if UInt32.ofNat data.length ≤ channel.senderWindowSize then
        channel.senderWindowSize - UInt32.ofNat data.length
      else channel.senderWindowSize
    if size < target / 2 then
      ((enc.pushChannel id channel.recipientChannel
          [.windowAdjust (target - size).toNat]).setChannel id
        { channel with senderWindowSize := target }, true)
    else (enc.setChannel id { channel with senderWindowSize := size }, false)

theorem adjustWindowSize_sessionId (id : ChannelId) (data : Bytes) (target : UInt32)
    (enc : Encrypted) : (enc.adjustWindowSize id data target).1.sessionId = enc.sessionId := by
  unfold adjustWindowSize
  split
  · rfl
  · dsimp only
    split <;> split <;> rfl

theorem adjustWindowSize_state (id : ChannelId) (data : Bytes) (target : UInt32)
    (enc : Encrypted) : (enc.adjustWindowSize id data target).1.state = enc.state := by
  unfold adjustWindowSize
  split
  · rfl
  · dsimp only
    split <;> split <;> rfl

/-- What accounting for data writes: at most a CHANNEL_WINDOW_ADJUST. -/
theorem adjustWindowSize_write (id : ChannelId) (data : Bytes) (target : UInt32)
    (enc : Encrypted) :
    ∃ new, (enc.adjustWindowSize id data target).1.write = enc.write ++ new ∧
      ∀ m ∈ new, ∃ recipient amount, m = .channel id recipient (.windowAdjust amount) := by
  unfold adjustWindowSize
  split
  · exact ⟨[], by simp⟩
  · rename_i channel hc
    dsimp only
    generalize (if UInt32.ofNat data.length ≤ channel.senderWindowSize then
      channel.senderWindowSize - UInt32.ofNat data.length else channel.senderWindowSize) = size
    split
    · exact ⟨_, rfl, by simp⟩
    · exact ⟨[], by simp [setChannel]⟩

/-- `handle_flushed_channel`. -/
def handleFlushedChannel (id : ChannelId) (result : ChannelFlushResult) (enc : Encrypted) :
    Encrypted :=
  match result with
  | .incomplete _ => enc
  | .complete _ pendingEof pendingClose =>
    let enc := if pendingEof then enc.eof id else enc
    if pendingClose then enc.close id else enc

/-- `flush_channel` on the channel `id` of the table. -/
def flushChannel (id : ChannelId) (channel : ChannelParams) (enc : Encrypted) :
    Except Exn (Encrypted × ChannelFlushResult) := do
  let (packets, channel', result) ← channel.flushChannel
  pure ((enc.pushChannel id channel.recipientChannel packets).setChannel id channel', result)

/-- `flush_pending`. -/
def flushPending (id : ChannelId) (enc : Encrypted) : Except Exn (Encrypted × Nat) :=
  match enc.channels id with
  | none => pure (enc, 0)
  | some channel => do
    let (enc, result) ← enc.flushChannel id channel
    pure (enc.handleFlushedChannel id result, result.wrote)

/-- `flush_all_pending`, for the order in which the table is walked through. -/
def flushAllPending : List ChannelId → Encrypted → Except Exn Encrypted
  | [], enc => pure enc
  | id :: ids, enc =>
    match enc.channels id with
    | none => flushAllPending ids enc
    | some channel => do
      let (enc, _) ← enc.flushChannel id channel
      flushAllPending ids enc

/-- `data` and `extended_data`. -/
def dataWith (ext : Option Nat) (id : ChannelId) (buf0 : Bytes) (isRekeying : Bool)
    (enc : Encrypted) : Except Exn Encrypted :=
  match enc.channels id with
  | none => pure enc
  | some channel =>
    if !channel.confirmed then throw .panic
    else if !channel.pendingData.isEmpty && isRekeying then
      pure (enc.setChannel id
        { channel with pendingData := channel.pendingData ++ [⟨buf0, ext, 0⟩] })
    else do
      let (packets, channel', bufLen) ← channel.dataNoqueue buf0 ext 0
      let enc := enc.pushChannel id channel.recipientChannel packets
      pure (enc.setChannel id
        (if bufLen < buf0.length then
          { channel' with pendingData := channel'.pendingData ++ [⟨buf0, ext, bufLen⟩] }
        else channel'))

/-- `data`. -/
def data : ChannelId → Bytes → Bool → Encrypted → Except Exn Encrypted := dataWith none

/-- `extended_data`. -/
def extendedData (id : ChannelId) (ext : Nat) : Bytes → Bool → Encrypted → Except Exn Encrypted :=
  dataWith (some ext) id

/-- What both sessions do first with a CHANNEL_WINDOW_ADJUST: the enlarged window, if there is
such a channel. -/
def enlargeWindow (id : ChannelId) (amount : UInt32) (enc : Encrypted) :
    Option (Encrypted × UInt32) :=
  (enc.channels id).map fun channel =>
    (enc.setChannel id (channel.enlarge amount), (channel.enlarge amount).recipientWindowSize)

/-- `new_channel_id`. -/
def newChannelId (enc : Encrypted) : Nat → Except Exn (Encrypted × ChannelId)
  | 0 => throw .diverge
  | fuel + 1 =>
    let enc := { enc with lastChannelId := enc.lastChannelId + 1 }
    if (enc.channels enc.lastChannelId.toNat).isSome then enc.newChannelId fuel
    else pure (enc, enc.lastChannelId.toNat)

end Encrypted

end Edgessh.Russh
