import Edgessh.Lib.Command
import Edgessh.Russh.Session

/-!
# One channel of the table

Every operation of `Encrypted` that writes about a channel acts on the entry of this channel and
on the end of `write`, and on nothing else. Here each of them is brought into this form: an
operation on `ChannelParams` that gives packets and an entry, or none if the channel is removed.
-/

namespace Edgessh.Russh
open Edgessh.Command

/-- The bytes of a buffer with their extended stream. -/
def tagged (a : Option Nat) (buf : Bytes) : List (Option Nat × UInt8) := buf.map fun b => (a, b)

@[simp] theorem tagged_nil (a : Option Nat) : tagged a [] = [] := rfl

theorem tagged_append (a : Option Nat) (b c : Bytes) :
    tagged a (b ++ c) = tagged a b ++ tagged a c := List.map_append

@[simp] theorem length_tagged (a : Option Nat) (b : Bytes) : (tagged a b).length = b.length :=
  List.length_map _

/-- The data in a packet. -/
def ChannelMessage.payload : ChannelMessage → List (Option Nat × UInt8)
  | .data buf => tagged none buf
  | .extendedData ext buf => tagged (some ext) buf
  | _ => []

namespace ChannelParams

@[simp] theorem payload_dataMessage (a : Option Nat) (buf : Bytes) :
    (dataMessage a buf).payload = tagged a buf := by
  cases a <;> rfl

/-- `eof`, on the entry of the channel. -/
def eof (channel : ChannelParams) : List ChannelMessage × ChannelParams :=
  if channel.pendingData = [] then ([.eof], channel)
  else ([], { channel with pendingEof := true })

/-- `close`, on the entry of the channel. -/
def close (channel : ChannelParams) : List ChannelMessage × Option ChannelParams :=
  if channel.pendingData = [] then ([.close], none)
  else ([], some { channel with pendingClose := true })

/-- `data` and `extended_data`, on the entry of the channel. -/
def submit (ext : Option Nat) (buf0 : Bytes) (isRekeying : Bool) (channel : ChannelParams) :
    Except Exn (List ChannelMessage × ChannelParams) :=
  if !channel.confirmed then throw .panic
  else if !channel.pendingData.isEmpty && isRekeying then
    pure ([], { channel with pendingData := channel.pendingData ++ [⟨buf0, ext, 0⟩] })
  else do
    let (packets, channel, bufLen) ← channel.dataNoqueue buf0 ext 0
    pure (packets,
      if bufLen < buf0.length then
        { channel with pendingData := channel.pendingData ++ [⟨buf0, ext, bufLen⟩] }
      else channel)

/-- `handle_flushed_channel`, on an entry without data that waits. -/
def afterFlush (channel : ChannelParams) :
    ChannelFlushResult → List ChannelMessage × Option ChannelParams
  | .incomplete _ => ([], some channel)
  | .complete _ pendingEof pendingClose =>
    ((if pendingEof then [.eof] else []) ++ (if pendingClose then [.close] else []),
      if pendingClose then none else some channel)

/-- `flush_pending`, on the entry of the channel. -/
def drain (channel : ChannelParams) :
    Except Exn (List ChannelMessage × Option ChannelParams) := do
  let (packets, channel, result) ← channel.flushChannel
  let (packets', channel) := channel.afterFlush result
  pure (packets ++ packets', channel)

/-- A larger window, and `flush_pending`. -/
def adjust (amount : UInt32) (channel : ChannelParams) :
    Except Exn (List ChannelMessage × Option ChannelParams) := do
  let (packets, channel, result) ← (channel.enlarge amount).flushChannel
  let (packets', channel) := channel.afterFlush result
  pure (packets ++ packets', channel)

/-- What the result of a flush says about the channel that it leaves. -/
def Describes (channel : ChannelParams) : ChannelFlushResult → Prop
  | .incomplete _ => channel.pendingData ≠ []
  | .complete _ pendingEof pendingClose => channel.pendingData = [] ∧
      pendingEof = channel.pendingEof ∧ pendingClose = channel.pendingClose

/-- The bytes that wait, in order. -/
def queued (ps : List PendingData) : List (Option Nat × UInt8) :=
  ps.flatMap fun p => tagged p.ext (p.buf.drop p.offset)

/-- A channel whose data waits has no window left, and `data_noqueue` sees that it has none. -/
def Blocked (channel : ChannelParams) : Prop :=
  ∀ p ps, channel.pendingData = p :: ps →
    channel.recipientWindowSize = 0 ∧ exceedsWindow 0 p.buf p.offset ∧ p.offset < p.buf.length

/-- The bytes are written in order, in packets of the size that is allowed. -/
theorem writePackets_eq_ok {maximumPacketSize fuel : Nat} {a : Option Nat} {buf : Bytes}
    {window window' : UInt32} {packets : List ChannelMessage}
    (h : writePackets maximumPacketSize a fuel buf window = .ok (packets, window')) :
    packets.flatMap ChannelMessage.payload = tagged a buf ∧
      window' = window - UInt32.ofNat buf.length ∧
      ∀ msg ∈ packets, ∃ b, msg = dataMessage a b ∧ b.length ≤ maximumPacketSize := by
  induction fuel generalizing buf window packets with
  | zero =>
    cases buf with
    | nil =>
      obtain ⟨rfl, rfl⟩ := Prod.mk.inj (pure_eq_ok.mp h)
      simp [tagged]
    | cons b buf => cases h
  | succ fuel ih =>
    cases buf with
    | nil =>
      obtain ⟨rfl, rfl⟩ := Prod.mk.inj (pure_eq_ok.mp h)
      simp [tagged]
    | cons b buf =>
      rw [writePackets] at h
      · generalize hoff : min (b :: buf).length maximumPacketSize = off at h
        obtain ⟨⟨rest, w⟩, hq, h⟩ := bind_eq_ok.mp h
        obtain ⟨rfl, rfl⟩ := Prod.mk.inj (pure_eq_ok.mp h)
        obtain ⟨hpay, hwin, hsize⟩ := ih hq
        refine ⟨?_, ?_, ?_⟩
        · rw [List.flatMap_cons, hpay, payload_dataMessage, ← tagged_append,
            List.take_append_drop]
        · have hlen : (b :: buf).length = off + ((b :: buf).drop off).length := by
            rw [List.length_drop]
            omega
          rw [hwin, hlen, UInt32.ofNat_add]
          grind
        · intro msg hm
          rcases List.mem_cons.mp hm with rfl | hm
          · exact ⟨_, rfl, by rw [List.length_take]; omega⟩
          · exact hsize msg hm
      · simp

/-- The loop ends when packets may have a byte. -/
theorem writePackets_returns {maximumPacketSize fuel : Nat} (a : Option Nat) {buf : Bytes}
    (window : UInt32) (hmax : 0 < maximumPacketSize) (hfuel : buf.length ≤ fuel) :
    ∃ r, writePackets maximumPacketSize a fuel buf window = .ok r := by
  induction fuel generalizing buf window with
  | zero =>
    obtain rfl : buf = [] := List.length_eq_zero_iff.mp (by omega)
    exact ⟨_, rfl⟩
  | succ fuel ih =>
    cases buf with
    | nil => exact ⟨_, rfl⟩
    | cons b buf =>
      rw [writePackets]
      · have hrest : ((b :: buf).drop (min (b :: buf).length maximumPacketSize)).length ≤ fuel := by
          rw [List.length_drop]
          simp only [List.length_cons] at hfuel ⊢
          omega
        obtain ⟨r, hr⟩ := ih
          (window - UInt32.ofNat (min (b :: buf).length maximumPacketSize)) hrest
        rw [hr]
        exact ⟨_, rfl⟩
      · simp

/-- The part that is written starts at the offset; it ends with the window or with the
buffer. -/
theorem fittingPart_eq_ok {window : UInt32} {buf0 buf : Bytes} {offset : Nat}
    (h : fittingPart window buf0 offset = .ok buf) (ho : offset ≤ buf0.length) :
    buf = (buf0.drop offset).take buf.length ∧ offset + buf.length ≤ buf0.length ∧
      buf.length =
        if exceedsWindow window buf0 offset then window.toNat else buf0.length - offset := by
  unfold fittingPart at h
  split at h
  · rename_i hex
    unfold slice at h
    split at h
    · rename_i hle
      obtain rfl := pure_eq_ok.mp h
      have hlen : ((buf0.take (offset + window.toNat)).drop offset).length = window.toNat := by
        rw [List.length_drop, List.length_take]
        omega
      rw [hlen, List.drop_take, Nat.add_sub_cancel_left]
      exact ⟨rfl, hle, (if_pos hex).symm⟩
    · cases h
  · rename_i hex
    obtain rfl := pure_eq_ok.mp h
    refine ⟨(List.take_length).symm, ?_, ?_⟩
    · rw [List.length_drop]
      omega
    · rw [List.length_drop, if_neg hex]

/-- What `data_noqueue` writes and what it changes. -/
structure Writes (channel : ChannelParams) (buf0 : Bytes) (a : Option Nat) (offset : Nat)
    (packets : List ChannelMessage) (channel' : ChannelParams) (size : Nat) : Prop where
  payload : packets.flatMap ChannelMessage.payload = tagged a ((buf0.drop offset).take size)
  channel_eq : channel' =
    { channel with recipientWindowSize := channel.recipientWindowSize - UInt32.ofNat size }
  packets_le : ∀ msg ∈ packets,
    ∃ b, msg = dataMessage a b ∧ b.length ≤ channel.recipientMaximumPacketSize
  packets_nil : size = 0 → packets = []
  offset_le : offset + size ≤ buf0.length
  size_eq : size =
    if exceedsWindow channel.recipientWindowSize buf0 offset then
      channel.recipientWindowSize.toNat
    else buf0.length - offset

theorem dataNoqueue_writes {channel channel' : ChannelParams} {buf0 : Bytes} {a : Option Nat}
    {offset size : Nat} {packets : List ChannelMessage} (ho : offset < buf0.length)
    (h : channel.dataNoqueue buf0 a offset = .ok (packets, channel', size)) :
    channel.Writes buf0 a offset packets channel' size := by
  rw [dataNoqueue, if_neg (by omega)] at h
  obtain ⟨buf, hbuf, h⟩ := bind_eq_ok.mp h
  obtain ⟨⟨written, window⟩, hw, h⟩ := bind_eq_ok.mp h
  obtain ⟨rfl, rfl, rfl⟩ := by simpa [pure_eq_ok] using h
  obtain ⟨hpart, hle, hlen⟩ := fittingPart_eq_ok hbuf (by omega)
  obtain ⟨hpay, hwin, hsize⟩ := writePackets_eq_ok hw
  exact
    { payload := by rw [hpay, ← hpart]
      channel_eq := by rw [hwin]
      packets_le := hsize
      packets_nil := by
        intro hzero
        obtain rfl : buf = [] := List.length_eq_zero_iff.mp hzero
        cases hw
        rfl
      offset_le := hle
      size_eq := hlen }

/-- A buffer of which nothing is left. -/
theorem dataNoqueue_of_le {channel : ChannelParams} {buf0 : Bytes} {a : Option Nat}
    {offset : Nat} (ho : buf0.length ≤ offset) :
    channel.dataNoqueue buf0 a offset = .ok ([], channel, 0) := by
  rw [dataNoqueue, if_pos ho]
  rfl

/-- What `data_noqueue` leaves alone. -/
theorem dataNoqueue_frame {channel channel' : ChannelParams} {buf0 : Bytes} {a : Option Nat}
    {offset size : Nat} {packets : List ChannelMessage}
    (h : channel.dataNoqueue buf0 a offset = .ok (packets, channel', size)) :
    channel' = { channel with recipientWindowSize := channel'.recipientWindowSize } := by
  by_cases ho : offset < buf0.length
  · rw [(dataNoqueue_writes ho h).channel_eq]
  · rw [dataNoqueue_of_le (by omega)] at h
    cases h
    rfl

/-- What is left of the buffer after `data_noqueue`. -/
theorem dataNoqueue_payload {channel channel' : ChannelParams} {buf0 : Bytes} {a : Option Nat}
    {offset size : Nat} {packets : List ChannelMessage}
    (h : channel.dataNoqueue buf0 a offset = .ok (packets, channel', size)) :
    packets.flatMap ChannelMessage.payload ++ tagged a (buf0.drop (offset + size)) =
      tagged a (buf0.drop offset) := by
  by_cases ho : offset < buf0.length
  · rw [(dataNoqueue_writes ho h).payload, ← List.drop_drop, ← tagged_append,
      List.take_append_drop]
  · rw [dataNoqueue_of_le (by omega)] at h
    cases h
    rfl

/-- If something is left, the window is used up. -/
theorem dataNoqueue_blocked {channel channel' : ChannelParams} {buf0 : Bytes} {a : Option Nat}
    {offset size : Nat} {packets : List ChannelMessage}
    (h : channel.dataNoqueue buf0 a offset = .ok (packets, channel', size))
    (hleft : offset + size < buf0.length) :
    channel'.recipientWindowSize = 0 ∧ exceedsWindow 0 buf0 (offset + size) := by
  have hw := dataNoqueue_writes (by omega) h
  have hsize := hw.size_eq
  split at hsize
  · rename_i hex
    refine ⟨by rw [hw.channel_eq, hsize]; simp, ?_⟩
    simp only [exceedsWindow, hsize, UInt32.ofNat_add, UInt32.ofNat_toNat] at hex ⊢
    simpa using hex
  · omega

/-- What `flush_channel` writes and what it changes: the window and the queue. -/
structure Flushes (channel : ChannelParams) (ps : List PendingData)
    (packets : List ChannelMessage) (channel' : ChannelParams) (result : ChannelFlushResult) :
    Prop where
  payload : packets.flatMap ChannelMessage.payload ++ queued channel'.pendingData = queued ps
  channel_eq : channel' =
    { channel with
      recipientWindowSize := channel'.recipientWindowSize
      pendingData := channel'.pendingData }
  packets_le : ∀ msg ∈ packets,
    ∃ a b, msg = dataMessage a b ∧ b.length ≤ channel.recipientMaximumPacketSize
  blocked : channel'.Blocked
  describes : channel'.Describes result

theorem flushPendingData_flushes {channel channel' : ChannelParams} {ps : List PendingData}
    {n : Nat} {packets : List ChannelMessage} {result : ChannelFlushResult}
    (h : channel.flushPendingData n ps = .ok (packets, channel', result)) :
    channel.Flushes ps packets channel' result := by
  induction ps generalizing channel n packets with
  | nil =>
    obtain ⟨rfl, rfl, rfl⟩ := by simpa [flushPendingData, pure_eq_ok] using h
    exact ⟨rfl, rfl, by simp, by simp [Blocked], by simp [Describes]⟩
  | cons p ps ih =>
    rw [flushPendingData] at h
    obtain ⟨⟨written, c, size⟩, hd, h⟩ := bind_eq_ok.mp h
    have hpay := dataNoqueue_payload hd
    have hc := dataNoqueue_frame hd
    have hle : ∀ msg ∈ written,
        ∃ a b, msg = dataMessage a b ∧ b.length ≤ channel.recipientMaximumPacketSize := by
      intro msg hm
      by_cases ho : p.offset < p.buf.length
      · exact ⟨p.ext, (dataNoqueue_writes ho hd).packets_le msg hm⟩
      · rw [dataNoqueue_of_le (by omega)] at hd
        cases hd
        cases hm
    dsimp only at h
    split at h
    · rename_i hleft
      obtain ⟨rfl, rfl, rfl⟩ := by simpa [pure_eq_ok] using h
      obtain ⟨hzero, hex⟩ := dataNoqueue_blocked hd hleft
      refine ⟨?_, by rw [hc], hle, ?_, by simp [Describes]⟩
      · simp only [queued, List.flatMap_cons, ← List.append_assoc, hpay]
      · rintro q qs hq
        cases hq
        exact ⟨hzero, hex, hleft⟩
    · rename_i hdone
      obtain ⟨⟨written', c', r⟩, hf, h⟩ := bind_eq_ok.mp h
      obtain ⟨rfl, rfl, rfl⟩ := by simpa [pure_eq_ok] using h
      have hr := ih hf
      rw [List.drop_eq_nil_of_le (by omega), tagged_nil, List.append_nil] at hpay
      refine ⟨?_, by rw [hr.channel_eq, hc], ?_, hr.blocked, hr.describes⟩
      · rw [List.flatMap_append, List.append_assoc, hr.payload, hpay]
        rfl
      · intro msg hm
        rcases List.mem_append.mp hm with hm | hm
        · exact hle msg hm
        · obtain ⟨a, b, hb, hlen⟩ := hr.packets_le msg hm
          rw [hc] at hlen
          exact ⟨a, b, hb, hlen⟩

/-- A channel for which nothing waits. -/
theorem flushChannel_of_drained {channel : ChannelParams} (h : channel.pendingData = []) :
    channel.flushChannel =
      .ok ([], channel, .complete 0 channel.pendingEof channel.pendingClose) := by
  rw [flushChannel, h, flushPendingData, ← h]
  rfl

/-- A channel that is blocked stays as it is when it is flushed. -/
theorem flushChannel_of_blocked {channel channel' : ChannelParams} (hb : channel.Blocked)
    {packets : List ChannelMessage} {result : ChannelFlushResult}
    (h : channel.flushChannel = .ok (packets, channel', result)) :
    packets = [] ∧ channel' = channel := by
  unfold flushChannel at h
  cases hp : channel.pendingData with
  | nil =>
    rw [hp] at h
    obtain ⟨rfl, rfl, -⟩ := by simpa [flushPendingData, pure_eq_ok] using h
    refine ⟨rfl, ?_⟩
    rw [← hp]
  | cons p ps =>
    obtain ⟨hzero, hex, ho⟩ := hb p ps hp
    rw [hp, flushPendingData] at h
    obtain ⟨⟨written, c, size⟩, hd, h⟩ := bind_eq_ok.mp h
    have hw := dataNoqueue_writes ho hd
    have hsize : size = 0 := by
      have := hw.size_eq
      rw [hzero, if_pos hex] at this
      simpa using this
    have hc : c = channel := by
      rw [hw.channel_eq, hsize]
      simp
    simp only [hsize, hc, Nat.add_zero, ho, if_true] at h
    obtain ⟨rfl, rfl, -⟩ := by simpa [pure_eq_ok] using h
    refine ⟨hw.packets_nil hsize, ?_⟩
    rw [← hp]

end ChannelParams

namespace Encrypted

variable {enc : Encrypted} {id : ChannelId}

/-- The entry of a channel is replaced, or removed. -/
def putChannel (id : ChannelId) (channel : Option ChannelParams) (enc : Encrypted) : Encrypted :=
  { enc with channels := Function.update enc.channels id channel }

/-- An operation on one channel. -/
def onChannel (id : ChannelId)
    (f : ChannelParams → Except Exn (List ChannelMessage × Option ChannelParams))
    (enc : Encrypted) : Except Exn Encrypted :=
  match enc.channels id with
  | none => pure enc
  | some channel => do
    let (packets, channel') ← f channel
    pure ((enc.pushChannel id channel.recipientChannel packets).putChannel id channel')

@[simp] theorem setChannel_eq (channel : ChannelParams) :
    enc.setChannel id channel = enc.putChannel id (some channel) := rfl

@[simp] theorem removeChannel_eq : enc.removeChannel id = enc.putChannel id none := rfl

@[simp] theorem channels_putChannel (channel : Option ChannelParams) :
    (enc.putChannel id channel).channels id = channel := Function.update_self ..

@[simp] theorem channels_pushChannel (recipient : Nat) (packets : List ChannelMessage) :
    (enc.pushChannel id recipient packets).channels = enc.channels := rfl

@[simp] theorem pushChannel_nil (recipient : Nat) : enc.pushChannel id recipient [] = enc := by
  simp [pushChannel]

@[simp] theorem pushChannel_pushChannel (recipient : Nat) (packets packets' : List ChannelMessage) :
    (enc.pushChannel id recipient packets).pushChannel id recipient packets' =
      enc.pushChannel id recipient (packets ++ packets') := by
  simp [pushChannel]

@[simp] theorem pushChannel_putChannel (recipient : Nat) (channel : Option ChannelParams)
    (packets : List ChannelMessage) :
    (enc.putChannel id channel).pushChannel id recipient packets =
      (enc.pushChannel id recipient packets).putChannel id channel := rfl

@[simp] theorem putChannel_putChannel (channel channel' : Option ChannelParams) :
    (enc.putChannel id channel).putChannel id channel' = enc.putChannel id channel' := by
  simp [putChannel]

theorem putChannel_eq_self {channel : Option ChannelParams} (h : enc.channels id = channel) :
    enc.putChannel id channel = enc := by
  simp [putChannel, ← h]

theorem onChannel_none {f : ChannelParams → Except Exn (List ChannelMessage × Option ChannelParams)}
    (h : enc.channels id = none) : enc.onChannel id f = .ok enc := by
  simp [onChannel, h, pure, Except.pure]

theorem onChannel_some {f : ChannelParams → Except Exn (List ChannelMessage × Option ChannelParams)}
    {channel : ChannelParams} (h : enc.channels id = some channel) :
    enc.onChannel id f = (f channel).map fun p =>
      (enc.pushChannel id channel.recipientChannel p.1).putChannel id p.2 := by
  simp only [onChannel, h]
  cases f channel <;> rfl

theorem byte_of_some {channel : ChannelParams} (h : enc.channels id = some channel)
    (msg : ChannelMessage) :
    enc.byte id msg = enc.pushChannel id channel.recipientChannel [msg] := by
  simp [byte, h]

theorem pendingChannel?_of_some {channel : ChannelParams} (h : enc.channels id = some channel) :
    enc.pendingChannel? id = if channel.pendingData = [] then none else some channel := by
  simp only [pendingChannel?, h]
  cases hp : channel.pendingData <;> simp [Option.filter, hp]

/-- `eof` acts on one channel. -/
theorem onChannel_eof :
    enc.onChannel id (fun c => .ok (c.eof.1, some c.eof.2)) = .ok (enc.eof id) := by
  cases hc : enc.channels id with
  | none => simp [onChannel_none hc, eof, pendingChannel?, byte, hc]
  | some channel =>
    rw [onChannel_some hc]
    unfold eof
    rw [pendingChannel?_of_some hc]
    by_cases hp : channel.pendingData = []
    · simp only [hp, ChannelParams.eof, if_true, Except.map, byte_of_some hc]
      rw [putChannel_eq_self (by simpa using hc)]
    · simp [hp, ChannelParams.eof, Except.map]

/-- `close` acts on one channel. -/
theorem onChannel_close :
    enc.onChannel id (fun c => .ok c.close) = .ok (enc.close id) := by
  cases hc : enc.channels id with
  | none => simp [onChannel_none hc, close, pendingChannel?, byte, hc, putChannel_eq_self hc]
  | some channel =>
    rw [onChannel_some hc]
    unfold close
    rw [pendingChannel?_of_some hc]
    by_cases hp : channel.pendingData = []
    · simp [hp, ChannelParams.close, Except.map, byte_of_some hc]
    · simp [hp, ChannelParams.close, Except.map]

/-- `data` and `extended_data` act on one channel. -/
theorem onChannel_submit (ext : Option Nat) (buf0 : Bytes) (isRekeying : Bool) :
    enc.onChannel id (fun c => do
        let (packets, c) ← c.submit ext buf0 isRekeying
        pure (packets, some c)) =
      enc.dataWith ext id buf0 isRekeying := by
  cases hc : enc.channels id with
  | none => simp [onChannel_none hc, dataWith, hc, pure, Except.pure]
  | some channel =>
    rw [onChannel_some hc]
    simp only [dataWith, hc, ChannelParams.submit]
    split
    · rfl
    · split
      · simp [bind, Except.bind, pure, Except.pure, Except.map]
      · cases channel.dataNoqueue buf0 ext 0 <;> rfl

/-- `flush_channel` acts on one channel. -/
theorem onChannel_flushChannel {channel : ChannelParams} (hc : enc.channels id = some channel) :
    enc.onChannel id (fun c => do
        let (packets, c, _) ← c.flushChannel
        pure (packets, some c)) =
      (enc.flushChannel id channel).map Prod.fst := by
  rw [onChannel_some hc]
  simp only [flushChannel]
  cases channel.flushChannel <;> rfl

theorem eof_of_drained {channel : ChannelParams} (hc : enc.channels id = some channel)
    (hp : channel.pendingData = []) :
    enc.eof id = enc.pushChannel id channel.recipientChannel [.eof] := by
  simp [eof, pendingChannel?_of_some hc, hp, byte_of_some hc]

theorem close_of_drained {channel : ChannelParams} (hc : enc.channels id = some channel)
    (hp : channel.pendingData = []) :
    enc.close id = (enc.pushChannel id channel.recipientChannel [.close]).putChannel id none := by
  simp [close, pendingChannel?_of_some hc, hp, byte_of_some hc]

/-- `handle_flushed_channel`, where the result is that of the channel in the table. -/
theorem handleFlushedChannel_eq {channel : ChannelParams} {result : ChannelFlushResult}
    (hc : enc.channels id = some channel) (hr : channel.Describes result) :
    enc.handleFlushedChannel id result =
      (enc.pushChannel id channel.recipientChannel (channel.afterFlush result).1).putChannel id
        (channel.afterFlush result).2 := by
  cases result with
  | incomplete wrote =>
    simp [handleFlushedChannel, ChannelParams.afterFlush, putChannel_eq_self hc]
  | complete wrote pendingEof pendingClose =>
    obtain ⟨hp, -, -⟩ := hr
    have hput : ∀ packets, (enc.pushChannel id channel.recipientChannel packets).putChannel id
        (some channel) = enc.pushChannel id channel.recipientChannel packets :=
      fun packets => putChannel_eq_self (by simpa using hc)
    have hclose : ∀ packets, (enc.pushChannel id channel.recipientChannel packets).close id =
        ((enc.pushChannel id channel.recipientChannel packets).pushChannel id
          channel.recipientChannel [.close]).putChannel id none :=
      fun packets => close_of_drained (by simpa using hc) hp
    simp only [handleFlushedChannel, ChannelParams.afterFlush]
    cases pendingEof with
    | false =>
      cases pendingClose with
      | false => simp [putChannel_eq_self hc]
      | true => simp [close_of_drained hc hp]
    | true =>
      cases pendingClose with
      | false => simp [eof_of_drained hc hp, hput]
      | true => simp [eof_of_drained hc hp, hclose]

/-- A CHANNEL_WINDOW_ADJUST: the window is enlarged and the channel flushed. -/
def windowAdjust (id : ChannelId) (amount : UInt32) (enc : Encrypted) : Except Exn Encrypted :=
  match enc.enlargeWindow id amount with
  | none => pure enc
  | some (enc, _) => (enc.flushPending id).map Prod.fst

/-- `flush_pending` acts on one channel. -/
theorem onChannel_drain :
    enc.onChannel id ChannelParams.drain = (enc.flushPending id).map Prod.fst := by
  cases hc : enc.channels id with
  | none => simp [onChannel_none hc, flushPending, hc, pure, Except.pure, Except.map]
  | some channel =>
    rw [onChannel_some hc]
    simp only [flushPending, hc, flushChannel, setChannel_eq, ChannelParams.drain]
    cases hf : channel.flushChannel with
    | error e => rfl
    | ok p =>
      obtain ⟨packets, channel', result⟩ := p
      have hfl := ChannelParams.flushPendingData_flushes hf
      have hrec : channel'.recipientChannel = channel.recipientChannel := by
        rw [hfl.channel_eq]
      simp only [bind, Except.bind, pure, Except.pure, Except.map]
      rw [handleFlushedChannel_eq (channels_putChannel _) hfl.describes, hrec]
      simp

/-- A CHANNEL_WINDOW_ADJUST acts on one channel. -/
theorem onChannel_adjust (amount : UInt32) :
    enc.onChannel id (·.adjust amount) = enc.windowAdjust id amount := by
  cases hc : enc.channels id with
  | none => simp [onChannel_none hc, windowAdjust, enlargeWindow, hc, pure, Except.pure]
  | some channel =>
    have hput : (enc.putChannel id (some (channel.enlarge amount))).channels id =
        some (channel.enlarge amount) := channels_putChannel _
    have hadjust : enc.windowAdjust id amount =
        ((enc.putChannel id (some (channel.enlarge amount))).flushPending id).map Prod.fst := by
      simp only [windowAdjust, enlargeWindow, hc, Option.map_some, setChannel_eq]
    have hsame : (channel.enlarge amount).drain = channel.adjust amount := rfl
    have hrec : (channel.enlarge amount).recipientChannel = channel.recipientChannel := rfl
    rw [onChannel_some hc, hadjust, ← onChannel_drain, onChannel_some hput, hsame, hrec]
    simp

end Encrypted

end Edgessh.Russh
