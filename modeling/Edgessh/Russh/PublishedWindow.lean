import Edgessh.Russh.Client.HostKey
import Edgessh.Russh.Server.Binding
import Edgessh.Russh.Session.WindowArithmetic

/-!
# The window that is published

A CHANNEL_WINDOW_ADJUST enlarges the window, lets out data that waits, and then tells the channel
and the handler how large the window is. A client tells what is left after the flush, a server what
there was before it.
-/

namespace Edgessh.Russh
open Edgessh.Command

namespace ChannelParams

/-- Of every buffer that goes out whole the rest is within the window. The test of the window can
only say otherwise of a buffer of 4 GiB or more. -/
def QueueWithin : UInt32 → List PendingData → Prop
  | _, [] => True
  | window, p :: ps =>
    (p.offset < p.buf.length ∧ exceedsWindow window p.buf p.offset = true) ∨
      (p.buf.length - p.offset ≤ window.toNat ∧
        QueueWithin (window - UInt32.ofNat (p.buf.length - p.offset)) ps)

theorem queueWithin_of_lt {ps : List PendingData}
    (h : ∀ p ∈ ps, p.buf.length < UInt32.size) (window : UInt32) : QueueWithin window ps := by
  induction ps generalizing window with
  | nil => trivial
  | cons p ps ih =>
    have hlen := h p List.mem_cons_self
    have hrest := fun w => ih (fun q hq => h q (List.mem_cons_of_mem p hq)) w
    by_cases hex : p.offset < p.buf.length ∧ exceedsWindow window p.buf p.offset = true
    · exact Or.inl hex
    · refine Or.inr ⟨?_, hrest _⟩
      by_contra hlt
      refine hex ⟨by omega, ?_⟩
      have ho : p.offset % 2 ^ 32 = p.offset :=
        Nat.mod_eq_of_lt (by unfold UInt32.size at hlen; omega)
      have hb : p.buf.length % 2 ^ 32 = p.buf.length := Nat.mod_eq_of_lt hlen
      simp only [exceedsWindow, gt_iff_lt, decide_eq_true_eq, UInt32.lt_iff_toNat_lt,
        UInt32.toNat_add, UInt32.toNat_ofNat', ho, hb]
      have hmod := Nat.mod_le (p.offset + window.toNat) (2 ^ 32)
      omega

/-- No byte of the queue goes out: the first that waits finds no window. -/
def QueueWaits : UInt32 → List PendingData → Prop
  | _, [] => True
  | window, p :: ps =>
    if p.offset < p.buf.length then window = 0 ∧ exceedsWindow 0 p.buf p.offset = true
    else QueueWaits window ps

section Flush

variable {channel channel' : ChannelParams} {ps : List PendingData} {n : Nat}
  {packets : List ChannelMessage} {result : ChannelFlushResult}

/-- What one buffer of the queue comes to. -/
theorem dataNoqueue_bytes {p : PendingData} {size : Nat}
    (h : channel.dataNoqueue p.buf p.ext p.offset = .ok (packets, channel', size)) :
    dataBytes packets = size ∧
      channel'.recipientWindowSize = channel.recipientWindowSize - UInt32.ofNat size := by
  by_cases ho : p.offset < p.buf.length
  · have hw := dataNoqueue_writes ho h
    have hoff := hw.offset_le
    refine ⟨?_, by rw [hw.channel_eq]⟩
    rw [dataBytes, hw.payload, length_tagged, List.length_take, List.length_drop]
    omega
  · rw [dataNoqueue_of_le (by omega)] at h
    cases h
    simp

/-- A flush counts the bytes that it writes, and takes them off the window. -/
theorem flushPendingData_bytes
    (h : channel.flushPendingData n ps = .ok (packets, channel', result)) :
    result.wrote = n + dataBytes packets ∧
      channel'.recipientWindowSize =
        channel.recipientWindowSize - UInt32.ofNat (dataBytes packets) := by
  induction ps generalizing channel n packets with
  | nil =>
    obtain ⟨rfl, rfl, rfl⟩ := by simpa [flushPendingData, pure_eq_ok] using h
    simp [ChannelFlushResult.wrote]
  | cons p ps ih =>
    rw [flushPendingData] at h
    obtain ⟨⟨written, c, size⟩, hd, h⟩ := bind_eq_ok.mp h
    obtain ⟨hbytes, hwindow⟩ := dataNoqueue_bytes hd
    dsimp only at h
    by_cases hleft : p.offset + size < p.buf.length
    · rw [if_pos hleft] at h
      obtain ⟨rfl, rfl, rfl⟩ := by simpa [pure_eq_ok] using h
      exact ⟨by rw [ChannelFlushResult.wrote, hbytes], by rw [hbytes]; exact hwindow⟩
    · rw [if_neg hleft] at h
      obtain ⟨⟨written', c', r⟩, hf, h⟩ := bind_eq_ok.mp h
      obtain ⟨rfl, rfl, rfl⟩ := by simpa [pure_eq_ok] using h
      obtain ⟨hwrote, hrest⟩ := ih hf
      refine ⟨by rw [hwrote, dataBytes_append, hbytes, Nat.add_assoc], ?_⟩
      rw [hrest, hwindow, dataBytes_append, hbytes, UInt32.ofNat_add]
      grind

/-- Whether the test of the window is passed or not, it decides how much is written. -/
theorem dataNoqueue_size {p : PendingData} {size : Nat}
    (h : channel.dataNoqueue p.buf p.ext p.offset = .ok (packets, channel', size)) :
    (p.offset < p.buf.length ∧
        exceedsWindow channel.recipientWindowSize p.buf p.offset = true ∧
        size = channel.recipientWindowSize.toNat ∧ p.offset + size < p.buf.length) ∨
      (¬(p.offset < p.buf.length ∧
          exceedsWindow channel.recipientWindowSize p.buf p.offset = true) ∧
        size = p.buf.length - p.offset) := by
  by_cases ho : p.offset < p.buf.length
  swap
  · rw [dataNoqueue_of_le (by omega)] at h
    cases h
    exact Or.inr ⟨fun hex => ho hex.1, by omega⟩
  have hw := dataNoqueue_writes ho h
  have hoff := hw.offset_le
  have hsize := hw.size_eq
  by_cases hex : exceedsWindow channel.recipientWindowSize p.buf p.offset = true
  · rw [if_pos hex] at hsize
    refine Or.inl ⟨ho, hex, hsize, Nat.lt_of_le_of_ne hoff fun heq => ?_⟩
    have hsame : UInt32.ofNat p.buf.length =
        UInt32.ofNat p.offset + channel.recipientWindowSize := by
      rw [← heq, hsize, UInt32.ofNat_add, UInt32.ofNat_toNat]
    simp [exceedsWindow, hsame] at hex
  · rw [if_neg hex] at hsize
    exact Or.inr ⟨fun h => hex h.2, hsize⟩

/-- A flush keeps to the window exactly if every buffer that goes out whole does. -/
theorem flushPendingData_within
    (h : channel.flushPendingData n ps = .ok (packets, channel', result)) :
    dataBytes packets ≤ channel.recipientWindowSize.toNat ↔
      QueueWithin channel.recipientWindowSize ps := by
  induction ps generalizing channel n packets with
  | nil =>
    obtain ⟨rfl, rfl, rfl⟩ := by simpa [flushPendingData, pure_eq_ok] using h
    simp [QueueWithin]
  | cons p ps ih =>
    rw [flushPendingData] at h
    obtain ⟨⟨written, c, size⟩, hd, h⟩ := bind_eq_ok.mp h
    obtain ⟨hbytes, hwindow⟩ := dataNoqueue_bytes hd
    dsimp only at h
    rcases dataNoqueue_size hd with ⟨ho, hex, hsize, hlt⟩ | ⟨hnot, hsize⟩
    · rw [if_pos hlt] at h
      obtain ⟨rfl, -⟩ := Prod.mk.inj (pure_eq_ok.mp h)
      exact iff_of_true (by omega) (Or.inl ⟨ho, hex⟩)
    · rw [if_neg (by omega)] at h
      obtain ⟨⟨written', c', r⟩, hf, h⟩ := bind_eq_ok.mp h
      obtain ⟨rfl, rfl, rfl⟩ := by simpa [pure_eq_ok] using h
      have hrest := ih hf
      rw [hwindow, hsize] at hrest
      rw [dataBytes_append, hbytes, hsize, QueueWithin, or_iff_right hnot]
      constructor
      · intro hle
        have hfirst : p.buf.length - p.offset ≤ channel.recipientWindowSize.toNat := by omega
        rw [toNat_sub_ofNat hfirst] at hrest
        exact ⟨hfirst, hrest.mp (by omega)⟩
      · rintro ⟨hfirst, hwithin⟩
        rw [toNat_sub_ofNat hfirst] at hrest
        have hle := hrest.mpr hwithin
        omega

/-- A flush writes nothing exactly if nothing of the queue goes out. -/
theorem flushPendingData_waits
    (h : channel.flushPendingData n ps = .ok (packets, channel', result)) :
    dataBytes packets = 0 ↔ QueueWaits channel.recipientWindowSize ps := by
  induction ps generalizing channel n packets with
  | nil =>
    obtain ⟨rfl, rfl, rfl⟩ := by simpa [flushPendingData, pure_eq_ok] using h
    simp [QueueWaits]
  | cons p ps ih =>
    rw [flushPendingData] at h
    obtain ⟨⟨written, c, size⟩, hd, h⟩ := bind_eq_ok.mp h
    obtain ⟨hbytes, hwindow⟩ := dataNoqueue_bytes hd
    dsimp only at h
    rcases dataNoqueue_size hd with ⟨ho, hex, hsize, hlt⟩ | ⟨hnot, hsize⟩
    · rw [if_pos hlt] at h
      obtain ⟨rfl, -⟩ := Prod.mk.inj (pure_eq_ok.mp h)
      rw [hbytes, hsize, QueueWaits, if_pos ho]
      constructor
      · intro hzero
        have hzero : channel.recipientWindowSize = 0 := UInt32.toNat_inj.mp hzero
        exact ⟨hzero, by rwa [hzero] at hex⟩
      · rintro ⟨hzero, -⟩
        rw [hzero]
        rfl
    · rw [if_neg (by omega)] at h
      obtain ⟨⟨written', c', r⟩, hf, h⟩ := bind_eq_ok.mp h
      obtain ⟨rfl, rfl, rfl⟩ := by simpa [pure_eq_ok] using h
      have hrest := ih hf
      rw [dataBytes_append, hbytes, hsize, QueueWaits]
      by_cases ho : p.offset < p.buf.length
      · rw [if_pos ho]
        refine iff_of_false (by omega) ?_
        rintro ⟨hzero, hex⟩
        exact hnot ⟨ho, by rwa [hzero]⟩
      · rw [if_neg ho, ← show channel.recipientWindowSize - UInt32.ofNat size =
            channel.recipientWindowSize by rw [hsize, Nat.sub_eq_zero_of_le (by omega)]; simp,
          ← hwindow, ← hrest]
        omega

end Flush

/-- The value `n` is what is left of the enlarged window. -/
structure PublishedRight (channel : ChannelParams) (amount : UInt32)
    (packets : List ChannelMessage) (channel' : Option ChannelParams) (n : Nat) : Prop where
  entry : ∀ c, channel' = some c → n = c.recipientWindowSize.toNat
  flushed : n + dataBytes packets = (channel.enlarge amount).recipientWindowSize.toNat

section Adjust

variable {channel : ChannelParams} {amount : UInt32} {packets : List ChannelMessage}
  {channel' : Option ChannelParams}

/-- The flush of the enlarged window counts what it writes. -/
theorem adjust_wrote {data : List ChannelMessage} {c : ChannelParams}
    {result : ChannelFlushResult}
    (hf : (channel.enlarge amount).flushChannel = .ok (data, c, result)) :
    dataBytes (data ++ (c.afterFlush result).1) = dataBytes data ∧
      result.wrote = dataBytes data := by
  constructor
  · rw [dataBytes_append, Encrypted.dataBytes_afterFlush, Nat.add_zero]
  · rw [(flushPendingData_bytes hf).1, Nat.zero_add]

theorem adjust_window (h : channel.adjust amount = .ok (packets, channel')) {c : ChannelParams}
    (hc : channel' = some c) :
    c.recipientWindowSize =
      (channel.enlarge amount).recipientWindowSize - UInt32.ofNat (dataBytes packets) := by
  obtain ⟨data, c', result, hf, rfl, rfl⟩ := adjust_eq_ok h
  obtain rfl := afterFlush_eq_some hc
  rw [(adjust_wrote hf).1]
  exact (flushPendingData_bytes hf).2

/-- The client's value. -/
theorem publishedRight_after_iff (h : channel.adjust amount = .ok (packets, channel')) :
    PublishedRight channel amount packets channel'
        ((channel.enlarge amount).recipientWindowSize - UInt32.ofNat (dataBytes packets)).toNat ↔
      QueueWithin (channel.enlarge amount).recipientWindowSize channel.pendingData := by
  obtain ⟨data, c, result, hf, hpackets, -⟩ := adjust_eq_ok h
  have hdata : dataBytes packets = dataBytes data := by
    rw [hpackets, (adjust_wrote hf).1]
  have hwithin := flushPendingData_within hf
  rw [← hdata] at hwithin
  have hqueue : (channel.enlarge amount).pendingData = channel.pendingData := rfl
  rw [← hqueue, ← hwithin]
  constructor
  · intro hright
    have hsum := hright.flushed
    omega
  · intro hle
    refine ⟨fun c hc => by rw [adjust_window h hc], ?_⟩
    rw [toNat_sub_ofNat hle]
    omega

/-- It is right where every buffer that waits is of less than 4 GiB. -/
theorem publishedRight_after_of_lt (h : channel.adjust amount = .ok (packets, channel'))
    (hlen : ∀ p ∈ channel.pendingData, p.buf.length < UInt32.size) :
    PublishedRight channel amount packets channel'
      ((channel.enlarge amount).recipientWindowSize - UInt32.ofNat (dataBytes packets)).toNat :=
  (publishedRight_after_iff h).mpr (queueWithin_of_lt hlen _)

/-- The server's value. -/
theorem publishedRight_before_iff (h : channel.adjust amount = .ok (packets, channel')) :
    PublishedRight channel amount packets channel'
        (channel.enlarge amount).recipientWindowSize.toNat ↔
      QueueWaits (channel.enlarge amount).recipientWindowSize channel.pendingData := by
  obtain ⟨data, c, result, hf, hpackets, -⟩ := adjust_eq_ok h
  have hdata : dataBytes packets = dataBytes data := by
    rw [hpackets, (adjust_wrote hf).1]
  have hwaits := flushPendingData_waits hf
  rw [← hdata] at hwaits
  have hqueue : (channel.enlarge amount).pendingData = channel.pendingData := rfl
  rw [← hqueue, ← hwaits]
  constructor
  · intro hright
    have hsum := hright.flushed
    omega
  · intro hzero
    refine ⟨fun c hc => ?_, by omega⟩
    rw [adjust_window h hc, hzero]
    simp

end Adjust

end ChannelParams

section Step
open AppM

variable {K C X : Type} {start : KexStart K C} {P : Primitives} {pkt : Option Bytes}
  {s : Session K C X} {enc : Encrypted} {id : ChannelId} {amount : UInt32}
  {channel : ChannelParams} {packets : List ChannelMessage} {channel' : Option ChannelParams}

/-- The session after the flush. -/
def Session.adjusted (s : Session K C X) (enc : Encrypted) (id : ChannelId) (recipient : Nat)
    (packets : List ChannelMessage) (channel' : Option ChannelParams) : Session K C X :=
  s.wrote ((enc.pushChannel id recipient packets).putChannel id channel')
    (packets.map (.channel id recipient))

theorem flushPending_enlarged (enc : Encrypted) (id : ChannelId)
    (hadj : channel.adjust amount = .ok (packets, channel')) :
    (enc.setChannel id (channel.enlarge amount)).flushPending id =
      .ok ((enc.pushChannel id channel.recipientChannel packets).putChannel id channel',
        ChannelParams.dataBytes packets) := by
  obtain ⟨data, c, result, hf, hpackets, hchannel'⟩ := ChannelParams.adjust_eq_ok hadj
  obtain ⟨hdata, hwrote⟩ := ChannelParams.adjust_wrote hf
  have hset : (enc.setChannel id (channel.enlarge amount)).channels id =
      some (channel.enlarge amount) := Encrypted.channels_putChannel _
  have hrec : c.recipientChannel = channel.recipientChannel := by
    rw [(ChannelParams.flushPendingData_flushes hf).channel_eq]
    rfl
  have hdescribes := (ChannelParams.flushPendingData_flushes hf).describes
  simp only [Encrypted.flushPending, hset, Encrypted.flushChannel, hf, bind, Except.bind, pure,
    Except.pure, hwrote, hpackets, hdata]
  rw [Encrypted.setChannel_eq,
    Encrypted.handleFlushedChannel_eq (Encrypted.channels_putChannel _) hdescribes, hrec,
    hchannel']
  have hsame : (channel.enlarge amount).recipientChannel = channel.recipientChannel := rfl
  simp [hsame]

/-- What the two sessions do first. -/
theorem run_windowAdjust (hc : s.common.encrypted = some enc)
    (hch : enc.channels id = some channel)
    (hadj : channel.adjust amount = .ok (packets, channel')) :
    (windowAdjust id amount : AppM start P pkt X (Option (UInt32 × Nat))).run s =
      .ok (some ((channel.enlarge amount).recipientWindowSize, ChannelParams.dataBytes packets))
        (s.adjusted enc id channel.recipientChannel packets channel') := by
  have hflush := flushPending_enlarged enc id hadj
  have henlarge : enc.enlargeWindow id amount =
      some (enc.setChannel id (channel.enlarge amount),
        (channel.enlarge amount).recipientWindowSize) := by
    simp [Encrypted.enlargeWindow, hch]
  have hdrop : ((enc.pushChannel id channel.recipientChannel packets).putChannel id
      channel').write.drop enc.write.length =
      packets.map (.channel id channel.recipientChannel) := by
    simp [Encrypted.pushChannel, Encrypted.putChannel]
  unfold windowAdjust
  simp only [update, Confined.tryMove, Confined.tryMoves, bind, EStateM.bind,
    hc, henlarge, hflush, Except.map, hdrop]
  rfl

theorem recordAll_cons (e : Event) (es : List Event) :
    s.recordAll (e :: es) = (s.record e).recordAll es := by
  simp [Session.recordAll, Session.record, Session.setWriter, PacketWriter.recordAll,
    PacketWriter.record]

/-- What is told about the window: to the channel, if there is a handle, and to the handler. -/
def windowReports (s : Session K C X) (id : ChannelId) (n : Nat) (call : Event) : List Event :=
  (match s.channels id with
    | some chan => [.windowSize chan n, .tryToChannel chan (.windowAdjusted n)]
    | none => []) ++ [call]

/-- The state in which the handler is called: of the new events the packets come first. -/
structure HandlerCalled (s t : Session K C X) (id : ChannelId) (recipient : Nat)
    (packets : List ChannelMessage) (channel' : Option ChannelParams) (n : Nat) (call : Event) :
    Prop where
  entry : ∃ enc, t.common.encrypted = some enc ∧ enc.channels id = channel'
  events : t.events = s.events ++
    (packets.map fun m => Event.wrote (.channel id recipient m)) ++ windowReports s id n call

theorem handlerCalled (enc : Encrypted) (id : ChannelId) (recipient : Nat)
    (packets : List ChannelMessage) (channel' : Option ChannelParams) (n : Nat) (call : Event) :
    HandlerCalled s ((s.adjusted enc id recipient packets channel').recordAll
      (windowReports s id n call)) id recipient packets channel' n call := by
  refine ⟨⟨_, rfl, Encrypted.channels_putChannel _⟩, ?_⟩
  simp [Session.events, Session.recordAll, Session.adjusted, Session.wrote, Session.setWriter,
    Session.setEncrypted, PacketWriter.recordAll, Function.comp_def]

theorem run_decode {β : Type} {d : Decoder β} {r r' : Bytes} {a : β} (h : d r = .ok (a, r')) :
    (decode d r : AppM start P pkt X (β × Bytes)).run s = .ok (a, r') s := by
  rw [decode, h]
  rfl

end Step

section Roles
open AppM

variable {r r' r'' : Bytes} {enc : Encrypted} {id : ChannelId} {amount : Nat}
  {channel : ChannelParams} {packets : List ChannelMessage} {channel' : Option ChannelParams}

/-- The client tells the window after the flush. -/
theorem Client.run_readChannelWindowAdjust (P : Primitives) (pkt : Option Bytes)
    (env : ClientEnv) {s : ClientSession}
    (hid : decodeU32 r = .ok (id, r')) (hamount : decodeU32 r' = .ok (amount, r''))
    (hc : s.common.encrypted = some enc) (hch : enc.channels id = some channel)
    (hadj : channel.adjust (UInt32.ofNat amount) = .ok (packets, channel')) :
    ∃ n t, n = ((channel.enlarge (UInt32.ofNat amount)).recipientWindowSize -
        UInt32.ofNat (ChannelParams.dataBytes packets)).toNat ∧
      HandlerCalled s t id channel.recipientChannel packets channel' n
        (.clientCallback (.windowAdjusted id n)) ∧
      (Client.readChannelWindowAdjust env r : Client.ClientPacketM P pkt Unit).run s =
        (quiet (Client.respond env (.windowAdjusted id n)) : Client.ClientPacketM P pkt Unit).run
          t := by
  refine ⟨_, _, rfl, handlerCalled enc id _ packets channel' _ _, ?_⟩
  unfold Client.readChannelWindowAdjust
  rw [Confined.run_bind_of_ok (run_decode hid), Confined.run_bind_of_ok (run_decode hamount),
    Confined.run_bind_of_ok (run_windowAdjust hc hch hadj)]
  have hchannels : (s.adjusted enc id channel.recipientChannel packets channel').channels id =
    s.channels id := rfl
  cases hchan : s.channels id with
  | none =>
    simp only [windowReports, hchan, List.nil_append]
    rw [Confined.run_bind_of_ok rfl]
    simp only [hchannels, hchan]
    rfl
  | some chan =>
    simp only [windowReports, hchan, List.cons_append, List.nil_append, recordAll_cons,
      Session.recordAll_nil]
    rw [Confined.run_bind_of_ok rfl]
    simp only [hchannels, hchan]
    rfl

/-- The server tells the window before the flush. -/
theorem Server.run_readChannelWindowAdjust (P : Primitives) (pkt : Bytes) (env : ServerEnv)
    {s : ServerSession}
    (hid : decodeU32 r = .ok (id, r')) (hamount : decodeU32 r' = .ok (amount, r''))
    (hc : s.common.encrypted = some enc) (hch : enc.channels id = some channel)
    (hadj : channel.adjust (UInt32.ofNat amount) = .ok (packets, channel')) :
    ∃ n t, n = (channel.enlarge (UInt32.ofNat amount)).recipientWindowSize.toNat ∧
      HandlerCalled s t id channel.recipientChannel packets channel' n
        (.serverCallback (.windowAdjusted id n)) ∧
      (Server.readChannelWindowAdjust env r : Server.ServerPacketM P (some pkt) Unit).run s =
        (discard (quiet (Server.respond env (.windowAdjusted id n))) :
          Server.ServerPacketM P (some pkt) Unit).run t := by
  refine ⟨_, _, rfl, handlerCalled enc id _ packets channel' _ _, ?_⟩
  unfold Server.readChannelWindowAdjust
  rw [Confined.run_bind_of_ok (run_decode hid), Confined.run_bind_of_ok (run_decode hamount),
    Confined.run_bind_of_ok (run_windowAdjust hc hch hadj)]
  have hchannels : (s.adjusted enc id channel.recipientChannel packets channel').channels id =
    s.channels id := rfl
  cases hchan : s.channels id with
  | none =>
    simp only [windowReports, hchan, List.nil_append]
    rw [Confined.run_bind_of_ok rfl]
    simp only [hchannels, hchan]
    rfl
  | some chan =>
    simp only [windowReports, hchan, List.cons_append, List.nil_append, recordAll_cons,
      Session.recordAll_nil]
    rw [Confined.run_bind_of_ok rfl]
    simp only [hchannels, hchan]
    rfl

end Roles

/-- The value that the client publishes for a CHANNEL_WINDOW_ADJUST is right exactly if the flush
keeps to the window, and the one of the server exactly if the flush writes nothing. -/
theorem published_window_iff (P : Primitives) (id amount : Nat) (r r' r'' : Bytes)
    (enc : Encrypted) (channel : ChannelParams) (packets : List ChannelMessage)
    (channel' : Option ChannelParams) (hid : decodeU32 r = .ok (id, r'))
    (hamount : decodeU32 r' = .ok (amount, r'')) (hch : enc.channels id = some channel)
    (hadj : channel.adjust (UInt32.ofNat amount) = .ok (packets, channel')) :
    (∀ (pkt : Option Bytes) (env : ClientEnv) (s : ClientSession),
      s.common.encrypted = some enc →
      ∃ n t, (Client.readChannelWindowAdjust env r : Client.ClientPacketM P pkt Unit).run s =
          (AppM.quiet (Client.respond env (.windowAdjusted id n)) :
            Client.ClientPacketM P pkt Unit).run t ∧
        HandlerCalled s t id channel.recipientChannel packets channel' n
          (.clientCallback (.windowAdjusted id n)) ∧
        (channel.PublishedRight (UInt32.ofNat amount) packets channel' n ↔
          ChannelParams.QueueWithin (channel.enlarge (UInt32.ofNat amount)).recipientWindowSize
            channel.pendingData)) ∧
    ∀ (pkt : Bytes) (env : ServerEnv) (s : ServerSession),
      s.common.encrypted = some enc →
      ∃ n t, (Server.readChannelWindowAdjust env r : Server.ServerPacketM P (some pkt) Unit).run
            s =
          (discard (AppM.quiet (Server.respond env (.windowAdjusted id n))) :
            Server.ServerPacketM P (some pkt) Unit).run t ∧
        HandlerCalled s t id channel.recipientChannel packets channel' n
          (.serverCallback (.windowAdjusted id n)) ∧
        (channel.PublishedRight (UInt32.ofNat amount) packets channel' n ↔
          ChannelParams.QueueWaits (channel.enlarge (UInt32.ofNat amount)).recipientWindowSize
            channel.pendingData) := by
  constructor
  · intro pkt env s hc
    obtain ⟨n, t, rfl, hcalled, hrun⟩ :=
      Client.run_readChannelWindowAdjust P pkt env hid hamount hc hch hadj
    exact ⟨_, t, hrun, hcalled, ChannelParams.publishedRight_after_iff hadj⟩
  · intro pkt env s hc
    obtain ⟨n, t, rfl, hcalled, hrun⟩ :=
      Server.run_readChannelWindowAdjust P pkt env hid hamount hc hch hadj
    exact ⟨_, t, hrun, hcalled, ChannelParams.publishedRight_before_iff hadj⟩

/-- A channel without a window, and one byte that waits for it. -/
def waitingChannel : ChannelParams :=
  { ChannelParams.opened 100 100 2 with
    recipientMaximumPacketSize := 100, confirmed := true, pendingData := [⟨[1], none, 0⟩] }

/-- The channel with a window of ten, of which one byte is used. -/
def servedChannel : ChannelParams :=
  { waitingChannel with recipientWindowSize := 9, pendingData := [] }

/-- The table with this channel alone. -/
def waitingEncrypted : Encrypted where
  state := .authenticated
  exchange := none
  kex := .none
  sessionId := []
  channels := Function.update (fun _ => none) 2 (some waitingChannel)
  lastChannelId := 2
  write := []
  lastRekey := 0
  serverCompression := .none
  clientCompression := .none
  decompress := .none
  rekeyWanted := false
  receivedExtensions := []
  extensionInfoAwaiters := []

theorem waitingChannel_adjust :
    waitingChannel.adjust 10 = .ok ([.data [1]], some servedChannel) := by
  rfl

def waitingClient : ClientSession where
  common := { remoteSshid := [], config := {}, encrypted := some waitingEncrypted }
  targetWindowSize := 100
  own := {}

def waitingServer : ServerSession where
  common := { remoteSshid := [], config := {}, encrypted := some waitingEncrypted }
  targetWindowSize := 100
  own := {}

theorem published_window_ten :
    (∃ n t, (Client.readChannelWindowAdjust Client.trustingSeven (encodeU32 2 ++ encodeU32 10) :
          Client.ClientPacketM .toy none Unit).run waitingClient =
        (AppM.quiet (Client.respond Client.trustingSeven (.windowAdjusted 2 n)) :
          Client.ClientPacketM .toy none Unit).run t ∧
      HandlerCalled waitingClient t 2 0 [.data [1]] (some servedChannel) n
        (.clientCallback (.windowAdjusted 2 n)) ∧
      (waitingChannel.PublishedRight 10 [.data [1]] (some servedChannel) n ↔
        ChannelParams.QueueWithin (waitingChannel.enlarge 10).recipientWindowSize
          waitingChannel.pendingData)) ∧
    ∃ n t, (Server.readChannelWindowAdjust Server.knowingFive (encodeU32 2 ++ encodeU32 10) :
          Server.ServerPacketM .toy (some []) Unit).run waitingServer =
        (discard (AppM.quiet (Server.respond Server.knowingFive (.windowAdjusted 2 n))) :
          Server.ServerPacketM .toy (some []) Unit).run t ∧
      HandlerCalled waitingServer t 2 0 [.data [1]] (some servedChannel) n
        (.serverCallback (.windowAdjusted 2 n)) ∧
      (waitingChannel.PublishedRight 10 [.data [1]] (some servedChannel) n ↔
        ChannelParams.QueueWaits (waitingChannel.enlarge 10).recipientWindowSize
          waitingChannel.pendingData) := by
  obtain ⟨hclient, hserver⟩ := published_window_iff .toy 2 10 (encodeU32 2 ++ encodeU32 10)
    (encodeU32 10) [] waitingEncrypted waitingChannel [.data [1]] (some servedChannel)
    (decodeU32_encodeU32 2 _) (by decide) rfl waitingChannel_adjust
  exact ⟨hclient none Client.trustingSeven waitingClient rfl,
    hserver [] Server.knowingFive waitingServer rfl⟩

/-- The server publishes ten, and nine are left. -/
theorem published_window_fails : ¬∀ (P : Primitives) (id amount : Nat) (r r' r'' : Bytes)
    (enc : Encrypted) (channel : ChannelParams) (packets : List ChannelMessage)
    (channel' : Option ChannelParams) (pkt : Bytes) (env : ServerEnv) (s t : ServerSession)
    (n : Nat), decodeU32 r = .ok (id, r') → decodeU32 r' = .ok (amount, r'') →
    enc.channels id = some channel →
    channel.adjust (UInt32.ofNat amount) = .ok (packets, channel') →
    s.common.encrypted = some enc → s.events = [] →
    (Server.readChannelWindowAdjust env r : Server.ServerPacketM P (some pkt) Unit).run s =
      .ok () t →
    Event.serverCallback (.windowAdjusted id n) ∈ t.events →
    channel.PublishedRight (UInt32.ofNat amount) packets channel' n := by
  intro h
  have hamount : decodeU32 (encodeU32 10) = .ok (10, []) := by decide
  obtain ⟨n, t, hn, hcalled, hrun⟩ := Server.run_readChannelWindowAdjust .toy []
    Server.knowingFive (s := waitingServer) (decodeU32_encodeU32 2 _) hamount rfl rfl
    waitingChannel_adjust
  have hright := h .toy 2 10 _ _ _ _ _ _ _ [] Server.knowingFive waitingServer t n
    (decodeU32_encodeU32 2 _) hamount rfl waitingChannel_adjust rfl rfl (hrun.trans rfl)
    (by rw [hcalled.events]; simp [windowReports])
  have hsum := hright.flushed
  rw [hn] at hsum
  exact absurd hsum (by decide)

end Edgessh.Russh
