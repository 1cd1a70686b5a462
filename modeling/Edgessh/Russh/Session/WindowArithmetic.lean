import Edgessh.Lib.Checked
import Edgessh.Russh.Session.Stream

/-!
# The arithmetic of the window

`data_noqueue`, `data` and `flush_pending` once more, with the arithmetic of a build that checks
for overflow: what the peer's window, its maximum packet size and an offset that an earlier flush
has left must be for them to come to an end with no more bytes written than the window allows.
-/

namespace Edgessh.Russh
open Edgessh.Command Edgessh.Checked

namespace ChannelParams

/-- The loop of `data_noqueue`. -/
def writePacketsChecked (maximumPacketSize : Nat) (a : Option Nat) :
    Nat → Bytes → UInt32 → Except Exn (List ChannelMessage × UInt32)
  | _, [], window => pure ([], window)
  | 0, _ :: _, _ => throw .diverge
  | fuel + 1, buf, window => do
    let off := min buf.length maximumPacketSize
    let window ← subU32 Exn.panic window (UInt32.ofNat off)
    let (packets, window) ← writePacketsChecked maximumPacketSize a fuel (buf.drop off) window
    pure (dataMessage a (buf.take off) :: packets, window)

/-- The part of the buffer that `data_noqueue` writes. -/
def fittingPartChecked (window : UInt32) (buf0 : Bytes) (offset : Nat) : Except Exn Bytes := do
  let stop ← addU32 Exn.panic (UInt32.ofNat offset) window
  if UInt32.ofNat buf0.length > stop then slice buf0 offset (offset + window.toNat)
  else pure (buf0.drop offset)

/-- `data_noqueue`. -/
def dataNoqueueChecked (channel : ChannelParams) (buf0 : Bytes) (a : Option Nat) (offset : Nat) :
    Except Exn (List ChannelMessage × ChannelParams × Nat) := do
  if buf0.length ≤ offset then pure ([], channel, 0)
  else
    let buf ← fittingPartChecked channel.recipientWindowSize buf0 offset
    let (packets, window) ← writePacketsChecked channel.recipientMaximumPacketSize a buf.length
      buf channel.recipientWindowSize
    pure (packets, { channel with recipientWindowSize := window }, buf.length)

/-- The loop of `flush_channel`. -/
def flushPendingDataChecked (channel : ChannelParams) (pendingSize : Nat) :
    List PendingData → Except Exn (List ChannelMessage × ChannelParams × ChannelFlushResult)
  | [] => pure ([], { channel with pendingData := [] },
      .complete pendingSize channel.pendingEof channel.pendingClose)
  | p :: ps => do
    let (packets, channel, size) ← channel.dataNoqueueChecked p.buf p.ext p.offset
    if p.offset + size < p.buf.length then
      pure (packets, { channel with pendingData := { p with offset := p.offset + size } :: ps },
        .incomplete (pendingSize + size))
    else
      let (packets', channel, result) ← flushPendingDataChecked channel (pendingSize + size) ps
      pure (packets ++ packets', channel, result)

/-- `flush_channel`. -/
def flushChannelChecked (channel : ChannelParams) :
    Except Exn (List ChannelMessage × ChannelParams × ChannelFlushResult) :=
  channel.flushPendingDataChecked 0 channel.pendingData

section Refine

variable {maximumPacketSize fuel offset n : Nat} {a : Option Nat} {buf buf0 : Bytes}
  {window : UInt32} {channel : ChannelParams}

/-- What does not overflow is the same in every build. -/
theorem writePackets_of_checked {r : List ChannelMessage × UInt32}
    (h : writePacketsChecked maximumPacketSize a fuel buf window = .ok r) :
    writePackets maximumPacketSize a fuel buf window = .ok r := by
  induction fuel generalizing buf window r with
  | zero =>
    cases buf with
    | nil => exact h
    | cons b buf => cases h
  | succ fuel ih =>
    cases buf with
    | nil => exact h
    | cons b buf =>
      rw [writePacketsChecked] at h
      · obtain ⟨window', hsub, h⟩ := bind_eq_ok.mp h
        obtain ⟨-, rfl⟩ := subU32_eq_ok.mp hsub
        obtain ⟨rest, hrest, h⟩ := bind_eq_ok.mp h
        rw [writePackets]
        · exact bind_eq_ok.mpr ⟨rest, ih hrest, h⟩
        · simp
      · simp

theorem fittingPart_of_checked (h : fittingPartChecked window buf0 offset = .ok buf) :
    fittingPart window buf0 offset = .ok buf := by
  obtain ⟨stop, hadd, h⟩ := bind_eq_ok.mp h
  obtain ⟨-, rfl⟩ := addU32_eq_ok.mp hadd
  simpa only [fittingPart, exceedsWindow, decide_eq_true_eq] using h

theorem dataNoqueue_of_checked {r : List ChannelMessage × ChannelParams × Nat}
    (h : channel.dataNoqueueChecked buf0 a offset = .ok r) :
    channel.dataNoqueue buf0 a offset = .ok r := by
  unfold dataNoqueueChecked at h
  unfold dataNoqueue
  by_cases ho : buf0.length ≤ offset
  · rw [if_pos ho] at h ⊢
    exact h
  · rw [if_neg ho] at h ⊢
    obtain ⟨buf, hbuf, h⟩ := bind_eq_ok.mp h
    obtain ⟨written, hw, h⟩ := bind_eq_ok.mp h
    exact bind_eq_ok.mpr ⟨buf, fittingPart_of_checked hbuf,
      bind_eq_ok.mpr ⟨written, writePackets_of_checked hw, h⟩⟩

theorem flushPendingData_of_checked {ps : List PendingData}
    {r : List ChannelMessage × ChannelParams × ChannelFlushResult}
    (h : channel.flushPendingDataChecked n ps = .ok r) :
    channel.flushPendingData n ps = .ok r := by
  induction ps generalizing channel n r with
  | nil => exact h
  | cons p ps ih =>
    rw [flushPendingDataChecked] at h
    rw [flushPendingData]
    obtain ⟨⟨packets, c, size⟩, hd, h⟩ := bind_eq_ok.mp h
    refine bind_eq_ok.mpr ⟨_, dataNoqueue_of_checked hd, ?_⟩
    dsimp only at h ⊢
    by_cases hleft : p.offset + size < p.buf.length
    · rw [if_pos hleft] at h ⊢
      exact h
    · rw [if_neg hleft] at h ⊢
      obtain ⟨rest, hrest, h⟩ := bind_eq_ok.mp h
      exact bind_eq_ok.mpr ⟨rest, ih hrest, h⟩

end Refine

/-- The bytes of data in the packets. -/
def dataBytes (packets : List ChannelMessage) : Nat :=
  (packets.flatMap ChannelMessage.payload).length

@[simp] theorem dataBytes_nil : dataBytes [] = 0 := rfl

@[simp] theorem dataBytes_append (packets packets' : List ChannelMessage) :
    dataBytes (packets ++ packets') = dataBytes packets + dataBytes packets' := by
  simp [dataBytes]

/-- What the rest of a buffer must be like for `data_noqueue`: the sum of its offset and the
window is a `u32`, the test of the window, whose operands are truncated, says whether the rest is
larger than the window, and packets may have a byte unless there is no window. -/
def Fits (maximumPacketSize : Nat) (window : UInt32) (buf0 : Bytes) (offset : Nat) : Prop :=
  offset < buf0.length →
    (UInt32.ofNat offset).toNat + window.toNat < UInt32.size ∧
    (exceedsWindow window buf0 offset = true ↔ offset + window.toNat < buf0.length) ∧
    (window = 0 ∨ 0 < maximumPacketSize)

/-- The same for the buffers of a queue that a flush comes to. -/
def QueueFits (maximumPacketSize : Nat) : UInt32 → List PendingData → Prop
  | _, [] => True
  | window, p :: ps =>
    Fits maximumPacketSize window p.buf p.offset ∧
      (p.buf.length - p.offset ≤ window.toNat →
        QueueFits maximumPacketSize (window - UInt32.ofNat (p.buf.length - p.offset)) ps)

section Safe

variable {maximumPacketSize fuel offset n : Nat} {a : Option Nat} {buf buf0 : Bytes}
  {window : UInt32} {channel channel' : ChannelParams} {packets : List ChannelMessage}

theorem exceedsWindow_iff (hlen : buf0.length < UInt32.size)
    (hsum : offset + window.toNat < UInt32.size) :
    exceedsWindow window buf0 offset = true ↔ offset + window.toNat < buf0.length := by
  have ho : offset % 2 ^ 32 = offset := Nat.mod_eq_of_lt (by unfold UInt32.size at hsum; omega)
  have hb : buf0.length % 2 ^ 32 = buf0.length := Nat.mod_eq_of_lt hlen
  have hs : (offset + window.toNat) % 2 ^ 32 = offset + window.toNat := Nat.mod_eq_of_lt hsum
  simp only [exceedsWindow, gt_iff_lt, decide_eq_true_eq, UInt32.lt_iff_toNat_lt,
    UInt32.toNat_add, UInt32.toNat_ofNat', ho, hb, hs]

/-- For a buffer of less than 4 GiB only the sum can be too large. -/
theorem fits_iff_of_lt (hlen : buf0.length < UInt32.size) :
    Fits maximumPacketSize window buf0 offset ↔
      (offset < buf0.length → offset + window.toNat < UInt32.size ∧
        (window = 0 ∨ 0 < maximumPacketSize)) := by
  unfold Fits
  refine forall_congr' fun ho => ?_
  have hmod : (UInt32.ofNat offset).toNat = offset := by
    rw [UInt32.toNat_ofNat']
    exact Nat.mod_eq_of_lt (by unfold UInt32.size at hlen; omega)
  rw [hmod]
  constructor
  · rintro ⟨hsum, -, hmax⟩
    exact ⟨hsum, hmax⟩
  · rintro ⟨hsum, hmax⟩
    exact ⟨hsum, exceedsWindow_iff hlen hsum, hmax⟩

/-- The loop writes all of a buffer that is within the window. -/
theorem writePacketsChecked_returns (hfuel : buf.length ≤ fuel) (hle : buf.length ≤ window.toNat)
    (hmax : buf = [] ∨ 0 < maximumPacketSize) :
    ∃ packets, writePacketsChecked maximumPacketSize a fuel buf window =
      .ok (packets, window - UInt32.ofNat buf.length) := by
  induction fuel generalizing buf window with
  | zero =>
    obtain rfl : buf = [] := List.length_eq_zero_iff.mp (by omega)
    exact ⟨[], by simp [writePacketsChecked, pure, Except.pure]⟩
  | succ fuel ih =>
    cases buf with
    | nil => exact ⟨[], by simp [writePacketsChecked, pure, Except.pure]⟩
    | cons b buf =>
      have hmax : 0 < maximumPacketSize := hmax.resolve_left (by simp)
      generalize hoff : min (b :: buf).length maximumPacketSize = off
      have hpos : 0 < off := by
        simp only [List.length_cons] at hoff
        omega
      have hofflen : off ≤ (b :: buf).length := by omega
      have hw := window.toNat_lt
      have hval : (UInt32.ofNat off).toNat = off := by
        rw [UInt32.toNat_ofNat']
        exact Nat.mod_eq_of_lt (by omega)
      have hsub : subU32 Exn.panic window (UInt32.ofNat off) =
          .ok (window - UInt32.ofNat off) := subU32_of_le (by omega)
      have hrest : (window - UInt32.ofNat off).toNat = window.toNat - off := by
        rw [UInt32.toNat_sub_of_le _ _ (UInt32.le_iff_toNat_le.mpr (by omega)), hval]
      have hdrop : ((b :: buf).drop off).length = (b :: buf).length - off := List.length_drop
      have hlefuel : ((b :: buf).drop off).length ≤ fuel := by omega
      have hlewindow : ((b :: buf).drop off).length ≤ (window - UInt32.ofNat off).toNat := by omega
      obtain ⟨packets, hp⟩ := ih hlefuel hlewindow (Or.inr hmax)
      have hend : window - UInt32.ofNat off - UInt32.ofNat ((b :: buf).length - off) =
          window - UInt32.ofNat (b :: buf).length := by
        have hsum : UInt32.ofNat (b :: buf).length =
            UInt32.ofNat off + UInt32.ofNat ((b :: buf).length - off) := by
          rw [← UInt32.ofNat_add]
          congr 1
          omega
        rw [hsum]
        grind
      refine ⟨dataMessage a ((b :: buf).take off) :: packets, ?_⟩
      rw [writePacketsChecked]
      · rw [hoff, hsub]
        show (writePacketsChecked maximumPacketSize a fuel ((b :: buf).drop off)
            (window - UInt32.ofNat off) >>= fun p =>
          pure (dataMessage a ((b :: buf).take off) :: p.1, p.2)) = _
        rw [hp, hdrop, hend]
        rfl
      · simp

theorem fittingPartChecked_returns (ho : offset < buf0.length)
    (hfits : Fits maximumPacketSize window buf0 offset) :
    ∃ buf, fittingPartChecked window buf0 offset = .ok buf ∧
      buf.length = min (buf0.length - offset) window.toNat := by
  obtain ⟨hsum, htest, -⟩ := hfits ho
  unfold fittingPartChecked
  rw [addU32_of_lt hsum]
  by_cases hex : exceedsWindow window buf0 offset = true
  · have hlt := htest.mp hex
    have hslice : slice buf0 offset (offset + window.toNat) =
        .ok ((buf0.take (offset + window.toNat)).drop offset) := by
      rw [slice, if_pos (Nat.le_of_lt hlt)]
      rfl
    refine ⟨(buf0.take (offset + window.toNat)).drop offset, ?_, ?_⟩
    · show (if UInt32.ofNat buf0.length > UInt32.ofNat offset + window then _ else _) = _
      rw [if_pos (by simpa [exceedsWindow] using hex), hslice]
    · rw [List.length_drop, List.length_take]
      omega
  · have hle : ¬offset + window.toNat < buf0.length := fun hlt => hex (htest.mpr hlt)
    refine ⟨buf0.drop offset, ?_, ?_⟩
    · show (if UInt32.ofNat buf0.length > UInt32.ofNat offset + window then _ else _) = _
      rw [if_neg (by simpa [exceedsWindow] using hex)]
      rfl
    · rw [List.length_drop]
      omega

/-- Under the condition as much is written as the window allows. -/
theorem dataNoqueueChecked_returns
    (hfits : Fits channel.recipientMaximumPacketSize channel.recipientWindowSize buf0 offset) :
    ∃ packets size, size = min (buf0.length - offset) channel.recipientWindowSize.toNat ∧
      dataBytes packets = size ∧
      channel.dataNoqueueChecked buf0 a offset = .ok (packets,
        { channel with
          recipientWindowSize := channel.recipientWindowSize - UInt32.ofNat size }, size) := by
  by_cases ho : offset < buf0.length
  swap
  · refine ⟨[], 0, by omega, rfl, ?_⟩
    rw [dataNoqueueChecked, if_pos (by omega)]
    simp [pure, Except.pure]
  obtain ⟨buf, hbuf, hlen⟩ := fittingPartChecked_returns ho hfits
  have hmax : buf = [] ∨ 0 < channel.recipientMaximumPacketSize := by
    rcases (hfits ho).2.2 with hzero | hpos
    · left
      rw [hzero] at hlen
      exact List.length_eq_zero_iff.mp (by simpa using hlen)
    · exact Or.inr hpos
  have hle : buf.length ≤ channel.recipientWindowSize.toNat := by omega
  obtain ⟨packets, hw⟩ := writePacketsChecked_returns (a := a) (Nat.le_refl _) hle hmax
  refine ⟨packets, buf.length, hlen, ?_, ?_⟩
  · have hpay := (writePackets_eq_ok (writePackets_of_checked hw)).1
    rw [dataBytes, hpay, length_tagged]
  · rw [dataNoqueueChecked, if_neg (by omega), hbuf]
    show (writePacketsChecked channel.recipientMaximumPacketSize a buf.length buf
        channel.recipientWindowSize >>= fun p =>
      pure (p.1, { channel with recipientWindowSize := p.2 }, buf.length)) = _
    rw [hw]
    rfl

/-- What `data_noqueue` writes if it returns and keeps to the window. -/
theorem fits_of_dataNoqueueChecked {size : Nat}
    (h : channel.dataNoqueueChecked buf0 a offset = .ok (packets, channel', size))
    (hle : dataBytes packets ≤ channel.recipientWindowSize.toNat) :
    Fits channel.recipientMaximumPacketSize channel.recipientWindowSize buf0 offset := by
  intro ho
  have hw := dataNoqueue_writes ho (dataNoqueue_of_checked h)
  have hsize : dataBytes packets = size := by
    have hoff := hw.offset_le
    rw [dataBytes, hw.payload, length_tagged, List.length_take, List.length_drop]
    omega
  rw [dataNoqueueChecked, if_neg (by omega)] at h
  obtain ⟨buf, hbuf, -⟩ := bind_eq_ok.mp h
  obtain ⟨stop, hadd, -⟩ := bind_eq_ok.mp hbuf
  obtain ⟨hsum, -⟩ := addU32_eq_ok.mp hadd
  have hsizeeq := hw.size_eq
  have hoff := hw.offset_le
  refine ⟨hsum, ?_, ?_⟩
  · by_cases hex : exceedsWindow channel.recipientWindowSize buf0 offset = true
    · rw [if_pos hex] at hsizeeq
      refine iff_of_true hex (Nat.lt_of_le_of_ne (by omega) fun heq => ?_)
      have hsame : UInt32.ofNat buf0.length =
          UInt32.ofNat offset + channel.recipientWindowSize := by
        rw [← heq, UInt32.ofNat_add, UInt32.ofNat_toNat]
      simp [exceedsWindow, hsame] at hex
    · rw [if_neg hex] at hsizeeq
      exact iff_of_false hex (by omega)
  · by_contra hnot
    obtain ⟨hwindow, hmax⟩ := not_or.mp hnot
    have hempty : packets.flatMap ChannelMessage.payload = [] := by
      rw [List.flatMap_eq_nil_iff]
      intro m hm
      obtain ⟨b, rfl, hb⟩ := hw.packets_le m hm
      have hb : b = [] := List.length_eq_zero_iff.mp (by omega)
      simp [hb]
    have hzero : size = 0 := by rw [← hsize, dataBytes, hempty, List.length_nil]
    have hne : channel.recipientWindowSize.toNat ≠ 0 := by
      intro heq
      exact hwindow (UInt32.toNat_inj.mp heq)
    rw [hzero] at hsizeeq
    split at hsizeeq <;> omega

/-- `data_noqueue` comes to an end within the window exactly under the condition. -/
theorem dataNoqueueChecked_safe_iff :
    (∃ packets channel' size,
      channel.dataNoqueueChecked buf0 a offset = .ok (packets, channel', size) ∧
        dataBytes packets ≤ channel.recipientWindowSize.toNat) ↔
      Fits channel.recipientMaximumPacketSize channel.recipientWindowSize buf0 offset := by
  constructor
  · rintro ⟨packets, channel', size, h, hle⟩
    exact fits_of_dataNoqueueChecked h hle
  · intro hfits
    obtain ⟨packets, size, hsize, hbytes, h⟩ := dataNoqueueChecked_returns (a := a) hfits
    exact ⟨packets, _, size, h, by omega⟩

/-- For a buffer of less than 4 GiB the condition is one on the sum and on the size of a packet. -/
theorem dataNoqueueChecked_safe_iff_of_lt (hlen : buf0.length < UInt32.size) :
    (∃ packets channel' size,
      channel.dataNoqueueChecked buf0 a offset = .ok (packets, channel', size) ∧
        dataBytes packets ≤ channel.recipientWindowSize.toNat) ↔
      (offset < buf0.length →
        offset + channel.recipientWindowSize.toNat < UInt32.size ∧
          (channel.recipientWindowSize = 0 ∨ 0 < channel.recipientMaximumPacketSize)) :=
  dataNoqueueChecked_safe_iff.trans (fits_iff_of_lt hlen)

theorem toNat_sub_ofNat {k : Nat} (h : k ≤ window.toNat) :
    (window - UInt32.ofNat k).toNat = window.toNat - k := by
  have hw := window.toNat_lt
  have hval : (UInt32.ofNat k).toNat = k := by
    rw [UInt32.toNat_ofNat']
    exact Nat.mod_eq_of_lt (by omega)
  rw [UInt32.toNat_sub_of_le _ _ (UInt32.le_iff_toNat_le.mpr (by omega)), hval]

theorem flushPendingDataChecked_returns {ps : List PendingData}
    (hfits : QueueFits channel.recipientMaximumPacketSize channel.recipientWindowSize ps) :
    ∃ packets channel' result,
      channel.flushPendingDataChecked n ps = .ok (packets, channel', result) ∧
        dataBytes packets ≤ channel.recipientWindowSize.toNat := by
  induction ps generalizing channel n with
  | nil => exact ⟨[], _, _, rfl, by simp⟩
  | cons p ps ih =>
    obtain ⟨hfirst, hrest⟩ := hfits
    obtain ⟨packets, size, hsize, hbytes, h⟩ := dataNoqueueChecked_returns (a := p.ext) hfirst
    simp only [flushPendingDataChecked, h]
    by_cases hleft : p.offset + size < p.buf.length
    · simp only [bind, Except.bind, if_pos hleft]
      exact ⟨packets, _, _, rfl, by omega⟩
    · have hwhole : size = p.buf.length - p.offset := by omega
      have hle : p.buf.length - p.offset ≤ channel.recipientWindowSize.toNat := by omega
      have hwindow := toNat_sub_ofNat hle
      have hnext := hrest hle
      rw [← hwhole] at hnext
      obtain ⟨packets', channel', result, hf, hbytes'⟩ := @ih (n + size)
        { channel with
          recipientWindowSize := channel.recipientWindowSize - UInt32.ofNat size } hnext
      refine ⟨packets ++ packets', channel', result, ?_, ?_⟩
      · simp only [bind, Except.bind, if_neg hleft, hf]
        rfl
      · dsimp only at hbytes'
        rw [hwhole, hwindow] at hbytes'
        rw [dataBytes_append]
        omega

theorem queueFits_of_flushPendingDataChecked {ps : List PendingData}
    {result : ChannelFlushResult}
    (h : channel.flushPendingDataChecked n ps = .ok (packets, channel', result))
    (hle : dataBytes packets ≤ channel.recipientWindowSize.toNat) :
    QueueFits channel.recipientMaximumPacketSize channel.recipientWindowSize ps := by
  induction ps generalizing channel channel' n packets result with
  | nil => trivial
  | cons p ps ih =>
    rw [flushPendingDataChecked] at h
    obtain ⟨⟨written, c, size⟩, hd, h⟩ := bind_eq_ok.mp h
    dsimp only at h
    by_cases hleft : p.offset + size < p.buf.length
    · rw [if_pos hleft] at h
      obtain ⟨rfl, -⟩ := Prod.mk.inj (pure_eq_ok.mp h)
      have hfits := fits_of_dataNoqueueChecked hd hle
      obtain ⟨_, size', hsize', -, hd'⟩ := dataNoqueueChecked_returns (a := p.ext) hfits
      rw [hd] at hd'
      obtain ⟨-, -, rfl⟩ := by simpa using hd'
      exact ⟨hfits, fun hwhole => absurd hleft (by omega)⟩
    · rw [if_neg hleft] at h
      obtain ⟨⟨written', c', r⟩, hf, h⟩ := bind_eq_ok.mp h
      obtain ⟨rfl, -⟩ := Prod.mk.inj (pure_eq_ok.mp h)
      rw [dataBytes_append] at hle
      have hfits := fits_of_dataNoqueueChecked hd (by omega)
      obtain ⟨_, size', hsize', hbytes', hd'⟩ := dataNoqueueChecked_returns (a := p.ext) hfits
      rw [hd] at hd'
      obtain ⟨rfl, rfl, rfl⟩ := by simpa using hd'
      refine ⟨hfits, fun hwhole => ?_⟩
      have hsize : size = p.buf.length - p.offset := by omega
      have hwindow := toNat_sub_ofNat hwhole
      rw [← hsize] at hwindow ⊢
      have hleft' : dataBytes written' ≤
          (channel.recipientWindowSize - UInt32.ofNat size).toNat := by
        dsimp only at hle
        omega
      exact ih hf hleft'

/-- `flush_channel` comes to an end within the window exactly under the condition. -/
theorem flushChannelChecked_safe_iff :
    (∃ packets channel' result,
      channel.flushChannelChecked = .ok (packets, channel', result) ∧
        dataBytes packets ≤ channel.recipientWindowSize.toNat) ↔
      QueueFits channel.recipientMaximumPacketSize channel.recipientWindowSize
        channel.pendingData := by
  constructor
  · rintro ⟨packets, channel', result, h, hle⟩
    exact queueFits_of_flushPendingDataChecked h hle
  · intro hfits
    exact flushPendingDataChecked_returns hfits

end Safe

end ChannelParams

/-- What a packet says about a channel. -/
def Message.channelMessages : Message → List ChannelMessage
  | .channel _ _ m => [m]
  | _ => []

/-- The bytes of data in packets of `write`. -/
def writtenBytes (ms : List Message) : Nat :=
  ChannelParams.dataBytes (ms.flatMap Message.channelMessages)

theorem writtenBytes_channel (id recipient : Nat) (packets : List ChannelMessage) :
    writtenBytes (packets.map (.channel id recipient)) = ChannelParams.dataBytes packets := by
  simp [writtenBytes, List.flatMap_map, Message.channelMessages]

namespace Encrypted
open ChannelParams

/-- `flush_pending`. -/
def flushPendingChecked (id : ChannelId) (enc : Encrypted) : Except Exn (Encrypted × Nat) :=
  match enc.channels id with
  | none => pure (enc, 0)
  | some channel => do
    let (packets, channel', result) ← channel.flushChannelChecked
    let enc := (enc.pushChannel id channel.recipientChannel packets).setChannel id channel'
    pure (enc.handleFlushedChannel id result, result.wrote)

/-- `data` and `extended_data`. -/
def dataWithChecked (ext : Option Nat) (id : ChannelId) (buf0 : Bytes) (isRekeying : Bool)
    (enc : Encrypted) : Except Exn Encrypted :=
  match enc.channels id with
  | none => pure enc
  | some channel =>
    if !channel.confirmed then throw .panic
    else if !channel.pendingData.isEmpty && isRekeying then
      pure (enc.setChannel id
        { channel with pendingData := channel.pendingData ++ [⟨buf0, ext, 0⟩] })
    else do
      let (packets, channel', bufLen) ← channel.dataNoqueueChecked buf0 ext 0
      let enc := enc.pushChannel id channel.recipientChannel packets
      pure (enc.setChannel id
        (if bufLen < buf0.length then
          { channel' with pendingData := channel'.pendingData ++ [⟨buf0, ext, bufLen⟩] }
        else channel'))

/-- The window that the peer grants for a channel. -/
def recipientWindow (id : ChannelId) (enc : Encrypted) : Nat :=
  match enc.channels id with
  | some channel => channel.recipientWindowSize.toNat
  | none => 0

/-- An operation comes to an end and writes no more data than the window allows. -/
def EndsWithinWindow (id : ChannelId) (enc : Encrypted) (r : Except Exn Encrypted) : Prop :=
  ∃ enc' new, r = .ok enc' ∧ enc'.write = enc.write ++ new ∧
    writtenBytes new ≤ enc.recipientWindow id

variable {enc : Encrypted} {id : ChannelId}

theorem dataBytes_afterFlush (channel : ChannelParams) (result : ChannelFlushResult) :
    dataBytes (channel.afterFlush result).1 = 0 := by
  rw [dataBytes, payload_afterFlush, List.length_nil]

theorem flushPendingChecked_ends_iff :
    enc.EndsWithinWindow id ((enc.flushPendingChecked id).map Prod.fst) ↔
      ∀ channel, enc.channels id = some channel →
        QueueFits channel.recipientMaximumPacketSize channel.recipientWindowSize
          channel.pendingData := by
  unfold EndsWithinWindow flushPendingChecked recipientWindow
  cases hc : enc.channels id with
  | none =>
    refine iff_of_true ⟨enc, [], rfl, by simp, by simp [writtenBytes]⟩ ?_
    intro channel h
    cases h
  | some channel =>
    dsimp only
    -- What is written besides the data is no data.
    have hwrite : ∀ packets channel' result,
        channel.flushChannelChecked = .ok (packets, channel', result) →
        ∃ new, (((enc.pushChannel id channel.recipientChannel packets).setChannel id
            channel').handleFlushedChannel id result).write = enc.write ++ new ∧
          writtenBytes new = dataBytes packets := by
      intro packets channel' result h
      have hflush := flushPendingData_flushes (flushPendingData_of_checked h)
      refine ⟨(packets ++ (channel'.afterFlush result).1).map
        (.channel id channel.recipientChannel), ?_, ?_⟩
      · have hrec : channel'.recipientChannel = channel.recipientChannel := by
          rw [hflush.channel_eq]
        rw [setChannel_eq, handleFlushedChannel_eq (channels_putChannel _) hflush.describes, hrec]
        simp [pushChannel, putChannel]
      · rw [writtenBytes_channel, dataBytes_append, dataBytes_afterFlush, Nat.add_zero]
    constructor
    · rintro ⟨enc', new, h, hnew, hle⟩ channel₁ h₁
      cases h₁
      cases hf : channel.flushChannelChecked with
      | error e =>
        rw [hf] at h
        cases h
      | ok q =>
        obtain ⟨packets, channel', result⟩ := q
        rw [hf] at h
        obtain rfl := Except.ok.inj h
        obtain ⟨new', hnew', hbytes⟩ := hwrite packets channel' result hf
        have hsame : new' = new := List.append_cancel_left (hnew'.symm.trans hnew)
        rw [hsame] at hbytes
        exact flushChannelChecked_safe_iff.mp ⟨packets, channel', result, hf, by omega⟩
    · intro hfits
      obtain ⟨packets, channel', result, hf, hle⟩ :=
        flushChannelChecked_safe_iff.mpr (hfits channel rfl)
      obtain ⟨new, hnew, hbytes⟩ := hwrite packets channel' result hf
      refine ⟨_, new, ?_, hnew, by omega⟩
      rw [hf]
      rfl

/-- When `data` can be called for a channel. -/
def DataFits (channel : ChannelParams) (buf0 : Bytes) (isRekeying : Bool) : Prop :=
  channel.confirmed = true ∧
    ((channel.pendingData ≠ [] ∧ isRekeying = true) ∨
      Fits channel.recipientMaximumPacketSize channel.recipientWindowSize buf0 0)

theorem dataWithChecked_ends_iff {ext : Option Nat} {buf0 : Bytes} {isRekeying : Bool} :
    enc.EndsWithinWindow id (enc.dataWithChecked ext id buf0 isRekeying) ↔
      ∀ channel, enc.channels id = some channel → DataFits channel buf0 isRekeying := by
  unfold EndsWithinWindow dataWithChecked recipientWindow
  cases hc : enc.channels id with
  | none =>
    refine iff_of_true ⟨enc, [], rfl, by simp, by simp [writtenBytes]⟩ ?_
    intro channel h
    cases h
  | some channel =>
    dsimp only
    constructor
    · rintro ⟨enc', new, h, hnew, hle⟩ channel₁ h₁
      cases h₁
      by_cases hconf : channel.confirmed = true
      swap
      · simp only [hconf] at h
        cases h
      refine ⟨hconf, ?_⟩
      by_cases hqueue : channel.pendingData ≠ [] ∧ isRekeying = true
      · exact Or.inl hqueue
      · right
        have hcond : (!channel.pendingData.isEmpty && isRekeying) = false := by
          rw [Bool.and_eq_false_iff]
          by_cases hp : channel.pendingData = []
          · simp [hp]
          · exact Or.inr (by simpa [hp] using hqueue)
        simp only [hconf, hcond, Bool.not_true, Bool.false_eq_true, if_false] at h
        obtain ⟨⟨packets, channel', size⟩, hd, h⟩ := bind_eq_ok.mp h
        obtain rfl := pure_eq_ok.mp h
        have hsame : packets.map (.channel id channel.recipientChannel) = new :=
          List.append_cancel_left hnew
        rw [← hsame, writtenBytes_channel] at hle
        exact fits_of_dataNoqueueChecked hd hle
    · intro hfits
      obtain ⟨hconf, hfits⟩ := hfits channel rfl
      by_cases hqueue : (!channel.pendingData.isEmpty && isRekeying) = true
      · refine ⟨enc.setChannel id
          { channel with pendingData := channel.pendingData ++ [⟨buf0, ext, 0⟩] }, [], ?_, by
            simp [setChannel], by simp [writtenBytes]⟩
        simp only [hconf, hqueue, Bool.not_true, Bool.false_eq_true, if_false, if_true]
        rfl
      · have hfits : Fits channel.recipientMaximumPacketSize channel.recipientWindowSize buf0 0 := by
          refine hfits.resolve_left ?_
          rintro ⟨hne, hrekey⟩
          exact hqueue (by simp [hne, hrekey])
        obtain ⟨packets, size, hsize, hbytes, hd⟩ := dataNoqueueChecked_returns (a := ext) hfits
        simp only [hconf, hqueue, Bool.not_true, Bool.false_eq_true, if_false, hd]
        refine ⟨_, packets.map (.channel id channel.recipientChannel), rfl, rfl, ?_⟩
        rw [writtenBytes_channel]
        omega

end Encrypted

/-- The arithmetic of the window is safe exactly under the conditions, for `data_noqueue`, for
`data` and `extended_data`, and for `flush_pending`. -/
theorem window_arithmetic_safe_iff (channel : ChannelParams) (enc : Encrypted) (id : ChannelId)
    (ext : Option Nat) (buf0 : Bytes) (offset : Nat) (isRekeying : Bool) :
    ((∃ packets channel' size,
        channel.dataNoqueueChecked buf0 ext offset = .ok (packets, channel', size) ∧
          ChannelParams.dataBytes packets ≤ channel.recipientWindowSize.toNat) ↔
      ChannelParams.Fits channel.recipientMaximumPacketSize channel.recipientWindowSize buf0
        offset) ∧
    (enc.EndsWithinWindow id (enc.dataWithChecked ext id buf0 isRekeying) ↔
      ∀ channel, enc.channels id = some channel →
        Encrypted.DataFits channel buf0 isRekeying) ∧
    (enc.EndsWithinWindow id ((enc.flushPendingChecked id).map Prod.fst) ↔
      ∀ channel, enc.channels id = some channel →
        ChannelParams.QueueFits channel.recipientMaximumPacketSize channel.recipientWindowSize
          channel.pendingData) := by
  refine ⟨?_, ?_, ?_⟩
  · exact ChannelParams.dataNoqueueChecked_safe_iff
  · exact Encrypted.dataWithChecked_ends_iff
  · exact Encrypted.flushPendingChecked_ends_iff

/-- A byte of the buffer has been written, and the window has grown to its maximum since. -/
theorem window_arithmetic_fails :
    ¬∀ (channel : ChannelParams) (buf0 : Bytes) (a : Option Nat) (offset : Nat),
      ∃ packets channel' size,
        channel.dataNoqueueChecked buf0 a offset = .ok (packets, channel', size) ∧
          ChannelParams.dataBytes packets ≤ channel.recipientWindowSize.toNat := by
  intro h
  obtain ⟨packets, channel', size, hok, -⟩ := h
    { ChannelParams.opened 0 0 2 with
      recipientWindowSize := 4294967295, recipientMaximumPacketSize := 32768 } [1, 2] none 1
  have hpanic : ({ ChannelParams.opened 0 0 2 with
      recipientWindowSize := 4294967295, recipientMaximumPacketSize := 32768 } :
      ChannelParams).dataNoqueueChecked [1, 2] none 1 = .error .panic := by rfl
  rw [hpanic] at hok
  cases hok

end Edgessh.Russh
