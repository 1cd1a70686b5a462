import Edgessh.Lib.Credit
import Edgessh.Russh.Session.Output

/-!
# The output stream of a channel

A channel is a sender with credit: its credit is the window of the peer, and what it has sent is
the data of the packets behind `write`. Submitting data and adjusting the window are the two
operations of the abstract sender, as long as `data_noqueue` compares the sizes that it means to
compare; a buffer of 2^32 bytes or more may look as if it fits.
-/

namespace Edgessh.Russh
open Edgessh.Command Edgessh.Run Edgessh.Credit

namespace ChannelParams

/-- If the truncated sizes say that the rest of the buffer fits into the window, it does. -/
def Sound (window : UInt32) (buf0 : Bytes) (offset : Nat) : Prop :=
  exceedsWindow window buf0 offset = false → buf0.length ≤ offset + window.toNat

/-- The offset and the window of a write do not overflow 32 bits. -/
def NoOverflow (window : UInt32) (offset : Nat) : Prop :=
  offset % 2 ^ 32 + window.toNat < 2 ^ 32

/-- Every write that a flush of the queue tries, one after the other. -/
def EveryWrite (P : UInt32 → Bytes → Nat → Prop) : UInt32 → List PendingData → Prop
  | _, [] => True
  | window, p :: ps => P window p.buf p.offset ∧
      (p.buf.length ≤ p.offset + window.toNat →
        EveryWrite P (window - UInt32.ofNat (p.buf.length - p.offset)) ps)

theorem sound_of_noOverflow {window : UInt32} {buf0 : Bytes} {offset : Nat}
    (h : NoOverflow window offset) (hlen : buf0.length < 2 ^ 32) :
    Sound window buf0 offset := by
  intro hex
  have hle : ¬ UInt32.ofNat offset + window < UInt32.ofNat buf0.length := by
    simpa [exceedsWindow] using hex
  simp only [NoOverflow] at h
  rw [UInt32.lt_iff_toNat_lt, UInt32.toNat_add, UInt32.toNat_ofNat', UInt32.toNat_ofNat',
    Nat.mod_eq_of_lt hlen, Nat.mod_eq_of_lt h] at hle
  have := Nat.mod_le offset (2 ^ 32)
  omega

theorem toNat_window_sub {window : UInt32} {n : Nat} (h : n ≤ window.toNat) :
    (window - UInt32.ofNat n).toNat = window.toNat - n := by
  have hlt : n < 2 ^ 32 := Nat.lt_of_le_of_lt h window.toNat_lt
  have hn : (UInt32.ofNat n).toNat = n := UInt32.toNat_ofNat_of_lt' hlt
  rw [UInt32.toNat_sub_of_le _ _ (UInt32.le_iff_toNat_le.mpr (by rw [hn]; exact h)), hn]

/-- A sound write takes from the window what it writes. -/
theorem dataNoqueue_credit {channel channel' : ChannelParams} {buf0 : Bytes} {a : Option Nat}
    {offset size : Nat} {packets : List ChannelMessage}
    (hs : Sound channel.recipientWindowSize buf0 offset)
    (h : channel.dataNoqueue buf0 a offset = .ok (packets, channel', size)) :
    (packets.flatMap ChannelMessage.payload).length + channel'.recipientWindowSize.toNat =
      channel.recipientWindowSize.toNat := by
  by_cases ho : offset < buf0.length
  · have hw := dataNoqueue_writes ho h
    have hsize : size ≤ channel.recipientWindowSize.toNat := by
      have hsize := hw.size_eq
      split at hsize
      · omega
      · rename_i hex
        have := hs (by simpa using hex)
        omega
    have hle := hw.offset_le
    rw [hw.payload, hw.channel_eq, length_tagged, List.length_take, List.length_drop,
      toNat_window_sub hsize]
    omega
  · rw [dataNoqueue_of_le (by omega)] at h
    cases h
    simp

/-- A write that does not fit leaves something of its buffer. -/
theorem dataNoqueue_fits {channel channel' : ChannelParams} {buf0 : Bytes} {a : Option Nat}
    {offset size : Nat} {packets : List ChannelMessage}
    (hs : Sound channel.recipientWindowSize buf0 offset)
    (h : channel.dataNoqueue buf0 a offset = .ok (packets, channel', size))
    (hdone : ¬ offset + size < buf0.length) :
    buf0.length ≤ offset + channel.recipientWindowSize.toNat ∧
      channel'.recipientWindowSize =
        channel.recipientWindowSize - UInt32.ofNat (buf0.length - offset) := by
  by_cases ho : offset < buf0.length
  · have hw := dataNoqueue_writes ho h
    have hle := hw.offset_le
    have hsize : size = buf0.length - offset := by omega
    refine ⟨?_, by rw [hw.channel_eq, hsize]⟩
    have := hw.size_eq
    split at this
    · omega
    · rename_i hex
      exact hs (by simpa using hex)
  · rw [dataNoqueue_of_le (by omega)] at h
    cases h
    refine ⟨by omega, ?_⟩
    have hz : buf0.length - offset = 0 := by omega
    simp [hz]

/-- A flush takes from the window what it writes. -/
theorem flushPendingData_credit {channel channel' : ChannelParams} {ps : List PendingData}
    {n : Nat} {packets : List ChannelMessage} {result : ChannelFlushResult}
    (hs : EveryWrite Sound channel.recipientWindowSize ps)
    (h : channel.flushPendingData n ps = .ok (packets, channel', result)) :
    (packets.flatMap ChannelMessage.payload).length + channel'.recipientWindowSize.toNat =
      channel.recipientWindowSize.toNat := by
  induction ps generalizing channel n packets with
  | nil =>
    obtain ⟨rfl, rfl, -⟩ := by simpa [flushPendingData, pure_eq_ok] using h
    simp
  | cons p ps ih =>
    rw [flushPendingData] at h
    obtain ⟨⟨written, c, size⟩, hd, h⟩ := bind_eq_ok.mp h
    have hcredit := dataNoqueue_credit hs.1 hd
    dsimp only at h
    split at h
    · obtain ⟨rfl, rfl, -⟩ := by simpa [pure_eq_ok] using h
      exact hcredit
    · rename_i hdone
      obtain ⟨⟨written', c', r⟩, hf, h⟩ := bind_eq_ok.mp h
      obtain ⟨rfl, rfl, rfl⟩ := by simpa [pure_eq_ok] using h
      obtain ⟨hfit, hwin⟩ := dataNoqueue_fits hs.1 hd hdone
      have hrest := ih (hwin ▸ hs.2 hfit) hf
      rw [List.flatMap_append, List.length_append]
      omega

/-- `data` and `extended_data` try to write the buffer, instead of letting it wait. -/
def Tries (channel : ChannelParams) (isRekeying : Bool) : Prop :=
  channel.pendingData = [] ∨ isRekeying = false

/-- What `data` and `extended_data` write and what they change. -/
structure Submits (channel : ChannelParams) (ext : Option Nat) (buf0 : Bytes)
    (isRekeying : Bool) (packets : List ChannelMessage) (channel' : ChannelParams) : Prop where
  channel_eq : channel' =
    { channel with
      recipientWindowSize := channel'.recipientWindowSize
      pendingData := channel'.pendingData }
  packets_le : ∀ msg ∈ packets,
    ∃ a b, msg = dataMessage a b ∧ b.length ≤ channel.recipientMaximumPacketSize
  blocked : channel'.Blocked
  waiting : channel.pendingData ≠ [] → channel'.pendingData ≠ []
  /-- Nothing is lost, but a buffer may overtake those that wait. -/
  perm : (packets.flatMap ChannelMessage.payload ++ queued channel'.pendingData).Perm
    (queued channel.pendingData ++ tagged ext buf0)
  payload : (channel.Tries isRekeying → Sound channel.recipientWindowSize buf0 0) →
    packets.flatMap ChannelMessage.payload ++ queued channel'.pendingData =
      queued channel.pendingData ++ tagged ext buf0
  credit : (channel.Tries isRekeying → Sound channel.recipientWindowSize buf0 0) →
    (packets.flatMap ChannelMessage.payload).length + channel'.recipientWindowSize.toNat =
      channel.recipientWindowSize.toNat

/-- A write without a window leaves it at zero, also if it takes the buffer to be empty. -/
theorem dataNoqueue_of_zero {channel channel' : ChannelParams} {ext : Option Nat} {buf0 : Bytes}
    {packets : List ChannelMessage} {size : Nat} (hz : channel.recipientWindowSize = 0)
    (h : channel.dataNoqueue buf0 ext 0 = .ok (packets, channel', size)) :
    channel'.recipientWindowSize = 0 ∧ (Sound channel.recipientWindowSize buf0 0 → size = 0) := by
  by_cases ho : 0 < buf0.length
  · have hw := dataNoqueue_writes ho h
    have hsize := hw.size_eq
    rw [hw.channel_eq]
    split at hsize
    · have hzero : size = 0 := by
        rw [hsize, hz]
        rfl
      exact ⟨by simp [hz, hzero], fun _ => hzero⟩
    · rename_i hex
      refine ⟨?_, fun hs => ?_⟩
      · have hlen : UInt32.ofNat buf0.length = 0 := by
          simpa [exceedsWindow, hz] using hex
        simp [hz, hsize, hlen]
      · have := hs (by simpa using hex)
        rw [hz, UInt32.toNat_zero] at this
        omega
  · rw [dataNoqueue_of_le (by omega)] at h
    cases h
    exact ⟨hz, fun _ => rfl⟩

theorem submit_submits {channel channel' : ChannelParams} {ext : Option Nat} {buf0 : Bytes}
    {isRekeying : Bool} {packets : List ChannelMessage} (hb : channel.Blocked)
    (h : channel.submit ext buf0 isRekeying = .ok (packets, channel')) :
    channel.Submits ext buf0 isRekeying packets channel' := by
  unfold submit at h
  split at h
  · cases h
  · split at h
    · rename_i hq
      obtain ⟨rfl, rfl⟩ := by simpa [pure_eq_ok] using h
      obtain ⟨p, ps, hp⟩ := List.exists_cons_of_ne_nil (l := channel.pendingData)
        (by intro hnil; simp [hnil] at hq)
      have hqueued : queued (channel.pendingData ++ [⟨buf0, ext, 0⟩]) =
          queued channel.pendingData ++ tagged ext buf0 := by
        simp [queued]
      refine ⟨rfl, by simp, ?_, by simp, by simp [hqueued], fun _ => by simp [hqueued],
        fun _ => by simp⟩
      rintro q qs hq'
      simp only [hp, List.cons_append, List.cons.injEq] at hq'
      obtain ⟨rfl, -⟩ := hq'
      exact hb p ps hp
    · rename_i hq
      have htries : channel.Tries isRekeying := by
        simpa [Tries, or_iff_not_imp_left] using hq
      obtain ⟨⟨written, c, size⟩, hd, h⟩ := bind_eq_ok.mp h
      obtain ⟨rfl, rfl⟩ := by simpa [pure_eq_ok] using h
      have hframe := dataNoqueue_frame hd
      have hpay : written.flatMap ChannelMessage.payload ++ tagged ext (buf0.drop size) =
          tagged ext buf0 := by
        simpa using dataNoqueue_payload hd
      have hqueued : queued (if size < buf0.length then
            { c with pendingData := c.pendingData ++ [⟨buf0, ext, size⟩] } else c).pendingData =
          queued channel.pendingData ++ tagged ext (buf0.drop size) := by
        split
        · rw [hframe]
          simp [queued]
        · rw [hframe, List.drop_eq_nil_of_le (by omega)]
          simp
      have hwin : (if size < buf0.length then
            { c with pendingData := c.pendingData ++ [⟨buf0, ext, size⟩] }
          else c).recipientWindowSize = c.recipientWindowSize := by
        split <;> rfl
      refine ⟨?_, ?_, ?_, ?_, ?_, ?_, ?_⟩
      · rw [hframe]
        split <;> rfl
      · intro msg hm
        by_cases ho : 0 < buf0.length
        · exact ⟨ext, (dataNoqueue_writes ho hd).packets_le msg hm⟩
        · rw [dataNoqueue_of_le (by omega)] at hd
          cases hd
          cases hm
      · intro q qs hq
        rw [hwin]
        cases hp : channel.pendingData with
        | cons p ps =>
          -- The front of the queue stays in front.
          obtain ⟨hzero, hex, ho⟩ := hb p ps hp
          obtain rfl : q = p := by
            rw [hframe] at hq
            split at hq
            · simp only [hp, List.cons_append, List.cons.injEq] at hq
              exact hq.1.symm
            · simp only [hp, List.cons.injEq] at hq
              exact hq.1.symm
          exact ⟨(dataNoqueue_of_zero hzero hd).1, hex, ho⟩
        | nil =>
          rw [hframe] at hq
          split at hq
          · rename_i hleft
            simp only [hp, List.nil_append, List.cons.injEq] at hq
            obtain ⟨rfl, -⟩ := hq
            have hblocked := dataNoqueue_blocked hd (by simpa using hleft)
            rw [Nat.zero_add] at hblocked
            exact ⟨hblocked.1, hblocked.2, hleft⟩
          · rw [hp] at hq
            cases hq
      · intro hne
        rw [hframe]
        split
        · simp
        · exact hne
      · rw [hqueued, ← hpay]
        exact List.perm_append_comm_assoc ..
      · intro hs
        rw [hqueued]
        cases hp : channel.pendingData with
        | cons p ps =>
          obtain ⟨hzero, -, -⟩ := hb p ps hp
          have hsize := (dataNoqueue_of_zero hzero hd).2 (hs htries)
          have hnone : written.flatMap ChannelMessage.payload = [] := by
            simpa [hsize] using hpay
          rw [hnone, hsize]
          rfl
        | nil => exact hpay
      · intro hs
        rw [hwin]
        exact dataNoqueue_credit (hs htries) hd

/-- What a CHANNEL_WINDOW_ADJUST does: a flush, and what `handle_flushed_channel` adds. -/
theorem adjust_eq_ok {channel : ChannelParams} {amount : UInt32} {packets : List ChannelMessage}
    {channel' : Option ChannelParams} (h : channel.adjust amount = .ok (packets, channel')) :
    ∃ written c result, (channel.enlarge amount).flushChannel = .ok (written, c, result) ∧
      packets = written ++ (c.afterFlush result).1 ∧ channel' = (c.afterFlush result).2 := by
  obtain ⟨⟨written, c, result⟩, hf, h⟩ := bind_eq_ok.mp h
  obtain ⟨rfl, rfl⟩ := by simpa [pure_eq_ok] using h
  exact ⟨written, c, result, hf, rfl, rfl⟩

theorem payload_afterFlush (channel : ChannelParams) (result : ChannelFlushResult) :
    (channel.afterFlush result).1.flatMap ChannelMessage.payload = [] := by
  cases result with
  | incomplete _ => rfl
  | complete _ pendingEof pendingClose => cases pendingEof <;> cases pendingClose <;> rfl

theorem afterFlush_eq_some {channel channel' : ChannelParams} {result : ChannelFlushResult}
    (h : (channel.afterFlush result).2 = some channel') : channel' = channel := by
  cases result with
  | incomplete _ => exact (Option.some.inj h).symm
  | complete _ _ pendingClose =>
    cases pendingClose with
    | false => exact (Option.some.inj h).symm
    | true => cases h

end ChannelParams

/-- Every write that the call tries meets `P`, if `channel` is the entry of the channel `id`. -/
def ChannelCall.EveryWriteOn (P : UInt32 → Bytes → Nat → Prop) (id : ChannelId)
    (channel : ChannelParams) : ChannelCall → Prop
  | submit i _ buf0 isRekeying => i = id → channel.Tries isRekeying →
      P channel.recipientWindowSize buf0 0
  | windowAdjust i amount => i = id →
      ChannelParams.EveryWrite P (channel.enlarge amount).recipientWindowSize channel.pendingData
  | _ => True

/-- Every write that the call tries on the channel `id` meets `P`. -/
def ChannelCall.EveryWrite (P : UInt32 → Bytes → Nat → Prop) (id : ChannelId) (enc : Encrypted)
    (call : ChannelCall) : Prop :=
  match enc.channels id with
  | some channel => call.EveryWriteOn P id channel
  | none => True

theorem ChannelCall.everyWriteOn {P : UInt32 → Bytes → Nat → Prop} {id : ChannelId}
    {enc : Encrypted} {call : ChannelCall} {channel : ChannelParams}
    (h : call.EveryWrite P id enc) (hc : enc.channels id = some channel) :
    call.EveryWriteOn P id channel := by
  simpa only [EveryWrite, hc] using h

section Decidable

instance (window : UInt32) (buf0 : Bytes) (offset : Nat) :
    Decidable (ChannelParams.Sound window buf0 offset) :=
  inferInstanceAs (Decidable (_ → _))

instance (channel : ChannelParams) (isRekeying : Bool) :
    Decidable (channel.Tries isRekeying) :=
  inferInstanceAs (Decidable (_ ∨ _))

variable {P : UInt32 → Bytes → Nat → Prop} [∀ w b o, Decidable (P w b o)]

instance ChannelParams.EveryWrite.decidable :
    (window : UInt32) → (ps : List PendingData) → Decidable (ChannelParams.EveryWrite P window ps)
  | _, [] => isTrue trivial
  | window, p :: ps =>
    have := EveryWrite.decidable (window - UInt32.ofNat (p.buf.length - p.offset)) ps
    inferInstanceAs (Decidable (_ ∧ (_ → _)))

instance (id : ChannelId) (channel : ChannelParams) :
    (call : ChannelCall) → Decidable (call.EveryWriteOn P id channel)
  | .submit _ _ _ _ => inferInstanceAs (Decidable (_ → _ → _))
  | .windowAdjust _ _ => inferInstanceAs (Decidable (_ → _))
  | .eof _ | .close _ | .flushAllPending _ => isTrue trivial

instance (id : ChannelId) (enc : Encrypted) (call : ChannelCall) :
    Decidable (call.EveryWrite P id enc) :=
  match h : enc.channels id with
  | some channel => decidable_of_iff (call.EveryWriteOn P id channel)
      (by simp [ChannelCall.EveryWrite, h])
  | none => isTrue (by simp [ChannelCall.EveryWrite, h])

end Decidable

section Returns

namespace ChannelParams

/-- Without an overflow, a buffer is cut inside its bounds. -/
theorem fittingPart_returns {window : UInt32} {buf0 : Bytes} {offset : Nat}
    (ho : offset < buf0.length) (h : NoOverflow window offset) :
    ∃ buf, fittingPart window buf0 offset = .ok buf := by
  unfold fittingPart
  split
  · rename_i hex
    have hlt : UInt32.ofNat offset + window < UInt32.ofNat buf0.length := by
      simpa [exceedsWindow] using hex
    simp only [NoOverflow] at h
    rw [UInt32.lt_iff_toNat_lt, UInt32.toNat_add, UInt32.toNat_ofNat', UInt32.toNat_ofNat',
      Nat.mod_eq_of_lt h] at hlt
    have hle : offset + window.toNat ≤ buf0.length := by
      have := Nat.div_add_mod offset (2 ^ 32)
      have := Nat.div_add_mod buf0.length (2 ^ 32)
      have := Nat.div_le_div_right (c := 2 ^ 32) (Nat.le_of_lt ho)
      omega
    exact ⟨_, if_pos hle⟩
  · exact ⟨_, rfl⟩

theorem dataNoqueue_returns {channel : ChannelParams} {offset : Nat} (buf0 : Bytes)
    (a : Option Nat) (hmax : 0 < channel.recipientMaximumPacketSize)
    (h : NoOverflow channel.recipientWindowSize offset) :
    ∃ r, channel.dataNoqueue buf0 a offset = .ok r := by
  by_cases ho : offset < buf0.length
  · obtain ⟨buf, hbuf⟩ := fittingPart_returns ho h
    obtain ⟨r, hr⟩ := writePackets_returns a channel.recipientWindowSize hmax
      (Nat.le_refl buf.length)
    rw [dataNoqueue, if_neg (by omega), hbuf]
    exact ⟨_, bind_eq_ok.mpr ⟨buf, rfl, bind_eq_ok.mpr ⟨r, hr, rfl⟩⟩⟩
  · exact ⟨_, dataNoqueue_of_le (by omega)⟩

theorem flushPendingData_returns {channel : ChannelParams} {ps : List PendingData} (n : Nat)
    (hmax : 0 < channel.recipientMaximumPacketSize)
    (hs : EveryWrite Sound channel.recipientWindowSize ps)
    (h : EveryWrite (fun window _ offset => NoOverflow window offset)
      channel.recipientWindowSize ps) :
    ∃ r, channel.flushPendingData n ps = .ok r := by
  induction ps generalizing channel n with
  | nil => exact ⟨_, rfl⟩
  | cons p ps ih =>
    obtain ⟨⟨written, c, size⟩, hd⟩ := dataNoqueue_returns p.buf p.ext hmax h.1
    rw [flushPendingData, hd]
    by_cases hleft : p.offset + size < p.buf.length
    · exact ⟨_, by simp only [bind, Except.bind, if_pos hleft]; rfl⟩
    · obtain ⟨hfit, hwin⟩ := dataNoqueue_fits hs.1 hd hleft
      have hmax' : 0 < c.recipientMaximumPacketSize := by
        rw [dataNoqueue_frame hd]
        exact hmax
      obtain ⟨r, hr⟩ := ih (n + size) hmax'
        (hwin ▸ hs.2 hfit) (hwin ▸ h.2 hfit)
      exact ⟨_, by simp only [bind, Except.bind, if_neg hleft, hr]; rfl⟩

end ChannelParams

open ChannelParams in
/-- A call on a confirmed channel whose packets may have a byte returns. -/
theorem apply_returns {id : ChannelId} {call : ChannelCall} {enc : Encrypted}
    {channel : ChannelParams} (hc : enc.channels id = some channel)
    (hconf : channel.confirmed = true) (hmax : 0 < channel.recipientMaximumPacketSize)
    (ht : call.target = some id) (hs : call.EveryWrite Sound id enc)
    (ho : call.EveryWrite (fun window _ offset => NoOverflow window offset) id enc) :
    ∃ enc', call.apply enc = .ok enc' := by
  have hentry : ∃ r, call.onEntry channel = .ok r := by
    cases call with
    | submit i ext buf0 isRekeying =>
      obtain rfl := Option.some.inj ht
      simp only [ChannelCall.onEntry, submit, hconf, Bool.not_true, Bool.false_eq_true, if_false]
      split
      · exact ⟨_, rfl⟩
      · rename_i hq
        have htries : channel.Tries isRekeying := by
          simpa [Tries, or_iff_not_imp_left] using hq
        obtain ⟨r, hr⟩ := dataNoqueue_returns buf0 ext hmax
          (ChannelCall.everyWriteOn ho hc rfl htries)
        rw [hr]
        exact ⟨_, rfl⟩
    | windowAdjust i amount =>
      obtain rfl := Option.some.inj ht
      have hmax' : 0 < (channel.enlarge amount).recipientMaximumPacketSize := hmax
      obtain ⟨r, hr⟩ := flushPendingData_returns 0 hmax' (ChannelCall.everyWriteOn hs hc rfl)
        (ChannelCall.everyWriteOn ho hc rfl)
      exact ⟨_, bind_eq_ok.mpr ⟨r, hr, rfl⟩⟩
    | _ => exact ⟨_, rfl⟩
  obtain ⟨r, hr⟩ := hentry
  rw [ChannelCall.apply_eq_onChannel ht, Encrypted.onChannel_some hc, hr]
  exact ⟨_, rfl⟩

end Returns

section Entry

open ChannelParams

/-- The entry that a call leaves is blocked when its data waits, and keeps what was agreed with
the peer; the packets have the size that was agreed. -/
theorem onEntry_frame {call : ChannelCall} {channel : ChannelParams}
    {packets : List ChannelMessage} {channel' : Option ChannelParams} (hb : channel.Blocked)
    (h : call.onEntry channel = .ok (packets, channel')) :
    (∀ msg ∈ packets, msg.payload.length ≤ channel.recipientMaximumPacketSize) ∧
      ∀ c, channel' = some c → c.Blocked ∧ c.confirmed = channel.confirmed ∧
        c.recipientMaximumPacketSize = channel.recipientMaximumPacketSize := by
  have hdata : ∀ packets : List ChannelMessage,
      (∀ msg ∈ packets, ∃ a b, msg = dataMessage a b ∧
        b.length ≤ channel.recipientMaximumPacketSize) →
      ∀ msg ∈ packets, msg.payload.length ≤ channel.recipientMaximumPacketSize := by
    intro packets hle msg hm
    obtain ⟨a, b, rfl, hlen⟩ := hle msg hm
    simpa using hlen
  cases call with
  | submit i ext buf0 isRekeying =>
    obtain ⟨⟨written, c⟩, hsub, h⟩ := bind_eq_ok.mp h
    obtain ⟨rfl, rfl⟩ := by simpa [pure_eq_ok] using h
    have hr := submit_submits hb hsub
    refine ⟨hdata _ hr.packets_le, ?_⟩
    rintro c' hc'
    obtain rfl := Option.some.inj hc'
    exact ⟨hr.blocked, by rw [hr.channel_eq], by rw [hr.channel_eq]⟩
  | eof i =>
    have h : (channel.eof.1, some channel.eof.2) = (packets, channel') := Except.ok.inj h
    unfold ChannelParams.eof at h
    split at h
    · obtain ⟨rfl, rfl⟩ := Prod.mk.inj h
      refine ⟨by simp [ChannelMessage.payload], fun c hc => ?_⟩
      obtain rfl := Option.some.inj hc
      exact ⟨hb, rfl, rfl⟩
    · obtain ⟨rfl, rfl⟩ := Prod.mk.inj h
      refine ⟨by simp, fun c hc => ?_⟩
      obtain rfl := Option.some.inj hc
      exact ⟨hb, rfl, rfl⟩
  | close i =>
    have h : channel.close = (packets, channel') := Except.ok.inj h
    unfold ChannelParams.close at h
    split at h
    · obtain ⟨rfl, rfl⟩ := Prod.mk.inj h
      exact ⟨by simp [ChannelMessage.payload], by simp⟩
    · obtain ⟨rfl, rfl⟩ := Prod.mk.inj h
      refine ⟨by simp, fun c hc => ?_⟩
      obtain rfl := Option.some.inj hc
      exact ⟨hb, rfl, rfl⟩
  | windowAdjust i amount =>
    obtain ⟨written, c, result, hf, rfl, rfl⟩ := adjust_eq_ok h
    have hr := flushPendingData_flushes hf
    refine ⟨?_, ?_⟩
    · intro msg hm
      rcases List.mem_append.mp hm with hm | hm
      · exact hdata written hr.packets_le msg hm
      · have := List.flatMap_eq_nil_iff.mp (payload_afterFlush c result) msg hm
        simp [this]
    · intro c' hc'
      obtain rfl := afterFlush_eq_some hc'
      exact ⟨hr.blocked, by rw [hr.channel_eq]; rfl, by rw [hr.channel_eq]; rfl⟩
  | flushAllPending order =>
    obtain ⟨rfl, rfl⟩ := Prod.mk.inj (Except.ok.inj h)
    refine ⟨by simp, fun c hc => ?_⟩
    obtain rfl := Option.some.inj hc
    exact ⟨hb, rfl, rfl⟩

end Entry

section Refinement

open ChannelParams

/-- The channel as a sender: `sent` is what has been written for it. -/
def senderOf (sent : List (Option Nat × UInt8)) (channel : ChannelParams) :
    Sender (Option Nat × UInt8) :=
  ⟨sent, queued channel.pendingData, channel.recipientWindowSize.toNat⟩

theorem senderOf_settled {channel : ChannelParams} (hb : channel.Blocked)
    (sent : List (Option Nat × UInt8)) : (senderOf sent channel).Settled := by
  intro hq
  cases hp : channel.pendingData with
  | nil =>
    simp [senderOf, queued, hp] at hq
  | cons p ps =>
    simp [senderOf, (hb p ps hp).1]

/-- The operation of the abstract sender. -/
def ChannelCall.abstract (channel : ChannelParams) :
    ChannelCall → Sender (Option Nat × UInt8) → Sender (Option Nat × UInt8)
  | .submit _ ext buf0 _ => Sender.submit (tagged ext buf0)
  | .windowAdjust _ amount => Sender.grant
      ((channel.enlarge amount).recipientWindowSize.toNat - channel.recipientWindowSize.toNat)
  | _ => fun s => s

theorem toNat_enlarge (channel : ChannelParams) (amount : UInt32) :
    (channel.enlarge amount).recipientWindowSize.toNat =
      min (channel.recipientWindowSize.toNat + amount.toNat) (2 ^ 32 - 1) := by
  have hlt : min (channel.recipientWindowSize.toNat + amount.toNat) (UInt32.size - 1) < 2 ^ 32 := by
    simp only [UInt32.size]
    omega
  simp only [enlarge, UInt32.toNat_ofNat_of_lt' hlt]
  rfl

/-- The channel refines the sender: what is written is what the sender sends, and the entry that
is left, if one is left, is the sender that is left. -/
theorem onEntry_refines {id : ChannelId} {call : ChannelCall} {enc : Encrypted}
    {channel : ChannelParams} {packets : List ChannelMessage} {channel' : Option ChannelParams}
    (hc : enc.channels id = some channel) (hb : channel.Blocked)
    (hs : call.EveryWrite Sound id enc) (ht : call.target = some id)
    (h : call.onEntry channel = .ok (packets, channel'))
    (sent : List (Option Nat × UInt8)) :
    ∃ c, call.abstract channel (senderOf sent channel) =
        senderOf (sent ++ packets.flatMap ChannelMessage.payload) c ∧
      ∀ c', channel' = some c' → c' = c := by
  cases call with
  | submit i ext buf0 isRekeying =>
    obtain rfl := Option.some.inj ht
    obtain ⟨⟨written, c⟩, hsub, h⟩ := bind_eq_ok.mp h
    obtain ⟨rfl, rfl⟩ := by simpa [pure_eq_ok] using h
    have hr := submit_submits hb hsub
    have hsound := ChannelCall.everyWriteOn hs hc rfl
    refine ⟨c, ?_, fun c' hc' => (Option.some.inj hc').symm⟩
    refine Sender.eq_of_settled (Sender.settled_submit _ _) (senderOf_settled hr.blocked _) ?_ ?_
    · rw [ChannelCall.abstract, Sender.stream_submit]
      simp [Sender.stream, senderOf, hr.payload hsound]
    · have := hr.credit hsound
      rw [ChannelCall.abstract, Sender.granted_submit]
      simp only [Sender.granted, senderOf, List.length_append]
      omega
  | eof i =>
    obtain ⟨rfl, rfl⟩ := Prod.mk.inj (Except.ok.inj h)
    refine ⟨channel.eof.2, ?_, fun c' hc' => (Option.some.inj hc').symm⟩
    by_cases hp : channel.pendingData = []
    · simp [ChannelCall.abstract, ChannelParams.eof, hp, ChannelMessage.payload]
    · simp [ChannelCall.abstract, ChannelParams.eof, hp, senderOf]
  | close i =>
    have h : channel.close = (packets, channel') := Except.ok.inj h
    unfold ChannelParams.close at h
    split at h
    · obtain ⟨rfl, rfl⟩ := Prod.mk.inj h
      exact ⟨channel, by simp [ChannelCall.abstract, ChannelMessage.payload], by simp⟩
    · obtain ⟨rfl, rfl⟩ := Prod.mk.inj h
      exact ⟨{ channel with pendingClose := true }, by simp [ChannelCall.abstract, senderOf],
        fun c' hc' => (Option.some.inj hc').symm⟩
  | windowAdjust i amount =>
    obtain rfl := Option.some.inj ht
    obtain ⟨written, c, result, hf, rfl, rfl⟩ := adjust_eq_ok h
    have hr := flushPendingData_flushes hf
    refine ⟨c, ?_, fun c' hc' => afterFlush_eq_some hc'⟩
    rw [List.flatMap_append, payload_afterFlush, List.append_nil]
    refine Sender.eq_of_settled (Sender.settled_grant _ _) (senderOf_settled hr.blocked _) ?_ ?_
    · have hpay := hr.payload
      rw [ChannelCall.abstract, Sender.stream_grant]
      simp only [Sender.stream, senderOf, List.append_assoc, hpay]
      rfl
    · have hcredit := flushPendingData_credit (ChannelCall.everyWriteOn hs hc rfl) hf
      have := toNat_enlarge channel amount
      have := channel.recipientWindowSize.toNat_lt
      rw [ChannelCall.abstract, Sender.granted_grant]
      simp only [Sender.granted, senderOf, List.length_append]
      omega
  | flushAllPending order => cases ht

end Refinement

section Runs

variable {id : ChannelId} {enc₀ : Encrypted} {channel₀ : ChannelParams}

/-- What is promised for the output of a channel, from `enc₀` on. -/
structure StreamCorrect (id : ChannelId) (enc₀ : Encrypted) (channel₀ : ChannelParams)
    (s : OutputState) : Prop where
  write : s.enc.write = enc₀.write ++ s.history.written
  sent_prefix : s.history.sent id <+: s.history.submitted id
  packets_le : ∀ msg ∈ s.history.packets id,
    msg.payload.length ≤ channel₀.recipientMaximumPacketSize
  total_le : (s.history.sent id).length ≤
    channel₀.recipientWindowSize.toNat + s.history.adjusted id
  window_zero : ∀ channel, s.enc.channels id = some channel → channel.pendingData ≠ [] →
    channel.recipientWindowSize = 0

/-- What holds of the entry, as long as there is one. -/
structure StreamEntry (id : ChannelId) (channel₀ : ChannelParams) (h : History)
    (channel : ChannelParams) : Prop where
  blocked : channel.Blocked
  confirmed : channel.confirmed = channel₀.confirmed
  max_eq : channel.recipientMaximumPacketSize = channel₀.recipientMaximumPacketSize
  stream : (senderOf (h.sent id) channel).stream = h.submitted id
  granted : (senderOf (h.sent id) channel).granted ≤
    channel₀.recipientWindowSize.toNat + h.adjusted id

/-- The invariant of the runs. -/
structure StreamInv (id : ChannelId) (enc₀ : Encrypted) (channel₀ : ChannelParams)
    (s : OutputState) : Prop where
  write : s.enc.write = enc₀.write ++ s.history.written
  sent_prefix : s.history.sent id <+: s.history.submitted id
  packets_le : ∀ msg ∈ s.history.packets id,
    msg.payload.length ≤ channel₀.recipientMaximumPacketSize
  total_le : (s.history.sent id).length ≤
    channel₀.recipientWindowSize.toNat + s.history.adjusted id
  entry : ∀ channel, s.enc.channels id = some channel →
    StreamEntry id channel₀ s.history channel

theorem StreamInv.correct {s : OutputState} (h : StreamInv id enc₀ channel₀ s) :
    StreamCorrect id enc₀ channel₀ s where
  write := h.write
  sent_prefix := h.sent_prefix
  packets_le := h.packets_le
  total_le := h.total_le
  window_zero := by
    intro channel hc hne
    obtain ⟨p, ps, hp⟩ := List.exists_cons_of_ne_nil hne
    exact ((h.entry channel hc).blocked p ps hp).1

/-- What the abstract operation adds is what the history says that the call adds. -/
theorem abstract_adds (channel : ChannelParams) {call : ChannelCall}
    (ht : call.target = some id) (v : Sender (Option Nat × UInt8)) :
    (call.abstract channel v).stream = v.stream ++ call.submits id ∧
      (call.abstract channel v).granted ≤ v.granted + call.adjusts id := by
  cases call with
  | submit i ext buf0 isRekeying =>
    obtain rfl := Option.some.inj ht
    rw [ChannelCall.abstract, Sender.stream_submit, Sender.granted_submit]
    simp [ChannelCall.submits]
  | windowAdjust i amount =>
    obtain rfl := Option.some.inj ht
    rw [ChannelCall.abstract, Sender.stream_grant, Sender.granted_grant, toNat_enlarge]
    refine ⟨by simp [ChannelCall.submits], ?_⟩
    simp only [ChannelCall.adjusts, if_true]
    omega
  | eof i => simp [ChannelCall.abstract, ChannelCall.submits]
  | close i => simp [ChannelCall.abstract, ChannelCall.submits]
  | flushAllPending order => cases ht

theorem streamInv_init (hc : enc₀.channels id = some channel₀) (hp : channel₀.pendingData = []) :
    StreamInv id enc₀ channel₀ { enc := enc₀ } where
  write := by simp [History.written]
  sent_prefix := by simp [History.sent, History.packets, History.written]
  packets_le := by simp [History.packets, History.written]
  total_le := by simp [History.sent, History.packets, History.written]
  entry := by
    intro channel hc'
    obtain rfl : channel₀ = channel := Option.some.inj (hc ▸ hc')
    refine ⟨by simp [ChannelParams.Blocked, hp], rfl, rfl, ?_, ?_⟩
    · simp [senderOf, Sender.stream, History.sent, History.packets, History.written, hp,
        ChannelParams.queued, History.submitted, History.calls]
    · simp [senderOf, Sender.granted, History.sent, History.packets, History.written]

/-- A call on the channel. -/
theorem streamInv_entry {s t : OutputState} {call : ChannelCall} {new : List Message}
    {channel : ChannelParams} (hi : StreamInv id enc₀ channel₀ s)
    (hc : s.enc.channels id = some channel)
    (hs : call.EveryWrite ChannelParams.Sound id s.enc) (ht : call.target = some id)
    (hw : t.enc.write = s.enc.write ++ new) (hh : t.history = s.history.record call new)
    (he : call.onEntry channel = .ok (messagesFor id new, t.enc.channels id)) :
    StreamInv id enc₀ channel₀ t := by
  have hent := hi.entry channel hc
  obtain ⟨hle, hkeep⟩ := onEntry_frame hent.blocked he
  obtain ⟨c, hv, hleft⟩ := onEntry_refines hc hent.blocked hs ht he (s.history.sent id)
  obtain ⟨hstream, hgranted⟩ := abstract_adds channel ht (senderOf (s.history.sent id) channel)
  rw [hv, hent.stream] at hstream
  rw [hv] at hgranted
  have hsent : t.history.sent id =
      s.history.sent id ++ (messagesFor id new).flatMap ChannelMessage.payload := by
    rw [hh, History.sent_record]
  rw [← hsent] at hstream hgranted
  have hsub : t.history.submitted id = s.history.submitted id ++ call.submits id := by
    rw [hh, History.submitted_record]
  have hadj : t.history.adjusted id = s.history.adjusted id + call.adjusts id := by
    rw [hh, History.adjusted_record]
  have hbefore := hent.granted
  exact
    { write := by rw [hw, hi.write, hh, History.written_record, List.append_assoc]
      sent_prefix := by
        rw [hsub, ← hstream]
        exact Sender.sent_prefix_stream (senderOf (t.history.sent id) c)
      packets_le := by
        intro msg hm
        rw [hh, History.packets_record] at hm
        rcases List.mem_append.mp hm with hm | hm
        · exact hi.packets_le msg hm
        · exact hent.max_eq ▸ hle msg hm
      total_le := by
        have : (t.history.sent id).length ≤ (senderOf (t.history.sent id) c).granted :=
          Nat.le_add_right _ _
        omega
      entry := by
        intro c' hc'
        obtain rfl := hleft c' hc'
        obtain ⟨hblocked, hconf, hmax⟩ := hkeep c' hc'
        exact ⟨hblocked, hconf.trans hent.confirmed, hmax.trans hent.max_eq,
          by rw [hstream, hsub], by omega⟩ }

/-- A call that does not name the channel, or finds no entry. -/
theorem streamInv_still {s t : OutputState} {call : ChannelCall} {new : List Message}
    (hi : StreamInv id enc₀ channel₀ s) (hw : t.enc.write = s.enc.write ++ new)
    (hh : t.history = s.history.record call new) (hnew : messagesFor id new = [])
    (hc : t.enc.channels id = s.enc.channels id)
    (ht : s.enc.channels id = none ∨ call.target ≠ some id) :
    StreamInv id enc₀ channel₀ t := by
  have hsent : t.history.sent id = s.history.sent id := by simp [hh, hnew]
  have hadj : s.history.adjusted id ≤ t.history.adjusted id := by simp [hh]
  exact
    { write := by rw [hw, hi.write, hh, History.written_record, List.append_assoc]
      sent_prefix := by
        rw [hsent, hh, History.submitted_record]
        exact hi.sent_prefix.trans (List.prefix_append _ _)
      packets_le := by
        rw [hh, History.packets_record, hnew, List.append_nil]
        exact hi.packets_le
      total_le := by
        have := hi.total_le
        rw [hsent]
        omega
      entry := by
        intro channel hc'
        rw [hc] at hc'
        have hent := hi.entry channel hc'
        have hsub : call.submits id = [] := by
          rcases ht with hnone | ht
          · rw [hnone] at hc'
            cases hc'
          · exact (ChannelCall.submits_of_target_ne ht).1
        refine ⟨hent.blocked, hent.confirmed, hent.max_eq, ?_, ?_⟩
        · rw [hsent, hent.stream, hh, History.submitted_record, hsub, List.append_nil]
        · have := hent.granted
          rw [hsent]
          omega }

theorem streamInv_step {s t : OutputState} {call : ChannelCall}
    (hi : StreamInv id enc₀ channel₀ s)
    (hs : call.EveryWrite ChannelParams.Sound id s.enc) (h : s.step call = some t) :
    StreamInv id enc₀ channel₀ t := by
  obtain ⟨new, hw, hh, hm⟩ := OutputState.step_eq_some
    (fun channel hc => (hi.entry channel hc).blocked) h
  generalize hc : s.enc.channels id = c, hc' : t.enc.channels id = c',
    hnew : messagesFor id new = packets at hm
  cases hm with
  | absent => exact streamInv_still hi hw hh hnew (hc'.trans hc.symm) (.inl hc)
  | still channel ht => exact streamInv_still hi hw hh hnew (hc'.trans hc.symm) (.inr ht)
  | entry channel packets channel' ht he =>
    exact streamInv_entry hi hc hs ht hw hh (by rw [hnew, hc']; exact he)

/-- In every run of calls in which `data_noqueue` takes no buffer to fit that does not fit, the
packets behind `write` are the output stream of the channel; and a call on the channel whose
sizes do not overflow returns. -/
theorem stream_of_sound (hc : enc₀.channels id = some channel₀)
    (hconf : channel₀.confirmed = true) (hmax : 0 < channel₀.recipientMaximumPacketSize)
    (hp : channel₀.pendingData = []) {calls : List ChannelCall} {s : OutputState}
    (hs : Along OutputState.step
      (fun s call => call.EveryWrite ChannelParams.Sound id s.enc) { enc := enc₀ } calls)
    (hr : run OutputState.step { enc := enc₀ } calls = some s) :
    StreamCorrect id enc₀ channel₀ s ∧
      ∀ call : ChannelCall, call.target = some id →
        call.EveryWrite ChannelParams.Sound id s.enc →
        call.EveryWrite (fun window _ offset => ChannelParams.NoOverflow window offset) id s.enc →
        ∃ enc, call.apply s.enc = .ok enc := by
  have hinv : StreamInv id enc₀ channel₀ s :=
    run_invariant (I := StreamInv id enc₀ channel₀) (fun s call t hi hs h => streamInv_step hi hs h)
      calls { enc := enc₀ } s (streamInv_init hc hp) hs hr
  refine ⟨hinv.correct, ?_⟩
  intro call ht hsound hover
  cases hcs : s.enc.channels id with
  | none =>
    exact ⟨s.enc, by rw [ChannelCall.apply_eq_onChannel ht, Encrypted.onChannel_none hcs]⟩
  | some channel =>
    have hent := hinv.entry channel hcs
    exact apply_returns hcs (hent.confirmed.trans hconf) (hent.max_eq ▸ hmax) ht hsound hover

end Runs

/-- Five bytes into a window of three, and a larger window. -/
theorem stream_adjusted : ∃ s, run OutputState.step { enc := oneChannelSession 3 }
      [.submit 2 none [1, 2, 3, 4, 5] false, .windowAdjust 2 10] = some s ∧
    ∀ channel₀, (oneChannelSession 3).channels 2 = some channel₀ →
      StreamCorrect 2 (oneChannelSession 3) channel₀ s := by
  have hs : Along OutputState.step
      (fun s call => call.EveryWrite ChannelParams.Sound 2 s.enc) { enc := oneChannelSession 3 }
      [.submit 2 none [1, 2, 3, 4, 5] false, .windowAdjust 2 10] := by
    decide +kernel
  refine ⟨_, rfl, ?_⟩
  intro channel₀ hc
  have hc' := Option.some.inj hc
  exact (stream_of_sound hc (by rw [← hc']) (by rw [← hc']; decide) (by rw [← hc']) hs rfl).1

/-- A buffer of exactly 2^32 bytes looks empty to `data_noqueue`. -/
theorem dataNoqueue_large {channel channel' : ChannelParams} {buf0 : Bytes} {a : Option Nat}
    {packets : List ChannelMessage} {size : Nat} (hlen : buf0.length = 2 ^ 32)
    (h : channel.dataNoqueue buf0 a 0 = .ok (packets, channel', size)) :
    (packets.flatMap ChannelMessage.payload).length = 2 ^ 32 := by
  have hw := ChannelParams.dataNoqueue_writes (by omega) h
  have hex : ChannelParams.exceedsWindow channel.recipientWindowSize buf0 0 = false := by
    rw [ChannelParams.exceedsWindow, hlen]
    simp
  have hsize := hw.size_eq
  rw [if_neg (by simp [hex])] at hsize
  rw [hw.payload, length_tagged, List.length_take, List.length_drop]
  omega

/-- Such a buffer is written as a whole into a window of five. -/
theorem not_stream_of_length {buf0 : Bytes} (hlen : buf0.length = 2 ^ 32) :
    ∃ s, run OutputState.step { enc := oneChannelSession 5 }
        [.submit 2 none buf0 false] = some s ∧
      ∃ channel₀, (oneChannelSession 5).channels 2 = some channel₀ ∧
        ¬ StreamCorrect 2 (oneChannelSession 5) channel₀ s := by
  have hc : ∃ channel₀, (oneChannelSession 5).channels 2 = some channel₀ ∧
      channel₀.confirmed = true ∧ channel₀.recipientMaximumPacketSize = 32768 ∧
      channel₀.recipientWindowSize = 5 ∧ channel₀.pendingData = [] := ⟨_, rfl, rfl, rfl, rfl, rfl⟩
  obtain ⟨channel₀, hc, hconf, hmax, hwin, hp⟩ := hc
  have hfits : ChannelParams.NoOverflow channel₀.recipientWindowSize 0 := by
    rw [hwin, ChannelParams.NoOverflow]
    decide
  obtain ⟨⟨packets, c, size⟩, hd⟩ :=
    ChannelParams.dataNoqueue_returns buf0 none (by omega) hfits
  have hlarge := dataNoqueue_large hlen hd
  have he : (ChannelCall.submit 2 none buf0 false).onEntry channel₀ =
      .ok (packets, some (if size < buf0.length then
        { c with pendingData := c.pendingData ++ [⟨buf0, none, size⟩] } else c)) := by
    simp [ChannelCall.onEntry, ChannelParams.submit, hconf, hd, bind, Except.bind, pure,
      Except.pure]
  have ha : ∃ enc, (ChannelCall.submit 2 none buf0 false).apply (oneChannelSession 5) =
      .ok enc := by
    have ht : (ChannelCall.submit 2 none buf0 false).target = some 2 := rfl
    rw [ChannelCall.apply_eq_onChannel ht, Encrypted.onChannel_some hc, he]
    exact ⟨_, rfl⟩
  obtain ⟨enc, ha⟩ := ha
  have hstep : ∃ s, OutputState.step { enc := oneChannelSession 5 }
      (.submit 2 none buf0 false) = some s := by
    simp [OutputState.step, ha]
  obtain ⟨s, hs⟩ := hstep
  refine ⟨s, by rw [run_cons, hs]; rfl, channel₀, hc, fun hcorrect => ?_⟩
  have hblocked : ∀ channel, (oneChannelSession 5).channels 2 = some channel →
      channel.Blocked := by
    intro channel hch
    obtain rfl := Option.some.inj (hc.symm.trans hch)
    simp [ChannelParams.Blocked, hp]
  obtain ⟨new, -, hh, hm⟩ := OutputState.step_eq_some hblocked hs
  have htotal := hcorrect.total_le
  rw [hh, History.sent_record, History.adjusted_record, hwin] at htotal
  dsimp only at hm
  rw [hc] at hm
  generalize messagesFor 2 new = msgs, s.enc.channels 2 = c' at hm htotal
  cases hm with
  | still _ ht => exact ht rfl
  | entry _ _ _ _ hentry =>
    rw [he] at hentry
    obtain ⟨rfl, -⟩ := Prod.mk.inj (Except.ok.inj hentry)
    rw [List.length_append, hlarge] at htotal
    simp [History.adjusted, History.calls, ChannelCall.adjusts] at htotal

theorem not_stream_of_large :
    ∃ s, run OutputState.step { enc := oneChannelSession 5 }
        [.submit 2 none (List.replicate (2 ^ 32) 0) false] = some s ∧
      ∃ channel₀, (oneChannelSession 5).channels 2 = some channel₀ ∧
        ¬ StreamCorrect 2 (oneChannelSession 5) channel₀ s :=
  not_stream_of_length List.length_replicate

end Edgessh.Russh
