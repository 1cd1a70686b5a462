import Edgessh.Lib.Link
import Edgessh.Russh.Session.Stream

/-!
# Both ends of a channel

Two sessions that have a channel with each other. Each writes data as it likes, reads the packets of
the other one in the order in which they were written, and accounts for the data with
`adjust_window_size`. Each of the two directions is a link with credit: the credit is
`recipient_window_size` of the entry of one end, and the window is `sender_window_size` of the entry
of the other end.
-/

namespace Edgessh.Russh
open Edgessh.Command Edgessh.Credit Relation

namespace ChannelMessage

/-- The data of a packet that has some. -/
def data? : ChannelMessage → Option (List (Option Nat × UInt8))
  | .data buf => some (tagged none buf)
  | .extendedData ext buf => some (tagged (some ext) buf)
  | _ => none

/-- The amount of a CHANNEL_WINDOW_ADJUST. -/
def grant? : ChannelMessage → Option Nat
  | .windowAdjust amount => some amount
  | _ => none

/-- The packets that move no credit and leave the channel open. -/
def isControl : ChannelMessage → Bool
  | .eof | .request .. | .success | .failure => true
  | _ => false

theorem data?_of_isControl {m : ChannelMessage} (h : m.isControl = true) : m.data? = none := by
  cases m <;> first | rfl | cases h

theorem grant?_of_isControl {m : ChannelMessage} (h : m.isControl = true) : m.grant? = none := by
  cases m <;> first | rfl | cases h

@[simp] theorem data?_dataMessage (ext : Option Nat) (buf : Bytes) :
    (ChannelParams.dataMessage ext buf).data? = some (tagged ext buf) := by
  cases ext <;> rfl

@[simp] theorem grant?_dataMessage (ext : Option Nat) (buf : Bytes) :
    (ChannelParams.dataMessage ext buf).grant? = none := by
  cases ext <;> rfl

theorem flatten_filterMap_data? (ms : List ChannelMessage) :
    (ms.filterMap data?).flatten = ms.flatMap payload := by
  induction ms with
  | nil => rfl
  | cons m ms ih => cases m <;> simp [List.filterMap_cons, data?, payload, ih]

end ChannelMessage

/-- One end of the channel, and what has gone through it: the data that was submitted, the data in
the packets that it has written, and the data that it has read. -/
structure ChannelEnd where
  enc : Encrypted
  submitted : List (Option Nat × UInt8) := []
  sent : List (Option Nat × UInt8) := []
  received : List (Option Nat × UInt8) := []

namespace ChannelEnd

/-- The packets for the channel that a step to `enc'` writes. -/
def wrote (id : ChannelId) (enc' : Encrypted) (e : ChannelEnd) : List ChannelMessage :=
  messagesFor id (enc'.write.drop e.enc.write.length)

def advance (id : ChannelId) (enc' : Encrypted) (submitted received : List (Option Nat × UInt8))
    (e : ChannelEnd) : ChannelEnd where
  enc := enc'
  submitted := e.submitted ++ submitted
  sent := e.sent ++ (e.wrote id enc').flatMap ChannelMessage.payload
  received := e.received ++ received

end ChannelEnd

/-- A call that an application makes while the channel is open. A buffer for the channel and the
largest window together are below 2^32. -/
def ChannelCall.Keeps (id : ChannelId) (bound : Nat) : ChannelCall → Prop
  | submit i _ buf0 _ => i = id → buf0.length + bound < 2 ^ 32
  | close i => i ≠ id
  | windowAdjust i _ => i ≠ id
  | _ => True

/-- What an end does, with the packet of its peer that it takes for it and the packets that it
writes. -/
inductive ChannelEnd.Acts (id : ChannelId) (bound : Nat) (e : ChannelEnd) :
    Option ChannelMessage → ChannelEnd → List ChannelMessage → Prop
  | call {call : ChannelCall} {enc' : Encrypted} :
      call.Keeps id bound → call.apply e.enc = .ok enc' →
      Acts id bound e none (e.advance id enc' (call.submits id) []) (e.wrote id enc')
  | windowAdjust {amount : Nat} {enc' : Encrypted} :
      ChannelCall.apply e.enc (.windowAdjust id (UInt32.ofNat amount)) = .ok enc' →
      Acts id bound e (some (.windowAdjust amount)) (e.advance id enc' [] []) (e.wrote id enc')
  /-- `target` is what the application wants the window to be by now -/
  | data {ext : Option Nat} {buf : Bytes} {target : UInt32} :
      2 ≤ target.toNat → target.toNat ≤ bound →
      Acts id bound e (some (ChannelParams.dataMessage ext buf))
        (e.advance id (e.enc.adjustWindowSize id buf target).1 [] (tagged ext buf))
        (e.wrote id (e.enc.adjustWindowSize id buf target).1)
  /-- requests, their answers, and all that is about something else -/
  | other {taken : Option ChannelMessage} {enc' : Encrypted} {new : List Message}
      {channel : ChannelParams} {wantsReply : Bool} :
      (∀ m ∈ taken, m.isControl = true) → e.enc.channels id = some channel →
      enc'.channels id = some { channel with wantsReply } → enc'.write = e.enc.write ++ new →
      (∀ m ∈ messagesFor id new, m.isControl = true) →
      Acts id bound e taken (e.advance id enc' [] []) (e.wrote id enc')

section Sizes

open ChannelParams

/-- A buffer that waits, and whose size and the largest window do not overflow 32 bits. -/
def PendingData.Sized (bound : Nat) (p : PendingData) : Prop :=
  p.offset ≤ p.buf.length ∧ p.buf.length + bound < 2 ^ 32

namespace ChannelParams

theorem everyWrite_of_sized {bound : Nat} {window : UInt32} {ps : List PendingData}
    (hps : ∀ p ∈ ps, p.Sized bound) (hw : window.toNat ≤ bound) :
    EveryWrite Sound window ps ∧
      EveryWrite (fun window _ offset => NoOverflow window offset) window ps := by
  induction ps generalizing window with
  | nil => exact ⟨trivial, trivial⟩
  | cons p ps ih =>
    obtain ⟨hoffset, hlen⟩ := hps p List.mem_cons_self
    have hno : NoOverflow window p.offset := by
      have := Nat.mod_le p.offset (2 ^ 32)
      unfold NoOverflow
      omega
    have hrest : p.buf.length ≤ p.offset + window.toNat →
        (window - UInt32.ofNat (p.buf.length - p.offset)).toNat ≤ bound := by
      intro hfits
      rw [toNat_window_sub (by omega)]
      omega
    have hps' := fun q hq => hps q (List.mem_cons_of_mem p hq)
    exact ⟨⟨sound_of_noOverflow hno (by omega), fun hfits => (ih hps' (hrest hfits)).1⟩,
      ⟨hno, fun hfits => (ih hps' (hrest hfits)).2⟩⟩

/-- How far `data_noqueue` gets is within the buffer. -/
theorem dataNoqueue_offset_le {channel channel' : ChannelParams} {buf0 : Bytes} {a : Option Nat}
    {offset size : Nat} {packets : List ChannelMessage} (ho : offset ≤ buf0.length)
    (h : channel.dataNoqueue buf0 a offset = .ok (packets, channel', size)) :
    offset + size ≤ buf0.length := by
  by_cases hlt : offset < buf0.length
  · exact (dataNoqueue_writes hlt h).offset_le
  · rw [dataNoqueue_of_le (by omega)] at h
    cases h
    exact ho

/-- A flush leaves buffers of the queue, or none. -/
theorem flushPendingData_sized {bound : Nat} {channel channel' : ChannelParams}
    {ps : List PendingData} {n : Nat} {packets : List ChannelMessage}
    {result : ChannelFlushResult} (hps : ∀ p ∈ ps, p.Sized bound)
    (h : channel.flushPendingData n ps = .ok (packets, channel', result)) :
    ∀ p ∈ channel'.pendingData, p.Sized bound := by
  induction ps generalizing channel n packets with
  | nil =>
    obtain ⟨-, rfl, -⟩ := by simpa [flushPendingData, pure_eq_ok] using h
    intro p hp
    cases hp
  | cons p ps ih =>
    have hps' := fun q hq => hps q (List.mem_cons_of_mem p hq)
    obtain ⟨hoffset, hlen⟩ := hps p List.mem_cons_self
    rw [flushPendingData] at h
    obtain ⟨⟨written, c, size⟩, hd, h⟩ := bind_eq_ok.mp h
    dsimp only at h
    split at h
    · obtain ⟨-, rfl, -⟩ := by simpa [pure_eq_ok] using h
      intro q hq
      rcases List.mem_cons.mp hq with rfl | hq
      · exact ⟨dataNoqueue_offset_le hoffset hd, hlen⟩
      · exact hps' q hq
    · obtain ⟨⟨written', c', r⟩, hf, h⟩ := bind_eq_ok.mp h
      obtain ⟨-, rfl, rfl⟩ := by simpa [pure_eq_ok] using h
      exact ih hps' hf

/-- What `submit` leaves are the buffers of the queue and the new one. -/
theorem submit_sized {bound : Nat} {channel channel' : ChannelParams} {ext : Option Nat}
    {buf0 : Bytes} {isRekeying : Bool} {packets : List ChannelMessage}
    (hps : ∀ p ∈ channel.pendingData, p.Sized bound) (hlen : buf0.length + bound < 2 ^ 32)
    (h : channel.submit ext buf0 isRekeying = .ok (packets, channel')) :
    ∀ p ∈ channel'.pendingData, p.Sized bound := by
  unfold submit at h
  split at h
  · cases h
  split at h
  · obtain ⟨-, rfl⟩ := by simpa [pure_eq_ok] using h
    intro p hp
    rcases List.mem_append.mp hp with hp | hp
    · exact hps p hp
    · obtain rfl := List.mem_singleton.mp hp
      exact ⟨Nat.zero_le _, hlen⟩
  · obtain ⟨⟨written, c, size⟩, hd, h⟩ := bind_eq_ok.mp h
    obtain ⟨-, rfl⟩ := by simpa [pure_eq_ok] using h
    have hc := dataNoqueue_frame hd
    have hsize := dataNoqueue_offset_le (Nat.zero_le _) hd
    have hps' : ∀ p ∈ c.pendingData, p.Sized bound := by
      rw [hc]
      exact hps
    split
    · intro p hp
      rcases List.mem_append.mp hp with hp | hp
      · exact hps' p hp
      · obtain rfl := List.mem_singleton.mp hp
        exact ⟨by rwa [Nat.zero_add] at hsize, hlen⟩
    · exact hps'

end ChannelParams

end Sizes

/-- The entry of an open channel. -/
structure ChannelParams.IsOpen (bound : Nat) (channel : ChannelParams) : Prop where
  blocked : channel.Blocked
  confirmed : channel.confirmed = true
  max_pos : 0 < channel.recipientMaximumPacketSize
  pendingClose : channel.pendingClose = false
  sized : ∀ p ∈ channel.pendingData, p.Sized bound

namespace ChannelParams.IsOpen

variable {bound : Nat} {channel c : ChannelParams} {packets : List ChannelMessage}

/-- Packets with data only. -/
theorem grants_eq_nil {max : Nat}
    (h : ∀ msg ∈ packets, ∃ a b, msg = dataMessage a b ∧ b.length ≤ max) :
    packets.filterMap ChannelMessage.grant? = [] := by
  apply List.filterMap_eq_nil_iff.mpr
  intro msg hm
  obtain ⟨a, b, rfl, -⟩ := h msg hm
  exact ChannelMessage.grant?_dataMessage a b

theorem submit {ext : Option Nat} {buf0 : Bytes} {isRekeying : Bool} (ho : channel.IsOpen bound)
    (hlen : buf0.length + bound < 2 ^ 32)
    (h : channel.submit ext buf0 isRekeying = .ok (packets, c)) :
    c.IsOpen bound ∧ c.senderWindowSize = channel.senderWindowSize ∧
      packets.filterMap ChannelMessage.grant? = [] := by
  have hs := submit_submits ho.blocked h
  have hc := hs.channel_eq
  refine ⟨⟨hs.blocked, ?_, ?_, ?_, submit_sized ho.sized hlen h⟩, ?_, grants_eq_nil hs.packets_le⟩
  · rw [hc]
    exact ho.confirmed
  · rw [hc]
    exact ho.max_pos
  · rw [hc]
    exact ho.pendingClose
  · rw [hc]

theorem eof (ho : channel.IsOpen bound) :
    channel.eof.2.IsOpen bound ∧ channel.eof.2.senderWindowSize = channel.senderWindowSize ∧
      ∀ m ∈ channel.eof.1, m.isControl = true := by
  unfold ChannelParams.eof
  split
  · refine ⟨ho, rfl, ?_⟩
    intro m hm
    obtain rfl := List.mem_singleton.mp hm
    rfl
  · exact ⟨⟨ho.blocked, ho.confirmed, ho.max_pos, ho.pendingClose, ho.sized⟩, rfl,
      fun m hm => absurd hm List.not_mem_nil⟩

/-- A larger window leaves the channel open. -/
theorem adjust {amount : UInt32} {channel' : Option ChannelParams} (ho : channel.IsOpen bound)
    (h : channel.adjust amount = .ok (packets, channel')) :
    ∃ c, channel' = some c ∧ c.IsOpen bound ∧ c.senderWindowSize = channel.senderWindowSize ∧
      packets.filterMap ChannelMessage.grant? = [] := by
  obtain ⟨written, c, result, hf, rfl, rfl⟩ := adjust_eq_ok h
  have hs := flushPendingData_flushes hf
  have hc := hs.channel_eq
  have hclose : c.pendingClose = false := by
    rw [hc]
    exact ho.pendingClose
  have hafter : (c.afterFlush result).2 = some c ∧
      (c.afterFlush result).1.filterMap ChannelMessage.grant? = [] := by
    cases result with
    | incomplete wrote => exact ⟨rfl, rfl⟩
    | complete wrote pendingEof pendingClose =>
      obtain ⟨-, -, rfl⟩ := hs.describes
      rw [afterFlush, hclose]
      cases pendingEof <;> exact ⟨rfl, rfl⟩
  refine ⟨c, hafter.1, ⟨hs.blocked, ?_, ?_, hclose, flushPendingData_sized ho.sized hf⟩, ?_, ?_⟩
  · rw [hc]
    exact ho.confirmed
  · rw [hc]
    exact ho.max_pos
  · rw [hc]
    rfl
  · rw [List.filterMap_append, grants_eq_nil hs.packets_le, hafter.2]
    rfl

variable {id : ChannelId} {enc : Encrypted}

/-- No write that a call of the application tries overflows. -/
theorem everyWrite_of_keeps {call : ChannelCall} (hc : enc.channels id = some channel)
    (hcredit : channel.recipientWindowSize.toNat ≤ bound) (hkeeps : call.Keeps id bound) :
    call.EveryWrite Sound id enc ∧
      call.EveryWrite (fun window _ offset => NoOverflow window offset) id enc := by
  simp only [ChannelCall.EveryWrite, hc]
  cases call with
  | submit i ext buf0 isRekeying =>
    have hno : i = id → NoOverflow channel.recipientWindowSize 0 := by
      intro hi
      have := hkeeps hi
      unfold NoOverflow
      omega
    refine ⟨fun hi _ => sound_of_noOverflow (hno hi) ?_, fun hi _ => hno hi⟩
    have := hkeeps hi
    omega
  | windowAdjust i amount => exact ⟨fun hi => absurd hi hkeeps, fun hi => absurd hi hkeeps⟩
  | eof i => exact ⟨trivial, trivial⟩
  | close i => exact ⟨trivial, trivial⟩
  | flushAllPending order => exact ⟨trivial, trivial⟩

/-- Nor does one that a larger window lets out. -/
theorem everyWrite_of_grant {amount : UInt32} (ho : channel.IsOpen bound)
    (hc : enc.channels id = some channel)
    (hgrant : channel.recipientWindowSize.toNat + amount.toNat ≤ bound) :
    (ChannelCall.windowAdjust id amount).EveryWrite Sound id enc ∧
      (ChannelCall.windowAdjust id amount).EveryWrite
        (fun window _ offset => NoOverflow window offset) id enc := by
  have hw : (channel.enlarge amount).recipientWindowSize.toNat ≤ bound := by
    rw [toNat_enlarge]
    omega
  obtain ⟨hsound, hno⟩ := everyWrite_of_sized ho.sized hw
  simp only [ChannelCall.EveryWrite, hc]
  exact ⟨fun _ => hsound, fun _ => hno⟩

end ChannelParams.IsOpen

namespace ChannelEnd

variable {id : ChannelId} {bound : Nat} {e e' : ChannelEnd} {channel c : ChannelParams}
  {taken : Option ChannelMessage} {out : List ChannelMessage}

/-- What an action comes to, on the two directions of the channel. -/
inductive Moved (bound : Nat) (e e' : ChannelEnd) (channel c : ChannelParams) :
    Option ChannelMessage → List ChannelMessage → Prop
  | submit {out : List ChannelMessage} (xs : List (Option Nat × UInt8)) :
      senderOf e'.sent c = (senderOf e.sent channel).submit xs →
      e'.submitted = e.submitted ++ xs → e'.received = e.received →
      c.senderWindowSize = channel.senderWindowSize →
      out.filterMap ChannelMessage.grant? = [] → Moved bound e e' channel c none out
  | grant {out : List ChannelMessage} (amount : Nat) :
      senderOf e'.sent c = (senderOf e.sent channel).grant amount →
      e'.submitted = e.submitted → e'.received = e.received →
      c.senderWindowSize = channel.senderWindowSize →
      out.filterMap ChannelMessage.grant? = [] →
      Moved bound e e' channel c (some (.windowAdjust amount)) out
  | receive {out : List ChannelMessage} (ext : Option Nat) (buf : Bytes) :
      senderOf e'.sent c = senderOf e.sent channel → e'.submitted = e.submitted →
      e'.received = e.received ++ tagged ext buf →
      c.senderWindowSize.toNat + buf.length =
        channel.senderWindowSize.toNat + (out.filterMap ChannelMessage.grant?).sum →
      0 < c.senderWindowSize.toNat → c.senderWindowSize.toNat ≤ bound →
      out.filterMap ChannelMessage.data? = [] →
      Moved bound e e' channel c (some (ChannelParams.dataMessage ext buf)) out
  | rest {taken : Option ChannelMessage} {out : List ChannelMessage} :
      (∀ m ∈ taken, m.isControl = true) →
      senderOf e'.sent c = senderOf e.sent channel → e'.submitted = e.submitted →
      e'.received = e.received → c.senderWindowSize = channel.senderWindowSize →
      (∀ m ∈ out, m.isControl = true) → Moved bound e e' channel c taken out

theorem wrote_of_append {enc' : Encrypted} {new : List Message}
    (h : enc'.write = e.enc.write ++ new) : e.wrote id enc' = messagesFor id new := by
  rw [wrote, h, List.drop_left]

/-- An action that leaves the entry alone, but for what the peer expects an answer to. -/
theorem Moved.still {enc' : Encrypted} {new : List Message} {wantsReply : Bool}
    (htaken : ∀ m ∈ taken, m.isControl = true) (hw : enc'.write = e.enc.write ++ new)
    (hnew : ∀ m ∈ messagesFor id new, m.isControl = true) :
    Moved bound e (e.advance id enc' [] []) channel { channel with wantsReply } taken
      (e.wrote id enc') := by
  have hsent : (e.wrote id enc').flatMap ChannelMessage.payload = [] := by
    rw [wrote_of_append hw, ← ChannelMessage.flatten_filterMap_data?,
      List.filterMap_eq_nil_iff.mpr fun m hm => ChannelMessage.data?_of_isControl (hnew m hm)]
    rfl
  refine .rest htaken ?_ (List.append_nil _) (List.append_nil _) rfl ?_
  · unfold senderOf advance
    simp only [hsent, List.append_nil]
  · rw [wrote_of_append hw]
    exact hnew

/-- A call on the entry. -/
theorem moved_of_entry {call : ChannelCall} {enc' : Encrypted} {new : List Message}
    {channel' : Option ChannelParams} (hc : e.enc.channels id = some channel)
    (ho : channel.IsOpen bound) (hcredit : channel.recipientWindowSize.toNat ≤ bound)
    (hkeeps : call.Keeps id bound) (ht : call.target = some id)
    (hw : enc'.write = e.enc.write ++ new)
    (h : call.onEntry channel = .ok (messagesFor id new, channel')) :
    ∃ c, channel' = some c ∧ c.IsOpen bound ∧
      Moved bound e (e.advance id enc' (call.submits id) []) channel c none (e.wrote id enc') := by
  have hsent : ∀ xs, (e.advance id enc' xs []).sent =
      e.sent ++ (messagesFor id new).flatMap ChannelMessage.payload := by
    intro xs
    rw [← wrote_of_append hw]
    rfl
  obtain ⟨c, hview, hleft⟩ := onEntry_refines hc ho.blocked
    (ChannelParams.IsOpen.everyWrite_of_keeps hc hcredit hkeeps).1 ht h e.sent
  cases call with
  | submit i ext buf0 isRekeying =>
    obtain rfl := Option.some.inj ht
    obtain ⟨⟨written, c'⟩, hsub, hr⟩ := bind_eq_ok.mp h
    obtain ⟨rfl, rfl⟩ := by simpa [pure_eq_ok] using hr
    obtain ⟨hopen, hwindow, hgrants⟩ := ho.submit (hkeeps rfl) hsub
    obtain rfl := hleft c' rfl
    refine ⟨c', rfl, hopen, .submit _ ?_ rfl (List.append_nil _) hwindow ?_⟩
    · rw [hsent, ← hview]
      simp only [ChannelCall.abstract, ChannelCall.submits, if_true]
    · rw [wrote_of_append hw]
      exact hgrants
  | eof i =>
    obtain rfl := Option.some.inj ht
    obtain ⟨hpackets, rfl⟩ := Prod.mk.inj (Except.ok.inj h)
    obtain rfl := hleft _ rfl
    obtain ⟨hopen, hwindow, hcontrol⟩ := ho.eof
    refine ⟨_, rfl, hopen, .rest (fun m hm => by cases hm) ?_ (List.append_nil _)
      (List.append_nil _) hwindow ?_⟩
    · rw [hsent, ← hview]
      rfl
    · rw [wrote_of_append hw, ← hpackets]
      exact hcontrol
  | close i => exact absurd (Option.some.inj ht) hkeeps
  | windowAdjust i amount => exact absurd (Option.some.inj ht) hkeeps
  | flushAllPending order => cases ht

theorem blocked_of_entry (hc : e.enc.channels id = some channel) (ho : channel.IsOpen bound) :
    ∀ c, e.enc.channels id = some c → c.Blocked := by
  intro c hc'
  obtain rfl := Option.some.inj (hc.symm.trans hc')
  exact ho.blocked

/-- A call of the application. -/
theorem moved_of_call {call : ChannelCall} {enc' : Encrypted}
    (hc : e.enc.channels id = some channel) (ho : channel.IsOpen bound)
    (hcredit : channel.recipientWindowSize.toNat ≤ bound) (hkeeps : call.Keeps id bound)
    (h : call.apply e.enc = .ok enc') :
    ∃ c, enc'.channels id = some c ∧ c.IsOpen bound ∧
      Moved bound e (e.advance id enc' (call.submits id) []) channel c none (e.wrote id enc') := by
  obtain ⟨new, hw, hm⟩ := moves_of_apply (blocked_of_entry hc ho) h
  rw [hc] at hm
  generalize hc' : enc'.channels id = c', hnew : messagesFor id new = packets at hm
  cases hm with
  | still _ ht =>
    refine ⟨channel, rfl, ho, ?_⟩
    rw [(ChannelCall.submits_of_target_ne ht).1]
    apply Moved.still (fun m hm => by cases hm) hw
    rw [hnew]
    exact fun m hm => absurd hm List.not_mem_nil
  | entry _ _ _ ht hentry =>
    rw [← hnew] at hentry
    exact moved_of_entry hc ho hcredit hkeeps ht hw hentry

/-- A CHANNEL_WINDOW_ADJUST. -/
theorem moved_of_windowAdjust {amount : Nat} {enc' : Encrypted}
    (hc : e.enc.channels id = some channel) (ho : channel.IsOpen bound) (hbound : bound < 2 ^ 32)
    (hgrant : channel.recipientWindowSize.toNat + amount ≤ bound)
    (h : ChannelCall.apply e.enc (.windowAdjust id (UInt32.ofNat amount)) = .ok enc') :
    ∃ c, enc'.channels id = some c ∧ c.IsOpen bound ∧
      Moved bound e (e.advance id enc' [] []) channel c (some (.windowAdjust amount))
        (e.wrote id enc') := by
  have hlt : amount < 2 ^ 32 := by omega
  have hamount : (UInt32.ofNat amount).toNat = amount := UInt32.toNat_ofNat_of_lt' hlt
  obtain ⟨new, hw, hm⟩ := moves_of_apply (blocked_of_entry hc ho) h
  rw [hc] at hm
  generalize hc' : enc'.channels id = c', hnew : messagesFor id new = packets at hm
  cases hm with
  | still _ ht => exact absurd rfl ht
  | entry _ _ _ ht hentry =>
    obtain ⟨c, hview, hleft⟩ := onEntry_refines hc ho.blocked
      (ho.everyWrite_of_grant hc (by rwa [hamount])).1 ht hentry e.sent
    obtain ⟨c, rfl, hopen, hwindow, hgrants⟩ := ho.adjust hentry
    obtain rfl := hleft c rfl
    refine ⟨c, rfl, hopen, .grant amount ?_ (List.append_nil _) (List.append_nil _) hwindow ?_⟩
    · have henlarged := toNat_enlarge channel (UInt32.ofNat amount)
      rw [hamount, Nat.min_eq_left (by omega)] at henlarged
      rw [ChannelCall.abstract, henlarged, Nat.add_sub_cancel_left, ← hnew,
        ← wrote_of_append hw] at hview
      exact hview.symm
    · rw [wrote_of_append hw, hnew]
      exact hgrants

/-- Data that fits into the window. -/
theorem moved_of_data {ext : Option Nat} {buf : Bytes} {target : UInt32}
    (hc : e.enc.channels id = some channel) (ho : channel.IsOpen bound)
    (hfits : buf.length ≤ channel.senderWindowSize.toNat)
    (hle : channel.senderWindowSize.toNat ≤ bound) (htarget : 2 ≤ target.toNat)
    (hbound : target.toNat ≤ bound) :
    ∃ c, (e.enc.adjustWindowSize id buf target).1.channels id = some c ∧ c.IsOpen bound ∧
      Moved bound e
        (e.advance id (e.enc.adjustWindowSize id buf target).1 [] (tagged ext buf)) channel c
        (some (ChannelParams.dataMessage ext buf))
        (e.wrote id (e.enc.adjustWindowSize id buf target).1) := by
  have hlt : buf.length < 2 ^ 32 := Nat.lt_of_le_of_lt hfits channel.senderWindowSize.toNat_lt
  have hlen : (UInt32.ofNat buf.length).toNat = buf.length := UInt32.toNat_ofNat_of_lt' hlt
  have hle : UInt32.ofNat buf.length ≤ channel.senderWindowSize := by
    rw [UInt32.le_iff_toNat_le, hlen]
    exact hfits
  have hleft := ChannelParams.toNat_window_sub hfits
  have hhalf : (target / 2).toNat = target.toNat / 2 := UInt32.toNat_div ..
  unfold Encrypted.adjustWindowSize
  simp only [hc, if_pos hle]
  generalize channel.senderWindowSize - UInt32.ofNat buf.length = left at hleft
  split
  · rename_i hsmall
    rw [UInt32.lt_iff_toNat_lt, hhalf] at hsmall
    have hamount : (target - left).toNat = target.toNat - left.toNat :=
      UInt32.toNat_sub_of_le _ _ (UInt32.le_iff_toNat_le.mpr (by omega))
    refine ⟨{ channel with senderWindowSize := target }, Function.update_self ..,
      ⟨ho.blocked, ho.confirmed, ho.max_pos, ho.pendingClose, ho.sized⟩, ?_⟩
    have hw : e.wrote id ((e.enc.pushChannel id channel.recipientChannel
        [.windowAdjust (target - left).toNat]).setChannel id
          { channel with senderWindowSize := target }) = [.windowAdjust (target - left).toNat] :=
      (wrote_of_append rfl).trans (messagesFor_map_self id _ _)
    refine .receive ext buf ?_ (List.append_nil _) rfl ?_ ?_ hbound ?_
    · unfold advance
      rw [hw]
      unfold senderOf
      simp [ChannelMessage.payload]
    · rw [hw]
      show target.toNat + buf.length = channel.senderWindowSize.toNat + ((target - left).toNat + 0)
      omega
    · show 0 < target.toNat
      omega
    · rw [hw]
      rfl
  · rename_i hlarge
    rw [UInt32.lt_iff_toNat_lt, hhalf] at hlarge
    refine ⟨{ channel with senderWindowSize := left }, Function.update_self ..,
      ⟨ho.blocked, ho.confirmed, ho.max_pos, ho.pendingClose, ho.sized⟩, ?_⟩
    have hw : e.wrote id (e.enc.setChannel id { channel with senderWindowSize := left }) = [] :=
      (wrote_of_append (List.append_nil _).symm).trans (messagesFor_nil id)
    refine .receive ext buf ?_ (List.append_nil _) rfl ?_ ?_ ?_ ?_
    · unfold advance
      rw [hw]
      unfold senderOf
      simp
    · rw [hw]
      show left.toNat + buf.length = channel.senderWindowSize.toNat + 0
      omega
    · show 0 < left.toNat
      omega
    · show left.toNat ≤ bound
      omega
    · rw [hw]
      rfl

/-- The link from one end to the other, whose number for the channel is `id`. -/
def link (id peerId : ChannelId) (sender receiver : ChannelEnd)
    (packets grants : List ChannelMessage) : Link (Option Nat × UInt8) where
  sender :=
    match sender.enc.channels id with
    | some channel => senderOf sender.sent channel
    | none => ⟨sender.sent, [], 0⟩
  packets := packets.filterMap ChannelMessage.data?
  grants := grants.filterMap ChannelMessage.grant?
  window := receiver.enc.senderWindowSize peerId
  received := receiver.received

theorem link_eq {peer : ChannelEnd} {peerId : ChannelId} {packets grants : List ChannelMessage}
    (hc : e.enc.channels id = some channel) :
    link id peerId e peer packets grants =
      ⟨senderOf e.sent channel, packets.filterMap ChannelMessage.data?,
        grants.filterMap ChannelMessage.grant?, peer.enc.senderWindowSize peerId,
        peer.received⟩ := by
  unfold link
  rw [hc]

theorem senderWindowSize_eq (hc : e.enc.channels id = some channel) :
    e.enc.senderWindowSize id = channel.senderWindowSize.toNat := by
  unfold Encrypted.senderWindowSize
  rw [hc]

theorem filterMap_data?_of_isControl (h : ∀ m ∈ out, m.isControl = true) :
    out.filterMap ChannelMessage.data? = [] :=
  List.filterMap_eq_nil_iff.mpr fun m hm => ChannelMessage.data?_of_isControl (h m hm)

theorem filterMap_grant?_of_isControl (h : ∀ m ∈ out, m.isControl = true) :
    out.filterMap ChannelMessage.grant? = [] :=
  List.filterMap_eq_nil_iff.mpr fun m hm => ChannelMessage.grant?_of_isControl (h m hm)

theorem isControl_toList (h : ∀ m ∈ taken, m.isControl = true) :
    ∀ m ∈ taken.toList, m.isControl = true := by
  intro m hm
  exact h m (Option.mem_toList.mp hm)

theorem reflGen_of_eq {α : Type*} {r : α → α → Prop} {a b : α} (h : b = a) : ReflGen r a b :=
  h ▸ .refl

/-- What an end does is a step of the link on which it sends, or none. -/
theorem outgoing_of_moved {peer : ChannelEnd} {peerId : ChannelId}
    {rest queue : List ChannelMessage} (hc : e.enc.channels id = some channel)
    (hc' : e'.enc.channels id = some c)
    (hsent : e'.sent = e.sent ++ out.flatMap ChannelMessage.payload)
    (h : Moved bound e e' channel c taken out) :
    ReflGen (Link.Step bound) (link id peerId e peer queue (taken.toList ++ rest))
      (link id peerId e' peer (queue ++ out) rest) := by
  have hflat : e'.sent = e.sent ++ (out.filterMap ChannelMessage.data?).flatten := by
    rw [hsent, ChannelMessage.flatten_filterMap_data?]
  rw [link_eq hc, link_eq hc', List.filterMap_append, List.filterMap_append]
  cases h with
  | submit xs hview _ _ _ _ =>
    rw [hview]
    apply ReflGen.single
    apply Link.Step.submit xs
    rw [← hview]
    exact hflat
  | grant amount hview _ _ _ _ =>
    rw [hview]
    apply ReflGen.single
    apply Link.Step.grant rfl
    rw [← hview]
    exact hflat
  | receive ext buf hview _ _ _ _ _ hdata =>
    apply reflGen_of_eq
    rw [hview, hdata, List.append_nil, Option.toList_some, List.filterMap_cons,
      ChannelMessage.grant?_dataMessage]
    rfl
  | rest htaken hview _ _ _ hout =>
    apply reflGen_of_eq
    rw [hview, filterMap_data?_of_isControl hout, List.append_nil,
      filterMap_grant?_of_isControl (isControl_toList htaken), List.nil_append]

/-- It is a step of the link on which it receives, or none. -/
theorem incoming_of_moved {peer : ChannelEnd} {peerId : ChannelId} {peerChannel : ChannelParams}
    {rest queue : List ChannelMessage} (hpeer : peer.enc.channels peerId = some peerChannel)
    (hc : e.enc.channels id = some channel) (hc' : e'.enc.channels id = some c)
    (h : Moved bound e e' channel c taken out) :
    ReflGen (Link.Step bound) (link peerId id peer e (taken.toList ++ rest) queue)
      (link peerId id peer e' rest (queue ++ out)) := by
  rw [link_eq hpeer, link_eq hpeer, senderWindowSize_eq hc, senderWindowSize_eq hc',
    List.filterMap_append, List.filterMap_append]
  cases h with
  | submit xs _ _ hreceived hwindow hgrants =>
    apply reflGen_of_eq
    rw [hreceived, hwindow, hgrants, List.append_nil, Option.toList_none]
    rfl
  | grant amount _ _ hreceived hwindow hgrants =>
    apply reflGen_of_eq
    rw [hreceived, hwindow, hgrants, List.append_nil]
    rfl
  | receive ext buf _ _ hreceived hwindow hpos hle _ =>
    rw [hreceived]
    simp only [Option.toList_some, List.filterMap_cons, ChannelMessage.data?_dataMessage,
      List.filterMap_nil, List.singleton_append]
    apply ReflGen.single
    apply Link.Step.receive rfl
    · rw [length_tagged]
      exact hwindow
    · exact hpos
    · exact hle
  | rest htaken _ _ hreceived hwindow hout =>
    apply reflGen_of_eq
    rw [hreceived, hwindow, filterMap_grant?_of_isControl hout, List.append_nil,
      filterMap_data?_of_isControl (isControl_toList htaken), List.nil_append]

/-- The entry of one end, and the link on which it sends. -/
structure Sends (id peerId : ChannelId) (bound : Nat) (e peer : ChannelEnd)
    (toPeer fromPeer : List ChannelMessage) : Prop where
  entry : ∃ channel, e.enc.channels id = some channel ∧ channel.IsOpen bound
  balanced : (link id peerId e peer toPeer fromPeer).Balanced bound
  stream : (link id peerId e peer toPeer fromPeer).sender.stream = e.submitted

theorem sent_of_acts (h : e.Acts id bound taken e' out) :
    e'.sent = e.sent ++ out.flatMap ChannelMessage.payload := by
  cases h <;> rfl

variable {peer : ChannelEnd} {peerId : ChannelId} {rest queue : List ChannelMessage}

/-- An end that follows the protocol, whose peer does so, too. -/
theorem moved_of_acts (hbound : bound < 2 ^ 32) (hc : e.enc.channels id = some channel)
    (ho : channel.IsOpen bound)
    (hout : (link id peerId e peer queue (taken.toList ++ rest)).Balanced bound)
    (hin : (link peerId id peer e (taken.toList ++ rest) queue).Balanced bound)
    (h : e.Acts id bound taken e' out) :
    ∃ c, e'.enc.channels id = some c ∧ c.IsOpen bound ∧
      Moved bound e e' channel c taken out := by
  have hcredit := hout.credit_le
  have hwindow := hin.window_le
  rw [link_eq hc] at hout hcredit
  cases h with
  | call hkeeps happly => exact moved_of_call hc ho hcredit hkeeps happly
  | windowAdjust happly =>
    have hgrant := hout.credit_add_le rfl
    exact moved_of_windowAdjust hc ho hbound hgrant happly
  | @data ext buf target htarget hle =>
    have hpackets :
        (link peerId id peer e ([ChannelParams.dataMessage ext buf] ++ rest) queue).packets =
          tagged ext buf :: rest.filterMap ChannelMessage.data? := by
      unfold link
      rw [List.singleton_append, List.filterMap_cons, ChannelMessage.data?_dataMessage]
    have hfits := hin.head_fits hpackets
    change _ ≤ e.enc.senderWindowSize id at hfits
    change e.enc.senderWindowSize id ≤ _ at hwindow
    rw [senderWindowSize_eq hc] at hfits hwindow
    rw [length_tagged] at hfits
    exact moved_of_data hc ho hfits hwindow htarget hle
  | @other _ _ _ channel' wantsReply htaken hc' hentry hw hnew =>
    obtain rfl := Option.some.inj (hc.symm.trans hc')
    exact ⟨_, hentry, ⟨ho.blocked, ho.confirmed, ho.max_pos, ho.pendingClose, ho.sized⟩,
      .still htaken hw hnew⟩

/-- Data is submitted by nothing but the calls of the application. -/
theorem stream_of_moved (hs : (senderOf e.sent channel).stream = e.submitted)
    (h : Moved bound e e' channel c taken out) :
    (senderOf e'.sent c).stream = e'.submitted := by
  cases h with
  | submit xs hview hsubmitted _ _ _ => rw [hview, Sender.stream_submit, hs, hsubmitted]
  | grant amount hview hsubmitted _ _ _ => rw [hview, Sender.stream_grant, hs, hsubmitted]
  | receive ext buf hview hsubmitted _ _ _ _ _ => rw [hview, hs, hsubmitted]
  | rest _ hview hsubmitted _ _ _ => rw [hview, hs, hsubmitted]

/-- One action keeps both directions in order. -/
theorem sends_of_acts (hbound : bound < 2 ^ 32)
    (h : e.Sends id peerId bound peer queue (taken.toList ++ rest))
    (hpeer : peer.Sends peerId id bound e (taken.toList ++ rest) queue)
    (hacts : e.Acts id bound taken e' out) :
    e'.Sends id peerId bound peer (queue ++ out) rest ∧
      peer.Sends peerId id bound e' rest (queue ++ out) := by
  obtain ⟨channel, hc, ho⟩ := h.entry
  obtain ⟨peerChannel, hpc, hpo⟩ := hpeer.entry
  obtain ⟨c, hc', ho', hmoved⟩ :=
    moved_of_acts hbound hc ho h.balanced hpeer.balanced hacts
  have hout : ReflGen (Link.Step bound) (link id peerId e peer queue (taken.toList ++ rest))
      (link id peerId e' peer (queue ++ out) rest) :=
    outgoing_of_moved hc hc' (sent_of_acts hacts) hmoved
  have hin : ReflGen (Link.Step bound) (link peerId id peer e (taken.toList ++ rest) queue)
      (link peerId id peer e' rest (queue ++ out)) :=
    incoming_of_moved hpc hc hc' hmoved
  have hstream := h.stream
  have hpstream := hpeer.stream
  rw [link_eq hc] at hstream
  rw [link_eq hpc] at hpstream
  refine ⟨⟨⟨c, hc', ho'⟩, h.balanced.reaches hout.to_reflTransGen, ?_⟩,
    ⟨⟨peerChannel, hpc, hpo⟩, hpeer.balanced.reaches hin.to_reflTransGen, ?_⟩⟩
  · rw [link_eq hc']
    exact stream_of_moved hstream hmoved
  · rw [link_eq hpc]
    exact hpstream

end ChannelEnd

/-- Two ends of a channel, and the packets of each that the other one has not read. -/
structure ChannelPair where
  left : ChannelEnd
  right : ChannelEnd
  toLeft : List ChannelMessage := []
  toRight : List ChannelMessage := []

namespace ChannelPair

variable {leftId rightId : ChannelId} {bound : Nat} {p p₀ : ChannelPair}

/-- One of the ends does something. -/
inductive Step (leftId rightId : ChannelId) (bound : Nat) : ChannelPair → ChannelPair → Prop
  | left {p : ChannelPair} {e : ChannelEnd} {taken : Option ChannelMessage}
      {rest out : List ChannelMessage} :
      p.toLeft = taken.toList ++ rest → p.left.Acts leftId bound taken e out →
      Step leftId rightId bound p
        { p with left := e, toLeft := rest, toRight := p.toRight ++ out }
  | right {p : ChannelPair} {e : ChannelEnd} {taken : Option ChannelMessage}
      {rest out : List ChannelMessage} :
      p.toRight = taken.toList ++ rest → p.right.Acts rightId bound taken e out →
      Step leftId rightId bound p
        { p with right := e, toRight := rest, toLeft := p.toLeft ++ out }

/-- Both directions. -/
def Sends (leftId rightId : ChannelId) (bound : Nat) (p : ChannelPair) : Prop :=
  p.left.Sends leftId rightId bound p.right p.toRight p.toLeft ∧
    p.right.Sends rightId leftId bound p.left p.toLeft p.toRight

theorem Sends.step {q : ChannelPair} (hbound : bound < 2 ^ 32) (h : p.Sends leftId rightId bound)
    (hstep : Step leftId rightId bound p q) : q.Sends leftId rightId bound := by
  obtain ⟨hleft, hright⟩ := h
  cases hstep with
  | left htaken hacts =>
    rw [htaken] at hleft hright
    exact ChannelEnd.sends_of_acts hbound hleft hright hacts
  | right htaken hacts =>
    rw [htaken] at hleft hright
    exact (ChannelEnd.sends_of_acts hbound hright hleft hacts).symm

theorem Sends.reaches (hbound : bound < 2 ^ 32) (h : p₀.Sends leftId rightId bound)
    (hsteps : ReflTransGen (Step leftId rightId bound) p₀ p) : p.Sends leftId rightId bound := by
  induction hsteps with
  | refl => exact h
  | tail _ hstep ih => exact ih.step hbound hstep

end ChannelPair

/-- The window that one end has been told is the one that the other end has granted. -/
structure ChannelParams.Agrees (bound : Nat) (channel peer : ChannelParams) : Prop where
  confirmed : channel.confirmed = true
  max_pos : 0 < channel.recipientMaximumPacketSize
  pendingData : channel.pendingData = []
  pendingClose : channel.pendingClose = false
  window : channel.recipientWindowSize = peer.senderWindowSize
  window_pos : 0 < channel.recipientWindowSize.toNat
  window_le : channel.recipientWindowSize.toNat ≤ bound

/-- The data that waits for a larger window. -/
def ChannelEnd.waiting (id : ChannelId) (e : ChannelEnd) : List (Option Nat × UInt8) :=
  match e.enc.channels id with
  | some channel => ChannelParams.queued channel.pendingData
  | none => []

/-- What is promised for one direction of the channel. -/
structure ChannelEnd.Delivers (id peerId : ChannelId) (bound : Nat) (e peer : ChannelEnd)
    (toPeer fromPeer : List ChannelMessage) : Prop where
  in_order : peer.received ++ toPeer.flatMap ChannelMessage.payload ++ e.waiting id = e.submitted
  fits : (toPeer.flatMap ChannelMessage.payload).length ≤ peer.enc.senderWindowSize peerId
  complete : toPeer.filterMap ChannelMessage.data? = [] →
    fromPeer.filterMap ChannelMessage.grant? = [] → peer.received = e.submitted
  call_returns : ∀ call : ChannelCall, call.target = some id → call.Keeps id bound →
    ∃ enc', call.apply e.enc = .ok enc'
  adjust_returns : ∀ amount rest, fromPeer = .windowAdjust amount :: rest →
    amount < 2 ^ 32 ∧
      ∃ enc', ChannelCall.apply e.enc (.windowAdjust id (UInt32.ofNat amount)) = .ok enc'

namespace ChannelEnd

variable {id peerId : ChannelId} {bound : Nat} {e peer : ChannelEnd}
  {toPeer fromPeer : List ChannelMessage}

theorem Sends.delivers (hbound : bound < 2 ^ 32)
    (h : e.Sends id peerId bound peer toPeer fromPeer) :
    e.Delivers id peerId bound peer toPeer fromPeer := by
  obtain ⟨channel, hc, ho⟩ := h.entry
  have hbalanced := h.balanced
  have hstream := h.stream
  rw [link_eq hc] at hbalanced hstream
  have hcredit : channel.recipientWindowSize.toNat ≤ bound := hbalanced.credit_le
  refine ⟨?_, ?_, ?_, ?_, ?_⟩
  · have horder := hbalanced.stream
    rw [hstream] at horder
    unfold waiting
    rw [hc, ← ChannelMessage.flatten_filterMap_data?]
    exact horder
  · rw [← ChannelMessage.flatten_filterMap_data?]
    exact hbalanced.fits
  · intro hdata hgrants
    exact (hbalanced.complete hdata hgrants).trans hstream
  · intro call ht hkeeps
    obtain ⟨hsound, hno⟩ := ChannelParams.IsOpen.everyWrite_of_keeps hc hcredit hkeeps
    exact apply_returns hc ho.confirmed ho.max_pos ht hsound hno
  · intro amount rest hfrom
    subst hfrom
    have hgrant : channel.recipientWindowSize.toNat + amount ≤ bound :=
      hbalanced.credit_add_le rfl
    have hlt : amount < 2 ^ 32 := by omega
    have hamount : (UInt32.ofNat amount).toNat = amount := UInt32.toNat_ofNat_of_lt' hlt
    have henlarged : channel.recipientWindowSize.toNat + (UInt32.ofNat amount).toNat ≤ bound := by
      rwa [hamount]
    obtain ⟨hsound, hno⟩ := ho.everyWrite_of_grant hc henlarged
    exact ⟨hlt, apply_returns hc ho.confirmed ho.max_pos rfl hsound hno⟩

/-- An end with nothing to send. -/
theorem sends_start {left right : Encrypted} {channel peerChannel : ChannelParams}
    (hc : left.channels id = some channel) (hpeer : right.channels peerId = some peerChannel)
    (h : channel.Agrees bound peerChannel) :
    Sends id peerId bound { enc := left } { enc := right } [] [] := by
  have hqueued : ChannelParams.queued channel.pendingData = [] := by
    rw [h.pendingData]
    rfl
  have hblocked : channel.Blocked := by
    intro p ps hp
    rw [h.pendingData] at hp
    cases hp
  refine ⟨⟨channel, hc, hblocked, h.confirmed, h.max_pos, h.pendingClose, ?_⟩, ?_, ?_⟩
  · intro p hp
    rw [h.pendingData] at hp
    cases hp
  · rw [link_eq hc, senderWindowSize_eq hpeer, ← h.window]
    refine ⟨?_, rfl, rfl, h.window_pos, h.window_le⟩
    intro hne
    exact absurd hqueued hne
  · rw [link_eq hc]
    exact hqueued

end ChannelEnd

/-- Whatever the two ends of a channel do and in whatever order, while neither closes the channel:
each gets what the other one submits, in order, never more than it has granted; and a sender that
waits does not wait for ever. -/
theorem both_ends_deliver {leftId rightId : ChannelId} {bound : Nat} {left right : Encrypted}
    {leftChannel rightChannel : ChannelParams} {p : ChannelPair} (hbound : bound < 2 ^ 32)
    (hleft : left.channels leftId = some leftChannel)
    (hright : right.channels rightId = some rightChannel)
    (hlr : leftChannel.Agrees bound rightChannel) (hrl : rightChannel.Agrees bound leftChannel)
    (h : ReflTransGen (ChannelPair.Step leftId rightId bound)
      { left := { enc := left }, right := { enc := right } } p) :
    p.left.Delivers leftId rightId bound p.right p.toRight p.toLeft ∧
      p.right.Delivers rightId leftId bound p.left p.toLeft p.toRight := by
  have hstart : ChannelPair.Sends leftId rightId bound
      { left := { enc := left }, right := { enc := right } } :=
    ⟨ChannelEnd.sends_start hleft hright hlr, ChannelEnd.sends_start hright hleft hrl⟩
  obtain ⟨hl, hr⟩ := hstart.reaches hbound h
  exact ⟨hl.delivers hbound, hr.delivers hbound⟩

section Play

namespace ChannelEnd

/-- An end reads a packet, and wants windows of `target`. -/
def reads (id : ChannelId) (target : UInt32) (m : ChannelMessage) (e : ChannelEnd) :
    Option (ChannelEnd × List ChannelMessage) :=
  match m with
  | .windowAdjust amount =>
    match ChannelCall.apply e.enc (.windowAdjust id (UInt32.ofNat amount)) with
    | .ok enc' => some (e.advance id enc' [] [], e.wrote id enc')
    | .error _ => none
  | .data buf =>
    let enc' := (e.enc.adjustWindowSize id buf target).1
    some (e.advance id enc' [] (tagged none buf), e.wrote id enc')
  | .extendedData ext buf =>
    let enc' := (e.enc.adjustWindowSize id buf target).1
    some (e.advance id enc' [] (tagged (some ext) buf), e.wrote id enc')
  | _ => none

theorem acts_of_reads {id : ChannelId} {bound : Nat} {target : UInt32} {m : ChannelMessage}
    {e e' : ChannelEnd} {out : List ChannelMessage} (htarget : 2 ≤ target.toNat)
    (hle : target.toNat ≤ bound) (h : e.reads id target m = some (e', out)) :
    e.Acts id bound (some m) e' out := by
  cases m with
  | windowAdjust amount =>
    unfold reads at h
    dsimp only at h
    split at h
    · rename_i enc' happly
      obtain ⟨rfl, rfl⟩ := Prod.mk.inj (Option.some.inj h)
      exact .windowAdjust happly
    · cases h
  | data buf =>
    obtain ⟨rfl, rfl⟩ := Prod.mk.inj (Option.some.inj h)
    exact @Acts.data id bound e none buf target htarget hle
  | extendedData ext buf =>
    obtain ⟨rfl, rfl⟩ := Prod.mk.inj (Option.some.inj h)
    exact @Acts.data id bound e (some ext) buf target htarget hle
  | _ => cases h

end ChannelEnd

namespace ChannelPair

variable {leftId rightId : ChannelId} {bound : Nat} {p q : ChannelPair} {target : UInt32}

def leftCalls (leftId : ChannelId) (call : ChannelCall) (p : ChannelPair) : Option ChannelPair :=
  match call.apply p.left.enc with
  | .ok enc' => some
    { p with
      left := p.left.advance leftId enc' (call.submits leftId) []
      toRight := p.toRight ++ p.left.wrote leftId enc' }
  | .error _ => none

def leftReads (leftId : ChannelId) (target : UInt32) (p : ChannelPair) : Option ChannelPair :=
  match p.toLeft with
  | [] => none
  | m :: rest => (p.left.reads leftId target m).map fun r =>
    { p with left := r.1, toLeft := rest, toRight := p.toRight ++ r.2 }

def rightReads (rightId : ChannelId) (target : UInt32) (p : ChannelPair) : Option ChannelPair :=
  match p.toRight with
  | [] => none
  | m :: rest => (p.right.reads rightId target m).map fun r =>
    { p with right := r.1, toRight := rest, toLeft := p.toLeft ++ r.2 }

theorem step_leftCalls {call : ChannelCall} (hkeeps : call.Keeps leftId bound)
    (h : p.leftCalls leftId call = some q) : Step leftId rightId bound p q := by
  unfold leftCalls at h
  split at h
  · rename_i enc' happly
    obtain rfl := Option.some.inj h
    have htaken : p.toLeft = none.toList ++ p.toLeft := rfl
    exact .left htaken (.call hkeeps happly)
  · cases h

theorem step_leftReads (htarget : 2 ≤ target.toNat) (hle : target.toNat ≤ bound)
    (h : p.leftReads leftId target = some q) : Step leftId rightId bound p q := by
  unfold leftReads at h
  split at h
  · cases h
  · rename_i m rest hqueue
    obtain ⟨⟨e, out⟩, hreads, rfl⟩ := Option.map_eq_some_iff.mp h
    have htaken : p.toLeft = (some m).toList ++ rest := hqueue
    exact .left htaken (ChannelEnd.acts_of_reads htarget hle hreads)

theorem step_rightReads (htarget : 2 ≤ target.toNat) (hle : target.toNat ≤ bound)
    (h : p.rightReads rightId target = some q) : Step leftId rightId bound p q := by
  unfold rightReads at h
  split at h
  · cases h
  · rename_i m rest hqueue
    obtain ⟨⟨e, out⟩, hreads, rfl⟩ := Option.map_eq_some_iff.mp h
    have htaken : p.toRight = (some m).toList ++ rest := hqueue
    exact .right htaken (ChannelEnd.acts_of_reads htarget hle hreads)

end ChannelPair

end Play

/-- A session with a channel, number 2, whose windows are four bytes and whose packets three. -/
def smallWindowSession : Encrypted :=
  (oneChannelSession 4).setChannel 2
    { recipientChannel := 2
      senderChannel := 2
      recipientWindowSize := 4
      senderWindowSize := 4
      recipientMaximumPacketSize := 3
      senderMaximumPacketSize := 3
      confirmed := true
      wantsReply := false }

/-- Five bytes are submitted: four go out in two packets, and the fifth one after the window has
been enlarged. -/
def fiveBytes : Option ChannelPair :=
  let start : ChannelPair :=
    { left := { enc := smallWindowSession }, right := { enc := smallWindowSession } }
  (start.leftCalls 2 (.submit 2 none [1, 2, 3, 4, 5] false)).bind fun p =>
    (p.rightReads 2 4).bind fun p => (p.rightReads 2 4).bind fun p =>
      (p.leftReads 2 4).bind fun p => p.rightReads 2 4

theorem both_ends_deliver_five : ∃ p, fiveBytes = some p ∧
    p.right.received = tagged none [1, 2, 3, 4, 5] ∧
      p.left.Delivers 2 2 4 p.right p.toRight p.toLeft ∧
        p.right.Delivers 2 2 4 p.left p.toLeft p.toRight := by
  obtain ⟨p, hp⟩ : ∃ p, fiveBytes = some p := ⟨_, rfl⟩
  have hreceived : fiveBytes.map (·.right.received) = some (tagged none [1, 2, 3, 4, 5]) := by
    decide +kernel
  rw [hp] at hreceived
  refine ⟨p, hp, Option.some.inj hreceived, ?_⟩
  unfold fiveBytes at hp
  dsimp only at hp
  obtain ⟨p₁, h₁, hp⟩ := Option.bind_eq_some_iff.mp hp
  obtain ⟨p₂, h₂, hp⟩ := Option.bind_eq_some_iff.mp hp
  obtain ⟨p₃, h₃, hp⟩ := Option.bind_eq_some_iff.mp hp
  obtain ⟨p₄, h₄, hp⟩ := Option.bind_eq_some_iff.mp hp
  have hagrees : ∀ c ∈ smallWindowSession.channels 2, c.Agrees 4 c := by
    intro c hc
    obtain rfl := Option.some.inj hc
    exact ⟨rfl, by decide, rfl, rfl, rfl, by decide, by decide⟩
  have hkeeps : (ChannelCall.submit 2 none [1, 2, 3, 4, 5] false).Keeps 2 4 := fun _ => by decide
  have htarget : 2 ≤ (4 : UInt32).toNat := by decide
  have hle : (4 : UInt32).toNat ≤ 4 := by decide
  obtain ⟨c, hc⟩ : ∃ c, smallWindowSession.channels 2 = some c := ⟨_, rfl⟩
  apply both_ends_deliver (by decide) hc hc (hagrees c hc) (hagrees c hc)
  exact ((((ReflTransGen.refl.tail
    (ChannelPair.step_leftCalls hkeeps h₁)).tail
    (ChannelPair.step_rightReads htarget hle h₂)).tail
    (ChannelPair.step_rightReads htarget hle h₃)).tail
    (ChannelPair.step_leftReads htarget hle h₄)).tail
    (ChannelPair.step_rightReads htarget hle hp)

end Edgessh.Russh
