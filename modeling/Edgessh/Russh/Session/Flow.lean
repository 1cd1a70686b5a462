import Edgessh.Lib.Trace
import Edgessh.Russh.Session.Calm

/-!
# The peer's credit

What a session grants to its peer and what it delivers of the peer's data, channel by channel.
`Flow` says that the window of an entry is what is left of the grants; between the accounting for a
packet and its delivery the data is owed.
-/

namespace Edgessh.Russh
open Edgessh.Command

variable {K C X : Type}

section Ledger

/-- What happens to the credit of a channel. -/
inductive Movement where
  | opened (window : Nat)
  | granted (amount : Nat)
  | toHandler (size : Nat)
  | toReceiver (size : Nat)
  deriving DecidableEq, Repr

/-- What has been granted to the peer since a channel was opened, and how many bytes have been
delivered: to the application, and to the receiver of the channel. -/
structure Ledger where
  granted : Nat := 0
  toHandler : Nat := 0
  toReceiver : Nat := 0
  deriving DecidableEq, Repr

def Ledger.post (l : Ledger) : Movement → Ledger
  | .opened window => { granted := window }
  | .granted amount => { l with granted := l.granted + amount }
  | .toHandler size => { l with toHandler := l.toHandler + size }
  | .toReceiver size => { l with toReceiver := l.toReceiver + size }

/-- What a packet says about the peer's credit. -/
def Message.credit : Message → Option (ChannelId × Movement)
  | .channelOpen _ sender window _ _ => some (sender, .opened (UInt32.ofNat window).toNat)
  | .channelOpenConfirmation _ sender window _ =>
    some (sender, .opened (UInt32.ofNat window).toNat)
  | .channel id _ (.windowAdjust amount) => some (id, .granted amount)
  | _ => none

theorem Message.credit_of_isReply {m : Message} (h : m.isReply = true) : m.credit = none := by
  cases m with
  | requestSuccess _ | requestFailure => rfl
  | _ => cases h

/-- What an event says about the peer's credit, and for which channel. -/
def Event.credit : Event → Option (ChannelId × Movement)
  | .wrote m => m.credit
  | .clientCallback (.data id buf) => some (id, .toHandler buf.length)
  | .clientCallback (.extendedData id _ buf) => some (id, .toHandler buf.length)
  | .serverCallback (.data id buf) => some (id, .toHandler buf.length)
  | .serverCallback (.extendedData id _ buf) => some (id, .toHandler buf.length)
  | .toChannel id _ msg => msg.payload.map fun buf => (id, .toReceiver buf.length)
  | _ => none

/-- The part of it that is about the channel `id`. -/
def Event.movement (id : ChannelId) (e : Event) : Option Movement :=
  e.credit.bind fun p => if p.1 = id then some p.2 else none

/-- The ledger of a channel. -/
def ledger (id : ChannelId) (events : List Event) : Ledger :=
  (events.filterMap (Event.movement id)).foldl Ledger.post {}

variable {id : ChannelId} {events new : List Event} {e : Event} {m : Message}

theorem Event.movement_of_none (h : e.credit = none) : e.movement id = none := by
  rw [movement, h]
  rfl

theorem Event.movement_self {mv : Movement} (h : e.credit = some (id, mv)) :
    e.movement id = some mv := by
  simp [movement, h]

theorem Event.movement_ne {i : ChannelId} {mv : Movement} (h : e.credit = some (i, mv))
    (hi : i ≠ id) : e.movement id = none := by
  simp [movement, h, hi]

theorem ledger_append_of_none (h : ∀ e ∈ new, e.movement id = none) :
    ledger id (events ++ new) = ledger id events := by
  rw [ledger, List.filterMap_append, List.filterMap_eq_nil_iff.mpr h, List.append_nil, ledger]

theorem ledger_concat {mv : Movement} (h : e.movement id = some mv) :
    ledger id (events ++ [e]) = (ledger id events).post mv := by
  simp [ledger, h]

theorem Message.credit_of_isPlain (h : m.isPlain = true) : m.credit = none := by
  cases m with
  | channel id recipient msg => cases msg <;> simp_all [isPlain, ChannelMessage.isPlain, credit]
  | _ => simp_all [isPlain, credit]

theorem Message.credit_of_opens {i : ChannelId} {window : Nat} (h : m.opens = some (i, window)) :
    m.credit = some (i, .opened (UInt32.ofNat window).toNat) := by
  cases m <;> simp_all [opens, credit]

theorem Event.credit_of_not_delivered (h : e.delivered = none) (hw : e.wrote? = none) :
    e.credit = none := by
  cases e with
  | clientCallback call => cases call <;> simp_all [credit, delivered]
  | serverCallback call => cases call <;> simp_all [credit, delivered]
  | toChannel id dest msg => simpa [credit, delivered] using h
  | wrote m => cases hw
  | _ => rfl

theorem Event.credit_of_isPlain (h : e.isPlain = true) : e.credit = none := by
  cases e with
  | wrote m => exact Message.credit_of_isPlain h
  | clientCallback call => exact credit_of_not_delivered (by simpa [isPlain] using h) rfl
  | serverCallback call => exact credit_of_not_delivered (by simpa [isPlain] using h) rfl
  | toChannel id dest msg => exact credit_of_not_delivered (by simpa [isPlain] using h) rfl
  | _ => rfl

theorem Event.credit_of_isCalm (h : e.isCalm = true) : e.credit = none := by
  cases e with
  | clientCallback call => cases call <;> first | rfl | cases h
  | _ => first | rfl | cases h

end Ledger

section Invariant

/-- No more is delivered than has been granted. -/
def FlowLaw (events : List Event) (e : Event) : Prop :=
  ∀ id, (ledger id (events ++ [e])).toHandler ≤ (ledger id (events ++ [e])).granted ∧
    (ledger id (events ++ [e])).toReceiver ≤ (ledger id (events ++ [e])).granted

/-- The window of every entry is what has been granted and not delivered. -/
def WindowsBalanced (s : Session K C X) : Prop :=
  ∀ id channel, s.entries id = some channel →
    channel.senderWindowSize.toNat + (ledger id s.events).toHandler = (ledger id s.events).granted

/-- The state between the accounting for some data and its delivery: `owed` is what the application
has still to get on each channel, `expected` what the receivers of the channels have. -/
structure Flow (owed expected : ChannelId → Nat) (s : Session K C X) : Prop where
  lawful : Traced FlowLaw s.events
  balance : ∀ id channel, s.entries id = some channel →
    channel.senderWindowSize.toNat + (ledger id s.events).toHandler + owed id =
      (ledger id s.events).granted
  credit : ∀ id, (ledger id s.events).toHandler + owed id ≤ (ledger id s.events).granted
  receiver : ∀ id, (ledger id s.events).toReceiver + expected id ≤
    (ledger id s.events).toHandler + owed id

/-- Nothing is owed. -/
abbrev Settled (s : Session K C X) : Prop := Flow (fun _ => 0) (fun _ => 0) s

/-- `size` bytes on the channel `id`. -/
def debt (id : ChannelId) (size : Nat) (i : ChannelId) : Nat := if i = id then size else 0

@[simp] theorem debt_self (id : ChannelId) (size : Nat) : debt id size id = size := if_pos rfl

theorem debt_ne {i id : ChannelId} (size : Nat) (h : i ≠ id) : debt id size i = 0 := if_neg h

namespace Flow

variable {owed expected : ChannelId → Nat} {s t : Session K C X} {new : List Event}

theorem windowsBalanced (h : Settled s) : WindowsBalanced s := fun id channel hc => by
  simpa using h.balance id channel hc

/-- Events that move no credit, with windows that stay as they are. -/
theorem extend (h : Flow owed expected s) (hev : t.events = s.events ++ new)
    (hnew : ∀ e ∈ new, e.credit = none)
    (hwindow : ∀ id channel', t.entries id = some channel' → ∃ channel,
      s.entries id = some channel ∧ channel'.senderWindowSize = channel.senderWindowSize) :
    Flow owed expected t := by
  have hledger : ∀ id, ledger id t.events = ledger id s.events := by
    intro id
    rw [hev]
    exact ledger_append_of_none fun e he => Event.movement_of_none (hnew e he)
  refine ⟨?_, fun id channel' hc => ?_, fun id => ?_, fun id => ?_⟩
  · rw [hev]
    refine traced_append.mpr ⟨h.lawful, fun pre e post hpre id => ?_⟩
    have hnone : ∀ x ∈ pre ++ [e], x.movement id = none := by
      intro x hx
      refine Event.movement_of_none (hnew x ?_)
      rw [hpre]
      simp only [List.mem_append, List.mem_cons, List.not_mem_nil, or_false] at hx ⊢
      tauto
    rw [List.append_assoc, ledger_append_of_none hnone]
    have hcredit := h.credit id
    have hreceiver := h.receiver id
    omega
  · obtain ⟨channel, hs, hsize⟩ := hwindow id channel' hc
    rw [hledger, hsize]
    exact h.balance id channel hs
  · rw [hledger]
    exact h.credit id
  · rw [hledger]
    exact h.receiver id

theorem quiet (hq : Quiet s t new) (h : Flow owed expected s) : Flow owed expected t :=
  h.extend hq.events (fun e he => Event.credit_of_isPlain (hq.plain e he)) hq.window

theorem calm (hc : Calm s t) (h : Flow owed expected s) : Flow owed expected t := by
  obtain ⟨new, hev, hcalm⟩ := hc.events
  exact h.extend hev (fun e he => Event.credit_of_isCalm (hcalm e he))
    fun id channel' ht => ⟨channel', hc.entries id ▸ ht, rfl⟩

theorem record {e : Event} (h : Flow owed expected s) (he : e.credit = none) :
    Flow owed expected (s.record e) :=
  h.extend (Session.events_record e) (by simpa using he) fun _ channel' hc => ⟨channel', hc, rfl⟩

/-- One event that moves the credit of the channel `id`. -/
theorem move {owed' expected' : ChannelId → Nat} {e : Event} {id : ChannelId} {mv : Movement}
    (h : Flow owed expected s) (hev : t.events = s.events ++ [e])
    (he : e.credit = some (id, mv))
    (hentries : ∀ i, i ≠ id → t.entries i = s.entries i)
    (howed : ∀ i, i ≠ id → owed' i = owed i) (hexpected : ∀ i, i ≠ id → expected' i = expected i)
    (hbalance : ∀ channel, t.entries id = some channel →
      channel.senderWindowSize.toNat + ((ledger id s.events).post mv).toHandler + owed' id =
        ((ledger id s.events).post mv).granted)
    (hcredit : ((ledger id s.events).post mv).toHandler + owed' id ≤
      ((ledger id s.events).post mv).granted)
    (hreceiver : ((ledger id s.events).post mv).toReceiver + expected' id ≤
      ((ledger id s.events).post mv).toHandler + owed' id) : Flow owed' expected' t := by
  have hself : ledger id t.events = (ledger id s.events).post mv := by
    rw [hev]
    exact ledger_concat (Event.movement_self he)
  have hne : ∀ i, i ≠ id → ledger i t.events = ledger i s.events := by
    intro i hi
    rw [hev]
    exact ledger_append_of_none (by simpa using Event.movement_ne he hi.symm)
  have hcredit' : ∀ i, (ledger i t.events).toHandler + owed' i ≤ (ledger i t.events).granted := by
    intro i
    by_cases hi : i = id
    · subst hi
      rw [hself]
      exact hcredit
    · rw [hne i hi, howed i hi]
      exact h.credit i
  have hreceiver' : ∀ i, (ledger i t.events).toReceiver + expected' i ≤
      (ledger i t.events).toHandler + owed' i := by
    intro i
    by_cases hi : i = id
    · subst hi
      rw [hself]
      exact hreceiver
    · rw [hne i hi, howed i hi, hexpected i hi]
      exact h.receiver i
  refine ⟨?_, fun i channel hc => ?_, hcredit', hreceiver'⟩
  · rw [hev]
    refine traced_concat.mpr ⟨h.lawful, fun i => ?_⟩
    rw [← hev]
    have hc := hcredit' i
    have hr := hreceiver' i
    omega
  · by_cases hi : i = id
    · subst hi
      rw [hself]
      exact hbalance channel hc
    · rw [hne i hi, howed i hi]
      exact h.balance i channel (hentries i hi ▸ hc)

/-- A channel is opened with the window that the peer is told. -/
theorem openChannel {enc : Encrypted} {m : Message} {id : ChannelId} {window : Nat}
    {channel : ChannelParams} (chan : Option ChannelRef) (hc : s.common.encrypted = some enc)
    (hm : m.opens = some (id, window)) (hw : channel.senderWindowSize = UInt32.ofNat window)
    (h : Settled s) : Settled (s.openChannel m id channel chan enc) := by
  have hentries : ∀ i, (s.openChannel m id channel chan enc).entries i =
      Function.update enc.channels id (some channel) i := fun _ => rfl
  have hopening : Settled (s.record (.opening enc.state)) := h.record rfl
  have hwrote : (s.openChannel m id channel chan enc).events =
      (s.record (.opening enc.state)).events ++ [.wrote m] := by
    simp [Session.events_openChannel]
  refine hopening.move hwrote (Message.credit_of_opens hm) (fun i hi => ?_) (fun _ _ => rfl)
    (fun _ _ => rfl) (fun channel' hc' => ?_) ?_ ?_
  · rw [hentries, Function.update_of_ne hi, ← Session.entries_eq hc]
    rfl
  · rw [hentries, Function.update_self] at hc'
    cases hc'
    simp [Ledger.post, hw]
  · simp [Ledger.post]
  · simp [Ledger.post]

/-- A step that is not for a packet with data. -/
theorem app {start : KexStart K C} {P : Primitives} {pkt : Option Bytes}
    (hstep : AppStep start P pkt s t) (hmsg : ¬AppM.IsData pkt) (h : Settled s) : Settled t := by
  rcases hstep.quiet_or_loud with ⟨new, hquiet⟩ | hloud
  · exact h.quiet hquiet
  · have hwrote : ∀ {enc enc' : Encrypted} {m : Message}, s.common.encrypted = some enc →
        enc'.channels = enc.channels → m.credit = none → Settled (s.wrote enc' [m]) := by
      intro enc enc' m hc hch hm
      refine h.extend (Session.events_wrote ..) (by simpa [Event.credit] using hm)
        fun id channel' hc' => ⟨channel', ?_, rfl⟩
      rw [Session.entries_eq hc, ← hch]
      exact hc'
    cases hloud with
    | openChannel chan hc hm hw => exact h.openChannel chan hc hm hw
    | account data target hd _ => exact absurd hd hmsg
    | deliver hd _ => exact absurd hd hmsg
    | @globalRequest response wantReply name data _ =>
      refine h.extend (Session.events_globalRequest ..) ?_ fun id channel' hc' =>
        ⟨channel', ?_, rfl⟩
      · intro e he
        rcases List.mem_cons.mp he with rfl | he
        · rfl
        · split at he
          · obtain rfl := List.mem_singleton.mp he
            rfl
          · simp at he
      · unfold Session.globalRequest at hc'
        dsimp only at hc'
        split at hc'
        · exact hc'
        · rename_i enc hc
          rw [Session.entries_eq (s := s) hc]
          exact hc'
    | takeReply tell _ =>
      refine h.extend (Session.events_takeReply tell) (fun e he => ?_)
        fun id channel' hc' => ⟨channel', hc', rfl⟩
      rcases Session.mem_takeReply he with rfl | ⟨p, rfl⟩ <;> rfl
    | @answer enc m _ hm hc =>
      exact hwrote hc rfl (Message.credit_of_isReply hm)
    | @replyCalled enc m hm hc =>
      have hev : ((s.record .replyCalled).wrote (enc.push m) [m]).events =
          s.events ++ [.replyCalled, .wrote m] := by simp
      refine h.extend hev ?_ fun id channel' hc' => ⟨channel', ?_, rfl⟩
      · simp [Event.credit, Message.credit_of_isReply hm]
      · rw [Session.entries_eq hc]
        exact hc'

end Flow

end Invariant

section Data

/-- The channel and the data of a CHANNEL_DATA or a CHANNEL_EXTENDED_DATA. -/
def dataPacket? : Bytes → Option (ChannelId × Bytes)
  | [] => none
  | msg :: r =>
    if msg = Msg.channelData then do
      let (id, r) ← (decodeU32 r).toOption
      let (buf, _) ← (decodeBytes r).toOption
      pure (id, buf)
    else if msg = Msg.channelExtendedData then do
      let (id, r) ← (decodeU32 r).toOption
      let (_, r) ← (decodeU32 r).toOption
      let (buf, _) ← (decodeBytes r).toOption
      pure (id, buf)
    else none

theorem dataPacket?_of_channelData {r r₁ r₂ buf : Bytes} {id : ChannelId}
    (hid : decodeU32 r = .ok (id, r₁)) (hbuf : decodeBytes r₁ = .ok (buf, r₂)) :
    dataPacket? (Msg.channelData :: r) = some (id, buf) := by
  simp [dataPacket?, hid, hbuf, Except.toOption]

theorem dataPacket?_of_channelExtendedData {r r₁ r₂ r₃ buf : Bytes} {id : ChannelId} {ext : Nat}
    (hid : decodeU32 r = .ok (id, r₁)) (hext : decodeU32 r₁ = .ok (ext, r₂))
    (hbuf : decodeBytes r₂ = .ok (buf, r₃)) :
    dataPacket? (Msg.channelExtendedData :: r) = some (id, buf) := by
  have hne : Msg.channelExtendedData ≠ Msg.channelData := by decide
  simp [dataPacket?, hne, hid, hext, hbuf, Except.toOption]

/-- If the packet is one with data that an authenticated session reads, the data fits into the
window of its channel; an unknown channel has none. -/
def fitsWindow (buf : Bytes) (s : Session K C X) : Bool :=
  s.common.encrypted.all fun enc =>
    !enc.state.isAuthenticated ||
      (dataPacket? buf).all fun p => p.2.length ≤ enc.senderWindowSize p.1

theorem length_le_of_fitsWindow {buf data : Bytes} {id : ChannelId} {enc : Encrypted}
    {s : Session K C X} (h : fitsWindow buf s = true) (hc : s.common.encrypted = some enc)
    (hst : enc.state.isAuthenticated = true) (hd : dataPacket? buf = some (id, data)) :
    data.length ≤ enc.senderWindowSize id := by
  simpa [fitsWindow, hc, hst, hd] using h

namespace Flow

variable {start : KexStart K C} {P : Primitives} {pkt : Option Bytes} {s t : Session K C X}
  {id : ChannelId} {data : Bytes} {size : Nat}

theorem debt_zero (id : ChannelId) : debt id 0 = fun _ => 0 := by
  funext i
  simp [debt]

/-- The window of the entry shrinks by data that fits into it. -/
theorem shrink {enc : Encrypted} {channel : ChannelParams} {window : UInt32}
    (hc : s.common.encrypted = some enc) (hchan : enc.channels id = some channel)
    (hwindow : window.toNat + size = channel.senderWindowSize.toNat) (h : Settled s) :
    Flow (debt id size) (debt id size)
      (s.wrote (enc.setChannel id { channel with senderWindowSize := window }) []) := by
  have hev : (s.wrote (enc.setChannel id { channel with senderWindowSize := window }) []).events =
      s.events := by simp
  have hbal := h.balance id channel ((Session.entries_eq hc id).trans hchan)
  rw [Nat.add_zero] at hbal
  refine ⟨hev ▸ h.lawful, fun i channel' hc' => ?_, fun i => ?_, fun i => ?_⟩
  · rw [hev]
    by_cases hi : i = id
    · subst hi
      have hent : some { channel with senderWindowSize := window } = some channel' := by
        rw [← hc', Session.entries_eq (Session.encrypted_wrote ..)]
        simp [Encrypted.setChannel]
      cases hent
      rw [debt_self]
      dsimp only
      omega
    · rw [debt_ne size hi]
      refine h.balance i channel' ?_
      rw [Session.entries_eq hc, ← hc', Session.entries_eq (Session.encrypted_wrote ..)]
      simp [Encrypted.setChannel, Function.update_of_ne hi]
  · rw [hev]
    by_cases hi : i = id
    · subst hi
      rw [debt_self]
      omega
    · rw [debt_ne size hi]
      exact h.credit i
  · rw [hev]
    have hr := h.receiver i
    by_cases hi : i = id
    · subst hi
      rw [debt_self]
      omega
    · rw [debt_ne size hi]
      exact hr

/-- What is left of a window, as the code computes it. -/
theorem toNat_window_sub {window : UInt32} (hfits : data.length ≤ window.toNat) :
    UInt32.ofNat data.length ≤ window ∧
      (window - UInt32.ofNat data.length).toNat + data.length = window.toNat := by
  have hlt : window.toNat < UInt32.size := window.toNat_lt
  have hlen : (UInt32.ofNat data.length).toNat = data.length :=
    UInt32.toNat_ofNat_of_lt' (by omega)
  have hle : UInt32.ofNat data.length ≤ window := by
    rw [UInt32.le_iff_toNat_le, hlen]
    exact hfits
  refine ⟨hle, ?_⟩
  rw [UInt32.toNat_sub_of_le _ _ hle, hlen]
  omega

/-- The peer is told the amount by which the window grows. -/
theorem account {enc : Encrypted} {target : UInt32} (hc : s.common.encrypted = some enc)
    (hfits : data.length ≤ enc.senderWindowSize id) (h : Settled s) :
    Flow (debt id data.length) (debt id data.length) (s.adjustWindowSize id data target enc).1 := by
  unfold Session.adjustWindowSize Encrypted.adjustWindowSize
  unfold Encrypted.senderWindowSize at hfits
  cases hchan : enc.channels id with
  | none =>
    rw [hchan] at hfits
    obtain hlen : data.length = 0 := by simpa using hfits
    rw [hlen, debt_zero]
    refine h.extend (Session.events_wrote ..) (by simp) fun i channel' hc' => ⟨channel', ?_, rfl⟩
    rw [Session.entries_eq hc]
    exact hc'
  | some channel =>
    rw [hchan] at hfits
    obtain ⟨hle, hsub⟩ := toNat_window_sub hfits
    simp only [if_pos hle]
    generalize channel.senderWindowSize - UInt32.ofNat data.length = left at hsub
    have hshrink := h.shrink hc hchan hsub
    split
    · rename_i hsmall
      have hless : left.toNat ≤ target.toNat := by
        rw [UInt32.lt_iff_toNat_lt, UInt32.toNat_div] at hsmall
        exact (Nat.le_of_lt hsmall).trans (Nat.div_le_self ..)
      have hamount : (target - left).toNat + left.toNat = target.toNat := by
        rw [UInt32.toNat_sub_of_le _ _ (UInt32.le_iff_toNat_le.mpr hless)]
        omega
      have hentry := hshrink.balance id { channel with senderWindowSize := left } (by
        rw [Session.entries_eq (Session.encrypted_wrote ..)]
        simp [Encrypted.setChannel])
      have hreceiver := hshrink.receiver id
      rw [debt_self] at hentry hreceiver
      have he : Event.credit (.wrote (.channel id channel.recipientChannel
          (.windowAdjust (target - left).toNat))) = some (id, .granted (target - left).toNat) := rfl
      refine hshrink.move ?_ he
        (fun i hi => ?_) (fun _ _ => rfl) (fun _ _ => rfl) (fun channel' hc' => ?_) ?_ ?_
      · simp [Encrypted.setChannel, Encrypted.pushChannel]
      · simp [Session.entries, Encrypted.setChannel, Encrypted.pushChannel,
          Function.update_of_ne hi]
      · have hent : some { channel with senderWindowSize := target } = some channel' := by
          rw [← hc', Session.entries_eq (Session.encrypted_wrote ..)]
          simp [Encrypted.setChannel]
        cases hent
        rw [debt_self]
        dsimp only [Ledger.post] at hentry ⊢
        omega
      · rw [debt_self]
        dsimp only [Ledger.post] at hentry ⊢
        omega
      · rw [debt_self]
        exact hreceiver
    · simpa [Encrypted.setChannel] using hshrink

theorem wp_adjustWindowSize {enc : Encrypted} {hmsg : AppM.IsData pkt}
    {hid : pkt.bind recipientNumber? = some id} {target : Nat} {E : Exn → Session K C X → Prop}
    (hc : s.common.encrypted = some enc) (hfits : data.length ≤ enc.senderWindowSize id)
    (h : Settled s) :
    wp (AppM.adjustWindowSize hmsg hid data target : AppM start P pkt X Bool).run
      (fun _ t => Flow (debt id data.length) (debt id data.length) t) E s := by
  simp only [AppM.adjustWindowSize, Confined.tryMove, Confined.tryMoves, wp, hc]
  exact h.account hc hfits

/-- The receiver of the channel gets the data, if there is one. -/
theorem wp_deliverToChannel {hmsg : AppM.IsData pkt} {m : ChannelMsg} {hm : m.payload.isSome = true}
    {E : Exn → Session K C X → Prop} (hdata : m.payload = some data)
    (h : Flow (debt id data.length) (debt id data.length) s) :
    wp (AppM.deliverToChannel hmsg id m hm : AppM start P pkt X Unit).run
      (fun _ t => Flow (debt id data.length) (fun _ => 0) t) E s := by
  rw [AppM.deliverToChannel, Confined.wp_run_bind, Confined.run_read, wp_get]
  cases s.channels id with
  | none =>
    exact ⟨h.lawful, h.balance, h.credit, fun i => (Nat.le_add_right ..).trans (h.receiver i)⟩
  | some chan =>
    have hr := h.receiver id
    have hcredit := h.credit id
    rw [debt_self] at hr hcredit
    have he : (Event.toChannel id chan m).credit = some (id, .toReceiver data.length) := by
      simp [Event.credit, hdata]
    refine h.move (Session.events_record _) he (fun _ _ => rfl) (fun _ _ => rfl)
      (fun i hi => (debt_ne _ hi).symm) (fun channel hc => ?_) ?_ ?_
    · exact h.balance id channel hc
    · rw [debt_self]
      exact hcredit
    · rw [debt_self]
      simpa [Ledger.post] using hr

/-- The application gets the data. -/
theorem deliver {e : Event} (he : e.credit = some (id, .toHandler size))
    (h : Flow (debt id size) (fun _ => 0) s) : Settled (s.record e) := by
  have hr := h.receiver id
  have hcredit := h.credit id
  rw [debt_self] at hr hcredit
  refine h.move (Session.events_record _) he (fun _ _ => rfl) (fun i hi => (debt_ne _ hi).symm)
    (fun _ _ => rfl) (fun channel hc => ?_) ?_ ?_
  · have hb := h.balance id channel hc
    rw [debt_self] at hb
    simpa [Ledger.post, Nat.add_assoc] using hb
  · simpa [Ledger.post] using hcredit
  · simpa [Ledger.post] using hr

end Flow

end Data

end Edgessh.Russh
