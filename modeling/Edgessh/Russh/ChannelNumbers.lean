import Edgessh.Russh.Opening

/-!
# The peer's number of a channel

Each side gives a channel a number of its own, and a packet about a channel carries the number of
the side that reads it. The packets that a session writes carry the number that the peer has
given, except for four kinds: the answer of a client to a CHANNEL_REQUEST and the
`channel_open_failure` of a server carry the number of this side, and what is written about a
channel that the peer has not confirmed carries a zero.
-/

namespace Edgessh.Russh
open Edgessh.Command Edgessh.Run

/-- The numbers that the peer gives. -/
structure PeerNumbers where
  /-- That in the CHANNEL_OPEN which is answered. -/
  offered : Option Nat := none
  /-- The CHANNEL_OPEN_CONFIRMATION that is worked on. -/
  confirmation : Option ChannelOpenConfirmation := none
  number : ChannelId → Option Nat := fun _ => none

namespace PeerNumbers

def step (n : PeerNumbers) : Event → PeerNumbers
  | .received buf =>
    { n with
      offered := (channelOpen? buf).map (·.recipientChannel)
      confirmation := channelOpenConfirmation? buf }
  | .wrote (.channelOpen _ id _ _ _) => { n with number := Function.update n.number id none }
  | .wrote (.channelOpenConfirmation _ id _ _) =>
    { n with number := Function.update n.number id n.offered }
  | .confirmed c =>
    if n.confirmation = some c then
      { n with number := Function.update n.number c.recipientChannel (some c.senderChannel) }
    else n
  | _ => n

/-- The numbers that the peer has given. -/
def of (events : List Event) : PeerNumbers := events.foldl step {}

@[simp] theorem of_concat (events : List Event) (e : Event) :
    of (events ++ [e]) = (of events).step e := by
  simp [of]

/-- An event after which the numbers are the same. -/
def isStill : Event → Bool
  | .received _ | .confirmed _ => false
  | .wrote m => m.opens.isNone
  | _ => true

theorem step_of_isStill {n : PeerNumbers} {e : Event} (h : isStill e = true) : n.step e = n := by
  unfold step
  split <;> simp_all [isStill, Message.opens]

theorem of_append {events new : List Event} (h : ∀ e ∈ new, isStill e = true) :
    of (events ++ new) = of events := by
  induction new generalizing events with
  | nil => simp
  | cons e new ih =>
    rw [List.append_cons, ih fun x hx => h x (List.mem_cons_of_mem e hx), of_concat,
      step_of_isStill (h e List.mem_cons_self)]

/-- What is being answered changes with the next packet only. -/
theorem offered_append (events : List Event) {new : List Event}
    (h : ∀ e ∈ new, e.isReceived = false) :
    (of (events ++ new)).offered = (of events).offered ∧
      (of (events ++ new)).confirmation = (of events).confirmation := by
  induction new generalizing events with
  | nil => simp
  | cons e new ih =>
    have hstep : ((of events).step e).offered = (of events).offered ∧
        ((of events).step e).confirmation = (of events).confirmation := by
      have he := h e List.mem_cons_self
      unfold step
      split <;>
        first | exact ⟨rfl, rfl⟩ | (split <;> exact ⟨rfl, rfl⟩) | simp_all [Event.isReceived]
    obtain ⟨hoffered, hconfirmation⟩ :=
      ih (events ++ [e]) fun x hx => h x (List.mem_cons_of_mem e hx)
    rw [of_concat] at hoffered hconfirmation
    rw [List.append_cons]
    exact ⟨hoffered.trans hstep.1, hconfirmation.trans hstep.2⟩

theorem isStill_of_isAside {e : Event} (h : e.isAside = true) : isStill e = true := by
  unfold isStill
  split <;> simp_all [Event.isAside]
  rename_i m
  cases m <;> simp_all [Message.isAboutChannel, Message.opens]

/-- What is written about a channel carries the number that the peer has given it. -/
def carried (n : PeerNumbers) : Event → Bool
  | .wrote (.channel id recipient _) => n.number id = some recipient
  | .wrote (.channelOpenConfirmation recipient ..) => n.offered = some recipient
  | .wrote (.channelOpenFailure recipient ..) => n.offered = some recipient
  | _ => true

/-- The application uses no channel that the peer has not confirmed, and calls
`channel_open_failure` with the number that the peer has given. -/
def allowed (n : PeerNumbers) : Event → Bool
  | .called _ _ confirmed => confirmed ≠ some false
  | .refused id => n.offered = some id
  | _ => true

theorem carried_of_isAside {e : Event} (h : e.isAside = true) (n : PeerNumbers) :
    n.carried e = true := by
  unfold carried
  split <;> simp_all [Event.isAside, Message.isAboutChannel]

end PeerNumbers

/-- Every packet about a channel carries the peer's number. -/
def NumberLaw (pre : List Event) (e : Event) : Prop := (PeerNumbers.of pre).carried e = true

/-- The calls of the application are as they have to be. -/
def NumberedCalls (pre : List Event) (e : Event) : Prop := (PeerNumbers.of pre).allowed e = true

instance NumberLaw.decidable (pre : List Event) (e : Event) : Decidable (NumberLaw pre e) :=
  inferInstanceAs (Decidable (_ = true))

instance NumberedCalls.decidable (pre : List Event) (e : Event) :
    Decidable (NumberedCalls pre e) :=
  inferInstanceAs (Decidable (_ = true))

/-- The fields of an entry that say to whom packets go. -/
structure ChannelParams.Steady (channel channel' : ChannelParams) : Prop where
  recipientChannel : channel'.recipientChannel = channel.recipientChannel
  confirmed : channel'.confirmed = channel.confirmed
  dormant : channel.Dormant → channel'.Dormant

theorem ChannelParams.Kept.steady {channel channel' : ChannelParams} (h : channel.Kept channel') :
    channel.Steady channel' :=
  ⟨h.recipientChannel, h.confirmed, h.dormant⟩

variable {K C X : Type}

/-- The entries have the numbers of the peer. -/
structure NumbersHeld (s : Session K C X) : Prop where
  dormant : ∀ id channel, s.entries id = some channel → channel.confirmed = false →
    channel.Dormant
  number : ∀ id channel, s.entries id = some channel → channel.confirmed = true →
    (PeerNumbers.of s.events).number id = some channel.recipientChannel

namespace NumbersHeld

variable {s t : Session K C X} {new : List Event} {id : ChannelId}

/-- Events after which the numbers are the same. -/
theorem extend (h : NumbersHeld s) (hev : t.events = s.events ++ new)
    (hstill : ∀ e ∈ new, PeerNumbers.isStill e = true)
    (hentry : EntriesFrom ChannelParams.Steady s t) : NumbersHeld t := by
  refine ⟨fun id channel' hc' hconf => ?_, fun id channel' hc' hconf => ?_⟩
  · obtain ⟨channel, hc, hs⟩ := hentry id channel' hc'
    exact hs.dormant (h.dormant id channel hc (hs.confirmed ▸ hconf))
  · obtain ⟨channel, hc, hs⟩ := hentry id channel' hc'
    rw [hev, PeerNumbers.of_append hstill, hs.recipientChannel]
    exact h.number id channel hc (hs.confirmed ▸ hconf)

/-- The entry of a channel is replaced by one with the same number. -/
theorem replace {channel channel' : ChannelParams} (h : NumbersHeld s)
    (hev : t.events = s.events ++ new) (hstill : ∀ e ∈ new, PeerNumbers.isStill e = true)
    (hch : s.entries id = some channel)
    (ht : t.entries id = some channel' ∧ ∀ i, i ≠ id → t.entries i = s.entries i)
    (hsteady : channel.Steady channel') : NumbersHeld t :=
  h.extend hev hstill (.replaced (fun _ _ hk => hk.steady) hch ht hsteady)

/-- One entry gets a number of the peer, or none. -/
theorem renumber (new : List Event) {e : Event} {channel : ChannelParams} {number : Option Nat}
    (h : NumbersHeld s) (hev : t.events = s.events ++ (new ++ [e]))
    (hstill : ∀ e ∈ new, PeerNumbers.isStill e = true)
    (hstep : (PeerNumbers.of s.events).step e =
      { PeerNumbers.of s.events with
        number := Function.update (PeerNumbers.of s.events).number id number })
    (ht : t.entries id = some channel ∧ ∀ i, i ≠ id → t.entries i = s.entries i)
    (hdormant : channel.confirmed = false → channel.Dormant)
    (hnumber : channel.confirmed = true → number = some channel.recipientChannel) :
    NumbersHeld t := by
  have hnumbers : PeerNumbers.of t.events = (PeerNumbers.of s.events).step e := by
    rw [hev, ← List.append_assoc, PeerNumbers.of_concat, PeerNumbers.of_append hstill]
  refine ⟨fun i c hi hconf => ?_, fun i c hi hconf => ?_⟩
  · by_cases hid : i = id
    · subst hid
      obtain rfl : channel = c := by simpa [ht.1] using hi
      exact hdormant hconf
    · exact h.dormant i c (ht.2 i hid ▸ hi) hconf
  · rw [hnumbers, hstep]
    by_cases hid : i = id
    · subst hid
      obtain rfl : channel = c := by simpa [ht.1] using hi
      simpa using hnumber hconf
    · dsimp only
      rw [Function.update_of_ne hid]
      exact h.number i c (ht.2 i hid ▸ hi) hconf

end NumbersHeld

/-- Nothing has been written with another number, if the application has done its part. -/
structure Numbered (s : Session K C X) : Prop extends NumbersHeld s where
  lawful : Traced NumberedCalls s.events → Traced NumberLaw s.events

/-- A step of which at most the last event changes the numbers. -/
theorem Numbered.step {s t : Session K C X} {new : List Event} (h : Numbered s)
    (hheld : NumbersHeld t) (hev : t.events = s.events ++ new)
    (hstill : ∀ e ∈ new.dropLast, PeerNumbers.isStill e = true)
    (hlaw : (∀ e ∈ new, (PeerNumbers.of s.events).allowed e = true) →
      ∀ e ∈ new, (PeerNumbers.of s.events).carried e = true) : Numbered t := by
  have hsame : ∀ pre e post, new = pre ++ e :: post →
      PeerNumbers.of (s.events ++ pre) = PeerNumbers.of s.events := fun pre e post hnew =>
    PeerNumbers.of_append fun x hx => hstill x (by
      rw [hnew, List.dropLast_append_of_ne_nil (List.cons_ne_nil e post)]
      exact List.mem_append_left _ hx)
  refine ⟨hheld, fun hcalls => ?_⟩
  rw [hev, traced_append] at hcalls ⊢
  refine ⟨h.lawful hcalls.1, fun pre e post hnew => ?_⟩
  rw [NumberLaw, hsame pre e post hnew]
  refine hlaw (fun x hx => ?_) e (by simp [hnew])
  obtain ⟨pre', post', hx'⟩ := List.append_of_mem hx
  have hx := hcalls.2 pre' x post' hx'
  rwa [NumberedCalls, hsame pre' x post' hx'] at hx

section Steps

variable {s t : Session K C X} {enc enc' : Encrypted} {on : Option ChannelId}
  {ms : List Message}

theorem isStill_wrote (h : ∀ m ∈ ms, m.isPlain = true) :
    ∀ e ∈ ms.map Event.wrote, PeerNumbers.isStill e = true := by
  intro e he
  obtain ⟨m, hm, rfl⟩ := List.mem_map.mp he
  have hplain := h m hm
  cases m with
  | channelOpen | channelOpenConfirmation => cases hplain
  | _ => rfl

/-- Packets about a channel that has been confirmed, or about `on`. -/
theorem NumbersHeld.carried_wrote (h : NumbersHeld s) (hc : s.common.encrypted = some enc)
    (hs : EncStep on enc enc' ms)
    (hon : ∀ id channel, on = some id → enc.channels id = some channel →
      channel.confirmed = true) :
    ∀ e ∈ ms.map Event.wrote, (PeerNumbers.of s.events).carried e = true := by
  intro e he
  obtain ⟨m, hm, rfl⟩ := List.mem_map.mp he
  have hplain := hs.plain m hm
  have hanswer := hs.noAnswer m hm
  cases m with
  | channel id recipient msg =>
    obtain ⟨channel, hch, rfl, hdormant⟩ := hs.directed id recipient msg hm
    have hentry : s.entries id = some channel := (Session.entries_eq hc id).trans hch
    have hconf : channel.confirmed = true := by
      by_contra hn
      rw [Bool.not_eq_true] at hn
      rcases hdormant with hd | hd
      · simp [hon id channel hd hch] at hn
      · exact hd (h.dormant id channel hentry hn)
    simpa [PeerNumbers.carried] using h.number id channel hentry hconf
  | channelOpenConfirmation => cases hplain
  | channelOpenFailure => cases hanswer
  | _ => rfl

theorem isStill_called {id : ChannelId} {m : ChannelMsg} {c : Option Bool} {asserts : List Event}
    (ha : asserts.Sublist (enc.assertion id)) :
    ∀ e ∈ .called id m c :: asserts, PeerNumbers.isStill e = true ∧
      ∀ n : PeerNumbers, n.carried e = true := by
  intro e he
  rcases Event.mem_called ha he with rfl | ⟨channel, -, rfl⟩ <;> exact ⟨rfl, fun _ => rfl⟩

end Steps

/-- The channel that a packet touches whether it has been confirmed or not: the session may write
about it. -/
def touched? (role : Role) (buf : Bytes) : Option ChannelId :=
  match buf.head? with
  | some msg =>
    if msg = Msg.channelData ∨ msg = Msg.channelExtendedData ∨
        msg = Msg.channelClose ∧ role = .client then recipientNumber? buf
    else none
  | none => none

/-- The packet touches no channel that has not been confirmed; and a client answers requests on
channels with the same two numbers. -/
def meetsNumbers (role : Role) (buf : Bytes) (s : Session K C X) : Bool :=
  ((touched? role buf).all fun id => (s.entries id).all fun channel => channel.confirmed) &&
    (role = .server || (answeredRequest? buf).all fun id => (s.entries id).any fun channel =>
      channel.confirmed && channel.recipientChannel == id)

/-- The numbers that the packet gives are those that are answered. -/
structure NumbersOffered (pkt : Option Bytes) (s : Session K C X) : Prop where
  offered : ∀ m, pkt.bind channelOpen? = some m →
    (PeerNumbers.of s.events).offered = some m.recipientChannel
  confirmation : ∀ c, pkt.bind channelOpenConfirmation? = some c →
    (PeerNumbers.of s.events).confirmation = some c

/-- What is known of the numbers while the packet is worked on. -/
structure NumbersKnown (role : Role) (pkt : Option Bytes) (s : Session K C X) : Prop
    extends NumbersOffered pkt s where
  data : AppM.IsData pkt → ∀ id channel, pkt.bind recipientNumber? = some id →
    s.entries id = some channel → channel.confirmed = true
  close : role = .client → firstByte? pkt = some Msg.channelClose → ∀ id channel,
    pkt.bind recipientNumber? = some id → s.entries id = some channel → channel.confirmed = true
  answered : role = .client → ∀ id, pkt.bind answeredRequest? = some id →
    (PeerNumbers.of s.events).number id = some id

theorem NumbersHeld.table {s t : Session K C X} {role : Role} {pkt : Option Bytes}
    (hstep : TableStep role pkt s t) (hn : NumbersOffered pkt s) (h : NumbersHeld s) :
    NumbersHeld t := by
  have hkept : ∀ channel channel' : ChannelParams, channel.Kept channel' →
      channel.Steady channel' := fun _ _ hk => hk.steady
  have hremove : ∀ {enc : Encrypted} {e : Event} (id : ChannelId), s.common.encrypted = some enc →
      PeerNumbers.isStill e = true →
      NumbersHeld ((s.record e).setEncrypted (enc.removeChannel id)) := by
    intro enc e id hc hstill
    have hs : EncChange none enc (enc.removeChannel id) [] := .removeChannel
    exact h.extend (Session.events_record _) (by simpa using hstill) (hs.entriesFrom hkept hc rfl)
  cases hstep with
  | aside ha =>
    obtain ⟨new, hev, hnew⟩ := ha.events
    exact h.extend hev (fun e he => PeerNumbers.isStill_of_isAside (hnew e he))
      (.same hkept ha.entries)
  | write hc hs =>
    exact h.extend (Session.events_wrote ..) (isStill_wrote hs.plain)
      (hs.toEncChange.entriesFrom hkept hc rfl)
  | called hc ha =>
    exact h.extend (Session.events_recordAll _) (fun e he => (isStill_called ha e he).1)
      (.same hkept fun _ => rfl)
  | call hc ha hs =>
    refine h.extend (by rw [Session.events_wrote, Session.events_recordAll, List.append_assoc])
      (fun e he => ?_) (hs.toEncChange.entriesFrom hkept hc rfl)
    exact (List.mem_append.mp he).elim (fun he => (isStill_called ha e he).1)
      (isStill_wrote hs.plain e)
  | @answerChannel enc id channel m cm hc hch hconf _ _ =>
    exact h.replace (by rw [Session.events_wrote, Session.events_recordAll, List.append_assoc])
      (by simp [PeerNumbers.isStill, Message.opens]) ((Session.entries_eq hc id).trans hch)
      (Session.entries_update hc rfl rfl) ⟨rfl, rfl, fun hd => ⟨hd.1, hd.2, hd.3, hd.4⟩⟩
  | refuse id reason description language hc =>
    exact h.extend (by rw [Session.events_wrote, Session.events_record, List.append_assoc])
      (by simp [PeerNumbers.isStill, Message.opens])
      (.same hkept fun i => (Session.entries_eq hc i).symm)
  | @openChannel enc id kind windowSize maximumPacketSize suffix chan hc hnone =>
    exact h.renumber [_] (Session.events_openChannel ..) (by simp [PeerNumbers.isStill]) rfl
      (Session.entries_openChannel _ _ chan hc) (fun _ => ⟨rfl, rfl, rfl, rfl⟩)
      fun hconf => by cases hconf
  | @acceptChannel enc channel m id window maximumPacketSize chan hm hc hconf hr =>
    refine h.renumber [_] (Session.events_openChannel ..) (by simp [PeerNumbers.isStill]) rfl
      (Session.entries_openChannel _ _ chan hc) (fun hn => ?_) fun _ => ?_
    · rw [hconf] at hn
      cases hn
    · rw [hn.offered m hm, hr]
  | reject reason message hm hc =>
    exact h.extend (Session.events_wrote ..)
      (by simp [PeerNumbers.isStill, OpenChannelMessage.fail, Message.opens])
      (.same hkept fun i => (Session.entries_eq hc i).symm)
  | @confirm enc channel c hm hc hch =>
    exact h.renumber [] (Session.events_record _) (by simp) (if_pos (hn.confirmation c hm))
      (Session.entries_update hc rfl rfl) (fun hconf => by cases hconf) fun _ => rfl
  | fail hm hid hc hch => exact hremove _ hc rfl
  | number hm hc hs _ =>
    exact h.extend (Session.events_record _) (by simp [PeerNumbers.isStill])
      (hs.toEncChange.entriesFrom hkept hc rfl)
  | drop hm hid hc => exact hremove _ hc rfl
  | closeByPeer hr hm hid hc hs =>
    exact h.extend (Session.events_wrote ..) (isStill_wrote hs.plain)
      (hs.toEncChange.entriesFrom hkept hc rfl)
  | @noteRequest enc id wantsReply channel hm hc hch =>
    exact h.replace (Session.events_record _) (by simp [PeerNumbers.isStill])
      ((Session.entries_eq hc id).trans hch) (Session.entries_update hc rfl rfl)
      ⟨rfl, rfl, fun hd => ⟨hd.1, hd.2, hd.3, hd.4⟩⟩
  | answerRequest hr hreq ha hc =>
    exact h.extend (Session.events_wrote ..) (by simp [PeerNumbers.isStill, Message.opens])
      (.same hkept fun i => (Session.entries_eq hc i).symm)
  | @account enc enc' id channel new window hm hid hc hch hchannels hnew =>
    refine h.replace (Session.events_wrote ..) (fun e he => ?_)
      ((Session.entries_eq hc id).trans hch) (Session.entries_update hc rfl hchannels)
      ⟨rfl, rfl, fun hd => ⟨hd.1, hd.2, hd.3, hd.4⟩⟩
    obtain ⟨m, hmem, rfl⟩ := List.mem_map.mp he
    obtain ⟨amount, rfl⟩ := hnew m hmem
    rfl

theorem Numbered.table {s t : Session K C X} {role : Role} {pkt : Option Bytes}
    (hstep : TableStep role pkt s t) (hn : NumbersKnown role pkt s) (h : Numbered s) :
    Numbered t := by
  have hheld : NumbersHeld t := h.toNumbersHeld.table hstep hn.toNumbersOffered
  have hstep' : ∀ {new : List Event}, t.events = s.events ++ new →
      (∀ e ∈ new, PeerNumbers.isStill e = true) →
      ((∀ e ∈ new, (PeerNumbers.of s.events).allowed e = true) →
        ∀ e ∈ new, (PeerNumbers.of s.events).carried e = true) → Numbered t :=
    fun hev hstill => h.step hheld hev fun e he => hstill e (List.mem_of_mem_dropLast he)
  cases hstep with
  | aside ha =>
    obtain ⟨new, hev, hnew⟩ := ha.events
    exact hstep' hev (fun e he => PeerNumbers.isStill_of_isAside (hnew e he))
      fun _ e he => PeerNumbers.carried_of_isAside (hnew e he) _
  | write hc hs =>
    exact hstep' (Session.events_wrote ..) (isStill_wrote hs.plain)
      fun _ => h.carried_wrote hc hs fun _ _ hi => by cases hi
  | called hc ha =>
    exact hstep' (Session.events_recordAll _) (fun e he => (isStill_called ha e he).1)
      fun _ e he => (isStill_called ha e he).2 _
  | @call enc enc' id m asserts ms hc ha hs =>
    refine hstep' (by rw [Session.events_wrote, Session.events_recordAll, List.append_assoc])
      (fun e he => ?_) (fun hcalls e he => ?_)
    · exact (List.mem_append.mp he).elim (fun he => (isStill_called ha e he).1)
        (isStill_wrote hs.plain e)
    · rcases List.mem_append.mp he with he | he
      · exact (isStill_called ha e he).2 _
      · refine h.carried_wrote hc hs (fun i channel hi hch => ?_) e he
        -- The channel of the call is one that the application may use.
        obtain rfl : id = i := by simpa using hi
        have hcall := hcalls (.called id m (enc.confirmed? id)) (by simp)
        simpa [PeerNumbers.allowed, Encrypted.confirmed?, hch] using hcall
  | @answerChannel enc id channel m cm hc hch hconf _ _ =>
    have hnumber := h.number id channel ((Session.entries_eq hc id).trans hch) hconf
    refine hstep' (by rw [Session.events_wrote, Session.events_recordAll, List.append_assoc])
      (by simp [PeerNumbers.isStill, Message.opens]) fun _ => ?_
    simpa [PeerNumbers.carried] using hnumber
  | refuse id reason description language hc =>
    refine hstep' (by rw [Session.events_wrote, Session.events_record, List.append_assoc])
      (by simp [PeerNumbers.isStill, Message.opens]) fun hcalls => ?_
    have hcall := hcalls (.refused id) (by simp)
    simpa [PeerNumbers.carried, PeerNumbers.allowed] using hcall
  | openChannel kind windowSize maximumPacketSize suffix chan hc hnone =>
    exact h.step hheld (Session.events_openChannel ..) (by simp [PeerNumbers.isStill])
      fun _ => by simp [PeerNumbers.carried]
  | acceptChannel id window maximumPacketSize chan hm hc hconf hr =>
    exact h.step hheld (Session.events_openChannel ..) (by simp [PeerNumbers.isStill])
      fun _ => by simp [PeerNumbers.carried, hn.offered _ hm]
  | reject reason message hm hc =>
    exact hstep' (Session.events_wrote ..)
      (by simp [PeerNumbers.isStill, OpenChannelMessage.fail, Message.opens])
      fun _ => by simp [PeerNumbers.carried, OpenChannelMessage.fail, hn.offered _ hm]
  | confirm hm hc hch =>
    exact h.step hheld (Session.events_record _) (by simp) fun _ => by simp [PeerNumbers.carried]
  | fail hm hid hc hch =>
    exact hstep' (Session.events_record _) (by simp [PeerNumbers.isStill])
      fun _ => by simp [PeerNumbers.carried]
  | number hm hc hs _ =>
    exact hstep' (Session.events_record _) (by simp [PeerNumbers.isStill])
      fun _ => by simp [PeerNumbers.carried]
  | drop hm hid hc =>
    exact hstep' (Session.events_record _) (by simp [PeerNumbers.isStill])
      fun _ => by simp [PeerNumbers.carried]
  | closeByPeer hr hm hid hc hs =>
    refine hstep' (Session.events_wrote ..) (isStill_wrote hs.plain)
      fun _ => h.carried_wrote hc hs fun i channel hi hch => ?_
    exact hn.close hr hm i channel (hi ▸ hid) ((Session.entries_eq hc i).trans hch)
  | noteRequest hm hc hch =>
    exact hstep' (Session.events_record _) (by simp [PeerNumbers.isStill])
      fun _ => by simp [PeerNumbers.carried]
  | answerRequest hr hreq ha hc =>
    exact hstep' (Session.events_wrote ..) (by simp [PeerNumbers.isStill, Message.opens])
      fun _ => by simp [PeerNumbers.carried, hn.answered hr _ hreq]
  | @account enc enc' id channel new window hm hid hc hch hchannels hnew =>
    have hentry := (Session.entries_eq hc id).trans hch
    have hnumber := h.number id channel hentry (hn.data hm id channel hid hentry)
    refine hstep' (Session.events_wrote ..) (fun e he => ?_) (fun _ e he => ?_)
    · obtain ⟨m, hmem, rfl⟩ := List.mem_map.mp he
      obtain ⟨amount, rfl⟩ := hnew m hmem
      rfl
    · obtain ⟨m, hmem, rfl⟩ := List.mem_map.mp he
      obtain ⟨amount, rfl⟩ := hnew m hmem
      simpa [PeerNumbers.carried] using hnumber

/-- The packet has been read, and it touches only channels that have been confirmed. -/
structure NumbersRead (role : Role) (buf : Bytes) (s : Session K C X) : Prop where
  offered : (PeerNumbers.of s.events).offered = (channelOpen? buf).map (·.recipientChannel)
  confirmation : (PeerNumbers.of s.events).confirmation = channelOpenConfirmation? buf
  meets : meetsNumbers role buf s = true

section Read

variable {s t : Session K C X} {role : Role} {buf : Bytes} {id : ChannelId}

theorem touched?_of_isData (h : AppM.IsData (some buf)) :
    touched? role buf = recipientNumber? buf := by
  unfold touched?
  rcases h with h | h <;> rw [show buf.head? = _ from h] <;> simp

theorem touched?_of_close (h : firstByte? (some buf) = some Msg.channelClose) :
    touched? .client buf = recipientNumber? buf := by
  unfold touched?
  rw [show buf.head? = _ from h]
  simp

theorem touched?_of_not_isDirected (h : isDirected buf = false) : touched? role buf = none := by
  unfold isDirected at h
  unfold touched?
  cases hhead : buf.head? with
  | none => rfl
  | some msg =>
    rw [hhead] at h
    simp_all

theorem isDirected_of_answeredRequest? (h : answeredRequest? buf = some id) :
    isDirected buf = true := by
  cases buf with
  | nil => cases h
  | cons msg r =>
    rw [answeredRequest?] at h
    split at h
    · rename_i hmsg
      simp [isDirected, hmsg]
    · cases h

theorem meetsNumbers_of_not_isDirected (h : isDirected buf = false) (s : Session K C X) :
    meetsNumbers role buf s = true := by
  have hnone : answeredRequest? buf = none := by
    cases hid : answeredRequest? buf with
    | none => rfl
    | some id =>
      rw [isDirected_of_answeredRequest? hid] at h
      cases h
  simp [meetsNumbers, touched?_of_not_isDirected h, hnone]

theorem meetsNumbers_congr (h : ∀ id, t.entries id = s.entries id) :
    meetsNumbers role buf t = meetsNumbers role buf s := by
  simp only [meetsNumbers, h]

theorem confirmed_of_meetsNumbers {channel : ChannelParams} (h : meetsNumbers role buf s = true)
    (ht : touched? role buf = some id) (hc : s.entries id = some channel) :
    channel.confirmed = true := by
  simp only [meetsNumbers, ht, Option.all_some, hc, Bool.and_eq_true] at h
  exact h.1

theorem NumbersRead.known (h : NumbersRead role buf s) (hn : Numbered s) :
    NumbersKnown role (some buf) s where
  offered m hm := by
    rw [h.offered, show channelOpen? buf = some m from hm]
    rfl
  confirmation c hc := h.confirmation.trans hc
  data hm id channel hid hc :=
    confirmed_of_meetsNumbers h.meets ((touched?_of_isData hm).trans hid) hc
  close hr hm id channel hid hc := by
    subst hr
    exact confirmed_of_meetsNumbers h.meets ((touched?_of_close hm).trans hid) hc
  answered hr id hid := by
    subst hr
    have hmeets := h.meets
    rw [meetsNumbers, show answeredRequest? buf = some id from hid] at hmeets
    cases hc : s.entries id with
    | none => simp [hc] at hmeets
    | some channel =>
      obtain ⟨-, hconf, hid'⟩ : _ ∧ channel.confirmed = true ∧ channel.recipientChannel = id := by
        simpa [hc] using hmeets
      rw [← hid']
      exact hid' ▸ hn.number id channel hc hconf

theorem NumbersRead.aside (h : NumbersRead role buf s) (ha : Aside s t) :
    NumbersRead role buf t := by
  obtain ⟨new, hev, hnew⟩ := ha.events
  have hsame : PeerNumbers.of t.events = PeerNumbers.of s.events := by
    rw [hev]
    exact PeerNumbers.of_append fun e he => PeerNumbers.isStill_of_isAside (hnew e he)
  exact ⟨hsame ▸ h.offered, hsame ▸ h.confirmation, (meetsNumbers_congr ha.entries).trans h.meets⟩

/-- A packet that touches no channel has still been read after a step. -/
theorem NumbersRead.unread (h : NumbersRead role buf s) (hbuf : isDirected buf = false)
    (hu : Unread s t) : NumbersRead role buf t := by
  obtain ⟨new, hev, hnew⟩ := hu.events
  obtain ⟨hoffered, hconfirmation⟩ := PeerNumbers.offered_append s.events hnew
  rw [← hev] at hoffered hconfirmation
  exact ⟨hoffered.trans h.offered, hconfirmation.trans h.confirmation,
    meetsNumbers_of_not_isDirected hbuf t⟩

theorem NumbersHeld.received (h : NumbersHeld s) (buf : Bytes) :
    NumbersHeld (s.record (.received buf)) := by
  refine ⟨h.dormant, fun id channel hc hconf => ?_⟩
  simpa [PeerNumbers.step] using h.number id channel hc hconf

theorem Numbered.received (h : Numbered s) (buf : Bytes) :
    Numbered (s.record (.received buf)) := by
  refine ⟨h.toNumbersHeld.received buf, fun hcalls => ?_⟩
  have hold := h.lawful (traced_concat.mp hcalls).1
  exact traced_concat.mpr ⟨hold, rfl⟩

end Read

/-- A packet of which nothing is known touches no channel. -/
theorem numbersKnown_empty (role : Role) (s : Session K C X) : NumbersKnown role (some []) s :=
  ⟨⟨nofun, nofun⟩, by simp [AppM.IsData, firstByte?], by simp [firstByte?], nofun⟩

theorem numberedInvariant (role : Role) : TableInvariant (K := K) (C := C) (X := X) role
    (fun buf s => meetsNumbers role buf s = true) (NumbersRead role) Numbered where
  aside {s t} ha h := by
    have hstep : TableStep role (some []) s t := .aside ha
    exact h.table hstep (numbersKnown_empty role s)
  ready ha h := (meetsNumbers_congr ha.entries).trans h
  cond ha h := h.aside ha
  received {s buf} hr h := by
    refine ⟨⟨?_, ?_, hr⟩, h.received buf⟩ <;> simp [PeerNumbers.step]
  own hstep hc h := h.table hstep (hc.known h)
  rest hstep h := h.table hstep (numbersKnown_empty role _)
  other hbuf hstep hu hc h := ⟨hc.unread hbuf hu, h.table hstep (hc.known h)⟩

theorem numbersHeld_of_fresh {s : Session K C X} (hc : s.common.encrypted = none) :
    NumbersHeld s := by
  refine ⟨fun id channel h => ?_, fun id channel h => ?_⟩ <;> simp [Session.entries, hc] at h

theorem numbered_of_fresh {s : Session K C X} (hev : s.events = [])
    (hc : s.common.encrypted = none) : Numbered s :=
  ⟨numbersHeld_of_fresh hc, fun _ => hev ▸ traced_nil⟩

/-- The condition on a step of a client. -/
def Client.readsNumbers (P : Primitives) (l : ClientLoop) : ClientEnv × ClientInput → Bool
  | (_, .packet payload) =>
    (openedPacket P payload l.session).all fun buf => meetsNumbers .client buf l.session
  | _ => true

/-- The condition on a step of a server. -/
def Server.readsNumbers (P : Primitives) (l : ServerLoop) : ServerEnv × ServerInput → Bool
  | (_, .packet payload) =>
    (openedPacket P payload l.session).all fun buf => meetsNumbers .server buf l.session
  | _ => true

/-- In a run in which no packet touches a channel that has not been confirmed, in which a client
is asked on channels with the same two numbers only, and in which the calls of the application are
as they have to be, every packet about a channel carries the number that the peer has given. -/
theorem channel_numbers (P : Primitives) :
    (∀ env config remoteSshid labels l,
      Along (Client.step P) (fun l label => Client.readsNumbers P l label = true)
        (Client.start P env config remoteSshid) labels →
      run (Client.step P) (Client.start P env config remoteSshid) labels = some l →
      Traced NumberedCalls l.session.events → Traced NumberLaw l.session.events) ∧
    ∀ env config remoteSshid labels l,
      Along (Server.step P) (fun l label => Server.readsNumbers P l label = true)
        (Server.start P env config remoteSshid) labels →
      run (Server.step P) (Server.start P env config remoteSshid) labels = some l →
      Traced NumberedCalls l.session.events → Traced NumberLaw l.session.events := by
  constructor
  · intro env config remoteSshid labels l hal hrun
    refine (Client.table_run (numberedInvariant _) _ (fun l env payload h buf hb => ?_)
      (numbered_of_fresh rfl rfl) hal hrun).lawful
    simpa [Client.readsNumbers, hb] using h
  · intro env config remoteSshid labels l hal hrun
    refine (Server.table_run (numberedInvariant _) _ (fun l env payload h buf hb => ?_)
      (numbered_of_fresh rfl rfl) hal hrun).lawful
    simpa [Server.readsNumbers, hb] using h

section Examples

/-- A CHANNEL_REQUEST for the channel `2`, of a name that no side knows. -/
def requestPacket (wantsReply : UInt8) : Bytes :=
  Msg.channelRequest :: encodeU32 2 ++ encodeBytes (ascii "x") ++ [wantsReply]

/-- The window of the channel `2` is enlarged under the number of the peer, which is `6` for the
client and `0` for the server. -/
theorem channel_numbers_one :
    (∃ l, run (Client.step .toy) (Client.start .toy Client.trustingSeven smallClient [])
        (openingClient [confirmationPacket, dataPacket [1, 2, 3]]) = some l ∧
      l.session.events.contains (.wrote (.channel 2 6 (.windowAdjust 3))) = true ∧
      Traced NumberLaw l.session.events) ∧
    ∃ l, run (Server.step .toy) (Server.start .toy Server.knowingFive smallServer [])
        (openingServer [dataPacket [1, 2, 3]]) = some l ∧
      l.session.events.contains (.wrote (.channel 2 0 (.windowAdjust 3))) = true ∧
      Traced NumberLaw l.session.events := by
  have hclient : ((run (Client.step .toy) (Client.start .toy Client.trustingSeven smallClient [])
      (openingClient [confirmationPacket, dataPacket [1, 2, 3]])).map fun l =>
      (l.session.events.contains (.wrote (.channel 2 6 (.windowAdjust 3))),
        decide (Traced NumberedCalls l.session.events))) = some (true, true) := by
    decide +kernel
  have hserver : ((run (Server.step .toy) (Server.start .toy Server.knowingFive smallServer [])
      (openingServer [dataPacket [1, 2, 3]])).map fun l =>
      (l.session.events.contains (.wrote (.channel 2 0 (.windowAdjust 3))),
        decide (Traced NumberedCalls l.session.events))) = some (true, true) := by
    decide +kernel
  obtain ⟨l, hl, hevents⟩ := Option.map_eq_some_iff.mp hclient
  obtain ⟨hwrote, hcalls⟩ := Prod.mk.inj hevents
  obtain ⟨l', hl', hevents'⟩ := Option.map_eq_some_iff.mp hserver
  obtain ⟨hwrote', hcalls'⟩ := Prod.mk.inj hevents'
  exact ⟨⟨l, hl, hwrote, (channel_numbers .toy).1 _ _ _ _ _ (by decide +kernel) hl
      (of_decide_eq_true hcalls)⟩,
    l', hl', hwrote', (channel_numbers .toy).2 _ _ _ _ _ (by decide +kernel) hl'
      (of_decide_eq_true hcalls')⟩

/-- A client answers a request under its own number, and a server enlarges the window of a channel
for which it has no number of the peer. -/
theorem not_channel_numbers :
    (∃ l, run (Client.step .toy) (Client.start .toy Client.trustingSeven smallClient [])
        (openingClient [confirmationPacket, requestPacket 1]) = some l ∧
      Traced NumberedCalls l.session.events ∧ ¬Traced NumberLaw l.session.events) ∧
    ∃ l, run (Server.step .toy) (Server.start .toy Server.knowingFive smallServer [])
        (openedByServer [dataPacket [1, 2, 3]]) = some l ∧
      Traced NumberedCalls l.session.events ∧ ¬Traced NumberLaw l.session.events := by
  have hclient : ((run (Client.step .toy) (Client.start .toy Client.trustingSeven smallClient [])
      (openingClient [confirmationPacket, requestPacket 1])).map fun l =>
      (decide (Traced NumberedCalls l.session.events),
        decide (Traced NumberLaw l.session.events))) = some (true, false) := by
    decide +kernel
  have hserver : ((run (Server.step .toy) (Server.start .toy Server.knowingFive smallServer [])
      (openedByServer [dataPacket [1, 2, 3]])).map fun l =>
      (decide (Traced NumberedCalls l.session.events),
        decide (Traced NumberLaw l.session.events))) = some (true, false) := by
    decide +kernel
  obtain ⟨l, hl, hevents⟩ := Option.map_eq_some_iff.mp hclient
  obtain ⟨hcalls, hlaw⟩ := Prod.mk.inj hevents
  obtain ⟨l', hl', hevents'⟩ := Option.map_eq_some_iff.mp hserver
  obtain ⟨hcalls', hlaw'⟩ := Prod.mk.inj hevents'
  exact ⟨⟨l, hl, of_decide_eq_true hcalls, of_decide_eq_false hlaw⟩,
    l', hl', of_decide_eq_true hcalls', of_decide_eq_false hlaw'⟩

end Examples

end Edgessh.Russh
