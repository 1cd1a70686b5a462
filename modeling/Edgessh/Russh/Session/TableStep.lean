import Edgessh.Russh.Session.Calm

/-!
# What a step does to the channel table

`TableStep` says of every step outside a key exchange what it does to the channel table and which
events about channels it leaves. The steps that have nothing to do with channels are `Aside`: those
of the key exchange and of the authentication are, and many of `AppStep`.
-/

namespace Edgessh.Russh

/-- A packet about a channel. -/
def Message.isAboutChannel : Message → Bool
  | channel .. | channelOpen .. | channelOpenConfirmation .. | channelOpenFailure .. => true
  | _ => false

/-- An event that has nothing to do with channels. -/
def Event.isAside : Event → Bool
  | received _ | called .. | asserted .. | confirmed _ | failed _ => false
  | numbered _ | noted .. | dropped _ | refused _ => false
  | wrote m => !m.isAboutChannel
  | _ => true

theorem Event.isAside_of_isCalm {e : Event} (h : e.isCalm = true) : e.isAside = true := by
  cases e <;> simp_all [isCalm, isAside]

theorem Event.isAside_of_isObservation {e : Event} (h : e.isObservation = true) :
    e.isAside = true := by
  cases e <;> simp_all [isObservation, isAside]

variable {K C X : Type}

/-- A step that has nothing to do with channels. -/
structure Aside (s t : Session K C X) : Prop where
  events : ∃ new, t.events = s.events ++ new ∧ ∀ e ∈ new, e.isAside = true
  entries : ∀ id, t.entries id = s.entries id

namespace Aside

variable {s t : Session K C X}

theorem refl (s : Session K C X) : Aside s s := ⟨⟨[], by simp, by simp⟩, fun _ => rfl⟩

theorem of_calm (h : Calm s t) : Aside s t := by
  obtain ⟨new, hev, hnew⟩ := h.events
  exact ⟨⟨new, hev, fun e he => Event.isAside_of_isCalm (hnew e he)⟩, h.entries⟩

theorem record {e : Event} (h : e.isAside = true) : Aside s (s.record e) :=
  ⟨⟨[e], rfl, by simpa using h⟩, fun _ => rfl⟩

/-- A packet that is about no channel is written. -/
theorem push {enc : Encrypted} {m : Message} (hc : s.common.encrypted = some enc)
    (hm : m.isAboutChannel = false) : Aside s (s.wrote (enc.push m) [m]) := by
  refine ⟨⟨[.wrote m], rfl, by simpa [Event.isAside] using hm⟩, fun id => ?_⟩
  rw [Session.entries_eq hc]
  rfl

end Aside

/-- What a step outside a key exchange does to the channel table. -/
inductive TableStep (role : Role) (pkt : Option Bytes) (s : Session K C X) :
    Session K C X → Prop
  | aside {t} : Aside s t → TableStep role pkt s t
  | write {enc enc' new} : s.common.encrypted = some enc → EncStep none enc enc' new →
      TableStep role pkt s (s.wrote enc' new)
  | called {enc id m asserts} : s.common.encrypted = some enc →
      asserts.Sublist (enc.assertion id) →
      (m.isAnswer = true → ∀ channel, enc.channels id = some channel → channel.confirmed = true →
        channel.wantsReply = false) →
      TableStep role pkt s (s.recordAll (.called id m (enc.confirmed? id) :: asserts))
  | call {enc enc' id m asserts new} : s.common.encrypted = some enc →
      asserts.Sublist (enc.assertion id) → EncStep (some id) enc enc' new → m.isAnswer = false →
      TableStep role pkt s ((s.recordAll (.called id m (enc.confirmed? id) :: asserts)).wrote enc' new)
  | answerChannel {enc id channel m} (cm : ChannelMsg) : s.common.encrypted = some enc →
      enc.channels id = some channel → channel.confirmed = true → channel.wantsReply = true →
      (cm = .success ∧ m = .success ∨ cm = .failure ∧ m = .failure) →
      TableStep role pkt s ((s.recordAll [.called id cm (some true), .asserted id true]).wrote
        ((enc.setChannel id { channel with wantsReply := false }).push
          (.channel id channel.recipientChannel m)) [.channel id channel.recipientChannel m])
  | refuse {enc} (id) (reason : ChannelOpenFailure) (description language) :
      s.common.encrypted = some enc → TableStep role pkt s ((s.record (.refused id)).wrote
        (enc.push (.channelOpenFailure id reason.code description language))
        [.channelOpenFailure id reason.code description language])
  | openChannel {enc id} (kind windowSize maximumPacketSize suffix chan) :
      s.common.encrypted = some enc → enc.channels id = none →
      TableStep role pkt s (s.openChannel
        (.channelOpen kind id windowSize maximumPacketSize suffix) id
        (.opened windowSize maximumPacketSize id) chan enc)
  | acceptChannel {enc channel m} (id window maximumPacketSize chan) :
      pkt.bind channelOpen? = some m → s.common.encrypted = some enc →
      channel.confirmed = true → channel.recipientChannel = m.recipientChannel →
      channel.wantsReply = false →
      TableStep role pkt s (s.openChannel
        (.channelOpenConfirmation m.recipientChannel id window maximumPacketSize) id channel chan
        enc)
  | reject {enc m} (reason message) : pkt.bind channelOpen? = some m →
      s.common.encrypted = some enc →
      TableStep role pkt s (s.wrote (enc.push (m.fail reason message)) [m.fail reason message])
  | confirm {enc channel c} : pkt.bind channelOpenConfirmation? = some c →
      s.common.encrypted = some enc → enc.channels c.recipientChannel = some channel →
      TableStep role pkt s ((s.record (.confirmed c)).setEncrypted
        (enc.setChannel c.recipientChannel (channel.confirm c)))
  | fail {enc id channel} : firstByte? pkt = some Msg.channelOpenFailure →
      pkt.bind recipientNumber? = some id → s.common.encrypted = some enc →
      enc.channels id = some channel →
      TableStep role pkt s ((s.record (.failed id)).setEncrypted (enc.removeChannel id))
  | number {enc enc' id m} : pkt.bind channelOpen? = some m → s.common.encrypted = some enc →
      EncStep none enc enc' [] → enc'.channels id = none →
      TableStep role pkt s ((s.record (.numbered id)).setEncrypted enc')
  | drop {enc id} : firstByte? pkt = some Msg.channelClose →
      pkt.bind recipientNumber? = some id → s.common.encrypted = some enc →
      TableStep role pkt s ((s.record (.dropped id)).setEncrypted (enc.removeChannel id))
  | closeByPeer {enc enc' id new} : role = .client → firstByte? pkt = some Msg.channelClose →
      pkt.bind recipientNumber? = some id → s.common.encrypted = some enc →
      EncStep (some id) enc enc' new → TableStep role pkt s (s.wrote enc' new)
  | noteRequest {enc id wantsReply channel} :
      pkt.bind channelRequest? = some (id, wantsReply) → s.common.encrypted = some enc →
      enc.channels id = some channel →
      TableStep role pkt s ((s.record (.noted id wantsReply)).setEncrypted
        (enc.setChannel id { channel with wantsReply }))
  | answerRequest {enc id m} : role = .client → pkt.bind answeredRequest? = some id →
      m.isAnswer = true → s.common.encrypted = some enc →
      TableStep role pkt s (s.wrote (enc.push (.channel id id m)) [.channel id id m])
  | account {enc enc' id channel new} (window : UInt32) : AppM.IsData pkt →
      pkt.bind recipientNumber? = some id → s.common.encrypted = some enc →
      enc.channels id = some channel →
      enc'.channels = Function.update enc.channels id
        (some { channel with senderWindowSize := window }) →
      (∀ m ∈ new, ∃ amount, m = .channel id channel.recipientChannel (.windowAdjust amount)) →
      TableStep role pkt s (s.wrote enc' new)

/-- What accounting for data does to an entry. -/
theorem Encrypted.adjustWindowSize_of_some {enc : Encrypted} {id : ChannelId}
    {channel : ChannelParams} (hch : enc.channels id = some channel) (data : Bytes)
    (target : UInt32) : ∃ window new,
      (enc.adjustWindowSize id data target).1.channels = Function.update enc.channels id
        (some { channel with senderWindowSize := window }) ∧
      (enc.adjustWindowSize id data target).1.write = enc.write ++ new ∧
      ∀ m ∈ new, ∃ amount, m = .channel id channel.recipientChannel (.windowAdjust amount) := by
  unfold adjustWindowSize
  simp only [hch]
  generalize (if UInt32.ofNat data.length ≤ channel.senderWindowSize then
    channel.senderWindowSize - UInt32.ofNat data.length else channel.senderWindowSize) = size
  split
  · exact ⟨target, _, rfl, rfl, by simp⟩
  · exact ⟨size, [], rfl, by simp [setChannel], by simp⟩

section Entries

variable {s t : Session K C X} {enc enc' : Encrypted} {id : ChannelId}

/-- Every entry comes from one that was there and that `R` relates to it. -/
def EntriesFrom (R : ChannelParams → ChannelParams → Prop) (s t : Session K C X) : Prop :=
  ∀ id channel', t.entries id = some channel' → ∃ channel, s.entries id = some channel ∧
    R channel channel'

section EntriesFrom

variable {R : ChannelParams → ChannelParams → Prop}
  (hR : ∀ channel channel', channel.Kept channel' → R channel channel')

include hR

theorem EntriesFrom.same (h : ∀ id, t.entries id = s.entries id) : EntriesFrom R s t := by
  intro id channel' hc'
  exact ⟨channel', h id ▸ hc', hR _ _ (.refl channel')⟩

/-- The entry of one channel is replaced. -/
theorem EntriesFrom.replaced {channel channel' : ChannelParams} (hch : s.entries id = some channel)
    (ht : t.entries id = some channel' ∧ ∀ i, i ≠ id → t.entries i = s.entries i)
    (hc : R channel channel') : EntriesFrom R s t := by
  intro i c hi
  by_cases hid : i = id
  · subst hid
    obtain rfl : channel' = c := by simpa [ht.1] using hi
    exact ⟨channel, hch, hc⟩
  · exact ⟨c, ht.2 i hid ▸ hi, hR _ _ (.refl c)⟩

theorem EncChange.entriesFrom {on : Option ChannelId} {new : List Message}
    (h : EncChange on enc enc' new) (hc : s.common.encrypted = some enc)
    (ht : t.common.encrypted = some enc') : EntriesFrom R s t := by
  intro i channel' hc'
  rw [Session.entries_eq ht] at hc'
  obtain ⟨channel, hch, hk⟩ := h.entry i channel' hc'
  exact ⟨channel, (Session.entries_eq hc i).trans hch, hR _ _ hk⟩

end EntriesFrom

/-- The table after one entry has been replaced. -/
theorem Session.entries_update {c : Option ChannelParams}
    (hc : s.common.encrypted = some enc) (ht : t.common.encrypted = some enc')
    (hchannels : enc'.channels = Function.update enc.channels id c) :
    t.entries id = c ∧ ∀ i, i ≠ id → t.entries i = s.entries i := by
  refine ⟨?_, fun i hi => ?_⟩
  · rw [Session.entries_eq ht, hchannels, Function.update_self]
  · rw [Session.entries_eq ht, Session.entries_eq hc, hchannels, Function.update_of_ne hi]

theorem Session.entries_openChannel (m : Message) (channel : ChannelParams)
    (chan : Option ChannelRef) (hc : s.common.encrypted = some enc) :
    (s.openChannel m id channel chan enc).entries id = some channel ∧
      ∀ i, i ≠ id → (s.openChannel m id channel chan enc).entries i = s.entries i :=
  Session.entries_update (t := s.openChannel m id channel chan enc) hc rfl rfl

end Entries

theorem AppStep.table {start : KexStart K C} {P : Primitives} {pkt : Option Bytes}
    {s t : Session K C X} (h : AppStep start P pkt s t) : TableStep start.role pkt s t := by
  cases h with
  | frame h => exact .aside (.of_calm (.of_frame h))
  | observe h => exact .aside (.record (Event.isAside_of_isObservation h))
  | readClock _ => exact .aside (.record rfl)
  | write hc h => exact .write hc h
  | called hc ha hm => exact .called hc ha hm
  | call hc ha h hm => exact .call hc ha h hm
  | answerChannel cm hc hch hconf hw h => exact .answerChannel cm hc hch hconf hw h
  | refuse id reason description language hc => exact .refuse id reason description language hc
  | openChannel kind windowSize maximumPacketSize suffix chan hc _ hnone =>
    exact .openChannel kind windowSize maximumPacketSize suffix chan hc hnone
  | acceptChannel id window maximumPacketSize chan hm hc hconf _ hr hw =>
    exact .acceptChannel id window maximumPacketSize chan hm hc hconf hr hw
  | reject reason message hm hc => exact .reject reason message hm hc
  | insertChannel id chan _ =>
    exact .aside ⟨⟨[], by simp [Session.events], by simp⟩, fun _ => rfl⟩
  | confirm hm hc hch => exact .confirm hm hc hch
  | fail hm hid hc hch => exact .fail hm hid hc hch
  | number hm hc h hnone => exact .number hm hc h hnone
  | drop hm hid hc => exact .drop hm hid hc
  | closeByPeer hr hm hid hc h => exact .closeByPeer hr hm hid hc h
  | noteRequest hm hc hch => exact .noteRequest hm hc hch
  | answerRequest hr hreq ha hc => exact .answerRequest hr hreq ha hc
  | @account enc id data target hm hid hc =>
    cases hch : enc.channels id with
    | none =>
      have hsame : enc.adjustWindowSize id data target = (enc, false) := by
        simp [Encrypted.adjustWindowSize, hch]
      refine .aside ⟨⟨[], by simp [Session.adjustWindowSize, hsame], by simp⟩, fun i => ?_⟩
      rw [Session.entries_eq hc]
      simp [Session.adjustWindowSize, hsame, Session.entries]
    | some channel =>
      obtain ⟨window, new, hchannels, hwrite, hnew⟩ :=
        Encrypted.adjustWindowSize_of_some hch data target
      have hdrop : (enc.adjustWindowSize id data target).1.write.drop enc.write.length = new := by
        rw [hwrite, List.drop_left]
      exact .account window hm hid hc hch hchannels fun m hmem => hnew m (hdrop ▸ hmem)
  | @deliver e hm he =>
    refine .aside (.record ?_)
    cases e <;> simp_all [Event.delivered, Event.isAside]
  | serve _ _ _ => exact .aside (.record rfl)
  | @auth enc enc' new hc h =>
    refine .aside ⟨⟨new, by simp, fun e he => ?_⟩, fun id => ?_⟩
    · cases h with
      | accepted => cases he
      | @requested _ _ m _ _ hm _ =>
        obtain rfl := List.mem_singleton.mp he
        cases m <;> simp_all [Event.isAside, Message.isAboutChannel, Message.isAuthRequest]
      | answered => cases he
      | succeeded =>
        obtain rfl := List.mem_singleton.mp he
        rfl
    · rw [Session.entries_eq hc, ← h.channels]
      rfl
  | globalRequest name data _ =>
    refine .aside ⟨⟨_, Session.events_globalRequest _ name _ data, ?_⟩, fun id => ?_⟩
    · cases s.common.encrypted <;> simp [Event.isAside, Message.isAboutChannel]
    · unfold Session.globalRequest
      dsimp only
      split
      · rfl
      · rename_i enc hc
        rw [Session.entries_eq (s := s) hc]
        rfl
  | takeReply tell _ =>
    refine .aside ⟨⟨_, Session.events_takeReply tell, fun e he => ?_⟩, fun _ => rfl⟩
    rcases Session.mem_takeReply he with rfl | ⟨p, rfl⟩ <;> rfl
  | @answer enc m _ hm hc =>
    exact .aside (.push hc (by cases m <;> simp_all [Message.isReply, Message.isAboutChannel]))
  | @replyCalled enc m hm hc =>
    refine .aside ⟨⟨[.replyCalled, .wrote m], by simp, ?_⟩, fun id => ?_⟩
    · cases m <;> simp_all [Message.isReply, Message.isAboutChannel, Event.isAside]
    · rw [Session.entries_eq hc]
      rfl
  | unsealed m _ _ => exact .aside (.record rfl)
  | flush hc =>
    obtain ⟨done, rest, -, hev, henc, -⟩ := Session.sealWrite_spec (s := s) (P := P)
    refine .aside ⟨⟨_, hev, fun e he => ?_⟩, fun id => ?_⟩
    · rcases List.mem_cons.mp he with rfl | he
      · rfl
      · obtain ⟨m, -, n, rfl⟩ := mem_sealedPackets he
        rfl
    · rw [Session.entries_eq henc, Session.entries_eq hc]
  | beginRekey _ _ _ hb => exact .aside (.of_calm (.beginRekey hb))

/-- Nothing is read by the way. -/
structure Unread (s t : Session K C X) : Prop where
  events : ∃ new, t.events = s.events ++ new ∧ ∀ e ∈ new, e.isReceived = false

theorem AppStep.unread {start : KexStart K C} {P : Primitives} {pkt : Option Bytes}
    {s t : Session K C X} (h : AppStep start P pkt s t) : Unread s t := by
  obtain ⟨new, hev, hnew⟩ := h.events
  refine ⟨new, hev, fun e he => ?_⟩
  have happ := hnew e he
  cases e <;> simp_all [Event.isApp, Event.isReceived]

end Edgessh.Russh
