import Edgessh.Russh.ChannelNumbers

/-!
# The assertions that a channel is confirmed

`data`, `extended_data`, `channel_success` and `channel_failure` assert that the channel is
confirmed. A handler that replies on the channel of its callback relies on the session for this.
The session looks at the table when the packet is read, but not at `confirmed`: a packet for a
channel that the peer has not confirmed brings the handler to reply on it.
-/

namespace Edgessh.Russh
open Edgessh.Command Edgessh.Run

/-- The channel that a packet about a channel that is there names to the handler. -/
def namedChannel? (buf : Bytes) : Option ChannelId :=
  match buf.head? with
  | some msg =>
    if [Msg.channelData, Msg.channelExtendedData, Msg.channelEof, Msg.channelWindowAdjust,
        Msg.channelRequest].contains msg then recipientNumber? buf
    else none
  | none => none

/-- The channel on which the handler may reply: the one that the packet names, as long as this
side does not open a channel with its number. -/
def replyStep (channel : Option ChannelId) : Event → Option ChannelId
  | .received buf => namedChannel? buf
  | .confirmed c => some c.recipientChannel
  | .dropped id => some id
  | .numbered id => some id
  | .wrote (.channelOpen _ id _ _ _) => if channel = some id then none else channel
  | _ => channel

/-- The channel on which the handler may reply after these events. -/
def replyChannel? (events : List Event) : Option ChannelId := events.foldl replyStep none

@[simp] theorem replyChannel?_concat (events : List Event) (e : Event) :
    replyChannel? (events ++ [e]) = replyStep (replyChannel? events) e := by
  simp [replyChannel?]

/-- An event after which the handler may reply as before. -/
def Event.isStaying : Event → Bool
  | received _ | confirmed _ | dropped _ | numbered _ => false
  | wrote (.channelOpen ..) => false
  | _ => true

theorem replyStep_of_isStaying {channel : Option ChannelId} {e : Event} (h : e.isStaying = true) :
    replyStep channel e = channel := by
  unfold replyStep
  split <;> simp_all [Event.isStaying]

theorem replyChannel?_append {events new : List Event} (h : ∀ e ∈ new, e.isStaying = true) :
    replyChannel? (events ++ new) = replyChannel? events := by
  induction new generalizing events with
  | nil => simp
  | cons e new ih =>
    rw [List.append_cons, ih fun x hx => h x (List.mem_cons_of_mem e hx), replyChannel?_concat,
      replyStep_of_isStaying (h e List.mem_cons_self)]

/-- A call about a channel is a reply on `channel`. -/
def Event.repliesOn (channel : Option ChannelId) : Event → Bool
  | called id _ _ => channel = some id
  | _ => true

/-- The handler only replies on the channel that the packet names. -/
def OnlyReplies (pre : List Event) (e : Event) : Prop := e.repliesOn (replyChannel? pre) = true

instance OnlyReplies.decidable (pre : List Event) (e : Event) : Decidable (OnlyReplies pre e) :=
  inferInstanceAs (Decidable (_ = true))

namespace Event

/-- A failed assertion. -/
def isFailedAssertion : Event → Bool
  | asserted _ isConfirmed => !isConfirmed
  | _ => false

variable {e : Event}

theorem isStaying_of_isAside (h : e.isAside = true) : e.isStaying = true := by
  unfold isStaying
  split <;> simp_all [isAside, Message.isAboutChannel]

theorem isFailedAssertion_of_isAside (h : e.isAside = true) : e.isFailedAssertion = false := by
  cases e <;> simp_all [isAside, isFailedAssertion]

theorem staying_wrote {new : List Message} (h : ∀ m ∈ new, m.isPlain = true) :
    ∀ e ∈ new.map wrote, e.isStaying = true ∧ e.isFailedAssertion = false := by
  intro e he
  obtain ⟨m, hm, rfl⟩ := List.mem_map.mp he
  have hplain := h m hm
  cases m with
  | channelOpen | channelOpenConfirmation => cases hplain
  | _ => exact ⟨rfl, rfl⟩

end Event

variable {K C X : Type}

/-- The channel on which the handler may reply is confirmed, if there is an entry for it. -/
structure Replying (s : Session K C X) : Prop where
  holds : Traced OnlyReplies s.events → ∀ e ∈ s.events, e.isFailedAssertion = false
  confirmed : ∀ id channel, replyChannel? s.events = some id → s.entries id = some channel →
    channel.confirmed = true

namespace Replying

variable {s t : Session K C X}

/-- Events after which the handler may reply on the channel `id`. -/
theorem move {new : List Event} (h : Replying s) (hev : t.events = s.events ++ new)
    (hnew : ∀ e ∈ new, e.isFailedAssertion = false)
    (hconf : ∀ id channel, replyChannel? t.events = some id → t.entries id = some channel →
      channel.confirmed = true) : Replying t := by
  refine ⟨fun hcalls e he => ?_, hconf⟩
  rw [hev] at hcalls he
  exact (List.mem_append.mp he).elim (h.holds (traced_append.mp hcalls).1 e) (hnew e)

/-- Events after which the handler may reply as before. -/
theorem extend {new : List Event} (h : Replying s) (hev : t.events = s.events ++ new)
    (hstay : ∀ e ∈ new, e.isStaying = true)
    (hnew : Traced OnlyReplies t.events → ∀ e ∈ new, e.isFailedAssertion = false)
    (hentry : EntriesFrom (fun channel channel' => channel'.confirmed = channel.confirmed) s t) :
    Replying t := by
  refine ⟨fun hcalls e he => ?_, fun id channel' hid hc' => ?_⟩
  · have hold := h.holds (traced_append.mp (hev ▸ hcalls)).1
    rw [hev] at he
    exact (List.mem_append.mp he).elim (hold e) (hnew hcalls e)
  · obtain ⟨channel, hc, heq⟩ := hentry id channel' hc'
    rw [hev, replyChannel?_append hstay] at hid
    rw [heq]
    exact h.confirmed id channel hid hc

/-- The entry of a channel is replaced by one that is confirmed or not as before. -/
theorem replace {new : List Event} {id : ChannelId} {channel channel' : ChannelParams}
    (h : Replying s) (hev : t.events = s.events ++ new)
    (hnew : ∀ e ∈ new, e.isStaying = true ∧ e.isFailedAssertion = false)
    (hch : s.entries id = some channel)
    (ht : t.entries id = some channel' ∧ ∀ i, i ≠ id → t.entries i = s.entries i)
    (hconf : channel'.confirmed = channel.confirmed) : Replying t :=
  h.extend hev (fun e he => (hnew e he).1) (fun _ e he => (hnew e he).2)
    (.replaced (fun _ _ hk => hk.confirmed) hch ht hconf)

/-- A call of the handler asserts no more than that the channel of the packet is confirmed. -/
theorem called {enc : Encrypted} {id : ChannelId} {m : ChannelMsg} {asserts new : List Event}
    (h : Replying s) (hc : s.common.encrypted = some enc)
    (ha : asserts.Sublist (enc.assertion id))
    (hcalls : Traced OnlyReplies
      (s.events ++ (.called id m (enc.confirmed? id) :: asserts ++ new))) :
    ∀ e ∈ .called id m (enc.confirmed? id) :: asserts, e.isStaying = true ∧
      e.isFailedAssertion = false := by
  have hid : replyChannel? s.events = some id := by
    have hcall := (traced_append.mp hcalls).2 [] (.called id m (enc.confirmed? id)) (asserts ++ new)
      rfl
    simpa [OnlyReplies, Event.repliesOn] using hcall
  intro e he
  rcases Event.mem_called ha he with rfl | ⟨channel, hch, rfl⟩
  · exact ⟨rfl, rfl⟩
  · have hconf := h.confirmed id channel hid ((Session.entries_eq hc id).trans hch)
    simp [Event.isStaying, Event.isFailedAssertion, hconf]

end Replying

theorem isStaying_called {enc : Encrypted} {id : ChannelId} {m : ChannelMsg} {c : Option Bool}
    {asserts : List Event} (ha : asserts.Sublist (enc.assertion id)) :
    ∀ e ∈ .called id m c :: asserts, e.isStaying = true := by
  intro e he
  rcases Event.mem_called ha he with rfl | ⟨channel, -, rfl⟩ <;> rfl

theorem Replying.table {s t : Session K C X} {role : Role} {pkt : Option Bytes}
    (hstep : TableStep role pkt s t) (h : Replying s) : Replying t := by
  have hkept : ∀ channel channel' : ChannelParams, channel.Kept channel' →
      channel'.confirmed = channel.confirmed := fun _ _ hk => hk.confirmed
  cases hstep with
  | aside ha =>
    obtain ⟨new, hev, hnew⟩ := ha.events
    exact h.extend hev (fun e he => Event.isStaying_of_isAside (hnew e he))
      (fun _ e he => Event.isFailedAssertion_of_isAside (hnew e he)) (.same hkept ha.entries)
  | write hc hs =>
    exact h.extend (Session.events_wrote ..) (fun e he => (Event.staying_wrote hs.plain e he).1)
      (fun _ e he => (Event.staying_wrote hs.plain e he).2)
      (hs.toEncChange.entriesFrom hkept hc rfl)
  | @called enc id m asserts hc ha =>
    refine h.extend (Session.events_recordAll _) (isStaying_called ha) (fun hcalls e he => ?_)
      (.same hkept fun _ => rfl)
    rw [Session.events_recordAll, ← List.append_nil (.called id m _ :: asserts)] at hcalls
    exact (h.called hc ha hcalls e he).2
  | @call enc enc' id m asserts new hc ha hs =>
    have hev : ((s.recordAll (.called id m (enc.confirmed? id) :: asserts)).wrote enc' new).events =
        s.events ++ (.called id m (enc.confirmed? id) :: asserts ++ new.map .wrote) := by
      rw [Session.events_wrote, Session.events_recordAll, List.append_assoc]
    refine h.extend hev (fun e he => ?_) (fun hcalls e he => ?_)
      (hs.toEncChange.entriesFrom hkept hc rfl)
    · exact (List.mem_append.mp he).elim (isStaying_called ha e) fun he =>
        (Event.staying_wrote hs.plain e he).1
    · rw [hev] at hcalls
      exact (List.mem_append.mp he).elim (fun he => (h.called hc ha hcalls e he).2) fun he =>
        (Event.staying_wrote hs.plain e he).2
  | @answerChannel enc id channel m cm hc hch hconf _ _ =>
    exact h.replace (by rw [Session.events_wrote, Session.events_recordAll, List.append_assoc])
      (by simp [Event.isStaying, Event.isFailedAssertion]) ((Session.entries_eq hc id).trans hch)
      (Session.entries_update hc rfl rfl) rfl
  | refuse id reason description language hc =>
    exact h.extend (by rw [Session.events_wrote, Session.events_record, List.append_assoc])
      (by simp [Event.isStaying]) (by simp [Event.isFailedAssertion])
      (.same hkept fun i => (Session.entries_eq hc i).symm)
  | @openChannel enc id kind windowSize maximumPacketSize suffix chan hc hnone =>
    have hev := s.events_openChannel (.channelOpen kind id windowSize maximumPacketSize suffix) id
      (.opened windowSize maximumPacketSize id) chan enc
    refine h.move hev (by simp [Event.isFailedAssertion]) fun i channel hi hch => ?_
    have hopening : replyChannel? (s.events ++ [.opening enc.state]) = replyChannel? s.events :=
      replyChannel?_append (by simp [Event.isStaying])
    rw [hev, List.append_cons, replyChannel?_concat, hopening, replyStep] at hi
    split at hi
    · cases hi
    · -- The handler may reply on another channel than the one that is opened.
      rename_i hne
      have hid : i ≠ id := fun hid => hne (by rw [hi, hid])
      rw [(Session.entries_openChannel _ _ chan hc).2 i hid] at hch
      exact h.confirmed i channel hi hch
  | @acceptChannel enc channel m id window maximumPacketSize chan hm hc hconf hr =>
    have hev := s.events_openChannel
      (.channelOpenConfirmation m.recipientChannel id window maximumPacketSize) id channel chan enc
    refine h.move hev (by simp [Event.isFailedAssertion]) fun i channel' hi hch => ?_
    rw [hev, replyChannel?_append (by simp [Event.isStaying])] at hi
    by_cases hid : i = id
    · subst hid
      obtain rfl : channel = channel' := by
        simpa [(Session.entries_openChannel _ channel chan hc).1] using hch
      exact hconf
    · rw [(Session.entries_openChannel _ _ chan hc).2 i hid] at hch
      exact h.confirmed i channel' hi hch
  | reject reason message hm hc =>
    exact h.extend (Session.events_wrote ..) (by simp [Event.isStaying, OpenChannelMessage.fail])
      (by simp [Event.isFailedAssertion]) (.same hkept fun i => (Session.entries_eq hc i).symm)
  | @confirm enc channel c hm hc hch =>
    refine h.move (Session.events_record _) (by simp [Event.isFailedAssertion])
      fun i channel' hi hc' => ?_
    obtain rfl : c.recipientChannel = i := by simpa [replyStep] using hi
    rw [(Session.entries_update (t := (s.record (.confirmed c)).setEncrypted
      (enc.setChannel c.recipientChannel (channel.confirm c))) hc rfl rfl).1] at hc'
    cases hc'
    rfl
  | @fail enc id channel hm hid hc hch =>
    have hs : EncChange none enc (enc.removeChannel id) [] := .removeChannel
    exact h.extend (Session.events_record _) (by simp [Event.isStaying])
      (by simp [Event.isFailedAssertion]) (hs.entriesFrom hkept hc rfl)
  | @number enc enc' id m hm hc hs hnone =>
    refine h.move (Session.events_record _) (by simp [Event.isFailedAssertion])
      fun i channel' hi hc' => ?_
    obtain rfl : id = i := by simpa [replyStep] using hi
    rw [Session.entries_eq (s := (s.record (.numbered id)).setEncrypted enc') rfl, hnone] at hc'
    cases hc'
  | @drop enc id hm hid hc =>
    refine h.move (Session.events_record _) (by simp [Event.isFailedAssertion])
      fun i channel' hi hc' => ?_
    obtain rfl : id = i := by simpa [replyStep] using hi
    rw [(Session.entries_update (t := (s.record (.dropped id)).setEncrypted (enc.removeChannel id))
      hc rfl rfl).1] at hc'
    cases hc'
  | closeByPeer _ hm hid hc hs =>
    exact h.extend (Session.events_wrote ..) (fun e he => (Event.staying_wrote hs.plain e he).1)
      (fun _ e he => (Event.staying_wrote hs.plain e he).2)
      (hs.toEncChange.entriesFrom hkept hc rfl)
  | @noteRequest enc id wantsReply channel hm hc hch =>
    exact h.replace (Session.events_record _) (by simp [Event.isStaying, Event.isFailedAssertion])
      ((Session.entries_eq hc id).trans hch) (Session.entries_update hc rfl rfl) rfl
  | answerRequest _ hreq ha hc =>
    exact h.extend (Session.events_wrote ..) (by simp [Event.isStaying])
      (by simp [Event.isFailedAssertion]) (.same hkept fun i => (Session.entries_eq hc i).symm)
  | @account enc enc' id channel new window hm hid hc hch hchannels hnew =>
    refine h.replace (Session.events_wrote ..) (fun e he => ?_)
      ((Session.entries_eq hc id).trans hch) (Session.entries_update hc rfl hchannels) rfl
    obtain ⟨m, hmem, rfl⟩ := List.mem_map.mp he
    obtain ⟨amount, rfl⟩ := hnew m hmem
    exact ⟨rfl, rfl⟩

/-- The packet names no channel that has not been confirmed. -/
def namesConfirmed (buf : Bytes) (s : Session K C X) : Bool :=
  (namedChannel? buf).all fun id => (s.entries id).all fun channel => channel.confirmed

theorem namesConfirmed_congr {s t : Session K C X} (h : ∀ id, t.entries id = s.entries id)
    (buf : Bytes) : namesConfirmed buf t = namesConfirmed buf s := by
  simp only [namesConfirmed, h]

/-- A session is ready for packets that name no channel which the peer has not confirmed. -/
theorem replyingInvariant (role : Role) : TableInvariant (K := K) (C := C) (X := X) role
    (fun buf s => namesConfirmed buf s = true) (fun _ _ => True) Replying where
  aside {s t} ha h := by
    have hstep : TableStep role none s t := .aside ha
    exact h.table hstep
  ready ha h := (namesConfirmed_congr ha.entries _).trans h
  cond _ _ := trivial
  received {s buf} hr h := by
    refine ⟨trivial, h.move (Session.events_record _) (by simp [Event.isFailedAssertion])
      fun id channel hid hc => ?_⟩
    have hnamed : namedChannel? buf = some id := by simpa [replyStep] using hid
    have hentry : s.entries id = some channel := hc
    simpa [namesConfirmed, hnamed, hentry] using hr
  own hstep _ h := h.table hstep
  rest hstep h := h.table hstep
  other _ hstep _ _ h := ⟨trivial, h.table hstep⟩

theorem replying_of_fresh {s : Session K C X} (hev : s.events = [])
    (hc : s.common.encrypted = none) : Replying s := by
  refine ⟨fun _ => by simp [hev], fun id channel _ h => ?_⟩
  simp [Session.entries, hc] at h

namespace Server

/-- The condition on a step of a server. -/
def readsConfirmed (P : Primitives) (l : ServerLoop) : ServerEnv × ServerInput → Bool
  | (_, .packet payload) =>
    (openedPacket P payload l.session).all fun buf => namesConfirmed buf l.session
  | _ => true

/-- In a run in which no packet names a channel that is not confirmed, a handler that only replies
on the channel of its callback finds every assertion met. -/
theorem confirmed_assertions (P : Primitives) (env : ServerEnv) (config : ServerConfig)
    (remoteSshid : Bytes) (labels : List (ServerEnv × ServerInput)) (l : ServerLoop)
    (hal : Along (step P) (fun l label => readsConfirmed P l label = true)
      (start P env config remoteSshid) labels)
    (hrun : run (step P) (start P env config remoteSshid) labels = some l)
    (hcalls : Traced OnlyReplies l.session.events) (id : ChannelId) :
    .asserted id false ∉ l.session.events := by
  have hreplying : Replying l.session :=
    table_run (replyingInvariant _) _ (fun l env payload h buf hb => by
      simpa [readsConfirmed, hb] using h) (replying_of_fresh rfl rfl) hal hrun
  intro hmem
  have hholds := hreplying.holds hcalls _ hmem
  cases hholds

section Examples

/-- A handler that answers data by the same data. -/
def echoing : ServerEnv :=
  { knowingFive with
    handler := fun call s =>
      match call with
      | .data id buf => ([.channel id (.data buf)], .ok true)
      | call => knowingFive.handler call s }

/-- The inputs of a run, with the handler that echoes. -/
def echoRun (labels : List (ServerEnv × ServerInput)) : List (ServerEnv × ServerInput) :=
  labels.map fun label => (echoing, label.2)

/-- Data on a channel of the peer is answered. -/
theorem confirmed_assertions_one : ∃ l,
    run (step .toy) (start .toy echoing smallServer [])
      (echoRun (openingServer [dataPacket [1, 2, 3]])) = some l ∧
    l.session.events.contains (.asserted 2 true) = true ∧
    .asserted 2 false ∉ l.session.events := by
  have hrun : ((run (step .toy) (start .toy echoing smallServer [])
      (echoRun (openingServer [dataPacket [1, 2, 3]]))).map fun l =>
      (l.session.events.contains (.asserted 2 true),
        decide (Traced OnlyReplies l.session.events))) = some (true, true) := by
    decide +kernel
  obtain ⟨l, hl, hevents⟩ := Option.map_eq_some_iff.mp hrun
  obtain ⟨hasserted, hcalls⟩ := Prod.mk.inj hevents
  exact ⟨l, hl, hasserted, confirmed_assertions .toy _ _ _ _ l (by decide +kernel) hl
    (of_decide_eq_true hcalls) 2⟩

/-- Data, and a request of an unknown name, for a channel that the peer has not confirmed. -/
theorem not_confirmed_assertions :
    (∃ l, run (step .toy) (start .toy echoing smallServer [])
        (echoRun (openedByServer [dataPacket [1]])) = some l ∧
      Traced OnlyReplies l.session.events ∧
      l.session.events.contains (.asserted 2 false) = true) ∧
    ∃ l, run (step .toy) (start .toy knowingFive smallServer [])
        (openedByServer [requestPacket 1]) = some l ∧
      Traced OnlyReplies l.session.events ∧
      l.session.events.contains (.asserted 2 false) = true := by
  have hdata : ((run (step .toy) (start .toy echoing smallServer [])
      (echoRun (openedByServer [dataPacket [1]]))).map fun l =>
      (decide (Traced OnlyReplies l.session.events),
        l.session.events.contains (.asserted 2 false))) = some (true, true) := by
    decide +kernel
  have hrequest : ((run (step .toy) (start .toy knowingFive smallServer [])
      (openedByServer [requestPacket 1])).map fun l =>
      (decide (Traced OnlyReplies l.session.events),
        l.session.events.contains (.asserted 2 false))) = some (true, true) := by
    decide +kernel
  obtain ⟨l, hl, hevents⟩ := Option.map_eq_some_iff.mp hdata
  obtain ⟨hcalls, hasserted⟩ := Prod.mk.inj hevents
  obtain ⟨l', hl', hevents'⟩ := Option.map_eq_some_iff.mp hrequest
  obtain ⟨hcalls', hasserted'⟩ := Prod.mk.inj hevents'
  exact ⟨⟨l, hl, of_decide_eq_true hcalls, hasserted⟩,
    l', hl', of_decide_eq_true hcalls', hasserted'⟩

end Examples

end Server

end Edgessh.Russh
