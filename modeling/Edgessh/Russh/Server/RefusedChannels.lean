import Edgessh.Russh.Server.Attempts
import Edgessh.Russh.Opening

/-!
# Channels that are not opened

The server has two tables of channels: that of `Encrypted`, and that of the session, which holds
the receivers. A CHANNEL_OPEN that is refused leaves the first as it was. A receiver that has no
channel in it is that of a channel which this side has closed, and which stays until the client
closes it, or of one that the application has been asked about.
-/

namespace Edgessh.Russh
open Edgessh.Command Edgessh.Run

/-- How an event changes whether the channel `id` may be missing from the table of `Encrypted`. -/
def unlistedStep (id : ChannelId) (unlisted : Bool) : Event → Bool
  | .wrote m =>
    match m.lifecycle id with
    | some life => life == .closed
    | none => unlisted
  | .serverCallback (.channelOpen i _) => unlisted || i == id
  | _ => unlisted

/-- This side has closed the channel, or the application has been asked about it, and it has not
been put into the table of `Encrypted` since. -/
def Unlisted (id : ChannelId) (events : List Event) : Prop :=
  events.foldl (unlistedStep id) false = true

instance (id : ChannelId) (events : List Event) : Decidable (Unlisted id events) :=
  inferInstanceAs (Decidable (_ = true))

section Unlisted

variable {id : ChannelId} {events new : List Event} {e : Event}

theorem unlisted_concat :
    Unlisted id (events ++ [e]) ↔
      unlistedStep id (events.foldl (unlistedStep id) false) e = true := by
  simp [Unlisted]

theorem Unlisted.append (h : Unlisted id events)
    (hnew : ∀ e ∈ new, unlistedStep id true e = true) : Unlisted id (events ++ new) := by
  induction new generalizing events with
  | nil => simpa using h
  | cons e new ih =>
    rw [List.append_cons]
    apply ih _ fun x hx => hnew x (List.mem_cons_of_mem e hx)
    have hfold : events.foldl (unlistedStep id) false = true := h
    rw [unlisted_concat, hfold]
    exact hnew e List.mem_cons_self

theorem unlistedStep_of_isAside (he : e.isAside = true) : unlistedStep id true e = true := by
  cases e with
  | wrote m => cases m <;> simp_all [Event.isAside, Message.isAboutChannel, unlistedStep,
      Message.lifecycle]
  | serverCallback call => cases call <;> rfl
  | _ => rfl

theorem unlistedStep_wrote {m : Message} (hm : m.isPlain = true) :
    unlistedStep id true (.wrote m) = true := by
  cases m with
  | channel i r msg =>
    by_cases hi : i = id
    · cases msg <;> simp [unlistedStep, Message.lifecycle, ChannelMessage.lifecycle, hi]
    · simp [unlistedStep, Message.lifecycle, hi]
  | channelOpen kind i window size suffix => cases hm
  | channelOpenConfirmation r i window size => cases hm
  | _ => rfl

/-- Plain packets leave it so, and a CHANNEL_CLOSE among them makes it so. -/
theorem unlisted_wrote {ms : List Message} (hplain : ∀ m ∈ ms, m.isPlain = true)
    (h : Unlisted id events ∨ Lifecycle.closed ∈ lives id ms) :
    Unlisted id (events ++ ms.map .wrote) := by
  rcases h with h | h
  · apply h.append
    intro e he
    obtain ⟨m, hm, rfl⟩ := List.mem_map.mp he
    exact unlistedStep_wrote (hplain m hm)
  · obtain ⟨m, hm, hclosed⟩ := List.mem_filterMap.mp h
    obtain ⟨before, after, rfl⟩ := List.append_of_mem hm
    rw [List.map_append, List.map_cons, ← List.append_assoc, List.append_cons]
    have hat : Unlisted id (events ++ before.map .wrote ++ [.wrote m]) := by
      rw [unlisted_concat, unlistedStep, hclosed]
      rfl
    apply hat.append
    intro e he
    obtain ⟨m', hm', rfl⟩ := List.mem_map.mp he
    exact unlistedStep_wrote (hplain m' (by simp [hm']))

end Unlisted

/-- The types of channel that the application is asked about. -/
def ChannelType.isServed : ChannelType → Bool
  | .forwardedStreamLocal _ | .agentForward | .unknown _ => false
  | _ => true

namespace Server

/-- The channel is in the table of `Encrypted`, or it may be missing there. -/
def Accounted (s : ServerSession) (id : ChannelId) : Prop :=
  (s.entries id).isSome = true ∨ Unlisted id s.events

/-- Every receiver is that of a channel in the table of `Encrypted`, or of one that may be missing
there. -/
def ReceiversAccounted (s : ServerSession) : Prop :=
  ∀ id, (s.channels id).isSome = true → Accounted s id

variable {P : Primitives} {s t : ServerSession} {id : ChannelId}

namespace Accounted

theorem extend {new : List Event} (h : Accounted s id) (hev : t.events = s.events ++ new)
    (hnew : ∀ e ∈ new, unlistedStep id true e = true)
    (hentries : (s.entries id).isSome = true → (t.entries id).isSome = true) : Accounted t id := by
  rcases h with h | h
  · exact .inl (hentries h)
  · right
    rw [hev]
    exact h.append hnew

/-- The same entry. -/
theorem aside (h : Accounted s id) (ha : Aside s t) : Accounted t id := by
  obtain ⟨new, hev, hnew⟩ := ha.events
  apply h.extend hev fun e he => unlistedStep_of_isAside (hnew e he)
  intro hs
  rw [ha.entries id]
  exact hs

/-- Where an entry is dropped, the packets say so. -/
theorem encStep {enc enc' : Encrypted} {on : Option ChannelId} {before : List Event}
    {ms : List Message} (h : Accounted s id) (hc : s.common.encrypted = some enc)
    (hs : EncStep on enc enc' ms) (ht : t.common.encrypted = some enc')
    (hev : t.events = s.events ++ before ++ ms.map .wrote)
    (hbefore : ∀ e ∈ before, unlistedStep id true e = true) : Accounted t id := by
  rcases h with h | h
  · rw [Session.entries_eq hc] at h
    rcases hs.stays id h with h' | hclosed
    · left
      rw [Session.entries_eq ht]
      exact h'
    · right
      rw [hev]
      exact unlisted_wrote hs.plain (.inr hclosed)
  · right
    rw [hev]
    exact unlisted_wrote hs.plain (.inl (h.append hbefore))

/-- An entry is put into the table. -/
theorem openChannel {enc : Encrypted} {i : ChannelId} {m : Message} {channel : ChannelParams}
    {chan : Option ChannelRef} (h : Accounted s id) (hc : s.common.encrypted = some enc)
    (hm : m.lifecycle id = if i = id then some .opened else none) :
    Accounted (s.openChannel m i channel chan enc) id := by
  have hentries : (s.openChannel m i channel chan enc).entries i = some channel ∧
      ∀ id, id ≠ i → (s.openChannel m i channel chan enc).entries id = s.entries id :=
    Session.entries_openChannel m channel chan hc
  by_cases hi : i = id
  · subst hi
    left
    rw [hentries.1]
    rfl
  · apply h.extend (s.events_openChannel ..)
    · simp [unlistedStep, hm, hi]
    · intro hs
      rw [hentries.2 id (Ne.symm hi)]
      exact hs

/-- An entry is replaced by another. -/
theorem update {enc enc' : Encrypted} {i : ChannelId} {channel : ChannelParams} {new : List Event}
    (h : Accounted s id) (hc : s.common.encrypted = some enc)
    (ht : t.common.encrypted = some enc')
    (hchannels : enc'.channels = Function.update enc.channels i (some channel))
    (hev : t.events = s.events ++ new) (hnew : ∀ e ∈ new, unlistedStep id true e = true) :
    Accounted t id := by
  obtain ⟨hself, hother⟩ := Session.entries_update hc ht hchannels
  apply h.extend hev hnew
  intro hs
  by_cases hi : id = i
  · rw [hi, hself]
    rfl
  · rw [hother id hi]
    exact hs

/-- Every step that is not for a CHANNEL_CLOSE or a CHANNEL_OPEN_FAILURE of the client. -/
theorem table {pkt : Option Bytes} (hstep : TableStep .server pkt s t)
    (hclose : firstByte? pkt ≠ some Msg.channelClose)
    (hfailure : firstByte? pkt ≠ some Msg.channelOpenFailure) (h : Accounted s id) :
    Accounted t id := by
  cases hstep with
  | aside ha => exact h.aside ha
  | write hc hs =>
    exact h.encStep hc hs rfl (by rw [Session.events_wrote, List.append_nil]) (by simp)
  | called hc ha _ =>
    apply h.extend (Session.events_recordAll _)
    · intro e he
      rcases Event.mem_called ha he with rfl | ⟨channel, -, rfl⟩ <;> rfl
    · exact fun hs => hs
  | call hc ha hs _ =>
    apply h.encStep hc hs rfl (by rw [Session.events_wrote, Session.events_recordAll])
    intro e he
    rcases Event.mem_called ha he with rfl | ⟨channel, -, rfl⟩ <;> rfl
  | answerChannel cm hc _ _ _ hm =>
    apply h.update hc rfl rfl
      (by rw [Session.events_wrote, Session.events_recordAll, List.append_assoc])
    rcases hm with ⟨rfl, rfl⟩ | ⟨rfl, rfl⟩ <;>
      simp [unlistedStep, Message.lifecycle, ChannelMessage.lifecycle]
  | refuse i reason description language hc =>
    apply h.extend (by rw [Session.events_wrote, Session.events_record, List.append_assoc])
    · simp [unlistedStep, Message.lifecycle]
    · intro hs
      rw [Session.entries_eq hc] at hs
      exact hs
  | openChannel kind windowSize maximumPacketSize suffix chan hc _ => exact h.openChannel hc rfl
  | acceptChannel i window maximumPacketSize chan _ hc _ _ _ => exact h.openChannel hc rfl
  | reject reason message _ hc =>
    apply h.extend (Session.events_wrote ..)
    · simp [unlistedStep, Message.lifecycle, OpenChannelMessage.fail]
    · intro hs
      rw [Session.entries_eq hc] at hs
      exact hs
  | confirm _ hc _ => exact h.update hc rfl rfl (Session.events_record _) (by simp [unlistedStep])
  | fail hm _ _ _ => exact absurd hm hfailure
  | number _ hc hs _ =>
    exact h.encStep hc hs rfl (by rw [List.map_nil, List.append_nil]; exact Session.events_record _)
      (by simp [unlistedStep])
  | drop hm _ _ => exact absurd hm hclose
  | closeByPeer hr _ _ _ _ => cases hr
  | noteRequest _ hc _ =>
    exact h.update hc rfl rfl (Session.events_record _) (by simp [unlistedStep])
  | answerRequest hr _ _ _ => cases hr
  | account window _ _ hc _ hchannels hnew =>
    apply h.update hc rfl hchannels (Session.events_wrote ..)
    intro e he
    obtain ⟨m, hm, rfl⟩ := List.mem_map.mp he
    obtain ⟨amount, rfl⟩ := hnew m hm
    simp [unlistedStep, Message.lifecycle, ChannelMessage.lifecycle]

end Accounted

/-- The receivers after a step that is not for a CHANNEL_OPEN: those that were there, and that of a
channel that is opened. -/
theorem receivers_of_step {pkt : Option Bytes} (hstep : AppStep serverStart P pkt s t)
    (hopen : firstByte? pkt ≠ some Msg.channelOpen) (hid : (t.channels id).isSome = true) :
    (s.channels id).isSome = true ∨ (t.entries id).isSome = true := by
  have hnone : ∀ m, pkt.bind channelOpen? ≠ some m := by
    intro m hm
    obtain ⟨buf, rfl, hbuf⟩ := Option.bind_eq_some_iff.mp hm
    exact hopen (head?_of_channelOpen? hbuf)
  cases hstep with
  | frame hf =>
    rcases hf.channels id with heq | heq
    · exact .inl (heq ▸ hid)
    · rw [heq] at hid
      cases hid
  | @openChannel enc i kind windowSize maximumPacketSize suffix chan hc _ _ =>
    by_cases hi : id = i
    · subst hi
      right
      rw [(Session.entries_openChannel _ _ chan hc).1]
      rfl
    · left
      have hsame : (if chan.isSome then Function.update s.channels i chan else s.channels) id =
          s.channels id := by
        split
        · exact Function.update_of_ne hi ..
        · rfl
      exact hsame ▸ hid
  | acceptChannel _ _ _ _ hm _ _ _ _ _ => exact absurd hm (hnone _)
  | insertChannel _ _ hm => exact absurd hm (hnone _)
  | account _ _ _ _ _ => exact .inl hid
  | globalRequest name data _ =>
    left
    revert hid
    unfold Session.globalRequest
    dsimp only
    split <;> exact fun hid => hid
  | beginRekey _ _ _ hb =>
    obtain ⟨kex, w, -, rfl⟩ := Session.beginRekey_eq_ok hb
    exact .inl hid
  | _ => exact .inl hid

namespace ReceiversAccounted

/-- A step that puts no receiver into the table without its channel. -/
theorem step {pkt : Option Bytes} (h : ReceiversAccounted s) (hstep : AppStep serverStart P pkt s t)
    (hclose : firstByte? pkt ≠ some Msg.channelClose)
    (hfailure : firstByte? pkt ≠ some Msg.channelOpenFailure)
    (hreceivers : ∀ id, (t.channels id).isSome = true →
      (s.channels id).isSome = true ∨ (t.entries id).isSome = true) : ReceiversAccounted t := by
  intro id hid
  rcases hreceivers id hid with hs | hentry
  · exact (h id hs).table hstep.table hclose hfailure
  · exact .inl hentry

/-- Every step that is not for a packet about the table. -/
theorem app {pkt : Option Bytes} (h : ReceiversAccounted s)
    (hopen : firstByte? pkt ≠ some Msg.channelOpen)
    (hclose : firstByte? pkt ≠ some Msg.channelClose)
    (hfailure : firstByte? pkt ≠ some Msg.channelOpenFailure)
    (hstep : AppStep serverStart P pkt s t) : ReceiversAccounted t :=
  h.step hstep hclose hfailure fun _ => receivers_of_step hstep hopen

/-- The application is not working on a packet. -/
theorem app_none (h : ReceiversAccounted s) (hstep : AppStep serverStart P none s t) :
    ReceiversAccounted t :=
  h.app (by simp [firstByte?]) (by simp [firstByte?]) (by simp [firstByte?]) hstep

theorem aside (h : ReceiversAccounted s) (ha : Aside s t)
    (hchannels : ∀ id, t.channels id = s.channels id ∨ t.channels id = none) :
    ReceiversAccounted t := by
  intro id hid
  rcases hchannels id with heq | heq
  · exact (h id (heq ▸ hid)).aside ha
  · rw [heq] at hid
    cases hid

theorem calm (h : ReceiversAccounted s) (hc : Calm s t) : ReceiversAccounted t :=
  h.aside (.of_calm hc) hc.channels

/-- A packet is read. -/
theorem received {buf : Bytes} (h : ReceiversAccounted s) :
    ReceiversAccounted (s.record (.received buf)) := by
  intro id hid
  exact (h id hid).extend (Session.events_record _) (by simp [unlistedStep]) fun hs => hs

theorem auth (h : ReceiversAccounted s) (hstep : AuthStep s t) : ReceiversAccounted t := by
  cases hstep with
  | common _ _ => exact h
  | @record e he =>
    refine h.aside (.record ?_) fun _ => .inl rfl
    cases e <;> simp_all [Event.isAuth, Event.isAside]
  | @write enc m hc hm =>
    refine h.aside (.push hc ?_) fun _ => .inl rfl
    cases m <;> simp_all [Message.isAuth, Message.isAboutChannel]
  | @state enc _ _ hc =>
    refine h.aside ⟨⟨[], (List.append_nil _).symm, by simp⟩, fun id => ?_⟩ fun _ => .inl rfl
    rw [Session.entries_eq hc]
    rfl

section Packets

variable {env : ServerEnv} {msg : UInt8} {r : Bytes}

/-- What the application does in a call. -/
theorem respond {cb : ServerCallback} (h : ReceiversAccounted s) :
    wp (respond (P := P) env cb).run (fun _ t => ReceiversAccounted t)
      (fun _ t => ReceiversAccounted t) s :=
  wp_app (fun _ _ hstep hs => hs.app_none hstep) (fun _ hs => hs) _ h

/-- A call of the application for a packet. -/
theorem callback {cb : ServerCallback} {pkt : Option Bytes} {hpkt : pkt.isSome = true}
    {hcall : cb.isConnection = true} {hdata : (Event.serverCallback cb).delivered = none}
    (h : ReceiversAccounted s) :
    wp (callback (P := P) env cb hpkt hcall hdata).run (fun _ t => ReceiversAccounted t)
      (fun _ t => ReceiversAccounted t) s := by
  rw [Server.callback, Confined.wp_run_bind, AppM.serve, Confined.run_move, wp_modify]
  apply respond
  exact h.aside (.record rfl) fun _ => .inl rfl

/-- A channel is taken out of the table of `Encrypted`; the receivers of the others are accounted
for. -/
theorem drop {enc : Encrypted} {i : ChannelId} {e : Event} (h : ReceiversAccounted s)
    (hc : s.common.encrypted = some enc) (he : ∀ id, unlistedStep id true e = true) :
    ∀ id, id ≠ i → (s.channels id).isSome = true →
      Accounted ((s.record e).setEncrypted (enc.removeChannel i)) id := by
  intro id hid hs
  have hother := (Session.entries_update (t := (s.record e).setEncrypted (enc.removeChannel i))
    hc rfl rfl).2 id hid
  have hev : ((s.record e).setEncrypted (enc.removeChannel i)).events = s.events ++ [e] := rfl
  refine (h id hs).extend hev (by simpa using he id) fun hentry => ?_
  rw [hother]
  exact hentry

/-- Its receiver is dropped too. -/
theorem remove {i : ChannelId} (h : ∀ id, id ≠ i → (s.channels id).isSome = true → Accounted s id) :
    ReceiversAccounted { s with channels := Function.update s.channels i none } := by
  intro id hid
  dsimp only at hid
  by_cases hi : id = i
  · rw [hi, Function.update_self] at hid
    cases hid
  · rw [Function.update_of_ne hi] at hid
    exact h id hi hid

theorem readChannelClose (h : ReceiversAccounted s) (hmsg : msg = Msg.channelClose) :
    wp (readChannelClose (P := P) hmsg env r).run (fun _ t => ReceiversAccounted t)
      (fun _ t => ReceiversAccounted t) s := by
  rw [Server.readChannelClose, Confined.wp_run_bind]
  refine AppM.wp_decoded (fun i r' hid => ?_) fun _ => h
  rw [Confined.wp_run_bind, AppM.dropChannel, Confined.run_move, wp_modify, Confined.wp_run_bind,
    AppM.removeChannel, AppM.frame, Confined.run_move, wp_modify, Confined.wp_run_discard]
  apply callback
  apply remove
  cases hc : s.common.encrypted with
  | none => exact fun id _ hs => h id hs
  | some enc => exact h.drop hc fun _ => rfl

theorem failOpened {i : ChannelId} {pkt : Option Bytes}
    {hmsg : firstByte? pkt = some Msg.channelOpenFailure} {hid : pkt.bind recipientNumber? = some i}
    (h : ReceiversAccounted s) :
    wp (AppM.failOpened hmsg hid : ServerPacketM P pkt Unit).run
      (fun _ t => ∀ id, id ≠ i → (t.channels id).isSome = true → Accounted t id)
      (fun _ t => ReceiversAccounted t) s := by
  rw [AppM.failOpened, Confined.run_move, wp_modify]
  cases hc : s.common.encrypted with
  | none => exact fun id _ hs => h id hs
  | some enc =>
    dsimp only
    cases enc.channels i with
    | none => exact fun id _ hs => h id hs
    | some channel => exact h.drop hc fun _ => rfl

theorem readChannelOpenFailure (h : ReceiversAccounted s) (hmsg : msg = Msg.channelOpenFailure) :
    wp (readChannelOpenFailure (P := P) hmsg r).run (fun _ t => ReceiversAccounted t)
      (fun _ t => ReceiversAccounted t) s := by
  rw [Server.readChannelOpenFailure, Confined.wp_run_bind]
  refine AppM.wp_decoded (fun i r' hid => ?_) fun _ => h
  rw [Confined.wp_run_bind]
  refine AppM.wp_decode (fun code r' _ => ?_) fun _ => h
  rw [Confined.wp_run_bind]
  refine AppM.wp_decode (fun _ r' _ => ?_) fun _ => h
  rw [Confined.wp_run_bind]
  refine AppM.wp_decode (fun _ _ _ => ?_) fun _ => h
  refine Confined.wp_seq h.failOpened fun _ t ht => ?_
  rw [Confined.wp_run_bind, Confined.run_read, wp_get, Confined.wp_run_bind, AppM.removeChannel,
    AppM.frame, Confined.run_move, wp_modify]
  have hremoved : ReceiversAccounted { t with channels := Function.update t.channels i none } :=
    remove ht
  split
  · rw [AppM.observe, Confined.run_move, wp_modify]
    exact hremoved.aside (.record rfl) fun _ => .inl rfl
  · exact hremoved

section Open

variable {pkt : Bytes} {m : OpenChannelMessage} {i : ChannelId}

/-- The first byte of a CHANNEL_OPEN is not that of the two other packets. -/
theorem firstByte?_of_channelOpen? (hm : (some pkt).bind channelOpen? = some m) :
    firstByte? (some pkt) ≠ some Msg.channelClose ∧
      firstByte? (some pkt) ≠ some Msg.channelOpenFailure := by
  have hhead : firstByte? (some pkt) = some Msg.channelOpen := head?_of_channelOpen? hm
  rw [hhead]
  exact ⟨by decide, by decide⟩

theorem newChannelId (h : ReceiversAccounted s) (hm : (some pkt).bind channelOpen? = some m) :
    wp (AppM.newChannelId hm : ServerPacketM P (some pkt) (Option ChannelId)).run
      (fun _ t => ReceiversAccounted t) (fun _ t => ReceiversAccounted t) s := by
  obtain ⟨hclose, hfailure⟩ := firstByte?_of_channelOpen? hm
  simp only [AppM.newChannelId, Confined.tryMove, Confined.tryMoves, wp]
  cases hc : s.common.encrypted with
  | none => exact h
  | some enc =>
    dsimp only
    cases hn : enc.newChannelId UInt32.size with
    | error e => exact h
    | ok p =>
      obtain ⟨hs, hnone⟩ : EncStep none enc p.1 [] ∧ p.1.channels p.2 = none :=
        EncStep.newChannelId hn
      have hstep : AppStep serverStart P (some pkt) s
        ((s.record (.numbered p.2)).setEncrypted p.1) :=
        .number hm hc hs hnone
      exact h.step hstep hclose hfailure fun _ => .inl

theorem reject (h : ReceiversAccounted s) (hm : (some pkt).bind channelOpen? = some m)
    (reason : UInt8) (message : Bytes) :
    wp (AppM.reject hm reason message : ServerPacketM P (some pkt) Unit).run
      (fun _ t => ReceiversAccounted t) (fun _ t => ReceiversAccounted t) s := by
  obtain ⟨hclose, hfailure⟩ := firstByte?_of_channelOpen? hm
  rw [AppM.reject, Confined.run_move, wp_modify]
  cases hc : s.common.encrypted with
  | none => exact h
  | some enc =>
    have hstep : AppStep serverStart P (some pkt) s
        (s.wrote (enc.push (m.fail reason message)) [m.fail reason message]) :=
      .reject reason message hm hc
    exact h.step hstep hclose hfailure fun _ => .inl

theorem confirmChannel (h : ReceiversAccounted s) (hm : (some pkt).bind channelOpen? = some m)
    (windowSize maximumPacketSize : Nat) :
    wp (AppM.confirmChannel hm i windowSize maximumPacketSize none :
        ServerPacketM P (some pkt) Unit).run
      (fun _ t => ReceiversAccounted t) (fun _ t => ReceiversAccounted t) s := by
  rw [AppM.confirmChannel, Confined.run_move, wp_modify]
  cases hc : s.common.encrypted with
  | none => exact h
  | some enc =>
    intro id hid
    exact (h id hid).openChannel hc rfl

/-- The application is asked about the channel `i`, which may be missing from then on. -/
theorem callback_channelOpen {typ : ChannelType} {hpkt : (some pkt).isSome = true}
    {hcall : (ServerCallback.channelOpen i typ).isConnection = true}
    {hdata : (Event.serverCallback (.channelOpen i typ)).delivered = none}
    (h : ReceiversAccounted s) :
    wp (Server.callback (P := P) env (.channelOpen i typ) hpkt hcall hdata).run
      (fun _ t => ReceiversAccounted t ∧ Accounted t i) (fun _ t => ReceiversAccounted t) s := by
  rw [Server.callback, Confined.wp_run_bind, AppM.serve, Confined.run_move, wp_modify]
  have hasked : ReceiversAccounted (s.record (.serverCallback (.channelOpen i typ))) ∧
      Accounted (s.record (.serverCallback (.channelOpen i typ))) i := by
    refine ⟨h.aside (.record rfl) fun _ => .inl rfl, .inr ?_⟩
    rw [Session.events_record, unlisted_concat]
    simp [unlistedStep]
  have hrespond : wp (Server.respond (P := P) env (.channelOpen i typ)).run
      (fun _ t => ReceiversAccounted t ∧ Accounted t i)
      (fun _ t => ReceiversAccounted t ∧ Accounted t i)
      (s.record (.serverCallback (.channelOpen i typ))) := by
    refine Confined.wp_invariant (fun _ _ hstep ht => ?_) _ hasked
    exact ⟨ht.1.app_none hstep,
      ht.2.table hstep.table (by simp [firstByte?]) (by simp [firstByte?])⟩
  exact wp_mono hrespond (fun _ _ ht => ht) fun _ _ ht => ht.1

theorem askChannelOpen (h : ReceiversAccounted s) (hm : (some pkt).bind channelOpen? = some m) :
    wp (askChannelOpen (P := P) hm env i).run (fun _ t => ReceiversAccounted t)
      (fun _ t => ReceiversAccounted t) s := by
  rw [Server.askChannelOpen, Confined.wp_run_bind, Confined.run_read, wp_get, Confined.wp_run_bind]
  refine wp_mono h.callback_channelOpen (fun allowed t ht => ?_) fun _ _ ht => ht
  obtain ⟨ht, hi⟩ := ht
  rw [Confined.wp_run_bind, AppM.insertChannel, Confined.run_move, wp_modify]
  have hinserted : ReceiversAccounted
      { t with channels := Function.update t.channels i (some (env.channelRef s)) } := by
    intro id hid
    by_cases heq : id = i
    · subst heq
      exact hi
    · dsimp only at hid
      rw [Function.update_of_ne heq] at hid
      exact ht id hid
  rw [finalizeChannelOpen, Confined.wp_run_bind, Confined.run_read, wp_get]
  cases allowed with
  | true => exact hinserted.confirmChannel hm _ _
  | false => exact hinserted.reject hm _ _

theorem handleChannelOpen (h : ReceiversAccounted s) (hmsg : msg = Msg.channelOpen) :
    wp (handleChannelOpen (P := P) hmsg env r).run (fun _ t => ReceiversAccounted t)
      (fun _ t => ReceiversAccounted t) s := by
  rw [Server.handleChannelOpen, Confined.wp_run_bind]
  refine AppM.wp_decoded (fun m r' hparse => ?_) fun _ => h
  have hm : (some (msg :: r)).bind channelOpen? = some m := channelOpen?_of hmsg hparse
  refine Confined.wp_seq (h.newChannelId hm) fun id t ht => ?_
  cases id with
  | none => exact ht
  | some id =>
    dsimp only
    split
    · exact ht.reject hm _ _
    · exact ht.reject hm _ _
    · exact ht.reject hm _ _
    · exact ht.askChannelOpen hm

end Open

theorem readAuthenticated (h : ReceiversAccounted s) :
    wp (readAuthenticated (P := P) env msg r).run (fun _ t => ReceiversAccounted t)
      (fun _ t => ReceiversAccounted t) s := by
  by_cases hopen : msg = Msg.channelOpen
  · rw [Server.readAuthenticated, dif_pos hopen]
    exact h.handleChannelOpen hopen
  by_cases hclose : msg = Msg.channelClose
  · rw [Server.readAuthenticated, dif_neg hopen, dif_pos hclose]
    exact h.readChannelClose hclose
  by_cases hfailure : msg = Msg.channelOpenFailure
  · subst hfailure
    exact h.readChannelOpenFailure rfl
  · refine wp_app (fun _ _ hstep ht => ht.app ?_ ?_ ?_ hstep) (fun _ ht => ht) _ h
    · simpa [firstByte?] using hopen
    · simpa [firstByte?] using hclose
    · simpa [firstByte?] using hfailure

theorem processPacket {buf : Bytes} (h : ReceiversAccounted s) :
    wp (processPacket P env buf) (fun _ t => ReceiversAccounted t)
      (fun _ t => ReceiversAccounted t) s :=
  process_of_read (fun _ _ hstep hs => hs.auth hstep) (fun _ _ hstep hs => hs.app_none hstep)
    (fun _ hs => hs) (fun _ _ _ => h.readAuthenticated)
    (fun _ _ _ => (h.calm (calm_initCompression s)).readAuthenticated) h

end Packets

end ReceiversAccounted

/-- The rules that the loop keeps. -/
theorem receiversCalm (P : Primitives) :
    ServerCalm P (fun _ => ReceiversAccounted) ReceiversAccounted ReceiversAccounted
      fun _ => ReceiversAccounted where
  start_frame hf hs := hs.calm (.of_frame hf)
  start_inv hs := hs
  inv_end hs := hs
  calm hc hs := hs.calm hc
  app hstep hs := hs.app_none hstep
  received ho hs := (hs.calm (.opened ho)).received
  mid_calm hc _ hs := hs.calm hc
  mid_end hs := hs
  mid_skip _ hs := hs
  process _ hs := hs.processPacket

section Refusals

/-- The CHANNEL_OPEN_FAILURE for a CHANNEL_OPEN. -/
def refusal (m : OpenChannelMessage) : Message :=
  match m.typ with
  | .forwardedStreamLocal _ | .agentForward =>
    m.fail Msg.sshOpenAdministrativelyProhibited (ascii "Unsupported channel type")
  | .unknown _ => m.fail Msg.sshOpenUnknownChannelType (ascii "Unknown channel type")
  | _ => m.fail Msg.sshOpenAdministrativelyProhibited (ascii "Rejected")

/-- The channel of a CHANNEL_OPEN, for which a number has been taken, is refused: at once, or by the
application, which leaves the session as `after`. -/
inductive Refused (prims : Primitives) (env : ServerEnv) (m : OpenChannelMessage)
    (number : ChannelId) (before : ServerSession) : ServerSession → Prop
  | atOnce : m.typ.isServed = false → Refused prims env m number before before
  | byHandler {after} : m.typ.isServed = true →
      (respond (P := prims) env (.channelOpen number m.typ)).run
        (before.record (.serverCallback (.channelOpen number m.typ))) = .ok false after →
      Refused prims env m number before after

theorem refusal_of_isServed {m : OpenChannelMessage} (h : m.typ.isServed = true) :
    refusal m = m.fail Msg.sshOpenAdministrativelyProhibited (ascii "Rejected") := by
  unfold refusal
  split <;> simp_all [ChannelType.isServed]

/-- A number is found where one is free. -/
theorem newChannelId_of_free {enc : Encrypted} {k fuel : Nat} (hk : k < fuel)
    (hfree : enc.channels (enc.lastChannelId + 1 + UInt32.ofNat k).toNat = none) :
    ∃ last id, enc.newChannelId fuel = .ok ({ enc with lastChannelId := last }, id) := by
  induction fuel generalizing enc k with
  | zero => omega
  | succ fuel ih =>
    rw [Encrypted.newChannelId]
    dsimp only
    split
    · rename_i htaken
      cases k with
      | zero =>
        rw [show enc.lastChannelId + 1 + UInt32.ofNat 0 = enc.lastChannelId + 1 from
          UInt32.add_zero _] at hfree
        rw [hfree] at htaken
        cases htaken
      | succ k =>
        have hnext : enc.lastChannelId + 1 + 1 + UInt32.ofNat k =
            enc.lastChannelId + 1 + UInt32.ofNat (k + 1) := by
          rw [UInt32.ofNat_add, UInt32.add_assoc _ 1, UInt32.add_comm 1]
          rfl
        have hrest : ({ enc with lastChannelId := enc.lastChannelId + 1 } : Encrypted).channels
            (enc.lastChannelId + 1 + 1 + UInt32.ofNat k).toNat = none := by
          rw [hnext]
          exact hfree
        obtain ⟨last, id, hid⟩ := ih (by omega) hrest
        exact ⟨last, id, hid⟩
    · exact ⟨_, _, rfl⟩

theorem exists_newChannelId {enc : Encrypted} {i : Nat} (hi : i < UInt32.size)
    (hfree : enc.channels i = none) :
    ∃ last id, enc.newChannelId UInt32.size = .ok ({ enc with lastChannelId := last }, id) := by
  have hk : (UInt32.ofNat i - (enc.lastChannelId + 1)).toNat < UInt32.size := UInt32.toNat_lt _
  refine newChannelId_of_free hk ?_
  rw [UInt32.ofNat_toNat, UInt32.add_comm, UInt32.sub_add_cancel, UInt32.toNat_ofNat_of_lt' hi]
  exact hfree

variable {env : ServerEnv} {r rest : Bytes} {m : OpenChannelMessage} {enc enc' : Encrypted}

theorem wp_decoded_of_ok {β : Type} {pkt : Option Bytes} {d : Decoder β} {a : β}
    {Q : {p : β × Bytes // d r = .ok p} → ServerSession → Prop} {E : Exn → ServerSession → Prop}
    (h : d r = .ok (a, rest)) (hQ : Q ⟨(a, rest), h⟩ s) :
    wp (AppM.decoded d r : ServerPacketM P pkt {p : β × Bytes // d r = .ok p}).run Q E s := by
  rw [AppM.decoded, Confined.run_lift, wp_ofExcept, wpExcept_mapError]
  refine wpExcept_attach.mpr ⟨fun p hp => ?_, fun e he => ?_⟩
  · obtain rfl : (a, rest) = p := Except.ok.inj (h.symm.trans hp)
    exact hQ
  · rw [h] at he
    cases he

theorem run_newChannelId {pkt : Bytes} (hm : (some pkt).bind channelOpen? = some m)
    (hc : s.common.encrypted = some enc) (hid : enc.newChannelId UInt32.size = .ok (enc', id)) :
    (AppM.newChannelId hm : ServerPacketM P (some pkt) (Option ChannelId)).run s =
      .ok (some id) ((s.record (.numbered id)).setEncrypted enc') := by
  simp only [AppM.newChannelId, Confined.tryMove, Confined.tryMoves, hc, hid]

theorem run_reject {pkt : Bytes} (hm : (some pkt).bind channelOpen? = some m) (reason : UInt8)
    (message : Bytes) (hc : s.common.encrypted = some enc) :
    (AppM.reject hm reason message : ServerPacketM P (some pkt) Unit).run s =
      .ok () (s.wrote (enc.push (m.fail reason message)) [m.fail reason message]) := by
  rw [AppM.reject, Confined.run_move]
  show EStateM.Result.ok () _ = _
  dsimp only
  rw [hc]

/-- The application leaves the session encrypted. -/
theorem Refused.encrypted (h : Refused P env m id s t) (hc : s.common.encrypted.isSome = true) :
    ∃ e, t.common.encrypted = some e := by
  apply Option.isSome_iff_exists.mp
  cases h with
  | atOnce _ => exact hc
  | byHandler _ hrun =>
    have hkept : wp (respond (P := P) env (.channelOpen id m.typ)).run
        (fun _ t => t.common.encrypted.isSome = true)
        (fun _ t => t.common.encrypted.isSome = true)
        (s.record (.serverCallback (.channelOpen id m.typ))) :=
      Confined.wp_invariant (fun _ _ hstep ht => hstep.kept.encrypted_isSome ▸ ht) _ hc
    rw [wp_of_ok hrun] at hkept
    exact hkept

/-- Nothing is done after the application has refused but to write the answer and to keep the
receiver. -/
theorem wp_askChannelOpen_refused {pkt : Bytes} {e : Encrypted}
    (hm : (some pkt).bind channelOpen? = some m)
    (hrun : (respond (P := P) env (.channelOpen id m.typ)).run
      (s.record (.serverCallback (.channelOpen id m.typ))) = .ok false t)
    (ht : t.common.encrypted = some e) :
    wp (askChannelOpen (P := P) hm env id).run
      (fun _ u => u.common.encrypted = some (e.push
          (m.fail Msg.sshOpenAdministrativelyProhibited (ascii "Rejected"))) ∧
        ∀ i, i ≠ id → u.channels i = t.channels i)
      (fun _ _ => False) s := by
  have hcall : (callback env (.channelOpen id m.typ) rfl rfl rfl :
      ServerPacketM P (some pkt) Bool).run s = .ok false t := hrun
  rw [askChannelOpen, Confined.wp_run_bind, Confined.run_read, wp_get, Confined.wp_run_bind,
    wp_of_ok hcall, Confined.wp_run_bind, AppM.insertChannel, Confined.run_move, wp_modify,
    finalizeChannelOpen, Confined.wp_run_bind, Confined.run_read, wp_get]
  have hkept : ({ t with channels := Function.update t.channels id (some (env.channelRef s)) } :
      ServerSession).common.encrypted = some e := ht
  rw [if_neg (by simp), wp_of_ok (run_reject hm _ _ hkept)]
  refine ⟨rfl, fun i hi => ?_⟩
  exact Function.update_of_ne hi ..

/-- What is written for a CHANNEL_OPEN that is refused, and what becomes of the two tables. -/
theorem readAuthenticated_refused {e : Encrypted} (hm : OpenChannelMessage.parse r = .ok (m, rest))
    (hc : s.common.encrypted = some enc) (hid : enc.newChannelId UInt32.size = .ok (enc', id))
    (href : Refused P env m id ((s.record (.numbered id)).setEncrypted enc') t)
    (ht : t.common.encrypted = some e) :
    ∃ u, (readAuthenticated (P := P) env Msg.channelOpen r).run s = .ok () u ∧
      u.common.encrypted = some (e.push (refusal m)) ∧
      ∀ i, (m.typ.isServed = true → i ≠ id) → u.channels i = t.channels i := by
  have hopen : (some (Msg.channelOpen :: r)).bind channelOpen? = some m := channelOpen?_of rfl hm
  suffices hwp : wp (readAuthenticated (P := P) env Msg.channelOpen r).run
      (fun _ u => u.common.encrypted = some (e.push (refusal m)) ∧
        ∀ i, (m.typ.isServed = true → i ≠ id) → u.channels i = t.channels i)
      (fun _ _ => False) s by
    obtain ⟨⟨⟩, u, hrun, hu⟩ := exists_ok_of_wp hwp
    exact ⟨u, hrun, hu⟩
  rw [readAuthenticated, dif_pos rfl, handleChannelOpen, Confined.wp_run_bind]
  refine wp_decoded_of_ok hm ?_
  dsimp only
  rw [Confined.wp_run_bind, wp_of_ok (run_newChannelId hopen hc hid)]
  dsimp only
  cases href with
  | atOnce hserved =>
    obtain rfl : enc' = e := Option.some.inj ht
    split
    · rename_i htyp
      rw [wp_of_ok (run_reject hopen _ _ rfl), refusal, htyp]
      exact ⟨rfl, fun _ _ => rfl⟩
    · rename_i htyp
      rw [wp_of_ok (run_reject hopen _ _ rfl), refusal, htyp]
      exact ⟨rfl, fun _ _ => rfl⟩
    · rename_i htyp
      rw [AppM.rejectUnknownType, wp_of_ok (run_reject hopen _ _ rfl), refusal, htyp]
      exact ⟨rfl, fun _ _ => rfl⟩
    · simp_all [ChannelType.isServed]
  | byHandler hserved hrun =>
    have hasked := wp_askChannelOpen_refused hopen hrun ht
    rw [refusal_of_isServed hserved]
    split
    · simp_all [ChannelType.isServed]
    · simp_all [ChannelType.isServed]
    · simp_all [ChannelType.isServed]
    · exact wp_mono hasked (fun _ u hu => ⟨hu.1, fun i hi => hu.2 i (hi hserved)⟩) fun _ _ h => h

end Refusals

/-- In every run every receiver is that of a channel in the table of `Encrypted`, of one that this
side has closed, or of one that the application has been asked about. A CHANNEL_OPEN that is refused
is answered by one CHANNEL_OPEN_FAILURE, and leaves both tables as the application has left them, but
for the receiver of a channel that it has been asked about. -/
theorem refused_channels (P : Primitives) (env : ServerEnv) (config : ServerConfig)
    (remoteSshid : Bytes) (labels : List (ServerEnv × ServerInput)) (l : ServerLoop)
    (hrun : run (step P) (start P env config remoteSshid) labels = some l) :
    (∀ id, (l.session.channels id).isSome = true →
      (l.session.entries id).isSome = true ∨ Unlisted id l.session.events) ∧
    ∀ (s : ServerSession) (enc : Encrypted) (env : ServerEnv) (m : OpenChannelMessage)
      (r rest : Bytes), s.common.encrypted = some enc →
      OpenChannelMessage.parse r = .ok (m, rest) → (∃ i < UInt32.size, enc.channels i = none) →
      ∃ last id, enc.newChannelId UInt32.size = .ok ({ enc with lastChannelId := last }, id) ∧
        ∀ t, Refused P env m id
            ((s.record (.numbered id)).setEncrypted { enc with lastChannelId := last }) t →
          ∃ e u, t.common.encrypted = some e ∧
            (readAuthenticated (P := P) env Msg.channelOpen r).run s = .ok () u ∧
            u.common.encrypted = some (e.push (refusal m)) ∧
            ∀ i, (m.typ.isServed = true → i ≠ id) → u.channels i = t.channels i := by
  refine ⟨?_, fun s enc env m r rest hc hm hfree => ?_⟩
  · have hnew : ReceiversAccounted (newSession config remoteSshid) := by
      intro id hid
      cases hid
    exact ((receiversCalm P).run (fun _ _ => True) (fun _ _ _ _ hi => hi) hnew (along_true _ _)
      hrun).ended
  · obtain ⟨i, hi, hnone⟩ := hfree
    obtain ⟨last, id, hid⟩ := exists_newChannelId hi hnone
    refine ⟨last, id, hid, fun t href => ?_⟩
    obtain ⟨e, he⟩ := href.encrypted rfl
    obtain ⟨u, hu, hpush, hchannels⟩ := readAuthenticated_refused hm hc hid href he
    exact ⟨e, u, he, hu, hpush, hchannels⟩

section Examples

/-- A handler that refuses every channel. -/
def refusing : ServerEnv :=
  { knowingFive with
    handler := fun call s =>
      match call with
      | .channelOpen _ _ => ([], .ok false)
      | call => knowingFive.handler call s }

/-- The client opens one channel, and this side closes it. -/
def closedByServer : List (ServerEnv × ServerInput) :=
  openingServer [] ++ [(knowingFive, .send (.channel 2 .close)), (knowingFive, .receive)]

/-- The receiver of a channel that this side has closed stays. -/
theorem refused_channels_closed : ∃ l,
    run (step .toy) (start .toy knowingFive smallServer []) closedByServer = some l ∧
    (l.session.channels 2).isSome = true ∧
    ((l.session.entries 2).isSome = true ∨ Unlisted 2 l.session.events) := by
  have hreceiver : ((run (step .toy) (start .toy knowingFive smallServer [])
      closedByServer).map fun l => (l.session.channels 2).isSome) = some true := by
    decide +kernel
  obtain ⟨l, hl, hch⟩ := Option.map_eq_some_iff.mp hreceiver
  exact ⟨l, hl, hch, (refused_channels .toy _ _ _ _ l hl).1 2 hch⟩

/-- So does that of a channel that the application has refused. -/
theorem not_refused_channels :
    (∃ l, run (step .toy) (start .toy knowingFive smallServer []) closedByServer = some l ∧
      (l.session.channels 2).isSome = true ∧ (l.session.entries 2).isSome = false) ∧
    ∃ l, run (step .toy) (start .toy refusing smallServer [])
        ((openingServer []).map fun label => (refusing, label.2)) = some l ∧
      (l.session.channels 2).isSome = true ∧ (l.session.entries 2).isSome = false := by
  have hclosed : ((run (step .toy) (start .toy knowingFive smallServer []) closedByServer).map
      fun l => ((l.session.channels 2).isSome, (l.session.entries 2).isSome)) =
        some (true, false) := by
    decide +kernel
  have hrefused : ((run (step .toy) (start .toy refusing smallServer [])
      ((openingServer []).map fun label => (refusing, label.2))).map
      fun l => ((l.session.channels 2).isSome, (l.session.entries 2).isSome)) =
        some (true, false) := by
    decide +kernel
  obtain ⟨l, hl, htables⟩ := Option.map_eq_some_iff.mp hclosed
  obtain ⟨hreceiver, hentry⟩ := Prod.mk.inj htables
  obtain ⟨l', hl', htables'⟩ := Option.map_eq_some_iff.mp hrefused
  obtain ⟨hreceiver', hentry'⟩ := Prod.mk.inj htables'
  exact ⟨⟨l, hl, hreceiver, hentry⟩, l', hl', hreceiver', hentry'⟩

end Examples

end Server

end Edgessh.Russh
