import Edgessh.Russh.Session.App

/-!
# Quiet and loud steps

Most steps of a session say nothing about the windows that it has granted, about the global
requests and about their answers. `Quiet` is what they have in common, and `Loud` lists the others,
so that an invariant about one of these things looks at a few steps only.
-/

namespace Edgessh.Russh

variable {K C X : Type}

/-- The channel table. -/
def Session.entries (s : Session K C X) (id : ChannelId) : Option ChannelParams :=
  s.common.encrypted.bind (·.channels id)

theorem Session.entries_eq {s : Session K C X} {enc : Encrypted} (h : s.common.encrypted = some enc)
    (id : ChannelId) : s.entries id = enc.channels id := by
  rw [Session.entries, h]
  rfl

namespace Event

/-- The packet that is put behind `write`. -/
def wrote? : Event → Option Message
  | wrote m => some m
  | _ => none

/-- What a quiet step may leave in the list of events. -/
def isPlain : Event → Bool
  | wrote m => m.isPlain
  | received _ | requested .. | resolved _ | replyCalled => false
  | answer _ a => !a.isResponse
  | setCipher _ | verified .. | serverKeyChecked .. | authAnswered .. | authVerified .. => false
  | e => e.delivered.isNone

end Event

/-- A quiet step. -/
structure Quiet (s t : Session K C X) (new : List Event) : Prop where
  events : t.events = s.events ++ new
  plain : ∀ e ∈ new, e.isPlain = true
  openGlobalRequests : t.openGlobalRequests = s.openGlobalRequests
  window : ∀ id channel', t.entries id = some channel' →
    ∃ channel, s.entries id = some channel ∧
      channel'.senderWindowSize = channel.senderWindowSize
  lives : ∀ id, Lifecycle.Follows (s.entries id).isSome (lives id (new.filterMap Event.wrote?))
    (t.entries id).isSome

/-- A step that is not quiet. -/
inductive Loud (pkt : Option Bytes) (s : Session K C X) : Session K C X → Prop
  | openChannel {enc m id window channel} (chan) : s.common.encrypted = some enc →
      m.opens = some (id, window) → channel.senderWindowSize = UInt32.ofNat window →
      Loud pkt s (s.openChannel m id channel chan enc)
  | account {enc id} (data target) : (firstByte? pkt = some Msg.channelData ∨
      firstByte? pkt = some Msg.channelExtendedData) → s.common.encrypted = some enc →
      Loud pkt s (s.adjustWindowSize id data target enc).1
  | deliver {e} : (firstByte? pkt = some Msg.channelData ∨
      firstByte? pkt = some Msg.channelExtendedData) →
      e.delivered.isSome = true → Loud pkt s (s.record e)
  | globalRequest {response wantReply} (name data) :
      (wantReply = true → response.isSome = true) →
      Loud pkt s (s.globalRequest response name wantReply data)
  | takeReply (tell) : (firstByte? pkt = some Msg.requestSuccess ∨
      firstByte? pkt = some Msg.requestFailure) →
      Loud pkt s (s.takeReply tell)
  | answer {enc m} : (firstByte? pkt = some Msg.globalRequest ∨
      firstByte? pkt = some Msg.channelRequest) →
      m.isReply = true → s.common.encrypted = some enc → Loud pkt s (s.wrote (enc.push m) [m])
  | replyCalled {enc m} : m.isReply = true → s.common.encrypted = some enc →
      Loud pkt s ((s.record .replyCalled).wrote (enc.push m) [m])

theorem Event.isPlain_of_isObservation {e : Event} (h : e.isObservation = true) :
    e.isPlain = true := by
  cases e with
  | serverCallback call =>
    cases call <;> simp_all [Event.isObservation, Event.isPlain, Event.delivered]
  | _ => simp_all [Event.isObservation, Event.isPlain, Event.delivered]

theorem Event.plain_of_called {enc : Encrypted} {id : ChannelId} {m : ChannelMsg}
    {c : Option Bool} {asserts : List Event} {e : Event} (ha : asserts.Sublist (enc.assertion id))
    (he : e ∈ .called id m c :: asserts) : e.isPlain = true ∧ e.wrote? = none := by
  rcases Event.mem_called ha he with rfl | ⟨channel, -, rfl⟩ <;> exact ⟨rfl, rfl⟩

namespace Quiet

variable {s t : Session K C X} {new : List Event}

/-- Events that are not packets behind `write`, with the same table. -/
theorem of_channels (hev : t.events = s.events ++ new) (hplain : ∀ e ∈ new, e.isPlain = true)
    (hwrote : ∀ e ∈ new, e.wrote? = none) (hq : t.openGlobalRequests = s.openGlobalRequests)
    (hc : ∀ id, t.entries id = s.entries id) : Quiet s t new where
  events := hev
  plain := hplain
  openGlobalRequests := hq
  window id channel' h := ⟨channel', hc id ▸ h, rfl⟩
  lives id := by
    rw [hc, List.filterMap_eq_nil_iff.mpr hwrote]
    exact Lifecycle.follows_refl _

/-- Packets behind `write`. -/
theorem of_write {ms : List Message} (hev : t.events = s.events ++ ms.map .wrote)
    (hplain : ∀ m ∈ ms, m.isPlain = true) (hq : t.openGlobalRequests = s.openGlobalRequests)
    (hwindow : ∀ id channel', t.entries id = some channel' → ∃ channel,
      s.entries id = some channel ∧ channel'.senderWindowSize = channel.senderWindowSize)
    (hlives : ∀ id, Lifecycle.Follows (s.entries id).isSome (Russh.lives id ms)
      (t.entries id).isSome) : Quiet s t (ms.map .wrote) where
  events := hev
  plain e he := by
    obtain ⟨m, hm, rfl⟩ := List.mem_map.mp he
    exact hplain m hm
  openGlobalRequests := hq
  window := hwindow
  lives id := by
    have hms : (ms.map Event.wrote).filterMap Event.wrote? = ms := by
      rw [List.filterMap_map]
      exact List.filterMap_some
    rw [hms]
    exact hlives id

/-- The packets of a step. -/
theorem write {enc enc' : Encrypted} {on : Option ChannelId} {ms : List Message}
    (hc : s.common.encrypted = some enc) (h : EncStep on enc enc' ms) :
    Quiet s (s.wrote enc' ms) (ms.map .wrote) := by
  refine of_write rfl h.plain rfl (fun id channel' hc' => ?_) fun id => ?_
  · rw [Session.entries_eq hc]
    exact h.window id channel' hc'
  · rw [Session.entries_eq hc]
    exact h.lives id

/-- Events that are not packets come first. -/
theorem after (before : List Event) (hbefore : ∀ e ∈ before, e.isPlain = true ∧ e.wrote? = none)
    (h : Quiet (s.recordAll before) t new) : Quiet s t (before ++ new) where
  events := by rw [h.events, Session.events_recordAll, List.append_assoc]
  plain e he := (List.mem_append.mp he).elim (fun he => (hbefore e he).1) (h.plain e)
  openGlobalRequests := h.openGlobalRequests
  window := h.window
  lives id := by
    have hnone : before.filterMap Event.wrote? = [] :=
      List.filterMap_eq_nil_iff.mpr fun e he => (hbefore e he).2
    rw [List.filterMap_append, hnone, List.nil_append]
    exact h.lives id

/-- An event that is not a packet, and a step that writes nothing. -/
theorem noting {enc enc' : Encrypted} {e : Event} (hplain : e.isPlain = true)
    (hwrote : e.wrote? = none) (hc : s.common.encrypted = some enc) (h : EncChange none enc enc' []) :
    Quiet s ((s.record e).setEncrypted enc') [e] := by
  have hstep : Quiet (s.recordAll [e]) ((s.record e).setEncrypted enc')
      (([] : List Message).map .wrote) := by
    refine .of_write (by simp) (by simp) rfl (fun i c hi => ?_) fun i => ?_
    · rw [Session.entries_eq (s := s.recordAll [e]) hc]
      exact h.window i c hi
    · rw [Session.entries_eq (s := s.recordAll [e]) hc]
      exact h.lives i
  exact .after [e] (by simp [hplain, hwrote]) hstep

/-- One entry of the table is changed, and the packets say nothing of the life of a channel. -/
theorem setChannel {enc : Encrypted} {id : ChannelId} {channel : ChannelParams}
    (channel' : ChannelParams) (ms : List Message) (hc : s.common.encrypted = some enc)
    (hch : enc.channels id = some channel)
    (hwindow : channel'.senderWindowSize = channel.senderWindowSize)
    (hev : t.events = s.events ++ ms.map .wrote)
    (hplain : ∀ m ∈ ms, m.isPlain = true) (hlife : ∀ i, Russh.lives i ms = [])
    (hq : t.openGlobalRequests = s.openGlobalRequests)
    (ht : ∀ i, t.entries i = (enc.setChannel id channel').channels i) :
    Quiet s t (ms.map .wrote) := by
  have hne : ∀ i, i ≠ id → t.entries i = s.entries i := fun i hi => by
    rw [ht, Session.entries_eq hc]
    exact Function.update_of_ne hi ..
  have heq : t.entries id = some channel' := by
    rw [ht]
    exact Function.update_self ..
  refine of_write hev hplain hq (fun i c hi => ?_) fun i => ?_
  · by_cases h : i = id
    · subst h
      obtain rfl : channel' = c := by simpa [heq] using hi
      exact ⟨channel, by rw [Session.entries_eq hc, hch], hwindow⟩
    · exact ⟨c, by rw [← hne i h, hi], rfl⟩
  · rw [hlife]
    by_cases h : i = id
    · subst h
      simp [heq, Session.entries_eq hc, hch]
    · rw [hne i h]
      exact Lifecycle.follows_refl _

/-- A plain packet that says nothing of the life of a channel is written. -/
theorem push {enc : Encrypted} {m : Message} (hc : s.common.encrypted = some enc)
    (hplain : m.isPlain = true) (hlife : ∀ i, m.lifecycle i = none) :
    Quiet s (s.wrote (enc.push m) [m]) ([m].map .wrote) := by
  refine of_write rfl (by simpa using hplain) rfl (fun id c hi => ⟨c, ?_, rfl⟩) fun id => ?_
  · rw [Session.entries_eq hc]
    exact hi
  · rw [Session.entries_eq hc]
    simp [Russh.lives, hlife, Session.entries, Encrypted.push]

/-- The authentication of a client. -/
theorem auth {pkt : Option Bytes} {enc enc' : Encrypted} (hc : s.common.encrypted = some enc)
    (h : AuthMove pkt enc enc' new) : Quiet s ((s.recordAll new).setEncrypted enc') new := by
  have hentries : ∀ id, ((s.recordAll new).setEncrypted enc').entries id = s.entries id := by
    intro id
    rw [Session.entries_eq hc, ← h.channels]
    rfl
  cases h with
  | accepted => exact of_channels (by simp) (by simp) (by simp) rfl hentries
  | @requested _ _ m request _ hm _ =>
    have hev : ((s.recordAll [.wrote m]).setEncrypted
        { enc.push m with state := .waitingAuthRequest request }).events =
        s.events ++ [m].map .wrote := by simp
    refine of_write hev ?_ rfl (fun id c hi => ⟨c, by rw [← hentries, hi], rfl⟩) fun id => ?_
    · simpa using Message.isPlain_of_isQuiet (Message.isQuiet_of_isAuthRequest hm)
    · rw [hentries]
      simp [Russh.lives, Message.lifecycle_of_isQuiet (Message.isQuiet_of_isAuthRequest hm)]
  | answered => exact of_channels (by simp) (by simp) (by simp) rfl hentries
  | succeeded =>
    exact of_channels (by simp) (by simp [Event.isPlain, Event.delivered]) (by simp [Event.wrote?])
      rfl hentries

theorem clock (now earlier : Nat) : Quiet s (s.record (.clock now earlier)) [.clock now earlier] :=
  of_channels rfl (by simp [Event.isPlain, Event.delivered]) (by simp [Event.wrote?]) rfl
    fun _ => rfl

theorem flush {P : Primitives} {enc : Encrypted} (hc : s.common.encrypted = some enc) :
    ∃ new, Quiet s (s.sealWrite P enc).1 new := by
  obtain ⟨done, rest, -, hev, henc, -⟩ := Session.sealWrite_spec (s := s) (P := P)
  refine ⟨_, .of_channels hev ?_ ?_ rfl fun id => ?_⟩
  · intro e he
    rcases List.mem_cons.mp he with rfl | he
    · rfl
    · obtain ⟨m, -, n, rfl⟩ := mem_sealedPackets he
      rfl
  · intro e he
    rcases List.mem_cons.mp he with rfl | he
    · rfl
    · obtain ⟨m, -, n, rfl⟩ := mem_sealedPackets he
      rfl
  · rw [Session.entries_eq henc, Session.entries_eq hc]

theorem beginRekey {start : KexStart K C} {P : Primitives} {rng : Entropy}
    (hb : s.beginRekey start P rng = .ok t) : ∃ new, Quiet s t new := by
  obtain ⟨kex, w, hk, rfl⟩ := Session.beginRekey_eq_ok hb
  obtain ⟨payload, hp⟩ := start.kexinit_writes hk
  obtain ⟨-, -, ⟨-, rfl⟩ | ⟨-, -, hev⟩⟩ := packetRaw_eq_ok hp
  · exact ⟨[], .of_channels (by simp [Session.events, Session.setWriter]) (by simp) (by simp)
      rfl fun _ => rfl⟩
  · exact ⟨_, .of_channels hev (by simp [Event.isPlain, Event.delivered])
      (by simp [Event.wrote?]) rfl fun _ => rfl⟩

theorem frame (h : s.Frame t) : Quiet s t [] := by
  refine .of_channels ?_ (by simp) (by simp) h.openGlobalRequests fun id => ?_
  · rw [List.append_nil, Session.events, h.packetWriter, Session.events]
  · rw [Session.entries, h.encrypted, Session.entries]

end Quiet

theorem AppStep.quiet_or_loud {start : KexStart K C} {P : Primitives} {pkt : Option Bytes}
    {s t : Session K C X} (h : AppStep start P pkt s t) : (∃ new, Quiet s t new) ∨ Loud pkt s t := by
  cases h with
  | frame h => exact .inl ⟨[], .frame h⟩
  | @observe e h =>
    refine .inl ⟨[e], .of_channels rfl ?_ ?_ rfl fun _ => rfl⟩
    · simpa using Event.isPlain_of_isObservation h
    · cases e <;> simp_all [Event.isObservation, Event.wrote?]
  | write hc h => exact .inl ⟨_, .write hc h⟩
  | called hc ha =>
    refine .inl ⟨_, .of_channels (Session.events_recordAll _) (fun e he => ?_) (fun e he => ?_) rfl
      fun _ => rfl⟩
    · exact (Event.plain_of_called ha he).1
    · exact (Event.plain_of_called ha he).2
  | call hc ha h => exact .inl ⟨_, .after _ (fun _ => Event.plain_of_called ha) (.write hc h)⟩
  | @answerChannel enc id channel m cm hc hch _ _ h =>
    refine .inl ⟨_, .after [.called id cm (some true), .asserted id true] ?_
      (.setChannel { channel with wantsReply := false } [.channel id channel.recipientChannel m] hc
        hch rfl rfl ?_ ?_ rfl fun _ => rfl)⟩
    · simp [Event.isPlain, Event.delivered, Event.wrote?]
    · rcases h with ⟨-, rfl⟩ | ⟨-, rfl⟩ <;> simp [Message.isPlain, ChannelMessage.isPlain]
    · rcases h with ⟨-, rfl⟩ | ⟨-, rfl⟩ <;>
        simp [lives, Message.lifecycle, ChannelMessage.lifecycle]
  | @refuse enc id reason description language hc =>
    refine .inl ⟨_, .after [.refused id] ?_
      (.push hc rfl fun _ => rfl)⟩
    simp [Event.isPlain, Event.delivered, Event.wrote?]
  | reject _ _ _ hc => exact .inl ⟨_, .push hc rfl fun _ => rfl⟩
  | @confirm enc channel c _ hc hch =>
    refine .inl ⟨_, .after [.confirmed c] ?_ (.setChannel (channel.confirm c) [] hc hch rfl
      (by simp) (by simp) (by simp) rfl fun _ => rfl)⟩
    simp [Event.isPlain, Event.delivered, Event.wrote?]
  | @fail enc id channel _ _ hc hch =>
    exact .inl ⟨_, .noting rfl rfl hc .removeChannel⟩
  | number _ hc h _ => exact .inl ⟨_, .noting rfl rfl hc h.toEncChange⟩
  | drop _ _ hc => exact .inl ⟨_, .noting rfl rfl hc .removeChannel⟩
  | closeByPeer _ _ _ hc h => exact .inl ⟨_, .write hc h⟩
  | @noteRequest enc id wantsReply channel _ hc hch =>
    refine .inl ⟨_, .after [.noted id wantsReply] ?_ (.setChannel { channel with wantsReply } []
      hc hch rfl (by simp) (by simp) (by simp) rfl fun _ => rfl)⟩
    simp [Event.isPlain, Event.delivered, Event.wrote?]
  | @answerRequest enc id m _ _ hm hc =>
    refine .inl ⟨_, .push hc ?_ fun i => ?_⟩
    · cases m <;> simp_all [ChannelMessage.isAnswer, Message.isPlain, ChannelMessage.isPlain]
    · cases m <;> simp_all [ChannelMessage.isAnswer, Message.lifecycle, ChannelMessage.lifecycle]
  | openChannel kind windowSize maximumPacketSize suffix chan hc _ _ =>
    exact .inr (.openChannel chan hc rfl rfl)
  | acceptChannel id window maximumPacketSize chan _ hc _ hw _ =>
    exact .inr (.openChannel chan hc rfl hw)
  | insertChannel _ _ _ =>
    exact .inl ⟨[], .of_channels (by simp [Session.events]) (by simp) (by simp) rfl fun _ => rfl⟩
  | account data target h _ hc => exact .inr (.account data target h hc)
  | deliver h he => exact .inr (.deliver h he)
  | @serve call _ _ h =>
    refine .inl ⟨[.serverCallback call], .of_channels rfl ?_ ?_ rfl fun _ => rfl⟩
    · simp [Event.isPlain, h]
    · simp [Event.wrote?]
  | auth hc h => exact .inl ⟨_, .auth hc h⟩
  | globalRequest name data h => exact .inr (.globalRequest name data h)
  | takeReply tell h => exact .inr (.takeReply tell h)
  | answer h hm hc => exact .inr (.answer h hm hc)
  | replyCalled hm hc => exact .inr (.replyCalled hm hc)
  | unsealed m hm _ =>
    refine .inl ⟨[.unsealed m], .of_channels rfl ?_ ?_ rfl fun _ => rfl⟩
    · simp [Event.isPlain, Event.delivered]
    · simp [Event.wrote?]
  | flush hc => exact .inl (Quiet.flush hc)
  | readClock _ => exact .inl ⟨_, .clock _ _⟩
  | beginRekey _ _ _ hb => exact .inl (Quiet.beginRekey hb)

section Programs

variable {α : Type} {start : KexStart K C} {P : Primitives} {pkt : Option Bytes}
  {I : Session K C X → Prop} {s : Session K C X}

open Edgessh.Command

/-- What quiet steps keep, an operation on `encrypted` keeps. -/
theorem wp_update_of_quiet (hI : ∀ s t new, Quiet s t new → I s → I t)
    (f : Encrypted → Except Exn (α × Encrypted))
    (h : ∀ enc a enc', f enc = .ok (a, enc') → ∃ new, EncStep none enc enc' new) (hs : I s) :
    wp (AppM.update f h : AppM start P pkt X (Option α)).run (fun _ t => I t) (fun _ t => I t)
      s := by
  simp only [AppM.update, Confined.tryMove, Confined.tryMoves, wp]
  cases hc : s.common.encrypted with
  | none => exact hs
  | some enc =>
    dsimp only
    cases hf : f enc with
    | error e => exact hs
    | ok p =>
      obtain ⟨new, hstep⟩ := h enc p.1 p.2 hf
      have hdrop : EncStep none enc p.2 (p.2.write.drop enc.write.length) := by
        rw [← hstep.eq_drop]
        exact hstep
      exact hI _ _ _ (.write hc hdrop) hs

theorem wp_frame_of_quiet (hI : ∀ s t new, Quiet s t new → I s → I t)
    (f : Session K C X → Session K C X) (h : ∀ s, Session.Frame s (f s)) (hs : I s) :
    wp (AppM.frame f h : AppM start P pkt X Unit).run (fun _ t => I t) (fun _ t => I t) s :=
  hI _ _ _ (.frame (h s)) hs

theorem wp_setFields_of_quiet (hI : ∀ s t new, Quiet s t new → I s → I t)
    (f : Encrypted → Encrypted) (h : ∀ enc, EncStep none enc (f enc) []) (hs : I s) :
    wp (AppM.setFields f h : AppM start P pkt X Unit).run (fun _ t => I t) (fun _ t => I t) s := by
  rw [AppM.setFields, AppM.modifyEncrypted, Confined.wp_run_bind]
  exact wp_mono (wp_update_of_quiet hI _ _ hs) (fun _ _ ht => ht) fun _ _ ht => ht

theorem wp_sealWrite_of_quiet (hI : ∀ s t new, Quiet s t new → I s → I t) (hs : I s) :
    wp (AppM.sealWrite : AppM start P pkt X Unit).run (fun _ t => I t) (fun _ t => I t) s := by
  simp only [AppM.sealWrite, wp]
  cases hc : s.common.encrypted with
  | none => exact hs
  | some enc =>
    obtain ⟨new, hquiet⟩ := Quiet.flush (P := P) hc
    have ht := hI _ _ _ hquiet hs
    dsimp only
    rcases hw : s.sealWrite P enc with ⟨t, e⟩
    rw [hw] at ht
    cases e <;> exact ht

theorem wp_durationSince_of_quiet (hI : ∀ s t new, Quiet s t new → I s → I t) (now earlier : Nat)
    (hs : I s) :
    wp (AppM.durationSince now earlier : AppM start P pkt X Nat).run (fun _ t => I t)
      (fun _ t => I t) s := by
  simp only [AppM.durationSince, Confined.tryMove, Confined.tryMoves, wp]
  cases P.target.durationSince now earlier with
  | none => exact hs
  | some dur => exact hI _ _ _ (.clock now earlier) hs

theorem wp_flushWrite_of_quiet (hI : ∀ s t new, Quiet s t new → I s → I t) (limits : Limits)
    (now : Session K C X → Nat) (hs : I s) :
    wp (AppM.flushWrite limits now : AppM start P pkt X Bool).run (fun _ t => I t)
      (fun _ t => I t) s := by
  rw [AppM.flushWrite, Confined.wp_run_bind]
  refine wp_mono (wp_sealWrite_of_quiet hI hs) (fun _ t ht => ?_) fun _ _ ht => ht
  rw [Confined.wp_run_bind, Confined.run_read, wp_get]
  split
  · exact ht
  · split
    · exact ht
    · refine Confined.wp_seq (wp_durationSince_of_quiet hI _ _ ht) fun _ _ hu => ?_
      exact Confined.wp_seq (wp_setFields_of_quiet hI _ _ hu) fun _ _ hv => hv

theorem wp_beginRekeyIfIdle_of_quiet (hI : ∀ s t new, Quiet s t new → I s → I t)
    (rng : Session K C X → Entropy) (hs : I s) :
    wp (AppM.beginRekeyIfIdle rng : AppM start P pkt X Unit).run (fun _ t => I t)
      (fun _ t => I t) s := by
  simp only [AppM.beginRekeyIfIdle, Confined.tryMove, Confined.tryMoves, wp]
  by_cases hk : s.kex.active = false ∧ s.common.encrypted.isSome
  · rw [if_pos hk]
    cases hb : s.beginRekey start P (rng s) with
    | error e => exact hs
    | ok t =>
      obtain ⟨new, hquiet⟩ := Quiet.beginRekey hb
      exact hI _ _ _ hquiet hs
  · rw [if_neg hk]
    exact hs

end Programs

end Edgessh.Russh
