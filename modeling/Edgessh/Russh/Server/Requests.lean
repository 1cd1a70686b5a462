import Edgessh.Russh.ChannelNumbers

/-!
# The answers to the CHANNEL_REQUESTs of a client

Of the requests on a channel a server keeps one flag: whether the last one wants an answer.
`channel_success` and `channel_failure` write a packet if it is set, and clear it. So the answers
are right where no request is read before the last one on its channel has been answered, unless
neither wants an answer.
-/

namespace Edgessh.Russh
open Edgessh.Command Edgessh.Run

/-- The packet that answers a CHANNEL_REQUEST. -/
def ChannelMsg.answer? : ChannelMsg → Option ChannelMessage
  | success => some .success
  | failure => some .failure
  | _ => none

theorem ChannelMsg.isAnswer_eq (m : ChannelMsg) : m.isAnswer = m.answer?.isSome := by
  cases m <;> rfl

/-- The CHANNEL_REQUESTs that the application has not answered. -/
structure Requests where
  /-- The requests of each channel, in their order: whether each wants an answer. -/
  pending : ChannelId → List Bool := fun _ => []
  /-- The answer that is the next packet. -/
  due : Option (ChannelId × ChannelMessage) := none

namespace Requests

/-- The first request of the channel is answered. -/
def answer (id : ChannelId) (m : ChannelMessage) (r : Requests) : Requests :=
  match r.pending id with
  | [] => ⟨r.pending, none⟩
  | wanted :: rest =>
    ⟨Function.update r.pending id rest, if wanted then some (id, m) else none⟩

def step (r : Requests) : Event → Requests
  | .received buf =>
    match channelRequest? buf with
    | some (id, wanted) => ⟨Function.update r.pending id (r.pending id ++ [wanted]), none⟩
    | none => ⟨r.pending, none⟩
  | .called id m _ =>
    match m.answer? with
    | some m => r.answer id m
    | none => ⟨r.pending, none⟩
  | .wrote (.channelOpen _ id _ _ _) => ⟨Function.update r.pending id [], none⟩
  | .wrote (.channelOpenConfirmation _ id _ _) => ⟨Function.update r.pending id [], none⟩
  | .asserted _ _ => r
  | _ => ⟨r.pending, none⟩

/-- The requests that have not been answered. -/
def of (events : List Event) : Requests := events.foldl step {}

@[simp] theorem of_concat (events : List Event) (e : Event) :
    of (events ++ [e]) = (of events).step e := by
  simp [of]

/-- A packet that answers a request is the one that is due, and one that is due is the next. -/
def lawful (r : Requests) : Event → Bool
  | .wrote (.channel id _ m) => if m.isAnswer then r.due = some (id, m) else r.due = none
  | .asserted _ _ => true
  | _ => r.due = none

/-- An answer of the application is to a request on a channel that is confirmed. -/
def allowed (r : Requests) : Event → Bool
  | .called id m confirmed => !m.isAnswer || r.pending id ≠ [] && confirmed = some true
  | _ => true

/-- An event that has nothing to do with requests. -/
def isStill : Event → Bool
  | .received buf => (channelRequest? buf).isNone
  | .called _ m _ => !m.isAnswer
  | .wrote (.channel _ _ m) => !m.isAnswer
  | .wrote m => m.opens.isNone
  | _ => true

theorem step_of_isStill {r : Requests} {e : Event} (h : isStill e = true) (hdue : r.due = none) :
    r.step e = r := by
  have hsame : r = ⟨r.pending, none⟩ := by rw [← hdue]
  unfold step
  split
  · rename_i buf
    have hnone : channelRequest? buf = none := by simpa [isStill] using h
    rw [hnone]
    exact hsame.symm
  · rename_i id m c
    have hnone : m.answer? = none := by simpa [isStill, ChannelMsg.isAnswer_eq] using h
    rw [hnone]
    exact hsame.symm
  · simp [isStill, Message.opens] at h
  · simp [isStill, Message.opens] at h
  · rfl
  · exact hsame.symm

theorem lawful_of_isStill {r : Requests} {e : Event} (h : isStill e = true) (hdue : r.due = none) :
    r.lawful e = true := by
  unfold lawful
  split <;> simp_all [isStill]

theorem of_append {events new : List Event} (h : ∀ e ∈ new, isStill e = true)
    (hdue : (of events).due = none) : of (events ++ new) = of events := by
  induction new generalizing events with
  | nil => simp
  | cons e new ih =>
    have hstep : of (events ++ [e]) = of events := by
      rw [of_concat, step_of_isStill (h e List.mem_cons_self) hdue]
    rw [List.append_cons, ih (fun x hx => h x (List.mem_cons_of_mem e hx)) (hstep ▸ hdue), hstep]

theorem lawful_append {events new : List Event} (h : ∀ e ∈ new, isStill e = true)
    (hdue : (of events).due = none) (pre : List Event) (e : Event) (post : List Event)
    (hnew : new = pre ++ e :: post) : (of (events ++ pre)).lawful e = true := by
  have hpre : ∀ x ∈ pre, isStill x = true := fun x hx => h x (by simp [hnew, hx])
  rw [of_append hpre hdue]
  exact lawful_of_isStill (h e (by simp [hnew])) hdue

theorem isStill_of_isAside {e : Event} (h : e.isAside = true) : isStill e = true := by
  unfold isStill
  split <;> simp_all [Event.isAside, Message.isAboutChannel]
  rename_i m hne
  cases m <;> simp_all [Message.opens]

end Requests

/-- What is written as an answer is what is due. -/
def DueLaw (pre : List Event) (e : Event) : Prop := (Requests.of pre).lawful e = true

/-- A packet that answers a request. -/
def Event.answersRequest : Event → Bool
  | wrote (.channel _ _ m) => m.isAnswer
  | _ => false

/-- What is written as an answer carries the number that the peer has given the channel. -/
def AddressLaw (pre : List Event) (e : Event) : Prop :=
  (!e.answersRequest || (PeerNumbers.of pre).carried e) = true

/-- The answers of the session. -/
def AnswerLaw (pre : List Event) (e : Event) : Prop := DueLaw pre e ∧ AddressLaw pre e

/-- The answers of the application. -/
def RequestCalls (pre : List Event) (e : Event) : Prop := (Requests.of pre).allowed e = true

instance AnswerLaw.decidable (pre : List Event) (e : Event) : Decidable (AnswerLaw pre e) :=
  inferInstanceAs (Decidable (_ = true ∧ _ = true))

instance RequestCalls.decidable (pre : List Event) (e : Event) :
    Decidable (RequestCalls pre e) :=
  inferInstanceAs (Decidable (_ = true))

/-- The flag of a channel says of its requests what they want: one of them may want an answer if
there is no other. -/
structure Flags (pending : List Bool) (wantsReply : Bool) : Prop where
  flag : wantsReply = pending.any id
  single : 2 ≤ pending.length → pending.any id = false

namespace Flags

theorem nil : Flags [] false := ⟨rfl, by simp⟩

/-- The first request is answered, and wants it. -/
theorem of_wanted {pending : List Bool} (h : Flags pending true) : pending = [true] := by
  have hany : pending.any id = true := h.flag.symm
  match pending, h with
  | [], _ => simp at hany
  | [wanted], _ => simpa using hany
  | wanted :: next :: rest, h =>
    rw [h.single (by simp)] at hany
    cases hany

/-- The first request is answered, and does not want it. -/
theorem of_unwanted {wanted : Bool} {rest : List Bool} (h : Flags (wanted :: rest) false) :
    wanted = false ∧ Flags rest false := by
  have hany : (wanted :: rest).any id = false := h.flag.symm
  obtain ⟨hwanted, hrest⟩ : wanted = false ∧ rest.any id = false := by simpa using hany
  exact ⟨hwanted, hrest.symm, fun _ => hrest⟩

/-- One more request. -/
theorem push {pending : List Bool} {wanted : Bool}
    (h : pending = [] ∨ wanted = false ∧ pending.any id = false) :
    Flags (pending ++ [wanted]) wanted := by
  rcases h with rfl | ⟨rfl, hany⟩
  · exact ⟨by simp, by simp⟩
  · exact ⟨by simp_all, by simp_all⟩

end Flags

variable {K C X : Type}

theorem TableStep.events {s t : Session K C X} {role : Role} {pkt : Option Bytes}
    (h : TableStep role pkt s t) : ∃ new, t.events = s.events ++ new := by
  cases h with
  | aside h =>
    obtain ⟨new, hev, -⟩ := h.events
    exact ⟨new, hev⟩
  | call | answerChannel | refuse => exact ⟨_, List.append_assoc ..⟩
  | openChannel | acceptChannel => exact ⟨_, Session.events_openChannel ..⟩
  | _ => exact ⟨_, rfl⟩

/-- Every answer has been to a request that wanted one, and the flags are right. -/
structure Answering (s : Session K C X) : Prop where
  lawful : Traced DueLaw s.events
  due : (Requests.of s.events).due = none
  flags : ∀ id channel, s.entries id = some channel →
    Flags ((Requests.of s.events).pending id) channel.wantsReply

namespace Answering

variable {s t : Session K C X}

/-- Events that have nothing to do with requests. -/
theorem extend {new : List Event} (h : Answering s) (hev : t.events = s.events ++ new)
    (hstill : ∀ e ∈ new, Requests.isStill e = true)
    (hentry : EntriesFrom (fun channel channel' => channel'.wantsReply = channel.wantsReply) s t) :
    Answering t := by
  have hsame : Requests.of t.events = Requests.of s.events := by
    rw [hev, Requests.of_append hstill h.due]
  refine ⟨?_, hsame ▸ h.due, fun id channel' hc' => ?_⟩
  · rw [hev, traced_append]
    exact ⟨h.lawful, Requests.lawful_append hstill h.due⟩
  · obtain ⟨channel, hc, hw⟩ := hentry id channel' hc'
    rw [hsame, hw]
    exact h.flags id channel hc

/-- The entry of a channel is replaced by one with another flag. -/
theorem replace (id : ChannelId) (pending : List Bool) {channel' : ChannelParams} (h : Answering s)
    (hlaw : Traced DueLaw t.events)
    (hr : Requests.of t.events =
      ⟨Function.update (Requests.of s.events).pending id pending, none⟩)
    (ht : t.entries id = some channel' ∧ ∀ i, i ≠ id → t.entries i = s.entries i)
    (hflags : Flags pending channel'.wantsReply) : Answering t := by
  refine ⟨hlaw, by rw [hr], fun i c hi => ?_⟩
  rw [hr]
  by_cases hid : i = id
  · subst hid
    obtain rfl : channel' = c := by simpa [ht.1] using hi
    simpa using hflags
  · simpa [hid] using h.flags i c (ht.2 i hid ▸ hi)

/-- A channel gets an entry: there are no requests. -/
theorem opened {enc : Encrypted} {m : Message} {id : ChannelId} {channel : ChannelParams}
    (chan : Option ChannelRef) (h : Answering s) (hc : s.common.encrypted = some enc)
    (hstep : ∀ r : Requests, r.step (.wrote m) = ⟨Function.update r.pending id [], none⟩)
    (hm : ∀ i recipient msg, m ≠ .channel i recipient msg) (hw : channel.wantsReply = false) :
    Answering (s.openChannel m id channel chan enc) := by
  have hev := s.events_openChannel m id channel chan enc
  have hopening : Requests.of (s.events ++ [.opening enc.state]) = Requests.of s.events :=
    Requests.of_append (by simp [Requests.isStill]) h.due
  refine h.replace id [] ?_ ?_ (Session.entries_openChannel m channel chan hc) (hw ▸ Flags.nil)
  · rw [hev, List.append_cons]
    refine traced_concat.mpr ⟨traced_concat.mpr ⟨h.lawful, ?_⟩, ?_⟩
    · simpa [DueLaw, Requests.lawful] using h.due
    · rw [DueLaw, hopening, Requests.lawful]
      · simpa using h.due
      · intro i recipient msg he
        exact hm i recipient msg (Event.wrote.inj he)
      · exact nofun
  · rw [hev, List.append_cons, Requests.of_concat, hopening, hstep]

/-- An answer of the application, before the packet. -/
theorem answered {id : ChannelId} {cm : ChannelMsg} {m : ChannelMessage} {c : Option Bool}
    {asserts : List Event} (h : Answering s) (hm : cm.answer? = some m)
    (hasserts : ∀ e ∈ asserts, ∃ i b, e = .asserted i b) :
    Traced DueLaw (s.events ++ .called id cm c :: asserts) ∧
      Requests.of (s.events ++ .called id cm c :: asserts) =
        (Requests.of s.events).answer id m := by
  have hcalled : Requests.of (s.events ++ [.called id cm c]) =
      (Requests.of s.events).answer id m := by
    simp [Requests.step, hm]
  have hlaw : Traced DueLaw (s.events ++ [.called id cm c]) :=
    traced_concat.mpr ⟨h.lawful, by simpa [DueLaw, Requests.lawful] using h.due⟩
  rw [List.append_cons]
  induction asserts using List.reverseRecOn with
  | nil =>
    rw [List.append_nil]
    exact ⟨hlaw, hcalled⟩
  | append_singleton asserts e ih =>
    obtain ⟨i, b, rfl⟩ := hasserts e (by simp)
    obtain ⟨ihlaw, ihr⟩ := ih fun x hx => hasserts x (by simp [hx])
    rw [← List.append_assoc]
    exact ⟨traced_concat.mpr ⟨ihlaw, rfl⟩, by rw [Requests.of_concat, ihr]; rfl⟩

end Answering

section Steps

variable {s t : Session K C X} {enc : Encrypted} {id : ChannelId} {asserts : List Event}

theorem asserted_of_sublist (ha : asserts.Sublist (enc.assertion id)) :
    ∀ e ∈ asserts, ∃ i b, e = .asserted i b := by
  intro e he
  have hmem := ha.subset he
  rw [Encrypted.assertion, Option.mem_toList] at hmem
  obtain ⟨b, -, rfl⟩ := Option.map_eq_some_iff.mp hmem
  exact ⟨id, b, rfl⟩

theorem still_wrote {new : List Message} (hplain : ∀ m ∈ new, m.isPlain = true)
    (hanswer : ∀ m ∈ new, m.isAnswer = false) :
    ∀ e ∈ new.map Event.wrote, Requests.isStill e = true := by
  intro e he
  obtain ⟨m, hm, rfl⟩ := List.mem_map.mp he
  have hp := hplain m hm
  have ha := hanswer m hm
  cases m with
  | channel i recipient msg =>
    show (!msg.isAnswer) = true
    rw [show msg.isAnswer = false from ha]
    rfl
  | channelOpen | channelOpenConfirmation => cases hp
  | _ => rfl

theorem still_called {m : ChannelMsg} {c : Option Bool} (hm : m.isAnswer = false)
    (ha : asserts.Sublist (enc.assertion id)) :
    ∀ e ∈ .called id m c :: asserts, Requests.isStill e = true := by
  intro e he
  rcases List.mem_cons.mp he with rfl | he
  · simp [Requests.isStill, hm]
  · obtain ⟨i, b, rfl⟩ := asserted_of_sublist ha e he
    rfl

/-- An answer of the application that writes no packet: the request did not want one. -/
theorem Answering.unwanted {m : ChannelMsg} (h : Answering s) (hc : s.common.encrypted = some enc)
    (ha : asserts.Sublist (enc.assertion id)) (hm : m.isAnswer = true)
    (hwants : ∀ channel, enc.channels id = some channel → channel.confirmed = true →
      channel.wantsReply = false)
    (hcalls : Traced RequestCalls (s.events ++ .called id m (enc.confirmed? id) :: asserts)) :
    Answering (s.recordAll (.called id m (enc.confirmed? id) :: asserts)) := by
  obtain ⟨hpending, hconf⟩ : (Requests.of s.events).pending id ≠ [] ∧
      enc.confirmed? id = some true := by
    have hcall := (traced_append.mp hcalls).2 [] (.called id m (enc.confirmed? id)) asserts rfl
    simpa [RequestCalls, Requests.allowed, hm] using hcall
  obtain ⟨channel, hch, hconf⟩ := Option.map_eq_some_iff.mp hconf
  obtain ⟨packet, hpacket⟩ := Option.isSome_iff_exists.mp (m.isAnswer_eq ▸ hm)
  obtain ⟨wanted, rest, hrest⟩ := List.exists_cons_of_ne_nil hpending
  have hflags := h.flags id channel ((Session.entries_eq hc id).trans hch)
  rw [hwants channel hch hconf, hrest] at hflags
  obtain ⟨rfl, hleft⟩ := hflags.of_unwanted
  obtain ⟨hlaw, hr⟩ : Traced DueLaw (s.events ++ .called id m (enc.confirmed? id) :: asserts) ∧
      Requests.of (s.events ++ .called id m (enc.confirmed? id) :: asserts) =
        (Requests.of s.events).answer id packet := h.answered hpacket (asserted_of_sublist ha)
  refine h.replace id rest hlaw (hr.trans ?_)
    ⟨(Session.entries_eq hc id).trans hch, fun _ _ => rfl⟩ ?_
  · simp [Requests.answer, hrest]
  · rw [hwants channel hch hconf]
    exact hleft

/-- An answer of the application that writes a packet: the request wanted one. -/
theorem Answering.wanted {channel : ChannelParams} {cm : ChannelMsg} {m : ChannelMessage}
    (h : Answering s) (hc : s.common.encrypted = some enc) (hch : enc.channels id = some channel)
    (hw : channel.wantsReply = true)
    (hm : cm = .success ∧ m = .success ∨ cm = .failure ∧ m = .failure) :
    Answering ((s.recordAll [.called id cm (some true), .asserted id true]).wrote
      ((enc.setChannel id { channel with wantsReply := false }).push
        (.channel id channel.recipientChannel m)) [.channel id channel.recipientChannel m]) := by
  have hanswer : cm.answer? = some m ∧ m.isAnswer = true := by
    rcases hm with ⟨rfl, rfl⟩ | ⟨rfl, rfl⟩ <;> exact ⟨rfl, rfl⟩
  have hflags := h.flags id channel ((Session.entries_eq hc id).trans hch)
  rw [hw] at hflags
  have hpending := hflags.of_wanted
  have hasserts : ∀ e ∈ [Event.asserted id true], ∃ i b, e = .asserted i b := by simp
  obtain ⟨hlaw, hr⟩ := h.answered (c := some true) hanswer.1 hasserts
  have hdue : Requests.of (s.events ++ [.called id cm (some true), .asserted id true]) =
      ⟨Function.update (Requests.of s.events).pending id [], some (id, m)⟩ := by
    rw [hr]
    simp [Requests.answer, hpending]
  apply h.replace id []
  · rw [Session.events_wrote, Session.events_recordAll]
    refine traced_concat.mpr ⟨hlaw, ?_⟩
    rw [DueLaw, hdue]
    simp [Requests.lawful, hanswer.2]
  · rw [Session.events_wrote, Session.events_recordAll, List.map_singleton, Requests.of_concat,
      hdue]
    rfl
  · exact Session.entries_update hc rfl rfl
  · exact Flags.nil

end Steps

theorem Answering.table {s t : Session K C X} {pkt : Option Bytes}
    (hstep : TableStep .server pkt s t) (hpkt : pkt.bind channelRequest? = none)
    (h : Traced RequestCalls s.events → Answering s) :
    Traced RequestCalls t.events → Answering t := by
  intro hcalls
  replace h : Answering s := by
    obtain ⟨new, hev⟩ := hstep.events
    exact h (traced_append.mp (hev ▸ hcalls)).1
  have hkept : ∀ channel channel' : ChannelParams, channel.Kept channel' →
      channel'.wantsReply = channel.wantsReply := fun _ _ hk => hk.wantsReply
  cases hstep with
  | aside ha =>
    obtain ⟨new, hev, hnew⟩ := ha.events
    exact h.extend hev (fun e he => Requests.isStill_of_isAside (hnew e he))
      (.same hkept ha.entries)
  | write hc hs =>
    exact h.extend (Session.events_wrote ..) (still_wrote hs.plain hs.noAnswer)
      (hs.toEncChange.entriesFrom hkept hc rfl)
  | @called enc id m asserts hc ha hwants =>
    cases hm : m.isAnswer with
    | true => exact h.unwanted hc ha hm (hwants hm) hcalls
    | false =>
      exact h.extend (Session.events_recordAll _) (still_called hm ha) (.same hkept fun _ => rfl)
  | call hc ha hs hm =>
    refine h.extend (List.append_assoc ..) (fun e he => ?_)
      (hs.toEncChange.entriesFrom hkept hc rfl)
    exact (List.mem_append.mp he).elim (still_called hm ha e) (still_wrote hs.plain hs.noAnswer e)
  | answerChannel cm hc hch hconf hw hm => exact h.wanted hc hch hw hm
  | refuse id reason description language hc =>
    exact h.extend (List.append_assoc ..) (by simp [Requests.isStill, Message.opens])
      (.same hkept fun i => (Session.entries_eq hc i).symm)
  | openChannel kind windowSize maximumPacketSize suffix chan hc hnone =>
    exact h.opened chan hc (fun _ => rfl) (fun _ _ _ h => by cases h) rfl
  | acceptChannel id window maximumPacketSize chan hm hc hconf hr hw =>
    exact h.opened chan hc (fun _ => rfl) (fun _ _ _ h => by cases h) hw
  | reject reason message hm hc =>
    exact h.extend (Session.events_wrote ..)
      (by simp [Requests.isStill, OpenChannelMessage.fail, Message.opens])
      (.same hkept fun i => (Session.entries_eq hc i).symm)
  | @confirm enc channel c hm hc hch =>
    exact h.extend (Session.events_record _) (by simp [Requests.isStill])
      (.replaced hkept ((Session.entries_eq hc _).trans hch)
        (Session.entries_update hc rfl rfl) rfl)
  | @fail enc id channel hm hid hc hch =>
    have hs : EncChange none enc (enc.removeChannel id) [] := .removeChannel
    exact h.extend (Session.events_record _) (by simp [Requests.isStill])
      (hs.entriesFrom hkept hc rfl)
  | number hm hc hs hnone =>
    exact h.extend (Session.events_record _) (by simp [Requests.isStill])
      (hs.toEncChange.entriesFrom hkept hc rfl)
  | @drop enc id hm hid hc =>
    have hs : EncChange none enc (enc.removeChannel id) [] := .removeChannel
    exact h.extend (Session.events_record _) (by simp [Requests.isStill])
      (hs.entriesFrom hkept hc rfl)
  | closeByPeer hr hm hid hc hs => cases hr
  | noteRequest hm hc hch => simp [hpkt] at hm
  | answerRequest hr hreq ha hc => cases hr
  | @account enc enc' id channel new window hm hid hc hch hchannels hnew =>
    refine h.extend (Session.events_wrote ..) (fun e he => ?_)
      (.replaced hkept ((Session.entries_eq hc id).trans hch)
        (Session.entries_update hc rfl hchannels) rfl)
    obtain ⟨m, hmem, rfl⟩ := List.mem_map.mp he
    obtain ⟨amount, rfl⟩ := hnew m hmem
    rfl

/-- `Answering`, if the application has answered requests only. -/
def AnsweringCalls (s : Session K C X) : Prop := Traced RequestCalls s.events → Answering s

theorem AnsweringCalls.aside {s t : Session K C X} (ha : Aside s t) (h : AnsweringCalls s) :
    AnsweringCalls t := by
  have hstep : TableStep .server none s t := .aside ha
  exact Answering.table hstep rfl h

/-- A session that has read a CHANNEL_REQUEST, and not yet noted whether an answer is wanted. -/
structure Asked (id : ChannelId) (wanted : Bool) (s : Session K C X) : Prop where
  entry : ∃ channel, s.entries id = some channel
  lawful : Traced RequestCalls s.events → Traced DueLaw s.events
  due : Traced RequestCalls s.events → (Requests.of s.events).due = none
  flags : Traced RequestCalls s.events → Flags ((Requests.of s.events).pending id) wanted
  others : Traced RequestCalls s.events → ∀ i channel, i ≠ id → s.entries i = some channel →
    Flags ((Requests.of s.events).pending i) channel.wantsReply

namespace Asked

variable {s t : Session K C X} {id : ChannelId} {wanted : Bool}

theorem calm (hc : Calm s t) (h : Asked id wanted s) : Asked id wanted t := by
  obtain ⟨new, hev, hnew⟩ := hc.events
  have hstill : ∀ e ∈ new, Requests.isStill e = true := fun e he =>
    Requests.isStill_of_isAside (Event.isAside_of_isCalm (hnew e he))
  have hcalls : Traced RequestCalls t.events → Traced RequestCalls s.events := fun ht =>
    (traced_append.mp (hev ▸ ht)).1
  have hsame : Traced RequestCalls t.events → Requests.of t.events = Requests.of s.events :=
    fun ht => by rw [hev, Requests.of_append hstill (h.due (hcalls ht))]
  refine ⟨?_, fun ht => ?_, fun ht => ?_, fun ht => ?_, fun ht i channel hi hch => ?_⟩
  · obtain ⟨channel, hch⟩ := h.entry
    exact ⟨channel, (hc.entries id).trans hch⟩
  · have hold := h.lawful (hcalls ht)
    rw [hev, traced_append]
    exact ⟨hold, Requests.lawful_append hstill (h.due (hcalls ht))⟩
  · exact hsame ht ▸ h.due (hcalls ht)
  · exact hsame ht ▸ h.flags (hcalls ht)
  · rw [hsame ht]
    exact h.others (hcalls ht) i channel hi ((hc.entries i).symm.trans hch)

/-- The entry notes whether an answer is wanted. -/
theorem noted {enc : Encrypted} {channel : ChannelParams} (h : Asked id wanted s)
    (hc : s.common.encrypted = some enc) :
    AnsweringCalls ((s.record (.noted id wanted)).setEncrypted
      (enc.setChannel id { channel with wantsReply := wanted })) := by
  intro hcalls
  replace hcalls : Traced RequestCalls s.events := (traced_concat.mp hcalls).1
  have hstill : ∀ e ∈ [Event.noted id wanted], Requests.isStill e = true := by
    simp [Requests.isStill]
  have hsame : Requests.of (s.events ++ [.noted id wanted]) = Requests.of s.events :=
    Requests.of_append hstill (h.due hcalls)
  refine ⟨traced_append.mpr ⟨h.lawful hcalls, Requests.lawful_append hstill (h.due hcalls)⟩,
    hsame ▸ h.due hcalls, fun i c hi => ?_⟩
  obtain ⟨hself, hother⟩ := Session.entries_update (t := (s.record (.noted id wanted)).setEncrypted
    (enc.setChannel id { channel with wantsReply := wanted })) hc rfl rfl
  rw [Session.events_setEncrypted, Session.events_record, hsame]
  by_cases hid : i = id
  · subst hid
    rw [hself] at hi
    cases hi
    exact h.flags hcalls
  · rw [hother i hid] at hi
    exact h.others hcalls i c hid hi

end Asked

section Address

/-- The answers have carried the numbers of the peer. -/
structure Addressed (s : Session K C X) : Prop extends NumbersHeld s where
  lawful : Traced AddressLaw s.events

variable {s t : Session K C X} {new : List Event}

theorem answersRequest_of_isStill {e : Event} (h : Requests.isStill e = true) :
    e.answersRequest = false := by
  unfold Event.answersRequest
  split
  · simpa [Requests.isStill] using h
  · rfl

theorem Addressed.extend (h : Addressed s) (hheld : NumbersHeld t)
    (hev : t.events = s.events ++ new) (hnew : ∀ e ∈ new, e.answersRequest = false) :
    Addressed t := by
  refine ⟨hheld, ?_⟩
  rw [hev]
  exact h.lawful.append_of_forall fun pre e he => by simp [AddressLaw, hnew e he]

/-- An answer goes to the number in the entry, which is that of the peer. -/
theorem Addressed.table {pkt : Option Bytes} (hstep : TableStep .server pkt s t)
    (hn : NumbersOffered pkt s) (h : Addressed s) : Addressed t := by
  have hheld : NumbersHeld t := h.toNumbersHeld.table hstep hn
  have hstill : ∀ {new : List Event}, t.events = s.events ++ new →
      (∀ e ∈ new, Requests.isStill e = true) → Addressed t := fun hev hnew =>
    h.extend hheld hev fun e he => answersRequest_of_isStill (hnew e he)
  cases hstep with
  | aside ha =>
    obtain ⟨new, hev, hnew⟩ := ha.events
    exact hstill hev fun e he => Requests.isStill_of_isAside (hnew e he)
  | write hc hs => exact hstill (Session.events_wrote ..) (still_wrote hs.plain hs.noAnswer)
  | called hc ha =>
    refine h.extend hheld (Session.events_recordAll _) fun e he => ?_
    rcases Event.mem_called ha he with rfl | ⟨channel, -, rfl⟩ <;> rfl
  | call hc ha hs hm =>
    refine hstill (List.append_assoc ..) fun e he => ?_
    exact (List.mem_append.mp he).elim (still_called hm ha e) (still_wrote hs.plain hs.noAnswer e)
  | @answerChannel enc id channel m cm hc hch hconf _ _ =>
    have hnumber := h.number id channel ((Session.entries_eq hc id).trans hch) hconf
    refine ⟨hheld, ?_⟩
    rw [Session.events_wrote, Session.events_recordAll]
    refine traced_concat.mpr ⟨h.lawful.append_of_forall fun pre e he => ?_, ?_⟩
    · rcases List.mem_pair.mp he with rfl | rfl <;> rfl
    · rw [AddressLaw, PeerNumbers.of_append (by simp [PeerNumbers.isStill])]
      simp [PeerNumbers.carried, hnumber]
  | refuse id reason description language hc =>
    exact h.extend hheld (List.append_assoc ..) (by simp [Event.answersRequest])
  | openChannel =>
    exact h.extend hheld (Session.events_openChannel ..) (by simp [Event.answersRequest])
  | acceptChannel =>
    exact h.extend hheld (Session.events_openChannel ..) (by simp [Event.answersRequest])
  | reject reason message hm hc =>
    exact h.extend hheld (Session.events_wrote ..)
      (by simp [Event.answersRequest, OpenChannelMessage.fail])
  | confirm | fail | number | drop | noteRequest =>
    exact h.extend hheld (Session.events_record _) (by simp [Event.answersRequest])
  | closeByPeer hr hm hid hc hs => cases hr
  | answerRequest hr hreq ha hc => cases hr
  | account window hm hid hc hch hchannels hnew =>
    refine h.extend hheld (Session.events_wrote ..) fun e he => ?_
    obtain ⟨m, hmem, rfl⟩ := List.mem_map.mp he
    obtain ⟨amount, rfl⟩ := hnew m hmem
    rfl

/-- Nothing is asked of the packets. -/
theorem addressedInvariant : TableInvariant (K := K) (C := C) (X := X) .server
    (fun _ _ => True) (fun buf s => NumbersOffered (some buf) s) Addressed where
  aside {s t} ha h := by
    have hstep : TableStep .server (some []) s t := .aside ha
    exact h.table hstep ⟨nofun, nofun⟩
  ready _ h := h
  cond {s t buf} ha h := by
    obtain ⟨new, hev, hnew⟩ := ha.events
    have hsame : PeerNumbers.of t.events = PeerNumbers.of s.events := by
      rw [hev]
      exact PeerNumbers.of_append fun e he => PeerNumbers.isStill_of_isAside (hnew e he)
    exact ⟨hsame ▸ h.offered, hsame ▸ h.confirmation⟩
  received {s buf} _ h := by
    refine ⟨⟨fun m hm => ?_, fun c hc => ?_⟩, h.toNumbersHeld.received buf, ?_⟩
    · simp [PeerNumbers.step, show channelOpen? buf = some m from hm]
    · simpa [PeerNumbers.step] using hc
    · exact traced_concat.mpr ⟨h.lawful, rfl⟩
  own hstep hc h := h.table hstep hc
  rest hstep h := h.table hstep ⟨nofun, nofun⟩
  other {s t buf} _ hstep hu hc h := by
    obtain ⟨new, hev, hnew⟩ := hu.events
    obtain ⟨hoffered, hconfirmation⟩ := PeerNumbers.offered_append s.events hnew
    rw [← hev] at hoffered hconfirmation
    exact ⟨⟨fun m hm => hoffered.trans (hc.offered m hm),
      fun c hm => hconfirmation.trans (hc.confirmation c hm)⟩, h.table hstep hc⟩

end Address

namespace Server

variable {P : Primitives} {s t : ServerSession} {buf : Bytes}

/-- A CHANNEL_REQUEST is for a channel that is confirmed, and on which no request has not been
answered, unless neither that one nor this one wants an answer. -/
def meetsRequests (buf : Bytes) (s : ServerSession) : Bool :=
  (channelRequest? buf).all fun (id, wanted) =>
    isAuthenticated s && ((s.entries id).any fun channel => channel.confirmed) &&
      (((Requests.of s.events).pending id).isEmpty ||
        !wanted && !((Requests.of s.events).pending id).any fun wanted => wanted)

theorem meetsRequests_congr (hev : t.events = s.events)
    (hentries : ∀ id, t.entries id = s.entries id) (hauth : isAuthenticated t = isAuthenticated s)
    (buf : Bytes) : meetsRequests buf t = meetsRequests buf s := by
  simp only [meetsRequests, hev, hentries, hauth]

theorem meetsRequests_opened {payload : Bytes} (ho : Opened P payload buf s t) :
    meetsRequests buf t = meetsRequests buf s := by
  refine meetsRequests_congr ?_ (Calm.opened ho).entries ?_ buf
  · cases ho <;> rfl
  · cases ho with
    | clear => rfl
    | decompressed hc => simp [isAuthenticated, hc]

/-- What holds when a packet has been read. -/
structure RequestRead (buf : Bytes) (s : ServerSession) : Prop where
  other : channelRequest? buf = none → AnsweringCalls s
  asked : ∀ id wanted, channelRequest? buf = some (id, wanted) →
    isAuthenticated s = true ∧ Russh.Asked id wanted s

/-- What holds when the loop has ended. -/
def RequestsAnswered (s : ServerSession) : Prop :=
  Traced RequestCalls s.events → Traced DueLaw s.events ∧ (Requests.of s.events).due = none

theorem requestsAnswered_of_answering (h : AnsweringCalls s) : RequestsAnswered s :=
  fun hcalls => ⟨(h hcalls).lawful, (h hcalls).due⟩

theorem RequestRead.ended (h : RequestRead buf s) : RequestsAnswered s := by
  cases hreq : channelRequest? buf with
  | none => exact requestsAnswered_of_answering (h.other hreq)
  | some p =>
    obtain ⟨-, hasked⟩ := h.asked p.1 p.2 hreq
    exact fun hcalls => ⟨hasked.lawful hcalls, hasked.due hcalls⟩

theorem RequestRead.calm (hc : Calm s t) (henc : t.common.encrypted = s.common.encrypted)
    (h : RequestRead buf s) : RequestRead buf t where
  other hnone := (h.other hnone).aside (.of_calm hc)
  asked id wanted hreq := by
    obtain ⟨hauth, hasked⟩ := h.asked id wanted hreq
    exact ⟨by rwa [isAuthenticated, henc], hasked.calm hc⟩

theorem RequestRead.received (h : AnsweringCalls s) (hmeets : meetsRequests buf s = true) :
    RequestRead buf (s.record (.received buf)) where
  other hnone hcalls := by
    have hs := h (traced_concat.mp hcalls).1
    exact hs.extend (Session.events_record _) (by simp [Requests.isStill, hnone])
      fun id channel hc => ⟨channel, hc, rfl⟩
  asked id wanted hreq := by
    obtain ⟨⟨hauth, channel, hch, -⟩, hpending⟩ :
        (isAuthenticated s = true ∧
          ∃ channel, s.entries id = some channel ∧ channel.confirmed = true) ∧
        ((Requests.of s.events).pending id = [] ∨ wanted = false ∧
          ((Requests.of s.events).pending id).any (fun wanted => wanted) = false) := by
      simpa [meetsRequests, hreq, Option.any_eq_true] using hmeets
    have hr : Requests.of (s.events ++ [.received buf]) =
        ⟨Function.update (Requests.of s.events).pending id
          ((Requests.of s.events).pending id ++ [wanted]), none⟩ := by
      simp [Requests.step, hreq]
    have hanswering : Traced RequestCalls (s.events ++ [.received buf]) → Answering s :=
      fun hcalls => h (traced_concat.mp hcalls).1
    refine ⟨hauth, ⟨channel, hch⟩, fun hcalls => ?_, fun _ => ?_, fun _ => ?_,
      fun hcalls i c hi hc => ?_⟩
    · have hdue := (hanswering hcalls).due
      refine traced_concat.mpr ⟨(hanswering hcalls).lawful, ?_⟩
      rw [DueLaw, Requests.lawful]
      · exact decide_eq_true hdue
      · exact nofun
      · exact nofun
    · rw [Session.events_record, hr]
    · rw [Session.events_record, hr]
      simpa using Flags.push hpending
    · rw [Session.events_record, hr]
      simpa [hi] using (hanswering hcalls).flags i c hc

section Process

variable {env : ServerEnv} {msg : UInt8} {r : Bytes}

/-- What is done after the request has been noted keeps the flags right. -/
theorem requestRules (P : Primitives) (buf : Bytes) :
    FirstRules serverStart P buf (fun _ : ServerSession => False) AnsweringCalls where
  frame _ h := h
  own _ h _ := h.elim
  rest hstep h := Answering.table hstep.table rfl h
  delivered {s e} he h := AnsweringCalls.aside (.record (by
    cases e <;> simp_all [Event.delivered, Event.isAside])) h
  replied {s enc m} hm hc h := AnsweringCalls.aside (.push hc (by
    cases m <;> simp_all [Message.isReply, Message.isAboutChannel])) h
  other _ _ h _ := h.elim

theorem asked_channelRequest {id : ChannelId} {wanted : Bool} (hmsg : msg = Msg.channelRequest)
    (hreq : channelRequest? (msg :: r) = some (id, wanted)) (h : Russh.Asked id wanted s) :
    wp (readChannelRequest (P := P) hmsg env r).run (fun _ t => AnsweringCalls t)
      (fun _ t => RequestsAnswered t) s := by
  have hend : RequestsAnswered s := fun hcalls => ⟨h.lawful hcalls, h.due hcalls⟩
  rw [readChannelRequest, Confined.wp_run_bind]
  refine AppM.wp_decoded (fun i r₁ hid => ?_) fun _ => hend
  dsimp only
  rw [Confined.wp_run_bind]
  refine AppM.wp_decoded (fun req r₂ hname => ?_) fun _ => hend
  dsimp only
  rw [Confined.wp_run_bind]
  refine AppM.wp_decoded (fun wants r₃ hwants => ?_) fun _ => hend
  dsimp only
  obtain ⟨rfl, rfl⟩ : i = id ∧ (wants != 0) = wanted := by
    have hread := channelRequest?_of hmsg hid hname hwants
    rw [hreq] at hread
    cases hread
    exact ⟨rfl, rfl⟩
  rw [Confined.wp_run_bind, noteWantsReply, Confined.run_move, wp_modify]
  refine wp_mono (first_request (requestRules P (msg :: r)) ?_ _) (fun _ t ht => ht) fun _ _ ht =>
    requestsAnswered_of_answering ht
  obtain ⟨channel, hch⟩ := h.entry
  cases hc : s.common.encrypted with
  | none => simp [Session.entries, hc] at hch
  | some enc =>
    rw [Session.entries_eq hc] at hch
    simp only [hch]
    exact h.noted hc

/-- A packet of the connection, for a session that is authenticated. -/
theorem process_of_authenticated {Q : Unit → ServerSession → Prop}
    {E : Exn → ServerSession → Prop} (hauth : isAuthenticated s = true)
    (hread : wp (readAuthenticated (P := P) env msg r).run Q E s)
    (hcomp : wp (readAuthenticated (P := P) env msg r).run Q E (initCompression s)) :
    wp (processPacket P env (msg :: r)) Q E s := by
  unfold processPacket
  rw [wp_bind, wp_get]
  cases hc : s.common.encrypted with
  | none => simp [isAuthenticated, hc] at hauth
  | some enc =>
    have hstate : enc.state.isAuthenticated = true := by simpa [isAuthenticated, hc] using hauth
    dsimp only [processEncrypted]
    split
    · rename_i h
      simp [h, EncryptedState.isAuthenticated] at hstate
    · rename_i h
      simp [h, EncryptedState.isAuthenticated] at hstate
    · rw [wp_bind, wp_modify]
      exact hcomp
    · exact hread

theorem RequestRead.process {buf : Bytes} (h : RequestRead buf s) :
    wp (processPacket P env buf) (fun _ t => AnsweringCalls t) (fun _ t => RequestsAnswered t)
      s := by
  cases hreq : channelRequest? buf with
  | none =>
    refine process_of_steps (I := AnsweringCalls)
      (fun _ _ hstep ht => ht.aside (aside_of_authStep hstep))
      (fun _ _ hstep ht => Answering.table hstep.table hreq ht)
      (fun t ht => ht.aside (.of_calm (calm_initCompression t)))
      (fun _ ht => requestsAnswered_of_answering ht) (h.other hreq)
  | some p =>
    obtain ⟨id, wanted⟩ := p
    obtain ⟨hauth, hasked⟩ := h.asked id wanted hreq
    cases buf with
    | nil => cases hreq
    | cons msg r =>
      obtain rfl : msg = Msg.channelRequest := by
        by_contra hne
        simp [channelRequest?, hne] at hreq
      exact process_of_authenticated hauth (asked_channelRequest rfl hreq hasked)
        (asked_channelRequest rfl hreq (hasked.calm (calm_initCompression s)))

end Process

theorem answeringCalm (P : Primitives) :
    ServerCalm P (fun input s => AnsweringCalls s ∧ ∀ payload, input = .packet payload →
      ∀ buf, openedPacket P payload s = some buf → meetsRequests buf s = true)
      AnsweringCalls RequestsAnswered RequestRead where
  start_frame {s t input} hf hs := by
    refine ⟨hs.1.aside (.of_calm (.of_frame hf)), fun payload hp buf hb => ?_⟩
    have hopen : openedPacket P payload t = openedPacket P payload s := by
      rw [openedPacket, openedPacket, hf.encrypted]
    have hev : t.events = s.events := by rw [Session.events, hf.packetWriter, Session.events]
    rw [meetsRequests_congr hev (Calm.of_frame hf).entries (by rw [isAuthenticated, hf.encrypted,
      isAuthenticated])]
    exact hs.2 payload hp buf (hopen ▸ hb)
  start_inv hs := hs.1
  inv_end hs := requestsAnswered_of_answering hs
  calm hc hs := hs.aside (.of_calm hc)
  app hstep hs := Answering.table hstep.table rfl hs
  received ho hs := .received (hs.1.aside (.of_calm (.opened ho)))
    ((meetsRequests_opened ho).trans (hs.2 _ rfl _ ho.openedPacket))
  mid_calm hc henc hs := hs.calm hc henc
  mid_end hs := hs.ended
  mid_skip {s buf} hskip hs := by
    refine hs.other ?_
    cases hreq : channelRequest? buf with
    | none => rfl
    | some p =>
      cases buf with
      | nil => cases hreq
      | cons msg r =>
        obtain rfl : msg = Msg.channelRequest := by
          by_contra hne
          simp [channelRequest?, hne] at hreq
        cases hskip
  process env hs := hs.process

/-- In every run the answers go to the numbers of the peer. -/
theorem addressed_of_run {env : ServerEnv} {config : ServerConfig} {remoteSshid : Bytes}
    {labels : List (ServerEnv × ServerInput)} {l : ServerLoop}
    (hrun : run (step P) (start P env config remoteSshid) labels = some l) :
    Traced AddressLaw l.session.events :=
  (table_run addressedInvariant (fun _ _ => True) (fun _ _ _ _ _ _ => trivial)
    ⟨numbersHeld_of_fresh rfl, traced_nil⟩ (along_true _ _) hrun).lawful

/-- The condition on a step of a server. -/
def readsRequests (P : Primitives) (l : ServerLoop) : ServerEnv × ServerInput → Bool
  | (_, .packet payload) =>
    (openedPacket P payload l.session).all fun buf => meetsRequests buf l.session
  | _ => true

/-- In a run in which a CHANNEL_REQUEST is read only for a channel whose requests have been
answered, unless none of them wants an answer, every answer of the application to a request is
followed by its packet if the request wants one, under the number that the client has given the
channel, and no other answer is written. -/
theorem requests_answered_once (P : Primitives) (env : ServerEnv) (config : ServerConfig)
    (remoteSshid : Bytes) (labels : List (ServerEnv × ServerInput)) (l : ServerLoop)
    (hal : Along (step P) (fun l label => readsRequests P l label = true)
      (start P env config remoteSshid) labels)
    (hrun : run (step P) (start P env config remoteSshid) labels = some l)
    (hcalls : Traced RequestCalls l.session.events) :
    Traced AnswerLaw l.session.events ∧ (Requests.of l.session.events).due = none := by
  have hnew : AnsweringCalls (newSession config remoteSshid) := fun _ =>
    ⟨traced_nil, rfl, fun id channel hc => by cases hc⟩
  have hdue := ((answeringCalm P).run (fun l label => readsRequests P l label = true)
    (fun l label hc _ hi => ⟨hi, fun payload hp buf hb => by
      obtain ⟨env, input⟩ := label
      cases hp
      simpa [readsRequests, hb] using hc⟩) hnew hal hrun).ended hcalls
  exact ⟨hdue.1.and (addressed_of_run hrun), hdue.2⟩

section Examples

/-- A CHANNEL_REQUEST for a shell on the channel `2`. -/
def shellPacket (wantsReply : UInt8) : Bytes :=
  Msg.channelRequest :: encodeU32 2 ++ encodeBytes (ascii "shell") ++ [wantsReply]

/-- A handler that answers every request by `channel_success`. -/
def granting : ServerEnv :=
  { knowingFive with
    handler := fun call s =>
      match call with
      | .channelRequest id _ => ([.channel id .success], .ok true)
      | call => knowingFive.handler call s }

/-- The application answers later. -/
def answersLater (answers : List ChannelMsg) : List (ServerEnv × ServerInput) :=
  answers.flatMap fun m => [(knowingFive, .send (.channel 2 m)), (knowingFive, .receive)]

/-- Three requests are answered at once, and two of them want it. -/
theorem requests_answered_once_three : ∃ l,
    run (step .toy) (start .toy granting smallServer [])
      ((openingServer [shellPacket 1, shellPacket 0, requestPacket 1]).map fun label =>
        (granting, label.2)) = some l ∧
    l.session.events.count (.wrote (.channel 2 0 .success)) = 1 ∧
    l.session.events.count (.wrote (.channel 2 0 .failure)) = 1 ∧
    Traced AnswerLaw l.session.events ∧ (Requests.of l.session.events).due = none := by
  have hrun : ((run (step .toy) (start .toy granting smallServer [])
      ((openingServer [shellPacket 1, shellPacket 0, requestPacket 1]).map fun label =>
        (granting, label.2))).map fun l =>
      (l.session.events.count (.wrote (.channel 2 0 .success)),
        l.session.events.count (.wrote (.channel 2 0 .failure)),
        decide (Traced RequestCalls l.session.events))) = some (1, 1, true) := by
    decide +kernel
  obtain ⟨l, hl, hevents⟩ := Option.map_eq_some_iff.mp hrun
  obtain ⟨hsuccess, hrest⟩ := Prod.mk.inj hevents
  obtain ⟨hfailure, hcalls⟩ := Prod.mk.inj hrest
  exact ⟨l, hl, hsuccess, hfailure, requests_answered_once .toy _ _ _ _ l (by decide +kernel) hl
    (of_decide_eq_true hcalls)⟩

/-- Two requests that want an answer get one together, and one that does not want it gets that of
the next. -/
theorem not_requests_answered_once :
    (∃ l, run (step .toy) (start .toy knowingFive smallServer [])
        (openingServer [shellPacket 1, shellPacket 1] ++ answersLater [.success, .success]) =
          some l ∧
      Traced RequestCalls l.session.events ∧
      l.session.events.count (.wrote (.channel 2 0 .success)) = 1 ∧
      ¬Traced AnswerLaw l.session.events) ∧
    ∃ l, run (step .toy) (start .toy knowingFive smallServer [])
        (openingServer [shellPacket 0, shellPacket 1] ++ answersLater [.failure, .success]) =
          some l ∧
      Traced RequestCalls l.session.events ∧
      l.session.events.count (.wrote (.channel 2 0 .failure)) = 1 ∧
      ¬Traced AnswerLaw l.session.events := by
  have hboth : ((run (step .toy) (start .toy knowingFive smallServer [])
      (openingServer [shellPacket 1, shellPacket 1] ++ answersLater [.success, .success])).map
      fun l => (decide (Traced RequestCalls l.session.events),
        l.session.events.count (.wrote (.channel 2 0 .success)),
        decide (Traced AnswerLaw l.session.events))) = some (true, 1, false) := by
    decide +kernel
  have hlast : ((run (step .toy) (start .toy knowingFive smallServer [])
      (openingServer [shellPacket 0, shellPacket 1] ++ answersLater [.failure, .success])).map
      fun l => (decide (Traced RequestCalls l.session.events),
        l.session.events.count (.wrote (.channel 2 0 .failure)),
        decide (Traced AnswerLaw l.session.events))) = some (true, 1, false) := by
    decide +kernel
  obtain ⟨l, hl, hevents⟩ := Option.map_eq_some_iff.mp hboth
  obtain ⟨hcalls, hrest⟩ := Prod.mk.inj hevents
  obtain ⟨hcount, hlaw⟩ := Prod.mk.inj hrest
  obtain ⟨l', hl', hevents'⟩ := Option.map_eq_some_iff.mp hlast
  obtain ⟨hcalls', hrest'⟩ := Prod.mk.inj hevents'
  obtain ⟨hcount', hlaw'⟩ := Prod.mk.inj hrest'
  exact ⟨⟨l, hl, of_decide_eq_true hcalls, hcount, of_decide_eq_false hlaw⟩,
    l', hl', of_decide_eq_true hcalls', hcount', of_decide_eq_false hlaw'⟩

end Examples

end Server

end Edgessh.Russh
