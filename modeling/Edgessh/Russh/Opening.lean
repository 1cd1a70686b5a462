import Edgessh.Russh.FirstStep
import Edgessh.Russh.ReceiveFlow

/-!
# The openings of this side, and their answers

A channel that this side opens waits for a CHANNEL_OPEN_CONFIRMATION or a CHANNEL_OPEN_FAILURE.
Neither session looks at `confirmed` when it reads one of these: it takes the answer for any
channel that has an entry. In the runs in which the peer answers nothing but the openings that it
has not answered yet, every answer is to an opening.
-/

namespace Edgessh.Russh
open Edgessh.Command Edgessh.Run

/-- This side opens the channel `id`. -/
def Event.opensHere (id : ChannelId) : Event → Bool
  | wrote (.channelOpen _ sender _ _ _) => sender = id
  | _ => false

/-- The peer has answered the opening of the channel `id`, or a channel of the peer has this
number. -/
def Event.settles (id : ChannelId) : Event → Bool
  | confirmed c => c.recipientChannel = id
  | failed i => i = id
  | wrote (.channelOpenConfirmation _ sender _ _) => sender = id
  | _ => false

/-- The channel `id` has been opened by this side, and the peer has not answered. -/
def Awaiting (id : ChannelId) : List Event → Prop :=
  Since (fun e => e.opensHere id = true) fun e => e.settles id = false

/-- The channel whose opening an answer is taken for. -/
def Event.answers? : Event → Option ChannelId
  | confirmed c => some c.recipientChannel
  | failed id => some id
  | _ => none

/-- The values of a channel are set, and a channel is dropped, for an answer of the peer that this
side waits for. -/
def OpeningLaw (pre : List Event) (e : Event) : Prop := ∀ id ∈ e.answers?, Awaiting id pre

instance Awaiting.decidable (id : ChannelId) : DecidablePred (Awaiting id) := fun events =>
  inferInstanceAs (Decidable (Since _ _ events))

instance OpeningLaw.decidable (pre : List Event) (e : Event) : Decidable (OpeningLaw pre e) :=
  inferInstanceAs (Decidable (∀ id ∈ e.answers?, Awaiting id pre))

/-- An event that settles no opening. -/
def Event.isUnsettling : Event → Bool
  | confirmed _ | failed _ => false
  | wrote (.channelOpenConfirmation ..) => false
  | _ => true

namespace Event

variable {e : Event}

theorem settles_of_isUnsettling (h : e.isUnsettling = true) (id : ChannelId) :
    e.settles id = false := by
  unfold isUnsettling at h
  split at h <;> simp_all [settles]

theorem law_of_isUnsettling (h : e.isUnsettling = true) (pre : List Event) : OpeningLaw pre e := by
  unfold isUnsettling at h
  split at h <;> simp_all [OpeningLaw, answers?]

theorem isUnsettling_of_isAside (h : e.isAside = true) : e.isUnsettling = true := by
  unfold isUnsettling
  split <;> simp_all [isAside, Message.isAboutChannel]

theorem isUnsettling_of_isPlain {m : Message} (h : m.isPlain = true) :
    (wrote m).isUnsettling = true := by
  unfold isUnsettling
  split <;> simp_all [Message.isPlain]

theorem unsettling_wrote {new : List Message} (h : ∀ m ∈ new, m.isPlain = true) :
    ∀ e ∈ new.map wrote, e.isUnsettling = true := by
  intro e he
  obtain ⟨m, hm, rfl⟩ := List.mem_map.mp he
  exact isUnsettling_of_isPlain (h m hm)

theorem isUnsettling_of_called {enc : Encrypted} {id : ChannelId} {m : ChannelMsg}
    {c : Option Bool} {asserts : List Event} (ha : asserts.Sublist (enc.assertion id))
    (he : e ∈ .called id m c :: asserts) : e.isUnsettling = true := by
  rcases mem_called ha he with rfl | ⟨channel, -, rfl⟩ <;> rfl

end Event

variable {K C X : Type}

/-- Every channel that the peer has not confirmed waits for its answer. -/
structure Awaited (s : Session K C X) : Prop where
  lawful : Traced OpeningLaw s.events
  unconfirmed : ∀ id channel, s.entries id = some channel → channel.confirmed = false →
    Awaiting id s.events

namespace Awaited

variable {s t : Session K C X}

/-- Events that settle no opening, and no new entry without a confirmation. -/
theorem extend {new : List Event} (h : Awaited s) (hev : t.events = s.events ++ new)
    (hnew : ∀ e ∈ new, e.isUnsettling = true)
    (hentry : EntriesFrom (fun channel channel' => channel'.confirmed = channel.confirmed) s t) :
    Awaited t := by
  refine ⟨?_, fun id channel' hc' hconf => ?_⟩
  · rw [hev]
    exact h.lawful.append_of_forall fun pre e he => Event.law_of_isUnsettling (hnew e he) _
  · obtain ⟨channel, hc, heq⟩ := hentry id channel' hc'
    rw [hev]
    exact (h.unconfirmed id channel hc (heq ▸ hconf)).append fun e he =>
      Event.settles_of_isUnsettling (hnew e he) id

/-- The entry of a channel is replaced by one that is confirmed or not as before. -/
theorem replace {new : List Event} {id : ChannelId} {channel channel' : ChannelParams}
    (h : Awaited s) (hev : t.events = s.events ++ new)
    (hnew : ∀ e ∈ new, e.isUnsettling = true) (hch : s.entries id = some channel)
    (ht : t.entries id = some channel' ∧ ∀ i, i ≠ id → t.entries i = s.entries i)
    (hconf : channel'.confirmed = channel.confirmed) : Awaited t :=
  h.extend hev hnew (.replaced (fun _ _ hk => hk.confirmed) hch ht hconf)

/-- The answer to the opening of the channel `id`, which is waited for. -/
theorem settle {e : Event} {id : ChannelId} {channel : ChannelParams} (h : Awaited s)
    (hev : t.events = s.events ++ [e]) (hch : s.entries id = some channel)
    (hconf : channel.confirmed = false) (hanswers : e.answers? = some id)
    (hsettles : ∀ i, i ≠ id → e.settles i = false)
    {channel' : Option ChannelParams} (hself : ∀ c ∈ channel', c.confirmed = true)
    (ht : t.entries id = channel' ∧ ∀ i, i ≠ id → t.entries i = s.entries i) : Awaited t := by
  refine ⟨?_, fun i c hc' hconf' => ?_⟩
  · rw [hev]
    refine traced_concat.mpr ⟨h.lawful, fun i hi => ?_⟩
    obtain rfl : id = i := by simpa [hanswers] using hi
    exact h.unconfirmed id channel hch hconf
  · by_cases hi : i = id
    · subst hi
      rw [hself c (ht.1 ▸ hc')] at hconf'
      cases hconf'
    · rw [ht.2 i hi] at hc'
      rw [hev]
      exact (h.unconfirmed i c hc' hconf').append (by simpa using hsettles i hi)

/-- A channel gets an entry, with a packet that tells the peer its number. -/
theorem opened {enc : Encrypted} {m : Message} {id : ChannelId} {channel : ChannelParams}
    (chan : Option ChannelRef) (h : Awaited s) (hc : s.common.encrypted = some enc)
    (hlaw : ∀ pre, OpeningLaw pre (.wrote m))
    (hsettles : ∀ i, i ≠ id → (Event.wrote m).settles i = false)
    (hself : channel.confirmed = false → (Event.wrote m).opensHere id = true) :
    Awaited (s.openChannel m id channel chan enc) := by
  have hev := s.events_openChannel m id channel chan enc
  refine ⟨?_, fun i channel' hc' hconf => ?_⟩
  · rw [hev]
    refine h.lawful.append_of_forall fun pre e he => ?_
    rcases List.mem_cons.mp he with rfl | he
    · exact Event.law_of_isUnsettling rfl _
    · obtain rfl := List.mem_singleton.mp he
      exact hlaw _
  · by_cases hi : i = id
    · subst hi
      obtain rfl : channel = channel' := by
        simpa [(Session.entries_openChannel m channel chan hc).1] using hc'
      rw [hev, List.append_cons]
      exact since_concat (hself hconf)
    · rw [(Session.entries_openChannel m channel chan hc).2 i hi] at hc'
      rw [hev]
      refine (h.unconfirmed i channel' hc' hconf).append fun e he => ?_
      rcases List.mem_cons.mp he with rfl | he
      · rfl
      · obtain rfl := List.mem_singleton.mp he
        exact hsettles i hi

end Awaited

/-- The channel whose opening is answered. -/
def openAnswer? (buf : Bytes) : Option ChannelId :=
  match channelOpenConfirmation? buf with
  | some c => some c.recipientChannel
  | none => if buf.head? = some Msg.channelOpenFailure then recipientNumber? buf else none

section Answer

variable {s t : Session K C X} {buf : Bytes} {id : ChannelId} {channel : ChannelParams}

theorem openAnswer?_of_confirmation {c : ChannelOpenConfirmation}
    (h : channelOpenConfirmation? buf = some c) : openAnswer? buf = some c.recipientChannel := by
  simp [openAnswer?, h]

theorem openAnswer?_of_failure (hmsg : buf.head? = some Msg.channelOpenFailure)
    (hid : recipientNumber? buf = some id) : openAnswer? buf = some id := by
  have hnone : channelOpenConfirmation? buf = none := by
    cases hc : channelOpenConfirmation? buf with
    | none => rfl
    | some c =>
      have hne : Msg.channelOpenFailure ≠ Msg.channelOpenConfirmation := by decide
      have hhead := head?_of_channelOpenConfirmation? hc
      rw [hmsg] at hhead
      exact absurd (Option.some.inj hhead) hne
  simp [openAnswer?, hnone, hmsg, hid]

end Answer

theorem Awaited.table {s t : Session K C X} {role : Role} {pkt : Option Bytes}
    (hstep : TableStep role pkt s t)
    (hanswer : ∀ id channel, pkt.bind openAnswer? = some id → s.entries id = some channel →
      channel.confirmed = false) (h : Awaited s) : Awaited t := by
  have hkept : ∀ channel channel' : ChannelParams, channel.Kept channel' →
      channel'.confirmed = channel.confirmed := fun _ _ hk => hk.confirmed
  cases hstep with
  | aside ha =>
    obtain ⟨new, hev, hnew⟩ := ha.events
    exact h.extend hev (fun e he => Event.isUnsettling_of_isAside (hnew e he))
      (.same hkept ha.entries)
  | write hc hs =>
    exact h.extend (Session.events_wrote ..) (Event.unsettling_wrote hs.plain)
      (hs.toEncChange.entriesFrom hkept hc rfl)
  | called hc ha =>
    exact h.extend (Session.events_recordAll _) (fun e he => Event.isUnsettling_of_called ha he)
      (.same hkept fun _ => rfl)
  | call hc ha hs =>
    refine h.extend (by rw [Session.events_wrote, Session.events_recordAll, List.append_assoc])
      (fun e he => ?_) (hs.toEncChange.entriesFrom hkept hc rfl)
    exact (List.mem_append.mp he).elim (fun he => Event.isUnsettling_of_called ha he)
      (Event.unsettling_wrote hs.plain e)
  | @answerChannel enc id channel m cm hc hch _ _ _ =>
    exact h.replace (by rw [Session.events_wrote, Session.events_recordAll, List.append_assoc])
      (by simp [Event.isUnsettling]) ((Session.entries_eq hc id).trans hch)
      (Session.entries_update hc rfl rfl) rfl
  | refuse id reason description language hc =>
    exact h.extend (by rw [Session.events_wrote, Session.events_record, List.append_assoc])
      (by simp [Event.isUnsettling]) (.same hkept fun i => (Session.entries_eq hc i).symm)
  | @openChannel enc id kind windowSize maximumPacketSize suffix chan hc hnone =>
    exact h.opened chan hc (fun _ => nofun) (fun i hi => rfl) fun _ => by
      simp [Event.opensHere]
  | acceptChannel id window maximumPacketSize chan hm hc hconf hr =>
    exact h.opened chan hc (fun _ => nofun)
      (fun i hi => by simpa [Event.settles] using Ne.symm hi) fun hn => by simp [hconf] at hn
  | reject reason message hm hc =>
    exact h.extend (Session.events_wrote ..)
      (by simp [Event.isUnsettling, OpenChannelMessage.fail])
      (.same hkept fun i => (Session.entries_eq hc i).symm)
  | @confirm enc channel c hm hc hch =>
    obtain ⟨buf, rfl, hbuf⟩ := Option.bind_eq_some_iff.mp hm
    have hentry : s.entries c.recipientChannel = some channel :=
      (Session.entries_eq hc _).trans hch
    have hconfirmed : ∀ channel' ∈ some (channel.confirm c), channel'.confirmed = true := by
      rintro _ ⟨⟩
      rfl
    exact h.settle (Session.events_record _) hentry
      (hanswer _ _ (openAnswer?_of_confirmation hbuf) hentry) rfl
      (fun i hi => by simpa [Event.settles] using Ne.symm hi) hconfirmed
      (Session.entries_update hc rfl rfl)
  | @fail enc id channel hm hid hc hch =>
    obtain ⟨buf, rfl, hbuf⟩ := Option.bind_eq_some_iff.mp hid
    have hentry : s.entries id = some channel := (Session.entries_eq hc _).trans hch
    have hdropped : ∀ channel' ∈ (none : Option ChannelParams), channel'.confirmed = true := by
      simp
    exact h.settle (Session.events_record _) hentry
      (hanswer _ _ (openAnswer?_of_failure hm hbuf) hentry) rfl
      (fun i hi => by simpa [Event.settles] using Ne.symm hi) hdropped
      (Session.entries_update hc rfl rfl)
  | number hm hc hs _ =>
    exact h.extend (Session.events_record _) (by simp [Event.isUnsettling])
      (hs.toEncChange.entriesFrom hkept hc rfl)
  | @drop enc id hm hid hc =>
    have hs : EncChange none enc (enc.removeChannel id) [] := .removeChannel
    exact h.extend (Session.events_record _) (by simp [Event.isUnsettling])
      (hs.entriesFrom hkept hc rfl)
  | closeByPeer _ hm hid hc hs =>
    exact h.extend (Session.events_wrote ..) (Event.unsettling_wrote hs.plain)
      (hs.toEncChange.entriesFrom hkept hc rfl)
  | @noteRequest enc id wantsReply channel hm hc hch =>
    exact h.replace (Session.events_record _) (by simp [Event.isUnsettling])
      ((Session.entries_eq hc id).trans hch)
      (Session.entries_update hc rfl rfl) rfl
  | answerRequest hm hid ha hc =>
    exact h.extend (Session.events_wrote ..) (by simp [Event.isUnsettling])
      (.same hkept fun i => (Session.entries_eq hc i).symm)
  | @account enc enc' id channel new window hm hid hc hch hchannels hnew =>
    refine h.replace (Session.events_wrote ..) (fun e he => ?_)
      ((Session.entries_eq hc id).trans hch) (Session.entries_update hc rfl hchannels) rfl
    obtain ⟨m, hmem, rfl⟩ := List.mem_map.mp he
    obtain ⟨amount, rfl⟩ := hnew m hmem
    rfl

section Examples

/-- A CHANNEL_OPEN_CONFIRMATION for the channel `2`, which is the sixth of the peer. -/
def confirmationPacket : Bytes :=
  Msg.channelOpenConfirmation :: encodeU32 2 ++ encodeU32 6 ++ encodeU32 100 ++ encodeU32 100

/-- The server opens a channel, and reads these packets. -/
def openedByServer (packets : List Bytes) : List (ServerEnv × Server.ServerInput) :=
  Server.loginRun [Server.rootRequest (ascii "none") []] ++
    [(Server.knowingFive, .send (.channelOpenSession ⟨1⟩)), (Server.knowingFive, .receive)] ++
    packets.map fun buf => (Server.knowingFive, .packet buf)

end Examples

end Edgessh.Russh
