import Edgessh.Lib.Confined
import Edgessh.Russh.CommonSession
import Edgessh.Russh.Session.Table

/-!
# The steps of a session outside a key exchange

All that a session does besides the key exchange itself (answering packets, the calls of the
application, the messages of the handles) is made of a few kinds of step: it writes behind
`write`, it flushes `write`, it begins a rekey, it tells the application or a channel something.
`AppStep` lists them. The functions of the two sessions are programs of `AppM`, whose type says
that they take no other step.
-/

namespace Edgessh.Russh
open Edgessh.Command

/-- The packets of a flush, under one key and with consecutive numbers. A packet without a
payload is not sent. -/
def sealedPackets (key : CipherKey) (epoch : Nat) : UInt32 → List Message → List Event
  | _, [] => []
  | seqn, m :: ms =>
    if m.encode = [] then sealedPackets key epoch seqn ms
    else .packet ⟨m, key, epoch, seqn⟩ :: sealedPackets key epoch (seqn + 1) ms

theorem mem_sealedPackets {key : CipherKey} {epoch : Nat} {seqn : UInt32} {ms : List Message}
    {e : Event} (h : e ∈ sealedPackets key epoch seqn ms) :
    ∃ m ∈ ms, ∃ n, e = .packet ⟨m, key, epoch, n⟩ := by
  induction ms generalizing seqn with
  | nil => cases h
  | cons m ms ih =>
    rw [sealedPackets] at h
    by_cases hm : m.encode = []
    · rw [if_pos hm] at h
      obtain ⟨m', hm', n, rfl⟩ := ih h
      exact ⟨m', List.mem_cons_of_mem _ hm', n, rfl⟩
    · rw [if_neg hm] at h
      rcases List.mem_cons.mp h with rfl | h
      · exact ⟨m, List.mem_cons_self, seqn, rfl⟩
      · obtain ⟨m', hm', n, rfl⟩ := ih h
        exact ⟨m', List.mem_cons_of_mem _ hm', n, rfl⟩

/-- The packets of a flush that are sealed, and the events they leave. -/
theorem sealPackets_spec {P : Primitives} {ms rest : List Message} {w w' : PacketWriter}
    {e : Option Exn} (h : sealPackets P ms w = (rest, w', e)) :
    ∃ done, ms = done ++ rest ∧ w'.cipher = w.cipher ∧ w'.epoch = w.epoch ∧
      w'.events = w.events ++ sealedPackets w.cipher w.epoch w.seqn done := by
  induction ms generalizing w with
  | nil =>
    cases h
    exact ⟨[], rfl, rfl, rfl, by simp [sealedPackets]⟩
  | cons m ms ih =>
    rw [sealPackets] at h
    cases hm : w.packetRaw P m with
    | error x =>
      simp only [hm] at h
      cases h
      exact ⟨[], rfl, rfl, rfl, by simp [sealedPackets]⟩
    | ok w₁ =>
      simp only [hm] at h
      obtain ⟨done, rfl, hc, hep, hev⟩ := ih h
      obtain ⟨hc₁, hep₁, hw⟩ := packetRaw_eq_ok hm
      refine ⟨m :: done, rfl, hc.trans hc₁, hep.trans hep₁, ?_⟩
      rw [hev, hc₁, hep₁, sealedPackets]
      rcases hw with ⟨hempty, rfl⟩ | ⟨hne, hseqn, hev₁⟩
      · rw [if_pos hempty]
      · rw [if_neg hne, hev₁, hseqn, List.append_assoc]
        rfl

/-- How a session begins a key exchange: with a KEXINIT; and in which states of the authentication
it opens channels. The side says which answers to packets there are. -/
structure KexStart (K C : Type) where
  role : Role
  new : C → Bytes → KexCause → K
  kexinit : Primitives → Entropy → K → WriterM K
  kexinit_writes : ∀ {P rng kex w kex' w'}, kexinit P rng kex w = .ok kex' w' →
    ∃ payload, w.packetRaw P (.kexInit payload) = .ok w'
  mayOpen : EncryptedState → Bool
  isAuthenticated_of_mayOpen : ∀ {state}, mayOpen state = true → state.isAuthenticated = true

namespace Session

variable {K C X : Type}

/-- The cause of an exchange that begins now. -/
def kexCause (s : Session K C X) : KexCause :=
  match s.common.encrypted with
  | none => .initial
  | some enc => .rekey s.common.strictKex enc.sessionId

/-- `begin_rekey`. -/
def beginRekey (start : KexStart K C) (P : Primitives) (rng : Entropy) (s : Session K C X) :
    Except Exn (Session K C X) :=
  match start.kexinit P rng (start.new s.common.config s.common.remoteSshid s.kexCause)
      s.common.packetWriter with
  | .ok kex w => .ok { s.setWriter w with kex := .inProgress kex }
  | .error e _ => .error e

theorem beginRekey_eq_ok {start : KexStart K C} {P : Primitives} {rng : Entropy}
    {s t : Session K C X} (h : s.beginRekey start P rng = .ok t) :
    ∃ kex w, start.kexinit P rng (start.new s.common.config s.common.remoteSshid s.kexCause)
      s.common.packetWriter = .ok kex w ∧ t = { s.setWriter w with kex := .inProgress kex } := by
  unfold beginRekey at h
  split at h
  · rename_i kex w hw
    cases h
    exact ⟨kex, w, hw, rfl⟩
  · cases h

theorem beginRekey_encrypted {start : KexStart K C} {P : Primitives} {rng : Entropy}
    {s t : Session K C X} (h : s.beginRekey start P rng = .ok t) :
    t.common.encrypted = s.common.encrypted := by
  obtain ⟨kex, w, -, rfl⟩ := beginRekey_eq_ok h
  rfl

/-- The packets that wait in `write` are sealed. -/
def sealWrite (P : Primitives) (enc : Encrypted) (s : Session K C X) :
    Session K C X × Option Exn :=
  match sealPackets P enc.write (s.common.packetWriter.record (.flushed enc.write)) with
  | (rest, w, e) => ((s.setWriter w).setEncrypted { enc with write := rest }, e)

/-- The fields that the invariants of a session are about are the same; channels are only
dropped. -/
structure Frame (s t : Session K C X) : Prop where
  kex : t.kex = s.kex
  encrypted : t.common.encrypted = s.common.encrypted
  packetWriter : t.common.packetWriter = s.common.packetWriter
  remoteToLocal : t.common.remoteToLocal = s.common.remoteToLocal
  strictKex : t.common.strictKex = s.common.strictKex
  config : t.common.config = s.common.config
  remoteSshid : t.common.remoteSshid = s.common.remoteSshid
  authUser : t.common.authUser = s.common.authUser
  pendingReads : t.pendingReads = s.pendingReads
  openGlobalRequests : t.openGlobalRequests = s.openGlobalRequests
  channels : ∀ id, t.channels id = s.channels id ∨ t.channels id = none

theorem Frame.refl (s : Session K C X) : Frame s s :=
  ⟨rfl, rfl, rfl, rfl, rfl, rfl, rfl, rfl, rfl, rfl, fun _ => .inl rfl⟩

/-- A GLOBAL_REQUEST is written, and what waits for its answer is put into the queue. Without
`encrypted` only the queue changes. -/
def globalRequest (response : Option GlobalRequestResponse) (name : Bytes) (wantReply : Bool)
    (data : Bytes) (s : Session K C X) : Session K C X :=
  let s := { s.record (.requested response wantReply s.common.encrypted.isSome) with
    openGlobalRequests := s.openGlobalRequests ++ response.toList }
  match s.common.encrypted with
  | none => s
  | some enc =>
    s.wrote (enc.push (.globalRequest name wantReply data)) [.globalRequest name wantReply data]

/-- `open_global_requests.pop_front`, and the answer to the call that has been waiting. -/
def takeReply (tell : GlobalRequestResponse → Option (ReplyChannel × Answer))
    (s : Session K C X) : Session K C X :=
  { s.recordAll (.resolved s.openGlobalRequests.head? ::
      ((s.openGlobalRequests.head?.bind tell).map fun p => .answer p.1 p.2).toList) with
    openGlobalRequests := s.openGlobalRequests.tail }

/-- A channel is opened with a packet that tells the peer its number; `chan` is what the
application has of it. -/
def openChannel (m : Message) (id : ChannelId) (channel : ChannelParams)
    (chan : Option ChannelRef) (enc : Encrypted) (s : Session K C X) : Session K C X :=
  { (s.record (.opening enc.state)).wrote ((enc.push m).setChannel id channel) [m] with
    channels := if chan.isSome then Function.update s.channels id chan else s.channels }

/-- `adjust_window_size`. -/
def adjustWindowSize (id : ChannelId) (data : Bytes) (target : UInt32) (enc : Encrypted)
    (s : Session K C X) : Session K C X × Bool :=
  match enc.adjustWindowSize id data target with
  | (enc', grown) => (s.wrote enc' (enc'.write.drop enc.write.length), grown)

end Session

/-- A DISCONNECT or a DEBUG, which may be written before there is a key. -/
def Message.isTransport : Message → Bool
  | .disconnect .. | .debug .. => true
  | _ => false

/-- A USERAUTH_REQUEST. -/
def Message.isAuthRequest : Message → Bool
  | .userauthRequest .. => true
  | _ => false

theorem Message.isQuiet_of_isAuthRequest {m : Message} (h : m.isAuthRequest = true) :
    m.isQuiet = true := by
  cases m <;> simp_all [isAuthRequest, isQuiet, isPlain]

/-- A packet that is the answer to a request. -/
def Message.isReply : Message → Bool
  | .requestSuccess _ | .requestFailure => true
  | _ => false

theorem Message.isReply_requestSuccess (data : Bytes) :
    (Message.requestSuccess data).isReply = true := rfl

theorem Message.isReply_requestSuccess_nil : (Message.requestSuccess []).isReply = true := rfl

theorem Message.isReply_requestFailure : Message.requestFailure.isReply = true := rfl

/-- The kind of a packet. -/
abbrev firstByte? (pkt : Option Bytes) : Option UInt8 := pkt.bind List.head?

theorem firstByte?_of {msg b : UInt8} {r : Bytes} (h : msg = b) :
    firstByte? (some (msg :: r)) = some b :=
  congrArg some h

/-- Whether the channel `id` has been confirmed, if it has an entry. -/
def Encrypted.confirmed? (id : ChannelId) (enc : Encrypted) : Option Bool :=
  (enc.channels id).map (·.confirmed)

/-- What a method asserts about the channel `id`, if it has an entry. -/
def Encrypted.assertion (id : ChannelId) (enc : Encrypted) : List Event :=
  ((enc.confirmed? id).map (.asserted id)).toList

/-- What a packet of the server does to the authentication of a client. -/
inductive AuthMove (pkt : Option Bytes) : Encrypted → Encrypted → List Event → Prop
  | accepted {enc sent accepted} : firstByte? pkt = some Msg.serviceAccept →
      enc.state = .waitingAuthServiceRequest sent accepted →
      AuthMove pkt enc { enc with state := .waitingAuthServiceRequest sent true } []
  | requested {enc sent accepted m} (request) : firstByte? pkt = some Msg.serviceAccept →
      m.isAuthRequest = true → enc.state = .waitingAuthServiceRequest sent accepted →
      AuthMove pkt enc { enc.push m with state := .waitingAuthRequest request } [.wrote m]
  | answered {enc request} (request') : (firstByte? pkt = some Msg.userauthFailure ∨
      firstByte? pkt = some Msg.userauthInfoRequestOrUserauthPkOk) →
      enc.state = .waitingAuthRequest request →
      AuthMove pkt enc { enc with state := .waitingAuthRequest request' } []
  | succeeded {enc request} (decompress) : firstByte? pkt = some Msg.userauthSuccess →
      enc.state = .waitingAuthRequest request →
      AuthMove pkt enc { enc with state := .initCompression, decompress } [.reply .authSuccess]

namespace AuthMove

variable {pkt : Option Bytes} {enc enc' : Encrypted} {new : List Event}

/-- The packet is one of the authentication. -/
theorem msg_lt (h : AuthMove pkt enc enc' new) :
    ∃ b, firstByte? pkt = some b ∧ b < Msg.globalRequest := by
  cases h with
  | accepted h _ => exact ⟨_, h, by decide⟩
  | requested _ h _ _ => exact ⟨_, h, by decide⟩
  | answered _ h _ => rcases h with h | h <;> exact ⟨_, h, by decide⟩
  | succeeded _ h _ => exact ⟨_, h, by decide⟩

theorem sessionId (h : AuthMove pkt enc enc' new) : enc'.sessionId = enc.sessionId := by
  cases h <;> rfl

theorem channels (h : AuthMove pkt enc enc' new) : enc'.channels = enc.channels := by
  cases h <;> rfl

end AuthMove

/-- One step outside a key exchange, while the packet `pkt` is worked on. -/
inductive AppStep {K C X : Type} (start : KexStart K C) (P : Primitives) (pkt : Option Bytes) :
    Session K C X → Session K C X → Prop
  | frame {s t} : s.Frame t → AppStep start P pkt s t
  | observe {s e} : e.isObservation = true → AppStep start P pkt s (s.record e)
  | write {s enc enc' new} : s.common.encrypted = some enc → EncStep none enc enc' new →
      AppStep start P pkt s (s.wrote enc' new)
  | called {s enc id m asserts} : s.common.encrypted = some enc →
      asserts.Sublist (enc.assertion id) →
      (m.isAnswer = true → ∀ channel, enc.channels id = some channel → channel.confirmed = true →
        channel.wantsReply = false) →
      AppStep start P pkt s (s.recordAll (.called id m (enc.confirmed? id) :: asserts))
  | call {s enc enc' id m asserts new} : s.common.encrypted = some enc →
      asserts.Sublist (enc.assertion id) → EncStep (some id) enc enc' new → m.isAnswer = false →
      AppStep start P pkt s
        ((s.recordAll (.called id m (enc.confirmed? id) :: asserts)).wrote enc' new)
  | answerChannel {s enc id channel m} (cm : ChannelMsg) : s.common.encrypted = some enc →
      enc.channels id = some channel → channel.confirmed = true → channel.wantsReply = true →
      (cm = .success ∧ m = .success ∨ cm = .failure ∧ m = .failure) →
      AppStep start P pkt s ((s.recordAll [.called id cm (some true), .asserted id true]).wrote
        ((enc.setChannel id { channel with wantsReply := false }).push
          (.channel id channel.recipientChannel m)) [.channel id channel.recipientChannel m])
  | refuse {s enc} (id) (reason : ChannelOpenFailure) (description language) :
      s.common.encrypted = some enc →
      AppStep start P pkt s ((s.record (.refused id)).wrote
        (enc.push (.channelOpenFailure id reason.code description language))
        [.channelOpenFailure id reason.code description language])
  | openChannel {s enc id} (kind windowSize maximumPacketSize suffix chan) :
      s.common.encrypted = some enc → start.mayOpen enc.state = true → enc.channels id = none →
      AppStep start P pkt s (s.openChannel
        (.channelOpen kind id windowSize maximumPacketSize suffix) id
        (.opened windowSize maximumPacketSize id) chan enc)
  | acceptChannel {s enc channel m} (id window maximumPacketSize chan) :
      pkt.bind channelOpen? = some m → s.common.encrypted = some enc →
      channel.confirmed = true → channel.senderWindowSize = UInt32.ofNat window →
      channel.recipientChannel = m.recipientChannel → channel.wantsReply = false →
      AppStep start P pkt s (s.openChannel
        (.channelOpenConfirmation m.recipientChannel id window maximumPacketSize) id channel chan
        enc)
  | reject {s enc m} (reason message) : pkt.bind channelOpen? = some m →
      s.common.encrypted = some enc →
      AppStep start P pkt s (s.wrote (enc.push (m.fail reason message)) [m.fail reason message])
  | insertChannel {s m} (id chan) : pkt.bind channelOpen? = some m →
      AppStep start P pkt s { s with channels := Function.update s.channels id (some chan) }
  | confirm {s enc channel c} : pkt.bind channelOpenConfirmation? = some c →
      s.common.encrypted = some enc → enc.channels c.recipientChannel = some channel →
      AppStep start P pkt s ((s.record (.confirmed c)).setEncrypted
        (enc.setChannel c.recipientChannel (channel.confirm c)))
  | fail {s enc id channel} : firstByte? pkt = some Msg.channelOpenFailure →
      pkt.bind recipientNumber? = some id → s.common.encrypted = some enc →
      enc.channels id = some channel →
      AppStep start P pkt s ((s.record (.failed id)).setEncrypted (enc.removeChannel id))
  | number {s enc enc' id m} : pkt.bind channelOpen? = some m → s.common.encrypted = some enc →
      EncStep none enc enc' [] → enc'.channels id = none →
      AppStep start P pkt s ((s.record (.numbered id)).setEncrypted enc')
  | drop {s enc id} : firstByte? pkt = some Msg.channelClose →
      pkt.bind recipientNumber? = some id → s.common.encrypted = some enc →
      AppStep start P pkt s ((s.record (.dropped id)).setEncrypted (enc.removeChannel id))
  | closeByPeer {s enc enc' id new} : start.role = .client →
      firstByte? pkt = some Msg.channelClose →
      pkt.bind recipientNumber? = some id → s.common.encrypted = some enc →
      EncStep (some id) enc enc' new → AppStep start P pkt s (s.wrote enc' new)
  | noteRequest {s enc id wantsReply channel} :
      pkt.bind channelRequest? = some (id, wantsReply) → s.common.encrypted = some enc →
      enc.channels id = some channel →
      AppStep start P pkt s ((s.record (.noted id wantsReply)).setEncrypted
        (enc.setChannel id { channel with wantsReply }))
  | answerRequest {s enc id m} : start.role = .client → pkt.bind answeredRequest? = some id →
      m.isAnswer = true → s.common.encrypted = some enc →
      AppStep start P pkt s (s.wrote (enc.push (.channel id id m)) [.channel id id m])
  | account {s enc id} (data target) : (firstByte? pkt = some Msg.channelData ∨
      firstByte? pkt = some Msg.channelExtendedData) → pkt.bind recipientNumber? = some id →
      s.common.encrypted = some enc →
      AppStep start P pkt s (s.adjustWindowSize id data target enc).1
  | deliver {s e} : (firstByte? pkt = some Msg.channelData ∨
      firstByte? pkt = some Msg.channelExtendedData) →
      e.delivered.isSome = true → AppStep start P pkt s (s.record e)
  | serve {s call} : pkt.isSome = true → call.isConnection = true →
      (Event.serverCallback call).delivered = none →
      AppStep start P pkt s (s.record (.serverCallback call))
  | auth {s enc enc' new} : s.common.encrypted = some enc → AuthMove pkt enc enc' new →
      AppStep start P pkt s ((s.recordAll new).setEncrypted enc')
  | globalRequest {s response wantReply} (name data) :
      (wantReply = true → response.isSome = true) →
      AppStep start P pkt s (s.globalRequest response name wantReply data)
  | takeReply {s} (tell) : (firstByte? pkt = some Msg.requestSuccess ∨
      firstByte? pkt = some Msg.requestFailure) →
      AppStep start P pkt s (s.takeReply tell)
  | answer {s enc m} : (firstByte? pkt = some Msg.globalRequest ∨
      firstByte? pkt = some Msg.channelRequest) →
      m.isReply = true → s.common.encrypted = some enc →
      AppStep start P pkt s (s.wrote (enc.push m) [m])
  | replyCalled {s enc m} : m.isReply = true → s.common.encrypted = some enc →
      AppStep start P pkt s ((s.record .replyCalled).wrote (enc.push m) [m])
  | unsealed {s} (m) : m.isTransport = true → s.common.encrypted = none →
      AppStep start P pkt s (s.record (.unsealed m))
  | flush {s enc} : s.common.encrypted = some enc → AppStep start P pkt s (s.sealWrite P enc).1
  | readClock {s now earlier dur} : P.target.durationSince now earlier = some dur →
      AppStep start P pkt s (s.record (.clock now earlier))
  | beginRekey {s t} (rng) : s.kex.active = false → s.common.encrypted.isSome →
      s.beginRekey start P rng = .ok t → AppStep start P pkt s t

/-- A step without a packet may be taken while one is worked on. -/
theorem AppStep.of_none {K C X : Type} {start : KexStart K C} {P : Primitives}
    {pkt : Option Bytes} {s t : Session K C X} (h : AppStep start P none s t) :
    AppStep start P pkt s t := by
  cases h with
  | frame h => exact .frame h
  | observe h => exact .observe h
  | write hc h => exact .write hc h
  | called hc h hm => exact .called hc h hm
  | call hc ha h hm => exact .call hc ha h hm
  | answerChannel cm hc hch hconf hw hm => exact .answerChannel cm hc hch hconf hw hm
  | refuse id reason description language hc => exact .refuse id reason description language hc
  | openChannel kind windowSize maximumPacketSize suffix chan hc hmay hnone =>
    exact .openChannel kind windowSize maximumPacketSize suffix chan hc hmay hnone
  | acceptChannel _ _ _ _ h _ _ _ _ _ => cases h
  | reject _ _ h _ => cases h
  | insertChannel _ _ h => cases h
  | confirm h _ _ => cases h
  | fail h _ _ _ => cases h
  | number h _ _ _ => cases h
  | drop h _ _ => cases h
  | closeByPeer _ h _ _ _ => cases h
  | noteRequest h _ _ => cases h
  | answerRequest _ h _ _ => cases h
  | account _ _ h _ _ => simp at h
  | deliver h _ => simp at h
  | serve h _ _ => cases h
  | auth _ h =>
    obtain ⟨b, hb, -⟩ := h.msg_lt
    cases hb
  | globalRequest name data h => exact .globalRequest name data h
  | takeReply tell h => simp at h
  | answer h _ _ => simp at h
  | replyCalled hm hc => exact .replyCalled hm hc
  | unsealed m hm hc => exact .unsealed m hm hc
  | flush hc => exact .flush hc
  | readClock hd => exact .readClock hd
  | beginRekey rng hk hc hb => exact .beginRekey rng hk hc hb

namespace Session

variable {K C X : Type} {s : Session K C X}

@[simp] theorem events_record (e : Event) : (s.record e).events = s.events ++ [e] := rfl

@[simp] theorem events_setWriter (w : PacketWriter) : (s.setWriter w).events = w.events := rfl

@[simp] theorem encrypted_setWriter (w : PacketWriter) :
    (s.setWriter w).common.encrypted = s.common.encrypted := rfl

@[simp] theorem encrypted_record (e : Event) :
    (s.record e).common.encrypted = s.common.encrypted := rfl

@[simp] theorem encrypted_setEncrypted (enc : Encrypted) :
    (s.setEncrypted enc).common.encrypted = some enc := rfl

@[simp] theorem events_setEncrypted (enc : Encrypted) :
    (s.setEncrypted enc).events = s.events := rfl

@[simp] theorem events_wrote (enc : Encrypted) (new : List Message) :
    (s.wrote enc new).events = s.events ++ new.map .wrote := rfl

@[simp] theorem encrypted_wrote (enc : Encrypted) (new : List Message) :
    (s.wrote enc new).common.encrypted = some enc := rfl

@[simp] theorem events_recordAll (events : List Event) :
    (s.recordAll events).events = s.events ++ events := rfl

theorem recordAll_nil (s : Session K C X) : s.recordAll [] = s := by
  simp [recordAll, setWriter, PacketWriter.recordAll]

@[simp] theorem encrypted_recordAll (events : List Event) :
    (s.recordAll events).common.encrypted = s.common.encrypted := rfl

theorem events_openChannel (m : Message) (id : ChannelId) (channel : ChannelParams)
    (chan : Option ChannelRef) (enc : Encrypted) :
    (s.openChannel m id channel chan enc).events =
      s.events ++ [.opening enc.state, .wrote m] := by
  simp [openChannel, events, record, wrote, setWriter, setEncrypted, PacketWriter.record,
    PacketWriter.recordAll]

@[simp] theorem encrypted_enter (s : Session K C X) :
    s.enter.common.encrypted = s.common.encrypted := by
  unfold enter
  split <;> rfl

theorem events_takeReply (tell : GlobalRequestResponse → Option (ReplyChannel × Answer)) :
    (s.takeReply tell).events = s.events ++ .resolved s.openGlobalRequests.head? ::
      ((s.openGlobalRequests.head?.bind tell).map fun p => Event.answer p.1 p.2).toList := rfl

theorem mem_takeReply {tell : GlobalRequestResponse → Option (ReplyChannel × Answer)} {e : Event}
    {response : Option GlobalRequestResponse}
    (h : e ∈ .resolved response ::
      ((response.bind tell).map fun p => Event.answer p.1 p.2).toList) :
    e = .resolved response ∨ ∃ p : ReplyChannel × Answer, e = .answer p.1 p.2 := by
  rcases List.mem_cons.mp h with rfl | h
  · exact .inl rfl
  · obtain ⟨p, -, rfl⟩ := Option.map_eq_some_iff.mp (Option.mem_toList.mp h)
    exact .inr ⟨p, rfl⟩

theorem events_globalRequest (response : Option GlobalRequestResponse) (name : Bytes)
    (wantReply : Bool) (data : Bytes) :
    (s.globalRequest response name wantReply data).events =
      s.events ++ .requested response wantReply s.common.encrypted.isSome ::
        if s.common.encrypted.isSome then [.wrote (.globalRequest name wantReply data)] else [] := by
  unfold globalRequest
  cases hc : s.common.encrypted with
  | none => simp [events, record, setWriter, PacketWriter.record, hc]
  | some enc =>
    simp [events, record, setWriter, setEncrypted, wrote, PacketWriter.record,
      PacketWriter.recordAll, hc]

/-- The events of a flush: the packets that are sealed are the first ones of `write`. -/
theorem sealWrite_spec {P : Primitives} {enc : Encrypted} :
    ∃ done rest, enc.write = done ++ rest ∧
      (s.sealWrite P enc).1.events = s.events ++ .flushed enc.write ::
        sealedPackets s.common.packetWriter.cipher s.common.packetWriter.epoch
          s.common.packetWriter.seqn done ∧
      (s.sealWrite P enc).1.common.encrypted = some { enc with write := rest } ∧
      (s.sealWrite P enc).1.common.packetWriter.cipher = s.common.packetWriter.cipher ∧
      (s.sealWrite P enc).1.common.packetWriter.epoch = s.common.packetWriter.epoch := by
  unfold sealWrite
  rcases hs : sealPackets P enc.write (s.common.packetWriter.record (.flushed enc.write))
    with ⟨rest, w, e⟩
  obtain ⟨done, hwrite, hc, hep, hev⟩ := sealPackets_spec hs
  refine ⟨done, rest, hwrite, ?_, rfl, hc, hep⟩
  show w.events = _
  rw [hev]
  simp [PacketWriter.record, Session.events]

end Session

/-- What a step outside a key exchange never changes. -/
structure Session.Kept {K C X : Type} (s t : Session K C X) : Prop where
  config : t.common.config = s.common.config
  remoteSshid : t.common.remoteSshid = s.common.remoteSshid
  strictKex : t.common.strictKex = s.common.strictKex
  remoteToLocal : t.common.remoteToLocal = s.common.remoteToLocal
  cipher : t.common.packetWriter.cipher = s.common.packetWriter.cipher
  epoch : t.common.packetWriter.epoch = s.common.packetWriter.epoch
  sessionId : t.common.encrypted.map (·.sessionId) = s.common.encrypted.map (·.sessionId)

theorem Session.Kept.encrypted_isSome {K C X : Type} {s t : Session K C X} (h : s.Kept t) :
    t.common.encrypted.isSome = s.common.encrypted.isSome := by
  simpa using congrArg Option.isSome h.sessionId

theorem AppStep.kept {K C X : Type} {start : KexStart K C} {P : Primitives}
    {pkt : Option Bytes} {s t : Session K C X} (h : AppStep start P pkt s t) : s.Kept t := by
  have hwrote : ∀ {enc enc' : Encrypted} (new : List Message), s.common.encrypted = some enc →
      enc'.sessionId = enc.sessionId → s.Kept (s.wrote enc' new) := fun _ hc hs =>
    ⟨rfl, rfl, rfl, rfl, rfl, rfl, by simp [Session.wrote, Session.setEncrypted, hc, hs]⟩
  have hopened : ∀ {enc : Encrypted} {m : Message} {id channel chan},
      s.common.encrypted = some enc → s.Kept (s.openChannel m id channel chan enc) := fun hc =>
    ⟨rfl, rfl, rfl, rfl, rfl, rfl, by
      simp [Session.openChannel, hc, Encrypted.setChannel, Encrypted.push]⟩
  cases h with
  | frame h =>
    exact ⟨h.config, h.remoteSshid, h.strictKex, h.remoteToLocal, by rw [h.packetWriter],
      by rw [h.packetWriter], by rw [h.encrypted]⟩
  | write hc hstep => exact hwrote _ hc hstep.sessionId
  | call hc _ hstep =>
    exact ⟨rfl, rfl, rfl, rfl, rfl, rfl, by simp [hc, hstep.sessionId]⟩
  | answerChannel _ hc _ _ _ _ =>
    exact ⟨rfl, rfl, rfl, rfl, rfl, rfl, by
      simp [hc, Encrypted.push, Encrypted.setChannel]⟩
  | refuse _ _ _ _ hc =>
    exact ⟨rfl, rfl, rfl, rfl, rfl, rfl, by simp [hc, Encrypted.push]⟩
  | reject _ _ _ hc => exact hwrote _ hc rfl
  | confirm _ hc _ =>
    exact ⟨rfl, rfl, rfl, rfl, rfl, rfl, by simp [hc, Encrypted.setChannel]⟩
  | fail _ _ hc _ =>
    exact ⟨rfl, rfl, rfl, rfl, rfl, rfl, by simp [hc, Encrypted.removeChannel]⟩
  | number _ hc hstep _ => exact ⟨rfl, rfl, rfl, rfl, rfl, rfl, by simp [hc, hstep.sessionId]⟩
  | drop _ _ hc =>
    exact ⟨rfl, rfl, rfl, rfl, rfl, rfl, by simp [hc, Encrypted.removeChannel]⟩
  | closeByPeer _ _ _ hc hstep => exact hwrote _ hc hstep.sessionId
  | noteRequest _ hc _ =>
    exact ⟨rfl, rfl, rfl, rfl, rfl, rfl, by simp [hc, Encrypted.setChannel]⟩
  | answerRequest _ _ _ hc => exact hwrote _ hc rfl
  | openChannel _ _ _ _ _ hc _ _ => exact hopened hc
  | acceptChannel _ _ _ _ _ hc _ _ _ => exact hopened hc
  | account data target _ _ hc => exact hwrote _ hc (Encrypted.adjustWindowSize_sessionId ..)
  | auth hc h => exact ⟨rfl, rfl, rfl, rfl, rfl, rfl, by simp [hc, h.sessionId]⟩
  | globalRequest name data _ =>
    unfold Session.globalRequest
    dsimp only
    split
    · exact ⟨rfl, rfl, rfl, rfl, rfl, rfl, rfl⟩
    · rename_i enc hc
      exact ⟨rfl, rfl, rfl, rfl, rfl, rfl, by
        simp_all [Session.wrote, Session.setEncrypted, Encrypted.push]⟩
  | answer _ _ hc => exact hwrote _ hc rfl
  | replyCalled _ hc =>
    exact ⟨rfl, rfl, rfl, rfl, rfl, rfl, by
      simp [Session.wrote, Session.setEncrypted, hc, Encrypted.push]⟩
  | flush hc =>
    obtain ⟨done, rest, -, -, henc, hcipher, hepoch⟩ := Session.sealWrite_spec (s := s) (P := P)
    exact ⟨rfl, rfl, rfl, rfl, hcipher, hepoch, by rw [henc, hc]; rfl⟩
  | beginRekey _ _ _ hb =>
    obtain ⟨kex, w, hk, rfl⟩ := Session.beginRekey_eq_ok hb
    obtain ⟨payload, hp⟩ := start.kexinit_writes hk
    obtain ⟨hcipher, hepoch, -⟩ := packetRaw_eq_ok hp
    exact ⟨rfl, rfl, rfl, rfl, hcipher, hepoch, rfl⟩
  | _ => exact ⟨rfl, rfl, rfl, rfl, rfl, rfl, rfl⟩

/-- A step outside a key exchange leaves the exchange alone, or begins one. -/
theorem AppStep.kex {K C X : Type} {start : KexStart K C} {P : Primitives}
    {pkt : Option Bytes} {s t : Session K C X} (h : AppStep start P pkt s t) :
    t.kex = s.kex ∨ s.kex.active = false ∧ s.common.encrypted.isSome = true ∧
      ∃ rng, s.beginRekey start P rng = .ok t := by
  cases h with
  | frame h => exact .inl h.kex
  | globalRequest name data _ =>
    unfold Session.globalRequest
    dsimp only
    split <;> exact .inl rfl
  | beginRekey rng hk hc hb => exact .inr ⟨hk, hc, rng, hb⟩
  | _ => exact .inl rfl

theorem AppStep.authUser {K C X : Type} {start : KexStart K C} {P : Primitives}
    {pkt : Option Bytes} {s t : Session K C X} (h : AppStep start P pkt s t) :
    t.common.authUser = s.common.authUser := by
  cases h with
  | frame h => exact h.authUser
  | globalRequest name data _ =>
    unfold Session.globalRequest
    dsimp only
    split <;> rfl
  | beginRekey _ _ _ hb =>
    obtain ⟨kex, w, -, rfl⟩ := Session.beginRekey_eq_ok hb
    rfl
  | _ => rfl

/-- A step that is not for a packet of the authentication leaves its state alone. -/
theorem AppStep.state {K C X : Type} {start : KexStart K C} {P : Primitives}
    {pkt : Option Bytes} {s t : Session K C X} (h : AppStep start P pkt s t)
    (hmsg : ∀ b, firstByte? pkt = some b → ¬b < Msg.globalRequest) :
    t.common.encrypted.map (·.state) = s.common.encrypted.map (·.state) := by
  have hwrote : ∀ {enc enc' : Encrypted} (new : List Message), s.common.encrypted = some enc →
      enc'.state = enc.state →
      (s.wrote enc' new).common.encrypted.map (·.state) = s.common.encrypted.map (·.state) :=
    fun _ hc hs => by simp [hc, hs]
  cases h with
  | frame h => rw [h.encrypted]
  | write hc h => exact hwrote _ hc h.state
  | call hc _ h => simp [hc, h.state]
  | answerChannel _ hc _ _ _ _ => simp [hc, Encrypted.push, Encrypted.setChannel]
  | refuse _ _ _ _ hc => simp [hc, Encrypted.push]
  | openChannel _ _ _ _ _ hc _ _ =>
    simp [Session.openChannel, hc, Encrypted.setChannel, Encrypted.push]
  | acceptChannel _ _ _ _ _ hc _ _ _ =>
    simp [Session.openChannel, hc, Encrypted.setChannel, Encrypted.push]
  | reject _ _ _ hc => exact hwrote _ hc rfl
  | confirm _ hc _ => simp [hc, Encrypted.setChannel]
  | fail _ _ hc _ => simp [hc, Encrypted.removeChannel]
  | number _ hc h _ => simp [hc, h.state]
  | drop _ _ hc => simp [hc, Encrypted.removeChannel]
  | closeByPeer _ _ _ hc h => exact hwrote _ hc h.state
  | noteRequest _ hc _ => simp [hc, Encrypted.setChannel]
  | answerRequest _ _ _ hc => exact hwrote _ hc rfl
  | @account enc id data target _ _ hc =>
    exact hwrote _ hc (enc.adjustWindowSize_state id data target)
  | auth _ h =>
    obtain ⟨b, hb, hlt⟩ := h.msg_lt
    exact absurd hlt (hmsg b hb)
  | globalRequest name data _ =>
    unfold Session.globalRequest
    dsimp only
    split
    · rfl
    · rename_i enc hc
      simp_all [Encrypted.push]
  | answer _ _ hc => exact hwrote _ hc rfl
  | replyCalled _ hc => simp [hc, Encrypted.push]
  | flush hc =>
    obtain ⟨done, rest, -, -, henc, -⟩ := Session.sealWrite_spec (s := s) (P := P)
    rw [henc, hc]
    rfl
  | beginRekey _ _ _ hb =>
    obtain ⟨kex, w, -, rfl⟩ := Session.beginRekey_eq_ok hb
    rfl
  | _ => rfl

/-- A packet that rejects an authentication. -/
def Message.isRejection : Message → Bool
  | .userauthFailure .. => true
  | _ => false

theorem Message.isRejection_of_isPlain {m : Message} (h : m.isPlain = true) :
    m.isRejection = false := by
  cases m <;> simp_all [isPlain, isRejection]

/-- What a step outside a key exchange, for the packet `pkt`, may leave in the list of events:
packets are only written and sealed under a key, the application is only called for a packet, a
duration is one that `duration_since` returns, and nothing is said about host keys, ciphers or
authentications. -/
def Event.isApp (target : Target) (encrypted : Bool) (pkt : Option Bytes) : Event → Bool
  | .packet _ => encrypted
  | .wrote m => encrypted && !m.isRejection
  | .unsealed m => m.isTransport
  | .received _ | .setCipher _ | .verified .. | .serverKeyChecked .. => false
  | .authAnswered .. | .authVerified .. => false
  | .serverCallback call => call.isConnection && pkt.isSome || call = .authSucceeded
  | .clock now earlier => (target.durationSince now earlier).isSome
  | _ => true

section IsApp

variable {e : Event} {target : Target} {pkt : Option Bytes}

theorem Event.isApp_of_isObservation (h : e.isObservation = true) (b : Bool) :
    e.isApp target b pkt = true := by
  cases e with
  | serverCallback call => cases call <;> simp_all [Event.isObservation, Event.isApp]
  | _ => simp_all [Event.isObservation, Event.isApp]

theorem Event.isApp_of_delivered (hmsg : pkt.isSome = true) (h : e.delivered.isSome = true)
    (b : Bool) : e.isApp target b pkt = true := by
  cases e with
  | serverCallback call =>
    cases call <;> simp_all [Event.delivered, Event.isApp, ServerCallback.isConnection]
  | _ => simp_all [Event.delivered, Event.isApp]

theorem Event.mem_called {enc : Encrypted} {id : ChannelId} {m : ChannelMsg} {c : Option Bool}
    {asserts : List Event} (ha : asserts.Sublist (enc.assertion id))
    (he : e ∈ .called id m c :: asserts) :
    e = .called id m c ∨ ∃ channel, enc.channels id = some channel ∧
      e = .asserted id channel.confirmed := by
  rcases List.mem_cons.mp he with rfl | he
  · exact .inl rfl
  · have hmem := ha.subset he
    rw [Encrypted.assertion, Encrypted.confirmed?, Option.map_map, Option.mem_toList,
      Option.map_eq_some_iff] at hmem
    obtain ⟨channel, hc, rfl⟩ := hmem
    exact .inr ⟨channel, hc, rfl⟩

theorem Event.isApp_of_called {enc : Encrypted} {id : ChannelId} {m : ChannelMsg} {c : Option Bool}
    {asserts : List Event} (ha : asserts.Sublist (enc.assertion id))
    (he : e ∈ .called id m c :: asserts) (b : Bool) : e.isApp target b pkt = true := by
  rcases Event.mem_called ha he with rfl | ⟨channel, -, rfl⟩ <;> rfl

end IsApp

/-- What a step outside a key exchange adds to the list of events. -/
theorem AppStep.events {K C X : Type} {start : KexStart K C} {P : Primitives}
    {pkt : Option Bytes} {s t : Session K C X} (h : AppStep start P pkt s t) :
    ∃ new, t.events = s.events ++ new ∧
      ∀ e ∈ new, e.isApp P.target s.common.encrypted.isSome pkt = true := by
  cases h with
  | frame h =>
    refine ⟨[], ?_, by simp⟩
    rw [List.append_nil, Session.events, h.packetWriter]
    rfl
  | observe h => exact ⟨_, rfl, by simpa using Event.isApp_of_isObservation h _⟩
  | @write _ _ new hc h =>
    refine ⟨new.map .wrote, rfl, fun e he => ?_⟩
    obtain ⟨m, hm, rfl⟩ := List.mem_map.mp he
    simp [Event.isApp, hc, Message.isRejection_of_isPlain (h.plain m hm)]
  | called hc ha => exact ⟨_, rfl, fun e he => Event.isApp_of_called ha he _⟩
  | @call enc _ id m asserts new hc ha h =>
    refine ⟨.called id m (enc.confirmed? id) :: asserts ++ new.map .wrote, by simp,
      fun e he => ?_⟩
    rcases List.mem_append.mp he with he | he
    · exact Event.isApp_of_called ha he _
    · obtain ⟨m, hm, rfl⟩ := List.mem_map.mp he
      simp [Event.isApp, hc, Message.isRejection_of_isPlain (h.plain m hm)]
  | @answerChannel _ id channel m cm hc _ _ _ _ =>
    refine ⟨[.called id cm (some true), .asserted id true,
      .wrote (.channel id channel.recipientChannel m)], by simp, ?_⟩
    simp [Event.isApp, hc, Message.isRejection]
  | @refuse enc id reason description language hc =>
    refine ⟨[.refused id,
      .wrote (.channelOpenFailure id reason.code description language)], by simp, ?_⟩
    simp [Event.isApp, hc, Message.isRejection]
  | reject _ _ _ hc =>
    exact ⟨[.wrote _], rfl, by simp [Event.isApp, hc, OpenChannelMessage.fail, Message.isRejection]⟩
  | @confirm _ _ c _ _ _ => exact ⟨[.confirmed c], by simp, by simp [Event.isApp]⟩
  | @fail _ id _ _ _ _ _ => exact ⟨[.failed id], by simp, by simp [Event.isApp]⟩
  | @number _ _ id _ _ _ _ _ => exact ⟨[.numbered id], by simp, by simp [Event.isApp]⟩
  | @drop _ id _ _ _ => exact ⟨[.dropped id], by simp, by simp [Event.isApp]⟩
  | @closeByPeer _ _ _ new _ _ _ hc h =>
    refine ⟨new.map .wrote, rfl, fun e he => ?_⟩
    obtain ⟨m, hm, rfl⟩ := List.mem_map.mp he
    simp [Event.isApp, hc, Message.isRejection_of_isPlain (h.plain m hm)]
  | @noteRequest _ id wantsReply _ _ _ _ =>
    exact ⟨[.noted id wantsReply], by simp, by simp [Event.isApp]⟩
  | answerRequest _ _ _ hc =>
    exact ⟨[.wrote _], rfl, by simp [Event.isApp, hc, Message.isRejection]⟩
  | openChannel _ _ _ _ _ hc _ _ =>
    exact ⟨_, Session.events_openChannel .., by simp [Event.isApp, hc, Message.isRejection]⟩
  | acceptChannel _ _ _ _ _ hc _ _ _ =>
    exact ⟨_, Session.events_openChannel .., by simp [Event.isApp, hc, Message.isRejection]⟩
  | insertChannel _ _ _ => exact ⟨[], by simp [Session.events], by simp⟩
  | @account enc id data target _ _ hc =>
    refine ⟨((enc.adjustWindowSize id data target).1.write.drop enc.write.length).map .wrote, rfl,
      fun e he => ?_⟩
    obtain ⟨m, hm, rfl⟩ := List.mem_map.mp he
    obtain ⟨new, hwrite, hnew⟩ := enc.adjustWindowSize_write id data target
    rw [hwrite, List.drop_left] at hm
    obtain ⟨recipient, amount, rfl⟩ := hnew m hm
    simp [Event.isApp, hc, Message.isRejection]
  | deliver hmsg h =>
    refine ⟨_, rfl, ?_⟩
    have hsome : pkt.isSome = true := by
      cases pkt with
      | none => simp at hmsg
      | some buf => rfl
    simpa using Event.isApp_of_delivered hsome h _
  | serve hmsg h _ => exact ⟨_, rfl, by simp [Event.isApp, h, hmsg]⟩
  | @auth _ _ new hc h =>
    refine ⟨new, by simp, fun e he => ?_⟩
    cases h with
    | accepted => cases he
    | @requested _ _ m _ _ hm _ =>
      obtain rfl := List.mem_singleton.mp he
      cases m <;> simp_all [Event.isApp, Message.isRejection, Message.isAuthRequest]
    | answered => cases he
    | succeeded =>
      obtain rfl := List.mem_singleton.mp he
      rfl
  | globalRequest name data _ =>
    refine ⟨_, Session.events_globalRequest _ name _ data, ?_⟩
    cases s.common.encrypted <;> simp [Event.isApp, Message.isRejection]
  | takeReply tell _ =>
    refine ⟨_, Session.events_takeReply tell, ?_⟩
    intro e he
    rcases Session.mem_takeReply he with rfl | ⟨p, rfl⟩ <;> rfl
  | @answer _ m _ hm hc =>
    refine ⟨[.wrote m], rfl, ?_⟩
    cases m <;> simp_all [Event.isApp, Message.isRejection, Message.isReply]
  | @replyCalled _ m hm hc =>
    refine ⟨[.replyCalled, .wrote m], by simp, ?_⟩
    cases m <;> simp_all [Event.isApp, Message.isRejection, Message.isReply]
  | unsealed m h _ => exact ⟨_, rfl, by simp [Event.isApp, h]⟩
  | readClock hd => exact ⟨_, rfl, by simp [Event.isApp, hd]⟩
  | flush hc =>
    obtain ⟨done, rest, -, hev, -⟩ := Session.sealWrite_spec (s := s) (P := P)
    refine ⟨_, hev, ?_⟩
    intro e he
    rcases List.mem_cons.mp he with rfl | he
    · rfl
    · obtain ⟨m, -, n, rfl⟩ := mem_sealedPackets he
      simp [Event.isApp, hc]
  | beginRekey rng _ hc hb =>
    obtain ⟨kex, w, hk, rfl⟩ := Session.beginRekey_eq_ok hb
    obtain ⟨payload, hp⟩ := start.kexinit_writes hk
    obtain ⟨-, -, ⟨-, rfl⟩ | ⟨-, -, hev⟩⟩ := packetRaw_eq_ok hp
    · exact ⟨[], by simp [Session.events, Session.setWriter], by simp⟩
    · exact ⟨_, hev, by simp [Event.isApp, hc]⟩

end Edgessh.Russh
