import Edgessh.Lib.Lifecycle
import Edgessh.Russh.Session.Channel

/-!
# The channel table

`EncStep` is what the operations of `Encrypted` on open channels have in common: they write
behind `write` and change the entries of the table as the packets say. Every operation is shown to
be such a step; what the packets of a channel say of its life is in `lives`.
-/

namespace Edgessh.Russh
open Edgessh.Command

/-- What a packet about a channel says of its life. -/
def ChannelMessage.lifecycle : ChannelMessage → Option Lifecycle
  | .close => some .closed
  | _ => none

@[simp] theorem ChannelMessage.lifecycle_close : ChannelMessage.close.lifecycle = some .closed := rfl

@[simp] theorem ChannelMessage.lifecycle_eof : ChannelMessage.eof.lifecycle = none := rfl

/-- A packet about a channel that grants no window. -/
def ChannelMessage.isPlain : ChannelMessage → Bool
  | .windowAdjust _ => false
  | _ => true

@[simp] theorem ChannelMessage.isPlain_close : ChannelMessage.close.isPlain = true := rfl

@[simp] theorem ChannelMessage.isPlain_eof : ChannelMessage.eof.isPlain = true := rfl

/-- The answer to a request about a channel. -/
def ChannelMessage.isAnswer : ChannelMessage → Bool
  | .success | .failure => true
  | _ => false

@[simp] theorem ChannelMessage.isAnswer_close : ChannelMessage.close.isAnswer = false := rfl

@[simp] theorem ChannelMessage.isAnswer_eof : ChannelMessage.eof.isAnswer = false := rfl

namespace Message

/-- The number of the channel that a packet opens, and the window that it grants. -/
def opens : Message → Option (ChannelId × Nat)
  | channelOpen _ sender window _ _ => some (sender, window)
  | channelOpenConfirmation _ sender window _ => some (sender, window)
  | _ => none

/-- What a packet says of the life of the channel that this side knows as `id`. -/
def lifecycle (id : ChannelId) : Message → Option Lifecycle
  | channelOpen _ sender _ _ _ => if sender = id then some .opened else none
  | channelOpenConfirmation _ sender _ _ => if sender = id then some .opened else none
  | channel i _ msg => if i = id then msg.lifecycle else none
  | _ => none

/-- A packet that opens no channel, grants no window, has no part in a global request and rejects
no authentication. -/
def isPlain : Message → Bool
  | channel _ _ msg => msg.isPlain
  | channelOpen .. | channelOpenConfirmation .. => false
  | globalRequest .. | requestSuccess _ | requestFailure | userauthFailure .. => false
  | _ => true

/-- A packet that answers a request about a channel, or refuses to open one. -/
def isAnswer : Message → Bool
  | channel _ _ msg => msg.isAnswer
  | channelOpenFailure .. => true
  | _ => false

/-- A plain packet that has nothing to do with a channel. -/
def isQuiet : Message → Bool
  | channel .. | channelOpenFailure .. => false
  | m => m.isPlain

variable {m : Message} {id : ChannelId}

theorem isPlain_of_isQuiet (h : m.isQuiet = true) : m.isPlain = true := by
  unfold isQuiet at h
  split at h
  · cases h
  · cases h
  · exact h

theorem isAnswer_of_isQuiet (h : m.isQuiet = true) : m.isAnswer = false := by
  cases m <;> simp_all [isQuiet, isPlain, isAnswer]

theorem lifecycle_of_isQuiet (h : m.isQuiet = true) : m.lifecycle id = none := by
  cases m <;> simp_all [isQuiet, isPlain, lifecycle]

end Message

/-- The life of a channel, as the packets tell it. -/
def lives (id : ChannelId) (write : List Message) : List Lifecycle :=
  write.filterMap (Message.lifecycle id)

@[simp] theorem lives_append (id : ChannelId) (write write' : List Message) :
    lives id (write ++ write') = lives id write ++ lives id write' := List.filterMap_append ..

@[simp] theorem lives_nil (id : ChannelId) : lives id [] = [] := rfl

theorem lives_map_self (id : ChannelId) (recipient : Nat) (packets : List ChannelMessage) :
    lives id (packets.map (.channel id recipient)) =
      packets.filterMap ChannelMessage.lifecycle := by
  rw [lives, List.filterMap_map]
  refine List.filterMap_congr fun msg _ => ?_
  simp [Message.lifecycle]

theorem lives_map_ne {id i : ChannelId} (h : i ≠ id) (recipient : Nat)
    (packets : List ChannelMessage) : lives id (packets.map (.channel i recipient)) = [] := by
  rw [lives, List.filterMap_map]
  exact List.filterMap_eq_nil_iff.mpr fun msg _ => by simp [Message.lifecycle, h]

namespace ChannelParams

/-- The peer has not confirmed the channel, and nothing waits to be written to it. -/
structure Dormant (channel : ChannelParams) : Prop where
  confirmed : channel.confirmed = false
  pendingData : channel.pendingData = []
  pendingEof : channel.pendingEof = false
  pendingClose : channel.pendingClose = false

/-- What the operations on an open channel leave alone. -/
structure Kept (channel channel' : ChannelParams) : Prop where
  senderWindowSize : channel'.senderWindowSize = channel.senderWindowSize
  recipientChannel : channel'.recipientChannel = channel.recipientChannel
  recipientMaximumPacketSize :
    channel'.recipientMaximumPacketSize = channel.recipientMaximumPacketSize
  confirmed : channel'.confirmed = channel.confirmed
  wantsReply : channel'.wantsReply = channel.wantsReply
  dormant : channel.Dormant → channel'.Dormant

variable {channel channel' channel'' : ChannelParams}

theorem Kept.refl (channel : ChannelParams) : channel.Kept channel := ⟨rfl, rfl, rfl, rfl, rfl, id⟩

theorem Kept.trans (h : channel.Kept channel') (h' : channel'.Kept channel'') :
    channel.Kept channel'' where
  senderWindowSize := h'.senderWindowSize.trans h.senderWindowSize
  recipientChannel := h'.recipientChannel.trans h.recipientChannel
  recipientMaximumPacketSize := h'.recipientMaximumPacketSize.trans h.recipientMaximumPacketSize
  confirmed := h'.confirmed.trans h.confirmed
  wantsReply := h'.wantsReply.trans h.wantsReply
  dormant hd := h'.dormant (h.dormant hd)

/-- Only the window and the data that waits differ, and a dormant channel stays as it is. -/
theorem Kept.of_window {window : UInt32} {pendingData : List PendingData}
    (h : channel.Dormant → pendingData = []) :
    channel.Kept { channel with recipientWindowSize := window, pendingData } :=
  ⟨rfl, rfl, rfl, rfl, rfl, fun hd => ⟨hd.confirmed, h hd, hd.pendingEof, hd.pendingClose⟩⟩

end ChannelParams

/-- `enc` becomes `enc'` by writing the plain packets `new` and by changing the channel table as
they say. Packets about a channel go to the number that its entry has; they are about the channel
`on`, or about channels that are not dormant. An entry may also be dropped without a packet. -/
structure EncChange (on : Option ChannelId) (enc enc' : Encrypted) (new : List Message) : Prop where
  state : enc'.state = enc.state
  sessionId : enc'.sessionId = enc.sessionId
  kex : enc'.kex = enc.kex
  serverCompression : enc'.serverCompression = enc.serverCompression
  clientCompression : enc'.clientCompression = enc.clientCompression
  write : enc'.write = enc.write ++ new
  plain : ∀ m ∈ new, m.isPlain = true
  noAnswer : ∀ m ∈ new, m.isAnswer = false
  directed : ∀ id recipient msg, .channel id recipient msg ∈ new → ∃ channel,
    enc.channels id = some channel ∧ recipient = channel.recipientChannel ∧
      (on = some id ∨ ¬channel.Dormant)
  entry : ∀ id channel', enc'.channels id = some channel' →
    ∃ channel, enc.channels id = some channel ∧ channel.Kept channel'
  lives : ∀ id,
    Lifecycle.Follows (enc.channels id).isSome (lives id new) (enc'.channels id).isSome

/-- A change that drops an entry only with its CHANNEL_CLOSE. -/
structure EncStep (on : Option ChannelId) (enc enc' : Encrypted) (new : List Message) : Prop
    extends EncChange on enc enc' new where
  stays : ∀ id, (enc.channels id).isSome = true →
    (enc'.channels id).isSome = true ∨ Lifecycle.closed ∈ Russh.lives id new

namespace EncChange

variable {enc enc' : Encrypted} {new : List Message} {id : ChannelId} {on : Option ChannelId}

theorem window (h : EncChange on enc enc' new) (id : ChannelId) (channel' : ChannelParams)
    (hc' : enc'.channels id = some channel') :
    ∃ channel, enc.channels id = some channel ∧
      channel'.senderWindowSize = channel.senderWindowSize := by
  obtain ⟨channel, hc, hk⟩ := h.entry id channel' hc'
  exact ⟨channel, hc, hk.senderWindowSize⟩

theorem refl (enc : Encrypted) : EncChange on enc enc [] where
  state := rfl
  sessionId := rfl
  kex := rfl
  serverCompression := rfl
  clientCompression := rfl
  write := (List.append_nil _).symm
  plain := by simp
  noAnswer := by simp
  directed := by simp
  entry _ channel' h := ⟨channel', h, .refl _⟩
  lives _ := Lifecycle.follows_refl _

/-- The entry of a channel is changed, or dropped. -/
theorem putChannel {channel : ChannelParams} (channel' : Option ChannelParams)
    (hc : enc.channels id = some channel) (hk : ∀ c ∈ channel', channel.Kept c) :
    EncChange on enc (enc.putChannel id channel') [] where
  state := rfl
  sessionId := rfl
  kex := rfl
  serverCompression := rfl
  clientCompression := rfl
  write := (List.append_nil _).symm
  plain := by simp
  noAnswer := by simp
  directed := by simp
  entry i c h := by
    by_cases hi : i = id
    · subst hi
      rw [Encrypted.channels_putChannel] at h
      exact ⟨channel, hc, hk c h⟩
    · exact ⟨c, by simpa [Encrypted.putChannel, Function.update_of_ne hi] using h, .refl _⟩
  lives i := by
    by_cases hi : i = id
    · subst hi
      simp [hc]
    · simp [Encrypted.putChannel, Function.update_of_ne hi]

/-- The entry of a channel is dropped. -/
theorem removeChannel : EncChange on enc (enc.removeChannel id) [] := by
  cases hc : enc.channels id with
  | some channel => exact putChannel none hc (by simp)
  | none =>
    have heq : enc.removeChannel id = enc := by
      simp only [Encrypted.removeChannel, ← hc, Function.update_eq_self]
    rw [heq]
    exact refl enc

end EncChange

namespace EncStep

variable {enc enc' enc'' : Encrypted} {new new' : List Message} {id : ChannelId}
  {on : Option ChannelId}

theorem refl (enc : Encrypted) : EncStep on enc enc [] :=
  { EncChange.refl enc with stays := fun _ h => .inl h }

theorem trans (h : EncStep on enc enc' new) (h' : EncStep on enc' enc'' new') :
    EncStep on enc enc'' (new ++ new') where
  state := h'.state.trans h.state
  sessionId := h'.sessionId.trans h.sessionId
  kex := h'.kex.trans h.kex
  serverCompression := h'.serverCompression.trans h.serverCompression
  clientCompression := h'.clientCompression.trans h.clientCompression
  write := by rw [h'.write, h.write, List.append_assoc]
  plain m hm := (List.mem_append.mp hm).elim (h.plain m) (h'.plain m)
  noAnswer m hm := (List.mem_append.mp hm).elim (h.noAnswer m) (h'.noAnswer m)
  directed id recipient msg hm := by
    rcases List.mem_append.mp hm with hm | hm
    · exact h.directed id recipient msg hm
    · obtain ⟨channel', hc', hr, hd⟩ := h'.directed id recipient msg hm
      obtain ⟨channel, hc, hk⟩ := h.entry id channel' hc'
      exact ⟨channel, hc, hr.trans hk.recipientChannel,
        hd.imp_right fun hn hdormant => hn (hk.dormant hdormant)⟩
  entry id channel'' hc'' := by
    obtain ⟨channel', hc', hk'⟩ := h'.entry id channel'' hc''
    obtain ⟨channel, hc, hk⟩ := h.entry id channel' hc'
    exact ⟨channel, hc, hk.trans hk'⟩
  lives id := by
    rw [lives_append]
    exact (h.lives id).append (h'.lives id)
  stays id hid := by
    rw [lives_append]
    rcases h.stays id hid with hid' | hclosed
    · exact (h'.stays id hid').imp_right (List.mem_append_right _)
    · exact .inr (List.mem_append_left _ hclosed)

/-- Fields that say nothing about the channels, the packets, the authentication or the keys. -/
theorem of_eq (hst : enc'.state = enc.state) (hs : enc'.sessionId = enc.sessionId)
    (hk : enc'.kex = enc.kex) (hsc : enc'.serverCompression = enc.serverCompression)
    (hcc : enc'.clientCompression = enc.clientCompression) (hw : enc'.write = enc.write)
    (hc : enc'.channels = enc.channels) : EncStep on enc enc' [] where
  state := hst
  sessionId := hs
  kex := hk
  serverCompression := hsc
  clientCompression := hcc
  write := by rw [hw, List.append_nil]
  plain := by simp
  noAnswer := by simp
  directed := by simp
  entry _ channel' h := ⟨channel', hc ▸ h, .refl _⟩
  lives id := by
    rw [hc]
    exact Lifecycle.follows_refl _
  stays id hid := .inl (hc ▸ hid)

/-- The packets of a step are those behind the old ones. -/
theorem eq_drop (h : EncStep on enc enc' new) : new = enc'.write.drop enc.write.length := by
  rw [h.write, List.drop_left]

theorem push {m : Message} (hm : m.isQuiet = true) : EncStep on enc (enc.push m) [m] where
  state := rfl
  sessionId := rfl
  kex := rfl
  serverCompression := rfl
  clientCompression := rfl
  write := rfl
  plain := by simpa using Message.isPlain_of_isQuiet hm
  noAnswer := by simpa using Message.isAnswer_of_isQuiet hm
  directed id recipient msg h := by
    obtain rfl := List.mem_singleton.mp h
    cases hm
  entry _ channel' h := ⟨channel', h, .refl _⟩
  lives i := by
    have hlives : Russh.lives i [m] = [] := by simp [Russh.lives, Message.lifecycle_of_isQuiet hm]
    rw [hlives]
    exact Lifecycle.follows_refl _
  stays _ h := .inl h

/-- What an operation on one channel has to meet to be a step. -/
structure OnChannel (channel : ChannelParams) (packets : List ChannelMessage)
    (channel' : Option ChannelParams) : Prop where
  plain : ∀ msg ∈ packets, msg.isPlain = true
  noAnswer : ∀ msg ∈ packets, msg.isAnswer = false
  kept : ∀ c ∈ channel', channel.Kept c
  lives : Lifecycle.Follows true (packets.filterMap ChannelMessage.lifecycle) channel'.isSome
  stays : channel' = none → ChannelMessage.close ∈ packets

/-- An operation on one channel that keeps the entry or writes a CLOSE. -/
theorem onChannel {f : ChannelParams → Except Exn (List ChannelMessage × Option ChannelParams)}
    (hf : ∀ channel packets channel', f channel = .ok (packets, channel') →
      OnChannel channel packets channel' ∧
        (on = some id ∨ (channel.Dormant → packets = [])))
    (h : enc.onChannel id f = .ok enc') : ∃ new, EncStep on enc enc' new := by
  cases hc : enc.channels id with
  | none =>
    obtain rfl : enc = enc' := by simpa [Encrypted.onChannel_none hc] using h
    exact ⟨[], refl enc⟩
  | some channel =>
    rw [Encrypted.onChannel_some hc] at h
    cases hfc : f channel with
    | error e =>
      rw [hfc] at h
      cases h
    | ok p =>
      rw [hfc] at h
      cases h
      obtain ⟨hon, hidle⟩ := hf channel p.1 p.2 hfc
      have hput : EncChange on enc (enc.putChannel id p.2) [] := .putChannel p.2 hc hon.kept
      refine ⟨p.1.map (.channel id channel.recipientChannel), ⟨rfl, rfl, rfl, rfl, rfl, rfl, ?_,
        ?_, ?_, hput.entry, fun i => ?_⟩, fun i hi => ?_⟩
      · intro m hm
        obtain ⟨msg, hmsg, rfl⟩ := List.mem_map.mp hm
        exact hon.plain msg hmsg
      · intro m hm
        obtain ⟨msg, hmsg, rfl⟩ := List.mem_map.mp hm
        exact hon.noAnswer msg hmsg
      · intro i recipient msg hm
        obtain ⟨msg, hmsg, hm⟩ := List.mem_map.mp hm
        cases hm
        refine ⟨channel, hc, rfl, hidle.imp_right fun hnil hd => ?_⟩
        rw [hnil hd] at hmsg
        cases hmsg
      · by_cases hi : id = i
        · subst hi
          rw [lives_map_self, Encrypted.channels_putChannel, hc]
          exact hon.lives
        · rw [lives_map_ne hi]
          simp [Encrypted.putChannel, Function.update_of_ne (Ne.symm hi)]
      · by_cases heq : id = i
        · subst heq
          rw [lives_map_self, Encrypted.channels_putChannel]
          rcases hp : p.2 with - | c
          · exact .inr (List.mem_filterMap.mpr ⟨.close, hon.stays hp, rfl⟩)
          · exact .inl rfl
        · left
          simpa [Encrypted.putChannel, Function.update_of_ne (Ne.symm heq)] using hi

/-- A packet about a channel. -/
theorem byte {msg : ChannelMessage} (hplain : msg.isPlain = true) (hanswer : msg.isAnswer = false)
    (hlife : msg.lifecycle = none) :
    ∃ new, EncStep (some id) enc (enc.byte id msg) new := by
  have ho : enc.onChannel id (fun c => .ok ([msg], some c)) = .ok (enc.byte id msg) := by
    cases hc : enc.channels id with
    | none => simp [Encrypted.onChannel_none hc, Encrypted.byte, hc]
    | some channel =>
      rw [Encrypted.onChannel_some hc, Encrypted.byte_of_some hc]
      simp only [Except.map]
      rw [Encrypted.putChannel_eq_self (by simpa using hc)]
  refine onChannel ?_ ho
  rintro channel packets channel' ⟨⟩
  refine ⟨⟨by simpa using hplain, by simpa using hanswer, ?_, by simp [hlife],
    fun h => absurd h (Option.some_ne_none _)⟩, .inl rfl⟩
  rintro c ⟨⟩
  exact .refl _

end EncStep

/-- Data is plain, and says nothing about the life of a channel. -/
theorem onChannel_data {channel channel' : ChannelParams} {packets : List ChannelMessage}
    (h : ∀ msg ∈ packets, ∃ a b, msg = ChannelParams.dataMessage a b)
    (hk : ∀ c ∈ some channel', channel.Kept c) :
    EncStep.OnChannel channel packets (some channel') where
  plain msg hm := by
    obtain ⟨a, b, rfl⟩ := h msg hm
    cases a <;> rfl
  noAnswer msg hm := by
    obtain ⟨a, b, rfl⟩ := h msg hm
    cases a <;> rfl
  kept := hk
  lives := by
    have hnil : packets.filterMap ChannelMessage.lifecycle = [] := by
      refine List.filterMap_eq_nil_iff.mpr fun msg hm => ?_
      obtain ⟨a, b, rfl⟩ := h msg hm
      cases a <;> rfl
    rw [hnil]
    exact fun _ => rfl
  stays := nofun

namespace ChannelParams

variable {channel channel' : ChannelParams} {packets : List ChannelMessage}

theorem dataNoqueue_data {buf0 : Bytes} {a : Option Nat} {offset size : Nat}
    (h : channel.dataNoqueue buf0 a offset = .ok (packets, channel', size)) :
    ∀ msg ∈ packets, ∃ a b, msg = dataMessage a b := by
  intro msg hm
  by_cases ho : offset < buf0.length
  · obtain ⟨b, hb, -⟩ := (dataNoqueue_writes ho h).packets_le msg hm
    exact ⟨a, b, hb⟩
  · rw [dataNoqueue_of_le (by omega)] at h
    cases h
    cases hm

theorem submit_onChannel {ext : Option Nat} {buf0 : Bytes} {isRekeying : Bool}
    (h : channel.submit ext buf0 isRekeying = .ok (packets, channel')) :
    EncStep.OnChannel channel packets (some channel') := by
  unfold submit at h
  split at h
  · cases h
  · rename_i hconfirmed
    have hopen : ¬channel.Dormant := fun hd => by simp [hd.confirmed] at hconfirmed
    split at h
    · cases h
      refine onChannel_data (by simp) ?_
      rintro c ⟨⟩
      exact ⟨rfl, rfl, rfl, rfl, rfl, fun hd => absurd hd hopen⟩
    · obtain ⟨⟨written, c, size⟩, hd, h⟩ := bind_eq_ok.mp h
      obtain ⟨rfl, hc⟩ := by simpa [pure_eq_ok] using h
      have hframe := dataNoqueue_frame hd
      refine onChannel_data (dataNoqueue_data hd) ?_
      rintro c' ⟨⟩
      rw [← hc, hframe]
      split <;> exact ⟨rfl, rfl, rfl, rfl, rfl, fun hd => absurd hd hopen⟩

theorem flushChannel_onChannel {result : ChannelFlushResult}
    (h : channel.flushChannel = .ok (packets, channel', result)) :
    EncStep.OnChannel channel packets (some channel') := by
  have hf := flushPendingData_flushes h
  refine onChannel_data (fun msg hm => ?_) ?_
  · obtain ⟨a, b, hb, -⟩ := hf.packets_le msg hm
    exact ⟨a, b, hb⟩
  · rintro c ⟨⟩
    have hdormant : channel.Dormant → channel'.pendingData = [] := by
      intro hd
      rw [flushChannel_of_drained hd.pendingData] at h
      cases h
      exact hd.pendingData
    rw [hf.channel_eq]
    exact .of_window hdormant

theorem flushChannel_dormant {result : ChannelFlushResult}
    (h : channel.flushChannel = .ok (packets, channel', result)) (hd : channel.Dormant) :
    packets = [] := by
  rw [flushChannel_of_drained hd.pendingData] at h
  cases h
  rfl

theorem drain_onChannel {channel' : Option ChannelParams}
    (h : channel.drain = .ok (packets, channel')) :
    EncStep.OnChannel channel packets channel' ∧ (channel.Dormant → packets = []) := by
  obtain ⟨⟨written, c, result⟩, hf, h⟩ := bind_eq_ok.mp h
  obtain ⟨rfl, rfl⟩ := by simpa [pure_eq_ok] using h
  have hon := flushChannel_onChannel hf
  have hkept : channel.Kept c := hon.kept c rfl
  have hafter : ∀ msg ∈ (c.afterFlush result).1, msg = .eof ∨ msg = .close := by
    cases result with
    | incomplete wrote => simp [afterFlush]
    | complete wrote pendingEof pendingClose =>
      cases pendingEof <;> cases pendingClose <;> simp [afterFlush]
  refine ⟨⟨fun msg hm => ?_, fun msg hm => ?_, ?_, ?_, fun hnone => ?_⟩, fun hd => ?_⟩
  · rcases List.mem_append.mp hm with hm | hm
    · exact hon.plain msg hm
    · rcases hafter msg hm with rfl | rfl <;> rfl
  · rcases List.mem_append.mp hm with hm | hm
    · exact hon.noAnswer msg hm
    · rcases hafter msg hm with rfl | rfl <;> rfl
  · intro c' hc'
    cases result with
    | incomplete wrote =>
      cases hc'
      exact hkept
    | complete wrote pendingEof pendingClose =>
      cases pendingClose with
      | true => cases hc'
      | false =>
        cases hc'
        exact hkept
  · rw [List.filterMap_append]
    refine Lifecycle.Follows.append hon.lives ?_
    cases result with
    | incomplete wrote => simp [afterFlush]
    | complete wrote pendingEof pendingClose =>
      cases pendingEof <;> cases pendingClose <;> simp [afterFlush, List.filterMap_cons]
  · cases result with
    | incomplete wrote => cases hnone
    | complete wrote pendingEof pendingClose =>
      cases pendingClose with
      | true => cases pendingEof <;> simp [afterFlush]
      | false => cases hnone
  · rw [flushChannel_of_drained hd.pendingData] at hf
    cases hf
    simp [afterFlush, hd.pendingEof, hd.pendingClose]

theorem adjust_onChannel {amount : UInt32} {channel' : Option ChannelParams}
    (h : channel.adjust amount = .ok (packets, channel')) :
    EncStep.OnChannel channel packets channel' ∧ (channel.Dormant → packets = []) := by
  obtain ⟨hon, hnil⟩ := drain_onChannel h
  have hkept : channel.Kept (channel.enlarge amount) :=
    ⟨rfl, rfl, rfl, rfl, rfl, fun hd => ⟨hd.1, hd.2, hd.3, hd.4⟩⟩
  exact ⟨⟨hon.plain, hon.noAnswer, fun c hc => hkept.trans (hon.kept c hc), hon.lives,
    hon.stays⟩, fun hd => hnil (hkept.dormant hd)⟩

end ChannelParams

namespace EncStep

variable {enc enc' : Encrypted} {id : ChannelId} {on : Option ChannelId}

theorem eof : ∃ new, EncStep (some id) enc (enc.eof id) new := by
  refine onChannel ?_ Encrypted.onChannel_eof
  rintro channel packets channel' ⟨⟩
  refine ⟨?_, .inl rfl⟩
  unfold ChannelParams.eof
  split
  · refine ⟨by simp, by simp, ?_, by simp [List.filterMap_cons], nofun⟩
    rintro c ⟨⟩
    exact .refl _
  · rename_i hpending
    refine ⟨by simp, by simp, ?_, by simp, nofun⟩
    rintro c ⟨⟩
    exact ⟨rfl, rfl, rfl, rfl, rfl, fun hd => absurd hd.pendingData hpending⟩

theorem close : ∃ new, EncStep (some id) enc (enc.close id) new := by
  refine onChannel ?_ Encrypted.onChannel_close
  intro channel packets channel' h
  refine ⟨?_, .inl rfl⟩
  unfold ChannelParams.close at h
  split at h
  · cases h
    exact ⟨by simp, by simp, by simp, by simp, by simp⟩
  · rename_i hpending
    cases h
    refine ⟨by simp, by simp, ?_, by simp, nofun⟩
    rintro c ⟨⟩
    exact ⟨rfl, rfl, rfl, rfl, rfl, fun hd => absurd hd.pendingData hpending⟩

theorem dataWith {ext : Option Nat} {buf0 : Bytes} {isRekeying : Bool}
    (h : enc.dataWith ext id buf0 isRekeying = .ok enc') :
    ∃ new, EncStep (some id) enc enc' new := by
  rw [← Encrypted.onChannel_submit] at h
  refine onChannel ?_ h
  intro channel packets channel' hs
  obtain ⟨⟨written, c⟩, hsub, hs⟩ := bind_eq_ok.mp hs
  obtain ⟨rfl, rfl⟩ := by simpa [pure_eq_ok] using hs
  exact ⟨ChannelParams.submit_onChannel hsub, .inl rfl⟩

theorem flushChannel {channel : ChannelParams} {result : ChannelFlushResult}
    (hc : enc.channels id = some channel)
    (h : enc.flushChannel id channel = .ok (enc', result)) : ∃ new, EncStep on enc enc' new := by
  have ho := Encrypted.onChannel_flushChannel hc
  rw [h] at ho
  refine onChannel ?_ ho
  intro c packets channel' hs
  obtain ⟨⟨written, c', r⟩, hflush, hs⟩ := bind_eq_ok.mp hs
  obtain ⟨rfl, rfl⟩ := by simpa [pure_eq_ok] using hs
  exact ⟨ChannelParams.flushChannel_onChannel hflush,
    .inr (ChannelParams.flushChannel_dormant hflush)⟩

theorem flushAllPending {order : List ChannelId}
    (h : Encrypted.flushAllPending order enc = .ok enc') : ∃ new, EncStep on enc enc' new := by
  induction order generalizing enc with
  | nil =>
    obtain rfl : enc = enc' := by simpa [Encrypted.flushAllPending, pure_eq_ok] using h
    exact ⟨[], refl enc⟩
  | cons i order ih =>
    rw [Encrypted.flushAllPending] at h
    cases hc : enc.channels i with
    | none =>
      simp only [hc] at h
      exact ih h
    | some channel =>
      simp only [hc] at h
      obtain ⟨⟨enc₁, result⟩, hf, h⟩ := bind_eq_ok.mp h
      obtain ⟨new, hfirst⟩ := flushChannel hc hf
      obtain ⟨new', hrest⟩ := ih h
      exact ⟨new ++ new', hfirst.trans hrest⟩

theorem windowAdjust {amount : UInt32} (h : enc.windowAdjust id amount = .ok enc') :
    ∃ new, EncStep on enc enc' new := by
  rw [← Encrypted.onChannel_adjust] at h
  refine onChannel (fun _ _ _ ha => ?_) h
  exact (ChannelParams.adjust_onChannel ha).imp_right .inr

theorem flushPending {wrote : Nat} (h : enc.flushPending id = .ok (enc', wrote)) :
    ∃ new, EncStep on enc enc' new := by
  have ho : enc.onChannel id ChannelParams.drain = .ok enc' := by
    rw [Encrypted.onChannel_drain, h]
    rfl
  refine onChannel (fun _ _ _ hd => ?_) ho
  exact (ChannelParams.drain_onChannel hd).imp_right .inr

/-- A new number is one that no channel has. -/
theorem newChannelId {fuel : Nat} (h : enc.newChannelId fuel = .ok (enc', id)) :
    EncStep on enc enc' [] ∧ enc'.channels id = none := by
  induction fuel generalizing enc with
  | zero => cases h
  | succ fuel ih =>
    rw [Encrypted.newChannelId] at h
    have hnext : EncStep on enc { enc with lastChannelId := enc.lastChannelId + 1 } [] :=
      of_eq rfl rfl rfl rfl rfl rfl rfl
    dsimp only at h
    split at h
    · obtain ⟨hstep, hnone⟩ := ih h
      exact ⟨hnext.trans hstep, hnone⟩
    · rename_i hfree
      obtain ⟨rfl, rfl⟩ := by simpa [pure_eq_ok] using h
      exact ⟨hnext, by simpa using hfree⟩

end EncStep

end Edgessh.Russh
