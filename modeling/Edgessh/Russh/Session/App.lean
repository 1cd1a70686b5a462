import Edgessh.Russh.Session.Step

/-!
# Programs of a session

`AppM` and its operations, and the methods that the two sessions have in common.
-/

namespace Edgessh.Russh
open Edgessh.Command Relation

variable {K C X α : Type} {start : KexStart K C} {P : Primitives} {pkt : Option Bytes}

/-- The programs whose steps are those of `AppStep`. -/
abbrev AppM (start : KexStart K C) (P : Primitives) (pkt : Option Bytes) (X : Type) :=
  Confined (@AppStep K C X start P pkt) Exn

namespace AppM

/-- A program that is not about the packet. -/
def quiet (m : AppM start P none X α) : AppM start P pkt X α := m.weaken fun _ _ => .of_none

/-- Something is told to the application, a handle or a channel. -/
def observe (e : Event) (h : e.isObservation = true) : AppM start P pkt X Unit :=
  Confined.move (·.record e) fun _ => .observe h

def frame (f : Session K C X → Session K C X) (h : ∀ s, Session.Frame s (f s)) :
    AppM start P pkt X Unit :=
  Confined.move f fun s => .frame (h s)

def encrypted? : AppM start P pkt X (Option Encrypted) := do
  let s ← Confined.read
  pure s.common.encrypted

/-- An operation on `encrypted`, if the session has it. -/
def update (f : Encrypted → Except Exn (α × Encrypted))
    (h : ∀ enc a enc', f enc = .ok (a, enc') → ∃ new, EncStep none enc enc' new) :
    AppM start P pkt X (Option α) :=
  Confined.tryMove
    (fun s =>
      match s.common.encrypted with
      | none => .ok (none, s)
      | some enc =>
        match f enc with
        | .ok (a, enc') => .ok (some a, s.wrote enc' (enc'.write.drop enc.write.length))
        | .error e => .error e)
    fun s a t hs => by
      cases hc : s.common.encrypted with
      | none =>
        simp only [hc] at hs
        cases hs
        exact .frame (.refl s)
      | some enc =>
        simp only [hc] at hs
        cases hf : f enc with
        | error e => simp [hf] at hs
        | ok p =>
          simp only [hf] at hs
          cases hs
          obtain ⟨new, hstep⟩ := h enc p.1 p.2 hf
          exact .write hc (hstep.eq_drop ▸ hstep)

/-- An operation on `encrypted` that does not fail. -/
def modifyEncrypted (f : Encrypted → Encrypted) (h : ∀ enc, ∃ new, EncStep none enc (f enc) new) :
    AppM start P pkt X Unit := do
  let _ ← update (fun enc => .ok ((), f enc)) fun enc a enc' he => by cases he; exact h enc
  pure ()

/-- Fields of `encrypted` that say nothing about the channels, the packets, the authentication
or the keys. -/
def setFields (f : Encrypted → Encrypted) (h : ∀ enc, EncStep none enc (f enc) []) :
    AppM start P pkt X Unit :=
  modifyEncrypted f fun enc => ⟨[], h enc⟩

/-- `push_packet!` on `enc.write`. -/
def push (m : Message) (h : m.isQuiet = true) : AppM start P pkt X Unit :=
  modifyEncrypted (·.push m) fun _ => ⟨[m], .push h⟩

theorem wp_push {m : Message} {h : m.isQuiet = true} {s : Session K C X}
    {Q : Unit → Session K C X → Prop} {E : Exn → Session K C X → Prop}
    (hsome : ∀ enc, s.common.encrypted = some enc → Q () (s.wrote (enc.push m) [m]))
    (hnone : s.common.encrypted = none → Q () s) :
    wp (push m h : AppM start P pkt X Unit).run Q E s := by
  rw [push, modifyEncrypted, Confined.wp_run_bind]
  simp only [update, Confined.tryMove, Confined.tryMoves, wp]
  cases hc : s.common.encrypted with
  | none => exact hnone hc
  | some enc =>
    have hdrop : (enc.push m).write.drop enc.write.length = [m] := by simp [Encrypted.push]
    dsimp only
    rw [hdrop]
    exact hsome enc hc

/-- The call of a method that takes a message about a channel, and what the method asserts. -/
def callEvents (id : ChannelId) (m : ChannelMsg) (asserts : Bool) (enc : Encrypted) : List Event :=
  .called id m (enc.confirmed? id) :: if asserts then enc.assertion id else []

theorem asserts_sublist (id : ChannelId) (asserts : Bool) (enc : Encrypted) :
    (if asserts then enc.assertion id else []).Sublist (enc.assertion id) := by
  split
  · exact .refl _
  · exact List.nil_sublist _

/-- A method that takes the message `m` about the channel `id`, if there is `encrypted`. `asserts`
is set where the method asserts that the channel is confirmed. -/
def onChannel (id : ChannelId) (m : ChannelMsg) (hm : m.isAnswer = false) (asserts : Bool)
    (f : Encrypted → Except Exn Encrypted)
    (h : ∀ enc enc', f enc = .ok enc' → ∃ new, EncStep (some id) enc enc' new) :
    AppM start P pkt X Unit where
  run s :=
    match s.common.encrypted with
    | none => .ok () s
    | some enc =>
      match f enc with
      | .ok enc' => .ok () ((s.recordAll (callEvents id m asserts enc)).wrote enc'
          (enc'.write.drop enc.write.length))
      | .error e => .error e (s.recordAll (callEvents id m asserts enc))
  steps s := by
    simp only [wp]
    cases hc : s.common.encrypted with
    | none => exact ReflTransGen.refl
    | some enc =>
      dsimp only
      cases hf : f enc with
      | error e =>
        refine ReflTransGen.single (.called hc (asserts_sublist id asserts enc) fun h => ?_)
        simp [hm] at h
      | ok enc' =>
        obtain ⟨new, hstep⟩ := h enc enc' hf
        refine ReflTransGen.single (.call hc (asserts_sublist id asserts enc) ?_ hm)
        rw [← hstep.eq_drop]
        exact hstep

/-- A field is read from a packet (`map_err!`). -/
def decode {β : Type} (d : Decoder β) (r : Bytes) : AppM start P pkt X (β × Bytes) :=
  Confined.lift ((d r).mapError fun e => Exn.error (.sshEncoding e))

theorem wp_decode {β : Type} {d : Decoder β} {r : Bytes} {s : Session K C X}
    {Q : β × Bytes → Session K C X → Prop} {E : Exn → Session K C X → Prop}
    (hok : ∀ a r', d r = .ok (a, r') → Q (a, r') s) (herr : ∀ e, E e s) :
    wp (decode d r : AppM start P pkt X (β × Bytes)).run Q E s := by
  rw [decode, Confined.run_lift, wp_ofExcept, wpExcept_mapError]
  exact wpExcept_iff.mpr ⟨fun p hp => hok p.1 p.2 hp, fun e _ => herr _⟩

/-- The same, for a field that says which step is taken. -/
def decoded {β : Type} (d : Decoder β) (r : Bytes) :
    AppM start P pkt X {p : β × Bytes // d r = .ok p} :=
  Confined.lift ((attach (d r)).mapError fun e => Exn.error (.sshEncoding e))

theorem wp_decoded {β : Type} {d : Decoder β} {r : Bytes} {s : Session K C X}
    {Q : {p : β × Bytes // d r = .ok p} → Session K C X → Prop} {E : Exn → Session K C X → Prop}
    (hok : ∀ a r' (h : d r = .ok (a, r')), Q ⟨(a, r'), h⟩ s) (herr : ∀ e, E e s) :
    wp (decoded d r : AppM start P pkt X {p : β × Bytes // d r = .ok p}).run Q E s := by
  rw [decoded, Confined.run_lift, wp_ofExcept, wpExcept_mapError]
  exact wpExcept_attach.mpr ⟨fun p h => hok p.1 p.2 h, fun e _ => herr _⟩

section Fields

/-- What is sent to the channel `id`, if the session knows its receiver, and is not data. -/
def toChannel (id : ChannelId) (m : ChannelMsg) (h : m.payload = none) :
    AppM start P pkt X Unit := do
  let s ← Confined.read
  match s.channels id with
  | some chan => observe (.toChannel id chan m) (by simp [Event.isObservation, Event.delivered, h])
  | none => pure ()

/-- `self.channels.remove`. -/
def removeChannel (id : ChannelId) : AppM start P pkt X Unit :=
  frame (fun s => { s with channels := Function.update s.channels id none })
    fun s => { Session.Frame.refl s with
      channels := fun i => by
        by_cases hi : i = id
        · subst hi
          exact .inr (Function.update_self ..)
        · exact .inl (Function.update_of_ne hi ..) }

/-- `common.wants_reply`. -/
def setWantsReply (b : Bool) : AppM start P pkt X Unit :=
  frame (fun s => { s with common := { s.common with wantsReply := b } })
    fun s => { Session.Frame.refl s with }

/-- `common.received_data`. -/
def setReceivedData (b : Bool) : AppM start P pkt X Unit :=
  frame (fun s => { s with common := { s.common with receivedData := b } })
    fun s => { Session.Frame.refl s with }

/-- `common.auth_method`. -/
def setAuthMethod (method : Option AuthMethod) : AppM start P pkt X Unit :=
  frame (fun s => { s with common := { s.common with authMethod := method } })
    fun s => { Session.Frame.refl s with }

/-- `common.buffer`. -/
def setBuffer (buffer : Bytes) : AppM start P pkt X Unit :=
  frame (fun s => { s with common := { s.common with buffer } })
    fun s => { Session.Frame.refl s with }

/-- `self.target_window_size`. -/
def setTargetWindowSize (size : Nat) : AppM start P pkt X Unit :=
  frame (fun s => { s with targetWindowSize := size }) fun s => { Session.Frame.refl s with }

/-- The fields of one of the sessions. -/
def setOwn (f : X → X) : AppM start P pkt X Unit :=
  frame (fun s => { s with own := f s.own }) fun s => { Session.Frame.refl s with }

end Fields

section Flush

/-- The packets that wait are sealed. -/
def sealWrite : AppM start P pkt X Unit where
  run s :=
    match s.common.encrypted with
    | none => .ok () s
    | some enc =>
      match s.sealWrite P enc with
      | (t, none) => .ok () t
      | (t, some e) => .error e t
  steps s := by
    simp only [wp]
    cases hc : s.common.encrypted with
    | none => exact ReflTransGen.refl
    | some enc =>
      have hstep : AppStep start P pkt s (s.sealWrite P enc).1 := .flush hc
      dsimp only
      rcases hs : s.sealWrite P enc with ⟨t, e⟩
      rw [hs] at hstep
      cases e <;> exact ReflTransGen.single hstep

/-- `now.duration_since(earlier)`. -/
def durationSince (now earlier : Nat) : AppM start P pkt X Nat :=
  Confined.tryMove
    (fun s =>
      match P.target.durationSince now earlier with
      | some dur => .ok (dur, s.record (.clock now earlier))
      | none => .error Exn.panic)
    fun s a t h => by
      cases hd : P.target.durationSince now earlier with
      | none => simp [hd] at h
      | some dur =>
        simp only [hd] at h
        cases h
        exact .readClock hd

/-- `Encrypted::flush`, on a session that has it: whether a rekey is due. -/
def flushWrite (limits : Limits) (now : Session K C X → Nat) : AppM start P pkt X Bool := do
  sealWrite
  let s ← Confined.read
  match s.common.encrypted with
  | none => pure false
  | some enc =>
    if enc.kex.skipExchange then pure false
    else
      let dur ← durationSince (now s) enc.lastRekey
      setFields (fun enc => { enc with rekeyWanted := false }) fun _ =>
        .of_eq rfl rfl rfl rfl rfl rfl rfl
      pure (enc.rekeyDue limits dur s.common.packetWriter.bytes)

/-- A rekey is begun, unless an exchange is under way. -/
def beginRekeyIfIdle (rng : Session K C X → Entropy) : AppM start P pkt X Unit :=
  Confined.tryMove
    (fun s =>
      if s.kex.active = false ∧ s.common.encrypted.isSome then
        match s.beginRekey start P (rng s) with
        | .ok t => .ok ((), t)
        | .error e => .error e
      else .ok ((), s))
    fun s a t hs => by
      by_cases hk : s.kex.active = false ∧ s.common.encrypted.isSome
      · rw [if_pos hk] at hs
        cases hb : s.beginRekey start P (rng s) with
        | error e => simp [hb] at hs
        | ok u =>
          simp only [hb] at hs
          cases hs
          exact .beginRekey _ hk.1 hk.2 hb
      · rw [if_neg hk] at hs
        cases hs
        exact .frame (.refl s)

end Flush

section Packets

/-- `enc.new_channel_id`, for a CHANNEL_OPEN of the peer. -/
def newChannelId {m : OpenChannelMessage} (hm : pkt.bind channelOpen? = some m) :
    AppM start P pkt X (Option ChannelId) :=
  Confined.tryMove
    (fun s =>
      match s.common.encrypted with
      | none => .ok (none, s)
      | some enc =>
        match enc.newChannelId UInt32.size with
        | .ok (enc, id) => .ok (some id, (s.record (.numbered id)).setEncrypted enc)
        | .error e => .error e)
    fun s a t hs => by
      cases hc : s.common.encrypted with
      | none =>
        simp only [hc] at hs
        cases hs
        exact .frame (.refl s)
      | some enc =>
        simp only [hc] at hs
        cases hn : enc.newChannelId UInt32.size with
        | error e => simp [hn] at hs
        | ok p =>
          simp only [hn] at hs
          cases hs
          obtain ⟨hstep, hnone⟩ : EncStep none enc p.1 [] ∧ p.1.channels p.2 = none :=
            EncStep.newChannelId hn
          exact .number hm hc hstep hnone

/-- A CHANNEL_OPEN of the peer is confirmed: the channel is in the two tables. -/
def confirmChannel {m : OpenChannelMessage} (hm : pkt.bind channelOpen? = some m) (id : ChannelId)
    (windowSize maximumPacketSize : Nat) (chan : Option ChannelRef) : AppM start P pkt X Unit :=
  Confined.move
    (fun s =>
      match s.common.encrypted with
      | some enc => s.openChannel (m.confirm id windowSize maximumPacketSize) id
          { recipientChannel := m.recipientChannel
            senderChannel := id
            recipientWindowSize := UInt32.ofNat m.recipientWindowSize
            senderWindowSize := UInt32.ofNat windowSize
            recipientMaximumPacketSize := m.recipientMaximumPacketSize
            senderMaximumPacketSize := maximumPacketSize
            confirmed := true
            wantsReply := false } chan enc
      | none => s)
    fun s => by
      cases hc : s.common.encrypted with
      | some enc => exact .acceptChannel id windowSize maximumPacketSize chan hm hc rfl rfl rfl rfl
      | none => exact .frame (.refl s)

/-- `self.channels.insert`, for a channel of the peer. -/
def insertChannel {m : OpenChannelMessage} (hm : pkt.bind channelOpen? = some m) (id : ChannelId)
    (chan : ChannelRef) : AppM start P pkt X Unit :=
  Confined.move (fun s => { s with channels := Function.update s.channels id (some chan) })
    fun _ => .insertChannel id chan hm

/-- `enc.channels.remove`, for a CHANNEL_CLOSE of the peer. -/
def dropChannel {id : ChannelId} (hmsg : firstByte? pkt = some Msg.channelClose)
    (hid : pkt.bind recipientNumber? = some id) : AppM start P pkt X Unit :=
  Confined.move
    (fun s =>
      match s.common.encrypted with
      | none => s
      | some enc => (s.record (.dropped id)).setEncrypted (enc.removeChannel id))
    fun s => by
      cases hc : s.common.encrypted with
      | none => exact .frame (.refl s)
      | some enc => exact .drop hmsg hid hc

/-- What both sessions do with a CHANNEL_OPEN_FAILURE for the table of channels. -/
def failOpened {id : ChannelId} (hmsg : firstByte? pkt = some Msg.channelOpenFailure)
    (hid : pkt.bind recipientNumber? = some id) : AppM start P pkt X Unit :=
  Confined.move
    (fun s =>
      match s.common.encrypted with
      | none => s
      | some enc =>
        match enc.channels id with
        | some _ => (s.record (.failed id)).setEncrypted (enc.removeChannel id)
        | none => s)
    fun s => by
      cases hc : s.common.encrypted with
      | none => exact .frame (.refl s)
      | some enc =>
        dsimp only
        cases hch : enc.channels id with
        | none => exact .frame (.refl s)
        | some channel => exact .fail hmsg hid hc hch

/-- What both sessions do with a CHANNEL_OPEN_CONFIRMATION for the table of channels. -/
def confirmOpened {c : ChannelOpenConfirmation}
    (hmsg : pkt.bind channelOpenConfirmation? = some c) : AppM start P pkt X Unit :=
  Confined.tryMove
    (fun s =>
      match s.common.encrypted with
      | none => .error (Exn.error .inconsistent)
      | some enc =>
        match enc.channels c.recipientChannel with
        | some channel =>
          .ok ((), (s.record (.confirmed c)).setEncrypted
            (enc.setChannel c.recipientChannel (channel.confirm c)))
        | none => .error (Exn.error .inconsistent))
    fun s a t hs => by
      cases hc : s.common.encrypted with
      | none => simp [hc] at hs
      | some enc =>
        simp only [hc] at hs
        cases hch : enc.channels c.recipientChannel with
        | none => simp [hch] at hs
        | some channel =>
          simp only [hch] at hs
          cases hs
          exact .confirm hmsg hc hch

/-- `enc.close`, for a CHANNEL_CLOSE of the peer. -/
def closeChannel {id : ChannelId} (hrole : start.role = .client)
    (hmsg : firstByte? pkt = some Msg.channelClose)
    (hid : pkt.bind recipientNumber? = some id) : AppM start P pkt X Unit :=
  Confined.move
    (fun s =>
      match s.common.encrypted with
      | none => s
      | some enc => s.wrote (enc.close id) ((enc.close id).write.drop enc.write.length))
    fun s => by
      cases hc : s.common.encrypted with
      | none => exact .frame (.refl s)
      | some enc =>
        obtain ⟨new, hstep⟩ : ∃ new, EncStep (some id) enc (enc.close id) new := EncStep.close
        have hdrop : EncStep (some id) enc (enc.close id)
            ((enc.close id).write.drop enc.write.length) := by
          rw [← hstep.eq_drop]
          exact hstep
        exact .closeByPeer hrole hmsg hid hc hdrop

/-- The answer of a client to a CHANNEL_REQUEST; it is addressed to the number of this side. -/
def answerTo {id : ChannelId} (hrole : start.role = .client)
    (hreq : pkt.bind answeredRequest? = some id) (m : ChannelMessage) (hm : m.isAnswer = true) :
    AppM start P pkt X Unit :=
  Confined.move
    (fun s =>
      match s.common.encrypted with
      | some enc => s.wrote (enc.push (.channel id id m)) [.channel id id m]
      | none => s)
    fun s => by
      cases hc : s.common.encrypted with
      | some enc => exact .answerRequest hrole hreq hm hc
      | none => exact .frame (.refl s)

/-- `OpenChannelMessage::fail`. -/
def reject {m : OpenChannelMessage} (hm : pkt.bind channelOpen? = some m) (reason : UInt8)
    (message : Bytes) : AppM start P pkt X Unit :=
  Confined.move
    (fun s =>
      match s.common.encrypted with
      | some enc => s.wrote (enc.push (m.fail reason message)) [m.fail reason message]
      | none => s)
    fun s => by
      cases hc : s.common.encrypted with
      | some enc => exact .reject reason message hm hc
      | none => exact .frame (.refl s)

/-- `OpenChannelMessage::unknown_type`. -/
def rejectUnknownType {m : OpenChannelMessage} (hm : pkt.bind channelOpen? = some m) :
    AppM start P pkt X Unit :=
  reject hm Msg.sshOpenUnknownChannelType (ascii "Unknown channel type")

/-- `enc.flush_all_pending`. -/
def flushAllPending (order : Session K C X → List ChannelId) : AppM start P pkt X Unit := do
  let s ← Confined.read
  let _ ← update
    (fun enc => (Encrypted.flushAllPending (order s) enc).map fun enc => ((), enc))
    fun enc a enc' h => by
      cases hf : Encrypted.flushAllPending (order s) enc with
      | error e => simp [hf, Except.map] at h
      | ok e =>
        simp only [hf, Except.map] at h
        cases h
        exact EncStep.flushAllPending hf
  pure ()

/-- The packets that carry data. -/
def IsData (pkt : Option Bytes) : Prop :=
  firstByte? pkt = some Msg.channelData ∨ firstByte? pkt = some Msg.channelExtendedData

/-- `enc.adjust_window_size`. -/
def adjustWindowSize {id : ChannelId} (hmsg : IsData pkt)
    (hid : pkt.bind recipientNumber? = some id) (data : Bytes) (target : Nat) :
    AppM start P pkt X Bool :=
  Confined.tryMove
    (fun s =>
      match s.common.encrypted with
      | none => .ok (false, s)
      | some enc =>
        match s.adjustWindowSize id data (UInt32.ofNat target) enc with
        | (t, grown) => .ok (grown, t))
    fun s a t hs => by
      cases hc : s.common.encrypted with
      | none =>
        simp only [hc] at hs
        cases hs
        exact .frame (.refl s)
      | some enc =>
        simp only [hc] at hs
        cases hs
        exact .account data _ hmsg hid hc

/-- Data of the peer is handed on. -/
def deliver (hmsg : IsData pkt) (e : Event) (h : e.delivered.isSome = true) :
    AppM start P pkt X Unit :=
  Confined.move (·.record e) fun _ => .deliver hmsg h

/-- The application of a server is called for a packet of the connection. -/
def serve (call : ServerCallback) (hmsg : pkt.isSome = true) (hcall : call.isConnection = true)
    (hdata : (Event.serverCallback call).delivered = none) : AppM start P pkt X Unit :=
  Confined.move (·.record (.serverCallback call)) fun _ => .serve hmsg hcall hdata

/-- Data that is sent to the channel `id`, if the session knows its receiver. -/
def deliverToChannel (hmsg : IsData pkt) (id : ChannelId) (m : ChannelMsg)
    (h : m.payload.isSome = true) : AppM start P pkt X Unit := do
  let s ← Confined.read
  match s.channels id with
  | some chan => deliver hmsg (.toChannel id chan m) h
  | none => pure ()

/-- The enlarged window of a CHANNEL_WINDOW_ADJUST, if there is such a channel, and what
`flush_pending` wrote after it. -/
def windowAdjust (id : ChannelId) (amount : UInt32) :
    AppM start P pkt X (Option (UInt32 × Nat)) := do
  let r ← update
    (fun enc =>
      match enc.enlargeWindow id amount with
      | none => .ok (none, enc)
      | some (enc, size) => (enc.flushPending id).map fun p => (some (size, p.2), p.1))
    fun enc a enc' h => by
      cases he : enc.enlargeWindow id amount with
      | none =>
        simp only [he] at h
        cases h
        exact ⟨[], .refl enc⟩
      | some p =>
        cases hf : p.1.flushPending id with
        | error e => simp [he, hf, Except.map] at h
        | ok q =>
          simp only [he, hf, Except.map] at h
          cases h
          have hadj : enc.windowAdjust id amount = .ok q.1 := by
            simp [Encrypted.windowAdjust, he, hf, Except.map]
          exact EncStep.windowAdjust hadj
  pure r.join

/-- `open_global_requests.pop_front`, and what is sent to the call that has been waiting. -/
def takeReply (hmsg : firstByte? pkt = some Msg.requestSuccess ∨
    firstByte? pkt = some Msg.requestFailure)
    (tell : GlobalRequestResponse → Option (ReplyChannel × Answer)) : AppM start P pkt X Unit :=
  Confined.move (Session.takeReply tell) fun _ => .takeReply tell hmsg

/-- The answer to a request of the peer. -/
def answer (hmsg : firstByte? pkt = some Msg.globalRequest ∨
    firstByte? pkt = some Msg.channelRequest) (m : Message)
    (hm : m.isReply = true) : AppM start P pkt X Unit :=
  Confined.move
    (fun s =>
      match s.common.encrypted with
      | some enc => s.wrote (enc.push m) [m]
      | none => s)
    fun s => by
      cases hc : s.common.encrypted with
      | some enc => exact .answer hmsg hm hc
      | none => exact .frame (.refl s)

/-- The answer that `request_success` or `request_failure` writes for the application. -/
def replyCalled (m : Message) (hm : m.isReply = true) : AppM start P pkt X Unit :=
  Confined.move
    (fun s =>
      match s.common.encrypted with
      | some enc => (s.record .replyCalled).wrote (enc.push m) [m]
      | none => s)
    fun s => by
      cases hc : s.common.encrypted with
      | some enc => exact .replyCalled hm hc
      | none => exact .frame (.refl s)

end Packets

section Authentication

/-- The SERVICE_ACCEPT has been read. -/
def setAccepted (hmsg : firstByte? pkt = some Msg.serviceAccept) : AppM start P pkt X Unit :=
  Confined.move
    (fun s =>
      match s.common.encrypted with
      | none => s
      | some enc =>
        match enc.state with
        | .waitingAuthServiceRequest sent _ =>
          s.setEncrypted { enc with state := .waitingAuthServiceRequest sent true }
        | _ => s)
    fun s => by
      cases hc : s.common.encrypted with
      | none => exact .frame (.refl s)
      | some enc =>
        dsimp only
        cases hst : enc.state with
        | waitingAuthServiceRequest sent accepted =>
          have h : AppStep start P pkt s _ := .auth hc (.accepted hmsg hst)
          rwa [Session.recordAll_nil] at h
        | _ => exact .frame (.refl s)

/-- The first request is written, and is the current one. -/
def startRequest (hmsg : firstByte? pkt = some Msg.serviceAccept) (m : Message)
    (hm : m.isAuthRequest = true) (request : AuthRequest) : AppM start P pkt X Unit :=
  Confined.move
    (fun s =>
      match s.common.encrypted with
      | none => s
      | some enc =>
        match enc.state with
        | .waitingAuthServiceRequest _ _ =>
          (s.record (.wrote m)).setEncrypted
            { enc.push m with state := .waitingAuthRequest request }
        | _ => s)
    fun s => by
      cases hc : s.common.encrypted with
      | none => exact .frame (.refl s)
      | some enc =>
        dsimp only
        cases hst : enc.state with
        | waitingAuthServiceRequest sent accepted =>
          exact .auth hc (.requested request hmsg hm hst)
        | _ => exact .frame (.refl s)

/-- The request that is waited for. -/
def setRequest (hmsg : firstByte? pkt = some Msg.userauthFailure ∨
    firstByte? pkt = some Msg.userauthInfoRequestOrUserauthPkOk) (f : AuthRequest → AuthRequest) :
    AppM start P pkt X Unit :=
  Confined.move
    (fun s =>
      match s.common.encrypted with
      | none => s
      | some enc =>
        match enc.state with
        | .waitingAuthRequest request =>
          s.setEncrypted { enc with state := .waitingAuthRequest (f request) }
        | _ => s)
    fun s => by
      cases hc : s.common.encrypted with
      | none => exact .frame (.refl s)
      | some enc =>
        dsimp only
        cases hst : enc.state with
        | waitingAuthRequest request =>
          have h : AppStep start P pkt s _ := .auth hc (.answered (f request) hmsg hst)
          rwa [Session.recordAll_nil] at h
        | _ => exact .frame (.refl s)

/-- The handle is told that the authentication has succeeded, and what follows is compressed. -/
def succeed (hmsg : firstByte? pkt = some Msg.userauthSuccess) : AppM start P pkt X Unit :=
  Confined.move
    (fun s =>
      match s.common.encrypted with
      | none => s
      | some enc =>
        match enc.state with
        | .waitingAuthRequest _ =>
          (s.record (.reply .authSuccess)).setEncrypted
            { enc with
              state := .initCompression
              decompress := enc.serverCompression.initDecompress }
        | _ => s)
    fun s => by
      cases hc : s.common.encrypted with
      | none => exact .frame (.refl s)
      | some enc =>
        dsimp only
        cases hst : enc.state with
        | waitingAuthRequest request => exact .auth hc (.succeeded _ hmsg hst)
        | _ => exact .frame (.refl s)

end Authentication

section Methods

/-- `eof` of the two sessions. -/
def eof (id : ChannelId) : AppM start P pkt X Unit := do
  let some _ ← encrypted? | throw Exn.panic
  onChannel id .eof rfl false (fun enc => .ok (enc.eof id)) fun enc enc' he => by
    cases he
    exact EncStep.eof

/-- `close` of the two sessions. -/
def close (id : ChannelId) : AppM start P pkt X Unit := do
  let some _ ← encrypted? | throw Exn.panic
  onChannel id .close rfl false (fun enc => .ok (enc.close id)) fun enc enc' he => by
    cases he
    exact EncStep.close

/-- The message that `data` and `extended_data` take. -/
def dataMsg (ext : Option Nat) (buf : Bytes) : ChannelMsg :=
  match ext with
  | none => .data buf
  | some ext => .extendedData buf ext

/-- `data` and `extended_data` of the two sessions. -/
def dataWith (ext : Option Nat) (id : ChannelId) (buf : Bytes) : AppM start P pkt X Unit := do
  let s ← Confined.read
  let some _ := s.common.encrypted | throw Exn.panic
  onChannel id (dataMsg ext buf) (by cases ext <;> rfl) true
    (fun enc => enc.dataWith ext id buf s.kex.active)
    fun _ _ => EncStep.dataWith

/-- `data`. -/
def data (id : ChannelId) (buf : Bytes) : AppM start P pkt X Unit := dataWith none id buf

/-- `extended_data`. -/
def extendedData (id : ChannelId) (ext : Nat) (buf : Bytes) : AppM start P pkt X Unit :=
  dataWith (some ext) id buf

/-- `push_packet!`, or into the write buffer as it is before there is a key. -/
def pushOrUnsealed (m : Message) (hq : m.isQuiet = true) (ht : m.isTransport = true) :
    AppM start P pkt X Unit :=
  Confined.move (fun s => { s with common := s.common.pushOrUnsealed m }) fun s => by
    unfold CommonSession.pushOrUnsealed
    split
    · rename_i enc hc
      exact .write hc (.push hq)
    · rename_i hc
      exact .unsealed m ht hc

/-- `disconnect` of the two sessions: once only. -/
def disconnect (reason : Nat) (description languageTag : Bytes) : AppM start P pkt X Unit := do
  let s ← Confined.read
  unless s.common.disconnected do
    frame (fun s => { s with common := { s.common with disconnected := true } })
      fun s => { Session.Frame.refl s with }
    pushOrUnsealed (.disconnect reason description languageTag) rfl rfl

/-- A channel is opened in a session that may, by a CHANNEL_OPEN; `other` is the error else. -/
def openChannel (other : Error) (kind : Bytes) (windowSize maximumPacketSize : Nat) (suffix : Bytes)
    (chan : Option ChannelRef) : AppM start P pkt X ChannelId :=
  Confined.tryMoves
    (fun s =>
      match s.common.encrypted with
      | none => .error (Exn.error .inconsistent)
      | some enc =>
        if start.mayOpen enc.state then
          match enc.newChannelId UInt32.size with
          | .error e => .error e
          | .ok (enc, id) => .ok (id, s.openChannel
              (.channelOpen kind id windowSize maximumPacketSize suffix) id
              (ChannelParams.opened windowSize maximumPacketSize id) chan enc)
        else .error (Exn.error other))
    fun s id t hs => by
      cases hc : s.common.encrypted with
      | none => simp [hc] at hs
      | some enc =>
        simp only [hc] at hs
        split at hs
        · rename_i hm
          cases hn : enc.newChannelId UInt32.size with
          | error e => simp [hn] at hs
          | ok p =>
            obtain ⟨enc', i⟩ := p
            simp only [hn] at hs
            cases hs
            obtain ⟨hnew, hnone⟩ : EncStep none enc enc' [] ∧ enc'.channels id = none :=
              EncStep.newChannelId hn
            refine .tail (.single (.write hc hnew)) ?_
            have hopen : AppStep start P pkt (s.wrote enc' []) ((s.wrote enc' []).openChannel
                (.channelOpen kind id windowSize maximumPacketSize suffix) id
                (.opened windowSize maximumPacketSize id) chan enc') := by
              refine .openChannel kind windowSize maximumPacketSize suffix chan rfl ?_ hnone
              rw [hnew.state]
              exact hm
            simpa [Session.openChannel, Session.wrote, Session.record, Session.setWriter,
              Session.setEncrypted, PacketWriter.record, PacketWriter.recordAll] using hopen
        · cases hs

/-- A CHANNEL_REQUEST for the message `m`, if there is such a channel. -/
def channelRequest (m : ChannelMsg) (hm : m.isAnswer = false) (id : ChannelId) (name : Bytes)
    (wantReply : Bool) (body : Bytes) : AppM start P pkt X Unit :=
  onChannel id m hm false (fun enc => .ok (enc.byte id (.request name wantReply body)))
    fun enc enc' he => by
      cases he
      exact EncStep.byte rfl rfl rfl

/-- A GLOBAL_REQUEST, and what waits for the answer. -/
def globalRequest (response : Option GlobalRequestResponse) (name : Bytes) (wantReply : Bool)
    (h : wantReply = true → response.isSome = true) (data : Bytes) : AppM start P pkt X Unit :=
  Confined.move (Session.globalRequest response name wantReply data) fun _ =>
    .globalRequest name data h

end Methods

end AppM

end Edgessh.Russh
