import Edgessh.Lib.Run
import Edgessh.Russh.Session.Channel

/-!
# Runs of the channel table

The calls that write about the channels of a session, in any order, and the history they leave:
every call and every packet it has put behind `write`. `Moves` is what one call does to one
channel; the invariants of a channel are proved from it.
-/

namespace Edgessh.Russh
open Edgessh.Command Edgessh.Run

/-- A call on the channels of `Encrypted`. -/
inductive ChannelCall where
  /-- `data`, or `extended_data` for an extended stream -/
  | submit (id : ChannelId) (ext : Option Nat) (buf0 : Bytes) (isRekeying : Bool)
  | eof (id : ChannelId)
  | close (id : ChannelId)
  /-- a CHANNEL_WINDOW_ADJUST and the `flush_pending` that follows it -/
  | windowAdjust (id : ChannelId) (amount : UInt32)
  /-- `flush_all_pending`, for the order in which it walks through the table -/
  | flushAllPending (order : List ChannelId)
  deriving DecidableEq, Repr

namespace ChannelCall

def apply (enc : Encrypted) : ChannelCall → Except Exn Encrypted
  | submit id none buf0 isRekeying => enc.data id buf0 isRekeying
  | submit id (some ext) buf0 isRekeying => enc.extendedData id ext buf0 isRekeying
  | eof id => .ok (enc.eof id)
  | close id => .ok (enc.close id)
  | windowAdjust id amount => enc.windowAdjust id amount
  | flushAllPending order => Encrypted.flushAllPending order enc

/-- The channel that the call names. -/
def target : ChannelCall → Option ChannelId
  | submit id _ _ _ => some id
  | eof id => some id
  | close id => some id
  | windowAdjust id _ => some id
  | flushAllPending _ => none

/-- The data that the call submits for one channel. -/
def submits (id : ChannelId) : ChannelCall → List (Option Nat × UInt8)
  | submit i ext buf0 _ => if i = id then tagged ext buf0 else []
  | _ => []

/-- By how much the peer enlarges the window of one channel. -/
def adjusts (id : ChannelId) : ChannelCall → Nat
  | windowAdjust i amount => if i = id then amount.toNat else 0
  | _ => 0

/-- A call that names another channel, or none. -/
theorem submits_of_target_ne {id : ChannelId} {call : ChannelCall} (h : call.target ≠ some id) :
    call.submits id = [] ∧ call.adjusts id = 0 := by
  cases call <;> simp_all [submits, adjusts, target]

/-- What the call does to the entry of the channel that it names. -/
def onEntry (channel : ChannelParams) :
    ChannelCall → Except Exn (List ChannelMessage × Option ChannelParams)
  | submit _ ext buf0 isRekeying => do
    let (packets, channel) ← channel.submit ext buf0 isRekeying
    pure (packets, some channel)
  | eof _ => .ok (channel.eof.1, some channel.eof.2)
  | close _ => .ok channel.close
  | windowAdjust _ amount => channel.adjust amount
  | flushAllPending _ => .ok ([], some channel)

theorem apply_eq_onChannel {enc : Encrypted} {call : ChannelCall} {id : ChannelId}
    (h : call.target = some id) : call.apply enc = enc.onChannel id (call.onEntry ·) := by
  cases call with
  | submit _ ext buf0 isRekeying =>
    obtain rfl := Option.some.inj h
    cases ext <;> exact (Encrypted.onChannel_submit _ _ _).symm
  | eof =>
    obtain rfl := Option.some.inj h
    exact Encrypted.onChannel_eof.symm
  | close =>
    obtain rfl := Option.some.inj h
    exact Encrypted.onChannel_close.symm
  | windowAdjust _ amount =>
    obtain rfl := Option.some.inj h
    exact (Encrypted.onChannel_adjust amount).symm
  | flushAllPending => cases h

end ChannelCall

/-- The packets about one channel. -/
def messagesFor (id : ChannelId) (write : List Message) : List ChannelMessage :=
  write.filterMap fun
    | .channel i _ msg => if i = id then some msg else none
    | _ => none

@[simp] theorem messagesFor_nil (id : ChannelId) : messagesFor id [] = [] := rfl

@[simp] theorem messagesFor_append (id : ChannelId) (write write' : List Message) :
    messagesFor id (write ++ write') = messagesFor id write ++ messagesFor id write' :=
  List.filterMap_append ..

theorem messagesFor_map_self (id : ChannelId) (recipient : Nat) (packets : List ChannelMessage) :
    messagesFor id (packets.map (.channel id recipient)) = packets := by
  simp [messagesFor, List.filterMap_map]

theorem messagesFor_map_ne {id i : ChannelId} (h : i ≠ id) (recipient : Nat)
    (packets : List ChannelMessage) :
    messagesFor id (packets.map (.channel i recipient)) = [] := by
  simp [messagesFor, List.filterMap_map, h]

/-- What a call does to the channel `id`, which it may name or not: the entry before and after,
and the packets about the channel. -/
inductive Moves (id : ChannelId) (call : ChannelCall) :
    Option ChannelParams → List ChannelMessage → Option ChannelParams → Prop
  | absent : Moves id call none [] none
  | still (channel : ChannelParams) : call.target ≠ some id →
      Moves id call (some channel) [] (some channel)
  | entry (channel : ChannelParams) (packets : List ChannelMessage)
      (channel' : Option ChannelParams) : call.target = some id →
      call.onEntry channel = .ok (packets, channel') →
      Moves id call (some channel) packets channel'

namespace Encrypted

/-- Nothing but packets about other channels is new. -/
def Untouched (id : ChannelId) (enc enc' : Encrypted) : Prop :=
  enc'.channels id = enc.channels id ∧
    ∃ new, enc'.write = enc.write ++ new ∧ messagesFor id new = []

theorem Untouched.refl (id : ChannelId) (enc : Encrypted) : enc.Untouched id enc :=
  ⟨rfl, [], by simp, rfl⟩

theorem Untouched.trans {id : ChannelId} {enc enc' enc'' : Encrypted}
    (h : enc.Untouched id enc') (h' : enc'.Untouched id enc'') : enc.Untouched id enc'' := by
  obtain ⟨hc, new, hw, hm⟩ := h
  obtain ⟨hc', new', hw', hm'⟩ := h'
  exact ⟨hc'.trans hc, new ++ new', by rw [hw', hw, List.append_assoc], by simp [hm, hm']⟩

/-- An operation on another channel. -/
theorem untouched_of_onChannel {id i : ChannelId} {enc enc' : Encrypted}
    {f : ChannelParams → Except Exn (List ChannelMessage × Option ChannelParams)} (hi : i ≠ id)
    (h : enc.onChannel i f = .ok enc') : enc.Untouched id enc' := by
  cases hc : enc.channels i with
  | none =>
    obtain rfl : enc = enc' := by simpa [onChannel_none hc] using h
    exact .refl id enc
  | some channel =>
    rw [onChannel_some hc] at h
    cases hf : f channel with
    | error e =>
      rw [hf] at h
      cases h
    | ok p =>
      rw [hf] at h
      cases h
      exact ⟨Function.update_of_ne hi.symm .., _, rfl, messagesFor_map_ne hi _ _⟩

/-- `flush_all_pending` does nothing to a channel that is blocked. -/
theorem untouched_of_flushAllPending {id : ChannelId} {order : List ChannelId}
    {enc enc' : Encrypted} (hb : ∀ channel, enc.channels id = some channel → channel.Blocked)
    (h : flushAllPending order enc = .ok enc') : enc.Untouched id enc' := by
  induction order generalizing enc with
  | nil =>
    obtain rfl : enc = enc' := by simpa [flushAllPending, pure_eq_ok] using h
    exact .refl id enc
  | cons i order ih =>
    rw [flushAllPending] at h
    cases hc : enc.channels i with
    | none =>
      simp only [hc] at h
      exact ih hb h
    | some channel =>
      simp only [hc] at h
      obtain ⟨⟨enc₁, result⟩, hf, h⟩ := bind_eq_ok.mp h
      have hone : enc.Untouched id enc₁ := by
        by_cases hi : i = id
        · subst hi
          obtain ⟨⟨packets, channel', r⟩, hflush, hf⟩ := bind_eq_ok.mp hf
          obtain ⟨rfl, rfl⟩ := ChannelParams.flushChannel_of_blocked (hb channel hc) hflush
          obtain ⟨rfl, -⟩ := by simpa [pure_eq_ok] using hf
          rw [putChannel_eq_self hc]
          exact .refl _ enc
        · have hon := onChannel_flushChannel hc
          rw [hf] at hon
          exact untouched_of_onChannel hi hon
      refine hone.trans (ih ?_ h)
      intro channel' hc'
      exact hb channel' (hone.1 ▸ hc')

end Encrypted

/-- What a call does to one channel that is blocked when its data waits. -/
theorem moves_of_apply {id : ChannelId} {call : ChannelCall} {enc enc' : Encrypted}
    (hb : ∀ channel, enc.channels id = some channel → channel.Blocked)
    (h : call.apply enc = .ok enc') :
    ∃ new, enc'.write = enc.write ++ new ∧
      Moves id call (enc.channels id) (messagesFor id new) (enc'.channels id) := by
  have hother : enc.Untouched id enc' → call.target ≠ some id →
      ∃ new, enc'.write = enc.write ++ new ∧
        Moves id call (enc.channels id) (messagesFor id new) (enc'.channels id) := by
    rintro ⟨hc, new, hw, hm⟩ ht
    refine ⟨new, hw, ?_⟩
    rw [hc, hm]
    cases enc.channels id with
    | none => exact .absent
    | some channel => exact .still channel ht
  cases ht : call.target with
  | none =>
    cases call with
    | flushAllPending order =>
      exact hother (Encrypted.untouched_of_flushAllPending hb h) (by simp [ht])
    | _ => cases ht
  | some i =>
    by_cases hi : i = id
    · subst hi
      rw [ChannelCall.apply_eq_onChannel ht] at h
      cases hc : enc.channels i with
      | none =>
        obtain rfl : enc = enc' := by simpa [Encrypted.onChannel_none hc] using h
        exact ⟨[], by simp, by rw [hc]; exact .absent⟩
      | some channel =>
        rw [Encrypted.onChannel_some hc] at h
        cases hf : call.onEntry channel with
        | error e =>
          rw [hf] at h
          cases h
        | ok p =>
          rw [hf] at h
          cases h
          refine ⟨_, rfl, ?_⟩
          rw [messagesFor_map_self, Encrypted.channels_putChannel]
          exact .entry channel p.1 p.2 ht hf
    · refine hother ?_ (by simp [ht, hi])
      rw [ChannelCall.apply_eq_onChannel ht] at h
      exact Encrypted.untouched_of_onChannel hi h

/-- What has happened: a call, or a packet behind `write`. -/
inductive HistoryItem where
  | called (call : ChannelCall)
  | wrote (message : Message)
  deriving DecidableEq

abbrev History := List HistoryItem

namespace History

/-- The packets that were written. -/
def written (h : History) : List Message :=
  h.filterMap fun
    | .wrote message => some message
    | .called _ => none

/-- The packets that were written about one channel. -/
def packets (id : ChannelId) (h : History) : List ChannelMessage := messagesFor id h.written

/-- The data that was written for one channel. -/
def sent (id : ChannelId) (h : History) : List (Option Nat × UInt8) :=
  (h.packets id).flatMap ChannelMessage.payload

/-- The calls that were made. -/
def calls (h : History) : List ChannelCall :=
  h.filterMap fun
    | .wrote _ => none
    | .called call => some call

/-- The data that was submitted for one channel. -/
def submitted (id : ChannelId) (h : History) : List (Option Nat × UInt8) :=
  h.calls.flatMap (ChannelCall.submits id)

/-- By how much the peer has enlarged the window of one channel. -/
def adjusted (id : ChannelId) (h : History) : Nat := (h.calls.map (ChannelCall.adjusts id)).sum

variable {id : ChannelId} {h : History} {call : ChannelCall} {new : List Message}

/-- A call and the packets that it writes. -/
def record (call : ChannelCall) (new : List Message) (h : History) : History :=
  h ++ .called call :: new.map .wrote

@[simp] theorem written_record : (h.record call new).written = h.written ++ new := by
  simp [written, record, List.filterMap_map]

@[simp] theorem calls_record : (h.record call new).calls = h.calls ++ [call] := by
  simp [calls, record, List.filterMap_map]

@[simp] theorem packets_record :
    (h.record call new).packets id = h.packets id ++ messagesFor id new := by
  simp [packets]

@[simp] theorem sent_record : (h.record call new).sent id =
    h.sent id ++ (messagesFor id new).flatMap ChannelMessage.payload := by
  simp [sent]

@[simp] theorem submitted_record :
    (h.record call new).submitted id = h.submitted id ++ call.submits id := by
  simp [submitted]

@[simp] theorem adjusted_record :
    (h.record call new).adjusted id = h.adjusted id + call.adjusts id := by
  simp [adjusted]

end History

structure OutputState where
  enc : Encrypted
  history : History := []

namespace OutputState

/-- A call, if it returns. -/
def step (s : OutputState) (call : ChannelCall) : Option OutputState :=
  match call.apply s.enc with
  | .ok enc => some
    { enc, history := s.history.record call (enc.write.drop s.enc.write.length) }
  | .error _ => none

/-- A step writes behind `write`, and moves each channel. -/
theorem step_eq_some {id : ChannelId} {s t : OutputState} {call : ChannelCall}
    (hb : ∀ channel, s.enc.channels id = some channel → channel.Blocked)
    (h : s.step call = some t) :
    ∃ new, t.enc.write = s.enc.write ++ new ∧ t.history = s.history.record call new ∧
      Moves id call (s.enc.channels id) (messagesFor id new) (t.enc.channels id) := by
  unfold step at h
  cases ha : call.apply s.enc with
  | error e =>
    rw [ha] at h
    cases h
  | ok enc =>
    simp only [ha] at h
    cases h
    obtain ⟨new, hw, hm⟩ := moves_of_apply hb ha
    refine ⟨new, hw, ?_, hm⟩
    simp only [hw, List.drop_left]

end OutputState

/-- A session with one confirmed channel, number 2, for runs on fixed inputs. -/
def oneChannelSession (window : UInt32) : Encrypted :=
  (Encrypted.new .authenticated
    { exchange := { clientId := [], serverId := [] }
      names :=
        { kex := .curve25519
          key := .ed25519
          cipher := .chacha20Poly1305
          clientMac := .none
          serverMac := .none
          serverCompression := .none
          clientCompression := .none
          ignoreGuessed := false
          strictKex := true }
      kex := .curve25519Kex ⟨none, none⟩
      cipher := ⟨.clear, .clear⟩
      sessionId := [] } 0).setChannel 2
    { recipientChannel := 0
      senderChannel := 2
      recipientWindowSize := window
      senderWindowSize := 2097152
      recipientMaximumPacketSize := 32768
      senderMaximumPacketSize := 32768
      confirmed := true
      wantsReply := false }

end Edgessh.Russh
