import Edgessh.Russh.Session.Stream

/-!
# Deferred EOF and CLOSE

While data waits, `eof` and `close` only set a flag, and the flush that takes the last of the
data writes what the flags say. `pending_close` goes with the channel. `pending_eof` is never
cleared, so that each later window adjustment that leaves nothing waiting writes another EOF.
-/

namespace Edgessh.Russh
open Edgessh.Command Edgessh.Run
open scoped List

namespace ChannelParams

/-- A flush with this window takes all that waits. -/
def drains : UInt32 → List PendingData → Bool
  | _, [] => true
  | window, p :: ps => (p.buf.length ≤ p.offset || !exceedsWindow window p.buf p.offset) &&
      drains (window - UInt32.ofNat (p.buf.length - p.offset)) ps

/-- A flush that is complete has taken all that waited. -/
theorem drains_of_complete {channel channel' : ChannelParams} {ps : List PendingData}
    {n wrote : Nat}
    {packets : List ChannelMessage} {pendingEof pendingClose : Bool}
    (h : channel.flushPendingData n ps =
      .ok (packets, channel', .complete wrote pendingEof pendingClose)) :
    drains channel.recipientWindowSize ps = true := by
  induction ps generalizing channel n packets with
  | nil => rfl
  | cons p ps ih =>
    rw [flushPendingData] at h
    obtain ⟨⟨written, c, size⟩, hd, h⟩ := bind_eq_ok.mp h
    dsimp only at h
    split at h
    · simp [pure_eq_ok] at h
    · rename_i hdone
      obtain ⟨⟨written', c', r⟩, hf, h⟩ := bind_eq_ok.mp h
      obtain ⟨rfl, rfl, rfl⟩ := by simpa [pure_eq_ok] using h
      have hrest := ih hf
      rw [drains, Bool.and_eq_true]
      by_cases ho : p.offset < p.buf.length
      · have hw := dataNoqueue_writes ho hd
        have hle := hw.offset_le
        have hsize : size = p.buf.length - p.offset := by omega
        have hex : exceedsWindow channel.recipientWindowSize p.buf p.offset = false := by
          by_contra hex
          -- The window would end where the buffer does.
          rw [Bool.not_eq_false] at hex
          have hwin := hw.size_eq
          rw [if_pos hex] at hwin
          have hlen : p.buf.length = p.offset + channel.recipientWindowSize.toNat := by omega
          rw [exceedsWindow, hlen] at hex
          simp at hex
        refine ⟨by simp [hex], ?_⟩
        rw [hw.channel_eq, hsize] at hrest
        exact hrest
      · rw [dataNoqueue_of_le (by omega)] at hd
        cases hd
        have hz : p.buf.length - p.offset = 0 := by omega
        exact ⟨by simp; omega, by simpa [hz] using hrest⟩

/-- What may follow the data of a step. -/
def ending (eof close : Bool) : List ChannelMessage :=
  (if eof then [.eof] else []) ++ (if close then [.close] else [])

theorem payload_ending (eof close : Bool) :
    (ending eof close).flatMap ChannelMessage.payload = [] := by
  cases eof <;> cases close <;> rfl

end ChannelParams

open ChannelParams

/-- What a call writes about the channel that it names: data, and behind it an EOF and a CLOSE if
nothing waits any more. -/
structure Ends (id : ChannelId) (call : ChannelCall) (channel : ChannelParams)
    (packets : List ChannelMessage) (channel' : Option ChannelParams) (data : List ChannelMessage)
    (eof close : Bool) : Prop where
  packets_eq : packets = data ++ ending eof close
  data_eq : ∀ msg ∈ data, ∃ a buf, msg = dataMessage a buf
  removed : close = channel'.isNone
  drained : eof ∨ close → (data.flatMap ChannelMessage.payload).Perm
    (queued channel.pendingData ++ call.submits id)
  waits : ∀ c, channel' = some c → c.Blocked ∧ (c.pendingClose → c.pendingData ≠ []) ∧
    (data.flatMap ChannelMessage.payload ++ queued c.pendingData).Perm
      (queued channel.pendingData ++ call.submits id)
  eof_called : eof = true → call = .eof id ∨ ∃ amount, call = .windowAdjust id amount ∧
    channel.pendingEof ∧ drains (channel.enlarge amount).recipientWindowSize channel.pendingData
  flushed : ∀ amount, call = .windowAdjust id amount →
    (∀ c, channel' = some c → c.pendingData = []) →
    eof = channel.pendingEof ∧ close = channel.pendingClose

theorem ends_of_onEntry {id : ChannelId} {call : ChannelCall} {channel : ChannelParams}
    {packets : List ChannelMessage} {channel' : Option ChannelParams} (hb : channel.Blocked)
    (hclose : channel.pendingClose → channel.pendingData ≠ [])
    (ht : call.target = some id) (h : call.onEntry channel = .ok (packets, channel')) :
    ∃ data eof close, Ends id call channel packets channel' data eof close := by
  cases call with
  | submit i ext buf0 isRekeying =>
    obtain rfl := Option.some.inj ht
    obtain ⟨⟨written, c⟩, hsub, h⟩ := bind_eq_ok.mp h
    obtain ⟨rfl, rfl⟩ := by simpa [pure_eq_ok] using h
    have hr := submit_submits hb hsub
    refine ⟨written, false, false, ⟨by simp [ending], ?_, rfl, by simp, ?_, by simp, by simp⟩⟩
    · intro msg hm
      obtain ⟨a, b, hb, -⟩ := hr.packets_le msg hm
      exact ⟨a, b, hb⟩
    · intro c' hc'
      obtain rfl := Option.some.inj hc'
      refine ⟨hr.blocked, ?_, by simpa [ChannelCall.submits] using hr.perm⟩
      intro hpc
      rw [hr.channel_eq] at hpc
      exact hr.waiting (hclose hpc)
  | eof i =>
    obtain rfl := Option.some.inj ht
    have h : (channel.eof.1, some channel.eof.2) = (packets, channel') := Except.ok.inj h
    unfold ChannelParams.eof at h
    split at h
    · rename_i hp
      obtain ⟨rfl, rfl⟩ := Prod.mk.inj h
      refine ⟨[], true, false, ⟨rfl, by simp, rfl, ?_, ?_, fun _ => .inl rfl, by simp⟩⟩
      · simp [hp, queued, ChannelCall.submits]
      · intro c hc
        obtain rfl := Option.some.inj hc
        exact ⟨hb, hclose, by simp [ChannelCall.submits]⟩
    · rename_i hp
      obtain ⟨rfl, rfl⟩ := Prod.mk.inj h
      refine ⟨[], false, false, ⟨rfl, by simp, rfl, by simp, ?_, by simp, by simp⟩⟩
      intro c hc
      obtain rfl := Option.some.inj hc
      exact ⟨hb, fun _ => hp, by simp [ChannelCall.submits]⟩
  | close i =>
    obtain rfl := Option.some.inj ht
    have h : channel.close = (packets, channel') := Except.ok.inj h
    unfold ChannelParams.close at h
    split at h
    · rename_i hp
      obtain ⟨rfl, rfl⟩ := Prod.mk.inj h
      exact ⟨[], false, true, ⟨rfl, by simp, rfl, by simp [hp, queued, ChannelCall.submits],
        by simp, by simp, by simp⟩⟩
    · rename_i hp
      obtain ⟨rfl, rfl⟩ := Prod.mk.inj h
      refine ⟨[], false, false, ⟨rfl, by simp, rfl, by simp, ?_, by simp, by simp⟩⟩
      intro c hc
      obtain rfl := Option.some.inj hc
      exact ⟨hb, fun _ => hp, by simp [ChannelCall.submits]⟩
  | windowAdjust i amount =>
    obtain rfl := Option.some.inj ht
    obtain ⟨written, c, result, hf, rfl, rfl⟩ := adjust_eq_ok h
    have hr := flushPendingData_flushes hf
    have hdata : ∀ msg ∈ written, ∃ a buf, msg = dataMessage a buf := by
      intro msg hm
      obtain ⟨a, b, hb, -⟩ := hr.packets_le msg hm
      exact ⟨a, b, hb⟩
    have hqueue : (channel.enlarge amount).pendingData = channel.pendingData := rfl
    have hpay := hr.payload
    rw [hqueue] at hpay
    have hflags : c.pendingEof = channel.pendingEof ∧ c.pendingClose = channel.pendingClose := by
      rw [hr.channel_eq]
      exact ⟨rfl, rfl⟩
    cases result with
    | incomplete wrote =>
      have hne : c.pendingData ≠ [] := hr.describes
      refine ⟨written, false, false, ⟨by simp [afterFlush, ending], hdata, rfl, by simp, ?_,
        by simp, ?_⟩⟩
      · intro c' hc'
        obtain rfl := Option.some.inj hc'
        exact ⟨hr.blocked, fun _ => hne, by simp [hpay, ChannelCall.submits]⟩
      · intro _ _ hempty
        exact absurd (hempty c rfl) hne
    | complete wrote pendingEof pendingClose =>
      obtain ⟨hp, heof, hcl⟩ := hr.describes
      have hall : written.flatMap ChannelMessage.payload = queued channel.pendingData := by
        rw [hp] at hpay
        simpa [queued] using hpay
      refine ⟨written, pendingEof, pendingClose, ⟨rfl, hdata, ?_, ?_, ?_, ?_, ?_⟩⟩
      · cases pendingClose <;> rfl
      · simp [hall, ChannelCall.submits]
      · intro c' hc'
        obtain rfl := afterFlush_eq_some hc'
        refine ⟨hr.blocked, ?_, by simp [hpay, ChannelCall.submits]⟩
        intro hpc
        rw [← hcl] at hpc
        simp [afterFlush, hpc] at hc'
      · intro he
        refine .inr ⟨amount, rfl, ?_, drains_of_complete hf⟩
        rw [← hflags.1, ← heof, he]
      · intro _ _ _
        exact ⟨heof.trans hflags.1, hcl.trans hflags.2⟩
  | flushAllPending order => cases ht

namespace History

/-- How often `eof` was called for the channel. -/
def eofCalls (id : ChannelId) (h : History) : Nat := h.calls.count (.eof id)

/-- How many EOFs were written for the channel. -/
def eofs (id : ChannelId) (h : History) : Nat := (h.packets id).count .eof

/-- How many CLOSEs were written for the channel. -/
def closes (id : ChannelId) (h : History) : Nat := (h.packets id).count .close

/-- Everything submitted so far has been written. -/
def AllSent (id : ChannelId) (h : History) : Prop := (h.sent id).Perm (h.submitted id)

/-- A packet of the history was written before the last call or by it. -/
theorem record_eq_append {h h₁ h₂ : History} {call : ChannelCall} {new : List Message}
    {m : Message} (heq : h.record call new = h₁ ++ .wrote m :: h₂) :
    (∃ h₂' : History, h = h₁ ++ .wrote m :: h₂' ∧ h₂ = h₂'.record call new) ∨
      ∃ new₁ new₂, new = new₁ ++ m :: new₂ ∧ h₁ = h.record call new₁ ∧
        h₂ = new₂.map .wrote := by
  have hcases := List.append_eq_append_iff.mp heq
  rcases hcases with ⟨a, rfl, ha⟩ | ⟨a, rfl, ha⟩
  · cases a with
    | nil => cases ha
    | cons x a =>
      obtain ⟨rfl, hrest⟩ := List.cons.inj ha
      obtain ⟨new₁, l, rfl, rfl, hl⟩ := List.map_eq_append_iff.mp hrest
      obtain ⟨m', new₂, rfl, hm, rfl⟩ := List.map_eq_cons_iff.mp hl
      cases hm
      exact .inr ⟨new₁, new₂, rfl, rfl, rfl⟩
  · cases a with
    | nil => cases ha
    | cons x a =>
      obtain ⟨rfl, rfl⟩ := List.cons.inj ha
      exact .inl ⟨a, rfl, rfl⟩

end History

section Runs

variable {id : ChannelId}

/-- What is promised for the EOFs and the CLOSE of a channel. -/
structure DeferredCorrect (id : ChannelId) (s : OutputState) : Prop where
  eofs_le : s.history.eofs id ≤ s.history.eofCalls id
  closes_le : s.history.closes id ≤ 1
  eof_last : ∀ (h₁ h₂ : History) (recipient : Nat),
    s.history = h₁ ++ .wrote (.channel id recipient .eof) :: h₂ → h₁.AllSent id
  close_last : ∀ (h₁ h₂ : History) (recipient : Nat),
    s.history = h₁ ++ .wrote (.channel id recipient .close) :: h₂ →
      h₁.AllSent id ∧ h₂.packets id = []
  same_step : ∀ call t channel, s.step call = some t → s.enc.channels id = some channel →
    (∃ amount, call = .windowAdjust id amount) ∨ (∃ order, call = .flushAllPending order) →
    channel.pendingData ≠ [] → (∀ c, t.enc.channels id = some c → c.pendingData = []) →
    ∃ new, t.history.packets id = s.history.packets id ++ new ∧
      (channel.pendingEof → .eof ∈ new) ∧ (channel.pendingClose → .close ∈ new)

/-- The invariant of the runs. -/
structure DeferredInv (id : ChannelId) (s : OutputState) : Prop where
  eofs_le : s.history.eofs id ≤ s.history.eofCalls id
  closes_le : s.history.closes id ≤ 1
  eof_last : ∀ (h₁ h₂ : History) (recipient : Nat),
    s.history = h₁ ++ .wrote (.channel id recipient .eof) :: h₂ → h₁.AllSent id
  close_last : ∀ (h₁ h₂ : History) (recipient : Nat),
    s.history = h₁ ++ .wrote (.channel id recipient .close) :: h₂ →
      h₁.AllSent id ∧ h₂.packets id = []
  entry : ∀ channel, s.enc.channels id = some channel → channel.Blocked ∧
    (channel.pendingClose → channel.pendingData ≠ []) ∧ s.history.closes id = 0 ∧
    (s.history.sent id ++ queued channel.pendingData).Perm (s.history.submitted id)

/-- When a window adjustment drains the channel, a flag that asks for an EOF stands for a call of
`eof` that no EOF has answered. -/
def EofPending (id : ChannelId) (s : OutputState) : ChannelCall → Prop
  | .windowAdjust i amount => i = id → ∀ channel, s.enc.channels id = some channel →
      channel.pendingEof →
      drains (channel.enlarge amount).recipientWindowSize channel.pendingData →
      s.history.eofs id < s.history.eofCalls id
  | _ => True

instance EofPending.decidable (s : OutputState) :
    (call : ChannelCall) → Decidable (EofPending id s call)
  | .windowAdjust i amount =>
    match h : s.enc.channels id with
    | some channel => decidable_of_iff
        (i = id → channel.pendingEof →
          drains (channel.enlarge amount).recipientWindowSize channel.pendingData →
          s.history.eofs id < s.history.eofCalls id) (by simp [EofPending, h])
    | none => isTrue (by simp [EofPending, h])
  | .submit _ _ _ _ | .eof _ | .close _ | .flushAllPending _ => isTrue trivial

/-- A packet that is no data stands behind the data. -/
theorem split_ending {data packets₁ packets₂ : List ChannelMessage} {eof close : Bool}
    {m : ChannelMessage} (hdata : ∀ msg ∈ data, ∃ a buf, msg = dataMessage a buf)
    (hm : ∀ a buf, m ≠ dataMessage a buf)
    (h : data ++ ending eof close = packets₁ ++ m :: packets₂) :
    packets₁.flatMap ChannelMessage.payload = data.flatMap ChannelMessage.payload ∧
      (eof ∨ close) ∧ (m = .close → packets₂ = []) := by
  obtain ⟨a, rfl, ha⟩ : ∃ a, packets₁ = data ++ a ∧ ending eof close = a ++ m :: packets₂ := by
    rcases List.append_eq_append_iff.mp h with h | ⟨a, rfl, ha⟩
    · exact h
    · cases a with
      | nil => exact ⟨[], by simp, ha.symm⟩
      | cons x a =>
        obtain ⟨rfl, -⟩ := List.cons.inj ha
        obtain ⟨b, buf, hbuf⟩ := hdata m (by simp)
        exact absurd hbuf (hm b buf)
  have hpay : a.flatMap ChannelMessage.payload = [] := by
    have hend := payload_ending eof close
    rw [ha, List.flatMap_append] at hend
    exact (List.append_eq_nil_iff.mp hend).1
  refine ⟨by rw [List.flatMap_append, hpay, List.append_nil], ?_, ?_⟩
  · cases eof <;> cases close <;> simp_all [ending]
  · rintro rfl
    cases eof <;> cases close <;> rcases a with _ | ⟨x, _ | ⟨y, a⟩⟩ <;> simp_all [ending]

theorem closes_pos {h : History} {h₁ h₂ : History} {recipient : Nat}
    (heq : h = h₁ ++ .wrote (.channel id recipient .close) :: h₂) : 0 < h.closes id := by
  rw [History.closes, List.count_pos_iff]
  subst heq
  simp [History.packets, History.written, messagesFor]

theorem messagesFor_cons_self {recipient : Nat} {msg : ChannelMessage} {write : List Message} :
    messagesFor id (.channel id recipient msg :: write) = msg :: messagesFor id write := by
  simp [messagesFor]

theorem packets_map_wrote {new : List Message} :
    History.packets id (new.map .wrote) = messagesFor id new := by
  simp [History.packets, History.written, List.filterMap_map]

/-- The packets of one step, for the step that writes an EOF or a CLOSE. -/
theorem deferred_new {s : OutputState} {call : ChannelCall} {channel : ChannelParams}
    {channel' : Option ChannelParams} {new new₁ new₂ : List Message} {data : List ChannelMessage}
    {eof close : Bool} {recipient : Nat} {m : ChannelMessage} (hi : DeferredInv id s)
    (hc : s.enc.channels id = some channel)
    (he : Ends id call channel (messagesFor id new) channel' data eof close)
    (hm : m = .eof ∨ m = .close) (hnew : new = new₁ ++ .channel id recipient m :: new₂) :
    (s.history.record call new₁).AllSent id ∧ (m = .close → messagesFor id new₂ = []) := by
  have hpackets := he.packets_eq
  rw [hnew, messagesFor_append, messagesFor_cons_self] at hpackets
  obtain ⟨hpay, hdone, hlast⟩ := split_ending he.data_eq
    (by rintro a buf rfl; cases a <;> simp [dataMessage] at hm) hpackets.symm
  refine ⟨?_, hlast⟩
  have hold := (hi.entry channel hc).2.2.2
  have hdrained := he.drained hdone
  rw [History.AllSent, History.sent_record, History.submitted_record, hpay]
  calc s.history.sent id ++ data.flatMap ChannelMessage.payload
    _ ~ s.history.sent id ++ (queued channel.pendingData ++ call.submits id) :=
        hdrained.append_left _
    _ = (s.history.sent id ++ queued channel.pendingData) ++ call.submits id := by
        rw [List.append_assoc]
    _ ~ s.history.submitted id ++ call.submits id := hold.append_right _

theorem count_close_ending (eof close : Bool) :
    (ending eof close).count .close = if close then 1 else 0 := by
  cases eof <;> cases close <;> rfl

theorem count_eof_ending (eof close : Bool) :
    (ending eof close).count .eof = if eof then 1 else 0 := by
  cases eof <;> cases close <;> rfl

theorem count_data {data : List ChannelMessage} {m : ChannelMessage}
    (hdata : ∀ msg ∈ data, ∃ a buf, msg = dataMessage a buf)
    (hm : ∀ a buf, m ≠ dataMessage a buf) : data.count m = 0 := by
  rw [List.count_eq_zero]
  intro hmem
  obtain ⟨a, buf, h⟩ := hdata m hmem
  exact hm a buf h

/-- The counts that a step adds. -/
theorem Ends.counts {call : ChannelCall} {channel : ChannelParams}
    {packets : List ChannelMessage} {channel' : Option ChannelParams} {data : List ChannelMessage}
    {eof close : Bool} (he : Ends id call channel packets channel' data eof close) :
    packets.count .eof = (if eof then 1 else 0) ∧
      packets.count .close = if close then 1 else 0 := by
  rw [he.packets_eq, List.count_append, List.count_append, count_eof_ending, count_close_ending,
    count_data he.data_eq, count_data he.data_eq]
  · simp
  · rintro (_ | _) buf <;> simp [dataMessage]
  · rintro (_ | _) buf <;> simp [dataMessage]

theorem deferredInv_entry {s t : OutputState} {call : ChannelCall} {new : List Message}
    {channel : ChannelParams} {data : List ChannelMessage} {eof close : Bool}
    (hi : DeferredInv id s) (hp : EofPending id s call)
    (hc : s.enc.channels id = some channel) (hh : t.history = s.history.record call new)
    (he : Ends id call channel (messagesFor id new) (t.enc.channels id) data eof close) :
    DeferredInv id t := by
  obtain ⟨hcount, hcountc⟩ := he.counts
  obtain ⟨hblocked, hwaits, hnone, hperm⟩ := hi.entry channel hc
  have hcloses : t.history.closes id = if close then 1 else 0 := by
    rw [History.closes, hh, History.packets_record, List.count_append, hcountc]
    rw [History.closes] at hnone
    omega
  have heofs : t.history.eofs id = s.history.eofs id + if eof then 1 else 0 := by
    rw [History.eofs, hh, History.packets_record, List.count_append, hcount]
    rfl
  have hcalls : t.history.eofCalls id =
      s.history.eofCalls id + if call = .eof id then 1 else 0 := by
    rw [History.eofCalls, hh, History.calls_record, List.count_append, List.count_singleton]
    simp [History.eofCalls]
  exact
    { eofs_le := by
        have := hi.eofs_le
        rw [heofs, hcalls]
        cases eof with
        | false =>
          simp only [Bool.false_eq_true, if_false]
          omega
        | true =>
          rcases he.eof_called rfl with rfl | ⟨amount, rfl, hflag, hdrains⟩
          · simp only [if_true]
            omega
          · have := hp rfl channel hc hflag hdrains
            simp only [if_true]
            omega
      closes_le := by
        rw [hcloses]
        split <;> omega
      eof_last := by
        intro h₁ h₂ recipient heq
        rw [hh] at heq
        rcases History.record_eq_append heq with ⟨h₂', hs, -⟩ | ⟨new₁, new₂, hn, rfl, -⟩
        · exact hi.eof_last h₁ h₂' recipient hs
        · exact (deferred_new hi hc he (.inl rfl) hn).1
      close_last := by
        intro h₁ h₂ recipient heq
        rw [hh] at heq
        rcases History.record_eq_append heq with ⟨h₂', hs, -⟩ | ⟨new₁, new₂, hn, rfl, rfl⟩
        · have := closes_pos hs
          omega
        · obtain ⟨hall, hlast⟩ := deferred_new hi hc he (.inr rfl) hn
          exact ⟨hall, packets_map_wrote.trans (hlast rfl)⟩
      entry := by
        intro c hc'
        obtain ⟨hb, hpc, hw⟩ := he.waits c hc'
        refine ⟨hb, hpc, ?_, ?_⟩
        · rw [hcloses, he.removed, hc']
          rfl
        · rw [hh, History.sent_record, History.submitted_record, he.packets_eq,
            List.flatMap_append, payload_ending, List.append_nil]
          calc s.history.sent id ++ data.flatMap ChannelMessage.payload ++ queued c.pendingData
            _ = s.history.sent id ++
                (data.flatMap ChannelMessage.payload ++ queued c.pendingData) := by
                rw [List.append_assoc]
            _ ~ s.history.sent id ++ (queued channel.pendingData ++ call.submits id) :=
                hw.append_left _
            _ = (s.history.sent id ++ queued channel.pendingData) ++ call.submits id := by
                rw [List.append_assoc]
            _ ~ s.history.submitted id ++ call.submits id := hperm.append_right _ }

/-- A call that writes nothing about the channel, and leaves its entry. -/
theorem deferredInv_still {s t : OutputState} {call : ChannelCall} {new : List Message}
    (hi : DeferredInv id s) (hh : t.history = s.history.record call new)
    (hnew : messagesFor id new = []) (hc : t.enc.channels id = s.enc.channels id)
    (ht : s.enc.channels id = none ∨ call.target ≠ some id) : DeferredInv id t := by
  have hpackets : t.history.packets id = s.history.packets id := by
    rw [hh, History.packets_record, hnew, List.append_nil]
  have hquiet : ∀ new₁ new₂ recipient m, new ≠ new₁ ++ .channel id recipient m :: new₂ := by
    rintro new₁ new₂ recipient m rfl
    rw [messagesFor_append, messagesFor_cons_self] at hnew
    simp at hnew
  exact
    { eofs_le := by
        have := hi.eofs_le
        have hcalls : s.history.eofCalls id ≤ t.history.eofCalls id := by
          rw [hh, History.eofCalls, History.eofCalls, History.calls_record, List.count_append]
          omega
        rw [History.eofs, hpackets]
        exact this.trans hcalls
      closes_le := by
        rw [History.closes, hpackets]
        exact hi.closes_le
      eof_last := by
        intro h₁ h₂ recipient heq
        rw [hh] at heq
        rcases History.record_eq_append heq with ⟨h₂', hs, -⟩ | ⟨new₁, new₂, hn, -⟩
        · exact hi.eof_last h₁ h₂' recipient hs
        · exact absurd hn (hquiet new₁ new₂ recipient .eof)
      close_last := by
        intro h₁ h₂ recipient heq
        rw [hh] at heq
        rcases History.record_eq_append heq with ⟨h₂', hs, rfl⟩ | ⟨new₁, new₂, hn, -⟩
        · obtain ⟨hall, hlast⟩ := hi.close_last h₁ h₂' recipient hs
          exact ⟨hall, by rw [History.packets_record, hlast, hnew]; rfl⟩
        · exact absurd hn (hquiet new₁ new₂ recipient .close)
      entry := by
        intro channel hc'
        rw [hc] at hc'
        obtain ⟨hb, hpc, hnone, hperm⟩ := hi.entry channel hc'
        have hsub : call.submits id = [] := by
          rcases ht with hn | ht
          · rw [hn] at hc'
            cases hc'
          · exact (ChannelCall.submits_of_target_ne ht).1
        refine ⟨hb, hpc, by rw [History.closes, hpackets]; exact hnone, ?_⟩
        rw [History.sent, hpackets, hh, History.submitted_record, hsub, List.append_nil]
        exact hperm }

theorem deferredInv_step {s t : OutputState} {call : ChannelCall} (hi : DeferredInv id s)
    (hp : EofPending id s call) (h : s.step call = some t) : DeferredInv id t := by
  obtain ⟨new, -, hh, hm⟩ := OutputState.step_eq_some
    (fun channel hc => (hi.entry channel hc).1) h
  generalize hc : s.enc.channels id = c, hc' : t.enc.channels id = c',
    hnew : messagesFor id new = packets at hm
  cases hm with
  | absent => exact deferredInv_still hi hh hnew (hc'.trans hc.symm) (.inl hc)
  | still channel ht => exact deferredInv_still hi hh hnew (hc'.trans hc.symm) (.inr ht)
  | entry channel packets channel' ht he =>
    obtain ⟨hb, hpc, -⟩ := hi.entry channel hc
    obtain ⟨data, eof, close, hends⟩ := ends_of_onEntry hb hpc ht he
    exact deferredInv_entry hi hp hc hh (by rw [hnew, hc']; exact hends)

/-- A flush that drains the channel writes what its flags ask for. -/
theorem same_step {s t : OutputState} {call : ChannelCall} {channel : ChannelParams}
    (hi : DeferredInv id s) (h : s.step call = some t) (hc : s.enc.channels id = some channel)
    (hflush : (∃ amount, call = .windowAdjust id amount) ∨
      ∃ order, call = .flushAllPending order)
    (hne : channel.pendingData ≠ [])
    (hdrained : ∀ c, t.enc.channels id = some c → c.pendingData = []) :
    ∃ new, t.history.packets id = s.history.packets id ++ new ∧
      (channel.pendingEof → .eof ∈ new) ∧ (channel.pendingClose → .close ∈ new) := by
  obtain ⟨new, -, hh, hm⟩ := OutputState.step_eq_some
    (fun channel hc => (hi.entry channel hc).1) h
  rw [hc] at hm
  refine ⟨messagesFor id new, by rw [hh, History.packets_record], ?_⟩
  generalize hc' : t.enc.channels id = c', messagesFor id new = packets at hm
  cases hm with
  | still ht => exact absurd (hdrained channel hc') hne
  | entry _ _ _ ht he =>
    obtain ⟨hb, hpc, -⟩ := hi.entry channel hc
    obtain ⟨data, eof, close, hends⟩ := ends_of_onEntry hb hpc ht he
    rcases hflush with ⟨amount, rfl⟩ | ⟨order, rfl⟩
    · obtain ⟨rfl, rfl⟩ := hends.flushed amount rfl fun c hc => hdrained c (hc'.trans hc)
      rw [hends.packets_eq]
      constructor <;> intro hflag <;> simp [ending, hflag]
    · cases ht

theorem deferredInv_init {enc₀ : Encrypted} {channel₀ : ChannelParams}
    (hc : enc₀.channels id = some channel₀) (hp : channel₀.pendingData = [])
    (hclose : channel₀.pendingClose = false) : DeferredInv id { enc := enc₀ } where
  eofs_le := by simp [History.eofs, History.packets, History.written]
  closes_le := by simp [History.closes, History.packets, History.written]
  eof_last := by simp
  close_last := by simp
  entry := by
    intro channel hc'
    obtain rfl : channel₀ = channel := Option.some.inj (hc ▸ hc')
    refine ⟨by simp [ChannelParams.Blocked, hp], by simp [hclose], rfl, ?_⟩
    simp [hp, queued, History.sent, History.packets, History.written, History.submitted,
      History.calls]

/-- In every run in which no window adjustment drains the channel while its EOF flag is left over
from an EOF that was written, the EOFs and the CLOSE come as promised. -/
theorem deferred_of_eofPending {enc₀ : Encrypted} {channel₀ : ChannelParams}
    (hc : enc₀.channels id = some channel₀) (hp : channel₀.pendingData = [])
    (hclose : channel₀.pendingClose = false) {calls : List ChannelCall} {s : OutputState}
    (hs : Along OutputState.step (EofPending id) { enc := enc₀ } calls)
    (hr : run OutputState.step { enc := enc₀ } calls = some s) : DeferredCorrect id s := by
  have hinv : DeferredInv id s :=
    run_invariant (I := DeferredInv id) (fun s call t hi hp h => deferredInv_step hi hp h)
      calls { enc := enc₀ } s (deferredInv_init hc hp hclose) hs hr
  exact ⟨hinv.eofs_le, hinv.closes_le, hinv.eof_last, hinv.close_last,
    fun _ _ _ h hc hflush hne hdrained => same_step hinv h hc hflush hne hdrained⟩

end Runs

/-- Data, an EOF and a CLOSE that wait for the window. -/
theorem deferred_adjusted : ∃ s, run OutputState.step { enc := oneChannelSession 0 }
      [.submit 2 none [7] false, .eof 2, .close 2, .windowAdjust 2 1] = some s ∧
    s.history.packets 2 = [.data [7], .eof, .close] ∧ DeferredCorrect 2 s := by
  have hs : Along OutputState.step (EofPending 2) { enc := oneChannelSession 0 }
      [.submit 2 none [7] false, .eof 2, .close 2, .windowAdjust 2 1] := by
    decide +kernel
  refine ⟨_, rfl, by decide +kernel, deferred_of_eofPending rfl rfl rfl hs rfl⟩

/-- One call of `eof` and two window adjustments: two EOFs are written. -/
theorem not_deferred_adjusted_twice : ∃ s, run OutputState.step { enc := oneChannelSession 0 }
      [.submit 2 none [7] false, .eof 2, .windowAdjust 2 1, .windowAdjust 2 1] = some s ∧
    s.history.packets 2 = [.data [7], .eof, .eof] ∧ ¬ DeferredCorrect 2 s := by
  refine ⟨_, rfl, by decide +kernel, fun h => absurd h.eofs_le (by decide +kernel)⟩

end Edgessh.Russh
