import Edgessh.Lib.Queue
import Edgessh.Russh.Event

/-!
# The writer of a channel

`channels/io/tx.rs`: a write takes its bytes from the window and builds a message, which waits in
`send_fut` for a place in the queue of the session. What the environment answers to a poll is
part of the event: whether the lock of the window is obtained, and what the queue says.
-/

namespace Edgessh.Russh
open Edgessh.Run Edgessh.Queue

/-- What `reserve_owned` answers. -/
inductive Permit where
  | pending
  | closed
  | granted
  deriving DecidableEq, Repr

inductive WriteError where
  | writeZero
  | brokenPipe
  deriving DecidableEq, Repr

/-- `ChannelTx`. The window is shared with the session and with other writers. -/
structure ChannelTx where
  sendFut : Option (ChannelMsg × Nat) := none
  windowSize : Nat
  maxPacketSize : Nat
  ext : Option Nat
  deriving DecidableEq, Repr

/-- The answer to a poll, and the message that it has put into the queue. -/
structure Sent where
  result : Poll (Except WriteError Nat)
  msg : Option ChannelMsg := none

namespace ChannelTx

/-- `Data` or `ExtendedData`. -/
def message (ext : Option Nat) (data : Bytes) : ChannelMsg :=
  match ext with
  | none => .data data
  | some ext => .extendedData data ext

/-- How much `poll_writable` takes from the window; a length is cut to 32 bits. -/
def writable (bufLen : Nat) (this : ChannelTx) : Nat :=
  min (min this.maxPacketSize this.windowSize) (bufLen % 2 ^ 32)

/-- `poll_writable`. -/
def pollWritable (lock : Bool) (bufLen : Nat) (this : ChannelTx) : Poll Nat × ChannelTx :=
  if lock && 0 < this.writable bufLen then
    (.ready (this.writable bufLen),
      { this with windowSize := this.windowSize - this.writable bufLen })
  else (.pending, this)

/-- `poll_mk_msg`. -/
def pollMkMsg (lock : Bool) (buf : Bytes) (this : ChannelTx) :
    Poll (ChannelMsg × Nat) × ChannelTx :=
  match this.pollWritable lock buf.length with
  | (.ready writable, this) => (.ready (message this.ext (buf.take writable), writable), this)
  | (.pending, this) => (.pending, this)

/-- Poll the future in `send_fut`, and `handle_write_result`. -/
def pollSend (permit : Permit) (fut : ChannelMsg × Nat) (this : ChannelTx) : Sent × ChannelTx :=
  match permit with
  | .pending => ({ result := .pending }, { this with sendFut := some fut })
  | .closed => ({ result := .ready (.error .brokenPipe) }, { this with sendFut := none })
  | .granted => ({ result := .ready (.ok fut.2), msg := some fut.1 }, { this with sendFut := none })

/-- `poll_write`. -/
def pollWrite (buf : Bytes) (lock : Bool) (permit : Permit) (this : ChannelTx) :
    Sent × ChannelTx :=
  if buf = [] then ({ result := .ready (.error .writeZero) }, this)
  else
    match this.sendFut with
    | some fut => this.pollSend permit fut
    | none =>
      match this.pollMkMsg lock buf with
      | (.ready fut, this) => this.pollSend permit fut
      | (.pending, this) => ({ result := .pending }, this)

/-- `poll_shutdown`: the permit for whatever waits is used for the `Eof`. -/
def pollShutdown (permit : Permit) (this : ChannelTx) : Sent × ChannelTx :=
  match this.pollSend permit (this.sendFut.getD (.eof, 0)) with
  | ({ result := .ready (.ok _), msg := _ }, this) =>
    ({ result := .ready (.ok 0), msg := some .eof }, this)
  | r => r

end ChannelTx

/-- A call on the writer, or a change of the window that is made by others. -/
inductive TxEvent where
  | pollWrite (buf : Bytes) (lock : Bool) (permit : Permit)
  | pollShutdown (permit : Permit)
  | window (size : Nat)
  deriving DecidableEq, Repr

/-- The bytes in messages. -/
def dataLength (msgs : List ChannelMsg) : Nat :=
  (msgs.map fun msg => (msg.payload.getD []).length).sum

/-- A writer with its history: the messages it has put into the queue and the bytes it has taken
from the window. -/
structure Writing where
  tx : ChannelTx
  enqueued : List ChannelMsg := []
  debited : Nat := 0
  deriving DecidableEq, Repr

namespace Writing
open ChannelTx

/-- A new writer. -/
def start (windowSize maxPacketSize : Nat) (ext : Option Nat) : Writing :=
  { tx := { windowSize, maxPacketSize, ext } }

/-- The call of an event. -/
def call (s : Writing) : TxEvent → Sent × ChannelTx
  | .pollWrite buf lock permit => s.tx.pollWrite buf lock permit
  | .pollShutdown permit => s.tx.pollShutdown permit
  | .window size => ({ result := .pending }, { s.tx with windowSize := size })

/-- What a call takes from the window. -/
def takes (s : Writing) : TxEvent → Nat
  | .window _ => 0
  | e => s.tx.windowSize - (s.call e).2.windowSize

/-- The state after an event. -/
def after (s : Writing) (e : TxEvent) : Writing where
  tx := (s.call e).2
  enqueued := s.enqueued ++ (s.call e).1.msg.toList
  debited := s.debited + s.takes e

def next (s : Writing) (e : TxEvent) : Option Writing := some (s.after e)

/-- The bytes that a waiting message has taken from the window. -/
def reserved (s : Writing) : Nat := (s.tx.sendFut.elim 0 Prod.snd)

/-- The message that a completed call has put into the queue. -/
def Reported (s : Writing) : TxEvent → Prop
  | .pollWrite buf lock permit =>
    match (s.tx.pollWrite buf lock permit).1.result with
    | .ready (.ok n) =>
      n ≤ buf.length ∧
        (s.tx.pollWrite buf lock permit).1.msg = some (message s.tx.ext (buf.take n))
    | _ => (s.tx.pollWrite buf lock permit).1.msg = none
  | .pollShutdown permit =>
    match (s.tx.pollShutdown permit).1.result with
    | .ready (.ok _) => (s.tx.pollShutdown permit).1.msg = some .eof
    | _ => (s.tx.pollShutdown permit).1.msg = none
  | .window _ => True

/-- A call reports what it has put into the queue, the window has been debited by what is in the
queue and by what waits for it, and nothing follows an `Eof`. -/
structure Faithful (s : Writing) (e : TxEvent) : Prop where
  reported : s.Reported e
  debited : (s.after e).debited = dataLength (s.after e).enqueued + (s.after e).reserved
  eof : (s.call e).1.msg ≠ none → .eof ∉ s.enqueued

/-- A write that waits is polled with its own bytes until it is done, a shutdown does not take
its place, no bytes are taken from the window for a closed queue, and nothing is put into the
queue behind an `Eof`. -/
def Steady (s : Writing) : TxEvent → Prop
  | .pollWrite buf lock permit =>
    buf ≠ [] →
      match s.tx.sendFut with
      | some (msg, n) =>
        (permit = .granted →
          (n ≤ buf.length ∧ msg = message s.tx.ext (buf.take n)) ∧ .eof ∉ s.enqueued) ∧
        (permit = .closed → n = 0)
      | none =>
        lock = true → 0 < s.tx.writable buf.length →
          (permit = .granted → .eof ∉ s.enqueued) ∧ permit ≠ .closed
  | .pollShutdown permit =>
    (permit = .granted → s.reserved = 0 ∧ .eof ∉ s.enqueued) ∧
    (permit = .closed → s.reserved = 0)
  | .window _ => True

/-- What holds in a run: the window has been debited by what has been put into the queue and by
what waits, and the bytes that wait are those of the message. -/
structure Inv (s : Writing) : Prop where
  debited : s.debited = dataLength s.enqueued + s.reserved
  waiting : ∀ msg n, s.tx.sendFut = some (msg, n) → (msg.payload.getD []).length = n

variable {s : Writing} {buf : Bytes} {lock : Bool} {permit : Permit}

@[simp] theorem dataLength_append (msgs msgs' : List ChannelMsg) :
    dataLength (msgs ++ msgs') = dataLength msgs + dataLength msgs' := by
  simp [dataLength]

@[simp] theorem dataLength_nil : dataLength [] = 0 := rfl

@[simp] theorem dataLength_singleton (msg : ChannelMsg) :
    dataLength [msg] = (msg.payload.getD []).length := by
  simp [dataLength]

@[simp] theorem payload_message (ext : Option Nat) (data : Bytes) :
    (message ext data).payload = some data := by
  cases ext <;> rfl

theorem writable_le_length (bufLen : Nat) (tx : ChannelTx) : tx.writable bufLen ≤ bufLen :=
  le_trans (Nat.min_le_right _ _) (Nat.mod_le _ _)

theorem writable_le_window (bufLen : Nat) (tx : ChannelTx) :
    tx.writable bufLen ≤ tx.windowSize :=
  le_trans (Nat.min_le_left _ _) (Nat.min_le_right _ _)

theorem pollWrite_waiting (hbuf : buf ≠ []) {fut : ChannelMsg × Nat}
    (hfut : s.tx.sendFut = some fut) :
    s.tx.pollWrite buf lock permit = s.tx.pollSend permit fut := by
  rw [pollWrite, if_neg hbuf, hfut]

/-- A write that finds no room in the window, or the lock taken. -/
theorem pollWrite_blocked (hbuf : buf ≠ []) (hfut : s.tx.sendFut = none)
    (h : ¬(lock = true ∧ 0 < s.tx.writable buf.length)) :
    s.tx.pollWrite buf lock permit = ({ result := .pending }, s.tx) := by
  have hpoll : (lock && decide (0 < s.tx.writable buf.length)) = false := by
    simpa using h
  rw [pollWrite, if_neg hbuf, hfut]
  simp only [pollMkMsg, pollWritable, hpoll]
  rfl

/-- A write that builds its message. -/
theorem pollWrite_taking (hbuf : buf ≠ []) (hfut : s.tx.sendFut = none)
    (h : lock = true ∧ 0 < s.tx.writable buf.length) :
    s.tx.pollWrite buf lock permit =
      ({ s.tx with windowSize := s.tx.windowSize - s.tx.writable buf.length }).pollSend permit
        (message s.tx.ext (buf.take (s.tx.writable buf.length)), s.tx.writable buf.length) := by
  have hpoll : (lock && decide (0 < s.tx.writable buf.length)) = true := by
    simpa using h
  rw [pollWrite, if_neg hbuf, hfut]
  simp only [pollMkMsg, pollWritable, hpoll]
  rfl

/-- What a call with the outcome `r` leaves of an invariant. -/
theorem debited_after (hs : s.Inv) {e : TxEvent} {r : Sent × ChannelTx} {taken : Nat}
    (hcall : s.call e = r) (htakes : s.takes e = taken) :
    (s.after e).debited = dataLength (s.after e).enqueued + (s.after e).reserved ↔
      s.reserved + taken =
        dataLength r.1.msg.toList + r.2.sendFut.elim 0 Prod.snd := by
  show s.debited + s.takes e =
    dataLength (s.enqueued ++ (s.call e).1.msg.toList) + (s.call e).2.sendFut.elim 0 Prod.snd ↔ _
  rw [hcall, htakes, dataLength_append, hs.debited]
  omega

theorem faithful_waiting_iff (hs : s.Inv) (hbuf : buf ≠ []) {msg : ChannelMsg} {n : Nat}
    (hfut : s.tx.sendFut = some (msg, n)) :
    s.Faithful (.pollWrite buf lock permit) ↔ s.Steady (.pollWrite buf lock permit) := by
  have hpoll : s.tx.pollWrite buf lock permit = s.tx.pollSend permit (msg, n) :=
    pollWrite_waiting hbuf hfut
  have hreserved : s.reserved = n := by
    rw [reserved, hfut]
    rfl
  have hlen := hs.waiting msg n hfut
  have htakes : s.takes (.pollWrite buf lock permit) = 0 := by
    show s.tx.windowSize - (s.tx.pollWrite buf lock permit).2.windowSize = 0
    rw [hpoll]
    cases permit <;> exact Nat.sub_self _
  have hdebited := debited_after hs (e := .pollWrite buf lock permit) hpoll htakes
  rw [hreserved] at hdebited
  have hsteady : s.Steady (.pollWrite buf lock permit) ↔
      (permit = .granted →
        (n ≤ buf.length ∧ msg = message s.tx.ext (buf.take n)) ∧ .eof ∉ s.enqueued) ∧
      (permit = .closed → n = 0) := by
    simp only [Steady, hfut]
    exact ⟨fun h => h hbuf, fun h _ => h⟩
  have hreported : s.Reported (.pollWrite buf lock permit) ↔
      (permit = .granted → n ≤ buf.length ∧ msg = message s.tx.ext (buf.take n)) := by
    simp only [Reported, hpoll]
    cases permit <;> simp [pollSend]
  rw [hsteady]
  cases permit with
  | pending =>
    refine iff_of_true ⟨hreported.mpr (by rintro ⟨⟩), hdebited.mpr (by simp [pollSend]), ?_⟩
      ⟨by rintro ⟨⟩, by rintro ⟨⟩⟩
    intro hmsg
    simp [call, hpoll, pollSend] at hmsg
  | closed =>
    constructor
    · intro h
      refine ⟨by rintro ⟨⟩, fun _ => ?_⟩
      simpa [pollSend] using hdebited.mp h.debited
    · rintro ⟨-, hn⟩
      refine ⟨hreported.mpr (by rintro ⟨⟩), hdebited.mpr (by simp [pollSend, hn rfl]), ?_⟩
      intro hmsg
      simp [call, hpoll, pollSend] at hmsg
  | granted =>
    constructor
    · intro h
      refine ⟨fun _ => ⟨hreported.mp h.reported rfl, h.eof ?_⟩, by rintro ⟨⟩⟩
      simp [call, hpoll, pollSend]
    · rintro ⟨hg, -⟩
      refine ⟨hreported.mpr fun _ => (hg rfl).1, hdebited.mpr ?_, fun _ => (hg rfl).2⟩
      simpa [pollSend] using hlen.symm

theorem faithful_taking_iff (hs : s.Inv) (hbuf : buf ≠ []) (hfut : s.tx.sendFut = none)
    (h : lock = true ∧ 0 < s.tx.writable buf.length) :
    s.Faithful (.pollWrite buf lock permit) ↔ s.Steady (.pollWrite buf lock permit) := by
  have hpoll : s.tx.pollWrite buf lock permit =
      ({ s.tx with windowSize := s.tx.windowSize - s.tx.writable buf.length }).pollSend permit
        (message s.tx.ext (buf.take (s.tx.writable buf.length)), s.tx.writable buf.length) :=
    pollWrite_taking hbuf hfut h
  have hreserved : s.reserved = 0 := by
    rw [reserved, hfut]
    rfl
  have hle := writable_le_length buf.length s.tx
  have hwindow := writable_le_window buf.length s.tx
  have htakes : s.takes (.pollWrite buf lock permit) = s.tx.writable buf.length := by
    show s.tx.windowSize - (s.tx.pollWrite buf lock permit).2.windowSize = _
    rw [hpoll]
    cases permit <;> exact Nat.sub_sub_self hwindow
  have hdebited := debited_after hs (e := .pollWrite buf lock permit) hpoll htakes
  rw [hreserved, Nat.zero_add] at hdebited
  have hsteady : s.Steady (.pollWrite buf lock permit) ↔
      (permit = .granted → .eof ∉ s.enqueued) ∧ permit ≠ .closed := by
    simp only [Steady, hfut]
    exact ⟨fun hst => hst hbuf h.1 h.2, fun hst _ _ _ => hst⟩
  have hreported : s.Reported (.pollWrite buf lock permit) := by
    simp only [Reported, hpoll]
    cases permit with
    | pending => rfl
    | closed => rfl
    | granted => exact ⟨hle, rfl⟩
  rw [hsteady]
  cases permit with
  | pending =>
    refine iff_of_true ⟨hreported, hdebited.mpr (by simp [pollSend]), ?_⟩
      ⟨by rintro ⟨⟩, by rintro ⟨⟩⟩
    intro hmsg
    simp [call, hpoll, pollSend] at hmsg
  | closed =>
    -- the bytes have been taken, and nothing is put into the queue
    refine iff_of_false ?_ fun hst => hst.2 rfl
    intro hf
    have hzero : s.tx.writable buf.length = 0 := by
      simpa [pollSend] using hdebited.mp hf.debited
    omega
  | granted =>
    constructor
    · intro hf
      refine ⟨fun _ => hf.eof ?_, by rintro ⟨⟩⟩
      simp [call, hpoll, pollSend]
    · rintro ⟨hg, -⟩
      refine ⟨hreported, hdebited.mpr ?_, fun _ => hg rfl⟩
      simpa [pollSend] using hle

/-- A call that neither takes from the window nor puts anything into the queue. -/
theorem faithful_of_idle (hs : s.Inv) {e : TxEvent} (hreported : s.Reported e)
    (hmsg : (s.call e).1.msg = none) (hfut : (s.call e).2.sendFut = s.tx.sendFut)
    (htakes : s.takes e = 0) : s.Faithful e := by
  refine ⟨hreported, (debited_after hs (e := e) rfl htakes).mpr ?_, fun h => absurd hmsg h⟩
  rw [hmsg, hfut, reserved]
  simp

theorem faithful_write_iff (hs : s.Inv) :
    s.Faithful (.pollWrite buf lock permit) ↔ s.Steady (.pollWrite buf lock permit) := by
  by_cases hbuf : buf = []
  · subst hbuf
    refine iff_of_true (faithful_of_idle hs rfl rfl rfl (Nat.sub_self _)) ?_
    intro h
    exact absurd rfl h
  rcases hfut : s.tx.sendFut with _ | ⟨msg, n⟩
  · by_cases h : lock = true ∧ 0 < s.tx.writable buf.length
    · exact faithful_taking_iff hs hbuf hfut h
    · have hpoll : s.tx.pollWrite buf lock permit = ({ result := .pending }, s.tx) :=
        pollWrite_blocked hbuf hfut h
      have hcall : s.call (.pollWrite buf lock permit) = ({ result := .pending }, s.tx) := hpoll
      refine iff_of_true (faithful_of_idle hs ?_ ?_ ?_ ?_) ?_
      · simp only [Reported, hpoll]
      · rw [hcall]
      · rw [hcall]
      · show s.tx.windowSize - (s.call (.pollWrite buf lock permit)).2.windowSize = 0
        rw [hcall]
        exact Nat.sub_self _
      · simp only [Steady, hfut]
        intro _ hlock hpos
        exact absurd ⟨hlock, hpos⟩ h
  · exact faithful_waiting_iff hs hbuf hfut

theorem faithful_shutdown_iff (hs : s.Inv) :
    s.Faithful (.pollShutdown permit) ↔ s.Steady (.pollShutdown permit) := by
  have hreported : s.Reported (.pollShutdown permit) := by
    cases permit <;> rfl
  have htakes : s.takes (.pollShutdown permit) = 0 := by
    cases permit <;> exact Nat.sub_self _
  have hdebited := debited_after hs (e := .pollShutdown permit) rfl htakes
  rw [Nat.add_zero] at hdebited
  cases permit with
  | pending =>
    refine iff_of_true ⟨hreported, hdebited.mpr ?_, fun h => absurd rfl h⟩
      ⟨by rintro ⟨⟩, by rintro ⟨⟩⟩
    -- whatever waited still waits; an `Eof` has taken nothing
    rcases hfut : s.tx.sendFut with _ | fut <;>
      simp [call, pollShutdown, pollSend, reserved, hfut]
  | closed =>
    have hiff : s.reserved = 0 ↔ s.Steady (.pollShutdown .closed) :=
      ⟨fun h => ⟨by rintro ⟨⟩, fun _ => h⟩, fun h => h.2 rfl⟩
    rw [← hiff]
    constructor
    · intro hf
      exact hdebited.mp hf.debited
    · intro h
      exact ⟨hreported, hdebited.mpr h, fun hmsg => absurd rfl hmsg⟩
  | granted =>
    constructor
    · intro hf
      refine ⟨fun _ => ⟨hdebited.mp hf.debited, hf.eof ?_⟩, by rintro ⟨⟩⟩
      rintro ⟨⟩
    · rintro ⟨hg, -⟩
      exact ⟨hreported, hdebited.mpr (hg rfl).1, fun _ => (hg rfl).2⟩

theorem faithful_iff_steady (hs : s.Inv) (e : TxEvent) : s.Faithful e ↔ s.Steady e := by
  cases e with
  | pollWrite buf lock permit => exact faithful_write_iff hs
  | pollShutdown permit => exact faithful_shutdown_iff hs
  | window size => exact iff_of_true (faithful_of_idle hs trivial rfl rfl rfl) trivial

/-- What waits after a poll of the send future. -/
theorem waiting_pollSend {tx : ChannelTx} {fut : ChannelMsg × Nat}
    (hfut : (fut.1.payload.getD []).length = fut.2) {msg : ChannelMsg} {n : Nat}
    (h : (tx.pollSend permit fut).2.sendFut = some (msg, n)) :
    (msg.payload.getD []).length = n := by
  cases permit with
  | pending =>
    obtain rfl : fut = (msg, n) := by simpa [pollSend] using h
    exact hfut
  | closed => cases h
  | granted => cases h

theorem waiting_after (hs : s.Inv) {e : TxEvent} {msg : ChannelMsg} {n : Nat}
    (h : (s.after e).tx.sendFut = some (msg, n)) : (msg.payload.getD []).length = n := by
  cases e with
  | pollWrite buf lock permit =>
    have h : (s.tx.pollWrite buf lock permit).2.sendFut = some (msg, n) := h
    by_cases hbuf : buf = []
    · subst hbuf
      exact hs.waiting msg n h
    rcases hfut : s.tx.sendFut with _ | fut
    · by_cases ht : lock = true ∧ 0 < s.tx.writable buf.length
      · rw [pollWrite_taking hbuf hfut ht] at h
        refine waiting_pollSend ?_ h
        have hle := writable_le_length buf.length s.tx
        simpa using hle
      · rw [pollWrite_blocked hbuf hfut ht] at h
        exact hs.waiting msg n h
    · rw [pollWrite_waiting hbuf hfut] at h
      exact waiting_pollSend (hs.waiting _ _ hfut) h
  | pollShutdown permit =>
    cases permit with
    | pending =>
      rcases hfut : s.tx.sendFut with _ | fut
      · obtain ⟨rfl, rfl⟩ : ChannelMsg.eof = msg ∧ 0 = n := by
          simpa [after, call, pollShutdown, pollSend, hfut] using h
        rfl
      · obtain rfl : fut = (msg, n) := by
          simpa [after, call, pollShutdown, pollSend, hfut] using h
        exact hs.waiting msg n hfut
    | closed => cases h
    | granted => cases h
  | window size => exact hs.waiting msg n h

theorem inv_next {e : TxEvent} {t : Writing} (hs : s.Inv) (hsteady : s.Steady e)
    (ht : next s e = some t) : t.Inv := by
  cases ht
  exact ⟨((faithful_iff_steady hs e).mpr hsteady).debited, fun _ _ h => waiting_after hs h⟩

theorem inv_start (windowSize maxPacketSize : Nat) (ext : Option Nat) :
    (start windowSize maxPacketSize ext).Inv :=
  ⟨rfl, by rintro _ _ ⟨⟩⟩

/-- A channel is written faithfully in exactly the runs of steady calls. -/
theorem channel_written_iff (windowSize maxPacketSize : Nat) (ext : Option Nat)
    (events : List TxEvent) :
    Along next Faithful (start windowSize maxPacketSize ext) events ↔
      Along next Steady (start windowSize maxPacketSize ext) events :=
  along_iff_of_invariant (fun _ _ _ hs hsteady ht => inv_next hs hsteady ht)
    (fun _ e hs => faithful_iff_steady hs e) (inv_start windowSize maxPacketSize ext)

/-- A write of three bytes waits for the queue and is given up; the write of one byte that comes
next reports three and puts the first three into the queue. -/
theorem channel_written_fails :
    ¬Along next Faithful (start 100 100 none)
      [.pollWrite [1, 2, 3] true .pending, .pollWrite [9] true .granted] := by
  intro h
  have hreported := (h.2 _ rfl).1.reported
  exact absurd hreported.1 (by decide)

end Writing

end Edgessh.Russh
