import Edgessh.Lib.Queue
import Edgessh.Russh.Event

/-!
# The reader of a channel

`channels/io/rx.rs`: the messages of a channel are read as a stream of bytes, those of one
extension code only. The reader keeps a message that it has not given out in full, with the
position it has reached. A read that completes without a byte means the end of the stream.
-/

namespace Edgessh.Russh
open Edgessh.Run Edgessh.Queue

/-- `ChannelRx`. -/
structure ChannelRx where
  receiver : Receiver ChannelMsg := {}
  buffer : Option (ChannelMsg × Nat) := none
  ext : Option Nat
  deriving DecidableEq, Repr

namespace ChannelRx

/-- The message that `poll_read` looks at: the one it has kept or the next one. -/
def takeBuffer (this : ChannelRx) : Poll (Option (ChannelMsg × Nat)) × ChannelRx :=
  match this.buffer with
  | some msg => (.ready (some msg), { this with buffer := none })
  | none =>
    match this.receiver.pollRecv with
    | (.ready (some msg), receiver) => (.ready (some (msg, 0)), { this with receiver })
    | (.ready none, receiver) => (.ready none, { this with receiver })
    | (.pending, receiver) => (.pending, { this with receiver })

/-- Give out what fits of a message. -/
def putSlice (remaining : Nat) (msg : ChannelMsg) (data : Bytes) (idx : Nat) (this : ChannelRx) :
    Poll Bytes × ChannelRx :=
  let readable := min remaining (data.length - idx)
  (.ready ((data.drop idx).take readable),
    if idx + readable ≠ data.length then { this with buffer := some (msg, idx + readable) }
    else this)

/-- `poll_read` into a buffer that has `remaining` bytes left, with what is put into it. -/
def pollRead (remaining : Nat) (this : ChannelRx) : Poll Bytes × ChannelRx :=
  match this.takeBuffer with
  | (.pending, this) => (.pending, this)
  | (.ready none, this) => (.ready [], this)
  | (.ready (some (msg, idx)), this) =>
    match msg, this.ext with
    | .data data, none => this.putSlice remaining msg data idx
    | .extendedData data ext, some target =>
      if ext = target then this.putSlice remaining msg data idx else (.pending, this)
    | .eof, _ => (.ready [], { this with receiver := this.receiver.close })
    -- the message is dropped, and the reader is woken at once
    | _, _ => (.pending, this)

/-- The payload that a message has for the reader. -/
def payload (ext : Option Nat) : ChannelMsg → Option Bytes
  | .data data => if ext = none then some data else none
  | .extendedData data code => if ext = some code then some data else none
  | _ => none

/-- What the reader of `ext` is to get from the messages: their payloads up to the first
`Eof`. -/
def expected (ext : Option Nat) : List ChannelMsg → Bytes
  | [] => []
  | .eof :: _ => []
  | msg :: msgs => (payload ext msg).getD [] ++ expected ext msgs

theorem expected_cons {ext : Option Nat} {msg : ChannelMsg} (h : msg ≠ .eof)
    (msgs : List ChannelMsg) :
    expected ext (msg :: msgs) = (payload ext msg).getD [] ++ expected ext msgs := by
  cases msg <;> first | rfl | exact absurd rfl h

theorem expected_append {ext : Option Nat} {msgs : List ChannelMsg} (h : .eof ∉ msgs)
    (msgs' : List ChannelMsg) :
    expected ext (msgs ++ msgs') = expected ext msgs ++ expected ext msgs' := by
  induction msgs with
  | nil => rfl
  | cons msg msgs ih =>
    have hmsg : msg ≠ .eof := fun heq => h (heq ▸ List.mem_cons_self)
    have hmsgs : .eof ∉ msgs := fun hmem => h (List.mem_cons_of_mem msg hmem)
    rw [List.cons_append, expected_cons hmsg, expected_cons hmsg, ih hmsgs, List.append_assoc]

/-- Nothing is expected after an `Eof`. -/
theorem expected_append_of_mem {ext : Option Nat} {msgs : List ChannelMsg} (h : .eof ∈ msgs)
    (msgs' : List ChannelMsg) : expected ext (msgs ++ msgs') = expected ext msgs := by
  induction msgs with
  | nil => cases h
  | cons msg msgs ih =>
    by_cases hmsg : msg = .eof
    · rw [hmsg]
      rfl
    · rcases List.mem_cons.mp h with heq | h
      · exact absurd heq.symm hmsg
      · rw [List.cons_append, expected_cons hmsg, expected_cons hmsg, ih h]

/-- The message that the next poll looks at, with the position in it. -/
def next? (this : ChannelRx) : Option (ChannelMsg × Nat) :=
  this.buffer.or (this.receiver.items.head?.map fun msg => (msg, 0))

/-- The state in which that message is looked at. -/
def afterTake (this : ChannelRx) : ChannelRx :=
  match this.buffer with
  | some _ => { this with buffer := none }
  | none => { this with receiver := { this.receiver with items := this.receiver.items.tail } }

theorem takeBuffer_of_next {this : ChannelRx} {msg : ChannelMsg} {idx : Nat}
    (h : this.next? = some (msg, idx)) :
    this.takeBuffer = (.ready (some (msg, idx)), this.afterTake) := by
  unfold takeBuffer afterTake
  rcases hbuffer : this.buffer with _ | kept
  · rcases hitems : this.receiver.items with _ | ⟨m, ms⟩
    · simp [next?, hbuffer, hitems] at h
    · simp only [next?, hbuffer, hitems, List.head?_cons, Option.map_some, Option.none_or,
        Option.some.injEq, Prod.mk.injEq] at h
      obtain ⟨rfl, rfl⟩ := h
      simp [Receiver.pollRecv, hitems]
  · obtain rfl : kept = (msg, idx) := by simpa [next?, hbuffer] using h
    rfl

/-- A poll that looks at a payload gives out what fits of the rest of it. -/
theorem pollRead_of_payload {this : ChannelRx} {msg : ChannelMsg} {idx : Nat} {data : Bytes}
    (remaining : Nat) (h : this.next? = some (msg, idx))
    (hdata : payload this.ext msg = some data) :
    this.pollRead remaining = this.afterTake.putSlice remaining msg data idx := by
  have hext : this.afterTake.ext = this.ext := by
    unfold afterTake
    split <;> rfl
  rw [pollRead, takeBuffer_of_next h]
  cases msg with
  | data buf =>
    simp only [payload] at hdata
    split at hdata
    · next hnone =>
      cases hdata
      simp [hext, hnone]
    · cases hdata
  | extendedData buf code =>
    simp only [payload] at hdata
    split at hdata
    · next hsome =>
      cases hdata
      simp [hext, hsome]
    · cases hdata
  | _ => cases hdata

theorem pollRead_of_eof {this : ChannelRx} {idx : Nat} (remaining : Nat)
    (h : this.next? = some (.eof, idx)) :
    this.pollRead remaining =
      (.ready [], { this.afterTake with receiver := this.afterTake.receiver.close }) := by
  rw [pollRead, takeBuffer_of_next h]

/-- A message that has no payload for the reader is dropped. -/
theorem pollRead_of_other {this : ChannelRx} {msg : ChannelMsg} {idx : Nat} (remaining : Nat)
    (h : this.next? = some (msg, idx)) (hdata : payload this.ext msg = none)
    (heof : msg ≠ .eof) : this.pollRead remaining = (.pending, this.afterTake) := by
  have hext : this.afterTake.ext = this.ext := by
    unfold afterTake
    split <;> rfl
  rw [pollRead, takeBuffer_of_next h]
  cases msg with
  | data buf =>
    rcases hnone : this.ext with _ | target
    · simp [payload, hnone] at hdata
    · simp [hext, hnone]
  | extendedData buf code =>
    rcases hsome : this.ext with _ | target
    · simp [hext, hsome]
    · have hne : code ≠ target := by
        rintro rfl
        simp [payload, hsome] at hdata
      simp [hext, hsome, hne]
  | eof => exact absurd rfl heof
  | _ => rfl

theorem pollRead_of_none {this : ChannelRx} (remaining : Nat) (h : this.next? = none) :
    this.pollRead remaining =
      (if this.receiver.closed then .ready [] else .pending, this) := by
  obtain ⟨⟨items, closed⟩, buffer, ext⟩ := this
  rcases buffer with _ | kept
  · rcases items with _ | ⟨m, ms⟩
    · cases closed <;> rfl
    · simp [next?] at h
  · simp [next?] at h

end ChannelRx

/-- What happens to a reader: a message is sent to it, its senders are gone, it is polled. -/
inductive RxEvent where
  | send (msg : ChannelMsg)
  | closeSenders
  | pollRead (remaining : Nat)
  deriving DecidableEq, Repr

/-- A reader with its history: the messages it has taken off its queue and the bytes that it has
given out. -/
structure Reading where
  rx : ChannelRx
  taken : List ChannelMsg := []
  got : Bytes := []
  deriving DecidableEq, Repr

namespace Reading
open ChannelRx

/-- A new reader of the extension code `ext`. -/
def start (ext : Option Nat) : Reading := { rx := { ext } }

/-- What a poll takes off the queue. -/
def takes (s : Reading) : List ChannelMsg :=
  if s.rx.buffer = none then s.rx.receiver.items.head?.toList else []

/-- What a poll gives out. -/
def gives (remaining : Nat) (s : Reading) : Bytes :=
  match (s.rx.pollRead remaining).1 with
  | .ready b => b
  | .pending => []

/-- The state after a message has been sent. -/
def receive (msg : ChannelMsg) (s : Reading) : Reading :=
  { s with rx := { s.rx with receiver := s.rx.receiver.send msg } }

/-- The state after a poll. -/
def polled (remaining : Nat) (s : Reading) : Reading where
  rx := (s.rx.pollRead remaining).2
  taken := s.taken ++ s.takes
  got := s.got ++ s.gives remaining

def next (s : Reading) : RxEvent → Option Reading
  | .send msg => if s.rx.receiver.closed then none else some (s.receive msg)
  | .closeSenders => some { s with rx := { s.rx with receiver := s.rx.receiver.close } }
  | .pollRead remaining => some (s.polled remaining)

/-- All messages that have been sent to the reader. -/
def sent (s : Reading) : List ChannelMsg := s.taken ++ s.rx.receiver.items

/-- What is left of a message from a position on. -/
def rest (ext : Option Nat) : Option (ChannelMsg × Nat) → Bytes
  | some (msg, idx) => ((payload ext msg).getD []).drop idx
  | none => []

/-- The rest of the message that the reader has kept. -/
def kept (s : Reading) : Bytes := rest s.rx.ext s.rx.buffer

/-- What the reader still has to give out. -/
def unread (s : Reading) : Bytes :=
  if .eof ∈ s.taken then [] else s.kept ++ expected s.rx.ext s.rx.receiver.items

theorem unread_of_mem {s : Reading} (h : .eof ∈ s.taken) : s.unread = [] := if_pos h

theorem unread_of_not_mem {s : Reading} (h : .eof ∉ s.taken) :
    s.unread = s.kept ++ expected s.rx.ext s.rx.receiver.items := if_neg h

/-- The reader has come to the first `Eof`, or to the end of the channel. -/
def AtEnd (s : Reading) : Prop :=
  .eof ∈ s.taken ∨ s.rx.next? = some (.eof, 0) ∨
    (s.rx.next? = none ∧ s.rx.receiver.closed = true)

/-- What has been given out, and what is still to be given out, is what is expected from the
messages sent. -/
def InStep (s : Reading) : Prop := s.got ++ s.unread = expected s.rx.ext s.sent

/-- The step keeps to the stream, and a poll with room that completes without a byte does so at
the end. -/
def Faithful (s : Reading) (e : RxEvent) : Prop :=
  (∀ t, next s e = some t → t.InStep) ∧
    match e with
    | .pollRead remaining =>
      0 < remaining → (s.rx.pollRead remaining).1 = .ready [] → s.AtEnd
    | _ => True

/-- A poll with room does not meet a payload of which nothing is left before the `Eof`, nor one
of which something is left behind it. -/
def NextFits (s : Reading) : RxEvent → Prop
  | .pollRead remaining =>
    0 < remaining → ∀ msg idx data, s.rx.next? = some (msg, idx) →
      payload s.rx.ext msg = some data → (data.drop idx = [] ↔ .eof ∈ s.taken)
  | _ => True

/-- What holds in a run: the stream, and the reader has kept a message of which it has something
to give. -/
structure Inv (s : Reading) : Prop where
  inStep : s.InStep
  kept : ∀ msg idx, s.rx.buffer = some (msg, idx) →
    ∃ data, payload s.rx.ext msg = some data ∧ idx ≤ data.length

variable {s t : Reading} {msg : ChannelMsg} {idx remaining : Nat} {data : Bytes}

theorem afterTake_ext (rx : ChannelRx) : rx.afterTake.ext = rx.ext := by
  unfold afterTake
  split <;> rfl

theorem afterTake_buffer (rx : ChannelRx) : rx.afterTake.buffer = none := by
  unfold afterTake
  split
  · rfl
  · assumption

/-- Looking at a message moves it from the queue to the messages taken, unless it was kept. -/
theorem takes_append_afterTake (h : s.rx.next? = some (msg, idx)) :
    s.takes ++ s.rx.afterTake.receiver.items = s.rx.receiver.items := by
  unfold takes afterTake
  rcases hbuffer : s.rx.buffer with _ | kept
  · rcases hitems : s.rx.receiver.items with _ | ⟨m, ms⟩
    · simp [next?, hbuffer, hitems] at h
    · rfl
  · rfl

theorem mem_takes (h : s.rx.next? = some (msg, idx)) {m : ChannelMsg} (hm : m ∈ s.takes) :
    m = msg := by
  unfold takes at hm
  rcases hbuffer : s.rx.buffer with _ | kept
  · rcases hitems : s.rx.receiver.items with _ | ⟨m', ms⟩
    · simp [hbuffer, hitems] at hm
    · simp only [hbuffer, hitems, if_true, List.head?_cons, Option.toList_some,
        List.mem_singleton] at hm
      simp only [next?, hbuffer, hitems, Option.none_or, List.head?_cons, Option.map_some,
        Option.some.injEq, Prod.mk.injEq] at h
      exact hm.trans h.1
  · simp [hbuffer] at hm

/-- What is still to be given out starts with the rest of the message looked at. -/
theorem kept_append_expected (h : s.rx.next? = some (msg, idx)) (hmsg : msg ≠ .eof) :
    s.kept ++ expected s.rx.ext s.rx.receiver.items =
      ((payload s.rx.ext msg).getD []).drop idx ++
        expected s.rx.ext s.rx.afterTake.receiver.items := by
  unfold kept afterTake
  rcases hbuffer : s.rx.buffer with _ | kept
  · rcases hitems : s.rx.receiver.items with _ | ⟨m, ms⟩
    · simp [next?, hbuffer, hitems] at h
    · simp only [next?, hbuffer, hitems, Option.none_or, List.head?_cons, Option.map_some,
        Option.some.injEq, Prod.mk.injEq] at h
      obtain ⟨rfl, rfl⟩ := h
      rw [expected_cons hmsg]
      rfl
  · obtain rfl : kept = (msg, idx) := by simpa [next?, hbuffer] using h
    rfl

theorem idx_le_length (hs : s.Inv) (h : s.rx.next? = some (msg, idx))
    (hdata : payload s.rx.ext msg = some data) : idx ≤ data.length := by
  rcases hbuffer : s.rx.buffer with _ | kept
  · rcases hitems : s.rx.receiver.items with _ | ⟨m, ms⟩
    · simp [next?, hbuffer, hitems] at h
    · simp only [next?, hbuffer, hitems, Option.none_or, List.head?_cons, Option.map_some,
        Option.some.injEq, Prod.mk.injEq] at h
      omega
  · obtain rfl : kept = (msg, idx) := by simpa [next?, hbuffer] using h
    obtain ⟨data', hdata', hle⟩ := hs.kept msg idx hbuffer
    rw [hdata] at hdata'
    cases hdata'
    exact hle

/-- An `Eof` is looked at when it comes off the queue. -/
theorem takes_of_eof (hs : s.Inv) (h : s.rx.next? = some (.eof, idx)) :
    idx = 0 ∧ s.takes = [.eof] := by
  rcases hbuffer : s.rx.buffer with _ | kept
  · rcases hitems : s.rx.receiver.items with _ | ⟨m, ms⟩
    · simp [next?, hbuffer, hitems] at h
    · simp only [next?, hbuffer, hitems, Option.none_or, List.head?_cons, Option.map_some,
        Option.some.injEq, Prod.mk.injEq] at h
      obtain ⟨rfl, rfl⟩ := h
      simp [takes, hbuffer, hitems]
  · obtain rfl : kept = (.eof, idx) := by simpa [next?, hbuffer] using h
    obtain ⟨data, hdata, -⟩ := hs.kept .eof idx hbuffer
    cases hdata

/-- What a poll does with a payload. -/
structure Copied (remaining : Nat) (data : Bytes) (idx : Nat) (s : Reading) : Prop where
  ext : (s.polled remaining).rx.ext = s.rx.ext
  sent : (s.polled remaining).sent = s.sent
  got : (s.polled remaining).got = s.got ++ (data.drop idx).take remaining
  kept : (s.polled remaining).kept = (data.drop idx).drop remaining
  items : (s.polled remaining).rx.receiver.items = s.rx.afterTake.receiver.items
  eof : .eof ∈ (s.polled remaining).taken ↔ .eof ∈ s.taken
  ready : (s.rx.pollRead remaining).1 = .ready ((data.drop idx).take remaining)
  wf : ∀ msg idx, (s.polled remaining).rx.buffer = some (msg, idx) →
    ∃ data, payload s.rx.ext msg = some data ∧ idx ≤ data.length

theorem copied (hs : s.Inv) (h : s.rx.next? = some (msg, idx))
    (hdata : payload s.rx.ext msg = some data) : Copied remaining data idx s := by
  have hpoll := pollRead_of_payload remaining h hdata
  have hle := idx_le_length hs h hdata
  have htake : (data.drop idx).take (min remaining (data.length - idx)) =
      (data.drop idx).take remaining := by
    rw [← List.length_drop, List.take_eq_take_iff]
    omega
  have hready : (s.rx.pollRead remaining).1 = .ready ((data.drop idx).take remaining) := by
    rw [hpoll]
    simp only [putSlice]
    rw [htake]
  have hext : (s.rx.pollRead remaining).2.ext = s.rx.ext := by
    rw [hpoll]
    simp only [putSlice]
    split <;> exact afterTake_ext s.rx
  have hitems : (s.rx.pollRead remaining).2.receiver.items = s.rx.afterTake.receiver.items := by
    rw [hpoll]
    simp only [putSlice]
    split <;> rfl
  refine ⟨hext, ?_, ?_, ?_, hitems, ?_, hready, ?_⟩
  · show s.taken ++ s.takes ++ (s.rx.pollRead remaining).2.receiver.items = s.sent
    rw [hitems, List.append_assoc, takes_append_afterTake h]
    rfl
  · show s.got ++ s.gives remaining = s.got ++ (data.drop idx).take remaining
    rw [gives, hready]
  · show rest (s.rx.pollRead remaining).2.ext (s.rx.pollRead remaining).2.buffer = _
    rw [hext, hpoll]
    simp only [putSlice]
    by_cases hend : idx + min remaining (data.length - idx) ≠ data.length
    · rw [if_pos hend]
      simp only [rest, hdata, Option.getD_some, List.drop_drop]
      congr 1
      omega
    · rw [if_neg hend, afterTake_buffer, List.drop_drop]
      show [] = _
      symm
      apply List.drop_eq_nil_of_le
      omega
  · show .eof ∈ s.taken ++ s.takes ↔ .eof ∈ s.taken
    rw [List.mem_append, or_iff_left]
    intro heof
    have := mem_takes h heof
    rw [← this] at hdata
    cases hdata
  · show ∀ msg idx, (s.rx.pollRead remaining).2.buffer = some (msg, idx) → _
    rw [hpoll]
    simp only [putSlice]
    intro msg' idx' hkept
    split at hkept
    · cases hkept
      exact ⟨data, hdata, by omega⟩
    · rw [afterTake_buffer] at hkept
      cases hkept

/-- A poll that looks at no payload gives nothing out and keeps to the stream. -/
structure Passed (remaining : Nat) (s : Reading) : Prop where
  ext : (s.polled remaining).rx.ext = s.rx.ext
  buffer : (s.polled remaining).rx.buffer = none
  sent : (s.polled remaining).sent = s.sent
  got : (s.polled remaining).got = s.got
  unread : (s.polled remaining).unread = s.unread
  ready : (s.rx.pollRead remaining).1 = .ready [] → s.AtEnd

theorem passed_eof (hs : s.Inv) (h : s.rx.next? = some (.eof, idx)) : Passed remaining s := by
  obtain ⟨rfl, htakes⟩ := takes_of_eof hs h
  have hpoll := pollRead_of_eof remaining h
  have hitems : (s.rx.pollRead remaining).2.receiver.items = s.rx.afterTake.receiver.items := by
    rw [hpoll]
    rfl
  have hqueue : s.rx.receiver.items = .eof :: s.rx.afterTake.receiver.items := by
    rw [← takes_append_afterTake h, htakes]
    rfl
  have hgives : s.gives remaining = [] := by
    rw [gives, hpoll]
  have hbuffer : s.rx.buffer = none := by
    rcases hb : s.rx.buffer with _ | kept
    · rfl
    · simp [takes, hb] at htakes
  refine ⟨?_, ?_, ?_, ?_, ?_, fun _ => .inr (.inl h)⟩
  · show (s.rx.pollRead remaining).2.ext = s.rx.ext
    rw [hpoll]
    exact afterTake_ext s.rx
  · show (s.rx.pollRead remaining).2.buffer = none
    rw [hpoll]
    exact afterTake_buffer s.rx
  · show s.taken ++ s.takes ++ (s.rx.pollRead remaining).2.receiver.items = s.sent
    rw [hitems, List.append_assoc, takes_append_afterTake h]
    rfl
  · show s.got ++ s.gives remaining = s.got
    rw [hgives, List.append_nil]
  · have hmem : .eof ∈ (s.polled remaining).taken := by
      show .eof ∈ s.taken ++ s.takes
      rw [htakes]
      exact List.mem_append_right _ List.mem_cons_self
    rw [unread_of_mem hmem]
    by_cases heof : .eof ∈ s.taken
    · rw [unread_of_mem heof]
    · rw [unread_of_not_mem heof, hqueue, kept, hbuffer]
      rfl

theorem passed_other (h : s.rx.next? = some (msg, idx)) (hdata : payload s.rx.ext msg = none)
    (hmsg : msg ≠ .eof) : Passed remaining s := by
  have hpoll := pollRead_of_other remaining h hdata hmsg
  have hgives : s.gives remaining = [] := by
    rw [gives, hpoll]
  refine ⟨?_, ?_, ?_, ?_, ?_, ?_⟩
  · show (s.rx.pollRead remaining).2.ext = s.rx.ext
    rw [hpoll]
    exact afterTake_ext s.rx
  · show (s.rx.pollRead remaining).2.buffer = none
    rw [hpoll]
    exact afterTake_buffer s.rx
  · show s.taken ++ s.takes ++ (s.rx.pollRead remaining).2.receiver.items = s.sent
    rw [hpoll, List.append_assoc, takes_append_afterTake h]
    rfl
  · show s.got ++ s.gives remaining = s.got
    rw [hgives, List.append_nil]
  · have hmem : .eof ∈ (s.polled remaining).taken ↔ .eof ∈ s.taken := by
      show .eof ∈ s.taken ++ s.takes ↔ .eof ∈ s.taken
      rw [List.mem_append, or_iff_left]
      exact fun heof => hmsg (mem_takes h heof).symm
    have hrest : (s.polled remaining).kept ++
        expected (s.polled remaining).rx.ext (s.polled remaining).rx.receiver.items =
          s.kept ++ expected s.rx.ext s.rx.receiver.items := by
      rw [kept_append_expected h hmsg, hdata]
      show rest (s.rx.pollRead remaining).2.ext (s.rx.pollRead remaining).2.buffer ++
        expected (s.rx.pollRead remaining).2.ext (s.rx.pollRead remaining).2.receiver.items = _
      rw [hpoll, afterTake_buffer, afterTake_ext]
      simp [rest]
    rw [unread, unread, hrest]
    simp only [hmem]
  · rw [hpoll]
    rintro ⟨⟩

theorem passed_none (h : s.rx.next? = none) : Passed remaining s := by
  have hpoll := pollRead_of_none remaining h
  have hbuffer : s.rx.buffer = none := by
    rcases hb : s.rx.buffer with _ | kept
    · rfl
    · simp [next?, hb] at h
  have hitems : s.rx.receiver.items = [] := by
    rcases hi : s.rx.receiver.items with _ | ⟨m, ms⟩
    · rfl
    · simp [next?, hbuffer, hi] at h
  have htakes : s.takes = [] := by
    simp [takes, hitems]
  have hgives : s.gives remaining = [] := by
    rw [gives, hpoll]
    cases s.rx.receiver.closed <;> rfl
  have hpolled : s.polled remaining = s := by
    unfold polled
    rw [hgives, htakes, List.append_nil, List.append_nil, hpoll]
  refine ⟨by rw [hpolled], by rw [hpolled, hbuffer], by rw [hpolled], by rw [hpolled],
    by rw [hpolled], ?_⟩
  intro hready
  refine .inr (.inr ⟨h, ?_⟩)
  cases hclosed : s.rx.receiver.closed
  · rw [hpoll, hclosed] at hready
    cases hready
  · rfl

/-- A poll looks at a payload, or it passes. -/
theorem poll_cases (hs : s.Inv) (remaining : Nat) :
    (∃ msg idx data, s.rx.next? = some (msg, idx) ∧ payload s.rx.ext msg = some data) ∨
      ((∀ msg idx, s.rx.next? = some (msg, idx) → payload s.rx.ext msg = none) ∧
        Passed remaining s) := by
  rcases h : s.rx.next? with _ | ⟨msg, idx⟩
  · exact .inr ⟨by rintro _ _ ⟨⟩, passed_none h⟩
  · rcases hdata : payload s.rx.ext msg with _ | data
    · right
      constructor
      · intro msg' idx' heq
        cases heq
        exact hdata
      · by_cases hmsg : msg = .eof
        · exact passed_eof hs (hmsg ▸ h)
        · exact passed_other h hdata hmsg
    · exact .inl ⟨msg, idx, data, rfl, hdata⟩

/-- A payload is given out in step exactly if nothing of it is given out behind an `Eof`. -/
theorem inStep_polled_iff (hs : s.Inv) (h : s.rx.next? = some (msg, idx))
    (hdata : payload s.rx.ext msg = some data) :
    (s.polled remaining).InStep ↔
      (.eof ∈ s.taken → (data.drop idx).take remaining = []) := by
  have hc : Copied remaining data idx s := copied hs h hdata
  have hin : s.got ++ s.unread = expected s.rx.ext s.sent := hs.inStep
  have hmsg : msg ≠ .eof := by
    rintro rfl
    cases hdata
  by_cases heof : .eof ∈ s.taken
  · have hmem : .eof ∈ (s.polled remaining).taken := hc.eof.mpr heof
    rw [unread_of_mem heof, List.append_nil] at hin
    rw [InStep, unread_of_mem hmem, hc.got, hc.ext, hc.sent, ← hin, List.append_nil]
    constructor
    · intro htake _
      exact List.append_right_eq_self.mp htake
    · intro htake
      rw [htake heof, List.append_nil]
  · have hmem : .eof ∉ (s.polled remaining).taken := fun hmem => heof (hc.eof.mp hmem)
    refine iff_of_true ?_ fun heof' => absurd heof' heof
    have hunread : s.unread = data.drop idx ++ expected s.rx.ext s.rx.afterTake.receiver.items := by
      rw [unread_of_not_mem heof, kept_append_expected h hmsg, hdata, Option.getD_some]
    rw [InStep, unread_of_not_mem hmem, hc.kept, hc.items, hc.ext, hc.got, hc.sent, ← hin, hunread,
      List.append_assoc, ← List.append_assoc (List.take _ _), List.take_append_drop]

theorem inv_polled (hs : s.Inv) (hfits : s.NextFits (.pollRead remaining)) :
    (s.polled remaining).Inv := by
  rcases poll_cases hs remaining with ⟨msg, idx, data, h, hdata⟩ | ⟨-, hp⟩
  · refine ⟨(inStep_polled_iff hs h hdata).mpr ?_, ?_⟩
    · intro heof
      rcases Nat.eq_zero_or_pos remaining with rfl | hpos
      · exact List.take_zero
      · rw [(hfits hpos msg idx data h hdata).mpr heof, List.take_nil]
    · have hc : Copied remaining data idx s := copied hs h hdata
      rw [hc.ext]
      exact hc.wf
  · refine ⟨?_, ?_⟩
    · have hin := hs.inStep
      unfold InStep at hin ⊢
      rw [hp.got, hp.unread, hp.ext, hp.sent]
      exact hin
    · rw [hp.buffer]
      rintro _ _ ⟨⟩

theorem inStep_receive (hs : s.InStep) (msg : ChannelMsg) : (s.receive msg).InStep := by
  have hin : s.got ++ s.unread = expected s.rx.ext (s.taken ++ s.rx.receiver.items) := hs
  show s.got ++ (s.receive msg).unread =
    expected s.rx.ext (s.taken ++ (s.rx.receiver.items ++ [msg]))
  by_cases heof : .eof ∈ s.taken
  · have hmem : .eof ∈ (s.receive msg).taken := heof
    rw [expected_append_of_mem heof, unread_of_mem heof] at hin
    rw [expected_append_of_mem heof, unread_of_mem hmem]
    exact hin
  · have hmem : .eof ∉ (s.receive msg).taken := heof
    rw [unread_of_not_mem heof, expected_append heof] at hin
    rw [unread_of_not_mem hmem, expected_append heof]
    show s.got ++ (s.kept ++ expected s.rx.ext (s.rx.receiver.items ++ [msg])) = _
    by_cases hqueue : .eof ∈ s.rx.receiver.items
    · rw [expected_append_of_mem hqueue]
      exact hin
    · rw [expected_append hqueue, ← List.append_assoc s.kept, ← List.append_assoc s.got, hin,
        List.append_assoc]

theorem inv_next {e : RxEvent} (hs : s.Inv) (hfits : s.NextFits e) (ht : next s e = some t) :
    t.Inv := by
  cases e with
  | send msg =>
    simp only [next] at ht
    split at ht
    · cases ht
    · cases ht
      exact ⟨inStep_receive hs.inStep msg, hs.kept⟩
  | closeSenders =>
    cases ht
    exact ⟨hs.inStep, hs.kept⟩
  | pollRead remaining =>
    cases ht
    exact inv_polled hs hfits

/-- At a payload the reader is at its end only behind an `Eof`. -/
theorem atEnd_iff (h : s.rx.next? = some (msg, idx)) (hdata : payload s.rx.ext msg = some data) :
    s.AtEnd ↔ .eof ∈ s.taken := by
  constructor
  · rintro (heof | hnext | ⟨hnone, -⟩)
    · exact heof
    · rw [h] at hnext
      cases hnext
      cases hdata
    · rw [h] at hnone
      cases hnone
  · exact .inl

theorem faithful_iff_nextFits (hs : s.Inv) (e : RxEvent) : s.Faithful e ↔ s.NextFits e := by
  cases e with
  | send msg =>
    refine iff_of_true ⟨?_, trivial⟩ trivial
    intro t ht
    exact (inv_next hs (e := .send msg) trivial ht).inStep
  | closeSenders =>
    refine iff_of_true ⟨?_, trivial⟩ trivial
    intro t ht
    exact (inv_next hs (e := .closeSenders) trivial ht).inStep
  | pollRead remaining =>
    rcases poll_cases hs remaining with ⟨msg, idx, data, h, hdata⟩ | ⟨hnone, hp⟩
    · have hc : Copied remaining data idx s := copied hs h hdata
      constructor
      · rintro ⟨hstep, hend⟩ hpos msg' idx' data' h' hdata'
        rw [h] at h'
        cases h'
        rw [hdata] at hdata'
        cases hdata'
        have hstep := (inStep_polled_iff hs h hdata).mp (hstep _ rfl)
        constructor
        · intro hrest
          apply (atEnd_iff h hdata).mp
          apply hend hpos
          rw [hc.ready, hrest, List.take_nil]
        · intro heof
          rcases List.take_eq_nil_iff.mp (hstep heof) with hzero | hrest
          · omega
          · exact hrest
      · intro hfits
        constructor
        · intro t ht
          exact (inv_next hs hfits ht).inStep
        · intro hpos hready
          rw [hc.ready] at hready
          rcases List.take_eq_nil_iff.mp (Poll.ready.inj hready) with hzero | hrest
          · omega
          · exact (atEnd_iff h hdata).mpr ((hfits hpos msg idx data h hdata).mp hrest)
    · have hfits : s.NextFits (.pollRead remaining) := by
        intro _ msg idx data h hdata
        rw [hnone msg idx h] at hdata
        cases hdata
      refine iff_of_true ⟨?_, fun _ => hp.ready⟩ hfits
      intro t ht
      exact (inv_next hs hfits ht).inStep

theorem inv_start (ext : Option Nat) : (start ext).Inv :=
  ⟨rfl, by rintro _ _ ⟨⟩⟩

/-- A channel is read faithfully in exactly the runs in which no poll meets an empty payload
before the `Eof` or data behind it. -/
theorem channel_faithful_iff (ext : Option Nat) (events : List RxEvent) :
    Along next Faithful (start ext) events ↔ Along next NextFits (start ext) events :=
  along_iff_of_invariant (fun _ _ _ hs hfits ht => inv_next hs hfits ht)
    (fun _ e hs => faithful_iff_nextFits hs e) (inv_start ext)

/-- An empty data message is taken for the end of the channel. -/
theorem channel_faithful_fails :
    ¬Along next Faithful (start none)
      [.send (.data []), .send (.data [104, 105]), .pollRead 4] := by
  intro h
  have hread := (h.2 _ rfl).2 _ rfl
  have hend := hread.1.2 (by decide) rfl
  rcases hend with heof | hnext | ⟨hnone, -⟩
  · cases heof
  · cases hnext
  · cases hnone

end Reading

end Edgessh.Russh
