import Edgessh.Lib.Run
import Edgessh.Lib.Stream
import Mathlib.Algebra.GroupWithZero.Nat
import Mathlib.Logic.Function.Basic

/-!
# Terminal output of a session object

`SshSessionDO` keeps the last output of the shell in `terminalBuffer` and sends every chunk to
the attached WebSockets. A new client first gets the buffer replayed. This is the part of the
object that `onData`, `handleWebSocket`, `webSocketClose` and `webSocketError` share, on an
object that is neither terminated nor cleaned up, where sending to an attached client succeeds.
-/

namespace Edgessh.Worker
open Edgessh.Run Edgessh.Stream

/-- A `Uint8Array`. -/
abbrev Chunk := List UInt8

abbrev ClientId := Nat

/-- The fields of `SshSessionDO` that carry terminal output. A JavaScript `Set` iterates in
insertion order and holds no element twice. -/
structure Terminal where
  clients : List ClientId
  terminalBuffer : List Chunk
  bufferSize : Nat
  deriving DecidableEq, Repr

/-- What is sent to which client. -/
abbrev Sends := List (ClientId × Chunk)

namespace Terminal

def init : Terminal := ⟨[], [], 0⟩

/-- The eviction loop of `bufferOutput`: the newest chunk always stays. -/
def evict (maxBuffer : Nat) : List Chunk → Nat → List Chunk × Nat
  | evicted :: next :: rest, size =>
    if maxBuffer < size then evict maxBuffer (next :: rest) (size - evicted.length)
    else (evicted :: next :: rest, size)
  | buffer, size => (buffer, size)

def bufferOutput (maxBuffer : Nat) (data : Chunk) (t : Terminal) : Terminal :=
  let (buffer, size) := evict maxBuffer (t.terminalBuffer ++ [data]) (t.bufferSize + data.length)
  { t with terminalBuffer := buffer, bufferSize := size }

/-- The callback `onData` of `handleConnect`. -/
def onData (maxBuffer : Nat) (data : Chunk) (t : Terminal) : Terminal × Sends :=
  (t.bufferOutput maxBuffer data, t.clients.map fun ws => (ws, data))

/-- `this.clients.add(ws)` -/
def add (ws : ClientId) (t : Terminal) : Terminal :=
  { t with clients := if ws ∈ t.clients then t.clients else t.clients ++ [ws] }

/-- `this.clients.delete(ws)` -/
def delete (ws : ClientId) (t : Terminal) : Terminal :=
  { t with clients := t.clients.filter (· ≠ ws) }

/-- `handleWebSocket`: the client is added and the buffer replayed to it. -/
def handleWebSocket (ws : ClientId) (t : Terminal) : Terminal × Sends :=
  (t.add ws, t.terminalBuffer.map fun chunk => (ws, chunk))

/-- What `terminate` and `cleanup` leave of the buffer. -/
def clearBuffer (t : Terminal) : Terminal := { t with terminalBuffer := [], bufferSize := 0 }

/-- `this.clients.clear()` -/
def clearClients (t : Terminal) : Terminal := { t with clients := [] }

/-- `bufferSize` counts the buffered bytes, within the budget unless one chunk alone exceeds it. -/
structure Sized (maxBuffer : Nat) (t : Terminal) : Prop where
  size : t.bufferSize = (t.terminalBuffer.map List.length).sum
  bounded : t.bufferSize ≤ maxBuffer ∨ t.terminalBuffer.length = 1

theorem evict_size (maxBuffer : Nat) (buffer : List Chunk) (size : Nat)
    (hsize : size = (buffer.map List.length).sum) :
    (evict maxBuffer buffer size).2 = ((evict maxBuffer buffer size).1.map List.length).sum := by
  induction buffer, size using evict.induct maxBuffer with
  | case1 evicted next rest size hover ih =>
    rw [evict, if_pos hover]
    apply ih
    simp only [List.map_cons, List.sum_cons] at hsize ⊢
    omega
  | case2 evicted next rest size hover =>
    rw [evict, if_neg hover]
    exact hsize
  | case3 buffer size hshort =>
    rw [evict]
    · exact hsize
    · exact hshort

theorem evict_bounded (maxBuffer : Nat) (buffer : List Chunk) (size : Nat) (hne : buffer ≠ []) :
    (evict maxBuffer buffer size).2 ≤ maxBuffer ∨ (evict maxBuffer buffer size).1.length = 1 := by
  induction buffer, size using evict.induct maxBuffer with
  | case1 evicted next rest size hover ih =>
    rw [evict, if_pos hover]
    exact ih (by simp)
  | case2 evicted next rest size hover =>
    rw [evict, if_neg hover]
    left
    exact Nat.le_of_not_lt hover
  | case3 buffer size hshort =>
    rw [evict]
    · right
      rcases buffer with _ | ⟨chunk, _ | ⟨next, rest⟩⟩
      · exact absurd rfl hne
      · rfl
      · exact (hshort chunk next rest rfl).elim
    · exact hshort

/-- Eviction drops chunks from the front only. -/
theorem evict_suffix (maxBuffer : Nat) (buffer : List Chunk) (size : Nat) :
    (evict maxBuffer buffer size).1 <:+ buffer := by
  induction buffer, size using evict.induct maxBuffer with
  | case1 evicted next rest size hover ih =>
    rw [evict, if_pos hover]
    exact ih.trans (List.suffix_cons evicted _)
  | case2 evicted next rest size hover =>
    rw [evict, if_neg hover]
  | case3 buffer size hshort =>
    rw [evict]
    exact hshort

theorem sized_bufferOutput (maxBuffer : Nat) (data : Chunk) {t : Terminal}
    (ht : t.Sized maxBuffer) : (t.bufferOutput maxBuffer data).Sized maxBuffer where
  size := by
    apply evict_size
    rw [ht.size]
    simp
  bounded := by
    apply evict_bounded
    simp

theorem bufferOutput_suffix (maxBuffer : Nat) (data : Chunk) {t : Terminal} {output : Chunk}
    (ht : t.terminalBuffer.flatten <:+ output) :
    (t.bufferOutput maxBuffer data).terminalBuffer.flatten <:+ output ++ data := by
  obtain ⟨old, hold⟩ := ht
  obtain ⟨dropped, hdropped⟩ :=
    evict_suffix maxBuffer (t.terminalBuffer ++ [data]) (t.bufferSize + data.length)
  refine ⟨old ++ dropped.flatten, ?_⟩
  calc old ++ dropped.flatten ++ (t.bufferOutput maxBuffer data).terminalBuffer.flatten
      = old ++ (dropped ++ (t.bufferOutput maxBuffer data).terminalBuffer).flatten := by
        rw [List.flatten_append, List.append_assoc]
    _ = old ++ (t.terminalBuffer ++ [data]).flatten := by
        rw [← hdropped]
        rfl
    _ = output ++ data := by
        rw [← hold]
        simp

theorem mem_add {ws ws' : ClientId} {t : Terminal} :
    ws' ∈ (t.add ws).clients ↔ ws' = ws ∨ ws' ∈ t.clients := by
  unfold add
  by_cases hmem : ws ∈ t.clients
  · simp only [if_pos hmem]
    constructor
    · exact Or.inr
    · rintro (rfl | h)
      · exact hmem
      · exact h
  · simp only [if_neg hmem, List.mem_append, List.mem_singleton]
    exact Or.comm

theorem nodup_add {ws : ClientId} {t : Terminal} (ht : t.clients.Nodup) :
    (t.add ws).clients.Nodup := by
  unfold add
  by_cases hmem : ws ∈ t.clients
  · rwa [if_pos hmem]
  · rw [if_neg hmem]
    refine List.nodup_append.mpr ⟨ht, by simp, ?_⟩
    intro ws' hws' _ hws heq
    obtain rfl := List.mem_singleton.mp hws
    exact hmem (heq ▸ hws')

theorem mem_delete {ws ws' : ClientId} {t : Terminal} :
    ws' ∈ (t.delete ws).clients ↔ ws' ∈ t.clients ∧ ws' ≠ ws := by
  simp [delete]

/-- What a client has been sent since it attached. -/
structure Viewer where
  /-- the length of the output when it attached -/
  joinedAt : Nat
  /-- the buffer when it attached -/
  replay : List Chunk
  received : List Chunk
  /-- the length of the output when it detached -/
  leftAt : Option Nat
  deriving DecidableEq, Repr

structure State where
  terminal : Terminal
  /-- all output so far -/
  output : List UInt8
  viewers : ClientId → Option Viewer

def State.init : State := ⟨Terminal.init, [], fun _ => none⟩

/-- The chunks of `sends` that go to the client `ws`, in order. -/
def sentTo (ws : ClientId) (sends : Sends) : List Chunk :=
  (sends.filter fun p => p.1 = ws).map Prod.snd

def Viewer.receive (chunks : List Chunk) (v : Viewer) : Viewer :=
  { v with received := v.received ++ chunks }

def Viewer.leave (n : Nat) (v : Viewer) : Viewer :=
  { v with leftAt := v.leftAt.or (some n) }

/-- Every send succeeds. -/
def State.deliver (sends : Sends) (s : State) : State :=
  { s with viewers := fun ws => (s.viewers ws).map (Viewer.receive (sentTo ws sends)) }

inductive Label where
  /-- the shell has written -/
  | data (chunk : Chunk)
  /-- a WebSocket request -/
  | attach (ws : ClientId)
  /-- `webSocketClose` or `webSocketError` -/
  | detach (ws : ClientId)
  deriving DecidableEq, Repr

/-- Each WebSocket request brings a new `WebSocketPair`. -/
def step (maxBuffer : Nat) (s : State) : Label → Option State
  | .data chunk =>
    let (terminal, sends) := s.terminal.onData maxBuffer chunk
    some (State.deliver sends { s with terminal := terminal, output := s.output ++ chunk })
  | .attach ws =>
    if s.viewers ws = none then
      let (terminal, sends) := s.terminal.handleWebSocket ws
      let viewer := ⟨s.output.length, s.terminal.terminalBuffer, [], none⟩
      some (State.deliver sends
        { s with terminal := terminal, viewers := Function.update s.viewers ws (some viewer) })
    else none
  | .detach ws =>
    some { s with
      terminal := s.terminal.delete ws
      viewers := Function.update s.viewers ws ((s.viewers ws).map (Viewer.leave s.output.length)) }

/-- Where in the output the replay of a client began. -/
def Viewer.start (v : Viewer) : Nat := v.joinedAt - v.replay.flatten.length

/-- Where in the output a client has arrived. -/
def Viewer.stop (output : List UInt8) (v : Viewer) : Nat := v.leftAt.getD output.length

/-- A client has been sent the buffer and after it the live chunks, and these are one segment
of the output: from where its replay began to the end, or to where it detached. -/
structure Viewer.Follows (output : List UInt8) (v : Viewer) : Prop where
  live : ∃ live, v.received = v.replay ++ live ∧
    live.flatten = segment output v.joinedAt (v.stop output)
  replay : v.replay.flatten = segment output v.start v.joinedAt
  joined_le : v.joinedAt ≤ v.stop output
  stop_le : v.stop output ≤ output.length

/-- The properties of the terminal on a live object. -/
structure Replays (maxBuffer : Nat) (s : State) : Prop where
  sized : s.terminal.Sized maxBuffer
  suffix : s.terminal.terminalBuffer.flatten <:+ s.output
  nodup : s.terminal.clients.Nodup
  attached : ∀ ws, ws ∈ s.terminal.clients ↔ ∃ v, s.viewers ws = some v ∧ v.leftAt = none
  follows : ∀ ws v, s.viewers ws = some v → v.Follows s.output

/-- Replay and live chunks leave no gap between them and repeat nothing. -/
theorem Viewer.Follows.received {output : List UInt8} {v : Viewer} (hv : v.Follows output) :
    v.received.flatten = segment output v.start (v.stop output) := by
  obtain ⟨live, hreceived, hlive⟩ := hv.live
  have hstart : v.start ≤ v.joinedAt := Nat.sub_le _ _
  rw [hreceived, List.flatten_append, hv.replay, hlive]
  exact segment_append_segment hstart hv.joined_le hv.stop_le

theorem replays_init (maxBuffer : Nat) : Replays maxBuffer State.init where
  sized := ⟨rfl, .inl (Nat.zero_le _)⟩
  suffix := List.suffix_rfl
  nodup := List.nodup_nil
  attached := by
    intro ws
    simp [State.init, init]
  follows := by
    intro ws v hv
    cases hv

/-- A broadcast reaches each attached client once. -/
theorem sentTo_broadcast {ws : ClientId} {clients : List ClientId} {chunk : Chunk}
    (hnodup : clients.Nodup) :
    sentTo ws (clients.map fun w => (w, chunk)) = if ws ∈ clients then [chunk] else [] := by
  induction clients with
  | nil => rfl
  | cons w rest ih =>
    obtain ⟨hw, hrest⟩ := List.nodup_cons.mp hnodup
    have hih := ih hrest
    unfold sentTo at hih ⊢
    by_cases hws : w = ws
    · subst hws
      rw [if_neg hw] at hih
      simp [hih]
    · simp [hws, hih, Ne.symm hws]

theorem sentTo_replay_self (ws : ClientId) (chunks : List Chunk) :
    sentTo ws (chunks.map fun chunk => (ws, chunk)) = chunks := by
  induction chunks with
  | nil => rfl
  | cons chunk rest ih =>
    unfold sentTo at ih ⊢
    simp [ih]

theorem sentTo_replay_of_ne {ws ws' : ClientId} (hne : ws' ≠ ws) (chunks : List Chunk) :
    sentTo ws' (chunks.map fun chunk => (ws, chunk)) = [] := by
  induction chunks with
  | nil => rfl
  | cons chunk rest ih =>
    unfold sentTo at ih ⊢
    simp [hne.symm, ih]

/-- An attached client follows the output when it is sent what is appended. -/
theorem follows_receive {output : List UInt8} {v : Viewer} (chunk : Chunk)
    (hv : v.Follows output) (hattached : v.leftAt = none) :
    (v.receive [chunk]).Follows (output ++ chunk) := by
  obtain ⟨live, hreceived, hlive⟩ := hv.live
  have hjoined : v.joinedAt ≤ output.length := hv.joined_le.trans hv.stop_le
  have hstop : v.stop output = output.length := by simp [Viewer.stop, hattached]
  have hstop' : (v.receive [chunk]).stop (output ++ chunk) = (output ++ chunk).length := by
    simp [Viewer.stop, Viewer.receive, hattached]
  refine { live := ⟨live ++ [chunk], ?_, ?_⟩, replay := ?_, joined_le := ?_, stop_le := ?_ }
  · show v.received ++ [chunk] = v.replay ++ (live ++ [chunk])
    rw [hreceived, List.append_assoc]
  · show (live ++ [chunk]).flatten = segment (output ++ chunk) v.joinedAt _
    rw [hstop', segment_append_end hjoined, ← hstop, ← hlive]
    simp
  · show v.replay.flatten = segment (output ++ chunk) v.start v.joinedAt
    rw [segment_append_of_le hjoined]
    exact hv.replay
  · rw [hstop', List.length_append]
    exact hjoined.trans (Nat.le_add_right _ _)
  · exact hstop'.le

/-- What a detached client holds stays a segment when the output grows. -/
theorem follows_of_left {output : List UInt8} {v : Viewer} (chunk : Chunk)
    (hv : v.Follows output) (hleft : v.leftAt ≠ none) :
    (v.receive []).Follows (output ++ chunk) := by
  obtain ⟨n, hn⟩ := Option.ne_none_iff_exists'.mp hleft
  obtain ⟨live, hreceived, hlive⟩ := hv.live
  have hstop : v.stop output = n := by simp [Viewer.stop, hn]
  have hstop' : (v.receive []).stop (output ++ chunk) = n := by
    simp [Viewer.stop, Viewer.receive, hn]
  have hle := hv.stop_le
  have hjoined := hv.joined_le
  rw [hstop] at hle hlive hjoined
  refine { live := ⟨live, ?_, ?_⟩, replay := ?_, joined_le := ?_, stop_le := ?_ }
  · show v.received ++ [] = v.replay ++ live
    rw [List.append_nil, hreceived]
  · show live.flatten = segment (output ++ chunk) v.joinedAt _
    rw [hstop', segment_append_of_le hle, hlive]
  · show v.replay.flatten = segment (output ++ chunk) v.start v.joinedAt
    rw [segment_append_of_le (hjoined.trans hle)]
    exact hv.replay
  · rw [hstop']
    exact hjoined
  · rw [hstop', List.length_append]
    omega

/-- A client that attaches is sent the buffer, a suffix of the output. -/
theorem follows_attach {output : List UInt8} {buffer : List Chunk}
    (hbuffer : buffer.flatten <:+ output) :
    (Viewer.receive buffer ⟨output.length, buffer, [], none⟩).Follows output where
  live := ⟨[], by simp [Viewer.receive], by simp [Viewer.receive, Viewer.stop]⟩
  replay := (segment_of_suffix hbuffer).symm
  joined_le := Nat.le_refl _
  stop_le := Nat.le_refl _

theorem follows_leave {output : List UInt8} {v : Viewer} (hv : v.Follows output) :
    (v.leave output.length).Follows output := by
  have hstop : (v.leave output.length).stop output = v.stop output := by
    cases hleft : v.leftAt <;> simp [Viewer.stop, Viewer.leave, hleft]
  refine { live := ?_, replay := hv.replay, joined_le := ?_, stop_le := ?_ }
  · rw [hstop]
    exact hv.live
  · rw [hstop]
    exact hv.joined_le
  · rw [hstop]
    exact hv.stop_le

theorem replays_data {maxBuffer : Nat} {s : State} (chunk : Chunk) (hs : Replays maxBuffer s) :
    Replays maxBuffer (State.deliver (s.terminal.onData maxBuffer chunk).2
      { s with
        terminal := (s.terminal.onData maxBuffer chunk).1
        output := s.output ++ chunk }) where
  sized := sized_bufferOutput maxBuffer chunk hs.sized
  suffix := bufferOutput_suffix maxBuffer chunk hs.suffix
  nodup := hs.nodup
  attached := by
    intro ws
    refine (hs.attached ws).trans ?_
    simp only [State.deliver, Option.map_eq_some_iff]
    constructor
    · rintro ⟨v, hv, hleft⟩
      exact ⟨_, ⟨v, hv, rfl⟩, hleft⟩
    · rintro ⟨_, ⟨v, hv, rfl⟩, hleft⟩
      exact ⟨v, hv, hleft⟩
  follows := by
    intro ws v hv
    simp only [State.deliver, Option.map_eq_some_iff] at hv
    obtain ⟨u, hu, rfl⟩ := hv
    have hfollows := hs.follows ws u hu
    simp only [onData, sentTo_broadcast hs.nodup]
    by_cases hleft : u.leftAt = none
    · rw [if_pos ((hs.attached ws).mpr ⟨u, hu, hleft⟩)]
      exact follows_receive chunk hfollows hleft
    · have hws : ws ∉ s.terminal.clients := by
        intro hws
        obtain ⟨u', hu', hleft'⟩ := (hs.attached ws).mp hws
        rw [hu] at hu'
        cases hu'
        exact hleft hleft'
      rw [if_neg hws]
      exact follows_of_left chunk hfollows hleft

theorem replays_attach {maxBuffer : Nat} {s : State} (ws : ClientId) (hs : Replays maxBuffer s) :
    Replays maxBuffer (State.deliver (s.terminal.handleWebSocket ws).2
      { s with
        terminal := (s.terminal.handleWebSocket ws).1
        viewers := Function.update s.viewers ws
          (some ⟨s.output.length, s.terminal.terminalBuffer, [], none⟩) }) where
  sized := ⟨hs.sized.size, hs.sized.bounded⟩
  suffix := hs.suffix
  nodup := nodup_add hs.nodup
  attached := by
    intro ws'
    refine mem_add.trans ?_
    by_cases hws : ws' = ws
    · subst hws
      simp [State.deliver, Viewer.receive]
    · rw [hs.attached ws']
      simp [State.deliver, hws, Viewer.receive]
  follows := by
    intro ws' v hv
    simp only [State.deliver, handleWebSocket, Option.map_eq_some_iff] at hv
    obtain ⟨u, hu, rfl⟩ := hv
    by_cases hws : ws' = ws
    · subst hws
      rw [Function.update_self] at hu
      cases hu
      rw [sentTo_replay_self]
      exact follows_attach hs.suffix
    · rw [Function.update_of_ne hws] at hu
      rw [sentTo_replay_of_ne hws]
      have hsame : u.receive [] = u := by simp [Viewer.receive]
      rw [hsame]
      exact hs.follows ws' u hu

theorem replays_detach {maxBuffer : Nat} {s : State} (ws : ClientId) (hs : Replays maxBuffer s) :
    Replays maxBuffer { s with
      terminal := s.terminal.delete ws
      viewers := Function.update s.viewers ws
        ((s.viewers ws).map (Viewer.leave s.output.length)) } where
  sized := ⟨hs.sized.size, hs.sized.bounded⟩
  suffix := hs.suffix
  nodup := hs.nodup.filter _
  attached := by
    intro ws'
    refine mem_delete.trans ?_
    by_cases hws : ws' = ws
    · subst hws
      simp [Viewer.leave]
    · rw [hs.attached ws']
      simp [hws]
  follows := by
    intro ws' v hv
    dsimp only at hv
    by_cases hws : ws' = ws
    · subst hws
      rw [Function.update_self, Option.map_eq_some_iff] at hv
      obtain ⟨u, hu, rfl⟩ := hv
      exact follows_leave (hs.follows ws' u hu)
    · rw [Function.update_of_ne hws] at hv
      exact hs.follows ws' v hv

theorem replays_step {maxBuffer : Nat} (s : State) (l : Label) (t : State)
    (hs : Replays maxBuffer s) (h : step maxBuffer s l = some t) : Replays maxBuffer t := by
  cases l with
  | data chunk =>
    obtain rfl := Option.some.inj h
    exact replays_data chunk hs
  | attach ws =>
    simp only [step, Option.ite_none_right_eq_some] at h
    obtain ⟨-, h⟩ := h
    obtain rfl := Option.some.inj h
    exact replays_attach ws hs
  | detach ws =>
    obtain rfl := Option.some.inj h
    exact replays_detach ws hs

/-- After every sequence of chunks, attaches and detaches the buffer is a sized suffix of the
output, and each client has received one segment of the output. -/
theorem terminal_replays (maxBuffer : Nat) (s : State)
    (h : Reaches (step maxBuffer) State.init s) :
    Replays maxBuffer s ∧ ∀ ws v, s.viewers ws = some v →
      v.received.flatten = segment s.output v.start (v.stop s.output) := by
  have hs := reaches_invariant replays_step (replays_init maxBuffer) h
  refine ⟨hs, ?_⟩
  intro ws v hv
  exact (hs.follows ws v hv).received

/-- The first client attaches before a chunk that evicts the first one, the second after it. -/
def evicting : List Label :=
  [.data [1, 2], .attach 0, .data [3, 4, 5], .attach 1, .detach 0, .data [6]]

theorem terminal_replays_evicting :
    ∃ s, run (step 4) State.init evicting = some s ∧
      s.terminal.terminalBuffer = [[3, 4, 5], [6]] ∧
      (s.viewers 0).map Viewer.received = some [[1, 2], [3, 4, 5]] ∧
      (s.viewers 1).map Viewer.received = some [[3, 4, 5], [6]] ∧
      Replays 4 s ∧ ∀ ws v, s.viewers ws = some v →
        v.received.flatten = segment s.output v.start (v.stop s.output) := by
  have hrun : (run (step 4) State.init evicting).map (fun s => (s.terminal.terminalBuffer,
      (s.viewers 0).map Viewer.received, (s.viewers 1).map Viewer.received)) =
      some ([[3, 4, 5], [6]], some [[1, 2], [3, 4, 5]], some [[3, 4, 5], [6]]) := by decide
  obtain ⟨s, hs, heq⟩ := Option.map_eq_some_iff.mp hrun
  obtain ⟨hbuffer, hviewers⟩ := Prod.mk.inj heq
  obtain ⟨hfirst, hsecond⟩ := Prod.mk.inj hviewers
  exact ⟨s, hs, hbuffer, hfirst, hsecond, terminal_replays 4 s ⟨evicting, hs⟩⟩

end Terminal

end Edgessh.Worker
