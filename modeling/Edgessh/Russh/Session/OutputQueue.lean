import Edgessh.Russh.Session.Step

/-!
# The output queue

`push_packet!` appends a packet to the buffer `write` behind a length that it fills in afterwards,
and `Encrypted::flush` walks over the buffer with `write_cursor`. The buffer holds the packets that
wait, each behind its length.
-/

namespace Edgessh.Russh

/-- `write` and `write_cursor` of `Encrypted`. -/
structure OutputQueue where
  write : Bytes
  writeCursor : Nat

/-- Why a flush stops: an error of the writer, or an index outside the buffer. -/
inductive FlushError (ε : Type) where
  | writer (e : ε)
  | outOfBounds

/-- `BigEndian::write_u32(&mut buf[i0..], n)` -/
def writeU32At (i0 n : Nat) (buf : Bytes) : Bytes :=
  buf.take i0 ++ encodeU32 n ++ buf.drop (i0 + 4)

/-- `push_packet!`, with what writes the packet. -/
def pushPacket (x : Bytes → Bytes) (buffer : Bytes) : Bytes :=
  let i0 := buffer.length
  let buffer := x (buffer ++ [0, 0, 0, 0])
  let i1 := buffer.length
  writeU32At i0 (i1 - i0 - 4) buffer

/-- What writes a packet: it appends the payload, which fits its length field. -/
structure Append where
  run : Bytes → Bytes
  payload : Bytes
  appends : ∀ buffer, run buffer = buffer ++ payload
  fits : payload.length < 2 ^ 32

namespace OutputQueue

variable {ε W : Type} (packetRaw : Bytes → W → EStateM.Result ε W Unit)

/-- The loop of `flush`; the cursor moves on once the writer has taken the packet. -/
def flushLoop (write : Bytes) (cursor : Nat) (w : W) :
    EStateM.Result (FlushError ε) (Nat × W) Unit :=
  if _h : cursor < write.length then
    match decodeU32 (write.drop cursor) with
    | .error _ => .error .outOfBounds (cursor, w)
    | .ok (len, rest) =>
      if len ≤ rest.length then
        match packetRaw (rest.take len) w with
        | .ok () w => flushLoop write (cursor + 4 + len) w
        | .error e w => .error (.writer e) (cursor, w)
      else .error .outOfBounds (cursor, w)
  else .ok () (cursor, w)
termination_by write.length - cursor

/-- `Encrypted::flush`, as far as it writes. -/
def flush : EStateM (FlushError ε) (OutputQueue × W) Unit := fun (q, w) =>
  match flushLoop packetRaw q.write q.writeCursor w with
  | .ok () (cursor, w) =>
    if q.write.length ≤ cursor then .ok () (⟨[], 0⟩, w) else .ok () (⟨q.write, cursor⟩, w)
  | .error e (cursor, w) => .error e (⟨q.write, cursor⟩, w)

/-- What is done with the queue. -/
inductive Op where
  | push (append : Append)
  | flush

/-- One operation. -/
def step : Op → EStateM (FlushError ε) (OutputQueue × W) Unit
  | .push append => modify fun (q, w) => ({ q with write := pushPacket append.run q.write }, w)
  | .flush => flush packetRaw

/-- The operations, one after the other, up to an error. -/
def run (ops : List Op) : EStateM (FlushError ε) (OutputQueue × W) Unit :=
  ops.forM (step packetRaw)

/-- The payloads that are pushed. -/
def pushed : List Op → List Bytes
  | [] => []
  | .push append :: ops => append.payload :: pushed ops
  | .flush :: ops => pushed ops

/-- The writer takes the payloads one after the other, whole. -/
def handOver : List Bytes → W → EStateM.Result ε W Unit
  | [], w => .ok () w
  | p :: ps, w =>
    match packetRaw p w with
    | .ok () w => handOver ps w
    | .error e w => .error e w

/-- The payloads wait in the buffer, each behind its length. -/
structure Holds (q : OutputQueue) (waiting : List Bytes) : Prop where
  write : q.write = waiting.flatMap encodeBytes
  cursor : q.writeCursor = 0
  fits : ∀ p ∈ waiting, p.length < 2 ^ 32

/-- A flush after any operations hands over what has been pushed, and leaves the queue empty; it
fails only where the writer does. -/
structure HandsOver (ops : List Op) (w : W) : Prop where
  ok : ∀ s, run packetRaw (ops ++ [.flush]) (⟨[], 0⟩, w) = .ok () s →
    s.1 = ⟨[], 0⟩ ∧ handOver packetRaw (pushed ops) w = .ok () s.2
  error : ∀ e s, run packetRaw (ops ++ [.flush]) (⟨[], 0⟩, w) = .error e s →
    ∃ e', e = .writer e' ∧ handOver packetRaw (pushed ops) w = .error e' s.2

section Push

theorem pushPacket_append (append : Append) (buffer : Bytes) :
    pushPacket append.run buffer = buffer ++ encodeBytes append.payload := by
  have hlength : (buffer ++ [0, 0, 0, 0] ++ append.payload).length - buffer.length - 4 =
      append.payload.length := by
    simp only [List.length_append, List.length_cons, List.length_nil]
    omega
  rw [pushPacket, append.appends]
  simp only [hlength]
  rw [writeU32At, List.append_assoc buffer, List.take_left, encodeBytes, List.append_assoc]
  congr 2
  rw [← List.append_assoc, List.drop_left' (by simp)]

/-- What is pushed waits behind the others. -/
theorem Holds.push {q : OutputQueue} {waiting : List Bytes} (h : q.Holds waiting)
    (append : Append) :
    Holds { q with write := pushPacket append.run q.write } (waiting ++ [append.payload]) := by
  constructor
  · show pushPacket append.run q.write = _
    rw [pushPacket_append, h.write, List.flatMap_append, List.flatMap_singleton]
  · exact h.cursor
  · intro p hp
    rcases List.mem_append.mp hp with hp | hp
    · exact h.fits p hp
    · rw [List.mem_singleton.mp hp]
      exact append.fits

end Push

section Flush

/-- The step of the loop at a packet. -/
theorem flushLoop_cons {write front rest p : Bytes}
    (hwrite : write = front ++ (encodeBytes p ++ rest))
    (hp : p.length < 2 ^ 32) (w : W) :
    flushLoop packetRaw write front.length w =
      match packetRaw p w with
      | .ok () w => flushLoop packetRaw write (front ++ encodeBytes p).length w
      | .error e w => .error (.writer e) (front.length, w) := by
  have hlt : front.length < write.length := by
    rw [hwrite, List.length_append, List.length_append, encodeBytes, List.length_append,
      encodeU32_length]
    omega
  have hdecode : decodeU32 (write.drop front.length) = .ok (p.length, p ++ rest) := by
    rw [hwrite, List.drop_left, encodeBytes, List.append_assoc, decodeU32_encodeU32,
      Nat.mod_eq_of_lt hp]
  have hroom : p.length ≤ (p ++ rest).length := by
    rw [List.length_append]
    omega
  have hnext : front.length + 4 + p.length = (front ++ encodeBytes p).length := by
    rw [List.length_append, encodeBytes, List.length_append, encodeU32_length]
    omega
  rw [flushLoop, dif_pos hlt, hdecode]
  show (if p.length ≤ (p ++ rest).length then _ else _) = _
  rw [if_pos hroom, List.take_left, hnext]

/-- From a packet on, the loop hands over the packets that are left. -/
theorem flushLoop_handOver {write front : Bytes} {waiting : List Bytes}
    (hwrite : write = front ++ waiting.flatMap encodeBytes)
    (hfits : ∀ p ∈ waiting, p.length < 2 ^ 32) (w : W) :
    match handOver packetRaw waiting w with
    | .ok () w' => flushLoop packetRaw write front.length w = .ok () (write.length, w')
    | .error e w' => ∃ cursor,
        flushLoop packetRaw write front.length w = .error (.writer e) (cursor, w') := by
  induction waiting generalizing front w with
  | nil =>
    have hend : write = front := by rw [hwrite, List.flatMap_nil, List.append_nil]
    show flushLoop packetRaw write front.length w = .ok () (write.length, w)
    rw [flushLoop, hend, dif_neg (Nat.lt_irrefl _)]
  | cons p ps ih =>
    have hp : p.length < 2 ^ 32 := hfits p List.mem_cons_self
    have hps : ∀ q ∈ ps, q.length < 2 ^ 32 := fun q hq => hfits q (List.mem_cons_of_mem p hq)
    rw [List.flatMap_cons] at hwrite
    rw [handOver, flushLoop_cons packetRaw hwrite hp]
    cases packetRaw p w with
    | error e w' => exact ⟨front.length, rfl⟩
    | ok _ w' =>
      rw [← List.append_assoc] at hwrite
      exact ih hwrite hps w'

/-- A flush hands over what waits, and leaves nothing. -/
theorem flush_handOver {q : OutputQueue} {waiting : List Bytes} (h : q.Holds waiting) (w : W) :
    match handOver packetRaw waiting w with
    | .ok () w' => flush packetRaw (q, w) = .ok () (⟨[], 0⟩, w')
    | .error e w' => ∃ q', flush packetRaw (q, w) = .error (.writer e) (q', w') := by
  have hwrite : q.write = [] ++ waiting.flatMap encodeBytes := by rw [h.write, List.nil_append]
  have hloop := flushLoop_handOver packetRaw hwrite h.fits w
  rw [List.length_nil, ← h.cursor] at hloop
  cases hhand : handOver packetRaw waiting w with
  | ok _ w' =>
    rw [hhand] at hloop
    simp only [flush, hloop]
    rw [if_pos (Nat.le_refl _)]
  | error e w' =>
    rw [hhand] at hloop
    obtain ⟨cursor, hcursor⟩ := hloop
    exact ⟨⟨q.write, cursor⟩, by simp only [flush, hcursor]⟩

end Flush

section Run

theorem holds_nil : Holds ⟨[], 0⟩ [] := ⟨rfl, rfl, List.forall_mem_nil _⟩

theorem handOver_append (ps qs : List Bytes) (w : W) :
    handOver packetRaw (ps ++ qs) w =
      match handOver packetRaw ps w with
      | .ok () w' => handOver packetRaw qs w'
      | .error e w' => .error e w' := by
  induction ps generalizing w with
  | nil => rfl
  | cons p ps ih =>
    rw [List.cons_append, handOver, handOver]
    cases packetRaw p w with
    | error e w' => rfl
    | ok _ w' => exact ih w'

theorem run_cons (op : Op) (ops : List Op) (s : OutputQueue × W) :
    run packetRaw (op :: ops) s =
      match step packetRaw op s with
      | .ok () t => run packetRaw ops t
      | .error e t => .error e t := by
  show (step packetRaw op >>= fun _ => run packetRaw ops) s = _
  simp only [bind, EStateM.bind]
  cases step packetRaw op s with
  | ok _ t => rfl
  | error e t => rfl

/-- The run from a queue in which some payloads wait already. -/
theorem run_handOver {q : OutputQueue} {waiting : List Bytes} (h : q.Holds waiting)
    (ops : List Op) (w : W) :
    match handOver packetRaw (waiting ++ pushed ops) w with
    | .ok () w' => run packetRaw (ops ++ [.flush]) (q, w) = .ok () (⟨[], 0⟩, w')
    | .error e w' => ∃ q',
        run packetRaw (ops ++ [.flush]) (q, w) = .error (.writer e) (q', w') := by
  induction ops generalizing q waiting w with
  | nil =>
    have hflush := flush_handOver packetRaw h w
    rw [pushed, List.append_nil]
    have hrun : run packetRaw ([] ++ [.flush]) (q, w) = flush packetRaw (q, w) := by
      rw [List.nil_append, run_cons]
      show (match flush packetRaw (q, w) with
        | .ok () t => run packetRaw [] t
        | .error e t => .error e t) = _
      cases flush packetRaw (q, w) with
      | ok _ t => rfl
      | error e t => rfl
    rw [hrun]
    exact hflush
  | cons op ops ih =>
    rw [List.cons_append, run_cons]
    cases op with
    | push append =>
      rw [pushed, ← List.singleton_append, ← List.append_assoc]
      exact ih (h.push append) w
    | flush =>
      have hflush := flush_handOver packetRaw h w
      rw [pushed, handOver_append]
      have hstep : step packetRaw .flush (q, w) = flush packetRaw (q, w) := rfl
      rw [hstep]
      cases hhand : handOver packetRaw waiting w with
      | ok _ w' =>
        rw [hhand] at hflush
        rw [hflush]
        exact ih holds_nil w'
      | error e w' =>
        rw [hhand] at hflush
        obtain ⟨q', hflush⟩ := hflush
        rw [hflush]
        exact ⟨q', rfl⟩

/-- However packets are pushed and flushed, a flush hands over exactly what has been pushed. -/
theorem output_queue_framing (ops : List Op) (w : W) : HandsOver packetRaw ops w := by
  have hrun := run_handOver packetRaw holds_nil ops w
  rw [List.nil_append] at hrun
  cases hhand : handOver packetRaw (pushed ops) w with
  | ok _ w' =>
    rw [hhand] at hrun
    constructor
    · intro s hs
      rw [hrun] at hs
      cases hs
      exact ⟨rfl, hhand⟩
    · intro e s hs
      rw [hrun] at hs
      cases hs
  | error e w' =>
    rw [hhand] at hrun
    obtain ⟨q', hrun⟩ := hrun
    constructor
    · intro s hs
      rw [hrun] at hs
      cases hs
    · intro e' s hs
      rw [hrun] at hs
      cases hs
      exact ⟨e, rfl, hhand⟩

end Run

section Messages

/-- The writer of the session, given the payload of a packet. -/
def WritesMessages (P : Primitives)
    (raw : Bytes → PacketWriter → EStateM.Result Exn PacketWriter Unit) (ms : List Message) : Prop :=
  ∀ m ∈ ms, ∀ w, raw m.encode w =
    match w.packetRaw P m with
    | .ok w' => .ok () w'
    | .error e => .error e w

/-- The packets of a session wait in the buffer in this form, and a flush of the buffer seals the
same packets as one of the list. -/
theorem handOver_sealPackets {P : Primitives}
    {raw : Bytes → PacketWriter → EStateM.Result Exn PacketWriter Unit} {ms : List Message}
    (hraw : WritesMessages P raw ms) (w : PacketWriter) :
    handOver raw (ms.map Message.encode) w =
      match sealPackets P ms w with
      | (_, w', none) => .ok () w'
      | (_, w', some e) => .error e w' := by
  induction ms generalizing w with
  | nil => rfl
  | cons m ms ih =>
    have hm := hraw m List.mem_cons_self w
    rw [List.map_cons, handOver, hm, sealPackets]
    cases w.packetRaw P m with
    | error e => rfl
    | ok w' => exact ih (fun m' hm' => hraw m' (List.mem_cons_of_mem m hm')) w'

end Messages

end OutputQueue

end Edgessh.Russh
