import Mathlib.Tactic.SplitIfs
import Edgessh.Russh.Encoding

/-!
# The identification line

`ssh_read.rs`: `read_ssh_id` reads into a buffer of 256 bytes until it finds the identification
line, and `poll_read` hands out what was read with it. A line that is not the identification is
discarded with everything that was read together with it.
-/

namespace Edgessh.Russh

/-- What the peer sends, in the pieces in which the transport hands it out. -/
structure Reads where
  chunks : List Bytes
  nonempty : ∀ c ∈ chunks, c ≠ []

namespace Reads

def stream (reads : Reads) : Bytes := reads.chunks.flatten

theorem nonempty_push (c : Bytes) (reads : Reads) :
    ∀ d ∈ (if c = [] then reads.chunks else c :: reads.chunks), d ≠ [] := by
  intro d hd
  by_cases hc : c = []
  · rw [if_pos hc] at hd
    exact reads.nonempty d hd
  · rw [if_neg hc] at hd
    rcases List.mem_cons.mp hd with rfl | hd
    · exact hc
    · exact reads.nonempty d hd

theorem nonempty_tail {c : Bytes} {cs : List Bytes} (h : ∀ d ∈ c :: cs, d ≠ []) :
    ∀ d ∈ cs, d ≠ [] := by
  intro d hd
  exact h d (List.mem_cons_of_mem c hd)

/-- A piece, unless it is empty, before the others. -/
def push (c : Bytes) (reads : Reads) : Reads :=
  ⟨if c = [] then reads.chunks else c :: reads.chunks, nonempty_push c reads⟩

theorem stream_push (c : Bytes) (reads : Reads) : (reads.push c).stream = c ++ reads.stream := by
  show (if c = [] then reads.chunks else c :: reads.chunks).flatten = c ++ reads.chunks.flatten
  by_cases hc : c = []
  · rw [if_pos hc, hc, List.nil_append]
  · rw [if_neg hc, List.flatten_cons]

/-- One read into a buffer that has room for `space` bytes; nothing is read at the end. -/
def read (space : Nat) : Reads → Bytes × Reads
  | ⟨[], h⟩ => ([], ⟨[], h⟩)
  | ⟨c :: cs, h⟩ => (c.take space, push (c.drop space) ⟨cs, nonempty_tail h⟩)

theorem read_append (space : Nat) (reads : Reads) :
    (reads.read space).1 ++ (reads.read space).2.stream = reads.stream := by
  obtain ⟨chunks, h⟩ := reads
  cases chunks with
  | nil => rfl
  | cons c cs =>
    simp only [read, stream_push, ← List.append_assoc, List.take_append_drop]
    rfl

theorem read_length_le (space : Nat) (reads : Reads) : (reads.read space).1.length ≤ space := by
  obtain ⟨chunks, h⟩ := reads
  cases chunks with
  | nil => exact Nat.zero_le _
  | cons c cs => exact List.length_take_le _ _

/-- Nothing is read at the end only, or without room. -/
theorem read_eq_nil {space : Nat} {reads : Reads} (h : (reads.read space).1 = []) :
    reads.stream = [] ∨ space = 0 := by
  obtain ⟨chunks, hchunks⟩ := reads
  cases chunks with
  | nil => exact .inl rfl
  | cons c cs =>
    right
    rcases List.take_eq_nil_iff.mp h with hspace | hc
    · exact hspace
    · exact absurd hc (hchunks c List.mem_cons_self)

theorem read_lt (space : Nat) (reads : Reads) (h : (reads.read space).1 ≠ []) :
    (reads.read space).2.stream.length < reads.stream.length := by
  have hlen := congrArg List.length (read_append space reads)
  have hpos := List.length_pos_iff.mpr h
  rw [List.length_append] at hlen
  omega

end Reads

/-- The size of the buffer. -/
def bufferSize : Nat := 256

/-- The buffer once the identification has been found: its first `total` bytes, how many of them
the line has, and the length of the identification. -/
structure ReadSshIdBuffer where
  buf : Bytes
  bytesRead : Nat
  sshidLen : Nat

def ReadSshIdBuffer.id (b : ReadSshIdBuffer) : Bytes := b.buf.take b.sshidLen

/-- The search for the end of a line from `i` on: the length of the line, and what it takes with
its end. A line feed at the very start is not found. -/
def scanLine : Bytes → Nat → Option (Nat × Nat)
  | a :: b :: rest, i =>
    if a = 13 ∧ b = 10 then some (i, i + 2)
    else if b = 10 then some (i + 1, i + 2)
    else scanLine (b :: rest) (i + 1)
  | _, _ => none

/-- A valid SSH protocol identifier. -/
def isIdentification (line : Bytes) : Bool :=
  8 ≤ line.length && validUtf8 line &&
    ((ascii "SSH-1.99-").isPrefixOf line || (ascii "SSH-2.0-").isPrefixOf line)

/-- `read_ssh_id`, with `buf` in the buffer. -/
def readSshId (buf : Bytes) (reads : Reads) : Except Error (ReadSshIdBuffer × Reads) :=
  let chunk := (reads.read (bufferSize - buf.length)).1
  let rest := (reads.read (bufferSize - buf.length)).2
  if chunk = [] then .error .disconnect
  else
    match scanLine (buf ++ chunk) 0 with
    | none => readSshId (buf ++ chunk) rest
    | some (i, bytesRead) =>
      if isIdentification ((buf ++ chunk).take i) then .ok (⟨buf ++ chunk, bytesRead, i⟩, rest)
      else readSshId [] rest
termination_by reads.stream.length
decreasing_by all_goals exact Reads.read_lt _ _ ‹_›

/-- The transport with what is left in the buffer. -/
structure SshRead where
  id : Option ReadSshIdBuffer
  r : Reads

namespace SshRead

/-- `poll_read` into a buffer that has room for `remaining` bytes. -/
def pollRead (remaining : Nat) (s : SshRead) : Bytes × SshRead :=
  match s.id with
  | some id =>
    if id.bytesRead < id.buf.length then
      let total := min id.buf.length (id.bytesRead + remaining)
      ((id.buf.take total).drop id.bytesRead, ⟨some { id with bytesRead := total }, s.r⟩)
    else ((s.r.read remaining).1, ⟨none, (s.r.read remaining).2⟩)
  | none => ((s.r.read remaining).1, ⟨none, (s.r.read remaining).2⟩)

/-- Reads into buffers of these sizes, one after the other. -/
def pollReads : List Nat → SshRead → Bytes
  | [], _ => []
  | n :: ns, s => (s.pollRead n).1 ++ pollReads ns (s.pollRead n).2

/-- What has not been handed out. -/
def pending (s : SshRead) : Bytes :=
  (match s.id with
    | some id => id.buf.drop id.bytesRead
    | none => []) ++ s.r.stream

end SshRead

section PollRead

namespace SshRead

/-- What is handed out was pending, and something is handed out as long as anything is. -/
theorem pollRead_append (remaining : Nat) (s : SshRead) :
    (s.pollRead remaining).1 ++ (s.pollRead remaining).2.pending = s.pending := by
  obtain ⟨id, r⟩ := s
  cases id with
  | none => exact r.read_append remaining
  | some id =>
    by_cases hleft : id.bytesRead < id.buf.length
    · simp only [pollRead, if_pos hleft, pending, ← List.append_assoc]
      congr 1
      generalize htotal : min id.buf.length (id.bytesRead + remaining) = total
      have hle : id.bytesRead ≤ total := by omega
      have hsplit := congrArg (List.drop id.bytesRead) (List.take_append_drop total id.buf)
      rwa [List.drop_append_of_le_length (by rw [List.length_take]; omega)] at hsplit
    · simp only [pollRead, if_neg hleft, pending]
      rw [List.drop_eq_nil_of_le (by omega), List.nil_append, List.nil_append, r.read_append]

theorem pollRead_ne_nil {remaining : Nat} {s : SshRead} (hpos : 0 < remaining)
    (h : s.pending ≠ []) : (s.pollRead remaining).1 ≠ [] := by
  obtain ⟨id, r⟩ := s
  have hread (hr : r.stream ≠ []) : (r.read remaining).1 ≠ [] := by
    intro hnil
    rcases Reads.read_eq_nil hnil with hend | hspace
    · exact hr hend
    · omega
  cases id with
  | none => exact hread (by simpa [pending] using h)
  | some id =>
    by_cases hleft : id.bytesRead < id.buf.length
    · simp only [pollRead, if_pos hleft]
      apply List.ne_nil_of_length_pos
      rw [List.length_drop, List.length_take]
      omega
    · have hnil : id.buf.drop id.bytesRead = [] := List.drop_eq_nil_of_le (by omega)
      simp only [pending, hnil, List.nil_append] at h
      simp only [pollRead, if_neg hleft]
      exact hread h

/-- The bytes that reading hands out: these, in this order, and all of them once there have been
reads enough. -/
def Delivers (s : SshRead) (bytes : Bytes) : Prop :=
  ∀ sizes : List Nat, (∀ n ∈ sizes, 0 < n) →
    s.pollReads sizes <+: bytes ∧ (bytes.length ≤ sizes.length → s.pollReads sizes = bytes)

theorem delivers_pending (s : SshRead) : s.Delivers s.pending := by
  intro sizes
  induction sizes generalizing s with
  | nil =>
    intro _
    refine ⟨List.nil_prefix, fun hlen => ?_⟩
    exact (List.eq_nil_of_length_eq_zero (Nat.le_zero.mp hlen)).symm
  | cons n ns ih =>
    intro hpos
    have happend := s.pollRead_append n
    obtain ⟨hpre, hall⟩ :=
      ih (s.pollRead n).2 fun m hm => hpos m (List.mem_cons_of_mem n hm)
    constructor
    · rw [← happend]
      exact (List.prefix_append_right_inj _).mpr hpre
    · intro hlen
      rw [← happend, pollReads]
      congr 1
      apply hall
      by_cases hnil : s.pending = []
      · rw [hnil] at happend
        rw [(List.append_eq_nil_iff.mp happend).2]
        exact Nat.zero_le _
      · have hne := List.length_pos_iff.mpr (pollRead_ne_nil (hpos n List.mem_cons_self) hnil)
        have hsum := congrArg List.length happend
        rw [List.length_append] at hsum
        rw [List.length_cons] at hlen
        omega

/-- Only one text is delivered. -/
theorem Delivers.eq_pending {s : SshRead} {bytes : Bytes} (h : s.Delivers bytes) :
    bytes = s.pending := by
  have hsizes : ∀ n ∈ List.replicate (max bytes.length s.pending.length) 1, 0 < n := by
    intro n hn
    rw [List.eq_of_mem_replicate hn]
    exact Nat.one_pos
  have hleft := (h _ hsizes).2 (by rw [List.length_replicate]; omega)
  have hright := (s.delivers_pending _ hsizes).2 (by rw [List.length_replicate]; omega)
  exact hleft.symm.trans hright

end SshRead

end PollRead

section Scan

theorem scanLine_cons (a b : UInt8) (rest : Bytes) (i : Nat) :
    scanLine (a :: b :: rest) i =
      if a = 13 ∧ b = 10 then some (i, i + 2)
      else if b = 10 then some (i + 1, i + 2)
      else scanLine (b :: rest) (i + 1) := by
  rw [scanLine]

/-- Where a line can end. -/
theorem scanLine_bounds {bytes : Bytes} {i l n : Nat} (h : scanLine bytes i = some (l, n)) :
    i ≤ l ∧ l < n ∧ i + 2 ≤ n ∧ n ≤ i + bytes.length := by
  induction bytes generalizing i with
  | nil => cases h
  | cons a bytes ih =>
    cases bytes with
    | nil => cases h
    | cons b rest =>
      rw [scanLine_cons] at h
      simp only [List.length_cons] at ih ⊢
      split_ifs at h
      · cases h
        omega
      · cases h
        omega
      · have := ih h
        omega

/-- The end of a line has two bytes at most. -/
theorem scanLine_le {bytes : Bytes} {i l n : Nat} (h : scanLine bytes i = some (l, n)) :
    n ≤ l + 2 := by
  induction bytes generalizing i with
  | nil => cases h
  | cons a bytes ih =>
    cases bytes with
    | nil => cases h
    | cons b rest =>
      rw [scanLine_cons] at h
      split_ifs at h
      · cases h
        omega
      · cases h
        omega
      · exact ih h

/-- A line that has been found is found whatever follows. -/
theorem scanLine_append {bytes : Bytes} {i : Nat} {p : Nat × Nat} (h : scanLine bytes i = some p)
    (more : Bytes) : scanLine (bytes ++ more) i = some p := by
  induction bytes generalizing i with
  | nil => cases h
  | cons a bytes ih =>
    cases bytes with
    | nil => cases h
    | cons b rest =>
      rw [scanLine_cons] at h
      rw [List.cons_append, List.cons_append, scanLine_cons]
      split_ifs at h ⊢
      · exact h
      · exact h
      · exact ih h

/-- A line is found once its end has been read. -/
theorem scanLine_take {bytes : Bytes} {i l n k : Nat} (h : scanLine bytes i = some (l, n))
    (hk : n ≤ i + k) : scanLine (bytes.take k) i = some (l, n) := by
  induction bytes generalizing i k with
  | nil => cases h
  | cons a bytes ih =>
    cases bytes with
    | nil => cases h
    | cons b rest =>
      obtain ⟨-, -, hn, -⟩ := scanLine_bounds h
      obtain ⟨m, rfl⟩ : ∃ m, k = m + 2 := ⟨k - 2, by omega⟩
      rw [scanLine_cons] at h
      rw [List.take_succ_cons, List.take_succ_cons, scanLine_cons]
      split_ifs at h ⊢
      · exact h
      · exact h
      · have := ih h (k := m + 1) (by omega)
        rwa [List.take_succ_cons] at this

theorem scanLine_add (bytes : Bytes) (i k : Nat) :
    scanLine bytes (i + k) = (scanLine bytes i).map fun p => (p.1 + k, p.2 + k) := by
  induction bytes generalizing i with
  | nil => rfl
  | cons a bytes ih =>
    cases bytes with
    | nil => rfl
    | cons b rest =>
      rw [scanLine_cons, scanLine_cons]
      split_ifs
      · rw [Option.map_some, Nat.add_right_comm]
      · rw [Option.map_some, Nat.add_right_comm, Nat.add_right_comm i 2 k]
      · rw [Nat.add_right_comm]
        exact ih (i + 1)

/-- Without its first byte a line ends in the same place. -/
theorem scanLine_tail {bytes : Bytes} {l n : Nat} (h : scanLine bytes 0 = some (l, n))
    (hn : 3 ≤ n) : scanLine bytes.tail 0 = some (l - 1, n - 1) := by
  cases bytes with
  | nil => cases h
  | cons a bytes =>
    cases bytes with
    | nil => cases h
    | cons b rest =>
      rw [scanLine_cons] at h
      split_ifs at h
      · cases h
        omega
      · cases h
        omega
      · rw [scanLine_add] at h
        obtain ⟨⟨l', n'⟩, hscan, heq⟩ := Option.map_eq_some_iff.mp h
        cases heq
        exact hscan

/-- The first line of a stream, as far as it fits the buffer. -/
def firstLine (stream : Bytes) : Option (Nat × Nat) := scanLine (stream.take bufferSize) 0

end Scan

section Rounds

variable {stream : Bytes} {l n : Nat}

theorem firstLine_bounds (h : firstLine stream = some (l, n)) :
    l < n ∧ 2 ≤ n ∧ n ≤ bufferSize ∧ n ≤ stream.length := by
  have hbounds := scanLine_bounds h
  rw [List.length_take] at hbounds
  omega

/-- What the buffer holds once the line has been read is enough to find it. -/
theorem firstLine_of_scanLine {buf : Bytes} {p : Nat × Nat} (h : scanLine buf 0 = some p)
    (hle : buf.length ≤ bufferSize) (more : Bytes) : firstLine (buf ++ more) = some p := by
  rw [firstLine, List.take_append, List.take_of_length_le hle]
  exact scanLine_append h _

theorem firstLine_tail (h : firstLine stream = some (l, bufferSize)) :
    firstLine stream.tail = some (l - 1, bufferSize - 1) := by
  have htail : (stream.take bufferSize).tail = stream.tail.take (bufferSize - 1) := by
    cases stream with
    | nil => rfl
    | cons a rest => rfl
  have hscan := scanLine_tail h (by decide)
  rw [htail] at hscan
  have hfirst := firstLine_of_scanLine hscan (by rw [List.length_take]; omega)
    (stream.tail.drop (bufferSize - 1))
  rwa [List.take_append_drop] at hfirst

/-- One line: it is found with what was read together with it, and handed out or discarded. -/
theorem readSshId_spec (buf : Bytes) (reads : Reads) (hbuf : scanLine buf 0 = none)
    (hle : buf.length ≤ bufferSize) (hstream : buf ++ reads.stream = stream) :
    match firstLine stream with
    | none => readSshId buf reads = .error .disconnect
    | some (l, n) => ∃ (total : Nat) (rest : Reads), n ≤ total ∧ total ≤ bufferSize ∧
        total ≤ stream.length ∧ rest.stream = stream.drop total ∧
        readSshId buf reads =
          if isIdentification (stream.take l) then .ok (⟨stream.take total, n, l⟩, rest)
          else readSshId [] rest := by
  induction hlen : reads.stream.length using Nat.strongRecOn generalizing buf reads with
  | ind m ih =>
    have happend := reads.read_append (bufferSize - buf.length)
    have hroom := reads.read_length_le (bufferSize - buf.length)
    have hless := Reads.read_lt (bufferSize - buf.length) reads
    rw [readSshId]
    generalize hchunk : (reads.read (bufferSize - buf.length)).1 = chunk at *
    generalize hrest : (reads.read (bufferSize - buf.length)).2 = rest at *
    by_cases hnil : chunk = []
    · -- nothing is left, or the buffer is full
      rw [if_pos hnil]
      have hnone : firstLine stream = none := by
        rw [firstLine, ← hstream, List.take_append, List.take_of_length_le hle]
        rcases Reads.read_eq_nil (hchunk.trans hnil) with hend | hspace
        · rw [hend, List.take_nil, List.append_nil]
          exact hbuf
        · rw [hspace, List.take_zero, List.append_nil]
          exact hbuf
      rw [hnone]
    · rw [if_neg hnil]
      have hlong : (buf ++ chunk).length ≤ bufferSize := by
        rw [List.length_append]
        omega
      have hsplit : buf ++ chunk ++ rest.stream = stream := by
        rw [List.append_assoc, happend, hstream]
      cases hscan : scanLine (buf ++ chunk) 0 with
      | none => exact ih rest.stream.length (hlen ▸ hless hnil) _ _ hscan hlong hsplit rfl
      | some p =>
        obtain ⟨l, n⟩ := p
        have hfirst := firstLine_of_scanLine hscan hlong rest.stream
        rw [hsplit] at hfirst
        rw [hfirst]
        have hbounds := scanLine_bounds hscan
        have htotal : stream.take (buf ++ chunk).length = buf ++ chunk := by
          rw [← hsplit, List.take_left]
        have hline : stream.take l = (buf ++ chunk).take l := by
          rw [← hsplit, List.take_append_of_le_length (by omega)]
        refine ⟨(buf ++ chunk).length, rest, by omega, hlong, ?_, ?_, ?_⟩
        · rw [← hsplit]
          exact (List.prefix_append _ _).length_le
        · rw [← hsplit, List.drop_left]
        · rw [htotal, hline]

end Rounds

section Outcomes

/-- The stream begins with the identification line, as far as it fits the buffer. -/
def StartsWithId (stream : Bytes) : Prop :=
  ∃ l n, firstLine stream = some (l, n) ∧ isIdentification (stream.take l) = true

/-- The stream begins with another line, of `n` bytes. -/
def StartsWithOther (stream : Bytes) (n : Nat) : Prop :=
  ∃ l, firstLine stream = some (l, n) ∧ isIdentification (stream.take l) = false

/-- What reading may come to: what is left of the stream where the identification line is found,
or nothing. Where another line is found it is discarded with what has been read after it. -/
inductive Outcome : Bytes → Option Bytes → Prop where
  | found {stream : Bytes} (h : StartsWithId stream) : Outcome stream (some stream)
  | failed {stream : Bytes} (h : firstLine stream = none) : Outcome stream none
  | discarded {stream : Bytes} {n total : Nat} {left : Option Bytes} (h : StartsWithOther stream n)
      (hn : n ≤ total) (htotal : total ≤ bufferSize) (hlength : total ≤ stream.length)
      (hleft : Outcome (stream.drop total) left) : Outcome stream left

/-- `read_ssh_id` returns with `left` at the identification line, or fails. -/
def ReturnsAt (reads : Reads) (left : Option Bytes) : Prop :=
  match left with
  | none => readSshId [] reads = .error .disconnect
  | some stream => ∃ l n total rest, firstLine stream = some (l, n) ∧ n ≤ total ∧
      rest.stream = stream.drop total ∧
      readSshId [] reads = .ok (⟨stream.take total, n, l⟩, rest)

theorem readSshId_of_none {reads : Reads} (h : firstLine reads.stream = none) :
    readSshId [] reads = .error .disconnect := by
  have hspec := readSshId_spec [] reads rfl (Nat.zero_le _) rfl
  rw [List.nil_append, h] at hspec
  exact hspec

theorem returnsAt_of_startsWithId (reads : Reads) (h : StartsWithId reads.stream) :
    ReturnsAt reads (some reads.stream) := by
  obtain ⟨l, n, hfirst, hid⟩ := h
  have hspec := readSshId_spec [] reads rfl (Nat.zero_le _) rfl
  rw [List.nil_append, hfirst] at hspec
  obtain ⟨total, rest, hn, -, -, hrest, hread⟩ := hspec
  rw [if_pos hid] at hread
  exact ⟨l, n, total, rest, hfirst, hn, hrest, hread⟩

theorem readSshId_of_startsWithOther {reads : Reads} {n : Nat}
    (h : StartsWithOther reads.stream n) :
    ∃ (total : Nat) (rest : Reads), n ≤ total ∧ total ≤ bufferSize ∧
      total ≤ reads.stream.length ∧ rest.stream = reads.stream.drop total ∧
      readSshId [] reads = readSshId [] rest := by
  obtain ⟨l, hfirst, hid⟩ := h
  have hspec := readSshId_spec [] reads rfl (Nat.zero_le _) rfl
  rw [List.nil_append, hfirst] at hspec
  obtain ⟨total, rest, hn, htotal, hlength, hrest, hread⟩ := hspec
  rw [if_neg (by simp [hid])] at hread
  exact ⟨total, rest, hn, htotal, hlength, hrest, hread⟩

theorem startsWith_cases (stream : Bytes) :
    firstLine stream = none ∨ StartsWithId stream ∨ ∃ n, StartsWithOther stream n := by
  cases hfirst : firstLine stream with
  | none => exact .inl rfl
  | some p =>
    obtain ⟨l, n⟩ := p
    cases hid : isIdentification (stream.take l) with
    | true => exact .inr (.inl ⟨l, n, hfirst, hid⟩)
    | false => exact .inr (.inr ⟨n, l, hfirst, hid⟩)

theorem StartsWithOther.bounds {stream : Bytes} {n : Nat} (h : StartsWithOther stream n) :
    2 ≤ n ∧ n ≤ bufferSize ∧ n ≤ stream.length := by
  obtain ⟨l, hfirst, -⟩ := h
  have := firstLine_bounds hfirst
  omega

/-- However the stream is split, what `read_ssh_id` does is one of the outcomes. -/
theorem outcome_of_reads (reads : Reads) :
    ∃ left, Outcome reads.stream left ∧ ReturnsAt reads left := by
  induction hlen : reads.stream.length using Nat.strongRecOn generalizing reads with
  | ind m ih =>
    rcases startsWith_cases reads.stream with hnone | hid | ⟨n, hother⟩
    · exact ⟨none, .failed hnone, readSshId_of_none hnone⟩
    · exact ⟨some reads.stream, .found hid, returnsAt_of_startsWithId reads hid⟩
    · obtain ⟨total, rest, hn, htotal, hlength, hrest, hread⟩ :=
        readSshId_of_startsWithOther hother
      have htwo := hother.bounds
      have hless : rest.stream.length < m := by
        rw [hrest, List.length_drop]
        omega
      obtain ⟨left, houtcome, hreturns⟩ := ih _ hless rest rfl
      refine ⟨left, .discarded hother hn htotal hlength (hrest ▸ houtcome), ?_⟩
      cases left with
      | none =>
        show readSshId [] reads = _
        rw [hread]
        exact hreturns
      | some stream =>
        obtain ⟨l, n', total', rest', hfirst, hn', hrest', hreturns⟩ := hreturns
        exact ⟨l, n', total', rest', hfirst, hn', hrest', hread.trans hreturns⟩

/-- The stream in one piece. -/
def Reads.whole (stream : Bytes) : Reads := Reads.push stream ⟨[], List.forall_mem_nil _⟩

theorem Reads.stream_whole (stream : Bytes) : (Reads.whole stream).stream = stream := by
  rw [Reads.whole, Reads.stream_push]
  exact List.append_nil stream

theorem Reads.push_nil (reads : Reads) : Reads.push [] reads = reads := rfl

theorem Reads.read_push {c : Bytes} (hc : c ≠ []) (space : Nat) (reads : Reads) :
    (Reads.push c reads).read space = (c.take space, Reads.push (c.drop space) reads) := by
  have hpush : Reads.push c reads =
      ⟨c :: reads.chunks, List.forall_mem_cons.mpr ⟨hc, reads.nonempty⟩⟩ := by
    unfold Reads.push
    congr 1
    rw [if_neg hc]
  rw [hpush]
  rfl

/-- A piece with a line that is not the identification is discarded whole. -/
theorem readSshId_push {stream : Bytes} {n total : Nat} (reads : Reads)
    (h : StartsWithOther stream n) (hn : n ≤ total) (htotal : total ≤ bufferSize)
    (hlength : total ≤ stream.length) :
    readSshId [] (Reads.push (stream.take total) reads) = readSshId [] reads := by
  have htwo := h.bounds
  obtain ⟨l, hfirst, hid⟩ := h
  have hbounds := firstLine_bounds hfirst
  have hne : stream.take total ≠ [] := by
    apply List.ne_nil_of_length_pos
    rw [List.length_take]
    omega
  have hscan : scanLine (stream.take total) 0 = some (l, n) := by
    have htake := scanLine_take hfirst (k := total) (by omega)
    rwa [List.take_take, Nat.min_eq_left htotal] at htake
  have hline : (stream.take total).take l = stream.take l := by
    rw [List.take_take, Nat.min_eq_left (by omega)]
  have hall : (stream.take total).length ≤ bufferSize := by
    rw [List.length_take]
    omega
  rw [readSshId, Reads.read_push hne]
  simp only [List.length_nil, Nat.sub_zero, List.take_of_length_le hall, List.nil_append,
    if_neg hne, hscan, hline, hid, List.drop_of_length_le hall, Reads.push_nil]
  rfl

/-- Every outcome comes about with some split of the stream. -/
theorem Outcome.exists_reads {stream : Bytes} {left : Option Bytes} (h : Outcome stream left) :
    ∃ reads : Reads, reads.stream = stream ∧ ReturnsAt reads left := by
  induction h with
  | @found stream h =>
    have hwhole := Reads.stream_whole stream
    refine ⟨Reads.whole stream, hwhole, ?_⟩
    have hreturns := returnsAt_of_startsWithId (Reads.whole stream) (by rwa [hwhole])
    rwa [hwhole] at hreturns
  | @failed stream h =>
    have hwhole := Reads.stream_whole stream
    exact ⟨Reads.whole stream, hwhole, readSshId_of_none (by rwa [hwhole])⟩
  | @discarded stream n total left h hn htotal hlength hleft ih =>
    -- the first piece is what is discarded
    obtain ⟨reads, hreads, hreturns⟩ := ih
    refine ⟨Reads.push (stream.take total) reads, ?_, ?_⟩
    · rw [Reads.stream_push, hreads, List.take_append_drop]
    · have hread := readSshId_push reads h hn htotal hlength
      cases left with
      | none => exact hread.trans hreturns
      | some stream =>
        obtain ⟨l, n', total', rest', hfirst, hn', hrest', hreturns⟩ := hreturns
        exact ⟨l, n', total', rest', hfirst, hn', hrest', hread.trans hreturns⟩

end Outcomes

section Identification

/-- A line without the carriage return at its end. -/
def dropCr (line : Bytes) : Bytes := if line.getLast? = some 13 then line.dropLast else line

/-- The first line of a stream that is an identification, and what comes after it. -/
inductive Identification : Bytes → Bytes → Bytes → Prop where
  | here {line rest : Bytes} (hline : 10 ∉ line) (hid : isIdentification (dropCr line) = true) :
      Identification (line ++ 10 :: rest) (dropCr line) rest
  | later {line rest id after : Bytes} (hline : 10 ∉ line)
      (hid : isIdentification (dropCr line) = false) (h : Identification rest id after) :
      Identification (line ++ 10 :: rest) id after

theorem append_lf_inj {line line' rest rest' : Bytes} (h : 10 ∉ line) (h' : 10 ∉ line')
    (heq : line ++ 10 :: rest = line' ++ 10 :: rest') : line = line' ∧ rest = rest' := by
  induction line generalizing line' with
  | nil =>
    cases line' with
    | nil => exact ⟨rfl, (List.cons.inj heq).2⟩
    | cons a line' => exact absurd ((List.cons.inj heq).1 ▸ List.mem_cons_self) h'
  | cons a line ih =>
    cases line' with
    | nil => exact absurd ((List.cons.inj heq).1 ▸ List.mem_cons_self) h
    | cons b line' =>
      obtain ⟨rfl, htail⟩ := List.cons.inj heq
      obtain ⟨rfl, rfl⟩ := ih (fun hm => h (List.mem_cons_of_mem a hm))
        (fun hm => h' (List.mem_cons_of_mem a hm)) htail
      exact ⟨rfl, rfl⟩

theorem Identification.unique {stream id id' after after' : Bytes}
    (h : Identification stream id after) (h' : Identification stream id' after') :
    id = id' ∧ after = after' := by
  induction h with
  | @here line rest hline hid =>
    generalize hs : line ++ 10 :: rest = stream at h'
    cases h' with
    | @here line' rest' hline' hid' =>
      obtain ⟨rfl, rfl⟩ := append_lf_inj hline hline' hs
      exact ⟨rfl, rfl⟩
    | @later line' rest' id' after' hline' hid' h' =>
      obtain ⟨rfl, rfl⟩ := append_lf_inj hline hline' hs
      rw [hid] at hid'
      cases hid'
  | @later line rest id after hline hid h ih =>
    generalize hs : line ++ 10 :: rest = stream at h'
    cases h' with
    | @here line' rest' hline' hid' =>
      obtain ⟨rfl, rfl⟩ := append_lf_inj hline hline' hs
      rw [hid] at hid'
      cases hid'
    | @later line' rest' id' after' hline' hid' h' =>
      obtain ⟨rfl, rfl⟩ := append_lf_inj hline hline' hs
      exact ih h'

theorem dropCr_cons {a : UInt8} {line : Bytes} (h : line ≠ []) :
    dropCr (a :: line) = a :: dropCr line := by
  obtain ⟨b, rest, rfl⟩ := List.exists_cons_of_ne_nil h
  unfold dropCr
  rw [List.getLast?_cons_cons, List.dropLast_cons_cons]
  split_ifs
  · rfl
  · rfl

/-- A line that has been found is a line, but for a line feed at its start. -/
theorem scanLine_split {bytes : Bytes} {i l n : Nat} (h : scanLine bytes i = some (l, n)) :
    ∃ line, line ≠ [] ∧ bytes = line ++ 10 :: bytes.drop (n - i) ∧ 10 ∉ line.tail ∧
      dropCr line = bytes.take (l - i) := by
  induction bytes generalizing i with
  | nil => cases h
  | cons a bytes ih =>
    cases bytes with
    | nil => cases h
    | cons b rest =>
      rw [scanLine_cons] at h
      split_ifs at h with hcrlf hlf
      · obtain ⟨rfl, rfl⟩ := hcrlf
        cases h
        refine ⟨[13], List.cons_ne_nil _ _, ?_, List.not_mem_nil, ?_⟩
        · rw [Nat.add_sub_cancel_left]
          rfl
        · rw [Nat.sub_self]
          rfl
      · subst hlf
        cases h
        refine ⟨[a], List.cons_ne_nil _ _, ?_, List.not_mem_nil, ?_⟩
        · rw [Nat.add_sub_cancel_left]
          rfl
        · have ha : a ≠ 13 := fun ha => hcrlf ⟨ha, rfl⟩
          rw [Nat.add_sub_cancel_left, dropCr, if_neg (by simpa using ha)]
          rfl
      · obtain ⟨line, hne, heq, hline, hdrop⟩ := ih h
        obtain ⟨hl, -, hn, -⟩ := scanLine_bounds h
        refine ⟨a :: line, List.cons_ne_nil _ _, ?_, ?_, ?_⟩
        · have hsub : n - i = n - (i + 1) + 1 := by omega
          rw [hsub, List.drop_succ_cons, List.cons_append, ← heq]
        · -- the line begins with `b`
          obtain ⟨c, tail, rfl⟩ := List.exists_cons_of_ne_nil hne
          obtain ⟨rfl, -⟩ := List.cons.inj heq
          rw [List.tail_cons, List.mem_cons, not_or]
          exact ⟨fun hb => hlf hb.symm, hline⟩
        · have hsub : l - i = l - (i + 1) + 1 := by omega
          rw [dropCr_cons hne, hdrop, hsub, List.take_succ_cons]

theorem firstLine_split {stream : Bytes} {l n : Nat} (h : firstLine stream = some (l, n)) :
    ∃ line, line ≠ [] ∧ stream = line ++ 10 :: stream.drop n ∧ 10 ∉ line.tail ∧
      dropCr line = stream.take l := by
  have hbounds := firstLine_bounds h
  obtain ⟨line, hne, heq, hline, hdrop⟩ := scanLine_split h
  rw [Nat.sub_zero] at heq hdrop
  refine ⟨line, hne, ?_, hline, ?_⟩
  · have hwhole := congrArg (· ++ stream.drop bufferSize) heq
    simp only [List.take_append_drop, List.append_assoc, List.cons_append] at hwhole
    have hrest : (stream.take bufferSize).drop n ++ stream.drop bufferSize = stream.drop n := by
      have hsplit := congrArg (List.drop n) (List.take_append_drop bufferSize stream)
      rwa [List.drop_append_of_le_length (by rw [List.length_take]; omega)] at hsplit
    rwa [hrest] at hwhole
  · rw [hdrop, List.take_take, Nat.min_eq_left (by omega)]

end Identification

section Condition

/-- An identification begins so. -/
theorem isIdentification_head {line : Bytes} (h : isIdentification line = true) :
    ∃ rest, line = 83 :: 83 :: 72 :: rest := by
  obtain ⟨-, hpre⟩ := Bool.and_eq_true_iff.mp h
  rcases Bool.or_eq_true_iff.mp hpre with hp | hp
  · obtain ⟨rest, rfl⟩ := List.isPrefixOf_iff_prefix.mp hp
    exact ⟨_, rfl⟩
  · obtain ⟨rest, rfl⟩ := List.isPrefixOf_iff_prefix.mp hp
    exact ⟨_, rfl⟩

/-- The line feed at the start of a stream and the identification line after it are taken for one
line. -/
def HidesId (stream : Bytes) : Prop :=
  ∃ line rest, stream = 10 :: (line ++ 10 :: rest) ∧ 10 ∉ line ∧
    isIdentification (dropCr line) = true

/-- The lines before `left` fill the buffer, so that nothing is read together with them. -/
inductive Plain : Bytes → Bytes → Prop where
  | here (stream : Bytes) : Plain stream stream
  | full {stream left : Bytes} (h : StartsWithOther stream bufferSize) (hhides : ¬ HidesId stream)
      (hleft : Plain (stream.drop bufferSize) left) : Plain stream left

variable {stream left : Bytes}

theorem dropCr_eq_cons {line rest : Bytes} {b : UInt8} (h : dropCr line = b :: rest) :
    ∃ tail, line = b :: tail := by
  cases line with
  | nil => cases h
  | cons a line =>
    cases line with
    | nil =>
      unfold dropCr at h
      split_ifs at h
      · cases h
      · cases h
        exact ⟨[], rfl⟩
    | cons c line =>
      rw [dropCr_cons (List.cons_ne_nil _ _)] at h
      obtain ⟨rfl, -⟩ := List.cons.inj h
      exact ⟨_, rfl⟩

/-- Where the stream starts with the identification line it is the first. -/
theorem identification_of_firstLine {l n : Nat} (hfirst : firstLine stream = some (l, n))
    (hid : isIdentification (stream.take l) = true) :
    Identification stream (stream.take l) (stream.drop n) := by
  obtain ⟨line, hne, heq, hline, hdrop⟩ := firstLine_split hfirst
  obtain ⟨rest, hhead⟩ := isIdentification_head hid
  obtain ⟨tail, rfl⟩ := dropCr_eq_cons (hdrop.trans hhead)
  have hlf : 10 ∉ (83 : UInt8) :: tail := by
    rw [List.mem_cons, not_or]
    exact ⟨by decide, hline⟩
  rw [← hdrop] at hid ⊢
  generalize hafter : stream.drop n = after at heq ⊢
  subst heq
  exact .here hlf hid

/-- What the stream starts with is another line, and hides none: the identification line is the
first after it. -/
theorem identification_drop_iff {n : Nat} (h : StartsWithOther stream n) (hhides : ¬ HidesId stream)
    {id after : Bytes} :
    Identification stream id after ↔ Identification (stream.drop n) id after := by
  obtain ⟨l, hfirst, hid⟩ := h
  obtain ⟨line, hne, heq, hline, hdrop⟩ := firstLine_split hfirst
  rw [← hdrop] at hid
  generalize stream.drop n = rest at heq ⊢
  obtain ⟨a, tail, rfl⟩ := List.exists_cons_of_ne_nil hne
  rw [List.tail_cons] at hline
  have hlater {line rest : Bytes} (hline : 10 ∉ line) (hid : isIdentification (dropCr line) = false)
      {id after : Bytes} :
      Identification (line ++ 10 :: rest) id after ↔ Identification rest id after := by
    constructor
    · intro h
      generalize hs : line ++ 10 :: rest = stream at h
      cases h with
      | @here line' rest' hline' hid' =>
        obtain ⟨rfl, rfl⟩ := append_lf_inj hline hline' hs
        rw [hid] at hid'
        cases hid'
      | @later line' rest' id' after' hline' hid' h' =>
        obtain ⟨rfl, rfl⟩ := append_lf_inj hline hline' hs
        exact h'
    · exact .later hline hid
  by_cases ha : a = 10
  · -- an empty line, and a line that is not the identification
    subst ha
    have htail : isIdentification (dropCr tail) = false := by
      rw [Bool.eq_false_iff]
      intro hyes
      exact hhides ⟨tail, rest, heq, hline, hyes⟩
    have hempty : isIdentification (dropCr []) = false := rfl
    rw [heq]
    show Identification ([] ++ 10 :: (tail ++ 10 :: rest)) id after ↔ _
    rw [hlater List.not_mem_nil hempty, hlater hline htail]
  · rw [heq]
    refine hlater ?_ hid
    rw [List.mem_cons, not_or]
    exact ⟨fun h => ha h.symm, hline⟩

theorem Outcome.suffix {o : Option Bytes} (h : Outcome stream o) : ∀ left, o = some left →
    left <:+ stream ∧ StartsWithId left := by
  induction h with
  | found h =>
    rintro left ⟨⟩
    exact ⟨List.suffix_refl _, h⟩
  | failed h =>
    rintro left ⟨⟩
  | discarded h hn htotal hlength hleft ih =>
    intro left ho
    obtain ⟨hsuffix, hid⟩ := ih left ho
    exact ⟨hsuffix.trans (List.drop_suffix _ _), hid⟩

/-- Every way of reading finds the identification line at `left`. -/
def Unanimous (stream left : Bytes) : Prop := ∀ o, Outcome stream o → o = some left

theorem exists_outcome (stream : Bytes) : ∃ o, Outcome stream o := by
  obtain ⟨o, ho, -⟩ := outcome_of_reads (Reads.whole stream)
  rw [Reads.stream_whole] at ho
  exact ⟨o, ho⟩

theorem Unanimous.outcome (h : Unanimous stream left) : Outcome stream (some left) := by
  obtain ⟨o, ho⟩ := exists_outcome stream
  rwa [h o ho] at ho

theorem Unanimous.drop {n total : Nat} (h : Unanimous stream left)
    (hother : StartsWithOther stream n) (hn : n ≤ total) (htotal : total ≤ bufferSize)
    (hlength : total ≤ stream.length) : Unanimous (stream.drop total) left :=
  fun o ho => h o (.discarded hother hn htotal hlength ho)

/-- Reading is not unanimous where the first line leaves room in the buffer: one byte more may be
discarded with it, and with every line after it. -/
theorem not_unanimous_of_lt {n : Nat} (hother : StartsWithOther stream n) (hlt : n < bufferSize) :
    ¬ Unanimous stream left := by
  induction hlen : stream.length using Nat.strongRecOn generalizing stream n with
  | ind m ih =>
    intro h
    have hbounds := hother.bounds
    have hrest := h.drop hother (Nat.le_refl n) (by omega) hbounds.2.2
    have hsuffix := (hrest.outcome.suffix left rfl).1
    have hpos : n + 1 ≤ stream.length := by
      obtain ⟨l, k, hfirst, -⟩ := (hrest.outcome.suffix left rfl).2
      have hleft := firstLine_bounds hfirst
      have hle := hsuffix.length_le
      rw [List.length_drop] at hle
      omega
    have hmore := h.drop hother (Nat.le_succ n) hlt hpos
    have htail : stream.drop (n + 1) = (stream.drop n).tail := by
      rw [List.tail_drop]
    rw [htail] at hmore
    have hless : (stream.drop n).length < m := by
      rw [List.length_drop]
      omega
    rcases startsWith_cases (stream.drop n) with hnone | hid | ⟨k, hnext⟩
    · cases hrest _ (.failed hnone)
    · -- the byte more is the first of the identification
      have heq := Option.some.inj (hrest _ (.found hid))
      have hle := (hmore.outcome.suffix left rfl).1.length_le
      rw [← heq, List.length_tail, List.length_drop] at hle
      omega
    · by_cases hk : k < bufferSize
      · exact ih _ hless hnext hk rfl hrest
      · -- the next line fills the buffer, but not without its first byte
        have hnextBounds := hnext.bounds
        have hfull : k = bufferSize := by omega
        subst hfull
        have hle := ((hrest.drop hnext (Nat.le_refl _) (Nat.le_refl _)
          hnextBounds.2.2).outcome.suffix left rfl).1.length_le
        rw [List.length_drop] at hle
        obtain ⟨l, hfirst, -⟩ := hnext
        have hshort := firstLine_tail hfirst
        cases hid : isIdentification ((stream.drop n).tail.take (l - 1)) with
        | true =>
          have heq := Option.some.inj (hmore _ (.found ⟨_, _, hshort, hid⟩))
          rw [← heq, List.length_tail] at hle
          have : bufferSize = 256 := rfl
          omega
        | false =>
          refine ih (stream.drop n).tail.length ?_ ⟨_, hshort, hid⟩ (by decide) rfl hmore
          rw [List.length_tail]
          omega

end Condition

section Chunking

/-- The identification string, or the failure. -/
def sshId (reads : Reads) : Except Error Bytes := (readSshId [] reads).map fun p => p.1.id

/-- However the stream is split into reads, the identification string or the failure is the same,
and what is handed out afterwards is what comes after the identification line. -/
structure ChunkingIndependent (stream : Bytes) : Prop where
  same : ∀ reads reads' : Reads, reads.stream = stream → reads'.stream = stream →
    sshId reads = sshId reads'
  exact : ∀ (reads : Reads) (b : ReadSshIdBuffer) (rest : Reads), reads.stream = stream →
    readSshId [] reads = .ok (b, rest) →
    ∃ bytes, Identification stream b.id bytes ∧ (SshRead.mk (some b) rest).Delivers bytes

/-- Nothing but lines that fill the buffer comes before the identification line, or no way of
reading finds one. -/
def Separated (stream : Bytes) : Prop :=
  (∃ left, Plain stream left ∧ StartsWithId left) ∨ ∀ left, ¬ Outcome stream (some left)

variable {stream left : Bytes}

/-- What `read_ssh_id` returns where it finds the identification line at `left`. -/
theorem ReturnsAt.spec {reads : Reads} (h : ReturnsAt reads (some left)) :
    ∃ l n b rest, firstLine left = some (l, n) ∧ readSshId [] reads = .ok (b, rest) ∧
      b.id = left.take l ∧ (SshRead.mk (some b) rest).pending = left.drop n := by
  obtain ⟨l, n, total, rest, hfirst, hn, hrest, hread⟩ := h
  have hbounds := firstLine_bounds hfirst
  refine ⟨l, n, _, rest, hfirst, hread, ?_, ?_⟩
  · show (left.take total).take l = left.take l
    rw [List.take_take, Nat.min_eq_left (by omega)]
  · show (left.take total).drop n ++ rest.stream = left.drop n
    rw [hrest]
    by_cases hlength : total ≤ left.length
    · have hsplit := congrArg (List.drop n) (List.take_append_drop total left)
      rwa [List.drop_append_of_le_length (by rw [List.length_take]; omega)] at hsplit
    · have hnil : left.drop total = [] := List.drop_eq_nil_of_le (by omega)
      rw [List.take_of_length_le (by omega), hnil, List.append_nil]

theorem sshId_of_returnsAt {reads : Reads} {l n : Nat} (h : ReturnsAt reads (some left))
    (hfirst : firstLine left = some (l, n)) : sshId reads = .ok (left.take l) := by
  obtain ⟨l', n', b, rest, hfirst', hread, hid, -⟩ := h.spec
  rw [hfirst] at hfirst'
  cases hfirst'
  rw [sshId, hread, ← hid]
  rfl

/-- Where only full lines come first, there is one outcome. -/
theorem Plain.outcome_eq {o : Option Bytes} (h : Plain stream left) (hid : StartsWithId left)
    (ho : Outcome stream o) : o = some left := by
  induction h with
  | here stream =>
    obtain ⟨l, n, hfirst, hyes⟩ := hid
    cases ho with
    | found _ => rfl
    | failed hnone =>
      rw [hfirst] at hnone
      cases hnone
    | discarded hother _ _ _ _ =>
      obtain ⟨l', hfirst', hno⟩ := hother
      rw [hfirst] at hfirst'
      cases hfirst'
      rw [hyes] at hno
      cases hno
  | full hother hhides hleft ih =>
    obtain ⟨l, hfirst, hno⟩ := hother
    cases ho with
    | found hstart =>
      obtain ⟨l', n', hfirst', hyes⟩ := hstart
      rw [hfirst] at hfirst'
      cases hfirst'
      rw [hyes] at hno
      cases hno
    | failed hnone =>
      rw [hfirst] at hnone
      cases hnone
    | @discarded _ n total _ hother' hn htotal _ ho =>
      obtain ⟨l', hfirst', -⟩ := hother'
      rw [hfirst] at hfirst'
      cases hfirst'
      rw [Nat.le_antisymm htotal hn] at ho
      exact ih hid ho

theorem Plain.identification {l n : Nat} (h : Plain stream left)
    (hfirst : firstLine left = some (l, n)) (hid : isIdentification (left.take l) = true) :
    Identification stream (left.take l) (left.drop n) := by
  induction h with
  | here stream => exact identification_of_firstLine hfirst hid
  | full hother hhides hleft ih =>
    exact (identification_drop_iff hother hhides).mpr (ih hfirst hid)

/-- Reading is independent of the split where the lines are separated. -/
theorem Separated.chunkingIndependent (h : Separated stream) : ChunkingIndependent stream := by
  rcases h with ⟨left, hplain, hid⟩ | hnone
  · obtain ⟨l, n, hfirst, hyes⟩ := hid
    have hreturns (reads : Reads) (hreads : reads.stream = stream) :
        ReturnsAt reads (some left) := by
      obtain ⟨o, ho, hreturns⟩ := outcome_of_reads reads
      rw [hreads] at ho
      rwa [hplain.outcome_eq ⟨l, n, hfirst, hyes⟩ ho] at hreturns
    constructor
    · intro reads reads' hreads hreads'
      rw [sshId_of_returnsAt (hreturns reads hreads) hfirst,
        sshId_of_returnsAt (hreturns reads' hreads') hfirst]
    · intro reads b rest hreads hread
      obtain ⟨l', n', b', rest', hfirst', hread', hb, hpending⟩ := (hreturns reads hreads).spec
      rw [hfirst] at hfirst'
      cases hfirst'
      rw [hread] at hread'
      cases hread'
      refine ⟨left.drop n, ?_, ?_⟩
      · rw [hb]
        exact hplain.identification hfirst hyes
      · rw [← hpending]
        exact SshRead.delivers_pending _
  · have hfails (reads : Reads) (hreads : reads.stream = stream) :
        readSshId [] reads = .error .disconnect := by
      obtain ⟨o, ho, hreturns⟩ := outcome_of_reads reads
      rw [hreads] at ho
      cases o with
      | none => exact hreturns
      | some left => exact absurd ho (hnone left)
    constructor
    · intro reads reads' hreads hreads'
      rw [sshId, sshId, hfails reads hreads, hfails reads' hreads']
    · intro reads b rest hreads hread
      rw [hfails reads hreads] at hread
      cases hread

/-- Two places of a stream with the same identification string and the same rest are one. -/
theorem eq_of_suffix {left' : Bytes} {l n n' : Nat} (hsuffix : left' <:+ left)
    (hfirst : firstLine left = some (l, n)) (hfirst' : firstLine left' = some (l, n'))
    (hid : isIdentification (left.take l) = true) (htake : left'.take l = left.take l)
    (hdrop : left'.drop n' = left.drop n) : left' = left := by
  have hbounds := firstLine_bounds hfirst
  have hbounds' := firstLine_bounds hfirst'
  have hend := scanLine_le hfirst
  have hlength := congrArg List.length hdrop
  rw [List.length_drop, List.length_drop] at hlength
  obtain ⟨pre, hpre⟩ := hsuffix
  have hsum := congrArg List.length hpre
  rw [List.length_append] at hsum
  cases pre with
  | nil => exact hpre
  | cons a pre =>
    -- then it is one byte that precedes, and the string would begin with three equal bytes
    obtain rfl : pre = [] := by
      rw [List.length_cons] at hsum
      exact List.eq_nil_of_length_eq_zero (by omega)
    obtain ⟨rest, hrest⟩ := isIdentification_head hid
    rw [hrest] at htake
    rw [← hpre] at hrest
    obtain ⟨k, rfl⟩ : ∃ k, l = k + 1 := by
      cases l with
      | zero => cases hrest
      | succ k => exact ⟨k, rfl⟩
    have htwo : left'.take k = 83 :: 72 :: rest := (List.cons.inj hrest).2
    obtain ⟨j, rfl⟩ : ∃ j, k = j + 1 := by
      cases k with
      | zero => cases htwo
      | succ j => exact ⟨j, rfl⟩
    obtain ⟨i, rfl⟩ : ∃ i, j = i + 1 := by
      cases left' with
      | nil => cases htwo
      | cons b tail =>
        cases j with
        | zero => cases (List.cons.inj htwo).2
        | succ i => exact ⟨i, rfl⟩
    cases left' with
    | nil => cases htwo
    | cons b tail =>
      cases tail with
      | nil => cases (List.cons.inj htwo).2
      | cons c tail =>
        have hc : c = 72 := (List.cons.inj (List.cons.inj htwo).2).1
        have hc' : c = 83 := (List.cons.inj (List.cons.inj htake).2).1
        rw [hc] at hc'
        cases hc'

/-- A hidden identification line ends where the line that hides it does. -/
theorem HidesId.identification {n : Nat} (h : HidesId stream) (hother : StartsWithOther stream n) :
    ∃ id, Identification stream id (stream.drop n) := by
  obtain ⟨line, rest, heq, hline, hyes⟩ := h
  obtain ⟨l, hfirst, -⟩ := hother
  obtain ⟨line', hne, heq', hline', -⟩ := firstLine_split hfirst
  obtain ⟨a, tail, rfl⟩ := List.exists_cons_of_ne_nil hne
  have hboth := heq.symm.trans heq'
  obtain ⟨rfl, hrest⟩ := append_lf_inj hline hline' (List.cons.inj hboth).2
  refine ⟨dropCr line, ?_⟩
  rw [← hrest, heq]
  have hempty : isIdentification (dropCr []) = false := rfl
  show Identification ([] ++ 10 :: (line ++ 10 :: rest)) _ _
  exact .later List.not_mem_nil hempty (.here hline hyes)

/-- Where the lines before `left` leave no choice they fill the buffer, and hide no identification
line from the reader. -/
theorem plain_of_unanimous {id after : Bytes} (h : Unanimous stream left)
    (hid : Identification stream id after) (hshort : after.length < left.length) :
    Plain stream left := by
  induction hlen : stream.length using Nat.strongRecOn generalizing stream with
  | ind m ih =>
    rcases startsWith_cases stream with hnone | hstart | ⟨n, hother⟩
    · cases h _ (.failed hnone)
    · obtain rfl := Option.some.inj (h _ (.found hstart))
      exact .here stream
    · have hbounds := hother.bounds
      by_cases hlt : n < bufferSize
      · exact absurd h (not_unanimous_of_lt hother hlt)
      · obtain rfl : n = bufferSize := by omega
        have hrest := h.drop hother (Nat.le_refl _) (Nat.le_refl _) hbounds.2.2
        have hhides : ¬ HidesId stream := by
          intro hhidden
          obtain ⟨line, heq⟩ := hhidden.identification hother
          obtain ⟨-, rfl⟩ := hid.unique heq
          have hle := (hrest.outcome.suffix left rfl).1.length_le
          omega
        refine .full hother hhides (ih _ ?_ hrest
          ((identification_drop_iff hother hhides).mp hid) rfl)
        rw [List.length_drop]
        omega

/-- Where reading is independent of the split, the lines are separated. -/
theorem ChunkingIndependent.separated (h : ChunkingIndependent stream) : Separated stream := by
  by_cases hsome : ∃ left, Outcome stream (some left)
  · left
    obtain ⟨left, ho⟩ := hsome
    obtain ⟨hsuffix, l, n, hfirst, hid⟩ := ho.suffix left rfl
    obtain ⟨reads, hreads, hreturns⟩ := ho.exists_reads
    obtain ⟨l', n', b, rest, hfirst', hread, hb, hpending⟩ := hreturns.spec
    rw [hfirst] at hfirst'
    cases hfirst'
    obtain ⟨bytes, hident, hdelivers⟩ := h.exact reads b rest hreads hread
    rw [hdelivers.eq_pending, hpending, hb] at hident
    have hunanimous : Unanimous stream left := by
      intro o ho'
      obtain ⟨reads', hreads', hreturns'⟩ := ho'.exists_reads
      have hsame := h.same reads' reads hreads' hreads
      rw [sshId_of_returnsAt hreturns hfirst] at hsame
      cases o with
      | none =>
        rw [sshId, hreturns'] at hsame
        cases hsame
      | some left' =>
        obtain ⟨hsuffix', l₂, n₂, hfirst₂, hid₂⟩ := ho'.suffix left' rfl
        rw [sshId_of_returnsAt hreturns' hfirst₂] at hsame
        have htake : left'.take l₂ = left.take l := Except.ok.inj hsame
        obtain ⟨l₃, n₃, b', rest', hfirst₃, hread', hb', hpending'⟩ := hreturns'.spec
        rw [hfirst₂] at hfirst₃
        cases hfirst₃
        obtain ⟨bytes', hident', hdelivers'⟩ := h.exact reads' b' rest' hreads' hread'
        rw [hdelivers'.eq_pending, hpending', hb'] at hident'
        obtain ⟨-, hdrop⟩ := hident'.unique hident
        have hl : l₂ = l := by
          have hlength := congrArg List.length htake
          have hbounds := firstLine_bounds hfirst
          have hbounds₂ := firstLine_bounds hfirst₂
          rw [List.length_take, List.length_take] at hlength
          omega
        subst hl
        rcases Nat.le_total left'.length left.length with hle | hle
        · rw [eq_of_suffix (List.suffix_of_suffix_length_le hsuffix' hsuffix hle) hfirst hfirst₂
            hid htake hdrop]
        · rw [eq_of_suffix (List.suffix_of_suffix_length_le hsuffix hsuffix' hle) hfirst₂ hfirst
            hid₂ htake.symm hdrop.symm]
    refine ⟨left, plain_of_unanimous hunanimous hident ?_, l, n, hfirst, hid⟩
    have hbounds := firstLine_bounds hfirst
    rw [List.length_drop]
    omega
  · exact .inr fun left ho => hsome ⟨left, ho⟩

/-- The identification exchange is independent of the chunking exactly where nothing but full lines
comes before the identification line, or no way of reading finds one. -/
theorem identification_chunking_iff (stream : Bytes) :
    ChunkingIndependent stream ↔ Separated stream :=
  ⟨ChunkingIndependent.separated, Separated.chunkingIndependent⟩

/-- A line before the identification line. -/
def bannerStream : Bytes := ascii "hi\r\n" ++ ascii "SSH-2.0-x\r\n"

/-- The identification line is found where the line before it is read alone, and lost where they
are read together. -/
theorem identification_chunking_fails : ¬ ChunkingIndependent bannerStream := by
  intro h
  have hother : StartsWithOther bannerStream 4 := ⟨2, by decide +kernel, rfl⟩
  have hid : StartsWithId (bannerStream.drop 4) := by
    refine ⟨9, 11, by decide +kernel, ?_⟩
    have hutf8 : validUtf8 ((bannerStream.drop 4).take 9) = true :=
      validUtf8_of_ascii (by decide +kernel)
    rw [isIdentification, hutf8]
    decide +kernel
  have hfound : Outcome bannerStream (some (bannerStream.drop 4)) :=
    .discarded hother (Nat.le_refl 4) (by decide) (by decide +kernel) (.found hid)
  have hlost : Outcome bannerStream none :=
    .discarded hother (show 4 ≤ 15 by decide) (by decide) (by decide +kernel)
      (.failed (by decide +kernel))
  obtain ⟨reads, hreads, l, n, total, rest, hfirst, -, -, hread⟩ := hfound.exists_reads
  obtain ⟨reads', hreads', hread'⟩ := hlost.exists_reads
  have hsame := h.same reads reads' hreads hreads'
  rw [sshId, sshId, hread, hread'] at hsame
  cases hsame

end Chunking

end Edgessh.Russh
