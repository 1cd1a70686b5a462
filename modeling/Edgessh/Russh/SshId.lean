import Mathlib.Data.List.DropRight
import Edgessh.Russh.SshRead

/-!
# The identification string on the wire

`sshbuffer.rs`: `SshId::write` puts the identification line before the packets, and
`as_kex_hash_bytes` is what goes into the exchange hash. The peer takes its own view of the same
line with `read_ssh_id`, and both must be the same string.
-/

namespace Edgessh.Russh

/-- The SSH client/server identification string: a standard one is sent with CR LF after it, a raw
one as it is. -/
inductive SshId where
  | standard (s : Bytes)
  | raw (s : Bytes)

namespace SshId

/-- The two characters that `trim_end_matches` takes away at the end. -/
def isLineEnd (b : UInt8) : Bool := b == 10 || b == 13

/-- `as_kex_hash_bytes`. -/
def asKexHashBytes : SshId → Bytes
  | standard s => s
  | raw s => s.rdropWhile isLineEnd

/-- `write`. -/
def write (buffer : Bytes) : SshId → Bytes
  | standard s => buffer ++ (s ++ [13, 10])
  | raw s => buffer ++ s

end SshId

/-- A text that identifies, without line ends. -/
structure IdText where
  text : Bytes
  utf8 : validUtf8 text = true
  noCr : 13 ∉ text
  noLf : 10 ∉ text
  starts : ascii "SSH-2.0-" <+: text ∨ ascii "SSH-1.99-" <+: text

/-- The identifications of a single line, however it ends. -/
inductive SingleLine : SshId → Prop where
  | standard (s : IdText) : SingleLine (.standard s.text)
  | rawLf (s : IdText) : SingleLine (.raw (s.text ++ [10]))
  | rawCrLf (s : IdText) : SingleLine (.raw (s.text ++ [13, 10]))

section Hash

/-- Where a text ends in no line end, the line ends after it are all that is trimmed. -/
theorem rdropWhile_append {s ends : Bytes} (hs : ∀ b ∈ s, SshId.isLineEnd b = false)
    (hends : ∀ b ∈ ends, SshId.isLineEnd b = true) :
    (s ++ ends).rdropWhile SshId.isLineEnd = s := by
  have hself : s.rdropWhile SshId.isLineEnd = s := by
    rw [List.rdropWhile_eq_self_iff]
    intro hne hlast
    rw [hs _ (List.getLast_mem hne)] at hlast
    cases hlast
  induction ends using List.reverseRecOn with
  | nil => rwa [List.append_nil]
  | append_singleton ends b ih =>
    have hb : SshId.isLineEnd b = true := hends b (by simp)
    rw [← List.append_assoc, List.rdropWhile_concat_pos _ _ _ hb]
    apply ih
    intro c hc
    exact hends c (List.mem_append_left _ hc)

variable (s : IdText)

theorem IdText.not_isLineEnd : ∀ b ∈ s.text, SshId.isLineEnd b = false := by
  intro b hb
  have hlf : b ≠ 10 := fun h => s.noLf (h ▸ hb)
  have hcr : b ≠ 13 := fun h => s.noCr (h ▸ hb)
  simp [SshId.isLineEnd, hlf, hcr]

/-- What a single line is hashed as, and how it ends on the wire. -/
theorem SingleLine.spec {id : SshId} (h : SingleLine id) :
    ∃ s : IdText, id.asKexHashBytes = s.text ∧
      (id.write [] = s.text ++ [10] ∨ id.write [] = s.text ++ [13, 10]) := by
  cases h with
  | standard s => exact ⟨s, rfl, .inr rfl⟩
  | rawLf s => exact ⟨s, rdropWhile_append s.not_isLineEnd (List.all_eq_true.mp rfl), .inl rfl⟩
  | rawCrLf s => exact ⟨s, rdropWhile_append s.not_isLineEnd (List.all_eq_true.mp rfl), .inr rfl⟩

end Hash

section Scan

/-- The scanner passes what is not followed by a line feed. -/
theorem scanLine_skip {line : Bytes} {a : UInt8} (hline : 10 ∉ line) (ha : a ≠ 10) (rest : Bytes)
    (i : Nat) : scanLine (line ++ a :: rest) i = scanLine (a :: rest) (i + line.length) := by
  induction line generalizing i with
  | nil => rfl
  | cons c line ih =>
    have htail : 10 ∉ line := List.not_mem_of_not_mem_cons hline
    have hnext : scanLine (c :: (line ++ a :: rest)) i =
        scanLine (line ++ a :: rest) (i + 1) := by
      cases line with
      | nil =>
        show scanLine (c :: a :: rest) i = scanLine (a :: rest) (i + 1)
        rw [scanLine_cons, if_neg (fun h => ha h.2), if_neg ha]
      | cons d line =>
        have hd : d ≠ 10 := fun h => htail (h ▸ List.mem_cons_self)
        show scanLine (c :: d :: (line ++ a :: rest)) i = _
        rw [scanLine_cons, if_neg (fun h => hd h.2), if_neg hd]
        rfl
    rw [List.cons_append, hnext, ih htail, List.length_cons]
    congr 1
    omega

theorem scanLine_crlf {line : Bytes} (hline : 10 ∉ line) (rest : Bytes) :
    scanLine (line ++ [13, 10] ++ rest) 0 = some (line.length, line.length + 2) := by
  rw [List.append_assoc]
  show scanLine (line ++ 13 :: 10 :: rest) 0 = _
  rw [scanLine_skip hline (by decide), scanLine_cons, if_pos ⟨rfl, rfl⟩, Nat.zero_add]

theorem scanLine_lf {line : Bytes} (hne : line ≠ []) (hcr : 13 ∉ line) (hlf : 10 ∉ line)
    (rest : Bytes) :
    scanLine (line ++ [10] ++ rest) 0 = some (line.length, line.length + 1) := by
  obtain ⟨front, a, rfl⟩ : ∃ front a, line = front ++ [a] :=
    ⟨line.dropLast, line.getLast hne, (List.dropLast_append_getLast hne).symm⟩
  have ha : a ≠ 13 := by
    rintro rfl
    exact hcr (by simp)
  have ha' : a ≠ 10 := by
    rintro rfl
    exact hlf (by simp)
  have hfront : 10 ∉ front := fun h => hlf (List.mem_append_left _ h)
  rw [List.append_assoc, List.append_assoc]
  show scanLine (front ++ a :: 10 :: rest) 0 = _
  rw [scanLine_skip hfront ha', scanLine_cons, if_neg (fun h => ha h.1), if_pos rfl]
  simp

end Scan

section RoundTrip

variable {id : SshId}

theorem IdText.isIdentification (s : IdText) : isIdentification s.text = true := by
  rw [Russh.isIdentification, s.utf8]
  rcases s.starts with h | h
  · have hlength : 8 ≤ s.text.length := h.length_le
    have hbool : (ascii "SSH-2.0-").isPrefixOf s.text = true := List.isPrefixOf_iff_prefix.mpr h
    simp [hlength, hbool]
  · have hlength : 9 ≤ s.text.length := h.length_le
    have hbool : (ascii "SSH-1.99-").isPrefixOf s.text = true := List.isPrefixOf_iff_prefix.mpr h
    have height : 8 ≤ s.text.length := by omega
    simp [height, hbool]

theorem IdText.text_ne_nil (s : IdText) : s.text ≠ [] := by
  rintro h
  have hid := s.isIdentification
  rw [h] at hid
  cases hid

/-- The scanner ends the line where the writer did. -/
theorem SingleLine.firstLine (h : SingleLine id) (hfits : (id.write []).length ≤ bufferSize)
    (packets : Bytes) :
    firstLine (id.write [] ++ packets) =
      some (id.asKexHashBytes.length, (id.write []).length) := by
  obtain ⟨s, hhash, hwrite | hwrite⟩ := h.spec
  · rw [hhash]
    rw [hwrite] at hfits ⊢
    have hscan := scanLine_lf s.text_ne_nil s.noCr s.noLf []
    rw [List.append_nil] at hscan
    rw [firstLine_of_scanLine hscan hfits packets, List.length_append]
    rfl
  · rw [hhash]
    rw [hwrite] at hfits ⊢
    have hscan := scanLine_crlf s.noLf []
    rw [List.append_nil] at hscan
    rw [firstLine_of_scanLine hscan hfits packets, List.length_append]
    rfl

theorem SingleLine.take_write (h : SingleLine id) (packets : Bytes) :
    (id.write [] ++ packets).take id.asKexHashBytes.length = id.asKexHashBytes := by
  obtain ⟨s, hhash, hwrite | hwrite⟩ := h.spec
  · rw [hhash, hwrite, List.append_assoc, List.take_left]
  · rw [hhash, hwrite, List.append_assoc, List.take_left]

/-- However what was written is split into reads, the peer finds the string that the writer hashes,
and reads exactly the packets after it. -/
theorem readSshId_write (hline : SingleLine id) (hfits : (id.write []).length ≤ bufferSize)
    (packets : Bytes) (reads : Reads) (hreads : reads.stream = id.write [] ++ packets) :
    ∃ b rest, readSshId [] reads = .ok (b, rest) ∧ b.id = id.asKexHashBytes ∧
      (SshRead.mk (some b) rest).Delivers packets := by
  have hfirst := hline.firstLine hfits packets
  have htake := hline.take_write packets
  have hyes : isIdentification id.asKexHashBytes = true := by
    obtain ⟨s, hhash, -⟩ := hline.spec
    rw [hhash]
    exact s.isIdentification
  have hstart : StartsWithId reads.stream := by
    rw [hreads]
    exact ⟨_, _, hfirst, by rwa [htake]⟩
  obtain ⟨l, n, b, rest, hfound, hread, hid, hpending⟩ :=
    (returnsAt_of_startsWithId reads hstart).spec
  rw [hreads, hfirst] at hfound
  cases hfound
  refine ⟨b, rest, hread, ?_, ?_⟩
  · rw [hid, hreads, htake]
  · have hleft : (SshRead.mk (some b) rest).pending = packets := by
      rw [hpending, hreads, List.drop_left]
    rw [← hleft]
    exact SshRead.delivers_pending _

/-- The name that the tests send. -/
def acme : IdText where
  text := ascii "SSH-2.0-acme"
  utf8 := validUtf8_of_ascii (by decide)
  noCr := by decide
  noLf := by decide
  starts := .inl (by decide)

theorem readSshId_write_acme :
    ∃ b rest, readSshId [] (Reads.whole (SshId.write [] (.standard acme.text) ++ [0, 0, 0, 12])) =
        .ok (b, rest) ∧
      b.id = SshId.asKexHashBytes (.standard acme.text) ∧
      (SshRead.mk (some b) rest).Delivers [0, 0, 0, 12] :=
  readSshId_write (.standard acme) (by decide) [0, 0, 0, 12] (Reads.whole _)
    (Reads.stream_whole _)

end RoundTrip

end Edgessh.Russh
