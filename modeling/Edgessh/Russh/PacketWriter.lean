import Edgessh.Lib.Command
import Edgessh.Russh.Event

/-!
# The packet writer

`sshbuffer.rs` and `compression.rs`. The bytes of a sealed packet are the business of the cipher;
here a packet is what was sealed, with the key and the sequence number.
-/

namespace Edgessh.Russh
open Edgessh.Command

/-- `compression::Compress`; a zlib stream is given by its inputs since the last reset. -/
inductive Compress where
  | none
  | zlib (inputs : List Bytes)
  deriving DecidableEq, Repr

/-- `compression::Decompress`. -/
inductive Decompress where
  | none
  | zlib (inputs : List Bytes)
  deriving DecidableEq, Repr

/-- `Compression::init_compress`. -/
def Compression.initCompress : Compression → Compress
  | .zlib => .zlib []
  | .none => .none

/-- `Compression::init_decompress`. -/
def Compression.initDecompress : Compression → Decompress
  | .zlib => .zlib []
  | .none => .none

/-- `Compress::compress`. -/
def Compress.compress (P : Primitives) (input : Bytes) :
    Compress → Except Exn (Bytes × Compress)
  | .none => pure (input, .none)
  | .zlib inputs =>
    match P.deflate inputs input with
    | some output => pure (output, .zlib (inputs ++ [input]))
    | Option.none => throw (Exn.error .compress)

/-- `Decompress::decompress`. -/
def Decompress.decompress (P : Primitives) (input : Bytes) :
    Decompress → Except Exn (Bytes × Decompress)
  | .none => pure (input, .none)
  | .zlib inputs =>
    match P.inflate inputs input with
    | some output => pure (output, .zlib (inputs ++ [input]))
    | Option.none => throw (Exn.error .decompress)

/-- `PacketWriter`, with the events of the session: a packet is appended to them when it is
sealed. `bytes` and `seqn` are those of the write buffer. -/
structure PacketWriter where
  cipher : CipherKey := .clear
  compress : Compress := .none
  bytes : Nat := 0
  seqn : UInt32 := 0
  /-- How often the cipher has been set. -/
  epoch : Nat := 0
  events : List Event := []
  deriving DecidableEq

namespace PacketWriter

def record (event : Event) (w : PacketWriter) : PacketWriter :=
  { w with events := w.events ++ [event] }

def recordAll (events : List Event) (w : PacketWriter) : PacketWriter :=
  { w with events := w.events ++ events }

/-- `SealingKey::write`. -/
def write (message : Message) (size : Nat) (w : PacketWriter) : PacketWriter :=
  { w with
    bytes := w.bytes + size
    seqn := w.seqn + 1
    events := w.events ++ [.packet ⟨message, w.cipher, w.epoch, w.seqn⟩] }

/-- `packet_raw`: an empty packet is not sent. -/
def packetRaw (P : Primitives) (message : Message) (w : PacketWriter) :
    Except Exn PacketWriter :=
  if message.encode = [] then pure w
  else do
    let (packet, compress) ← w.compress.compress P message.encode
    pure ({ w with compress }.write message packet.length)

/-- `set_cipher`. -/
def setCipher (cipher : CipherKey) (w : PacketWriter) : PacketWriter :=
  { w with cipher, epoch := w.epoch + 1, events := w.events ++ [.setCipher cipher] }

/-- `reset_seqn`. -/
def resetSeqn (w : PacketWriter) : PacketWriter := { w with seqn := 0 }

end PacketWriter

/-- What sealing one packet changes. -/
theorem packetRaw_eq_ok {P : Primitives} {m : Message} {w w' : PacketWriter}
    (h : w.packetRaw P m = .ok w') :
    w'.cipher = w.cipher ∧ w'.epoch = w.epoch ∧
      ((m.encode = [] ∧ w' = w) ∨
        (m.encode ≠ [] ∧ w'.seqn = w.seqn + 1 ∧
          w'.events = w.events ++ [.packet ⟨m, w.cipher, w.epoch, w.seqn⟩])) := by
  unfold PacketWriter.packetRaw at h
  by_cases hm : m.encode = []
  · rw [if_pos hm] at h
    obtain rfl := pure_eq_ok.mp h
    exact ⟨rfl, rfl, .inl ⟨hm, rfl⟩⟩
  · rw [if_neg hm] at h
    obtain ⟨⟨packet, compress⟩, hc, h⟩ := bind_eq_ok.mp h
    obtain rfl := pure_eq_ok.mp h
    exact ⟨rfl, rfl, .inr ⟨hm, rfl, rfl⟩⟩

end Edgessh.Russh
