import Edgessh.Lib.Command
import Edgessh.Lib.Run
import Edgessh.Russh.Compression
import Edgessh.Russh.Negotiation

/-!
# Reading packets

`cipher::read` of `cipher/mod.rs` with the opening keys of `cipher/*.rs`, and the reading arm of
the session loops, which checks the length and decompresses. A slice that is out of range and a
subtraction below zero throw `panic`.
-/

namespace Edgessh.Russh
open Edgessh.Command Edgessh.Run

/-- `Mac::mac_len`. -/
def MacName.macLen : MacName → Nat
  | none => 0
  | hmacSha1 | hmacSha1Etm => 20
  | hmacSha256 | hmacSha256Etm => 32
  | hmacSha512 | hmacSha512Etm => 64

/-- `Mac::is_etm`. -/
def MacName.isEtm : MacName → Bool
  | hmacSha1Etm | hmacSha256Etm | hmacSha512Etm => true
  | _ => false

/-- What the opening keys use of other crates. Data is transformed in place, so that it keeps its
length, and what is returned of it is a part of it. -/
structure CipherCrates where
  /-- `Ctr128BE` -/
  Stream : Type
  newStream : CipherName → Bytes → Bytes → Stream
  applyKeystream (s : Stream) (data : Bytes) : ByteArrayN data.length × Stream
  /-- `cbc::Decryptor` -/
  Cbc : Type
  newCbc : CipherName → Bytes → Bytes → Cbc
  decryptBlock : Cbc → ByteArrayN 16 → ByteArrayN 16 × Cbc
  /-- `aead::OpeningKey` -/
  Aead : Type
  newAead : CipherName → Bytes → Bytes → Aead
  openInPlace (key : Aead) (aad : Bytes) (data : Bytes) :
    Option { b : Bytes // b.length ≤ data.length } × Aead
  /-- `chacha20_poly1305_openssh::OpeningKey` -/
  ChaCha : Type
  newChaCha : Bytes → ChaCha
  chachaPacketLength : ChaCha → UInt32 → ByteArrayN 4 → ByteArrayN 4
  /-- the part behind the packet length -/
  chachaOpen (key : ChaCha) (seqn : UInt32) (packetLength : ByteArrayN 4) (data : Bytes)
    (tag : ByteArrayN 16) : Option { b : Bytes // b.length ≤ data.length }
  hmac : MacName → Bytes → Bytes → Bytes

/-- `SshBlockCipher<C>`: the cipher of a block opening key. -/
inductive BlockCipher (C : CipherCrates) where
  | ctr (s : C.Stream)
  | cbc (s : C.Cbc)

/-- `Box<dyn Mac>` -/
structure Mac where
  name : MacName
  key : Bytes
  deriving DecidableEq, Repr

/-- `Mac::verify`. -/
def Mac.verify (C : CipherCrates) (mac : Mac) (seqn : UInt32) (payload tag : Bytes) : Bool :=
  match mac.name with
  | .none => true
  | name => C.hmac name mac.key (encodeU32 seqn.toNat ++ payload) == tag

/-- `Box<dyn OpeningKey>` -/
inductive OpeningKey (C : CipherCrates) where
  | clear
  | block (cipher : BlockCipher C) (mac : Mac)
  | gcm (key : C.Aead)
  | chacha20Poly1305 (key : C.ChaCha)

/-- `SSHBuffer`, as far as packets are read into it. -/
structure SSHBuffer where
  buffer : Bytes := []
  len : Nat := 0
  seqn : UInt32 := 0
  deriving DecidableEq, Repr

/-- `crate::Error`, as far as reading returns it. -/
inductive ReadError where
  | unexpectedEof
  | packetSize (len : Nat)
  | packetAuth
  | decryptionError
  | indexOutOfBounds
  | decompress
  deriving DecidableEq, Repr

/-- Why reading does not return. -/
inductive ReadExn where
  | error (e : ReadError)
  | panic
  /-- A loop that has not ended. -/
  | diverge
  deriving DecidableEq, Repr

variable {C : CipherCrates} {D : Flate2.Engine}

/-- `CbcWrapper::decrypt_data`: the chunks of 16 bytes, and what is left behind them as it is. -/
def decryptChunks (C : CipherCrates) : Nat → C.Cbc → Bytes → Bytes × C.Cbc
  | 0, s, data => (data, s)
  | n + 1, s, data =>
    if h : (data.take 16).length = 16 then
      let (block, s) := C.decryptBlock s ⟨data.take 16, h⟩
      let (rest, s) := decryptChunks C n s (data.drop 16)
      (block.val ++ rest, s)
    else (data, s)

/-- `BlockStreamCipher::decrypt_data`. -/
def BlockCipher.decryptData (data : Bytes) : BlockCipher C → Bytes × BlockCipher C
  | .ctr s => ((C.applyKeystream s data).1.val, .ctr (C.applyKeystream s data).2)
  | .cbc s =>
    ((decryptChunks C (data.length / 16) s data).1,
      .cbc (decryptChunks C (data.length / 16) s data).2)

/-- `try_into` of a slice into an array. -/
def tryIntoArray (n : Nat) (b : Bytes) : Except ReadExn (ByteArrayN n) :=
  if h : b.length = n then pure ⟨b, h⟩ else throw .panic

/-- `&b[i..]` -/
def sliceFrom (i : Nat) (b : Bytes) : Except ReadExn Bytes :=
  if i ≤ b.length then pure (b.drop i) else throw .panic

/-- `&b[..i]` -/
def sliceTo (i : Nat) (b : Bytes) : Except ReadExn Bytes :=
  if i ≤ b.length then pure (b.take i) else throw .panic

/-- `a - b` -/
def checkedSub (a b : Nat) : Except ReadExn Nat :=
  if b ≤ a then pure (a - b) else throw .panic

namespace OpeningKey

/-- `packet_length_to_read_for_block_length`. -/
def packetLengthToRead : OpeningKey C → Nat
  | .block _ _ => 16
  | _ => 4

/-- `tag_len`. -/
def tagLen : OpeningKey C → Nat
  | .clear => 0
  | .block _ mac => mac.name.macLen
  | .gcm _ => 16
  | .chacha20Poly1305 _ => 16

/-- `decrypt_packet_length`. -/
def decryptPacketLength (seqn : UInt32) (encrypted : Bytes) :
    OpeningKey C → Except ReadExn (ByteArrayN 4)
  | .clear => tryIntoArray 4 encrypted
  | .gcm _ => tryIntoArray 4 encrypted
  | .chacha20Poly1305 key => do
    let encrypted ← tryIntoArray 4 encrypted
    pure (C.chachaPacketLength key seqn encrypted)
  | .block cipher mac => do
    let firstBlock ← sliceTo 16 encrypted
    if mac.name.isEtm then
      let packetLength ← sliceTo 4 encrypted
      tryIntoArray 4 packetLength
    else
      -- the copy of the cipher is dropped
      let packetLength ← sliceTo 4 (cipher.decryptData firstBlock).1
      tryIntoArray 4 packetLength

/-- What `open` leaves: the buffer, the length of the plaintext in it behind the first four bytes,
and the key. -/
abbrev Opened (C : CipherCrates) := Bytes × Nat × OpeningKey C

/-- `open`. -/
def «open» (seqn : UInt32) (ciphertextAndTag : Bytes) :
    OpeningKey C → Except ReadExn (Opened C)
  | .clear => do
    let plaintext ← sliceFrom 4 ciphertextAndTag
    pure (ciphertextAndTag, plaintext.length, .clear)
  | .block cipher mac => do
    let ciphertextLen ← checkedSub ciphertextAndTag.length mac.name.macLen
    let ciphertext := ciphertextAndTag.take ciphertextLen
    let tag := ciphertextAndTag.drop ciphertextLen
    if mac.name.isEtm then
      if !mac.verify C seqn ciphertext tag then throw (.error .packetAuth)
      let encrypted ← sliceFrom 4 ciphertext
      let (decrypted, cipher) := cipher.decryptData encrypted
      pure (ciphertext.take 4 ++ decrypted ++ tag, decrypted.length, .block cipher mac)
    else
      let (decrypted, cipher) := cipher.decryptData ciphertext
      if !mac.verify C seqn decrypted tag then throw (.error .packetAuth)
      let plaintext ← sliceFrom 4 decrypted
      pure (decrypted ++ tag, plaintext.length, .block cipher mac)
  | .gcm key => do
    let packetLength ← sliceTo 4 ciphertextAndTag
    let data ← sliceFrom 4 ciphertextAndTag
    match C.openInPlace key packetLength data with
    | (some plaintext, key) =>
      pure (packetLength ++ plaintext.val ++ data.drop plaintext.val.length,
        plaintext.val.length, .gcm key)
    | (none, _) => throw (.error .decryptionError)
  | .chacha20Poly1305 key => do
    let ciphertextLen ← checkedSub ciphertextAndTag.length 16
    let ciphertext := ciphertextAndTag.take ciphertextLen
    let tag ← tryIntoArray 16 (ciphertextAndTag.drop ciphertextLen)
    -- the crate cuts the packet length off
    let packetLength ← sliceTo 4 ciphertext
    let packetLength ← tryIntoArray 4 packetLength
    let data ← sliceFrom 4 ciphertext
    match C.chachaOpen key seqn packetLength data tag with
    | some plaintext =>
      pure (packetLength.val ++ plaintext.val ++ data.drop plaintext.val.length ++ tag.val,
        plaintext.val.length, .chacha20Poly1305 key)
    | none => throw (.error .decryptionError)

end OpeningKey

/-- `Cipher::make_opening_key` of the cipher and the MAC that have been negotiated. -/
def makeOpeningKey (C : CipherCrates) (cipher : CipherName) (key nonce macKey : Bytes)
    (mac : MacName) : OpeningKey C :=
  match cipher with
  | .clear | .none => .clear
  | .aes128Ctr | .aes192Ctr | .aes256Ctr =>
    .block (.ctr (C.newStream cipher key nonce)) ⟨mac, macKey⟩
  | .aes128Cbc | .aes192Cbc | .aes256Cbc =>
    .block (.cbc (C.newCbc cipher key nonce)) ⟨mac, macKey⟩
  | .aes128Gcm | .aes256Gcm => .gcm (C.newAead cipher key nonce)
  | .chacha20Poly1305 => .chacha20Poly1305 (C.newChaCha key)

/-- A session that reads: what the peer still sends, and the lengths that have been asked for since
the reading of a packet began. -/
structure Reader (C : CipherCrates) (D : Flate2.Engine) where
  stream : Bytes
  buffer : SSHBuffer := {}
  key : OpeningKey C := .clear
  /-- The decompression of a session that has keys. -/
  decompress : Option (Flate2.Decompress D) := none
  allocated : List Nat := []

abbrev ReadM (C : CipherCrates) (D : Flate2.Engine) := EStateM ReadExn (Reader C D)

/-- The limits of `cipher/mod.rs`. -/
def maximumPacketLen : Nat := 256 * 1024

/-- `BigEndian::read_u32`. -/
def readU32 (b : ByteArrayN 4) : Nat :=
  match b.val with
  | [a, b, c, d] => u32OfBytes a b c d
  | _ => 0

/-- `read_exact` -/
def readExact (n : Nat) : ReadM C D Bytes := do
  let s ← get
  if s.stream.length < n then throw (.error .unexpectedEof)
  set { s with stream := s.stream.drop n }
  pure (s.stream.take n)

/-- `buffer.buffer.resize` -/
def resizeBuffer (size : Nat) : ReadM C D Unit :=
  modify fun s =>
    { s with
      buffer := { s.buffer with buffer := Flate2.resize size s.buffer.buffer }
      allocated := s.allocated ++ [size] }

/-- The first block, and the length in it. -/
def readLength : ReadM C D Unit := do
  let s ← get
  let n := s.key.packetLengthToRead
  modify fun s => { s with allocated := s.allocated ++ [n] }
  let len ← readExact n
  modify fun s =>
    { s with
      buffer := { s.buffer with buffer := len }
      allocated := s.allocated ++ [len.length] }
  let len ← ofExcept (s.key.decryptPacketLength s.buffer.seqn len)
  let len := readU32 len
  if maximumPacketLen < len then throw (.error (.packetSize len))
  modify fun s => { s with buffer := { s.buffer with len := len + s.key.tagLen } }

/-- The rest of the packet, opened and without its padding. -/
def readRest : ReadM C D Nat := do
  let s ← get
  resizeBuffer (s.buffer.len + 4)
  let s ← get
  let l := s.key.packetLengthToRead
  let rest ← ofExcept (sliceFrom l s.buffer.buffer)
  let rest ← readExact rest.length
  let (buffer, plaintextLen, key) ←
    ofExcept (s.key.open s.buffer.seqn (s.buffer.buffer.take l ++ rest))
  modify fun s => { s with key, buffer := { s.buffer with buffer } }
  let paddingLength := (((buffer.drop 4).take plaintextLen).head?.getD 0).toNat
  if plaintextLen < paddingLength then throw (.error .indexOutOfBounds)
  let plaintextEnd := plaintextLen - paddingLength
  modify fun s => { s with buffer := { s.buffer with seqn := s.buffer.seqn + 1, len := 0 } }
  resizeBuffer (plaintextEnd + 4)
  pure (plaintextEnd + 4)

/-- `cipher::read`. -/
def read : ReadM C D Nat := do
  let s ← get
  if s.buffer.len = 0 then readLength
  readRest

/-- `buffer.buffer.clear` -/
def Reader.clear (s : Reader C D) : Reader C D :=
  { s with buffer := { s.buffer with buffer := [] }, allocated := [] }

/-- `start_reading`. -/
def startReading : ReadM C D Nat := do
  modify Reader.clear
  read

/-- The payload is copied into an `IncomingSshPacket`. -/
def intoPacket (payload : Bytes) : ReadM C D Bytes := do
  modify fun s => { s with allocated := s.allocated ++ [payload.length] }
  pure payload

/-- `maybe_decompress`; `fuel` bounds the loop of the decompression. -/
def Reader.maybeDecompress (fuel : Nat) : ReadM C D Bytes := do
  let s ← get
  let input ← ofExcept (sliceFrom 5 s.buffer.buffer)
  match s.decompress with
  | none => intoPacket input
  | some decompress =>
    match decompress.decompress fuel input with
    | none => throw .diverge
    | some r =>
      modify fun s => { s with allocated := s.allocated ++ r.sizes }
      match r.value with
      | .error .panic => throw .panic
      | .error _ => throw (.error .decompress)
      | .ok r =>
        modify fun s => { s with decompress := some r.state }
        intoPacket r.slice

/-- What the session does with the buffer: without a packet in it the loop ends. -/
def takePacket (fuel : Nat) : ReadM C D (Option Bytes) := do
  let s ← get
  if s.buffer.buffer.length < 5 then pure none
  else
    let packet ← Reader.maybeDecompress fuel
    pure (some packet)

/-- The reading arm of the session loops. -/
def readingArm (fuel : Nat) : ReadM C D (Option Bytes) := do
  let _ ← startReading
  takePacket fuel

section Specs

variable {s : Reader C D} {b data : Bytes} {n : Nat}

/-- The exception is one that reading returns as an error. -/
def ReadExn.IsError : ReadExn → Prop
  | .error _ => True
  | _ => False

@[simp] theorem wpExcept_tryIntoArray {Q : ByteArrayN n → Prop} {E : ReadExn → Prop} :
    wpExcept (tryIntoArray n b) Q E ↔
      (∀ h : b.length = n, Q ⟨b, h⟩) ∧ (b.length ≠ n → E .panic) := by
  unfold tryIntoArray
  split <;> simp_all

@[simp] theorem wpExcept_sliceFrom {Q : Bytes → Prop} {E : ReadExn → Prop} :
    wpExcept (sliceFrom n b) Q E ↔ (n ≤ b.length → Q (b.drop n)) ∧ (b.length < n → E .panic) := by
  unfold sliceFrom
  by_cases h : n ≤ b.length
  · simp [h]
  · simp [h, Nat.lt_of_not_le h]

@[simp] theorem wpExcept_sliceTo {Q : Bytes → Prop} {E : ReadExn → Prop} :
    wpExcept (sliceTo n b) Q E ↔ (n ≤ b.length → Q (b.take n)) ∧ (b.length < n → E .panic) := by
  unfold sliceTo
  by_cases h : n ≤ b.length
  · simp [h]
  · simp [h, Nat.lt_of_not_le h]

@[simp] theorem wpExcept_checkedSub {a c : Nat} {Q : Nat → Prop} {E : ReadExn → Prop} :
    wpExcept (checkedSub a c) Q E ↔ (c ≤ a → Q (a - c)) ∧ (a < c → E .panic) := by
  unfold checkedSub
  by_cases h : c ≤ a
  · simp [h]
  · simp [h, Nat.lt_of_not_le h]

theorem length_decryptChunks (n : Nat) (key : C.Cbc) (data : Bytes) :
    (decryptChunks C n key data).1.length = data.length := by
  induction n generalizing key data with
  | zero => rfl
  | succ n ih =>
    rw [decryptChunks]
    split
    · next h =>
      rw [List.length_take] at h
      simp only [List.length_append, ih, List.length_drop]
      rw [(C.decryptBlock key _).1.property]
      omega
    · rfl

theorem length_decryptData (data : Bytes) (cipher : BlockCipher C) :
    (cipher.decryptData data).1.length = data.length := by
  cases cipher with
  | ctr key => exact (C.applyKeystream key data).1.property
  | cbc key => exact length_decryptChunks _ key data

/-- The length is decrypted from the bytes that are read for it. -/
theorem decryptPacketLength_ok {key : OpeningKey C} {seqn : UInt32}
    (h : b.length = key.packetLengthToRead) : ∃ l, key.decryptPacketLength seqn b = .ok l := by
  have hwp : wpExcept (key.decryptPacketLength seqn b) (fun _ => True) fun _ => False := by
    cases key with
    | clear => simpa [OpeningKey.decryptPacketLength, OpeningKey.packetLengthToRead] using h
    | gcm _ => simpa [OpeningKey.decryptPacketLength, OpeningKey.packetLengthToRead] using h
    | chacha20Poly1305 _ =>
      simpa [OpeningKey.decryptPacketLength, OpeningKey.packetLengthToRead] using h
    | block cipher mac =>
      have h : b.length = 16 := h
      have hlen := length_decryptData (b.take 16) cipher
      rw [List.length_take] at hlen
      simp only [OpeningKey.decryptPacketLength, wpExcept_bind, wpExcept_sliceTo]
      refine ⟨fun _ => ?_, fun hlt => by omega⟩
      split
      · simp only [wpExcept_bind, wpExcept_sliceTo, wpExcept_tryIntoArray, List.length_take]
        refine ⟨fun _ => ⟨fun _ => trivial, fun hne => by omega⟩, fun hlt => by omega⟩
      · simp only [wpExcept_bind, wpExcept_sliceTo, wpExcept_tryIntoArray, List.length_take]
        refine ⟨fun _ => ⟨fun _ => trivial, fun hne => by omega⟩, fun hlt => by omega⟩
  obtain ⟨-, hfail⟩ := wpExcept_iff.mp hwp
  cases hresult : key.decryptPacketLength seqn b with
  | ok l => exact ⟨l, rfl⟩
  | error e => exact absurd (hfail e hresult) id

/-- Opening a buffer with room for the packet length and the tag does not panic, and the plaintext
is a part of the buffer. -/
theorem open_spec {key : OpeningKey C} {seqn : UInt32} (h : key.tagLen + 4 ≤ b.length) :
    wpExcept (key.open seqn b) (fun r => r.2.1 + 4 ≤ b.length) ReadExn.IsError := by
  cases key with
  | clear =>
    simp only [OpeningKey.open, wpExcept_bind, wpExcept_sliceFrom, wpExcept_pure, List.length_drop]
    have h : 0 + 4 ≤ b.length := h
    refine ⟨fun _ => by omega, fun hlt => by omega⟩
  | block cipher mac =>
    have h : mac.name.macLen + 4 ≤ b.length := h
    simp only [OpeningKey.open, wpExcept_bind, wpExcept_checkedSub]
    refine ⟨fun hle => ?_, fun hlt => by omega⟩
    split
    · -- the tag is checked before anything is decrypted
      split
      · simp [ReadExn.IsError]
      · simp only [wpExcept_pure, wpExcept_sliceFrom, wpExcept_bind, length_decryptData,
          List.length_drop, List.length_take]
        refine ⟨fun _ => by omega, fun hlt => by omega⟩
    · split
      · simp [ReadExn.IsError]
      · simp only [wpExcept_pure, wpExcept_sliceFrom, wpExcept_bind, length_decryptData,
          List.length_drop, List.length_take]
        refine ⟨fun _ => by omega, fun hlt => by omega⟩
  | gcm key =>
    have h : 16 + 4 ≤ b.length := h
    simp only [OpeningKey.open, wpExcept_bind, wpExcept_sliceFrom, wpExcept_sliceTo]
    refine ⟨fun _ => ⟨fun _ => ?_, fun hlt => by omega⟩, fun hlt => by omega⟩
    rcases hopen : C.openInPlace key (b.take 4) (b.drop 4) with ⟨_ | plaintext, key'⟩
    · trivial
    · have hle := plaintext.property
      have hdrop : (b.drop 4).length = b.length - 4 := List.length_drop
      show plaintext.val.length + 4 ≤ b.length
      omega
  | chacha20Poly1305 key =>
    have h : 16 + 4 ≤ b.length := h
    simp only [OpeningKey.open, wpExcept_bind, wpExcept_checkedSub, wpExcept_tryIntoArray,
      wpExcept_sliceFrom, wpExcept_sliceTo, List.length_drop, List.length_take]
    refine ⟨fun _ => ⟨fun htag => ⟨fun _ => ⟨fun hlen => ⟨fun _ => ?_, fun hlt => by omega⟩,
      fun hne => by omega⟩, fun hlt => by omega⟩, fun hne => by omega⟩, fun hlt => by omega⟩
    split
    · next plaintext _ =>
      have hle := plaintext.property
      simp only [List.length_drop, List.length_take] at hle
      show plaintext.val.length + 4 ≤ b.length
      omega
    · trivial

/-- The largest length that reading a packet asks for: the packet, the longest tag and the packet
length. -/
def maximumAllocation : Nat := maximumPacketLen + 64 + 4

/-- Every length asked for is one that has been checked. -/
def Reader.Bounded (s : Reader C D) : Prop := ∀ n ∈ s.allocated, n ≤ maximumAllocation

theorem Reader.Bounded.append {t : Reader C D} (hs : s.Bounded) {ns : List Nat}
    (ht : t.allocated = s.allocated ++ ns) (hns : ∀ n ∈ ns, n ≤ maximumAllocation) :
    t.Bounded := by
  intro n hn
  rw [ht] at hn
  rcases List.mem_append.mp hn with hn | hn
  · exact hs n hn
  · exact hns n hn

theorem tagLen_le (key : OpeningKey C) : key.tagLen ≤ 64 := by
  cases key with
  | clear => exact Nat.zero_le _
  | gcm _ => show 16 ≤ 64; omega
  | chacha20Poly1305 _ => show 16 ≤ 64; omega
  | block _ mac =>
    show mac.name.macLen ≤ 64
    cases mac.name <;> decide

theorem packetLengthToRead_le (key : OpeningKey C) : key.packetLengthToRead ≤ 16 := by
  cases key <;> simp [OpeningKey.packetLengthToRead]

@[simp] theorem wp_readExact {Q : Bytes → Reader C D → Prop} {E : ReadExn → Reader C D → Prop} :
    wp (readExact n) Q E s ↔
      (s.stream.length < n → E (.error .unexpectedEof) s) ∧
        (n ≤ s.stream.length →
          Q (s.stream.take n) { s with stream := s.stream.drop n }) := by
  unfold readExact
  simp only [wp_bind, wp_get]
  by_cases h : s.stream.length < n
  · simp [h, Nat.not_le_of_lt h]
  · simp [h, Nat.le_of_not_lt h]

/-- What `readLength` leaves. -/
structure LengthRead (s t : Reader C D) (l : ByteArrayN 4) : Prop where
  enough : s.key.packetLengthToRead ≤ s.stream.length
  length : s.key.decryptPacketLength s.buffer.seqn
    (s.stream.take s.key.packetLengthToRead) = .ok l
  le : readU32 l ≤ maximumPacketLen
  key : t.key = s.key
  decompress : t.decompress = s.decompress
  len : t.buffer.len = readU32 l + s.key.tagLen
  allocated : t.Bounded

theorem wp_readLength (hs : s.Bounded) :
    wp readLength (fun _ t => ∃ l, LengthRead s t l) (fun e t => e.IsError ∧ t.Bounded) s := by
  have hn := packetLengthToRead_le s.key
  have hbound : 16 ≤ maximumAllocation := by decide
  unfold readLength
  simp only [wp_bind, wp_get, wp_modify, wp_readExact, wp_ofExcept]
  constructor
  · intro _
    refine ⟨trivial, hs.append rfl ?_⟩
    intro n hn'
    rw [List.mem_singleton.mp hn']
    omega
  · intro henough
    have hlen : (s.stream.take s.key.packetLengthToRead).length = s.key.packetLengthToRead := by
      rw [List.length_take]
      omega
    obtain ⟨l, hl⟩ : ∃ l, s.key.decryptPacketLength s.buffer.seqn
      (s.stream.take s.key.packetLengthToRead) = .ok l := decryptPacketLength_ok hlen
    have hallocated : ∀ n ∈ [s.key.packetLengthToRead,
        (s.stream.take s.key.packetLengthToRead).length], n ≤ maximumAllocation := by
      intro n hn'
      rcases List.mem_cons.mp hn' with rfl | hn'
      · omega
      · rw [List.mem_singleton.mp hn', hlen]
        omega
    simp only [hl, wpExcept_ok]
    by_cases hmax : maximumPacketLen < readU32 l
    · simp only [hmax, if_true]
      exact ⟨trivial, hs.append (List.append_assoc _ _ _) hallocated⟩
    · simp only [hmax, if_false]
      exact ⟨l, henough, hl, Nat.le_of_not_lt hmax, rfl, rfl, rfl,
        hs.append (List.append_assoc _ _ _) hallocated⟩

/-- The rest of a packet is read if the buffer is at least as long as what has been read. -/
theorem wp_readRest (hs : s.Bounded) (hlen : s.key.tagLen ≤ s.buffer.len)
    (hmax : s.buffer.len + 4 ≤ maximumAllocation)
    (hblock : s.key.packetLengthToRead ≤ s.buffer.len + 4) :
    wp readRest (fun _ t => t.Bounded ∧ t.buffer.len = 0 ∧
        t.buffer.buffer.length ≤ maximumAllocation)
      (fun e t => e.IsError ∧ t.Bounded) s := by
  unfold readRest resizeBuffer
  simp only [wp_bind, wp_get, wp_modify, wp_readExact, wp_ofExcept, wpExcept_sliceFrom,
    Flate2.length_resize, List.length_drop]
  have hresized : ∀ n ∈ [s.buffer.len + 4], n ≤ maximumAllocation := by
    intro n hn
    rw [List.mem_singleton.mp hn]
    exact hmax
  refine ⟨fun _ => ⟨fun _ => ⟨trivial, hs.append rfl hresized⟩, fun henough => ?_⟩,
    fun hlt => by omega⟩
  have htotal : (List.take s.key.packetLengthToRead
      (Flate2.resize (s.buffer.len + 4) s.buffer.buffer) ++
        List.take (s.buffer.len + 4 - s.key.packetLengthToRead) s.stream).length =
      s.buffer.len + 4 := by
    rw [List.length_append, List.length_take, List.length_take, Flate2.length_resize]
    omega
  refine wpExcept_mono (open_spec (by omega)) (fun r hr => ?_) fun e he =>
    ⟨he, hs.append rfl hresized⟩
  obtain ⟨buffer, plaintextLen, key⟩ := r
  have hplaintext : plaintextLen + 4 ≤ s.buffer.len + 4 := by
    rw [← htotal]
    exact hr
  dsimp only
  split
  · exact ⟨trivial, hs.append rfl hresized⟩
  · -- the padding is at most the plaintext, which is a part of the packet
    refine ⟨hs.append (List.append_assoc _ _ _) ?_, rfl, ?_⟩
    · intro n hn
      rcases List.mem_cons.mp hn with rfl | hn
      · exact hmax
      · rw [List.mem_singleton.mp hn]
        omega
    · show (Flate2.resize _ _).length ≤ maximumAllocation
      rw [Flate2.length_resize]
      omega

/-- A packet that is shorter than what has been read of it makes the slice of the rest panic. -/
theorem wp_readRest_panic (h : s.buffer.len + 4 < s.key.packetLengthToRead) :
    wp readRest (fun _ _ => False) (fun e _ => e = .panic) s := by
  unfold readRest resizeBuffer
  simp only [wp_bind, wp_get, wp_modify, wp_ofExcept, wpExcept_sliceFrom, Flate2.length_resize]
  exact ⟨fun hle => by omega, fun _ => trivial⟩

/-- Only a block cipher without a MAC can fail: its packet has at least the twelve bytes that are
read of it together with the packet length. -/
def Reader.LongEnough (s : Reader C D) : Prop :=
  ∀ cipher mac l, s.key = .block cipher mac → mac.name = .none → 16 ≤ s.stream.length →
    s.key.decryptPacketLength s.buffer.seqn (s.stream.take 16) = .ok l → 12 ≤ readU32 l

theorem Reader.LongEnough.block {t : Reader C D} {l : ByteArrayN 4} (h : s.LongEnough)
    (ht : LengthRead s t l) : t.key.packetLengthToRead ≤ t.buffer.len + 4 := by
  rw [ht.key, ht.len]
  have henough := ht.enough
  have hlength := ht.length
  cases hkey : s.key with
  | clear => show 4 ≤ _; omega
  | gcm _ => show 4 ≤ _; omega
  | chacha20Poly1305 _ => show 4 ≤ _; omega
  | block cipher mac =>
    show 16 ≤ readU32 l + mac.name.macLen + 4
    by_cases hmac : mac.name = .none
    · rw [hkey] at henough
      have hread : s.key.packetLengthToRead = 16 := by
        rw [hkey]
        rfl
      rw [hread] at hlength
      have := h cipher mac l hkey hmac henough hlength
      omega
    · have hlen : 20 ≤ mac.name.macLen := by
        cases hname : mac.name with
        | none => exact absurd hname hmac
        | _ => decide
      omega

/-- Where the condition fails, the length has been read and the rest of the packet panics. -/
theorem Reader.not_longEnough (h : ¬s.LongEnough) :
    s.key.packetLengthToRead = 16 ∧ s.key.tagLen = 0 ∧ 16 ≤ s.stream.length ∧
      ∃ l, s.key.decryptPacketLength s.buffer.seqn (s.stream.take 16) = .ok l ∧
        readU32 l < 12 := by
  unfold LongEnough at h
  push Not at h
  obtain ⟨cipher, mac, l, hkey, hmac, henough, hlength, hlt⟩ := h
  refine ⟨by rw [hkey]; rfl, ?_, henough, l, hlength, hlt⟩
  rw [hkey]
  show mac.name.macLen = 0
  rw [hmac]
  rfl

/-- The invariant of a session that reads: no packet is left half read. -/
def Reader.Idle (s : Reader C D) : Prop := s.buffer.len = 0

theorem wp_startReading (hs : s.Idle) (h : s.LongEnough) :
    wp startReading
      (fun _ t => t.Idle ∧ t.Bounded ∧ t.buffer.buffer.length ≤ maximumAllocation)
      (fun e t => e.IsError ∧ t.Bounded) s := by
  have hlen : s.clear.buffer.len = 0 := hs
  have hbounded : s.clear.Bounded := by rintro n ⟨⟩
  unfold startReading read
  simp only [wp_bind, wp_modify, wp_get, hlen, if_true]
  refine wp_mono (wp_readLength hbounded) ?_ fun _ _ he => he
  rintro _ t ⟨l, ht⟩
  have htag := tagLen_le s.key
  have hkey := ht.key
  have htlen := ht.len
  have hle := ht.le
  have hblock := Reader.LongEnough.block (s := s.clear) h ht
  have hmax : maximumAllocation = maximumPacketLen + 64 + 4 := rfl
  refine wp_mono (wp_readRest ht.allocated ?_ ?_ hblock) ?_ fun _ _ he => he
  · rw [hkey, htlen]
    omega
  · have htlen : t.buffer.len = readU32 l + s.key.tagLen := htlen
    omega
  · rintro _ u ⟨hb, hu, hlength⟩
    exact ⟨hu, hb, hlength⟩

theorem wp_startReading_panic (hs : s.Idle) (h : ¬s.LongEnough) :
    wp startReading (fun _ _ => False) (fun e _ => e = .panic) s := by
  obtain ⟨hread, htag, henough, l, hlength, hlt⟩ := Reader.not_longEnough h
  have hlen : s.clear.buffer.len = 0 := hs
  have hread' : s.clear.key.packetLengthToRead = 16 := hread
  have hlength' : s.clear.key.decryptPacketLength s.clear.buffer.seqn (s.clear.stream.take 16) =
    .ok l := hlength
  have hmax : ¬maximumPacketLen < readU32 l := by
    have : maximumPacketLen = 262144 := rfl
    omega
  unfold startReading read readLength
  simp only [wp_bind, wp_modify, wp_get, hlen, if_true, wp_readExact, wp_ofExcept, hread']
  have henough' : 16 ≤ s.clear.stream.length := henough
  refine ⟨fun hshort => by omega, fun _ => ?_⟩
  simp only [hlength', wpExcept_ok, hmax, if_false]
  refine wp_readRest_panic ?_
  show readU32 l + s.key.tagLen + 4 < s.key.packetLengthToRead
  rw [hread, htag]
  omega

/-- Decompressing leaves the buffer as it is. -/
theorem Reader.wp_maybeDecompress (fuel : Nat) :
    wp (Reader.maybeDecompress fuel) (fun _ t => t.buffer = s.buffer) (fun _ _ => True) s := by
  unfold Reader.maybeDecompress intoPacket
  simp only [wp_bind, wp_get, wp_ofExcept, wpExcept_sliceFrom]
  refine ⟨fun _ => ?_, fun _ => trivial⟩
  split
  · simp only [wp_bind, wp_modify, wp_pure]
  · split
    · trivial
    · simp only [wp_bind, wp_modify]
      split
      · trivial
      · trivial
      · simp only [wp_bind, wp_modify, wp_pure]

theorem wp_takePacket {Q : Option Bytes → Reader C D → Prop} {E : ReadExn → Reader C D → Prop}
    {fuel : Nat} : wp (takePacket fuel) Q E s ↔
      (s.buffer.buffer.length < 5 → Q none s) ∧
        (¬s.buffer.buffer.length < 5 →
          wp (Reader.maybeDecompress fuel) (fun b t => Q (some b) t) E s) := by
  unfold takePacket
  rw [wp_bind, wp_get, wp_ite, wp_pure, wp_bind]
  exact Iff.rfl

theorem wp_readingArm (hs : s.Idle) (h : s.LongEnough) (fuel : Nat) :
    wp (readingArm fuel) (fun _ t => t.Idle) (fun _ _ => True) s := by
  unfold readingArm
  rw [wp_bind]
  refine wp_mono (wp_startReading hs h) ?_ fun _ _ _ => trivial
  rintro _ t ⟨ht, -, -⟩
  refine wp_takePacket.mpr ⟨fun _ => ht, fun _ => ?_⟩
  refine wp_mono (Reader.wp_maybeDecompress fuel) ?_ fun _ _ he => he
  intro _ u hu
  show u.buffer.len = 0
  rw [hu]
  exact ht

/-- Inflating what is behind the first five bytes of the buffer takes no more room than reading a
packet may. -/
def Reader.Deflated (s : Reader C D) : Prop :=
  ∀ z, s.decompress = some (.zlib z) →
    ∀ p, Flate2.Calls D .ok (s.buffer.buffer.drop 5) z (s.buffer.buffer.drop 5).length p →
      p.2 ≤ maximumAllocation

/-- The loop of the decompression ends, and it returns a payload or an error. -/
theorem maybeDecompress_returns {rest : D.Z → Bytes → Nat} (hD : D.Finite rest) (hs : s.Bounded)
    (hlength : 5 ≤ s.buffer.buffer.length) (hle : s.buffer.buffer.length ≤ maximumAllocation)
    (hdeflated : s.Deflated) :
    ∃ fuel, wp (Reader.maybeDecompress fuel) (fun _ t => t.Bounded)
      (fun e t => e.IsError ∧ t.Bounded) s := by
  have hinput : (s.buffer.buffer.drop 5).length ≤ maximumAllocation := by
    rw [List.length_drop]
    omega
  unfold Reader.maybeDecompress intoPacket
  simp only [wp_bind, wp_get, wp_ofExcept, wpExcept_sliceFrom]
  rcases hd : s.decompress with _ | d
  · refine ⟨0, fun _ => ?_, fun hlt => by omega⟩
    simp only [wp_bind, wp_modify, wp_pure]
    exact hs.append rfl (by simpa using hinput)
  · obtain ⟨fuel, sizes, value, hr, hne⟩ :=
      Flate2.Decompress.returns hD d (s.buffer.buffer.drop 5)
    have hsizes : ∀ n ∈ sizes, n ≤ maximumAllocation := by
      intro n hn
      cases d with
      | none =>
        cases hr
        cases hn
      | zlib z =>
        obtain ⟨z', hcalls⟩ := (Flate2.Decompress.mem_sizes_iff hr).mp hn
        exact hdeflated z hd _ hcalls
    refine ⟨fuel, fun _ => ?_, fun hlt => by omega⟩
    simp only [wp_bind, wp_modify, hr]
    rcases value with e | r
    · cases e with
      | panic => exact absurd rfl hne
      | error _ => exact ⟨trivial, hs.append rfl hsizes⟩
      | diverge => exact ⟨trivial, hs.append rfl hsizes⟩
      | blocked => exact ⟨trivial, hs.append rfl hsizes⟩
    · obtain ⟨n, hn, hslice⟩ := Flate2.Decompress.slice_length hr
      refine hs.append (List.append_assoc _ sizes [r.slice.length]) ?_
      intro k hk
      rcases List.mem_append.mp hk with hk | hk
      · exact hsizes k hk
      · rw [List.mem_singleton.mp hk]
        rcases List.mem_cons.mp hn with rfl | hn
        · omega
        · have := hsizes n hn
          omega

/-- If it returns within bounds, no call of its loop has asked for more. -/
theorem deflated_of_maybeDecompress {fuel : Nat} (hlength : 5 ≤ s.buffer.buffer.length)
    (h : wp (Reader.maybeDecompress fuel) (fun _ t => t.Bounded)
      (fun e t => e.IsError ∧ t.Bounded) s) : s.Deflated := by
  rintro z hd ⟨z', n⟩ hp
  unfold Reader.maybeDecompress intoPacket at h
  simp only [wp_bind, wp_get, wp_ofExcept, wpExcept_sliceFrom, hd] at h
  have hrun := h.1 hlength
  rcases hr : (Flate2.Decompress.zlib z).decompress fuel (s.buffer.buffer.drop 5) with _ | r
  · rw [hr] at hrun
    exact hrun.1.elim
  · have hn : n ∈ s.allocated ++ r.sizes :=
      List.mem_append_right _ ((Flate2.Decompress.mem_sizes_iff hr).mpr ⟨z', hp⟩)
    simp only [hr, wp_bind, wp_modify] at hrun
    rcases hvalue : r.value with e | r'
    · rw [hvalue] at hrun
      cases e with
      | panic => exact hrun.1.elim
      | error _ => exact hrun.2 n hn
      | diverge => exact hrun.2 n hn
      | blocked => exact hrun.2 n hn
    · rw [hvalue] at hrun
      exact hrun n (List.mem_append_left _ hn)

/-- Reading the next packet returns a payload, the end of the session or an error, and asks for
no length that has not been checked. -/
def Reader.Safe (s : Reader C D) : Prop :=
  ∃ fuel, wp (readingArm fuel) (fun _ t => t.Bounded) (fun e t => e.IsError ∧ t.Bounded) s

/-- The payload of the next packet, if there is one, inflates to no more than a packet may have. -/
def Reader.Inflatable (s : Reader C D) : Prop :=
  ∀ n t, startReading s = .ok n t → 5 ≤ t.buffer.buffer.length → t.Deflated

theorem wp_readingArm_iff {Q : Option Bytes → Reader C D → Prop}
    {E : ReadExn → Reader C D → Prop} {fuel : Nat} :
    wp (readingArm fuel) Q E s ↔ wp startReading (fun _ => wp (takePacket fuel) Q E) E s := by
  unfold readingArm
  rw [wp_bind]

theorem Reader.longEnough_of_safe (hs : s.Idle) (h : s.Safe) : s.LongEnough := by
  obtain ⟨fuel, hsafe⟩ := h
  by_contra hshort
  have hpanic := wp_startReading_panic hs hshort
  rw [wp_readingArm_iff] at hsafe
  unfold wp at hsafe hpanic
  cases hread : startReading s with
  | ok n t =>
    rw [hread] at hpanic
    exact hpanic
  | error e t =>
    rw [hread] at hpanic hsafe
    have hpanic : e = .panic := hpanic
    rw [hpanic] at hsafe
    exact hsafe.1

theorem Reader.inflatable_of_safe (h : s.Safe) : s.Inflatable := by
  obtain ⟨fuel, hsafe⟩ := h
  intro n t hread hlength
  rw [wp_readingArm_iff] at hsafe
  unfold wp at hsafe
  rw [hread] at hsafe
  have htake := (wp_takePacket.mp hsafe).2 (by omega)
  exact deflated_of_maybeDecompress hlength htake

theorem Reader.safe_iff {rest : D.Z → Bytes → Nat} (hD : D.Finite rest) (hs : s.Idle) :
    s.Safe ↔ s.LongEnough ∧ s.Inflatable := by
  constructor
  · intro h
    exact ⟨Reader.longEnough_of_safe hs h, Reader.inflatable_of_safe h⟩
  · rintro ⟨h, hinflatable⟩
    have hstart := wp_startReading hs h
    unfold wp at hstart
    cases hread : startReading s with
    | error e t =>
      rw [hread] at hstart
      refine ⟨0, wp_readingArm_iff.mpr ?_⟩
      unfold wp
      rw [hread]
      exact hstart
    | ok n t =>
      rw [hread] at hstart
      obtain ⟨-, hbounded, hle⟩ := hstart
      obtain ⟨fuel, htake⟩ : ∃ fuel, wp (takePacket fuel) (fun _ t => t.Bounded)
          (fun e t => e.IsError ∧ t.Bounded) t := by
        by_cases hshort : t.buffer.buffer.length < 5
        · exact ⟨0, wp_takePacket.mpr ⟨fun _ => hbounded, fun hlong => absurd hshort hlong⟩⟩
        · obtain ⟨fuel, hreturns⟩ := maybeDecompress_returns hD hbounded (by omega) hle
            (hinflatable n t hread (by omega))
          exact ⟨fuel, wp_takePacket.mpr ⟨fun h => absurd h hshort, fun _ => hreturns⟩⟩
      refine ⟨fuel, wp_readingArm_iff.mpr ?_⟩
      unfold wp
      rw [hread]
      exact htake

/-- What happens to a session that reads: the reading arm, the server's reading after the end of
its loop, new keys, a reset of the sequence number, the start of the decompression. -/
inductive ReaderEvent (D : Flate2.Engine) where
  | receive (fuel : Nat)
  | drain
  | newKeys (role : Role) (kexInit : Bytes) (pref : Preferred)
      (availableHostKeys : Option (List PrivateKey)) (cause : KexCause) (key nonce macKey : Bytes)
  | setSeqn (seqn : UInt32)
  | initDecompress (decompress : Flate2.Decompress D)

/-- The MAC of what the peer sends. -/
def Names.remoteToLocalMac (names : Names) : Role → MacName
  | .client => names.serverMac
  | .server => names.clientMac

namespace Reader

/-- A session that has read nothing. -/
def start (C : CipherCrates) (D : Flate2.Engine) (stream : Bytes) : Reader C D := { stream }

def next (s : Reader C D) : ReaderEvent D → Option (Reader C D)
  | .receive fuel =>
    match readingArm fuel s with
    | .ok _ t => some t
    | .error _ _ => none
  | .drain =>
    match startReading s with
    | .ok _ t => some t
    | .error _ _ => none
  | .newKeys role kexInit pref availableHostKeys cause key nonce macKey =>
    match readKex role kexInit pref availableHostKeys cause with
    | .ok names =>
      some { s with key := makeOpeningKey C names.cipher key nonce macKey
                      (names.remoteToLocalMac role) }
    | .error _ => none
  | .setSeqn seqn => some { s with buffer := { s.buffer with seqn } }
  | .initDecompress decompress => some { s with decompress := some decompress }

theorem idle_start (stream : Bytes) : (start C D stream).Idle := rfl

theorem idle_next {t : Reader C D} {e : ReaderEvent D} (hs : s.Idle) (ht : next s e = some t) :
    t.Idle := by
  -- a packet that is too short ends the run
  have hlong : ∀ {α : Type} {m : ReadM C D α} {a : α} {u : Reader C D},
      (¬s.LongEnough → wp m (fun _ _ => False) (fun e _ => e = .panic) s) →
        (s.LongEnough → wp m (fun _ t => t.Idle) (fun _ _ => True) s) →
          m s = .ok a u → u.Idle := by
    intro α m a u hpanic hidle hm
    by_cases h : s.LongEnough
    · have hu := hidle h
      unfold wp at hu
      rw [hm] at hu
      exact hu
    · have hu := hpanic h
      unfold wp at hu
      rw [hm] at hu
      exact hu.elim
  cases e with
  | receive fuel =>
    simp only [next] at ht
    split at ht
    · next hm =>
      cases ht
      refine hlong (fun h => ?_) (fun h => wp_readingArm hs h fuel) hm
      unfold readingArm
      exact wp_seq (wp_startReading_panic hs h) fun _ _ => False.elim
    · cases ht
  | drain =>
    simp only [next] at ht
    split at ht
    · next hm =>
      cases ht
      refine hlong (fun h => wp_startReading_panic hs h) (fun h => ?_) hm
      exact wp_mono (wp_startReading hs h) (fun _ _ h => h.1) fun _ _ _ => trivial
    · cases ht
  | newKeys role kexInit pref availableHostKeys cause key nonce macKey =>
    simp only [next] at ht
    split at ht
    · cases ht
      exact hs
    · cases ht
  | setSeqn seqn =>
    cases ht
    exact hs
  | initDecompress decompress =>
    cases ht
    exact hs

end Reader

/-- In every state that a session reaches, reading the next packet is safe if and only if the
packet is long enough and does not inflate to too much. -/
theorem inbound_packets_safe_iff {rest : D.Z → Bytes → Nat} (hD : D.Finite rest) {stream : Bytes}
    (h : Reaches Reader.next (Reader.start C D stream) s) :
    s.Safe ↔ s.LongEnough ∧ s.Inflatable :=
  Reader.safe_iff hD
    (reaches_invariant (fun _ _ _ hs ht => Reader.idle_next hs ht) (Reader.idle_start stream) h)

/-- Ciphers that leave the data as it is. -/
def CipherCrates.toy : CipherCrates where
  Stream := Unit
  newStream _ _ _ := ()
  applyKeystream _ data := (⟨data, rfl⟩, ())
  Cbc := Unit
  newCbc _ _ _ := ()
  decryptBlock _ block := (block, ())
  Aead := Unit
  newAead _ _ _ := ()
  openInPlace _ _ data := (some ⟨data, Nat.le_refl _⟩, ())
  ChaCha := Unit
  newChaCha _ := ()
  chachaPacketLength _ _ b := b
  chachaOpen _ _ _ data _ := some ⟨data, Nat.le_refl _⟩
  hmac _ _ _ := []

/-- AES in counter mode without a MAC. -/
def ctrWithoutMac : Preferred where
  kex := [.curve25519]
  key := [.ed25519]
  cipher := [.aes256Ctr]
  mac := [.none]
  compression := [.none]

/-- What is chosen if both sides prefer it. -/
def namesWithoutMac : Names where
  kex := .curve25519
  key := .ed25519
  cipher := .aes256Ctr
  clientMac := .none
  serverMac := .none
  serverCompression := .none
  clientCompression := .none
  ignoreGuessed := false
  strictKex := false

theorem readKex_withoutMac : readKex .client
    (kexInitPayload ctrWithoutMac none default) ctrWithoutMac none .initial =
      .ok namesWithoutMac := by
  decide +kernel

/-- A client that has these keys, with sixteen zero bytes to read. -/
def withoutMac : Reader CipherCrates.toy Flate2.doubling where
  stream := List.replicate 16 0
  key := .block (.ctr ()) ⟨.none, []⟩

theorem reaches_withoutMac :
    Reaches Reader.next (Reader.start CipherCrates.toy Flate2.doubling (List.replicate 16 0))
      withoutMac := by
  refine ⟨[.newKeys .client (kexInitPayload ctrWithoutMac none default) ctrWithoutMac none .initial
    [] [] []], ?_⟩
  rw [run_cons_eq_some]
  refine ⟨_, ?_, rfl⟩
  simp only [Reader.next, readKex_withoutMac]
  rfl

/-- A packet with a payload of one byte and ten bytes of padding. -/
def onePacket : Bytes := [0, 0, 0, 12, 10, 7] ++ List.replicate 10 0

/-- A session without keys that decompresses, with this packet to read. -/
def inflating : Reader CipherCrates.toy Flate2.doubling where
  stream := onePacket
  decompress := some (.zlib {})

theorem reaches_inflating :
    Reaches Reader.next (Reader.start CipherCrates.toy Flate2.doubling onePacket) inflating :=
  ⟨[.initDecompress (.zlib {})], rfl⟩

/-- The payload becomes two bytes, in an output of one, two and at last four. -/
theorem inbound_packets_safe_inflating :
    inflating.Safe ∧ inflating.LongEnough ∧ inflating.Inflatable := by
  have hsafe : inflating.Safe := by
    refine ⟨3, ?_⟩
    show ∀ n ∈ _, n ≤ maximumAllocation
    decide
  exact ⟨hsafe, (inbound_packets_safe_iff Flate2.doubling_finite reaches_inflating).mp hsafe⟩

/-- A packet length of zero leaves a buffer of four bytes, of which the part behind the sixteenth
is sliced. -/
theorem inbound_packets_safe_fails :
    ¬∀ (C : CipherCrates) (D : Flate2.Engine) (rest : D.Z → Bytes → Nat), D.Finite rest →
      ∀ (stream : Bytes) (s : Reader C D), Reaches Reader.next (Reader.start C D stream) s →
        s.Safe := by
  intro h
  have hsafe := h _ _ _ Flate2.doubling_finite _ _ reaches_withoutMac
  have hlong := Reader.longEnough_of_safe (s := withoutMac) rfl hsafe
  have hle := hlong (.ctr ()) ⟨.none, []⟩ ⟨[0, 0, 0, 0], rfl⟩ rfl rfl (by decide) rfl
  exact absurd hle (by decide)

end Specs

end Edgessh.Russh
