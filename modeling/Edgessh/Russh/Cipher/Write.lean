import Edgessh.Russh.Cipher.Read

/-!
# Writing packets

`SealingKey::write` of `cipher/mod.rs` with the sealing keys of `cipher/*.rs`. What a sealing key
seals is opened by the opening key that has been made of the same secrets, whatever the cipher and
the MAC are. An assertion that fails and a slice that is out of range throw `panic`.
-/

namespace Edgessh.Russh
open Edgessh.Command

/-- What the sealing keys use of other crates, besides what the opening keys use. -/
structure SealingCrates (C : CipherCrates) where
  /-- `cbc::Encryptor` -/
  Cbc : Type
  newCbc : CipherName → Bytes → Bytes → Cbc
  encryptBlock : Cbc → ByteArrayN 16 → ByteArrayN 16 × Cbc
  /-- `aead::SealingKey` -/
  Aead : Type
  newAead : CipherName → Bytes → Bytes → Aead
  sealInPlace (key : Aead) (aad : Bytes) (data : Bytes) :
    Option (ByteArrayN data.length × ByteArrayN 16) × Aead
  /-- `chacha20_poly1305_openssh::SealingKey` -/
  ChaCha : Type
  newChaCha : Bytes → ChaCha
  /-- the packet length and the part behind it, and the tag -/
  chachaSeal (key : ChaCha) (seqn : UInt32) (data : Bytes) :
    ByteArrayN data.length × ByteArrayN 16

variable {C : CipherCrates} {K : SealingCrates C}

/-- `SshBlockCipher<C>`: the cipher of a block sealing key. -/
inductive SealingCipher (C : CipherCrates) (K : SealingCrates C) where
  | ctr (s : C.Stream)
  | cbc (s : K.Cbc)

/-- `Box<dyn SealingKey>` -/
inductive SealingKey (C : CipherCrates) (K : SealingCrates C) where
  | clear
  | block (cipher : SealingCipher C K) (mac : Mac)
  | gcm (key : K.Aead)
  | chacha20Poly1305 (key : K.ChaCha)

/-- `CbcWrapper::encrypt_data`: the chunks of 16 bytes, and what is left behind them as it is. -/
def encryptChunks (K : SealingCrates C) : Nat → K.Cbc → Bytes → Bytes × K.Cbc
  | 0, s, data => (data, s)
  | n + 1, s, data =>
    if h : (data.take 16).length = 16 then
      let (block, s) := K.encryptBlock s ⟨data.take 16, h⟩
      let (rest, s) := encryptChunks K n s (data.drop 16)
      (block.val ++ rest, s)
    else (data, s)

/-- `BlockStreamCipher::encrypt_data`. -/
def SealingCipher.encryptData (data : Bytes) : SealingCipher C K → Bytes × SealingCipher C K
  | .ctr s => ((C.applyKeystream s data).1.val, .ctr (C.applyKeystream s data).2)
  | .cbc s =>
    ((encryptChunks K (data.length / 16) s data).1,
      .cbc (encryptChunks K (data.length / 16) s data).2)

/-- `Mac::compute`, which copies into a slice of the tag's length. -/
def Mac.compute (C : CipherCrates) (mac : Mac) (seqn : UInt32) (payload output : Bytes) :
    Except ReadExn Bytes :=
  match mac.name with
  | .none => pure output
  | name =>
    let tag := C.hmac name mac.key (encodeU32 seqn.toNat ++ payload)
    if tag.length = output.length then pure tag else throw .panic

/-- The limits of `cipher/mod.rs`. -/
def packetLengthLen : Nat := 4
def minimumPacketLen : Nat := 16
def paddingLengthLen : Nat := 1

/-- The padding of a cipher that encrypts blocks, with the part `pll` of the packet length that is
encrypted with them. -/
def blockPaddingLength (blockSize pll macLen : Nat) (payload : Bytes) : Except ReadExn Nat :=
  let extraLen := packetLengthLen + paddingLengthLen + macLen
  let paddingLen : Except ReadExn Nat :=
    if payload.length + extraLen ≤ minimumPacketLen then do
      let room ← checkedSub minimumPacketLen payload.length
      let room ← checkedSub room paddingLengthLen
      checkedSub room pll
    else pure (blockSize - (pll + paddingLengthLen + payload.length) % blockSize)
  paddingLen.map fun n => if n < packetLengthLen then n + blockSize else n

namespace SealingKey

/-- `padding_length`. -/
def paddingLength (payload : Bytes) : SealingKey C K → Except ReadExn Nat
  | .clear =>
    let blockSize := 8
    let paddingLen := blockSize - (5 + payload.length) % blockSize
    pure (if paddingLen < 4 then paddingLen + blockSize else paddingLen)
  | .block _ mac =>
    blockPaddingLength 16 (if mac.name.isEtm then 0 else packetLengthLen) mac.name.macLen payload
  | .gcm _ => blockPaddingLength 16 0 0 payload
  | .chacha20Poly1305 _ => blockPaddingLength 8 0 0 payload

/-- `fill_padding`: random bytes, where the padding is encrypted in blocks. -/
def fillPadding (n : Nat) (random : Nat → UInt8) : SealingKey C K → Bytes × (Nat → UInt8)
  | .clear | .chacha20Poly1305 _ => (List.replicate n 0, random)
  | .block _ _ | .gcm _ => ((List.range n).map random, fun i => random (n + i))

/-- `tag_len`. -/
def tagLen : SealingKey C K → Nat
  | .clear => 0
  | .block _ mac => mac.name.macLen
  | .gcm _ => 16
  | .chacha20Poly1305 _ => 16

/-- What `seal` leaves: the ciphertext, the tag and the key. -/
abbrev Sealed (C : CipherCrates) (K : SealingCrates C) := Bytes × Bytes × SealingKey C K

/-- `seal`. -/
def «seal» (seqn : UInt32) (plaintext tag : Bytes) : SealingKey C K → Except ReadExn (Sealed C K)
  | .clear => pure (plaintext, tag, .clear)
  | .block cipher mac =>
    if mac.name.isEtm then do
      let data ← sliceFrom packetLengthLen plaintext
      let (encrypted, cipher) := cipher.encryptData data
      let ciphertext := plaintext.take packetLengthLen ++ encrypted
      let tag ← mac.compute C seqn ciphertext tag
      pure (ciphertext, tag, .block cipher mac)
    else do
      let tag ← mac.compute C seqn plaintext tag
      let (ciphertext, cipher) := cipher.encryptData plaintext
      pure (ciphertext, tag, .block cipher mac)
  | .gcm key => do
    let packetLength ← sliceTo packetLengthLen plaintext
    let data ← sliceFrom packetLengthLen plaintext
    match K.sealInPlace key packetLength data with
    | (some (ciphertext, tag), key) =>
      pure (packetLength ++ ciphertext.val, tag.val, .gcm key)
    | (none, _) => throw .panic
  | .chacha20Poly1305 key =>
    let (ciphertext, tag) := K.chachaSeal key seqn plaintext
    pure (ciphertext.val, tag.val, .chacha20Poly1305 key)

end SealingKey

/-- `Cipher::make_sealing_key` of the cipher and the MAC that have been negotiated. -/
def makeSealingKey (K : SealingCrates C) (cipher : CipherName) (key nonce macKey : Bytes)
    (mac : MacName) : SealingKey C K :=
  match cipher with
  | .clear | .none => .clear
  | .aes128Ctr | .aes192Ctr | .aes256Ctr =>
    .block (.ctr (C.newStream cipher key nonce)) ⟨mac, macKey⟩
  | .aes128Cbc | .aes192Cbc | .aes256Cbc =>
    .block (.cbc (K.newCbc cipher key nonce)) ⟨mac, macKey⟩
  | .aes128Gcm | .aes256Gcm => .gcm (K.newAead cipher key nonce)
  | .chacha20Poly1305 => .chacha20Poly1305 (K.newChaCha key)

/-- A session that writes: the key, the random bytes to come, and `SSHBuffer`, as far as packets
are written to it. -/
structure Sealer (C : CipherCrates) (K : SealingCrates C) where
  key : SealingKey C K := .clear
  random : Nat → UInt8
  buffer : Bytes := []
  bytes : Nat := 0
  seqn : UInt32 := 0

abbrev SealM (C : CipherCrates) (K : SealingCrates C) := EStateM ReadExn (Sealer C K)

/-- `SealingKey::write`. -/
def Sealer.write (payload : Bytes) : SealM C K Unit := do
  let s ← get
  let paddingLength ← ofExcept (s.key.paddingLength payload)
  let packetLength := paddingLengthLen + payload.length + paddingLength
  if 2 ^ 32 ≤ packetLength then throw .panic
  if 2 ^ 8 ≤ paddingLength then throw .panic
  let (padding, random) := s.key.fillPadding paddingLength s.random
  let plaintext := encodeU32 packetLength ++ UInt8.ofNat paddingLength :: payload ++ padding
  let (ciphertext, tag, key) ←
    ofExcept (s.key.seal s.seqn plaintext (List.replicate s.key.tagLen 0))
  set { s with
    key, random
    buffer := s.buffer ++ ciphertext ++ tag
    bytes := s.bytes + payload.length
    seqn := s.seqn + 1 }

section Padding

variable {n : Nat} {payload : Bytes}

/-- The blocks of a cipher, and the part of the packet length that is encrypted in them. -/
def SealingKey.blockSize : SealingKey C K → Nat
  | .clear | .chacha20Poly1305 _ => 8
  | .block _ _ | .gcm _ => 16

def SealingKey.lengthInBlocks : SealingKey C K → Nat
  | .clear => 4
  | .block _ mac => if mac.name.isEtm then 0 else 4
  | .gcm _ | .chacha20Poly1305 _ => 0

/-- `n` bytes of padding complete the blocks of a packet. -/
structure Padded (blockSize pll : Nat) (payload : Bytes) (n : Nat) : Prop where
  four_le : 4 ≤ n
  le : n ≤ blockSize + 3 ∨ payload.length + n ≤ 27
  aligned : blockSize ∣ pll + 1 + payload.length + n
  least : 16 ≤ 4 + (1 + payload.length + n)

/-- What is too short for padding gets one block more. -/
theorem Padded.lengthen {blockSize pll : Nat} (hfour : 4 ≤ blockSize)
    (hn : n ≤ blockSize ∨ payload.length + n ≤ 16)
    (haligned : blockSize ∣ pll + 1 + payload.length + n)
    (hleast : 16 ≤ 4 + (1 + payload.length + (if n < 4 then n + blockSize else n))) :
    Padded blockSize pll payload (if n < 4 then n + blockSize else n) := by
  by_cases hshort : n < 4
  · rw [if_pos hshort] at hleast ⊢
    refine ⟨by omega, by omega, ?_, hleast⟩
    rw [← Nat.add_assoc]
    exact Nat.dvd_add haligned (Nat.dvd_refl _)
  · rw [if_neg hshort] at hleast ⊢
    exact ⟨by omega, by omega, haligned, hleast⟩

theorem blockPaddingLength_ok {blockSize pll macLen : Nat}
    (h : blockSize = 16 ∨ blockSize = 8 ∧ macLen = 0) (hpll : pll = 0 ∨ blockSize = 16 ∧ pll = 4)
    (payload : Bytes) :
    ∃ n, blockPaddingLength blockSize pll macLen payload = .ok n ∧
      Padded blockSize pll payload n := by
  have hwp : wpExcept (blockPaddingLength blockSize pll macLen payload)
      (Padded blockSize pll payload) fun _ => False := by
    unfold blockPaddingLength packetLengthLen paddingLengthLen minimumPacketLen
    show wpExcept (_ <$> _) _ _
    rw [wpExcept_map, wpExcept_ite]
    constructor
    · intro hshort
      simp only [wpExcept_bind, wpExcept_checkedSub]
      refine ⟨fun _ => ⟨fun _ => ⟨fun _ => ?_, fun hlt => by omega⟩, fun hlt => by omega⟩,
        fun hlt => by omega⟩
      -- the packet has sixteen bytes
      rcases h with rfl | ⟨rfl, rfl⟩
      · apply Padded.lengthen <;> (try split) <;> omega
      · apply Padded.lengthen <;> (try split) <;> omega
    · intro hlong
      rw [wpExcept_pure]
      show Padded _ _ _ _
      rcases h with rfl | ⟨rfl, rfl⟩
      · apply Padded.lengthen <;> (try split) <;> omega
      · apply Padded.lengthen <;> (try split) <;> omega
  obtain ⟨hok, hfail⟩ := wpExcept_iff.mp hwp
  cases hresult : blockPaddingLength blockSize pll macLen payload with
  | ok n => exact ⟨n, rfl, hok n hresult⟩
  | error e => exact absurd (hfail e hresult) id

/-- Every cipher completes its blocks. -/
theorem paddingLength_ok (key : SealingKey C K) (payload : Bytes) :
    ∃ n, key.paddingLength payload = .ok n ∧
      Padded key.blockSize key.lengthInBlocks payload n := by
  cases key with
  | clear =>
    refine ⟨_, rfl, ?_⟩
    show Padded 8 4 payload _
    constructor <;> (try split) <;> omega
  | block cipher mac =>
    apply blockPaddingLength_ok (.inl rfl)
    show (if mac.name.isEtm then 0 else 4) = 0 ∨ _
    split
    · exact .inl rfl
    · exact .inr ⟨rfl, rfl⟩
  | gcm key => exact blockPaddingLength_ok (.inl rfl) (.inl rfl) payload
  | chacha20Poly1305 key => exact blockPaddingLength_ok (.inr ⟨rfl, rfl⟩) (.inl rfl) payload

/-- Padding does not take a packet over the limit of the reader. -/
theorem Padded.most {blockSize pll : Nat} (h : Padded blockSize pll payload n)
    (hblock : blockSize = 8 ∨ blockSize = 16) (hpll : pll ≤ 4)
    (hfits : payload.length + 9 ≤ maximumPacketLen) :
    1 + payload.length + n ≤ maximumPacketLen := by
  have hmax : maximumPacketLen = 262144 := rfl
  have haligned := h.aligned
  have hle := h.le
  rcases hblock with rfl | rfl
  · omega
  · omega

theorem blockSize_eq (key : SealingKey C K) : key.blockSize = 8 ∨ key.blockSize = 16 := by
  cases key <;> simp [SealingKey.blockSize]

theorem lengthInBlocks_le (key : SealingKey C K) : key.lengthInBlocks ≤ 4 := by
  cases key with
  | clear => exact Nat.le_refl 4
  | block _ mac =>
    show (if mac.name.isEtm then 0 else 4) ≤ 4
    split <;> omega
  | gcm _ => exact Nat.zero_le 4
  | chacha20Poly1305 _ => exact Nat.zero_le 4

theorem length_fillPadding (key : SealingKey C K) (random : Nat → UInt8) :
    (key.fillPadding n random).1.length = n := by
  cases key with
  | clear => exact List.length_replicate
  | chacha20Poly1305 key => exact List.length_replicate
  | block cipher mac => exact List.length_map _ |>.trans List.length_range
  | gcm key => exact List.length_map _ |>.trans List.length_range

end Padding

section Pairing

/-- How the states of two keys that have been made of the same secrets belong together. -/
structure Pairing (C : CipherCrates) (K : SealingCrates C) where
  keystream : C.Stream → Nat → UInt8
  advance : C.Stream → Nat → C.Stream
  cbc : K.Cbc → C.Cbc → Prop
  aead : K.Aead → C.Aead → Prop
  chacha : K.ChaCha → C.ChaCha → Prop

/-- What the crates document: a stream cipher adds its keystream to the data, and goes on behind
it; every other cipher undoes on the one side what it does on the other. GCM takes up to
`2 ^ 36 - 32` bytes. -/
structure Pairing.Documented (P : Pairing C K) : Prop where
  applyKeystream : ∀ s data,
    (C.applyKeystream s data).1.val = data.mapIdx fun i b => b ^^^ P.keystream s i
  advance : ∀ s data, (C.applyKeystream s data).2 = P.advance s data.length
  newCbc : ∀ cipher key nonce, P.cbc (K.newCbc cipher key nonce) (C.newCbc cipher key nonce)
  decryptBlock : ∀ e d block, P.cbc e d →
    (C.decryptBlock d (K.encryptBlock e block).1).1 = block ∧
      P.cbc (K.encryptBlock e block).2 (C.decryptBlock d (K.encryptBlock e block).1).2
  newAead : ∀ cipher key nonce, P.aead (K.newAead cipher key nonce) (C.newAead cipher key nonce)
  openInPlace : ∀ e d aad data, P.aead e d → data.length ≤ 2 ^ 36 - 32 →
    ∃ ciphertext tag e', K.sealInPlace e aad data = (some (ciphertext, tag), e') ∧
      ∃ plaintext d', C.openInPlace d aad (ciphertext.val ++ tag.val) = (some plaintext, d') ∧
        plaintext.val = data ∧ P.aead e' d'
  newChaCha : ∀ key, P.chacha (K.newChaCha key) (C.newChaCha key)
  chachaOpen : ∀ e d seqn data, P.chacha e d → ∀ packetLength : ByteArrayN 4,
    packetLength.val = (K.chachaSeal e seqn data).1.val.take 4 →
      (C.chachaPacketLength d seqn packetLength).val = data.take 4 ∧
        ∃ plaintext, C.chachaOpen d seqn packetLength ((K.chachaSeal e seqn data).1.val.drop 4)
          (K.chachaSeal e seqn data).2 = some plaintext ∧ plaintext.val = data.drop 4
  hmac : ∀ mac key data, mac ≠ .none → (C.hmac mac key data).length = mac.macLen

variable {P : Pairing C K} {e : SealingCipher C K} {d : BlockCipher C} {data : Bytes}

/-- The cipher of a sealing key and the one of an opening key. -/
inductive CipherPaired (P : Pairing C K) : SealingCipher C K → BlockCipher C → Prop
  | ctr (s : C.Stream) : CipherPaired P (.ctr s) (.ctr s)
  | cbc {e : K.Cbc} {d : C.Cbc} : P.cbc e d → CipherPaired P (.cbc e) (.cbc d)

/-- A sealing key and the opening key of the other side. -/
inductive Paired (P : Pairing C K) : SealingKey C K → OpeningKey C → Prop
  | clear : Paired P .clear .clear
  | block {e : SealingCipher C K} {d : BlockCipher C} (mac : Mac) :
    CipherPaired P e d → Paired P (.block e mac) (.block d mac)
  | gcm {e : K.Aead} {d : C.Aead} : P.aead e d → Paired P (.gcm e) (.gcm d)
  | chacha20Poly1305 {e : K.ChaCha} {d : C.ChaCha} :
    P.chacha e d → Paired P (.chacha20Poly1305 e) (.chacha20Poly1305 d)

theorem paired_make (h : P.Documented) (cipher : CipherName) (key nonce macKey : Bytes)
    (mac : MacName) :
    Paired P (makeSealingKey K cipher key nonce macKey mac)
      (makeOpeningKey C cipher key nonce macKey mac) := by
  cases cipher with
  | clear => exact .clear
  | none => exact .clear
  | aes128Ctr => exact .block _ (.ctr _)
  | aes192Ctr => exact .block _ (.ctr _)
  | aes256Ctr => exact .block _ (.ctr _)
  | aes128Cbc => exact .block _ (.cbc (h.newCbc _ _ _))
  | aes192Cbc => exact .block _ (.cbc (h.newCbc _ _ _))
  | aes256Cbc => exact .block _ (.cbc (h.newCbc _ _ _))
  | aes128Gcm => exact .gcm (h.newAead _ _ _)
  | aes256Gcm => exact .gcm (h.newAead _ _ _)
  | chacha20Poly1305 => exact .chacha20Poly1305 (h.newChaCha _)

theorem length_encryptChunks (n : Nat) (key : K.Cbc) (data : Bytes) :
    (encryptChunks K n key data).1.length = data.length := by
  induction n generalizing key data with
  | zero => rfl
  | succ n ih =>
    rw [encryptChunks]
    split
    · next h =>
      rw [List.length_take] at h
      simp only [List.length_append, ih, List.length_drop]
      rw [(K.encryptBlock key _).1.property]
      omega
    · rfl

theorem length_encryptData (data : Bytes) (cipher : SealingCipher C K) :
    (cipher.encryptData data).1.length = data.length := by
  cases cipher with
  | ctr key => exact (C.applyKeystream key data).1.property
  | cbc key => exact length_encryptChunks _ key data

theorem applyKeystream_twice (h : P.Documented) (s : C.Stream) (data : Bytes) :
    (C.applyKeystream s (C.applyKeystream s data).1.val).1.val = data := by
  rw [h.applyKeystream, h.applyKeystream, List.mapIdx_mapIdx]
  apply List.ext_getElem
  · exact List.length_mapIdx
  · intro i _ _
    rw [List.getElem_mapIdx, Function.comp_apply, UInt8.xor_assoc, UInt8.xor_self, UInt8.xor_zero]

/-- A part of the data is decrypted without the rest. -/
theorem applyKeystream_take (h : P.Documented) (s : C.Stream) (n : Nat) (data : Bytes) :
    (C.applyKeystream s (data.take n)).1.val = (C.applyKeystream s data).1.val.take n := by
  rw [h.applyKeystream, h.applyKeystream]
  apply List.ext_getElem
  · simp only [List.length_mapIdx, List.length_take]
  · intro i _ _
    simp only [List.getElem_mapIdx, List.getElem_take]

theorem decryptChunks_block (n : Nat) (d : C.Cbc) (block : ByteArrayN 16) (rest : Bytes) :
    decryptChunks C (n + 1) d (block.val ++ rest) =
      ((C.decryptBlock d block).1.val ++ (decryptChunks C n (C.decryptBlock d block).2 rest).1,
        (decryptChunks C n (C.decryptBlock d block).2 rest).2) := by
  have htake : (block.val ++ rest).take 16 = block.val := List.take_left' block.property
  have hdrop : (block.val ++ rest).drop 16 = rest := List.drop_left' block.property
  have hlen : ((block.val ++ rest).take 16).length = 16 := by
    rw [htake]
    exact block.property
  have hblock : (⟨(block.val ++ rest).take 16, hlen⟩ : ByteArrayN 16) = block :=
    Subtype.ext htake
  rw [decryptChunks, dif_pos hlen, hblock, hdrop]

/-- Block by block, the encryptor and the decryptor stay in step. -/
theorem decryptChunks_encryptChunks (h : P.Documented) (n : Nat) {e : K.Cbc} {d : C.Cbc}
    (hp : P.cbc e d) (data : Bytes) :
    (decryptChunks C n d (encryptChunks K n e data).1).1 = data ∧
      P.cbc (encryptChunks K n e data).2
        (decryptChunks C n d (encryptChunks K n e data).1).2 := by
  induction n generalizing e d data with
  | zero => exact ⟨rfl, hp⟩
  | succ n ih =>
    rw [encryptChunks]
    by_cases hlen : (data.take 16).length = 16
    · obtain ⟨hblock, hnext⟩ := h.decryptBlock e d ⟨data.take 16, hlen⟩ hp
      obtain ⟨hrest, hlast⟩ := ih hnext (data.drop 16)
      rw [dif_pos hlen]
      dsimp only
      rw [decryptChunks_block, hblock, hrest]
      exact ⟨List.take_append_drop 16 data, hlast⟩
    · rw [dif_neg hlen]
      dsimp only
      rw [decryptChunks, dif_neg hlen]
      exact ⟨rfl, hp⟩

/-- What has been encrypted is decrypted. -/
theorem decryptData_encryptData (h : P.Documented) (hp : CipherPaired P e d) (data : Bytes) :
    (d.decryptData (e.encryptData data).1).1 = data ∧
      CipherPaired P (e.encryptData data).2 (d.decryptData (e.encryptData data).1).2 := by
  cases hp with
  | ctr s =>
    refine ⟨applyKeystream_twice h s data, ?_⟩
    show CipherPaired P (.ctr (C.applyKeystream s data).2)
      (.ctr (C.applyKeystream s (C.applyKeystream s data).1.val).2)
    rw [h.advance, h.advance, (C.applyKeystream s data).1.property]
    exact .ctr _
  | cbc hp =>
    have hlen := length_encryptChunks (K := K) (data.length / 16) ‹K.Cbc› data
    obtain ⟨hdata, hnext⟩ := decryptChunks_encryptChunks h (data.length / 16) hp data
    simp only [SealingCipher.encryptData, BlockCipher.decryptData, hlen]
    exact ⟨hdata, .cbc hnext⟩

/-- The first block is decrypted without the rest. -/
theorem decryptData_first (h : P.Documented) (hp : CipherPaired P e d)
    (hlen : 16 ≤ data.length) :
    (d.decryptData ((e.encryptData data).1.take 16)).1 = data.take 16 := by
  cases hp with
  | ctr s =>
    show (C.applyKeystream s ((C.applyKeystream s data).1.val.take 16)).1.val = _
    rw [applyKeystream_take h, applyKeystream_twice h]
  | @cbc e d hp =>
    obtain ⟨n, hn⟩ : ∃ n, data.length / 16 = n + 1 := ⟨data.length / 16 - 1, by omega⟩
    have htake : (data.take 16).length = 16 := by
      rw [List.length_take]
      omega
    obtain ⟨hblock, -⟩ := h.decryptBlock e d ⟨data.take 16, htake⟩ hp
    have hfirst := (K.encryptBlock e ⟨data.take 16, htake⟩).1.property
    have hblocks : (encryptChunks K (data.length / 16) e data).1.take 16 =
        (K.encryptBlock e ⟨data.take 16, htake⟩).1.val ++ [] := by
      rw [hn, encryptChunks, dif_pos htake, List.append_nil]
      exact List.take_left' hfirst
    show (decryptChunks C (((encryptChunks K (data.length / 16) e data).1.take 16).length / 16) d
      ((encryptChunks K (data.length / 16) e data).1.take 16)).1 = _
    rw [hblocks, List.append_nil, hfirst, ← List.append_nil (K.encryptBlock e _).1.val,
      show 16 / 16 = 0 + 1 from rfl, decryptChunks_block, hblock]
    exact List.append_nil _

/-- The tag that `compute` writes is one that `verify` takes. -/
theorem compute_ok (h : P.Documented) (mac : Mac) (seqn : UInt32) (payload : Bytes) :
    ∃ tag, mac.compute C seqn payload (List.replicate mac.name.macLen 0) = .ok tag ∧
      tag.length = mac.name.macLen ∧ mac.verify C seqn payload tag = true := by
  obtain ⟨name, key⟩ := mac
  by_cases hname : name = .none
  · subst hname
    exact ⟨[], rfl, rfl, rfl⟩
  · have hlen := h.hmac name key (encodeU32 seqn.toNat ++ payload) hname
    refine ⟨C.hmac name key (encodeU32 seqn.toNat ++ payload), ?_, hlen, ?_⟩
    · cases name with
      | none => exact absurd rfl hname
      | _ => exact if_pos (hlen.trans List.length_replicate.symm)
    · cases name with
      | none => exact absurd rfl hname
      | _ => exact beq_self_eq_true _

variable {seqn : UInt32} {body frame : Bytes} {mac : Mac}

/-- The opening key takes the frame for the packet with the body. -/
structure Opens (seqn : UInt32) (key : OpeningKey C) (frame body : Bytes)
    (key' : OpeningKey C) : Prop where
  enough : key.packetLengthToRead ≤ frame.length
  total : frame.length = body.length + key.tagLen + 4
  length : ∃ l, key.decryptPacketLength seqn (frame.take key.packetLengthToRead) = .ok l ∧
    l.val = encodeU32 body.length
  opened : ∃ buffer, key.open seqn frame = .ok (buffer, body.length, key') ∧
    (buffer.drop 4).take body.length = body

/-- A sealing key makes a frame of a packet that the opening key takes, and the two stay paired. -/
def SealsFor (P : Pairing C K) (seqn : UInt32) (key : SealingKey C K) (key' : OpeningKey C)
    (body : Bytes) : Prop :=
  ∃ ciphertext tag next next',
    key.seal seqn (encodeU32 body.length ++ body) (List.replicate key.tagLen 0) =
        .ok (ciphertext, tag, next) ∧
      ciphertext.length = 4 + body.length ∧ tag.length = key.tagLen ∧
      Opens seqn key' (ciphertext ++ tag) body next' ∧ Paired P next next'

theorem tryIntoArray_ok {n : Nat} {b : Bytes} (h : b.length = n) :
    tryIntoArray n b = .ok ⟨b, h⟩ := dif_pos h

theorem sliceFrom_ok {n : Nat} {b : Bytes} (h : n ≤ b.length) :
    sliceFrom n b = .ok (b.drop n) := if_pos h

theorem sliceTo_ok {n : Nat} {b : Bytes} (h : n ≤ b.length) :
    sliceTo n b = .ok (b.take n) := if_pos h

theorem checkedSub_ok {m n : Nat} (h : n ≤ m) : checkedSub m n = .ok (m - n) := if_pos h

theorem take_encodeU32 (n : Nat) (b : Bytes) : (encodeU32 n ++ b).take 4 = encodeU32 n :=
  List.take_left' rfl

theorem drop_encodeU32 (n : Nat) (b : Bytes) : (encodeU32 n ++ b).drop 4 = b :=
  List.drop_left' rfl

/-- What is in front of a tag and the tag. -/
theorem take_tag {n : Nat} {b tag : Bytes} (h : tag.length = n) :
    (b ++ tag).take ((b ++ tag).length - n) = b ∧
      (b ++ tag).drop ((b ++ tag).length - n) = tag := by
  have hlen : b.length = (b ++ tag).length - n := by
    rw [List.length_append]
    omega
  exact ⟨List.take_left' hlen, List.drop_left' hlen⟩

theorem sealsFor_clear (body : Bytes) : SealsFor P seqn .clear .clear body := by
  refine ⟨_, _, _, .clear, rfl, ?_, rfl, ?_, .clear⟩
  · rw [List.length_append, encodeU32_length]
  · show Opens seqn .clear (encodeU32 body.length ++ body ++ []) body .clear
    rw [List.append_nil]
    have hlen : (encodeU32 body.length ++ body).length = 4 + body.length := by
      rw [List.length_append, encodeU32_length]
    refine ⟨?_, ?_, ⟨⟨encodeU32 body.length, rfl⟩, ?_, rfl⟩, encodeU32 body.length ++ body, ?_, ?_⟩
    · show 4 ≤ _
      omega
    · show _ = body.length + 0 + 4
      omega
    · show tryIntoArray 4 ((encodeU32 body.length ++ body).take 4) = _
      rw [take_encodeU32]
      rfl
    · show (sliceFrom 4 _ >>= _) = _
      rw [sliceFrom_ok (by omega), drop_encodeU32]
      rfl
    · rw [drop_encodeU32, List.take_length]

/-- The MAC is of the ciphertext, in which the packet length is not encrypted. -/
theorem sealsFor_etm (h : P.Documented) (hp : CipherPaired P e d) (hmac : mac.name.isEtm = true)
    (hbody : 12 ≤ body.length) : SealsFor P seqn (.block e mac) (.block d mac) body := by
  obtain ⟨hdata, hnext⟩ := decryptData_encryptData h hp body
  have hlen : (encodeU32 body.length ++ (e.encryptData body).1).length = 4 + body.length := by
    rw [List.length_append, encodeU32_length, length_encryptData]
  obtain ⟨tag, hcompute, htag, hverify⟩ :=
    compute_ok h mac seqn (encodeU32 body.length ++ (e.encryptData body).1)
  refine ⟨encodeU32 body.length ++ (e.encryptData body).1, tag,
    .block (e.encryptData body).2 mac, .block (d.decryptData (e.encryptData body).1).2 mac,
    ?_, hlen, htag, ⟨?_, ?_, ⟨⟨encodeU32 body.length, rfl⟩, ?_, rfl⟩, ?_⟩, .block mac hnext⟩
  · have hle : 4 ≤ (encodeU32 body.length ++ body).length := by
      rw [List.length_append, encodeU32_length]
      omega
    have hcompute : mac.compute C seqn (encodeU32 body.length ++ (e.encryptData body).1)
      (List.replicate (SealingKey.block (K := K) e mac).tagLen 0) = .ok tag := hcompute
    simp only [SealingKey.seal, hmac, if_true, packetLengthLen, sliceFrom_ok hle, bind,
      Except.bind, take_encodeU32, drop_encodeU32, hcompute]
    rfl
  · show 16 ≤ _
    rw [List.length_append]
    omega
  · show _ = body.length + mac.name.macLen + 4
    rw [List.length_append]
    omega
  · have hlong : ((encodeU32 body.length ++ (e.encryptData body).1 ++ tag).take 16).length = 16 := by
      rw [List.length_take, List.length_append]
      omega
    show (sliceTo 16 ((encodeU32 body.length ++ (e.encryptData body).1 ++ tag).take 16) >>= _) = _
    simp only [bind, Except.bind, sliceTo_ok (Nat.le_of_eq hlong.symm), hmac, if_true]
    rfl
  · obtain ⟨htake, hdrop⟩ := take_tag
      (b := encodeU32 body.length ++ (e.encryptData body).1) htag
    have hle : mac.name.macLen ≤
        (encodeU32 body.length ++ (e.encryptData body).1 ++ tag).length := by
      rw [List.length_append]
      omega
    have hle' : 4 ≤ (encodeU32 body.length ++ (e.encryptData body).1).length := by omega
    refine ⟨encodeU32 body.length ++ body ++ tag, ?_, ?_⟩
    · simp only [OpeningKey.open, bind, Except.bind, checkedSub_ok hle, htake, hdrop, hmac,
        if_true, hverify, Bool.not_true, sliceFrom_ok hle', take_encodeU32, drop_encodeU32, hdata]
      rfl
    · rw [List.append_assoc, drop_encodeU32]
      exact List.take_left' rfl

/-- The MAC is of the plaintext, and the packet length is encrypted with the rest. -/
theorem sealsFor_mac (h : P.Documented) (hp : CipherPaired P e d) (hmac : mac.name.isEtm = false)
    (hbody : 12 ≤ body.length) : SealsFor P seqn (.block e mac) (.block d mac) body := by
  obtain ⟨hdata, hnext⟩ := decryptData_encryptData h hp (encodeU32 body.length ++ body)
  have hplain : (encodeU32 body.length ++ body).length = 4 + body.length := by
    rw [List.length_append, encodeU32_length]
  have hlen := length_encryptData (encodeU32 body.length ++ body) e
  have hfirst : (d.decryptData ((e.encryptData (encodeU32 body.length ++ body)).1.take 16)).1 =
      (encodeU32 body.length ++ body).take 16 := decryptData_first h hp (by omega)
  obtain ⟨tag, hcompute, htag, hverify⟩ :=
    compute_ok h mac seqn (encodeU32 body.length ++ body)
  generalize hc : e.encryptData (encodeU32 body.length ++ body) = sealed at hdata hnext hlen hfirst
  obtain ⟨ciphertext, next⟩ := sealed
  dsimp only at hdata hnext hlen hfirst
  refine ⟨ciphertext, tag, .block next mac, .block (d.decryptData ciphertext).2 mac,
    ?_, hlen.trans hplain, htag, ⟨?_, ?_, ⟨⟨encodeU32 body.length, rfl⟩, ?_, rfl⟩, ?_⟩,
    .block mac hnext⟩
  · have hcompute : mac.compute C seqn (encodeU32 body.length ++ body)
      (List.replicate (SealingKey.block (K := K) e mac).tagLen 0) = .ok tag := hcompute
    simp only [SealingKey.seal, hmac, bind, Except.bind, hcompute, hc]
    rfl
  · show 16 ≤ _
    rw [List.length_append]
    omega
  · show _ = body.length + mac.name.macLen + 4
    rw [List.length_append]
    omega
  · have hblock : (ciphertext ++ tag).take 16 = ciphertext.take 16 :=
      List.take_append_of_le_length (by omega)
    have htake : (ciphertext.take 16).length = 16 := by
      rw [List.length_take]
      omega
    show OpeningKey.decryptPacketLength seqn ((ciphertext ++ tag).take 16) (.block d mac) = _
    have hself : (ciphertext.take 16).take 16 = ciphertext.take 16 := by
      rw [List.take_take, Nat.min_self]
    have hle : 4 ≤ ((encodeU32 body.length ++ body).take 16).length := by
      rw [List.length_take]
      omega
    have hlength : ((encodeU32 body.length ++ body).take 16).take 4 = encodeU32 body.length := by
      rw [List.take_take]
      exact take_encodeU32 _ _
    rw [hblock]
    simp only [OpeningKey.decryptPacketLength, bind, Except.bind,
      sliceTo_ok (Nat.le_of_eq htake.symm), hself, hmac, hfirst, sliceTo_ok hle, hlength]
    rfl
  · obtain ⟨htake, hdrop⟩ := take_tag (b := ciphertext) htag
    have hle : mac.name.macLen ≤ (ciphertext ++ tag).length := by
      rw [List.length_append]
      omega
    have hle' : 4 ≤ (encodeU32 body.length ++ body).length := by omega
    refine ⟨encodeU32 body.length ++ body ++ tag, ?_, ?_⟩
    · simp only [OpeningKey.open, bind, Except.bind, checkedSub_ok hle, htake, hdrop, hmac,
        hdata, hverify, Bool.not_true, sliceFrom_ok hle', drop_encodeU32]
      rfl
    · rw [List.append_assoc, drop_encodeU32]
      exact List.take_left' rfl

/-- The packet length is not encrypted, but authenticated. -/
theorem sealsFor_gcm (h : P.Documented) {e : K.Aead} {d : C.Aead} (hp : P.aead e d)
    (hbody : body.length ≤ 2 ^ 36 - 32) : SealsFor P seqn (.gcm e) (.gcm d) body := by
  obtain ⟨⟨ciphertext, hlen⟩, ⟨tag, htag⟩, e', hseal, plaintext, d', hopen, hplaintext, hnext⟩ :=
    h.openInPlace e d (encodeU32 body.length) body hp hbody
  dsimp only at hopen plaintext
  have hle : 4 ≤ (encodeU32 body.length ++ body).length := by
    rw [List.length_append, encodeU32_length]
    omega
  have hframe : (encodeU32 body.length ++ ciphertext ++ tag).length = body.length + 16 + 4 := by
    rw [List.length_append, List.length_append, encodeU32_length]
    omega
  refine ⟨encodeU32 body.length ++ ciphertext, tag, .gcm e', .gcm d', ?_, ?_, htag,
    ⟨?_, hframe, ⟨⟨encodeU32 body.length, rfl⟩, ?_, rfl⟩, ?_⟩, .gcm hnext⟩
  · simp only [SealingKey.seal, packetLengthLen, sliceTo_ok hle, sliceFrom_ok hle, bind,
      Except.bind, take_encodeU32, drop_encodeU32, hseal]
    rfl
  · rw [List.length_append, encodeU32_length, hlen]
  · show 4 ≤ _
    omega
  · show tryIntoArray 4 ((encodeU32 body.length ++ ciphertext ++ tag).take 4) = _
    rw [List.append_assoc, take_encodeU32]
    rfl
  · have hle' : 4 ≤ (encodeU32 body.length ++ ciphertext ++ tag).length := by omega
    refine ⟨encodeU32 body.length ++ plaintext.val ++
      (ciphertext ++ tag).drop plaintext.val.length, ?_, ?_⟩
    · simp only [OpeningKey.open, sliceTo_ok hle', sliceFrom_ok hle', bind, Except.bind]
      rw [List.append_assoc, take_encodeU32, drop_encodeU32]
      simp only [hopen, hplaintext]
      rfl
    · rw [List.append_assoc, drop_encodeU32, hplaintext]
      exact List.take_left' rfl

/-- The packet length is encrypted with a key of its own. -/
theorem sealsFor_chacha (h : P.Documented) {e : K.ChaCha} {d : C.ChaCha} (hp : P.chacha e d) :
    SealsFor P seqn (.chacha20Poly1305 e) (.chacha20Poly1305 d) body := by
  have hplain : (encodeU32 body.length ++ body).length = 4 + body.length := by
    rw [List.length_append, encodeU32_length]
  have hopens := h.chachaOpen e d seqn (encodeU32 body.length ++ body) hp
  generalize hc : K.chachaSeal e seqn (encodeU32 body.length ++ body) = sealed at hopens
  obtain ⟨⟨ciphertext, hlen⟩, ⟨tag, htag⟩⟩ := sealed
  dsimp only at hopens
  have htake : (ciphertext.take 4).length = 4 := by
    rw [List.length_take]
    omega
  obtain ⟨hlength, plaintext, hopen, hplaintext⟩ := hopens ⟨ciphertext.take 4, htake⟩ rfl
  rw [take_encodeU32] at hlength
  rw [drop_encodeU32] at hplaintext
  have hframe : (ciphertext ++ tag).length = body.length + 16 + 4 := by
    rw [List.length_append]
    omega
  have hfirst : (ciphertext ++ tag).take 4 = ciphertext.take 4 :=
    List.take_append_of_le_length (by omega)
  refine ⟨ciphertext, tag, .chacha20Poly1305 e, .chacha20Poly1305 d, ?_, hlen.trans hplain, htag,
    ⟨?_, hframe, ⟨_, ?_, hlength⟩, ?_⟩, .chacha20Poly1305 hp⟩
  · simp only [SealingKey.seal, hc]
    rfl
  · show 4 ≤ _
    omega
  · show (tryIntoArray 4 ((ciphertext ++ tag).take 4) >>= _) = _
    rw [hfirst, tryIntoArray_ok htake]
    rfl
  · obtain ⟨hbefore, hbehind⟩ := take_tag (b := ciphertext) htag
    have hle : 16 ≤ (ciphertext ++ tag).length := by omega
    have hle' : 4 ≤ ciphertext.length := by omega
    refine ⟨ciphertext.take 4 ++ plaintext.val ++
      (ciphertext.drop 4).drop plaintext.val.length ++ tag, ?_, ?_⟩
    · simp only [OpeningKey.open, bind, Except.bind, checkedSub_ok hle, hbefore, hbehind,
        tryIntoArray_ok htag, sliceTo_ok hle', tryIntoArray_ok htake, sliceFrom_ok hle', hopen,
        hplaintext]
      rfl
    · rw [List.append_assoc, List.append_assoc, List.drop_left' htake, hplaintext]
      exact List.take_left' rfl

/-- Whatever the keys are: what has been sealed is opened. -/
theorem sealsFor {key : SealingKey C K} {key' : OpeningKey C} (h : P.Documented)
    (hp : Paired P key key') (hleast : 12 ≤ body.length) (hmost : body.length ≤ maximumPacketLen) :
    SealsFor P seqn key key' body := by
  cases hp with
  | clear => exact sealsFor_clear body
  | block mac hp =>
    cases hmac : mac.name.isEtm with
    | true => exact sealsFor_etm h hp hmac hleast
    | false => exact sealsFor_mac h hp hmac hleast
  | gcm hp =>
    refine sealsFor_gcm h hp (hmost.trans ?_)
    show 256 * 1024 ≤ 2 ^ 36 - 32
    omega
  | chacha20Poly1305 hp => exact sealsFor_chacha h hp

end Pairing

end Edgessh.Russh
