import Edgessh.Lib.Framing
import Edgessh.Russh.Cipher.Write

/-!
# Traffic

A side of a connection writes packets and changes its keys between them; the other side reads. The
two stay in step over any such traffic, and what is read is what was written.
-/

namespace Edgessh.Russh
open Edgessh.Command Edgessh.Framing

variable {C : CipherCrates} {K : SealingCrates C}

section Frames

variable {D : Flate2.Engine} {s t : Reader C D} {key' : OpeningKey C}
  {frame tail body payload padding : Bytes}

theorem readU32_encodeU32 {l : ByteArrayN 4} {n : Nat} (h : l.val = encodeU32 n)
    (hlt : n < 2 ^ 32) : readU32 l = n := by
  have hn := decodeU32_encodeU32 n []
  rw [List.append_nil, Nat.mod_eq_of_lt hlt] at hn
  unfold readU32
  rw [h]
  exact (Prod.mk.inj (Except.ok.inj hn)).1

/-- The packet length has been read. -/
structure LengthTaken (s t : Reader C D) (frame tail body : Bytes) : Prop where
  stream : t.stream = frame.drop s.key.packetLengthToRead ++ tail
  buffer : t.buffer.buffer = frame.take s.key.packetLengthToRead
  len : t.buffer.len = body.length + s.key.tagLen
  seqn : t.buffer.seqn = s.buffer.seqn
  key : t.key = s.key
  decompress : t.decompress = s.decompress

theorem wp_readLength_frame (hstream : s.stream = frame ++ tail)
    (h : Opens s.buffer.seqn s.key frame body key') (hmost : body.length ≤ maximumPacketLen) :
    wp readLength (fun _ t => LengthTaken s t frame tail body) (fun _ _ => False) s := by
  obtain ⟨l, hlength, hl⟩ := h.length
  have henough := h.enough
  have hmax : maximumPacketLen < 2 ^ 32 := by decide
  have htake : s.stream.take s.key.packetLengthToRead = frame.take s.key.packetLengthToRead := by
    rw [hstream]
    exact List.take_append_of_le_length henough
  have hread : readU32 l = body.length := readU32_encodeU32 hl (by omega)
  unfold readLength
  simp only [wp_bind, wp_get, wp_modify, wp_readExact, wp_ofExcept, htake, hlength, wpExcept_ok]
  constructor
  · intro hshort
    rw [hstream, List.length_append] at hshort
    omega
  · intro _
    rw [wp_ite, hread]
    refine ⟨fun hlt => absurd hmost (Nat.not_le_of_lt hlt), fun _ => ?_⟩
    refine ⟨?_, rfl, ?_, rfl, rfl, rfl⟩
    · show s.stream.drop _ = _
      rw [hstream]
      exact List.drop_append_of_le_length henough
    · show _ + s.key.tagLen = _
      rfl

/-- The rest of the frame is opened, and the padding is cut off. -/
theorem wp_readRest_frame (h : Opens s.buffer.seqn s.key frame body key')
    (hbody : body = UInt8.ofNat padding.length :: payload ++ padding)
    (hpadding : padding.length < 2 ^ 8) (ht : LengthTaken s t frame tail body) :
    wp readRest (fun _ u => u.buffer.buffer.length = 5 + payload.length ∧
        u.buffer.buffer.drop 5 = payload ∧ u.stream = tail ∧ u.key = key' ∧
          u.buffer.seqn = s.buffer.seqn + 1 ∧ u.buffer.len = 0 ∧ u.decompress = s.decompress)
      (fun _ _ => False) t := by
  have henough := h.enough
  have htotal := h.total
  obtain ⟨buffer, hopen, hbuffer⟩ := h.opened
  have hlen : t.buffer.len + 4 = frame.length := by
    rw [ht.len, htotal]
  have hfirst : (frame.take s.key.packetLengthToRead).length = s.key.packetLengthToRead := by
    rw [List.length_take]
    omega
  have hresized : (Flate2.resize frame.length (frame.take s.key.packetLengthToRead)).take
      s.key.packetLengthToRead = frame.take s.key.packetLengthToRead := by
    rw [Flate2.resize, List.take_of_length_le (l := frame.take _) (i := frame.length) (by omega)]
    exact List.take_left' hfirst
  have hrest : (frame.drop s.key.packetLengthToRead ++ tail).take
      (frame.length - s.key.packetLengthToRead) = frame.drop s.key.packetLengthToRead :=
    List.take_left' List.length_drop
  have hlong : body.length ≤ buffer.length - 4 := by
    rw [← List.length_drop (l := buffer), ← hbuffer, List.length_take]
    omega
  have hlength : body.length = 1 + payload.length + padding.length := by
    rw [hbody]
    simp only [List.length_append, List.length_cons]
    omega
  have hhead : (((buffer.drop 4).take body.length).head?.getD 0).toNat = padding.length := by
    rw [hbuffer, hbody]
    show (UInt8.ofNat padding.length).toNat = _
    rw [UInt8.toNat_ofNat', Nat.mod_eq_of_lt hpadding]
  have hpayload : (Flate2.resize (body.length - padding.length + 4) buffer).drop 5 = payload := by
    have hle : body.length - padding.length + 4 ≤ buffer.length := by omega
    have hbehind : (buffer.drop 5).take payload.length = payload := by
      have := congrArg (fun b => (b.drop 1).take payload.length) hbuffer
      rw [hbody] at this
      simpa [List.drop_take, List.take_take, List.length_append, Nat.min_eq_left] using this
    rw [Flate2.resize, Nat.sub_eq_zero_of_le hle, List.replicate_zero, List.append_nil,
      List.drop_take, show body.length - padding.length + 4 - 5 = payload.length by omega]
    exact hbehind
  unfold readRest resizeBuffer
  simp only [wp_bind, wp_get, wp_modify, wp_readExact, wp_ofExcept, wpExcept_sliceFrom,
    Flate2.length_resize, List.length_drop, hlen, ht.buffer, ht.stream, ht.seqn, ht.key,
    hresized, hrest, List.take_append_drop, hopen, wpExcept_ok, hhead]
  refine ⟨fun _ => ⟨fun hshort => ?_, fun _ => ?_⟩, fun hlt => by omega⟩
  · rw [List.length_append, List.length_drop] at hshort
    omega
  · rw [wp_ite]
    refine ⟨fun hlt => by omega, fun _ => ?_⟩
    refine ⟨?_, hpayload, List.drop_left' List.length_drop, rfl, rfl, rfl, ht.decompress⟩
    show (Flate2.resize _ _).length = _
    rw [Flate2.length_resize]
    omega

/-- Without compression the packet is the payload. -/
def Reader.Plain (s : Reader C D) : Prop := s.decompress = none ∨ s.decompress = some .none

theorem maybeDecompress_plain (hs : s.Plain) (hlen : 5 ≤ s.buffer.buffer.length) (fuel : Nat) :
    wp (Reader.maybeDecompress fuel)
      (fun b t => b = s.buffer.buffer.drop 5 ∧ t.stream = s.stream ∧ t.key = s.key ∧
        t.buffer = s.buffer ∧ t.decompress = s.decompress) (fun _ _ => False) s := by
  unfold Reader.maybeDecompress
  simp only [wp_bind, wp_get, wp_ofExcept, wpExcept_sliceFrom]
  refine ⟨fun _ => ?_, fun hlt => by omega⟩
  rcases hs with hs | hs
  · rw [hs]
    exact ⟨rfl, rfl, rfl, rfl, hs⟩
  · rw [hs]
    exact ⟨rfl, rfl, rfl, rfl, rfl⟩

/-- A frame in front of the stream is read as its payload. -/
theorem wp_readingArm_frame (hs : s.Plain) (hlen : s.buffer.len = 0)
    (hstream : s.stream = frame ++ tail) (h : Opens s.buffer.seqn s.key frame body key')
    (hmost : body.length ≤ maximumPacketLen)
    (hbody : body = UInt8.ofNat padding.length :: payload ++ padding)
    (hpadding : padding.length < 2 ^ 8) (fuel : Nat) :
    wp (readingArm fuel) (fun v t => v = some payload ∧ t.stream = tail ∧ t.key = key' ∧
      t.buffer.seqn = s.buffer.seqn + 1 ∧ t.buffer.len = 0 ∧ t.Plain) (fun _ _ => False) s := by
  have hclear : s.clear.buffer.len = 0 := hlen
  unfold readingArm startReading read
  simp only [wp_bind, wp_modify, wp_get, hclear, if_true]
  refine wp_mono (wp_readLength_frame (s := s.clear) hstream h hmost) ?_ fun _ _ he => he
  intro _ t ht
  refine wp_mono (wp_readRest_frame (s := s.clear) h hbody hpadding ht) ?_ fun _ _ he => he
  rintro _ u ⟨hlength, hdrop, hu, hkey, hseqn, hzero, hplain⟩
  have hu' : u.Plain := by
    rw [Reader.Plain, hplain]
    exact hs
  refine wp_takePacket.mpr ⟨fun hlt => by omega, fun _ => ?_⟩
  refine wp_mono (maybeDecompress_plain hu' (by omega) fuel) ?_ fun _ _ he => he
  rintro b v ⟨hb, hv, hvkey, hvbuffer, hvplain⟩
  rw [hb, hdrop, hv, hvkey, hvbuffer, Reader.Plain, hvplain]
  exact ⟨rfl, hu, hkey, hseqn, hzero, hu'⟩

end Frames

section Traffic

variable {D : Flate2.Engine} {P : Pairing C K} {w : Sealer C K} {r : Reader C D}

/-- What the two sides do to the key and the sequence number when they change keys. -/
inductive KeyChange where
  | newKeys (cipher : CipherName) (key nonce macKey : Bytes) (mac : MacName)
  | resetSeqn
  deriving DecidableEq, Repr

/-- What one side sends: a packet, or the keys change between two packets. -/
inductive Traffic where
  | packet (payload : Bytes)
  | change (c : KeyChange)
  deriving DecidableEq, Repr

/-- `set_cipher` and `reset_seqn` of the packet writer. -/
def Sealer.change (c : KeyChange) (w : Sealer C K) : Sealer C K :=
  match c with
  | .newKeys cipher key nonce macKey mac =>
    { w with key := makeSealingKey K cipher key nonce macKey mac }
  | .resetSeqn => { w with seqn := 0 }

/-- The same changes of the side that reads. -/
def Reader.change (c : KeyChange) (r : Reader C D) : Reader C D :=
  match c with
  | .newKeys cipher key nonce macKey mac =>
    { r with key := makeOpeningKey C cipher key nonce macKey mac }
  | .resetSeqn => { r with buffer := { r.buffer with seqn := 0 } }

def Sealer.exchange : Traffic → SealM C K Unit
  | .packet payload => Sealer.write payload
  | .change c => modify (Sealer.change c)

/-- The reader knows where the keys change, and reads a packet everywhere else. -/
def Reader.exchange (fuel : Nat) : Option KeyChange → ReadM C D (Option Bytes)
  | none => readingArm fuel
  | some c => do
    modify (Reader.change c)
    pure none

def Traffic.turn : Traffic → Option KeyChange
  | .packet _ => none
  | .change c => some c

def Traffic.payload : Traffic → Option Bytes
  | .packet payload => some payload
  | .change _ => none

/-- The packet stays below the limit of the reader with any padding. -/
def Traffic.Fits : Traffic → Prop
  | .packet payload => payload.length + 9 ≤ maximumPacketLen
  | .change _ => True

/-- The reader expects the next packet of the writer. -/
structure Follows (P : Pairing C K) (w : Sealer C K) (r : Reader C D) : Prop where
  keys : Paired P w.key r.key
  seqn : r.buffer.seqn = w.seqn
  len : r.buffer.len = 0
  plain : r.Plain

/-- The connection from the one side to the other. -/
def connection (P : Pairing C K) (D : Flate2.Engine) : Link (Sealer C K) (Reader C D) UInt8 where
  output := Sealer.buffer
  input := Reader.stream
  Ready w := ∃ key', Paired P w.key key'
  InStep := Follows P

/-- A packet of the writer: one frame for every reader. -/
structure Written (P : Pairing C K) (w w' : Sealer C K) (payload frame : Bytes) : Prop where
  buffer : w'.buffer = w.buffer ++ frame
  seqn : w'.seqn = w.seqn + 1
  bytes : w'.bytes = w.bytes + payload.length
  shape : ∃ n, Padded w.key.blockSize w.key.lengthInBlocks payload n ∧
    frame.length = 4 + (1 + payload.length + n) + w.key.tagLen
  opens : ∀ key', Paired P w.key key' → ∃ padding next,
    (UInt8.ofNat padding.length :: payload ++ padding).length ≤ maximumPacketLen ∧
      padding.length < 2 ^ 8 ∧
        Opens w.seqn key' frame (UInt8.ofNat padding.length :: payload ++ padding) next ∧
          Paired P w'.key next

theorem write_ok (h : P.Documented) {payload : Bytes}
    (hfits : payload.length + 9 ≤ maximumPacketLen) (hready : ∃ key', Paired P w.key key') :
    ∃ w' frame, Sealer.write payload w = .ok ⟨⟩ w' ∧ Written P w w' payload frame := by
  obtain ⟨n, hpadding, hpadded⟩ := paddingLength_ok w.key payload
  obtain ⟨key', hkey'⟩ := hready
  have hblock := blockSize_eq w.key
  have hle := hpadded.le
  have hleast := hpadded.least
  have hmost := hpadded.most hblock (lengthInBlocks_le w.key) hfits
  have hfill := length_fillPadding (n := n) w.key w.random
  generalize hfp : w.key.fillPadding n w.random = filled at hfill
  obtain ⟨padding, random⟩ := filled
  dsimp only at hfill
  subst hfill
  generalize hb : UInt8.ofNat padding.length :: payload ++ padding = body
  have hlength : 1 + payload.length + padding.length = body.length := by
    rw [← hb]
    simp only [List.length_append, List.length_cons]
    omega
  rw [hlength] at hmost hleast
  have hmax : maximumPacketLen = 262144 := rfl
  have hseals : ∀ {k}, Paired P w.key k → SealsFor P w.seqn w.key k body :=
    fun hk => sealsFor h hk (by omega) hmost
  obtain ⟨ciphertext, tag, next, next', hseal, hciphertext, htag, -, -⟩ := hseals hkey'
  have hwrite : wp (Sealer.write payload) (fun _ w' => w' = { w with
      key := next, random
      buffer := w.buffer ++ ciphertext ++ tag
      bytes := w.bytes + payload.length
      seqn := w.seqn + 1 }) (fun _ _ => False) w := by
    have hlong : ¬2 ^ 32 ≤ body.length := by omega
    have hpad : ¬2 ^ 8 ≤ padding.length := by omega
    unfold Sealer.write paddingLengthLen
    simp only [wp_bind, wp_get, wp_ofExcept, hpadding, wpExcept_ok, hfp, hlength,
      List.append_assoc, hb, hseal, if_neg hlong, if_neg hpad, wp_set]
  obtain ⟨_, w', hw, rfl⟩ := exists_ok_of_wp hwrite
  refine ⟨_, ciphertext ++ tag, hw, List.append_assoc _ _ _, rfl, rfl,
    ⟨padding.length, hpadded, ?_⟩, ?_⟩
  · rw [List.length_append, hciphertext, htag, hlength]
  intro k hk
  obtain ⟨ciphertext', tag', after, after', hseal', -, -, hopens, hpaired⟩ := hseals hk
  rw [hseal] at hseal'
  obtain ⟨rfl, rfl, rfl⟩ : ciphertext = ciphertext' ∧ tag = tag' ∧ next = after := by
    simpa using hseal'
  refine ⟨padding, after', ?_, by omega, ?_, hpaired⟩
  · rw [hb]
    exact hmost
  · rw [hb]
    exact hopens

/-- A packet that fits is written without a panic: its padding is between 4 and 255 bytes, it
fills the blocks that are encrypted, and the packet has at least 16 bytes. -/
theorem write_frame (h : P.Documented) {key' : OpeningKey C} (hpaired : Paired P w.key key')
    {payload : Bytes} (hfits : payload.length + 9 ≤ maximumPacketLen) :
    ∃ w' n frame, Sealer.write payload w = .ok ⟨⟩ w' ∧ w'.buffer = w.buffer ++ frame ∧
      frame.length = 4 + (1 + payload.length + n) + w.key.tagLen ∧ 4 ≤ n ∧ n < 2 ^ 8 ∧
        w.key.blockSize ∣ w.key.lengthInBlocks + 1 + payload.length + n ∧
          16 ≤ 4 + (1 + payload.length + n) ∧ w'.seqn = w.seqn + 1 ∧
            w'.bytes = w.bytes + payload.length := by
  obtain ⟨w', frame, hwrite, hwritten⟩ := write_ok h hfits ⟨key', hpaired⟩
  obtain ⟨n, hpadded, hlength⟩ := hwritten.shape
  have hle := hpadded.le
  have hblock := blockSize_eq w.key
  exact ⟨w', n, frame, hwrite, hwritten.buffer, hlength, hpadded.four_le, by omega,
    hpadded.aligned, hpadded.least, hwritten.seqn, hwritten.bytes⟩

/-- One packet, or one change of keys, gets from the writer to the reader. -/
theorem carries_exchange (h : P.Documented) (fuel : Nat) (m : Traffic) (w : Sealer C K)
    (hfits : m.Fits) (hready : (connection P D).Ready w) :
    (connection P D).Carries w (Sealer.exchange m) (Reader.exchange fuel m.turn) m.payload := by
  cases m with
  | packet payload =>
    obtain ⟨w', frame, hwrite, hwritten⟩ := write_ok h hfits hready
    obtain ⟨key', hkey'⟩ := hready
    obtain ⟨_, next, -, -, -, hnext⟩ := hwritten.opens key' hkey'
    refine ⟨w', frame, hwrite, hwritten.buffer, ⟨next, hnext⟩, ?_⟩
    intro r tail hstep hstream
    obtain ⟨padding, after, hmost, hpadding, hopens, hafter⟩ := hwritten.opens r.key hstep.keys
    rw [← hstep.seqn] at hopens
    obtain ⟨v, r', hread, rfl, htail, hkey, hseqn, hlen, hplain⟩ := exists_ok_of_wp
      (wp_readingArm_frame hstep.plain hstep.len hstream hopens hmost rfl hpadding fuel)
    refine ⟨r', hread, htail, ?_, ?_, hlen, hplain⟩
    · rw [hkey]
      exact hafter
    · rw [hseqn, hwritten.seqn, hstep.seqn]
  | change c =>
    cases c with
    | newKeys cipher key nonce macKey mac =>
      refine ⟨_, [], rfl, (List.append_nil _).symm, ⟨_, paired_make h _ _ _ _ _⟩, ?_⟩
      intro r tail hstep hstream
      exact ⟨_, rfl, hstream, paired_make h _ _ _ _ _, hstep.seqn, hstep.len, hstep.plain⟩
    | resetSeqn =>
      refine ⟨_, [], rfl, (List.append_nil _).symm, hready, ?_⟩
      intro r tail hstep hstream
      exact ⟨_, rfl, hstream, hstep.keys, rfl, hstep.len, hstep.plain⟩

/-- Whatever one side of a connection sends, over any changes of keys, ciphers and MACs, is what
the other side reads, and the two sides are in step again. -/
theorem traffic_round_trip (h : P.Documented) (hstep : Follows P w r) (ms : List Traffic)
    (hfits : ∀ m ∈ ms, m.Fits) (fuel : Nat) :
    ∃ w' frames, ms.forM Sealer.exchange w = .ok ⟨⟩ w' ∧ w'.buffer = w.buffer ++ frames ∧
      ∀ tail, ∃ r', (ms.map Traffic.turn).mapM (Reader.exchange fuel)
          { r with stream := frames ++ tail } = .ok (ms.map Traffic.payload) r' ∧
        r'.stream = tail ∧ Follows P w' r' := by
  obtain ⟨w', frames, hwrite, hbuffer, -, hread⟩ := (connection P D).carries_all
    (fun m w => carries_exchange h fuel m w) ms hfits ⟨r.key, hstep.keys⟩
  refine ⟨w', frames, hwrite, hbuffer, fun tail => ?_⟩
  exact hread _ tail ⟨hstep.keys, hstep.seqn, hstep.len, hstep.plain⟩ rfl

/-- A cipher that masks every byte, and tags of zeros. -/
def mask (data : Bytes) : Bytes := data.map (· ^^^ 42)

@[simp] theorem mask_mask (data : Bytes) : mask (mask data) = data := by
  unfold mask
  rw [List.map_map]
  refine (List.map_congr_left fun b _ => ?_).trans (List.map_id data)
  rw [Function.comp_apply, UInt8.xor_assoc, UInt8.xor_self, UInt8.xor_zero, id]

theorem length_mask (data : Bytes) : (mask data).length = data.length := List.length_map _

def maskN {n : Nat} (b : ByteArrayN n) : ByteArrayN n :=
  ⟨mask b.val, (length_mask b.val).trans b.property⟩

def zeroTag : ByteArrayN 16 := ⟨List.replicate 16 0, List.length_replicate⟩

def CipherCrates.masking : CipherCrates where
  Stream := Unit
  newStream _ _ _ := ()
  applyKeystream _ data := (⟨mask data, length_mask data⟩, ())
  Cbc := Unit
  newCbc _ _ _ := ()
  decryptBlock _ block := (maskN block, ())
  Aead := Unit
  newAead _ _ _ := ()
  openInPlace _ _ data :=
    (some ⟨mask (data.take (data.length - 16)), by
      rw [length_mask, List.length_take]
      omega⟩, ())
  ChaCha := Unit
  newChaCha _ := ()
  chachaPacketLength _ _ b := maskN b
  chachaOpen _ _ _ data _ := some ⟨mask data, Nat.le_of_eq (length_mask data)⟩
  hmac mac _ _ := List.replicate mac.macLen 0

def SealingCrates.masking : SealingCrates CipherCrates.masking where
  Cbc := Unit
  newCbc _ _ _ := ()
  encryptBlock _ block := (maskN block, ())
  Aead := Unit
  newAead _ _ _ := ()
  sealInPlace _ _ data := (some (⟨mask data, length_mask data⟩, zeroTag), ())
  ChaCha := Unit
  newChaCha _ := ()
  chachaSeal _ _ data := (⟨mask data, length_mask data⟩, zeroTag)

def Pairing.masking : Pairing CipherCrates.masking SealingCrates.masking where
  keystream _ _ := 42
  advance _ _ := ()
  cbc _ _ := True
  aead _ _ := True
  chacha _ _ := True

theorem masking_documented : Pairing.masking.Documented where
  applyKeystream _ data := by
    apply List.ext_getElem
    · exact (length_mask data).trans List.length_mapIdx.symm
    · intro i _ _
      rw [List.getElem_mapIdx]
      exact List.getElem_map _
  advance _ _ := rfl
  newCbc _ _ _ := trivial
  decryptBlock _ _ block _ := ⟨Subtype.ext (mask_mask block.val), trivial⟩
  newAead _ _ _ := trivial
  openInPlace _ _ aad data _ _ := by
    refine ⟨_, _, _, rfl, _, _, rfl, ?_, trivial⟩
    show mask ((mask data ++ List.replicate 16 0).take
      ((mask data ++ List.replicate 16 0).length - 16)) = data
    rw [(take_tag List.length_replicate).1, mask_mask]
  newChaCha _ := trivial
  chachaOpen _ _ seqn data _ packetLength hlength := by
    constructor
    · show mask packetLength.val = data.take 4
      rw [hlength]
      show mask ((mask data).take 4) = data.take 4
      rw [mask, mask, ← List.map_take, ← mask, ← mask, mask_mask]
    · refine ⟨_, rfl, ?_⟩
      show mask ((mask data).drop 4) = data.drop 4
      rw [mask, mask, ← List.map_drop, ← mask, ← mask, mask_mask]
  hmac mac key data _ := List.length_replicate

/-- A packet in the clear, a change of keys, and a packet under the new keys. -/
def someTraffic : List Traffic :=
  [.packet [Msg.newKeys], .change (.newKeys .aes256Ctr [] [] [] .hmacSha256Etm), .change .resetSeqn,
    .packet [Msg.ignore, 1, 2, 3]]

theorem follows_start : Follows Pairing.masking (D := Flate2.doubling)
    { random := fun _ => 7 } { stream := [] } :=
  ⟨.clear, rfl, rfl, .inl rfl⟩

theorem traffic_round_trip_someTraffic :
    ∃ w' frames, someTraffic.forM Sealer.exchange
        ({ random := fun _ => 7 } : Sealer CipherCrates.masking SealingCrates.masking) =
          .ok ⟨⟩ w' ∧ w'.buffer = [] ++ frames ∧
      ∀ tail, ∃ r', (someTraffic.map Traffic.turn).mapM (Reader.exchange 0)
          ({ stream := frames ++ tail } : Reader CipherCrates.masking Flate2.doubling) =
            .ok (someTraffic.map Traffic.payload) r' ∧
        r'.stream = tail ∧ Follows Pairing.masking w' r' := by
  refine traffic_round_trip masking_documented follows_start someTraffic ?_ 0
  have hpacket : ∀ payload : Bytes, payload.length ≤ 4 → (Traffic.packet payload).Fits := by
    intro payload hle
    show payload.length + 9 ≤ 262144
    omega
  simp only [someTraffic, List.forall_mem_cons]
  exact ⟨hpacket _ (by decide), trivial, trivial, hpacket _ (by decide),
    fun _ h => absurd h List.not_mem_nil⟩

theorem write_frame_cbc :
    ∃ w' n frame, Sealer.write [1, 2, 3] (⟨.block (.cbc ()) ⟨.hmacSha1, []⟩, fun _ => 7, [], 0, 0⟩ :
        Sealer CipherCrates.masking SealingCrates.masking) = .ok ⟨⟩ w' ∧
      w'.buffer = [] ++ frame ∧ frame.length = 4 + (1 + 3 + n) + 20 ∧ 4 ≤ n ∧ n < 2 ^ 8 ∧
        16 ∣ 4 + 1 + 3 + n ∧ 16 ≤ 4 + (1 + 3 + n) ∧ w'.seqn = 0 + 1 ∧ w'.bytes = 0 + 3 :=
  write_frame masking_documented (show Paired Pairing.masking _ (.block (.cbc ()) ⟨.hmacSha1, []⟩)
    from .block _ (.cbc trivial)) (by decide)

end Traffic

end Edgessh.Russh
