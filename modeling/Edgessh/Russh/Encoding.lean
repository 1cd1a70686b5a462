import Mathlib.Algebra.Group.Nat.Defs
import Edgessh.Russh.Error

/-!
# SSH data representation

The encoders and decoders of RFC 4251, section 5, as `ssh_encoding` has them. A decoder returns
what it read and the rest of its input. A `String` of the source is the list of its UTF-8 bytes.
-/

namespace Edgessh.Russh

/-- The bytes of an ASCII literal. -/
def ascii (s : String) : Bytes := s.toList.map fun c => UInt8.ofNat c.toNat

/-- Four bytes, the most significant first; `n` is taken modulo `2 ^ 32`, as `as u32` does. -/
def encodeU32 (n : Nat) : Bytes :=
  [UInt8.ofNat (n / 2 ^ 24), UInt8.ofNat (n / 2 ^ 16), UInt8.ofNat (n / 2 ^ 8), UInt8.ofNat n]

def encodeBool (b : Bool) : Bytes := [if b then 1 else 0]

/-- A length and the bytes. -/
def encodeBytes (b : Bytes) : Bytes := encodeU32 b.length ++ b

/-- `NameList::as_encoded_string`: the names separated by commas. -/
def joinNames (names : List Bytes) : Bytes := [(44 : UInt8)].intercalate names

def encodeNameList (names : List Bytes) : Bytes := encodeBytes (joinNames names)

/-- `BigEndian::read_u32` of four bytes. -/
def u32OfBytes (a b c d : UInt8) : Nat :=
  a.toNat * 2 ^ 24 + b.toNat * 2 ^ 16 + c.toNat * 2 ^ 8 + d.toNat

abbrev Decoder (α : Type) := Bytes → Except EncodingError (α × Bytes)

def decodeU8 : Decoder UInt8
  | [] => .error .length
  | b :: r => .ok (b, r)

def decodeU32 : Decoder Nat
  | a :: b :: c :: d :: r => .ok (u32OfBytes a b c d, r)
  | _ => .error .length

/-- The largest length that `usize::decode` accepts. -/
def maxSize : Nat := 0xFFFFF

/-- `usize::decode`: a `u32` that is at most `maxSize`. -/
def decodeUsize (r : Bytes) : Except EncodingError (Nat × Bytes) := do
  let (n, r) ← decodeU32 r
  if n ≤ maxSize then pure (n, r) else throw .overflow

/-- `Bytes::decode`, `Vec<u8>::decode`. -/
def decodeBytes (r : Bytes) : Except EncodingError (Bytes × Bytes) := do
  let (n, r) ← decodeUsize r
  if n ≤ r.length then pure (r.take n, r.drop n) else throw .length

def isContinuation (b : UInt8) : Bool := 0x80 ≤ b && b ≤ 0xBF

/-- `str::from_utf8` accepts the bytes: no overlong forms, no surrogates, nothing above
U+10FFFF. -/
def validUtf8 : Bytes → Bool
  | [] => true
  | a :: r =>
    if a < 0x80 then validUtf8 r
    else match r with
      | b :: r =>
        if 0xC2 ≤ a && a ≤ 0xDF then isContinuation b && validUtf8 r
        else match r with
          | c :: r =>
            if 0xE0 ≤ a && a ≤ 0xEF then
              isContinuation b && isContinuation c && (a != 0xE0 || 0xA0 ≤ b) &&
                (a != 0xED || b ≤ 0x9F) && validUtf8 r
            else match r with
              | d :: r =>
                0xF0 ≤ a && a ≤ 0xF4 && isContinuation b && isContinuation c &&
                  isContinuation d && (a != 0xF0 || 0x90 ≤ b) && (a != 0xF4 || b ≤ 0x8F) &&
                  validUtf8 r
              | [] => false
          | [] => false
      | [] => false

/-- `String::decode`. -/
def decodeString (r : Bytes) : Except EncodingError (Bytes × Bytes) := do
  let (s, r) ← decodeBytes r
  if validUtf8 s then pure (s, r) else throw .characterEncoding

/-- `split(',')`: never empty, a comma at either end gives an empty name. -/
def splitNames : Bytes → List Bytes
  | [] => [[]]
  | b :: r =>
    if b = 44 then [] :: splitNames r
    else match splitNames r with
      | n :: ns => (b :: n) :: ns
      | [] => [[b]]

/-- `NameList::decode`. -/
def decodeNameList (r : Bytes) : Except EncodingError (List Bytes × Bytes) := do
  let (s, r) ← decodeString r
  pure (splitNames s, r)

/-- `Mpint::decode` and `as_bytes`: a zero is the empty string, and a first byte 0 stands only
before a byte that has its top bit set. -/
def decodeMpint (r : Bytes) : Except EncodingError (Bytes × Bytes) := do
  let (b, r) ← decodeBytes r
  match b with
  | [0] => throw .mpintEncoding
  | 0 :: c :: _ => if c < 0x80 then throw .mpintEncoding else pure (b, r)
  | _ => pure (b, r)

theorem u32OfBytes_lt (a b c d : UInt8) : u32OfBytes a b c d < 2 ^ 32 := by
  have ha := a.toNat_lt
  have hb := b.toNat_lt
  have hc := c.toNat_lt
  have hd := d.toNat_lt
  unfold u32OfBytes
  omega

@[simp] theorem encodeU32_length (n : Nat) : (encodeU32 n).length = 4 := rfl

/-- What `decodeU32` returns is below `2 ^ 32` and took four bytes. -/
theorem decodeU32_eq_ok {r r' : Bytes} {n : Nat} (h : decodeU32 r = .ok (n, r')) :
    n < 2 ^ 32 ∧ r.length = r'.length + 4 := by
  unfold decodeU32 at h
  split at h
  · cases h
    exact ⟨u32OfBytes_lt _ _ _ _, by simp⟩
  · cases h

@[simp] theorem decodeU32_encodeU32 (n : Nat) (r : Bytes) :
    decodeU32 (encodeU32 n ++ r) = .ok (n % 2 ^ 32, r) := by
  simp only [encodeU32, List.cons_append, List.nil_append, decodeU32, u32OfBytes]
  congr 2
  simp
  omega

theorem decodeUsize_eq_ok {r r' : Bytes} {n : Nat} :
    decodeUsize r = .ok (n, r') ↔ decodeU32 r = .ok (n, r') ∧ n ≤ maxSize := by
  unfold decodeUsize
  cases decodeU32 r with
  | error e => simp [bind, Except.bind]
  | ok p =>
    obtain ⟨m, q⟩ := p
    by_cases hm : m ≤ maxSize
    · simp only [bind, Except.bind, if_pos hm, pure, Except.pure]
      constructor
      · rintro ⟨⟩
        exact ⟨rfl, hm⟩
      · exact fun h => h.1
    · simp only [bind, Except.bind, if_neg hm, throw, throwThe, MonadExceptOf.throw]
      constructor
      · rintro ⟨⟩
      · rintro ⟨⟨⟩, h⟩
        exact absurd h hm

/-- What `decodeBytes` returns is the string that stands at the front of its input. -/
theorem decodeBytes_eq_ok {r b r' : Bytes} :
    decodeBytes r = .ok (b, r') ↔
      ∃ q, decodeU32 r = .ok (b.length, q) ∧ b.length ≤ maxSize ∧ q = b ++ r' := by
  unfold decodeBytes
  cases h : decodeUsize r with
  | error e =>
    simp only [bind, Except.bind, reduceCtorEq, false_iff]
    rintro ⟨q, hq, hle, rfl⟩
    rw [decodeUsize_eq_ok.mpr ⟨hq, hle⟩] at h
    cases h
  | ok p =>
    obtain ⟨n, q⟩ := p
    obtain ⟨hq, hn⟩ := decodeUsize_eq_ok.mp h
    by_cases hle : n ≤ q.length
    · simp only [bind, Except.bind, if_pos hle, pure, Except.pure]
      constructor
      · rintro ⟨⟩
        rw [List.length_take, Nat.min_eq_left hle]
        exact ⟨q, hq, hn, (List.take_append_drop n q).symm⟩
      · rintro ⟨q', hq', -, rfl⟩
        rw [hq] at hq'
        obtain ⟨rfl, rfl⟩ := Prod.mk.inj (Except.ok.inj hq')
        rw [List.take_left, List.drop_left]
    · simp only [bind, Except.bind, if_neg hle, throw, throwThe, MonadExceptOf.throw]
      constructor
      · rintro ⟨⟩
      · rintro ⟨q', hq', -, rfl⟩
        rw [hq] at hq'
        obtain ⟨rfl, rfl⟩ := Prod.mk.inj (Except.ok.inj hq')
        exact absurd (by simp) hle

/-- A string that fits is read back. -/
@[simp] theorem decodeBytes_encodeBytes {b : Bytes} (hb : b.length ≤ maxSize) (r : Bytes) :
    decodeBytes (encodeBytes b ++ r) = .ok (b, r) := by
  have hlt : b.length % 2 ^ 32 = b.length := by
    unfold maxSize at hb
    omega
  refine decodeBytes_eq_ok.mpr ⟨b ++ r, ?_, hb, rfl⟩
  rw [encodeBytes, List.append_assoc, decodeU32_encodeU32, hlt]

theorem decodeString_eq_ok {r b r' : Bytes} :
    decodeString r = .ok (b, r') ↔ decodeBytes r = .ok (b, r') ∧ validUtf8 b = true := by
  unfold decodeString
  cases decodeBytes r with
  | error e => simp [bind, Except.bind]
  | ok p =>
    obtain ⟨s, q⟩ := p
    by_cases hs : validUtf8 s = true
    · simp only [bind, Except.bind, if_pos hs, pure, Except.pure]
      constructor
      · rintro ⟨⟩
        exact ⟨rfl, hs⟩
      · exact fun h => h.1
    · simp only [bind, Except.bind, if_neg hs, throw, throwThe, MonadExceptOf.throw]
      constructor
      · rintro ⟨⟩
      · rintro ⟨⟨⟩, h⟩
        exact absurd h hs

theorem validUtf8_of_ascii {b : Bytes} (h : (b.all fun a => a < 0x80) = true) :
    validUtf8 b = true := by
  induction b with
  | nil => rw [validUtf8.eq_def]
  | cons a b ih =>
    obtain ⟨ha, hb⟩ := Bool.and_eq_true_iff.mp h
    rw [validUtf8.eq_def]
    dsimp only
    rw [if_pos (of_decide_eq_true ha)]
    exact ih hb

@[simp] theorem decodeString_encodeBytes {b : Bytes} (hb : b.length ≤ maxSize)
    (hvalid : validUtf8 b = true) (r : Bytes) : decodeString (encodeBytes b ++ r) = .ok (b, r) :=
  decodeString_eq_ok.mpr ⟨decodeBytes_encodeBytes hb r, hvalid⟩

end Edgessh.Russh
