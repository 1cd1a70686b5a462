import Edgessh.Russh.Encoding

/-!
# The messages of an SSH agent

`keys/agent/msg.rs` and `keys/agent/mod.rs`, the fields of a message, and what the agent takes
from `ssh_key`.
-/

namespace Edgessh.Russh.Keys.Agent

namespace Msg

def failure : UInt8 := 5
def success : UInt8 := 6
def identitiesAnswer : UInt8 := 12
def signResponse : UInt8 := 14

def requestIdentities : UInt8 := 11
def signRequest : UInt8 := 13
def addIdentity : UInt8 := 17
def removeIdentity : UInt8 := 18
def removeAllIdentities : UInt8 := 19
def addIdConstrained : UInt8 := 25
def addSmartcardKey : UInt8 := 20
def removeSmartcardKey : UInt8 := 21
def lock : UInt8 := 22
def unlock : UInt8 := 23
def addSmartcardKeyConstrained : UInt8 := 26
def extension : UInt8 := 27

def constrainLifetime : UInt8 := 1
def constrainConfirm : UInt8 := 2
def constrainExtension : UInt8 := 255

end Msg

/-- Constraints on how keys can be used. -/
inductive Constraint where
  | keyLifetime (seconds : UInt32)
  | confirm
  | extensions (name details : Bytes)
  deriving DecidableEq, Repr

/-- `<[u8]>::encode`: a length that does not fit a `u32` is an error. -/
def encodeField (b : Bytes) : Except EncodingError Bytes :=
  if b.length < 2 ^ 32 then .ok (encodeBytes b) else .error .overflow

/-- What the agent takes from `ssh_key`. -/
structure KeyCrate where
  /-- `KeypairData` -/
  Keypair : Type
  /-- The key is in the clear, and no field of it is longer than a decoder takes. -/
  isReadable : Keypair → Bool
  encode : Keypair → Except EncodingError Bytes
  /-- `KeypairData::decode` and `PrivateKey::new` -/
  decode : Decoder Keypair
  /-- `public_key().key_data().encoded()` -/
  publicBlob : Keypair → Except EncodingError Bytes
  /-- `sign_with_hash_alg` without a hash -/
  sign : Keypair → Bytes → Option Bytes

/-- What is encoded of a key in the clear is decoded to it again, and its public part can be
encoded; of an encrypted key only its ciphertext is encoded, and no such key is decoded. -/
structure KeyCrate.Documented (K : KeyCrate) : Prop where
  decode_encode : ∀ key bytes rest, K.isReadable key = true → K.encode key = .ok bytes →
    K.decode (bytes ++ rest) = .ok (key, rest)
  publicBlob : ∀ key bytes, K.isReadable key = true → K.encode key = .ok bytes →
    ∃ blob, K.publicBlob key = .ok blob
  decode_readable : ∀ r key rest, K.decode r = .ok (key, rest) → K.isReadable key = true

/-- Keys of one byte. -/
def KeyCrate.toy : KeyCrate where
  Keypair := UInt8
  isReadable := fun _ => true
  encode := fun key => .ok [key]
  decode := decodeU8
  publicBlob := fun key => .ok [key]
  sign := fun key data => some (key :: data)

theorem KeyCrate.toy_documented : KeyCrate.toy.Documented where
  decode_encode := by
    rintro key bytes rest - ⟨⟩
    rfl
  publicBlob := fun key _ _ _ => ⟨[key], rfl⟩
  decode_readable := fun _ _ _ _ => rfl

theorem encodeField_eq_ok {b bytes : Bytes} :
    encodeField b = .ok bytes ↔ b.length < 2 ^ 32 ∧ bytes = encodeBytes b := by
  unfold encodeField
  by_cases hlt : b.length < 2 ^ 32
  · rw [if_pos hlt]
    constructor
    · intro h
      exact ⟨hlt, (Except.ok.inj h).symm⟩
    · rintro ⟨-, rfl⟩
      rfl
  · rw [if_neg hlt]
    constructor
    · intro h
      cases h
    · intro h
      exact absurd h.1 hlt

end Edgessh.Russh.Keys.Agent
