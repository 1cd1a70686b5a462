import Edgessh.Russh.Encoding

/-!
# External primitives

The hash functions, groups and signature schemes come from other crates. `Primitives` is what
`russh` uses of them, and what it is compiled for; every one of its functions is total. `Entropy`
is one draw of the random number generator.
-/

namespace Edgessh.Russh

/-- An array `[u8; n]`. -/
abbrev ByteArrayN (n : Nat) := { b : Bytes // b.length = n }

instance (n : Nat) : Inhabited (ByteArrayN n) := ⟨⟨List.replicate n 0, List.length_replicate⟩⟩

/-- Both a `Scalar` and a `MontgomeryPoint` are 32 bytes. -/
abbrev Scalar := ByteArrayN 32
abbrev MontgomeryPoint := ByteArrayN 32

inductive Digest where
  | sha1
  | sha256
  | sha384
  | sha512
  deriving DecidableEq, Repr

def Digest.len : Digest → Nat
  | .sha1 => 20
  | .sha256 => 32
  | .sha384 => 48
  | .sha512 => 64

inductive Curve where
  | nistP256
  | nistP384
  | nistP521
  deriving DecidableEq, Repr

/-- `PublicKey`, by its encoding (`to_bytes`). -/
structure PublicKey where
  blob : Bytes
  deriving DecidableEq, Repr

inductive HashAlg where
  | sha256
  | sha512
  deriving DecidableEq, Repr

/-- `ssh_key::Algorithm`. -/
inductive Algorithm where
  | dsa
  | ecdsa (curve : Curve)
  | ed25519
  | rsa (hash : Option HashAlg)
  | skEcdsaSha2NistP256
  | skEd25519
  | other (name : Bytes)
  deriving DecidableEq, Repr

/-- A private host key: its algorithm and its public half. What signs is `Primitives.sign`. -/
structure PrivateKey where
  algorithm : Algorithm
  publicKey : PublicKey
  deriving DecidableEq, Repr

/-- `ssh_key::Certificate`, by its certificate type and its encoding. -/
structure Certificate where
  certificateType : Bytes
  blob : Bytes
  deriving DecidableEq, Repr

/-- `ssh_key::Error`, as far as the server tells its cases apart: `unsupported` stands for
`AlgorithmUnknown`, `AlgorithmUnsupported` and `CertificateValidation`. -/
inductive SshKeyError where
  | unsupported
  | other
  deriving DecidableEq, Repr

/-- The arrays of `libcrux_ml_kem::mlkem768`. -/
abbrev MlKem768PrivateKey := ByteArrayN 2400
abbrev MlKem768PublicKey := ByteArrayN 1184
abbrev MlKem768Ciphertext := ByteArrayN 1088

/-- What the crate is compiled for. -/
inductive Target where
  | native
  | wasm32
  deriving DecidableEq, Repr

/-- `Instant::duration_since`. Under wasm32 an `Instant` is a time of the wall clock, and a negative
duration a panic; otherwise no time has passed since a later instant. -/
def Target.durationSince (now earlier : Nat) : Target → Option Nat
  | native => some (now - earlier)
  | wasm32 => if earlier ≤ now then some (now - earlier) else none

structure Primitives where
  target : Target := .native
  hash (d : Digest) : Bytes → ByteArrayN d.len
  /-- `ED25519_BASEPOINT_TABLE * &s`, converted to Montgomery form -/
  x25519Base : Scalar → MontgomeryPoint
  /-- `s * p` -/
  x25519 : Scalar → MontgomeryPoint → MontgomeryPoint
  /-- `EphemeralSecret::public_key` and `to_sec1_bytes` -/
  ecdhPublicKey : Curve → Bytes → Bytes
  /-- `PublicKey::from_sec1_bytes`: what it accepts stands for the key -/
  fromSec1Bytes : Curve → Bytes → Option Bytes
  /-- `EphemeralSecret::diffie_hellman` and `raw_secret_bytes` -/
  diffieHellman : Curve → Bytes → Bytes → Bytes
  mlKemGenerateKeyPair : ByteArrayN 64 → MlKem768PrivateKey × MlKem768PublicKey
  mlKemEncapsulate : MlKem768PublicKey → ByteArrayN 32 → MlKem768Ciphertext × ByteArrayN 32
  mlKemDecapsulate : MlKem768PrivateKey → MlKem768Ciphertext → ByteArrayN 32
  /-- `ssh_key::public::KeyData::decode` -/
  decodePublicKey : Bytes → Option PublicKey
  /-- `ssh_key::Algorithm::from_str` -/
  parseAlgorithm : Bytes → Option Algorithm
  /-- `ssh_key::Signature::decode` succeeds -/
  signatureDecodes : Bytes → Bool
  /-- `Verifier::verify` of a key, the signed data and an encoded signature -/
  verify : PublicKey → Bytes → Bytes → Bool
  /-- `sign_with_hash_alg` -/
  sign : PrivateKey → Option HashAlg → Bytes → Except Error Bytes
  /-- `Algorithm::new_certificate_ext`: neither `Algorithm::Other` nor an error of the encoding -/
  isCertificateAlgorithm : Bytes → Bool
  /-- the error of `KeyData::decode`, or of `Algorithm::new` -/
  keyError : Bytes → SshKeyError
  /-- `ssh_key::Certificate::decode` -/
  decodeCertificate : Bytes → Except SshKeyError Certificate
  /-- `Certificate::public_key` -/
  certificateKey : Certificate → PublicKey
  /-- `valid_after_time` and `valid_before_time` -/
  certificateValidity : Certificate → Nat × Nat
  /-- `Certificate::verify_signature` succeeds -/
  certificateVerifies : Certificate → Bool
  /-- `flate2::Compress`, after the inputs it has had since it was made or reset -/
  deflate : List Bytes → Bytes → Option Bytes
  /-- `flate2::Decompress`, after the inputs it has had since it was made or reset -/
  inflate : List Bytes → Bytes → Option Bytes

/-- What one call of the random number generator may return, for each way it is called. -/
structure Entropy where
  cookie : ByteArrayN 16
  scalar : Scalar
  ephemeralSecret : Bytes
  /-- `gen_biguint_range`, by its bounds -/
  biguint : Nat → Nat → Nat
  mlKemSeed : ByteArrayN 64
  mlKemRandomness : ByteArrayN 32

/-- A sum of the bytes that depends on their order. -/
def checksum (b : Bytes) : UInt8 := b.foldl (fun h x => 31 * h + x) 7

/-- Total functions that agree with each other as the primitives do, for runs on fixed inputs:
both ends of an exchange compute one secret, a signature is checked against the key that made
it, compressed data is decompressed to what it was. -/
def Primitives.toy : Primitives where
  hash d b := ⟨List.replicate d.len (checksum b), List.length_replicate⟩
  x25519Base s := s
  x25519 s p := ⟨List.zipWith (· + ·) s.val p.val, by simp [s.property, p.property]⟩
  ecdhPublicKey _ s := 1 :: s
  fromSec1Bytes _ b := if b.head? = some 1 then some b.tail else none
  diffieHellman _ s k := [1, checksum s + checksum k]
  mlKemGenerateKeyPair _ := (default, default)
  mlKemEncapsulate _ r :=
    (⟨r.val ++ List.replicate 1056 0, by
      rw [List.length_append, r.property, List.length_replicate]⟩, r)
  mlKemDecapsulate _ c := ⟨c.val.take 32, by simp [c.property]⟩
  decodePublicKey b := if b = [] then none else some ⟨b⟩
  parseAlgorithm b := some (.other b)
  signatureDecodes s := s ≠ []
  verify key hash signature := signature = key.blob ++ hash
  sign key _ hash := .ok (key.publicKey.blob ++ hash)
  isCertificateAlgorithm _ := false
  keyError _ := .other
  decodeCertificate b := .ok ⟨[], b⟩
  certificateKey c := ⟨c.blob⟩
  certificateValidity _ := (0, 0)
  certificateVerifies _ := true
  deflate _ b := some b
  inflate _ b := some b

def Entropy.toy : Entropy where
  cookie := default
  scalar := ⟨List.replicate 32 1, rfl⟩
  ephemeralSecret := [1]
  biguint lower _ := lower
  mlKemSeed := default
  mlKemRandomness := default

end Edgessh.Russh
