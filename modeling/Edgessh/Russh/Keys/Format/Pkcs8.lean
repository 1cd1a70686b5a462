import Edgessh.Russh.Kex.Groups
import Edgessh.Russh.Keys.KnownHosts

/-!
# PKCS#8 keys

`keys/format/pkcs8.rs`: a PKCS#8 document, encrypted or not, or an X9.62 EC private key. The
parsers and ciphers of other crates are parameters: each returns a value or an error of its own.
-/

namespace Edgessh.Russh.Keys.Format

/-- Sixteen bytes, an AES block. -/
abbrev Block := {b : Bytes // b.length = 16}

/-- An object identifier, by its components. -/
abbrev Oid := List Nat

/-- `pkcs1::RsaPrivateKey`, its numbers as they stand in the document. -/
structure Pkcs1RsaPrivateKey where
  modulus : Bytes
  publicExponent : Bytes
  privateExponent : Bytes
  prime1 : Bytes
  prime2 : Bytes

/-- `KeypairData`; the public keys are those of the private ones. -/
inductive KeypairData (Rsa Ed25519 : Type) (Ecdsa : Curve → Type) where
  | rsa (pair : Rsa)
  | ed25519 (privateKey : Ed25519)
  | ecdsa (curve : Curve) (privateKey : Ecdsa curve)

/-- What reading a key takes from other crates. -/
structure Crates where
  /-- The errors of these crates. -/
  Err : Type
  /-- of `p256`, `p384` and `p521` -/
  EcSecretKey : Curve → Type
  /-- of `ssh_key` -/
  PrivateKey : Type
  RsaKeypair : Type
  Ed25519PrivateKey : Type
  /-- `PrivateKey::new(data, "")` and `PrivateKey::try_from(data)` -/
  newPrivateKey : KeypairData RsaKeypair Ed25519PrivateKey EcSecretKey → Except Err PrivateKey
  fromPpk : Text → Option Text → Except Err PrivateKey
  fromBytes : Bytes → Except Err PrivateKey
  isEncrypted : PrivateKey → Bool
  decrypt : PrivateKey → Text → Except Err PrivateKey
  ofRsaKeypair : RsaKeypair → PrivateKey
  ed25519OfBytes : Bytes → Ed25519PrivateKey
  /-- of `rsa` -/
  RsaPrivateKey : Type
  fromPkcs1Der : Bytes → Except Err RsaPrivateKey
  fromComponents : (n e d : Nat) → (primes : List Nat) → Except Err RsaPrivateKey
  rsaKeypair : RsaPrivateKey → Except Err RsaKeypair
  /-- of `pkcs1` -/
  pkcs1OfBytes : Bytes → Except Err Pkcs1RsaPrivateKey
  /-- of `pkcs8`, `spki` and `sec1` -/
  SecretDocument : Type
  EncryptedPrivateKeyInfo : Type
  PrivateKeyInfo : Type
  EcPrivateKey : Type
  secretDocument : Bytes → Except Err SecretDocument
  decodeEncrypted : SecretDocument → Except Err EncryptedPrivateKeyInfo
  decryptInfo : EncryptedPrivateKeyInfo → Bytes → Except Err SecretDocument
  decodeEc : SecretDocument → Except Err EcPrivateKey
  namedCurve : EcPrivateKey → Option Oid
  decodeInfo : SecretDocument → Except Err PrivateKeyInfo
  algorithmOid : PrivateKeyInfo → Oid
  parametersOid : PrivateKeyInfo → Except Err Oid
  privateKey : PrivateKeyInfo → Bytes
  /-- of `ed25519_dalek`: the secret key of a document -/
  keypairBytes : PrivateKeyInfo → Except Err Bytes
  /-- `SigningKey::try_from` -/
  signingKey : Bytes → Except Err Bytes
  /-- The curves' keys. -/
  ecOfSec1 : (c : Curve) → EcPrivateKey → Except Err (EcSecretKey c)
  ecOfInfo : (c : Curve) → PrivateKeyInfo → Except Err (EcSecretKey c)
  /-- of `data_encoding` -/
  hexlowerPermissive : Bytes → Except Err Bytes
  base64Mime : Bytes → Except Err Bytes
  /-- of `md5`, `cbc` and `pbkdf2`; the key length in bytes selects AES-128 or AES-256 -/
  md5 : Bytes → Block
  Decryptor : Type
  newFromSlices : (keyLength : Nat) → (key iv : Bytes) → Option Decryptor
  decryptPadded : Decryptor → Bytes → Except Err Bytes
  pbkdf2 : (password salt : Bytes) → (rounds : UInt32) → (n : Nat) →
    Except Err {b : Bytes // b.length = n}
  /-- of `yasna`: a reader in its buffer -/
  BerReader : Type
  berReader : Bytes → BerReader
  endOfBuf : BerReader → EStateM.Result Err BerReader Unit
  /-- The start of a sequence: what surrounds it is kept for its end. -/
  enterSequence : BerReader → EStateM.Result Err BerReader BerReader
  leaveSequence : BerReader → BerReader → EStateM.Result Err BerReader Unit
  readOid : BerReader → EStateM.Result Err BerReader Oid
  readBytes : BerReader → EStateM.Result Err BerReader Bytes
  readU64 : BerReader → EStateM.Result Err BerReader UInt64
  readNull : BerReader → EStateM.Result Err BerReader Unit
  /-- A bit string with this context tag. -/
  readTaggedBitvec : Nat → BerReader → EStateM.Result Err BerReader Bytes

/-- The errors of `keys::Error` that reading a key returns. -/
inductive Error (ε : Type) where
  | couldNotReadKey
  | keyIsEncrypted
  | keyIsCorrupt
  | unknownAlgorithm (oid : Oid)
  | invalidParameters
  | ecdsaKeyError (e : ε)
  | rsa (e : ε)
  | unpad (e : ε)
  | decode (e : ε)
  | der (e : ε)
  | spki (e : ε)
  | pkcs1 (e : ε)
  | pkcs8 (e : ε)
  | sshKey (e : ε)
  | legacyASN1 (e : ε)

/-- The curves by their identifiers. -/
def curveOfOid (oid : Oid) : Option Curve :=
  if oid = [1, 2, 840, 10045, 3, 1, 7] then some .nistP256
  else if oid = [1, 3, 132, 0, 34] then some .nistP384
  else if oid = [1, 3, 132, 0, 35] then some .nistP521
  else none

namespace Crates

variable (K : Crates)

abbrev Keypair := KeypairData K.RsaKeypair K.Ed25519PrivateKey K.EcSecretKey

/-- `ec_key_data_into_keypair`, with the conversion of the private key. -/
def ecKeyDataIntoKeypair (curveOid : Oid)
    (tryFrom : (c : Curve) → Except (Error K.Err) (K.EcSecretKey c)) :
    Except (Error K.Err) K.Keypair :=
  match curveOfOid curveOid with
  | some c => (tryFrom c).map (.ecdsa c)
  | none => .error (.unknownAlgorithm curveOid)

/-- `pkcs8_pki_into_keypair_data` -/
def pkcs8PkiIntoKeypairData (pki : K.PrivateKeyInfo) : Except (Error K.Err) K.Keypair :=
  if K.algorithmOid pki = [1, 2, 840, 113549, 1, 1, 1] then do
    let sk ← (K.pkcs1OfBytes (K.privateKey pki)).mapError .pkcs1
    let pk ← (K.fromComponents (natOfBytes sk.modulus) (natOfBytes sk.publicExponent)
      (natOfBytes sk.privateExponent) [natOfBytes sk.prime1, natOfBytes sk.prime2]).mapError .rsa
    let pair ← (K.rsaKeypair pk).mapError .sshKey
    pure (.rsa pair)
  else if K.algorithmOid pki = [1, 3, 101, 112] then do
    let secretKey ← (K.keypairBytes pki).mapError .pkcs8
    pure (.ed25519 (K.ed25519OfBytes secretKey))
  else if K.algorithmOid pki = [1, 2, 840, 10045, 2, 1] then do
    let curve ← (K.parametersOid pki).mapError .spki
    K.ecKeyDataIntoKeypair curve fun c => (K.ecOfInfo c pki).mapError .pkcs8
  else throw (.unknownAlgorithm (K.algorithmOid pki))

/-- `pkcs8::decode_pkcs8` -/
def decodePkcs8 (ciphertext : Bytes) (password : Option Bytes) :
    Except (Error K.Err) K.PrivateKey := do
  let doc ← (K.secretDocument ciphertext).mapError .der
  let doc ← match password with
    | some password => do
      let info ← (K.decodeEncrypted doc).mapError .der
      (K.decryptInfo info password).mapError .pkcs8
    | none => pure doc
  match K.decodeEc doc with
  | .ok key =>
    match K.namedCurve key with
    | none => throw .couldNotReadKey
    | some curve => do
      let pair ← K.ecKeyDataIntoKeypair curve fun c => (K.ecOfSec1 c key).mapError .ecdsaKeyError
      (K.newPrivateKey pair).mapError .sshKey
  | .error _ => do
    let pki ← (K.decodeInfo doc).mapError .der
    let data ← K.pkcs8PkiIntoKeypairData pki
    (K.newPrivateKey data).mapError .sshKey

end Crates

end Edgessh.Russh.Keys.Format
