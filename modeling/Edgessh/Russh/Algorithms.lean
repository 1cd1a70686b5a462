import Edgessh.Russh.Primitives

/-!
# Algorithm names

The names that the negotiation may choose (`kex::Name`, `cipher::Name`, `mac::Name`,
`compression::Name`) with what the tables `KEXES`, `CIPHERS` and `MACS` say about them, for a
native build with the features `ring`, `rsa` and `flate2`.
-/

namespace Edgessh.Russh

/-- `kex::Name`, the extension names included. -/
inductive KexName where
  | curve25519
  | curve25519PreRfc8731
  | mlKem768X25519Sha256
  | dhGexSha1
  | dhGexSha256
  | dhG1Sha1
  | dhG14Sha1
  | dhG14Sha256
  | dhG15Sha512
  | dhG16Sha512
  | dhG17Sha512
  | dhG18Sha512
  | ecdhSha2NistP256
  | ecdhSha2NistP384
  | ecdhSha2NistP521
  | none
  | extensionSupportAsClient
  | extensionSupportAsServer
  | extensionOpensshStrictKexAsClient
  | extensionOpensshStrictKexAsServer
  deriving DecidableEq, Repr

def KexName.name : KexName → Bytes
  | curve25519 => ascii "curve25519-sha256"
  | curve25519PreRfc8731 => ascii "curve25519-sha256@libssh.org"
  | mlKem768X25519Sha256 => ascii "mlkem768x25519-sha256"
  | dhGexSha1 => ascii "diffie-hellman-group-exchange-sha1"
  | dhGexSha256 => ascii "diffie-hellman-group-exchange-sha256"
  | dhG1Sha1 => ascii "diffie-hellman-group1-sha1"
  | dhG14Sha1 => ascii "diffie-hellman-group14-sha1"
  | dhG14Sha256 => ascii "diffie-hellman-group14-sha256"
  | dhG15Sha512 => ascii "diffie-hellman-group15-sha512"
  | dhG16Sha512 => ascii "diffie-hellman-group16-sha512"
  | dhG17Sha512 => ascii "diffie-hellman-group17-sha512"
  | dhG18Sha512 => ascii "diffie-hellman-group18-sha512"
  | ecdhSha2NistP256 => ascii "ecdh-sha2-nistp256"
  | ecdhSha2NistP384 => ascii "ecdh-sha2-nistp384"
  | ecdhSha2NistP521 => ascii "ecdh-sha2-nistp521"
  | none => ascii "none"
  | extensionSupportAsClient => ascii "ext-info-c"
  | extensionSupportAsServer => ascii "ext-info-s"
  | extensionOpensshStrictKexAsClient => ascii "kex-strict-c-v00@openssh.com"
  | extensionOpensshStrictKexAsServer => ascii "kex-strict-s-v00@openssh.com"

/-- The keys of `KEXES`. -/
def allKexAlgorithms : List KexName :=
  [.mlKem768X25519Sha256, .curve25519, .curve25519PreRfc8731, .dhGexSha1, .dhGexSha256, .dhG1Sha1,
    .dhG14Sha1, .dhG14Sha256, .dhG15Sha512, .dhG16Sha512, .dhG17Sha512, .dhG18Sha512,
    .ecdhSha2NistP256, .ecdhSha2NistP384, .ecdhSha2NistP521, .none]

/-- `KEX_EXTENSION_NAMES`. -/
def kexExtensionNames : List KexName :=
  [.extensionSupportAsClient, .extensionSupportAsServer, .extensionOpensshStrictKexAsClient,
    .extensionOpensshStrictKexAsServer]

/-- `cipher::Name`. -/
inductive CipherName where
  | clear
  | none
  | aes128Ctr
  | aes192Ctr
  | aes256Ctr
  | aes128Gcm
  | aes256Gcm
  | aes128Cbc
  | aes192Cbc
  | aes256Cbc
  | chacha20Poly1305
  deriving DecidableEq, Repr

namespace CipherName

def name : CipherName → Bytes
  | clear => ascii "clear"
  | none => ascii "none"
  | aes128Ctr => ascii "aes128-ctr"
  | aes192Ctr => ascii "aes192-ctr"
  | aes256Ctr => ascii "aes256-ctr"
  | aes128Gcm => ascii "aes128-gcm@openssh.com"
  | aes256Gcm => ascii "aes256-gcm@openssh.com"
  | aes128Cbc => ascii "aes128-cbc"
  | aes192Cbc => ascii "aes192-cbc"
  | aes256Cbc => ascii "aes256-cbc"
  | chacha20Poly1305 => ascii "chacha20-poly1305@openssh.com"

/-- `Cipher::needs_mac`. -/
def needsMac : CipherName → Bool
  | aes128Ctr | aes192Ctr | aes256Ctr | aes128Cbc | aes192Cbc | aes256Cbc => true
  | _ => false

/-- `Cipher::key_len`. -/
def keyLen : CipherName → Nat
  | clear | none => 0
  | aes128Ctr | aes128Gcm | aes128Cbc => 16
  | aes192Ctr | aes192Cbc => 24
  | aes256Ctr | aes256Gcm | aes256Cbc => 32
  | chacha20Poly1305 => 64

/-- `Cipher::nonce_len`. -/
def nonceLen : CipherName → Nat
  | clear | none | chacha20Poly1305 => 0
  | aes128Gcm | aes256Gcm => 12
  | _ => 16

end CipherName

/-- `mac::Name`. -/
inductive MacName where
  | none
  | hmacSha1
  | hmacSha256
  | hmacSha512
  | hmacSha1Etm
  | hmacSha256Etm
  | hmacSha512Etm
  deriving DecidableEq, Repr

namespace MacName

def name : MacName → Bytes
  | none => ascii "none"
  | hmacSha1 => ascii "hmac-sha1"
  | hmacSha256 => ascii "hmac-sha2-256"
  | hmacSha512 => ascii "hmac-sha2-512"
  | hmacSha1Etm => ascii "hmac-sha1-etm@openssh.com"
  | hmacSha256Etm => ascii "hmac-sha2-256-etm@openssh.com"
  | hmacSha512Etm => ascii "hmac-sha2-512-etm@openssh.com"

/-- `MacAlgorithm::key_len`. -/
def keyLen : MacName → Nat
  | none => 0
  | hmacSha1 | hmacSha1Etm => 20
  | hmacSha256 | hmacSha256Etm => 32
  | hmacSha512 | hmacSha512Etm => 64

end MacName

/-- `compression::Name`. -/
inductive CompressionName where
  | none
  | zlib
  | zlibLegacy
  deriving DecidableEq, Repr

def CompressionName.name : CompressionName → Bytes
  | none => ascii "none"
  | zlib => ascii "zlib"
  | zlibLegacy => ascii "zlib@openssh.com"

/-- `compression::Compression`. -/
inductive Compression where
  | none
  | zlib
  deriving DecidableEq, Repr

/-- `Compression::new`. -/
def Compression.new : CompressionName → Compression
  | .zlib | .zlibLegacy => .zlib
  | .none => .none

/-- `Algorithm::as_ref`. -/
def Algorithm.name : Algorithm → Bytes
  | .dsa => ascii "ssh-dss"
  | .ecdsa .nistP256 => ascii "ecdsa-sha2-nistp256"
  | .ecdsa .nistP384 => ascii "ecdsa-sha2-nistp384"
  | .ecdsa .nistP521 => ascii "ecdsa-sha2-nistp521"
  | .ed25519 => ascii "ssh-ed25519"
  | .rsa Option.none => ascii "ssh-rsa"
  | .rsa (some .sha256) => ascii "rsa-sha2-256"
  | .rsa (some .sha512) => ascii "rsa-sha2-512"
  | .skEcdsaSha2NistP256 => ascii "sk-ecdsa-sha2-nistp256@openssh.com"
  | .skEd25519 => ascii "sk-ssh-ed25519@openssh.com"
  | .other name => name

/-- `negotiation.rs`, `Names`. -/
structure Names where
  kex : KexName
  key : Algorithm
  cipher : CipherName
  clientMac : MacName
  serverMac : MacName
  serverCompression : Compression
  clientCompression : Compression
  ignoreGuessed : Bool
  strictKex : Bool
  deriving DecidableEq, Repr

/-- `Algorithm::is_rsa`. -/
def Algorithm.isRsa : Algorithm → Bool
  | .rsa _ => true
  | _ => false

end Edgessh.Russh
