import Edgessh.Russh.Algorithms
import Edgessh.Russh.Kex.Groups
import Edgessh.Russh.Msg

/-!
# Key exchange algorithms

`kex/mod.rs` and the implementors of `KexAlgorithmImplementor`. What the source indexes or copies
without a check of its own ends in `Exn.panic` here.
-/

namespace Edgessh.Russh

/-- `session.rs`, `Exchange`. -/
structure Exchange where
  clientId : Bytes
  serverId : Bytes
  clientKexInit : Bytes := []
  serverKexInit : Bytes := []
  clientEphemeral : Bytes := []
  serverEphemeral : Bytes := []
  gex : Option (GexParams × DhGroup) := none
  deriving DecidableEq, Repr

/-- A sealing or an opening key. `cipher::clear` has neither key nor nonce nor MAC. -/
inductive CipherKey where
  | clear
  | keyed (cipher : CipherName) (key nonce macKey : Bytes) (mac : MacName)
  deriving DecidableEq, Repr

structure CipherPair where
  localToRemote : CipherKey
  remoteToLocal : CipherKey
  deriving DecidableEq, Repr

/-- `clone_from_slice` and `copy_from_slice` into an array. -/
def copyFromSlice (n : Nat) (b : Bytes) : Except Exn (ByteArrayN n) :=
  if h : b.length = n then pure ⟨b, h⟩ else throw .panic

/-- `BigEndian::read_u32(&payload[1..])`. -/
def readU32At1 (payload : Bytes) : Except Exn Nat :=
  match payload with
  | _ :: a :: b :: c :: d :: _ => pure (u32OfBytes a b c d)
  | _ => throw .panic

/-- `encode_mpint`: it looks at the first byte that is not zero even when there is none. -/
def encodeMpint (s : Bytes) : Except Exn Bytes :=
  match s.dropWhile (· == 0) with
  | [] => throw .panic
  | b :: r =>
    if b &&& 0x80 ≠ 0 then pure (encodeU32 (r.length + 2) ++ 0 :: b :: r)
    else pure (encodeU32 (r.length + 1) ++ b :: r)

/-- `GexParams::encode`. -/
def GexParams.encode (gex : GexParams) : Bytes :=
  encodeU32 gex.minGroupSize ++ encodeU32 gex.preferredGroupSize ++ encodeU32 gex.maxGroupSize

/-- `GexParams::decode`. -/
def GexParams.decode (r : Bytes) : Except Error GexParams := do
  let (minGroupSize, r) ← (decodeU32 r).mapError Error.sshEncoding
  let (preferredGroupSize, r) ← (decodeU32 r).mapError Error.sshEncoding
  let (maxGroupSize, _) ← (decodeU32 r).mapError Error.sshEncoding
  GexParams.new minGroupSize preferredGroupSize maxGroupSize

/-- The start of every exchange hash: identifications, KEXINITs and host key. -/
def Exchange.hashPrefix (exchange : Exchange) (key : Bytes) : Bytes :=
  encodeBytes exchange.clientId ++ encodeBytes exchange.serverId ++
    encodeBytes exchange.clientKexInit ++ encodeBytes exchange.serverKexInit ++ key

/-- The two ephemeral values, as every exchange hash has them. -/
def Exchange.hashEphemerals (exchange : Exchange) : Bytes :=
  encodeBytes exchange.clientEphemeral ++ encodeBytes exchange.serverEphemeral

section ComputeKeys

/-- The loop of `compute_key`: hashes of everything so far are appended until there are `len`
bytes. A hash is never empty, so `len` rounds are enough. -/
def extendKey (hash : Bytes → Bytes) (sharedSecret exchangeHash : Bytes) (len : Nat) :
    Nat → Bytes → Bytes
  | 0, key => key
  | fuel + 1, key =>
    if key.length < len then
      extendKey hash sharedSecret exchangeHash len fuel
        (key ++ hash (sharedSecret ++ exchangeHash ++ key))
    else key

/-- `compute_key`. -/
def computeKey (hash : Bytes → Bytes) (sharedSecret sessionId exchangeHash : Bytes) (c : UInt8)
    (len : Nat) : Bytes :=
  let key := hash (sharedSecret ++ exchangeHash ++ [c] ++ sessionId)
  (extendKey hash sharedSecret exchangeHash len len key).take len

/-- `Cipher::make_sealing_key`, `Cipher::make_opening_key`. -/
def makeKey (cipher : CipherName) (key nonce macKey : Bytes) (mac : MacName) : CipherKey :=
  match cipher with
  | .clear | .none => .clear
  | _ => .keyed cipher key nonce macKey mac

/-- `kex::compute_keys`. The shared secret is already encoded, empty if there is none. -/
def computeKeys (P : Primitives) (d : Digest) (sharedSecret sessionId exchangeHash : Bytes)
    (cipher : CipherName) (remoteToLocalMac localToRemoteMac : MacName) (isServer : Bool) :
    CipherPair :=
  let computeKey := computeKey (fun b => (P.hash d b).val) sharedSecret sessionId exchangeHash
  -- The letters 'A' to 'F': nonces, keys and MAC keys, each from the client and to it.
  let (localToRemote, remoteToLocal) := if isServer then (68, 67) else (67, 68)
  let (localToRemoteNonce, remoteToLocalNonce) := if isServer then (66, 65) else (65, 66)
  let (localToRemoteMacKey, remoteToLocalMacKey) := if isServer then (70, 69) else (69, 70)
  { localToRemote :=
      makeKey cipher (computeKey localToRemote cipher.keyLen)
        (computeKey localToRemoteNonce cipher.nonceLen)
        (computeKey localToRemoteMacKey localToRemoteMac.keyLen) localToRemoteMac
    remoteToLocal :=
      makeKey cipher (computeKey remoteToLocal cipher.keyLen)
        (computeKey remoteToLocalNonce cipher.nonceLen)
        (computeKey remoteToLocalMacKey remoteToLocalMac.keyLen) remoteToLocalMac }

end ComputeKeys

/-- `curve25519::Curve25519Kex`. -/
structure Curve25519Kex where
  localSecret : Option Scalar
  sharedSecret : Option MontgomeryPoint
  deriving DecidableEq

namespace Curve25519Kex

def serverDh (P : Primitives) (rng : Entropy) (kex : Curve25519Kex) (exchange : Exchange)
    (payload : Bytes) : Except Exn (Curve25519Kex × Exchange) := do
  if payload.head? ≠ some Msg.kexEcdhInit then throw (Exn.error .inconsistent)
  let pubkeyLen ← readU32At1 payload
  if pubkeyLen ≠ 32 then throw (Exn.error .kex)
  if payload.length < 5 + pubkeyLen then throw (Exn.error .inconsistent)
  let pubkey ← copyFromSlice 32 ((payload.drop 5).take 32)
  let serverPubkey := P.x25519Base rng.scalar
  pure ({ kex with sharedSecret := some (P.x25519 rng.scalar pubkey) },
    { exchange with serverEphemeral := serverPubkey.val })

/-- `client_dh`: the new state, the client's ephemeral value and the packet. -/
def clientDh (P : Primitives) (rng : Entropy) (kex : Curve25519Kex) :
    Curve25519Kex × Bytes × Bytes :=
  let clientPubkey := P.x25519Base rng.scalar
  ({ kex with localSecret := some rng.scalar }, clientPubkey.val,
    Msg.kexEcdhInit :: encodeBytes clientPubkey.val)

def computeSharedSecret (P : Primitives) (kex : Curve25519Kex) (remotePubkey : Bytes) :
    Except Exn Curve25519Kex := do
  let some localSecret := kex.localSecret | throw (Exn.error .kexInit)
  let remotePubkey ← copyFromSlice 32 remotePubkey
  pure { localSecret := none, sharedSecret := some (P.x25519 localSecret remotePubkey) }

end Curve25519Kex

/-- `SharedSecret::from_mpint` of a secret that may be missing. -/
def fromMpint : Option Bytes → Except Exn Bytes
  | some b => encodeMpint b
  | none => pure []

/-- `ecdh_nistp::EcdhNistPKex`; the curve fixes the digest. -/
structure EcdhNistPKex where
  curve : Curve
  localSecret : Option Bytes
  sharedSecret : Option Bytes
  deriving DecidableEq

namespace EcdhNistPKex

def digest (kex : EcdhNistPKex) : Digest :=
  match kex.curve with
  | .nistP256 => .sha256
  | .nistP384 => .sha384
  | .nistP521 => .sha512

def serverDh (P : Primitives) (rng : Entropy) (kex : EcdhNistPKex) (exchange : Exchange)
    (payload : Bytes) : Except Exn (EcdhNistPKex × Exchange) := do
  if payload.head? ≠ some Msg.kexEcdhInit then throw (Exn.error .inconsistent)
  let pubkeyLen ← readU32At1 payload
  if payload.length < 5 + pubkeyLen then throw (Exn.error .inconsistent)
  let some clientPubkey := P.fromSec1Bytes kex.curve ((payload.drop 5).take pubkeyLen)
    | throw (Exn.error .inconsistent)
  let serverPubkey := P.ecdhPublicKey kex.curve rng.ephemeralSecret
  pure
    ({ kex with sharedSecret := some (P.diffieHellman kex.curve rng.ephemeralSecret clientPubkey) },
      { exchange with serverEphemeral := serverPubkey })

def clientDh (P : Primitives) (rng : Entropy) (kex : EcdhNistPKex) :
    EcdhNistPKex × Bytes × Bytes :=
  let clientPubkey := P.ecdhPublicKey kex.curve rng.ephemeralSecret
  ({ kex with localSecret := some rng.ephemeralSecret }, clientPubkey,
    Msg.kexEcdhInit :: encodeBytes clientPubkey)

def computeSharedSecret (P : Primitives) (kex : EcdhNistPKex) (remotePubkey : Bytes) :
    Except Exn EcdhNistPKex := do
  let some localSecret := kex.localSecret | throw (Exn.error .kexInit)
  let some pubkey := P.fromSec1Bytes kex.curve remotePubkey | throw (Exn.error .kexInit)
  pure { kex with
    localSecret := none
    sharedSecret := some (P.diffieHellman kex.curve localSecret pubkey) }

end EcdhNistPKex

/-- `dh::DhGroupKex`. -/
structure DhGroupKex where
  digest : Digest
  dh : Option DH
  sharedSecret : Option Bytes
  isDhGex : Bool
  deriving DecidableEq

namespace DhGroupKex

/-- `DhGroupKex::new`, for a fixed group. -/
def ofGroup (digest : Digest) (group : NamedGroup) : DhGroupKex :=
  ⟨digest, some (DH.new group.group group.le_prime), none, false⟩

/-- `DhGroupKex::new`, without a group. -/
def gex (digest : Digest) : DhGroupKex := ⟨digest, none, none, true⟩

/-- The end that `server_dh` and `compute_shared_secret` have in common: both public keys and
the shared secret are strictly between 1 and `p - 1`. -/
def finish (kex : DhGroupKex) (dh : DH) (remotePubkey : Bytes) : Except Exn DhGroupKex := do
  let remotePubkey := natOfBytes remotePubkey
  unless dh.validatePublicKey remotePubkey do throw (Exn.error .inconsistent)
  let shared := dh.computeSharedSecret remotePubkey
  unless dh.validateSharedSecret shared do throw (Exn.error .inconsistent)
  pure { kex with dh := some dh, sharedSecret := some (biguintToMpint shared) }

def serverDh (rng : Entropy) (kex : DhGroupKex) (exchange : Exchange) (payload : Bytes) :
    Except Exn (DhGroupKex × Exchange) := do
  let some dh := kex.dh | throw (Exn.error .inconsistent)
  if payload.head? ≠ some Msg.kexEcdhInit ∧ payload.head? ≠ some Msg.kexDhGexInit then
    throw (Exn.error .inconsistent)
  let pubkeyLen ← readU32At1 payload
  if payload.length < 5 + pubkeyLen then throw (Exn.error .inconsistent)
  let clientPubkey := (payload.drop 5).take pubkeyLen
  let dh ← dh.generatePrivateKey rng.biguint true
  let serverPubkey := dh.generatePublicKey
  unless dh.validatePublicKey serverPubkey do throw (Exn.error .inconsistent)
  let kex ← kex.finish dh clientPubkey
  pure (kex, { exchange with serverEphemeral := biguintToMpint serverPubkey })

def clientDh (rng : Entropy) (kex : DhGroupKex) : Except Exn (DhGroupKex × Bytes × Bytes) := do
  let some dh := kex.dh | throw (Exn.error .inconsistent)
  let dh ← dh.generatePrivateKey rng.biguint false
  let clientPubkey := dh.generatePublicKey
  unless dh.validatePublicKey clientPubkey do throw (Exn.error .inconsistent)
  let encodedPubkey := biguintToMpint clientPubkey
  let msg := if kex.isDhGex then Msg.kexDhGexInit else Msg.kexEcdhInit
  pure ({ kex with dh := some dh }, encodedPubkey, msg :: encodeBytes encodedPubkey)

def computeSharedSecret (kex : DhGroupKex) (remotePubkey : Bytes) : Except Exn DhGroupKex := do
  let some dh := kex.dh | throw (Exn.error .inconsistent)
  kex.finish dh remotePubkey

end DhGroupKex

/-- `hybrid_mlkem::MlKem768X25519Kex`. -/
structure MlKem768X25519Kex where
  mlKemSecret : Option MlKem768PrivateKey
  x25519Secret : Option Scalar
  kPq : Option (ByteArrayN 32)
  kCl : Option MontgomeryPoint
  deriving DecidableEq

namespace MlKem768X25519Kex

def publicKeySize : Nat := 1184
def ciphertextSize : Nat := 1088

def serverDh (P : Primitives) (rng : Entropy) (kex : MlKem768X25519Kex) (exchange : Exchange)
    (payload : Bytes) : Except Exn (MlKem768X25519Kex × Exchange) := do
  if payload.head? ≠ some Msg.kexHybridInit then throw (Exn.error .inconsistent)
  let cInitLen ← readU32At1 payload
  if payload.length < 5 + cInitLen then throw (Exn.error .inconsistent)
  if cInitLen ≠ publicKeySize + 32 then throw (Exn.error .kex)
  let cInit := (payload.drop 5).take cInitLen
  let cPk2 ← copyFromSlice 1184 (cInit.take publicKeySize)
  let cPk1 ← copyFromSlice 32 (cInit.drop publicKeySize)
  let (sCt2, kPq) := P.mlKemEncapsulate cPk2 rng.mlKemRandomness
  let sPk1 := P.x25519Base rng.scalar
  pure ({ kex with kPq := some kPq, kCl := some (P.x25519 rng.scalar cPk1) },
    { exchange with serverEphemeral := sCt2.val ++ sPk1.val })

def clientDh (P : Primitives) (rng : Entropy) (kex : MlKem768X25519Kex) :
    MlKem768X25519Kex × Bytes × Bytes :=
  let (mlKemSk, mlKemPk) := P.mlKemGenerateKeyPair rng.mlKemSeed
  let cInit := mlKemPk.val ++ (P.x25519Base rng.scalar).val
  ({ kex with mlKemSecret := some mlKemSk, x25519Secret := some rng.scalar }, cInit,
    Msg.kexHybridInit :: encodeBytes cInit)

def computeSharedSecret (P : Primitives) (kex : MlKem768X25519Kex) (remotePubkey : Bytes) :
    Except Exn MlKem768X25519Kex := do
  if remotePubkey.length ≠ ciphertextSize + 32 then throw (Exn.error .kex)
  let sCt2 ← copyFromSlice 1088 (remotePubkey.take ciphertextSize)
  let some mlKemSecret := kex.mlKemSecret | throw (Exn.error .kexInit)
  let sPk1 ← copyFromSlice 32 (remotePubkey.drop ciphertextSize)
  let some x25519Secret := kex.x25519Secret | throw (Exn.error .kexInit)
  pure
    { mlKemSecret := none
      x25519Secret := none
      kPq := some (P.mlKemDecapsulate mlKemSecret sCt2)
      kCl := some (P.x25519 x25519Secret sPk1) }

/-- The hash of both secrets. -/
def combined (P : Primitives) (kex : MlKem768X25519Kex) : Except Exn Bytes := do
  let some kPq := kex.kPq | throw (Exn.error .kexInit)
  let some kCl := kex.kCl | throw (Exn.error .kexInit)
  pure (P.hash .sha256 (kPq.val ++ kCl.val)).val

end MlKem768X25519Kex

/-- `KexAlgorithm`. -/
inductive KexAlgorithm where
  | dhGroupKex (kex : DhGroupKex)
  | curve25519Kex (kex : Curve25519Kex)
  | ecdhNistPKex (kex : EcdhNistPKex)
  | mlKem768X25519Kex (kex : MlKem768X25519Kex)
  | none
  deriving DecidableEq

namespace KexAlgorithm

/-- `KEXES.get(name)` and `KexType::make`. -/
def make : KexName → Option KexAlgorithm
  | .curve25519 | .curve25519PreRfc8731 => some (curve25519Kex ⟨Option.none, Option.none⟩)
  | .mlKem768X25519Sha256 =>
    some (mlKem768X25519Kex ⟨Option.none, Option.none, Option.none, Option.none⟩)
  | .dhGexSha1 => some (dhGroupKex (.gex .sha1))
  | .dhGexSha256 => some (dhGroupKex (.gex .sha256))
  | .dhG1Sha1 => some (dhGroupKex (.ofGroup .sha1 .group1))
  | .dhG14Sha1 => some (dhGroupKex (.ofGroup .sha1 .group14))
  | .dhG14Sha256 => some (dhGroupKex (.ofGroup .sha256 .group14))
  | .dhG15Sha512 => some (dhGroupKex (.ofGroup .sha512 .group15))
  | .dhG16Sha512 => some (dhGroupKex (.ofGroup .sha512 .group16))
  | .dhG17Sha512 => some (dhGroupKex (.ofGroup .sha512 .group17))
  | .dhG18Sha512 => some (dhGroupKex (.ofGroup .sha512 .group18))
  | .ecdhSha2NistP256 => some (ecdhNistPKex ⟨.nistP256, Option.none, Option.none⟩)
  | .ecdhSha2NistP384 => some (ecdhNistPKex ⟨.nistP384, Option.none, Option.none⟩)
  | .ecdhSha2NistP521 => some (ecdhNistPKex ⟨.nistP521, Option.none, Option.none⟩)
  | .none => some none
  | _ => Option.none

/-- `skip_exchange`. -/
def skipExchange : KexAlgorithm → Bool
  | none => true
  | _ => false

theorem make_skipExchange {name : KexName} {kex : KexAlgorithm} (h : make name = some kex)
    (hs : kex.skipExchange = true) : name = .none := by
  cases name <;> simp_all [make] <;> subst h <;> simp [skipExchange] at hs

/-- `is_dh_gex`. -/
def isDhGex : KexAlgorithm → Bool
  | dhGroupKex kex => kex.isDhGex
  | _ => false

/-- `client_dh_gex_init`: the packet. -/
def clientDhGexInit (gex : GexParams) : KexAlgorithm → Except Exn Bytes
  | dhGroupKex _ => pure (Msg.kexDhGexRequest :: gex.encode)
  | _ => throw (Exn.error .kexInit)

/-- `dh_gex_set_group`. -/
def dhGexSetGroup (group : DhGroup) (h : 7 ≤ group.prime) :
    KexAlgorithm → Except Exn KexAlgorithm
  | dhGroupKex kex => pure (dhGroupKex { kex with dh := some (DH.new group h) })
  | _ => throw (Exn.error .kexInit)

/-- `server_dh`. -/
def serverDh (P : Primitives) (rng : Entropy) (exchange : Exchange) (payload : Bytes) :
    KexAlgorithm → Except Exn (KexAlgorithm × Exchange)
  | dhGroupKex kex => do
    let (kex, exchange) ← kex.serverDh rng exchange payload
    pure (dhGroupKex kex, exchange)
  | curve25519Kex kex => do
    let (kex, exchange) ← kex.serverDh P rng exchange payload
    pure (curve25519Kex kex, exchange)
  | ecdhNistPKex kex => do
    let (kex, exchange) ← kex.serverDh P rng exchange payload
    pure (ecdhNistPKex kex, exchange)
  | mlKem768X25519Kex kex => do
    let (kex, exchange) ← kex.serverDh P rng exchange payload
    pure (mlKem768X25519Kex kex, exchange)
  | none => pure (none, exchange)

/-- `client_dh`: the new state, the client's ephemeral value and the packet. -/
def clientDh (P : Primitives) (rng : Entropy) (clientEphemeral : Bytes) :
    KexAlgorithm → Except Exn (KexAlgorithm × Bytes × Bytes)
  | dhGroupKex kex => do
    let (kex, clientEphemeral, payload) ← kex.clientDh rng
    pure (dhGroupKex kex, clientEphemeral, payload)
  | curve25519Kex kex =>
    let (kex, clientEphemeral, payload) := kex.clientDh P rng
    pure (curve25519Kex kex, clientEphemeral, payload)
  | ecdhNistPKex kex =>
    let (kex, clientEphemeral, payload) := kex.clientDh P rng
    pure (ecdhNistPKex kex, clientEphemeral, payload)
  | mlKem768X25519Kex kex =>
    let (kex, clientEphemeral, payload) := kex.clientDh P rng
    pure (mlKem768X25519Kex kex, clientEphemeral, payload)
  | none => pure (none, clientEphemeral, [])

/-- `compute_shared_secret`. -/
def computeSharedSecret (P : Primitives) (remotePubkey : Bytes) :
    KexAlgorithm → Except Exn KexAlgorithm
  | dhGroupKex kex => do pure (dhGroupKex (← kex.computeSharedSecret remotePubkey))
  | curve25519Kex kex => do pure (curve25519Kex (← kex.computeSharedSecret P remotePubkey))
  | ecdhNistPKex kex => do pure (ecdhNistPKex (← kex.computeSharedSecret P remotePubkey))
  | mlKem768X25519Kex kex => do
    pure (mlKem768X25519Kex (← kex.computeSharedSecret P remotePubkey))
  | none => pure none

/-- `shared_secret_bytes`. -/
def sharedSecretBytes : KexAlgorithm → Option Bytes
  | dhGroupKex kex => kex.sharedSecret
  | curve25519Kex kex => kex.sharedSecret.map (·.val)
  | ecdhNistPKex kex => kex.sharedSecret
  | mlKem768X25519Kex kex => kex.kCl.map (·.val)
  | none => Option.none

/-- `compute_exchange_hash`; `key` is the encoded host key. -/
def computeExchangeHash (P : Primitives) (key : Bytes) (exchange : Exchange) :
    KexAlgorithm → Except Exn Bytes
  | dhGroupKex kex =>
    let gex : Bytes :=
      match exchange.gex with
      | some (gexParams, dhGroup) =>
        gexParams.encode ++ encodeBytes (biguintToMpint dhGroup.prime) ++
          encodeBytes (biguintToMpint dhGroup.generator)
      | Option.none => []
    let shared : Bytes := (kex.sharedSecret.map encodeBytes).getD []
    pure (P.hash kex.digest
      (exchange.hashPrefix key ++ gex ++ exchange.hashEphemerals ++ shared)).val
  | curve25519Kex kex => do
    let shared ← fromMpint (kex.sharedSecret.map (·.val))
    pure (P.hash .sha256 (exchange.hashPrefix key ++ exchange.hashEphemerals ++ shared)).val
  | ecdhNistPKex kex => do
    let shared ← fromMpint kex.sharedSecret
    pure (P.hash kex.digest (exchange.hashPrefix key ++ exchange.hashEphemerals ++ shared)).val
  | mlKem768X25519Kex kex => do
    let k ← kex.combined P
    pure (P.hash .sha256
      (exchange.hashPrefix key ++ exchange.hashEphemerals ++ encodeBytes k)).val
  | none => pure []

/-- `compute_keys`. -/
def computeKeys (P : Primitives) (sessionId exchangeHash : Bytes) (cipher : CipherName)
    (remoteToLocalMac localToRemoteMac : MacName) (isServer : Bool) :
    KexAlgorithm → Except Exn CipherPair
  | dhGroupKex kex => do
    let shared ← fromMpint kex.sharedSecret
    pure (Russh.computeKeys P kex.digest shared sessionId exchangeHash cipher remoteToLocalMac
      localToRemoteMac isServer)
  | curve25519Kex kex => do
    let shared ← fromMpint (kex.sharedSecret.map (·.val))
    pure (Russh.computeKeys P .sha256 shared sessionId exchangeHash cipher remoteToLocalMac
      localToRemoteMac isServer)
  | ecdhNistPKex kex => do
    let shared ← fromMpint kex.sharedSecret
    pure (Russh.computeKeys P kex.digest shared sessionId exchangeHash cipher remoteToLocalMac
      localToRemoteMac isServer)
  | mlKem768X25519Kex kex => do
    let k ← kex.combined P
    pure (Russh.computeKeys P .sha256 (encodeBytes k) sessionId exchangeHash cipher
      remoteToLocalMac localToRemoteMac isServer)
  | none =>
    pure (Russh.computeKeys P .sha256 [] sessionId exchangeHash cipher remoteToLocalMac
      localToRemoteMac isServer)

end KexAlgorithm

end Edgessh.Russh
