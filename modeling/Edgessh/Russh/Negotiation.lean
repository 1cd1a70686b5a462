import Edgessh.Russh.PacketWriter

/-!
# Negotiation

`negotiation.rs`: the KEXINIT packet that each side writes, and the choice of algorithms from the
one it reads.
-/

namespace Edgessh.Russh
open Edgessh.Command

/-- `kex::KexCause`. -/
inductive KexCause where
  | initial
  | rekey (strict : Bool) (sessionId : Bytes)
  deriving DecidableEq, Repr

namespace KexCause

/-- `is_strict_rekey`. -/
def isStrictRekey : KexCause → Bool
  | rekey strict _ => strict
  | initial => false

/-- `is_rekey`. -/
def isRekey : KexCause → Bool
  | rekey _ _ => true
  | initial => false

/-- `session_id`. -/
def sessionId : KexCause → Option Bytes
  | rekey _ sessionId => some sessionId
  | initial => none

end KexCause

structure Preferred where
  kex : List KexName
  key : List Algorithm
  cipher : List CipherName
  mac : List MacName
  compression : List CompressionName
  deriving DecidableEq, Repr

/-- `is_key_compatible_with_algo`. -/
def isKeyCompatibleWithAlgo (key : PrivateKey) (algo : Algorithm) : Bool :=
  match algo with
  | .rsa _ => key.algorithm.isRsa
  | a => key.algorithm == a

/-- `possible_host_key_algos_for_keys`. -/
def Preferred.possibleHostKeyAlgosForKeys (pref : Preferred) (keys : List PrivateKey) :
    List Algorithm :=
  pref.key.filter fun n => keys.any fun k => isKeyCompatibleWithAlgo k n

/-- `SAFE_KEX_ORDER`. -/
def safeKexOrder : List KexName :=
  [.mlKem768X25519Sha256, .curve25519, .curve25519PreRfc8731, .dhGexSha256, .dhG18Sha512,
    .dhG17Sha512, .dhG16Sha512, .dhG15Sha512, .dhG14Sha256, .extensionSupportAsClient,
    .extensionSupportAsServer, .extensionOpensshStrictKexAsClient,
    .extensionOpensshStrictKexAsServer]

/-- `Preferred::DEFAULT`. -/
def Preferred.default : Preferred where
  kex := safeKexOrder
  key := [.ed25519, .ecdsa .nistP256, .ecdsa .nistP384, .ecdsa .nistP521, .rsa (some .sha512),
    .rsa (some .sha256), .rsa none]
  cipher := [.chacha20Poly1305, .aes256Gcm, .aes256Ctr, .aes192Ctr, .aes128Ctr]
  mac := [.hmacSha512Etm, .hmacSha256Etm, .hmacSha512, .hmacSha256, .hmacSha1Etm, .hmacSha1]
  compression := [.none, .zlib, .zlibLegacy]

/-- The two implementations of `Select`. -/
inductive Role where
  | client
  | server
  deriving DecidableEq, Repr

section Select

variable {S : Type}

/-- The first pair that matches, and whether it is the very first pair. -/
def firstMatch (isMatch : S × Bytes → Bool) : Bool → List (S × Bytes) → Option (Bool × S)
  | _, [] => none
  | first, p :: ps => if isMatch p then some (first, p.1) else firstMatch isMatch false ps

/-- `Select::select`: the client's list is the outer loop on both sides. -/
def select (role : Role) (name : S → Bytes) (ours : List S) (theirs : List Bytes)
    (kind : AlgorithmKind) : Except Error (Bool × S) :=
  let pairs :=
    match role with
    | .client => ours.flatMap fun c => theirs.map fun s => (c, s)
    | .server => theirs.flatMap fun c => ours.map fun s => (s, c)
  match firstMatch (fun p => name p.1 == p.2) true pairs with
  | some r => .ok r
  | none => .error (.noCommonAlgo kind (ours.map name) theirs)

theorem firstMatch_mem {isMatch : S × Bytes → Bool} {b first : Bool} {s : S}
    {pairs : List (S × Bytes)} (h : firstMatch isMatch b pairs = some (first, s)) :
    ∃ n, (s, n) ∈ pairs ∧ isMatch (s, n) = true := by
  induction pairs generalizing b with
  | nil => cases h
  | cons p pairs ih =>
    rw [firstMatch] at h
    split at h
    · rename_i hp
      cases h
      exact ⟨p.2, List.mem_cons_self, hp⟩
    · obtain ⟨n, hmem, hn⟩ := ih h
      exact ⟨n, List.mem_cons_of_mem _ hmem, hn⟩

/-- What is chosen is one of ours, and one of theirs by its name. -/
theorem select_mem {role : Role} {name : S → Bytes} {ours : List S} {theirs : List Bytes}
    {kind : AlgorithmKind} {first : Bool} {s : S}
    (h : select role name ours theirs kind = .ok (first, s)) : s ∈ ours ∧ name s ∈ theirs := by
  unfold select at h
  dsimp only at h
  split at h
  · rename_i r hm
    cases h
    obtain ⟨n, hmem, hn⟩ := firstMatch_mem hm
    cases role <;> simp_all
  · cases h

end Select

/-- `kex::Name::try_from`. -/
def KexName.tryFrom (s : Bytes) : Option KexName := allKexAlgorithms.find? (·.name == s)

/-- The MAC of one direction; a cipher with a MAC of its own does without one. -/
def selectMac (role : Role) (pref : Preferred) (needMac : Bool) (theirs : List Bytes) :
    Except Error MacName :=
  match select role MacName.name pref.mac theirs .mac with
  | .ok (_, m) => .ok m
  | .error e => if needMac then .error e else .ok .none

/-- `Select::read_kex`. -/
def readKex (role : Role) (buffer : Bytes) (pref : Preferred)
    (availableHostKeys : Option (List PrivateKey)) (cause : KexCause) : Except Error Names := do
  if buffer.length < 17 then throw .inconsistent
  let r := buffer.drop 17
  let (kexString, r) ← decodeWith decodeString r
  let localKexesNoExt := pref.kex.filter fun k => !kexExtensionNames.contains k
  let remoteKexesNoExt := (splitNames kexString).filter fun k =>
    match KexName.tryFrom k with
    | some k => !kexExtensionNames.contains k
    | none => false
  let (kexBothFirst, kexAlgorithm) ←
    select role KexName.name localKexesNoExt remoteKexesNoExt .kex
  let strictKexRequested := pref.kex.contains
    (match role with
    | .server => .extensionOpensshStrictKexAsServer
    | .client => .extensionOpensshStrictKexAsClient)
  let strictKexProvided :=
    (select role KexName.name
      [match role with
      | .server => .extensionOpensshStrictKexAsClient
      | .client => .extensionOpensshStrictKexAsServer]
      (splitNames kexString) .kex).isOk
  let (keyString, r) ← decodeWith decodeString r
  let possibleHostKeyAlgos :=
    match availableHostKeys with
    | some keys => pref.possibleHostKeyAlgosForKeys keys
    | none => pref.key
  let (keyBothFirst, keyAlgorithm) ←
    select role Algorithm.name possibleHostKeyAlgos (splitNames keyString) .key
  let (cipherString, r) ← decodeWith decodeString r
  let (_, cipher) ←
    select role CipherName.name pref.cipher (splitNames cipherString) .cipher
  let (_, r) ← decodeWith decodeString r
  let needMac := cipher.needsMac
  let (clientMacString, r) ← decodeWith decodeString r
  let clientMac ← selectMac role pref needMac (splitNames clientMacString)
  let (serverMacString, r) ← decodeWith decodeString r
  let serverMac ← selectMac role pref needMac (splitNames serverMacString)
  let (clientCompressionString, r) ← decodeWith decodeString r
  let (_, clientCompression) ← select role CompressionName.name pref.compression
    (splitNames clientCompressionString) .compression
  let (serverCompressionString, r) ← decodeWith decodeString r
  let (_, serverCompression) ← select role CompressionName.name pref.compression
    (splitNames serverCompressionString) .compression
  let (_, r) ← decodeWith decodeString r
  let (_, r) ← decodeWith decodeString r
  let (follows, _) ← decodeWith decodeU8 r
  pure
    { kex := kexAlgorithm
      key := keyAlgorithm
      cipher
      clientMac
      serverMac
      clientCompression := Compression.new clientCompression
      serverCompression := Compression.new serverCompression
      ignoreGuessed := follows != 0 && !(kexBothFirst && keyBothFirst)
      strictKex := (strictKexRequested && strictKexProvided) || cause.isStrictRekey }

/-- The algorithm of the exchange is one that we have offered. -/
theorem readKex_kex_mem {role : Role} {buffer : Bytes} {pref : Preferred}
    {availableHostKeys : Option (List PrivateKey)} {cause : KexCause} {names : Names}
    (h : readKex role buffer pref availableHostKeys cause = .ok names) : names.kex ∈ pref.kex := by
  unfold readKex at h
  by_cases hlen : buffer.length < 17
  · rw [if_pos hlen] at h
    cases h
  rw [if_neg hlen] at h
  obtain ⟨⟨kexString, r⟩, -, h₁⟩ := bind_eq_ok.mp h
  obtain ⟨⟨first, kexAlgorithm⟩, hkex, h₂⟩ := bind_eq_ok.mp h₁
  obtain ⟨_, -, h₃⟩ := bind_eq_ok.mp h₂
  obtain ⟨_, -, h₄⟩ := bind_eq_ok.mp h₃
  obtain ⟨_, -, h₅⟩ := bind_eq_ok.mp h₄
  obtain ⟨_, -, h₆⟩ := bind_eq_ok.mp h₅
  obtain ⟨_, -, h₇⟩ := bind_eq_ok.mp h₆
  obtain ⟨_, -, h₈⟩ := bind_eq_ok.mp h₇
  obtain ⟨_, -, h₉⟩ := bind_eq_ok.mp h₈
  obtain ⟨_, -, h₁₀⟩ := bind_eq_ok.mp h₉
  obtain ⟨_, -, h₁₁⟩ := bind_eq_ok.mp h₁₀
  obtain ⟨_, -, h₁₂⟩ := bind_eq_ok.mp h₁₁
  obtain ⟨_, -, h₁₃⟩ := bind_eq_ok.mp h₁₂
  obtain ⟨_, -, h₁₄⟩ := bind_eq_ok.mp h₁₃
  obtain ⟨_, -, h₁₅⟩ := bind_eq_ok.mp h₁₄
  obtain ⟨_, -, h₁₆⟩ := bind_eq_ok.mp h₁₅
  obtain ⟨_, -, h₁₇⟩ := bind_eq_ok.mp h₁₆
  obtain ⟨_, -, h⟩ := bind_eq_ok.mp h₁₇
  obtain rfl := pure_eq_ok.mp h
  exact (List.mem_filter.mp (select_mem hkex).1).1

/-- The methods of key exchange that a KEXINIT names; `serverKeys` are the host keys of a
server. -/
def Preferred.sentKex (pref : Preferred) (serverKeys : Option (List PrivateKey)) :
    List KexName :=
  let otherSide : List KexName :=
    match serverKeys with
    | some _ => [.extensionSupportAsClient, .extensionOpensshStrictKexAsClient]
    | none => [.extensionSupportAsServer, .extensionOpensshStrictKexAsServer]
  pref.kex.filter fun k => !otherSide.contains k

/-- The packet of `write_kex`. -/
def kexInitPayload (prefs : Preferred) (serverKeys : Option (List PrivateKey))
    (cookie : ByteArrayN 16) : Bytes :=
  let key :=
    match serverKeys with
    | some keys => prefs.possibleHostKeyAlgosForKeys keys
    | none => prefs.key
  let cipher := encodeNameList (prefs.cipher.map CipherName.name)
  let mac := encodeNameList (prefs.mac.map MacName.name)
  let compression := encodeNameList (prefs.compression.map CompressionName.name)
  Msg.kexInit :: cookie.val ++
    encodeNameList ((prefs.sentKex serverKeys).map KexName.name) ++
    encodeNameList (key.map Algorithm.name) ++ cipher ++ cipher ++ mac ++ mac ++
    compression ++ compression ++ encodeU32 0 ++ encodeU32 0 ++ [0] ++ encodeU32 0

/-- `write_kex`: the writer and the packet. -/
def writeKex (P : Primitives) (rng : Entropy) (prefs : Preferred)
    (serverKeys : Option (List PrivateKey)) (writer : PacketWriter) :
    Except Exn (PacketWriter × Bytes) := do
  let payload := kexInitPayload prefs serverKeys rng.cookie
  let writer ← writer.packetRaw P (.kexInit payload)
  pure (writer, payload)

end Edgessh.Russh
