import Edgessh.Russh.Kex.Gex
import Edgessh.Russh.Kex.Mpint

/-!
# The shared secret

What the primitives promise to two ends that use them with each other, and what follows for the
key exchange algorithms: from the value of a client, a server computes a secret, and the client
computes the same one from the value of that server. Secrets that only one end has had are of no
account for the exchange hash and for the keys.
-/

namespace Edgessh.Russh
open Edgessh.Command

/-- Both ends of an exchange come to one secret. A point of the largest curve takes 133 bytes. -/
structure Primitives.Agree (P : Primitives) : Prop where
  x25519 (a b : Scalar) : P.x25519 a (P.x25519Base b) = P.x25519 b (P.x25519Base a)
  fromSec1Bytes (c : Curve) (a b : Bytes) : ∃ p q,
    P.fromSec1Bytes c (P.ecdhPublicKey c a) = some p ∧
      P.fromSec1Bytes c (P.ecdhPublicKey c b) = some q ∧
      P.diffieHellman c a q = P.diffieHellman c b p
  ecdhPublicKey_length (c : Curve) (a : Bytes) : (P.ecdhPublicKey c a).length ≤ 133
  mlKemDecapsulate (seed : ByteArrayN 64) (r : ByteArrayN 32) :
    P.mlKemDecapsulate (P.mlKemGenerateKeyPair seed).1
        (P.mlKemEncapsulate (P.mlKemGenerateKeyPair seed).2 r).1 =
      (P.mlKemEncapsulate (P.mlKemGenerateKeyPair seed).2 r).2

section Numbers

theorem natOfBytes_bytesOfNat (n : Nat) : natOfBytes (bytesOfNat n) = n := by
  unfold bytesOfNat
  by_cases hn : n = 0
  · rw [if_pos hn, hn]
    rfl
  · have hdigits : (Nat.digits 256 n).map (fun d => (UInt8.ofNat d).toNat) = Nat.digits 256 n := by
      refine (List.map_congr_left ?_).trans (List.map_id _)
      intro d hd
      exact UInt8.toNat_ofNat_of_lt' (Nat.digits_lt_base (by decide) hd)
    rw [if_neg hn, natOfBytes_eq_ofDigits, ← List.map_reverse, List.reverse_reverse, List.map_map]
    show Nat.ofDigits 256 ((Nat.digits 256 n).map fun d => (UInt8.ofNat d).toNat) = n
    rw [hdigits, Nat.ofDigits_digits]

@[simp] theorem natOfBytes_biguintToMpint (n : Nat) : natOfBytes (biguintToMpint n) = n := by
  have hvalue := natOfBytes_bytesOfNat n
  unfold biguintToMpint
  cases hb : bytesOfNat n with
  | nil => rwa [hb] at hvalue
  | cons b r =>
    rw [hb] at hvalue
    dsimp only
    split
    · rw [natOfBytes_cons 0]
      simpa using hvalue
    · exact hvalue

/-- A number up to `256 ^ k` takes at most `k + 1` bytes. -/
theorem biguintToMpint_length_le {n k : Nat} (hn : n ≠ 0) (h : n ≤ 256 ^ k) :
    (biguintToMpint n).length ≤ k + 1 := by
  have hlen := biguintToMpint_length (s := bytesOfNat n) (by rwa [natOfBytes_bytesOfNat])
  rw [natOfBytes_bytesOfNat] at hlen
  have hsize : Nat.size n ≤ 8 * k + 1 := by
    rw [Nat.size_le, pow_succ, pow_mul]
    have hpos : 0 < (2 ^ 8) ^ k := Nat.pow_pos (by decide)
    have hle : n ≤ (2 ^ 8) ^ k := h
    omega
  rw [hlen]
  omega

/-- What `biguint_to_mpint` writes is read back. -/
theorem decodeMpint_encodeBytes {n : Nat} (hn : n ≠ 0) (hlen : (biguintToMpint n).length ≤ maxSize)
    (r : Bytes) :
    decodeMpint (encodeBytes (biguintToMpint n) ++ r) = .ok (biguintToMpint n, r) := by
  have hmpint := isMpint_biguintToMpint (s := bytesOfNat n) (by rwa [natOfBytes_bytesOfNat])
  rw [natOfBytes_bytesOfNat] at hmpint
  unfold decodeMpint
  rw [decodeBytes_encodeBytes hlen]
  show Except.bind (.ok (biguintToMpint n, r)) _ = _
  unfold Except.bind
  dsimp only
  split
  case h_1 hb =>
    rw [hb] at hmpint
    obtain ⟨c, hc, -⟩ := hmpint.minimal rfl
    cases hc
  case h_2 c r' hb =>
    rw [hb] at hmpint
    obtain ⟨c', hc, htop⟩ := hmpint.minimal rfl
    obtain rfl : c = c' := Option.some.inj hc
    rw [if_neg (UInt8.not_lt.mpr htop)]
    rfl
  case h_3 => rfl

end Numbers

namespace KexAlgorithm

/-- The algorithm without the secrets of one end alone. -/
def forget : KexAlgorithm → KexAlgorithm
  | dhGroupKex kex => dhGroupKex { kex with dh := Option.none }
  | curve25519Kex kex => curve25519Kex { kex with localSecret := Option.none }
  | ecdhNistPKex kex => ecdhNistPKex { kex with localSecret := Option.none }
  | mlKem768X25519Kex kex =>
    mlKem768X25519Kex { kex with mlKemSecret := Option.none, x25519Secret := Option.none }
  | none => none

variable {P : Primitives} {a b : KexAlgorithm}

theorem computeExchangeHash_forget (a : KexAlgorithm) (key : Bytes) (exchange : Exchange) :
    a.forget.computeExchangeHash P key exchange = a.computeExchangeHash P key exchange := by
  cases a <;> rfl

theorem computeKeys_forget (a : KexAlgorithm) (sessionId hash : Bytes) (cipher : CipherName)
    (remoteToLocalMac localToRemoteMac : MacName) (isServer : Bool) :
    a.forget.computeKeys P sessionId hash cipher remoteToLocalMac localToRemoteMac isServer =
      a.computeKeys P sessionId hash cipher remoteToLocalMac localToRemoteMac isServer := by
  cases a <;> rfl

theorem sharedSecretBytes_forget (a : KexAlgorithm) :
    a.forget.sharedSecretBytes = a.sharedSecretBytes := by
  cases a <;> rfl

theorem isDhGex_forget (a : KexAlgorithm) : a.forget.isDhGex = a.isDhGex := by
  cases a <;> rfl

/-- Ends with one secret compute one exchange hash. -/
theorem computeExchangeHash_congr (h : a.forget = b.forget) (key : Bytes) (exchange : Exchange) :
    a.computeExchangeHash P key exchange = b.computeExchangeHash P key exchange := by
  rw [← computeExchangeHash_forget, h, computeExchangeHash_forget]

/-- What one end sends with, the other receives with. -/
theorem computeKeys_dual (h : a.forget = b.forget) (sessionId hash : Bytes) (cipher : CipherName)
    (clientMac serverMac : MacName) :
    a.computeKeys P sessionId hash cipher serverMac clientMac false =
      (b.computeKeys P sessionId hash cipher clientMac serverMac true).map fun pair =>
        ⟨pair.remoteToLocal, pair.localToRemote⟩ := by
  rw [← computeKeys_forget, h, computeKeys_forget]
  cases b with
  | dhGroupKex kex =>
    show (fromMpint kex.sharedSecret >>= _) = Except.map _ (fromMpint kex.sharedSecret >>= _)
    cases fromMpint kex.sharedSecret <;> rfl
  | curve25519Kex kex =>
    show (fromMpint (kex.sharedSecret.map (·.val)) >>= _) =
      Except.map _ (fromMpint (kex.sharedSecret.map (·.val)) >>= _)
    cases fromMpint (kex.sharedSecret.map (·.val)) <;> rfl
  | ecdhNistPKex kex =>
    show (fromMpint kex.sharedSecret >>= _) = Except.map _ (fromMpint kex.sharedSecret >>= _)
    cases fromMpint kex.sharedSecret <;> rfl
  | mlKem768X25519Kex kex =>
    show (kex.combined P >>= _) = Except.map _ (kex.combined P >>= _)
    cases kex.combined P <;> rfl
  | none => rfl

end KexAlgorithm

/-- The client and the server of one exchange hold the same keys, each the other way round. -/
theorem newKeys_dual {P : Primitives} {a b : KexAlgorithm} (h : a.forget = b.forget) (hash : Bytes)
    (names : Names) (exchange : Exchange) (sessionId : Option Bytes) :
    newKeys P .client hash a names exchange sessionId =
      (newKeys P .server hash b names exchange sessionId).map fun newkeys =>
        { newkeys with
          kex := a
          cipher := ⟨newkeys.cipher.remoteToLocal, newkeys.cipher.localToRemote⟩ } := by
  have hkeys := KexAlgorithm.computeKeys_dual (P := P) h (sessionId.getD hash) hash names.cipher
    names.clientMac names.serverMac
  show (a.computeKeys P (sessionId.getD hash) hash names.cipher names.serverMac names.clientMac
    false >>= _) = Except.map _ (b.computeKeys P (sessionId.getD hash) hash names.cipher
      names.clientMac names.serverMac true >>= _)
  rw [hkeys]
  cases b.computeKeys P (sessionId.getD hash) hash names.cipher names.clientMac names.serverMac
    true <;> rfl

namespace DH

/-- The group with a private key that has been drawn. -/
def draw (dh : DH) (x : Nat) : DH := { dh with privateKey := x }

/-- Both powers of the other end's power of the generator are one number. -/
theorem computeSharedSecret_comm (dh : DH) (x y : Nat) :
    (dh.draw x).computeSharedSecret (dh.draw y).generatePublicKey =
      (dh.draw y).computeSharedSecret (dh.draw x).generatePublicKey := by
  show (dh.generator ^ y % dh.primeNum) ^ x % dh.primeNum =
    (dh.generator ^ x % dh.primeNum) ^ y % dh.primeNum
  calc (dh.generator ^ y % dh.primeNum) ^ x % dh.primeNum
      = (dh.generator ^ y) ^ x % dh.primeNum := (Nat.pow_mod _ _ _).symm
    _ = (dh.generator ^ x) ^ y % dh.primeNum := by rw [← pow_mul, ← pow_mul, Nat.mul_comm]
    _ = (dh.generator ^ x % dh.primeNum) ^ y % dh.primeNum := Nat.pow_mod _ _ _

end DH

section Exchange

variable {P : Primitives} {rng : Entropy} {exchange exchange' : Exchange}
  {e e₀ payload : Bytes}

/-- The client's packet, as `server_dh` takes it apart. -/
structure Carries (payload : Bytes) (t : UInt8) (e : Bytes) : Prop where
  head : payload.head? = some t
  len : readU32At1 payload = .ok e.length
  le : ¬payload.length < 5 + e.length
  value : (payload.drop 5).take e.length = e

theorem carries_encodeBytes (t : UInt8) (he : e.length ≤ maxSize) :
    Carries (t :: encodeBytes e) t e := by
  have hdecode := decodeBytes_encodeBytes he []
  rw [List.append_nil] at hdecode
  have hpayload : decodeBytes ((t :: encodeBytes e).drop 1) = .ok (e, []) := hdecode
  obtain ⟨hread, hle, htake⟩ := readU32At1_of_decodeBytes hpayload
  exact ⟨rfl, hread, hle, htake⟩

theorem copyFromSlice_val {n : Nat} (b : ByteArrayN n) : copyFromSlice n b.val = .ok b :=
  copyFromSlice_eq_ok b.property

namespace Curve25519Kex

/-- The server takes the client's point. -/
theorem serverDh_carries (kex : Curve25519Kex) {pubkey : MontgomeryPoint}
    (h : Carries payload Msg.kexEcdhInit pubkey.val) :
    kex.serverDh P rng exchange payload =
      .ok ({ kex with sharedSecret := some (P.x25519 rng.scalar pubkey) },
        { exchange with serverEphemeral := (P.x25519Base rng.scalar).val }) := by
  obtain ⟨hhead, hread, hle, htake⟩ := h
  have hlen : pubkey.val.length = 32 := pubkey.property
  rw [hlen] at hread hle htake
  simp only [serverDh, hhead, hread, htake, copyFromSlice_val, if_neg hle, ne_eq,
    not_true_eq_false, if_false, bind, Except.bind, pure, Except.pure]

/-- The client takes the server's. -/
theorem computeSharedSecret_point (kex : Curve25519Kex) (s : Scalar) (pubkey : MontgomeryPoint) :
    Curve25519Kex.computeSharedSecret P { kex with localSecret := some s } pubkey.val =
      .ok ⟨none, some (P.x25519 s pubkey)⟩ := by
  simp only [computeSharedSecret, copyFromSlice_val, bind, Except.bind, pure, Except.pure]

end Curve25519Kex

namespace EcdhNistPKex

theorem serverDh_carries (kex : EcdhNistPKex) (h : Carries payload Msg.kexEcdhInit e) :
    kex.serverDh P rng exchange payload =
      match P.fromSec1Bytes kex.curve e with
      | some pubkey => .ok
          ({ kex with
              sharedSecret := some (P.diffieHellman kex.curve rng.ephemeralSecret pubkey) },
            { exchange with serverEphemeral := P.ecdhPublicKey kex.curve rng.ephemeralSecret })
      | none => .error (.error .inconsistent) := by
  obtain ⟨hhead, hread, hle, htake⟩ := h
  simp only [serverDh, hhead, hread, htake, if_neg hle, ne_eq, not_true_eq_false, if_false, bind,
    Except.bind]
  cases P.fromSec1Bytes kex.curve e <;> rfl

end EcdhNistPKex

namespace MlKem768X25519Kex

theorem serverDh_carries (kex : MlKem768X25519Kex) {pk : MlKem768PublicKey}
    {point : MontgomeryPoint} (h : Carries payload Msg.kexHybridInit (pk.val ++ point.val)) :
    kex.serverDh P rng exchange payload =
      .ok ({ kex with
          kPq := some (P.mlKemEncapsulate pk rng.mlKemRandomness).2
          kCl := some (P.x25519 rng.scalar point) },
        { exchange with serverEphemeral := (P.mlKemEncapsulate pk rng.mlKemRandomness).1.val ++
            (P.x25519Base rng.scalar).val }) := by
  obtain ⟨hhead, hread, hle, htake⟩ := h
  have hlen : (pk.val ++ point.val).length = publicKeySize + 32 := by
    rw [List.length_append, pk.property, point.property]
    rfl
  have hpk : (pk.val ++ point.val).take publicKeySize = pk.val := List.take_left' pk.property
  have hpoint : (pk.val ++ point.val).drop publicKeySize = point.val := List.drop_left' pk.property
  rw [hlen] at hread hle htake
  simp only [serverDh, hhead, hread, htake, hpk, hpoint, copyFromSlice_val, if_neg hle,
    ne_eq, not_true_eq_false, if_false, bind, Except.bind, pure, Except.pure]

theorem computeSharedSecret_values (kex : MlKem768X25519Kex) (sk : MlKem768PrivateKey) (s : Scalar)
    (ct : MlKem768Ciphertext) (point : MontgomeryPoint) :
    MlKem768X25519Kex.computeSharedSecret P
        { kex with mlKemSecret := some sk, x25519Secret := some s } (ct.val ++ point.val) =
      .ok ⟨none, none, some (P.mlKemDecapsulate sk ct), some (P.x25519 s point)⟩ := by
  have hlen : (ct.val ++ point.val).length = ciphertextSize + 32 := by
    rw [List.length_append, ct.property, point.property]
    rfl
  have hct : (ct.val ++ point.val).take ciphertextSize = ct.val := List.take_left' ct.property
  have hpoint : (ct.val ++ point.val).drop ciphertextSize = point.val :=
    List.drop_left' ct.property
  simp only [computeSharedSecret, hlen, hct, hpoint, copyFromSlice_val, ne_eq, not_true_eq_false,
    if_false, bind, Except.bind, pure, Except.pure]

end MlKem768X25519Kex

namespace DhGroupKex

variable {kex client server : DhGroupKex} {dh : DH}

theorem finish_eq_ok {remote : Bytes} :
    kex.finish dh remote = .ok server ↔
      dh.validatePublicKey (natOfBytes remote) = true ∧
      dh.validateSharedSecret (dh.computeSharedSecret (natOfBytes remote)) = true ∧
      server = { kex with
        dh := some dh
        sharedSecret := some (biguintToMpint (dh.computeSharedSecret (natOfBytes remote))) } := by
  unfold finish
  by_cases hpub : dh.validatePublicKey (natOfBytes remote) = true
  · by_cases hsec : dh.validateSharedSecret (dh.computeSharedSecret (natOfBytes remote)) = true
    · simp [hpub, hsec, pure, Except.pure, eq_comm]
    · simp [hpub, hsec, throw, throwThe, MonadExceptOf.throw, bind, Except.bind]
  · simp [hpub, throw, throwThe, MonadExceptOf.throw, bind, Except.bind]

/-- A client that sends a value has drawn a private key in its group. -/
theorem clientDh_eq_ok (hdh : kex.dh = some dh) (h : kex.clientDh rng = .ok (client, e, payload)) :
    ∃ x, client = { kex with dh := some (dh.draw x) } ∧
      e = biguintToMpint (dh.draw x).generatePublicKey ∧
      dh.validatePublicKey (dh.draw x).generatePublicKey = true ∧
      payload = (if kex.isDhGex then Msg.kexDhGexInit else Msg.kexEcdhInit) :: encodeBytes e := by
  obtain ⟨x, hx⟩ := dh.generatePrivateKey_eq_ok rng.biguint false
  have hx : dh.generatePrivateKey rng.biguint false = .ok (dh.draw x) := hx
  unfold clientDh at h
  simp only [hdh, hx, bind, Except.bind] at h
  by_cases hvalid : (dh.draw x).validatePublicKey (dh.draw x).generatePublicKey = true
  · rw [if_pos hvalid] at h
    cases h
    exact ⟨x, rfl, rfl, hvalid, rfl⟩
  · rw [if_neg hvalid] at h
    cases h

/-- A server that answers has drawn one too, and accepts the client's value. -/
theorem serverDh_eq_ok {t : UInt8} (hdh : kex.dh = some dh) (hp : Carries payload t e)
    (h : kex.serverDh rng exchange payload = .ok (server, exchange')) :
    ∃ y, exchange' =
        { exchange with serverEphemeral := biguintToMpint (dh.draw y).generatePublicKey } ∧
      dh.validatePublicKey (dh.draw y).generatePublicKey = true ∧
      kex.finish (dh.draw y) e = .ok server := by
  obtain ⟨hhead, hread, hle, htake⟩ := hp
  obtain ⟨y, hy⟩ := dh.generatePrivateKey_eq_ok rng.biguint true
  have hy : dh.generatePrivateKey rng.biguint true = .ok (dh.draw y) := hy
  unfold serverDh at h
  simp only [hdh, hread, hy, htake, if_neg hle, bind, Except.bind] at h
  split at h
  · cases h
  · by_cases hvalid : (dh.draw y).validatePublicKey (dh.draw y).generatePublicKey = true
    · rw [if_pos hvalid] at h
      cases hfinish : kex.finish (dh.draw y) e with
      | error e' =>
        rw [hfinish] at h
        cases h
      | ok kex' =>
        rw [hfinish] at h
        cases h
        exact ⟨y, rfl, hvalid, hfinish⟩
    · rw [if_neg hvalid] at h
      cases h

/-- The client comes to the server's secret. -/
theorem computeSharedSecret_agrees {t : UInt8} {rng' : Entropy} (hdh : kex.dh = some dh)
    (hc : kex.clientDh rng = .ok (client, e, payload)) (hp : Carries payload t e)
    (hs : kex.serverDh rng' exchange payload = .ok (server, exchange')) :
    ∃ client', client.computeSharedSecret exchange'.serverEphemeral = .ok client' ∧
      { client' with dh := none } = { server with dh := none } := by
  obtain ⟨x, rfl, rfl, -, -⟩ := clientDh_eq_ok hdh hc
  obtain ⟨y, rfl, hvalid, hfinish⟩ := serverDh_eq_ok hdh hp hs
  obtain ⟨-, hsecret, rfl⟩ := finish_eq_ok.mp hfinish
  rw [natOfBytes_biguintToMpint, ← DH.computeSharedSecret_comm] at hsecret
  refine ⟨_, finish_eq_ok.mpr ⟨?_, ?_, rfl⟩, ?_⟩
  · rw [natOfBytes_biguintToMpint]
    exact hvalid
  · rw [natOfBytes_biguintToMpint]
    exact hsecret
  · rw [natOfBytes_biguintToMpint, natOfBytes_biguintToMpint, DH.computeSharedSecret_comm]

end DhGroupKex

namespace KexAlgorithm

variable {a client server : KexAlgorithm}

/-- The group is no larger than the largest that a server may have. -/
def Bounded : KexAlgorithm → Prop
  | dhGroupKex kex => ∀ dh ∈ kex.dh, dh.primeNum ≤ 256 ^ 1024
  | _ => True

theorem mpint_fits {dh : DH} {n : Nat} (hdh : dh.primeNum ≤ 256 ^ 1024)
    (h : dh.validatePublicKey n = true) : (biguintToMpint n).length ≤ maxSize := by
  obtain ⟨hone, hlt⟩ := (validatePublicKey_iff dh n).mp h
  have hlen := biguintToMpint_length_le (n := n) (k := 1024) (by omega) (by omega)
  exact hlen.trans (by decide)

theorem prime_le (g : NamedGroup) : g.group.prime ≤ 256 ^ 1024 := by
  cases g <;> decide +kernel

theorem make_bounded {name : KexName} (h : make name = some a) : a.Bounded := by
  have hgroup (digest : Digest) (g : NamedGroup) : (dhGroupKex (.ofGroup digest g)).Bounded := by
    rintro dh ⟨⟩
    exact prime_le g
  have hgex (digest : Digest) : (dhGroupKex (.gex digest)).Bounded := by
    rintro dh ⟨⟩
  cases name
  all_goals first
    | (cases h; first | exact hgroup _ _ | exact hgex _ | trivial)
    | cases h

/-- Only a group exchange is given a group. -/
theorem dhGexSetGroup_eq_ok {group : DhGroup} {hp : 7 ≤ group.prime}
    (h : client.dhGexSetGroup group hp = .ok a) :
    a.skipExchange = false ∧ a.isDhGex = client.isDhGex ∧
      (group.prime ≤ 256 ^ 1024 → a.Bounded) := by
  cases client with
  | dhGroupKex kex =>
    cases h
    refine ⟨rfl, rfl, ?_⟩
    rintro hle dh ⟨⟩
    exact hle
  | curve25519Kex kex => cases h
  | ecdhNistPKex kex => cases h
  | mlKem768X25519Kex kex => cases h
  | none => cases h

/-- A client that draws a value has a packet to send. -/
theorem clientDh_ne_nil (ha : a.skipExchange = false)
    (h : a.clientDh P rng e₀ = .ok (client, e, payload)) : payload ≠ [] := by
  cases a with
  | dhGroupKex kex =>
    obtain ⟨⟨client', e', payload'⟩, hdh, hok⟩ := bind_eq_ok.mp h
    cases hok
    cases hgroup : kex.dh with
    | none =>
      simp only [DhGroupKex.clientDh, hgroup] at hdh
      cases hdh
    | some dh =>
      obtain ⟨x, -, -, -, rfl⟩ := DhGroupKex.clientDh_eq_ok hgroup hdh
      exact List.cons_ne_nil _ _
  | curve25519Kex kex =>
    cases h
    exact List.cons_ne_nil _ _
  | ecdhNistPKex kex =>
    cases h
    exact List.cons_ne_nil _ _
  | mlKem768X25519Kex kex =>
    cases h
    exact List.cons_ne_nil _ _
  | none => cases ha

/-- The packet of a client: its value fits, and stands where the server takes it from. -/
theorem clientDh_carries (hP : P.Agree) (ha : a.skipExchange = false) (hb : a.Bounded)
    (h : a.clientDh P rng e₀ = .ok (client, e, payload)) :
    client.isDhGex = a.isDhGex ∧ e.length ≤ maxSize ∧
      payload = ServerKex.expectedInit a :: encodeBytes e := by
  cases a with
  | dhGroupKex kex =>
    obtain ⟨⟨client', e', payload'⟩, hdh, hok⟩ := bind_eq_ok.mp h
    cases hok
    cases hgroup : kex.dh with
    | none =>
      simp only [DhGroupKex.clientDh, hgroup] at hdh
      cases hdh
    | some dh =>
      obtain ⟨x, rfl, rfl, hvalid, rfl⟩ := DhGroupKex.clientDh_eq_ok hgroup hdh
      exact ⟨rfl, mpint_fits (hb dh hgroup) hvalid, rfl⟩
  | curve25519Kex kex =>
    cases h
    refine ⟨rfl, ?_, rfl⟩
    rw [(P.x25519Base rng.scalar).property]
    decide
  | ecdhNistPKex kex =>
    cases h
    exact ⟨rfl, (hP.ecdhPublicKey_length _ _).trans (by decide), rfl⟩
  | mlKem768X25519Kex kex =>
    cases h
    refine ⟨rfl, ?_, rfl⟩
    rw [List.length_append, (P.mlKemGenerateKeyPair rng.mlKemSeed).2.property,
      (P.x25519Base rng.scalar).property]
    decide
  | none => cases ha

theorem computeSharedSecret_isDhGex {s : Bytes} (h : a.computeSharedSecret P s = .ok client) :
    client.isDhGex = a.isDhGex := by
  cases a with
  | dhGroupKex kex =>
    obtain ⟨kex', hsecret, hok⟩ := bind_eq_ok.mp h
    cases hok
    cases hdh : kex.dh with
    | none =>
      simp only [DhGroupKex.computeSharedSecret, hdh] at hsecret
      cases hsecret
    | some dh =>
      simp only [DhGroupKex.computeSharedSecret, hdh] at hsecret
      obtain ⟨-, -, rfl⟩ := DhGroupKex.finish_eq_ok.mp hsecret
      rfl
  | curve25519Kex kex =>
    obtain ⟨kex', -, hok⟩ := bind_eq_ok.mp h
    cases hok
    rfl
  | ecdhNistPKex kex =>
    obtain ⟨kex', -, hok⟩ := bind_eq_ok.mp h
    cases hok
    rfl
  | mlKem768X25519Kex kex =>
    obtain ⟨kex', -, hok⟩ := bind_eq_ok.mp h
    cases hok
    rfl
  | none =>
    cases h
    rfl

/-- Where the server has answered the value of the client, the client comes to its secret. -/
theorem computeSharedSecret_agrees {rng' : Entropy} (hP : P.Agree) (ha : a.skipExchange = false)
    (hb : a.Bounded) (hc : a.clientDh P rng e₀ = .ok (client, e, payload))
    (hs : a.serverDh P rng' exchange payload = .ok (server, exchange')) :
    ∃ s, exchange' = { exchange with serverEphemeral := s } ∧ s.length ≤ maxSize ∧
      ∃ client', client.computeSharedSecret P s = .ok client' ∧ client'.forget = server.forget := by
  obtain ⟨-, he, hpayload⟩ := clientDh_carries hP ha hb hc
  have hcarries := carries_encodeBytes (ServerKex.expectedInit a) he
  rw [← hpayload] at hcarries
  cases a with
  | dhGroupKex kex =>
    obtain ⟨⟨client', e', payload'⟩, hdh, hok⟩ := bind_eq_ok.mp hc
    cases hok
    obtain ⟨⟨server', exchange''⟩, hdh', hok⟩ := bind_eq_ok.mp hs
    cases hok
    cases hgroup : kex.dh with
    | none =>
      simp only [DhGroupKex.clientDh, hgroup] at hdh
      cases hdh
    | some dh =>
      obtain ⟨client'', hclient, hforget⟩ :=
        DhGroupKex.computeSharedSecret_agrees hgroup hdh hcarries hdh'
      obtain ⟨y, rfl, hvalid, -⟩ := DhGroupKex.serverDh_eq_ok hgroup hcarries hdh'
      refine ⟨_, rfl, mpint_fits (hb dh hgroup) hvalid, .dhGroupKex client'', ?_, ?_⟩
      · exact bind_eq_ok.mpr ⟨_, hclient, rfl⟩
      · exact congrArg dhGroupKex hforget
  | curve25519Kex kex =>
    cases hc
    simp only [serverDh, Curve25519Kex.serverDh_carries kex hcarries] at hs
    cases hs
    refine ⟨_, rfl, ?_, _, bind_eq_ok.mpr ⟨_, Curve25519Kex.computeSharedSecret_point kex _ _, rfl⟩,
      ?_⟩
    · rw [(P.x25519Base rng'.scalar).property]
      decide
    · rw [hP.x25519]
      rfl
  | ecdhNistPKex kex =>
    cases hc
    obtain ⟨p, q, hp, hq, hpq⟩ := hP.fromSec1Bytes kex.curve rng.ephemeralSecret
      rng'.ephemeralSecret
    simp only [serverDh, EcdhNistPKex.serverDh_carries kex hcarries, hp] at hs
    cases hs
    refine ⟨_, rfl, (hP.ecdhPublicKey_length _ _).trans (by decide), _, bind_eq_ok.mpr ⟨⟨kex.curve,
      Option.none, some (P.diffieHellman kex.curve rng.ephemeralSecret q)⟩, ?_, rfl⟩, ?_⟩
    · simp only [EcdhNistPKex.computeSharedSecret, hq]
      rfl
    · rw [hpq]
      rfl
  | mlKem768X25519Kex kex =>
    cases hc
    simp only [serverDh, MlKem768X25519Kex.serverDh_carries kex hcarries] at hs
    cases hs
    refine ⟨_, rfl, ?_, _, bind_eq_ok.mpr ⟨_,
      MlKem768X25519Kex.computeSharedSecret_values kex _ _ _ _, rfl⟩, ?_⟩
    · rw [List.length_append, (P.mlKemEncapsulate _ _).1.property,
        (P.x25519Base rng'.scalar).property]
      decide
    · rw [hP.x25519, hP.mlKemDecapsulate]
      rfl
  | none => cases ha

end KexAlgorithm

end Exchange

end Edgessh.Russh
