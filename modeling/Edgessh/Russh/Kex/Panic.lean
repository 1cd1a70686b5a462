import Edgessh.Russh.Kex.Client
import Edgessh.Russh.Kex.Server
import Mathlib.Data.List.TakeWhile

/-!
# Panics in the key exchange

Which packets of the peer make a step of `ClientKex` or `ServerKex` panic. Two things are not
guarded: the client copies the server's Curve25519 value into 32 bytes without a look at its
length, and `encode_mpint` has no case for a shared secret that is all zeros.
-/

namespace Edgessh.Russh
open Edgessh.Command

/-- The exception is an `Err` of the source. -/
def Exn.IsError (e : Exn) : Prop := ∃ err, e = .error err

@[simp] theorem Exn.isError_error (err : Error) : (Exn.error err).IsError := ⟨err, rfl⟩

@[simp] theorem Exn.not_isError_panic : ¬ Exn.panic.IsError := by
  rintro ⟨err, ⟨⟩⟩

/-- The command ends, with `Ok` or with `Err`. -/
def Returns {σ α : Type} (m : EStateM Exn σ α) (s : σ) : Prop :=
  wp m (fun _ _ => True) (fun e _ => e.IsError) s

/-- A big-endian number that is zero, or no number at all. -/
def IsZero (b : Bytes) : Prop := ∀ x ∈ b, x = 0

theorem encodeMpint_isZero {s : Bytes} (h : IsZero s) : encodeMpint s = .error .panic := by
  have hs : s.dropWhile (· == 0) = [] := by
    rw [List.dropWhile_eq_nil_iff]
    intro x hx
    simpa using h x hx
  simp [encodeMpint, hs, throw, throwThe, MonadExceptOf.throw]

theorem encodeMpint_not_isZero {s : Bytes} (h : ¬ IsZero s) : ∃ b, encodeMpint s = .ok b := by
  unfold encodeMpint
  split
  · rename_i hs
    rw [List.dropWhile_eq_nil_iff] at hs
    exact absurd (fun x hx => by simpa using hs x hx) h
  · split
    · exact ⟨_, rfl⟩
    · exact ⟨_, rfl⟩

theorem bytesOfNat_not_isZero {n : Nat} (h : n ≠ 0) : ¬ IsZero (bytesOfNat n) := by
  intro hz
  have hne : Nat.digits 256 n ≠ [] := Nat.digits_ne_nil_iff_ne_zero.mpr h
  have hmem := List.getLast_mem hne
  have hlt : (Nat.digits 256 n).getLast hne < 256 := Nat.digits_lt_base (by decide) hmem
  have hx := hz (UInt8.ofNat ((Nat.digits 256 n).getLast hne)) (by
    simp only [bytesOfNat, if_neg h, List.mem_map, List.mem_reverse]
    exact ⟨_, hmem, rfl⟩)
  have hnat := congrArg UInt8.toNat hx
  rw [UInt8.toNat_ofNat_of_lt' hlt] at hnat
  exact Nat.getLast_digit_ne_zero 256 h hnat

theorem biguintToMpint_not_isZero {n : Nat} (h : n ≠ 0) : ¬ IsZero (biguintToMpint n) := by
  have hb := bytesOfNat_not_isZero h
  intro hz
  apply hb
  unfold biguintToMpint at hz
  split at hz
  · rename_i b r hbr
    rw [hbr]
    split at hz
    · intro x hx
      exact hz x (List.mem_cons_of_mem _ hx)
    · exact hz
  · rename_i hnil
    rw [hnil]
    exact hz

namespace KexAlgorithm

/-- The shared secret, if there is one, can be encoded as an mpint. -/
def Encodable : KexAlgorithm → Prop
  | dhGroupKex kex => ∀ s, kex.sharedSecret = some s → ¬ IsZero s
  | curve25519Kex kex => ∀ s, kex.sharedSecret = some s → ¬ IsZero s.val
  | ecdhNistPKex kex => ∀ s, kex.sharedSecret = some s → ¬ IsZero s
  | mlKem768X25519Kex _ => True
  | none => True

/-- The server's value makes the client panic: it is no Curve25519 value, or the shared secret
is zero. -/
def Unsafe (P : Primitives) (remotePubkey : Bytes) : KexAlgorithm → Prop
  | curve25519Kex kex => ∃ s, kex.localSecret = some s ∧
      ∀ h : remotePubkey.length = 32, IsZero (P.x25519 s ⟨remotePubkey, h⟩).val
  | ecdhNistPKex kex => ∃ s, kex.localSecret = some s ∧
      ∃ k, P.fromSec1Bytes kex.curve remotePubkey = some k ∧
        IsZero (P.diffieHellman kex.curve s k)
  | _ => False

/-- The client's value makes the server panic: the shared secret is zero. -/
def UnsafeInit (P : Primitives) (rng : Entropy) (clientPubkey : Bytes) : KexAlgorithm → Prop
  | curve25519Kex _ =>
      ∃ h : clientPubkey.length = 32, IsZero (P.x25519 rng.scalar ⟨clientPubkey, h⟩).val
  | ecdhNistPKex kex => ∃ k, P.fromSec1Bytes kex.curve clientPubkey = some k ∧
      IsZero (P.diffieHellman kex.curve rng.ephemeralSecret k)
  | _ => False

end KexAlgorithm

section Algorithms

variable {P : Primitives} {rng : Entropy}

theorem fromMpint_returns {s : Option Bytes} (h : ∀ b, s = some b → ¬ IsZero b) :
    ∃ b, fromMpint s = .ok b := by
  cases s with
  | none => exact ⟨[], rfl⟩
  | some b => exact encodeMpint_not_isZero (h b rfl)

theorem fromMpint_val_returns {s : Option MontgomeryPoint} (h : ∀ b, s = some b → ¬ IsZero b.val) :
    ∃ b, fromMpint (s.map (·.val)) = .ok b := by
  refine fromMpint_returns ?_
  intro b hb
  obtain ⟨p, hp, rfl⟩ := Option.map_eq_some_iff.mp hb
  exact h p hp

theorem combined_returns (kex : MlKem768X25519Kex) :
    wpExcept (kex.combined P) (fun _ => True) Exn.IsError := by
  unfold MlKem768X25519Kex.combined
  cases kex.kPq with
  | none => simp
  | some a => cases kex.kCl <;> simp

/-- The exchange hash of an encodable secret is computed. -/
theorem computeExchangeHash_returns {kex : KexAlgorithm} (h : kex.Encodable) (key : Bytes)
    (exchange : Exchange) :
    wpExcept (kex.computeExchangeHash P key exchange) (fun _ => True) Exn.IsError := by
  cases kex with
  | dhGroupKex kex => simp [KexAlgorithm.computeExchangeHash]
  | curve25519Kex kex =>
    obtain ⟨b, hb⟩ := fromMpint_val_returns h
    simp only [KexAlgorithm.computeExchangeHash, wpExcept_bind, hb, wpExcept_ok, wpExcept_pure]
  | ecdhNistPKex kex =>
    obtain ⟨b, hb⟩ := fromMpint_returns h
    simp only [KexAlgorithm.computeExchangeHash, wpExcept_bind, hb, wpExcept_ok, wpExcept_pure]
  | mlKem768X25519Kex kex =>
    simp only [KexAlgorithm.computeExchangeHash, wpExcept_bind, wpExcept_pure]
    exact combined_returns kex
  | none => simp [KexAlgorithm.computeExchangeHash]

/-- The keys of an encodable secret are computed. -/
theorem newKeys_returns {kex : KexAlgorithm} (h : kex.Encodable) (role : Role) (hash : Bytes)
    (names : Names) (exchange : Exchange) (sessionId : Option Bytes) :
    wpExcept (newKeys P role hash kex names exchange sessionId) (fun _ => True) Exn.IsError := by
  simp only [newKeys, wpExcept_bind, wpExcept_pure]
  cases kex with
  | dhGroupKex kex =>
    obtain ⟨b, hb⟩ := fromMpint_returns h
    simp only [KexAlgorithm.computeKeys, wpExcept_bind, hb, wpExcept_ok, wpExcept_pure]
  | curve25519Kex kex =>
    obtain ⟨b, hb⟩ := fromMpint_val_returns h
    simp only [KexAlgorithm.computeKeys, wpExcept_bind, hb, wpExcept_ok, wpExcept_pure]
  | ecdhNistPKex kex =>
    obtain ⟨b, hb⟩ := fromMpint_returns h
    simp only [KexAlgorithm.computeKeys, wpExcept_bind, hb, wpExcept_ok, wpExcept_pure]
  | mlKem768X25519Kex kex =>
    simp only [KexAlgorithm.computeKeys, wpExcept_bind, wpExcept_pure]
    exact combined_returns kex
  | none => simp [KexAlgorithm.computeKeys]

/-- Both ends of a Diffie-Hellman exchange check that the shared secret is above 1. -/
theorem finish_returns (kex : DhGroupKex) (dh : DH) (remotePubkey : Bytes) :
    wpExcept (kex.finish dh remotePubkey)
      (fun kex => (KexAlgorithm.dhGroupKex kex).Encodable) Exn.IsError := by
  unfold DhGroupKex.finish
  by_cases hpub : dh.validatePublicKey (natOfBytes remotePubkey) = true
  · by_cases hsec : dh.validateSharedSecret (dh.computeSharedSecret (natOfBytes remotePubkey))
        = true
    · simp only [hpub, hsec, if_true, wpExcept_pure]
      intro s hs
      obtain rfl := Option.some.inj hs
      apply biguintToMpint_not_isZero
      unfold DH.validateSharedSecret at hsec
      simp only [Bool.and_eq_true, decide_eq_true_eq] at hsec
      omega
    · simp [hpub, hsec]
  · simp [hpub]

theorem copyFromSlice_eq_ok {n : Nat} {b : Bytes} (h : b.length = n) :
    copyFromSlice n b = .ok ⟨b, h⟩ := dif_pos h

theorem copyFromSlice_eq_panic {n : Nat} {b : Bytes} (h : b.length ≠ n) :
    copyFromSlice n b = .error .panic := dif_neg h

/-- A safe value of the server gives an error or an encodable secret. -/
theorem computeSharedSecret_safe {kex : KexAlgorithm} {remotePubkey : Bytes}
    (h : ¬ kex.Unsafe P remotePubkey) :
    wpExcept (kex.computeSharedSecret P remotePubkey) KexAlgorithm.Encodable Exn.IsError := by
  cases kex with
  | dhGroupKex kex =>
    simp only [KexAlgorithm.computeSharedSecret, wpExcept_bind, wpExcept_pure,
      DhGroupKex.computeSharedSecret]
    cases kex.dh with
    | none => exact Exn.isError_error _
    | some dh => exact finish_returns kex dh remotePubkey
  | curve25519Kex kex =>
    simp only [KexAlgorithm.computeSharedSecret, wpExcept_bind, wpExcept_pure,
      Curve25519Kex.computeSharedSecret]
    cases hs : kex.localSecret with
    | none => exact Exn.isError_error _
    | some s =>
      have hlen : remotePubkey.length = 32 := by
        by_contra hne
        exact h ⟨s, hs, fun hlen => absurd hlen hne⟩
      simp only [copyFromSlice_eq_ok hlen, wpExcept_bind, wpExcept_ok, wpExcept_pure]
      intro p hp
      obtain rfl := Option.some.inj hp
      exact fun hz => h ⟨s, hs, fun _ => hz⟩
  | ecdhNistPKex kex =>
    simp only [KexAlgorithm.computeSharedSecret, wpExcept_bind, wpExcept_pure,
      EcdhNistPKex.computeSharedSecret]
    cases hs : kex.localSecret with
    | none => exact Exn.isError_error _
    | some s =>
      cases hk : P.fromSec1Bytes kex.curve remotePubkey with
      | none => exact Exn.isError_error _
      | some k =>
        intro b hb
        obtain rfl := Option.some.inj hb
        exact fun hz => h ⟨s, hs, k, hk, hz⟩
  | mlKem768X25519Kex kex =>
    simp only [KexAlgorithm.computeSharedSecret, wpExcept_bind, wpExcept_pure,
      MlKem768X25519Kex.computeSharedSecret]
    by_cases hlen : remotePubkey.length = MlKem768X25519Kex.ciphertextSize + 32
    · -- Both parts have the sizes that they are copied into.
      have hct : (remotePubkey.take MlKem768X25519Kex.ciphertextSize).length = 1088 := by
        simp [hlen, MlKem768X25519Kex.ciphertextSize]
      have hpk : (remotePubkey.drop MlKem768X25519Kex.ciphertextSize).length = 32 := by
        simp [hlen]
      simp only [hlen, ne_eq, not_true_eq_false, if_false, copyFromSlice_eq_ok hct,
        copyFromSlice_eq_ok hpk, wpExcept_bind, wpExcept_ok]
      cases kex.mlKemSecret with
      | none => exact Exn.isError_error _
      | some a =>
        cases kex.x25519Secret with
        | none => exact Exn.isError_error _
        | some b => exact trivial
    · simp only [ne_eq, hlen, not_false_eq_true, if_true, wpExcept_bind, wpExcept_throw]
      exact Exn.isError_error _
  | none => exact trivial

/-- An unsafe value of the server panics at once or when the exchange hash is computed. -/
theorem computeSharedSecret_unsafe {kex : KexAlgorithm} {remotePubkey : Bytes}
    (h : kex.Unsafe P remotePubkey) :
    kex.computeSharedSecret P remotePubkey = .error .panic ∨
      ∃ kex', kex.computeSharedSecret P remotePubkey = .ok kex' ∧
        ∀ key exchange, kex'.computeExchangeHash P key exchange = .error .panic := by
  cases kex with
  | curve25519Kex kex =>
    obtain ⟨s, hs, hz⟩ := h
    simp only [KexAlgorithm.computeSharedSecret, Curve25519Kex.computeSharedSecret, hs]
    by_cases hlen : remotePubkey.length = 32
    · refine .inr ⟨_, by rw [copyFromSlice_eq_ok hlen]; rfl, ?_⟩
      intro key exchange
      simp only [KexAlgorithm.computeExchangeHash, Option.map_some, fromMpint,
        encodeMpint_isZero (hz hlen)]
      rfl
    · refine .inl ?_
      rw [copyFromSlice_eq_panic hlen]
      rfl
  | ecdhNistPKex kex =>
    obtain ⟨s, hs, k, hk, hz⟩ := h
    refine .inr ⟨.ecdhNistPKex ⟨kex.curve, none, some (P.diffieHellman kex.curve s k)⟩, ?_, ?_⟩
    · simp only [KexAlgorithm.computeSharedSecret, EcdhNistPKex.computeSharedSecret, hs, hk]
      rfl
    · intro key exchange
      simp only [KexAlgorithm.computeExchangeHash, fromMpint, encodeMpint_isZero hz]
      rfl
  | dhGroupKex _ => exact h.elim
  | mlKem768X25519Kex _ => exact h.elim
  | none => exact h.elim

theorem clientDh_returns (kex : KexAlgorithm) (clientEphemeral : Bytes) :
    wpExcept (kex.clientDh P rng clientEphemeral) (fun _ => True) Exn.IsError := by
  cases kex with
  | dhGroupKex kex =>
    simp only [KexAlgorithm.clientDh, wpExcept_bind, wpExcept_pure, DhGroupKex.clientDh]
    cases kex.dh with
    | none => exact Exn.isError_error _
    | some dh =>
      obtain ⟨x, hx⟩ := dh.generatePrivateKey_eq_ok rng.biguint false
      simp only [hx, wpExcept_bind, wpExcept_ok]
      split
      · exact trivial
      · exact Exn.isError_error _
  | curve25519Kex kex => exact trivial
  | ecdhNistPKex kex => exact trivial
  | mlKem768X25519Kex kex => exact trivial
  | none => exact trivial

/-- The length and the bytes that `server_dh` reads by hand are those of the string that
`ServerKex::step` has decoded before. -/
theorem readU32At1_of_decodeBytes {payload b r : Bytes}
    (h : decodeBytes (payload.drop 1) = .ok (b, r)) :
    readU32At1 payload = .ok b.length ∧ ¬ payload.length < 5 + b.length ∧
      (payload.drop 5).take b.length = b := by
  obtain ⟨q, hq, -, rfl⟩ := decodeBytes_eq_ok.mp h
  rcases payload with _ | ⟨t, _ | ⟨a₁, _ | ⟨a₂, _ | ⟨a₃, _ | ⟨a₄, rest⟩⟩⟩⟩⟩
  · cases hq
  · cases hq
  · cases hq
  · cases hq
  · cases hq
  · obtain ⟨hn, rfl⟩ := Prod.mk.inj (Except.ok.inj hq)
    refine ⟨congrArg Except.ok hn, ?_, ?_⟩
    · simp only [List.length_cons, List.length_append]
      omega
    · exact List.take_left

/-- A safe value of the client gives an error or an encodable secret. -/
theorem serverDh_safe {kex : KexAlgorithm} {payload pubkey r : Bytes} (exchange : Exchange)
    (hd : decodeBytes (payload.drop 1) = .ok (pubkey, r)) (h : ¬ kex.UnsafeInit P rng pubkey) :
    wpExcept (kex.serverDh P rng exchange payload) (fun p => p.1.Encodable) Exn.IsError := by
  obtain ⟨hread, hlen, htake⟩ := readU32At1_of_decodeBytes hd
  cases kex with
  | dhGroupKex kex =>
    simp only [KexAlgorithm.serverDh, wpExcept_bind, wpExcept_pure, DhGroupKex.serverDh]
    cases kex.dh with
    | none => exact Exn.isError_error _
    | some dh =>
      obtain ⟨x, hx⟩ := dh.generatePrivateKey_eq_ok rng.biguint true
      dsimp only
      split
      · exact Exn.isError_error _
      · simp only [hread, hx, if_neg hlen, wpExcept_bind, wpExcept_ok]
        split
        · simp only [wpExcept_bind, wpExcept_pure]
          exact finish_returns kex { dh with privateKey := x } _
        · exact Exn.isError_error _
  | curve25519Kex kex =>
    simp only [KexAlgorithm.serverDh, wpExcept_bind, wpExcept_pure, Curve25519Kex.serverDh]
    split
    · exact Exn.isError_error _
    · by_cases h32 : pubkey.length = 32
      · have hval : ((payload.drop 5).take 32) = pubkey := by rw [← h32, htake]
        simp only [hread, h32, ne_eq, not_true_eq_false, if_false, wpExcept_bind, wpExcept_ok,
          if_neg (h32 ▸ hlen), hval, copyFromSlice_eq_ok h32]
        intro p hp
        obtain rfl := Option.some.inj hp
        exact fun hz => h ⟨h32, hz⟩
      · simp only [hread, ne_eq, h32, not_false_eq_true, if_true, wpExcept_bind, wpExcept_ok]
        exact Exn.isError_error _
  | ecdhNistPKex kex =>
    simp only [KexAlgorithm.serverDh, wpExcept_bind, wpExcept_pure, EcdhNistPKex.serverDh]
    split
    · exact Exn.isError_error _
    · simp only [hread, if_neg hlen, wpExcept_bind, wpExcept_ok, htake]
      cases hk : P.fromSec1Bytes kex.curve pubkey with
      | none => exact Exn.isError_error _
      | some k =>
        intro b hb
        obtain rfl := Option.some.inj hb
        exact fun hz => h ⟨k, hk, hz⟩
  | mlKem768X25519Kex kex =>
    simp only [KexAlgorithm.serverDh, wpExcept_bind, wpExcept_pure, MlKem768X25519Kex.serverDh]
    split
    · exact Exn.isError_error _
    · by_cases hsize : pubkey.length = MlKem768X25519Kex.publicKeySize + 32
      · have hpk2 : (pubkey.take MlKem768X25519Kex.publicKeySize).length = 1184 := by
          simp [hsize, MlKem768X25519Kex.publicKeySize]
        have hpk1 : (pubkey.drop MlKem768X25519Kex.publicKeySize).length = 32 := by
          simp [hsize]
        simp only [hread, wpExcept_bind, wpExcept_ok, if_neg hlen, htake, if_neg (not_not.mpr hsize),
          copyFromSlice_eq_ok hpk2, copyFromSlice_eq_ok hpk1]
        exact trivial
      · simp only [hread, if_neg hlen, wpExcept_bind, wpExcept_ok, ne_eq, hsize,
          not_false_eq_true, if_true]
        exact Exn.isError_error _
  | none => exact trivial

/-- An unsafe value of the client is accepted, and the exchange hash then panics. -/
theorem serverDh_unsafe {kex : KexAlgorithm} {payload pubkey r : Bytes} (exchange : Exchange)
    (hd : decodeBytes (payload.drop 1) = .ok (pubkey, r))
    (hhead : payload.head? = some (ServerKex.expectedInit kex))
    (h : kex.UnsafeInit P rng pubkey) :
    ∃ p, kex.serverDh P rng exchange payload = .ok p ∧
      ∀ key exchange, p.1.computeExchangeHash P key exchange = .error .panic := by
  obtain ⟨hread, hlen, htake⟩ := readU32At1_of_decodeBytes hd
  cases kex with
  | curve25519Kex kex =>
    obtain ⟨h32, hz⟩ := h
    have hval : ((payload.drop 5).take 32) = pubkey := by rw [← h32, htake]
    have hhead' : payload.head? = some Msg.kexEcdhInit := hhead
    refine ⟨(.curve25519Kex { kex with sharedSecret := some (P.x25519 rng.scalar ⟨pubkey, h32⟩) },
      { exchange with serverEphemeral := (P.x25519Base rng.scalar).val }), ?_, ?_⟩
    · simp only [KexAlgorithm.serverDh, Curve25519Kex.serverDh, hhead', hread, h32, ne_eq,
        not_true_eq_false, if_false, bind, Except.bind, if_neg (h32 ▸ hlen), hval,
        copyFromSlice_eq_ok h32]
      rfl
    · intro key exchange
      simp only [KexAlgorithm.computeExchangeHash, Option.map_some, fromMpint,
        encodeMpint_isZero hz]
      rfl
  | ecdhNistPKex kex =>
    obtain ⟨k, hk, hz⟩ := h
    have hhead' : payload.head? = some Msg.kexEcdhInit := hhead
    refine ⟨(.ecdhNistPKex { kex with
        sharedSecret := some (P.diffieHellman kex.curve rng.ephemeralSecret k) },
      { exchange with serverEphemeral := P.ecdhPublicKey kex.curve rng.ephemeralSecret }), ?_, ?_⟩
    · simp only [KexAlgorithm.serverDh, EcdhNistPKex.serverDh, hhead', hread, ne_eq,
        not_true_eq_false, if_false, bind, Except.bind, if_neg hlen, htake, hk]
      rfl
    · intro key exchange
      simp only [KexAlgorithm.computeExchangeHash, fromMpint, encodeMpint_isZero hz]
      rfl
  | dhGroupKex _ => exact h.elim
  | mlKem768X25519Kex _ => exact h.elim
  | none => exact h.elim

theorem serverDh_returns {kex : KexAlgorithm} {payload pubkey r : Bytes} (exchange : Exchange)
    (hd : decodeBytes (payload.drop 1) = .ok (pubkey, r))
    (hhead : payload.head? = some (ServerKex.expectedInit kex)) :
    wpExcept (kex.serverDh P rng exchange payload) (fun _ => True) Exn.IsError := by
  by_cases h : kex.UnsafeInit P rng pubkey
  · obtain ⟨p, hp, -⟩ := serverDh_unsafe exchange hd hhead h
    rw [hp]
    exact trivial
  · exact wpExcept_mono (serverDh_safe exchange hd h) (fun _ _ => trivial) fun _ he => he

theorem outputPacket_returns (message : Message) (w : PacketWriter) :
    Returns (outputPacket P message) w := by
  simp only [Returns, outputPacket, wp_bind, wp_get, wp_ofExcept, wp_set, PacketWriter.packetRaw]
  split
  · exact trivial
  · simp only [wpExcept_bind, wpExcept_pure]
    cases hc : w.compress with
    | none => exact trivial
    | zlib inputs =>
      simp only [Compress.compress]
      split
      · exact trivial
      · exact Exn.isError_error _

end Algorithms

/-- What the packets of the peer must not be, for each machine: a reply, in the state that waits
for it, whose value is unsafe. -/
def ClientKex.UnsafeReply (P : Primitives) (self : ClientKex) (input : IncomingSshPacket) :
    Prop :=
  ∃ names kex hostKey r key ephemeral r',
    self.state = .waitingForDhReply names kex ∧ names.ignoreGuessed = false ∧
      input.buffer.head? = some (ClientKex.expectedReply kex) ∧
      decodeBytes (input.buffer.drop 1) = .ok (hostKey, r) ∧
      P.decodePublicKey hostKey = some key ∧ decodeBytes r = .ok (ephemeral, r') ∧
      kex.Unsafe P (self.exchange.serverEphemeral ++ ephemeral)

def ServerKex.UnsafeInit (P : Primitives) (rng : Entropy) (self : ServerKex)
    (input : IncomingSshPacket) : Prop :=
  ∃ names kex ephemeral r key,
    self.state = .waitingForDhInit names kex ∧ names.ignoreGuessed = false ∧
      input.buffer.head? = some (ServerKex.expectedInit kex) ∧
      decodeBytes (input.buffer.drop 1) = .ok (ephemeral, r) ∧
      (self.config.keys.find? fun key => isKeyCompatibleWithAlgo key names.key) = some key ∧
      kex.UnsafeInit P rng ephemeral

section Client

variable {P : Primitives} {rng : Entropy}

theorem wpExcept_isError {α : Type} (x : Except Error α) :
    wpExcept (x.mapError Exn.error) (fun _ => True) Exn.IsError := by
  cases x <;> simp

theorem encodable_of_skipExchange {kex : KexAlgorithm} (h : kex.skipExchange = true) :
    kex.Encodable := by
  cases kex <;> simp_all [KexAlgorithm.skipExchange, KexAlgorithm.Encodable]

theorem clientDhGexInit_returns (kex : KexAlgorithm) (gex : GexParams) :
    wpExcept (kex.clientDhGexInit gex) (fun _ => True) Exn.IsError := by
  cases kex <;> simp [KexAlgorithm.clientDhGexInit]

theorem dhGexSetGroup_returns (kex : KexAlgorithm) (group : DhGroup) (h : 7 ≤ group.prime) :
    wpExcept (kex.dhGexSetGroup group h) (fun _ => True) Exn.IsError := by
  cases kex <;> simp [KexAlgorithm.dhGexSetGroup]

theorem ClientKex.stepCreated_returns (self : ClientKex) (input : IncomingSshPacket)
    (w : PacketWriter) : Returns (self.stepCreated P rng input) w := by
  unfold ClientKex.stepCreated Returns
  split
  · simp
  · simp only [wp_bind, wp_ofExcept]
    refine wpExcept_mono (wpExcept_isError _) ?_ fun _ he => he
    intro names _
    split
    · simp
    · split
      · rename_i kex hkex
        split
        · rename_i hskip
          simp only [wp_bind, wp_ofExcept]
          refine wpExcept_mono (newKeys_returns (encodable_of_skipExchange hskip) _ _ _ _ _) ?_
            fun _ he => he
          intro newkeys _
          exact wp_mono (outputPacket_returns _ w) (fun _ _ _ => trivial) fun _ _ he => he
        · split
          · simp only [wp_bind, wp_ofExcept]
            refine wpExcept_mono (clientDhGexInit_returns _ _) ?_ fun _ he => he
            intro payload _
            exact wp_mono (outputPacket_returns _ w) (fun _ _ _ => trivial) fun _ _ he => he
          · simp only [wp_bind, wp_ofExcept]
            refine wpExcept_mono (clientDh_returns _ _) ?_ fun _ he => he
            intro p _
            exact wp_mono (outputPacket_returns _ w) (fun _ _ _ => trivial) fun _ _ he => he
      · simp

theorem wpExcept_decode_isError {α : Type} (x : Except EncodingError α) :
    wpExcept (x.mapError fun e => Exn.error (.sshEncoding e)) (fun _ => True) Exn.IsError := by
  cases x <;> simp

theorem ClientKex.stepGexReply_returns (self : ClientKex) (names : Names) (kex : KexAlgorithm)
    (input : IncomingSshPacket) (w : PacketWriter) :
    Returns (self.stepGexReply P rng names kex input) w := by
  unfold ClientKex.stepGexReply Returns
  split
  · simp
  · simp only [wp_bind, wp_ofExcept]
    refine wpExcept_mono (wpExcept_decode_isError _) ?_ fun _ he => he
    rintro ⟨prime, r⟩ _
    refine wpExcept_mono (wpExcept_decode_isError _) ?_ fun _ he => he
    rintro ⟨generator, _⟩ _
    dsimp only
    split
    · simp
    · simp only [wp_bind, wp_ofExcept]
      refine wpExcept_mono (dhGexSetGroup_returns _ _ _) ?_ fun _ he => he
      intro kex _
      refine wpExcept_mono (clientDh_returns _ _) ?_ fun _ he => he
      intro p _
      exact wp_mono (outputPacket_returns _ w) (fun _ _ _ => trivial) fun _ _ he => he

theorem ClientKex.stepNewKeys_returns (serverHostKey : PublicKey) (newkeys : NewKeys)
    (input : IncomingSshPacket) (w : PacketWriter) :
    Returns (ClientKex.stepNewKeys serverHostKey newkeys input) w := by
  unfold ClientKex.stepNewKeys Returns
  split <;> simp

/-- The end of a reply whose secret is encodable: the signature, the keys and NEWKEYS. -/
theorem ClientKex.stepDhReply_returns {self : ClientKex} {names : Names} {kex : KexAlgorithm}
    {input : IncomingSshPacket} (hstate : self.state = .waitingForDhReply names kex)
    (h : ¬ self.UnsafeReply P input) (w : PacketWriter) :
    Returns (self.stepDhReply P names kex input) w := by
  unfold ClientKex.stepDhReply Returns
  split
  · simp
  · rename_i hguess
    split
    · simp
    · rename_i hhead
      simp only [wp_bind, wp_ofExcept]
      cases hkey : decodeBytes (input.buffer.drop 1) with
      | error e => simp
      | ok p =>
        obtain ⟨hostKey, r⟩ := p
        simp only [wpExcept_mapError, wpExcept_ok]
        cases hdec : P.decodePublicKey hostKey with
        | none => simp
        | some serverHostKey =>
          simp only [wp_bind, wp_ofExcept]
          cases heph : decodeBytes r with
          | error e => simp
          | ok p =>
            obtain ⟨serverEphemeral, r'⟩ := p
            have hsafe : ¬ kex.Unsafe P (self.exchange.serverEphemeral ++ serverEphemeral) :=
              fun hu => h ⟨names, kex, hostKey, r, serverHostKey, serverEphemeral, r', hstate,
                by simpa using hguess, by simpa using hhead, hkey, hdec, heph, hu⟩
            simp only [wpExcept_mapError, wpExcept_ok]
            refine wpExcept_mono (computeSharedSecret_safe hsafe) ?_ fun _ he => he
            intro kex henc
            refine wpExcept_mono (computeExchangeHash_returns henc _ _) ?_ fun _ he => he
            intro hash _
            cases decodeBytes r' with
            | error e => simp
            | ok p =>
              simp only [wpExcept_ok]
              split
              · split
                · simp only [wp_bind, wp_modify, wp_ofExcept]
                  refine wpExcept_mono (newKeys_returns henc _ _ _ _ _) ?_ fun _ he => he
                  intro newkeys _
                  exact wp_mono (outputPacket_returns _ _) (fun _ _ _ => trivial) fun _ _ he => he
                · simp
              · simp

/-- An unsafe reply panics before anything is sealed. -/
theorem ClientKex.not_stepDhReply_returns {self : ClientKex} {names : Names} {kex : KexAlgorithm}
    {input : IncomingSshPacket} (hstate : self.state = .waitingForDhReply names kex)
    (h : self.UnsafeReply P input) (w : PacketWriter) :
    ¬ Returns (self.stepDhReply P names kex input) w := by
  obtain ⟨names', kex', hostKey, r, key, ephemeral, r', hstate', hguess, hhead, hkey, hdec, heph,
    hunsafe⟩ := h
  obtain ⟨rfl, rfl⟩ : names = names' ∧ kex = kex' := by simpa [hstate] using hstate'
  rcases computeSharedSecret_unsafe hunsafe with hp | ⟨kex', hc, hp⟩
  · simp [-List.drop_one, ClientKex.stepDhReply, Returns, hguess, hhead, hkey, hdec, heph, hp]
  · simp [-List.drop_one, ClientKex.stepDhReply, Returns, hguess, hhead, hkey, hdec, heph, hc, hp]

/-- A step of the client returns exactly when the packet is not an unsafe reply. -/
theorem ClientKex.step_returns_iff (self : ClientKex) (input : IncomingSshPacket)
    (w : PacketWriter) :
    Returns (self.step P rng (some input)) w ↔ ¬ self.UnsafeReply P input := by
  unfold ClientKex.step
  constructor
  · intro hret hu
    obtain ⟨names, kex, -, -, -, -, -, hstate, -⟩ := id hu
    simp only [hstate] at hret
    exact ClientKex.not_stepDhReply_returns hstate hu w hret
  · intro hu
    cases hstate : self.state with
    | created => exact ClientKex.stepCreated_returns self input w
    | waitingForGexReply names kex => exact ClientKex.stepGexReply_returns self names kex input w
    | waitingForDhReply names kex => exact ClientKex.stepDhReply_returns hstate hu w
    | waitingForNewKeys serverHostKey newkeys =>
      exact ClientKex.stepNewKeys_returns serverHostKey newkeys input w

end Client

section Server

variable {P : Primitives} {rng : Entropy}

theorem ServerKex.stepCreated_returns (self : ServerKex) (input : IncomingSshPacket)
    (w : PacketWriter) : Returns (self.stepCreated P input) w := by
  unfold ServerKex.stepCreated Returns
  split
  · simp
  · simp only [wp_bind, wp_ofExcept]
    refine wpExcept_mono (wpExcept_isError _) ?_ fun _ he => he
    intro names _
    split
    · simp
    · split
      · rename_i kex hkex
        split
        · rename_i hskip
          simp only [wp_bind, wp_ofExcept]
          refine wpExcept_mono (newKeys_returns (encodable_of_skipExchange hskip) _ _ _ _ _) ?_
            fun _ he => he
          intro newkeys _
          exact wp_mono (outputPacket_returns _ w) (fun _ _ _ => trivial) fun _ _ he => he
        · split <;> simp
      · simp

theorem ServerKex.stepGexRequest_returns (lookupDhGexGroup : LookupDhGexGroup)
    (self : ServerKex) (names : Names) (kex : KexAlgorithm) (input : IncomingSshPacket)
    (w : PacketWriter) :
    Returns (self.stepGexRequest P lookupDhGexGroup names kex input) w := by
  unfold ServerKex.stepGexRequest Returns
  split
  · simp
  · simp only [wp_bind, wp_ofExcept]
    refine wpExcept_mono (wpExcept_isError _) ?_ fun _ he => he
    intro gexParams _
    refine wpExcept_mono (wpExcept_isError _) ?_ fun _ he => he
    intro dhGroup? _
    cases dhGroup? with
    | none => simp
    | some dhGroup =>
      simp only [wp_bind, wp_ofExcept]
      refine wpExcept_mono (dhGexSetGroup_returns _ _ _) ?_ fun _ he => he
      intro kex _
      exact wp_mono (outputPacket_returns _ w) (fun _ _ _ => trivial) fun _ _ he => he

theorem ServerKex.stepNewKeys_returns (newkeys : NewKeys) (input : IncomingSshPacket)
    (w : PacketWriter) : Returns (ServerKex.stepNewKeys newkeys input) w := by
  unfold ServerKex.stepNewKeys Returns
  split <;> simp

theorem ServerKex.stepDhInit_returns {self : ServerKex} {names : Names} {kex : KexAlgorithm}
    {input : IncomingSshPacket} (hstate : self.state = .waitingForDhInit names kex)
    (h : ¬ self.UnsafeInit P rng input) (w : PacketWriter) :
    Returns (self.stepDhInit P rng names kex input) w := by
  unfold ServerKex.stepDhInit Returns
  by_cases hguess : names.ignoreGuessed = true
  · simp [hguess]
  · by_cases hhead : input.buffer.head? = some (ServerKex.expectedInit kex)
    · simp only [hguess, hhead, ne_eq, not_true_eq_false, if_false, wp_bind, wp_ofExcept,
        Bool.false_eq_true]
      cases heph : decodeBytes (input.buffer.drop 1) with
      | error e => simp
      | ok p =>
        obtain ⟨clientEphemeral, r⟩ := p
        simp only [wpExcept_mapError, wpExcept_ok]
        cases hkey : self.config.keys.find? fun key => isKeyCompatibleWithAlgo key names.key with
        | none =>
          simp only [wp_throw]
          exact wpExcept_mono (serverDh_returns _ heph hhead) (fun _ _ => Exn.isError_error _)
            fun _ he => he
        | some key =>
          have hsafe : ¬ kex.UnsafeInit P rng clientEphemeral := fun hu =>
            h ⟨names, kex, clientEphemeral, r, key, hstate, by simpa using hguess, hhead, heph,
              hkey, hu⟩
          refine wpExcept_mono (serverDh_safe _ heph hsafe) ?_ fun _ he => he
          rintro ⟨kex, exchange⟩ henc
          simp only [wp_bind, wp_ofExcept]
          refine wpExcept_mono (computeExchangeHash_returns henc _ _) ?_ fun _ he => he
          intro hash _
          refine wpExcept_mono (wpExcept_isError _) ?_ fun _ he => he
          intro signature _
          refine wp_mono (outputPacket_returns _ w) ?_ fun _ _ he => he
          intro _ w' _
          simp only [wp_bind]
          refine wp_mono (outputPacket_returns _ w') ?_ fun _ _ he => he
          intro _ w'' _
          simp only [wp_bind, wp_ofExcept]
          exact wpExcept_mono (newKeys_returns henc _ _ _ _ _) (fun _ _ => trivial) fun _ he => he
    · simp [hguess, hhead]

theorem ServerKex.not_stepDhInit_returns {self : ServerKex} {names : Names} {kex : KexAlgorithm}
    {input : IncomingSshPacket} (hstate : self.state = .waitingForDhInit names kex)
    (h : self.UnsafeInit P rng input) (w : PacketWriter) :
    ¬ Returns (self.stepDhInit P rng names kex input) w := by
  obtain ⟨names', kex', ephemeral, r, key, hstate', hguess, hhead, heph, hkey, hunsafe⟩ := h
  obtain ⟨rfl, rfl⟩ : names = names' ∧ kex = kex' := by simpa [hstate] using hstate'
  obtain ⟨p, hp, hpanic⟩ := serverDh_unsafe
    { self.exchange with clientEphemeral := self.exchange.clientEphemeral ++ ephemeral }
    heph hhead hunsafe
  simp [-List.drop_one, ServerKex.stepDhInit, Returns, hguess, hhead, heph, hp, hkey, hpanic]

/-- A step of the server returns exactly when the packet is not an unsafe first value. -/
theorem ServerKex.step_returns_iff (lookupDhGexGroup : LookupDhGexGroup) (self : ServerKex)
    (input : IncomingSshPacket) (w : PacketWriter) :
    Returns (self.step P lookupDhGexGroup rng (some input)) w ↔
      ¬ self.UnsafeInit P rng input := by
  unfold ServerKex.step
  constructor
  · intro hret hu
    obtain ⟨names, kex, -, -, -, hstate, -⟩ := id hu
    simp only [hstate] at hret
    exact ServerKex.not_stepDhInit_returns hstate hu w hret
  · intro hu
    cases hstate : self.state with
    | created => exact ServerKex.stepCreated_returns self input w
    | waitingForGexRequest names kex =>
      exact ServerKex.stepGexRequest_returns lookupDhGexGroup self names kex input w
    | waitingForDhInit names kex => exact ServerKex.stepDhInit_returns hstate hu w
    | waitingForNewKeys newkeys => exact ServerKex.stepNewKeys_returns newkeys input w

end Server

/-- A step of the key exchange, whatever the state, the algorithm and the packet, returns `Ok` or
`Err` unless the packet is a first value or a reply that is unsafe in that state. -/
theorem kexStep_returns_iff (P : Primitives) (lookupDhGexGroup : LookupDhGexGroup) (rng : Entropy)
    (client : ClientKex) (server : ServerKex) (input : Option IncomingSshPacket)
    (w : PacketWriter) :
    (Returns (client.step P rng input) w ↔ ∀ pkt, input = some pkt → ¬ client.UnsafeReply P pkt) ∧
      (Returns (server.step P lookupDhGexGroup rng input) w ↔
        ∀ pkt, input = some pkt → ¬ server.UnsafeInit P rng pkt) := by
  cases input with
  | none => simp [ClientKex.step, ServerKex.step, Returns]
  | some pkt =>
    simp only [Option.some.injEq, forall_eq']
    exact ⟨ClientKex.step_returns_iff client pkt w,
      ServerKex.step_returns_iff lookupDhGexGroup server pkt w⟩

/-- A client that has sent its Curve25519 value and waits for the server's. -/
def waitingCurve25519Client : ClientKex where
  exchange := { clientId := [], serverId := [] }
  cause := .initial
  config := {}
  state := .waitingForDhReply
    { kex := .curve25519
      key := .ed25519
      cipher := .chacha20Poly1305
      clientMac := .none
      serverMac := .none
      serverCompression := .none
      clientCompression := .none
      ignoreGuessed := false
      strictKex := true }
    (.curve25519Kex ⟨some default, none⟩)

/-- A reply with an empty Curve25519 value. -/
def emptyEphemeralReply : IncomingSshPacket where
  buffer := Msg.kexEcdhReply :: encodeBytes [7] ++ encodeBytes [] ++ encodeBytes []
  seqn := 2

theorem not_kexStep_returns :
    ¬ Returns (waitingCurve25519Client.step .toy .toy (some emptyEphemeralReply)) {} := by
  refine ClientKex.not_stepDhReply_returns rfl ?_ {}
  refine ⟨_, _, [7], encodeBytes [] ++ encodeBytes [], ⟨[7]⟩, [], encodeBytes [], rfl, rfl, rfl,
    by decide +kernel, rfl, by decide +kernel, default, rfl, ?_⟩
  intro hlen
  cases hlen

end Edgessh.Russh
