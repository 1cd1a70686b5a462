import Edgessh.Lib.Command
import Edgessh.Russh.Keys.Format.Pkcs8

/-!
# The legacy PKCS#8 parser

`keys/format/pkcs8_legacy.rs`: Ed25519 keys in an older layout, encrypted with PBES2. The
initialization vector is copied into an array of 16 bytes whatever its length in the document.
-/

namespace Edgessh.Russh.Keys.Format
open Edgessh.Command

/-- An error, or a panic. -/
inductive Exn (ε : Type) where
  | error (e : ε)
  | panic

namespace Exn

variable {ε ε' : Type}

/-- The error of a caller. -/
def map (f : ε → ε') : Exn ε → Exn ε'
  | error e => error (f e)
  | panic => panic

def IsError : Exn ε → Prop
  | error _ => True
  | panic => False

@[simp] theorem isError_error (e : ε) : (Exn.error e).IsError := trivial

@[simp] theorem not_isError_panic : ¬ (Exn.panic : Exn ε).IsError := id

@[simp] theorem isError_map (f : ε → ε') (e : Exn ε) : (e.map f).IsError ↔ e.IsError := by
  cases e with
  | error e => exact Iff.rfl
  | panic => exact Iff.rfl

end Exn

/-- `clone_from_slice` into an array of `n` bytes. -/
def cloneFromSlice {ε : Type} (n : Nat) (b : Bytes) : Except (Exn ε) {b : Bytes // b.length = n} :=
  if h : b.length = n then .ok ⟨b, h⟩ else .error .panic

/-- AES encryption, with the initialization vector. -/
inductive Encryption where
  | aes128Cbc (iv : Block)
  | aes256Cbc (iv : Block)

/-- `KeyDerivation::Pbkdf2` -/
structure KeyDerivation where
  salt : Bytes
  rounds : UInt64

namespace Pkcs8Legacy

def pbes2 : Oid := [1, 2, 840, 113549, 1, 5, 13]
def ed25519 : Oid := [1, 3, 101, 112]
def pbkdf2 : Oid := [1, 2, 840, 113549, 1, 5, 12]
def aes256cbc : Oid := [2, 16, 840, 1, 101, 3, 4, 1, 42]
def hmacSha256 : Oid := [1, 2, 840, 113549, 2, 9]

variable (K : Crates)

/-- A function over a reader, which ends with an error of the reader or with a panic. -/
abbrev Reading (α : Type) := EStateM (Exn K.Err) K.BerReader α

variable {K}

/-- A call of the reader. -/
def asn1 {α : Type} (call : K.BerReader → EStateM.Result K.Err K.BerReader α) : Reading K α :=
  fun s =>
    match call s with
    | .ok a t => .ok a t
    | .error e t => .error (.error e) t

/-- `read_sequence` with its callback. -/
def readSequence {α : Type} (m : Reading K α) : Reading K α := do
  let outer ← asn1 K.enterSequence
  let a ← m
  asn1 (K.leaveSequence outer)
  pure a

/-- The callback's `Ok` around a result of its own. -/
def result {α : Type} (m : EStateM (Exn (Error K.Err)) K.BerReader α) :
    Reading K (Except (Error K.Err) α) := fun s =>
  match m s with
  | .ok a t => .ok (.ok a) t
  | .error (.error e) t => .ok (.error e) t
  | .error .panic t => .error .panic t

/-- `parse_der` with its callback. -/
def parseDer {α : Type} (bytes : Bytes) (m : Reading K α) : Except (Exn (Error K.Err)) α :=
  match (do let a ← m; asn1 K.endOfBuf; pure a : Reading K α) (K.berReader bytes) with
  | .ok a _ => .ok a
  | .error e _ => .error (e.map .legacyASN1)

variable (K)

/-- `read_key_v1`; an error of the reader is one of the function's own. -/
def readKeyV1 : EStateM (Exn (Error K.Err)) K.BerReader K.PrivateKey := do
  let oid ← EStateM.adaptExcept (Exn.map .legacyASN1) (readSequence (asn1 K.readOid))
  if oid = ed25519 then do
    let bytes ← EStateM.adaptExcept (Exn.map .legacyASN1) (asn1 K.readBytes)
    let s ← ofExcept (parseDer bytes (asn1 K.readBytes))
    if s.length < 32 then throw (.error .keyIsCorrupt)
    else do
      let secret ← ofExcept ((K.signingKey (s.take 32)).mapError fun _ => .error .couldNotReadKey)
      let _ ← EStateM.adaptExcept (Exn.map .legacyASN1) (asn1 (K.readTaggedBitvec 1))
      ofExcept ((K.newPrivateKey (.ed25519 (K.ed25519OfBytes secret))).mapError (.error ∘ .sshKey))
  else throw (.error .couldNotReadKey)

/-- `Encryption::key`, by its length. -/
def keyLength : Encryption → Nat
  | .aes128Cbc _ => 16
  | .aes256Cbc _ => 32

/-- `KeyDerivation::derive` -/
def derive (d : KeyDerivation) (password : Bytes) (n : Nat) :
    Except (Exn (Error K.Err)) {b : Bytes // b.length = n} :=
  (K.pbkdf2 password d.salt d.rounds.toUInt32 n).mapError fun _ => .error .invalidParameters

/-- `new_from_slices(key, iv).unwrap()` and `decrypt_padded_mut`. -/
def decryptCbc (n : Nat) (key iv ciphertext : Bytes) : Except (Exn (Error K.Err)) Bytes :=
  match K.newFromSlices n key iv with
  | none => .error .panic
  | some c => (K.decryptPadded c ciphertext).mapError (.error ∘ .unpad)

/-- `Encryption::decrypt` -/
def decryptWith (key : Bytes) (ciphertext : Bytes) :
    Encryption → Except (Exn (Error K.Err)) Bytes
  | .aes128Cbc iv => decryptCbc K 16 key iv.val ciphertext
  | .aes256Cbc iv => decryptCbc K 32 key iv.val ciphertext

/-- `Algorithms::decrypt` -/
def decrypt (d : KeyDerivation) (enc : Encryption) (password cipher : Bytes) :
    Except (Exn (Error K.Err)) Bytes := do
  let key ← derive K d password (keyLength enc)
  decryptWith K key.val cipher enc

/-- `asn1_read_pbkdf2` -/
def asn1ReadPbkdf2 : Reading K (Except (Error K.Err) KeyDerivation) :=
  readSequence do
    let salt ← asn1 K.readBytes
    let rounds ← asn1 K.readU64
    let digest : Except (Error K.Err) Unit ← readSequence do
      let oid ← asn1 K.readOid
      if oid = hmacSha256 then do
        asn1 K.readNull
        pure (.ok ())
      else pure (.error .invalidParameters)
    pure (digest.map fun _ => ⟨salt, rounds⟩)

/-- `asn1_read_aes256cbc` -/
def asn1ReadAes256cbc : Reading K (Except (Error K.Err) Encryption) := do
  let iv ← asn1 K.readBytes
  let i ← ofExcept (cloneFromSlice 16 iv)
  pure (.ok (.aes256Cbc i))

/-- The key generation algorithm, the first component of PBES2. -/
def asn1ReadKeygen : Reading K (Except (Error K.Err) KeyDerivation) :=
  readSequence do
    let oid ← asn1 K.readOid
    if oid = pbkdf2 then asn1ReadPbkdf2 K else pure (.error .invalidParameters)

/-- `asn1_read_pbes2` -/
def asn1ReadPbes2 : Reading K (Except (Error K.Err) (KeyDerivation × Encryption)) :=
  readSequence do
    let keygen ← asn1ReadKeygen K
    let algorithm ← readSequence do
      let oid ← asn1 K.readOid
      if oid = aes256cbc then asn1ReadAes256cbc K else pure (.error .invalidParameters)
    pure (keygen.bind fun keygen => algorithm.map fun algo => (keygen, algo))

/-- What the document is decrypted to. -/
def readEncrypted (pass : Bytes) : Reading K (Except (Error K.Err) Bytes) :=
  readSequence do
    let parameters ← readSequence do
      let oid ← asn1 K.readOid
      if oid = pbes2 then asn1ReadPbes2 K else pure (.error .invalidParameters)
    let ciphertext ← asn1 K.readBytes
    match parameters with
    | .ok (keygen, algo) => result (ofExcept (decrypt K keygen algo pass ciphertext))
    | .error e => pure (.error e)

/-- The encrypted document, decrypted. -/
def decryptDocument (ciphertext pass : Bytes) : Except (Exn (Error K.Err)) Bytes := do
  let secret ← parseDer ciphertext (readEncrypted K pass)
  secret.mapError .error

/-- The key of a document that is not encrypted. -/
def parseKey (secret : Bytes) : Except (Exn (Error K.Err)) K.PrivateKey := do
  let key ← parseDer secret (readSequence do
    let version ← asn1 K.readU64
    if version = 0 then pure (.error .couldNotReadKey)
    else if version = 1 then result (readKeyV1 K)
    else pure (.error .couldNotReadKey))
  key.mapError .error

/-- `pkcs8_legacy::decode_pkcs8` -/
def decodePkcs8 (ciphertext : Bytes) :
    Option Bytes → Except (Exn (Error K.Err)) K.PrivateKey
  | some pass => decryptDocument K ciphertext pass >>= parseKey K
  | none => parseKey K ciphertext

/-- The way to the initialization vector. -/
def ivPath : Reading K (Option Bytes) := do
  let _ ← asn1 K.enterSequence
  let _ ← asn1 K.enterSequence
  let oid ← asn1 K.readOid
  if oid = pbes2 then do
    let _ ← asn1 K.enterSequence
    let _ ← asn1ReadKeygen K
    let _ ← asn1 K.enterSequence
    let oid ← asn1 K.readOid
    if oid = aes256cbc then do
      let iv ← asn1 K.readBytes
      pure (some iv)
    else pure none
  else pure none

/-- The reader finds this initialization vector in the document's parameters. -/
def FindsIv (ciphertext iv : Bytes) : Prop :=
  ∃ t, ivPath K (K.berReader ciphertext) = .ok (some iv) t

end Pkcs8Legacy

/-- What the crates document: a cipher takes a key of its length and a vector of one block. -/
structure Crates.Documented (K : Crates) : Prop where
  newFromSlices_isSome : ∀ n key iv, n = 16 ∨ n = 32 → key.length = n → iv.length = 16 →
    (K.newFromSlices n key iv).isSome = true

section Returns

variable {ε σ α β : Type}

/-- The function ends with a value or with an error. -/
def Returns (m : EStateM (Exn ε) σ α) (s : σ) : Prop :=
  wp m (fun _ _ => True) (fun e _ => e.IsError) s

theorem returns_pure (a : α) (s : σ) : Returns (pure a : EStateM (Exn ε) σ α) s := trivial

theorem returns_throw (e : ε) (s : σ) : Returns (throw (.error e) : EStateM (Exn ε) σ α) s :=
  trivial

/-- What follows a function that returns starts where that one ended. -/
theorem returns_bind_of_returns {m : EStateM (Exn ε) σ α} {f : α → EStateM (Exn ε) σ β} {s : σ}
    (hm : Returns m s) : Returns (m >>= f) s ↔ ∀ a t, m s = .ok a t → Returns (f a) t := by
  simp only [Returns, wp_bind]
  simp only [Returns, wp] at hm ⊢
  cases h : m s with
  | ok a t =>
    constructor
    · rintro hf b u ⟨⟩
      exact hf
    · intro hf
      exact hf a t rfl
  | error e t =>
    rw [h] at hm
    constructor
    · rintro _ b u ⟨⟩
    · intro _
      exact hm

/-- What always returns does not matter. -/
theorem returns_bind_iff {m : EStateM (Exn ε) σ α} {f : α → EStateM (Exn ε) σ β} {s : σ}
    (hf : ∀ a t, Returns (f a) t) : Returns (m >>= f) s ↔ Returns m s := by
  have htrue (a : α) : wp (f a) (fun _ _ => True) (fun e _ => e.IsError) = fun _ : σ => True := by
    funext t
    exact eq_true (hf a t)
  simp only [Returns, wp_bind, htrue]

theorem returns_ite {c : Prop} [Decidable c] {m n : EStateM (Exn ε) σ α} {s : σ} :
    Returns (if c then m else n) s ↔ (c → Returns m s) ∧ (¬c → Returns n s) := by
  by_cases h : c
  · simp [h]
  · simp [h]

theorem returns_ofExcept {x : Except (Exn ε) α} {s : σ} :
    Returns (ofExcept x : EStateM (Exn ε) σ α) s ↔
      wpExcept x (fun _ => True) Exn.IsError := by
  simp [Returns]

theorem isError_mapError {ε' : Type} {x : Except ε' α} (f : ε' → ε) :
    wpExcept (x.mapError fun e => Exn.error (f e)) (fun _ => True) Exn.IsError := by
  rw [wpExcept_mapError, wpExcept_iff]
  exact ⟨fun _ _ => trivial, fun _ _ => trivial⟩

theorem isError_error (x : Except ε α) :
    wpExcept (x.mapError Exn.error) (fun _ => True) Exn.IsError :=
  isError_mapError id

/-- What always ends in a value or an error does not matter. -/
theorem isError_bind_iff {x : Except (Exn ε) α} {f : α → Except (Exn ε) β}
    (hf : ∀ a, wpExcept (f a) (fun _ => True) Exn.IsError) :
    wpExcept (x >>= f) (fun _ => True) Exn.IsError ↔
      wpExcept x (fun _ => True) Exn.IsError := by
  simp only [wpExcept_bind, hf]

theorem returns_adaptExcept {ε' : Type} (f : ε → ε') {m : EStateM (Exn ε) σ α} {s : σ} :
    Returns (EStateM.adaptExcept (Exn.map f) m) s ↔ Returns m s := by
  simp only [Returns, wp, EStateM.adaptExcept]
  cases m s with
  | ok a t => exact Iff.rfl
  | error e t => exact Exn.isError_map f e

end Returns

namespace Pkcs8Legacy

section Reader

variable {K : Crates} {α : Type}

theorem returns_asn1 (call : K.BerReader → EStateM.Result K.Err K.BerReader α)
    (s : K.BerReader) : Returns (asn1 call) s := by
  simp only [Returns, wp, asn1]
  cases call s with
  | ok a t => exact trivial
  | error e t => exact trivial

theorem asn1_eq_ok {call : K.BerReader → EStateM.Result K.Err K.BerReader α}
    {s t : K.BerReader} {a : α} : asn1 call s = .ok a t ↔ call s = .ok a t := by
  simp only [asn1]
  cases call s with
  | ok b u => simp
  | error e u => simp

theorem returns_readSequence {m : Reading K α} {s : K.BerReader} :
    Returns (readSequence m) s ↔
      ∀ outer t, K.enterSequence s = .ok outer t → Returns m t := by
  have hend (outer : K.BerReader) (a : α) (t : K.BerReader) :
      Returns (do asn1 (K.leaveSequence outer); pure a) t := by
    rw [returns_bind_iff fun _ _ => returns_pure _ _]
    exact returns_asn1 _ t
  rw [readSequence, returns_bind_of_returns (returns_asn1 _ s)]
  simp only [asn1_eq_ok, returns_bind_iff (hend _)]

theorem returns_result {m : EStateM (Exn (Error K.Err)) K.BerReader α} {s : K.BerReader} :
    Returns (result m) s ↔ Returns m s := by
  simp only [Returns, wp, result]
  cases m s with
  | ok a t => exact Iff.rfl
  | error e t =>
    cases e with
    | error e => exact Iff.rfl
    | panic => exact Iff.rfl

theorem parseDer_isError_iff {bytes : Bytes} {m : Reading K α} :
    wpExcept (parseDer bytes m) (fun _ => True) Exn.IsError ↔ Returns m (K.berReader bytes) := by
  have hend (a : α) (t : K.BerReader) : Returns (do asn1 K.endOfBuf; pure a) t := by
    rw [returns_bind_iff fun _ _ => returns_pure _ _]
    exact returns_asn1 _ t
  rw [← returns_bind_iff hend]
  simp only [parseDer, Returns, wp]
  split
  · rename_i a t h
    rw [h]
    exact Iff.rfl
  · rename_i e t h
    rw [h]
    exact Exn.isError_map _ e

end Reader

section Document

variable {K : Crates}

theorem returns_asn1ReadPbkdf2 (s : K.BerReader) : Returns (asn1ReadPbkdf2 K) s := by
  rw [asn1ReadPbkdf2, returns_readSequence]
  intro outer t _
  rw [returns_bind_of_returns (returns_asn1 _ t)]
  intro salt u _
  rw [returns_bind_of_returns (returns_asn1 _ u)]
  intro rounds v _
  rw [returns_bind_iff fun _ _ => returns_pure _ _, returns_readSequence]
  intro outer w _
  rw [returns_bind_of_returns (returns_asn1 _ w)]
  intro oid x _
  rw [returns_ite]
  constructor
  · intro _
    rw [returns_bind_iff fun _ _ => returns_pure _ _]
    exact returns_asn1 _ x
  · intro _
    exact returns_pure _ x

theorem returns_asn1ReadKeygen (s : K.BerReader) : Returns (asn1ReadKeygen K) s := by
  rw [asn1ReadKeygen, returns_readSequence]
  intro outer t _
  rw [returns_bind_of_returns (returns_asn1 _ t)]
  intro oid u _
  rw [returns_ite]
  constructor
  · intro _
    exact returns_asn1ReadPbkdf2 u
  · intro _
    exact returns_pure _ u

/-- The vector is copied, which panics unless it has the right length. -/
theorem returns_asn1ReadAes256cbc (s : K.BerReader) :
    Returns (asn1ReadAes256cbc K) s ↔ ∀ iv t, K.readBytes s = .ok iv t → iv.length = 16 := by
  rw [asn1ReadAes256cbc, returns_bind_of_returns (returns_asn1 _ s)]
  simp only [asn1_eq_ok]
  have hcopy (iv : Bytes) (t : K.BerReader) :
      Returns (do
        let i ← ofExcept (cloneFromSlice 16 iv)
        pure (.ok (.aes256Cbc i)) : Reading K (Except (Error K.Err) Encryption)) t ↔
        iv.length = 16 := by
    rw [returns_bind_iff fun _ _ => returns_pure _ _]
    by_cases h : iv.length = 16
    · simp [Returns, cloneFromSlice, h]
    · simp [Returns, cloneFromSlice, h]
  simp only [hcopy]

/-- The parameters are read without a panic unless the copy of the vector panics. -/
theorem returns_asn1ReadPbes2 (s : K.BerReader) :
    Returns (asn1ReadPbes2 K) s ↔
      ∀ outer t, K.enterSequence s = .ok outer t →
        ∀ keygen u, asn1ReadKeygen K t = .ok keygen u →
          ∀ outer' v, K.enterSequence u = .ok outer' v →
            ∀ w, K.readOid v = .ok aes256cbc w →
              ∀ iv x, K.readBytes w = .ok iv x → iv.length = 16 := by
  rw [asn1ReadPbes2, returns_readSequence]
  have hbody (t : K.BerReader) :
      Returns (do
        let keygen ← asn1ReadKeygen K
        let algorithm ← readSequence do
          let oid ← asn1 K.readOid
          if oid = aes256cbc then asn1ReadAes256cbc K else pure (.error .invalidParameters)
        pure (keygen.bind fun keygen => algorithm.map fun algo => (keygen, algo))) t ↔
      ∀ keygen u, asn1ReadKeygen K t = .ok keygen u →
        ∀ outer' v, K.enterSequence u = .ok outer' v →
          ∀ w, K.readOid v = .ok aes256cbc w →
            ∀ iv x, K.readBytes w = .ok iv x → iv.length = 16 := by
    rw [returns_bind_of_returns (returns_asn1ReadKeygen t)]
    have halgorithm (keygen : Except (Error K.Err) KeyDerivation) (u : K.BerReader) :
        Returns (do
          let algorithm ← readSequence do
            let oid ← asn1 K.readOid
            if oid = aes256cbc then asn1ReadAes256cbc K else pure (.error .invalidParameters)
          pure (keygen.bind fun keygen => algorithm.map fun algo => (keygen, algo))) u ↔
        ∀ outer' v, K.enterSequence u = .ok outer' v →
          ∀ w, K.readOid v = .ok aes256cbc w →
            ∀ iv x, K.readBytes w = .ok iv x → iv.length = 16 := by
      rw [returns_bind_iff fun _ _ => returns_pure _ _, returns_readSequence]
      have hoid (v : K.BerReader) :
          Returns (do
            let oid ← asn1 K.readOid
            if oid = aes256cbc then asn1ReadAes256cbc K else pure (.error .invalidParameters)) v ↔
          ∀ w, K.readOid v = .ok aes256cbc w →
            ∀ iv x, K.readBytes w = .ok iv x → iv.length = 16 := by
        rw [returns_bind_of_returns (returns_asn1 _ v)]
        simp only [asn1_eq_ok, returns_ite, returns_asn1ReadAes256cbc, returns_pure, implies_true,
          and_true]
        constructor
        · intro h w hw
          exact h _ w hw rfl
        · rintro h oid w hw rfl
          exact h w hw
      simp only [hoid]
    simp only [halgorithm]
  simp only [hbody]

/-- The way goes on with the one identifier only. -/
theorem readOid_some_iff {oid : Oid} {m : Reading K (Option Bytes)} {s t : K.BerReader}
    {iv : Bytes} :
    (do let found ← asn1 K.readOid; if found = oid then m else pure none : Reading K _) s =
        .ok (some iv) t ↔
      ∃ u, K.readOid s = .ok oid u ∧ m u = .ok (some iv) t := by
  simp only [bind_eq_ok', asn1_eq_ok]
  constructor
  · rintro ⟨found, u, hu, hrest⟩
    by_cases h : found = oid
    · subst h
      rw [if_pos rfl] at hrest
      exact ⟨u, hu, hrest⟩
    · rw [if_neg h] at hrest
      cases hrest
  · rintro ⟨u, hu, hrest⟩
    refine ⟨oid, u, hu, ?_⟩
    rw [if_pos rfl]
    exact hrest

theorem ivPath_eq_some_iff {s x : K.BerReader} {iv : Bytes} :
    ivPath K s = .ok (some iv) x ↔
      ∃ o₁ s₁, K.enterSequence s = .ok o₁ s₁ ∧ ∃ o₂ s₂, K.enterSequence s₁ = .ok o₂ s₂ ∧
        ∃ s₃, K.readOid s₂ = .ok pbes2 s₃ ∧ ∃ o₃ s₄, K.enterSequence s₃ = .ok o₃ s₄ ∧
        ∃ keygen s₅, asn1ReadKeygen K s₄ = .ok keygen s₅ ∧
        ∃ o₄ s₆, K.enterSequence s₅ = .ok o₄ s₆ ∧
        ∃ s₇, K.readOid s₆ = .ok aes256cbc s₇ ∧ K.readBytes s₇ = .ok iv x := by
  have hread (s : K.BerReader) :
      (do let iv ← asn1 K.readBytes; pure (some iv) : Reading K (Option Bytes)) s =
        .ok (some iv) x ↔ K.readBytes s = .ok iv x := by
    simp only [bind_eq_ok', asn1_eq_ok]
    constructor
    · rintro ⟨b, u, hu, ⟨⟩⟩
      exact hu
    · intro h
      exact ⟨iv, x, h, rfl⟩
  rw [ivPath]
  simp only [bind_eq_ok' (m := asn1 K.enterSequence), bind_eq_ok' (m := asn1ReadKeygen K),
    asn1_eq_ok, readOid_some_iff, hread]

variable (hK : K.Documented)
include hK

theorem decryptCbc_isError {n : Nat} {key iv : Bytes} (hn : n = 16 ∨ n = 32)
    (hkey : key.length = n) (hiv : iv.length = 16) (ciphertext : Bytes) :
    wpExcept (decryptCbc K n key iv ciphertext) (fun _ => True) Exn.IsError := by
  obtain ⟨c, hc⟩ := Option.isSome_iff_exists.mp (hK.newFromSlices_isSome n key iv hn hkey hiv)
  rw [decryptCbc, hc]
  exact isError_mapError (x := K.decryptPadded c ciphertext) Error.unpad

/-- Decryption is given a key of the length that the cipher takes. -/
theorem decrypt_isError (d : KeyDerivation) (enc : Encryption) (password cipher : Bytes) :
    wpExcept (decrypt K d enc password cipher) (fun _ => True) Exn.IsError := by
  rw [decrypt, wpExcept_bind, derive, wpExcept_mapError, wpExcept_iff]
  constructor
  · intro key _
    cases enc with
    | aes128Cbc iv => exact decryptCbc_isError hK (.inl rfl) key.property iv.property cipher
    | aes256Cbc iv => exact decryptCbc_isError hK (.inr rfl) key.property iv.property cipher
  · intro e _
    exact trivial

theorem returns_decrypt (d : KeyDerivation) (enc : Encryption) (password cipher : Bytes)
    (s : K.BerReader) : Returns (result (ofExcept (decrypt K d enc password cipher))) s := by
  rw [returns_result, returns_ofExcept]
  exact decrypt_isError hK d enc password cipher

/-- Reading the encrypted document panics where it finds a vector of another length. -/
theorem returns_readEncrypted (pass : Bytes) (s : K.BerReader) :
    Returns (readEncrypted K pass) s ↔
      ∀ iv t, ivPath K s = .ok (some iv) t → iv.length = 16 := by
  rw [readEncrypted, returns_readSequence]
  have htail (parameters : Except (Error K.Err) (KeyDerivation × Encryption)) (t : K.BerReader) :
      Returns (do
        let ciphertext ← asn1 K.readBytes
        match parameters with
        | .ok (keygen, algo) => result (ofExcept (decrypt K keygen algo pass ciphertext))
        | .error e => pure (.error e)) t := by
    rw [returns_bind_of_returns (returns_asn1 _ t)]
    intro ciphertext u _
    cases parameters with
    | ok p => exact returns_decrypt hK p.1 p.2 pass ciphertext u
    | error e => exact returns_pure _ u
  have hoid (t : K.BerReader) :
      Returns (do
        let oid ← asn1 K.readOid
        if oid = pbes2 then asn1ReadPbes2 K else pure (.error .invalidParameters)) t ↔
      ∀ u, K.readOid t = .ok pbes2 u → Returns (asn1ReadPbes2 K) u := by
    rw [returns_bind_of_returns (returns_asn1 _ t)]
    simp only [asn1_eq_ok, returns_ite, returns_pure, implies_true, and_true]
    constructor
    · intro h u hu
      exact h _ u hu rfl
    · rintro h oid u hu rfl
      exact h u hu
  simp only [returns_bind_iff htail, returns_readSequence, hoid, returns_asn1ReadPbes2]
  constructor
  · intro h iv t hiv
    obtain ⟨o₁, s₁, h₁, o₂, s₂, h₂, s₃, h₃, o₃, s₄, h₄, keygen, s₅, h₅, o₄, s₆, h₆, s₇, h₇, h₈⟩ :=
      ivPath_eq_some_iff.mp hiv
    exact h o₁ s₁ h₁ o₂ s₂ h₂ s₃ h₃ o₃ s₄ h₄ keygen s₅ h₅ o₄ s₆ h₆ s₇ h₇ iv t h₈
  · intro h o₁ s₁ h₁ o₂ s₂ h₂ s₃ h₃ o₃ s₄ h₄ keygen s₅ h₅ o₄ s₆ h₆ s₇ h₇ iv t h₈
    apply h iv t
    rw [ivPath_eq_some_iff]
    exact ⟨o₁, s₁, h₁, o₂, s₂, h₂, s₃, h₃, o₃, s₄, h₄, keygen, s₅, h₅, o₄, s₆, h₆, s₇, h₇, h₈⟩

omit hK in
theorem returns_readKeyV1 (s : K.BerReader) : Returns (readKeyV1 K) s := by
  have hoid : Returns (readSequence (asn1 K.readOid)) s := by
    rw [returns_readSequence]
    intro outer t _
    exact returns_asn1 _ t
  rw [readKeyV1, returns_bind_of_returns ((returns_adaptExcept _).mpr hoid)]
  intro oid t _
  rw [returns_ite]
  refine ⟨fun _ => ?_, fun _ => returns_throw _ t⟩
  rw [returns_bind_of_returns ((returns_adaptExcept _).mpr (returns_asn1 _ t))]
  intro bytes u _
  have hinner : wpExcept (parseDer bytes (asn1 K.readBytes)) (fun _ => True) Exn.IsError := by
    rw [parseDer_isError_iff]
    exact returns_asn1 _ _
  rw [returns_bind_of_returns (returns_ofExcept.mpr hinner)]
  intro b v _
  rw [returns_ite]
  refine ⟨fun _ => returns_throw _ v, fun _ => ?_⟩
  rw [returns_bind_of_returns (returns_ofExcept.mpr (isError_mapError _))]
  intro secret w _
  rw [returns_bind_of_returns ((returns_adaptExcept _).mpr (returns_asn1 _ w))]
  intro _ x _
  rw [returns_ofExcept]
  exact isError_mapError _

omit hK in
theorem parseKey_isError (secret : Bytes) :
    wpExcept (parseKey K secret) (fun _ => True) Exn.IsError := by
  rw [parseKey, isError_bind_iff isError_error, parseDer_isError_iff,
    returns_readSequence]
  intro outer t _
  rw [returns_bind_of_returns (returns_asn1 _ t)]
  intro version u _
  rw [returns_ite, returns_ite, returns_result]
  refine ⟨fun _ => returns_pure _ u, fun _ => ⟨fun _ => returns_readKeyV1 u, fun _ => ?_⟩⟩
  exact returns_pure _ u

/-- The parser panics where a passphrase is given and the document's vector has another length. -/
theorem decodePkcs8_isError_iff (ciphertext : Bytes) (password : Option Bytes) :
    wpExcept (decodePkcs8 K ciphertext password) (fun _ => True) Exn.IsError ↔
      (password.isSome = true → ∀ iv, FindsIv K ciphertext iv → iv.length = 16) := by
  cases password with
  | none =>
    rw [decodePkcs8]
    simp [parseKey_isError]
  | some pass =>
    rw [decodePkcs8, isError_bind_iff parseKey_isError, decryptDocument,
      isError_bind_iff isError_error, parseDer_isError_iff,
      returns_readEncrypted hK]
    constructor
    · rintro h - iv ⟨t, ht⟩
      exact h iv t ht
    · intro h iv t ht
      exact h rfl iv ⟨t, ht⟩

end Document

end Pkcs8Legacy

end Edgessh.Russh.Keys.Format
