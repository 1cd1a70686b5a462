import Edgessh.Lib.Command
import Edgessh.Russh.Keys.Agent.Server

/-!
# The agent client

`keys/agent/client.rs`. Every method of `AgentClient` builds its message behind a placeholder of
four bytes for the length, fills the placeholder in, writes the buffer and waits for a response.
Two kinds of messages leave the placeholder as it is.
-/

namespace Edgessh.Russh.Keys.Agent
open Edgessh.Run Edgessh.Command

inductive HashAlg where
  | sha256
  | sha512
  deriving DecidableEq, Repr

/-- A public key: its encoded key data, and whether its algorithm is RSA. -/
structure PublicKey where
  keyData : Bytes
  isRsa : Bool
  deriving DecidableEq, Repr

/-- The requests of the client. -/
inductive Request (K : KeyCrate) where
  | addIdentity (key : K.Keypair) (constraints : List Constraint)
  | addSmartcardKey (id pin : Bytes) (constraints : List Constraint)
  | lock (passphrase : Bytes)
  | unlock (passphrase : Bytes)
  | requestIdentities
  /-- `sign_request`, `sign_request_base64` and `sign_request_signature` -/
  | signRequest (keyData data : Bytes) (hash : UInt32)
  | removeIdentity (keyData : Bytes)
  | removeSmartcardKey (id pin : Bytes)
  | removeAllIdentities
  | extension (typ ext : Bytes)
  | queryExtension (typ : Bytes)

/-- The request that the three methods to sign make of their arguments. -/
def prepareSignRequest {K : KeyCrate} (publicKey : PublicKey) (hashAlg : Option HashAlg)
    (data : Bytes) : Request K :=
  .signRequest publicKey.keyData data <|
    if publicKey.isRsa then
      match hashAlg with
      | some .sha256 => 2
      | some .sha512 => 4
      | none => 0
    else 0

def Constraint.encode : Constraint → Except EncodingError Bytes
  | keyLifetime seconds => .ok (Msg.constrainLifetime :: encodeU32 seconds.toNat)
  | confirm => .ok [Msg.constrainConfirm]
  | extensions name details => do
    let name ← encodeField name
    let details ← encodeField details
    .ok (Msg.constrainExtension :: (name ++ details))

def encodeConstraints : List Constraint → Except EncodingError Bytes
  | [] => .ok []
  | c :: cs => do
    let c ← c.encode
    let cs ← encodeConstraints cs
    .ok (c ++ cs)

namespace Request

variable {K : KeyCrate}

/-- The first byte of the message. -/
def code : Request K → UInt8
  | addIdentity _ constraints =>
    if constraints.isEmpty then Msg.addIdentity else Msg.addIdConstrained
  | addSmartcardKey _ _ constraints =>
    if constraints.isEmpty then Msg.addSmartcardKey else Msg.addSmartcardKeyConstrained
  | lock _ => Msg.lock
  | unlock _ => Msg.unlock
  | requestIdentities => Msg.requestIdentities
  | signRequest .. => Msg.signRequest
  | removeIdentity _ => Msg.removeIdentity
  | removeSmartcardKey .. => Msg.removeSmartcardKey
  | removeAllIdentities => Msg.removeAllIdentities
  | extension .. => Msg.extension
  | queryExtension _ => Msg.extension

/-- The rest of the message. -/
def arguments : Request K → Except EncodingError Bytes
  | addIdentity key constraints => do
    let key ← K.encode key
    let comment ← encodeField []
    let constraints ← encodeConstraints constraints
    .ok (key ++ (comment ++ constraints))
  | addSmartcardKey id pin constraints => do
    let id ← encodeField id
    let pin ← encodeField pin
    let encoded ← encodeConstraints constraints
    .ok (id ++ (pin ++ if constraints.isEmpty then [] else encodeU32 constraints.length ++ encoded))
  | lock passphrase => encodeField passphrase
  | unlock passphrase => encodeField passphrase
  | requestIdentities => .ok []
  | signRequest keyData data hash => do
    let keyData ← encodeField keyData
    let data ← encodeField data
    .ok (keyData ++ (data ++ encodeU32 hash.toNat))
  | removeIdentity keyData => encodeField keyData
  | removeSmartcardKey id pin => do
    let id ← encodeField id
    let pin ← encodeField pin
    .ok (id ++ pin)
  | removeAllIdentities => .ok (encodeU32 1)
  | extension typ ext => do
    let typ ← encodeField typ
    let ext ← encodeField ext
    .ok (typ ++ ext)
  | queryExtension typ => encodeField typ

/-- What is written behind the placeholder. -/
def message (r : Request K) : Except EncodingError Bytes := do
  let arguments ← r.arguments
  .ok (r.code :: arguments)

/-- The buffer once the message is complete: in most methods the length is written over the
placeholder, in `remove_all_identities` it is not written, and in `extension` and
`query_extension` it is written after the message. -/
def finish (r : Request K) (message : Bytes) : Bytes :=
  match r with
  | removeAllIdentities => [0, 0, 0, 0] ++ message
  | extension .. | queryExtension _ => [0, 0, 0, 0] ++ (message ++ encodeU32 message.length)
  | _ => frame message

/-- The bytes that are written to the stream; an error is returned before anything is written. -/
def written (r : Request K) : Except EncodingError Bytes := do
  let message ← r.message
  .ok (r.finish message)

/-- The placeholder is filled in. -/
def isPatched : Request K → Bool
  | removeAllIdentities | extension .. | queryExtension _ => false
  | _ => true

end Request

section Framing

theorem readMessage_frame {message : Bytes} (hlt : message.length < 2 ^ 32) (rest : Bytes) :
    readMessage (frame message ++ rest) = some (message, rest) := by
  rw [readMessage, frame, List.append_assoc, decodeU32_encodeU32, Nat.mod_eq_of_lt hlt]
  show (if message.length ≤ (message ++ rest).length then _ else _) = _
  rw [if_pos (by simp), List.take_left, List.drop_left]

theorem message_ne_nil {K : KeyCrate} {r : Request K} {message : Bytes}
    (h : r.message = .ok message) : message ≠ [] := by
  unfold Request.message at h
  cases ha : r.arguments with
  | error e =>
    rw [ha] at h
    cases h
  | ok a =>
    rw [ha] at h
    cases h
    exact List.cons_ne_nil _ _

theorem Request.written_of_message {K : KeyCrate} {r : Request K} {message : Bytes}
    (h : r.message = .ok message) : r.written = .ok (r.finish message) := by
  rw [Request.written, h]
  rfl

theorem decodeU32_zero (bytes : Bytes) : decodeU32 ([0, 0, 0, 0] ++ bytes) = .ok (0, bytes) := rfl

theorem Request.finish_of_isPatched {K : KeyCrate} {r : Request K} (message : Bytes)
    (h : r.isPatched = true) : r.finish message = frame message := by
  cases r with
  | removeAllIdentities => cases h
  | extension typ ext => cases h
  | queryExtension typ => cases h
  | _ => rfl

theorem readMessage_nil : readMessage [] = none := rfl

theorem readMessage_frame_nil {message : Bytes} (hlt : message.length < 2 ^ 32) :
    readMessage (frame message) = some (message, []) := by
  have h := readMessage_frame hlt []
  rwa [List.append_nil] at h

end Framing

/-- The constraints that the agent knows. -/
def Constraint.isKnown : Constraint → Bool
  | extensions _ _ => false
  | _ => true

section Constraints

variable {cs : List Constraint} {r : Bytes}

theorem encodeConstraints_cons {c : Constraint} {cs : List Constraint} {x : Bytes}
    (h : encodeConstraints (c :: cs) = .ok x) :
    ∃ y z, c.encode = .ok y ∧ encodeConstraints cs = .ok z ∧ x = y ++ z := by
  obtain ⟨y, hy, h⟩ := bind_eq_ok.mp h
  obtain ⟨z, hz, h⟩ := bind_eq_ok.mp h
  exact ⟨y, z, hy, hz, (Except.ok.inj h).symm⟩

theorem encodeU32_u32OfBytes (a b c d : UInt8) : encodeU32 (u32OfBytes a b c d) = [a, b, c, d] := by
  have ha := a.toNat_lt
  have hb := b.toNat_lt
  have hc := c.toNat_lt
  have hd := d.toNat_lt
  simp only [encodeU32, u32OfBytes, List.cons.injEq, ← UInt8.toNat_inj, UInt8.toNat_ofNat']
  refine ⟨?_, ?_, ?_, ?_, trivial⟩
  · omega
  · omega
  · omega
  · omega

theorem parseConstraints_lifetime (seconds : UInt32) (r : Bytes) :
    parseConstraints (Msg.constrainLifetime :: (encodeU32 seconds.toNat ++ r)) =
      (.keyLifetime seconds :: (parseConstraints r).1, (parseConstraints r).2) := by
  have hdec := decodeU32_encodeU32 seconds.toNat r
  rw [Nat.mod_eq_of_lt seconds.toNat_lt] at hdec
  simp only [encodeU32, List.cons_append, List.nil_append, decodeU32, Except.ok.injEq,
    Prod.mk.injEq, and_true] at hdec ⊢
  rw [parseConstraints, if_pos rfl, hdec, UInt32.ofNat_toNat]

theorem parseConstraints_confirm (r : Bytes) :
    parseConstraints (Msg.constrainConfirm :: r) =
      (.confirm :: (parseConstraints r).1, (parseConstraints r).2) := by
  conv_lhs => unfold parseConstraints
  rw [if_neg (by decide), if_pos rfl]

/-- A list of known constraints is read back. -/
theorem parseConstraints_of_encode (h : encodeConstraints cs = .ok r)
    (hknown : ∀ c ∈ cs, c.isKnown = true) : parseConstraints r = (cs, some true) := by
  induction cs generalizing r with
  | nil =>
    cases h
    rfl
  | cons c cs ih =>
    obtain ⟨y, z, hy, hz, rfl⟩ := encodeConstraints_cons h
    have hrest := ih hz fun c' hc' => hknown c' (List.mem_cons_of_mem c hc')
    cases c with
    | keyLifetime seconds =>
      cases hy
      rw [List.cons_append, parseConstraints_lifetime, hrest]
    | confirm =>
      cases hy
      rw [List.cons_append, List.nil_append, parseConstraints_confirm, hrest]
    | extensions name details =>
      have hfalse : (Constraint.extensions name details).isKnown = true :=
        hknown _ List.mem_cons_self
      cases hfalse

/-- What is read to its end is a list of known constraints. -/
theorem encode_of_parseConstraints (h : parseConstraints r = (cs, some true)) :
    encodeConstraints cs = .ok r ∧ ∀ c ∈ cs, c.isKnown = true := by
  induction r using parseConstraints.induct generalizing cs with
  | case1 =>
    cases h
    exact ⟨rfl, nofun⟩
  | case2 a b c d r cs' ok hr ih =>
    rw [parseConstraints, if_pos rfl, hr] at h
    obtain ⟨rfl, rfl⟩ := Prod.mk.inj h
    obtain ⟨hcs, hknown⟩ := ih hr
    constructor
    · have hlt : u32OfBytes a b c d < 2 ^ 32 := u32OfBytes_lt a b c d
      simp only [encodeConstraints, Constraint.encode, hcs, UInt32.toNat_ofNat',
        Nat.mod_eq_of_lt hlt, encodeU32_u32OfBytes]
      rfl
    · exact List.forall_mem_cons.mpr ⟨rfl, hknown⟩
  | case3 r hshort =>
    rw [parseConstraints, if_pos rfl] at h
    · cases h
    · exact hshort
  | case4 r cs' ok hr hne ih =>
    rw [parseConstraints_confirm, hr] at h
    obtain ⟨rfl, rfl⟩ := Prod.mk.inj h
    obtain ⟨hcs, hknown⟩ := ih hr
    constructor
    · simp only [encodeConstraints, Constraint.encode, hcs]
      rfl
    · exact List.forall_mem_cons.mpr ⟨rfl, hknown⟩
  | case5 t r hlifetime hconfirm =>
    unfold parseConstraints at h
    rw [if_neg hlifetime, if_neg hconfirm] at h
    cases h

theorem parseConstraints_done_iff :
    (parseConstraints r).2 = some true ↔
      ∃ cs, encodeConstraints cs = .ok r ∧ ∀ c ∈ cs, c.isKnown = true := by
  constructor
  · intro h
    exact ⟨(parseConstraints r).1, encode_of_parseConstraints (Prod.ext rfl h)⟩
  · rintro ⟨cs, hcs, hknown⟩
    rw [parseConstraints_of_encode hcs hknown]

end Constraints

end Edgessh.Russh.Keys.Agent
