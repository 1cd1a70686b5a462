import Edgessh.Russh.Keys.Agent.Answers

/-!
# Signatures of the agent

`sign_request` asks for a hash with the flags of the request, and `write_signature` accepts only a
signature that is made with it. `try_sign` does not read the flags: it signs with an RSA key as if
none had been asked for. What the client returns is right for all the other requests.
-/

namespace Edgessh.Russh.Keys.Agent

/-- What `ssh_key` documents of signatures. -/
structure Signing (K : KeyCrate) where
  isRsa : K.Keypair → Bool
  /-- The name of the algorithm of a key that is not RSA. -/
  algorithm : K.Keypair → Bytes
  /-- The signature is one of the data under the key, with the algorithm of this name. -/
  verifies : K.Keypair → Bytes → Bytes → Bytes → Prop
  algorithm_utf8 : ∀ key, validUtf8 (algorithm key) = true
  /-- A signature is encoded behind the name of its algorithm, and verifies. For RSA without a hash
  this is `ssh-rsa`. -/
  sign_eq : ∀ key data signature, K.sign key data = some signature →
    ∃ sig, signature =
        encodeBytes (if isRsa key then ascii "ssh-rsa" else algorithm key) ++ encodeBytes sig ∧
      verifies key (if isRsa key then ascii "ssh-rsa" else algorithm key) data sig

/-- The name of the algorithm that a key and a hash select, as `with_hash_alg` has it. -/
def Signing.name {K : KeyCrate} (S : Signing K) (key : K.Keypair) (hashAlg : Option HashAlg) :
    Bytes :=
  if S.isRsa key then
    match hashAlg with
    | some .sha256 => ascii "rsa-sha2-256"
    | some .sha512 => ascii "rsa-sha2-512"
    | none => ascii "ssh-rsa"
  else S.algorithm key

/-- The flags of a request, which `prepare_sign_request` returns. -/
def signFlags (publicKey : PublicKey) (hashAlg : Option HashAlg) : UInt32 :=
  if publicKey.isRsa then
    match hashAlg with
    | some .sha256 => 2
    | some .sha512 => 4
    | none => 0
  else 0

/-- The lengths have been read, so their sum fits a `u32`. -/
def writeSignature (r : Bytes) (hash : UInt32) (data : Bytes) : Except ClientError Bytes :=
  match decodeBytes r with
  | .error e => .error (.encoding e)
  | .ok (resp, _) =>
    match decodeString resp with
    | .error e => .error (.encoding e)
    | .ok (t, resp) =>
      if (hash = 2 ∧ t = ascii "rsa-sha2-256") ∨ (hash = 4 ∧ t = ascii "rsa-sha2-512") ∨
          hash = 0 then
        match decodeBytes resp with
        | .error e => .error (.encoding e)
        | .ok (sig, _) =>
          .ok (data ++ (encodeU32 (t.length + sig.length + 8) ++ (encodeBytes t ++
            encodeBytes sig)))
      else .error .agentProtocolError

/-- `sign_request`, with an agent that answers. -/
def signRequest (K : KeyCrate) (serve : Bytes → Option Bytes) (publicKey : PublicKey)
    (hashAlg : Option HashAlg) (data : Bytes) : Except ClientError Bytes :=
  match readResponse (prepareSignRequest publicKey hashAlg data : Request K) serve with
  | .error e => .error e
  | .ok message =>
    match message with
    | [] => .error .agentProtocolError
    | b :: r =>
      if b = Msg.signResponse then writeSignature r (signFlags publicKey hashAlg) data
      else if b = Msg.failure then .error .agentFailure
      else .error .agentProtocolError

/-- The data and a signature of the algorithm that was asked for. -/
def Yields {K : KeyCrate} (S : Signing K) (key : K.Keypair) (hashAlg : Option HashAlg)
    (data : Bytes) (result : Except ClientError Bytes) : Prop :=
  ∃ sig, result =
      .ok (data ++ encodeBytes (encodeBytes (S.name key hashAlg) ++ encodeBytes sig)) ∧
    S.verifies key (S.name key hashAlg) data sig

section Sign

variable {K : KeyCrate} {isLocked : Bool} {env : Surroundings} {s : Shared K}
  {publicKey : PublicKey} {hashAlg : Option HashAlg} {data : Bytes}

/-- What is written behind the first byte of the request. -/
def signArguments (publicKey : PublicKey) (hashAlg : Option HashAlg) (data : Bytes) : Bytes :=
  encodeBytes publicKey.keyData ++
    (encodeBytes data ++ encodeU32 (signFlags publicKey hashAlg).toNat)

theorem prepareSignRequest_message (hkey : publicKey.keyData.length < 2 ^ 32)
    (hdata : data.length < 2 ^ 32) :
    (prepareSignRequest publicKey hashAlg data : Request K).message =
      .ok (Msg.signRequest :: signArguments publicKey hashAlg data) := by
  have hflags : (prepareSignRequest publicKey hashAlg data : Request K) =
      .signRequest publicKey.keyData data (signFlags publicKey hashAlg) := rfl
  rw [hflags]
  simp only [Request.message, Request.arguments, encodeField, if_pos hkey, if_pos hdata, bind,
    Except.bind, Request.code, signArguments]

/-- The fields fit. -/
theorem prepareSignRequest_fits {message : Bytes}
    (h : (prepareSignRequest publicKey hashAlg data : Request K).message = .ok message) :
    publicKey.keyData.length < 2 ^ 32 ∧ data.length < 2 ^ 32 ∧
      message = Msg.signRequest :: signArguments publicKey hashAlg data := by
  obtain ⟨arguments, harguments, hmessage⟩ := Edgessh.Command.bind_eq_ok.mp h
  obtain ⟨x, hx, harguments⟩ := Edgessh.Command.bind_eq_ok.mp harguments
  obtain ⟨y, hy, -⟩ := Edgessh.Command.bind_eq_ok.mp harguments
  have hkey := (encodeField_eq_ok.mp hx).1
  have hdata := (encodeField_eq_ok.mp hy).1
  rw [prepareSignRequest_message hkey hdata] at h
  exact ⟨hkey, hdata, (Except.ok.inj h).symm⟩

theorem writeSignature_of_decode {r resp rest t resp' sig rest' : Bytes}
    (hr : decodeBytes r = .ok (resp, rest)) (ht : decodeString resp = .ok (t, resp'))
    (hsig : decodeBytes resp' = .ok (sig, rest')) :
    writeSignature r 0 data =
      .ok (data ++ (encodeU32 (t.length + sig.length + 8) ++ (encodeBytes t ++
        encodeBytes sig))) := by
  unfold writeSignature
  rw [hr]
  dsimp only
  rw [ht]
  dsimp only
  rw [if_pos (.inr (.inr rfl)), hsig]

/-- A signature for which no hash has been asked is accepted. -/
theorem writeSignature_of_name {name sig : Bytes} (hutf8 : validUtf8 name = true)
    (hlength : (encodeBytes name ++ encodeBytes sig).length ≤ maxSize) :
    writeSignature (encodeBytes (encodeBytes name ++ encodeBytes sig)) 0 data =
      .ok (data ++ encodeBytes (encodeBytes name ++ encodeBytes sig)) := by
  have hsum : (encodeBytes name ++ encodeBytes sig).length = name.length + sig.length + 8 := by
    simp only [encodeBytes, List.length_append, encodeU32_length]
    omega
  have hname : name.length ≤ maxSize := by omega
  have hsig : sig.length ≤ maxSize := by omega
  have hframe (b : Bytes) : encodeBytes b = encodeU32 b.length ++ b := rfl
  rw [writeSignature_of_decode (decodeBytes_field hlength)
    (decodeString_encodeBytes hname hutf8 (encodeBytes sig)) (decodeBytes_field hsig),
    hframe (encodeBytes name ++ encodeBytes sig), hsum]

/-- What is accepted has been read from a field, and is of the algorithm that the flags ask for. -/
theorem of_writeSignature {r out : Bytes} {hash : UInt32}
    (h : writeSignature r hash data = .ok out) :
    ∃ resp rest t resp', decodeBytes r = .ok (resp, rest) ∧ decodeString resp = .ok (t, resp') ∧
      ((hash = 2 ∧ t = ascii "rsa-sha2-256") ∨ (hash = 4 ∧ t = ascii "rsa-sha2-512") ∨
        hash = 0) := by
  unfold writeSignature at h
  split at h
  · cases h
  · rename_i resp rest hr
    split at h
    · cases h
    · rename_i t resp' ht
      split at h
      · rename_i hhash
        exact ⟨resp, rest, t, resp', hr, ht, hhash⟩
      · cases h

/-- The response to a request that the client reads and that is no failure has been made by
`try_sign` for the fields of the request. -/
theorem signed_of_respond {front : Bytes} {response : Response K}
    (hkey : publicKey.keyData.length < 2 ^ 32) (hdata : data.length < 2 ^ 32)
    (hpre : front <+: Msg.signRequest :: signArguments publicKey hashAlg data)
    (h : respond isLocked env front s = some response) :
    response.message = [Msg.failure] ∨
      LetThrough isLocked env .sign ∧ publicKey.keyData.length ≤ maxSize ∧
        data.length ≤ maxSize ∧ ∃ entry signature, s.keys.get? publicKey.keyData = some entry ∧
          K.sign entry.key data = some signature ∧ signature.length < 2 ^ 32 ∧
          response.message = Msg.signResponse :: encodeBytes signature := by
  cases front with
  | nil =>
    cases h
    exact .inl rfl
  | cons b r =>
    obtain ⟨rfl, hr⟩ := List.cons_prefix_cons.mp hpre
    by_cases hthrough : LetThrough isLocked env .sign
    · rw [show Msg.signRequest = Arm.sign.byte from rfl, respond_byte .sign r hthrough] at h
      rcases trySign_spec h with rfl | ⟨blob, r', entry, data', rest, signature, field, hblob,
        hentry, hdata', hsign, hfield, rfl⟩
      · exact .inl rfl
      · right
        obtain ⟨rfl, hsize, hr'⟩ := decodeBytes_of_front hkey hr hblob
        obtain ⟨rfl, hsize', -⟩ := decodeBytes_of_front hdata hr' hdata'
        obtain ⟨hlt, rfl⟩ := encodeField_eq_ok.mp hfield
        exact ⟨hthrough, hsize, hsize', entry, signature, hentry, hsign, hlt, rfl⟩
    · rw [show Msg.signRequest = Arm.sign.byte from rfl,
        respond_byte_refused .sign r hthrough] at h
      cases h
      exact .inl rfl

/-- `try_sign` signs for the fields of a request. -/
theorem respond_sign {entry : Entry K} {signature : Bytes}
    (hthrough : LetThrough isLocked env .sign) (hkey : publicKey.keyData.length ≤ maxSize)
    (hdata : data.length ≤ maxSize) (hentry : s.keys.get? publicKey.keyData = some entry)
    (hsign : K.sign entry.key data = some signature) (hlt : signature.length < 2 ^ 32) :
    respond isLocked env (Msg.signRequest :: signArguments publicKey hashAlg data) s =
      some (reply (Msg.signResponse :: encodeBytes signature) s) := by
  have hfirst := decodeBytes_encodeBytes hkey
    (encodeBytes data ++ encodeU32 (signFlags publicKey hashAlg).toNat)
  have hsecond := decodeBytes_encodeBytes hdata (encodeU32 (signFlags publicKey hashAlg).toNat)
  rw [show Msg.signRequest = Arm.sign.byte from rfl, respond_byte .sign _ hthrough, Arm.run]
  exact trySign_of hfirst hentry hsecond hsign hlt

/-- A request that a client may make of a key in the store yields what was asked for. -/
theorem yields_of_signs (S : Signing K) {entry : Entry K} {signature : Bytes}
    (hentry : s.keys.get? publicKey.keyData = some entry)
    (hrsa : publicKey.isRsa = S.isRsa entry.key) (hthrough : LetThrough isLocked env .sign)
    (hkey : publicKey.keyData.length ≤ maxSize) (hdata : data.length ≤ maxSize)
    (hsign : K.sign entry.key data = some signature) (hsize : signature.length ≤ maxSize)
    (hflags : signFlags publicKey hashAlg = 0) :
    Yields S entry.key hashAlg data
      (signRequest K (serveFrom isLocked env s) publicKey hashAlg data) := by
  have hlt : publicKey.keyData.length < 2 ^ 32 := Nat.lt_of_le_of_lt hkey (by decide)
  have hlt' : data.length < 2 ^ 32 := Nat.lt_of_le_of_lt hdata (by decide)
  obtain ⟨sig, rfl, hverifies⟩ := S.sign_eq entry.key data signature hsign
  have hname : S.name entry.key hashAlg =
      if S.isRsa entry.key then ascii "ssh-rsa" else S.algorithm entry.key := by
    unfold Signing.name
    split
    · rename_i h
      unfold signFlags at hflags
      rw [hrsa, if_pos h] at hflags
      cases hashAlg with
      | none => rfl
      | some hash => cases hash <;> exact absurd hflags (by decide)
    · rfl
  have hutf8 : validUtf8 (S.name entry.key hashAlg) = true := by
    rw [hname]
    split
    · exact validUtf8_of_ascii (by decide)
    · exact S.algorithm_utf8 entry.key
  rw [← hname] at hsize hverifies hsign
  refine ⟨sig, ?_, hverifies⟩
  have hmessage := @prepareSignRequest_message K publicKey hashAlg data hlt hlt'
  have hw : (prepareSignRequest publicKey hashAlg data : Request K).written =
      .ok (frame (Msg.signRequest :: signArguments publicKey hashAlg data)) := by
    rw [Request.written_of_message hmessage, Request.finish_of_isPatched _ rfl]
  have hshort : (Msg.signRequest :: signArguments publicKey hashAlg data).length < 2 ^ 32 := by
    simp only [signArguments, encodeBytes, List.length_cons, List.length_append, encodeU32_length]
    unfold maxSize at hkey hdata
    omega
  have hfield : (encodeBytes (S.name entry.key hashAlg) ++ encodeBytes sig).length < 2 ^ 32 :=
    Nat.lt_of_le_of_lt hsize (by decide)
  have hresponse := @respond_sign K isLocked env s publicKey hashAlg data entry _ hthrough hkey
    hdata hentry hsign hfield
  have hanswer : (Msg.signResponse ::
      encodeBytes (encodeBytes (S.name entry.key hashAlg) ++ encodeBytes sig)).length < 2 ^ 32 := by
    rw [List.length_cons, encodeBytes, List.length_append, encodeU32_length]
    unfold maxSize at hsize
    omega
  have hread := readResponse_of_serve hw (readMessage_frame_nil hshort)
    (serveFrom_of_respond hresponse) hanswer
  unfold signRequest
  rw [hread]
  dsimp only [reply]
  rw [if_pos rfl, hflags, writeSignature_of_name hutf8 hsize]

/-- Flags are for RSA. -/
theorem isRsa_of_signFlags (h : signFlags publicKey hashAlg ≠ 0) : publicKey.isRsa = true := by
  by_cases hrsa : publicKey.isRsa = true
  · exact hrsa
  · unfold signFlags at h
    rw [if_neg hrsa] at h
    exact absurd rfl h

/-- A signature of the agent with an RSA key is no signature with SHA-2. -/
theorem name_of_rsa (S : Signing K) {key : K.Keypair} {resp t resp' : Bytes}
    (hsign : K.sign key data = some resp) (hrsa : S.isRsa key = true)
    (ht : decodeString resp = .ok (t, resp')) : t = ascii "ssh-rsa" := by
  obtain ⟨sig, rfl, -⟩ := S.sign_eq key data resp hsign
  rw [if_pos hrsa] at ht
  exact (decodeBytes_of_front (by decide) (List.prefix_refl _) (decodeString_eq_ok.mp ht).1).1

/-- What the client returns has been signed, and with the algorithm that it accepts. -/
theorem signs_of_yields (S : Signing K) {entry : Entry K} {out : Bytes}
    (hentry : s.keys.get? publicKey.keyData = some entry)
    (hrsa : publicKey.isRsa = S.isRsa entry.key)
    (h : signRequest K (serveFrom isLocked env s) publicKey hashAlg data = .ok out) :
    LetThrough isLocked env .sign ∧ publicKey.keyData.length ≤ maxSize ∧
      data.length ≤ maxSize ∧
      (∃ signature, K.sign entry.key data = some signature ∧ signature.length ≤ maxSize) ∧
      signFlags publicKey hashAlg = 0 := by
  unfold signRequest at h
  split at h
  · cases h
  · rename_i message hread
    split at h
    · cases h
    · rename_i b r
      split at h
      · rename_i hb
        obtain ⟨bytes, front, rest, response, hw, hfront, hserve, hpre⟩ := of_readResponse hread
        obtain ⟨asked, hmessage⟩ : ∃ asked,
            (prepareSignRequest publicKey hashAlg data : Request K).message = .ok asked := by
          cases hm : (prepareSignRequest publicKey hashAlg data : Request K).message with
          | error e =>
            rw [Request.written, hm] at hw
            cases hw
          | ok asked => exact ⟨asked, rfl⟩
        obtain ⟨hkey, hdata, rfl⟩ := prepareSignRequest_fits hmessage
        rw [Request.written_of_message hmessage, Request.finish_of_isPatched _ rfl] at hw
        cases hw
        obtain ⟨front', rest', hread', hfrontpre, -⟩ :=
          readMessage_frame_front (Msg.signRequest :: signArguments publicKey hashAlg data)
        rw [hfront] at hread'
        cases hread'
        obtain ⟨answer, hanswer, rfl⟩ := Option.map_eq_some_iff.mp hserve
        rcases signed_of_respond hkey hdata hfrontpre hanswer with hfailure | ⟨hthrough, hkeysize,
          hdatasize, entry', signature, hentry', hsign, hlt, hmade⟩
        · rw [hfailure] at hpre
          rw [hb] at hpre
          exact absurd (List.cons_prefix_cons.mp hpre).1 (by decide)
        · rw [hentry] at hentry'
          cases hentry'
          rw [hmade] at hpre
          have hr := (List.cons_prefix_cons.mp hpre).2
          rw [← List.append_nil (encodeBytes signature)] at hr
          obtain ⟨resp, rest, t, resp', hresp, ht, hhash⟩ := of_writeSignature h
          obtain ⟨rfl, hsize, -⟩ := decodeBytes_of_front hlt hr hresp
          refine ⟨hthrough, hkeysize, hdatasize, ⟨resp, hsign, hsize⟩, ?_⟩
          by_cases hflags : signFlags publicKey hashAlg = 0
          · exact hflags
          · have hkeyrsa : S.isRsa entry.key = true := hrsa ▸ isRsa_of_signFlags hflags
            have hname := name_of_rsa S hsign hkeyrsa ht
            rcases hhash with ⟨-, h256⟩ | ⟨-, h512⟩ | hzero
            · exact absurd (hname.symm.trans h256) (by decide)
            · exact absurd (hname.symm.trans h512) (by decide)
            · exact absurd hzero hflags
      · split at h
        · cases h
        · cases h

/-- For a key in the store, `sign_request` yields the data and a signature of the algorithm that
the key and the hash select exactly where the request is let through, its fields and the signature
can be read, the key signs, and no hash is asked of an RSA key. -/
theorem sign_request_yields_iff (S : Signing K) {entry : Entry K}
    (hentry : s.keys.get? publicKey.keyData = some entry)
    (hrsa : publicKey.isRsa = S.isRsa entry.key) :
    Yields S entry.key hashAlg data
        (signRequest K (serveFrom isLocked env s) publicKey hashAlg data) ↔
      LetThrough isLocked env .sign ∧ publicKey.keyData.length ≤ maxSize ∧
        data.length ≤ maxSize ∧
        (∃ signature, K.sign entry.key data = some signature ∧ signature.length ≤ maxSize) ∧
        ¬(S.isRsa entry.key = true ∧ hashAlg ≠ none) := by
  have hflags : signFlags publicKey hashAlg = 0 ↔ ¬(S.isRsa entry.key = true ∧ hashAlg ≠ none) := by
    unfold signFlags
    rw [hrsa]
    cases S.isRsa entry.key with
    | false => exact iff_of_true rfl fun h => Bool.false_ne_true h.1
    | true =>
      cases hashAlg with
      | none => exact iff_of_true rfl fun h => h.2 rfl
      | some hash =>
        refine iff_of_false ?_ (not_not.mpr ⟨rfl, nofun⟩)
        cases hash
        · decide
        · decide
  rw [← hflags]
  constructor
  · rintro ⟨sig, hout, -⟩
    exact signs_of_yields S hentry hrsa hout
  · rintro ⟨hthrough, hkey, hdata, ⟨signature, hsign, hsize⟩, hzero⟩
    exact yields_of_signs S hentry hrsa hthrough hkey hdata hsign hsize hzero

end Sign

section OneKey

/-- The keys from 128 on. -/
def isRsaByte (key : UInt8) : Bool := 128 ≤ key

/-- Keys of one byte, whose signatures hold the key and the data. -/
def KeyCrate.signing : KeyCrate where
  Keypair := UInt8
  isReadable := fun _ => true
  encode := fun key => .ok [key]
  decode := decodeU8
  publicBlob := fun key => .ok [key]
  sign := fun key data => some (encodeBytes
    (if isRsaByte key then ascii "ssh-rsa" else ascii "ssh-ed25519") ++
      encodeBytes (key :: data))

def signing : Signing KeyCrate.signing where
  isRsa := isRsaByte
  algorithm := fun _ => ascii "ssh-ed25519"
  verifies := fun (key : UInt8) _ data sig => sig = key :: data
  algorithm_utf8 := fun _ => validUtf8_of_ascii (by decide)
  sign_eq := by
    rintro (key : UInt8) data signature ⟨⟩
    exact ⟨key :: data, rfl, rfl⟩

/-- An agent that holds one key. -/
def Shared.holding (key : UInt8) : Shared KeyCrate.signing :=
  Shared.init.setKeys (KeyStore.empty.insert [key] ⟨(key : UInt8), 0, []⟩)

theorem holding_get? (key : UInt8) :
    (Shared.holding key).keys.get? [key] = some ⟨(key : UInt8), 0, []⟩ :=
  KeyStore.get?_insert_self _ _ _

theorem sign_request_yields_ed25519 :
    Yields signing (9 : UInt8) none [1, 2]
      (signRequest KeyCrate.signing (serveFrom false (.confirming 0) (Shared.holding 9))
        ⟨[9], false⟩ none [1, 2]) := by
  have hthrough : LetThrough false (.confirming 0) .sign := ⟨rfl, rfl⟩
  have hsign : ∃ signature, KeyCrate.signing.sign (9 : UInt8) [1, 2] = some signature ∧
      signature.length ≤ maxSize :=
    ⟨encodeBytes (ascii "ssh-ed25519") ++ encodeBytes [9, 1, 2], rfl, by decide +kernel⟩
  have hrsa : signing.isRsa (9 : UInt8) = false := by decide
  have hiff := @sign_request_yields_iff KeyCrate.signing false (.confirming 0)
    (Shared.holding 9) ⟨[9], false⟩ none [1, 2] signing ⟨(9 : UInt8), 0, []⟩ (holding_get? 9)
    hrsa.symm
  exact hiff.mpr ⟨hthrough, by decide, by decide, hsign, fun h => h.2 rfl⟩

/-- A signature with SHA-2 is asked of an RSA key. -/
theorem not_sign_request_yields :
    ¬Yields signing (200 : UInt8) (some .sha256) [1, 2]
      (signRequest KeyCrate.signing (serveFrom false (.confirming 0) (Shared.holding 200))
        ⟨[200], true⟩ (some .sha256) [1, 2]) := by
  have hrsa : signing.isRsa (200 : UInt8) = true := by decide
  rintro ⟨sig, hout, -⟩
  obtain ⟨-, -, -, -, hflags⟩ := signs_of_yields signing (holding_get? 200) hrsa.symm hout
  exact absurd hflags (by decide)

end OneKey

end Edgessh.Russh.Keys.Agent
