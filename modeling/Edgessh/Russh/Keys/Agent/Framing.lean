import Edgessh.Russh.Keys.Agent.Client

/-!
# Requests between the client and the server

What a method of the client writes is to be one frame, from which the server reads the message that
the method has made, and from that the request with its arguments. Two kinds of messages have no
length; some requests are not known to the server, or it cannot read their arguments; and it does
not look at the hash that a signature is asked with.
-/

namespace Edgessh.Russh.Keys.Agent
open Edgessh.Run Edgessh.Command

/-- What an arm of `respond` reads of its message. The flags of a SIGN_REQUEST are not read, and
the signature is made without a hash. -/
def Arm.parse (K : KeyCrate) (r : Bytes) : Arm → Option (Request K)
  | requestIdentities => some .requestIdentities
  | sign => do
    let (blob, r) ← (decodeBytes r).toOption
    let (data, _) ← (decodeBytes r).toOption
    some (.signRequest blob data 0)
  | addIdentity => do
    let ((_, key), _) ← (readIdentity K r).toOption
    some (.addIdentity key [])
  | removeIdentity => do
    let (blob, _) ← (decodeBytes r).toOption
    some (.removeIdentity blob)
  | removeAll => some .removeAllIdentities
  | lock => do
    let (password, _) ← (decodeBytes r).toOption
    some (.lock password)
  | unlock => do
    let (password, _) ← (decodeBytes r).toOption
    some (.unlock password)
  | addIdConstrained => do
    let ((_, key), r) ← (readIdentity K r).toOption
    match parseConstraints r with
    | (cs, some true) => some (.addIdentity key cs)
    | _ => none

namespace Request

variable {K : KeyCrate}

/-- The request that the server reads from a message. -/
def parse (K : KeyCrate) : Bytes → Option (Request K)
  | [] => none
  | b :: r => (Arm.ofByte b).bind fun arm => arm.parse K r

/-- What the server does with a request that it has read and lets through; `none` ends the
connection. -/
def perform (env : Surroundings) (s : Shared K) : Request K → Option (Response K)
  | addIdentity key constraints =>
    match K.publicBlob key with
    | .error _ => some (reply [Msg.failure] s)
    | .ok blob =>
      some (reply [Msg.success]
        ((s.addTimers (timersOf blob env.now constraints)).setKeys
          (s.keys.insert blob ⟨key, env.now, constraints⟩)))
  | lock passphrase => some (reply [Msg.success] (s.setLock (s.lock ++ passphrase)))
  | unlock passphrase =>
    some (if s.lock = passphrase then reply [Msg.success] (s.setLock [])
      else reply [Msg.failure] s)
  | requestIdentities => (Agent.requestIdentities env.order s).toOption
  | signRequest keyData data _ =>
    match s.keys.get? keyData with
    | none => some (reply [Msg.failure] s)
    | some entry =>
      if entry.constraints.contains .confirm && !readyConfirm then some (reply [Msg.failure] s)
      else do
        let signature ← K.sign entry.key data
        let field ← (encodeField signature).toOption
        some (reply (Msg.signResponse :: field) s)
  | removeIdentity keyData =>
    match s.keys.get? keyData with
    | some _ => some (reply [Msg.success] (s.setKeys (s.keys.remove keyData)))
    | none => some (reply [Msg.failure] s)
  | removeAllIdentities => some (reply [Msg.success] (s.setKeys KeyStore.empty))
  | addSmartcardKey .. | removeSmartcardKey .. | extension .. | queryExtension _ =>
    some (reply [Msg.failure] s)

/-- What is written is one frame with the message, which the server's loop reads as that message,
whatever follows, and in which it reads that request. -/
def Framed (r : Request K) : Prop :=
  ∀ message, r.message = .ok message →
    (∃ bytes, r.written = .ok bytes ∧ decodeU32 bytes = .ok (message.length, message) ∧
      ∀ rest, readMessage (bytes ++ rest) = some (message, rest)) ∧
    parse K message = some r

/-- The placeholder is filled in, and the length fits it. -/
def FitsFrame (r : Request K) : Prop :=
  ∀ message, r.message = .ok message → r.isPatched = true ∧ message.length < 2 ^ 32

/-- The server knows the request and the constraints in it, can read its fields, and has no need of
what it does not read. -/
def Readable : Request K → Prop
  | addIdentity key constraints =>
    K.isReadable key = true ∧ ∀ c ∈ constraints, c.isKnown = true
  | lock field | unlock field | removeIdentity field => field.length ≤ maxSize
  | signRequest keyData data hash =>
    keyData.length ≤ maxSize ∧ data.length ≤ maxSize ∧ hash = 0
  | requestIdentities | removeAllIdentities => True
  | addSmartcardKey .. | removeSmartcardKey .. | extension .. | queryExtension _ => False

/-- A request that is written at all fits its frame and can be read. -/
def Fits (r : Request K) : Prop :=
  ∀ message, r.message = .ok message →
    (r.isPatched = true ∧ message.length < 2 ^ 32) ∧ r.Readable

/-- A request is one frame exactly where its placeholder is filled in and the length fits. -/
theorem frame_iff {r : Request K} {message : Bytes} (hm : r.message = .ok message) :
    (∃ bytes, r.written = .ok bytes ∧ decodeU32 bytes = .ok (message.length, message) ∧
      ∀ rest, readMessage (bytes ++ rest) = some (message, rest)) ↔
      r.isPatched = true ∧ message.length < 2 ^ 32 := by
  constructor
  · rintro ⟨bytes, hw, hlen, -⟩
    rw [written_of_message hm] at hw
    obtain rfl := Except.ok.inj hw
    have hpos : 0 < message.length := List.length_pos_iff.mpr (message_ne_nil hm)
    have hzero (tail : Bytes) (hf : r.finish message = [0, 0, 0, 0] ++ tail) : False := by
      rw [hf, decodeU32_zero] at hlen
      have := (Prod.mk.inj (Except.ok.inj hlen)).1
      omega
    have hframe (hf : r.finish message = frame message) : message.length < 2 ^ 32 := by
      rw [hf, frame, decodeU32_encodeU32] at hlen
      have := (Prod.mk.inj (Except.ok.inj hlen)).1
      omega
    cases r with
    | removeAllIdentities => exact (hzero _ rfl).elim
    | extension typ ext => exact (hzero _ rfl).elim
    | queryExtension typ => exact (hzero _ rfl).elim
    | _ => exact ⟨rfl, hframe rfl⟩
  · rintro ⟨hpatched, hlt⟩
    have hf := finish_of_isPatched message hpatched
    refine ⟨_, written_of_message hm, ?_, ?_⟩
    · rw [hf, frame, decodeU32_encodeU32, Nat.mod_eq_of_lt hlt]
    · intro rest
      rw [hf]
      exact readMessage_frame hlt rest

theorem message_eq_ok {r : Request K} {m : Bytes} (h : r.message = .ok m) :
    ∃ args, r.arguments = .ok args ∧ m = r.code :: args := by
  obtain ⟨args, ha, hm⟩ := bind_eq_ok.mp h
  exact ⟨args, ha, (Except.ok.inj hm).symm⟩

end Request

section Parse

theorem toOption_eq_some {ε α : Type} {x : Except ε α} {a : α} :
    x.toOption = some a ↔ x = .ok a := by
  cases x <;> simp [Except.toOption]

variable {K : KeyCrate}

theorem Arm.parse_sign_eq_some {bytes : Bytes} {r : Request K} :
    Arm.sign.parse K bytes = some r ↔
      ∃ blob rest data rest', decodeBytes bytes = .ok (blob, rest) ∧
        decodeBytes rest = .ok (data, rest') ∧ r = .signRequest blob data 0 := by
  constructor
  · intro h
    obtain ⟨⟨blob, rest⟩, hblob, h⟩ := Option.bind_eq_some_iff.mp h
    obtain ⟨⟨data, rest'⟩, hdata, h⟩ := Option.bind_eq_some_iff.mp h
    exact ⟨blob, rest, data, rest', toOption_eq_some.mp hblob, toOption_eq_some.mp hdata,
      (Option.some.inj h).symm⟩
  · rintro ⟨blob, rest, data, rest', hblob, hdata, rfl⟩
    refine Option.bind_eq_some_iff.mpr ⟨_, toOption_eq_some.mpr hblob, ?_⟩
    exact Option.bind_eq_some_iff.mpr ⟨_, toOption_eq_some.mpr hdata, rfl⟩

/-- A field is read back if it is not too long. -/
theorem toOption_decodeBytes {b : Bytes} (hb : b.length < 2 ^ 32) (x : Bytes) :
    (decodeBytes (encodeBytes b ++ x)).toOption =
      if b.length ≤ maxSize then some (b, x) else none := by
  by_cases hsize : b.length ≤ maxSize
  · rw [if_pos hsize, decodeBytes_encodeBytes hsize]
    rfl
  · rw [if_neg hsize]
    cases hdec : decodeBytes (encodeBytes b ++ x) with
    | error e => rfl
    | ok p =>
      obtain ⟨q, hq, hle, -⟩ := decodeBytes_eq_ok.mp hdec
      rw [encodeBytes, List.append_assoc, decodeU32_encodeU32, Nat.mod_eq_of_lt hb] at hq
      rw [(Prod.mk.inj (Except.ok.inj hq)).1] at hsize
      exact absurd hle hsize

theorem toOption_decodeBytes_last {b : Bytes} (hb : b.length < 2 ^ 32) :
    (decodeBytes (encodeBytes b)).toOption =
      if b.length ≤ maxSize then some (b, []) else none := by
  have h := toOption_decodeBytes hb []
  rwa [List.append_nil] at h

/-- The key of an ADD_IDENTITY is read back if it is in the clear. -/
theorem readIdentity_of_encode (hK : K.Documented) {key : K.Keypair} {k : Bytes}
    (hkey : K.isReadable key = true) (hk : K.encode key = .ok k) (x : Bytes) :
    ∃ blob, readIdentity K (k ++ (encodeBytes [] ++ x)) = .ok ((blob, key), x) := by
  obtain ⟨blob, hblob⟩ := hK.publicBlob key k hkey hk
  have hcomment : decodeString (encodeBytes [] ++ x) = .ok ([], x) :=
    decodeString_encodeBytes (by decide) (validUtf8_of_ascii rfl) x
  refine ⟨blob, bind_eq_ok.mpr ⟨(key, _), hK.decode_encode key k _ hkey hk, ?_⟩⟩
  exact bind_eq_ok.mpr ⟨([], x), hcomment, bind_eq_ok.mpr ⟨blob, hblob, rfl⟩⟩

theorem readIdentity_eq_ok {r x blob : Bytes} {key : K.Keypair}
    (h : readIdentity K r = .ok ((blob, key), x)) :
    K.publicBlob key = .ok blob ∧ ∃ rest, K.decode r = .ok (key, rest) := by
  obtain ⟨⟨key', rest⟩, hdec, h⟩ := bind_eq_ok.mp h
  obtain ⟨⟨comment, rest'⟩, -, h⟩ := bind_eq_ok.mp h
  obtain ⟨blob', hblob, h⟩ := bind_eq_ok.mp h
  cases h
  exact ⟨hblob, rest, hdec⟩

namespace Request

/-- What is written behind the first byte of an ADD_IDENTITY. -/
theorem addIdentity_arguments {key : K.Keypair} {cs : List Constraint} {args : Bytes}
    (h : (addIdentity key cs).arguments = .ok args) :
    ∃ k e, K.encode key = .ok k ∧ encodeConstraints cs = .ok e ∧
      args = k ++ (encodeBytes [] ++ e) := by
  obtain ⟨k, hk, h⟩ := bind_eq_ok.mp h
  obtain ⟨comment, hcomment, h⟩ := bind_eq_ok.mp h
  obtain ⟨e, he, h⟩ := bind_eq_ok.mp h
  cases hcomment
  exact ⟨k, e, hk, he, (Except.ok.inj h).symm⟩

theorem parse_addIdentity_iff (hK : K.Documented) {key : K.Keypair} {cs : List Constraint}
    {args : Bytes} (h : (addIdentity key cs).arguments = .ok args) :
    parse K ((addIdentity key cs).code :: args) = some (addIdentity key cs) ↔
      (addIdentity key cs).Readable := by
  obtain ⟨k, e, hk, he, rfl⟩ := addIdentity_arguments h
  constructor
  · intro hparse
    have hkey : K.isReadable key = true := by
      cases cs with
      | nil =>
        obtain ⟨⟨⟨blob, key'⟩, x⟩, hread, hsome⟩ := Option.bind_eq_some_iff.mp hparse
        cases hsome
        obtain ⟨-, rest, hdec⟩ := readIdentity_eq_ok (toOption_eq_some.mp hread)
        exact hK.decode_readable _ _ _ hdec
      | cons c cs =>
        obtain ⟨⟨⟨blob, key'⟩, x⟩, hread, hsome⟩ := Option.bind_eq_some_iff.mp hparse
        dsimp only at hsome
        split at hsome
        · cases hsome
          obtain ⟨-, rest, hdec⟩ := readIdentity_eq_ok (toOption_eq_some.mp hread)
          exact hK.decode_readable _ _ _ hdec
        · cases hsome
    refine ⟨hkey, ?_⟩
    cases cs with
    | nil => exact nofun
    | cons c cs =>
      obtain ⟨blob, hread⟩ := readIdentity_of_encode hK hkey hk e
      obtain ⟨⟨⟨blob', key'⟩, x⟩, hread', hsome⟩ := Option.bind_eq_some_iff.mp hparse
      rw [toOption_eq_some, hread] at hread'
      cases hread'
      dsimp only at hsome
      split at hsome
      · rename_i cs' hcs
        cases hsome
        exact (encode_of_parseConstraints hcs).2
      · cases hsome
  · rintro ⟨hkey, hknown⟩
    obtain ⟨blob, hread⟩ := readIdentity_of_encode hK hkey hk e
    have hread' := toOption_eq_some.mpr hread
    cases cs with
    | nil => exact Option.bind_eq_some_iff.mpr ⟨_, hread', rfl⟩
    | cons c cs =>
      refine Option.bind_eq_some_iff.mpr ⟨_, hread', ?_⟩
      dsimp only
      rw [parseConstraints_of_encode he hknown]

theorem parse_cons {b : UInt8} {arm : Arm} (h : Arm.ofByte b = some arm) (r : Bytes) :
    parse K (b :: r) = arm.parse K r := by
  rw [parse, h, Option.bind_some]

theorem parse_field_iff {b : UInt8} {field args : Bytes} {f : Bytes → Request K}
    (hb : parse K (b :: args) = (do
      let (field, _) ← (decodeBytes args).toOption
      some (f field))) (h : encodeField field = .ok args) :
    parse K (b :: args) = some (f field) ↔ field.length ≤ maxSize := by
  obtain ⟨hlt, rfl⟩ := encodeField_eq_ok.mp h
  rw [hb, toOption_decodeBytes_last hlt]
  by_cases hsize : field.length ≤ maxSize
  · simp [hsize]
  · simp [hsize]

theorem parse_signRequest_iff {keyData data args : Bytes} {hash : UInt32}
    (h : (signRequest keyData data hash : Request K).arguments = .ok args) :
    parse K (Msg.signRequest :: args) = some (signRequest keyData data hash) ↔
      (signRequest keyData data hash : Request K).Readable := by
  obtain ⟨x, hx, h⟩ := bind_eq_ok.mp h
  obtain ⟨y, hy, h⟩ := bind_eq_ok.mp h
  obtain ⟨hkey, rfl⟩ := encodeField_eq_ok.mp hx
  obtain ⟨hdata, rfl⟩ := encodeField_eq_ok.mp hy
  obtain rfl := Except.ok.inj h
  have hfield {b : Bytes} (hb : b.length < 2 ^ 32) (r : Bytes) (p : Bytes × Bytes) :
      decodeBytes (encodeBytes b ++ r) = .ok p ↔ b.length ≤ maxSize ∧ p = (b, r) := by
    rw [← toOption_eq_some, toOption_decodeBytes hb, Option.ite_none_right_eq_some,
      Option.some.injEq, @eq_comm _ p]
  rw [parse_cons (show Arm.ofByte Msg.signRequest = some .sign from rfl), Arm.parse_sign_eq_some]
  constructor
  · rintro ⟨blob, rest, data', rest', hblob, hdata', heq⟩
    obtain ⟨hkeySize, hp⟩ := (hfield hkey _ _).mp hblob
    rw [(Prod.mk.inj hp).2] at hdata'
    obtain ⟨hdataSize, -⟩ := (hfield hdata _ _).mp hdata'
    exact ⟨hkeySize, hdataSize, (Request.signRequest.inj heq).2.2⟩
  · rintro ⟨hkeySize, hdataSize, hhash⟩
    refine ⟨keyData, _, data, _, (hfield hkey _ _).mpr ⟨hkeySize, rfl⟩,
      (hfield hdata _ _).mpr ⟨hdataSize, rfl⟩, ?_⟩
    rw [hhash]

/-- The server reads a request from its message exactly where it can be read. -/
theorem parse_message_iff (hK : K.Documented) {r : Request K} {message : Bytes}
    (h : r.message = .ok message) : parse K message = some r ↔ r.Readable := by
  obtain ⟨args, hargs, rfl⟩ := message_eq_ok h
  cases r with
  | addIdentity key cs => exact parse_addIdentity_iff hK hargs
  | addSmartcardKey id pin cs =>
    refine iff_of_false ?_ not_false
    cases cs <;> exact nofun
  | lock passphrase => exact parse_field_iff rfl hargs
  | unlock passphrase => exact parse_field_iff rfl hargs
  | requestIdentities => exact iff_of_true rfl trivial
  | signRequest keyData data hash => exact parse_signRequest_iff hargs
  | removeIdentity keyData => exact parse_field_iff rfl hargs
  | removeSmartcardKey id pin => exact iff_of_false nofun not_false
  | removeAllIdentities => exact iff_of_true rfl trivial
  | extension typ ext => exact iff_of_false nofun not_false
  | queryExtension typ => exact iff_of_false nofun not_false

theorem framed_iff (hK : K.Documented) (r : Request K) : r.Framed ↔ r.Fits := by
  constructor
  · intro h message hm
    obtain ⟨hframe, hparse⟩ := h message hm
    exact ⟨(frame_iff hm).mp hframe, (parse_message_iff hK hm).mp hparse⟩
  · intro h message hm
    obtain ⟨hframe, hreadable⟩ := h message hm
    exact ⟨(frame_iff hm).mpr hframe, (parse_message_iff hK hm).mpr hreadable⟩

end Request

end Parse

section Respond

variable {K : KeyCrate} {env : Surroundings} {s : Shared K}

/-- The response is a failure, and no key and no lock has changed. -/
def Response.IsRefusal (s : Shared K) (response : Response K) : Prop :=
  response.message.getLast? = some Msg.failure ∧ response.shared.keys = s.keys ∧
    response.shared.lock = s.lock

theorem reply_failure_isRefusal (s : Shared K) : (reply [Msg.failure] s).IsRefusal s :=
  ⟨rfl, rfl, rfl⟩

theorem trySign_of_parse {bytes : Bytes} {r : Request K} (h : Arm.sign.parse K bytes = some r) :
    trySign bytes s = r.perform env s := by
  obtain ⟨blob, rest, data, rest', hblob, hdata, rfl⟩ := Arm.parse_sign_eq_some.mp h
  simp only [trySign, hblob, hdata, Request.perform]
  cases s.keys.get? blob with
  | none => rfl
  | some entry =>
    dsimp only
    congr 1
    cases K.sign entry.key data with
    | none => rfl
    | some signature => cases hfield : encodeField signature <;> simp [hfield, Except.toOption]

theorem addKey_of_parse {bytes : Bytes} {r : Request K}
    (h : Arm.addIdentity.parse K bytes = some r) :
    some (addKey env.now false bytes s) = r.perform env s := by
  obtain ⟨⟨⟨blob, key⟩, rest⟩, hread, h⟩ := Option.bind_eq_some_iff.mp h
  rw [toOption_eq_some] at hread
  cases h
  have htimers : s.addTimers (timersOf blob env.now []) = s := by
    simp [Shared.addTimers, timersOf]
  simp only [addKey, hread, Request.perform, (readIdentity_eq_ok hread).1, htimers]
  rfl

theorem addKey_constrained_of_parse {bytes : Bytes} {r : Request K}
    (h : Arm.addIdConstrained.parse K bytes = some r) :
    some (addKey env.now true bytes s) = r.perform env s := by
  obtain ⟨⟨⟨blob, key⟩, rest⟩, hread, h⟩ := Option.bind_eq_some_iff.mp h
  rw [toOption_eq_some] at hread
  dsimp only at h
  split at h
  · rename_i cs hcs
    cases h
    simp only [addKey, hread, hcs, Request.perform, (readIdentity_eq_ok hread).1]
    rfl
  · cases h

/-- An arm does what the request asks for that it reads. -/
theorem Arm.run_of_parse {arm : Arm} {bytes : Bytes} {r : Request K}
    (h : arm.parse K bytes = some r) : arm.run env bytes s = r.perform env s := by
  cases arm with
  | requestIdentities =>
    cases h
    rfl
  | sign => exact trySign_of_parse h
  | addIdentity => exact addKey_of_parse h
  | removeIdentity =>
    obtain ⟨⟨blob, rest⟩, hblob, h⟩ := Option.bind_eq_some_iff.mp h
    rw [toOption_eq_some] at hblob
    cases h
    simp only [Arm.run, Agent.removeIdentity, hblob, Request.perform]
    cases s.keys.get? blob <;> rfl
  | removeAll =>
    cases h
    rfl
  | lock =>
    obtain ⟨⟨password, rest⟩, hpassword, h⟩ := Option.bind_eq_some_iff.mp h
    rw [toOption_eq_some] at hpassword
    cases h
    simp only [Arm.run, Agent.lock, hpassword, Request.perform]
  | unlock =>
    obtain ⟨⟨password, rest⟩, hpassword, h⟩ := Option.bind_eq_some_iff.mp h
    rw [toOption_eq_some] at hpassword
    cases h
    simp only [Arm.run, Agent.unlock, hpassword, Request.perform]
  | addIdConstrained => exact addKey_constrained_of_parse h

/-- An arm that cannot read its message refuses it, or ends the connection. -/
theorem Arm.isRefusal_of_parse {arm : Arm} {bytes : Bytes} {response : Response K}
    (h : arm.parse K bytes = none) (hrun : arm.run env bytes s = some response) :
    response.IsRefusal s := by
  cases arm with
  | requestIdentities => cases h
  | removeAll => cases h
  | sign =>
    simp only [Arm.run, trySign] at hrun
    split at hrun
    · cases hrun
    · rename_i blob rest hblob
      split at hrun
      · cases hrun
        exact reply_failure_isRefusal s
      · split at hrun
        · cases hrun
          exact reply_failure_isRefusal s
        · split at hrun
          · cases hrun
          · rename_i data rest' hdata
            have hr : Arm.sign.parse K bytes = some (.signRequest blob data 0) :=
              Arm.parse_sign_eq_some.mpr ⟨blob, rest, data, rest', hblob, hdata, rfl⟩
            rw [h] at hr
            cases hr
  | addIdentity =>
    cases hrun
    unfold addKey
    split
    · exact reply_failure_isRefusal s
    · rename_i blob key rest hread
      simp only [Arm.parse, hread, Except.toOption] at h
      cases h
  | addIdConstrained =>
    cases hrun
    unfold addKey
    split
    · exact reply_failure_isRefusal s
    · rename_i blob key rest hread
      rw [if_pos rfl]
      split
      · rename_i cs hcs
        simp only [Arm.parse, hread, Except.toOption, Option.bind_eq_bind, Option.bind_some,
          hcs] at h
        cases h
      · exact ⟨rfl, rfl, rfl⟩
  | removeIdentity =>
    cases hrun
    unfold Agent.removeIdentity
    split
    · exact reply_failure_isRefusal s
    · rename_i blob rest hblob
      simp only [Arm.parse, hblob, Except.toOption] at h
      cases h
  | lock =>
    cases hrun
    unfold Agent.lock
    split
    · exact reply_failure_isRefusal s
    · rename_i password rest hpassword
      simp only [Arm.parse, hpassword, Except.toOption] at h
      cases h
  | unlock =>
    cases hrun
    unfold Agent.unlock
    split
    · exact reply_failure_isRefusal s
    · rename_i password rest hpassword
      simp only [Arm.parse, hpassword, Except.toOption] at h
      cases h

/-- Of a message that is let through, the server does what the request asks for that it reads; a
message that it cannot read, or does not let through, is refused or ends the connection. -/
theorem respond_of_parse (isLocked : Bool) (buf : Bytes) :
    (∀ r : Request K, Request.parse K buf = some r →
      respond isLocked env buf s = (if (chosenArm isLocked env buf).isSome then r.perform env s
        else some (reply [Msg.failure] s))) ∧
    (Request.parse K buf = none → ∀ response, respond isLocked env buf s = some response →
      response.IsRefusal s) := by
  cases buf with
  | nil =>
    refine ⟨fun _ h => (by cases h), ?_⟩
    rintro - response h
    cases h
    exact reply_failure_isRefusal s
  | cons b bytes =>
    cases harm : Arm.ofByte b with
    | none =>
      simp only [respond, chosenArm, Request.parse, harm]
      refine ⟨fun _ h => (by cases h), ?_⟩
      rintro - response h
      cases h
      exact reply_failure_isRefusal s
    | some arm =>
      simp only [respond, chosenArm, Request.parse, harm, Option.bind_some]
      by_cases hguard : isLocked = arm.whenLocked ∧ env.confirmRequest arm.messageType = true
      · rw [if_pos hguard]
        refine ⟨?_, ?_⟩
        · intro r h
          exact Arm.run_of_parse h
        · intro h response hrun
          exact Arm.isRefusal_of_parse h hrun
      · rw [if_neg hguard]
        refine ⟨fun _ _ => rfl, ?_⟩
        rintro - response h
        cases h
        exact reply_failure_isRefusal s

end Respond

section Exchange

/-- A client and the loop of the server with the streams between them. What the server has read,
with its responses, and what the client has been answered is kept as it happens. -/
structure Link where
  toServer : Bytes
  toClient : Bytes
  /-- The message whose response the client waits for. -/
  awaiting : Option Bytes
  served : List (Bytes × Bytes)
  answered : List (Bytes × Bytes)

inductive LinkStep (K : KeyCrate) where
  /-- A method of the client writes its request. -/
  | send (r : Request K)
  /-- The server reads a message and responds. -/
  | serve (response : Bytes)
  /-- The client reads a response. -/
  | receive

namespace Link

variable {K : KeyCrate}

def init : Link := ⟨[], [], none, [], []⟩

def step (x : Link) : LinkStep K → Option Link
  | .send r =>
    match x.awaiting with
    | some _ => none
    | none =>
      match r.message, r.written with
      | .ok message, .ok bytes =>
        some { x with toServer := x.toServer ++ bytes, awaiting := some message }
      | _, _ => some x
  | .serve response =>
    match readMessage x.toServer with
    | none => none
    | some (message, rest) =>
      some { x with
        toServer := rest
        toClient := x.toClient ++ frame response
        served := x.served ++ [(message, response)] }
  | .receive =>
    match x.awaiting, readMessage x.toClient with
    | some message, some (response, rest) =>
      some { x with
        toClient := rest
        awaiting := none
        answered := x.answered ++ [(message, response)] }
    | _, _ => none

/-- Each response that the client has read answers its own request; where it waits, the request is
what the server reads next, or its response is what the client reads next. -/
structure InSync (x : Link) : Prop where
  answers : x.answered <+: x.served
  next : ∀ message, x.awaiting = some message →
    readMessage x.toServer = some (message, []) ∨
      ∃ response, readMessage x.toClient = some (response, []) ∧
        x.served = x.answered ++ [(message, response)]

end Link

/-- The request, or the response, fits a frame. -/
def LinkStep.Fits {K : KeyCrate} : LinkStep K → Prop
  | send r => r.FitsFrame
  | serve response => response.length < 2 ^ 32
  | receive => True

/-- How far the exchange of a request has got. -/
inductive Exchanging (x : Link) : Prop where
  | idle (hawaiting : x.awaiting = none) (hserver : x.toServer = []) (hclient : x.toClient = [])
      (hserved : x.answered = x.served)
  | asked (message : Bytes) (hlt : message.length < 2 ^ 32) (hawaiting : x.awaiting = some message)
      (hserver : x.toServer = frame message) (hclient : x.toClient = [])
      (hserved : x.answered = x.served)
  | served (message response : Bytes) (hlt : response.length < 2 ^ 32)
      (hawaiting : x.awaiting = some message) (hserver : x.toServer = [])
      (hclient : x.toClient = frame response)
      (hserved : x.served = x.answered ++ [(message, response)])

variable {K : KeyCrate}

theorem Exchanging.inSync {x : Link} (h : Exchanging x) : x.InSync := by
  cases h with
  | idle hawaiting _ _ hserved =>
    refine ⟨hserved ▸ List.prefix_refl _, ?_⟩
    intro message hm
    rw [hawaiting] at hm
    cases hm
  | asked message hlt hawaiting hserver _ hserved =>
    refine ⟨hserved ▸ List.prefix_refl _, ?_⟩
    intro message' hm
    rw [hawaiting] at hm
    cases hm
    left
    rw [hserver]
    exact readMessage_frame_nil hlt
  | served message response hlt hawaiting _ hclient hserved =>
    refine ⟨hserved ▸ List.prefix_append _ _, ?_⟩
    intro message' hm
    rw [hawaiting] at hm
    cases hm
    right
    exact ⟨response, by rw [hclient]; exact readMessage_frame_nil hlt, hserved⟩

theorem Exchanging.step {x y : Link} {l : LinkStep K} (h : Exchanging x) (hl : l.Fits)
    (hstep : x.step l = some y) : Exchanging y := by
  cases l with
  | send r =>
    cases h with
    | idle hawaiting hserver hclient hserved =>
      simp only [Link.step, hawaiting] at hstep
      cases hm : r.message with
      | error e =>
        rw [hm] at hstep
        cases hstep
        exact .idle hawaiting hserver hclient hserved
      | ok message =>
        obtain ⟨hpatched, hlt⟩ := hl message hm
        rw [hm, Request.written_of_message hm] at hstep
        cases hstep
        refine .asked message hlt rfl ?_ hclient hserved
        rw [hserver, Request.finish_of_isPatched message hpatched, List.nil_append]
    | asked message hlt hawaiting hserver hclient hserved =>
      simp only [Link.step, hawaiting] at hstep
      cases hstep
    | served message response hlt hawaiting hserver hclient hserved =>
      simp only [Link.step, hawaiting] at hstep
      cases hstep
  | serve response =>
    cases h with
    | idle hawaiting hserver hclient hserved =>
      simp only [Link.step, hserver, readMessage_nil] at hstep
      cases hstep
    | asked message hlt hawaiting hserver hclient hserved =>
      simp only [Link.step, hserver, readMessage_frame_nil hlt] at hstep
      cases hstep
      exact .served message response hl hawaiting rfl (by rw [hclient, List.nil_append])
        (by rw [hserved])
    | served message response hlt hawaiting hserver hclient hserved =>
      simp only [Link.step, hserver, readMessage_nil] at hstep
      cases hstep
  | receive =>
    cases h with
    | idle hawaiting hserver hclient hserved =>
      simp only [Link.step, hawaiting] at hstep
      cases hstep
    | asked message hlt hawaiting hserver hclient hserved =>
      simp only [Link.step, hawaiting, hclient, readMessage_nil] at hstep
      cases hstep
    | served message response hlt hawaiting hserver hclient hserved =>
      simp only [Link.step, hawaiting, hclient, readMessage_frame_nil hlt] at hstep
      cases hstep
      exact .idle rfl hserver rfl hserved.symm

theorem exchange_inSync (ls : List (LinkStep K))
    (h : Along Link.step (fun _ l => l.Fits) Link.init ls) :
    Along Link.step (fun x _ => x.InSync) Link.init ls :=
  Along.of_invariant (I := Exchanging) (fun _ _ _ hx hl hs => hx.step hl hs)
    (fun _ _ hx _ => hx.inSync) (.idle rfl rfl rfl rfl) h

/-- A request is written as one frame, in which the server reads that request, exactly where its
placeholder is filled in, its length fits, and the server knows the request and takes its fields;
what the server reads is what it does; and frames keep the two in sync. -/
theorem agent_framing_iff (hK : K.Documented) :
    (∀ r : Request K, r.Framed ↔ r.Fits) ∧
      (∀ (isLocked : Bool) (env : Surroundings) (buf : Bytes) (s : Shared K),
        (∀ r : Request K, Request.parse K buf = some r →
          respond isLocked env buf s = (if (chosenArm isLocked env buf).isSome then r.perform env s
            else some (reply [Msg.failure] s))) ∧
        (Request.parse K buf = none → ∀ response, respond isLocked env buf s = some response →
          response.IsRefusal s)) ∧
      ∀ ls : List (LinkStep K), Along Link.step (fun _ l => l.Fits) Link.init ls →
        Along Link.step (fun x _ => x.InSync) Link.init ls := by
  refine ⟨Request.framed_iff hK, ?_, exchange_inSync⟩
  intro isLocked env buf s
  exact respond_of_parse isLocked buf

/-- The agent is locked and unlocked. -/
def lockExchange : List (LinkStep KeyCrate.toy) :=
  [.send (.lock [7]), .serve [Msg.success], .receive, .send (.unlock [7]), .serve [Msg.success],
    .receive]

theorem lock_fits : (Request.lock [7] : Request KeyCrate.toy).Fits := by
  intro message hm
  obtain rfl := Except.ok.inj hm
  exact ⟨⟨rfl, by decide⟩, (by decide : 1 ≤ 0xFFFFF)⟩

theorem lockExchange_fits : ∀ l ∈ lockExchange, l.Fits := by
  have hlock : (LinkStep.send (.lock [7]) : LinkStep KeyCrate.toy).Fits :=
    fun message hm => (lock_fits message hm).1
  have hunlock : (LinkStep.send (.unlock [7]) : LinkStep KeyCrate.toy).Fits := by
    intro message hm
    obtain rfl := Except.ok.inj hm
    exact ⟨rfl, by decide⟩
  have hserve : (LinkStep.serve [Msg.success] : LinkStep KeyCrate.toy).Fits :=
    show [Msg.success].length < 2 ^ 32 by decide
  simp only [lockExchange, List.forall_mem_cons]
  exact ⟨hlock, hserve, trivial, hunlock, hserve, trivial, List.forall_mem_nil _⟩

theorem agent_framing_lockExchange :
    (Request.lock [7] : Request KeyCrate.toy).Framed ∧
      respond false (.confirming 0) [22, 0, 0, 0, 1, 7] (Shared.init : Shared KeyCrate.toy) =
        some (reply [Msg.success] ⟨KeyStore.empty, [7], []⟩) ∧
      Along Link.step (fun x _ => x.InSync) Link.init lockExchange := by
  have h := agent_framing_iff KeyCrate.toy_documented
  refine ⟨(h.1 _).mpr lock_fits, ?_, h.2.2 lockExchange ?_⟩
  · have hparse : Request.parse KeyCrate.toy [22, 0, 0, 0, 1, 7] = some (.lock [7]) :=
      (Request.parse_message_iff KeyCrate.toy_documented rfl).mpr (lock_fits _ rfl).2
    exact (h.2.1 false (.confirming 0) _ Shared.init).1 _ hparse
  · exact ((along_true lockExchange Link.init).and_labels lockExchange_fits).mono fun _ _ h => h.2

/-- REMOVE_ALL_IDENTITIES is no frame: the server reads an empty message, and its response is taken
for the answer. Of a key with an extension constraint the frame is read, but not the request, nor
of a signature with SHA-256. -/
theorem agent_framing_fails :
    ¬ (Request.removeAllIdentities : Request KeyCrate.toy).Framed ∧
      ¬ Along Link.step (fun x _ => x.InSync) Link.init
        [.send (.removeAllIdentities : Request KeyCrate.toy), .serve [Msg.failure], .receive,
          .receive] ∧
      ¬ (Request.addIdentity (7 : UInt8) [.extensions [] []] : Request KeyCrate.toy).Framed ∧
      ¬ (Request.signRequest [1] [] 2 : Request KeyCrate.toy).Framed := by
  refine ⟨?_, ?_, ?_, ?_⟩
  · intro h
    obtain ⟨⟨hpatched, -⟩, -⟩ := (Request.framed_iff KeyCrate.toy_documented _).mp h _ rfl
    cases hpatched
  · intro h
    obtain ⟨tail, htail⟩ := (((h.2 _ rfl).2 _ rfl).2 _ rfl).1.answers
    cases htail
  · intro h
    obtain ⟨-, hparse⟩ := h _ rfl
    cases hparse
  · intro h
    obtain ⟨-, -, -, hhash⟩ := (Request.framed_iff KeyCrate.toy_documented _).mp h _ rfl
    cases hhash

end Exchange

end Edgessh.Russh.Keys.Agent
