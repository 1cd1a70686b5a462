import Edgessh.Russh.Keys.Agent.Client
import Edgessh.Russh.Keys.Agent.Confirm

/-!
# What the client makes of an answer

A method that changes the state of the agent returns `Ok` or an error, and a caller has nothing
else to go by. `add_identity` and `remove_all_identities` look at the response, in `read_success`;
the others are content that there is one. So a `lock` or a `remove_identity` that the agent has
refused returns `Ok`.
-/

namespace Edgessh.Russh.Keys.Agent

/-- The errors of the methods. -/
inductive ClientError where
  | encoding (e : EncodingError)
  /-- The stream ends, or nothing more comes. -/
  | io
  | agentFailure
  | agentProtocolError
  deriving DecidableEq, Repr

/-- The requests that change the state of the agent. -/
inductive Change (K : KeyCrate) where
  | addIdentity (key : K.Keypair) (constraints : List Constraint)
  | addSmartcardKey (id pin : Bytes) (constraints : List Constraint)
  | removeSmartcardKey (id pin : Bytes)
  | lock (passphrase : Bytes)
  | unlock (passphrase : Bytes)
  | removeIdentity (keyData : Bytes)
  | removeAllIdentities

section Methods

variable {K : KeyCrate}

def Change.request : Change K → Request K
  | addIdentity key constraints => .addIdentity key constraints
  | addSmartcardKey id pin constraints => .addSmartcardKey id pin constraints
  | removeSmartcardKey id pin => .removeSmartcardKey id pin
  | lock passphrase => .lock passphrase
  | unlock passphrase => .unlock passphrase
  | removeIdentity keyData => .removeIdentity keyData
  | removeAllIdentities => .removeAllIdentities

/-- The response is SUCCESS. -/
def isSuccess (message : Bytes) : Bool := message.head? = some Msg.success

/-- The end of `read_success`. -/
def readSuccess (message : Bytes) : Except ClientError Unit :=
  if isSuccess message then .ok () else .error .agentFailure

/-- What a method returns when it has read a response. -/
def Change.result (message : Bytes) : Change K → Except ClientError Unit
  | addIdentity .. | removeAllIdentities => readSuccess message
  | addSmartcardKey .. | removeSmartcardKey .. | lock _ | unlock _ | removeIdentity _ => .ok ()

/-- The method looks at the response. -/
def Change.looks : Change K → Bool
  | addIdentity .. | removeAllIdentities => true
  | _ => false

/-- The client reads a message from the stream. -/
def readFrame (stream : Bytes) : Except ClientError Bytes :=
  match readMessage stream with
  | none => .error .io
  | some (message, _) => .ok message

/-- `read_response`, with an agent that answers a message or ends the connection. -/
def readResponse (r : Request K) (serve : Bytes → Option Bytes) : Except ClientError Bytes :=
  match r.written with
  | .error e => .error (.encoding e)
  | .ok bytes =>
    match readMessage bytes with
    | none => .error .io
    | some (message, _) =>
      match serve message with
      | none => .error .io
      | some response => readFrame (frame response)

/-- A method, with an agent that answers. -/
def Change.call (serve : Bytes → Option Bytes) (x : Change K) : Except ClientError Unit :=
  match readResponse x.request serve with
  | .error e => .error e
  | .ok message => x.result message

/-- The server as an agent that answers. -/
def serveFrom (isLocked : Bool) (env : Surroundings) (s : Shared K) (buf : Bytes) : Option Bytes :=
  (respond isLocked env buf s).map Response.message

/-- What the server holds when it has answered a request. -/
def sharedAfter (isLocked : Bool) (env : Surroundings) (s : Shared K) (r : Request K) : Shared K :=
  match r.written with
  | .error _ => s
  | .ok bytes =>
    match readMessage bytes with
    | none => s
    | some (message, _) =>
      match respond isLocked env message s with
      | none => s
      | some response => response.shared

/-- The method returns `Ok` if the response is SUCCESS, and only then. -/
def Reflects (serve : Bytes → Option Bytes) (x : Change K) : Prop :=
  x.call serve = .ok () ↔
    ∃ message, readResponse x.request serve = .ok message ∧ isSuccess message = true

/-- `lock` returns `Ok` only if the agent is locked. -/
def LockTold (isLocked : Bool) (env : Surroundings) (s : Shared K) (passphrase : Bytes) : Prop :=
  (Change.lock passphrase : Change K).call (serveFrom isLocked env s) = .ok () →
    (sharedAfter isLocked env s (.lock passphrase)).lock ≠ []

/-- `remove_identity` returns `Ok` only if the key is gone. -/
def RemovalTold (isLocked : Bool) (env : Surroundings) (s : Shared K) (keyData : Bytes) : Prop :=
  (Change.removeIdentity keyData : Change K).call (serveFrom isLocked env s) = .ok () →
    (sharedAfter isLocked env s (.removeIdentity keyData)).keys.get? keyData = none

end Methods

section Prefixes

variable {b x r : Bytes}

theorem decodeU32_append {n : Nat} {r q : Bytes} (h : decodeU32 r = .ok (n, q)) (t : Bytes) :
    decodeU32 (r ++ t) = .ok (n, q ++ t) := by
  unfold decodeU32 at h
  split at h
  · cases h
    rfl
  · cases h

/-- A field that can be read from the front of a message is the first one of it. -/
theorem decodeBytes_of_front {b' r' : Bytes} (hb : b.length < 2 ^ 32)
    (hpre : r <+: encodeBytes b ++ x) (h : decodeBytes r = .ok (b', r')) :
    b' = b ∧ b.length ≤ maxSize ∧ r' <+: x := by
  obtain ⟨t, ht⟩ := hpre
  obtain ⟨q, hq, hle, rfl⟩ := decodeBytes_eq_ok.mp h
  have hlen := decodeU32_append hq t
  rw [ht, encodeBytes, List.append_assoc, decodeU32_encodeU32, Nat.mod_eq_of_lt hb] at hlen
  obtain ⟨hlength, htail⟩ := Prod.mk.inj (Except.ok.inj hlen)
  rw [List.append_assoc] at htail
  obtain ⟨rfl, hx⟩ := List.append_inj htail hlength
  exact ⟨rfl, hle, t, hx.symm⟩

/-- What is read of one frame is the front of its message, and all of it if the length fits. -/
theorem readMessage_frame_front (message : Bytes) :
    ∃ front rest, readMessage (frame message) = some (front, rest) ∧ front <+: message ∧
      (message.length < 2 ^ 32 → front = message) := by
  refine ⟨message.take (message.length % 2 ^ 32), message.drop (message.length % 2 ^ 32), ?_,
    List.take_prefix _ _, ?_⟩
  · rw [readMessage, frame, decodeU32_encodeU32]
    show (if message.length % 2 ^ 32 ≤ message.length then _ else _) = _
    rw [if_pos (Nat.mod_le _ _)]
  · intro hlt
    rw [Nat.mod_eq_of_lt hlt, List.take_length]

end Prefixes

section Server

variable {K : KeyCrate} {isLocked : Bool} {env : Surroundings} {s : Shared K}

/-- The request is let through to its arm. -/
def LetThrough (isLocked : Bool) (env : Surroundings) (arm : Arm) : Prop :=
  isLocked = arm.whenLocked ∧ env.confirmRequest arm.messageType = true

theorem respond_nil : respond isLocked env [] s = some (reply [Msg.failure] s) := rfl

theorem respond_byte (arm : Arm) (r : Bytes) (h : LetThrough isLocked env arm) :
    respond isLocked env (arm.byte :: r) s = arm.run env r s := by
  have hchosen : chosenArm isLocked env (arm.byte :: r) = some (arm, r) :=
    chosenArm_eq_some.mpr ⟨rfl, h⟩
  rw [respond, hchosen]

theorem respond_byte_refused (arm : Arm) (r : Bytes) (h : ¬LetThrough isLocked env arm) :
    respond isLocked env (arm.byte :: r) s = some (reply [Msg.failure] s) := by
  have hchosen : chosenArm isLocked env (arm.byte :: r) = none := by
    rw [Option.eq_none_iff_forall_ne_some]
    rintro ⟨arm', r'⟩ hsome
    obtain ⟨hbyte, hthrough⟩ := chosenArm_eq_some.mp hsome
    have hsame : Arm.ofByte arm.byte = some arm' :=
      Arm.ofByte_eq_some.mpr (List.cons.inj hbyte).1
    obtain rfl : arm = arm' := Option.some.inj ((Arm.ofByte_eq_some.mpr rfl).symm.trans hsame)
    exact h hthrough
  rw [respond, hchosen]

/-- A request with one field is refused, or its arm reads the field. -/
theorem respond_field (arm : Arm) {field front : Bytes} (hfield : field.length < 2 ^ 32)
    (hpre : front <+: arm.byte :: encodeBytes field)
    (hwhole : (arm.byte :: encodeBytes field).length < 2 ^ 32 →
      front = arm.byte :: encodeBytes field)
    (hunread : ∀ r e, decodeBytes r = .error e → arm.run env r s = some (reply [Msg.failure] s)) :
    (LetThrough isLocked env arm ∧ field.length ≤ maxSize ∧
      respond isLocked env front s = arm.run env (encodeBytes field) s) ∨
    (¬(LetThrough isLocked env arm ∧ field.length ≤ maxSize) ∧
      respond isLocked env front s = some (reply [Msg.failure] s)) := by
  by_cases hthrough : LetThrough isLocked env arm
  · by_cases hsize : field.length ≤ maxSize
    · left
      have hlt : (arm.byte :: encodeBytes field).length < 2 ^ 32 := by
        unfold maxSize at hsize
        simp only [List.length_cons, encodeBytes, List.length_append, encodeU32_length]
        omega
      rw [hwhole hlt]
      exact ⟨hthrough, hsize, respond_byte arm _ hthrough⟩
    · right
      refine ⟨fun h => hsize h.2, ?_⟩
      cases front with
      | nil => exact respond_nil
      | cons b r =>
        obtain ⟨rfl, hr⟩ := List.cons_prefix_cons.mp hpre
        rw [respond_byte arm r hthrough]
        cases hdec : decodeBytes r with
        | error e => exact hunread r e hdec
        | ok p =>
          obtain ⟨b', r'⟩ := p
          rw [← List.append_nil (encodeBytes field)] at hr
          exact absurd (decodeBytes_of_front hfield hr hdec).2.1 hsize
  · right
    refine ⟨fun h => hthrough h.1, ?_⟩
    cases front with
    | nil => exact respond_nil
    | cons b r =>
      obtain ⟨rfl, -⟩ := List.cons_prefix_cons.mp hpre
      exact respond_byte_refused arm r hthrough

theorem readFrame_of_lt {response : Bytes} (h : response.length < 2 ^ 32) :
    readFrame (frame response) = .ok response := by
  rw [readFrame, readMessage_frame_nil h]

/-- What the client reads is the front of what has been answered. -/
theorem of_readFrame {response message : Bytes} (h : readFrame (frame response) = .ok message) :
    message <+: response := by
  obtain ⟨front, rest, hread, hpre, -⟩ := readMessage_frame_front response
  rw [readFrame, hread] at h
  cases h
  exact hpre

theorem of_readResponse {r : Request K} {serve : Bytes → Option Bytes} {message : Bytes}
    (h : readResponse r serve = .ok message) :
    ∃ bytes asked rest response, r.written = .ok bytes ∧
      readMessage bytes = some (asked, rest) ∧ serve asked = some response ∧
      message <+: response := by
  unfold readResponse at h
  split at h
  · cases h
  · rename_i bytes hw
    split at h
    · cases h
    · rename_i asked rest hread
      split at h
      · cases h
      · rename_i response hserve
        exact ⟨bytes, asked, rest, response, hw, hread, hserve, of_readFrame h⟩

/-- A response that the client reads. -/
theorem readResponse_of_serve {r : Request K} {serve : Bytes → Option Bytes}
    {bytes message rest response : Bytes} (hw : r.written = .ok bytes)
    (hm : readMessage bytes = some (message, rest)) (hserve : serve message = some response)
    (hlt : response.length < 2 ^ 32) : readResponse r serve = .ok response := by
  unfold readResponse
  rw [hw]
  dsimp only
  rw [hm]
  dsimp only
  rw [hserve]
  exact readFrame_of_lt hlt

theorem sharedAfter_of_respond {r : Request K} {bytes message rest : Bytes}
    {response : Response K} (hw : r.written = .ok bytes)
    (hm : readMessage bytes = some (message, rest))
    (hresponse : respond isLocked env message s = some response) :
    sharedAfter isLocked env s r = response.shared := by
  unfold sharedAfter
  rw [hw]
  dsimp only
  rw [hm]
  dsimp only
  rw [hresponse]

theorem serveFrom_of_respond {message : Bytes} {response : Response K}
    (h : respond isLocked env message s = some response) :
    serveFrom isLocked env s message = some response.message := by
  rw [serveFrom, h, Option.map_some]

/-- The outcome of a request with one field: the method returns `Ok`, whether it has been refused
or not. -/
theorem call_field (arm : Arm) {field : Bytes} {x : Change K} (hfield : field.length < 2 ^ 32)
    (hmessage : x.request.message = .ok (arm.byte :: encodeBytes field))
    (hpatched : x.request.isPatched = true) (hresult : ∀ message, x.result message = .ok ())
    (hunread : ∀ r e, decodeBytes r = .error e → arm.run env r s = some (reply [Msg.failure] s))
    {done : Response K}
    (hrun : field.length ≤ maxSize → arm.run env (encodeBytes field) s = some done)
    (hdone : done.message.length < 2 ^ 32) :
    x.call (serveFrom isLocked env s) = .ok () ∧
      ((LetThrough isLocked env arm ∧ field.length ≤ maxSize ∧
          sharedAfter isLocked env s x.request = done.shared) ∨
        (¬(LetThrough isLocked env arm ∧ field.length ≤ maxSize) ∧
          sharedAfter isLocked env s x.request = s)) := by
  have hw : x.request.written = .ok (frame (arm.byte :: encodeBytes field)) := by
    rw [Request.written_of_message hmessage, Request.finish_of_isPatched _ hpatched]
  obtain ⟨front, rest, hread, hpre, hwhole⟩ :=
    readMessage_frame_front (arm.byte :: encodeBytes field)
  have hcall (m : Bytes) (h : readResponse x.request (serveFrom isLocked env s) = .ok m) :
      x.call (serveFrom isLocked env s) = .ok () := by
    rw [Change.call, h]
    exact hresult m
  have hrespond := @respond_field K isLocked env s arm field front hfield hpre hwhole hunread
  rcases hrespond with ⟨hthrough, hsize, hresponse⟩ | ⟨hnot, hresponse⟩
  · rw [hrun hsize] at hresponse
    have hok := readResponse_of_serve hw hread (serveFrom_of_respond hresponse) hdone
    have hafter := sharedAfter_of_respond hw hread hresponse
    exact ⟨hcall _ hok, .inl ⟨hthrough, hsize, hafter⟩⟩
  · have hshort : (reply [Msg.failure] s).message.length < 2 ^ 32 := by
      simp [reply]
    have hok := readResponse_of_serve hw hread (serveFrom_of_respond hresponse) hshort
    have hafter := sharedAfter_of_respond hw hread hresponse
    exact ⟨hcall _ hok, .inr ⟨hnot, hafter⟩⟩

/-- A method whose field is too long fails before it writes anything. -/
theorem call_of_error {x : Change K} {e : EncodingError} (h : x.request.message = .error e)
    (serve : Bytes → Option Bytes) : x.call serve = .error (.encoding e) := by
  simp only [Change.call, readResponse, Request.written, h, bind, Except.bind]

/-- A field that fits a `u32` is written. -/
theorem lock_message {passphrase : Bytes} (h : passphrase.length < 2 ^ 32) :
    (Request.lock passphrase : Request K).message = .ok (Msg.lock :: encodeBytes passphrase) := by
  simp only [Request.message, Request.arguments, encodeField, if_pos h, bind, Except.bind,
    Request.code]

theorem removeIdentity_message {keyData : Bytes} (h : keyData.length < 2 ^ 32) :
    (Request.removeIdentity keyData : Request K).message =
      .ok (Msg.removeIdentity :: encodeBytes keyData) := by
  simp only [Request.message, Request.arguments, encodeField, if_pos h, bind, Except.bind,
    Request.code]

theorem reflects_iff (serve : Bytes → Option Bytes) (x : Change K) :
    Reflects serve x ↔ x.looks = true ∨
      ∀ message, readResponse x.request serve = .ok message → isSuccess message = true := by
  unfold Reflects Change.call
  cases hr : readResponse x.request serve with
  | error e => simp
  | ok message =>
    have hlooks : x.looks = true → x.result message = readSuccess message := by
      cases x <;> simp [Change.looks, Change.result]
    have hcontent : x.looks = false → x.result message = .ok () := by
      cases x <;> simp [Change.looks, Change.result]
    dsimp only
    simp only [Except.ok.injEq, exists_eq_left', forall_eq']
    cases hx : x.looks with
    | true =>
      rw [hlooks hx, readSuccess]
      refine iff_of_true ?_ (.inl rfl)
      split
      · rename_i h
        exact iff_of_true rfl h
      · rename_i h
        exact iff_of_false nofun h
    | false => simp [hcontent hx]

theorem decodeBytes_field {field : Bytes} (h : field.length ≤ maxSize) :
    decodeBytes (encodeBytes field) = .ok (field, []) := by
  have hdec := decodeBytes_encodeBytes h []
  rwa [List.append_nil] at hdec

theorem lock_of_decode {r passphrase rest : Bytes} (h : decodeBytes r = .ok (passphrase, rest)) :
    lock r s = reply [Msg.success] (s.setLock (s.lock ++ passphrase)) := by
  simp only [lock, h]

theorem removeIdentity_of_decode {r blob rest : Bytes} (h : decodeBytes r = .ok (blob, rest)) :
    removeIdentity r s = match s.keys.get? blob with
      | some _ => reply [Msg.success] (s.setKeys (s.keys.remove blob))
      | none => reply [Msg.failure] s := by
  cases hget : s.keys.get? blob with
  | none => simp only [removeIdentity, h, hget]
  | some _ => simp only [removeIdentity, h, hget]

theorem lockTold_iff (isLocked : Bool) (env : Surroundings) (s : Shared K) (passphrase : Bytes) :
    LockTold isLocked env s passphrase ↔ s.lock ≠ [] ∨
      (passphrase ≠ [] ∧ LetThrough isLocked env .lock ∧ passphrase.length ≤ maxSize) ∨
      2 ^ 32 ≤ passphrase.length := by
  unfold LockTold
  by_cases hlt : passphrase.length < 2 ^ 32
  · have hunread (r : Bytes) (e : EncodingError) (h : decodeBytes r = .error e) :
        Arm.lock.run env r s = some (reply [Msg.failure] s) := by
      simp only [Arm.run, lock, h]
    have hrun (h : passphrase.length ≤ maxSize) : Arm.lock.run env (encodeBytes passphrase) s =
        some (reply [Msg.success] (s.setLock (s.lock ++ passphrase))) := by
      rw [Arm.run, lock_of_decode (decodeBytes_field h)]
    obtain ⟨hcall, hafter⟩ := @call_field K isLocked env s .lock passphrase (.lock passphrase)
      hlt (lock_message hlt) rfl (fun _ => rfl) hunread _ hrun (by simp [reply])
    simp only [Change.request] at hafter
    rw [or_iff_left (by omega : ¬2 ^ 32 ≤ passphrase.length)]
    rcases hafter with ⟨hthrough, hsize, hafter⟩ | ⟨hnot, hafter⟩
    · constructor
      · intro h
        have hlock := h hcall
        rw [hafter] at hlock
        by_cases hempty : s.lock = []
        · right
          refine ⟨?_, hthrough, hsize⟩
          rintro rfl
          exact hlock (by simp [reply, hempty])
        · exact .inl hempty
      · intro h _
        rw [hafter]
        rcases h with h | ⟨h, -, -⟩
        · simp [reply, h]
        · simp [reply, h]
    · constructor
      · intro h
        have hlock := h hcall
        rw [hafter] at hlock
        exact .inl hlock
      · intro h _
        rw [hafter]
        exact h.resolve_right fun h => hnot ⟨h.2.1, h.2.2⟩
  · have herror : (Change.lock passphrase : Change K).request.message = .error .overflow := by
      simp only [Change.request, Request.message, Request.arguments, encodeField, if_neg hlt, bind,
        Except.bind]
    refine iff_of_true ?_ (.inr (.inr (by omega)))
    intro hcall
    rw [call_of_error herror] at hcall
    cases hcall

theorem removalTold_iff (isLocked : Bool) (env : Surroundings) (s : Shared K) (keyData : Bytes) :
    RemovalTold isLocked env s keyData ↔ s.keys.get? keyData = none ∨
      (LetThrough isLocked env .removeIdentity ∧ keyData.length ≤ maxSize) ∨
      2 ^ 32 ≤ keyData.length := by
  unfold RemovalTold
  by_cases hlt : keyData.length < 2 ^ 32
  · have hunread (r : Bytes) (e : EncodingError) (h : decodeBytes r = .error e) :
        Arm.removeIdentity.run env r s = some (reply [Msg.failure] s) := by
      simp only [Arm.run, removeIdentity, h]
    obtain ⟨done, hrun, hshort, hgone⟩ : ∃ done : Response K,
        (keyData.length ≤ maxSize →
          Arm.removeIdentity.run env (encodeBytes keyData) s = some done) ∧
        done.message.length < 2 ^ 32 ∧ done.shared.keys.get? keyData = none := by
      cases hget : s.keys.get? keyData with
      | none =>
        refine ⟨reply [Msg.failure] s, ?_, by simp [reply], hget⟩
        intro hsize
        rw [Arm.run, removeIdentity_of_decode (decodeBytes_field hsize), hget]
      | some entry =>
        refine ⟨reply [Msg.success] (s.setKeys (s.keys.remove keyData)), ?_, by simp [reply],
          s.keys.get?_remove_self keyData⟩
        intro hsize
        rw [Arm.run, removeIdentity_of_decode (decodeBytes_field hsize), hget]
    obtain ⟨hcall, hafter⟩ := @call_field K isLocked env s .removeIdentity keyData
      (.removeIdentity keyData) hlt (removeIdentity_message hlt) rfl (fun _ => rfl) hunread _ hrun
      hshort
    simp only [Change.request] at hafter
    rw [or_iff_left (by omega : ¬2 ^ 32 ≤ keyData.length)]
    rcases hafter with ⟨hthrough, hsize, hafter⟩ | ⟨hnot, hafter⟩
    · refine iff_of_true ?_ (.inr ⟨hthrough, hsize⟩)
      intro _
      rw [hafter]
      exact hgone
    · rw [or_iff_left hnot, hafter]
      exact ⟨fun h => h hcall, fun h _ => h⟩
  · have herror : (Change.removeIdentity keyData : Change K).request.message =
        .error .overflow := by
      simp only [Change.request, Request.message, Request.arguments, encodeField, if_neg hlt, bind,
        Except.bind]
    refine iff_of_true ?_ (.inr (.inr (by omega)))
    intro hcall
    rw [call_of_error herror] at hcall
    cases hcall

/-- What the methods return is what the agent has answered exactly where they look at it, or the
answer is SUCCESS; and what `lock` and `remove_identity` tell of this server holds where the
request is let through, or nothing was to be done. -/
theorem answers_reflected_iff :
    (∀ (serve : Bytes → Option Bytes) (x : Change K), Reflects serve x ↔ x.looks = true ∨
      ∀ message, readResponse x.request serve = .ok message → isSuccess message = true) ∧
    (∀ (isLocked : Bool) (env : Surroundings) (s : Shared K) (passphrase : Bytes),
      LockTold isLocked env s passphrase ↔ s.lock ≠ [] ∨
        (passphrase ≠ [] ∧ LetThrough isLocked env .lock ∧ passphrase.length ≤ maxSize) ∨
        2 ^ 32 ≤ passphrase.length) ∧
    ∀ (isLocked : Bool) (env : Surroundings) (s : Shared K) (keyData : Bytes),
      RemovalTold isLocked env s keyData ↔ s.keys.get? keyData = none ∨
        (LetThrough isLocked env .removeIdentity ∧ keyData.length ≤ maxSize) ∨
        2 ^ 32 ≤ keyData.length :=
  ⟨reflects_iff, lockTold_iff, removalTold_iff⟩

/-- An application that refuses everything. -/
def Surroundings.refusing : Surroundings := ⟨fun _ => false, 0, id⟩

/-- An agent with one key. -/
def Shared.oneKey : Shared KeyCrate.toy :=
  Shared.init.setKeys (KeyStore.empty.insert [9] ⟨(9 : UInt8), 0, []⟩)

/-- A lock that is answered with FAILURE, a lock that the application refuses, and a removal that it
refuses, all return `Ok`. -/
theorem not_answers_reflected :
    ¬Reflects (fun _ => some [Msg.failure]) (Change.lock [7] : Change KeyCrate.toy) ∧
      ¬LockTold false .refusing (Shared.init : Shared KeyCrate.toy) [7] ∧
      ¬RemovalTold false .refusing Shared.oneKey [9] := by
  have hrefused (arm : Arm) : ¬LetThrough false .refusing arm := fun h => Bool.false_ne_true h.2
  refine ⟨?_, ?_, ?_⟩
  · rw [reflects_iff]
    rintro (hlooks | hsuccess)
    · cases hlooks
    · have hw : (Change.lock [7] : Change KeyCrate.toy).request.written =
          .ok (frame (Msg.lock :: encodeBytes [7])) := rfl
      have hread : readMessage (frame (Msg.lock :: encodeBytes [7])) = some (_, []) :=
        readMessage_frame_nil (by decide)
      have hanswer := hsuccess _ (readResponse_of_serve hw hread rfl (by decide))
      exact absurd hanswer (by decide)
  · rw [lockTold_iff]
    rintro (hlock | ⟨-, hthrough, -⟩ | hlong)
    · exact hlock rfl
    · exact hrefused _ hthrough
    · exact absurd hlong (by decide)
  · rw [removalTold_iff]
    rintro (hgone | ⟨hthrough, -⟩ | hlong)
    · cases hgone
    · exact hrefused _ hthrough
    · exact absurd hlong (by decide)

end Server

end Edgessh.Russh.Keys.Agent
