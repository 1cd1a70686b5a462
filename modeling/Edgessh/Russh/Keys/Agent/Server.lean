import Edgessh.Lib.Run
import Edgessh.Russh.Keys.Agent
import Mathlib.Data.List.Nodup
import Mathlib.Logic.Function.Basic

/-!
# The agent server

`keys/agent/server.rs`. All connections share the key store and the lock. `respond` looks at the
lock when a request has been read, asks the application with `confirm_request`, and works on the
shared state once that has been answered; in between, the other connections and the timers of the
key lifetimes go on. What `respond` does after the question touches the shared state once, so it
is one step.
-/

namespace Edgessh.Russh.Keys.Agent
open Edgessh.Run

inductive MessageType where
  | requestKeys
  | addKeys
  | removeKeys
  | removeAllKeys
  | sign
  | lock
  | unlock
  deriving DecidableEq, Repr

/-- A key with the time at which it was added. -/
structure Entry (K : KeyCrate) where
  key : K.Keypair
  time : Nat
  constraints : List Constraint

/-- The map from public key blobs to keys. -/
structure KeyStore (K : KeyCrate) where
  entries : List (Bytes × Entry K)
  nodup : (entries.map Prod.fst).Nodup

namespace KeyStore

variable {K : KeyCrate}

def empty : KeyStore K := ⟨[], List.nodup_nil⟩

def get? (keys : KeyStore K) (blob : Bytes) : Option (Entry K) :=
  (keys.entries.find? fun e => e.1 = blob).map Prod.snd

def remove (keys : KeyStore K) (blob : Bytes) : KeyStore K where
  entries := keys.entries.filter fun e => e.1 ≠ blob
  nodup := keys.nodup.sublist (List.filter_sublist.map Prod.fst)

theorem notMem_remove (keys : KeyStore K) (blob : Bytes) :
    blob ∉ (keys.remove blob).entries.map Prod.fst := by
  intro h
  obtain ⟨e, he, hblob⟩ := List.mem_map.mp h
  exact absurd hblob (of_decide_eq_true (List.mem_filter.mp he).2)

def insert (keys : KeyStore K) (blob : Bytes) (entry : Entry K) : KeyStore K where
  entries := (blob, entry) :: (keys.remove blob).entries
  nodup := List.nodup_cons.mpr ⟨keys.notMem_remove blob, (keys.remove blob).nodup⟩

def length (keys : KeyStore K) : Nat := keys.entries.length

@[simp] theorem get?_insert_self (keys : KeyStore K) (blob : Bytes) (entry : Entry K) :
    (keys.insert blob entry).get? blob = some entry := by
  simp [get?, insert]

end KeyStore

/-- What the connections share, and the keys whose lifetime is being waited for. -/
structure Shared (K : KeyCrate) where
  keys : KeyStore K
  lock : Bytes
  timers : List (Bytes × Nat)

namespace Shared

variable {K : KeyCrate}

def init : Shared K := ⟨KeyStore.empty, [], []⟩

def setKeys (keys : KeyStore K) (s : Shared K) : Shared K := { s with keys }

def setLock (lock : Bytes) (s : Shared K) : Shared K := { s with lock }

def addTimers (timers : List (Bytes × Nat)) (s : Shared K) : Shared K :=
  { s with timers := s.timers ++ timers }

@[simp] theorem setLock_lock (lock : Bytes) (s : Shared K) : (s.setLock lock).lock = lock := rfl

end Shared

/-- What a request finds outside of the agent: the answer of `confirm_request`, the time, and the
order in which the map of keys is walked through. -/
structure Surroundings where
  confirmRequest : MessageType → Bool
  now : Nat
  order : List Bytes → List Bytes

/-- An application that confirms everything. -/
def Surroundings.confirming (now : Nat) : Surroundings := ⟨fun _ => true, now, id⟩

/-- The outcome of `respond`: the message of the response, and the answers that `Agent::confirm`
gave for keys. -/
structure Response (K : KeyCrate) where
  message : Bytes
  confirms : List (Bytes × Bool)
  shared : Shared K

section Arms

variable {K : KeyCrate}

/-- The response, where `Agent::confirm` has not been called. -/
def reply (message : Bytes) (s : Shared K) : Response K := ⟨message, [], s⟩

/-- REQUEST_IDENTITIES. -/
def requestIdentities (order : List Bytes → List Bytes) (s : Shared K) :
    Except EncodingError (Response K) := do
  let blobs ← (order (s.keys.entries.map Prod.fst)).mapM encodeField
  pure (reply (Msg.identitiesAnswer :: encodeU32 s.keys.length ++
    blobs.flatMap fun blob => blob ++ encodeBytes []) s)

/-- The loop over the constraints: what has been read of them, and whether all could be; a
`none` is an error. -/
def parseConstraints : Bytes → List Constraint × Option Bool
  | [] => ([], some true)
  | t :: r =>
    if t = Msg.constrainLifetime then
      match r with
      | a :: b :: c :: d :: r =>
        let (cs, ok) := parseConstraints r
        (.keyLifetime (UInt32.ofNat (u32OfBytes a b c d)) :: cs, ok)
      | _ => ([], none)
    else if t = Msg.constrainConfirm then
      let (cs, ok) := parseConstraints r
      (.confirm :: cs, ok)
    else ([], some false)

/-- The timers that the constraints start. -/
def timersOf (blob : Bytes) (now : Nat) (cs : List Constraint) : List (Bytes × Nat) :=
  cs.filterMap fun
    | .keyLifetime _ => some (blob, now)
    | _ => none

/-- The key of an ADD_IDENTITY and its blob. -/
def readIdentity (K : KeyCrate) (r : Bytes) :
    Except EncodingError ((Bytes × K.Keypair) × Bytes) := do
  let (key, r) ← K.decode r
  let (_, r) ← decodeString r
  let blob ← K.publicBlob key
  pure ((blob, key), r)

/-- ADD_IDENTITY and ADD_ID_CONSTRAINED. Once the key has been read, SUCCESS is written before the
constraints are looked at; where they cannot be read, FAILURE is written after it. -/
def addKey (now : Nat) (constrained : Bool) (r : Bytes) (s : Shared K) : Response K :=
  match readIdentity K r with
  | .error _ => reply [Msg.failure] s
  | .ok ((blob, key), r) =>
    if constrained then
      match parseConstraints r with
      | (cs, some true) =>
        reply [Msg.success]
          ((s.addTimers (timersOf blob now cs)).setKeys (s.keys.insert blob ⟨key, now, cs⟩))
      | (cs, _) => reply [Msg.success, Msg.failure] (s.addTimers (timersOf blob now cs))
    else reply [Msg.success] (s.setKeys (s.keys.insert blob ⟨key, now, []⟩))

/-- The future that stands in the place of a call of `Agent::confirm`. -/
def readyConfirm : Bool := true

/-- SIGN_REQUEST; an error ends the connection. -/
def trySign (r : Bytes) (s : Shared K) : Option (Response K) :=
  match decodeBytes r with
  | .error _ => none
  | .ok (blob, r) =>
    match s.keys.get? blob with
    | none => some (reply [Msg.failure] s)
    | some entry =>
      if entry.constraints.contains .confirm && !readyConfirm then some (reply [Msg.failure] s)
      else
        match decodeBytes r with
        | .error _ => none
        | .ok (data, _) =>
          match K.sign entry.key data with
          | none => none
          | some signature =>
            match encodeField signature with
            | .error _ => none
            | .ok field => some (reply (Msg.signResponse :: field) s)

/-- REMOVE_IDENTITY. -/
def removeIdentity (r : Bytes) (s : Shared K) : Response K :=
  match decodeBytes r with
  | .error _ => reply [Msg.failure] s
  | .ok (blob, _) =>
    match s.keys.get? blob with
    | some _ => reply [Msg.success] (s.setKeys (s.keys.remove blob))
    | none => reply [Msg.failure] s

/-- LOCK. -/
def lock (r : Bytes) (s : Shared K) : Response K :=
  match decodeBytes r with
  | .error _ => reply [Msg.failure] s
  | .ok (password, _) => reply [Msg.success] (s.setLock (s.lock ++ password))

/-- UNLOCK. -/
def unlock (r : Bytes) (s : Shared K) : Response K :=
  match decodeBytes r with
  | .error _ => reply [Msg.failure] s
  | .ok (password, _) =>
    if s.lock = password then reply [Msg.success] (s.setLock [])
    else reply [Msg.failure] s

end Arms

/-- The arms of `respond`. -/
inductive Arm where
  | requestIdentities
  | sign
  | addIdentity
  | removeIdentity
  | removeAll
  | lock
  | unlock
  | addIdConstrained
  deriving DecidableEq, Repr

namespace Arm

/-- The arm for a message, by its first byte. -/
def ofByte (b : UInt8) : Option Arm :=
  if b = Msg.requestIdentities then some .requestIdentities
  else if b = Msg.signRequest then some .sign
  else if b = Msg.addIdentity then some .addIdentity
  else if b = Msg.removeIdentity then some .removeIdentity
  else if b = Msg.removeAllIdentities then some .removeAll
  else if b = Msg.lock then some .lock
  else if b = Msg.unlock then some .unlock
  else if b = Msg.addIdConstrained then some .addIdConstrained
  else none

def messageType : Arm → MessageType
  | requestIdentities => .requestKeys
  | sign => .sign
  | addIdentity => .addKeys
  | removeIdentity => .removeKeys
  | removeAll => .removeAllKeys
  | lock => .lock
  | unlock => .unlock
  | addIdConstrained => .addKeys

/-- The arm is for a locked agent. -/
def whenLocked : Arm → Bool
  | unlock => true
  | _ => false

/-- The body of an arm; `none` ends the connection. -/
def run {K : KeyCrate} (env : Surroundings) (r : Bytes) (s : Shared K) :
    Arm → Option (Response K)
  | requestIdentities => (Agent.requestIdentities env.order s).toOption
  | sign => trySign r s
  | addIdentity => some (addKey env.now false r s)
  | removeIdentity => some (Agent.removeIdentity r s)
  | removeAll => some (reply [Msg.success] (s.setKeys KeyStore.empty))
  | lock => some (Agent.lock r s)
  | unlock => some (Agent.unlock r s)
  | addIdConstrained => some (addKey env.now true r s)

end Arm

/-- The arm whose guard holds: the lock as it was found agrees, and the application confirms. -/
def chosenArm (isLocked : Bool) (env : Surroundings) (buf : Bytes) : Option (Arm × Bytes) :=
  match buf with
  | [] => none
  | b :: r =>
    match Arm.ofByte b with
    | none => none
    | some arm =>
      if isLocked = arm.whenLocked ∧ env.confirmRequest arm.messageType = true then some (arm, r)
      else none

/-- `respond`, from the answer of `confirm_request` on. -/
def respond {K : KeyCrate} (isLocked : Bool) (env : Surroundings) (buf : Bytes) (s : Shared K) :
    Option (Response K) :=
  match chosenArm isLocked env buf with
  | some (arm, r) => arm.run env r s
  | none => some (reply [Msg.failure] s)

/-- A message as it is written to the stream: its length, taken modulo `2 ^ 32`, and its bytes. -/
def frame (message : Bytes) : Bytes := encodeU32 message.length ++ message

/-- One round of the loops that read messages: a length and as many bytes, or more of the stream
is waited for. -/
def readMessage (stream : Bytes) : Option (Bytes × Bytes) :=
  match decodeU32 stream with
  | .error _ => none
  | .ok (len, r) => if len ≤ r.length then some (r.take len, r.drop len) else none

section Machine

abbrev ConnectionId := Nat

/-- A request that `respond` works on: the message, and the lock as it was found. -/
structure Pending where
  buf : Bytes
  isLocked : Bool
  deriving DecidableEq, Repr

/-- The agent with its connections. -/
structure System (K : KeyCrate) where
  shared : Shared K
  pending : ConnectionId → Option Pending

inductive Step where
  /-- A message has been read from a connection. -/
  | receive (c : ConnectionId) (buf : Bytes)
  /-- The application has answered, and the response is made. -/
  | answer (c : ConnectionId) (env : Surroundings)
  /-- The `n`th timer ends. -/
  | expire (n : Nat)

/-- A request with nothing in between. -/
def Step.request (c : ConnectionId) (now : Nat) (buf : Bytes) : List Step :=
  [.receive c buf, .answer c (.confirming now)]

variable {K : KeyCrate}

def System.init : System K := ⟨Shared.init, fun _ => none⟩

/-- The end of a timer: the key is removed unless it has been added again since. -/
def Shared.expire (blob : Bytes) (time : Nat) (s : Shared K) : Shared K :=
  match s.keys.get? blob with
  | some entry => if entry.time = time then s.setKeys (s.keys.remove blob) else s
  | none => s

/-- What the peer of a connection and the application see. -/
inductive Event where
  | received (c : ConnectionId) (buf : Bytes)
  /-- The response to the request of a connection, or its end, after the answer of
  `confirm_request` and the answers of `Agent::confirm`. -/
  | responded (c : ConnectionId) (confirmRequest : MessageType → Bool)
      (message : Option Bytes) (confirms : List (Bytes × Bool))
  | expired

/-- A step with what is seen of it. -/
def System.next (s : System K) : Step → Option (Event × System K)
  | .receive c buf =>
    match s.pending c with
    | some _ => none
    | none => some (.received c buf,
        { s with pending := Function.update s.pending c (some ⟨buf, !s.shared.lock.isEmpty⟩) })
  | .answer c env =>
    match s.pending c with
    | none => none
    | some p =>
      match respond p.isLocked env p.buf s.shared with
      | none => some (.responded c env.confirmRequest none [],
          { s with pending := Function.update s.pending c none })
      | some response => some (.responded c env.confirmRequest (some response.message)
          response.confirms,
          ⟨response.shared, Function.update s.pending c none⟩)
  | .expire n =>
    match s.shared.timers[n]? with
    | none => none
    | some (blob, time) =>
      let shared := s.shared.expire blob time
      some (.expired, { s with shared := { shared with timers := shared.timers.eraseIdx n } })

end Machine

end Edgessh.Russh.Keys.Agent
