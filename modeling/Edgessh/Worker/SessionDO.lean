import Edgessh.Worker.Terminal

/-!
# The session object

`SshSessionDO` is a Durable Object for one SSH session. Its handlers (`handleConnect`, the TCP
pump, `terminate`, the alarm and the WebSocket handlers) share the object's fields and run
concurrently: a handler runs alone up to its next `await`, where any other handler may go on.
A label of `step` is such a stretch of one handler.

Storage operations are applied in the order in which they are issued, so `put("meta")`,
`setAlarm` and `deleteAlarm` take effect where they are called. The object serves one
`/connect` request, since the worker draws a new session id for each one; it is not evicted.
-/

namespace Edgessh.Worker.SessionDO
open Edgessh.Run

abbrev SessionId := Nat

/-- One call of `terminate`. -/
abbrev TerminateId := Nat

/-- What the generated glue does when an object is freed while some of its asynchronous methods
are still running: it may refuse, with an exception. An object that is not in use is freed. -/
structure Glue where
  freeable : Nat → Bool
  freeable_zero : freeable 0 = true

/-- The `SshSession` that `builder.connect` produced. -/
structure SshSession where
  /-- how often `disconnect` was called -/
  disconnects : Nat
  /-- how often it was released -/
  freed : Nat
  /-- `free` has been called, so that the JavaScript object refers to nothing any more -/
  destroyed : Bool
  /-- the calls of `send_data` and `resize` that are still running -/
  messages : Nat
  /-- the calls of `disconnect` that are still running -/
  disconnecting : Nat
  /-- a method was called after `free` -/
  misused : Bool
  deriving DecidableEq, Repr

namespace SshSession

def new : SshSession := ⟨0, 0, false, 0, 0, false⟩

def inFlight (x : SshSession) : Nat := x.messages + x.disconnecting

/-- `free`, and whether it returned. -/
def free (g : Glue) (x : SshSession) : SshSession × Bool :=
  if x.destroyed then ({ x with misused := true }, false)
  else if g.freeable x.inFlight then ({ x with destroyed := true, freed := x.freed + 1 }, true)
  else ({ x with destroyed := true }, false)

/-- `send_data` or `resize`, up to the point where it waits. -/
def call (x : SshSession) : SshSession :=
  if x.destroyed then { x with misused := true } else { x with messages := x.messages + 1 }

/-- A call of `send_data` or `resize` returns. -/
def settle (x : SshSession) : SshSession := { x with messages := x.messages - 1 }

/-- `disconnect`, up to the point where it waits. -/
def disconnect (x : SshSession) : SshSession :=
  if x.destroyed then { x with disconnects := x.disconnects + 1, misused := true }
  else { x with disconnects := x.disconnects + 1, disconnecting := x.disconnecting + 1 }

/-- The call of `disconnect` returns. -/
def disconnected (x : SshSession) : SshSession := { x with disconnecting := x.disconnecting - 1 }

/-- `is_connected` does not wait. -/
def isConnected (x : SshSession) : SshSession := { x with misused := x.misused || x.destroyed }

@[simp] theorem free_disconnects (g : Glue) (x : SshSession) :
    (x.free g).1.disconnects = x.disconnects := by
  unfold free
  split
  · rfl
  · split <;> rfl

@[simp] theorem disconnect_disconnects (x : SshSession) :
    x.disconnect.disconnects = x.disconnects + 1 := by
  unfold disconnect
  split <;> rfl

end SshSession

/-- Where `handleConnect` is. -/
inductive Connect where
  | notStarted
  /-- at `Promise.race` -/
  | racing
  /-- at `storage.put("meta")` -/
  | puttingMeta
  /-- at `storage.setAlarm` -/
  | settingAlarm
  | ok
  | error
  deriving DecidableEq, Repr

/-- The promise of `builder.connect`. -/
inductive Handshake where
  | notStarted
  | running
  | resolved
  | rejected
  deriving DecidableEq, Repr

/-- `Promise.race` of the handshake and the time-out. -/
inductive Race where
  | pending
  | session
  | failed
  deriving DecidableEq, Repr

/-- `pumpTcpToWasm` -/
inductive Pump where
  | notStarted
  | reading
  /-- its `finally` block has run -/
  | ended
  deriving DecidableEq, Repr

/-- Where a call of `terminate` is. -/
inductive Terminate where
  | notStarted
  /-- at `session.disconnect()` -/
  | disconnecting
  /-- at `storage.get("meta")` -/
  | gettingMeta
  /-- at `ZEROSSH_KV.get` -/
  | gettingList
  /-- at `ZEROSSH_KV.put` -/
  | puttingList (updated : List SessionId)
  /-- at `storage.deleteAll()` -/
  | deletingAll
  | done
  | threw
  deriving DecidableEq, Repr

structure State where
  /-- `this.session` is not null. -/
  session : Bool
  /-- `this.tcpSocket` is not null. -/
  tcpSocket : Bool
  terminal : Terminal
  /-- `this.sessionMeta` is not null. -/
  sessionMeta : Bool
  object : SshSession
  /-- The key `meta` of the object's storage is present. -/
  storedMeta : Bool
  /-- The object's storage has an alarm. -/
  alarm : Bool
  connect : Connect
  handshake : Handshake
  race : Race
  pump : Pump
  terminates : TerminateId → Terminate
  /-- The ids under `sessions:<userId>` in `ZEROSSH_KV`. -/
  list : Option (List SessionId)
  /-- The worker has written the session's record there. -/
  recorded : Bool

def State.init : State where
  session := false
  tcpSocket := false
  terminal := Terminal.init
  sessionMeta := false
  object := SshSession.new
  storedMeta := false
  alarm := false
  connect := .notStarted
  handshake := .notStarted
  race := .pending
  pump := .notStarted
  terminates := fun _ => .notStarted
  list := none
  recorded := false

/-- A handler goes on up to its next `await`, or something outside the object happens. -/
inductive Label where
  /-- `handleConnect` returns an error before the TCP connection is open. -/
  | refuse
  /-- `handleConnect` opens the TCP connection, starts the pump and the handshake. -/
  | open
  /-- `builder.connect` resolves. -/
  | resolve
  /-- `builder.connect` rejects. -/
  | reject
  /-- The time-out of the race fires. -/
  | timeout
  /-- `handleConnect` goes on after the race. -/
  | raced
  /-- `handleConnect` goes on after `storage.put("meta")`. -/
  | metaPut
  /-- `handleConnect` goes on after `storage.setAlarm`. -/
  | alarmSet
  /-- The worker adds the session's record to the list. -/
  | record
  /-- Other sessions of the user come and go. -/
  | others (list : Option (List SessionId))
  /-- `onData` -/
  | data (chunk : Chunk)
  /-- The TCP connection ends: the `finally` block of the pump. -/
  | pumpEnd
  /-- `handleWebSocket` -/
  | attach (ws : ClientId)
  /-- `webSocketClose` or `webSocketError` -/
  | detach (ws : ClientId)
  /-- `webSocketMessage` calls a method of the session. -/
  | message
  /-- Such a call returns. -/
  | settle
  /-- a `/status` request -/
  | status
  /-- a DELETE request -/
  | delete (t : TerminateId)
  /-- The alarm fires. -/
  | alarm (t : TerminateId)
  /-- `terminate` goes on after `session.disconnect()`. -/
  | disconnected (t : TerminateId)
  /-- It goes on after `storage.get("meta")`, which may fail. -/
  | metaGot (t : TerminateId) (ok : Bool)
  /-- It goes on after `ZEROSSH_KV.get`. -/
  | listGot (t : TerminateId) (ok : Bool)
  /-- It goes on after `ZEROSSH_KV.put`. -/
  | listPut (t : TerminateId) (ok : Bool)
  /-- It goes on after `storage.deleteAll()`. -/
  | deleted (t : TerminateId) (ok : Bool)
  deriving DecidableEq, Repr

namespace State

def setTerminate (t : TerminateId) (p : Terminate) (s : State) : State :=
  { s with terminates := Function.update s.terminates t p }

/-- `cleanup`: an exception of `free` is ignored. -/
def cleanup (g : Glue) (s : State) : State :=
  { s with
    object := if s.session then (s.object.free g).1 else s.object
    session := false
    tcpSocket := false
    terminal := s.terminal.clearBuffer }

/-- The `finally` block of the pump. -/
def endPump (g : Glue) (s : State) : State :=
  { { s with terminal := s.terminal.clearClients }.cleanup g with pump := .ended }

/-- `terminate` from the point where the session is gone: the TCP connection and the clients,
up to the first `await` of the KV clean-up. -/
def closeDown (t : TerminateId) (s : State) : State :=
  { s with tcpSocket := false, terminal := s.terminal.clearClients }.setTerminate t
    (if s.sessionMeta then .gettingList else .gettingMeta)

/-- `terminate` from `this.session.free()` on, which is a `TypeError` when `this.session` has
become null. -/
def freeSession (g : Glue) (t : TerminateId) (s : State) : State :=
  if s.session then
    match s.object.free g with
    | (object, true) => { s with object := object, session := false }.closeDown t
    | (object, false) => { s with object := object }.setTerminate t .threw
  else s.setTerminate t .threw

/-- `terminate` up to its first `await`. -/
def terminate (g : Glue) (t : TerminateId) (s : State) : State :=
  if s.session then
    if s.object.destroyed then { s with object := s.object.disconnect }.freeSession g t
    else { s with object := s.object.disconnect }.setTerminate t .disconnecting
  else s.closeDown t

/-- `webSocketClose` and `webSocketError`. -/
def webSocketClose (ws : ClientId) (s : State) : State :=
  let terminal := s.terminal.delete ws
  { s with terminal := terminal, alarm := if terminal.clients = [] then true else s.alarm }

def handleWebSocket (ws : ClientId) (s : State) : State :=
  { s with terminal := (s.terminal.handleWebSocket ws).1, alarm := false }

/-- `alarm`: the alarm that fires is no longer set. -/
def fireAlarm (g : Glue) (t : TerminateId) (s : State) : State :=
  if s.terminal.clients = [] then { s with alarm := false }.terminate g t
  else { s with alarm := false }

theorem setTerminate_self (t : TerminateId) (p : Terminate) (s : State) :
    (s.setTerminate t p).terminates t = p := by
  simp [setTerminate]

theorem setTerminate_of_ne {t t' : TerminateId} (h : t' ≠ t) (p : Terminate) (s : State) :
    (s.setTerminate t p).terminates t' = s.terminates t' := by
  simp [setTerminate, h]

/-- Another pc than the one a terminate is moved to was there before. -/
theorem setTerminate_eq {t t' : TerminateId} {p q : Terminate} {s : State}
    (h : (s.setTerminate t p).terminates t' = q) :
    t' = t ∧ p = q ∨ t' ≠ t ∧ s.terminates t' = q := by
  by_cases ht : t' = t
  · subst ht
    rw [setTerminate_self] at h
    exact .inl ⟨rfl, h⟩
  · rw [setTerminate_of_ne ht] at h
    exact .inr ⟨ht, h⟩

/-- Where `closeDown` leaves a terminate. -/
theorem closeDown_eq {t t' : TerminateId} {q : Terminate} {s : State}
    (h : (s.closeDown t).terminates t' = q) :
    t' = t ∧ (q = .gettingList ∧ s.sessionMeta = true ∨ q = .gettingMeta ∧ s.sessionMeta = false) ∨
      t' ≠ t ∧ s.terminates t' = q := by
  rcases setTerminate_eq h with ⟨ht, hp⟩ | hother
  · cases hmeta : s.sessionMeta with
    | true => exact .inl ⟨ht, .inl ⟨by rw [← hp, hmeta]; rfl, rfl⟩⟩
    | false => exact .inl ⟨ht, .inr ⟨by rw [← hp, hmeta]; rfl, rfl⟩⟩
  · exact .inr hother

theorem closeDown_of_meta {s : State} (h : s.sessionMeta = true) (t : TerminateId) :
    s.closeDown t =
      { s with tcpSocket := false, terminal := s.terminal.clearClients }.setTerminate t
        .gettingList := by
  unfold closeDown
  rw [if_pos h]

/-- What `terminate` does from `this.session.free()` on. -/
theorem freeSession_cases (g : Glue) (t : TerminateId) (s : State) :
    s.session = true ∧ (s.object.free g).2 = true ∧
        s.freeSession g t =
          { s with object := (s.object.free g).1, session := false }.closeDown t ∨
      s.session = true ∧ (s.object.free g).2 = false ∧
        s.freeSession g t = { s with object := (s.object.free g).1 }.setTerminate t .threw ∨
      s.session = false ∧ s.freeSession g t = s.setTerminate t .threw := by
  unfold freeSession
  cases hsession : s.session with
  | false => exact .inr (.inr ⟨rfl, rfl⟩)
  | true =>
    rcases hfree : s.object.free g with ⟨object, _ | _⟩
    · exact .inr (.inl ⟨rfl, rfl, by simp⟩)
    · exact .inl ⟨rfl, rfl, by simp⟩

end State

/-- The id of a session is in the list. -/
def Listed (id : SessionId) (list : Option (List SessionId)) : Prop := ∃ l, list = some l ∧ id ∈ l

instance (id : SessionId) : DecidablePred (Listed id)
  | none => isFalse (by rintro ⟨l, h, -⟩; cases h)
  | some l => decidable_of_iff (id ∈ l) (by simp [Listed])

def maxBuffer : Nat := 100 * 1024

/-- One step of the object with the session id `id`. -/
def step (g : Glue) (id : SessionId) (s : State) : Label → Option State
  | .refuse => if s.connect = .notStarted then some { s with connect := .error } else none
  | .open =>
    if s.connect = .notStarted then
      some { s with tcpSocket := true, pump := .reading, handshake := .running, connect := .racing }
    else none
  | .resolve =>
    if s.handshake = .running then
      some { s with
        handshake := .resolved
        race := if s.race = .pending then .session else s.race }
    else none
  | .reject =>
    if s.handshake = .running then
      some { s with
        handshake := .rejected
        race := if s.race = .pending then .failed else s.race }
    else none
  | .timeout =>
    if s.connect = .racing then
      some { s with race := if s.race = .pending then .failed else s.race }
    else none
  | .raced =>
    if s.connect = .racing then
      match s.race with
      | .pending => none
      | .session =>
        some { s with session := true, sessionMeta := true, storedMeta := true,
                      connect := .puttingMeta }
      | .failed => some { s with tcpSocket := false, connect := .error }
    else none
  | .metaPut =>
    if s.connect = .puttingMeta then some { s with alarm := true, connect := .settingAlarm }
    else none
  | .alarmSet => if s.connect = .settingAlarm then some { s with connect := .ok } else none
  | .record =>
    if s.connect = .ok ∧ s.recorded = false then
      some { s with list := some (s.list.getD [] ++ [id]), recorded := true }
    else none
  | .others list =>
    if Listed id list → Listed id s.list then some { s with list := list } else none
  | .data chunk =>
    if s.connect = .notStarted then none
    else some { s with terminal := (s.terminal.onData maxBuffer chunk).1 }
  | .pumpEnd => if s.pump = .reading then some (s.endPump g) else none
  | .attach ws => some (s.handleWebSocket ws)
  | .detach ws => some (s.webSocketClose ws)
  | .message => if s.session then some { s with object := s.object.call } else some s
  | .settle => if 0 < s.object.messages then some { s with object := s.object.settle } else none
  | .status => if s.session then some { s with object := s.object.isConnected } else some s
  | .delete t => if s.terminates t = .notStarted then some (s.terminate g t) else none
  | .alarm t =>
    if s.alarm = true ∧ s.terminates t = .notStarted then some (s.fireAlarm g t) else none
  | .disconnected t =>
    if s.terminates t = .disconnecting then
      some ({ s with object := s.object.disconnected }.freeSession g t)
    else none
  | .metaGot t ok =>
    if s.terminates t = .gettingMeta then
      if ok then
        some ({ s with sessionMeta := s.storedMeta }.setTerminate t
          (if s.storedMeta then .gettingList else .deletingAll))
      else some (s.setTerminate t .threw)
    else none
  | .listGot t ok =>
    if s.terminates t = .gettingList then
      match s.list with
      | some sessions =>
        if ok then some (s.setTerminate t (.puttingList (sessions.filter (· ≠ id))))
        else some (s.setTerminate t .deletingAll)
      | none => some (s.setTerminate t .deletingAll)
    else none
  | .listPut t ok =>
    match s.terminates t with
    | .puttingList updated =>
      if ok then some ({ s with list := some updated }.setTerminate t .deletingAll)
      else some (s.setTerminate t .deletingAll)
    | _ => none
  | .deleted t ok =>
    if s.terminates t = .deletingAll then
      if ok then
        some ({ s with storedMeta := false, terminal := s.terminal.clearBuffer }.setTerminate t
          .done)
      else some (s.setTerminate t .threw)
    else none

end Edgessh.Worker.SessionDO
