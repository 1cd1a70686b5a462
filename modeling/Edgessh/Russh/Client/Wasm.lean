import Edgessh.Russh.Client.ClockTurn
import Edgessh.Russh.Client.HostKey
import Edgessh.Russh.Session.Output

/-!
# The event loop under wasm32

`client/mod.rs` has `run_inner` twice. Without wasm32 a timer is a `Sleep`, whose deadline is fixed
when it is made and when it is reset. Under wasm32 it is a future that calls `setTimeout` when it is
first polled, with the duration in milliseconds as an `i32`, and instead of being reset it is made
again. The rest of the loop is the same text, and the same turn but for the clock: what `flush`
calls under wasm32 panics when the clock is behind the last rekey.
-/

namespace Edgessh.Russh
open Edgessh.Command Edgessh.Run

namespace Client.Wasm
open AppM Client

variable (P : Primitives)

/-- The arm of the `select!` for a packet. -/
def readPacket (env : ClientEnv) (seqn : UInt32) (payload : Bytes) : ClientM TurnResult := do
  let pkt ← maybeDecompress P seqn payload
  match pkt.buffer with
  | [] => pure (.next seqn)
  | msg :: r =>
    modify (Session.record (.received pkt.buffer))
    if msg = Msg.disconnect then
      modify fun s => { s with common := { s.common with disconnected := true } }
      pure (.disconnected ((readDisconnect r).mapError Exn.error))
    else
      modify fun s => { s with common := { s.common with receivedData := true } }
      let seqn ← reply P env pkt
      pure (.next seqn)

/-- The arm for the keepalive. -/
def keepaliveTimer : ClientM Unit := do
  modify fun s =>
    { s with common := { s.common with aliveTimeouts := s.common.aliveTimeouts + 1 } }
  let s ← get
  if s.common.config.keepaliveMax ≠ 0 ∧ s.common.config.keepaliveMax < s.common.aliveTimeouts then
    throw (Exn.error .keepaliveTimeout)
  (sendKeepalive (P := P) true).run

/-- The arm for the messages of the handles. -/
def takeMessages (env : ClientEnv) : Nat → ClientM Unit
  | 0 => pure ()
  | n + 1 => do
    let s ← get
    match s.own.receiver with
    | [] => pure ()
    | m :: ms =>
      if s.kex.active then pure ()
      else
        set { s with own := { s.own with receiver := ms } }
        handleMsg P env m
        takeMessages env n

/-- The arm for the messages of the channels. -/
def takeInboundMessages (env : ClientEnv) : Nat → ClientM Unit
  | 0 => pure ()
  | n + 1 => do
    let s ← get
    match s.own.inboundChannelReceiver with
    | [] => pure ()
    | m :: ms =>
      if s.kex.active then pure ()
      else
        set { s with own := { s.own with inboundChannelReceiver := ms } }
        handleMsg P env m
        takeInboundMessages env n

/-- The `select!`, with what `sent_keepalive` is after it. -/
def select (env : ClientEnv) (seqn : UInt32) : ClientInput → ClientM (TurnResult × Bool)
  | .packet payload => do
    let result ← readPacket P env (seqn + 1) payload
    pure (result, false)
  | .shortPacket => pure (.stop, false)
  | .readError e => throw (Exn.error e)
  | .keepaliveTimer => do
    keepaliveTimer P
    pure (.next seqn, true)
  | .inactivityTimer => throw (Exn.error .inactivityTimeout)
  | .receive => do
    let s ← get
    if s.own.receiver = [] then
      modify fun s => { s with common := { s.common with disconnected := true } }
      pure (.stop, false)
    else
      takeMessages P env s.own.receiver.length
      pure (.next seqn, false)
  | .receiveInbound => do
    let s ← get
    takeInboundMessages P env s.own.inboundChannelReceiver.length
    pure (.next seqn, false)
  | .send _ | .sendInbound _ | .dropHandles => pure (.next seqn, false)

/-- What is behind the `select!`, up to the timers. -/
def endTurn (env : ClientEnv) : ClientM Unit := do
  (flush (P := P) env).run
  modify initCompression
  modify fun s =>
    if s.common.receivedData then { s with common := { s.common with aliveTimeouts := 0 } } else s

/-- A turn of the loop, up to the timers. -/
def turn (env : ClientEnv) (seqn : UInt32) (input : ClientInput) :
    ClientM (TurnResult × Bool) := do
  modify fun s => { s with common := { s.common with receivedData := false } }
  let result ← select P env seqn input
  match result.1 with
  | .stop => pure ()
  | _ => endTurn P env
  pure result

end Client.Wasm

namespace Client

/-- `sent_keepalive` at the end of a turn. -/
def sendsKeepalive : ClientInput → Bool
  | .keepaliveTimer => true
  | _ => false

end Client

namespace Client.Wasm
open Client

variable (P : Primitives) (env : ClientEnv)

theorem takeMessages_eq (n : Nat) : takeMessages P env n = Client.takeMessages P env n := by
  induction n with
  | zero => rfl
  | succ n ih =>
    unfold takeMessages Client.takeMessages
    exact ih ▸ rfl

theorem takeInboundMessages_eq (n : Nat) :
    takeInboundMessages P env n = Client.takeInboundMessages P env n := by
  induction n with
  | zero => rfl
  | succ n ih =>
    unfold takeInboundMessages Client.takeInboundMessages
    exact ih ▸ rfl

/-- The two `select!` are one, but for what they tell of the keepalive. -/
theorem select_eq (seqn : UInt32) (input : ClientInput) :
    select P env seqn input =
      (fun result => (result, sendsKeepalive input)) <$>
        Client.select P env seqn input := by
  cases input with
  | packet payload => rfl
  | shortPacket => rfl
  | readError e => rfl
  | keepaliveTimer =>
    rw [select, Client.select, map_bind]
    rfl
  | inactivityTimer => rfl
  | receive =>
    rw [select, Client.select, map_bind]
    refine bind_congr fun s => ?_
    split
    · rw [map_bind]
      rfl
    · rw [map_bind, takeMessages_eq]
      rfl
  | receiveInbound =>
    rw [select, Client.select, map_bind]
    refine bind_congr fun s => ?_
    rw [map_bind, takeInboundMessages_eq]
    rfl
  | send m => rfl
  | sendInbound m => rfl
  | dropHandles => rfl

theorem turn_eq (seqn : UInt32) (input : ClientInput) :
    turn P env seqn input =
      (fun result => (result, sendsKeepalive input)) <$>
        Client.turn P env seqn input := by
  rw [turn, Client.turn, map_bind]
  refine bind_congr fun _ => ?_
  rw [select_eq, bind_map_left, map_bind]
  refine bind_congr fun result => ?_
  cases result with
  | stop => rfl
  | disconnected result =>
    dsimp only
    rw [map_bind]
    rfl
  | next seqn =>
    dsimp only
    rw [map_bind]
    rfl

end Client.Wasm

namespace Client
open Edgessh.Run

/-- The durations of the configuration, in nanoseconds. -/
structure Durations where
  keepalive : Option Nat
  inactivity : Option Nat
  deriving DecidableEq, Repr

/-- The future of `sleep_ms`: when and for how long it has been made, and when it has been polled
for the first time and has called `setTimeout`. -/
structure SleepMs where
  created : Nat
  duration : Nat
  started : Option Nat
  deriving DecidableEq, Repr

namespace SleepMs

/-- `as_millis() as i32`. -/
def millis (duration : Nat) : Int := Int.bmod (duration / 1000000 : Nat) (2 ^ 32)

/-- What `setTimeout` waits for: nothing if the number is negative. -/
def timeout (duration : Nat) : Nat := (millis duration).toNat * 1000000

def make (now duration : Nat) : SleepMs := ⟨now, duration, none⟩

def poll (now : Nat) (t : SleepMs) : SleepMs := { t with started := t.started.or (some now) }

def deadline? (t : SleepMs) : Option Nat := t.started.map fun start => start + timeout t.duration

end SleepMs

inductive Timer where
  | keepalive
  | inactivity
  deriving DecidableEq, Repr

/-- The loop without wasm32, with the deadlines of its timers. -/
structure NativeLoop where
  loop : ClientLoop
  keepalive : Option Nat
  inactivity : Option Nat

/-- The loop under wasm32, with its timers. -/
structure WasmLoop where
  loop : ClientLoop
  keepalive : Option SleepMs
  inactivity : Option SleepMs

/-- A `select!` polls a timer, or a turn is made, which ends at some time. -/
inductive LoopStep where
  | poll (timer : Timer) (now : Nat)
  | turn (env : ClientEnv) (input : ClientInput) (now : Nat)

/-- The input is one that the `select!` takes. -/
def isTurn : ClientInput → Bool
  | .send _ | .sendInbound _ | .dropHandles => false
  | _ => true

namespace NativeLoop

variable (P : Primitives) (d : Durations)

/-- `reset`, if there are a timer and a duration. -/
def reset (now : Nat) : Option Nat → Option Nat → Option Nat
  | some _, some duration => some (now + duration)
  | timer, _ => timer

/-- The timers at the end of a turn: `reset` if there is one. -/
def rearm (now : Nat) (s : ClientSession) (sentKeepalive : Bool) (n : NativeLoop) : NativeLoop :=
  { n with
    keepalive :=
      if s.common.receivedData || sentKeepalive then reset now n.keepalive d.keepalive
      else n.keepalive
    inactivity :=
      if !sentKeepalive then reset now n.inactivity d.inactivity else n.inactivity }

/-- The loop behind the `select!`; a turn that leaves it does not reach the timers. -/
def afterTurn (now : Nat) (sentKeepalive : Bool) (n : NativeLoop) :
    EStateM.Result Exn ClientSession TurnResult → NativeLoop
  | .error e s => { n with loop := Client.afterTurn n.loop (.error e s) }
  | .ok .stop s => { n with loop := Client.afterTurn n.loop (.ok .stop s) }
  | .ok result s =>
    { n.rearm d now s sentKeepalive with loop := Client.afterTurn n.loop (.ok result s) }

/-- Polling a `Sleep` does not change its deadline. -/
def step (n : NativeLoop) : LoopStep → Option NativeLoop
  | .poll _ _ => if n.loop.running then some n else none
  | .turn env input now =>
    if isTurn input then
      if n.loop.running && enabled n.loop.session input then
        some (n.afterTurn d now (sendsKeepalive input)
          (turn (P.on .native) env n.loop.seqn input n.loop.session))
      else none
    else (Client.step (P.on .native) n.loop (env, input)).map fun loop => { n with loop }

/-- The beginning of `run_inner`. -/
def start (loop : ClientLoop) (now : Nat) : NativeLoop where
  loop
  keepalive := d.keepalive.map (now + ·)
  inactivity := d.inactivity.map (now + ·)

end NativeLoop

namespace WasmLoop

variable (P : Primitives) (d : Durations)

/-- The timers at the end of a turn: made again. -/
def rearm (now : Nat) (s : ClientSession) (sentKeepalive : Bool) (w : WasmLoop) : WasmLoop :=
  { w with
    keepalive :=
      if s.common.receivedData || sentKeepalive then d.keepalive.map (SleepMs.make now)
      else w.keepalive
    inactivity :=
      if !sentKeepalive then d.inactivity.map (SleepMs.make now) else w.inactivity }

def afterTurn (now : Nat) (w : WasmLoop) :
    EStateM.Result Exn ClientSession (TurnResult × Bool) → WasmLoop
  | .error e s =>
    { w with loop := { w.loop with session := s, result := .error e, running := false } }
  | .ok (.stop, _) s => { w with loop := { w.loop with session := s, running := false } }
  | .ok (.disconnected result, sentKeepalive) s =>
    { w.rearm d now s sentKeepalive with
      loop := { w.loop with session := s, result, running := false } }
  | .ok (.next seqn, sentKeepalive) s =>
    { w.rearm d now s sentKeepalive with
      loop := { w.loop with session := s, seqn, running := !s.common.disconnected } }

def poll (now : Nat) (w : WasmLoop) : Timer → WasmLoop
  | .keepalive => { w with keepalive := w.keepalive.map (SleepMs.poll now) }
  | .inactivity => { w with inactivity := w.inactivity.map (SleepMs.poll now) }

def step (w : WasmLoop) : LoopStep → Option WasmLoop
  | .poll timer now => if w.loop.running then some (w.poll now timer) else none
  | .turn env input now =>
    if isTurn input then
      if w.loop.running && enabled w.loop.session input then
        some (w.afterTurn d now (Wasm.turn (P.on .wasm32) env w.loop.seqn input w.loop.session))
      else none
    else (Client.step (P.on .wasm32) w.loop (env, input)).map fun loop => { w with loop }

def start (loop : ClientLoop) (now : Nat) : WasmLoop where
  loop
  keepalive := d.keepalive.map (SleepMs.make now)
  inactivity := d.inactivity.map (SleepMs.make now)

end WasmLoop

/-- The two loops, step by step. -/
structure Loops where
  native : NativeLoop
  wasm : WasmLoop

/-- A timer that has been started has the deadline of the other loop. -/
def TimersAgree : Option Nat → Option SleepMs → Prop
  | none, none => True
  | some deadline, some t => ∀ deadline', t.deadline? = some deadline' → deadline' = deadline
  | _, _ => False

/-- The sessions, the packets and the outcome are the same, and the timers have the same
deadlines. -/
structure Loops.Agree (native : NativeLoop) (wasm : WasmLoop) : Prop where
  loop : wasm.loop = native.loop
  keepalive : TimersAgree native.keepalive wasm.keepalive
  inactivity : TimersAgree native.inactivity wasm.inactivity

namespace Loops

variable (P : Primitives) (d : Durations)

def step (b : Loops) (l : LoopStep) : Option Loops := do
  let native ← b.native.step P d l
  let wasm ← b.wasm.step P d l
  some ⟨native, wasm⟩

def start (loop : ClientLoop) (now : Nat) : Loops := ⟨.start d loop now, .start d loop now⟩

/-- Both loops make the step and agree after it, or neither does. -/
def Lawful (b : Loops) (l : LoopStep) : Prop :=
  match b.native.step P d l, b.wasm.step P d l with
  | none, none => True
  | some native, some wasm => Agree native wasm
  | _, _ => False

/-- A timer that is polled for the first time: what the conversion takes off its duration has
passed since it has been made. -/
def OnTime (now : Nat) : Option SleepMs → Prop
  | some t => t.started = none → now + SleepMs.timeout t.duration = t.created + t.duration
  | none => True

/-- In a turn without wasm32 the clock is at no time behind that from which it is measured. -/
def NeverBehind (l : ClientLoop) (env : ClientEnv) (input : ClientInput) : Prop :=
  Logs Session.events (fun e => ¬e.isBehind = true) l.session
    (endState (turn (P.on .native) env l.seqn input l.session))

/-- The condition on a step. -/
def InTime (b : Loops) : LoopStep → Prop
  | .poll .keepalive now => b.wasm.loop.running = true → OnTime now b.wasm.keepalive
  | .poll .inactivity now => b.wasm.loop.running = true → OnTime now b.wasm.inactivity
  | .turn env input _ => isTurn input = true →
      (b.native.loop.running && enabled b.native.loop.session input) = true →
      NeverBehind P b.native.loop env input

/-- The condition where the durations are whole numbers of milliseconds: a timer is polled as soon
as it is made. -/
def AtOnce (b : Loops) : LoopStep → Prop
  | .poll .keepalive now => b.wasm.loop.running = true →
      ∀ t ∈ b.wasm.keepalive, t.started = none → now = t.created
  | .poll .inactivity now => b.wasm.loop.running = true →
      ∀ t ∈ b.wasm.inactivity, t.started = none → now = t.created
  | .turn env input now => b.InTime P (.turn env input now)

end Loops

section Agreement

variable {P : Primitives} {d : Durations}

theorem SleepMs.millis_of_lt {ms : Nat} (h : ms < 2 ^ 31) : millis (ms * 1000000) = ms := by
  have hms : ms * 1000000 / 1000000 = ms := by omega
  unfold millis
  rw [hms, Int.bmod_eq_of_le]
  · omega
  · omega

/-- A whole number of milliseconds that fits an `i32` is waited for. -/
theorem SleepMs.timeout_of_lt {ms : Nat} (h : ms < 2 ^ 31) :
    timeout (ms * 1000000) = ms * 1000000 := by
  have hms := millis_of_lt h
  unfold timeout
  simp only [hms, Int.toNat_natCast]

/-- What the two loops keep of a timer: how long it waits, and that the deadline is that of the
time at which it was made. -/
structure Tracks (duration deadline : Option Nat) (t : Option SleepMs) : Prop where
  duration : t.map SleepMs.duration = duration
  made : deadline = t.map fun t => t.created + t.duration
  agree : TimersAgree deadline t

section Tracks

variable {duration deadline : Option Nat} {t : Option SleepMs}

theorem tracks_make (now : Nat) (duration : Option Nat) :
    Tracks duration (duration.map (now + ·)) (duration.map (SleepMs.make now)) := by
  cases duration with
  | none => exact ⟨rfl, rfl, trivial⟩
  | some duration =>
    refine ⟨rfl, rfl, ?_⟩
    intro deadline' h
    cases h

/-- A timer that is polled agrees with the other loop exactly if it is on time. -/
theorem Tracks.poll_iff (h : Tracks duration deadline t) (now : Nat) :
    TimersAgree deadline (t.map (SleepMs.poll now)) ↔ Loops.OnTime now t := by
  obtain ⟨-, rfl, hagree⟩ := h
  cases t with
  | none => exact Iff.rfl
  | some t =>
    obtain ⟨created, duration, started⟩ := t
    cases started with
    | none =>
      constructor
      · intro h _
        exact h _ rfl
      · intro h deadline' hdeadline
        obtain rfl := Option.some.inj hdeadline
        exact h rfl
    | some start => exact iff_of_true hagree nofun

theorem Tracks.poll (h : Tracks duration deadline t) {now : Nat} (htime : Loops.OnTime now t) :
    Tracks duration deadline (t.map (SleepMs.poll now)) := by
  refine ⟨?_, ?_, (h.poll_iff now).mpr htime⟩
  · rw [← h.duration, Option.map_map]
    rfl
  · rw [h.made, Option.map_map]
    rfl

/-- `reset` and making a timer again come to the same. -/
theorem Tracks.reset (h : Tracks duration deadline t) (now : Nat) :
    NativeLoop.reset now deadline duration = duration.map (now + ·) := by
  obtain ⟨rfl, rfl, -⟩ := h
  cases t with
  | none => rfl
  | some t => rfl

/-- A whole number of milliseconds that fits an `i32` is waited for from the first poll. -/
theorem Tracks.onTime_iff (h : Tracks duration deadline t)
    (hwhole : ∀ dur ∈ duration, ∃ ms < 2 ^ 31, dur = ms * 1000000) (now : Nat) :
    Loops.OnTime now t ↔ ∀ timer ∈ t, timer.started = none → now = timer.created := by
  obtain ⟨rfl, -, -⟩ := h
  cases t with
  | none => exact iff_of_true trivial nofun
  | some t =>
    obtain ⟨ms, hms, hdur⟩ := hwhole t.duration rfl
    have htimeout : SleepMs.timeout t.duration = t.duration := hdur ▸ SleepMs.timeout_of_lt hms
    constructor
    · rintro htime timer ⟨rfl⟩ hstarted
      have hsum := htime hstarted
      omega
    · intro hcreated hstarted
      rw [htimeout, hcreated t rfl hstarted]

end Tracks

/-- What the two loops have in common. -/
structure Held (d : Durations) (b : Loops) : Prop where
  loop : b.wasm.loop = b.native.loop
  keepalive : Tracks d.keepalive b.native.keepalive b.wasm.keepalive
  inactivity : Tracks d.inactivity b.native.inactivity b.wasm.inactivity

theorem Held.agree {b : Loops} (h : Held d b) : Loops.Agree b.native b.wasm :=
  ⟨h.loop, h.keepalive.agree, h.inactivity.agree⟩

theorem held_start (loop : ClientLoop) (now : Nat) : Held d (Loops.start d loop now) :=
  ⟨rfl, tracks_make now d.keepalive, tracks_make now d.inactivity⟩

theorem Held.rearm {b : Loops} (h : Held d b) (now : Nat) (s : ClientSession)
    (sentKeepalive : Bool) (loop : ClientLoop) :
    Held d ⟨{ b.native.rearm d now s sentKeepalive with loop },
      { b.wasm.rearm d now s sentKeepalive with loop }⟩ where
  loop := rfl
  keepalive := by
    unfold NativeLoop.rearm WasmLoop.rearm
    dsimp only
    rw [h.keepalive.reset]
    split
    · exact tracks_make now d.keepalive
    · exact h.keepalive
  inactivity := by
    unfold NativeLoop.rearm WasmLoop.rearm
    dsimp only
    rw [h.inactivity.reset]
    split
    · exact tracks_make now d.inactivity
    · exact h.inactivity

theorem Held.withLoop {b : Loops} (h : Held d b) (loop : ClientLoop) :
    Held d ⟨{ b.native with loop }, { b.wasm with loop }⟩ :=
  ⟨rfl, h.keepalive, h.inactivity⟩

/-- The result of a turn, with what it tells of the keepalive. -/
def withSent (sentKeepalive : Bool) : EStateM.Result Exn ClientSession TurnResult →
    EStateM.Result Exn ClientSession (TurnResult × Bool)
  | .ok result s => .ok (result, sentKeepalive) s
  | .error e s => .error e s

/-- A turn ends in the same way in both loops. -/
theorem Held.afterTurn {b : Loops} (h : Held d b) (now : Nat) (sentKeepalive : Bool)
    (r : EStateM.Result Exn ClientSession TurnResult) :
    Held d ⟨b.native.afterTurn d now sentKeepalive r,
      b.wasm.afterTurn d now (withSent sentKeepalive r)⟩ := by
  unfold withSent
  cases r with
  | error e s =>
    simp only [NativeLoop.afterTurn, WasmLoop.afterTurn, Client.afterTurn, h.loop]
    exact h.withLoop _
  | ok result s =>
    cases result with
    | stop =>
      simp only [NativeLoop.afterTurn, WasmLoop.afterTurn, Client.afterTurn, h.loop]
      exact h.withLoop _
    | disconnected result =>
      simp only [NativeLoop.afterTurn, WasmLoop.afterTurn, Client.afterTurn, h.loop]
      exact h.rearm now s sentKeepalive _
    | next seqn =>
      simp only [NativeLoop.afterTurn, WasmLoop.afterTurn, Client.afterTurn, h.loop]
      exact h.rearm now s sentKeepalive _

/-- Where the loops agree behind a turn, it has ended in the same session. -/
theorem endState_eq_of_agree {b : Loops} {now : Nat} {sentKeepalive : Bool}
    {r r' : EStateM.Result Exn ClientSession TurnResult}
    (h : Loops.Agree (b.native.afterTurn d now sentKeepalive r)
      (b.wasm.afterTurn d now (withSent sentKeepalive r'))) : endState r' = endState r := by
  have hwasm : (b.wasm.afterTurn d now (withSent sentKeepalive r')).loop.session = endState r' := by
    cases r' with
    | error e s => rfl
    | ok result s => cases result <;> rfl
  have hnative : (b.native.afterTurn d now sentKeepalive r).loop.session = endState r := by
    cases r with
    | error e s => rfl
    | ok result s => cases result <;> rfl
  rw [← hwasm, ← hnative, h.loop]

/-- The result of a turn under wasm32. -/
theorem turn_result (env : ClientEnv) (seqn : UInt32) (input : ClientInput) (s : ClientSession) :
    Wasm.turn P env seqn input s =
      withSent (sendsKeepalive input) (turn P env seqn input s) := by
  rw [Wasm.turn_eq]
  show EStateM.map _ _ s = _
  unfold EStateM.map withSent
  cases turn P env seqn input s with
  | ok result s => rfl
  | error e s => rfl

/-- A message that is sent to the loop does not go through a turn. -/
theorem step_on (target : Target) (l : ClientLoop) (env : ClientEnv) {input : ClientInput}
    (h : ¬isTurn input = true) :
    Client.step (P.on target) l (env, input) = Client.step P l (env, input) := by
  cases input with
  | send m => rfl
  | sendInbound m => rfl
  | dropHandles => rfl
  | _ => exact absurd rfl h

/-- A turn is made by both loops or by neither, and keeps what they have in common if the clock is
never behind. -/
theorem Held.turn {b : Loops} (h : Held d b) {env : ClientEnv} {input : ClientInput} {now : Nat}
    (htime : b.InTime P (.turn env input now)) :
    (b.native.step P d (.turn env input now) = none ∧
      b.wasm.step P d (.turn env input now) = none) ∨
    ∃ native wasm, b.native.step P d (.turn env input now) = some native ∧
      b.wasm.step P d (.turn env input now) = some wasm ∧ Held d ⟨native, wasm⟩ := by
  unfold NativeLoop.step WasmLoop.step
  dsimp only
  rw [h.loop]
  by_cases hturn : isTurn input = true
  · rw [if_pos hturn, if_pos hturn]
    by_cases henabled : (b.native.loop.running && enabled b.native.loop.session input) = true
    · rw [if_pos henabled, if_pos henabled]
      refine .inr ⟨_, _, rfl, rfl, ?_⟩
      rw [turn_result, ((cut_turn env _ input).eq_iff _).mpr (htime hturn henabled)]
      exact h.afterTurn now _ _
    · rw [if_neg henabled, if_neg henabled]
      exact .inl ⟨rfl, rfl⟩
  · rw [if_neg hturn, if_neg hturn, step_on .native _ env hturn, step_on .wasm32 _ env hturn]
    cases Client.step P b.native.loop (env, input) with
    | none => exact .inl ⟨rfl, rfl⟩
    | some loop => exact .inr ⟨_, _, rfl, rfl, h.withLoop loop⟩

/-- Loops that agree behind a turn have made the same one. -/
theorem Held.inTime_of_lawful {b : Loops} (h : Held d b) {env : ClientEnv} {input : ClientInput}
    {now : Nat} (hlawful : b.Lawful P d (.turn env input now)) :
    b.InTime P (.turn env input now) := by
  intro hturn henabled
  unfold Loops.Lawful NativeLoop.step WasmLoop.step at hlawful
  dsimp only at hlawful
  rw [h.loop, if_pos hturn, if_pos hturn, if_pos henabled, if_pos henabled] at hlawful
  dsimp only at hlawful
  rw [turn_result] at hlawful
  have hcut := cut_turn (P := P) env b.native.loop.seqn input
  exact (hcut.eq_iff _).mp (hcut.eq_of_endState (endState_eq_of_agree hlawful))

/-- Polling a timer keeps the loops in agreement exactly if it is on time. -/
theorem Held.poll_iff {b : Loops} (h : Held d b) (timer : Timer) (now : Nat) :
    Loops.Agree b.native (b.wasm.poll now timer) ↔
      match timer with
      | .keepalive => Loops.OnTime now b.wasm.keepalive
      | .inactivity => Loops.OnTime now b.wasm.inactivity := by
  cases timer with
  | keepalive =>
    constructor
    · intro hagree
      exact (h.keepalive.poll_iff now).mp hagree.keepalive
    · intro htime
      exact ⟨h.loop, (h.keepalive.poll_iff now).mpr htime, h.inactivity.agree⟩
  | inactivity =>
    constructor
    · intro hagree
      exact (h.inactivity.poll_iff now).mp hagree.inactivity
    · intro htime
      exact ⟨h.loop, h.keepalive.agree, (h.inactivity.poll_iff now).mpr htime⟩

theorem Held.poll {b : Loops} (h : Held d b) {timer : Timer} {now : Nat}
    (htime : match timer with
      | .keepalive => Loops.OnTime now b.wasm.keepalive
      | .inactivity => Loops.OnTime now b.wasm.inactivity) :
    Held d ⟨b.native, b.wasm.poll now timer⟩ := by
  cases timer with
  | keepalive =>
    exact ⟨h.loop, h.keepalive.poll htime, h.inactivity⟩
  | inactivity =>
    exact ⟨h.loop, h.keepalive, h.inactivity.poll htime⟩

theorem Held.lawful_iff {b : Loops} (h : Held d b) (l : LoopStep) :
    b.Lawful P d l ↔ b.InTime P l := by
  cases l with
  | poll timer now =>
    unfold Loops.Lawful NativeLoop.step WasmLoop.step
    dsimp only
    rw [h.loop]
    by_cases hrunning : b.native.loop.running = true
    · rw [if_pos hrunning, if_pos hrunning]
      refine (h.poll_iff timer now).trans ?_
      have hwasm : b.wasm.loop.running = true := h.loop ▸ hrunning
      cases timer with
      | keepalive => exact ⟨fun htime _ => htime, fun htime => htime hwasm⟩
      | inactivity => exact ⟨fun htime _ => htime, fun htime => htime hwasm⟩
    · rw [if_neg hrunning, if_neg hrunning]
      refine iff_of_true trivial ?_
      cases timer with
      | keepalive => exact fun hr => absurd (h.loop ▸ hr) hrunning
      | inactivity => exact fun hr => absurd (h.loop ▸ hr) hrunning
  | turn env input now =>
    refine ⟨h.inTime_of_lawful, fun htime => ?_⟩
    unfold Loops.Lawful
    rcases h.turn htime with ⟨hnative, hwasm⟩ | ⟨native, wasm, hnative, hwasm, hheld⟩
    · rw [hnative, hwasm]
      trivial
    · rw [hnative, hwasm]
      exact hheld.agree

theorem Held.step {b b' : Loops} (h : Held d b) {l : LoopStep} (htime : b.InTime P l)
    (hstep : b.step P d l = some b') : Held d b' := by
  obtain ⟨native, hnative, hstep⟩ := Option.bind_eq_some_iff.mp hstep
  obtain ⟨wasm, hwasm, hstep⟩ := Option.bind_eq_some_iff.mp hstep
  cases hstep
  cases l with
  | poll timer now =>
    unfold NativeLoop.step at hnative
    unfold WasmLoop.step at hwasm
    dsimp only at hnative hwasm
    split at hnative
    · rename_i hrunning
      cases hnative
      rw [if_pos (h.loop ▸ hrunning)] at hwasm
      cases hwasm
      refine h.poll ?_
      cases timer with
      | keepalive => exact htime (h.loop ▸ hrunning)
      | inactivity => exact htime (h.loop ▸ hrunning)
    · cases hnative
  | turn env input now =>
    rcases h.turn htime with ⟨hnone, -⟩ | ⟨native', wasm', hnative', hwasm', hheld⟩
    · rw [hnative] at hnone
      cases hnone
    · rw [hnative] at hnative'
      rw [hwasm] at hwasm'
      cases hnative'
      cases hwasm'
      exact hheld

/-- Durations that the conversion to milliseconds and to an `i32` leaves as they are. -/
def Durations.Whole (d : Durations) : Prop :=
  (∀ dur ∈ d.keepalive, ∃ ms < 2 ^ 31, dur = ms * 1000000) ∧
    ∀ dur ∈ d.inactivity, ∃ ms < 2 ^ 31, dur = ms * 1000000

theorem Held.inTime_iff {b : Loops} (h : Held d b) (hd : d.Whole) (l : LoopStep) :
    b.InTime P l ↔ b.AtOnce P l := by
  cases l with
  | poll timer now =>
    cases timer with
    | keepalive => exact imp_congr_right fun _ => h.keepalive.onTime_iff hd.1 now
    | inactivity => exact imp_congr_right fun _ => h.inactivity.onTime_iff hd.2 now
  | turn env input now => exact Iff.rfl

/-- With such durations the condition on a run is that every timer is polled as soon as it is
made. -/
theorem along_inTime_iff (hd : d.Whole) (loop : ClientLoop) (now : Nat) (ls : List LoopStep) :
    Along (Loops.step P d) (Loops.InTime P) (.start d loop now) ls ↔
      Along (Loops.step P d) (Loops.AtOnce P) (.start d loop now) ls :=
  along_iff_of_invariant (I := Held d)
    (fun _ l _ hb htime hstep => hb.step ((hb.inTime_iff hd l).mpr htime) hstep)
    (fun _ l hb => hb.inTime_iff hd l) (held_start loop now)

end Agreement

end Client

end Edgessh.Russh
