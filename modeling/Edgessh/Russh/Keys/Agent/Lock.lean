import Edgessh.Russh.Keys.Agent.Server

/-!
# The lock of the agent

What an observer of all connections may expect of a locked agent, and when the agent meets it.
The agent looks at the lock before it asks the application and trusts the answer afterwards, and
it keeps the passphrase itself as the lock, so that an empty one locks nothing.
-/

namespace Edgessh.Russh.Keys.Agent
open Edgessh.Run

/-- The response is no failure. -/
def succeeded (message : Option Bytes) : Bool :=
  match message with
  | some (b :: _) => b = Msg.success || b = Msg.identitiesAnswer || b = Msg.signResponse
  | _ => false

/-- The passphrase of a LOCK or an UNLOCK after its first byte. -/
def readPassphrase (r : Bytes) : Option Bytes := (decodeBytes r).toOption.map Prod.fst

/-- The passphrase of a message that begins with `code`. -/
def passphrase? (code : UInt8) : Bytes → Option Bytes
  | [] => none
  | b :: r => if b = code then readPassphrase r else none

/-- The message asks to list, sign, add or remove. -/
def usesKeys : Bytes → Bool
  | [] => false
  | b :: _ => b = Msg.requestIdentities || b = Msg.signRequest || b = Msg.addIdentity ||
      b = Msg.addIdConstrained || b = Msg.removeIdentity || b = Msg.removeAllIdentities

/-- An observer of the connections: the passphrases that the agent has been locked with since it
was last unlocked, and the requests without an answer, with the passphrases at that time. -/
structure Observer where
  held : List Bytes
  asked : ConnectionId → Option (Bytes × List Bytes)

/-- The passphrases after a request. -/
def heldAfter (held : List Bytes) (buf : Bytes) (message : Option Bytes) : List Bytes :=
  if succeeded message then
    match passphrase? Msg.lock buf with
    | some p => held ++ [p]
    | none =>
      match passphrase? Msg.unlock buf with
      | some _ => []
      | none => held
  else held

namespace Observer

def init : Observer := ⟨[], fun _ => none⟩

def see (o : Observer) : Event → Observer
  | .received c buf => { o with asked := Function.update o.asked c (some (buf, o.held)) }
  | .responded c _ message _ =>
    match o.asked c with
    | none => o
    | some (buf, _) =>
      ⟨heldAfter o.held buf message, Function.update o.asked c none⟩
  | .expired => o

end Observer

/-- What is expected of a response. -/
structure Obeys (held heldThen : List Bytes) (buf : Bytes) (confirmed : Bool)
    (message : Option Bytes) : Prop where
  /-- No key is used while the agent is locked. -/
  locked : usesKeys buf = true → succeeded message = true → held = []
  /-- It is unlocked with the passphrase only. -/
  onlyWith : ∀ q, passphrase? Msg.unlock buf = some q → succeeded message = true →
    ∀ p ∈ held, q = p
  /-- It is unlocked with the passphrase. -/
  unlocks : ∀ q, passphrase? Msg.unlock buf = some q → q ∈ held → q ∈ heldThen →
    confirmed = true → succeeded message = true

namespace Observer

/-- The event is as the lock demands. -/
def Expects (o : Observer) : Event → Prop
  | .responded c confirmRequest message _ =>
    ∀ buf heldThen, o.asked c = some (buf, heldThen) →
      Obeys o.held heldThen buf (confirmRequest .unlock) message
  | _ => True

end Observer

/-- The agent with its observer. -/
structure Watched (K : KeyCrate) where
  system : System K
  observer : Observer

namespace Watched

variable {K : KeyCrate}

def init : Watched K := ⟨System.init, Observer.init⟩

def step (w : Watched K) (l : Step) : Option (Watched K) :=
  (w.system.next l).map fun p => ⟨p.2, w.observer.see p.1⟩

/-- The step is as the lock demands. -/
def Lawful (w : Watched K) (l : Step) : Prop :=
  ∀ e t, w.system.next l = some (e, t) → w.observer.Expects e

end Watched

/-- An arm that has been chosen works on the lock as it was found, and no empty passphrase locks
the agent. -/
def System.isFresh {K : KeyCrate} (s : System K) : Step → Bool
  | .answer c env =>
    match s.pending c with
    | none => true
    | some p =>
      match chosenArm p.isLocked env p.buf with
      | none => true
      | some (arm, r) =>
        (arm.whenLocked || s.shared.lock.isEmpty) &&
          (arm != .lock || readPassphrase r != some [])
  | _ => true

section Arms

variable {K : KeyCrate} {env : Surroundings} {r : Bytes} {s : Shared K} {response : Response K}

/-- The first byte of the messages of an arm. -/
def Arm.byte : Arm → UInt8
  | requestIdentities => Msg.requestIdentities
  | sign => Msg.signRequest
  | addIdentity => Msg.addIdentity
  | removeIdentity => Msg.removeIdentity
  | removeAll => Msg.removeAllIdentities
  | lock => Msg.lock
  | unlock => Msg.unlock
  | addIdConstrained => Msg.addIdConstrained

theorem Arm.ofByte_eq_some {b : UInt8} {arm : Arm} :
    Arm.ofByte b = some arm ↔ b = arm.byte := by
  constructor
  · intro h
    unfold Arm.ofByte at h
    split_ifs at h
    all_goals
      cases h
      assumption
  · rintro rfl
    cases arm <;> rfl

theorem lock_spec (r : Bytes) (s : Shared K) :
    (∃ p, readPassphrase r = some p ∧
      Agent.lock r s = reply [Msg.success] (s.setLock (s.lock ++ p))) ∨
    (readPassphrase r = none ∧ Agent.lock r s = reply [Msg.failure] s) := by
  unfold readPassphrase Agent.lock
  cases decodeBytes r with
  | error e => exact .inr ⟨rfl, rfl⟩
  | ok p => exact .inl ⟨p.1, rfl, rfl⟩

theorem unlock_spec (r : Bytes) (s : Shared K) :
    (readPassphrase r = some s.lock ∧
      Agent.unlock r s = reply [Msg.success] (s.setLock [])) ∨
    (readPassphrase r ≠ some s.lock ∧ Agent.unlock r s = reply [Msg.failure] s) := by
  unfold readPassphrase Agent.unlock
  cases decodeBytes r with
  | error e => exact .inr ⟨nofun, rfl⟩
  | ok p =>
    obtain ⟨password, rest⟩ := p
    dsimp only
    by_cases heq : s.lock = password
    · rw [if_pos heq]
      exact .inl ⟨congrArg some heq.symm, rfl⟩
    · rw [if_neg heq]
      exact .inr ⟨fun h => heq (Option.some.inj h).symm, rfl⟩

theorem addKey_lock (now : Nat) (constrained : Bool) (r : Bytes) (s : Shared K) :
    (addKey now constrained r s).shared.lock = s.lock := by
  unfold addKey
  split
  · rfl
  · split
    · split <;> rfl
    · rfl

theorem removeIdentity_lock (r : Bytes) (s : Shared K) :
    (Agent.removeIdentity r s).shared.lock = s.lock := by
  unfold Agent.removeIdentity
  split
  · rfl
  · split <;> rfl

theorem trySign_shared (h : trySign r s = some response) : response.shared = s := by
  unfold trySign at h
  split at h
  · cases h
  · split at h
    · cases h
      rfl
    · split at h
      · cases h
        rfl
      · split at h
        · cases h
        · split at h
          · cases h
          · split at h
            · cases h
            · cases h
              rfl

theorem requestIdentities_shared {order : List Bytes → List Bytes}
    (h : Agent.requestIdentities order s = .ok response) : response.shared = s := by
  unfold Agent.requestIdentities at h
  cases hblobs : (order (s.keys.entries.map Prod.fst)).mapM encodeField with
  | error e =>
    rw [hblobs] at h
    cases h
  | ok blobs =>
    rw [hblobs] at h
    cases h
    rfl

/-- The arms for the keys leave the lock as it is. -/
theorem Arm.run_lock {arm : Arm} (hlock : arm ≠ .lock) (hunlock : arm ≠ .unlock)
    (h : arm.run env r s = some response) : response.shared.lock = s.lock := by
  cases arm with
  | requestIdentities =>
    simp only [Arm.run] at h
    cases hids : Agent.requestIdentities env.order s with
    | error e =>
      rw [hids] at h
      cases h
    | ok found =>
      rw [hids] at h
      cases h
      rw [requestIdentities_shared hids]
  | sign => rw [trySign_shared h]
  | addIdentity =>
    cases h
    exact addKey_lock env.now false r s
  | removeIdentity =>
    cases h
    exact removeIdentity_lock r s
  | removeAll =>
    cases h
    rfl
  | lock => exact absurd rfl hlock
  | unlock => exact absurd rfl hunlock
  | addIdConstrained =>
    cases h
    exact addKey_lock env.now true r s

theorem chosenArm_eq_some {isLocked : Bool} {buf : Bytes} {arm : Arm} :
    chosenArm isLocked env buf = some (arm, r) ↔
      buf = arm.byte :: r ∧ isLocked = arm.whenLocked ∧
        env.confirmRequest arm.messageType = true := by
  unfold chosenArm
  cases buf with
  | nil => simp
  | cons b tail =>
    dsimp only
    cases hb : Arm.ofByte b with
    | none =>
      constructor
      · intro h
        cases h
      · rintro ⟨h, -⟩
        rw [(List.cons.inj h).1, Arm.ofByte_eq_some.mpr rfl] at hb
        cases hb
    | some found =>
      have hbyte : b = found.byte := Arm.ofByte_eq_some.mp hb
      dsimp only
      by_cases hguard : isLocked = found.whenLocked ∧
          env.confirmRequest found.messageType = true
      · rw [if_pos hguard]
        constructor
        · intro h
          cases h
          exact ⟨by rw [hbyte], hguard⟩
        · rintro ⟨h, -⟩
          obtain ⟨hhead, rfl⟩ := List.cons.inj h
          rw [Arm.ofByte_eq_some.mpr hhead] at hb
          cases hb
          rfl
      · rw [if_neg hguard]
        constructor
        · intro h
          cases h
        · rintro ⟨h, harm⟩
          rw [Arm.ofByte_eq_some.mpr (List.cons.inj h).1] at hb
          cases hb
          exact absurd harm hguard

end Arms

section Run

variable {K : KeyCrate} {env : Surroundings} {buf r : Bytes} {s : Shared K}
  {response : Response K} {heldThen : List Bytes}

/-- The passphrases that hold a lock: none or the lock itself. -/
def heldOf (lock : Bytes) : List Bytes := if lock.isEmpty then [] else [lock]

@[simp] theorem heldOf_isEmpty (lock : Bytes) : (heldOf lock).isEmpty = lock.isEmpty := by
  cases lock <;> rfl

theorem heldOf_ne_nil {lock : Bytes} (h : lock ≠ []) : heldOf lock = [lock] :=
  if_neg (by simpa using h)

theorem mem_heldOf {lock p : Bytes} : p ∈ heldOf lock ↔ lock ≠ [] ∧ p = lock := by
  cases lock <;> simp [heldOf]

theorem passphrase?_unlock (arm : Arm) (r : Bytes) :
    passphrase? Msg.unlock (arm.byte :: r) = if arm = .unlock then readPassphrase r else none := by
  cases arm <;> rfl

theorem passphrase?_lock (arm : Arm) (r : Bytes) :
    passphrase? Msg.lock (arm.byte :: r) = if arm = .lock then readPassphrase r else none := by
  cases arm <;> rfl

theorem obeys_of_not_succeeded {held : List Bytes} {confirmed : Bool} {message : Option Bytes}
    (hfail : succeeded message = false)
    (h : ∀ q, passphrase? Msg.unlock buf = some q → q ∈ held → q ∈ heldThen → confirmed = true →
      False) : Obeys held heldThen buf confirmed message where
  locked := by
    intro _ hs
    rw [hfail] at hs
    cases hs
  onlyWith := by
    intro _ _ hs
    rw [hfail] at hs
    cases hs
  unlocks := by
    intro q hq hheld hthen hconfirmed
    exact (h q hq hheld hthen hconfirmed).elim

/-- What follows a message that no arm has been chosen for. -/
theorem obeys_failure {held : List Bytes}
    (hnone : chosenArm (!heldThen.isEmpty) env buf = none) :
    Obeys held heldThen buf (env.confirmRequest .unlock) (some [Msg.failure]) := by
  apply obeys_of_not_succeeded rfl
  intro q hq _ hthen hconfirmed
  cases buf with
  | nil => cases hq
  | cons b r =>
    by_cases hb : b = Msg.unlock
    · -- the guard of the arm holds
      have hchosen : chosenArm (!heldThen.isEmpty) env (b :: r) = some (.unlock, r) := by
        refine chosenArm_eq_some.mpr ⟨by rw [hb]; rfl, ?_, hconfirmed⟩
        cases heldThen with
        | nil => cases hthen
        | cons p ps => rfl
      rw [hnone] at hchosen
      cases hchosen
    · have hpass : passphrase? Msg.unlock (b :: r) = none := if_neg hb
      rw [hpass] at hq
      cases hq

/-- LOCK, for an agent that is not locked and a passphrase that is not empty. -/
theorem obeys_lock {confirmed : Bool} (hempty : s.lock = [])
    (hpassphrase : readPassphrase r ≠ some []) :
    Obeys (heldOf s.lock) heldThen (Arm.lock.byte :: r) confirmed
        (some (Agent.lock r s).message) ∧
      heldOf (Agent.lock r s).shared.lock = heldAfter (heldOf s.lock) (Arm.lock.byte :: r)
        (some (Agent.lock r s).message) := by
  have hunlock : passphrase? Msg.unlock (Arm.lock.byte :: r) = none := passphrase?_unlock .lock r
  have hlock : passphrase? Msg.lock (Arm.lock.byte :: r) = readPassphrase r :=
    passphrase?_lock .lock r
  constructor
  · constructor
    · intro h
      cases h
    · intro q hq
      rw [hunlock] at hq
      cases hq
    · intro q hq
      rw [hunlock] at hq
      cases hq
  · rcases lock_spec r s with ⟨p, hp, heq⟩ | ⟨-, heq⟩
    · have hne : p ≠ [] := by
        rintro rfl
        exact hpassphrase hp
      rw [heq, heldAfter, hlock, hp, hempty]
      exact heldOf_ne_nil hne
    · rw [heq]
      rfl

/-- UNLOCK succeeds with what is held and with nothing else. -/
theorem obeys_unlock {confirmed : Bool} :
    Obeys (heldOf s.lock) heldThen (Arm.unlock.byte :: r) confirmed
        (some (Agent.unlock r s).message) ∧
      heldOf (Agent.unlock r s).shared.lock = heldAfter (heldOf s.lock) (Arm.unlock.byte :: r)
        (some (Agent.unlock r s).message) := by
  have hunlock : passphrase? Msg.unlock (Arm.unlock.byte :: r) = readPassphrase r :=
    passphrase?_unlock .unlock r
  have hlock : passphrase? Msg.lock (Arm.unlock.byte :: r) = none := passphrase?_lock .unlock r
  rcases unlock_spec r s with ⟨hp, heq⟩ | ⟨hp, heq⟩
  · rw [heq]
    constructor
    · constructor
      · intro h
        cases h
      · intro q hq _ p hheld
        rw [hunlock, hp] at hq
        rw [(mem_heldOf.mp hheld).2, Option.some.inj hq]
      · intro _ _ _ _ _
        rfl
    · rw [heldAfter, hlock, hunlock, hp]
      rfl
  · rw [heq]
    refine ⟨obeys_of_not_succeeded rfl ?_, rfl⟩
    intro q hq hheld _ _
    rw [hunlock, (mem_heldOf.mp hheld).2] at hq
    exact hp hq

/-- The arms for the keys, for an agent that is not locked. -/
theorem obeys_keys {arm : Arm} {confirmed : Bool} (hlock : arm ≠ .lock) (hunlock : arm ≠ .unlock)
    (hempty : s.lock = []) (hrun : arm.run env r s = some response) :
    Obeys (heldOf s.lock) heldThen (arm.byte :: r) confirmed (some response.message) ∧
      heldOf response.shared.lock =
        heldAfter (heldOf s.lock) (arm.byte :: r) (some response.message) := by
  have hnone : passphrase? Msg.unlock (arm.byte :: r) = none := by
    rw [passphrase?_unlock, if_neg hunlock]
  have hnone' : passphrase? Msg.lock (arm.byte :: r) = none := by
    rw [passphrase?_lock, if_neg hlock]
  constructor
  · constructor
    · intro _ _
      rw [hempty]
      rfl
    · intro q hq
      rw [hnone] at hq
      cases hq
    · intro q hq
      rw [hnone] at hq
      cases hq
  · rw [Arm.run_lock hlock hunlock hrun, heldAfter, hnone, hnone']
    exact (ite_self _).symm

/-- The observer knows the lock, and every request with the lock as it was found. -/
structure Agrees (w : Watched K) : Prop where
  held : w.observer.held = heldOf w.system.shared.lock
  asked : ∀ c, w.system.pending c =
    (w.observer.asked c).map fun p => ⟨p.1, !p.2.isEmpty⟩

theorem agrees_init : Agrees (Watched.init : Watched K) := ⟨rfl, fun _ => rfl⟩

theorem Agrees.asked_of_pending {w : Watched K} {c : ConnectionId} {p : Pending}
    (h : Agrees w) (hp : w.system.pending c = some p) :
    ∃ heldThen, w.observer.asked c = some (p.buf, heldThen) ∧ p.isLocked = !heldThen.isEmpty := by
  rw [h.asked c] at hp
  obtain ⟨⟨buf, heldThen⟩, hasked, rfl⟩ := Option.map_eq_some_iff.mp hp
  exact ⟨heldThen, hasked, rfl⟩

/-- A response is as the lock demands, and leaves what is held with the lock. -/
theorem obeys_respond {w : Watched K} {c : ConnectionId} {p : Pending}
    (h : w.system.isFresh (.answer c env) = true) (hp : w.system.pending c = some p)
    (hthen : p.isLocked = !heldThen.isEmpty) :
    match respond p.isLocked env p.buf w.system.shared with
    | none => Obeys (heldOf w.system.shared.lock) heldThen p.buf (env.confirmRequest .unlock) none
    | some response =>
      Obeys (heldOf w.system.shared.lock) heldThen p.buf (env.confirmRequest .unlock)
          (some response.message) ∧
        heldOf response.shared.lock =
          heldAfter (heldOf w.system.shared.lock) p.buf (some response.message) := by
  unfold respond
  simp only [System.isFresh, hp] at h
  cases hchosen : chosenArm p.isLocked env p.buf with
  | none =>
    refine ⟨obeys_failure ?_, rfl⟩
    rw [← hthen]
    exact hchosen
  | some chosen =>
    obtain ⟨arm, r⟩ := chosen
    rw [hchosen] at h
    obtain ⟨hlocked, hpass⟩ := Bool.and_eq_true_iff.mp h
    have hbuf : p.buf = arm.byte :: r := (chosenArm_eq_some.mp hchosen).1
    have hempty (hne : arm ≠ .unlock) : w.system.shared.lock = [] := by
      cases arm with
      | unlock => exact absurd rfl hne
      | _ => simpa [Arm.whenLocked] using hlocked
    dsimp only
    rw [hbuf]
    by_cases hlock : arm = .lock
    · subst hlock
      exact obeys_lock (hempty nofun) (by simpa using hpass)
    · by_cases hunlock : arm = .unlock
      · subst hunlock
        exact obeys_unlock
      · cases hrun : arm.run env r w.system.shared with
        | none =>
          apply obeys_of_not_succeeded rfl
          intro q hq
          rw [passphrase?_unlock, if_neg hunlock] at hq
          cases hq
        | some response => exact obeys_keys hlock hunlock (hempty hunlock) hrun

/-- Every fresh step keeps the observer's knowledge. -/
theorem Agrees.step {w v : Watched K} {l : Step} (h : Agrees w)
    (hfresh : w.system.isFresh l = true) (hstep : w.step l = some v) : Agrees v := by
  obtain ⟨⟨e, t⟩, hnext, rfl⟩ := Option.map_eq_some_iff.mp hstep
  cases l with
  | receive c buf =>
    simp only [System.next] at hnext
    cases hp : w.system.pending c with
    | some p =>
      rw [hp] at hnext
      cases hnext
    | none =>
      rw [hp] at hnext
      cases hnext
      refine ⟨h.held, fun d => ?_⟩
      by_cases hd : d = c
      · subst hd
        simp [Observer.see, h.held]
      · simp [Observer.see, Function.update_of_ne hd, h.asked d]
  | answer c env =>
    simp only [System.next] at hnext
    cases hp : w.system.pending c with
    | none =>
      rw [hp] at hnext
      cases hnext
    | some p =>
      rw [hp] at hnext
      obtain ⟨heldThen, hasked, hthen⟩ := h.asked_of_pending hp
      have hobeys := obeys_respond hfresh hp hthen
      have hpending (d : ConnectionId) : Function.update w.system.pending c none d =
          (Function.update w.observer.asked c none d).map fun p => ⟨p.1, !p.2.isEmpty⟩ := by
        by_cases hd : d = c
        · subst hd
          simp
        · simp [Function.update_of_ne hd, h.asked d]
      cases hr : respond p.isLocked env p.buf w.system.shared with
      | none =>
        simp only [hr] at hnext
        cases hnext
        simp only [Observer.see, hasked]
        exact ⟨h.held, hpending⟩
      | some response =>
        simp only [hr] at hnext hobeys
        cases hnext
        simp only [Observer.see, hasked]
        refine ⟨?_, hpending⟩
        rw [h.held]
        exact hobeys.2.symm
  | expire n =>
    simp only [System.next] at hnext
    cases hn : w.system.shared.timers[n]? with
    | none =>
      rw [hn] at hnext
      cases hnext
    | some timer =>
      rw [hn] at hnext
      cases hnext
      refine ⟨?_, h.asked⟩
      have hkept : (w.system.shared.expire timer.1 timer.2).lock = w.system.shared.lock := by
        unfold Shared.expire
        split
        · split <;> rfl
        · rfl
      exact h.held.trans (congrArg heldOf hkept.symm)

/-- A fresh step is as the lock demands. -/
theorem Agrees.lawful {w : Watched K} {l : Step} (h : Agrees w)
    (hfresh : w.system.isFresh l = true) : w.Lawful l := by
  intro e t hnext
  cases l with
  | receive c buf =>
    simp only [System.next] at hnext
    split at hnext
    · cases hnext
    · cases hnext
      trivial
  | answer c env =>
    simp only [System.next] at hnext
    cases hp : w.system.pending c with
    | none =>
      rw [hp] at hnext
      cases hnext
    | some p =>
      rw [hp] at hnext
      obtain ⟨heldThen, hasked, hthen⟩ := h.asked_of_pending hp
      have hobeys := obeys_respond hfresh hp hthen
      cases hr : respond p.isLocked env p.buf w.system.shared with
      | none =>
        simp only [hr] at hnext hobeys
        cases hnext
        intro buf heldThen' hasked'
        rw [hasked] at hasked'
        cases hasked'
        rw [h.held]
        exact hobeys
      | some response =>
        simp only [hr] at hnext hobeys
        cases hnext
        intro buf heldThen' hasked'
        rw [hasked] at hasked'
        cases hasked'
        rw [h.held]
        exact hobeys.1
  | expire n =>
    simp only [System.next] at hnext
    split at hnext
    · cases hnext
    · cases hnext
      trivial

/-- In every run in which no request acts on a lock that has changed since it looked, and no empty
passphrase is locked with, the lock is kept. -/
theorem lock_kept (ls : List Step)
    (h : Along Watched.step (fun w l => w.system.isFresh l = true) (Watched.init : Watched K) ls) :
    Along Watched.step Watched.Lawful (Watched.init : Watched K) ls :=
  Along.of_invariant (I := Agrees) (fun _ _ _ hw hl hs => hw.step hl hs)
    (fun _ _ hw hl => hw.lawful hl) agrees_init h

/-- The agent is locked, asked for its keys, and unlocked. -/
def lockRun : List Step :=
  Step.request 0 0 (Msg.lock :: encodeBytes [7]) ++ Step.request 1 0 [Msg.requestIdentities] ++
    Step.request 1 0 (Msg.unlock :: encodeBytes [7])

theorem lock_kept_lockRun : Along Watched.step Watched.Lawful
    (Watched.init : Watched KeyCrate.toy) lockRun :=
  lock_kept lockRun (by decide +kernel)

/-- The agent is locked with the empty passphrase, and asked for its keys. -/
def emptyRun : List Step :=
  Step.request 0 0 (Msg.lock :: encodeBytes []) ++ Step.request 1 0 [Msg.requestIdentities]

/-- The agent is locked while the application is asked about a request for its keys. -/
def raceRun : List Step :=
  .receive 1 [Msg.requestIdentities] :: Step.request 0 0 (Msg.lock :: encodeBytes [7]) ++
    [.answer 1 (.confirming 0)]

/-- In both runs the keys are listed although the agent has been locked. -/
theorem lock_kept_fails :
    ¬ Along Watched.step Watched.Lawful (Watched.init : Watched KeyCrate.toy) emptyRun ∧
      ¬ Along Watched.step Watched.Lawful (Watched.init : Watched KeyCrate.toy) raceRun := by
  constructor
  · intro h
    have hlast := (((h.2 _ rfl).2 _ rfl).2 _ rfl).1 _ _ rfl [Msg.requestIdentities] _ rfl
    cases hlast.locked rfl rfl
  · intro h
    have hlast := (((h.2 _ rfl).2 _ rfl).2 _ rfl).1 _ _ rfl [Msg.requestIdentities] _ rfl
    cases hlast.locked rfl rfl

end Run

end Edgessh.Russh.Keys.Agent
