import Edgessh.Lib.Run
import Mathlib.Logic.Function.Basic

/-!
# The host-key cells of the WASM module

`zerossh-do` keeps two thread-local cells, the expected and the accepted host key. Every
`SshSessionDO.handleConnect` of one isolate uses the same two cells: it stores the key it
expects, starts `builder.connect`, and takes the accepted key once the promise resolves. The
handshake awaits many times in between, so the steps of several connects interleave freely.

A run may also time out: `handleConnect` then returns, while its handshake goes on and may
still reach `check_server_key`.
-/

namespace Edgessh.Worker.HostKey
open Edgessh.Run

/-- A serialized host key, `<algorithm> <base64>`. -/
abbrev Key := String

abbrev RunId := Nat

/-- `EXPECTED_HOST_KEY` and `ACCEPTED_HOST_KEY`. -/
structure Cells where
  expected : Option Key
  accepted : Option Key
  deriving DecidableEq, Repr

/-- `set_expected_host_key`: the empty string means that any key is accepted. -/
def setExpectedHostKey (key : Key) (c : Cells) : Cells :=
  { c with expected := if key = "" then none else some key }

/-- `take_accepted_host_key`. -/
def takeAcceptedHostKey (c : Cells) : Option Key × Cells :=
  (c.accepted, { c with accepted := none })

/-- `SshHandler::check_server_key`: `none` is the error `host_key_mismatch`. -/
def checkServerKey (actual : Key) (c : Cells) : Option Cells :=
  match c.expected with
  | none => some { c with accepted := some actual }
  | some exp =>
    if exp = "" then some { c with accepted := some actual }
    else if exp = actual then some { c with accepted := some actual }
    else none

/-- Where `builder.connect` of one run is. -/
inductive Handshake where
  | notStarted
  | running
  /-- `check_server_key` returned true; authentication and the shell request follow. -/
  | accepted
  | resolved
  | rejected
  deriving DecidableEq, Repr

/-- What `handleConnect` has returned. -/
inductive Response where
  | pending
  | ok (hostKey : Option Key)
  | error
  deriving DecidableEq, Repr

structure Connect where
  handshake : Handshake
  response : Response
  deriving DecidableEq, Repr

/-- What is fixed about the connects of an isolate: the key each one expects
(`body.expectedHostKey ?? ""`) and the key its own server presents. -/
structure Requests where
  expectedHostKey : RunId → Key
  presented : RunId → Key

structure State where
  cells : Cells
  runs : RunId → Connect
  /-- The connect that stored the expected key last. -/
  expectedBy : Option RunId
  /-- The connect whose check recorded the accepted key last, until it is taken. -/
  acceptedBy : Option RunId

def State.init : State where
  cells := ⟨none, none⟩
  runs := fun _ => ⟨.notStarted, .pending⟩
  expectedBy := none
  acceptedBy := none

/-- The steps between two await points. -/
inductive Label where
  /-- `set_expected_host_key` and the start of `builder.connect` -/
  | start (i : RunId)
  /-- the handshake calls `check_server_key` -/
  | check (i : RunId)
  /-- `builder.connect` resolves -/
  | resolve (i : RunId)
  /-- `builder.connect` rejects for a reason other than the host key -/
  | reject (i : RunId)
  /-- the time-out wins the race -/
  | timeout (i : RunId)
  /-- `handleConnect` goes on after a resolved connect -/
  | take (i : RunId)
  /-- `handleConnect` goes on after a rejected connect -/
  | fail (i : RunId)
  deriving DecidableEq, Repr

def State.setHandshake (s : State) (i : RunId) (h : Handshake) : State :=
  { s with runs := Function.update s.runs i { s.runs i with handshake := h } }

def State.setResponse (s : State) (i : RunId) (r : Response) : State :=
  { s with runs := Function.update s.runs i { s.runs i with response := r } }

/-- `handleConnect` and the handshake it started, one step of one run. -/
def step (rq : Requests) (s : State) : Label → Option State
  | .start i =>
    if (s.runs i).handshake = .notStarted then
      some { s.setHandshake i .running with
        cells := setExpectedHostKey (rq.expectedHostKey i) s.cells
        expectedBy := some i }
    else none
  | .check i =>
    if (s.runs i).handshake = .running then
      match checkServerKey (rq.presented i) s.cells with
      | some cells => some { s.setHandshake i .accepted with cells := cells, acceptedBy := some i }
      | none => some (s.setHandshake i .rejected)
    else none
  | .resolve i =>
    if (s.runs i).handshake = .accepted then some (s.setHandshake i .resolved) else none
  | .reject i =>
    if (s.runs i).handshake = .running ∨ (s.runs i).handshake = .accepted then
      some (s.setHandshake i .rejected)
    else none
  | .timeout i =>
    if (s.runs i).response = .pending ∧ (s.runs i).handshake ≠ .notStarted then
      some (s.setResponse i .error)
    else none
  | .take i =>
    if (s.runs i).handshake = .resolved ∧ (s.runs i).response = .pending then
      let (hostKey, cells) := takeAcceptedHostKey s.cells
      some { s.setResponse i (.ok hostKey) with cells := cells, acceptedBy := none }
    else none
  | .fail i =>
    if (s.runs i).handshake = .rejected ∧ (s.runs i).response = .pending then
      some (s.setResponse i .error)
    else none

/-- A successful run was presented the key it expected, if it expected one, and reports the
key that was presented to it. -/
def HostKeysOwn (rq : Requests) (s : State) : Prop :=
  ∀ i hostKey, (s.runs i).response = .ok hostKey →
    (rq.expectedHostKey i ≠ "" → rq.presented i = rq.expectedHostKey i) ∧
      hostKey = some (rq.presented i)

/-- No other run came in between: the expected key a check consults was stored by that run or
by one that expects the same key, and the accepted key a run takes was recorded, and not yet
taken, by that run or by one that was presented the same key. -/
def Undisturbed (rq : Requests) (s : State) : Label → Prop
  | .check i => ∃ j, s.expectedBy = some j ∧ rq.expectedHostKey j = rq.expectedHostKey i
  | .take i => ∃ j, s.acceptedBy = some j ∧ rq.presented j = rq.presented i
  | _ => True

/-- The cells hold what the runs recorded in `expectedBy` and `acceptedBy` stored. -/
structure CellsOwned (rq : Requests) (s : State) : Prop where
  expected : ∀ j, s.expectedBy = some j →
    s.cells.expected = if rq.expectedHostKey j = "" then none else some (rq.expectedHostKey j)
  accepted : ∀ j, s.acceptedBy = some j → s.cells.accepted = some (rq.presented j)
  /-- A run past its check was presented the key it expected. -/
  passed : ∀ i, (s.runs i).handshake = .accepted ∨ (s.runs i).handshake = .resolved →
    rq.expectedHostKey i ≠ "" → rq.presented i = rq.expectedHostKey i
  own : HostKeysOwn rq s

theorem cellsOwned_init (rq : Requests) : CellsOwned rq State.init where
  expected := by simp [State.init]
  accepted := by simp [State.init]
  passed := by simp [State.init]
  own := by simp [HostKeysOwn, State.init]

theorem checkServerKey_eq_some {actual : Key} {c c' : Cells}
    (h : checkServerKey actual c = some c') :
    c' = { c with accepted := some actual } ∧
      (c.expected = none ∨ c.expected = some "" ∨ c.expected = some actual) := by
  unfold checkServerKey at h
  cases he : c.expected with
  | none => simp_all
  | some exp => grind

/-- What a run says about itself stays true when another run's entry changes. -/
theorem runs_update_of_ne {s : State} {i j : RunId} {c : Connect} (h : j ≠ i) :
    Function.update s.runs i c j = s.runs j := Function.update_of_ne h c s.runs

@[simp] theorem setHandshake_runs_self (s : State) (i : RunId) (h : Handshake) :
    (s.setHandshake i h).runs i = { s.runs i with handshake := h } := by
  simp [State.setHandshake]

@[simp] theorem setResponse_runs_self (s : State) (i : RunId) (r : Response) :
    (s.setResponse i r).runs i = { s.runs i with response := r } := by
  simp [State.setResponse]

theorem setHandshake_runs_of_ne {s : State} {i j : RunId} {h : Handshake} (hj : j ≠ i) :
    (s.setHandshake i h).runs j = s.runs j := runs_update_of_ne hj

theorem setResponse_runs_of_ne {s : State} {i j : RunId} {r : Response} (hj : j ≠ i) :
    (s.setResponse i r).runs j = s.runs j := runs_update_of_ne hj

/-- A step that leaves the cells alone and moves one handshake keeps the invariant, if the run
was presented the key it expected whenever it is now past its check. -/
theorem cellsOwned_setHandshake {rq : Requests} {s : State} {i : RunId} {h : Handshake}
    (hs : CellsOwned rq s)
    (hi : h = .accepted ∨ h = .resolved →
      rq.expectedHostKey i ≠ "" → rq.presented i = rq.expectedHostKey i) :
    CellsOwned rq (s.setHandshake i h) where
  expected := hs.expected
  accepted := hs.accepted
  passed := by
    intro j hj
    by_cases hji : j = i
    · subst hji
      exact hi (by simpa using hj)
    · rw [setHandshake_runs_of_ne hji] at hj
      exact hs.passed j hj
  own := by
    intro j hostKey hj
    by_cases hji : j = i
    · subst hji
      exact hs.own j hostKey (by simpa using hj)
    · rw [setHandshake_runs_of_ne hji] at hj
      exact hs.own j hostKey hj

theorem cellsOwned_setResponse {rq : Requests} {s : State} {i : RunId} {r : Response}
    (hs : CellsOwned rq s)
    (hi : ∀ hostKey, r = .ok hostKey →
      (rq.expectedHostKey i ≠ "" → rq.presented i = rq.expectedHostKey i) ∧
        hostKey = some (rq.presented i)) :
    CellsOwned rq (s.setResponse i r) where
  expected := hs.expected
  accepted := hs.accepted
  passed := by
    intro j hj
    by_cases hji : j = i
    · subst hji
      exact hs.passed j (by simpa using hj)
    · rw [setResponse_runs_of_ne hji] at hj
      exact hs.passed j hj
  own := by
    intro j hostKey hj
    by_cases hji : j = i
    · subst hji
      exact hi hostKey (by simpa using hj)
    · rw [setResponse_runs_of_ne hji] at hj
      exact hs.own j hostKey hj

/-- The check of an undisturbed run accepts only the key the run expects. -/
theorem check_undisturbed {rq : Requests} {s : State} {i : RunId} {cells : Cells}
    (hs : CellsOwned rq s) (hu : Undisturbed rq s (.check i))
    (hc : checkServerKey (rq.presented i) s.cells = some cells) :
    rq.expectedHostKey i ≠ "" → rq.presented i = rq.expectedHostKey i := by
  intro hne
  obtain ⟨j, hj, hji⟩ := hu
  have hexp := hs.expected j hj
  rw [hji, if_neg hne] at hexp
  obtain ⟨-, h | h | h⟩ := checkServerKey_eq_some hc
  · simp [h] at hexp
  · rw [h] at hexp
    exact absurd (Option.some.inj hexp).symm hne
  · rw [h] at hexp
    exact Option.some.inj hexp

theorem cellsOwned_step {rq : Requests} (s : State) (l : Label) (t : State)
    (hs : CellsOwned rq s) (hu : Undisturbed rq s l) (h : step rq s l = some t) :
    CellsOwned rq t := by
  cases l with
  | start i =>
    simp only [step, Option.ite_none_right_eq_some, Option.some.injEq] at h
    obtain ⟨-, rfl⟩ := h
    have hk := cellsOwned_setHandshake (i := i) (h := .running) hs (by simp)
    refine { expected := ?_, accepted := hk.accepted, passed := hk.passed, own := hk.own }
    intro j hj
    obtain rfl : i = j := by simpa using hj
    rfl
  | check i =>
    simp only [step, Option.ite_none_right_eq_some] at h
    obtain ⟨-, h⟩ := h
    split at h
    · rename_i cells hc
      obtain rfl := Option.some.inj h
      have hk := cellsOwned_setHandshake (i := i) (h := .accepted) hs
        (fun _ => check_undisturbed hs hu hc)
      obtain ⟨rfl, -⟩ := checkServerKey_eq_some hc
      refine { expected := hs.expected, accepted := ?_, passed := hk.passed, own := hk.own }
      intro j hj
      obtain rfl : i = j := by simpa using hj
      rfl
    · obtain rfl := Option.some.inj h
      exact cellsOwned_setHandshake hs (by simp)
  | resolve i =>
    simp only [step, Option.ite_none_right_eq_some, Option.some.injEq] at h
    obtain ⟨hi, rfl⟩ := h
    exact cellsOwned_setHandshake hs (fun _ => hs.passed i (.inl hi))
  | reject i =>
    simp only [step, Option.ite_none_right_eq_some, Option.some.injEq] at h
    obtain ⟨-, rfl⟩ := h
    exact cellsOwned_setHandshake hs (by simp)
  | timeout i =>
    simp only [step, Option.ite_none_right_eq_some, Option.some.injEq] at h
    obtain ⟨-, rfl⟩ := h
    exact cellsOwned_setResponse hs (by simp)
  | take i =>
    simp only [step, takeAcceptedHostKey, Option.ite_none_right_eq_some, Option.some.injEq] at h
    obtain ⟨⟨hi, -⟩, rfl⟩ := h
    obtain ⟨j, hj, hji⟩ := hu
    have hacc : s.cells.accepted = some (rq.presented i) := by rw [hs.accepted j hj, hji]
    have hk := cellsOwned_setResponse (i := i) (r := .ok s.cells.accepted) hs
      (by rintro _ ⟨⟩; exact ⟨hs.passed i (.inr hi), hacc⟩)
    exact { expected := hs.expected, accepted := by simp, passed := hk.passed, own := hk.own }
  | fail i =>
    simp only [step, Option.ite_none_right_eq_some, Option.some.injEq] at h
    obtain ⟨-, rfl⟩ := h
    exact cellsOwned_setResponse hs (by simp)

/-- In every run in which no other connect disturbs a check or a take, each successful connect
was presented the key it expected and reports the key presented to it. -/
theorem hostKeysOwn_of_undisturbed (rq : Requests) (ls : List Label) (s : State)
    (hu : Along (step rq) (Undisturbed rq) State.init ls)
    (hr : run (step rq) State.init ls = some s) : HostKeysOwn rq s :=
  (run_invariant cellsOwned_step ls _ _ (cellsOwned_init rq) hu hr).own

/-- Run 0 expects `A` and is presented it, run 1 connects for the first time. -/
def firstAndKnown : Requests where
  expectedHostKey i := if i = 0 then "A" else ""
  presented i := if i = 0 then "A" else "B"

/-- The second connect starts while the first one is still authenticating. -/
def overlapping : List Label :=
  [.start 0, .check 0, .start 1, .resolve 0, .take 0, .check 1, .resolve 1, .take 1]

theorem hostKeysOwn_overlapping :
    ∃ s, run (step firstAndKnown) State.init overlapping = some s ∧
      (s.runs 0).response = .ok (some "A") ∧ (s.runs 1).response = .ok (some "B") ∧
      HostKeysOwn firstAndKnown s := by
  refine ⟨_, rfl, rfl, rfl, hostKeysOwn_of_undisturbed firstAndKnown overlapping _ ?_ rfl⟩
  simp [Along, overlapping, Undisturbed, step, State.init, State.setHandshake, State.setResponse,
    checkServerKey, setExpectedHostKey, takeAcceptedHostKey, firstAndKnown]

/-- Run 0 knows the key `A` of its host, but an attacker presents `M`; run 1 connects to a
host for the first time. -/
def knownAndFirst : Requests where
  expectedHostKey i := if i = 0 then "A" else ""
  presented i := if i = 0 then "M" else "B"

/-- The second connect overwrites the expected key before the first one checks: the attacker's
key is accepted and reported. -/
theorem not_hostKeysOwn :
    ¬ ∀ (rq : Requests) (ls : List Label) (s : State),
      run (step rq) State.init ls = some s → HostKeysOwn rq s := by
  intro h
  have hown := h knownAndFirst [.start 0, .start 1, .check 0, .resolve 0, .take 0] _ rfl
  exact absurd ((hown 0 (some "M") rfl).1 (by decide)) (by decide)

end Edgessh.Worker.HostKey
