import Edgessh.Lib.Run
import Mathlib.Logic.Function.Basic

/-!
# The known hosts of a user

The keys a user has pinned are one KV value, `known_hosts:<user>`. Creating a session reads it
before the handshake and, if the host was known or the user has asked to accept a new key, writes
it back after the handshake with the key of this host. The route `accept-host-key` does the same
without a handshake. A single `get` or `put` is atomic.

The object of the session reports the key that was presented to it, and refuses one that differs
from the expected key, unless that is empty.
-/

namespace Edgessh.Worker.KnownHosts
open Edgessh.Run

abbrev RequestId := Nat

/-- `user.sub` -/
abbrev User := String

/-- `<host>:<port>` -/
abbrev HostId := String

/-- A serialized host key. -/
abbrev Key := String

/-- `Record<string, string>` -/
abbrev Hosts := HostId → Option Key

inductive Request where
  /-- POST / -/
  | create (user : User) (hostId : HostId) (acceptNewHostKey : Bool)
  /-- POST /:id/accept-host-key -/
  | accept (user : User) (hostId : HostId) (hostKey : Key)
  deriving DecidableEq, Repr

def Request.user : Request → User
  | .create user .. | .accept user .. => user

def Request.hostId : Request → HostId
  | .create _ hostId _ | .accept _ hostId _ => hostId

/-- The request is to pin a new key for the host. -/
def Request.pins (user : User) (hostId : HostId) : Request → Bool
  | .create user' hostId' acceptNewHostKey =>
    acceptNewHostKey ∧ user' = user ∧ hostId' = hostId
  | .accept user' hostId' _ => user' = user ∧ hostId' = hostId

/-- Where a request is; `read` is what `get` returned. -/
inductive Pc where
  | notStarted
  /-- create, at the `/connect` request to the object -/
  | connecting (read : Option Hosts)
  /-- at `put`, with the key for the request's host -/
  | putting (read : Option Hosts) (hostKey : Key)
  /-- The known hosts are dealt with. -/
  | done
  /-- create, when `/connect` returned an error -/
  | failed

/-- What is fixed about the requests: what each asks for, and the key that the server of its host
presents. -/
structure Env where
  request : RequestId → Request
  presented : RequestId → Key

structure State where
  /-- the value of `known_hosts:<user>` -/
  kv : User → Option Hosts
  pc : RequestId → Pc

def State.init (kv : User → Option Hosts) : State := ⟨kv, fun _ => .notStarted⟩

/-- `knownHostsRaw ? JSON.parse(knownHostsRaw) : {}` -/
def parse (raw : Option Hosts) : Hosts := raw.getD fun _ => none

/-- The key that `/connect` is to expect. -/
def expectedHostKey (knownHosts : Hosts) (hostId : HostId) (acceptNewHostKey : Bool) : Key :=
  if acceptNewHostKey then "" else (knownHosts hostId).getD ""

/-- `!!knownHosts[hostId]` -/
def hostWasKnown (knownHosts : Hosts) (hostId : HostId) : Bool :=
  (knownHosts hostId).getD "" ≠ ""

/-- `/connect` succeeds only with the key it expects, if it expects one. -/
def connects (expected presented : Key) : Prop := expected = "" ∨ presented = expected

instance (expected presented : Key) : Decidable (connects expected presented) := by
  unfold connects
  infer_instance

inductive Label where
  /-- `get` returns. -/
  | get (r : RequestId)
  /-- `/connect` returns the key that was presented. -/
  | connected (r : RequestId)
  /-- `/connect` returns an error. -/
  | failed (r : RequestId)
  /-- `put` is done. -/
  | put (r : RequestId)
  deriving DecidableEq, Repr

def State.setPc (r : RequestId) (p : Pc) (s : State) : State :=
  { s with pc := Function.update s.pc r p }

def State.putHosts (user : User) (knownHosts : Hosts) (s : State) : State :=
  { s with kv := Function.update s.kv user (some knownHosts) }

/-- One step of one request. -/
def step (env : Env) (s : State) : Label → Option State
  | .get r =>
    match env.request r, s.pc r with
    | .create user _ _, .notStarted => some (s.setPc r (.connecting (s.kv user)))
    | .accept user _ hostKey, .notStarted => some (s.setPc r (.putting (s.kv user) hostKey))
    | _, _ => none
  | .connected r =>
    match env.request r, s.pc r with
    | .create _ hostId acceptNewHostKey, .connecting read =>
      let hostKey := env.presented r
      if connects (expectedHostKey (parse read) hostId acceptNewHostKey) hostKey then
        if hostKey ≠ "" ∧ (hostWasKnown (parse read) hostId ∨ acceptNewHostKey) then
          some (s.setPc r (.putting read hostKey))
        else some (s.setPc r .done)
      else none
    | _, _ => none
  | .failed r =>
    match s.pc r with
    | .connecting _ => some (s.setPc r .failed)
    | _ => none
  | .put r =>
    match s.pc r with
    | .putting read hostKey =>
      let knownHosts := Function.update (parse read) (env.request r).hostId (some hostKey)
      some ((s.putHosts (env.request r).user knownHosts).setPc r .done)
    | _ => none

/-- The key pinned for a host. -/
def State.pinned (user : User) (hostId : HostId) (s : State) : Option Key :=
  parse (s.kv user) hostId

/-- What is written was read in the state before. -/
def Undisturbed (env : Env) (s : State) : Label → Prop
  | .put r => ∀ read hostKey, s.pc r = .putting read hostKey → s.kv (env.request r).user = read
  | _ => True

/-- A request that is not to pin a new key writes the key it has read for its host. -/
def Honest (env : Env) (s : State) : Prop :=
  ∀ r user hostId read hostKey, env.request r = .create user hostId false →
    s.pc r = .putting read hostKey → parse read hostId = some hostKey

variable {env : Env} {s u : State}

theorem setPc_eq {r r' : RequestId} {p q : Pc} (h : (s.setPc r p).pc r' = q) :
    r' = r ∧ p = q ∨ r' ≠ r ∧ s.pc r' = q := by
  by_cases hr : r' = r
  · subst hr
    simp only [State.setPc, Function.update_self] at h
    exact .inl ⟨rfl, h⟩
  · simp only [State.setPc, Function.update_of_ne hr] at h
    exact .inr ⟨hr, h⟩

/-- A request goes on to a point where it writes nothing, or is allowed to write what it will. -/
theorem Honest.setPc (hs : Honest env s) {r : RequestId} {p : Pc}
    (hp : ∀ user hostId read hostKey, env.request r = .create user hostId false →
      p = .putting read hostKey → parse read hostId = some hostKey) : Honest env (s.setPc r p) := by
  intro r' user hostId read hostKey hrq hpc
  rcases setPc_eq hpc with ⟨rfl, heq⟩ | ⟨-, hold⟩
  · exact hp user hostId read hostKey hrq heq
  · exact hs r' user hostId read hostKey hrq hold

/-- A known host that connects without a new key being accepted has presented the known key. -/
theorem presented_known {knownHosts : Hosts} {hostId : HostId} {presented : Key}
    (hconnects : connects (expectedHostKey knownHosts hostId false) presented)
    (hknown : hostWasKnown knownHosts hostId = true) : knownHosts hostId = some presented := by
  have hne : (knownHosts hostId).getD "" ≠ "" := of_decide_eq_true hknown
  rcases hconnects with hempty | heq
  · exact absurd hempty hne
  · rw [show expectedHostKey knownHosts hostId false = (knownHosts hostId).getD "" from rfl] at heq
    cases hkey : knownHosts hostId with
    | none =>
      rw [hkey] at hne
      exact absurd rfl hne
    | some key =>
      rw [hkey] at heq
      rw [heq]
      rfl

theorem honest_step (s : State) (l : Label) (u : State) (hs : Honest env s)
    (h : step env s l = some u) : Honest env u := by
  cases l with
  | get r =>
    simp only [step] at h
    split at h
    · obtain rfl := Option.some.inj h
      exact hs.setPc (by intro user hostId read hostKey _ h; cases h)
    · rename_i hrq _
      obtain rfl := Option.some.inj h
      apply hs.setPc
      intro user hostId read hostKey hcreate
      rw [hrq] at hcreate
      cases hcreate
    · cases h
  | connected r =>
    simp only [step] at h
    split at h
    · rename_i user hostId acceptNewHostKey read hrq hpc
      simp only [Option.ite_none_right_eq_some] at h
      obtain ⟨hconnects, h⟩ := h
      split at h
      · rename_i hwrite
        obtain rfl := Option.some.inj h
        apply hs.setPc
        intro user' hostId' read' hostKey hcreate hputting
        rw [hrq] at hcreate
        cases hcreate
        cases hputting
        rcases hwrite.2 with hknown | hnew
        · exact presented_known hconnects hknown
        · cases hnew
      · obtain rfl := Option.some.inj h
        exact hs.setPc (by intro user hostId read hostKey _ h; cases h)
    · cases h
  | failed r =>
    simp only [step] at h
    split at h
    · obtain rfl := Option.some.inj h
      exact hs.setPc (by intro user hostId read hostKey _ h; cases h)
    · cases h
  | put r =>
    simp only [step] at h
    split at h
    · obtain rfl := Option.some.inj h
      have hput : ∀ user knownHosts, Honest env (s.putHosts user knownHosts) := fun _ _ => hs
      exact (hput _ _).setPc (by intro user hostId read hostKey _ h; cases h)
    · cases h

/-- What one step does to the pinned keys: only a `put` writes. -/
theorem step_kv {l : Label} (h : step env s l = some u) :
    u.kv = s.kv ∨ ∃ r read hostKey, l = .put r ∧ s.pc r = .putting read hostKey ∧
      u.kv = Function.update s.kv (env.request r).user
        (some (Function.update (parse read) (env.request r).hostId (some hostKey))) := by
  cases l with
  | get r =>
    simp only [step] at h
    split at h
    · obtain rfl := Option.some.inj h
      exact .inl rfl
    · obtain rfl := Option.some.inj h
      exact .inl rfl
    · cases h
  | connected r =>
    simp only [step] at h
    split at h
    · simp only [Option.ite_none_right_eq_some] at h
      obtain ⟨-, h⟩ := h
      split at h <;> obtain rfl := Option.some.inj h <;> exact .inl rfl
    · cases h
  | failed r =>
    simp only [step] at h
    split at h
    · obtain rfl := Option.some.inj h
      exact .inl rfl
    · cases h
  | put r =>
    simp only [step] at h
    split at h
    · rename_i read hostKey hpc
      obtain rfl := Option.some.inj h
      exact .inr ⟨r, read, hostKey, rfl, hpc, rfl⟩
    · cases h

/-- A request with another host, or one that is not to pin a new key, leaves the pinned key. -/
theorem pinned_step {user : User} {hostId : HostId} {l : Label} (hs : Honest env s)
    (hp : Undisturbed env s l) (hl : ∀ r, l = .put r → (env.request r).pins user hostId = false)
    (h : step env s l = some u) : u.pinned user hostId = s.pinned user hostId := by
  unfold State.pinned
  rcases step_kv h with hsame | ⟨r, read, hostKey, rfl, hpc, hkv⟩
  · rw [hsame]
  · have hread := hp read hostKey hpc
    have hnot := hl r rfl
    rw [hkv]
    by_cases huser : user = (env.request r).user
    · subst huser
      rw [Function.update_self, hread]
      show Function.update (parse read) _ _ hostId = parse read hostId
      by_cases hhost : hostId = (env.request r).hostId
      · -- The request names the host, so it is a session creation that accepts no new key.
        subst hhost
        rw [Function.update_self]
        cases hrq : env.request r with
        | create user' hostId' acceptNewHostKey =>
          cases acceptNewHostKey with
          | true =>
            rw [hrq] at hnot
            exact absurd hnot (by simp [Request.pins, Request.user, Request.hostId])
          | false => exact (hs r user' hostId' read hostKey hrq hpc).symm
        | accept user' hostId' hostKey' =>
          rw [hrq] at hnot
          exact absurd hnot (by simp [Request.pins, Request.user, Request.hostId])
      · rw [Function.update_of_ne hhost]
    · rw [Function.update_of_ne huser]

/-- Whatever was pinned before: along an undisturbed run in which no request that is to pin a new
key for a host writes, the pinned key of the host stays the same; and a request that writes pins
its key. -/
theorem pinned_of_undisturbed (env : Env) (kv : User → Option Hosts) (ls ms : List Label)
    (s u : State) (hr : run (step env) (State.init kv) ls = some s)
    (hp : Along (step env) (Undisturbed env) s ms) (hm : run (step env) s ms = some u) :
    (∀ user hostId, (∀ r, .put r ∈ ms → (env.request r).pins user hostId = false) →
      u.pinned user hostId = s.pinned user hostId) ∧
    ∀ r read hostKey v, s.pc r = .putting read hostKey → step env s (.put r) = some v →
      v.pinned (env.request r).user (env.request r).hostId = some hostKey := by
  have hinit : Honest env (State.init kv) := by
    intro r user hostId read hostKey _ hpc
    cases hpc
  have hs : Honest env s := reaches_invariant honest_step hinit ⟨ls, hr⟩
  constructor
  · intro user hostId hno
    have hal := hp.and_labels (Q := fun l =>
      ∀ r, l = .put r → (env.request r).pins user hostId = false)
      (by rintro l hl r rfl; exact hno r hl)
    have hinv := run_invariant (I := fun t => Honest env t ∧
      t.pinned user hostId = s.pinned user hostId)
      (fun t l v ht hl hstep => ⟨honest_step t l v ht.1 hstep,
        (pinned_step ht.1 hl.1 hl.2 hstep).trans ht.2⟩) ms s u ⟨hs, rfl⟩ hal hm
    exact hinv.2
  · intro r read hostKey v hpc hstep
    rcases step_kv hstep with hsame | ⟨r', read', hostKey', hput, hpc', hkv⟩
    · simp only [step, hpc, Option.some.injEq] at hstep
      subst hstep
      simp [State.pinned, State.setPc, State.putHosts, parse]
    · cases hput
      rw [hpc] at hpc'
      cases hpc'
      unfold State.pinned
      rw [hkv]
      simp [parse]

/-- A slow session creation for the known host `a:22`, and the acceptance of a key for `b:22`. -/
def slowCreate : Env where
  request
    | 0 => .create "owner" "a:22" false
    | _ => .accept "owner" "b:22" "B2"
  presented _ := "A"

def pinnedBoth : User → Option Hosts := fun _ => some fun hostId =>
  if hostId = "a:22" then some "A" else if hostId = "b:22" then some "B1" else none

theorem pinned_slowCreate :
    ∃ s u, run (step slowCreate) (State.init pinnedBoth) [.get 1, .put 1, .get 0] = some s ∧
      run (step slowCreate) s [.connected 0, .put 0] = some u ∧
      s.pinned "owner" "b:22" = some "B2" ∧
      (∀ user hostId, (∀ r, .put r ∈ [Label.connected 0, .put 0] →
          (slowCreate.request r).pins user hostId = false) →
        u.pinned user hostId = s.pinned user hostId) ∧
      ∀ r read hostKey v, s.pc r = .putting read hostKey → step slowCreate s (.put r) = some v →
        v.pinned (slowCreate.request r).user (slowCreate.request r).hostId = some hostKey := by
  refine ⟨_, _, rfl, rfl, rfl, pinned_of_undisturbed slowCreate pinnedBoth
    [.get 1, .put 1, .get 0] [.connected 0, .put 0] _ _ rfl ?_ rfl⟩
  refine ⟨trivial, ?_⟩
  rintro t ⟨⟩
  refine ⟨?_, fun _ _ => trivial⟩
  rintro read hostKey ⟨⟩
  rfl

/-- The creation reads the known hosts, then the key of `b:22` is accepted, and then the creation
writes what it has read: the old key of `b:22` is back. -/
theorem not_pinned :
    ¬ ∀ (env : Env) (kv : User → Option Hosts) (ls ms : List Label) (s u : State),
      run (step env) (State.init kv) ls = some s → run (step env) s ms = some u →
        ∀ user hostId, (∀ r, .put r ∈ ms → (env.request r).pins user hostId = false) →
          u.pinned user hostId = s.pinned user hostId := by
  intro h
  have hpinned := h slowCreate pinnedBoth [.get 0, .get 1, .put 1] [.connected 0, .put 0] _ _
    rfl rfl "owner" "b:22" (by
      intro r hr
      have hzero : r = 0 := by simpa using hr
      subst hzero
      rfl)
  exact absurd hpinned (by decide)

end Edgessh.Worker.KnownHosts
