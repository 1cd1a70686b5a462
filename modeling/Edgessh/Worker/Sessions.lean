import Edgessh.Lib.Run
import Mathlib.Logic.Function.Basic

/-!
# The session list of a user

The ids of a user's sessions are one KV value, `sessions:<user>`. Creating a session appends to
it; deleting one removes the id twice, in `SshSessionDO.terminate` and then in the route; the
alarm of a session calls `terminate` alone. Each of these reads the whole value and writes it
back, and between the two any other request may go on. A single `get` or `put` is atomic.

A session is created by one request, whose number stands for the id that `randomUUID` draws. The
other work of `terminate` is not the subject here; it is taken to complete.
-/

namespace Edgessh.Worker.Sessions
open Edgessh.Run

abbrev RequestId := Nat

/-- `crypto.randomUUID()` -/
abbrev SessionId := RequestId

/-- `user.sub` -/
abbrev User := String

structure SessionRecord where
  id : SessionId
  host : String
  port : Nat
  username : String
  createdAt : Nat
  deriving DecidableEq, Repr

/-- What `get` returns; `none` is `null`. -/
abbrev Stored := Option (List SessionRecord)

inductive Request where
  /-- POST / -/
  | create (user : User) (host : String) (port : Nat) (username : String)
  /-- DELETE /:id -/
  | delete (user : User) (id : SessionId)
  /-- the alarm of the object of a session -/
  | alarm (user : User) (id : SessionId)
  deriving DecidableEq, Repr

def Request.user : Request → User
  | .create user .. | .delete user _ | .alarm user _ => user

/-- The request is to end the session `id` of `user`. -/
def Request.ends (user : User) (id : SessionId) : Request → Bool
  | .create .. => false
  | .delete user' id' | .alarm user' id' => user' = user ∧ id' = id

/-- The request is to create a session of `user`. -/
def Request.creates (user : User) : Request → Bool
  | .create user' .. => user' = user
  | _ => false

/-- Where a request is. -/
inductive Pc where
  | notStarted
  /-- create, at the `/connect` request to the object -/
  | connecting
  /-- create, at `get` -/
  | listing
  /-- create, at `put` -/
  | pushing (read : Stored)
  /-- `terminate`, at `get` -/
  | terminating
  /-- `terminate`, at `put` -/
  | terminatingPut (read : List SessionRecord)
  /-- `terminate`, at `deleteAll` -/
  | clearing
  /-- delete, at `get` -/
  | deleting
  /-- delete, at `put` -/
  | deletingPut (read : List SessionRecord)
  | done
  /-- create, when `/connect` returned an error -/
  | failed
  deriving DecidableEq, Repr

structure State where
  /-- the value of `sessions:<user>` -/
  kv : User → Stored
  pc : RequestId → Pc
  /-- The object of the session has its `sessionMeta`. -/
  connected : User → SessionId → Bool
  /-- A `terminate` of the object has cleared its storage; its `sessionMeta` may be lost. -/
  cleared : User → SessionId → Bool

def State.init : State := ⟨fun _ => none, fun _ => .notStarted, fun _ _ => false, fun _ _ => false⟩

inductive Label where
  /-- The request arrives, or the alarm fires. -/
  | begin (r : RequestId)
  /-- `/connect` returns. -/
  | connected (r : RequestId) (ok : Bool)
  /-- A `get` returns. -/
  | get (r : RequestId)
  /-- `terminate` finds no `sessionMeta`, neither in memory nor in storage. -/
  | noMeta (r : RequestId)
  /-- A `put` is done; `now` is the time at which a new record was made. -/
  | put (r : RequestId) (now : Nat)
  /-- `deleteAll` is done. -/
  | cleared (r : RequestId)
  deriving DecidableEq, Repr

namespace State

def setPc (r : RequestId) (p : Pc) (s : State) : State :=
  { s with pc := Function.update s.pc r p }

/-- `handleConnect` stores the `sessionMeta`. -/
def setConnected (user : User) (id : SessionId) (s : State) : State :=
  { s with connected := fun user' id' => s.connected user' id' || (user' = user ∧ id' = id) }

/-- `terminate` deletes everything the object has stored. -/
def setCleared (user : User) (id : SessionId) (s : State) : State :=
  { s with cleared := fun user' id' => s.cleared user' id' || (user' = user ∧ id' = id) }

def putList (user : User) (list : List SessionRecord) (s : State) : State :=
  { s with kv := Function.update s.kv user (some list) }

/-- Both `terminate` and the delete route remove an id with `filter`. -/
def removeFrom (id : SessionId) (list : List SessionRecord) : List SessionRecord :=
  list.filter fun record => record.id ≠ id

/-- `setPc` of a request that has got the list, when there is nothing to write without one. -/
def gotList (r : RequestId) (raw : Stored) (found : List SessionRecord → Pc) (missing : Pc)
    (s : State) : State :=
  match raw with
  | some list => s.setPc r (found list)
  | none => s.setPc r missing

end State

/-- One step of one request. -/
def step (rq : RequestId → Request) (s : State) : Label → Option State
  | .begin r =>
    if s.pc r = .notStarted then
      match rq r with
      | .create .. => some (s.setPc r .connecting)
      | .delete .. | .alarm .. => some (s.setPc r .terminating)
    else none
  | .connected r ok =>
    match rq r, s.pc r with
    | .create user .., .connecting =>
      if ok then
        some ((s.setConnected user r).setPc r .listing)
      else some (s.setPc r .failed)
    | _, _ => none
  | .get r =>
    match rq r, s.pc r with
    | .create user .., .listing => some (s.setPc r (.pushing (s.kv user)))
    | .delete user id, .terminating | .alarm user id, .terminating =>
      if s.connected user id then
        some (s.gotList r (s.kv user) .terminatingPut .clearing)
      else none
    | .delete user _, .deleting => some (s.gotList r (s.kv user) .deletingPut .done)
    | _, _ => none
  | .noMeta r =>
    match rq r, s.pc r with
    | .delete user id, .terminating | .alarm user id, .terminating =>
      if s.connected user id = false ∨ s.cleared user id = true then some (s.setPc r .clearing)
      else none
    | _, _ => none
  | .put r now =>
    match rq r, s.pc r with
    | .create user host port username, .pushing read =>
      some ((s.putList user (read.getD [] ++ [⟨r, host, port, username, now⟩])).setPc r .done)
    | .delete user id, .terminatingPut read | .alarm user id, .terminatingPut read =>
      some ((s.putList user (State.removeFrom id read)).setPc r .clearing)
    | .delete user id, .deletingPut read =>
      some ((s.putList user (State.removeFrom id read)).setPc r .done)
    | _, _ => none
  | .cleared r =>
    match rq r, s.pc r with
    | .delete user id, .clearing =>
      some ((s.setCleared user id).setPc r .deleting)
    | .alarm user id, .clearing =>
      some ((s.setCleared user id).setPc r .done)
    | _, _ => none

/-- The ids in the list of a user. -/
def State.ids (user : User) (s : State) : List SessionId :=
  ((s.kv user).getD []).map SessionRecord.id

/-- The session `id` of `user` has been created. -/
def State.Created (rq : RequestId → Request) (user : User) (id : SessionId) (s : State) : Prop :=
  (rq id).creates user = true ∧ s.pc id = .done

/-- A request that ends the session `id` of `user` has completed. -/
def State.Ended (rq : RequestId → Request) (user : User) (id : SessionId) (s : State) : Prop :=
  ∃ r, (rq r).ends user id = true ∧ s.pc r = .done

/-- When all requests of a user have completed, the list is what was created and not ended. -/
def ListsExact (rq : RequestId → Request) (s : State) : Prop :=
  ∀ user, (∀ r, (rq r).user = user →
      s.pc r = .notStarted ∨ s.pc r = .done ∨ s.pc r = .failed) →
    (s.ids user).Nodup ∧
      ∀ id, id ∈ s.ids user ↔ s.Created rq user id ∧ ¬ s.Ended rq user id

/-- The request that creates the session, if there is one, has completed. -/
def State.Settled (rq : RequestId → Request) (user : User) (id : SessionId) (s : State) : Prop :=
  (rq id).creates user = true → s.pc id = .done ∨ s.pc id = .failed

/-- What is written was read in the state before, and no session is ended before its creation is
over. -/
def Undisturbed (rq : RequestId → Request) (s : State) : Label → Prop
  | .begin r => ∀ user id, (rq r).ends user id = true → s.Settled rq user id
  | .put r _ =>
    (∀ read, s.pc r = .pushing read → s.kv (rq r).user = read) ∧
    ∀ read, s.pc r = .terminatingPut read ∨ s.pc r = .deletingPut read →
      s.kv (rq r).user = some read
  | _ => True

/-- `terminate` has removed the id. -/
def Pc.removed : Pc → Bool
  | .clearing | .deleting | .deletingPut _ | .done => true
  | _ => false

/-- `/connect` has succeeded, in a request that creates a session. -/
def Pc.afterConnect : Pc → Bool
  | .listing | .pushing _ | .done => true
  | _ => false

/-- What an undisturbed run keeps true. -/
structure Tracked (rq : RequestId → Request) (s : State) : Prop where
  created : ∀ user id, id ∈ s.ids user → s.Created rq user id
  nodup : ∀ user, (s.ids user).Nodup
  kept : ∀ user id, s.Created rq user id → id ∈ s.ids user ∨
    ∃ r, (rq r).ends user id = true ∧ s.pc r ≠ .notStarted
  settled : ∀ r user id, (rq r).ends user id = true → s.pc r ≠ .notStarted → s.Settled rq user id
  removed : ∀ r user id, (rq r).ends user id = true → (s.pc r).removed = true → id ∉ s.ids user
  cleared : ∀ user id, s.cleared user id = true → s.Settled rq user id ∧ id ∉ s.ids user
  connected : ∀ user id, (rq id).creates user = true → (s.pc id).afterConnect = true →
    s.connected user id = true
  notFailed : ∀ r user id, (rq r).ends user id = true → s.pc r ≠ .failed

variable {rq : RequestId → Request} {s u : State}

theorem tracked_init (rq : RequestId → Request) : Tracked rq State.init where
  created := by intro user id h; cases h
  nodup := fun _ => List.nodup_nil
  kept := by rintro user id ⟨-, h⟩; cases h
  settled := fun _ _ _ _ h => absurd rfl h
  removed := by intro r user id _ h; cases h
  cleared := by intro user id h; cases h
  connected := by intro user id _ h; cases h
  notFailed := by intro r user id _ h; cases h

theorem Tracked.listsExact (hs : Tracked rq s) : ListsExact rq s := by
  intro user hcompleted
  refine ⟨hs.nodup user, ?_⟩
  intro id
  constructor
  · intro hid
    refine ⟨hs.created user id hid, ?_⟩
    rintro ⟨r, hends, hdone⟩
    exact hs.removed r user id hends (by rw [hdone]; rfl) hid
  · rintro ⟨hcreated, hnot⟩
    rcases hs.kept user id hcreated with hid | ⟨r, hends, hbegun⟩
    · exact hid
    · -- A request that was to end the session has completed.
      have huser : (rq r).user = user := by
        cases hrq : rq r with
        | create => rw [hrq] at hends; cases hends
        | delete user' id' =>
          rw [hrq] at hends
          exact (of_decide_eq_true hends).1
        | alarm user' id' =>
          rw [hrq] at hends
          exact (of_decide_eq_true hends).1
      rcases hcompleted r huser with h | h | h
      · exact absurd h hbegun
      · exact absurd ⟨r, hends, h⟩ hnot
      · exact absurd h (hs.notFailed r user id hends)

theorem setPc_self (r : RequestId) (p : Pc) (s : State) : (s.setPc r p).pc r = p := by
  simp [State.setPc]

theorem setPc_of_ne {r r' : RequestId} (h : r' ≠ r) (p : Pc) (s : State) :
    (s.setPc r p).pc r' = s.pc r' := by
  simp [State.setPc, h]

/-- A request goes on without touching the lists. A creation does not complete by it, and a
request that ends a session has removed it if it is past that point. -/
structure Quiet (rq : RequestId → Request) (s : State) (r : RequestId) (p : Pc) : Prop where
  begun : p ≠ .notStarted
  creating : ∀ user, (rq r).creates user = true → s.pc r ≠ .done ∧ s.pc r ≠ .failed ∧ p ≠ .done ∧
    (p.afterConnect = true → s.connected user r = true)
  ending : ∀ user id, (rq r).ends user id = true →
    s.Settled rq user id ∧ p ≠ .failed ∧ (p.removed = true → id ∉ s.ids user)

theorem Quiet.created_iff {r : RequestId} {p : Pc} (hq : Quiet rq s r p) (user : User)
    (id : SessionId) : (s.setPc r p).Created rq user id ↔ s.Created rq user id := by
  unfold State.Created
  by_cases hid : id = r
  · subst hid
    rw [setPc_self]
    constructor
    · rintro ⟨hcreates, hdone⟩
      exact absurd hdone (hq.creating user hcreates).2.2.1
    · rintro ⟨hcreates, hdone⟩
      exact absurd hdone (hq.creating user hcreates).1
  · rw [setPc_of_ne hid]

theorem Quiet.settled {r : RequestId} {p : Pc} (hq : Quiet rq s r p) {user : User}
    {id : SessionId} (h : s.Settled rq user id) : (s.setPc r p).Settled rq user id := by
  intro hcreates
  by_cases hid : id = r
  · subst hid
    obtain ⟨hdone, hfailed, -⟩ := hq.creating user hcreates
    rcases h hcreates with h | h
    · exact absurd h hdone
    · exact absurd h hfailed
  · rw [setPc_of_ne hid]
    exact h hcreates

theorem Tracked.move (hs : Tracked rq s) {r : RequestId} {p : Pc} (hq : Quiet rq s r p) :
    Tracked rq (s.setPc r p) where
  created := fun user id h => (hq.created_iff user id).mpr (hs.created user id h)
  nodup := hs.nodup
  kept := by
    intro user id h
    rcases hs.kept user id ((hq.created_iff user id).mp h) with hid | ⟨r', hends, hbegun⟩
    · exact .inl hid
    · refine .inr ⟨r', hends, ?_⟩
      by_cases hr : r' = r
      · subst hr
        rw [setPc_self]
        exact hq.begun
      · rwa [setPc_of_ne hr]
  settled := by
    intro r' user id hends hbegun
    by_cases hr : r' = r
    · subst hr
      exact hq.settled (hq.ending user id hends).1
    · rw [setPc_of_ne hr] at hbegun
      exact hq.settled (hs.settled r' user id hends hbegun)
  removed := by
    intro r' user id hends hremoved
    by_cases hr : r' = r
    · subst hr
      rw [setPc_self] at hremoved
      exact (hq.ending user id hends).2.2 hremoved
    · rw [setPc_of_ne hr] at hremoved
      exact hs.removed r' user id hends hremoved
  cleared := fun user id h => ⟨hq.settled (hs.cleared user id h).1, (hs.cleared user id h).2⟩
  connected := by
    intro user id hcreates hafter
    by_cases hid : id = r
    · subst hid
      rw [setPc_self] at hafter
      exact (hq.creating user hcreates).2.2.2 hafter
    · rw [setPc_of_ne hid] at hafter
      exact hs.connected user id hcreates hafter
  notFailed := by
    intro r' user id hends
    by_cases hr : r' = r
    · subst hr
      rw [setPc_self]
      exact (hq.ending user id hends).2.1
    · rw [setPc_of_ne hr]
      exact hs.notFailed r' user id hends

/-- A creation goes on, or fails. -/
theorem quiet_create {r : RequestId} {p : Pc} {user : User} {host : String} {port : Nat}
    {username : String} (hrq : rq r = .create user host port username) (hbegun : p ≠ .notStarted)
    (hpc : s.pc r ≠ .done ∧ s.pc r ≠ .failed ∧ p ≠ .done)
    (hconnected : p.afterConnect = true → s.connected user r = true) : Quiet rq s r p where
  begun := hbegun
  creating := by
    intro user' hcreates
    rw [hrq] at hcreates
    obtain rfl : user = user' := of_decide_eq_true hcreates
    exact ⟨hpc.1, hpc.2.1, hpc.2.2, hconnected⟩
  ending := by
    intro user' id hends
    rw [hrq] at hends
    cases hends

/-- A request that ends a session goes on. -/
theorem quiet_end {r : RequestId} {p : Pc} {user : User} {id : SessionId}
    (hrq : rq r = .delete user id ∨ rq r = .alarm user id) (hbegun : p ≠ .notStarted)
    (hsettled : s.Settled rq user id) (hfailed : p ≠ .failed)
    (hremoved : p.removed = true → id ∉ s.ids user) : Quiet rq s r p where
  begun := hbegun
  creating := by
    intro user' hcreates
    rcases hrq with hrq | hrq <;> rw [hrq] at hcreates <;> cases hcreates
  ending := by
    intro user' id' hends
    obtain ⟨rfl, rfl⟩ : user = user' ∧ id = id' := by
      rcases hrq with hrq | hrq <;> rw [hrq] at hends <;> exact of_decide_eq_true hends
    exact ⟨hsettled, hfailed, hremoved⟩

theorem ends_of (user : User) (id : SessionId) {r : RequestId}
    (hrq : rq r = .delete user id ∨ rq r = .alarm user id) : (rq r).ends user id = true := by
  rcases hrq with hrq | hrq <;> rw [hrq] <;> exact decide_eq_true ⟨rfl, rfl⟩

theorem ids_putList_self (user : User) (list : List SessionRecord) (s : State) :
    (s.putList user list).ids user = list.map SessionRecord.id := by
  simp [State.ids, State.putList]

theorem ids_putList_of_ne {user user' : User} (h : user' ≠ user) (list : List SessionRecord)
    (s : State) : (s.putList user list).ids user' = s.ids user' := by
  simp [State.ids, State.putList, h]

/-- A session that is being created is recorded. -/
def State.pushed (user : User) (read : Stored) (record : SessionRecord) (s : State) : State :=
  (s.putList user (read.getD [] ++ [record])).setPc record.id .done

/-- The request that creates the session is about to record it, in the list as it is. -/
structure Pushing (rq : RequestId → Request) (s : State) (user : User) (read : Stored)
    (record : SessionRecord) : Prop where
  creates : ∀ user', (rq record.id).creates user' = true ↔ user' = user
  pc : s.pc record.id = .pushing read
  read : s.kv user = read

section Push

variable {user : User} {read : Stored} {record : SessionRecord}

theorem pushed_ids (hread : s.kv user = read) (user' : User) :
    (s.pushed user read record).ids user' =
      s.ids user' ++ if user' = user then [record.id] else [] := by
  show (s.putList user _).ids user' = _
  by_cases huser : user' = user
  · subst huser
    rw [ids_putList_self, if_pos rfl, List.map_append, ← hread]
    rfl
  · rw [ids_putList_of_ne huser, if_neg huser, List.append_nil]

theorem pushed_pc_self (s : State) : (s.pushed user read record).pc record.id = .done :=
  setPc_self record.id .done _

theorem pushed_pc_of_ne {r : RequestId} (h : r ≠ record.id) :
    (s.pushed user read record).pc r = s.pc r :=
  setPc_of_ne h .done _

theorem not_creates_of_ends {request : Request} {user user' : User} {id : SessionId}
    (h : request.ends user id = true) : request.creates user' ≠ true := by
  cases request with
  | create => cases h
  | delete => simp [Request.creates]
  | alarm => simp [Request.creates]

/-- A request that is to end a session is not the one that creates this one. -/
theorem Pushing.pc_of_ends (hpush : Pushing rq s user read record) {r : RequestId} {user' : User}
    {id : SessionId} (h : (rq r).ends user' id = true) :
    (s.pushed user read record).pc r = s.pc r := by
  apply pushed_pc_of_ne
  intro heq
  rw [heq] at h
  exact not_creates_of_ends h ((hpush.creates user).mpr rfl)

theorem Pushing.not_created (hpush : Pushing rq s user read record) (user' : User) :
    ¬ s.Created rq user' record.id := by
  rintro ⟨-, hdone⟩
  rw [hpush.pc] at hdone
  cases hdone

theorem Pushing.not_settled (hpush : Pushing rq s user read record) :
    ¬ s.Settled rq user record.id := by
  intro h
  rcases h ((hpush.creates user).mpr rfl) with h | h <;> rw [hpush.pc] at h <;> cases h

/-- The recorded session has been created now, and no other one. -/
theorem Pushing.created_iff (hpush : Pushing rq s user read record) (user' : User)
    (id : SessionId) : (s.pushed user read record).Created rq user' id ↔
      s.Created rq user' id ∨ user' = user ∧ id = record.id := by
  by_cases hid : id = record.id
  · subst hid
    constructor
    · rintro ⟨hcreates, -⟩
      exact .inr ⟨(hpush.creates user').mp hcreates, rfl⟩
    · rintro (hold | ⟨huser, -⟩)
      · exact absurd hold (hpush.not_created user')
      · exact ⟨(hpush.creates user').mpr huser, pushed_pc_self s⟩
  · unfold State.Created
    rw [pushed_pc_of_ne hid]
    constructor
    · exact .inl
    · rintro (hold | ⟨-, heq⟩)
      · exact hold
      · exact absurd heq hid

theorem pushed_settled {user' : User} {id : SessionId} (h : s.Settled rq user' id) :
    (s.pushed user read record).Settled rq user' id := by
  intro hcreates
  by_cases hid : id = record.id
  · subst hid
    exact .inl (pushed_pc_self s)
  · rw [pushed_pc_of_ne hid]
    exact h hcreates

/-- A settled session that is not in the list does not come into it. -/
theorem Pushing.not_mem (hpush : Pushing rq s user read record) {user' : User} {id : SessionId}
    (h : s.Settled rq user' id) (hnot : id ∉ s.ids user') :
    id ∉ (s.pushed user read record).ids user' := by
  rw [pushed_ids hpush.read, List.mem_append, not_or]
  refine ⟨hnot, ?_⟩
  split
  · rename_i huser
    subst huser
    intro hmem
    obtain rfl := List.mem_singleton.mp hmem
    exact hpush.not_settled h
  · exact List.not_mem_nil

theorem Pushing.nodup (hpush : Pushing rq s user read record) (hs : Tracked rq s)
    (user' : User) : ((s.pushed user read record).ids user').Nodup := by
  rw [pushed_ids hpush.read]
  refine List.nodup_append.mpr ⟨hs.nodup user', ?_, ?_⟩
  · split <;> simp
  · intro id hid id' hid' heq
    split at hid'
    · rw [heq, List.mem_singleton.mp hid'] at hid
      exact hpush.not_created user' (hs.created user' record.id hid)
    · cases hid'

theorem Pushing.tracked (hpush : Pushing rq s user read record) (hs : Tracked rq s) :
    Tracked rq (s.pushed user read record) where
  created := by
    intro user' id hmem
    rw [hpush.created_iff]
    rw [pushed_ids hpush.read, List.mem_append] at hmem
    rcases hmem with hmem | hmem
    · exact .inl (hs.created user' id hmem)
    · split at hmem
      · rename_i huser
        exact .inr ⟨huser, List.mem_singleton.mp hmem⟩
      · cases hmem
  nodup := hpush.nodup hs
  kept := by
    intro user' id hcreated
    rw [pushed_ids hpush.read]
    rcases (hpush.created_iff user' id).mp hcreated with hold | ⟨huser, hid⟩
    · rcases hs.kept user' id hold with hmem | ⟨r, hends, hbegun⟩
      · exact .inl (List.mem_append_left _ hmem)
      · refine .inr ⟨r, hends, ?_⟩
        rw [hpush.pc_of_ends hends]
        exact hbegun
    · left
      rw [if_pos huser, hid]
      exact List.mem_append_right _ (List.mem_singleton_self record.id)
  settled := by
    intro r user' id hends hbegun
    rw [hpush.pc_of_ends hends] at hbegun
    exact pushed_settled (hs.settled r user' id hends hbegun)
  removed := by
    intro r user' id hends hremoved
    rw [hpush.pc_of_ends hends] at hremoved
    have hbegun : s.pc r ≠ .notStarted := by
      intro h
      rw [h] at hremoved
      cases hremoved
    exact hpush.not_mem (hs.settled r user' id hends hbegun) (hs.removed r user' id hends hremoved)
  cleared := by
    intro user' id h
    obtain ⟨hold, hnot⟩ := hs.cleared user' id h
    exact ⟨pushed_settled hold, hpush.not_mem hold hnot⟩
  connected := by
    intro user' id hcreates hafter
    by_cases hid : id = record.id
    · subst hid
      exact hs.connected user' record.id hcreates (by rw [hpush.pc]; rfl)
    · rw [pushed_pc_of_ne hid] at hafter
      exact hs.connected user' id hcreates hafter
  notFailed := by
    intro r user' id hends
    rw [hpush.pc_of_ends hends]
    exact hs.notFailed r user' id hends

end Push

theorem ids_removeFrom {user : User} {read : List SessionRecord} (hread : s.kv user = some read)
    (id : SessionId) :
    (s.putList user (State.removeFrom id read)).ids user = (s.ids user).filter (· ≠ id) := by
  rw [ids_putList_self]
  unfold State.ids State.removeFrom
  rw [hread, List.filter_map]
  rfl

/-- An id is removed by a request that is to end the session. -/
theorem tracked_remove (hs : Tracked rq s) {r : RequestId} {user : User} {id : SessionId}
    {read : List SessionRecord} (hrq : rq r = .delete user id ∨ rq r = .alarm user id)
    (hbegun : s.pc r ≠ .notStarted) (hread : s.kv user = some read) :
    Tracked rq (s.putList user (State.removeFrom id read)) := by
  have hsub : ∀ user' id', id' ∈ (s.putList user (State.removeFrom id read)).ids user' →
      id' ∈ s.ids user' := by
    intro user' id' hmem
    by_cases huser : user' = user
    · subst huser
      rw [ids_removeFrom hread] at hmem
      exact (List.mem_filter.mp hmem).1
    · rwa [ids_putList_of_ne huser] at hmem
  exact {
    created := fun user' id' h => hs.created user' id' (hsub user' id' h)
    nodup := by
      intro user'
      by_cases huser : user' = user
      · subst huser
        rw [ids_removeFrom hread]
        exact (hs.nodup user').filter _
      · rw [ids_putList_of_ne huser]
        exact hs.nodup user'
    kept := by
      intro user' id' h
      rcases hs.kept user' id' h with hmem | hended
      · by_cases huser : user' = user
        · subst huser
          by_cases hid : id' = id
          · subst hid
            exact .inr ⟨r, ends_of user' id' hrq, hbegun⟩
          · left
            rw [ids_removeFrom hread]
            exact List.mem_filter.mpr ⟨hmem, by simpa using hid⟩
        · left
          rw [ids_putList_of_ne huser]
          exact hmem
      · exact .inr hended
    settled := hs.settled
    removed := fun r' user' id' hends hremoved hmem =>
      hs.removed r' user' id' hends hremoved (hsub user' id' hmem)
    cleared := fun user' id' h =>
      ⟨(hs.cleared user' id' h).1, fun hmem => (hs.cleared user' id' h).2 (hsub user' id' hmem)⟩
    connected := hs.connected
    notFailed := hs.notFailed }

theorem tracked_put_remove (hs : Tracked rq s) {r : RequestId} {user : User} {id : SessionId}
    {read : List SessionRecord} (hrq : rq r = .delete user id ∨ rq r = .alarm user id)
    (hbegun : s.pc r ≠ .notStarted) (hread : s.kv user = some read) {p : Pc}
    (hp : p ≠ .notStarted) (hfailed : p ≠ .failed) :
    Tracked rq ((s.putList user (State.removeFrom id read)).setPc r p) := by
  have hgone := tracked_remove hs hrq hbegun hread
  have hsettled := hgone.settled r user id (ends_of user id hrq) hbegun
  refine hgone.move (quiet_end hrq hp hsettled hfailed ?_)
  intro _ hmem
  rw [ids_removeFrom hread] at hmem
  simpa using (List.mem_filter.mp hmem).2

/-- `terminate` has cleared the storage of an object whose id it has removed from the list. -/
theorem tracked_cleared (hs : Tracked rq s) {r : RequestId} {user : User} {id : SessionId}
    (hrq : rq r = .delete user id ∨ rq r = .alarm user id) (hpc : s.pc r = .clearing) {p : Pc}
    (hp : p ≠ .notStarted) (hfailed : p ≠ .failed) :
    Tracked rq ((s.setCleared user id).setPc r p) := by
  have hsettled : s.Settled rq user id :=
    hs.settled r user id (ends_of user id hrq) (by rw [hpc]; decide)
  have hnot : id ∉ s.ids user := hs.removed r user id (ends_of user id hrq) (by rw [hpc]; rfl)
  have hcleared : Tracked rq (s.setCleared user id) := by
    refine { hs with cleared := ?_ }
    intro user' id' h
    rcases Bool.or_eq_true_iff.mp h with hold | hnew
    · exact hs.cleared user' id' hold
    · obtain ⟨rfl, rfl⟩ := of_decide_eq_true hnew
      exact ⟨hsettled, hnot⟩
  exact hcleared.move (quiet_end hrq hp hsettled hfailed fun _ => hnot)

theorem tracked_gotList (hs : Tracked rq s) {r : RequestId} {user : User} {id : SessionId}
    (hrq : rq r = .delete user id ∨ rq r = .alarm user id) (hbegun : s.pc r ≠ .notStarted)
    {found : List SessionRecord → Pc} {missing : Pc}
    (hfound : ∀ l, found l ≠ .notStarted ∧ found l ≠ .failed ∧
      ((found l).removed = true → id ∉ s.ids user))
    (hmissing : missing ≠ .notStarted ∧ missing ≠ .failed) :
    Tracked rq (s.gotList r (s.kv user) found missing) := by
  have hsettled := hs.settled r user id (ends_of user id hrq) hbegun
  cases hkv : s.kv user with
  | some list =>
    obtain ⟨hne, hfailed, hremoved⟩ := hfound list
    exact hs.move (quiet_end hrq hne hsettled hfailed hremoved)
  | none =>
    refine hs.move (quiet_end hrq hmissing.1 hsettled hmissing.2 ?_)
    intro _ hmem
    unfold State.ids at hmem
    rw [hkv] at hmem
    cases hmem

theorem tracked_begin (hs : Tracked rq s) {r : RequestId} (hp : Undisturbed rq s (.begin r))
    (h : step rq s (.begin r) = some u) : Tracked rq u := by
  simp only [step, Option.ite_none_right_eq_some] at h
  obtain ⟨hpc, h⟩ := h
  cases hrq : rq r with
  | create user host port username =>
    simp only [hrq, Option.some.injEq] at h
    subst h
    exact hs.move (quiet_create hrq (by decide) (by rw [hpc]; decide) (by intro h; cases h))
  | delete user id =>
    simp only [hrq, Option.some.injEq] at h
    subst h
    have hsettled := hp user id (ends_of user id (.inl hrq))
    exact hs.move (quiet_end (.inl hrq) (by decide) hsettled (by decide) (by intro h; cases h))
  | alarm user id =>
    simp only [hrq, Option.some.injEq] at h
    subst h
    have hsettled := hp user id (ends_of user id (.inr hrq))
    exact hs.move (quiet_end (.inr hrq) (by decide) hsettled (by decide) (by intro h; cases h))

theorem tracked_connected (hs : Tracked rq s) {r : RequestId} {ok : Bool}
    (h : step rq s (.connected r ok) = some u) : Tracked rq u := by
  simp only [step] at h
  split at h
  · rename_i user host port username hrq hpc
    split at h
    · obtain rfl := Option.some.inj h
      have hconnected : Tracked rq (s.setConnected user r) := by
        refine { hs with connected := ?_ }
        intro user' id hcreates hafter
        exact Bool.or_eq_true_iff.mpr (.inl (hs.connected user' id hcreates hafter))
      refine hconnected.move (quiet_create hrq (by decide) ?_ ?_)
      · show s.pc r ≠ .done ∧ s.pc r ≠ .failed ∧ _
        rw [hpc]
        decide
      · intro _
        exact Bool.or_eq_true_iff.mpr (.inr (decide_eq_true ⟨rfl, rfl⟩))
    · obtain rfl := Option.some.inj h
      exact hs.move (quiet_create hrq (by decide) (by rw [hpc]; decide) (by intro h; cases h))
  · cases h

theorem tracked_get (hs : Tracked rq s) {r : RequestId} (h : step rq s (.get r) = some u) :
    Tracked rq u := by
  simp only [step] at h
  split at h
  · rename_i user host port username hrq hpc
    obtain rfl := Option.some.inj h
    refine hs.move (quiet_create hrq (by simp) (by rw [hpc]; simp) ?_)
    intro _
    apply hs.connected user r
    · rw [hrq]
      exact decide_eq_true rfl
    · rw [hpc]
      rfl
  · rename_i user id hrq hpc
    split at h
    · obtain rfl := Option.some.inj h
      exact tracked_gotList hs (.inl hrq) (by rw [hpc]; decide)
        (fun l => ⟨by simp, by simp, by intro h; cases h⟩) (by decide)
    · cases h
  · rename_i user id hrq hpc
    split at h
    · obtain rfl := Option.some.inj h
      exact tracked_gotList hs (.inr hrq) (by rw [hpc]; decide)
        (fun l => ⟨by simp, by simp, by intro h; cases h⟩) (by decide)
    · cases h
  · rename_i user id hrq hpc
    obtain rfl := Option.some.inj h
    have hnot : id ∉ s.ids user :=
      hs.removed r user id (ends_of user id (.inl hrq)) (by rw [hpc]; rfl)
    exact tracked_gotList hs (.inl hrq) (by rw [hpc]; decide)
      (fun l => ⟨by simp, by simp, fun _ => hnot⟩) (by decide)
  · cases h

/-- `terminate` that has no `sessionMeta` does not touch the list; the session is not in it. -/
theorem tracked_lost (hs : Tracked rq s) {r : RequestId} {user : User} {id : SessionId}
    (hrq : rq r = .delete user id ∨ rq r = .alarm user id) (hpc : s.pc r = .terminating)
    (hlost : s.connected user id = false ∨ s.cleared user id = true) :
    Tracked rq (s.setPc r .clearing) := by
  have hsettled := hs.settled r user id (ends_of user id hrq) (by rw [hpc]; decide)
  refine hs.move (quiet_end hrq (by decide) hsettled (by decide) ?_)
  intro _ hmem
  rcases hlost with hnever | hcleared
  · -- A session that is in the list has been connected.
    obtain ⟨hcreates, hdone⟩ := hs.created user id hmem
    rw [hs.connected user id hcreates (by rw [hdone]; rfl)] at hnever
    cases hnever
  · exact (hs.cleared user id hcleared).2 hmem

theorem tracked_noMeta (hs : Tracked rq s) {r : RequestId} (h : step rq s (.noMeta r) = some u) :
    Tracked rq u := by
  simp only [step] at h
  split at h
  · rename_i user id hrq hpc
    simp only [Option.ite_none_right_eq_some, Option.some.injEq] at h
    obtain ⟨hlost, rfl⟩ := h
    exact tracked_lost hs (.inl hrq) hpc hlost
  · rename_i user id hrq hpc
    simp only [Option.ite_none_right_eq_some, Option.some.injEq] at h
    obtain ⟨hlost, rfl⟩ := h
    exact tracked_lost hs (.inr hrq) hpc hlost
  · cases h

theorem tracked_put (hs : Tracked rq s) {r : RequestId} {now : Nat}
    (hp : Undisturbed rq s (.put r now)) (h : step rq s (.put r now) = some u) :
    Tracked rq u := by
  simp only [step] at h
  split at h
  · rename_i user host port username read hrq hpc
    obtain rfl := Option.some.inj h
    have hread := hp.1 read hpc
    rw [hrq] at hread
    have hpush : Pushing rq s user read ⟨r, host, port, username, now⟩ :=
      ⟨fun user' => by rw [hrq]; exact decide_eq_true_iff.trans eq_comm, hpc, hread⟩
    exact hpush.tracked hs
  · rename_i user id read hrq hpc
    obtain rfl := Option.some.inj h
    have hread := hp.2 read (.inl hpc)
    rw [hrq] at hread
    exact tracked_put_remove hs (.inl hrq) (by rw [hpc]; simp) hread (by decide) (by decide)
  · rename_i user id read hrq hpc
    obtain rfl := Option.some.inj h
    have hread := hp.2 read (.inl hpc)
    rw [hrq] at hread
    exact tracked_put_remove hs (.inr hrq) (by rw [hpc]; simp) hread (by decide) (by decide)
  · rename_i user id read hrq hpc
    obtain rfl := Option.some.inj h
    have hread := hp.2 read (.inr hpc)
    rw [hrq] at hread
    exact tracked_put_remove hs (.inl hrq) (by rw [hpc]; simp) hread (by decide) (by decide)
  · cases h

theorem tracked_step (rq : RequestId → Request) (s : State) (l : Label) (u : State)
    (hs : Tracked rq s) (hp : Undisturbed rq s l) (h : step rq s l = some u) : Tracked rq u := by
  cases l with
  | begin r => exact tracked_begin hs hp h
  | connected r ok => exact tracked_connected hs h
  | get r => exact tracked_get hs h
  | noMeta r => exact tracked_noMeta hs h
  | put r now => exact tracked_put hs hp h
  | cleared r =>
    simp only [step] at h
    split at h
    · rename_i user id hrq hpc
      obtain rfl := Option.some.inj h
      exact tracked_cleared (p := .deleting) hs (.inl hrq) hpc (by decide) (by decide)
    · rename_i user id hrq hpc
      obtain rfl := Option.some.inj h
      exact tracked_cleared (p := .done) hs (.inr hrq) hpc (by decide) (by decide)
    · cases h

/-- In an undisturbed run the list of each user is exact whenever all requests of the user have
completed. -/
theorem listsExact_of_undisturbed (rq : RequestId → Request) (ls : List Label) (s : State)
    (hp : Along (step rq) (Undisturbed rq) State.init ls)
    (hr : run (step rq) State.init ls = some s) : ListsExact rq s :=
  (run_invariant (tracked_step rq) ls _ _ (tracked_init rq) hp hr).listsExact

/-- Two sessions, the first of which is deleted. -/
def createTwo : RequestId → Request
  | 0 => .create "owner" "a" 22 "root"
  | 1 => .create "owner" "b" 22 "root"
  | _ => .delete "owner" 0

/-- The second session is connected while the first one is recorded. -/
def inTurn : List Label :=
  [.begin 0, .begin 1, .connected 0 true, .get 0, .connected 1 true, .put 0 1, .get 1, .put 1 1,
   .begin 2, .get 2, .put 2 0, .cleared 2, .get 2, .put 2 0]

theorem listsExact_inTurn :
    ∃ s, run (step createTwo) State.init inTurn = some s ∧ s.ids "owner" = [1] ∧
      ListsExact createTwo s := by
  refine ⟨_, rfl, rfl, listsExact_of_undisturbed createTwo inTurn _ ?_ rfl⟩
  refine .cons ?begin₀ rfl <| .cons ?begin₁ rfl <| .cons trivial rfl <| .cons trivial rfl <|
    .cons trivial rfl <| .cons ?put₀ rfl <| .cons trivial rfl <| .cons ?put₁ rfl <|
    .cons ?begin₂ rfl <| .cons trivial rfl <| .cons ?terminatingPut rfl <| .cons trivial rfl <|
    .cons trivial rfl <| .cons ?deletingPut rfl trivial
  case begin₀ | begin₁ =>
    intro user id hends
    cases hends
  case put₀ | put₁ =>
    refine ⟨fun read h => Pc.pushing.inj h, ?_⟩
    rintro read (h | h) <;> cases h
  case begin₂ =>
    -- The first session has been created.
    intro user id hends
    obtain ⟨rfl, rfl⟩ := of_decide_eq_true hends
    exact fun _ => .inl rfl
  case terminatingPut | deletingPut =>
    refine ⟨fun read h => (by cases h), ?_⟩
    rintro read (h | h) <;> cases h
    rfl

/-- Both sessions read the list before either of them writes it. -/
def atOnce : List Label :=
  [.begin 0, .begin 1, .connected 0 true, .connected 1 true, .get 0, .get 1, .put 0 1, .put 1 1]

/-- Then the first session is lost from the list. -/
theorem not_listsExact :
    (∃ s, run (step createTwo) State.init atOnce = some s ∧ s.pc 0 = .done ∧ s.pc 1 = .done ∧
      s.ids "owner" = [1]) ∧
    ¬ ∀ (rq : RequestId → Request) (ls : List Label) (s : State),
      run (step rq) State.init ls = some s → ListsExact rq s := by
  refine ⟨⟨_, rfl, rfl, rfl, rfl⟩, ?_⟩
  intro h
  obtain ⟨-, hexact⟩ := h createTwo atOnce _ rfl "owner" (by
    intro r _
    match r with
    | 0 => exact .inr (.inl rfl)
    | 1 => exact .inr (.inl rfl)
    | _ + 2 => exact .inl rfl)
  have hlost : (0 : RequestId) ∈ [1] := (hexact 0).mpr ⟨⟨rfl, rfl⟩, by
    rintro ⟨r, hends, hdone⟩
    match r with
    | 0 => cases hends
    | 1 => cases hends
    | _ + 2 => cases hdone⟩
  exact absurd hlost (by decide)

end Edgessh.Worker.Sessions
