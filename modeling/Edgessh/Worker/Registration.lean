import Edgessh.Worker.Passkey

/-!
# Registration of the owner

`/register/options` hands out a challenge, and `/register/verify` stores the credential that
answers it as the owner's. Both first look whether there is an owner already.
-/

namespace Edgessh.Worker.Registration
open Edgessh.Run Passkey

/-- Where a `/register/options` request is. -/
inductive Options where
  | notStarted
  /-- at `generateRegistrationOptions` -/
  | generating
  /-- at `put("challenge:…")` -/
  | putting (id : ChallengeId) (challenge : String)
  | options
  /-- status 409 -/
  | alreadyRegistered
  deriving DecidableEq, Repr

/-- Where a `/register/verify` request is. -/
inductive Verify where
  | notStarted
  /-- at `get("challenge:…")` -/
  | gettingChallenge
  /-- at `delete("challenge:…")` -/
  | deletingChallenge (stored : StoredChallenge)
  /-- at `verifyRegistrationResponse` -/
  | verifying (stored : StoredChallenge)
  /-- at `put("user:owner")` -/
  | puttingOwner (user : UserRecord)
  /-- at `signJwt` -/
  | signing (user : UserRecord)
  /-- the response `verified: true` -/
  | verified (user : UserRecord)
  /-- status 409 -/
  | alreadyRegistered
  /-- status 400, with the text of the error -/
  | refused (error : String)
  deriving DecidableEq, Repr

/-- What the requests bring along, and `verifyRegistrationResponse` of `@simplewebauthn/server`:
the credential of a response to the expected challenge, if it verifies. -/
structure Env (Response : Type) where
  challengeId : RequestId → ChallengeId
  response : RequestId → Response
  verifyRegistrationResponse : Response → String → Option StoredCredential

structure State where
  kv : Kv
  options : RequestId → Options
  verify : RequestId → Verify

def State.init (kv : Kv) : State := ⟨kv, fun _ => .notStarted, fun _ => .notStarted⟩

/-- A request goes on up to its next `await`. -/
inductive Label where
  /-- `/register/options` after `get("user:owner")` -/
  | optionsOwner (r : RequestId)
  /-- after `generateRegistrationOptions` and `randomUUID` -/
  | generated (r : RequestId) (id : ChallengeId) (challenge : String)
  /-- after `put("challenge:…")` -/
  | optionsPut (r : RequestId)
  /-- `/register/verify` after `get("user:owner")` -/
  | owner (r : RequestId)
  /-- after `get("challenge:…")` -/
  | challenge (r : RequestId)
  /-- after `delete("challenge:…")` -/
  | deleted (r : RequestId)
  /-- after `verifyRegistrationResponse`, at the time `now` -/
  | checked (r : RequestId) (now : Nat)
  /-- after `put("user:owner")` -/
  | put (r : RequestId)
  /-- after `signJwt` -/
  | signed (r : RequestId)
  /-- A stored challenge expires. -/
  | expire (id : ChallengeId)
  deriving DecidableEq, Repr

def State.setOptions (r : RequestId) (o : Options) (s : State) : State :=
  { s with options := Function.update s.options r o }

def State.setVerify (r : RequestId) (v : Verify) (s : State) : State :=
  { s with verify := Function.update s.verify r v }

variable {Response : Type}

/-- One step of the registration routes. -/
def step (env : Env Response) (s : State) : Label → Option State
  | .optionsOwner r =>
    if s.options r = .notStarted then
      match s.kv.owner with
      | some _ => some (s.setOptions r .alreadyRegistered)
      | none => some (s.setOptions r .generating)
    else none
  | .generated r id challenge =>
    if s.options r = .generating then some (s.setOptions r (.putting id challenge)) else none
  | .optionsPut r =>
    match s.options r with
    | .putting id challenge =>
      some ({ s with kv := s.kv.putChallenge id ⟨challenge, .registration⟩ }.setOptions r .options)
    | _ => none
  | .owner r =>
    if s.verify r = .notStarted then
      match s.kv.owner with
      | some _ => some (s.setVerify r .alreadyRegistered)
      | none => some (s.setVerify r .gettingChallenge)
    else none
  | .challenge r =>
    if s.verify r = .gettingChallenge then
      match s.kv.challenges (env.challengeId r) with
      | none => some (s.setVerify r (.refused "Invalid or expired challenge"))
      | some stored =>
        if stored.type ≠ .registration then
          some (s.setVerify r (.refused "Invalid or expired challenge"))
        else some (s.setVerify r (.deletingChallenge stored))
    else none
  | .deleted r =>
    match s.verify r with
    | .deletingChallenge stored =>
      some ({ s with kv := s.kv.deleteChallenge (env.challengeId r) }.setVerify r
        (.verifying stored))
    | _ => none
  | .checked r now =>
    match s.verify r with
    | .verifying stored =>
      match env.verifyRegistrationResponse (env.response r) stored.challenge with
      | none => some (s.setVerify r (.refused "Verification failed"))
      | some credential => some (s.setVerify r (.puttingOwner ⟨[credential], now⟩))
    | _ => none
  | .put r =>
    match s.verify r with
    | .puttingOwner user => some ({ s with kv := s.kv.putOwner user }.setVerify r (.signing user))
    | _ => none
  | .signed r =>
    match s.verify r with
    | .signing user => some (s.setVerify r (.verified user))
    | _ => none
  | .expire id => some { s with kv := s.kv.deleteChallenge id }

/-- A record is written. -/
def Label.isPut : Label → Bool
  | .put _ => true
  | _ => false

/-- No other request has stored a record since the one that stores its own looked for an owner. -/
def Unwritten (ls : List Label) : Label → Prop
  | .put r => Since (· = .owner r) (fun x => x.isPut = false) ls
  | _ => True

instance (ls : List Label) : DecidablePred (Unwritten ls) := fun l => by
  cases l <;> unfold Unwritten <;> infer_instance

/-- Between the moment a request looks for an owner and the moment it stores its record, no other
request stores one. -/
def Uncontested (ls : List Label) : Prop := Traced Unwritten ls

instance : DecidablePred Uncontested := fun ls => Traced.decidable ls

/-- The request has stored the record `user`, whether or not it has answered yet. -/
def Verify.HasStored (user : UserRecord) (v : Verify) : Prop :=
  v = .signing user ∨ v = .verified user

/-- The credential of every request that has stored one is the owner's. -/
def Stored (s : State) : Prop :=
  ∀ r user, (s.verify r).HasStored user → s.kv.owner = some user

theorem setVerify_eq {r r' : RequestId} {v w : Verify} {s : State}
    (h : (s.setVerify r v).verify r' = w) : r' = r ∧ v = w ∨ r' ≠ r ∧ s.verify r' = w := by
  by_cases hr : r' = r
  · subst hr
    simp only [State.setVerify, Function.update_self] at h
    exact .inl ⟨rfl, h⟩
  · simp only [State.setVerify, Function.update_of_ne hr] at h
    exact .inr ⟨hr, h⟩

/-- A request that moves on without storing anything. -/
theorem hasStored_setVerify {s : State} {r : RequestId} {v : Verify}
    (hv : ∀ user, ¬ v.HasStored user) {r' : RequestId} {user : UserRecord}
    (h : ((s.setVerify r v).verify r').HasStored user) : (s.verify r').HasStored user := by
  rcases setVerify_eq (rfl : (s.setVerify r v).verify r' = _) with ⟨-, hself⟩ | ⟨-, hother⟩
  · rw [← hself] at h
    exact absurd h (hv user)
  · rw [hother]
    exact h

theorem not_hasStored_refused (error : String) (user : UserRecord) :
    ¬ (Verify.refused error).HasStored user := by
  rintro (h | h) <;> cases h

/-- The request has found no owner and has not stored its record yet. -/
def Verify.isUnderway : Verify → Bool
  | .gettingChallenge | .deletingChallenge _ | .verifying _ | .puttingOwner _ => true
  | _ => false

/-- A request that goes on stays under way if it was. -/
theorem isUnderway_setVerify {s : State} {r : RequestId} {v : Verify}
    (hv : v.isUnderway = true → (s.verify r).isUnderway = true) {r' : RequestId}
    (h : ((s.setVerify r v).verify r').isUnderway = true) : (s.verify r').isUnderway = true := by
  rcases setVerify_eq (rfl : (s.setVerify r v).verify r' = _) with ⟨rfl, hself⟩ | ⟨-, hother⟩
  · rw [← hself] at h
    exact hv h
  · rw [hother]
    exact h

/-- A step that leaves the owner as it is: no request has stored its credential that had not done
so before, and none is under way that was not. -/
structure Keeps (s u : State) : Prop where
  owner : u.kv.owner = s.kv.owner
  stored : ∀ r user, (u.verify r).HasStored user → (s.verify r).HasStored user
  underway : ∀ r, (u.verify r).isUnderway = true → (s.verify r).isUnderway = true

theorem keeps_setVerify {s : State} {r : RequestId} {v : Verify}
    (hv : ∀ user, ¬ v.HasStored user)
    (hw : v.isUnderway = true → (s.verify r).isUnderway = true) : Keeps s (s.setVerify r v) :=
  ⟨rfl, fun _ _ => hasStored_setVerify hv, fun _ => isUnderway_setVerify hw⟩

/-- What one step does: it is the `put` of a verify request; or a verify request finds that there
is no owner; or it leaves the owner as it is, and a verify request that looks finds one. -/
theorem step_cases {env : Env Response} {s u : State} {l : Label} (h : step env s l = some u) :
    (∃ r user, l = .put r ∧ s.verify r = .puttingOwner user ∧
        u = { s with kv := s.kv.putOwner user }.setVerify r (.signing user)) ∨
      (∃ r, l = .owner r ∧ s.kv.owner = none ∧ u = s.setVerify r .gettingChallenge) ∨
      Keeps s u ∧ ∀ r, l = .owner r → (u.verify r).isUnderway = false := by
  cases l with
  | put r =>
    simp only [step] at h
    split at h
    · rename_i user huser
      obtain rfl := Option.some.inj h
      exact .inl ⟨r, user, rfl, huser, rfl⟩
    · cases h
  | optionsOwner r =>
    simp only [step, Option.ite_none_right_eq_some] at h
    obtain ⟨-, h⟩ := h
    split at h <;> obtain rfl := Option.some.inj h <;>
      exact .inr (.inr ⟨⟨rfl, fun _ _ hu => hu, fun _ hu => hu⟩, by rintro _ ⟨⟩⟩)
  | generated r id challenge =>
    simp only [step, Option.ite_none_right_eq_some, Option.some.injEq] at h
    obtain ⟨-, rfl⟩ := h
    exact .inr (.inr ⟨⟨rfl, fun _ _ hu => hu, fun _ hu => hu⟩, by rintro _ ⟨⟩⟩)
  | optionsPut r =>
    simp only [step] at h
    split at h
    · obtain rfl := Option.some.inj h
      exact .inr (.inr ⟨⟨rfl, fun _ _ hu => hu, fun _ hu => hu⟩, by rintro _ ⟨⟩⟩)
    · cases h
  | owner r =>
    simp only [step, Option.ite_none_right_eq_some] at h
    obtain ⟨-, h⟩ := h
    split at h
    · obtain rfl := Option.some.inj h
      refine .inr (.inr ⟨keeps_setVerify (by rintro user (h | h) <;> cases h) (by simp
        [Verify.isUnderway]), ?_⟩)
      rintro _ ⟨⟩
      simp [State.setVerify, Verify.isUnderway]
    · rename_i hnone
      obtain rfl := Option.some.inj h
      exact .inr (.inl ⟨r, rfl, hnone, rfl⟩)
  | challenge r =>
    simp only [step, Option.ite_none_right_eq_some] at h
    obtain ⟨hr, h⟩ := h
    have hw : (s.verify r).isUnderway = true := by rw [hr]; rfl
    refine .inr (.inr ⟨?_, by rintro _ ⟨⟩⟩)
    split at h
    · obtain rfl := Option.some.inj h
      exact keeps_setVerify (not_hasStored_refused _) fun _ => hw
    · split at h
      · obtain rfl := Option.some.inj h
        exact keeps_setVerify (not_hasStored_refused _) fun _ => hw
      · obtain rfl := Option.some.inj h
        exact keeps_setVerify (by rintro user (h | h) <;> cases h) fun _ => hw
  | deleted r =>
    simp only [step] at h
    split at h
    · rename_i stored hr
      obtain rfl := Option.some.inj h
      have hw : (s.verify r).isUnderway = true := by rw [hr]; rfl
      refine .inr (.inr ⟨⟨rfl, fun r' user hu => ?_, fun r' hu => ?_⟩, by rintro _ ⟨⟩⟩)
      · exact hasStored_setVerify (by rintro user (h | h) <;> cases h) hu
      · exact isUnderway_setVerify (fun _ => hw) hu
    · cases h
  | checked r now =>
    simp only [step] at h
    split at h
    · rename_i stored hr
      have hw : (s.verify r).isUnderway = true := by rw [hr]; rfl
      refine .inr (.inr ⟨?_, by rintro _ ⟨⟩⟩)
      split at h
      · obtain rfl := Option.some.inj h
        exact keeps_setVerify (not_hasStored_refused _) fun _ => hw
      · obtain rfl := Option.some.inj h
        exact keeps_setVerify (by rintro user (h | h) <;> cases h) fun _ => hw
    · cases h
  | signed r =>
    simp only [step] at h
    split at h
    · rename_i user huser
      obtain rfl := Option.some.inj h
      refine .inr (.inr ⟨⟨rfl, ?_, fun _ => isUnderway_setVerify (by simp [Verify.isUnderway])⟩,
        by rintro _ ⟨⟩⟩)
      intro r' user' hu
      rcases setVerify_eq (rfl : (s.setVerify r (.verified user)).verify r' = _) with
        ⟨rfl, hself⟩ | ⟨-, hother⟩
      · rw [← hself] at hu
        rcases hu with hu | hu
        · cases hu
        · cases hu
          exact .inl huser
      · rw [hother]
        exact hu
    · cases h
  | expire id =>
    obtain rfl := Option.some.inj h
    exact .inr (.inr ⟨⟨rfl, fun _ _ hu => hu, fun _ hu => hu⟩, by rintro _ ⟨⟩⟩)

/-- There is no owner as long as nothing has been written since a request under way looked. -/
def Vacant (ls : List Label) (s : State) : Prop :=
  ∀ r, (s.verify r).isUnderway = true → Since (· = .owner r) (fun x => x.isPut = false) ls →
    s.kv.owner = none

theorem vacant_step {env : Env Response} (ls : List Label) (s : State) (l : Label) (u : State)
    (hs : Vacant ls s) (h : step env s l = some u) : Vacant (ls ++ [l]) u := by
  intro r hr hsince
  rcases step_cases h with ⟨r', user', rfl, -, -⟩ | ⟨r', rfl, hnone, rfl⟩ | ⟨hkeeps, howner⟩
  · -- The owner has just been written.
    rcases since_concat_iff.mp hsince with heq | ⟨hput, -⟩
    · cases heq
    · cases hput
  · exact hnone
  · rcases since_concat_iff.mp hsince with rfl | ⟨-, hbefore⟩
    · rw [howner r rfl] at hr
      cases hr
    · rw [hkeeps.owner]
      exact hs r (hkeeps.underway r hr) hbefore

/-- A request that stores its record when no other has done so since it looked: there is no owner,
for otherwise it would have answered 409. -/
theorem owner_of_uncontested {ls : List Label} {s : State} {r : RequestId} {user : UserRecord}
    (hs : Vacant ls s) (hr : s.verify r = .puttingOwner user)
    (hput : Unwritten ls (.put r)) : s.kv.owner = none :=
  hs r (by rw [hr]; rfl) hput

/-- What holds at any point of an uncontested run. -/
structure Registered (ls : List Label) (s : State) : Prop where
  vacant : Vacant ls s
  stored : Stored s

theorem registered_step {env : Env Response} (ls : List Label) (s : State) (l : Label) (u : State)
    (hs : Registered ls s) (hp : Unwritten ls l) (h : step env s l = some u) :
    Registered (ls ++ [l]) u := by
  refine ⟨vacant_step ls s l u hs.vacant h, fun r user hu => ?_⟩
  rcases step_cases h with ⟨r', user', rfl, huser', rfl⟩ | ⟨r', rfl, -, rfl⟩ | ⟨hkeeps, -⟩
  · rcases setVerify_eq (rfl : (State.setVerify r' (.signing user') _).verify r = _) with
      ⟨-, hself⟩ | ⟨-, hother⟩
    · rw [← hself] at hu
      rcases hu with hu | hu
      · cases hu
        rfl
      · cases hu
    · -- Nobody had registered, so no other request can have stored its credential.
      rw [← hother] at hu
      have hstored := hs.stored r user hu
      rw [owner_of_uncontested hs.vacant huser' hp] at hstored
      cases hstored
  · exact hs.stored r user (hasStored_setVerify (by rintro user (h | h) <;> cases h) hu)
  · rw [hkeeps.owner]
    exact hs.stored r user (hkeeps.stored r user hu)

theorem owner_step {env : Env Response} {user : UserRecord} (ls : List Label) (s : State)
    (l : Label) (u : State) (hs : Vacant ls s ∧ s.kv.owner = some user) (hp : Unwritten ls l)
    (h : step env s l = some u) : Vacant (ls ++ [l]) u ∧ u.kv.owner = some user := by
  refine ⟨vacant_step ls s l u hs.1 h, ?_⟩
  rcases step_cases h with ⟨r, user', rfl, hr, -⟩ | ⟨r, rfl, -, rfl⟩ | ⟨hkeeps, -⟩
  · have hnone := owner_of_uncontested hs.1 hr hp
    rw [hs.2] at hnone
    cases hnone
  · exact hs.2
  · rw [hkeeps.owner]
    exact hs.2

/-- Whatever was stored before, an owner that is registered at some point of an uncontested run
stays, and a request that answers with success is the one whose credential is stored. -/
theorem single_owner (env : Env Response) (kv : Kv) (ls ms : List Label) (s u : State)
    (hp : Uncontested (ls ++ ms)) (hr : run (step env) (State.init kv) ls = some s)
    (hm : run (step env) s ms = some u) :
    (∀ user, s.kv.owner = some user → u.kv.owner = some user) ∧
      ∀ r user, u.verify r = .verified user → u.kv.owner = some user := by
  obtain ⟨hls, hms⟩ := traced_append_iff_after.mp hp
  have hinit : Registered [] (State.init kv) := by
    refine ⟨fun r h => by simp [State.init, Verify.isUnderway] at h, fun r user h => ?_⟩
    rcases h with h | h <;> cases h
  have hs : Registered ls s := run_invariant_traced registered_step hinit hls hr
  constructor
  · intro user huser
    exact (run_invariant_traced owner_step ⟨hs.vacant, huser⟩ hms hm).2
  · have hu : Registered (ls ++ ms) u := run_invariant_traced registered_step hs hms hm
    intro r user h
    exact hu.stored r user (.inr h)

/-- Two requests whose responses verify, each with a challenge of its own. -/
def twoResponses : Env String where
  challengeId r := r
  response r := if r = 0 then "a" else "b"
  verifyRegistrationResponse response challenge :=
    if challenge = "" then none else some ⟨response, response, 0, none⟩

/-- Nobody is registered, and two challenges have been handed out. -/
def unregistered : Kv where
  owner := none
  challenges id := if id < 2 then some ⟨"challenge", .registration⟩ else none

def registerFirst : List Label := [.owner 0, .challenge 0, .deleted 0, .checked 0 1, .put 0]

def answerBoth : List Label := [.signed 0, .owner 1]

theorem single_owner_first :
    ∃ s u, run (step twoResponses) (State.init unregistered) registerFirst = some s ∧
      run (step twoResponses) s answerBoth = some u ∧
      u.verify 0 = .verified ⟨[⟨"a", "a", 0, none⟩], 1⟩ ∧ u.verify 1 = .alreadyRegistered ∧
      (∀ user, s.kv.owner = some user → u.kv.owner = some user) ∧
      ∀ r user, u.verify r = .verified user → u.kv.owner = some user := by
  refine ⟨_, _, rfl, rfl, rfl, rfl, single_owner twoResponses unregistered registerFirst
    answerBoth _ _ ?_ rfl rfl⟩
  decide

/-- Both requests find no owner before either of them stores its credential: the second one
replaces the first one's, and both answer with success. -/
def bothRegister : List Label :=
  [.owner 0, .owner 1, .challenge 0, .deleted 0, .checked 0 1, .put 0, .signed 0,
   .challenge 1, .deleted 1, .checked 1 1, .put 1, .signed 1]

theorem not_single_owner :
    ¬ ∀ (env : Env String) (kv : Kv) (ls ms : List Label) (s u : State),
      run (step env) (State.init kv) ls = some s → run (step env) s ms = some u →
        (∀ user, s.kv.owner = some user → u.kv.owner = some user) ∧
          ∀ r user, u.verify r = .verified user → u.kv.owner = some user := by
  intro h
  have hboth := (h twoResponses unregistered (bothRegister.take 7) (bothRegister.drop 7) _ _
    rfl rfl).1 ⟨[⟨"a", "a", 0, none⟩], 1⟩ rfl
  exact absurd hboth (by decide)

end Edgessh.Worker.Registration
