import Edgessh.Worker.Passkey
import Mathlib.Data.List.Forall2

/-!
# Login of the owner

`/login/options` hands out a challenge. `/login/verify` reads the owner and the challenge, deletes
the challenge, verifies the assertion and writes the owner back with the new signature counter.
-/

namespace Edgessh.Worker.Login
open Edgessh.Run Passkey

/-- What an authenticator answers: the credential, the challenge and its signature counter. -/
structure Assertion where
  id : String
  challenge : String
  counter : Nat
  deriving DecidableEq, Repr

/-- `verifyAuthenticationResponse`: the assertion answers the expected challenge, and its counter
exceeds the stored one, or both are zero. The result is the new counter. -/
def verifyAuthenticationResponse (response : Assertion) (expectedChallenge : String)
    (credential : StoredCredential) : Option Nat :=
  if response.challenge = expectedChallenge ∧
      (credential.counter < response.counter ∨ credential.counter = 0 ∧ response.counter = 0) then
    some response.counter
  else none

/-- `matchingCred.counter = newCounter`, where `matchingCred` is the first credential with this
id. -/
def setCounter (id : String) (newCounter : Nat) : List StoredCredential → List StoredCredential
  | [] => []
  | cred :: rest =>
    if cred.id = id then { cred with counter := newCounter } :: rest
    else cred :: setCounter id newCounter rest

/-- Where a `/login/options` request is. -/
inductive Options where
  | notStarted
  /-- at `generateAuthenticationOptions` -/
  | generating
  /-- at `put("challenge:…")` -/
  | putting (id : ChallengeId) (challenge : String)
  | options
  /-- status 404 -/
  | notRegistered
  deriving DecidableEq, Repr

/-- Where a `/login/verify` request is. -/
inductive Verify where
  | notStarted
  /-- at `get("challenge:…")` -/
  | gettingChallenge (owner : UserRecord)
  /-- at `delete("challenge:…")` -/
  | deletingChallenge (owner : UserRecord) (stored : StoredChallenge)
  /-- at `verifyAuthenticationResponse` -/
  | verifying (owner : UserRecord) (stored : StoredChallenge) (matchingCred : StoredCredential)
  /-- at `put("user:owner")`; `read` is the record that was read, `owner` the one to be written -/
  | puttingOwner (read owner : UserRecord)
  /-- at `signJwt` -/
  | signing
  /-- the response `verified: true` -/
  | verified
  /-- status 404 -/
  | notRegistered
  /-- status 400, with the text of the error -/
  | refused (error : String)
  deriving DecidableEq, Repr

/-- What the verify requests bring along. -/
structure Requests where
  challengeId : RequestId → ChallengeId
  response : RequestId → Assertion

structure State where
  kv : Kv
  /-- the ids that `randomUUID` has given out -/
  issued : List ChallengeId
  options : RequestId → Options
  verify : RequestId → Verify

/-- No request has come, and no challenge is stored. -/
def State.init (owner : Option UserRecord) : State :=
  ⟨⟨owner, fun _ => none⟩, [], fun _ => .notStarted, fun _ => .notStarted⟩

/-- A request goes on up to its next `await`. -/
inductive Label where
  /-- `/login/options` after `get("user:owner")` -/
  | optionsOwner (r : RequestId)
  /-- after `generateAuthenticationOptions` and `randomUUID` -/
  | generated (r : RequestId) (id : ChallengeId) (challenge : String)
  /-- after `put("challenge:…")` -/
  | optionsPut (r : RequestId)
  /-- `/login/verify` after `get("user:owner")` -/
  | owner (r : RequestId)
  /-- after `get("challenge:…")` -/
  | challenge (r : RequestId)
  /-- after `delete("challenge:…")` -/
  | deleted (r : RequestId)
  /-- after `verifyAuthenticationResponse` -/
  | checked (r : RequestId)
  /-- after `put("user:owner")` -/
  | put (r : RequestId)
  /-- after `signJwt` -/
  | signed (r : RequestId)
  /-- A stored challenge expires. -/
  | expire (id : ChallengeId)
  deriving DecidableEq, Repr

def State.setOptions (r : RequestId) (o : Options) (s : State) : State :=
  { s with options := Function.update s.options r o }

def State.setVerify (r : RequestId) (v : Verify) (s : State) : State :=
  { s with verify := Function.update s.verify r v }

/-- One step of the login routes. -/
def step (rq : Requests) (s : State) : Label → Option State
  | .optionsOwner r =>
    if s.options r = .notStarted then
      match s.kv.owner with
      | none => some (s.setOptions r .notRegistered)
      | some owner =>
        if owner.credentials = [] then some (s.setOptions r .notRegistered)
        else some (s.setOptions r .generating)
    else none
  | .generated r id challenge =>
    if s.options r = .generating ∧ id ∉ s.issued then
      some ({ s with issued := id :: s.issued }.setOptions r (.putting id challenge))
    else none
  | .optionsPut r =>
    match s.options r with
    | .putting id challenge =>
      some ({ s with kv := s.kv.putChallenge id ⟨challenge, .authentication⟩ }.setOptions r
        .options)
    | _ => none
  | .owner r =>
    if s.verify r = .notStarted then
      match s.kv.owner with
      | none => some (s.setVerify r .notRegistered)
      | some owner =>
        if owner.credentials = [] then some (s.setVerify r .notRegistered)
        else some (s.setVerify r (.gettingChallenge owner))
    else none
  | .challenge r =>
    match s.verify r with
    | .gettingChallenge owner =>
      match s.kv.challenges (rq.challengeId r) with
      | none => some (s.setVerify r (.refused "Invalid or expired challenge"))
      | some stored =>
        if stored.type ≠ .authentication then
          some (s.setVerify r (.refused "Invalid or expired challenge"))
        else some (s.setVerify r (.deletingChallenge owner stored))
    | _ => none
  | .deleted r =>
    match s.verify r with
    | .deletingChallenge owner stored =>
      let s := { s with kv := s.kv.deleteChallenge (rq.challengeId r) }
      match owner.credentials.find? fun cred => cred.id = (rq.response r).id with
      | none => some (s.setVerify r (.refused "Credential not found"))
      | some matchingCred => some (s.setVerify r (.verifying owner stored matchingCred))
    | _ => none
  | .checked r =>
    match s.verify r with
    | .verifying owner stored matchingCred =>
      match verifyAuthenticationResponse (rq.response r) stored.challenge matchingCred with
      | none => some (s.setVerify r (.refused "Verification failed"))
      | some newCounter =>
        some (s.setVerify r (.puttingOwner owner
          { owner with credentials := setCounter matchingCred.id newCounter owner.credentials }))
    | _ => none
  | .put r =>
    match s.verify r with
    | .puttingOwner _ owner =>
      some ({ s with kv := s.kv.putOwner owner }.setVerify r .signing)
    | _ => none
  | .signed r => if s.verify r = .signing then some (s.setVerify r .verified) else none
  | .expire id => some { s with kv := s.kv.deleteChallenge id }

/-- No signature counter of the owner's credentials is smaller in `b` than in `a`. -/
def CountersLe (a b : UserRecord) : Prop :=
  List.Forall₂ (fun c d => c.counter ≤ d.counter) a.credentials b.credentials

theorem countersLe_refl (a : UserRecord) : CountersLe a a :=
  List.forall₂_same.mpr fun _ _ => Nat.le_refl _

theorem CountersLe.trans {a b c : UserRecord} (hab : CountersLe a b) (hbc : CountersLe b c) :
    CountersLe a c := by
  unfold CountersLe at *
  generalize a.credentials = as at *
  generalize b.credentials = bs at *
  generalize c.credentials = cs at *
  induction hab generalizing cs with
  | nil =>
    cases hbc
    exact .nil
  | cons hle _ ih =>
    cases hbc with
    | cons hle' hrest => exact .cons (Nat.le_trans hle hle') (ih _ hrest)

/-- The counter that is written is not below the counter of the credential it is written to. -/
theorem setCounter_le {id : String} {newCounter : Nat} {creds : List StoredCredential}
    {cred : StoredCredential} (hfind : creds.find? (fun c => c.id = id) = some cred)
    (hle : cred.counter ≤ newCounter) :
    List.Forall₂ (fun c d => c.counter ≤ d.counter) creds (setCounter id newCounter creds) := by
  induction creds with
  | nil => cases hfind
  | cons c rest ih =>
    unfold setCounter
    by_cases hid : c.id = id
    · rw [if_pos hid]
      have hself : c = cred := by simpa [hid] using hfind
      rw [← hself] at hle
      exact .cons hle (List.forall₂_same.mpr fun _ _ => Nat.le_refl _)
    · rw [if_neg hid]
      exact .cons (Nat.le_refl _) (ih (by simpa [hid] using hfind))

theorem verifyAuthenticationResponse_le {response : Assertion} {challenge : String}
    {cred : StoredCredential} {newCounter : Nat}
    (h : verifyAuthenticationResponse response challenge cred = some newCounter) :
    cred.counter ≤ newCounter := by
  simp only [verifyAuthenticationResponse, Option.ite_none_right_eq_some, Option.some.injEq] at h
  obtain ⟨⟨-, hcounter⟩, rfl⟩ := h
  omega

/-- The request has deleted its challenge and may still succeed, or has succeeded. -/
def Verify.used : Verify → Bool
  | .verifying .. | .puttingOwner .. | .signing | .verified => true
  | _ => false

/-- The request has got its challenge. -/
def Verify.taken : Verify → Bool
  | .deletingChallenge .. => true
  | v => v.used

/-- No other request has got the challenge without having deleted it yet, and the owner that is
replaced is the one that was read. -/
def Undisturbed (rq : Requests) (s : State) : Label → Prop
  | .challenge r => ∀ r', rq.challengeId r' = rq.challengeId r →
      ∀ owner stored, s.verify r' ≠ .deletingChallenge owner stored
  | .put r => ∀ read owner, s.verify r = .puttingOwner read owner → s.kv.owner = some read
  | _ => True

/-- The id has been drawn, and no request is about to put it in the store. -/
def State.Handed (id : ChallengeId) (s : State) : Prop :=
  id ∈ s.issued ∧ ∀ r challenge, s.options r ≠ .putting id challenge

/-- What a verify request has found out so far. -/
def Verify.Sound (response : Assertion) : Verify → Prop
  | .verifying owner _ matchingCred =>
    (owner.credentials.find? fun cred => cred.id = response.id) = some matchingCred
  | .puttingOwner read owner => CountersLe read owner
  | _ => True

/-- A challenge that is stored is not stored again, and one that a request has used is gone. -/
structure SingleUse (rq : Requests) (s : State) : Prop where
  stored : ∀ id, s.kv.challenges id ≠ none → s.Handed id
  drawn : ∀ r id challenge, s.options r = .putting id challenge → id ∈ s.issued
  unique : ∀ r r' id challenge challenge', s.options r = .putting id challenge →
    s.options r' = .putting id challenge' → r = r'
  handed : ∀ r, (s.verify r).taken = true → s.Handed (rq.challengeId r)
  gone : ∀ r, (s.verify r).used = true → s.kv.challenges (rq.challengeId r) = none
  once : ∀ r r', (s.verify r).taken = true → (s.verify r').taken = true →
    rq.challengeId r = rq.challengeId r' → r = r'
  sound : ∀ r, (s.verify r).Sound (rq.response r)

variable {rq : Requests} {s u : State}

theorem singleUse_init (rq : Requests) (owner : Option UserRecord) :
    SingleUse rq (State.init owner) where
  stored := fun _ h => absurd rfl h
  drawn := by intro r id challenge h; cases h
  unique := by intro r r' id challenge challenge' h; cases h
  handed := by intro r h; cases h
  gone := by intro r h; cases h
  once := by intro r r' h; cases h
  sound := fun _ => trivial

theorem taken_of_used {v : Verify} (h : v.used = true) : v.taken = true := by
  cases v <;> first | exact h | rfl

theorem setVerify_self (r : RequestId) (v : Verify) (s : State) :
    (s.setVerify r v).verify r = v := by
  simp [State.setVerify]

theorem setVerify_of_ne {r r' : RequestId} (h : r' ≠ r) (v : Verify) (s : State) :
    (s.setVerify r v).verify r' = s.verify r' := by
  simp [State.setVerify, h]

theorem setOptions_self (r : RequestId) (o : Options) (s : State) :
    (s.setOptions r o).options r = o := by
  simp [State.setOptions]

theorem setOptions_of_ne {r r' : RequestId} (h : r' ≠ r) (o : Options) (s : State) :
    (s.setOptions r o).options r' = s.options r' := by
  simp [State.setOptions, h]

/-- A request that moves on and takes no challenge by doing so. -/
theorem SingleUse.setVerify (hs : SingleUse rq s) {r : RequestId} {v : Verify}
    (htaken : v.taken = true → (s.verify r).taken = true)
    (hused : v.used = true → (s.verify r).used = true) (hsound : v.Sound (rq.response r)) :
    SingleUse rq (s.setVerify r v) := by
  have htaken' : ∀ r', ((s.setVerify r v).verify r').taken = true → (s.verify r').taken = true := by
    intro r' h
    by_cases hr : r' = r
    · subst hr
      rw [setVerify_self] at h
      exact htaken h
    · rwa [setVerify_of_ne hr] at h
  exact {
    stored := hs.stored
    drawn := hs.drawn
    unique := hs.unique
    handed := fun r' h => hs.handed r' (htaken' r' h)
    gone := by
      intro r' h
      by_cases hr : r' = r
      · subst hr
        rw [setVerify_self] at h
        exact hs.gone r' (hused h)
      · rw [setVerify_of_ne hr] at h
        exact hs.gone r' h
    once := fun r₁ r₂ h₁ h₂ => hs.once r₁ r₂ (htaken' r₁ h₁) (htaken' r₂ h₂)
    sound := by
      intro r'
      by_cases hr : r' = r
      · subst hr
        rw [setVerify_self]
        exact hsound
      · rw [setVerify_of_ne hr]
        exact hs.sound r' }

/-- An options request that moves on without a challenge to store. -/
theorem SingleUse.setOptions (hs : SingleUse rq s) {r : RequestId} {o : Options}
    (ho : ∀ id challenge, o ≠ .putting id challenge) : SingleUse rq (s.setOptions r o) := by
  have hputting : ∀ r' id challenge, (s.setOptions r o).options r' = .putting id challenge →
      s.options r' = .putting id challenge := by
    intro r' id challenge h
    by_cases hr : r' = r
    · subst hr
      rw [setOptions_self] at h
      exact absurd h (ho id challenge)
    · rwa [setOptions_of_ne hr] at h
  have hhanded : ∀ id, s.Handed id → (s.setOptions r o).Handed id := by
    intro id h
    exact ⟨h.1, fun r' challenge hput => h.2 r' challenge (hputting r' id challenge hput)⟩
  exact { hs with
    stored := fun id h => hhanded id (hs.stored id h)
    drawn := fun r' id challenge h => hs.drawn r' id challenge (hputting r' id challenge h)
    unique := fun r₁ r₂ id c₁ c₂ h₁ h₂ =>
      hs.unique r₁ r₂ id c₁ c₂ (hputting r₁ id c₁ h₁) (hputting r₂ id c₂ h₂)
    handed := fun r' h => hhanded _ (hs.handed r' h) }

/-- `randomUUID` draws an id that no other challenge has. -/
theorem singleUse_generated (hs : SingleUse rq s) {r : RequestId} {id : ChallengeId}
    {challenge : String} (hfresh : id ∉ s.issued) :
    SingleUse rq ({ s with issued := id :: s.issued }.setOptions r (.putting id challenge)) := by
  have hhanded : ∀ id', s.Handed id' →
      ({ s with issued := id :: s.issued }.setOptions r (.putting id challenge)).Handed id' := by
    intro id' h
    refine ⟨List.mem_cons_of_mem _ h.1, ?_⟩
    intro r' challenge' hput
    by_cases hr : r' = r
    · subst hr
      rw [setOptions_self] at hput
      cases hput
      exact hfresh h.1
    · rw [setOptions_of_ne hr] at hput
      exact h.2 r' challenge' hput
  exact { hs with
    stored := fun id' h => hhanded id' (hs.stored id' h)
    drawn := by
      intro r' id' challenge' h
      by_cases hr : r' = r
      · subst hr
        rw [setOptions_self] at h
        cases h
        exact List.mem_cons_self
      · rw [setOptions_of_ne hr] at h
        exact List.mem_cons_of_mem _ (hs.drawn r' id' challenge' h)
    unique := by
      intro r₁ r₂ id' c₁ c₂ h₁ h₂
      by_cases hr₁ : r₁ = r
      · by_cases hr₂ : r₂ = r
        · rw [hr₁, hr₂]
        · subst hr₁
          rw [setOptions_self] at h₁
          rw [setOptions_of_ne hr₂] at h₂
          cases h₁
          exact absurd (hs.drawn r₂ id c₂ h₂) hfresh
      · rw [setOptions_of_ne hr₁] at h₁
        by_cases hr₂ : r₂ = r
        · subst hr₂
          rw [setOptions_self] at h₂
          cases h₂
          exact absurd (hs.drawn r₁ id c₁ h₁) hfresh
        · rw [setOptions_of_ne hr₂] at h₂
          exact hs.unique r₁ r₂ id' c₁ c₂ h₁ h₂
    handed := fun r' h => hhanded _ (hs.handed r' h) }

theorem singleUse_putChallenge (hs : SingleUse rq s) {r : RequestId} {id : ChallengeId}
    {challenge : String} (hput : s.options r = .putting id challenge) (stored : StoredChallenge) :
    SingleUse rq ({ s with kv := s.kv.putChallenge id stored }.setOptions r .options) := by
  have hmoved : SingleUse rq (s.setOptions r .options) := hs.setOptions (by simp)
  exact { hmoved with
    stored := by
      intro id' h
      by_cases hid : id' = id
      · subst hid
        refine ⟨hs.drawn r id' challenge hput, ?_⟩
        intro r' challenge' hput'
        by_cases hr : r' = r
        · subst hr
          rw [setOptions_self] at hput'
          cases hput'
        · rw [setOptions_of_ne hr] at hput'
          exact hr (hs.unique r' r id' challenge' challenge hput' hput)
      · apply hmoved.stored
        intro hnone
        apply h
        show (s.kv.putChallenge id stored).challenges id' = none
        rw [Kv.putChallenge_of_ne hid]
        exact hnone
    gone := by
      intro r' h
      have hne : rq.challengeId r' ≠ id := by
        intro heq
        have hhanded := hs.handed r' (taken_of_used h)
        rw [heq] at hhanded
        exact hhanded.2 r challenge hput
      show (s.kv.putChallenge id stored).challenges _ = none
      rw [Kv.putChallenge_of_ne hne]
      exact hs.gone r' h }

theorem singleUse_deleteChallenge (hs : SingleUse rq s) (id : ChallengeId) :
    SingleUse rq { s with kv := s.kv.deleteChallenge id } := by
  have hstored : ∀ id', (s.kv.deleteChallenge id).challenges id' ≠ none →
      s.kv.challenges id' ≠ none := by
    intro id' h
    by_cases hid : id' = id
    · subst hid
      exact absurd (Kv.deleteChallenge_self id' s.kv) h
    · rwa [Kv.deleteChallenge_of_ne hid] at h
  exact { hs with
    stored := fun id' h => hs.stored id' (hstored id' h)
    gone := by
      intro r h
      by_contra hne
      exact hstored _ hne (hs.gone r h) }

/-- A request gets a challenge that no other request has got. -/
theorem singleUse_taken (hs : SingleUse rq s) {r : RequestId} {owner : UserRecord}
    {stored : StoredChallenge} (hstored : s.kv.challenges (rq.challengeId r) = some stored)
    (hp : Undisturbed rq s (.challenge r)) :
    SingleUse rq (s.setVerify r (.deletingChallenge owner stored)) := by
  have hpresent : s.kv.challenges (rq.challengeId r) ≠ none := by
    rw [hstored]
    simp
  -- Another request with this challenge would still have to delete it, or it would be gone.
  have hother : ∀ r', (s.verify r').taken = true →
      rq.challengeId r' = rq.challengeId r → False := by
    intro r' htaken hid
    cases hv : s.verify r' with
    | deletingChallenge owner' stored' => exact hp r' hid owner' stored' hv
    | _ =>
      have hused : (s.verify r').used = true := by
        rw [hv] at htaken ⊢
        exact htaken
      exact hpresent (hid ▸ hs.gone r' hused)
  have htaken : ∀ r', r' ≠ r → ((s.setVerify r (.deletingChallenge owner stored)).verify
      r').taken = true → (s.verify r').taken = true := by
    intro r' hr h
    rwa [setVerify_of_ne hr] at h
  exact { hs with
    handed := by
      intro r' h
      by_cases hr : r' = r
      · subst hr
        exact hs.stored _ hpresent
      · exact hs.handed r' (htaken r' hr h)
    gone := by
      intro r' h
      by_cases hr : r' = r
      · subst hr
        rw [setVerify_self] at h
        cases h
      · rw [setVerify_of_ne hr] at h
        exact hs.gone r' h
    once := by
      intro r₁ r₂ h₁ h₂ hid
      by_cases hr₁ : r₁ = r
      · by_cases hr₂ : r₂ = r
        · rw [hr₁, hr₂]
        · rw [hr₁] at hid
          exact (hother r₂ (htaken r₂ hr₂ h₂) hid.symm).elim
      · by_cases hr₂ : r₂ = r
        · rw [hr₂] at hid
          exact (hother r₁ (htaken r₁ hr₁ h₁) hid).elim
        · exact hs.once r₁ r₂ (htaken r₁ hr₁ h₁) (htaken r₂ hr₂ h₂) hid
    sound := by
      intro r'
      by_cases hr : r' = r
      · subst hr
        rw [setVerify_self]
        trivial
      · rw [setVerify_of_ne hr]
        exact hs.sound r' }

/-- A request deletes the challenge it has got and finds the credential. -/
theorem singleUse_discarded (hs : SingleUse rq s) {r : RequestId} {v : Verify}
    (htaken : (s.verify r).taken = true) (hsound : v.Sound (rq.response r)) :
    SingleUse rq ({ s with kv := s.kv.deleteChallenge (rq.challengeId r) }.setVerify r v) := by
  have hdeleted := singleUse_deleteChallenge hs (rq.challengeId r)
  have htaken' : ∀ r', (({ s with kv := s.kv.deleteChallenge (rq.challengeId r) }.setVerify r
      v).verify r').taken = true → (s.verify r').taken = true := by
    intro r' h
    by_cases hr : r' = r
    · subst hr
      exact htaken
    · rwa [setVerify_of_ne hr] at h
  exact { hdeleted with
    handed := fun r' h => hs.handed r' (htaken' r' h)
    gone := by
      intro r' h
      by_cases hr : r' = r
      · subst hr
        exact Kv.deleteChallenge_self _ s.kv
      · rw [setVerify_of_ne hr] at h
        exact hdeleted.gone r' h
    once := fun r₁ r₂ h₁ h₂ => hs.once r₁ r₂ (htaken' r₁ h₁) (htaken' r₂ h₂)
    sound := by
      intro r'
      by_cases hr : r' = r
      · subst hr
        rw [setVerify_self]
        exact hsound
      · rw [setVerify_of_ne hr]
        exact hs.sound r' }

theorem singleUse_optionsOwner (hs : SingleUse rq s) {r : RequestId}
    (h : step rq s (.optionsOwner r) = some u) : SingleUse rq u := by
  simp only [step, Option.ite_none_right_eq_some] at h
  obtain ⟨-, h⟩ := h
  split at h
  · obtain rfl := Option.some.inj h
    exact hs.setOptions (by simp)
  · split at h
    · obtain rfl := Option.some.inj h
      exact hs.setOptions (by simp)
    · obtain rfl := Option.some.inj h
      exact hs.setOptions (by simp)

theorem singleUse_owner (hs : SingleUse rq s) {r : RequestId}
    (h : step rq s (.owner r) = some u) : SingleUse rq u := by
  simp only [step, Option.ite_none_right_eq_some] at h
  obtain ⟨-, h⟩ := h
  split at h
  · obtain rfl := Option.some.inj h
    exact hs.setVerify (by intro h; cases h) (by intro h; cases h) trivial
  · split at h
    · obtain rfl := Option.some.inj h
      exact hs.setVerify (by intro h; cases h) (by intro h; cases h) trivial
    · obtain rfl := Option.some.inj h
      exact hs.setVerify (by intro h; cases h) (by intro h; cases h) trivial

theorem singleUse_challenge (hs : SingleUse rq s) {r : RequestId}
    (hp : Undisturbed rq s (.challenge r)) (h : step rq s (.challenge r) = some u) :
    SingleUse rq u := by
  simp only [step] at h
  split at h
  · split at h
    · obtain rfl := Option.some.inj h
      exact hs.setVerify (by intro h; cases h) (by intro h; cases h) trivial
    · rename_i stored hstored
      split at h
      · obtain rfl := Option.some.inj h
        exact hs.setVerify (by intro h; cases h) (by intro h; cases h) trivial
      · obtain rfl := Option.some.inj h
        exact singleUse_taken hs hstored hp
  · cases h

theorem singleUse_deleted (hs : SingleUse rq s) {r : RequestId}
    (h : step rq s (.deleted r) = some u) : SingleUse rq u := by
  simp only [step] at h
  split at h
  · rename_i owner stored hv
    have htaken : (s.verify r).taken = true := by
      rw [hv]
      rfl
    split at h
    · obtain rfl := Option.some.inj h
      exact singleUse_discarded hs htaken trivial
    · rename_i matchingCred hfind
      obtain rfl := Option.some.inj h
      exact singleUse_discarded hs htaken hfind
  · cases h

theorem singleUse_checked (hs : SingleUse rq s) {r : RequestId}
    (h : step rq s (.checked r) = some u) : SingleUse rq u := by
  simp only [step] at h
  split at h
  · rename_i owner stored matchingCred hv
    have hused : (s.verify r).used = true := by
      rw [hv]
      rfl
    have hfind : (owner.credentials.find? fun cred => cred.id = (rq.response r).id) =
        some matchingCred := by
      have hsound := hs.sound r
      rw [hv] at hsound
      exact hsound
    split at h
    · obtain rfl := Option.some.inj h
      exact hs.setVerify (by intro h; cases h) (by intro h; cases h) trivial
    · rename_i newCounter hchecked
      obtain rfl := Option.some.inj h
      have hid : matchingCred.id = (rq.response r).id := by
        simpa using List.find?_some hfind
      refine hs.setVerify (fun _ => taken_of_used hused) (fun _ => hused) ?_
      apply setCounter_le
      · rw [hid]
        exact hfind
      · exact verifyAuthenticationResponse_le hchecked
  · cases h

theorem singleUse_put (hs : SingleUse rq s) {r : RequestId}
    (h : step rq s (.put r) = some u) : SingleUse rq u := by
  simp only [step] at h
  split at h
  · rename_i read owner hv
    have hused : (s.verify r).used = true := by
      rw [hv]
      rfl
    obtain rfl := Option.some.inj h
    have hput : SingleUse rq { s with kv := s.kv.putOwner owner } := { hs with }
    exact hput.setVerify (fun _ => taken_of_used hused) (fun _ => hused) trivial
  · cases h

theorem singleUse_step (rq : Requests) (s : State) (l : Label) (u : State) (hs : SingleUse rq s)
    (hp : Undisturbed rq s l) (h : step rq s l = some u) : SingleUse rq u := by
  cases l with
  | optionsOwner r => exact singleUse_optionsOwner hs h
  | generated r id challenge =>
    simp only [step, Option.ite_none_right_eq_some, Option.some.injEq] at h
    obtain ⟨⟨-, hfresh⟩, rfl⟩ := h
    exact singleUse_generated hs hfresh
  | optionsPut r =>
    simp only [step] at h
    split at h
    · rename_i id challenge hput
      obtain rfl := Option.some.inj h
      exact singleUse_putChallenge hs hput _
    · cases h
  | owner r => exact singleUse_owner hs h
  | challenge r => exact singleUse_challenge hs hp h
  | deleted r => exact singleUse_deleted hs h
  | checked r => exact singleUse_checked hs h
  | put r => exact singleUse_put hs h
  | signed r =>
    simp only [step, Option.ite_none_right_eq_some, Option.some.injEq] at h
    obtain ⟨hv, rfl⟩ := h
    have hused : (s.verify r).used = true := by
      rw [hv]
      rfl
    exact hs.setVerify (fun _ => taken_of_used hused) (fun _ => hused) trivial
  | expire id =>
    obtain rfl := Option.some.inj h
    exact singleUse_deleteChallenge hs id

/-- What one step does to the owner: only the `put` of a verify request writes it. -/
theorem step_owner {l : Label} (h : step rq s l = some u) :
    u.kv.owner = s.kv.owner ∨ ∃ r read owner, l = .put r ∧
      s.verify r = .puttingOwner read owner ∧ u.kv.owner = some owner := by
  cases l with
  | put r =>
    simp only [step] at h
    split at h
    · rename_i read owner hv
      obtain rfl := Option.some.inj h
      exact .inr ⟨r, read, owner, rfl, hv, rfl⟩
    · cases h
  | optionsOwner r =>
    simp only [step, Option.ite_none_right_eq_some] at h
    obtain ⟨-, h⟩ := h
    split at h
    · obtain rfl := Option.some.inj h
      exact .inl rfl
    · split at h <;> obtain rfl := Option.some.inj h <;> exact .inl rfl
  | generated r id challenge =>
    simp only [step, Option.ite_none_right_eq_some, Option.some.injEq] at h
    obtain ⟨-, rfl⟩ := h
    exact .inl rfl
  | optionsPut r =>
    simp only [step] at h
    split at h
    · obtain rfl := Option.some.inj h
      exact .inl rfl
    · cases h
  | owner r =>
    simp only [step, Option.ite_none_right_eq_some] at h
    obtain ⟨-, h⟩ := h
    split at h
    · obtain rfl := Option.some.inj h
      exact .inl rfl
    · split at h <;> obtain rfl := Option.some.inj h <;> exact .inl rfl
  | challenge r =>
    simp only [step] at h
    split at h
    · split at h
      · obtain rfl := Option.some.inj h
        exact .inl rfl
      · split at h <;> obtain rfl := Option.some.inj h <;> exact .inl rfl
    · cases h
  | deleted r =>
    simp only [step] at h
    split at h
    · split at h <;> obtain rfl := Option.some.inj h <;> exact .inl rfl
    · cases h
  | checked r =>
    simp only [step] at h
    split at h
    · split at h <;> obtain rfl := Option.some.inj h <;> exact .inl rfl
    · cases h
  | signed r =>
    simp only [step, Option.ite_none_right_eq_some, Option.some.injEq] at h
    obtain ⟨-, rfl⟩ := h
    exact .inl rfl
  | expire id =>
    obtain rfl := Option.some.inj h
    exact .inl rfl

/-- The owner's counters are at least those of `before`. -/
def NotBelow (before : UserRecord) (s : State) : Prop :=
  ∃ owner, s.kv.owner = some owner ∧ CountersLe before owner

theorem notBelow_step {before : UserRecord} (s : State) (l : Label) (u : State)
    (hs : SingleUse rq s ∧ NotBelow before s) (hp : Undisturbed rq s l)
    (h : step rq s l = some u) : SingleUse rq u ∧ NotBelow before u := by
  obtain ⟨hsingle, owner, howner, hle⟩ := hs
  refine ⟨singleUse_step rq s l u hsingle hp h, ?_⟩
  rcases step_owner h with hsame | ⟨r, read, new, rfl, hv, hnew⟩
  · exact ⟨owner, by rw [hsame, howner], hle⟩
  · -- The record that is replaced is the one whose counter was raised.
    have hread := hp read new hv
    rw [howner] at hread
    obtain rfl := Option.some.inj hread
    have hsound := hsingle.sound r
    rw [hv] at hsound
    exact ⟨new, hnew, hle.trans hsound⟩

/-- In an undisturbed run each challenge yields at most one successful login, and the signature
counters of the owner never decrease. -/
theorem login_single_use (rq : Requests) (owner : Option UserRecord) (ls ms : List Label)
    (s u : State) (hp : Along (step rq) (Undisturbed rq) (State.init owner) ls)
    (hr : run (step rq) (State.init owner) ls = some s)
    (hq : Along (step rq) (Undisturbed rq) s ms) (hm : run (step rq) s ms = some u) :
    (∀ r r', u.verify r = .verified → u.verify r' = .verified →
      rq.challengeId r = rq.challengeId r' → r = r') ∧
    ∀ before, s.kv.owner = some before → NotBelow before u := by
  have hs := run_invariant (singleUse_step rq) ls _ _ (singleUse_init rq owner) hp hr
  constructor
  · have hu := run_invariant (singleUse_step rq) ms s u hs hq hm
    intro r r' hv hv'
    apply hu.once
    · rw [hv]
      rfl
    · rw [hv']
      rfl
  · intro before hbefore
    have hinit : SingleUse rq s ∧ NotBelow before s :=
      ⟨hs, before, hbefore, countersLe_refl before⟩
    exact (run_invariant notBelow_step ms s u hinit hq hm).2

/-- Both requests bring the same assertion. -/
def replayed : Requests where
  challengeId _ := 5
  response _ := ⟨"key", "challenge", 0⟩

/-- An owner whose authenticator does not count. -/
def ownerZero : UserRecord := ⟨[⟨"key", "pk", 0, none⟩], 1⟩

def handOut : List Label := [.optionsOwner 0, .generated 0 5 "challenge", .optionsPut 0]

def logInTwice : List Label :=
  [.owner 0, .challenge 0, .deleted 0, .owner 1, .challenge 1, .checked 0, .put 0, .signed 0]

theorem login_single_use_replayed :
    ∃ s u, run (step replayed) (State.init (some ownerZero)) handOut = some s ∧
      run (step replayed) s logInTwice = some u ∧ u.verify 0 = .verified ∧
      u.verify 1 = .refused "Invalid or expired challenge" ∧
      (∀ r r', u.verify r = .verified → u.verify r' = .verified →
        replayed.challengeId r = replayed.challengeId r' → r = r') ∧
      ∀ before, s.kv.owner = some before → NotBelow before u := by
  refine ⟨_, _, rfl, rfl, rfl, rfl,
    login_single_use replayed (some ownerZero) handOut logInTwice _ _ ?_ rfl ?_ rfl⟩
  · simp [Along, handOut, Undisturbed]
  · simp only [Along, logInTwice, Undisturbed, step, State.init, State.setVerify, State.setOptions,
      ownerZero, replayed, Kv.putChallenge, Kv.deleteChallenge, verifyAuthenticationResponse,
      setCounter, Function.update_idem, Function.update_apply,
      Function.update_eq_self, ↓reduceIte, List.cons_ne_self, ite_not,
      Option.some.injEq, Option.ite_none_right_eq_some, ne_eq, forall_const, Nat.not_lt_zero,
      Nat.succ_ne_self, Nat.zero_ne_one, and_true, true_and, and_self, and_imp, false_or,
      implies_true, forall_eq', forall_apply_eq_imp_iff, imp_self, decide_true,
      List.find?_cons_of_pos, Verify.puttingOwner.injEq]
    constructor
    · intro r' owner stored
      split <;> simp
    · intro r' owner stored
      split
      · simp
      · split <;> simp

/-- The second request gets the challenge before the first one deletes it. -/
def replayedMeanwhile : List Label :=
  [.owner 0, .challenge 0, .owner 1, .challenge 1, .deleted 0, .deleted 1, .checked 0, .checked 1,
   .put 0, .put 1, .signed 0, .signed 1]

/-- Two assertions of one authenticator, the first one with the higher counter. -/
def counted : Requests where
  challengeId r := r
  response r := ⟨"key", "challenge", if r = 0 then 7 else 6⟩

def handOutBoth : List Label :=
  [.optionsOwner 0, .generated 0 0 "challenge", .optionsPut 0,
   .optionsOwner 1, .generated 1 1 "challenge", .optionsPut 1]

/-- The first request raises the counter to 7, and the second one writes 6 over it. -/
def loweredMeanwhile : List Label :=
  [.owner 0, .owner 1, .challenge 0, .deleted 0, .checked 0, .challenge 1, .deleted 1, .checked 1,
   .put 0, .put 1]

/-- One challenge yields two logins, and a counter decreases. -/
theorem not_login_single_use :
    (¬ ∀ (rq : Requests) (owner : Option UserRecord) (ls : List Label) (s : State),
      run (step rq) (State.init owner) ls = some s →
        ∀ r r', s.verify r = .verified → s.verify r' = .verified →
          rq.challengeId r = rq.challengeId r' → r = r') ∧
    ¬ ∀ (rq : Requests) (owner : Option UserRecord) (ls ms : List Label) (s u : State),
      run (step rq) (State.init owner) ls = some s → run (step rq) s ms = some u →
        ∀ before, s.kv.owner = some before → NotBelow before u := by
  constructor
  · intro h
    have htwice := h replayed (some ownerZero) (handOut ++ replayedMeanwhile) _ rfl 0 1 rfl rfl rfl
    exact absurd htwice (by decide)
  · intro h
    obtain ⟨owner, howner, hle⟩ := h counted (some ownerZero)
      (handOutBoth ++ loweredMeanwhile.take 9) (loweredMeanwhile.drop 9) _ _ rfl rfl
      ⟨[⟨"key", "pk", 7, none⟩], 1⟩ rfl
    obtain rfl : (⟨[⟨"key", "pk", 6, none⟩], 1⟩ : UserRecord) = owner := Option.some.inj howner
    cases hle with
    | cons hcounter _ => exact absurd hcounter (by decide)

end Edgessh.Worker.Login
