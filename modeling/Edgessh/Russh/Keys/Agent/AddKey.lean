import Edgessh.Russh.Keys.Agent.Client
import Edgessh.Russh.Keys.Agent.Confirm

/-!
# Adding a key

A request to add a key is to be answered once, with SUCCESS where the key has been put into the
store and with FAILURE where the store is as before. `addKey` writes SUCCESS before it reads the
constraints; where one of them is not known to it, as those are that a client sends for
`Constraint::Extensions`, FAILURE is written behind it.
-/

namespace Edgessh.Russh.Keys.Agent
open Edgessh.Command

/-- ADD_IDENTITY, or ADD_ID_CONSTRAINED. -/
def addRequest (constrained : Bool) (r : Bytes) : Bytes :=
  (if constrained then Msg.addIdConstrained else Msg.addIdentity) :: r

/-- The key that a request is to add, and its constraints. -/
inductive Names (K : KeyCrate) (r : Bytes) : Bool → Bytes → K.Keypair → List Constraint → Prop
  | plain {blob rest : Bytes} {key : K.Keypair} : readIdentity K r = .ok ((blob, key), rest) →
      Names K r false blob key []
  | constrained {blob rest : Bytes} {key : K.Keypair} {cs : List Constraint} :
      readIdentity K r = .ok ((blob, key), rest) → encodeConstraints cs = .ok rest →
      Names K r true blob key cs

/-- The key of a request is in the store, with the constraints of the request. -/
def Holds {K : KeyCrate} (constrained : Bool) (r : Bytes) (keys : KeyStore K) : Prop :=
  ∃ blob key cs entry, Names K r constrained blob key cs ∧ keys.get? blob = some entry ∧
    entry.key = key ∧ entry.constraints = cs

/-- What the message of a response says of the store. A key that has been there with the same
constraints stays there when a request is refused; for every other one the message says whether it
is there. -/
structure Atomic {K : KeyCrate} (constrained : Bool) (r : Bytes) (before after : KeyStore K)
    (message : Bytes) : Prop where
  one : message = [Msg.success] ∨ message = [Msg.failure]
  success : message = [Msg.success] → Holds constrained r after
  success_iff : ¬Holds constrained r before →
    (message = [Msg.success] ↔ Holds constrained r after)
  failure : message ≠ [Msg.success] → after = before

/-- A request that `respond` works on is answered, once, and the answer says what has become of
the key. -/
def System.AddsAtomically {K : KeyCrate} (s : System K) (c : ConnectionId) (env : Surroundings)
    (constrained : Bool) (r : Bytes) : Prop :=
  ∃ message t, s.next (.answer c env) =
      some (.responded c env.confirmRequest (some message) [], t) ∧
    t.pending c = none ∧ Atomic constrained r s.shared.keys t.shared.keys message

/-- If the constraints of a request come to be read, they are a list of known ones. -/
def KnowsConstraints (K : KeyCrate) (env : Surroundings) (isLocked constrained : Bool)
    (r : Bytes) : Prop :=
  isLocked = false → env.confirmRequest .addKeys = true → constrained = true →
    ∀ blob key rest, readIdentity K r = .ok ((blob, key), rest) →
      ∃ cs, encodeConstraints cs = .ok rest ∧ ∀ c ∈ cs, c.isKnown = true

section Outcome

variable {K : KeyCrate} {constrained : Bool} {r : Bytes} {keys : KeyStore K}

/-- A request that is refused. -/
theorem atomic_refused : Atomic constrained r keys keys [Msg.failure] where
  one := .inr rfl
  success h := absurd h (by decide)
  success_iff hnot := iff_of_false (by decide) hnot
  failure _ := rfl

/-- A key that is put into the store. -/
theorem atomic_inserted {blob : Bytes} {key : K.Keypair} {cs : List Constraint}
    (h : Names K r constrained blob key cs) (now : Nat) :
    Atomic constrained r keys (keys.insert blob ⟨key, now, cs⟩) [Msg.success] := by
  have hholds : Holds constrained r (keys.insert blob ⟨key, now, cs⟩) :=
    ⟨blob, key, cs, ⟨key, now, cs⟩, h, keys.get?_insert_self blob _, rfl, rfl⟩
  exact ⟨.inl rfl, fun _ => hholds, fun _ => iff_of_true rfl hholds, fun hne => absurd rfl hne⟩

/-- Both answers are none. -/
theorem not_atomic_both {after : KeyStore K} :
    ¬Atomic constrained r keys after [Msg.success, Msg.failure] := by
  intro h
  rcases h.one with hone | hone
  · cases hone
  · cases hone

theorem addKey_atomic_iff (now : Nat) (s : Shared K) :
    Atomic constrained r s.keys (addKey now constrained r s).shared.keys
        (addKey now constrained r s).message ↔
      (constrained = true → ∀ blob key rest, readIdentity K r = .ok ((blob, key), rest) →
        ∃ cs, encodeConstraints cs = .ok rest ∧ ∀ c ∈ cs, c.isKnown = true) := by
  unfold addKey
  cases hr : readIdentity K r with
  | error e => exact iff_of_true atomic_refused nofun
  | ok p =>
    obtain ⟨⟨blob, key⟩, rest⟩ := p
    cases constrained with
    | false => exact iff_of_true (atomic_inserted (.plain hr) now) nofun
    | true =>
      have hdone : (true = true → ∀ blob' key' rest', Except.ok ((blob, key), rest) =
          (Except.ok ((blob', key'), rest') : Except EncodingError _) →
          ∃ cs, encodeConstraints cs = .ok rest' ∧ ∀ c ∈ cs, c.isKnown = true) ↔
          (parseConstraints rest).2 = some true := by
        rw [parseConstraints_done_iff]
        constructor
        · intro h
          exact h rfl blob key rest rfl
        · rintro h - blob' key' rest' ⟨⟩
          exact h
      rw [hdone]
      dsimp only
      rw [if_pos rfl]
      cases hcs : parseConstraints rest with
      | mk cs ok =>
        rcases ok with _ | _ | _
        · exact iff_of_false not_atomic_both nofun
        · exact iff_of_false not_atomic_both nofun
        · have hencoded := (encode_of_parseConstraints hcs).1
          exact iff_of_true (atomic_inserted (.constrained hr hencoded) now) rfl

end Outcome

section Answer

variable {K : KeyCrate} {env : Surroundings} {isLocked constrained : Bool} {r : Bytes}

theorem respond_addRequest (s : Shared K) :
    respond isLocked env (addRequest constrained r) s =
      some (if isLocked = false ∧ env.confirmRequest .addKeys = true then
        addKey env.now constrained r s else reply [Msg.failure] s) := by
  obtain ⟨arm, hbyte, hlocked, htype, hrun⟩ : ∃ arm : Arm,
      addRequest constrained r = arm.byte :: r ∧ arm.whenLocked = false ∧
      arm.messageType = .addKeys ∧ arm.run env r s = some (addKey env.now constrained r s) := by
    cases constrained with
    | false => exact ⟨.addIdentity, rfl, rfl, rfl, rfl⟩
    | true => exact ⟨.addIdConstrained, rfl, rfl, rfl, rfl⟩
  unfold respond
  by_cases hguard : isLocked = false ∧ env.confirmRequest .addKeys = true
  · have hchosen : chosenArm isLocked env (addRequest constrained r) = some (arm, r) :=
      chosenArm_eq_some.mpr ⟨hbyte, by rw [hlocked, htype]; exact hguard⟩
    rw [hchosen, if_pos hguard]
    exact hrun
  · have hchosen : chosenArm isLocked env (addRequest constrained r) = none := by
      rw [Option.eq_none_iff_forall_ne_some]
      rintro ⟨arm', r'⟩ h
      obtain ⟨heq, hlocked', hconfirmed⟩ := chosenArm_eq_some.mp h
      rw [hbyte] at heq
      have hbyte' : Arm.ofByte arm.byte = some arm' :=
        Arm.ofByte_eq_some.mpr (List.cons.inj heq).1
      obtain rfl : arm = arm' := Option.some.inj ((Arm.ofByte_eq_some.mpr rfl).symm.trans hbyte')
      rw [hlocked] at hlocked'
      rw [htype] at hconfirmed
      exact hguard ⟨hlocked', hconfirmed⟩
    rw [hchosen, if_neg hguard]

theorem addKey_confirms (now : Nat) (s : Shared K) :
    (addKey now constrained r s).confirms = [] := by
  unfold addKey
  split
  · rfl
  · split
    · split
      · rfl
      · rfl
    · rfl

/-- An add request is answered with the outcome of `addKey`, or refused. -/
theorem next_addRequest {s : System K} {c : ConnectionId}
    (hp : s.pending c = some ⟨addRequest constrained r, isLocked⟩) :
    ∃ response : Response K, s.next (.answer c env) =
        some (.responded c env.confirmRequest (some response.message) [],
          ⟨response.shared, Function.update s.pending c none⟩) ∧
      response = if isLocked = false ∧ env.confirmRequest .addKeys = true then
        addKey env.now constrained r s.shared else reply [Msg.failure] s.shared := by
  refine ⟨_, ?_, rfl⟩
  have hconfirms : (if isLocked = false ∧ env.confirmRequest .addKeys = true then
      addKey env.now constrained r s.shared
      else reply [Msg.failure] s.shared : Response K).confirms = [] := by
    split
    · exact addKey_confirms env.now s.shared
    · rfl
  simp only [System.next, hp, respond_addRequest, hconfirms]

/-- Whatever the agent holds, a request to add a key is atomic exactly when its constraints, if they
come to be read, are known ones. -/
theorem addsAtomically_iff {s : System K} {c : ConnectionId}
    (hp : s.pending c = some ⟨addRequest constrained r, isLocked⟩) :
    s.AddsAtomically c env constrained r ↔ KnowsConstraints K env isLocked constrained r := by
  obtain ⟨response, hnext, hresponse⟩ := @next_addRequest K env isLocked constrained r s c hp
  have hatomic : s.AddsAtomically c env constrained r ↔
      Atomic constrained r s.shared.keys response.shared.keys response.message := by
    constructor
    · rintro ⟨message, t, ht, -, h⟩
      rw [hnext] at ht
      cases ht
      exact h
    · intro h
      exact ⟨response.message, _, hnext, Function.update_self c none s.pending, h⟩
  rw [hatomic, hresponse]
  unfold KnowsConstraints
  by_cases hguard : isLocked = false ∧ env.confirmRequest .addKeys = true
  · rw [if_pos hguard, addKey_atomic_iff]
    constructor
    · intro h _ _
      exact h
    · intro h
      exact h hguard.1 hguard.2
  · rw [if_neg hguard]
    refine iff_of_true atomic_refused ?_
    intro hlocked hconfirmed
    exact absurd ⟨hlocked, hconfirmed⟩ hguard

/-- The agent when the first request has been read. -/
def System.asked (K : KeyCrate) (buf : Bytes) : System K :=
  { System.init with
    pending := Function.update (System.init : System K).pending 0 (some ⟨buf, false⟩) }

/-- A key with a lifetime. -/
def lifetimeArguments : Bytes := 9 :: (encodeBytes [] ++ Msg.constrainLifetime :: encodeU32 60)

theorem readIdentity_lifetimeArguments :
    readIdentity KeyCrate.toy lifetimeArguments =
      .ok (([9], (9 : UInt8)), Msg.constrainLifetime :: encodeU32 60) := by
  have hcomment : decodeString (encodeBytes [] ++ Msg.constrainLifetime :: encodeU32 60) =
      .ok ([], Msg.constrainLifetime :: encodeU32 60) := by decide +kernel
  exact bind_eq_ok.mpr ⟨((9 : UInt8), _), rfl, bind_eq_ok.mpr ⟨([], _), hcomment, rfl⟩⟩

theorem addsAtomically_lifetime :
    (System.asked KeyCrate.toy (addRequest true lifetimeArguments)).AddsAtomically 0
      (.confirming 0) true lifetimeArguments := by
  have hp : (System.asked KeyCrate.toy (addRequest true lifetimeArguments)).pending 0 =
      some ⟨addRequest true lifetimeArguments, false⟩ := rfl
  refine (addsAtomically_iff hp).mpr ?_
  intro _ _ _ blob key rest hread
  rw [readIdentity_lifetimeArguments] at hread
  cases hread
  exact ⟨[.keyLifetime 60], rfl, List.forall_mem_singleton.mpr rfl⟩

/-- A key with an extension. -/
def extensionArguments : Bytes :=
  9 :: (encodeBytes [] ++ Msg.constrainExtension :: (encodeBytes [97] ++ encodeBytes []))

/-- The client sends such a request, and it is answered with both, SUCCESS first. -/
theorem not_addsAtomically :
    (Request.addIdentity (9 : UInt8) [.extensions [97] []] : Request KeyCrate.toy).message =
        .ok (addRequest true extensionArguments) ∧
      System.init.next (.receive 0 (addRequest true extensionArguments)) =
        some (.received 0 (addRequest true extensionArguments),
          System.asked KeyCrate.toy (addRequest true extensionArguments)) ∧
      ¬(System.asked KeyCrate.toy (addRequest true extensionArguments)).AddsAtomically 0
        (.confirming 0) true extensionArguments := by
  refine ⟨rfl, rfl, ?_⟩
  rintro ⟨message, t, hnext, -, h⟩
  have hmessage : message = [Msg.success, Msg.failure] := by
    cases hnext
    rfl
  rw [hmessage] at h
  exact not_atomic_both h

end Answer

end Edgessh.Russh.Keys.Agent
