import Edgessh.Russh.Keys.Agent.Lock

/-!
# The confirmation of a signature

A key that is added with the constraint to confirm keeps it in the store, through any order of
requests, and `try_sign` looks at it; but it makes up the answer that `Agent::confirm` should give.
-/

namespace Edgessh.Russh.Keys.Agent
open Edgessh.Run

/-- The key that a SIGN_REQUEST names. -/
def signedBlob? : Bytes → Option Bytes
  | [] => none
  | b :: r => if b = Msg.signRequest then (decodeBytes r).toOption.map Prod.fst else none

/-- Which keys are to be confirmed, once a request to add one has been answered with SUCCESS. -/
def needsAfter (K : KeyCrate) (needs : Bytes → Bool) : Bytes → Bytes → Bool
  | [] => needs
  | b :: r =>
    if b = Msg.addIdentity ∨ b = Msg.addIdConstrained then
      match readIdentity K r with
      | .error _ => needs
      | .ok ((blob, _), r) => Function.update needs blob
          (b = Msg.addIdConstrained && (parseConstraints r).1.contains .confirm)
    else needs

/-- An observer of the connections: the keys that were last added with the constraint to confirm,
and the requests without an answer. -/
structure KeyObserver where
  needs : Bytes → Bool
  asked : ConnectionId → Option Bytes

namespace KeyObserver

def init : KeyObserver := ⟨fun _ => false, fun _ => none⟩

def see (K : KeyCrate) (o : KeyObserver) : Event → KeyObserver
  | .received c buf => { o with asked := Function.update o.asked c (some buf) }
  | .responded c _ message _ =>
    match o.asked c with
    | none => o
    | some buf =>
      ⟨if message = some [Msg.success] then needsAfter K o.needs buf else o.needs,
        Function.update o.asked c none⟩
  | .expired => o

/-- A signature for a key that is to be confirmed has been confirmed. -/
def Expects (o : KeyObserver) : Event → Prop
  | .responded c _ (some message) confirms =>
    ∀ buf blob, o.asked c = some buf → signedBlob? buf = some blob →
      message.head? = some Msg.signResponse → o.needs blob = true → (blob, true) ∈ confirms
  | _ => True

end KeyObserver

/-- The agent with its observer. -/
structure KeyWatched (K : KeyCrate) where
  system : System K
  observer : KeyObserver

namespace KeyWatched

variable {K : KeyCrate}

def init : KeyWatched K := ⟨System.init, KeyObserver.init⟩

def step (w : KeyWatched K) (l : Step) : Option (KeyWatched K) :=
  (w.system.next l).map fun p => ⟨p.2, w.observer.see K p.1⟩

/-- What is answered at the step has been confirmed. -/
def Lawful (w : KeyWatched K) (l : Step) : Prop :=
  ∀ e t, w.system.next l = some (e, t) → w.observer.Expects e

end KeyWatched

section Condition

variable {K : KeyCrate}

/-- A request to sign names a key with the constraint to confirm, and nothing else stands in its
way. -/
def signsConfirmKey (r : Bytes) (s : Shared K) : Bool :=
  match decodeBytes r with
  | .error _ => false
  | .ok (blob, r) =>
    match s.keys.get? blob with
    | none => false
    | some entry =>
      entry.constraints.contains .confirm &&
        match decodeBytes r with
        | .error _ => false
        | .ok (data, _) =>
          match K.sign entry.key data with
          | none => false
          | some signature => signature.length < 2 ^ 32

/-- Such a request is chosen. -/
def System.signsConfirmKey (s : System K) : Step → Bool
  | .answer c env =>
    match s.pending c with
    | none => false
    | some p =>
      match chosenArm p.isLocked env p.buf with
      | some (.sign, r) => Agent.signsConfirmKey r s.shared
      | _ => false
  | _ => false

end Condition

section Store

variable {K : KeyCrate}

theorem KeyStore.get?_remove_self (keys : KeyStore K) (blob : Bytes) :
    (keys.remove blob).get? blob = none := by
  rw [KeyStore.get?, Option.map_eq_none_iff, List.find?_eq_none]
  intro e he
  have hne := (List.mem_filter.mp he).2
  simpa using hne

theorem KeyStore.get?_remove_of_ne (keys : KeyStore K) {blob blob' : Bytes} (h : blob' ≠ blob) :
    (keys.remove blob).get? blob' = keys.get? blob' := by
  rw [KeyStore.get?, KeyStore.get?, KeyStore.remove, List.find?_filter]
  congr 2
  funext e
  by_cases he : e.1 = blob'
  · simp [he, h]
  · simp [he]

theorem KeyStore.get?_insert_of_ne (keys : KeyStore K) {blob blob' : Bytes} (entry : Entry K)
    (h : blob' ≠ blob) : (keys.insert blob entry).get? blob' = keys.get? blob' := by
  rw [← keys.get?_remove_of_ne h, KeyStore.get?, KeyStore.insert, List.find?_cons_of_neg]
  · rfl
  · simpa using h.symm

/-- Every key in the store has the constraint to confirm as the observer knows it. -/
def Marks (keys : KeyStore K) (needs : Bytes → Bool) : Prop :=
  ∀ blob entry, keys.get? blob = some entry →
    entry.constraints.contains .confirm = needs blob

theorem marks_empty (needs : Bytes → Bool) : Marks (KeyStore.empty : KeyStore K) needs := by
  intro blob entry h
  cases h

theorem Marks.remove {keys : KeyStore K} {needs : Bytes → Bool} (h : Marks keys needs)
    (blob : Bytes) : Marks (keys.remove blob) needs := by
  intro blob' entry hentry
  by_cases hb : blob' = blob
  · rw [hb, KeyStore.get?_remove_self] at hentry
    cases hentry
  · rw [keys.get?_remove_of_ne hb] at hentry
    exact h blob' entry hentry

theorem Marks.insert {keys : KeyStore K} {needs : Bytes → Bool} (h : Marks keys needs)
    (blob : Bytes) (entry : Entry K) :
    Marks (keys.insert blob entry)
      (Function.update needs blob (entry.constraints.contains .confirm)) := by
  intro blob' entry' hentry
  by_cases hb : blob' = blob
  · subst hb
    rw [KeyStore.get?_insert_self] at hentry
    cases hentry
    rw [Function.update_self]
  · rw [keys.get?_insert_of_ne entry hb] at hentry
    rw [Function.update_of_ne hb]
    exact h blob' entry' hentry

/-- `add_key` inserts the key with the constraints it has read, or answers no plain SUCCESS and
leaves the store as it was. -/
theorem addKey_spec (now : Nat) (constrained : Bool) (r : Bytes) (s : Shared K) :
    (∃ blob key rest, readIdentity K r = .ok ((blob, key), rest) ∧
      (addKey now constrained r s).message = [Msg.success] ∧
      (addKey now constrained r s).shared.keys = s.keys.insert blob
        ⟨key, now, if constrained then (parseConstraints rest).1 else []⟩) ∨
    ((addKey now constrained r s).message ≠ [Msg.success] ∧
      (addKey now constrained r s).shared.keys = s.keys) := by
  have hfailure : [Msg.failure] ≠ [Msg.success] := by decide
  have hboth : [Msg.success, Msg.failure] ≠ [Msg.success] := by decide
  unfold addKey
  cases hr : readIdentity K r with
  | error e => exact .inr ⟨hfailure, rfl⟩
  | ok p =>
    obtain ⟨⟨blob, key⟩, rest⟩ := p
    dsimp only
    cases constrained with
    | false => exact .inl ⟨blob, key, rest, rfl, rfl, rfl⟩
    | true =>
      rw [if_pos rfl]
      cases hcs : parseConstraints rest with
      | mk cs ok =>
        rcases ok with _ | _ | _
        · exact .inr ⟨hboth, rfl⟩
        · exact .inr ⟨hboth, rfl⟩
        · refine .inl ⟨blob, key, rest, rfl, rfl, ?_⟩
          rw [if_pos rfl, hcs]
          rfl

end Store

section Arms

variable {K : KeyCrate} {env : Surroundings} {buf r : Bytes} {s : Shared K}
  {response : Response K} {needs : Bytes → Bool}

/-- The marks after a response, if they were right before it. -/
def markedAfter (K : KeyCrate) (needs : Bytes → Bool) (buf message : Bytes) : Bytes → Bool :=
  if message = [Msg.success] then needsAfter K needs buf else needs

theorem marks_addKey (now : Nat) (constrained : Bool) (h : Marks s.keys needs) (b : UInt8)
    (hb : b = Msg.addIdentity ∨ b = Msg.addIdConstrained)
    (hconstrained : constrained = decide (b = Msg.addIdConstrained)) :
    Marks (addKey now constrained r s).shared.keys
      (markedAfter K needs (b :: r) (addKey now constrained r s).message) := by
  unfold markedAfter
  rcases addKey_spec now constrained r s with ⟨blob, key, rest, hread, hmessage, hkeys⟩ |
    ⟨hmessage, hkeys⟩
  · have hmark := h.insert blob ⟨key, now, if constrained then (parseConstraints rest).1 else []⟩
    rw [hkeys, if_pos hmessage, needsAfter, if_pos hb, hread]
    subst hconstrained
    by_cases hc : b = Msg.addIdConstrained
    · simpa [hc] using hmark
    · simpa [hc] using hmark
  · rw [hkeys, if_neg hmessage]
    exact h

/-- A message that is for no arm that adds a key marks nothing. -/
theorem markedAfter_of_notMem (arm : Arm) (h : arm ∉ [Arm.addIdentity, .addIdConstrained])
    (message : Bytes) : markedAfter K needs (arm.byte :: r) message = needs := by
  have hbyte : ¬(arm.byte = Msg.addIdentity ∨ arm.byte = Msg.addIdConstrained) := by
    revert h
    cases arm <;> decide
  rw [markedAfter, needsAfter, if_neg hbyte, ite_self]

theorem marks_removeIdentity (h : Marks s.keys needs) :
    Marks (Agent.removeIdentity r s).shared.keys needs := by
  unfold Agent.removeIdentity
  split
  · exact h
  · split
    · exact h.remove _
    · exact h

/-- The marks stay right through every arm. -/
theorem marks_run {arm : Arm} (h : Marks s.keys needs) (hrun : arm.run env r s = some response) :
    Marks response.shared.keys (markedAfter K needs (arm.byte :: r) response.message) := by
  cases arm with
  | requestIdentities =>
    rw [markedAfter_of_notMem .requestIdentities (by decide)]
    simp only [Arm.run] at hrun
    cases hids : Agent.requestIdentities env.order s with
    | error e =>
      rw [hids] at hrun
      cases hrun
    | ok found =>
      rw [hids] at hrun
      cases hrun
      rw [requestIdentities_shared hids]
      exact h
  | sign =>
    rw [markedAfter_of_notMem .sign (by decide), trySign_shared hrun]
    exact h
  | addIdentity =>
    cases hrun
    exact marks_addKey env.now false h _ (.inl rfl) rfl
  | removeIdentity =>
    rw [markedAfter_of_notMem .removeIdentity (by decide)]
    cases hrun
    exact marks_removeIdentity h
  | removeAll =>
    rw [markedAfter_of_notMem .removeAll (by decide)]
    cases hrun
    exact marks_empty needs
  | lock =>
    rw [markedAfter_of_notMem .lock (by decide)]
    cases hrun
    rcases lock_spec r s with ⟨p, -, heq⟩ | ⟨-, heq⟩
    · rw [heq]
      exact h
    · rw [heq]
      exact h
  | unlock =>
    rw [markedAfter_of_notMem .unlock (by decide)]
    cases hrun
    rcases unlock_spec r s with ⟨-, heq⟩ | ⟨-, heq⟩
    · rw [heq]
      exact h
    · rw [heq]
      exact h
  | addIdConstrained =>
    cases hrun
    exact marks_addKey env.now true h _ (.inr rfl) rfl

/-- `try_sign` answers that the key is unknown, or signs without asking `Agent::confirm`. -/
theorem trySign_spec (h : trySign r s = some response) :
    response = reply [Msg.failure] s ∨
      ∃ blob r' entry data rest signature field, decodeBytes r = .ok (blob, r') ∧
        s.keys.get? blob = some entry ∧ decodeBytes r' = .ok (data, rest) ∧
        K.sign entry.key data = some signature ∧ encodeField signature = .ok field ∧
        response = reply (Msg.signResponse :: field) s := by
  unfold trySign at h
  cases hblob : decodeBytes r with
  | error e =>
    rw [hblob] at h
    cases h
  | ok p =>
    obtain ⟨blob, r'⟩ := p
    rw [hblob] at h
    dsimp only at h
    cases hentry : s.keys.get? blob with
    | none =>
      rw [hentry] at h
      exact .inl (Option.some.inj h).symm
    | some entry =>
      rw [hentry] at h
      dsimp only at h
      rw [readyConfirm, Bool.not_true, Bool.and_false, if_neg Bool.false_ne_true] at h
      cases hdata : decodeBytes r' with
      | error e =>
        rw [hdata] at h
        cases h
      | ok q =>
        obtain ⟨data, rest⟩ := q
        rw [hdata] at h
        dsimp only at h
        cases hsign : K.sign entry.key data with
        | none =>
          rw [hsign] at h
          cases h
        | some signature =>
          rw [hsign] at h
          dsimp only at h
          cases hfield : encodeField signature with
          | error e =>
            rw [hfield] at h
            cases h
          | ok field =>
            rw [hfield] at h
            exact .inr ⟨blob, r', entry, data, rest, signature, field, rfl, hentry, hdata, hsign,
              hfield, (Option.some.inj h).symm⟩

theorem trySign_of {blob r' data rest signature : Bytes} {entry : Entry K}
    (hblob : decodeBytes r = .ok (blob, r')) (hentry : s.keys.get? blob = some entry)
    (hdata : decodeBytes r' = .ok (data, rest)) (hsign : K.sign entry.key data = some signature)
    (hlength : signature.length < 2 ^ 32) :
    trySign r s = some (reply (Msg.signResponse :: encodeBytes signature) s) := by
  have hfield := encodeField_eq_ok.mpr ⟨hlength, rfl⟩
  simp [trySign, hblob, hentry, hdata, hsign, hfield, readyConfirm]

/-- A request to sign is answered with a signature for a key that is to be confirmed exactly
where the condition says so. -/
theorem signsConfirmKey_iff :
    signsConfirmKey r s = true ↔
      ∃ blob r' entry data rest signature, decodeBytes r = .ok (blob, r') ∧
        s.keys.get? blob = some entry ∧ entry.constraints.contains .confirm = true ∧
        decodeBytes r' = .ok (data, rest) ∧ K.sign entry.key data = some signature ∧
        signature.length < 2 ^ 32 := by
  unfold signsConfirmKey
  cases hblob : decodeBytes r with
  | error e => simp
  | ok p =>
    obtain ⟨blob, r'⟩ := p
    dsimp only
    cases hentry : s.keys.get? blob with
    | none => simp [hentry]
    | some entry =>
      dsimp only
      cases hdata : decodeBytes r' with
      | error e => simp [hdata]
      | ok q =>
        obtain ⟨data, rest⟩ := q
        dsimp only
        cases hsign : K.sign entry.key data with
        | none => simp [hentry, hdata, hsign]
        | some signature => simp [hentry, hdata, hsign]

end Arms

section Run

variable {K : KeyCrate}

/-- The observer knows the requests, and the marks of the keys in the store. -/
structure Knows (w : KeyWatched K) : Prop where
  marks : Marks w.system.shared.keys w.observer.needs
  asked : ∀ c, w.observer.asked c = (w.system.pending c).map Pending.buf

theorem knows_init : Knows (KeyWatched.init : KeyWatched K) :=
  ⟨marks_empty _, fun _ => rfl⟩

theorem marks_expire {s : Shared K} {needs : Bytes → Bool} (h : Marks s.keys needs) (blob : Bytes)
    (time : Nat) : Marks (s.expire blob time).keys needs := by
  unfold Shared.expire
  split
  · split
    · exact h.remove blob
    · exact h
  · exact h

/-- The marks stay right through a response. -/
theorem marks_respond {isLocked : Bool} {env : Surroundings} {buf : Bytes} {s : Shared K}
    {response : Response K} {needs : Bytes → Bool} (h : Marks s.keys needs)
    (hr : respond isLocked env buf s = some response) :
    Marks response.shared.keys (markedAfter K needs buf response.message) := by
  unfold respond at hr
  cases hchosen : chosenArm isLocked env buf with
  | none =>
    rw [hchosen] at hr
    cases hr
    exact h
  | some chosen =>
    obtain ⟨arm, r⟩ := chosen
    rw [hchosen] at hr
    rw [(chosenArm_eq_some.mp hchosen).1]
    exact marks_run h hr

/-- Every step keeps the observer's knowledge. -/
theorem Knows.step {w v : KeyWatched K} {l : Step} (h : Knows w) (hstep : w.step l = some v) :
    Knows v := by
  obtain ⟨⟨e, t⟩, hnext, rfl⟩ := Option.map_eq_some_iff.mp hstep
  cases l with
  | receive c buf =>
    simp only [System.next] at hnext
    cases hp : w.system.pending c with
    | some p =>
      rw [hp] at hnext
      cases hnext
    | none =>
      rw [hp] at hnext
      cases hnext
      refine ⟨h.marks, fun d => ?_⟩
      by_cases hd : d = c
      · subst hd
        simp [KeyObserver.see]
      · simp [KeyObserver.see, Function.update_of_ne hd, h.asked d]
  | answer c env =>
    simp only [System.next] at hnext
    cases hp : w.system.pending c with
    | none =>
      rw [hp] at hnext
      cases hnext
    | some p =>
      rw [hp] at hnext
      have hasked : w.observer.asked c = some p.buf := by rw [h.asked c, hp]; rfl
      have hpending (d : ConnectionId) : Function.update w.observer.asked c none d =
          (Function.update w.system.pending c none d).map Pending.buf := by
        by_cases hd : d = c
        · subst hd
          simp
        · simp [Function.update_of_ne hd, h.asked d]
      cases hr : respond p.isLocked env p.buf w.system.shared with
      | none =>
        simp only [hr] at hnext
        cases hnext
        simp only [KeyObserver.see, hasked]
        exact ⟨h.marks, hpending⟩
      | some response =>
        simp only [hr] at hnext
        cases hnext
        simp only [KeyObserver.see, hasked, Option.some.injEq]
        exact ⟨marks_respond h.marks hr, hpending⟩
  | expire n =>
    simp only [System.next] at hnext
    cases hn : w.system.shared.timers[n]? with
    | none =>
      rw [hn] at hnext
      cases hnext
    | some timer =>
      rw [hn] at hnext
      cases hnext
      exact ⟨marks_expire h.marks _ _, h.asked⟩

theorem signedBlob?_of_ne {arm : Arm} {r : Bytes} (h : arm ≠ .sign) :
    signedBlob? (arm.byte :: r) = none := by
  cases arm with
  | sign => exact absurd rfl h
  | _ => rfl

/-- A request to sign, once it has been chosen. -/
theorem Knows.lawful_sign_iff {w : KeyWatched K} {c : ConnectionId} {env : Surroundings}
    {p : Pending} {r : Bytes} (h : Knows w) (hp : w.system.pending c = some p)
    (hchosen : chosenArm p.isLocked env p.buf = some (.sign, r)) :
    w.Lawful (.answer c env) ↔ ¬ signsConfirmKey r w.system.shared = true := by
  have hasked : w.observer.asked c = some p.buf := by rw [h.asked c, hp]; rfl
  have hbuf : p.buf = Msg.signRequest :: r := (chosenArm_eq_some.mp hchosen).1
  have hrespond : respond p.isLocked env p.buf w.system.shared = trySign r w.system.shared := by
    rw [respond, hchosen]
    rfl
  constructor
  · intro hlawful hsigns
    obtain ⟨blob, r', entry, data, rest, signature, hblob, hentry, hconfirm, hdata, hsign,
      hlength⟩ := signsConfirmKey_iff.mp hsigns
    have hr := hrespond.trans (trySign_of hblob hentry hdata hsign hlength)
    have hnamed : signedBlob? p.buf = some blob := by
      rw [hbuf, signedBlob?, if_pos rfl, hblob]
      rfl
    have hneeds : w.observer.needs blob = true := by
      rw [← h.marks blob entry hentry]
      exact hconfirm
    have hnext := hlawful _ _ (by simp only [System.next, hp, hr]; rfl)
    cases hnext p.buf blob hasked hnamed rfl hneeds
  · intro hsigns e t hnext
    simp only [System.next, hp, hrespond] at hnext
    cases hr : trySign r w.system.shared with
    | none =>
      simp only [hr] at hnext
      cases hnext
      trivial
    | some response =>
      simp only [hr] at hnext
      cases hnext
      intro buf blob hbuf' hnamed hhead hneeds
      rw [hasked] at hbuf'
      cases hbuf'
      rcases trySign_spec hr with rfl | ⟨blob', r', entry, data, rest, signature, field, hblob,
        hentry, hdata, hsign, hfield, rfl⟩
      · cases hhead
      · rw [hbuf, signedBlob?, if_pos rfl, hblob] at hnamed
        obtain rfl : blob' = blob := Option.some.inj hnamed
        refine absurd (signsConfirmKey_iff.mpr ⟨blob', r', entry, data, rest, signature, hblob,
          hentry, ?_, hdata, hsign, (encodeField_eq_ok.mp hfield).1⟩) hsigns
        rw [h.marks blob' entry hentry]
        exact hneeds

/-- A step is lawful exactly where no signature of the condition's kind is made. -/
theorem Knows.lawful_iff {w : KeyWatched K} {l : Step} (h : Knows w) :
    w.Lawful l ↔ w.system.signsConfirmKey l = false := by
  cases l with
  | receive c buf =>
    refine ⟨fun _ => rfl, fun _ e t hnext => ?_⟩
    simp only [System.next] at hnext
    split at hnext
    · cases hnext
    · cases hnext
      trivial
  | expire n =>
    refine ⟨fun _ => rfl, fun _ e t hnext => ?_⟩
    simp only [System.next] at hnext
    split at hnext
    · cases hnext
    · cases hnext
      trivial
  | answer c env =>
    cases hp : w.system.pending c with
    | none =>
      refine ⟨fun _ => by simp only [System.signsConfirmKey, hp], fun _ e t hnext => ?_⟩
      simp only [System.next, hp] at hnext
      cases hnext
    | some p =>
      have hasked : w.observer.asked c = some p.buf := by rw [h.asked c, hp]; rfl
      cases hchosen : chosenArm p.isLocked env p.buf with
      | none =>
        refine ⟨fun _ => by simp only [System.signsConfirmKey, hp, hchosen], ?_⟩
        intro _ e t hnext
        simp only [System.next, hp, respond, hchosen] at hnext
        cases hnext
        intro buf blob _ _ hhead
        cases hhead
      | some chosen =>
        obtain ⟨arm, r⟩ := chosen
        have hbuf : p.buf = arm.byte :: r := (chosenArm_eq_some.mp hchosen).1
        by_cases hsign : arm = .sign
        · subst hsign
          have hcond : w.system.signsConfirmKey (.answer c env) =
              signsConfirmKey r w.system.shared := by
            simp only [System.signsConfirmKey, hp, hchosen]
          rw [hcond, ← Bool.not_eq_true]
          exact h.lawful_sign_iff hp hchosen
        · refine ⟨fun _ => ?_, ?_⟩
          · cases arm with
            | sign => exact absurd rfl hsign
            | _ => simp only [System.signsConfirmKey, hp, hchosen]
          · intro _ e t hnext
            simp only [System.next, hp, respond, hchosen] at hnext
            split at hnext
            · cases hnext
              trivial
            · cases hnext
              intro buf blob hbuf' hblob
              rw [hasked, hbuf] at hbuf'
              cases hbuf'
              rw [signedBlob?_of_ne hsign] at hblob
              cases hblob

/-- In a run the signatures for keys with the constraint to confirm have been confirmed by
`Agent::confirm` exactly where there are none. -/
theorem confirm_kept_iff (ls : List Step) :
    Along KeyWatched.step KeyWatched.Lawful (KeyWatched.init : KeyWatched K) ls ↔
      Along KeyWatched.step (fun w l => w.system.signsConfirmKey l = false)
        (KeyWatched.init : KeyWatched K) ls := by
  constructor
  · intro h
    exact Along.of_invariant (I := Knows) (fun _ _ _ hw _ hs => hw.step hs)
      (fun _ _ hw hl => hw.lawful_iff.mp hl) knows_init h
  · intro h
    exact Along.of_invariant (I := Knows) (fun _ _ _ hw _ hs => hw.step hs)
      (fun _ _ hw hl => hw.lawful_iff.mpr hl) knows_init h

/-- A key is added with the constraint to confirm, and then signs. -/
def confirmRun : List Step :=
  Step.request 0 0 (Msg.addIdConstrained :: 9 :: encodeBytes [] ++ [Msg.constrainConfirm]) ++
    Step.request 1 0 (Msg.signRequest :: encodeBytes [9] ++ encodeBytes [1, 2] ++ encodeU32 0)

theorem confirm_kept_fails :
    ¬ Along KeyWatched.step KeyWatched.Lawful (KeyWatched.init : KeyWatched KeyCrate.toy)
      confirmRun := by
  intro h
  have hlast := (((h.2 _ rfl).2 _ rfl).2 _ rfl).1 _ _ rfl _ [9] rfl (by decide +kernel) rfl
    (by decide +kernel)
  cases hlast

end Run

end Edgessh.Russh.Keys.Agent
