import Edgessh.Russh.Server.Attempts

/-!
# What a client is told of a rejection

An answer `Auth::Reject` names the methods that may go on and says whether a partial success has
been made. Both are stored in the request before `reject_auth_request` writes them into the
USERAUTH_FAILURE; the branches of the methods other than `keyboard-interactive` store `false` over
the second one, and a key that is refused together with its signature leaves the request as it is.
-/

namespace Edgessh.Russh
open Edgessh.Command Edgessh.Run

/-- The application, with this answer to the call. It is made at most once for a packet. -/
def ServerEnv.answering (call : ServerCallback) (auth : Auth) (env : ServerEnv) : ServerEnv :=
  { env with auth := fun c s => if c = call then .ok auth else env.auth c s }

namespace Server

/-- The `auth_*` calls among the events. -/
def authCalls (events : List Event) : List ServerCallback :=
  events.filterMap fun
    | .serverCallback call => if call.isAuthRequest then some call else none
    | _ => none

@[simp] theorem authCalls_append (events new : List Event) :
    authCalls (events ++ new) = authCalls events ++ authCalls new := by
  simp [authCalls]

theorem authCalls_eq_nil {new : List Event} (h : ∀ e ∈ new, Attempts.isUncounted e = true) :
    authCalls new = [] := by
  unfold authCalls
  rw [List.filterMap_eq_nil_iff]
  intro e he
  have hun := h e he
  cases e with
  | serverCallback call =>
    have hcall : call.isAuthRequest = false := by
      simpa [Attempts.isUncounted] using hun
    simp [hcall]
  | _ => rfl

/-- The application has been asked between `s` and `t`. -/
def Asked (call : ServerCallback) (s t : ServerSession) : Prop :=
  call ∈ (authCalls t.events).drop (authCalls s.events).length

instance (call : ServerCallback) (s t : ServerSession) : Decidable (Asked call s t) :=
  inferInstanceAs (Decidable (call ∈ (authCalls t.events).drop (authCalls s.events).length))

/-- A USERAUTH_FAILURE with these methods and this flag, and nothing else, has been put behind
`write` between `s` and `t`. -/
def Reported (methods : MethodSet) (partialSuccess : Bool) (s t : ServerSession) : Prop :=
  t.common.encrypted.map (·.write) = s.common.encrypted.map fun enc =>
    enc.write ++ [.userauthFailure methods.names partialSuccess]

/-- A publickey request that comes with a signature. -/
def hasSignature (buf : Bytes) : Bool :=
  let flag : Except EncodingError UInt8 := do
    let (_, r) ← decodeString (buf.drop 1)
    let (_, r) ← decodeString r
    let (_, r) ← decodeString r
    let (isReal, _) ← decodeU8 r
    pure isReal
  match flag with
  | .ok isReal => isReal != 0
  | .error _ => false

/-- When a rejection is passed on as it is: always by `reply_userauth_info_response`; with a flag
that is not set by the other branches; and if nothing new is said where the call is only the
first of the two that a signature needs. -/
def PassesOn (buf : Bytes) (request : AuthRequest) (methods : MethodSet) (partialSuccess : Bool) :
    ServerCallback → Prop
  | .authKeyboardInteractive .. => True
  | .authPublickeyOffered .. =>
    if hasSignature buf then methods = request.methods ∧ partialSuccess = request.partialSuccess
    else partialSuccess = false
  | _ => partialSuccess = false

/-- Work on a packet that began in `s` has come to a state in which `write` holds these packets
and these calls have been made. -/
structure Midway (s : ServerSession) (write : List Message) (calls : List ServerCallback)
    (t : ServerSession) : Prop where
  calls : authCalls t.events = authCalls s.events ++ calls
  write : t.common.encrypted.map (·.write) = some write

section Midway

variable {s t : ServerSession} {write : List Message} {calls : List ServerCallback}

theorem Midway.asked_iff (h : Midway s write calls t) (call : ServerCallback) :
    Asked call s t ↔ call ∈ calls := by
  rw [Asked, h.calls, List.drop_left]

theorem Midway.setUser (h : Midway s write calls t) (authUser : Bytes) (authAttempts : Nat) :
    Midway s write calls { t with common := { t.common with authUser, authAttempts } } :=
  ⟨h.calls, h.write⟩

theorem Midway.record {e : Event} (h : Midway s write calls t)
    (he : Attempts.isUncounted e = true) : Midway s write calls (t.record e) where
  calls := by
    have hnone : authCalls [e] = [] := authCalls_eq_nil (by simpa using he)
    rw [Session.events_record, authCalls_append, hnone, List.append_nil, h.calls]
  write := h.write

theorem Midway.call {call : ServerCallback} (h : Midway s write calls t)
    (hcall : call.isAuthRequest = true) :
    Midway s write (calls ++ [call]) (t.record (.serverCallback call)) where
  calls := by
    rw [Session.events_record, authCalls_append, h.calls, List.append_assoc]
    simp [authCalls, hcall]
  write := h.write

theorem Midway.encrypted (h : Midway s write calls t) :
    ∃ enc, t.common.encrypted = some enc ∧ enc.write = write :=
  Option.map_eq_some_iff.mp h.write

theorem Midway.wrote {enc : Encrypted} {m : Message} (h : Midway s write calls t)
    (hc : t.common.encrypted = some enc) :
    Midway s (write ++ [m]) calls (t.wrote (enc.push m) [m]) where
  calls := by
    have hnone : authCalls [Event.wrote m] = [] := authCalls_eq_nil (by simp [Attempts.isUncounted])
    rw [Session.events_wrote, authCalls_append, List.map_singleton, hnone, List.append_nil, h.calls]
  write := by
    obtain ⟨enc', hc', hwrite⟩ := h.encrypted
    rw [hc] at hc'
    cases hc'
    rw [← hwrite]
    rfl

theorem Midway.setState {enc : Encrypted} {state : EncryptedState} {decompress : Decompress}
    (h : Midway s write calls t) (hc : t.common.encrypted = some enc) :
    Midway s write calls (t.setEncrypted { enc with state, decompress }) where
  calls := h.calls
  write := by
    obtain ⟨enc', hc', hwrite⟩ := h.encrypted
    rw [hc] at hc'
    cases hc'
    rw [← hwrite]
    rfl

end Midway

section Answered

variable {s t : ServerSession} {write : List Message} {calls : List ServerCallback}
variable {env : ServerEnv} {call : ServerCallback} {methods : MethodSet} {partialSuccess : Bool}

/-- What an `auth_*` call does, where the application answers `call` with a rejection. -/
theorem wp_ask_answering {c : ServerCallback} {h : c.isConnection = false}
    {Q : Auth → ServerSession → Prop} {E : Exn → ServerSession → Prop}
    (hm : Midway s write calls t) (hc : c.isAuthRequest = true)
    (hQ : ∀ auth u, Midway s write (calls ++ [c]) u →
      (c = call → auth = .reject (some methods) partialSuccess) → Q auth u)
    (hE : ∀ e u, Midway s write (calls ++ [c]) u → c ≠ call → E e u) :
    wp (AuthM.ask (env.answering call (.reject (some methods) partialSuccess)) c h).run Q E t := by
  have hcalled := hm.call hc
  simp only [AuthM.ask, AuthM.note, Confined.run_bind, Confined.run_move, Confined.run_read,
    Confined.run_lift, Confined.run_pure, wp_bind, wp_modify, wp_get, wp_ofExcept,
    wpExcept_mapError, wp_pure]
  by_cases hcall : c = call
  · have hans : (env.answering call (.reject (some methods) partialSuccess)).auth c
        (t.record (.serverCallback c)) = .ok (.reject (some methods) partialSuccess) :=
      if_pos hcall
    rw [hans, wpExcept_ok]
    exact hQ _ _ (hcalled.record rfl) fun _ => rfl
  · refine wpExcept_iff.mpr ⟨?_, ?_⟩
    · intro auth _
      exact hQ auth _ (hcalled.record rfl) fun heq => absurd heq hcall
    · intro e _
      exact hE _ _ hcalled hcall

/-- `reject_auth_request` writes what is in the request. -/
theorem wp_rejectAuthRequest_writes {request : AuthRequest} {Q : Unit → ServerSession → Prop}
    {E : Exn → ServerSession → Prop} (hm : Midway s write calls t)
    (hQ : ∀ u, Midway s (write ++ [.userauthFailure request.methods.names request.partialSuccess])
        calls u →
      (∃ request', u.common.encrypted.map (·.state) = some (.waitingAuthRequest request')) →
      Q () u) :
    wp (rejectAuthRequest request).run Q E t := by
  obtain ⟨enc, hc, -⟩ := hm.encrypted
  rw [rejectAuthRequest, Confined.wp_run_bind]
  refine wp_write hc (wp_setState (Session.encrypted_wrote ..) ?_)
  exact hQ _ ((hm.wrote hc).setState (Session.encrypted_wrote ..)) ⟨_, rfl⟩

/-- `server_auth_request_success`. -/
theorem wp_acceptAuthRequest_writes {Q : Unit → ServerSession → Prop}
    {E : Exn → ServerSession → Prop} (hm : Midway s write calls t)
    (hQ : ∀ u, Midway s (write ++ [.userauthSuccess]) calls u → Q () u) :
    wp acceptAuthRequest.run Q E t := by
  obtain ⟨enc, hc, -⟩ := hm.encrypted
  rw [acceptAuthRequest, Confined.wp_run_bind]
  refine wp_write hc (wp_setState (Session.encrypted_wrote ..) ?_)
  exact hQ _ ((hm.wrote hc).setState (Session.encrypted_wrote ..))

end Answered

/-- What is known of the end of the work on a packet: if `call` has been made, the client still
waits, and it has been told of the answer exactly if `passes`. -/
structure Told (call : ServerCallback) (methods : MethodSet) (partialSuccess : Bool)
    (passes : Prop) (s t : ServerSession) : Prop where
  waits : Asked call s t →
    ∃ request, t.common.encrypted.map (·.state) = some (.waitingAuthRequest request)
  reported : Asked call s t → (Reported methods partialSuccess s t ↔ passes)

/-- `m`, run in `t`, tells the client; it only fails where `call` has not been made. -/
def Tells (call : ServerCallback) (methods : MethodSet) (partialSuccess : Bool) (passes : Prop)
    (s : ServerSession) (m : EStateM Exn ServerSession Unit) (t : ServerSession) : Prop :=
  wp m (fun _ u => Told call methods partialSuccess passes s u) (fun _ u => ¬ Asked call s u) t

theorem names_injective : Function.Injective MethodSet.names := by
  rintro ⟨methods⟩ ⟨methods'⟩ h
  have hname : Function.Injective MethodKind.name := by
    intro a b
    cases a <;> cases b <;> decide
  exact congrArg MethodSet.mk (List.map_injective_iff.mpr hname h)

section Told

variable {s t : ServerSession} {write : List Message} {calls : List ServerCallback}
variable {env : ServerEnv} {call : ServerCallback} {methods : MethodSet} {partialSuccess : Bool}
variable {passes : Prop} {request : AuthRequest}

theorem Told.of_not_asked (h : ¬ Asked call s t) : Told call methods partialSuccess passes s t where
  waits hasked := absurd hasked h
  reported hasked := absurd hasked h

theorem Told.of_not_mem (hm : Midway s write calls t) (h : call ∉ calls) :
    Told call methods partialSuccess passes s t := by
  apply Told.of_not_asked
  rw [hm.asked_iff]
  exact h

theorem Told.of_failure {told : MethodSet} {flag : Bool}
    (hs : s.common.encrypted.map (·.write) = some write)
    (hm : Midway s (write ++ [.userauthFailure told.names flag]) calls t)
    (hwaits : ∃ request, t.common.encrypted.map (·.state) = some (.waitingAuthRequest request))
    (h : call ∈ calls → (passes ↔ told = methods ∧ flag = partialSuccess)) :
    Told call methods partialSuccess passes s t where
  waits _ := hwaits
  reported hasked := by
    obtain ⟨enc, hc, rfl⟩ := Option.map_eq_some_iff.mp hs
    rw [h ((hm.asked_iff call).mp hasked), Reported, hm.write, hc]
    simp [names_injective.eq_iff]

end Told

section Requests

variable {s t : ServerSession} {write : List Message} {calls : List ServerCallback}
variable {env : ServerEnv} {call : ServerCallback} {methods : MethodSet} {partialSuccess : Bool}
variable {passes : Prop} {request : AuthRequest} {buf user r : Bytes}

/-- A field is read before the application is asked. -/
theorem tells_decode {β : Type} {d : Decoder β} {k : β × Bytes → AuthM Unit}
    (hm : Midway s write [] t)
    (hk : ∀ a r', d r = .ok (a, r') → Tells call methods partialSuccess passes s (k (a, r')).run t) :
    Tells call methods partialSuccess passes s (AuthM.decode d r >>= k).run t := by
  rw [Tells, Confined.wp_run_bind]
  refine wp_decode hk fun _ => ?_
  simp [hm.asked_iff]

/-- The application is asked. -/
theorem tells_ask {c : ServerCallback} {h : c.isConnection = false} {k : Auth → AuthM Unit}
    (hm : Midway s write calls t) (hc : c.isAuthRequest = true) (hbefore : call ∉ calls)
    (hk : ∀ auth u, Midway s write (calls ++ [c]) u →
      (c = call → auth = .reject (some methods) partialSuccess) →
      Tells call methods partialSuccess passes s (k auth).run u) :
    Tells call methods partialSuccess passes s
      (AuthM.ask (env.answering call (.reject (some methods) partialSuccess)) c h >>= k).run t := by
  rw [Tells, Confined.wp_run_bind]
  refine wp_ask_answering hm hc hk ?_
  intro e u hu hother
  rw [hu.asked_iff, List.mem_append, List.mem_singleton]
  rintro (hmem | rfl)
  · exact hbefore hmem
  · exact hother rfl

theorem tells_setAuthUser {k : Unit → AuthM Unit} (hm : Midway s write calls t)
    (hk : ∀ u, Midway s write calls u → Tells call methods partialSuccess passes s (k ()).run u) :
    Tells call methods partialSuccess passes s (AuthM.setAuthUser user >>= k).run t := by
  rw [Tells, Confined.wp_run_bind]
  exact wp_setAuthUser (hk _ (hm.setUser ..))

/-- A rejection without an answer of the application, or in spite of it. -/
theorem tells_reject (hs : s.common.encrypted.map (·.write) = some write)
    (hm : Midway s write calls t)
    (h : call ∈ calls →
      (passes ↔ methods = request.methods ∧ partialSuccess = request.partialSuccess)) :
    Tells call methods partialSuccess passes s (rejectAuthRequest request).run t := by
  apply wp_rejectAuthRequest_writes hm
  intro u hu hwaits
  refine Told.of_failure hs hu hwaits fun hmem => ?_
  rw [h hmem, eq_comm, eq_comm (a := partialSuccess)]

/-- A rejection with what the application has answered. -/
theorem tells_afterRejection {remove : Option MethodKind} {auth : Auth} {c : ServerCallback}
    (hs : s.common.encrypted.map (·.write) = some write)
    (hm : Midway s write (calls ++ [c]) t) (hbefore : call ∉ calls)
    (hans : c = call → auth = .reject (some methods) partialSuccess)
    (hpasses : c = call → (passes ↔ partialSuccess = false)) :
    Tells call methods partialSuccess passes s (do
      AuthM.setAuthUser []
      rejectAuthRequest (request.afterRejection remove auth)).run t := by
  apply tells_setAuthUser hm
  intro u hu
  apply tells_reject hs hu
  intro hmem
  rcases List.mem_append.mp hmem with hmem | hmem
  · exact absurd hmem hbefore
  · have hc : c = call := (List.mem_singleton.mp hmem).symm
    rw [hpasses hc, hans hc]
    simp [AuthRequest.afterRejection]

/-- The application has not answered `call` yet. -/
theorem not_mem_of_answer {auth : Auth} {c : ServerCallback} (hbefore : call ∉ calls)
    (hans : c = call → auth = .reject (some methods) partialSuccess)
    (hauth : ∀ m b, auth ≠ .reject m b) : call ∉ calls ++ [c] := by
  intro hmem
  rcases List.mem_append.mp hmem with hmem | hmem
  · exact hbefore hmem
  · exact hauth _ _ (hans (List.mem_singleton.mp hmem).symm)

/-- The end of a request of the methods `none`, `password` and `publickey`. -/
theorem tells_settle {remove : Option MethodKind} {auth : Auth} {c : ServerCallback}
    (hs : s.common.encrypted.map (·.write) = some write)
    (hm : Midway s write (calls ++ [c]) t) (hbefore : call ∉ calls)
    (hans : c = call → auth = .reject (some methods) partialSuccess)
    (hpasses : c = call → (passes ↔ partialSuccess = false)) :
    Tells call methods partialSuccess passes s (settle remove request auth).run t := by
  cases auth with
  | accept =>
    apply wp_acceptAuthRequest_writes hm
    intro u hu
    exact Told.of_not_mem hu (not_mem_of_answer hbefore hans (by simp))
  | reject _ _ => exact tells_afterRejection hs hm hbefore hans hpasses
  | unsupportedMethod => exact tells_afterRejection hs hm hbefore hans hpasses
  | moreInformation _ _ _ => exact tells_afterRejection hs hm hbefore hans hpasses

/-- The end of a request of the method `keyboard-interactive`. -/
theorem tells_reply {auth : Auth} {c : ServerCallback}
    (hs : s.common.encrypted.map (·.write) = some write) (hm : Midway s write [c] t)
    (hans : c = call → auth = .reject (some methods) partialSuccess)
    (hpasses : c = call → passes) :
    Tells call methods partialSuccess passes s (replyUserauthInfoResponse request auth).run t := by
  cases auth with
  | accept =>
    apply wp_acceptAuthRequest_writes hm
    intro u hu
    exact Told.of_not_mem hu (not_mem_of_answer List.not_mem_nil hans (by simp))
  | reject answered flag =>
    apply tells_reject hs hm
    intro hmem
    have hc : c = call := (List.mem_singleton.mp hmem).symm
    cases hans hc
    simp [hpasses hc]
  | unsupportedMethod =>
    show ¬ Asked call s t
    rw [hm.asked_iff]
    exact not_mem_of_answer List.not_mem_nil hans (by simp)
  | moreInformation name instructions prompts =>
    obtain ⟨enc, hc, -⟩ := hm.encrypted
    rw [replyUserauthInfoResponse, Tells, Confined.wp_run_bind]
    refine wp_write hc (wp_setState (Session.encrypted_wrote ..) ?_)
    apply Told.of_not_mem ((hm.wrote hc).setState (Session.encrypted_wrote ..))
    exact not_mem_of_answer List.not_mem_nil hans (by simp)

theorem tells_readPassword (hs : s.common.encrypted.map (·.write) = some write)
    (hm : Midway s write [] t) :
    Tells call methods partialSuccess (PassesOn buf request methods partialSuccess call) s
      (readPassword (env.answering call (.reject (some methods) partialSuccess)) request user
        r).run t := by
  unfold readPassword
  apply tells_setAuthUser hm
  intro u hu
  apply tells_decode hu
  intro flag r₁ _
  apply tells_decode hu
  intro password r₂ _
  apply tells_ask hu rfl (by simp)
  intro auth v hv hans
  exact tells_settle hs hv (by simp) hans (by rintro rfl; rfl)

theorem tells_readNone (hs : s.common.encrypted.map (·.write) = some write)
    (hm : Midway s write [] t) :
    Tells call methods partialSuccess (PassesOn buf request methods partialSuccess call) s
      (readNone (env.answering call (.reject (some methods) partialSuccess)) request user).run
      t := by
  unfold readNone
  apply tells_ask hm rfl (by simp)
  intro auth v hv hans
  exact tells_settle hs hv (by simp) hans (by rintro rfl; rfl)

theorem tells_readKeyboardInteractive (hs : s.common.encrypted.map (·.write) = some write)
    (hm : Midway s write [] t) :
    Tells call methods partialSuccess (PassesOn buf request methods partialSuccess call) s
      (readKeyboardInteractive (env.answering call (.reject (some methods) partialSuccess))
        request user r).run t := by
  unfold readKeyboardInteractive
  apply tells_setAuthUser hm
  intro u hu
  apply tells_decode hu
  intro language r₁ _
  apply tells_decode hu
  intro submethods r₂ _
  apply tells_ask hu rfl (by simp)
  intro auth v hv hans
  exact tells_reply hs hv hans (by rintro rfl; trivial)

theorem tells_readUserauthInfoResponse (hs : s.common.encrypted.map (·.write) = some write)
    (hm : Midway s write [] t) :
    Tells call methods partialSuccess (PassesOn buf request methods partialSuccess call) s
      (readUserauthInfoResponse (env.answering call (.reject (some methods) partialSuccess))
        request r).run t := by
  unfold readUserauthInfoResponse
  split
  · apply tells_decode hm
    intro n r₁ _
    dsimp only
    rw [Tells, Confined.wp_run_bind, Confined.run_read, wp_get]
    apply tells_ask hm rfl (by simp)
    intro auth v hv hans
    exact tells_reply hs hv hans (by rintro rfl; trivial)
  · exact tells_reject hs hm (by simp)

end Requests

section Publickey

variable {s t : ServerSession} {write : List Message} {calls : List ServerCallback}
variable {env : ServerEnv} {call : ServerCallback} {methods : MethodSet} {partialSuccess : Bool}
variable {request : AuthRequest} {buf user r : Bytes} {key : PublicKeyOrCertificate}
variable {P : Primitives}

theorem tells_readProbe {pubkeyAlgo pubkeyKey : Bytes} (hsig : hasSignature buf = false)
    (hs : s.common.encrypted.map (·.write) = some write) (hm : Midway s write [] t) :
    Tells call methods partialSuccess (PassesOn buf request methods partialSuccess call) s
      (readProbe P (env.answering call (.reject (some methods) partialSuccess)) request user key
        pubkeyAlgo pubkeyKey).run t := by
  unfold readProbe
  apply tells_setAuthUser hm
  intro u hu
  apply tells_ask hu rfl (by simp)
  intro auth v hv hans
  have hpasses : ServerCallback.authPublickeyOffered user (key.pubkey P) = call →
      (PassesOn buf request methods partialSuccess call ↔ partialSuccess = false) := by
    rintro rfl
    simp [PassesOn, hsig]
  cases auth with
  | accept =>
    obtain ⟨enc, hc, -⟩ := hv.encrypted
    dsimp only
    rw [Tells, Confined.wp_run_bind]
    refine wp_write hc (wp_setState (Session.encrypted_wrote ..) ?_)
    apply Told.of_not_mem ((hv.wrote hc).setState (Session.encrypted_wrote ..))
    exact not_mem_of_answer List.not_mem_nil hans (by simp)
  | reject _ _ => exact tells_afterRejection hs hv List.not_mem_nil hans hpasses
  | unsupportedMethod => exact tells_afterRejection hs hv List.not_mem_nil hans hpasses
  | moreInformation _ _ _ => exact tells_afterRejection hs hv List.not_mem_nil hans hpasses

/-- The call that asks about a key before its signature is looked at. -/
theorem wp_isOffered_calls {pubkey : PublicKey} (hm : Midway s write [] t) :
    wp (isOffered (env.answering call (.reject (some methods) partialSuccess)) request user
        pubkey).run
      (fun ok u => ∃ calls, Midway s write calls u ∧ (ok = true → call ∉ calls) ∧
        ∀ c ∈ calls, c = .authPublickeyOffered user pubkey)
      (fun _ u => ¬ Asked call s u) t := by
  unfold isOffered
  rw [Confined.wp_run_bind, Confined.run_read, wp_get]
  split
  · exact ⟨[], hm, fun _ => List.not_mem_nil, by simp⟩
  · split
    · rw [Confined.wp_run_bind]
      refine wp_setAuthUser ?_
      rw [Confined.wp_run_bind]
      refine wp_ask_answering (hm.setUser ..) rfl (fun auth u hu hans => ?_) fun e u hu hother => ?_
      · refine ⟨_, hu, fun haccept => ?_, by simp⟩
        have hauth : auth = .accept := of_decide_eq_true haccept
        apply not_mem_of_answer List.not_mem_nil hans
        simp [hauth]
      · rw [hu.asked_iff]
        simpa using Ne.symm hother
    · exact ⟨[], hm, fun _ => List.not_mem_nil, by simp⟩

theorem tells_readSignature {sessionId sigInit signature : Bytes}
    (hs : s.common.encrypted.map (·.write) = some write) (hm : Midway s write calls t)
    (hbefore : call ∉ calls) :
    Tells call methods partialSuccess (PassesOn buf request methods partialSuccess call) s
      (readSignature P (env.answering call (.reject (some methods) partialSuccess)) request user
        key sessionId sigInit signature).run t := by
  unfold readSignature
  split
  · rw [Tells, Confined.wp_run_bind]
    refine wp_note ?_
    apply tells_ask (hm.record rfl) (by cases key <;> rfl) hbefore
    intro auth u hu hans
    apply tells_settle hs hu hbefore hans
    rintro rfl
    cases key <;> rfl
  · apply tells_reject hs hm
    intro hmem
    exact absurd hmem hbefore

theorem tells_readSigned {enc : Encrypted} (hsig : hasSignature buf = true)
    (hs : s.common.encrypted.map (·.write) = some write) (hm : Midway s write [] t) :
    Tells call methods partialSuccess (PassesOn buf request methods partialSuccess call) s
      (readSigned P (env.answering call (.reject (some methods) partialSuccess)) buf enc request
        user key r).run t := by
  unfold readSigned
  apply tells_decode hm
  intro signature r' _
  dsimp only
  split
  · rw [Tells, Confined.wp_run_bind]
    refine wp_mono (wp_isOffered_calls hm) ?_ fun _ _ h => h
    rintro ok u ⟨calls, hu, hnot, hcalls⟩
    cases ok with
    | true => exact tells_readSignature hs hu (hnot rfl)
    | false =>
      apply tells_reject hs hu
      intro hmem
      rw [hcalls _ hmem]
      simp [PassesOn, hsig]
  · show ¬ Asked call s t
    simp [hm.asked_iff]


theorem tells_readAuthRequestPk {enc : Encrypted}
    (hsig : ∀ isReal r', decodeU8 r = .ok (isReal, r') → hasSignature buf = (isReal != 0))
    (hs : s.common.encrypted.map (·.write) = some write) (hm : Midway s write [] t) :
    Tells call methods partialSuccess (PassesOn buf request methods partialSuccess call) s
      (readAuthRequestPk P (env.answering call (.reject (some methods) partialSuccess)) buf enc
        request user r).run t := by
  unfold readAuthRequestPk
  apply tells_decode hm
  intro isReal r₁ hreal
  have hsig := hsig isReal r₁ hreal
  apply tells_decode hm
  intro pubkeyAlgo r₂ _
  apply tells_decode hm
  intro pubkeyKey r₃ _
  have hnone : call ∈ ([] : List ServerCallback) →
      (PassesOn buf request methods partialSuccess call ↔
        methods = request.methods ∧ partialSuccess = request.partialSuccess) := nofun
  dsimp only
  split
  · exact tells_reject hs hm hnone
  · show ¬ Asked call s t
    simp [hm.asked_iff]
  · rw [Tells, Confined.wp_run_bind, Confined.run_read, wp_get]
    split
    · split
      · rename_i hreal
        exact tells_readSigned (by simpa [hsig] using hreal) hs hm
      · rename_i hreal
        exact tells_readProbe (by simpa [hsig] using hreal) hs hm
    · exact tells_reject hs hm hnone

theorem tells_readAuthRequest {enc : Encrypted} {msg : UInt8}
    (hs : s.common.encrypted.map (·.write) = some write) (hm : Midway s write [] t) :
    Tells call methods partialSuccess
      (PassesOn (msg :: r) request methods partialSuccess call) s
      (readAuthRequest P (env.answering call (.reject (some methods) partialSuccess)) (msg :: r)
        enc request r).run t := by
  unfold readAuthRequest
  apply tells_decode hm
  intro user r₁ huser
  apply tells_decode hm
  intro serviceName r₂ hservice
  apply tells_decode hm
  intro method r₃ hmethod
  dsimp only
  split
  · split
    · exact tells_readPassword hs hm
    · split
      · apply tells_readAuthRequestPk _ hs hm
        intro isReal r' hreal
        simp [hasSignature, huser, hservice, hmethod, hreal, bind, Except.bind, pure, Except.pure]
      · split
        · exact tells_readNone hs hm
        · split
          · exact tells_readKeyboardInteractive hs hm
          · exact tells_reject hs hm nofun
  · show ¬ Asked call s t
    simp [hm.asked_iff]

end Publickey

section Packet

variable {s t : ServerSession} {env : ServerEnv} {call : ServerCallback} {methods : MethodSet}
variable {partialSuccess : Bool} {passes : Prop} {request : AuthRequest} {buf : Bytes}
variable {P : Primitives}

/-- Nothing is asked while the application is told of a success. -/
theorem Told.succeedIfAccepted (h : Told call methods partialSuccess passes s t) :
    Tells call methods partialSuccess passes s (succeedIfAccepted P env) t := by
  unfold Server.succeedIfAccepted
  rw [Tells, wp_bind, wp_get]
  cases hc : t.common.encrypted with
  | none => exact h
  | some enc =>
    dsimp only
    split
    · rename_i hinit
      have hnot : ¬ Asked call s t := by
        intro hasked
        obtain ⟨request, hwaits⟩ := h.waits hasked
        simp [hc, hinit] at hwaits
      rw [wp_bind]
      refine wp_setState hc ?_
      refine wp_mono (wp_app (I := fun u => authCalls u.events = authCalls t.events)
        (fun u v hstep hu => ?_) (fun _ hu => hu) (tellAuthSucceeded P env) rfl)
        (fun _ u hu => Told.of_not_asked ?_) fun _ u hu => ?_
      · obtain ⟨new, hev, hnew⟩ := hstep.events
        rw [hev, authCalls_append, authCalls_eq_nil fun e he => isUncounted_of_isApp (hnew e he),
          List.append_nil, hu]
      · rw [Asked, hu]
        exact hnot
      · rw [Asked, hu]
        exact hnot
    · exact h

theorem Told.countAttempt (h : Told call methods partialSuccess passes s t) :
    Told call methods partialSuccess passes s { t with common := { t.common with
      authUser := t.common.authUser, authAttempts := t.common.authAttempts + 1 } } :=
  ⟨h.waits, h.reported⟩

/-- What a packet of the authentication leads to. -/
theorem tells_processPacket
    (hwait : s.common.encrypted.map (·.state) = some (.waitingAuthRequest request)) :
    Tells call methods partialSuccess (PassesOn buf request methods partialSuccess call) s
      (processPacket P (env.answering call (.reject (some methods) partialSuccess)) buf) s := by
  obtain ⟨enc, hc, hstate⟩ := Option.map_eq_some_iff.mp hwait
  have hs : s.common.encrypted.map (·.write) = some enc.write := by
    rw [hc]
    rfl
  have hm : Midway s enc.write [] s := ⟨(List.append_nil _).symm, hs⟩
  unfold processPacket
  rw [Tells, wp_bind, wp_get]
  simp only [hc]
  cases buf with
  | nil => exact Told.of_not_mem hm List.not_mem_nil
  | cons msg r =>
    simp only [processEncrypted, hstate, processAuth]
    split
    · refine wp_seq (tells_readAuthRequest hs hm) fun _ u hu => ?_
      rw [wp_bind]
      exact hu.countAttempt.succeedIfAccepted
    · split
      · exact wp_seq (tells_readUserauthInfoResponse hs hm) fun _ u hu => hu.succeedIfAccepted
      · exact Told.of_not_mem hm List.not_mem_nil

/-- The session after a command, whichever way it has ended. -/
def ended {α : Type} : EStateM.Result Exn ServerSession α → ServerSession
  | .ok _ t => t
  | .error _ t => t

/-- The client is told of a rejection as the application has answered exactly when the branch
that handles the request passes it on. -/
theorem rejection_reported_iff (P : Primitives) (env : ServerEnv) (call : ServerCallback)
    (methods : MethodSet) (partialSuccess : Bool) (request : AuthRequest) (buf : Bytes)
    (s : ServerSession)
    (hwait : s.common.encrypted.map (·.state) = some (.waitingAuthRequest request))
    (hasked : Asked call s (ended
      (processPacket P (env.answering call (.reject (some methods) partialSuccess)) buf s))) :
    (∃ t, processPacket P (env.answering call (.reject (some methods) partialSuccess)) buf s =
        .ok () t ∧ Reported methods partialSuccess s t) ↔
      PassesOn buf request methods partialSuccess call := by
  have h : Tells call methods partialSuccess (PassesOn buf request methods partialSuccess call) s
      (processPacket P (env.answering call (.reject (some methods) partialSuccess)) buf) s :=
    tells_processPacket hwait
  unfold Tells wp at h
  generalize processPacket P (env.answering call (.reject (some methods) partialSuccess)) buf s =
    result at h hasked
  cases result with
  | ok u t =>
    rw [← h.reported hasked]
    constructor
    · rintro ⟨t', heq, hreported⟩
      cases heq
      exact hreported
    · exact fun hreported => ⟨t, rfl, hreported⟩
  | error e t => exact absurd hasked h

/-- `root` tries the password `x`. -/
def rootPassword : Bytes := rootRequest (ascii "password") (0 :: encodeBytes (ascii "x"))

def onlyPublicKey : MethodSet := ⟨[.publicKey]⟩

/-- A password that is refused, with another method to go on with. -/
theorem rejection_reported_password : ∃ l,
    run (step .toy) (start .toy knowingFive onlyCurve25519 []) (loginRun []) = some l ∧
    ∃ t, processPacket .toy (knowingFive.answering (.authPassword (ascii "root") (ascii "x"))
        (.reject (some onlyPublicKey) false)) rootPassword l.session = .ok () t ∧
      Reported onlyPublicKey false l.session t := by
  have hrun : ((run (step .toy) (start .toy knowingFive onlyCurve25519 []) (loginRun [])).map
      fun l => (l.session.common.encrypted.map fun enc : Encrypted => enc.state,
        decide (Asked (.authPassword (ascii "root") (ascii "x")) l.session (ended
          (processPacket .toy (knowingFive.answering (.authPassword (ascii "root") (ascii "x"))
            (.reject (some onlyPublicKey) false)) rootPassword l.session))))) =
      some (some (.waitingAuthRequest ⟨MethodSet.all, false, none, 0⟩), true) := by
    decide +kernel
  obtain ⟨l, hl, hp⟩ := Option.map_eq_some_iff.mp hrun
  obtain ⟨hwait, hasked⟩ := Prod.mk.inj hp
  exact ⟨l, hl, (rejection_reported_iff .toy knowingFive _ _ _ _ _ _ hwait
    (of_decide_eq_true hasked)).mpr rfl⟩

/-- The password is one of two factors, says the application; the client is not told. -/
theorem not_rejection_reported : ∃ l l',
    run (step .toy) (start .toy knowingFive onlyCurve25519 []) (loginRun []) = some l ∧
    step .toy l (knowingFive.answering (.authPassword (ascii "root") (ascii "x"))
      (.reject (some onlyPublicKey) true), .packet rootPassword) = some l' ∧
    Asked (.authPassword (ascii "root") (ascii "x")) l.session l'.session ∧
    .wrote (.userauthFailure onlyPublicKey.names true) ∉ l'.session.events := by
  have hrun : ((run (step .toy) (start .toy knowingFive onlyCurve25519 []) (loginRun [])).bind
      fun l => (step .toy l (knowingFive.answering
          (.authPassword (ascii "root") (ascii "x")) (.reject (some onlyPublicKey) true),
          .packet rootPassword)).map fun l' =>
        decide (Asked (.authPassword (ascii "root") (ascii "x")) l.session l'.session ∧
          .wrote (.userauthFailure onlyPublicKey.names true) ∉ l'.session.events)) =
      some true := by
    decide +kernel
  obtain ⟨l, hl, hstep⟩ := Option.bind_eq_some_iff.mp hrun
  obtain ⟨l', hl', hp⟩ := Option.map_eq_some_iff.mp hstep
  exact ⟨l, l', hl, hl', of_decide_eq_true hp⟩

end Packet

end Server

end Edgessh.Russh
