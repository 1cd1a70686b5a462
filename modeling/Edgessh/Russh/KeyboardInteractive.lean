import Edgessh.Lib.Counted
import Edgessh.Russh.Server.Rejections
import Edgessh.Russh.Client.HostKey

/-!
# The counts of keyboard-interactive

A USERAUTH_INFO_RESPONSE and a USERAUTH_INFO_REQUEST say how many strings or prompts they hold. Both
sides ask for room for as many before they read the first. The server then goes on over what it
cannot read, and hands the gaps on; the client gives up.
-/

namespace Edgessh.Russh
open Edgessh.Command Edgessh.Counted Edgessh.Run

/-- What becomes of a list that stands behind its count: the capacity of the vector, how many items
are begun, and the result. -/
structure CountedRead (α : Type) where
  capacity : Nat
  begun : Nat
  result : Except EncodingError α

/-- A prompt and whether what is typed is shown. -/
def decodePrompt : Decoder (Bytes × Bool) := fun r => do
  let (prompt, r) ← decodeString r
  let (echo, r) ← decodeU8 r
  pure ((prompt, echo != 0), r)

/-- The loop of `read_userauth_info_response`, which goes through the whole count. -/
def readResponses (r : Bytes) : CountedRead (List (Option Bytes)) :=
  match decodeU32 r with
  | .ok (n, r) => ⟨n, n, .ok (Server.decodeResponses n r)⟩
  | .error e => ⟨0, 0, .error e⟩

/-- The count of a USERAUTH_INFO_REQUEST, behind its three strings. -/
def decodePromptCount : Decoder Nat := fun r => do
  let (_, r) ← decodeString r
  let (_, r) ← decodeString r
  let (_, r) ← decodeString r
  decodeU32 r

/-- The loop over the prompts, which ends at the first that cannot be read. -/
def readChallenge (r : Bytes) : CountedRead (List (Bytes × Bool)) :=
  match decodePromptCount r with
  | .ok (n, r) => ⟨n, (readAll decodePrompt n r).1, (readAll decodePrompt n r).2⟩
  | .error e => ⟨0, 0, .error e⟩

section Items

variable {r rest : Bytes}

theorem length_lt_of_decodeBytes {b : Bytes} (h : decodeBytes r = .ok (b, rest)) :
    rest.length < r.length := by
  obtain ⟨q, hq, -, rfl⟩ := decodeBytes_eq_ok.mp h
  have hlen := (decodeU32_eq_ok hq).2
  rw [List.length_append] at hlen
  omega

theorem consumes_decodeBytes : Consumes decodeBytes := fun _ _ _ h => length_lt_of_decodeBytes h

theorem consumes_decodePrompt : Consumes decodePrompt := by
  intro r p rest h
  obtain ⟨⟨prompt, r₁⟩, hprompt, h⟩ := bind_eq_ok.mp h
  obtain ⟨⟨echo, r₂⟩, hecho, h⟩ := bind_eq_ok.mp h
  cases pure_eq_ok.mp h
  have hfirst := length_lt_of_decodeBytes (decodeString_eq_ok.mp hprompt).1
  cases r₁ with
  | nil => cases hecho
  | cons b r₁ =>
    cases hecho
    rw [List.length_cons] at hfirst
    omega

theorem length_lt_of_decodePromptCount {n : Nat} (h : decodePromptCount r = .ok (n, rest)) :
    rest.length < r.length := by
  obtain ⟨⟨name, r₁⟩, hname, h⟩ := bind_eq_ok.mp h
  obtain ⟨⟨instructions, r₂⟩, hinstructions, h⟩ := bind_eq_ok.mp h
  obtain ⟨⟨lang, r₃⟩, hlang, h⟩ := bind_eq_ok.mp h
  have hfirst := length_lt_of_decodeBytes (decodeString_eq_ok.mp hname).1
  have hsecond := length_lt_of_decodeBytes (decodeString_eq_ok.mp hinstructions).1
  have hthird := length_lt_of_decodeBytes (decodeString_eq_ok.mp hlang).1
  have hlast := (decodeU32_eq_ok h).2
  omega

/-- There is an answer for every number up to the count. -/
theorem length_decodeResponses (n : Nat) (r : Bytes) :
    (Server.decodeResponses n r).length = n := by
  induction n generalizing r with
  | zero => rfl
  | succ n ih =>
    rw [Server.decodeResponses]
    split
    · rw [List.length_cons, ih]
    · rw [List.length_cons, ih]

/-- The responses are the strings of the packet where there are as many as the count says. -/
theorem decodeResponses_eq_iff {n : Nat} :
    Server.decodeResponses n r = (items decodeBytes r).map some ↔
      n = (items decodeBytes r).length := by
  constructor
  · intro h
    have hlength := congrArg List.length h
    rwa [length_decodeResponses, List.length_map] at hlength
  · intro h
    induction n generalizing r with
    | zero =>
      rw [List.eq_nil_of_length_eq_zero h.symm]
      rfl
    | succ n ih =>
      rw [Server.decodeResponses]
      cases hr : decodeBytes r with
      | error e =>
        rw [items_of_error hr] at h
        cases h
      | ok p =>
        rw [items_of_ok consumes_decodeBytes hr] at h ⊢
        rw [List.length_cons, Nat.add_right_cancel_iff] at h
        dsimp only
        rw [ih h, List.map_cons]

end Items

namespace Server

section Responses

variable {env : ServerEnv} {request : AuthRequest} {submethods : Bytes} {r : Bytes}
  {s t : ServerSession} {calls : List ServerCallback}

theorem authCalls_write {m : Message} {hm : m.isAuth = true} (h : authCalls t.events = calls) :
    wp (AuthM.write m hm).run (fun _ u => authCalls u.events = calls)
      (fun _ u => authCalls u.events = calls) t := by
  rw [AuthM.write, Confined.run_move, wp_modify]
  cases t.common.encrypted with
  | none => exact h
  | some enc =>
    have hnone : authCalls [Event.wrote m] = [] := authCalls_eq_nil (by simp [Attempts.isUncounted])
    dsimp only
    rw [Session.events_wrote, authCalls_append, List.map_singleton, hnone, List.append_nil, h]

theorem authCalls_setState {f : Encrypted → EncryptedState × Decompress}
    (h : authCalls t.events = calls) :
    wp (AuthM.setState f).run (fun _ u => authCalls u.events = calls)
      (fun _ u => authCalls u.events = calls) t := by
  rw [AuthM.setState, Confined.run_move, wp_modify]
  cases t.common.encrypted with
  | none => exact h
  | some enc => exact h

/-- The answer of the application is passed on without another call. -/
theorem authCalls_reply {auth : Auth} (h : authCalls t.events = calls) :
    wp (replyUserauthInfoResponse request auth).run (fun _ u => authCalls u.events = calls)
      (fun _ u => authCalls u.events = calls) t := by
  cases auth with
  | accept =>
    rw [replyUserauthInfoResponse, acceptAuthRequest, Confined.wp_run_bind]
    exact wp_mono (authCalls_write h) (fun _ _ hu => authCalls_setState hu) fun _ _ hu => hu
  | reject methods partialSuccess =>
    rw [replyUserauthInfoResponse, rejectAuthRequest, Confined.wp_run_bind]
    exact wp_mono (authCalls_write h) (fun _ _ hu => authCalls_setState hu) fun _ _ hu => hu
  | moreInformation name instructions prompts =>
    rw [replyUserauthInfoResponse, Confined.wp_run_bind]
    exact wp_mono (authCalls_write h) (fun _ _ hu => authCalls_setState hu) fun _ _ hu => hu
  | unsupportedMethod => exact h

theorem authCalls_ask {call : ServerCallback} {h : call.isConnection = false}
    (hcall : call.isAuthRequest = true) :
    wp (AuthM.ask env call h).run (fun _ u => authCalls u.events = authCalls s.events ++ [call])
      (fun _ u => authCalls u.events = authCalls s.events ++ [call]) s := by
  have hcalled : authCalls (s.record (.serverCallback call)).events =
      authCalls s.events ++ [call] := by
    rw [Session.events_record, authCalls_append]
    simp [authCalls, hcall]
  have hnone : ∀ auth : Auth, authCalls [Event.authAnswered call (auth = .accept)] = [] :=
    fun auth => authCalls_eq_nil (by simp [Attempts.isUncounted])
  simp only [AuthM.ask, AuthM.note, Confined.run_bind, Confined.run_move, Confined.run_read,
    Confined.run_lift, Confined.run_pure, wp_bind, wp_modify, wp_get, wp_ofExcept,
    wpExcept_mapError, wp_pure]
  refine wpExcept_iff.mpr ⟨fun auth _ => ?_, fun e _ => hcalled⟩
  rw [Session.events_record, authCalls_append, hnone, List.append_nil, hcalled]

/-- The application has been asked once, with what the loop has made of the packet; and not at all
where the count cannot be read. -/
def AskedWithResponses (submethods r : Bytes) (s t : ServerSession) : Prop :=
  ∀ call, Asked call s t ↔ ∃ responses, (readResponses r).result = .ok responses ∧
    call = .authKeyboardInteractive s.common.authUser submethods (some responses)

theorem readUserauthInfoResponse_calls
    (hcurrent : request.current = some (.keyboardInteractive submethods)) :
    wp (readUserauthInfoResponse env request r).run
      (fun _ t => AskedWithResponses submethods r s t)
      (fun _ t => AskedWithResponses submethods r s t) s := by
  rw [readUserauthInfoResponse, hcurrent]
  dsimp only
  rw [Confined.wp_run_bind, AuthM.decode, Confined.run_lift, wp_ofExcept, wpExcept_mapError]
  cases hr : decodeU32 r with
  | error e =>
    intro call
    rw [Asked, List.drop_length, readResponses, hr]
    simp
  | ok p =>
    obtain ⟨n, rest⟩ := p
    rw [wpExcept_ok, Confined.wp_run_bind, Confined.run_read, wp_get, Confined.wp_run_bind]
    have hasked : ∀ t : ServerSession, authCalls t.events = authCalls s.events ++
        [.authKeyboardInteractive s.common.authUser submethods (some (decodeResponses n rest))] →
        AskedWithResponses submethods r s t := by
      intro t ht call
      rw [Asked, ht, List.drop_left, List.mem_singleton, readResponses, hr]
      simp
    refine wp_mono (authCalls_ask rfl) (fun auth t ht => ?_) fun _ t ht => hasked t ht
    exact wp_mono (authCalls_reply ht) (fun _ u hu => hasked u hu) fun _ u hu => hasked u hu

end Responses

end Server

namespace Client

/-- The challenges that have been handed to the handle: their prompts. -/
def challenges (events : List Event) : List (List (Bytes × Bool)) :=
  events.filterMap fun
    | .reply (.authInfoRequest _ _ prompts) => some prompts
    | _ => none

@[simp] theorem challenges_append (events new : List Event) :
    challenges (events ++ new) = challenges events ++ challenges new := by
  simp [challenges]

/-- The handle has been given these prompts between `s` and `t`. -/
def Prompted (prompts : List (Bytes × Bool)) (s t : ClientSession) : Prop :=
  prompts ∈ (challenges t.events).drop (challenges s.events).length

section Challenge

variable {P : Primitives} {pkt : Option Bytes} {env : ClientEnv} {n : Nat} {r : Bytes}
  {s t : ClientSession} {known : List (List (Bytes × Bool))}

/-- The loop over the prompts does nothing else. -/
theorem wp_readPrompts {Q : List (Bytes × Bool) → ClientSession → Prop}
    {E : Exn → ClientSession → Prop}
    (hok : ∀ prompts, (readAll decodePrompt n r).2 = .ok prompts → Q prompts s)
    (herr : ∀ e, E e s) :
    wp (readPrompts n r : ClientPacketM P pkt (List (Bytes × Bool))).run Q E s := by
  induction n generalizing r Q with
  | zero => exact hok [] rfl
  | succ n ih =>
    rw [readPrompts, Confined.wp_run_bind]
    refine AppM.wp_decode (fun prompt r₁ hprompt => ?_) herr
    rw [Confined.wp_run_bind]
    refine AppM.wp_decode (fun echo r₂ hecho => ?_) herr
    rw [Confined.wp_run_bind]
    apply ih
    intro prompts hprompts
    apply hok
    have hfirst : decodePrompt r = .ok ((prompt, echo != 0), r₂) := by
      simp only [decodePrompt, hprompt, hecho, bind, Except.bind, pure, Except.pure]
    rw [readAll, hfirst]
    dsimp only
    rw [hprompts]
    rfl

theorem challenges_waitFor {α : Type} {want : ClientMsg → Option α}
    (h : challenges t.events = known) :
    wp (waitFor want : ClientPacketM P pkt α).run (fun _ u => challenges u.events = known)
      (fun _ u => challenges u.events = known) t := by
  rw [waitFor, Confined.wp_run_bind, Confined.run_read, wp_get]
  split
  · exact h
  · rw [Confined.wp_run_bind, AppM.setOwn, AppM.frame, Confined.run_move, wp_modify]
    split
    · exact h
    · exact h

theorem challenges_push {m : Message} {hm : m.isQuiet = true} (h : challenges t.events = known) :
    wp (AppM.push m hm : ClientPacketM P pkt Unit).run (fun _ u => challenges u.events = known)
      (fun _ u => challenges u.events = known) t := by
  apply AppM.wp_push
  · intro enc _
    rw [Session.events_wrote, challenges_append, h]
    exact List.append_nil known
  · exact fun _ => h

theorem challenges_sendReply {name instructions : Bytes} {prompts : List (Bytes × Bool)}
    {h : (Event.reply (.authInfoRequest name instructions prompts)).isObservation = true} :
    wp (sendReply env (.authInfoRequest name instructions prompts) h : ClientPacketM P pkt Unit).run
      (fun _ u => challenges u.events = challenges s.events ++ [prompts])
      (fun _ u => challenges u.events = challenges s.events) s := by
  rw [sendReply, Confined.wp_run_bind, Confined.run_read, wp_get]
  split
  · rw [AppM.observe, Confined.run_move, wp_modify, Session.events_record, challenges_append]
    rfl
  · rfl

/-- The handle is given nothing but the prompts that the loop has returned. -/
theorem readInfoRequest_prompts :
    wp (readInfoRequest env r : ClientPacketM P pkt Unit).run
      (fun _ t => ∀ prompts, Prompted prompts s t → (readChallenge r).result = .ok prompts)
      (fun _ t => ∀ prompts, Prompted prompts s t → (readChallenge r).result = .ok prompts) s := by
  have hnone : ∀ t : ClientSession, challenges t.events = challenges s.events →
      ∀ prompts, Prompted prompts s t → (readChallenge r).result = .ok prompts := by
    intro t ht prompts hprompted
    rw [Prompted, ht, List.drop_length] at hprompted
    cases hprompted
  rw [readInfoRequest, Confined.wp_run_bind]
  refine AppM.wp_decode (fun name r₁ hname => ?_) fun _ => hnone s rfl
  rw [Confined.wp_run_bind]
  refine AppM.wp_decode (fun instructions r₂ hinstructions => ?_) fun _ => hnone s rfl
  rw [Confined.wp_run_bind]
  refine AppM.wp_decode (fun lang r₃ hlang => ?_) fun _ => hnone s rfl
  rw [Confined.wp_run_bind]
  refine AppM.wp_decode (fun n r₄ hn => ?_) fun _ => hnone s rfl
  rw [Confined.wp_run_bind]
  refine wp_readPrompts (fun prompts hprompts => ?_) fun _ => hnone s rfl
  have hcount : decodePromptCount r = .ok (n, r₄) := by
    simp only [decodePromptCount, hname, hinstructions, hlang, hn, bind, Except.bind]
  have hone : ∀ t : ClientSession, challenges t.events = challenges s.events ++ [prompts] →
      ∀ prompts, Prompted prompts s t → (readChallenge r).result = .ok prompts := by
    intro t ht prompts' hprompted
    rw [Prompted, ht, List.drop_left, List.mem_singleton] at hprompted
    rw [hprompted, readChallenge, hcount]
    exact hprompts
  rw [Confined.wp_run_bind]
  refine wp_mono challenges_sendReply (fun _ t ht => ?_) fun _ t ht => hnone t ht
  rw [Confined.wp_run_bind]
  refine wp_mono (challenges_waitFor ht) (fun responses u hu => ?_) fun _ u hu => hone u hu
  exact wp_mono (challenges_push hu) (fun _ v hv => hone v hv) fun _ v hv => hone v hv

end Challenge

end Client

namespace Server

variable {env : ServerEnv} {request : AuthRequest} {submethods r : Bytes} {s t : ServerSession}

/-- The application has been given nothing but the strings of the packet, and nothing at all where
there are fewer than the packet says. -/
def HandedOver (r : Bytes) (s t : ServerSession) : Prop :=
  ∀ user submethods responses,
    Asked (.authKeyboardInteractive user submethods (some responses)) s t →
    ∃ n rest, decodeU32 r = .ok (n, rest) ∧ n ≤ (items decodeBytes rest).length ∧
      responses = (items decodeBytes rest).map some

/-- What is expected of the work on a USERAUTH_INFO_RESPONSE. -/
structure ResponsesLaw (env : ServerEnv) (request : AuthRequest) (r : Bytes) (s : ServerSession) :
    Prop where
  begun : (readResponses r).begun ≤ (Msg.userauthInfoResponse :: r).length
  capacity : (readResponses r).capacity ≤ (Msg.userauthInfoResponse :: r).length
  handed : wp (readUserauthInfoResponse env request r).run (fun _ t => HandedOver r s t)
    (fun _ t => HandedOver r s t) s

/-- The count is that of the strings that are there. -/
theorem responsesLaw_iff (hcurrent : request.current = some (.keyboardInteractive submethods)) :
    ResponsesLaw env request r s ↔
      ∀ n rest, decodeU32 r = .ok (n, rest) → n = (items decodeBytes rest).length := by
  have hcalls : wp (readUserauthInfoResponse env request r).run
      (fun _ t => AskedWithResponses submethods r s t)
      (fun _ t => AskedWithResponses submethods r s t) s :=
    readUserauthInfoResponse_calls hcurrent
  constructor
  · intro h n rest hr
    have hboth := wp_and hcalls h.handed
    obtain ⟨t, hasked, hover⟩ := exists_of_wp hboth
    have hresponses : (readResponses r).result = .ok (decodeResponses n rest) := by
      rw [readResponses, hr]
    obtain ⟨n', rest', hr', -, heq⟩ := hover _ _ _ ((hasked _).mpr ⟨_, hresponses, rfl⟩)
    rw [hr] at hr'
    cases hr'
    exact decodeResponses_eq_iff.mp heq
  · intro h
    have hbound : ∀ n rest, decodeU32 r = .ok (n, rest) →
        n ≤ (Msg.userauthInfoResponse :: r).length := by
      intro n rest hr
      have hitems := length_items_le consumes_decodeBytes rest
      have hrest := (decodeU32_eq_ok hr).2
      rw [h n rest hr, List.length_cons]
      omega
    refine ⟨?_, ?_, ?_⟩
    · rw [readResponses]
      split
      · exact hbound _ _ ‹_›
      · exact Nat.zero_le _
    · rw [readResponses]
      split
      · exact hbound _ _ ‹_›
      · exact Nat.zero_le _
    · have hover : ∀ t : ServerSession, AskedWithResponses submethods r s t →
          HandedOver r s t := by
        intro t hasked user submethods' responses hcall
        obtain ⟨responses', hresponses, heq⟩ := (hasked _).mp hcall
        cases heq
        rw [readResponses] at hresponses
        split at hresponses
        · rename_i n rest hr
          cases hresponses
          have hn := h n rest hr
          exact ⟨n, rest, hr, hn.le, decodeResponses_eq_iff.mpr hn⟩
        · cases hresponses
      exact wp_mono hcalls (fun _ t ht => hover t ht) fun _ t ht => hover t ht

end Server

namespace Client

variable {P : Primitives} {pkt : Option Bytes} {env : ClientEnv} {r : Bytes} {s t : ClientSession}

/-- The handle has been given no prompts of a packet with fewer than it says. -/
def PromptedWhole (r : Bytes) (s t : ClientSession) : Prop :=
  ∀ prompts, Prompted prompts s t →
    ∃ n rest, decodePromptCount r = .ok (n, rest) ∧ n ≤ (items decodePrompt rest).length

/-- What is expected of the work on a USERAUTH_INFO_REQUEST. -/
structure ChallengeLaw (P : Primitives) (pkt : Option Bytes) (env : ClientEnv) (r : Bytes)
    (s : ClientSession) : Prop where
  begun : (readChallenge r).begun ≤ (Msg.userauthInfoRequestOrUserauthPkOk :: r).length
  capacity : (readChallenge r).capacity ≤ (Msg.userauthInfoRequestOrUserauthPkOk :: r).length
  prompted : wp (readInfoRequest env r : ClientPacketM P pkt Unit).run
    (fun _ t => PromptedWhole r s t) (fun _ t => PromptedWhole r s t) s

/-- The count is not above the length of the packet. -/
theorem challengeLaw_iff :
    ChallengeLaw P pkt env r s ↔ ∀ n rest, decodePromptCount r = .ok (n, rest) →
      n ≤ (Msg.userauthInfoRequestOrUserauthPkOk :: r).length := by
  constructor
  · intro h n rest hr
    have hcapacity := h.capacity
    rw [readChallenge, hr] at hcapacity
    exact hcapacity
  · intro h
    refine ⟨?_, ?_, ?_⟩
    · rw [readChallenge]
      split
      · rename_i n rest hr
        have hbegun := readAll_begun_le (n := n) (r := rest) consumes_decodePrompt
        have hitems := length_items_le consumes_decodePrompt rest
        have hrest := length_lt_of_decodePromptCount hr
        rw [List.length_cons]
        dsimp only
        omega
      · exact Nat.zero_le _
    · rw [readChallenge]
      split
      · exact h _ _ ‹_›
      · exact Nat.zero_le _
    · have hwhole : ∀ t : ClientSession,
          (∀ prompts, Prompted prompts s t → (readChallenge r).result = .ok prompts) →
          PromptedWhole r s t := by
        intro t ht prompts hprompted
        have hresult := ht prompts hprompted
        rw [readChallenge] at hresult
        split at hresult
        · rename_i n rest hr
          exact ⟨n, rest, hr, ((readAll_eq_ok consumes_decodePrompt).mp hresult).1⟩
        · cases hresult
      exact wp_mono readInfoRequest_prompts (fun _ t ht => hwhole t ht) fun _ t ht => hwhole t ht

end Client

/-- A server does with a USERAUTH_INFO_RESPONSE what is expected exactly if its count is that of the
strings in it, and a client with a USERAUTH_INFO_REQUEST exactly if its count is not above its
length. -/
theorem info_counts_iff (request : AuthRequest) (submethods r : Bytes) (senv : ServerEnv)
    (server : ServerSession) (P : Primitives) (pkt : Option Bytes) (cenv : ClientEnv)
    (client : ClientSession) :
    (request.current = some (.keyboardInteractive submethods) →
      (Server.ResponsesLaw senv request r server ↔
        ∀ n rest, decodeU32 r = .ok (n, rest) → n = (items decodeBytes rest).length)) ∧
    (Client.ChallengeLaw P pkt cenv r client ↔
      ∀ n rest, decodePromptCount r = .ok (n, rest) →
        n ≤ (Msg.userauthInfoRequestOrUserauthPkOk :: r).length) := by
  constructor
  · intro hcurrent
    exact Server.responsesLaw_iff hcurrent
  · exact Client.challengeLaw_iff

section Examples

/-- A request for the method `keyboard-interactive`. -/
def typedRequest : AuthRequest :=
  { methods := .all, partialSuccess := false, current := some (.keyboardInteractive [])
    rejectionCount := 0 }

/-- A USERAUTH_INFO_RESPONSE that says one and holds one. -/
theorem info_counts_one :
    Server.ResponsesLaw Server.knowingFive typedRequest (encodeU32 1 ++ encodeBytes (ascii "five"))
      (Server.newSession Server.onlyCurve25519 []) := by
  have hiff := (info_counts_iff typedRequest [] (encodeU32 1 ++ encodeBytes (ascii "five"))
    Server.knowingFive (Server.newSession Server.onlyCurve25519 []) .toy none Client.trustingSeven
    (Client.newSession Client.onlyCurve25519 [])).1 rfl
  refine hiff.mpr fun n rest hr => ?_
  have hone : decodeU32 (encodeU32 1 ++ encodeBytes (ascii "five")) =
      .ok (1, encodeBytes (ascii "five")) := by decide
  rw [hone] at hr
  cases hr
  decide

/-- A USERAUTH_INFO_RESPONSE that says two and holds nothing: the application is asked, with two
gaps. And a USERAUTH_INFO_REQUEST that says as many as it can. -/
theorem not_info_counts :
    ¬Server.ResponsesLaw Server.knowingFive typedRequest (encodeU32 2)
      (Server.newSession Server.onlyCurve25519 []) ∧
    (∃ l, run (Server.step .toy) (Server.start .toy Server.knowingFive Server.onlyCurve25519 [])
        (Server.loginRun [Server.rootRequest (ascii "keyboard-interactive")
          (encodeBytes [] ++ encodeBytes []), Msg.userauthInfoResponse :: encodeU32 2]) = some l ∧
      .serverCallback (.authKeyboardInteractive (ascii "root") [] (some [none, none])) ∈
        l.session.events) ∧
    ¬Client.ChallengeLaw .toy none Client.trustingSeven
      (encodeBytes [] ++ encodeBytes [] ++ encodeBytes [] ++ encodeU32 (2 ^ 32 - 1))
      (Client.newSession Client.onlyCurve25519 []) := by
  refine ⟨fun h => ?_, ?_, fun h => ?_⟩
  · have hcount := (Server.responsesLaw_iff rfl).mp h 2 [] (by decide)
    exact absurd hcount (by decide)
  · have hcalls : ((run (Server.step .toy)
        (Server.start .toy Server.knowingFive Server.onlyCurve25519 [])
        (Server.loginRun [Server.rootRequest (ascii "keyboard-interactive")
          (encodeBytes [] ++ encodeBytes []), Msg.userauthInfoResponse :: encodeU32 2])).map
        fun l => l.session.events.contains (.serverCallback
          (.authKeyboardInteractive (ascii "root") [] (some [none, none])))) = some true := by
      decide +kernel
    obtain ⟨l, hl, hcall⟩ := Option.map_eq_some_iff.mp hcalls
    exact ⟨l, hl, by simpa using hcall⟩
  · have hcount := Client.challengeLaw_iff.mp h (2 ^ 32 - 1) [] (by decide)
    exact absurd hcount (by decide)

end Examples

end Edgessh.Russh
