import Edgessh.Russh.Server.Binding

/-!
# How often a client may try

`auth_attempts` is counted and `max_auth_attempts` is never compared with it. What is bounded here
is the number of packets for which an `auth_*` call is made: by `max_auth_attempts`, in the runs in
which the client sends no request once so many have been handed to the application.
-/

namespace Edgessh.Russh
open Edgessh.Command Edgessh.Run

/-- An `auth_*` call. -/
def ServerCallback.isAuthRequest : ServerCallback → Bool
  | authNone _ | authPassword _ _ | authPublickeyOffered _ _ | authPublickey _ _ => true
  | authOpensshCertificate _ _ | authKeyboardInteractive _ _ _ => true
  | _ => false

namespace Server

/-- How many requests have been handed to the application, and whether the last packet is one
of them. -/
structure Attempts where
  passed : Nat := 0
  counted : Bool := true
  deriving DecidableEq, Repr

namespace Attempts

/-- A request for which the application is asked twice is one request. -/
def step (a : Attempts) : Event → Attempts
  | .received _ => { a with counted := false }
  | .serverCallback call =>
    if call.isAuthRequest && !a.counted then ⟨a.passed + 1, true⟩ else a
  | _ => a

/-- The requests that have been handed to the application. -/
def count (events : List Event) : Attempts := events.foldl step {}

@[simp] theorem count_concat (events : List Event) (e : Event) :
    count (events ++ [e]) = (count events).step e := by
  simp [count]

/-- An event that is not counted. -/
def isUncounted : Event → Bool
  | .received _ => false
  | .serverCallback call => !call.isAuthRequest
  | _ => true

theorem step_of_isUncounted {a : Attempts} {e : Event} (h : isUncounted e = true) :
    a.step e = a := by
  cases e <;> simp_all [isUncounted, step]

theorem count_append {events new : List Event} (h : ∀ e ∈ new, isUncounted e = true) :
    count (events ++ new) = count events := by
  induction new generalizing events with
  | nil => simp
  | cons e new ih =>
    have hrest : count ((events ++ [e]) ++ new) = count (events ++ [e]) :=
      ih fun x hx => h x (List.mem_cons_of_mem _ hx)
    rw [← List.append_cons, count_concat, step_of_isUncounted (h e List.mem_cons_self)] at hrest
    exact hrest

/-- There is room for the request of the last packet. -/
structure Room (limit : Nat) (a : Attempts) : Prop where
  passed : a.passed ≤ limit
  pending : a.counted = false → a.passed < limit

/-- No event but the next packet takes the room away. -/
theorem Room.step {limit : Nat} {a : Attempts} {e : Event} (h : Room limit a)
    (he : e.isReceived = false) : Room limit (a.step e) := by
  cases e with
  | received buf => cases he
  | serverCallback call =>
    unfold Attempts.step
    dsimp only
    split
    · rename_i hcall
      have hcounted : a.counted = false := by simp_all
      exact ⟨h.pending hcounted, nofun⟩
    · exact h
  | _ => exact h

end Attempts

variable {P : Primitives} {limit : Nat} {s t : ServerSession}

/-- The session has handed at most `limit` requests to the application. -/
def AttemptsBounded (limit : Nat) (s : ServerSession) : Prop :=
  (Attempts.count s.events).passed ≤ limit

/-- A packet that the application would be asked about, in a state in which a request is waited
for. -/
def isAttempt (buf : Bytes) (s : ServerSession) : Bool :=
  (buf.head? = some Msg.userauthRequest || buf.head? = some Msg.userauthInfoResponse) &&
    match s.common.encrypted.map fun enc : Encrypted => enc.state with
    | some (.waitingAuthRequest _) => true
    | _ => false

section Steps

/-- The application may still be asked about the last packet. -/
def AttemptsRoom (limit : Nat) (s : ServerSession) : Prop :=
  (Attempts.count s.events).Room limit

theorem AttemptsBounded.extend {new : List Event} (h : AttemptsBounded limit s)
    (hev : t.events = s.events ++ new) (hnew : ∀ e ∈ new, Attempts.isUncounted e = true) :
    AttemptsBounded limit t := by
  rw [AttemptsBounded, hev, Attempts.count_append hnew]
  exact h

theorem AttemptsRoom.extend {new : List Event} (h : AttemptsRoom limit s)
    (hev : t.events = s.events ++ new) (hnew : ∀ e ∈ new, Attempts.isUncounted e = true) :
    AttemptsRoom limit t := by
  rw [AttemptsRoom, hev, Attempts.count_append hnew]
  exact h

theorem isUncounted_of_isApp {target : Target} {encrypted : Bool} {pkt : Option Bytes} {e : Event}
    (h : e.isApp target encrypted pkt = true) : Attempts.isUncounted e = true := by
  cases e with
  | serverCallback call =>
    cases call <;> simp_all [Event.isApp, Attempts.isUncounted, ServerCallback.isConnection,
      ServerCallback.isAuthRequest]
  | _ => simp_all [Event.isApp, Attempts.isUncounted]

theorem isUncounted_of_isCalm {e : Event} (h : e.isCalm = true) :
    Attempts.isUncounted e = true := by
  cases e <;> simp_all [Event.isCalm, Attempts.isUncounted]

theorem AttemptsBounded.app {pkt : Option Bytes} (hstep : AppStep serverStart P pkt s t)
    (h : AttemptsBounded limit s) : AttemptsBounded limit t := by
  obtain ⟨new, hev, hnew⟩ := hstep.events
  exact h.extend hev (fun e he => isUncounted_of_isApp (hnew e he))

theorem AttemptsRoom.app {pkt : Option Bytes} (hstep : AppStep serverStart P pkt s t)
    (h : AttemptsRoom limit s) : AttemptsRoom limit t := by
  obtain ⟨new, hev, hnew⟩ := hstep.events
  exact h.extend hev (fun e he => isUncounted_of_isApp (hnew e he))

theorem AttemptsBounded.calm (hcalm : Calm s t) (h : AttemptsBounded limit s) :
    AttemptsBounded limit t := by
  obtain ⟨new, hev, hnew⟩ := hcalm.events
  exact h.extend hev (fun e he => isUncounted_of_isCalm (hnew e he))

theorem AttemptsRoom.auth (hstep : AuthStep s t) (h : AttemptsRoom limit s) :
    AttemptsRoom limit t := by
  cases hstep with
  | common authUser authAttempts => exact h
  | @record e he =>
    rw [AttemptsRoom, Session.events_record, Attempts.count_concat]
    refine Attempts.Room.step h ?_
    cases e <;> simp_all [Event.isAuth, Event.isReceived]
  | write hc _ => exact h.extend (Session.events_wrote ..) (by simp [Attempts.isUncounted])
  | state _ _ _ => exact h

end Steps

section Process

variable {env : ServerEnv} {buf : Bytes}

theorem AttemptsBounded.write (m : Message) (hm : m.isAuth = true) (h : AttemptsBounded limit s) :
    wp (AuthM.write m hm).run (fun _ t => AttemptsBounded limit t)
      (fun _ t => AttemptsBounded limit t) s := by
  rw [AuthM.write, Confined.run_move, wp_modify]
  split
  · exact h.extend (Session.events_wrote ..) (by simp [Attempts.isUncounted])
  · exact h

theorem AttemptsBounded.setRequest (request : AuthRequest) (h : AttemptsBounded limit s) :
    wp (AuthM.setRequest request).run (fun _ t => AttemptsBounded limit t)
      (fun _ t => AttemptsBounded limit t) s := by
  rw [AuthM.setRequest, AuthM.setState, Confined.run_move, wp_modify]
  split <;> exact h

theorem AttemptsBounded.acceptService (banner : Option Bytes) (methods : MethodSet)
    (h : AttemptsBounded limit s) :
    wp (acceptService banner methods).run (fun _ t => AttemptsBounded limit t)
      (fun _ t => AttemptsBounded limit t) s := by
  rw [Server.acceptService, Confined.wp_run_bind]
  refine wp_mono (h.write _ _) (fun _ t ht => ?_) fun _ _ ht => ht
  cases banner with
  | none => exact ht.setRequest _
  | some banner =>
    dsimp only
    exact Confined.wp_seq (ht.write _ _) fun _ u hu => hu.setRequest _

/-- For a SERVICE_REQUEST the application is only asked for a banner. -/
theorem AttemptsBounded.readServiceRequest {r : Bytes} (h : AttemptsBounded limit s) :
    wp (readServiceRequest env r).run (fun _ t => AttemptsBounded limit t)
      (fun _ t => AttemptsBounded limit t) s := by
  have hbanner : AttemptsBounded limit (s.record (.serverCallback .authenticationBanner)) :=
    h.extend (Session.events_record _)
      (by simp [Attempts.isUncounted, ServerCallback.isAuthRequest])
  rw [Server.readServiceRequest, Confined.wp_run_bind]
  refine wp_decode (fun request _ _ => ?_) fun _ => h
  dsimp only
  split
  · rw [Confined.wp_run_bind, askBanner, Confined.wp_run_bind]
    refine wp_note ?_
    rw [Confined.wp_run_bind, Confined.run_read, wp_get, Confined.run_lift, wp_ofExcept,
      wpExcept_mapError]
    refine wpExcept_iff.mpr ⟨fun banner _ => ?_, fun _ _ => hbanner⟩
    rw [Confined.wp_run_bind, Confined.run_read, wp_get]
    exact hbanner.acceptService _ _
  · exact h

/-- What holds from the moment at which the packet `buf` has been read. -/
structure AttemptsMid (limit : Nat) (buf : Bytes) (s : ServerSession) : Prop where
  bounded : AttemptsBounded limit s
  room : isAttempt buf s = true → AttemptsRoom limit s

/-- A packet for which the application is not asked. -/
theorem AttemptsBounded.serve {msg : UInt8} {r : Bytes} (h : AttemptsBounded limit s) :
    wp (readAuthenticated (P := P) env msg r).run (fun _ t => AttemptsBounded limit t)
      (fun _ t => AttemptsBounded limit t) s :=
  wp_app (fun _ _ hstep ht => AttemptsBounded.app hstep ht) (fun _ ht => ht) _ h

theorem AttemptsBounded.initCompression (h : AttemptsBounded limit s) :
    AttemptsBounded limit (initCompression s) :=
  h.calm (calm_initCompression s)

theorem AttemptsRoom.initCompression (h : AttemptsRoom limit s) :
    AttemptsRoom limit (initCompression s) := by
  obtain ⟨new, hev, hnew⟩ := (calm_initCompression s).events
  exact h.extend hev (fun e he => isUncounted_of_isCalm (hnew e he))

theorem AttemptsMid.processPacket (h : AttemptsMid limit buf s) :
    wp (processPacket P env buf) (fun _ t => AttemptsBounded limit t) (fun _ t => AttemptsBounded limit t)
      s := by
  by_cases hroom : isAttempt buf s = true
  · refine wp_mono (process_of_steps (fun _ _ hstep ht => AttemptsRoom.auth hstep ht)
      (fun _ _ hstep ht => AttemptsRoom.app hstep ht) (fun _ ht => ht.initCompression)
      (fun _ ht => ht) (h.room hroom)) (fun _ t ht => ht.passed) fun _ t ht => ht.passed
  · unfold Server.processPacket
    rw [wp_bind, wp_get]
    cases hc : s.common.encrypted with
    | none => exact h.bounded
    | some enc =>
      cases buf with
      | nil => exact h.bounded
      | cons msg r =>
        dsimp only [processEncrypted]
        split
        · split
          · exact h.bounded.readServiceRequest
          · exact h.bounded
        · rename_i request hst
          have hmsg : ¬(msg = Msg.userauthRequest ∨ msg = Msg.userauthInfoResponse) := by
            simpa [isAttempt, hc, hst] using hroom
          rw [processAuth, if_neg fun hm => hmsg (.inl hm), if_neg fun hm => hmsg (.inr hm)]
          exact h.bounded
        · rw [wp_bind, wp_modify]
          exact h.bounded.initCompression.serve
        · exact h.bounded.serve

theorem AttemptsMid.calm (hcalm : Calm s t) (henc : t.common.encrypted = s.common.encrypted)
    (h : AttemptsMid limit buf s) : AttemptsMid limit buf t where
  bounded := h.bounded.calm hcalm
  room hroom := by
    obtain ⟨new, hev, hnew⟩ := hcalm.events
    rw [isAttempt, henc] at hroom
    exact (h.room hroom).extend hev (fun e he => isUncounted_of_isCalm (hnew e he))

end Process

section Turn

/-- What holds before a turn. -/
def AttemptsStart (P : Primitives) (limit : Nat) (input : ServerInput) (s : ServerSession) : Prop :=
  AttemptsBounded limit s ∧ ∀ payload buf, input = .packet payload →
    openedPacket P payload s = some buf →
    isAttempt buf s = true → (Attempts.count s.events).passed < limit

theorem AttemptsStart.received {payload buf : Bytes} (ho : Opened P payload buf s t)
    (h : AttemptsStart P limit (.packet payload) s) :
    AttemptsMid limit buf (t.record (.received buf)) := by
  have hcalm : Calm s t := .opened ho
  have hb : AttemptsBounded limit t := h.1.calm hcalm
  refine ⟨?_, fun hroom => ?_⟩
  · rw [AttemptsBounded, Session.events_record, Attempts.count_concat]
    exact hb
  · have hstate : isAttempt buf s = true := by
      cases ho with
      | clear => exact hroom
      | decompressed hc _ => simpa [isAttempt, hc] using hroom
    have hlt := h.2 payload buf rfl ho.openedPacket hstate
    obtain ⟨new, hev, hnew⟩ := hcalm.events
    have hcount : Attempts.count t.events = Attempts.count s.events := by
      rw [hev, Attempts.count_append fun e he => isUncounted_of_isCalm (hnew e he)]
    rw [← hcount] at hlt
    rw [AttemptsRoom, Session.events_record, Attempts.count_concat]
    exact ⟨hb, fun _ => hlt⟩

theorem attemptsCalm (P : Primitives) (limit : Nat) :
    ServerCalm P (AttemptsStart P limit) (AttemptsBounded limit) (AttemptsBounded limit)
      (AttemptsMid limit) where
  start_frame {s t input} hf h := by
    refine ⟨h.1.calm (.of_frame hf), fun payload buf hi ho hattempt => ?_⟩
    rw [openedPacket, hf.encrypted, ← openedPacket] at ho
    rw [isAttempt, hf.encrypted] at hattempt
    have hev : t.events = s.events := by rw [Session.events, hf.packetWriter, Session.events]
    rw [hev]
    exact h.2 payload buf hi ho hattempt
  start_inv h := h.1
  inv_end h := h
  calm := AttemptsBounded.calm
  app := AttemptsBounded.app
  received ho h := h.received ho
  mid_calm hcalm henc h := h.calm hcalm henc
  mid_end h := h.bounded
  mid_skip _ h := h.bounded
  process _ h := h.processPacket

/-- The client sends no request once `limit` of them have been handed to the application. -/
def withinLimit (P : Primitives) (limit : Nat) (l : ServerLoop) : ServerEnv × ServerInput → Bool
  | (_, .packet payload) =>
    (openedPacket P payload l.session).all fun buf =>
      !isAttempt buf l.session ||
        (Attempts.count l.session.events).passed < limit
  | _ => true

/-- While the client keeps to the limit, the application is not asked about more than
`max_auth_attempts` requests. -/
theorem attempts_le_of_withinLimit {env : ServerEnv} {config : ServerConfig} {remoteSshid : Bytes}
    {labels : List (ServerEnv × ServerInput)} {l : ServerLoop}
    (hlimit : Along (step P) (fun l label => withinLimit P config.maxAuthAttempts l label = true)
      (start P env config remoteSshid) labels)
    (hrun : run (step P) (start P env config remoteSshid) labels = some l) :
    (Attempts.count l.session.events).passed ≤ config.maxAuthAttempts := by
  have hnew : AttemptsBounded config.maxAuthAttempts (newSession config remoteSshid) :=
    Nat.zero_le _
  refine ((attemptsCalm P config.maxAuthAttempts).run _ (fun l label hc _ hi => ⟨hi, ?_⟩) hnew
    hlimit hrun).ended
  obtain ⟨env, input⟩ := label
  rintro payload buf rfl ho hattempt
  simpa [withinLimit, ho, hattempt] using hc

/-- A server that allows one attempt. -/
def oneAttempt : ServerConfig := { onlyCurve25519 with maxAuthAttempts := 1 }

/-- The first request is the last one. -/
theorem attempts_le_of_withinLimit_one : ∃ l,
    run (step .toy) (start .toy knowingFive oneAttempt []) (loginRun [rootKey 0 [6]]) = some l ∧
    (Attempts.count l.session.events).passed = 1 ∧
    (Attempts.count l.session.events).passed ≤ oneAttempt.maxAuthAttempts := by
  have hlimit : Along (step .toy)
      (fun l label => withinLimit .toy oneAttempt.maxAuthAttempts l label = true)
      (start .toy knowingFive oneAttempt []) (loginRun [rootKey 0 [6]]) := by
    decide +kernel
  have hpassed : ((run (step .toy) (start .toy knowingFive oneAttempt [])
      (loginRun [rootKey 0 [6]])).map fun l =>
      (Attempts.count l.session.events).passed) = some 1 := by
    decide +kernel
  obtain ⟨l, hl, hp⟩ := Option.map_eq_some_iff.mp hpassed
  exact ⟨l, hl, hp, attempts_le_of_withinLimit hlimit hl⟩

/-- The application is asked about a key again, after it has rejected one. -/
theorem not_attempts_le_two : ∃ l,
    run (step .toy) (start .toy knowingFive oneAttempt [])
      (loginRun [rootKey 0 [6], rootKey 0 [6]]) = some l ∧
    ¬(Attempts.count l.session.events).passed ≤ oneAttempt.maxAuthAttempts := by
  have hpassed : ((run (step .toy) (start .toy knowingFive oneAttempt [])
      (loginRun [rootKey 0 [6], rootKey 0 [6]])).map fun l =>
      (Attempts.count l.session.events).passed) = some 2 := by
    decide +kernel
  obtain ⟨l, hl, hp⟩ := Option.map_eq_some_iff.mp hpassed
  refine ⟨l, hl, ?_⟩
  rw [hp]
  decide

end Turn

end Server

end Edgessh.Russh
