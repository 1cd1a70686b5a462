import Edgessh.Worker.SessionDO

/-!
# Connections that die while `handleConnect` runs

`handleConnect` and the pump it starts run at the same time. The pump frees `this.session` when
the TCP connection ends, and `handleConnect` fills it in when the handshake is through. The
labels of this module are theirs alone.
-/

namespace Edgessh.Worker.SessionDO
open Edgessh.Run

/-- The steps of `handleConnect`, of the handshake it races against the time-out, and of the
pump. -/
def Label.connecting : Label → Bool
  | .refuse | .open | .resolve | .reject | .timeout | .raced | .metaPut | .alarmSet | .data _
  | .pumpEnd => true
  | _ => false

/-- A run of `handleConnect` and the pump, before any other request reaches the object. -/
def connectStep (g : Glue) (id : SessionId) (s : State) (l : Label) : Option State :=
  if l.connecting then step g id s l else none

/-- When the pump has ended and `handleConnect` has returned, nothing is left of the connection;
when `handleConnect` returns an error, it leaves nothing in storage. -/
structure NoZombie (s : State) : Prop where
  ended : s.pump = .ended → s.connect = .ok ∨ s.connect = .error →
    s.session = false ∧ s.tcpSocket = false ∧ (s.handshake = .resolved → s.object.freed = 1)
  error : s.connect = .error → s.storedMeta = false ∧ s.alarm = false

/-- The handshake resolves before the time-out, and the pump has not ended when `handleConnect`
goes on with the session. -/
def Prompt (s : State) : Label → Prop
  | .resolve => s.race = .pending
  | .raced => s.race = .session → s.pump = .reading
  | _ => True

instance (s : State) : DecidablePred (Prompt s) := fun l => by
  cases l <;> unfold Prompt <;> infer_instance

/-- The session that `handleConnect` has got hold of, or is about to, has not been freed. -/
def SshSession.Fresh (x : SshSession) : Prop := x.destroyed = false ∧ x.freed = 0

/-- What a prompt run keeps true. -/
structure Tidy (s : State) : Prop where
  socket : s.tcpSocket = true → s.pump = .reading
  session : s.session = true → s.pump = .reading ∧ s.object.Fresh
  unused : s.object.inFlight = 0
  /-- No session is there yet. -/
  before : s.connect = .notStarted ∨ s.connect = .racing →
    s.session = false ∧ s.object.Fresh ∧ s.storedMeta = false ∧ s.alarm = false
  notStarted : s.connect = .notStarted → s.handshake = .notStarted ∧ s.race = .pending
  /-- A session that was produced is on its way, in place or freed. -/
  resolved : s.handshake = .resolved →
    s.connect = .racing ∧ s.race = .session ∨ s.session = true ∨ s.object.freed = 1
  error : s.connect = .error → s.session = false ∧ s.storedMeta = false ∧ s.alarm = false ∧
    (s.race = .pending → s.handshake = .notStarted)
  later : s.connect = .puttingMeta ∨ s.connect = .settingAlarm ∨ s.connect = .ok →
    s.race ≠ .pending

theorem tidy_init : Tidy State.init where
  socket := by simp [State.init]
  session := by simp [State.init]
  unused := rfl
  before := fun _ => ⟨rfl, ⟨rfl, rfl⟩, rfl, rfl⟩
  notStarted := fun _ => ⟨rfl, rfl⟩
  resolved := by simp [State.init]
  error := by simp [State.init]
  later := by simp [State.init]

theorem Tidy.noZombie {s : State} (hs : Tidy s) : NoZombie s where
  ended := by
    intro hpump hreturned
    have hsession : s.session = false := by
      cases hcase : s.session with
      | false => rfl
      | true =>
        have hreading := (hs.session hcase).1
        rw [hpump] at hreading
        cases hreading
    have hsocket : s.tcpSocket = false := by
      cases hcase : s.tcpSocket with
      | false => rfl
      | true =>
        have hreading := hs.socket hcase
        rw [hpump] at hreading
        cases hreading
    refine ⟨hsession, hsocket, ?_⟩
    intro hresolved
    rcases hs.resolved hresolved with ⟨hracing, -⟩ | htrue | hfreed
    · rw [hracing] at hreturned
      rcases hreturned with h | h <;> cases h
    · rw [hsession] at htrue
      cases htrue
    · exact hfreed
  error := by
    intro herror
    obtain ⟨-, hmeta, halarm, -⟩ := hs.error herror
    exact ⟨hmeta, halarm⟩

/-- The `finally` block of the pump frees the session that is in place. -/
theorem tidy_endPump {g : Glue} {s : State} (hs : Tidy s) : Tidy (s.endPump g) := by
  have hobject : s.session = true → (s.object.free g).1 =
      { s.object with destroyed := true, freed := 1 } := by
    intro hsession
    obtain ⟨-, hdestroyed, hfreed⟩ := hs.session hsession
    unfold SshSession.free
    rw [hs.unused, hdestroyed, g.freeable_zero, hfreed]
    rfl
  cases hsession : s.session with
  | true =>
    have hnotBefore : ¬ (s.connect = .notStarted ∨ s.connect = .racing) := by
      intro hbefore
      have hfalse := (hs.before hbefore).1
      rw [hsession] at hfalse
      cases hfalse
    have heq : (s.endPump g).object = { s.object with destroyed := true, freed := 1 } := by
      simp [State.endPump, State.cleanup, hsession, hobject hsession]
    exact {
      socket := by intro h; cases h
      session := by intro h; cases h
      unused := by rw [heq]; exact hs.unused
      before := fun h => absurd h hnotBefore
      notStarted := hs.notStarted
      resolved := by intro _; right; right; rw [heq]
      error := fun h => ⟨rfl, (hs.error h).2⟩
      later := hs.later }
  | false =>
    have heq : (s.endPump g).object = s.object := by
      simp [State.endPump, State.cleanup, hsession]
    exact {
      socket := by intro h; cases h
      session := by intro h; cases h
      unused := by rw [heq]; exact hs.unused
      before := by
        intro h
        rw [heq]
        exact ⟨rfl, (hs.before h).2⟩
      notStarted := hs.notStarted
      resolved := by
        intro h
        rw [heq]
        rcases hs.resolved h with hracing | htrue | hfreed
        · exact .inl hracing
        · rw [hsession] at htrue
          cases htrue
        · exact .inr (.inr hfreed)
      error := fun h => ⟨rfl, (hs.error h).2⟩
      later := hs.later }

/-- `handleConnect` returns an error before it has opened the connection. -/
theorem tidy_refuse {s : State} (hs : Tidy s) (hconnect : s.connect = .notStarted) :
    Tidy { s with connect := .error } := by
  obtain ⟨hsession, hfresh, hmeta, halarm⟩ := hs.before (.inl hconnect)
  obtain ⟨hhandshake, hrace⟩ := hs.notStarted hconnect
  exact { hs with
    before := by rintro (h | h) <;> cases h
    notStarted := by intro h; cases h
    resolved := by
      intro h
      rw [show s.handshake = .resolved from h] at hhandshake
      cases hhandshake
    error := fun _ => ⟨hsession, hmeta, halarm, fun _ => hhandshake⟩
    later := by rintro (h | h | h) <;> cases h }

theorem tidy_open {s : State} (hs : Tidy s) (hconnect : s.connect = .notStarted) :
    Tidy { s with
      tcpSocket := true, pump := .reading, handshake := .running, connect := .racing } := by
  obtain ⟨hsession, hfresh, hmeta, halarm⟩ := hs.before (.inl hconnect)
  exact { hs with
    socket := fun _ => rfl
    session := fun h => ⟨rfl, (hs.session h).2⟩
    before := fun _ => ⟨hsession, hfresh, hmeta, halarm⟩
    notStarted := by intro h; cases h
    resolved := by intro h; cases h
    error := by intro h; cases h
    later := by rintro (h | h | h) <;> cases h }

/-- While the race is undecided, a handshake that runs finds `handleConnect` at the race. -/
theorem Tidy.racing {s : State} (hs : Tidy s) (hrunning : s.handshake = .running)
    (hrace : s.race = .pending) : s.connect = .racing := by
  cases hconnect : s.connect with
  | notStarted =>
    rw [(hs.notStarted hconnect).1] at hrunning
    cases hrunning
  | racing => rfl
  | puttingMeta => exact absurd hrace (hs.later (.inl hconnect))
  | settingAlarm => exact absurd hrace (hs.later (.inr (.inl hconnect)))
  | ok => exact absurd hrace (hs.later (.inr (.inr hconnect)))
  | error =>
    rw [(hs.error hconnect).2.2.2 hrace] at hrunning
    cases hrunning

/-- The handshake resolves before the time-out. -/
theorem tidy_resolve {s : State} (hs : Tidy s) (hrunning : s.handshake = .running)
    (hrace : s.race = .pending) : Tidy { s with handshake := .resolved, race := .session } :=
  { hs with
    notStarted := by
      intro h
      rw [(hs.notStarted h).1] at hrunning
      cases hrunning
    resolved := fun _ => .inl ⟨hs.racing hrunning hrace, rfl⟩
    error := by
      intro h
      obtain ⟨hsession, hmeta, halarm, -⟩ := hs.error h
      exact ⟨hsession, hmeta, halarm, by intro h; cases h⟩
    later := by
      intro _ h
      cases h }

theorem tidy_reject {s : State} (hs : Tidy s) (hrunning : s.handshake = .running) :
    Tidy { s with
      handshake := .rejected
      race := if s.race = .pending then .failed else s.race } :=
  { hs with
    notStarted := by
      intro h
      rw [(hs.notStarted h).1] at hrunning
      cases hrunning
    resolved := by intro h; cases h
    error := by
      intro h
      obtain ⟨hsession, hmeta, halarm, -⟩ := hs.error h
      refine ⟨hsession, hmeta, halarm, ?_⟩
      intro hpending
      split at hpending
      · cases hpending
      · contradiction
    later := by
      intro h hpending
      dsimp only at hpending
      rw [if_neg (hs.later h)] at hpending
      exact hs.later h hpending }

theorem tidy_timeout {s : State} (hs : Tidy s) (hracing : s.connect = .racing) :
    Tidy { s with race := if s.race = .pending then .failed else s.race } :=
  { hs with
    notStarted := by
      intro h
      rw [show s.connect = .notStarted from h] at hracing
      cases hracing
    resolved := by
      intro h
      rcases hs.resolved h with ⟨-, hrace⟩ | hrest
      · left
        refine ⟨hracing, ?_⟩
        rw [hrace]
        rfl
      · exact .inr hrest
    error := by
      intro h
      rw [show s.connect = .error from h] at hracing
      cases hracing
    later := by
      intro h
      dsimp only at h
      rw [hracing] at h
      rcases h with h | h | h <;> cases h }

/-- `handleConnect` goes on with the session while the pump reads. -/
theorem tidy_raced {s : State} (hs : Tidy s) (hracing : s.connect = .racing)
    (hrace : s.race = .session) (hpump : s.pump = .reading) :
    Tidy { s with
      session := true, sessionMeta := true, storedMeta := true, connect := .puttingMeta } :=
  { hs with
    session := fun _ => ⟨hpump, (hs.before (.inr hracing)).2.1⟩
    before := by rintro (h | h) <;> cases h
    notStarted := by intro h; cases h
    resolved := fun _ => .inr (.inl rfl)
    error := by intro h; cases h
    later := by
      intro _ hpending
      rw [hrace] at hpending
      cases hpending }

/-- `handleConnect` goes on after the handshake has failed or the time-out has won. -/
theorem tidy_failed {s : State} (hs : Tidy s) (hracing : s.connect = .racing)
    (hrace : s.race = .failed) : Tidy { s with tcpSocket := false, connect := .error } := by
  obtain ⟨hsession, hfresh, hmeta, halarm⟩ := hs.before (.inr hracing)
  exact { hs with
    socket := by intro h; cases h
    before := by rintro (h | h) <;> cases h
    notStarted := by intro h; cases h
    resolved := by
      intro h
      rcases hs.resolved h with ⟨-, hsessionRace⟩ | hrest
      · rw [hrace] at hsessionRace
        cases hsessionRace
      · exact .inr hrest
    error := by
      intro _
      refine ⟨hsession, hmeta, halarm, ?_⟩
      intro hpending
      rw [hrace] at hpending
      cases hpending
    later := by rintro (h | h | h) <;> cases h }

/-- `handleConnect` goes on after one of its storage operations. -/
theorem tidy_stored {s : State} {next : Connect} {alarm : Bool} (hs : Tidy s)
    (hconnect : s.connect = .puttingMeta ∨ s.connect = .settingAlarm)
    (hnext : next = .settingAlarm ∨ next = .ok) :
    Tidy { s with alarm := alarm, connect := next } where
  socket := hs.socket
  session := hs.session
  unused := hs.unused
  before := by
    intro h
    rcases hnext with rfl | rfl <;> rcases h with h | h <;> cases h
  notStarted := by
    intro h
    rcases hnext with rfl | rfl <;> cases h
  resolved := by
    intro h
    rcases hs.resolved h with ⟨hracing, -⟩ | hrest
    · rw [hracing] at hconnect
      rcases hconnect with h | h <;> cases h
    · exact .inr hrest
  error := by
    intro h
    rcases hnext with rfl | rfl <;> cases h
  later := fun _ => hs.later (hconnect.imp_right .inl)

theorem tidy_step (g : Glue) (id : SessionId) (s : State) (l : Label) (u : State) (hs : Tidy s)
    (hp : Prompt s l) (h : connectStep g id s l = some u) : Tidy u := by
  simp only [connectStep, Option.ite_none_right_eq_some] at h
  obtain ⟨hl, h⟩ := h
  cases l with
  | refuse =>
    simp only [step, Option.ite_none_right_eq_some, Option.some.injEq] at h
    obtain ⟨hconnect, rfl⟩ := h
    exact tidy_refuse hs hconnect
  | «open» =>
    simp only [step, Option.ite_none_right_eq_some, Option.some.injEq] at h
    obtain ⟨hconnect, rfl⟩ := h
    exact tidy_open hs hconnect
  | resolve =>
    simp only [step, Option.ite_none_right_eq_some, Option.some.injEq] at h
    obtain ⟨hrunning, rfl⟩ := h
    have hrace : s.race = .pending := hp
    rw [if_pos hrace]
    exact tidy_resolve hs hrunning hrace
  | reject =>
    simp only [step, Option.ite_none_right_eq_some, Option.some.injEq] at h
    obtain ⟨hrunning, rfl⟩ := h
    exact tidy_reject hs hrunning
  | timeout =>
    simp only [step, Option.ite_none_right_eq_some, Option.some.injEq] at h
    obtain ⟨hracing, rfl⟩ := h
    exact tidy_timeout hs hracing
  | raced =>
    simp only [step, Option.ite_none_right_eq_some] at h
    obtain ⟨hracing, h⟩ := h
    split at h
    · cases h
    · rename_i hrace
      obtain rfl := Option.some.inj h
      exact tidy_raced hs hracing hrace (hp hrace)
    · rename_i hrace
      obtain rfl := Option.some.inj h
      exact tidy_failed hs hracing hrace
  | metaPut =>
    simp only [step, Option.ite_none_right_eq_some, Option.some.injEq] at h
    obtain ⟨hconnect, rfl⟩ := h
    exact tidy_stored hs (.inl hconnect) (.inl rfl)
  | alarmSet =>
    simp only [step, Option.ite_none_right_eq_some, Option.some.injEq] at h
    obtain ⟨hconnect, rfl⟩ := h
    exact tidy_stored hs (.inr hconnect) (.inr rfl)
  | data chunk =>
    simp only [step, Option.ite_none_left_eq_some, Option.some.injEq] at h
    obtain ⟨-, rfl⟩ := h
    exact { hs with }
  | pumpEnd =>
    simp only [step, Option.ite_none_right_eq_some, Option.some.injEq] at h
    obtain ⟨-, rfl⟩ := h
    exact tidy_endPump hs
  | _ => cases hl

/-- If the handshake does not resolve after the time-out, and the pump has not ended when
`handleConnect` goes on with the session, then no session outlives its connection. -/
theorem noZombie_of_prompt (g : Glue) (id : SessionId) (ls : List Label) (s : State)
    (hp : Along (connectStep g id) Prompt State.init ls)
    (hr : run (connectStep g id) State.init ls = some s) : NoZombie s :=
  (run_invariant (tidy_step g id) ls _ _ tidy_init hp hr).noZombie

/-- The connection ends while `handleConnect` still stores the meta record. -/
def endedLater : List Label := [.open, .resolve, .raced, .pumpEnd, .metaPut, .alarmSet]

theorem noZombie_endedLater :
    ∃ s, run (connectStep ⟨fun n => n = 0, rfl⟩ 7) State.init endedLater = some s ∧
      s.handshake = .resolved ∧ s.object.freed = 1 ∧ NoZombie s := by
  refine ⟨_, rfl, rfl, rfl, noZombie_of_prompt _ 7 endedLater _ ?_ rfl⟩
  decide

/-- The connection ends before `handleConnect` goes on with the session. -/
def endedEarly : List Label := [.open, .resolve, .pumpEnd, .raced, .metaPut, .alarmSet]

/-- The handshake resolves when the time-out has won. -/
def resolvedLate : List Label := [.open, .timeout, .raced, .resolve, .pumpEnd]

/-- The first run leaves in the object a session that is never freed, the second one a session
that nothing refers to. -/
theorem not_noZombie :
    (∃ s, run (connectStep ⟨fun _ => true, rfl⟩ 7) State.init endedEarly = some s ∧
      s.pump = .ended ∧ s.connect = .ok ∧ s.session = true) ∧
    (∃ s, run (connectStep ⟨fun _ => true, rfl⟩ 7) State.init resolvedLate = some s ∧
      s.pump = .ended ∧ s.connect = .error ∧ s.handshake = .resolved ∧ s.object.freed = 0) ∧
    ¬ ∀ (g : Glue) (id : SessionId) (ls : List Label) (s : State),
      run (connectStep g id) State.init ls = some s → NoZombie s := by
  refine ⟨⟨_, rfl, rfl, rfl, rfl⟩, ⟨_, rfl, rfl, rfl, rfl, rfl⟩, ?_⟩
  intro h
  have hended := (h ⟨fun _ => true, rfl⟩ 7 endedEarly _ rfl).ended rfl (.inl rfl)
  exact absurd hended.1 (by decide)

end Edgessh.Worker.SessionDO
