import Edgessh.Worker.DeadConnection

/-!
# Tearing a session down

`terminate` waits four times: for `disconnect`, for the session list and its update, and for the
storage. It is called by a DELETE request and by the alarm, and the pump's `cleanup` frees the
same session when the TCP connection ends.
-/

namespace Edgessh.Worker.SessionDO
open Edgessh.Run

/-- No `terminate` throws, the session is freed and disconnected at most once and not used after
it is freed, and a `terminate` that is done has disconnected and freed the session once and leaves
no session, no record and no storage. -/
structure TornDown (id : SessionId) (s : State) : Prop where
  notThrown : ∀ t, s.terminates t ≠ .threw
  once : s.object.freed ≤ 1 ∧ s.object.disconnects ≤ 1 ∧ s.object.misused = false
  done : ∀ t, s.terminates t = .done →
    s.session = false ∧ s.object.freed = 1 ∧ s.object.disconnects = 1 ∧
      ¬ Listed id s.list ∧ s.storedMeta = false

/-- A `terminate` may begin: the session is recorded, no other `terminate` waits for `disconnect`,
and the pump has not ended before the first one. -/
structure MayTerminate (s : State) : Prop where
  recorded : s.recorded = true
  none : ∀ t, s.terminates t ≠ .disconnecting
  pump : s.pump = .ended → ∃ t, s.terminates t ≠ .notStarted

/-- The session list and the storage answer, no teardown begins before the session is recorded or
after its connection has ended by itself, and none begins or ends while a `terminate` waits for
`disconnect`; no other call of the session keeps `free` from succeeding. -/
def Orderly (g : Glue) (s : State) : Label → Prop
  | .delete _ => MayTerminate s
  | .alarm _ => s.terminal.clients = [] → MayTerminate s
  | .pumpEnd => (∀ t, s.terminates t ≠ .disconnecting) ∧
      (s.session = true → g.freeable s.object.inFlight = true)
  | .disconnected _ => g.freeable s.object.disconnected.inFlight = true
  | .metaGot _ ok | .listGot _ ok | .listPut _ ok | .deleted _ ok => ok = true
  | _ => True

/-- What a `terminate` has achieved where it is. -/
def Phase (id : SessionId) (s : State) : Terminate → Prop
  | .notStarted => True
  | .disconnecting => s.recorded = true
  | .gettingMeta => False
  | .gettingList => s.recorded = true ∧ s.session = false
  | .puttingList updated => s.recorded = true ∧ s.session = false ∧ id ∉ updated
  | .deletingAll => s.recorded = true ∧ s.session = false ∧ ¬ Listed id s.list
  | .done => s.recorded = true ∧ s.session = false ∧ ¬ Listed id s.list ∧ s.storedMeta = false
  | .threw => False

/-- What an orderly run keeps true. -/
structure Tearing (id : SessionId) (s : State) : Prop where
  before : s.connect = .notStarted ∨ s.connect = .racing →
    s.session = false ∧ s.object.Fresh ∧ s.object.disconnects = 0 ∧ s.object.disconnecting = 0
  session : s.session = true → s.object.Fresh
  after : s.connect = .puttingMeta ∨ s.connect = .settingAlarm ∨ s.connect = .ok →
    s.sessionMeta = true ∧ (s.session = true ∨ s.object.freed = 1)
  once : s.object.freed ≤ 1 ∧ s.object.disconnects ≤ 1 ∧ s.object.misused = false
  freed : s.object.freed = 1 → s.object.disconnects = 1 ∨ s.pump = .ended
  begun : ∀ t, s.terminates t ≠ .notStarted → s.object.disconnects = 1
  recorded : s.recorded = true → s.connect = .ok
  waiting : ∀ t, s.terminates t = .disconnecting → s.session = true ∧ s.object.disconnects = 1 ∧
    s.object.disconnecting = 1 ∧ ∀ t', s.terminates t' = .disconnecting → t' = t
  untouched : s.session = true → (∀ t, s.terminates t ≠ .disconnecting) →
    s.object.disconnects = 0 ∧ s.object.disconnecting = 0
  phase : ∀ t, Phase id s (s.terminates t)

variable {g : Glue} {id : SessionId} {s u : State}

theorem tearing_init (id : SessionId) : Tearing id State.init where
  before := fun _ => ⟨rfl, ⟨rfl, rfl⟩, rfl, rfl⟩
  session := by intro h; cases h
  after := by rintro (h | h | h) <;> cases h
  once := ⟨Nat.zero_le _, Nat.zero_le _, rfl⟩
  freed := by intro h; cases h
  begun := fun _ h => absurd rfl h
  recorded := by intro h; cases h
  waiting := by intro t h; cases h
  untouched := by intro h; cases h
  phase := fun _ => trivial

theorem Tearing.tornDown (hs : Tearing id s) : TornDown id s where
  notThrown := by
    intro t ht
    have hphase := hs.phase t
    rw [ht] at hphase
    exact hphase
  once := hs.once
  done := by
    intro t ht
    have hphase := hs.phase t
    rw [ht] at hphase
    obtain ⟨hrecorded, hsession, hlist, hmeta⟩ := hphase
    have hbegun := hs.begun t (by rw [ht]; decide)
    have hok := hs.recorded hrecorded
    rcases (hs.after (.inr (.inr hok))).2 with h | hfreed
    · rw [hsession] at h
      cases h
    · exact ⟨hsession, hfreed, hbegun, hlist, hmeta⟩

/-- A phase depends on the record, the session, the list and the stored meta record only. -/
theorem Phase.of_same {p : Terminate} (h : Phase id s p)
    (hrecorded : s.recorded = true → u.recorded = true)
    (hsession : s.recorded = true → s.session = false → u.session = false)
    (hlist : Listed id u.list → Listed id s.list)
    (hmeta : s.storedMeta = false → u.storedMeta = false) : Phase id u p := by
  cases p with
  | notStarted => trivial
  | disconnecting => exact hrecorded h
  | gettingMeta => exact h
  | gettingList => exact ⟨hrecorded h.1, hsession h.1 h.2⟩
  | puttingList updated => exact ⟨hrecorded h.1, hsession h.1 h.2.1, h.2.2⟩
  | deletingAll => exact ⟨hrecorded h.1, hsession h.1 h.2.1, fun hu => h.2.2 (hlist hu)⟩
  | done =>
    exact ⟨hrecorded h.1, hsession h.1 h.2.1, fun hu => h.2.2.1 (hlist hu), hmeta h.2.2.2⟩
  | threw => exact h

/-- A terminate goes on from one await to another, neither of them that of `disconnect`. -/
theorem Tearing.move (hs : Tearing id s) {t : TerminateId} {p : Terminate}
    (ht : s.terminates t ≠ .disconnecting) (hp : p ≠ .disconnecting)
    (hdisconnects : s.object.disconnects = 1) (hphase : Phase id s p) :
    Tearing id (s.setTerminate t p) := by
  have hsame : ∀ t', (s.setTerminate t p).terminates t' = .disconnecting ↔
      s.terminates t' = .disconnecting := by
    intro t'
    by_cases heq : t' = t
    · subst heq
      rw [State.setTerminate_self]
      exact ⟨fun h => absurd h hp, fun h => absurd h ht⟩
    · rw [State.setTerminate_of_ne heq]
  exact { hs with
    begun := fun _ _ => hdisconnects
    waiting := by
      intro t' ht'
      obtain ⟨hsession, hcount, hcalls, hunique⟩ := hs.waiting t' ((hsame t').mp ht')
      exact ⟨hsession, hcount, hcalls, fun t'' ht'' => hunique t'' ((hsame t'').mp ht'')⟩
    untouched := fun hsession hnone =>
      hs.untouched hsession fun t' ht' => hnone t' ((hsame t').mpr ht')
    phase := by
      intro t'
      by_cases heq : t' = t
      · subst heq
        rw [State.setTerminate_self]
        exact hphase
      · rw [State.setTerminate_of_ne heq]
        exact hs.phase t' }

/-- `free` of a session that is in place, when no call keeps it from succeeding. -/
theorem free_of_fresh {x : SshSession} (hx : x.Fresh) (hfree : g.freeable x.inFlight = true) :
    x.free g = ({ x with destroyed := true, freed := 1 }, true) := by
  unfold SshSession.free
  rw [hx.1, hx.2, hfree]
  rfl

/-- The first call of `disconnect`. -/
theorem disconnect_of_fresh {x : SshSession} (hx : x.Fresh) (hdisconnects : x.disconnects = 0)
    (hcalls : x.disconnecting = 0) :
    x.disconnect = { x with disconnects := 1, disconnecting := 1 } := by
  simp [SshSession.disconnect, hx.1, hdisconnects, hcalls]

theorem isConnected_of_fresh {x : SshSession} (hx : x.Fresh) : x.isConnected = x := by
  have hmisused : (x.misused || x.destroyed) = x.misused := by
    rw [hx.1, Bool.or_false]
  unfold SshSession.isConnected
  rw [hmisused]

theorem not_before_of_ok (h : s.connect = .ok) :
    ¬ (s.connect = .notStarted ∨ s.connect = .racing) := by
  rw [h]
  rintro (h | h) <;> cases h

/-- `terminate` up to its first await, on a session that is recorded. -/
theorem tearing_terminate (hs : Tearing id s) {t : TerminateId}
    (ht : s.terminates t = .notStarted) (hmay : MayTerminate s) :
    Tearing id (s.terminate g t) := by
  obtain ⟨hrecorded, hnone, hpump⟩ := hmay
  have hok := hs.recorded hrecorded
  have hmeta := (hs.after (.inr (.inr hok))).1
  unfold State.terminate
  by_cases hsession : s.session = true
  · have hfresh := hs.session hsession
    obtain ⟨hdisconnects, hcalls⟩ := hs.untouched hsession hnone
    rw [if_pos hsession, if_neg (by simp [hfresh.1]),
      disconnect_of_fresh hfresh hdisconnects hcalls]
    exact {
      before := fun h => absurd h (not_before_of_ok hok)
      session := fun _ => hfresh
      after := fun _ => ⟨hmeta, .inl hsession⟩
      once := ⟨hs.once.1, Nat.le_refl _, hs.once.2.2⟩
      freed := fun _ => .inl rfl
      begun := fun _ _ => rfl
      recorded := hs.recorded
      waiting := by
        have hunique : ∀ t', ({ s with object := { s.object with
            disconnects := 1, disconnecting := 1 } }.setTerminate t .disconnecting).terminates t' =
            .disconnecting → t' = t := by
          intro t' ht'
          rcases State.setTerminate_eq ht' with ⟨heq, -⟩ | ⟨-, h⟩
          · exact heq
          · exact absurd h (hnone t')
        intro t' ht'
        obtain rfl := hunique t' ht'
        exact ⟨hsession, rfl, rfl, hunique⟩
      untouched := fun _ h => absurd (State.setTerminate_self t _ _) (h t)
      phase := by
        intro t'
        by_cases heq : t' = t
        · subst heq
          rw [State.setTerminate_self]
          exact hrecorded
        · rw [State.setTerminate_of_ne heq]
          exact (hs.phase t').of_same (fun h => h) (fun _ h => h) (fun h => h) fun h => h }
  · have hnull : s.session = false := by simpa using hsession
    have hdisconnects : s.object.disconnects = 1 := by
      rcases (hs.after (.inr (.inr hok))).2 with h | hfreed
      · exact absurd h hsession
      · rcases hs.freed hfreed with h | hended
        · exact h
        · obtain ⟨t', ht'⟩ := hpump hended
          exact hs.begun t' ht'
    rw [if_neg hsession, State.closeDown_of_meta hmeta]
    have hclosed : Tearing id
        { s with tcpSocket := false, terminal := s.terminal.clearClients } := { hs with }
    exact hclosed.move (t := t) (p := .gettingList) (by rw [ht]; decide) (by decide) hdisconnects
      ⟨hrecorded, hnull⟩

/-- `terminate` after `disconnect`: the session is still there and is freed. -/
theorem tearing_disconnected (hs : Tearing id s) {t : TerminateId}
    (ht : s.terminates t = .disconnecting)
    (hfree : g.freeable s.object.disconnected.inFlight = true) :
    Tearing id ({ s with object := s.object.disconnected }.freeSession g t) := by
  obtain ⟨hsession, hdisconnects, hcalls, hunique⟩ := hs.waiting t ht
  have hrecorded : s.recorded = true := by
    have hphase := hs.phase t
    rw [ht] at hphase
    exact hphase
  have hok := hs.recorded hrecorded
  have hmeta := (hs.after (.inr (.inr hok))).1
  have hfresh : s.object.disconnected.Fresh := hs.session hsession
  have hnone : ∀ (v : State) (t' : TerminateId), v.terminates = s.terminates →
      (v.setTerminate t .gettingList).terminates t' ≠ .disconnecting := by
    intro v t' hv h
    rcases State.setTerminate_eq h with ⟨-, h⟩ | ⟨hne, h⟩
    · cases h
    · rw [hv] at h
      exact hne (hunique t' h)
  unfold State.freeSession
  rw [if_pos hsession]
  simp only [free_of_fresh hfresh hfree]
  rw [State.closeDown_of_meta (s := { s with
    object := { s.object.disconnected with destroyed := true, freed := 1 }, session := false })
    hmeta]
  exact {
    before := fun h => absurd h (not_before_of_ok hok)
    session := by intro h; cases h
    after := fun _ => ⟨hmeta, .inr rfl⟩
    once := ⟨Nat.le_refl _, hs.once.2.1, hs.once.2.2⟩
    freed := fun _ => .inl hdisconnects
    begun := fun _ _ => hdisconnects
    recorded := hs.recorded
    waiting := fun t' h => absurd h (hnone _ t' rfl)
    untouched := by intro h; cases h
    phase := by
      intro t'
      by_cases heq : t' = t
      · subst heq
        rw [State.setTerminate_self]
        exact ⟨hrecorded, rfl⟩
      · rw [State.setTerminate_of_ne heq]
        exact (hs.phase t').of_same (fun h => h) (fun _ _ => rfl) (fun h => h) fun h => h }

/-- The pump ends while no terminate waits for `disconnect`. -/
theorem tearing_endPump (hs : Tearing id s) (hnone : ∀ t, s.terminates t ≠ .disconnecting)
    (hfree : s.session = true → g.freeable s.object.inFlight = true) :
    Tearing id (s.endPump g) := by
  have hphase : ∀ t, Phase id (s.endPump g) (s.terminates t) := fun t =>
    (hs.phase t).of_same (fun h => h) (fun _ _ => rfl) (fun h => h) fun h => h
  cases hsession : s.session with
  | true =>
    have hfresh := hs.session hsession
    have hobject : (s.endPump g).object = { s.object with destroyed := true, freed := 1 } := by
      simp [State.endPump, State.cleanup, hsession, free_of_fresh hfresh (hfree hsession)]
    exact {
      before := by
        intro h
        have hfalse := (hs.before h).1
        rw [hsession] at hfalse
        cases hfalse
      session := by intro h; cases h
      after := fun h => ⟨(hs.after h).1, .inr (by rw [hobject])⟩
      once := by
        rw [hobject]
        exact ⟨Nat.le_refl _, hs.once.2.1, hs.once.2.2⟩
      freed := fun _ => .inr rfl
      begun := by
        rw [hobject]
        exact hs.begun
      recorded := hs.recorded
      waiting := fun t h => absurd h (hnone t)
      untouched := by intro h; cases h
      phase := hphase }
  | false =>
    have hobject : (s.endPump g).object = s.object := by
      simp [State.endPump, State.cleanup, hsession]
    exact {
      before := by
        intro h
        rw [hobject]
        exact ⟨rfl, (hs.before h).2⟩
      session := by intro h; cases h
      after := by
        intro h
        rw [hobject]
        obtain ⟨hmeta, htrue | hfreed⟩ := hs.after h
        · rw [hsession] at htrue
          cases htrue
        · exact ⟨hmeta, .inr hfreed⟩
      once := by rw [hobject]; exact hs.once
      freed := fun _ => .inr rfl
      begun := by
        rw [hobject]
        exact hs.begun
      recorded := hs.recorded
      waiting := fun t h => absurd h (hnone t)
      untouched := by intro h; cases h
      phase := hphase }

/-- A change of fields that the phases do not depend on. -/
theorem phase_same (hs : Tearing id s) (hrecorded : u.recorded = s.recorded)
    (hsession : u.session = s.session) (hlist : u.list = s.list)
    (hmeta : u.storedMeta = s.storedMeta) (hterminates : u.terminates = s.terminates) :
    ∀ t, Phase id u (u.terminates t) := by
  intro t
  rw [hterminates]
  apply (hs.phase t).of_same
  · rw [hrecorded]
    exact fun h => h
  · rw [hsession]
    exact fun _ h => h
  · rw [hlist]
    exact fun h => h
  · rw [hmeta]
    exact fun h => h

theorem tearing_message (hs : Tearing id s) (hsession : s.session = true) :
    Tearing id { s with object := s.object.call } := by
  have hcall : s.object.call = { s.object with messages := s.object.messages + 1 } := by
    simp [SshSession.call, (hs.session hsession).1]
  rw [hcall]
  exact { hs with phase := phase_same hs rfl rfl rfl rfl rfl }

/-- The session has not been recorded as long as `handleConnect` runs. -/
theorem Tearing.not_recorded (hs : Tearing id s) (h : s.connect ≠ .ok) : ¬ s.recorded = true :=
  fun hrecorded => h (hs.recorded hrecorded)

/-- `handleConnect` begins. -/
theorem tearing_open (hs : Tearing id s) (hconnect : s.connect = .notStarted) :
    Tearing id { s with
      tcpSocket := true, pump := .reading, handshake := .running, connect := .racing } :=
  { hs with
    before := fun _ => hs.before (.inl hconnect)
    after := by rintro (h | h | h) <;> cases h
    freed := by
      intro hfreed
      have hfresh := (hs.before (.inl hconnect)).2.1
      rw [show s.object.freed = 0 from hfresh.2] at hfreed
      cases hfreed
    recorded := fun h => absurd h (hs.not_recorded (by rw [hconnect]; decide))
    phase := phase_same hs rfl rfl rfl rfl rfl }

/-- `handleConnect` puts the session in place: no terminate has begun yet. -/
theorem tearing_raced (hs : Tearing id s) (hracing : s.connect = .racing) :
    Tearing id { s with
      session := true, sessionMeta := true, storedMeta := true, connect := .puttingMeta } := by
  obtain ⟨hsession, hfresh, hdisconnects, hcalls⟩ := hs.before (.inr hracing)
  have hnot : ¬ s.recorded = true := hs.not_recorded (by rw [hracing]; decide)
  exact { hs with
    before := by rintro (h | h) <;> cases h
    session := fun _ => hfresh
    after := fun _ => ⟨rfl, .inl rfl⟩
    recorded := fun h => absurd h hnot
    waiting := by
      intro t ht
      obtain ⟨htrue, -⟩ := hs.waiting t ht
      rw [hsession] at htrue
      cases htrue
    untouched := fun _ _ => ⟨hdisconnects, hcalls⟩
    phase := by
      intro t
      have hstart : s.terminates t = .notStarted := by
        by_contra hne
        have hone := hs.begun t hne
        rw [hdisconnects] at hone
        cases hone
      show Phase id _ (s.terminates t)
      rw [hstart]
      trivial }

/-- `handleConnect` returns an error. -/
theorem tearing_failed (hs : Tearing id s) (hracing : s.connect = .racing) :
    Tearing id { s with tcpSocket := false, connect := .error } :=
  { hs with
    before := by rintro (h | h) <;> cases h
    after := by rintro (h | h | h) <;> cases h
    recorded := fun h => absurd h (hs.not_recorded (by rw [hracing]; decide))
    phase := phase_same hs rfl rfl rfl rfl rfl }

/-- The worker records the session. -/
theorem tearing_record (hs : Tearing id s) (hok : s.connect = .ok) (hnot : s.recorded = false) :
    Tearing id { s with list := some (s.list.getD [] ++ [id]), recorded := true } :=
  { hs with
    recorded := fun _ => hok
    phase := by
      intro t
      have hphase := hs.phase t
      show Phase id _ (s.terminates t)
      cases hcase : s.terminates t with
      | notStarted => trivial
      | disconnecting => rfl
      | gettingMeta => rw [hcase] at hphase; exact hphase
      | threw => rw [hcase] at hphase; exact hphase
      | _ =>
        rw [hcase] at hphase
        rw [hphase.1] at hnot
        cases hnot }

theorem tearing_alarm (hs : Tearing id s) {t : TerminateId} (ht : s.terminates t = .notStarted)
    (hmay : s.terminal.clients = [] → MayTerminate s) : Tearing id (s.fireAlarm g t) := by
  have hfired : Tearing id { s with alarm := false } :=
    { hs with phase := phase_same hs rfl rfl rfl rfl rfl }
  unfold State.fireAlarm
  by_cases hclients : s.terminal.clients = []
  · obtain ⟨hrecorded, hnone, hpump⟩ := hmay hclients
    rw [if_pos hclients]
    exact tearing_terminate hfired ht ⟨hrecorded, hnone, hpump⟩
  · rw [if_neg hclients]
    exact hfired

/-- `terminate` after `ZEROSSH_KV.get`. -/
theorem tearing_listGot (hs : Tearing id s) {t : TerminateId}
    (ht : s.terminates t = .gettingList) (h : step g id s (.listGot t true) = some u) :
    Tearing id u := by
  obtain ⟨hrecorded, hsession⟩ : s.recorded = true ∧ s.session = false := by
    have hphase := hs.phase t
    rw [ht] at hphase
    exact hphase
  have hne : s.terminates t ≠ .disconnecting := by rw [ht]; decide
  have hdisconnects := hs.begun t (by rw [ht]; decide)
  simp only [step, ht, if_true] at h
  cases hlist : s.list with
  | none =>
    simp only [hlist, Option.some.injEq] at h
    subst h
    refine hs.move hne (by decide) hdisconnects ⟨hrecorded, hsession, ?_⟩
    rintro ⟨l, hl, -⟩
    rw [hlist] at hl
    cases hl
  | some sessions =>
    simp only [hlist, Option.some.injEq] at h
    subst h
    exact hs.move hne (by simp) hdisconnects ⟨hrecorded, hsession, by simp⟩

/-- `terminate` after `ZEROSSH_KV.put`. -/
theorem tearing_listPut (hs : Tearing id s) {t : TerminateId} {updated : List SessionId}
    (ht : s.terminates t = .puttingList updated) :
    Tearing id ({ s with list := some updated }.setTerminate t .deletingAll) := by
  obtain ⟨hrecorded, hsession, hupdated⟩ :
      s.recorded = true ∧ s.session = false ∧ id ∉ updated := by
    have hphase := hs.phase t
    rw [ht] at hphase
    exact hphase
  have hunlisted : ¬ Listed id (some updated) := by
    rintro ⟨l, hl, hmem⟩
    obtain rfl := Option.some.inj hl
    exact hupdated hmem
  have hput : Tearing id { s with list := some updated } :=
    { hs with
      phase := fun t' => (hs.phase t').of_same (fun h => h) (fun _ h => h)
        (fun h => absurd h hunlisted) fun h => h }
  exact hput.move (t := t) (by rw [ht]; simp) (by decide) (hs.begun t (by rw [ht]; simp))
    ⟨hrecorded, hsession, hunlisted⟩

/-- `terminate` after `storage.deleteAll()`. -/
theorem tearing_deleted (hs : Tearing id s) {t : TerminateId}
    (ht : s.terminates t = .deletingAll) :
    Tearing id ({ s with storedMeta := false, terminal := s.terminal.clearBuffer }.setTerminate t
      .done) := by
  obtain ⟨hrecorded, hsession, hunlisted⟩ :
      s.recorded = true ∧ s.session = false ∧ ¬ Listed id s.list := by
    have hphase := hs.phase t
    rw [ht] at hphase
    exact hphase
  have hcleared : Tearing id { s with storedMeta := false, terminal := s.terminal.clearBuffer } :=
    { hs with
      phase := fun t' => (hs.phase t').of_same (fun h => h) (fun _ h => h) (fun h => h)
        fun _ => rfl }
  exact hcleared.move (t := t) (by rw [ht]; decide) (by decide) (hs.begun t (by rw [ht]; decide))
    ⟨hrecorded, hsession, hunlisted, rfl⟩

theorem tearing_step (g : Glue) (id : SessionId) (s : State) (l : Label) (u : State)
    (hs : Tearing id s) (hp : Orderly g s l) (h : step g id s l = some u) : Tearing id u := by
  cases l with
  | refuse =>
    simp only [step, Option.ite_none_right_eq_some, Option.some.injEq] at h
    obtain ⟨hconnect, rfl⟩ := h
    exact { hs with
      before := by rintro (h | h) <;> cases h
      after := by rintro (h | h | h) <;> cases h
      recorded := fun h => absurd h (hs.not_recorded (by rw [hconnect]; decide))
      phase := phase_same hs rfl rfl rfl rfl rfl }
  | «open» =>
    simp only [step, Option.ite_none_right_eq_some, Option.some.injEq] at h
    obtain ⟨hconnect, rfl⟩ := h
    exact tearing_open hs hconnect
  | resolve | reject | timeout | settle =>
    simp only [step, Option.ite_none_right_eq_some, Option.some.injEq] at h
    obtain ⟨-, rfl⟩ := h
    exact { hs with phase := phase_same hs rfl rfl rfl rfl rfl }
  | raced =>
    simp only [step, Option.ite_none_right_eq_some] at h
    obtain ⟨hracing, h⟩ := h
    split at h
    · cases h
    · obtain rfl := Option.some.inj h
      exact tearing_raced hs hracing
    · obtain rfl := Option.some.inj h
      exact tearing_failed hs hracing
  | metaPut =>
    simp only [step, Option.ite_none_right_eq_some, Option.some.injEq] at h
    obtain ⟨hconnect, rfl⟩ := h
    exact { hs with
      before := by rintro (h | h) <;> cases h
      after := fun _ => hs.after (.inl hconnect)
      recorded := fun h => absurd h (hs.not_recorded (by rw [hconnect]; decide))
      phase := phase_same hs rfl rfl rfl rfl rfl }
  | alarmSet =>
    simp only [step, Option.ite_none_right_eq_some, Option.some.injEq] at h
    obtain ⟨hconnect, rfl⟩ := h
    exact { hs with
      before := by rintro (h | h) <;> cases h
      after := fun _ => hs.after (.inr (.inl hconnect))
      recorded := fun _ => rfl
      phase := phase_same hs rfl rfl rfl rfl rfl }
  | record =>
    simp only [step, Option.ite_none_right_eq_some, Option.some.injEq] at h
    obtain ⟨⟨hok, hnot⟩, rfl⟩ := h
    exact tearing_record hs hok hnot
  | others list =>
    simp only [step, Option.ite_none_right_eq_some, Option.some.injEq] at h
    obtain ⟨hlist, rfl⟩ := h
    exact { hs with
      phase := fun t => (hs.phase t).of_same (fun h => h) (fun _ h => h) hlist fun h => h }
  | data chunk =>
    simp only [step, Option.ite_none_left_eq_some, Option.some.injEq] at h
    obtain ⟨-, rfl⟩ := h
    exact { hs with phase := phase_same hs rfl rfl rfl rfl rfl }
  | pumpEnd =>
    simp only [step, Option.ite_none_right_eq_some, Option.some.injEq] at h
    obtain ⟨-, rfl⟩ := h
    exact tearing_endPump hs hp.1 hp.2
  | attach ws | detach ws =>
    obtain rfl := Option.some.inj h
    exact { hs with phase := phase_same hs rfl rfl rfl rfl rfl }
  | message =>
    simp only [step] at h
    split at h
    · rename_i hsession
      obtain rfl := Option.some.inj h
      exact tearing_message hs hsession
    · obtain rfl := Option.some.inj h
      exact hs
  | status =>
    simp only [step] at h
    split at h
    · rename_i hsession
      obtain rfl := Option.some.inj h
      rw [isConnected_of_fresh (hs.session hsession)]
      exact hs
    · obtain rfl := Option.some.inj h
      exact hs
  | delete t =>
    simp only [step, Option.ite_none_right_eq_some, Option.some.injEq] at h
    obtain ⟨ht, rfl⟩ := h
    exact tearing_terminate hs ht hp
  | alarm t =>
    simp only [step, Option.ite_none_right_eq_some, Option.some.injEq] at h
    obtain ⟨⟨-, ht⟩, rfl⟩ := h
    exact tearing_alarm hs ht hp
  | disconnected t =>
    simp only [step, Option.ite_none_right_eq_some, Option.some.injEq] at h
    obtain ⟨ht, rfl⟩ := h
    exact tearing_disconnected hs ht hp
  | metaGot t ok =>
    simp only [step, Option.ite_none_right_eq_some] at h
    obtain ⟨ht, -⟩ := h
    have hphase := hs.phase t
    rw [ht] at hphase
    exact hphase.elim
  | listGot t ok =>
    obtain rfl : ok = true := hp
    have ht : s.terminates t = .gettingList := by
      simp only [step, Option.ite_none_right_eq_some] at h
      exact h.1
    exact tearing_listGot hs ht h
  | listPut t ok =>
    simp only [step] at h
    split at h
    · rename_i updated ht
      rw [show ok = true from hp, if_pos rfl] at h
      obtain rfl := Option.some.inj h
      exact tearing_listPut hs ht
    · cases h
  | deleted t ok =>
    simp only [step, Option.ite_none_right_eq_some] at h
    obtain ⟨ht, h⟩ := h
    rw [show ok = true from hp, if_pos rfl] at h
    obtain rfl := Option.some.inj h
    exact tearing_deleted hs ht

/-- The terminate `t` can be carried to its end by an orderly run. -/
def Finishes (g : Glue) (id : SessionId) (s : State) (t : TerminateId) : Prop :=
  ∃ ls u, run (step g id) s ls = some u ∧ Along (step g id) (Orderly g) s ls ∧
    u.terminates t = .done

theorem Finishes.of_step {t : TerminateId} {l : Label} (hl : Orderly g s l)
    (h : step g id s l = some u) (hu : Finishes g id u t) : Finishes g id s t := by
  obtain ⟨ls, v, hr, hal, hv⟩ := hu
  refine ⟨l :: ls, v, run_cons_eq_some.mpr ⟨u, h, hr⟩, ⟨hl, ?_⟩, hv⟩
  intro w hw
  rw [h] at hw
  obtain rfl := Option.some.inj hw
  exact hal

theorem finishes_deletingAll {t : TerminateId} (ht : s.terminates t = .deletingAll) :
    Finishes g id s t := by
  have hstep : step g id s (.deleted t true) =
      some ({ s with storedMeta := false, terminal := s.terminal.clearBuffer }.setTerminate t
        .done) := by
    simp [step, ht]
  refine Finishes.of_step (l := .deleted t true) rfl hstep ⟨[], _, rfl, trivial, ?_⟩
  exact State.setTerminate_self t .done _

theorem finishes_puttingList {t : TerminateId} {updated : List SessionId}
    (ht : s.terminates t = .puttingList updated) : Finishes g id s t := by
  have hstep : step g id s (.listPut t true) =
      some ({ s with list := some updated }.setTerminate t .deletingAll) := by
    simp [step, ht]
  exact Finishes.of_step (l := .listPut t true) rfl hstep
    (finishes_deletingAll (State.setTerminate_self t .deletingAll _))

theorem finishes_gettingList {t : TerminateId} (ht : s.terminates t = .gettingList) :
    Finishes g id s t := by
  cases hlist : s.list with
  | none =>
    have hstep : step g id s (.listGot t true) = some (s.setTerminate t .deletingAll) := by
      simp [step, ht, hlist]
    exact Finishes.of_step (l := .listGot t true) rfl hstep
      (finishes_deletingAll (State.setTerminate_self t .deletingAll s))
  | some sessions =>
    have hstep : step g id s (.listGot t true) =
        some (s.setTerminate t (.puttingList (sessions.filter (· ≠ id)))) := by
      simp [step, ht, hlist]
    exact Finishes.of_step (l := .listGot t true) rfl hstep
      (finishes_puttingList (State.setTerminate_self t _ s))

/-- By induction on the calls of the session that are still to return. -/
theorem finishes_disconnecting {t : TerminateId} (n : Nat) :
    ∀ s : State, s.object.messages = n → s.terminates t = .disconnecting → s.session = true →
      s.object.Fresh → s.object.disconnecting = 1 → s.sessionMeta = true → Finishes g id s t := by
  induction n with
  | zero =>
    intro s hmessages ht hsession hfresh hcalls hmeta
    have hfree : g.freeable s.object.disconnected.inFlight = true := by
      have hzero : s.object.disconnected.inFlight = 0 := by
        show s.object.messages + (s.object.disconnecting - 1) = 0
        omega
      rw [hzero]
      exact g.freeable_zero
    have hstep : step g id s (.disconnected t) =
        some ({ s with object := s.object.disconnected }.freeSession g t) := by
      simp [step, ht]
    refine Finishes.of_step (l := .disconnected t) hfree hstep (finishes_gettingList ?_)
    have hfreed : s.object.disconnected.free g =
        ({ s.object.disconnected with destroyed := true, freed := 1 }, true) :=
      free_of_fresh hfresh hfree
    unfold State.freeSession
    rw [if_pos hsession]
    simp only [hfreed]
    rw [State.closeDown_of_meta (s := { s with
      object := { s.object.disconnected with destroyed := true, freed := 1 }, session := false })
      hmeta]
    exact State.setTerminate_self t .gettingList _
  | succ n ih =>
    intro s hmessages ht hsession hfresh hcalls hmeta
    have hstep : step g id s .settle = some { s with object := s.object.settle } := by
      simp [step, hmessages]
    refine Finishes.of_step (l := .settle) trivial hstep (ih _ ?_ ht hsession hfresh hcalls hmeta)
    show s.object.messages - 1 = n
    omega

theorem Tearing.finishes (hs : Tearing id s) {t : TerminateId}
    (ht : s.terminates t ≠ .notStarted) : Finishes g id s t := by
  have hphase := hs.phase t
  cases hcase : s.terminates t with
  | notStarted => exact absurd hcase ht
  | disconnecting =>
    rw [hcase] at hphase
    obtain ⟨hsession, -, hcalls, -⟩ := hs.waiting t hcase
    have hmeta := (hs.after (.inr (.inr (hs.recorded hphase)))).1
    exact finishes_disconnecting _ s rfl hcase hsession (hs.session hsession) hcalls hmeta
  | gettingMeta =>
    rw [hcase] at hphase
    exact hphase.elim
  | gettingList => exact finishes_gettingList hcase
  | puttingList updated => exact finishes_puttingList hcase
  | deletingAll => exact finishes_deletingAll hcase
  | done => exact ⟨[], s, rfl, trivial, hcase⟩
  | threw =>
    rw [hcase] at hphase
    exact hphase.elim

/-- In an orderly run each terminate can complete, none throws, and one that is done has torn
the session down. -/
theorem tornDown_of_orderly (g : Glue) (id : SessionId) (ls : List Label) (s : State)
    (hp : Along (step g id) (Orderly g) State.init ls)
    (hr : run (step g id) State.init ls = some s) :
    TornDown id s ∧ ∀ t, s.terminates t ≠ .notStarted → Finishes g id s t := by
  have hs := run_invariant (tearing_step g id) ls _ _ (tearing_init id) hp hr
  exact ⟨hs.tornDown, fun _ ht => hs.finishes ht⟩

/-- A session that is recorded. -/
def recordedRun : List Label := [.open, .resolve, .raced, .metaPut, .alarmSet, .record]

/-- A DELETE request whose `disconnect` returns before the connection ends. -/
def deletedFirst : List Label :=
  recordedRun ++ [.delete 0, .disconnected 0, .listGot 0 true, .listPut 0 true, .deleted 0 true]

theorem tornDown_deletedFirst :
    ∃ s, run (step ⟨fun n => n = 0, rfl⟩ 7) State.init deletedFirst = some s ∧
      s.terminates 0 = .done ∧ TornDown 7 s ∧
      ∀ t, s.terminates t ≠ .notStarted → Finishes ⟨fun n => n = 0, rfl⟩ 7 s t := by
  refine ⟨_, rfl, rfl, tornDown_of_orderly _ 7 deletedFirst _ ?_ rfl⟩
  simp [Along, deletedFirst, recordedRun, Orderly, step, State.init, State.terminate,
    State.setTerminate, SshSession.disconnect, SshSession.disconnected, SshSession.inFlight,
    SshSession.new]
  exact ⟨rfl, by rintro t ⟨⟩, by rintro ⟨⟩⟩

/-- The connection ends while `terminate` waits for `disconnect`. -/
def endedMeanwhile : List Label := recordedRun ++ [.delete 0, .pumpEnd, .disconnected 0]

/-- Then `this.session` is null when `terminate` goes on: it throws, and neither the record nor
the storage is removed. -/
theorem not_tornDown :
    (∃ s, run (step ⟨fun _ => true, rfl⟩ 7) State.init endedMeanwhile = some s ∧
      s.terminates 0 = .threw ∧ s.list = some [7] ∧ s.storedMeta = true) ∧
    ¬ ∀ (g : Glue) (id : SessionId) (ls : List Label) (s : State),
      run (step g id) State.init ls = some s → TornDown id s := by
  refine ⟨⟨_, rfl, rfl, rfl, rfl⟩, ?_⟩
  intro h
  exact (h ⟨fun _ => true, rfl⟩ 7 endedMeanwhile _ rfl).notThrown 0 rfl

end Edgessh.Worker.SessionDO
