import Edgessh.Worker.SessionDO

/-!
# The idle timeout of a session

A session without clients is terminated by the alarm of its object. The alarm is set when
`handleConnect` is done and when the last client detaches, and deleted when a client attaches.
-/

namespace Edgessh.Worker.SessionDO
open Edgessh.Run

/-- The object holds a session that no call of `terminate` has begun to disconnect. -/
def Live (s : State) : Prop := s.session = true ∧ s.object.disconnects = 0

/-- `handleConnect` has got as far as the alarm. -/
def Connect.armed : Connect → Bool
  | .settingAlarm | .ok => true
  | _ => false

/-- A live session without clients has an alarm; a terminate that waits for `disconnect` has
called it. -/
structure Guarded (s : State) : Prop where
  alarm : s.connect.armed = true → Live s → s.terminal.clients = [] → s.alarm = true
  disconnecting : ∀ t, s.terminates t = .disconnecting → 0 < s.object.disconnects

variable {g : Glue} {id : SessionId} {s u : State}

theorem guarded_init : Guarded State.init where
  alarm := by
    intro harmed
    cases harmed
  disconnecting := by
    intro t ht
    cases ht

/-- A step that touches none of the fields the alarm depends on. -/
theorem Guarded.of_same (hs : Guarded s) (hconnect : u.connect = s.connect)
    (hsession : u.session = s.session) (hdisconnects : u.object.disconnects = s.object.disconnects)
    (hclients : u.terminal.clients = s.terminal.clients) (halarm : u.alarm = s.alarm)
    (hterminates : ∀ t, u.terminates t = .disconnecting → s.terminates t = .disconnecting) :
    Guarded u where
  alarm := by
    intro harmed hlive hnone
    rw [halarm]
    apply hs.alarm
    · rw [← hconnect]
      exact harmed
    · exact ⟨hsession ▸ hlive.1, hdisconnects ▸ hlive.2⟩
    · rw [← hclients]
      exact hnone
  disconnecting := by
    intro t ht
    rw [hdisconnects]
    exact hs.disconnecting t (hterminates t ht)

/-- A step after which the session is not live. -/
theorem Guarded.of_not_live (hlive : ¬ Live u)
    (hdisconnecting : ∀ t, u.terminates t = .disconnecting → 0 < u.object.disconnects) :
    Guarded u where
  alarm := fun _ h => absurd h hlive
  disconnecting := hdisconnecting

theorem not_live_of_disconnected (h : 0 < s.object.disconnects) : ¬ Live s := by
  rintro ⟨-, hzero⟩
  omega

theorem Guarded.setTerminate (hs : Guarded s) {t : TerminateId} {p : Terminate}
    (hp : p ≠ .disconnecting) : Guarded (s.setTerminate t p) := by
  refine hs.of_same rfl rfl rfl rfl rfl ?_
  intro t' ht'
  rcases State.setTerminate_eq ht' with ⟨-, h⟩ | ⟨-, h⟩
  · exact absurd h hp
  · exact h

theorem closeDown_disconnecting {t t' : TerminateId}
    (h : (s.closeDown t).terminates t' = .disconnecting) : s.terminates t' = .disconnecting := by
  rcases State.closeDown_eq h with ⟨-, (⟨h, -⟩ | ⟨h, -⟩)⟩ | ⟨-, h⟩
  · cases h
  · cases h
  · exact h

theorem freeSession_disconnects (g : Glue) (t : TerminateId) (s : State) :
    (s.freeSession g t).object.disconnects = s.object.disconnects := by
  rcases State.freeSession_cases g t s with ⟨-, -, h⟩ | ⟨-, -, h⟩ | ⟨-, h⟩
  · rw [h]
    exact SshSession.free_disconnects g s.object
  · rw [h]
    exact SshSession.free_disconnects g s.object
  · rw [h]
    rfl

/-- The rest of `terminate` never makes a disconnected session live. -/
theorem guarded_freeSession (t : TerminateId) (hdisconnects : 0 < s.object.disconnects) :
    Guarded (s.freeSession g t) := by
  rw [← freeSession_disconnects g t s] at hdisconnects
  exact Guarded.of_not_live (not_live_of_disconnected hdisconnects) fun _ _ => hdisconnects

/-- Whether or not an alarm is set, `terminate` leaves no live session. -/
theorem guarded_terminate (t : TerminateId)
    (hs : ∀ t, s.terminates t = .disconnecting → 0 < s.object.disconnects) :
    Guarded (s.terminate g t) := by
  have hpos : 0 < s.object.disconnect.disconnects := by
    rw [SshSession.disconnect_disconnects]
    omega
  unfold State.terminate
  by_cases hsession : s.session = true
  · rw [if_pos hsession]
    split
    · exact guarded_freeSession t hpos
    · exact Guarded.of_not_live (not_live_of_disconnected hpos) fun _ _ => hpos
  · rw [if_neg hsession]
    apply Guarded.of_not_live
    · rintro ⟨hlive, -⟩
      exact hsession hlive
    · intro t' ht'
      exact hs t' (closeDown_disconnecting ht')

theorem guarded_endPump (hs : Guarded s) : Guarded (s.endPump g) := by
  apply Guarded.of_not_live
  · rintro ⟨hsession, -⟩
    cases hsession
  · intro t ht
    have hpos := hs.disconnecting t ht
    show 0 < (if s.session then (s.object.free g).1 else s.object).disconnects
    split
    · rw [SshSession.free_disconnects]
      exact hpos
    · exact hpos

theorem guarded_webSocketClose (hs : Guarded s) (ws : ClientId) :
    Guarded (s.webSocketClose ws) where
  alarm := by
    intro _ _ hnone
    exact if_pos hnone
  disconnecting := hs.disconnecting

theorem handleWebSocket_clients_ne_nil (ws : ClientId) :
    (s.handleWebSocket ws).terminal.clients ≠ [] := by
  have hmem : ws ∈ (s.terminal.add ws).clients := Terminal.mem_add.mpr (.inl rfl)
  intro hnil
  rw [show (s.terminal.add ws).clients = [] from hnil] at hmem
  cases hmem

theorem guarded_handleWebSocket (hs : Guarded s) (ws : ClientId) :
    Guarded (s.handleWebSocket ws) where
  alarm := by
    intro _ _ hnone
    exact absurd hnone (handleWebSocket_clients_ne_nil ws)
  disconnecting := hs.disconnecting

theorem guarded_fireAlarm (hs : Guarded s) (t : TerminateId) : Guarded (s.fireAlarm g t) := by
  unfold State.fireAlarm
  by_cases hnone : s.terminal.clients = []
  · rw [if_pos hnone]
    exact guarded_terminate t hs.disconnecting
  · rw [if_neg hnone]
    exact { alarm := fun _ _ hclients => absurd hclients hnone
            disconnecting := hs.disconnecting }

/-- Before the alarm is set nothing is asked of it. -/
theorem Guarded.of_not_armed (hs : Guarded s) (harmed : u.connect.armed = false)
    (hdisconnects : u.object.disconnects = s.object.disconnects)
    (hterminates : u.terminates = s.terminates) : Guarded u where
  alarm h := absurd h (by simp [harmed])
  disconnecting := by
    rw [hdisconnects, hterminates]
    exact hs.disconnecting

theorem guarded_raced (hs : Guarded s) (h : step g id s .raced = some u) : Guarded u := by
  simp only [step, Option.ite_none_right_eq_some] at h
  obtain ⟨-, h⟩ := h
  split at h
  · cases h
  · obtain rfl := Option.some.inj h
    exact hs.of_not_armed rfl rfl rfl
  · obtain rfl := Option.some.inj h
    exact hs.of_not_armed rfl rfl rfl

theorem guarded_message (hs : Guarded s) (h : step g id s .message = some u) : Guarded u := by
  simp only [step] at h
  split at h
  · obtain rfl := Option.some.inj h
    have hcall : s.object.call.disconnects = s.object.disconnects := by
      unfold SshSession.call
      split <;> rfl
    exact hs.of_same rfl rfl hcall rfl rfl fun _ ht => ht
  · obtain rfl := Option.some.inj h
    exact hs

theorem guarded_status (hs : Guarded s) (h : step g id s .status = some u) : Guarded u := by
  simp only [step] at h
  split at h
  · obtain rfl := Option.some.inj h
    exact ⟨hs.alarm, hs.disconnecting⟩
  · obtain rfl := Option.some.inj h
    exact hs

section Closing

variable {t : TerminateId} {ok : Bool}

theorem guarded_metaGot (hs : Guarded s) (h : step g id s (.metaGot t ok) = some u) :
    Guarded u := by
  simp only [step, Option.ite_none_right_eq_some] at h
  obtain ⟨-, h⟩ := h
  split at h
  · obtain rfl := Option.some.inj h
    have hmeta : Guarded { s with sessionMeta := s.storedMeta } := ⟨hs.alarm, hs.disconnecting⟩
    apply hmeta.setTerminate
    split <;> decide
  · obtain rfl := Option.some.inj h
    exact hs.setTerminate (by decide)

theorem guarded_listGot (hs : Guarded s) (h : step g id s (.listGot t ok) = some u) :
    Guarded u := by
  simp only [step, Option.ite_none_right_eq_some] at h
  obtain ⟨-, h⟩ := h
  split at h
  · split at h
    · obtain rfl := Option.some.inj h
      exact hs.setTerminate (by simp)
    · obtain rfl := Option.some.inj h
      exact hs.setTerminate (by decide)
  · obtain rfl := Option.some.inj h
    exact hs.setTerminate (by decide)

theorem guarded_listPut (hs : Guarded s) (h : step g id s (.listPut t ok) = some u) :
    Guarded u := by
  simp only [step] at h
  split at h
  · rename_i updated _
    split at h
    · obtain rfl := Option.some.inj h
      have hlist : Guarded { s with list := some updated } := ⟨hs.alarm, hs.disconnecting⟩
      exact hlist.setTerminate (by decide)
    · obtain rfl := Option.some.inj h
      exact hs.setTerminate (by decide)
  · cases h

theorem guarded_deleted (hs : Guarded s) (h : step g id s (.deleted t ok) = some u) :
    Guarded u := by
  simp only [step, Option.ite_none_right_eq_some] at h
  obtain ⟨-, h⟩ := h
  split at h
  · obtain rfl := Option.some.inj h
    have hcleared : Guarded { s with
        storedMeta := false, terminal := s.terminal.clearBuffer } :=
      ⟨hs.alarm, hs.disconnecting⟩
    exact hcleared.setTerminate (by decide)
  · obtain rfl := Option.some.inj h
    exact hs.setTerminate (by decide)

end Closing

theorem guarded_step (g : Glue) (id : SessionId) (s : State) (l : Label) (u : State)
    (hs : Guarded s) (h : step g id s l = some u) : Guarded u := by
  cases l with
  | refuse | «open» =>
    simp only [step, Option.ite_none_right_eq_some, Option.some.injEq] at h
    obtain ⟨-, rfl⟩ := h
    exact hs.of_not_armed rfl rfl rfl
  | resolve | reject | timeout | record | others | settle =>
    simp only [step, Option.ite_none_right_eq_some, Option.some.injEq] at h
    obtain ⟨-, rfl⟩ := h
    exact ⟨hs.alarm, hs.disconnecting⟩
  | raced => exact guarded_raced hs h
  | metaPut =>
    simp only [step, Option.ite_none_right_eq_some, Option.some.injEq] at h
    obtain ⟨-, rfl⟩ := h
    exact { alarm := fun _ _ _ => rfl
            disconnecting := hs.disconnecting }
  | alarmSet =>
    simp only [step, Option.ite_none_right_eq_some, Option.some.injEq] at h
    obtain ⟨hconnect, rfl⟩ := h
    have harmed : s.connect.armed = true := by rw [hconnect]; rfl
    exact { alarm := fun _ => hs.alarm harmed
            disconnecting := hs.disconnecting }
  | data chunk =>
    simp only [step, Option.ite_none_left_eq_some, Option.some.injEq] at h
    obtain ⟨-, rfl⟩ := h
    exact ⟨hs.alarm, hs.disconnecting⟩
  | pumpEnd =>
    simp only [step, Option.ite_none_right_eq_some, Option.some.injEq] at h
    obtain ⟨-, rfl⟩ := h
    exact guarded_endPump hs
  | attach ws =>
    obtain rfl := Option.some.inj h
    exact guarded_handleWebSocket hs ws
  | detach ws =>
    obtain rfl := Option.some.inj h
    exact guarded_webSocketClose hs ws
  | message => exact guarded_message hs h
  | status => exact guarded_status hs h
  | delete t =>
    simp only [step, Option.ite_none_right_eq_some, Option.some.injEq] at h
    obtain ⟨-, rfl⟩ := h
    exact guarded_terminate t hs.disconnecting
  | alarm t =>
    simp only [step, Option.ite_none_right_eq_some, Option.some.injEq] at h
    obtain ⟨-, rfl⟩ := h
    exact guarded_fireAlarm hs t
  | disconnected t =>
    simp only [step, Option.ite_none_right_eq_some, Option.some.injEq] at h
    obtain ⟨ht, rfl⟩ := h
    exact guarded_freeSession t (hs.disconnecting t ht)
  | metaGot t ok => exact guarded_metaGot hs h
  | listGot t ok => exact guarded_listGot hs h
  | listPut t ok => exact guarded_listPut hs h
  | deleted t ok => exact guarded_deleted hs h

/-- Once `handleConnect` has returned, a live session without clients has an alarm, and an alarm
that fires while a client is attached is merely used up. -/
theorem idle_timeout (g : Glue) (id : SessionId) (s : State)
    (h : Reaches (step g id) State.init s) :
    (s.connect = .ok → Live s → s.terminal.clients = [] → s.alarm = true) ∧
      ∀ t u, s.terminal.clients ≠ [] → step g id s (.alarm t) = some u →
        u = { s with alarm := false } := by
  have hs := reaches_invariant (guarded_step g id) guarded_init h
  constructor
  · intro hconnect
    apply hs.alarm
    rw [hconnect]
    rfl
  · intro t u hclients halarm
    simp only [step, Option.ite_none_right_eq_some, Option.some.injEq] at halarm
    obtain ⟨-, rfl⟩ := halarm
    exact if_neg hclients

/-- A client attaches while `handleConnect` still stores the meta record, so that the alarm is
set with a client attached; it fires, and the client detaches. -/
def crossing : List Label :=
  [.open, .resolve, .raced, .attach 0, .metaPut, .alarmSet, .alarm 0, .detach 0]

theorem idle_timeout_crossing :
    ∃ s, run (step ⟨fun n => n = 0, rfl⟩ 7) State.init crossing = some s ∧ s.alarm = true ∧
      s.session = true ∧ ∀ t u, s.terminal.clients ≠ [] →
        step ⟨fun n => n = 0, rfl⟩ 7 s (.alarm t) = some u → u = { s with alarm := false } := by
  have hrun : (run (step ⟨fun n => n = 0, rfl⟩ 7) State.init crossing).map (fun s =>
      (s.connect, s.session, s.object.disconnects, s.terminal.clients)) =
      some (.ok, true, 0, []) := by decide
  obtain ⟨s, hs, heq⟩ := Option.map_eq_some_iff.mp hrun
  obtain ⟨hconnect, heq⟩ := Prod.mk.inj heq
  obtain ⟨hsession, heq⟩ := Prod.mk.inj heq
  obtain ⟨hdisconnects, hclients⟩ := Prod.mk.inj heq
  obtain ⟨halarm, hattached⟩ := idle_timeout ⟨fun n => n = 0, rfl⟩ 7 s ⟨crossing, hs⟩
  exact ⟨s, hs, halarm hconnect ⟨hsession, hdisconnects⟩ hclients, hsession, hattached⟩

end Edgessh.Worker.SessionDO
