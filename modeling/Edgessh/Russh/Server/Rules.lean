import Edgessh.Russh.Server.Run
import Edgessh.Russh.Session.Calm

/-!
# Invariants of the server's event loop

`ServerRules` says what an invariant has to meet for each command of a turn; `turn` puts them
together, and `run` is the induction over the turns. The authentication is left to `process`:
`process_of_steps` is for the invariants that each of its steps keeps.
-/

namespace Edgessh.Russh
open Edgessh.Command Edgessh.Run Relation

namespace Server

variable {P : Primitives}

/-- What an invariant `I` of the loop has to meet. A turn begins in `Start`; `Mid buf` holds from
the moment at which the packet `buf` has been read to that at which it is worked on, `Done` from
the end of an exchange to the moment at which its keys are taken into use, and `Fresh` from there
until the next exchange may begin. A turn that fails ends in `E`. -/
structure ServerRules (P : Primitives) (Start : ServerInput → ServerSession → Prop)
    (I E : ServerSession → Prop) (Mid : Bytes → ServerSession → Prop)
    (Done : NewKeys → ServerSession → Prop) (Fresh : ServerSession → Prop) : Prop where
  start_frame {s t input} : s.Frame t → Start input s → Start input t
  start_inv {s input} : Start input s → I s
  inv_err {s} : I s → E s
  app {s t} : AppStep serverStart P none s t → I s → I t
  opened {s t payload buf} : Opened P payload buf s t → Start (.packet payload) s → I t
  received {s t payload buf} : Opened P payload buf s t → Start (.packet payload) s →
    Mid buf (t.record (.received buf))
  mid_frame {s t buf} : s.Frame t → Mid buf s → Mid buf t
  mid_err {s buf} : Mid buf s → E s
  ignored {s buf} : isIgnored buf = true → Mid buf s → I s
  begin {s t buf} (rng : Entropy) (_ : buf.head? = some Msg.kexInit) (_ : s.kex.active = false)
    (_ : s.beginRekey serverStart P rng = .ok t) : Mid buf s → Mid buf t
  process {s buf} (env : ServerEnv) (_ : isIgnored buf = false)
    (_ : isKexMsg buf = true → ∀ kex, s.kex ≠ .inProgress kex) : Mid buf s →
    wp (processPacket P env buf) (fun _ t => I t) (fun _ t => E t) s
  kex_error {s buf kex lookup rng seqn e w} (_ : isKexMsg buf = true) (_ : s.kex = .inProgress kex)
    (_ : kex.step P lookup rng (some ⟨buf, seqn⟩) s.common.packetWriter = .error e w) : Mid buf s →
    E ({ s with kex := .taken }.setWriter w)
  kex_next {s buf kex lookup rng seqn kex' reset w} (_ : isKexMsg buf = true)
    (_ : s.kex = .inProgress kex)
    (_ : kex.step P lookup rng (some ⟨buf, seqn⟩) s.common.packetWriter =
      .ok (.needsReply kex' reset) w) : Mid buf s →
    I (continueKex kex' reset (s.setWriter w))
  kex_done {s buf kex lookup rng seqn key newkeys w} (_ : isKexMsg buf = true)
    (_ : s.kex = .inProgress kex)
    (_ : kex.step P lookup rng (some ⟨buf, seqn⟩) s.common.packetWriter =
      .ok (.done key newkeys) w) : Mid buf s →
    Done newkeys
      { s with
        kex := .taken
        common := { s.common with
          packetWriter := w
          strictKex := s.common.strictKex || newkeys.names.strictKex } }
  done_app {s t newkeys} : AppStep serverStart P none s t → Done newkeys s → Done newkeys t
  done_err {s newkeys} : Done newkeys s → E s
  done_bytes {s newkeys} : Done newkeys s →
    Done newkeys (s.setWriter { s.common.packetWriter with bytes := 0 })
  rekeyed {s newkeys} (_ : s.common.encrypted.isSome = true) : Done newkeys s →
    Fresh { s with common := s.common.newkeys newkeys }
  keyed {s newkeys} (now : Nat) (_ : s.common.encrypted = none) : Done newkeys s →
    Fresh (initKeys newkeys now s)
  fresh_app {s t} : AppStep serverStart P none s t → Fresh s → Fresh t
  fresh_err {s} : Fresh s → E s
  settled {s} : Fresh s → I { s with kex := .idle }

section Process

variable {I E : ServerSession → Prop} {s : ServerSession}

/-- After the steps of the authentication. -/
theorem wp_auth {α : Type} (hI : ∀ s t, AuthStep s t → I s → I t) (hE : ∀ s, I s → E s)
    (m : AuthM α) (hs : I s) : wp m.run (fun _ t => I t) (fun _ t => E t) s :=
  wp_mono (Confined.wp_invariant hI m hs) (fun _ _ ht => ht) fun _ _ ht => hE _ ht

/-- After steps outside a key exchange. -/
theorem wp_app {α : Type} {pkt : Option Bytes}
    (hI : ∀ s t, AppStep serverStart P pkt s t → I s → I t) (hE : ∀ s, I s → E s)
    (m : ServerPacketM P pkt α) (hs : I s) : wp m.run (fun _ t => I t) (fun _ t => E t) s :=
  wp_mono (Confined.wp_invariant hI m hs) (fun _ _ ht => ht) fun _ _ ht => hE _ ht

theorem wp_succeedIfAccepted {env : ServerEnv} (hauth : ∀ s t, AuthStep s t → I s → I t)
    (happ : ∀ s t, AppStep serverStart P none s t → I s → I t) (hE : ∀ s, I s → E s) (hs : I s) :
    wp (succeedIfAccepted P env) (fun _ t => I t) (fun _ t => E t) s := by
  unfold succeedIfAccepted
  rw [wp_bind, wp_get]
  split
  · exact hs
  · split
    · refine wp_seq (wp_auth hauth hE _ hs) fun _ t ht => ?_
      exact wp_app happ hE _ ht
    · exact hs

/-- What the steps of the authentication keep, and the work on a packet of the connection, is kept
by `process_packet`. -/
theorem process_of_read {env : ServerEnv} {buf : Bytes}
    (hauth : ∀ s t, AuthStep s t → I s → I t)
    (happ : ∀ s t, AppStep serverStart P none s t → I s → I t) (hE : ∀ s, I s → E s)
    (hread : ∀ msg r, buf = msg :: r →
      wp (readAuthenticated (P := P) env msg r).run (fun _ t => I t) (fun _ t => E t) s)
    (hcomp : ∀ msg r, buf = msg :: r → wp (readAuthenticated (P := P) env msg r).run
      (fun _ t => I t) (fun _ t => E t) (initCompression s)) (hs : I s) :
    wp (processPacket P env buf) (fun _ t => I t) (fun _ t => E t) s := by
  unfold processPacket
  rw [wp_bind, wp_get]
  cases hc : s.common.encrypted with
  | none => exact hE _ hs
  | some enc =>
    cases buf with
    | nil => exact hs
    | cons msg r =>
      dsimp only [processEncrypted]
      split
      · split
        · exact wp_auth hauth hE _ hs
        · exact hs
      · rename_i request _
        unfold processAuth
        split
        · refine wp_seq (wp_auth hauth hE _ hs) fun _ t ht => ?_
          refine wp_seq (wp_auth hauth hE _ ht) fun _ u hu => ?_
          exact wp_succeedIfAccepted hauth happ hE hu
        · split
          · refine wp_seq (wp_auth hauth hE _ hs) fun _ t ht => ?_
            exact wp_succeedIfAccepted hauth happ hE ht
          · exact hs
      · rw [wp_bind, wp_modify]
        exact hcomp msg r rfl
      · exact hread msg r rfl

/-- What every step of the authentication and of the connection keeps is kept by
`process_packet`. -/
theorem process_of_steps {env : ServerEnv} {buf : Bytes}
    (hauth : ∀ s t, AuthStep s t → I s → I t)
    (happ : ∀ s t, AppStep serverStart P (some buf) s t → I s → I t)
    (hcomp : ∀ s, I s → I (initCompression s)) (hE : ∀ s, I s → E s) (hs : I s) :
    wp (processPacket P env buf) (fun _ t => I t) (fun _ t => E t) s := by
  refine process_of_read hauth (fun s t hstep => happ s t hstep.of_none) hE ?_ ?_ hs
  · rintro msg r rfl
    exact wp_app happ hE _ hs
  · rintro msg r rfl
    exact wp_app happ hE _ (hcomp s hs)

end Process

theorem NoPending.auth {s t : ServerSession} (h : AuthStep s t) (hs : NoPending s) :
    NoPending t := by
  cases h <;> exact hs

theorem NoPending.initCompression {s : ServerSession} (hs : NoPending s) :
    NoPending (initCompression s) := by
  unfold Server.initCompression
  split <;> exact hs

namespace ServerRules

variable {Start : ServerInput → ServerSession → Prop} {I E : ServerSession → Prop}
  {Mid : Bytes → ServerSession → Prop} {Done : NewKeys → ServerSession → Prop}
  {Fresh : ServerSession → Prop} {s : ServerSession} {env : ServerEnv}

theorem run_app {α : Type} (h : ServerRules P Start I E Mid Done Fresh) (m : ServerAppM P α)
    (hs : I s) (hp : NoPending s) :
    wp m.run (fun _ t => I t ∧ NoPending t) (fun _ t => E t) s :=
  wp_mono
    (Confined.wp_invariant (I := fun t => I t ∧ NoPending t)
      (fun _ _ hstep ht => ⟨h.app hstep ht.1, ht.2.app hstep⟩) m ⟨hs, hp⟩)
    (fun _ _ ht => ht) fun _ _ ht => h.inv_err ht.1

theorem run_fresh {α : Type} (h : ServerRules P Start I E Mid Done Fresh) (m : ServerAppM P α)
    (hs : Fresh s) (hp : NoPending s) :
    wp m.run (fun _ t => Fresh t ∧ NoPending t) (fun _ t => E t) s :=
  wp_mono
    (Confined.wp_invariant (I := fun t => Fresh t ∧ NoPending t)
      (fun _ _ hstep ht => ⟨h.fresh_app hstep ht.1, ht.2.app hstep⟩) m ⟨hs, hp⟩)
    (fun _ _ ht => ht) fun _ _ ht => h.fresh_err ht.1

/-- The session stays encrypted. -/
theorem run_rekeyed {α : Type} {newkeys : NewKeys} (h : ServerRules P Start I E Mid Done Fresh)
    (m : ServerAppM P α) (hs : Done newkeys s) (hp : NoPending s)
    (he : s.common.encrypted.isSome = true) :
    wp m.run (fun _ t => Done newkeys t ∧ NoPending t ∧ t.common.encrypted.isSome = true)
      (fun _ t => E t) s :=
  wp_mono
    (Confined.wp_invariant
      (I := fun t => Done newkeys t ∧ NoPending t ∧ t.common.encrypted.isSome = true)
      (fun _ _ hstep ht => ⟨h.done_app hstep ht.1, ht.2.1.app hstep, by
        rw [hstep.kept.encrypted_isSome]
        exact ht.2.2⟩) m ⟨hs, hp, he⟩)
    (fun _ _ ht => ht) fun _ _ ht => h.done_err ht.1

theorem installKeys {newkeys : NewKeys} (h : ServerRules P Start I E Mid Done Fresh)
    (hs : Done newkeys s) (hp : NoPending s) :
    wp (installKeys P env newkeys) (fun _ t => Fresh t ∧ NoPending t) (fun _ t => E t) s := by
  unfold Server.installKeys
  rw [wp_bind, wp_get]
  cases hc : s.common.encrypted with
  | some enc =>
    simp only [wp_bind, wp_modify]
    refine wp_mono (h.run_rekeyed _ (h.done_bytes hs) hp ?_) (fun _ t ht => ?_) fun _ _ ht => ht
    · simp [Session.setWriter, hc]
    · obtain ⟨hd, hpt, het⟩ := ht
      rw [wp_bind, wp_get, hpt, wp_bind]
      have hi := h.rekeyed het hd
      cases t
      cases hpt
      rw [processPending, wp_pure, wp_bind, wp_modify]
      exact h.run_fresh _ hi rfl
  | none =>
    simp only [wp_bind, wp_modify]
    exact h.run_fresh _ (h.keyed (env.now s) hc hs) hp

theorem kexDone {newkeys : NewKeys} (h : ServerRules P Start I E Mid Done Fresh)
    (hs : Done newkeys { s with common := { s.common with
      strictKex := s.common.strictKex || newkeys.names.strictKex } }) (hp : NoPending s) :
    wp (kexDone P env newkeys) (fun _ t => I t ∧ NoPending t) (fun _ t => E t) s := by
  simp only [Server.kexDone, wp_bind, wp_modify]
  exact wp_mono (h.installKeys hs hp) (fun _ t ht => ⟨h.settled ht.1, ht.2⟩) fun _ _ ht => ht

theorem kexReply {kex : ServerKex} {pkt : IncomingSshPacket}
    (h : ServerRules P Start I E Mid Done Fresh) (hb : isKexMsg pkt.buffer = true)
    (hk : s.kex = .inProgress kex) (hs : Mid pkt.buffer s) (hp : NoPending s) :
    wp (kexReply P env kex pkt) (fun _ t => I t ∧ NoPending t) (fun _ t => E t)
      { s with kex := .taken } := by
  unfold Server.kexReply
  rw [wp_bind, wp_get, wp_bind, onWriter, wp_zoom]
  generalize env.lookupDhGexGroup { s with kex := .taken } = lookup
  generalize env.entropy { s with kex := .taken } = rng
  have hstep : wp (kex.step P lookup rng (some pkt))
      (fun progress w => kex.step P lookup rng (some pkt) s.common.packetWriter = .ok progress w)
      (fun e w => kex.step P lookup rng (some pkt) s.common.packetWriter = .error e w)
      s.common.packetWriter := by
    unfold wp
    split <;> assumption
  refine wp_mono hstep (fun progress w hw => ?_) fun e w hw => h.kex_error hb hk hw hs
  cases progress with
  | needsReply kex' reset =>
    have hi := h.kex_next hb hk hw hs
    dsimp only
    rw [wp_bind, wp_modify, wp_bind]
    exact wp_mono (h.run_app (flush env) hi hp) (fun _ t ht => ht) fun _ _ ht => ht
  | done key newkeys =>
    have hd := h.kex_done hb hk hw hs
    dsimp only
    refine wp_seq (h.kexDone (s := { s with kex := .taken }.setWriter w) hd hp) fun _ t ht => ?_
    rw [wp_bind, wp_get, wp_bind]
    exact wp_mono (h.run_app (flush env) ht.1 ht.2) (fun _ u hu => hu) fun _ _ hu => hu

theorem beginIfAsked {buf : Bytes} (h : ServerRules P Start I E Mid Done Fresh) (hs : Mid buf s)
    (hp : NoPending s) :
    wp (beginIfAsked P env buf) (fun _ t => Mid buf t ∧ NoPending t) (fun _ t => E t) s := by
  unfold Server.beginIfAsked
  rw [wp_bind, wp_get]
  split
  · rename_i hk
    refine wp_beginRekeyWith (fun t hb => ?_) fun _ => h.mid_err hs
    have hm := h.begin _ hk.1 hk.2 hb hs
    obtain ⟨kex, w, -, rfl⟩ := Session.beginRekey_eq_ok hb
    exact ⟨hm, hp⟩
  · exact ⟨hs, hp⟩

theorem processPacket {buf : Bytes} (h : ServerRules P Start I E Mid Done Fresh)
    (hi : isIgnored buf = false) (hk : isKexMsg buf = true → ∀ kex, s.kex ≠ .inProgress kex)
    (hs : Mid buf s) (hp : NoPending s) :
    wp (Server.processPacket P env buf) (fun _ t => I t ∧ NoPending t) (fun _ t => E t) s := by
  have hinv := h.process env hi hk hs
  have hpend : wp (Server.processPacket P env buf) (fun _ t => NoPending t)
      (fun _ _ => True) s :=
    process_of_steps (fun _ _ hstep ht => NoPending.auth hstep ht)
      (fun _ _ hstep ht => NoPending.app hstep ht) (fun _ ht => NoPending.initCompression ht)
      (fun _ _ => trivial) hp
  unfold wp at hinv hpend ⊢
  split <;> simp_all

theorem dispatch {pkt : IncomingSshPacket} (h : ServerRules P Start I E Mid Done Fresh)
    (hi : isIgnored pkt.buffer = false) (hs : Mid pkt.buffer s) (hp : NoPending s) :
    wp (dispatch P env pkt) (fun _ t => I t ∧ NoPending t) (fun _ t => E t) s := by
  unfold Server.dispatch
  refine wp_seq (h.beginIfAsked hs hp) fun _ t ht => ?_
  obtain ⟨hm, hpt⟩ := ht
  have hprocess : (isKexMsg pkt.buffer = true → ∀ kex, t.kex ≠ .inProgress kex) →
      wp (do Server.processPacket P env pkt.buffer; pure pkt.seqn)
        (fun _ u => I u ∧ NoPending u) (fun _ u => E u) t := by
    intro hk
    exact wp_seq (h.processPacket hi hk hm hpt) fun _ u hu => hu
  unfold takeKexFor
  by_cases hb : isKexMsg pkt.buffer = true
  · rw [if_pos hb, wp_bind, takeKex, wp_bind, wp_get]
    cases hk : t.kex with
    | inProgress kex => exact h.kexReply hb hk hm hpt
    | idle => exact hprocess fun _ kex => by simp [hk]
    | taken => exact hprocess fun _ kex => by simp [hk]
  · rw [if_neg hb]
    exact hprocess fun hb' => absurd hb' hb

theorem reply {pkt : IncomingSshPacket} (h : ServerRules P Start I E Mid Done Fresh)
    (hd : pkt.buffer.head? ≠ some Msg.disconnect) (hs : Mid pkt.buffer s) (hp : NoPending s) :
    wp (reply P env pkt) (fun _ t => I t ∧ NoPending t) (fun _ t => E t) s := by
  unfold Server.reply
  rw [wp_bind]
  refine wp_checkStrictWith ?_ fun _ => h.mid_err hs
  split
  · rename_i hsk
    exact ⟨h.ignored (by simp [isIgnored, hsk]) hs, hp⟩
  · rename_i hsk
    exact h.dispatch (by simp [isIgnored, hsk, hd]) hs hp

theorem readPacket (h : ServerRules P Start I E Mid Done Fresh) (seqn : UInt32) (payload : Bytes)
    (hs : Start (.packet payload) s) (hp : NoPending s) :
    wp (readPacket P env seqn payload) (Ended I E) (fun _ t => E t) s := by
  unfold Server.readPacket
  rw [wp_bind]
  refine wp_mono (wp_maybeDecompress seqn payload s) (fun pkt t ht => ?_) fun _ t ht => ?_
  swap
  · rw [ht]
    exact h.inv_err (h.start_inv hs)
  obtain ⟨hopen, hpt⟩ := ht
  rw [hp] at hpt
  rcases pkt with ⟨buffer, n⟩
  cases buffer with
  | nil => exact ⟨h.opened hopen hs, hpt⟩
  | cons msg r =>
    have hm := h.received hopen hs
    have hpu : NoPending (t.record (.received (msg :: r))) := hpt
    dsimp only
    rw [wp_bind, wp_modify]
    generalize t.record (.received (msg :: r)) = u at hm hpu
    split
    · exact h.mid_err hm
    · rename_i hd
      rw [wp_bind, wp_modify, wp_bind]
      have hhead : (msg :: r).head? ≠ some Msg.disconnect := by simpa using hd
      refine wp_mono (h.reply hhead ?_ hpu)
        (fun _ u hu => hu) fun _ _ hu => hu
      exact h.mid_frame { Session.Frame.refl u with } hm

theorem keepaliveTimer (h : ServerRules P Start I E Mid Done Fresh) (hs : I s) (hp : NoPending s) :
    wp (keepaliveTimer P) (fun _ t => I t ∧ NoPending t) (fun _ t => E t) s := by
  have hi : I { s with common := { s.common with aliveTimeouts := s.common.aliveTimeouts + 1 } } :=
    h.app (.frame { Session.Frame.refl s with }) hs
  unfold Server.keepaliveTimer
  rw [wp_bind, wp_modify, wp_bind, wp_get]
  split
  · exact h.inv_err hi
  · exact h.run_app _ hi hp

theorem takeMessage (h : ServerRules P Start I E Mid Done Fresh) (hs : I s) (hp : NoPending s) :
    wp (takeMessage P) (fun _ t => I t ∧ NoPending t) (fun _ t => E t) s := by
  unfold Server.takeMessage
  rw [wp_bind, wp_get]
  split
  · exact ⟨hs, hp⟩
  · rename_i m ms hm
    rw [wp_bind, wp_set]
    refine h.run_app _ ?_ ?_
    · exact h.app (.frame { Session.Frame.refl s with }) hs
    · exact hp

theorem select (h : ServerRules P Start I E Mid Done Fresh) (seqn : UInt32) (input : ServerInput)
    (hs : Start input s) (hp : NoPending s) :
    wp (select P env seqn input) (Ended I E) (fun _ t => E t) s := by
  have hi := h.start_inv hs
  cases input with
  | packet payload => exact h.readPacket _ payload hs hp
  | shortPacket => exact h.inv_err hi
  | readError e => exact h.inv_err hi
  | keepaliveTimer =>
    simp only [Server.select, wp_bind]
    exact wp_mono (h.keepaliveTimer hi hp) (fun _ _ ht => ht) fun _ _ ht => ht
  | inactivityTimer => exact h.inv_err hi
  | receive =>
    simp only [Server.select, wp_bind]
    exact wp_mono (h.takeMessage hi hp) (fun _ _ ht => ht) fun _ _ ht => ht
  | send m => exact ⟨hi, hp⟩

theorem endTurn (h : ServerRules P Start I E Mid Done Fresh) (hs : I s) (hp : NoPending s) :
    wp (endTurn P env) (fun _ t => I t ∧ NoPending t) (fun _ t => E t) s := by
  unfold Server.endTurn
  refine wp_seq (h.run_app _ hs hp) fun _ t ht => ?_
  rw [wp_modify]
  split
  · exact ⟨h.app (.frame { Session.Frame.refl t with }) ht.1, ht.2⟩
  · exact ht

theorem turn (h : ServerRules P Start I E Mid Done Fresh) (seqn : UInt32) (input : ServerInput)
    (hs : Start input s) (hp : NoPending s) :
    wp (turn P env seqn input) (Ended I E) (fun _ t => E t) s := by
  unfold Server.turn
  rw [wp_bind, wp_modify, wp_bind]
  refine wp_mono (h.select seqn input (h.start_frame { Session.Frame.refl s with } hs) hp)
    (fun result t ht => ?_) fun _ _ ht => ht
  cases result with
  | stop => exact ht
  | next n =>
    simp only [wp_bind]
    exact wp_mono (h.endTurn ht.1 ht.2) (fun _ _ hu => hu) fun _ _ hu => hu
  | disconnected r =>
    simp only [wp_bind]
    exact wp_mono (h.endTurn ht.1 ht.2) (fun _ _ hu => hu) fun _ _ hu => hu

end ServerRules

/-- The invariant of the loop: `I` while it runs, `E` when it has ended. -/
structure LoopInvariant (I E : ServerSession → Prop) (l : ServerLoop) : Prop where
  running : l.running = true → I l.session ∧ NoPending l.session
  ended : E l.session

namespace ServerRules

variable {Start : ServerInput → ServerSession → Prop} {I E : ServerSession → Prop}
  {Mid : Bytes → ServerSession → Prop} {Done : NewKeys → ServerSession → Prop}
  {Fresh : ServerSession → Prop}

theorem afterTurn (h : ServerRules P Start I E Mid Done Fresh) {l : ServerLoop} {env : ServerEnv}
    {input : ServerInput} (hs : Start input l.session) (hp : NoPending l.session) :
    LoopInvariant I E (afterTurn l (Server.turn P env l.seqn input l.session)) := by
  have ht : wp (Server.turn P env l.seqn input) (Ended I E) (fun _ t => E t) l.session :=
    h.turn l.seqn input hs hp
  unfold wp at ht
  cases hr : Server.turn P env l.seqn input l.session with
  | error e s =>
    rw [hr] at ht
    exact ⟨fun hrun => by simp [Server.afterTurn] at hrun, ht⟩
  | ok result s =>
    rw [hr] at ht
    cases result with
    | stop => exact ⟨fun hrun => by simp [Server.afterTurn] at hrun, ht⟩
    | next n => exact ⟨fun _ => ht, h.inv_err ht.1⟩
    | disconnected r => exact ⟨fun hrun => by simp [Server.afterTurn] at hrun, h.inv_err ht.1⟩

/-- One step of the loop, from a state in which `Start` holds. -/
theorem step (h : ServerRules P Start I E Mid Done Fresh) {l l' : ServerLoop}
    {label : ServerEnv × ServerInput} (hl : LoopInvariant I E l)
    (hs : l.running = true → I l.session → Start label.2 l.session)
    (hstep : step P l label = some l') : LoopInvariant I E l' := by
  obtain ⟨env, input⟩ := label
  unfold Server.step at hstep
  by_cases hen : (l.running && enabled l.session input) = true
  · simp only [hen, if_true] at hstep
    have hrun : l.running = true := by simp_all
    obtain ⟨hi, hp⟩ := hl.running hrun
    have hstart := hs hrun hi
    have hframe : ∀ own, LoopInvariant I E { l with session := { l.session with own } } := by
      intro own
      have hi' : I { l.session with own } :=
        h.app (.frame { Session.Frame.refl l.session with }) hi
      exact ⟨fun _ => ⟨hi', hp⟩, h.inv_err hi'⟩
    cases input <;> cases hstep <;>
      first | exact hframe _ | exact h.afterTurn hstart hp
  · simp [hen] at hstep

/-- The first state of the loop. -/
theorem start (h : ServerRules P Start I E Mid Done Fresh) {env : ServerEnv}
    {config : ServerConfig} {remoteSshid : Bytes} (he : E (newSession config remoteSshid))
    (hb : ∀ rng t, (newSession config remoteSshid).beginRekey serverStart P rng = .ok t → I t) :
    LoopInvariant I E (start P env config remoteSshid) := by
  have hstart : wp (do beginRekey P env; (flush (P := P) env).run)
      (fun _ t => I t ∧ NoPending t) (fun _ t => E t) (newSession config remoteSshid) := by
    rw [wp_bind]
    refine wp_beginRekeyWith (fun t hr => ?_) fun _ => he
    have hi := hb _ t hr
    obtain ⟨kex, w, -, rfl⟩ := Session.beginRekey_eq_ok hr
    exact h.run_app _ hi rfl
  unfold wp at hstart
  unfold Server.start
  split
  · rename_i t hr
    rw [hr] at hstart
    exact ⟨fun _ => hstart, h.inv_err hstart.1⟩
  · rename_i e t hr
    rw [hr] at hstart
    exact ⟨fun hrun => by simp at hrun, hstart⟩

/-- An invariant that the rules keep holds in every state of every run whose steps meet
`Cond`. -/
theorem run (h : ServerRules P Start I E Mid Done Fresh)
    (Cond : ServerLoop → ServerEnv × ServerInput → Prop)
    (hcond : ∀ l label, Cond l label → l.running = true → I l.session → Start label.2 l.session)
    {l l' : ServerLoop} {labels : List (ServerEnv × ServerInput)} (hl : LoopInvariant I E l)
    (hal : Along (Server.step P) Cond l labels)
    (hrun : Run.run (Server.step P) l labels = some l') :
    LoopInvariant I E l' :=
  run_invariant (fun s label _ hs hc hstep => h.step hs (hcond s label hc) hstep) labels l l' hl hal
    hrun

end ServerRules

/-- What an invariant has to meet that calm steps keep. The packets that are ignored or belong to
the key exchange say nothing to it. -/
structure ServerCalm (P : Primitives) (Start : ServerInput → ServerSession → Prop)
    (I E : ServerSession → Prop) (Mid : Bytes → ServerSession → Prop) : Prop where
  start_frame {s t input} : s.Frame t → Start input s → Start input t
  start_inv {s input} : Start input s → I s
  inv_end {s} : I s → E s
  calm {s t} : Calm s t → I s → I t
  app {s t} : AppStep serverStart P none s t → I s → I t
  received {s t payload buf} : Opened P payload buf s t → Start (.packet payload) s →
    Mid buf (t.record (.received buf))
  mid_calm {s t buf} : Calm s t → t.common.encrypted = s.common.encrypted → Mid buf s → Mid buf t
  mid_end {s buf} : Mid buf s → E s
  mid_skip {s buf} : (isIgnored buf || isKexMsg buf) = true → Mid buf s → I s
  process {s buf} (env : ServerEnv) : Mid buf s →
    wp (processPacket P env buf) (fun _ t => I t) (fun _ t => E t) s

theorem calm_initCompression (s : ServerSession) : Calm s (initCompression s) := by
  unfold initCompression
  cases hc : s.common.encrypted with
  | none => exact .of_same rfl rfl rfl (fun _ => rfl) (fun _ => .inl rfl) id
  | some enc =>
    refine .of_same rfl rfl rfl (fun id => ?_) (fun _ => .inl rfl) (by simp)
    rw [Session.entries_eq hc]
    rfl

namespace ServerCalm

variable {Start : ServerInput → ServerSession → Prop} {I E : ServerSession → Prop}
  {Mid : Bytes → ServerSession → Prop} {s : ServerSession}

theorem mid_kex {buf : Bytes} (h : ServerCalm P Start I E Mid) (hb : isKexMsg buf = true)
    (hs : Mid buf s) : I s :=
  h.mid_skip (by simp [hb]) hs

/-- The rules of the loop. -/
theorem rules (h : ServerCalm P Start I E Mid) :
    ServerRules P Start I E Mid (fun _ => I) I where
  start_frame := h.start_frame
  start_inv := h.start_inv
  inv_err := h.inv_end
  app := h.app
  opened ho hs := h.calm (.opened ho) (h.start_inv hs)
  received := h.received
  mid_frame hf := h.mid_calm (.of_frame hf) hf.encrypted
  mid_err := h.mid_end
  ignored hb hs := h.mid_skip (by simp [hb]) hs
  begin _ _ _ hb hs := h.mid_calm (.beginRekey hb) (Session.beginRekey_encrypted hb) hs
  process env _ _ hs := h.process env hs
  kex_error {s _ _ _ _ _ _ w} hb _ hk hs := by
    have hcalm : Calm s ({ s with kex := .taken }.setWriter w) :=
      .kex ((ServerKex.step_writes _ _).of_error hk) rfl rfl rfl rfl rfl
    exact h.inv_end (h.calm hcalm (h.mid_kex hb hs))
  kex_next {s _ _ _ _ _ kex' reset w} hb _ hk hs := by
    refine h.calm (.kex ((ServerKex.step_writes _ _).of_ok hk) ?_ ?_ ?_ rfl ?_) (h.mid_kex hb hs) <;>
      cases reset <;> rfl
  kex_done hb _ hk hs := h.calm (.kex ((ServerKex.step_writes _ _).of_ok hk) rfl rfl rfl rfl rfl)
    (h.mid_kex hb hs)
  done_app := h.app
  done_err := h.inv_end
  done_bytes hs := h.calm (.setWriter _ rfl) hs
  rekeyed {s newkeys} _ hs := h.calm (Calm.newkeys newkeys) hs
  keyed now hnone hs := h.calm (.initEncrypted _ _ now hnone) hs
  fresh_app := h.app
  fresh_err := h.inv_end
  settled {s} hs := h.calm (.of_same (s := s) rfl rfl rfl (fun _ => rfl) (fun _ => .inl rfl) id) hs

/-- What holds in the first session holds in every state of every run whose steps meet `Cond`. -/
theorem run (h : ServerCalm P Start I E Mid) (Cond : ServerLoop → ServerEnv × ServerInput → Prop)
    (hcond : ∀ l label, Cond l label → l.running = true → I l.session → Start label.2 l.session)
    {env : ServerEnv} {config : ServerConfig} {remoteSshid : Bytes}
    {labels : List (ServerEnv × ServerInput)} {l : ServerLoop}
    (hnew : I (newSession config remoteSshid))
    (hal : Along (Server.step P) Cond (Server.start P env config remoteSshid) labels)
    (hrun : Run.run (Server.step P) (Server.start P env config remoteSshid) labels = some l) :
    LoopInvariant I E l :=
  h.rules.run Cond hcond
    (h.rules.start (h.inv_end hnew) fun _ _ hb => h.calm (.beginRekey hb) hnew) hal hrun

end ServerCalm

end Server

end Edgessh.Russh
