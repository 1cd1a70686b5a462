import Edgessh.Russh.Client.Run
import Edgessh.Russh.Session.Calm

/-!
# Invariants of the client's event loop

A turn of the loop is made of steps of `AppStep` and of a few commands of the key exchange.
`ClientRules` says what an invariant has to meet for each of them; `turn_invariant` puts them
together, and `run_invariant` is the induction over the turns.
-/

namespace Edgessh.Russh
open Edgessh.Command Edgessh.Run Relation

namespace Client

variable {P : Primitives}

/-- What an invariant `I` of the loop has to meet. A turn begins in `Start`; `Mid buf` holds from
the moment at which the packet `buf` has been read to that at which it is worked on, `Done` from
the end of an exchange to the moment at which its keys are taken into use. A turn that fails ends
in `E`. -/
structure ClientRules (P : Primitives) (Start : ClientInput → ClientSession → Prop)
    (I E : ClientSession → Prop) (Mid : Bytes → ClientSession → Prop)
    (Done : Option PublicKey → NewKeys → ClientSession → Prop) : Prop where
  start_frame {s t input} : s.Frame t → Start input s → Start input t
  start_inv {s input} : Start input s → I s
  inv_err {s} : I s → E s
  app {s t} : AppStep clientStart P none s t → I s → I t
  service {s w enc accepted} (_ : s.kex.active = false) (_ : s.common.encrypted = some enc)
    (_ : enc.state = .waitingAuthServiceRequest false accepted)
    (_ : outputPacket P (.serviceRequest (ascii "ssh-userauth")) s.common.packetWriter = .ok () w) :
    I s → I ((s.setWriter w).setEncrypted
      { enc with state := .waitingAuthServiceRequest true accepted })
  authenticate {s} (user : Bytes) (method : Option AuthMethod) : I s →
    I { s with common := { s.common with authUser := user, authMethod := method } }
  request {s enc before m} (request : AuthRequest) (_ : s.common.encrypted = some enc)
    (_ : enc.state.isAuthenticated = false) (_ : m.isAuthRequest = true)
    (_ : s.events = before ++ [.wrote m]) :
    I s → I (s.setEncrypted { enc with state := .waitingAuthRequest request })
  compress {s} : I s → I (initCompression s)
  opened {s t payload buf} : Opened P payload buf s t → Start (.packet payload) s → I t
  received {s t payload buf} : Opened P payload buf s t → Start (.packet payload) s →
    Mid buf (t.record (.received buf))
  mid_frame {s t buf} : s.Frame t → Mid buf s → Mid buf t
  mid_err {s buf} : Mid buf s → E s
  ignored {s buf} : isIgnored buf = true → Mid buf s → I s
  begin {s t buf} (rng : Entropy) (_ : buf.head? = some Msg.kexInit) (_ : s.kex.active = false)
    (_ : s.beginRekey clientStart P rng = .ok t) : Mid buf s → Mid buf t
  process {s buf} (env : ClientEnv) (_ : isIgnored buf = false)
    (_ : isKexMsg buf = true → ∀ kex, s.kex ≠ .inProgress kex) : Mid buf s →
    wp (processPacket (P := P) env buf).run (fun _ t => I t) (fun _ t => E t) s.enter
  kex_error {s buf kex rng seqn e w} (_ : isKexMsg buf = true) (_ : s.kex = .inProgress kex)
    (_ : kex.step P rng (some ⟨buf, seqn⟩) s.common.packetWriter = .error e w) : Mid buf s →
    E ({ s with kex := .taken }.setWriter w)
  kex_next {s buf kex rng seqn kex' reset w} (_ : isKexMsg buf = true)
    (_ : s.kex = .inProgress kex)
    (_ : kex.step P rng (some ⟨buf, seqn⟩) s.common.packetWriter =
      .ok (.needsReply kex' reset) w) : Mid buf s →
    I (continueKex kex' reset (s.setWriter w))
  kex_done {s buf kex rng seqn key newkeys w} (_ : isKexMsg buf = true)
    (_ : s.kex = .inProgress kex)
    (_ : kex.step P rng (some ⟨buf, seqn⟩) s.common.packetWriter = .ok (.done key newkeys) w) :
    Mid buf s → Done key newkeys
      { s with
        kex := .taken
        common := { s.common with
          packetWriter := w
          strictKex := s.common.strictKex || newkeys.names.strictKex } }
  done_app {s t key newkeys} : AppStep clientStart P none s t → Done key newkeys s →
    Done key newkeys t
  done_err {s key newkeys} : Done key newkeys s → E s
  done_bytes {s key newkeys} : Done key newkeys s →
    Done key newkeys (s.setWriter { s.common.packetWriter with bytes := 0 })
  rekeyed {s key newkeys} (_ : s.common.encrypted.isSome = true) : Done key newkeys s →
    I { s with common := s.common.newkeys newkeys, kex := .idle }
  asked {s key newkeys} (_ : s.common.encrypted = none) : Done (some key) newkeys s →
    E (s.record (.clientCallback (.checkServerKey key)))
  rejected {s key newkeys} (_ : s.common.encrypted = none) : Done (some key) newkeys s →
    E ((s.record (.clientCallback (.checkServerKey key))).record (.serverKeyChecked key false))
  accepted {s key newkeys} (now : Nat) (_ : s.common.encrypted = none) :
    Done (some key) newkeys s →
    I { initKeys newkeys now ((s.record (.clientCallback (.checkServerKey key))).record
      (.serverKeyChecked key true)) with kex := .idle }
  keyless {s newkeys} (now : Nat) (_ : s.common.encrypted = none) : Done none newkeys s →
    I { initKeys newkeys now s with kex := .idle }

namespace ClientRules

variable {Start : ClientInput → ClientSession → Prop} {I E : ClientSession → Prop}
  {Mid : Bytes → ClientSession → Prop}
  {Done : Option PublicKey → NewKeys → ClientSession → Prop} {s : ClientSession} {env : ClientEnv}

theorem run_app {α : Type} (h : ClientRules P Start I E Mid Done) (m : ClientAppM P α)
    (hs : I s) (hp : NoPending s) :
    wp m.run (fun _ t => I t ∧ NoPending t) (fun _ t => E t) s :=
  wp_mono
    (Confined.wp_invariant (I := fun t => I t ∧ NoPending t)
      (fun _ _ hstep ht => ⟨h.app hstep ht.1, ht.2.app hstep⟩) m ⟨hs, hp⟩)
    (fun _ _ ht => ht) fun _ _ ht => h.inv_err ht.1

theorem run_done {α : Type} {key : Option PublicKey} {newkeys : NewKeys}
    (h : ClientRules P Start I E Mid Done) (m : ClientAppM P α) (hs : Done key newkeys s)
    (hp : NoPending s) :
    wp m.run (fun _ t => Done key newkeys t ∧ NoPending t) (fun _ t => E t) s :=
  wp_mono
    (Confined.wp_invariant (I := fun t => Done key newkeys t ∧ NoPending t)
      (fun _ _ hstep ht => ⟨h.done_app hstep ht.1, ht.2.app hstep⟩) m ⟨hs, hp⟩)
    (fun _ _ ht => ht) fun _ _ ht => h.done_err ht.1

/-- The session stays encrypted. -/
theorem run_rekeyed {α : Type} {key : Option PublicKey} {newkeys : NewKeys}
    (h : ClientRules P Start I E Mid Done) (m : ClientAppM P α) (hs : Done key newkeys s)
    (hp : NoPending s) (he : s.common.encrypted.isSome = true) :
    wp m.run (fun _ t => Done key newkeys t ∧ NoPending t ∧ t.common.encrypted.isSome = true)
      (fun _ t => E t) s :=
  wp_mono
    (Confined.wp_invariant
      (I := fun t => Done key newkeys t ∧ NoPending t ∧ t.common.encrypted.isSome = true)
      (fun _ _ hstep ht => ⟨h.done_app hstep ht.1, ht.2.1.app hstep, by
        rw [hstep.kept.encrypted_isSome]
        exact ht.2.2⟩) m ⟨hs, hp, he⟩)
    (fun _ _ ht => ht) fun _ _ ht => h.done_err ht.1

/-- A request may be written only before the authentication has succeeded. -/
theorem isWaiting (h : ClientRules P Start I E Mid Done) (hk : s.kex.active = false) (hs : I s)
    (hp : NoPending s) :
    wp (isWaiting P) (fun waiting t => I t ∧ NoPending t ∧ (waiting = true →
      ∃ enc, t.common.encrypted = some enc ∧ enc.state.isAuthenticated = false))
      (fun _ t => E t) s := by
  unfold Client.isWaiting
  rw [wp_bind, wp_get]
  split
  · exact ⟨hs, hp, fun hw => by cases hw⟩
  · rename_i enc hc
    split
    · rename_i request hst
      exact ⟨hs, hp, fun _ => ⟨enc, hc, by rw [hst]; rfl⟩⟩
    · rename_i accepted hst
      exact ⟨hs, hp, fun _ => ⟨enc, hc, by rw [hst]; rfl⟩⟩
    · rename_i accepted hst
      simp only [requestService, wp_bind, onWriter, wp_zoom, wp_modify, wp_pure]
      unfold wp
      split
      · rename_i w hw
        exact ⟨h.service hk hc hst hw hs, hp, fun _ => ⟨_, rfl, rfl⟩⟩
      · rename_i e w hw
        obtain rfl : w = s.common.packetWriter := outputPacket_error hw
        exact h.inv_err hs
    · exact ⟨hs, hp, fun hw => by cases hw⟩
    · exact ⟨hs, hp, fun hw => by cases hw⟩

theorem sendAuthRequest (h : ClientRules P Start I E Mid Done) (waiting : Bool) (user : Bytes)
    (method : AuthMethod) (hwaiting : waiting = true → ∃ enc, s.common.encrypted = some enc ∧
      enc.state.isAuthenticated = false) (hs : I s) (hp : NoPending s) :
    wp (sendAuthRequest P waiting user method) (fun _ t => I t ∧ NoPending t)
      (fun _ t => E t) s := by
  unfold Client.sendAuthRequest
  split
  · rename_i hw
    obtain ⟨enc, hc, hst⟩ := hwaiting hw
    rw [wp_bind]
    refine AppM.wp_push (fun enc' hc' => ?_) fun hnone => absurd hc (by simp [hnone])
    obtain rfl : enc = enc' := Option.some.inj (hc.symm.trans hc')
    have hwrote : AppStep clientStart P none s
        (s.wrote (enc.push (authRequest user method)) [authRequest user method]) :=
      .write hc (.push (isQuiet_authRequest user method))
    exact ⟨h.request (AuthRequest.new method) rfl hst (isAuthRequest_authRequest user method)
      (Session.events_wrote ..) (h.app hwrote hs), hp⟩
  · exact ⟨hs, hp⟩

theorem handleMsg (h : ClientRules P Start I E Mid Done) (m : ClientMsg)
    (hk : s.kex.active = false) (hs : I s) (hp : NoPending s) :
    wp (handleMsg P env m) (fun _ t => I t ∧ NoPending t) (fun _ t => E t) s := by
  have happ : ∀ m, wp (handleAppMsg P env m).run (fun _ t => I t ∧ NoPending t)
      (fun _ t => E t) s := fun m => h.run_app _ hs hp
  cases m with
  | authenticate user method =>
    simp only [Client.handleMsg, writeAuthRequestIfNeeded, wp_bind]
    refine wp_mono (h.isWaiting hk hs hp) (fun waiting t ht => ?_) fun _ _ ht => ht
    refine wp_seq (h.sendAuthRequest waiting user method ht.2.2 ht.1 ht.2.1) fun _ u hu => ?_
    rw [wp_bind, wp_modify, wp_pure]
    exact ⟨h.authenticate user (some method) hu.1, hu.2⟩
  | _ => exact happ _

theorem takeMessages (h : ClientRules P Start I E Mid Done) (n : Nat) (hs : I s)
    (hp : NoPending s) :
    wp (takeMessages P env n) (fun _ t => I t ∧ NoPending t) (fun _ t => E t) s := by
  induction n generalizing s with
  | zero => exact ⟨hs, hp⟩
  | succ n ih =>
    unfold Client.takeMessages
    rw [wp_bind, wp_get]
    split
    · exact ⟨hs, hp⟩
    · rename_i m ms hm
      split
      · exact ⟨hs, hp⟩
      · rename_i hk
        simp only [wp_bind, wp_set]
        refine wp_mono (h.handleMsg m ?_ ?_ ?_) (fun _ t ht => ih ht.1 ht.2) fun _ _ ht => ht
        · simpa using hk
        · exact h.app (.frame { Session.Frame.refl s with }) hs
        · exact hp

theorem takeInboundMessages (h : ClientRules P Start I E Mid Done) (n : Nat) (hs : I s)
    (hp : NoPending s) :
    wp (takeInboundMessages P env n) (fun _ t => I t ∧ NoPending t) (fun _ t => E t) s := by
  induction n generalizing s with
  | zero => exact ⟨hs, hp⟩
  | succ n ih =>
    unfold Client.takeInboundMessages
    rw [wp_bind, wp_get]
    split
    · exact ⟨hs, hp⟩
    · rename_i m ms hm
      split
      · exact ⟨hs, hp⟩
      · rename_i hk
        simp only [wp_bind, wp_set]
        refine wp_mono (h.handleMsg m ?_ ?_ ?_) (fun _ t ht => ih ht.1 ht.2) fun _ _ ht => ht
        · simpa using hk
        · exact h.app (.frame { Session.Frame.refl s with }) hs
        · exact hp

theorem checkHostKey {key : Option PublicKey} {newkeys : NewKeys}
    (h : ClientRules P Start I E Mid Done) (hs : Done key newkeys s) (hp : NoPending s)
    (he : s.common.encrypted = none) :
    wp (checkHostKey env key)
      (fun _ t => ∀ now, I { initKeys newkeys now t with kex := .idle } ∧ NoPending t)
      (fun _ t => E t) s := by
  cases key with
  | none => exact fun now => ⟨h.keyless now he hs, hp⟩
  | some key =>
    simp only [Client.checkHostKey, checkServerKey, wp_bind, wp_modify]
    rw [wp_get, wp_bind, wp_ofExcept, wpExcept_mapError]
    refine wpExcept_iff.mpr ⟨fun check _ => ?_, fun e _ => h.asked he hs⟩
    rw [wp_bind, wp_modify]
    cases check with
    | true => exact fun now => ⟨h.accepted (s := s) now he hs, hp⟩
    | false => exact h.rejected (s := s) he hs

theorem installKeys {key : Option PublicKey} {newkeys : NewKeys}
    (h : ClientRules P Start I E Mid Done) (hs : Done key newkeys s) (hp : NoPending s) :
    wp (installKeys P env key newkeys)
      (fun _ t => I { t with kex := .idle } ∧ NoPending t) (fun _ t => E t) s := by
  unfold Client.installKeys
  rw [wp_bind, wp_get]
  cases hc : s.common.encrypted with
  | some enc =>
    simp only [wp_bind, wp_modify]
    refine wp_mono (h.run_rekeyed _ (h.done_bytes hs) hp ?_) (fun _ t ht => ?_) fun _ _ ht => ht
    · simp [Session.setWriter, hc]
    · obtain ⟨hd, hpt, het⟩ := ht
      rw [wp_bind, wp_get, hpt, wp_bind]
      have hi := h.rekeyed het hd
      cases t
      cases hpt
      exact ⟨hi, rfl⟩
  | none =>
    simp only [wp_bind]
    exact wp_mono (h.checkHostKey hs hp hc) (fun _ t ht => ht (env.now t)) fun _ _ ht => ht

theorem kexDone {key : Option PublicKey} {newkeys : NewKeys}
    (h : ClientRules P Start I E Mid Done)
    (hs : Done key newkeys { s with common := { s.common with
      strictKex := s.common.strictKex || newkeys.names.strictKex } }) (hp : NoPending s) :
    wp (kexDone P env key newkeys) (fun _ t => I t ∧ NoPending t) (fun _ t => E t) s := by
  simp only [Client.kexDone, wp_bind, wp_modify]
  refine wp_mono (h.run_done _ hs hp) (fun _ t ht => ?_) fun _ _ ht => ht
  exact wp_seq (h.installKeys ht.1 ht.2) fun _ u hu => hu

theorem kexReply {kex : ClientKex} {pkt : IncomingSshPacket} (h : ClientRules P Start I E Mid Done)
    (hb : isKexMsg pkt.buffer = true) (hk : s.kex = .inProgress kex) (hs : Mid pkt.buffer s)
    (hp : NoPending s) :
    wp (kexReply P env kex pkt) (fun _ t => I t ∧ NoPending t) (fun _ t => E t)
      { s with kex := .taken } := by
  unfold Client.kexReply
  rw [wp_bind, wp_get, wp_bind, onWriter, wp_zoom]
  have hstep : wp (kex.step P (env.entropy { s with kex := .taken }) (some pkt))
      (fun progress w => kex.step P (env.entropy { s with kex := .taken }) (some pkt)
        s.common.packetWriter = .ok progress w)
      (fun e w => kex.step P (env.entropy { s with kex := .taken }) (some pkt)
        s.common.packetWriter = .error e w) s.common.packetWriter := by
    unfold wp
    split <;> assumption
  refine wp_mono hstep (fun progress w hw => ?_) fun e w hw => h.kex_error hb hk hw hs
  cases progress with
  | needsReply kex' reset =>
    have hi := h.kex_next hb hk hw hs
    dsimp only
    rw [wp_bind, wp_modify, wp_bind]
    exact wp_mono (h.run_app (flush env) hi hp) (fun _ t ht => ht) fun _ _ ht => ht
  | done key newkeys =>
    have hd := h.kex_done hb hk hw hs
    dsimp only
    refine wp_seq (h.kexDone (s := { s with kex := .taken }.setWriter w) hd hp) fun _ t ht => ?_
    rw [wp_bind, wp_get, wp_bind]
    exact wp_mono (h.run_app (flush env) ht.1 ht.2) (fun _ u hu => hu) fun _ _ hu => hu

theorem beginIfAsked {buf : Bytes} (h : ClientRules P Start I E Mid Done) (hs : Mid buf s)
    (hp : NoPending s) :
    wp (beginIfAsked P env buf) (fun _ t => Mid buf t ∧ NoPending t) (fun _ t => E t) s := by
  unfold Client.beginIfAsked
  rw [wp_bind, wp_get]
  split
  · rename_i hk
    refine wp_beginRekeyWith (fun t hb => ?_) fun _ => h.mid_err hs
    have hm := h.begin _ hk.1 hk.2 hb hs
    obtain ⟨kex, w, -, rfl⟩ := Session.beginRekey_eq_ok hb
    exact ⟨hm, hp⟩
  · exact ⟨hs, hp⟩

theorem processPacket {buf : Bytes} (h : ClientRules P Start I E Mid Done)
    (hi : isIgnored buf = false) (hk : isKexMsg buf = true → ∀ kex, s.kex ≠ .inProgress kex)
    (hs : Mid buf s) (hp : NoPending s) :
    wp (Client.processPacket (P := P) env buf).run (fun _ t => I t ∧ NoPending t)
      (fun _ t => E t) s.enter := by
  have hinv := h.process env hi hk hs
  have hpend := Confined.wp_invariant (I := NoPending) (fun _ _ hstep ht => ht.app hstep)
    (Client.processPacket (P := P) env buf) hp.enter
  unfold wp at hinv hpend ⊢
  split <;> simp_all

theorem dispatch {pkt : IncomingSshPacket} (h : ClientRules P Start I E Mid Done)
    (hi : isIgnored pkt.buffer = false) (hs : Mid pkt.buffer s) (hp : NoPending s) :
    wp (dispatch P env pkt) (fun _ t => I t ∧ NoPending t) (fun _ t => E t) s := by
  unfold Client.dispatch
  refine wp_seq (h.beginIfAsked hs hp) fun _ t ht => ?_
  obtain ⟨hm, hpt⟩ := ht
  have hprocess : (isKexMsg pkt.buffer = true → ∀ kex, t.kex ≠ .inProgress kex) →
      wp (do
          modify Session.enter
          (Client.processPacket (P := P) env pkt.buffer).run
          pure pkt.seqn) (fun _ u => I u ∧ NoPending u) (fun _ u => E u) t := by
    intro hk
    rw [wp_bind, wp_modify, wp_bind]
    exact wp_mono (h.processPacket hi hk hm hpt) (fun _ u hu => hu) fun _ _ hu => hu
  unfold takeKexFor
  by_cases hb : isKexMsg pkt.buffer = true
  · rw [if_pos hb, wp_bind, takeKex, wp_bind, wp_get]
    cases hk : t.kex with
    | inProgress kex => exact h.kexReply hb hk hm hpt
    | idle => exact hprocess fun _ kex => by simp [hk]
    | taken => exact hprocess fun _ kex => by simp [hk]
  · rw [if_neg hb]
    exact hprocess fun hb' => absurd hb' hb

theorem reply {pkt : IncomingSshPacket} (h : ClientRules P Start I E Mid Done)
    (hd : pkt.buffer.head? ≠ some Msg.disconnect) (hs : Mid pkt.buffer s) (hp : NoPending s) :
    wp (reply P env pkt) (fun _ t => I t ∧ NoPending t) (fun _ t => E t) s := by
  unfold Client.reply
  rw [wp_bind]
  refine wp_checkStrictWith ?_ fun _ => h.mid_err hs
  split
  · rename_i hsk
    exact ⟨h.ignored (by simp [isIgnored, hsk]) hs, hp⟩
  · rename_i hsk
    exact h.dispatch (by simp [isIgnored, hsk, hd]) hs hp

theorem readPacket (h : ClientRules P Start I E Mid Done) (seqn : UInt32) (payload : Bytes)
    (hs : Start (.packet payload) s) (hp : NoPending s) :
    wp (readPacket P env seqn payload) (Ended I E) (fun _ t => E t) s := by
  unfold Client.readPacket
  rw [wp_bind]
  refine wp_mono (wp_maybeDecompress seqn payload s) (fun pkt t ht => ?_) fun _ t ht => ?_
  swap
  · rw [ht]
    exact h.inv_err (h.start_inv hs)
  obtain ⟨hopen, hpt⟩ := ht
  rw [hp] at hpt
  rcases pkt with ⟨buffer, n⟩
  cases buffer with
  | nil => exact ⟨h.opened hopen hs, hpt⟩
  | cons msg r =>
    have hm := h.received hopen hs
    have hpu : NoPending (t.record (.received (msg :: r))) := hpt
    dsimp only
    rw [wp_bind, wp_modify]
    generalize t.record (.received (msg :: r)) = u at hm hpu
    split
    · rename_i hd
      rw [wp_bind, wp_modify]
      have hignored : isIgnored (msg :: r) = true := by simp [isIgnored, hd]
      refine ⟨h.ignored hignored ?_, hpu⟩
      exact h.mid_frame { Session.Frame.refl u with } hm
    · rename_i hd
      rw [wp_bind, wp_modify, wp_bind]
      have hhead : (msg :: r).head? ≠ some Msg.disconnect := by simpa using hd
      refine wp_mono (h.reply hhead ?_ hpu)
        (fun _ u hu => hu) fun _ _ hu => hu
      exact h.mid_frame { Session.Frame.refl u with } hm

theorem keepaliveTimer (h : ClientRules P Start I E Mid Done) (hs : I s) (hp : NoPending s) :
    wp (keepaliveTimer P) (fun _ t => I t ∧ NoPending t) (fun _ t => E t) s := by
  have hi : I { s with common := { s.common with aliveTimeouts := s.common.aliveTimeouts + 1 } } :=
    h.app (.frame { Session.Frame.refl s with }) hs
  unfold Client.keepaliveTimer
  rw [wp_bind, wp_modify, wp_bind, wp_get]
  split
  · exact h.inv_err hi
  · exact h.run_app _ hi hp

theorem select (h : ClientRules P Start I E Mid Done) (seqn : UInt32) (input : ClientInput)
    (hs : Start input s) (hp : NoPending s) :
    wp (select P env seqn input) (Ended I E) (fun _ t => E t) s := by
  have hi := h.start_inv hs
  cases input with
  | packet payload => exact h.readPacket _ payload hs hp
  | shortPacket => exact h.inv_err hi
  | readError e => exact h.inv_err hi
  | keepaliveTimer =>
    simp only [Client.select, wp_bind]
    exact wp_mono (h.keepaliveTimer hi hp) (fun _ _ ht => ht) fun _ _ ht => ht
  | inactivityTimer => exact h.inv_err hi
  | receive =>
    simp only [Client.select, wp_bind, wp_get]
    split
    · rw [wp_bind, wp_modify]
      exact h.inv_err (h.app (.frame { Session.Frame.refl s with }) hi)
    · exact wp_seq (h.takeMessages _ hi hp) fun _ _ ht => ht
  | receiveInbound =>
    simp only [Client.select, wp_bind, wp_get]
    exact wp_mono (h.takeInboundMessages _ hi hp) (fun _ _ ht => ht) fun _ _ ht => ht
  | send m => exact ⟨hi, hp⟩
  | sendInbound m => exact ⟨hi, hp⟩
  | dropHandles => exact ⟨hi, hp⟩

theorem endTurn (h : ClientRules P Start I E Mid Done) (hs : I s) (hp : NoPending s) :
    wp (endTurn P env) (fun _ t => I t ∧ NoPending t) (fun _ t => E t) s := by
  unfold Client.endTurn
  refine wp_seq (h.run_app _ hs hp) fun _ t ht => ?_
  rw [wp_bind, wp_modify, wp_modify]
  have hc : I (initCompression t) ∧ NoPending (initCompression t) := by
    refine ⟨h.compress ht.1, ?_⟩
    have hpt := ht.2
    unfold initCompression NoPending at *
    split
    · split <;> exact hpt
    · exact hpt
  split
  · exact ⟨h.app (.frame { Session.Frame.refl (initCompression t) with }) hc.1, hc.2⟩
  · exact hc

theorem turn (h : ClientRules P Start I E Mid Done) (seqn : UInt32) (input : ClientInput)
    (hs : Start input s) (hp : NoPending s) :
    wp (turn P env seqn input) (Ended I E) (fun _ t => E t) s := by
  unfold Client.turn
  rw [wp_bind, wp_modify, wp_bind]
  refine wp_mono (h.select seqn input (h.start_frame { Session.Frame.refl s with } hs) hp)
    (fun result t ht => ?_) fun _ _ ht => ht
  cases result with
  | stop => exact ht
  | next n =>
    simp only [wp_bind]
    exact wp_mono (h.endTurn ht.1 ht.2) (fun _ _ hu => hu) fun _ _ hu => hu
  | disconnected r =>
    simp only [wp_bind]
    exact wp_mono (h.endTurn ht.1 ht.2) (fun _ _ hu => hu) fun _ _ hu => hu

end ClientRules

/-- The invariant of the loop: `I` while it runs, `E` when it has ended. -/
structure LoopInvariant (I E : ClientSession → Prop) (l : ClientLoop) : Prop where
  running : l.running = true → I l.session ∧ NoPending l.session
  ended : E l.session

namespace ClientRules

variable {Start : ClientInput → ClientSession → Prop} {I E : ClientSession → Prop}
  {Mid : Bytes → ClientSession → Prop}
  {Done : Option PublicKey → NewKeys → ClientSession → Prop}

theorem afterTurn (h : ClientRules P Start I E Mid Done) {l : ClientLoop} {env : ClientEnv}
    {input : ClientInput} (hs : Start input l.session) (hp : NoPending l.session) :
    LoopInvariant I E (afterTurn l (Client.turn P env l.seqn input l.session)) := by
  have ht : wp (Client.turn P env l.seqn input) (Ended I E) (fun _ t => E t) l.session :=
    h.turn l.seqn input hs hp
  unfold wp at ht
  cases hr : Client.turn P env l.seqn input l.session with
  | error e s =>
    rw [hr] at ht
    exact ⟨fun hrun => by simp [Client.afterTurn] at hrun, ht⟩
  | ok result s =>
    rw [hr] at ht
    cases result with
    | stop => exact ⟨fun hrun => by simp [Client.afterTurn] at hrun, ht⟩
    | next n => exact ⟨fun _ => ht, h.inv_err ht.1⟩
    | disconnected r => exact ⟨fun hrun => by simp [Client.afterTurn] at hrun, h.inv_err ht.1⟩

/-- One step of the loop, from a state in which `Start` holds. -/
theorem step (h : ClientRules P Start I E Mid Done) {l l' : ClientLoop}
    {label : ClientEnv × ClientInput} (hl : LoopInvariant I E l)
    (hs : l.running = true → I l.session → Start label.2 l.session)
    (hstep : step P l label = some l') : LoopInvariant I E l' := by
  obtain ⟨env, input⟩ := label
  unfold Client.step at hstep
  by_cases hen : (l.running && enabled l.session input) = true
  · simp only [hen, if_true] at hstep
    have hrun : l.running = true := by simp_all
    obtain ⟨hi, hp⟩ := hl.running hrun
    have hstart := hs hrun hi
    have hframe : ∀ own, LoopInvariant I E { l with session := { l.session with own } } := by
      intro own
      have hi' : I { l.session with own } :=
        h.app (.frame { Session.Frame.refl l.session with }) hi
      exact ⟨fun _ => ⟨hi', hp⟩, h.inv_err hi'⟩
    cases input <;> cases hstep <;>
      first | exact hframe _ | exact h.afterTurn hstart hp
  · simp [hen] at hstep

/-- The first state of the loop. -/
theorem start (h : ClientRules P Start I E Mid Done) {env : ClientEnv} {config : ClientConfig}
    {remoteSshid : Bytes} (he : E (newSession config remoteSshid))
    (hb : ∀ rng t, (newSession config remoteSshid).beginRekey clientStart P rng = .ok t → I t) :
    LoopInvariant I E (start P env config remoteSshid) := by
  have hstart : wp (do beginRekey P env; (flush (P := P) env).run)
      (fun _ t => I t ∧ NoPending t) (fun _ t => E t) (newSession config remoteSshid) := by
    rw [wp_bind]
    refine wp_beginRekeyWith (fun t hr => ?_) fun _ => he
    have hi := hb _ t hr
    obtain ⟨kex, w, -, rfl⟩ := Session.beginRekey_eq_ok hr
    exact h.run_app _ hi rfl
  unfold wp at hstart
  unfold Client.start
  split
  · rename_i t hr
    rw [hr] at hstart
    exact ⟨fun _ => hstart, h.inv_err hstart.1⟩
  · rename_i e t hr
    rw [hr] at hstart
    exact ⟨fun hrun => by simp at hrun, hstart⟩

/-- An invariant that the rules keep holds in every state of every run whose steps meet
`Cond`. -/
theorem run (h : ClientRules P Start I E Mid Done)
    (Cond : ClientLoop → ClientEnv × ClientInput → Prop)
    (hcond : ∀ l label, Cond l label → l.running = true → I l.session → Start label.2 l.session)
    {l l' : ClientLoop} {labels : List (ClientEnv × ClientInput)} (hl : LoopInvariant I E l)
    (hal : Along (Client.step P) Cond l labels)
    (hrun : Run.run (Client.step P) l labels = some l') :
    LoopInvariant I E l' :=
  run_invariant (fun s label _ hs hc hstep => h.step hs (hcond s label hc) hstep) labels l l' hl hal
    hrun

end ClientRules

/-- What an invariant has to meet that calm steps keep. The packets that are ignored or belong to
the key exchange say nothing to it. -/
structure ClientCalm (P : Primitives) (Start : ClientInput → ClientSession → Prop)
    (I E : ClientSession → Prop) (Mid : Bytes → ClientSession → Prop) : Prop where
  start_frame {s t input} : s.Frame t → Start input s → Start input t
  start_inv {s input} : Start input s → I s
  inv_end {s} : I s → E s
  calm {s t} : Calm s t → I s → I t
  app {s t} : AppStep clientStart P none s t → I s → I t
  received {s t payload buf} : Opened P payload buf s t → Start (.packet payload) s →
    Mid buf (t.record (.received buf))
  mid_calm {s t buf} : Calm s t → t.common.encrypted = s.common.encrypted → Mid buf s → Mid buf t
  mid_end {s buf} : Mid buf s → E s
  mid_skip {s buf} : (isIgnored buf || isKexMsg buf) = true → Mid buf s → I s
  process {s buf} (env : ClientEnv) : Mid buf s →
    wp (processPacket (P := P) env buf).run (fun _ t => I t) (fun _ t => E t) s

namespace ClientCalm

variable {Start : ClientInput → ClientSession → Prop} {I E : ClientSession → Prop}
  {Mid : Bytes → ClientSession → Prop} {s : ClientSession}

theorem mid_kex {buf : Bytes} (h : ClientCalm P Start I E Mid) (hb : isKexMsg buf = true)
    (hs : Mid buf s) : I s :=
  h.mid_skip (by simp [hb]) hs

theorem idle (h : ClientCalm P Start I E Mid) (hs : I s) : I { s with kex := .idle } :=
  h.calm (.of_same (s := s) rfl rfl rfl (fun _ => rfl) (fun _ => .inl rfl) id) hs

/-- The host key of the initial exchange is shown to the application. -/
theorem checked {key : PublicKey} (ok : Bool) (h : ClientCalm P Start I E Mid) (hs : I s) :
    I ((s.record (.clientCallback (.checkServerKey key))).record (.serverKeyChecked key ok)) :=
  h.calm (.record (by simp [Event.isCalm]))
    (h.calm (.record (by simp [Event.isCalm])) hs)

theorem keyed {newkeys : NewKeys} (now : Nat) (h : ClientCalm P Start I E Mid)
    (hnone : s.common.encrypted = none) (hs : I s) :
    I { initKeys newkeys now s with kex := .idle } :=
  h.idle (h.calm (.initEncrypted (initialEncryptedState s) newkeys now hnone) hs)

theorem compress (h : ClientCalm P Start I E Mid) (hs : I s) : I (initCompression s) := by
  unfold initCompression
  cases hc : s.common.encrypted with
  | none => exact hs
  | some enc =>
    dsimp only
    split
    · exact h.calm (.setSealed (.setWriter _ rfl) hc rfl) hs
    · exact hs

/-- The rules of the loop. -/
theorem rules (h : ClientCalm P Start I E Mid) :
    ClientRules P Start I E Mid (fun _ _ => I) where
  start_frame := h.start_frame
  start_inv := h.start_inv
  inv_err := h.inv_end
  app := h.app
  service {s w enc accepted} _ hc _ hout hs := by
    have hw : Calm s (s.setWriter w) := by
      obtain ⟨-, -, ⟨-, rfl⟩ | ⟨-, -, hev⟩⟩ := packetRaw_eq_ok (outputPacket_eq_ok hout)
      · exact .setWriter _ rfl
      · exact ⟨rfl, ⟨_, hev, by simp [Event.isCalm]⟩, rfl, fun _ => rfl, fun _ => .inl rfl, id⟩
    exact h.calm (.setSealed hw hc rfl) hs
  authenticate {s} _ _ hs :=
    h.calm (.of_same (s := s) rfl rfl rfl (fun _ => rfl) (fun _ => .inl rfl) id) hs
  request _ hc _ _ _ hs := h.calm (.setEncrypted hc rfl) hs
  compress := h.compress
  opened ho hs := h.calm (.opened ho) (h.start_inv hs)
  received := h.received
  mid_frame hf := h.mid_calm (.of_frame hf) hf.encrypted
  mid_err := h.mid_end
  ignored hb hs := h.mid_skip (by simp [hb]) hs
  begin _ _ _ hb hs := h.mid_calm (.beginRekey hb) (Session.beginRekey_encrypted hb) hs
  process env _ _ hs := h.process env (h.mid_calm .enter (Session.encrypted_enter _) hs)
  kex_error {s _ _ _ _ _ w} hb _ hk hs := by
    have hcalm : Calm s ({ s with kex := .taken }.setWriter w) :=
      .kex ((ClientKex.step_writes _ _).of_error hk) rfl rfl rfl rfl rfl
    exact h.inv_end (h.calm hcalm (h.mid_kex hb hs))
  kex_next {s _ _ _ _ kex' reset w} hb _ hk hs := by
    refine h.calm (.kex ((ClientKex.step_writes _ _).of_ok hk) ?_ ?_ ?_ rfl ?_) (h.mid_kex hb hs) <;>
      cases reset <;> rfl
  kex_done hb _ hk hs := h.calm (.kex ((ClientKex.step_writes _ _).of_ok hk) rfl rfl rfl rfl rfl)
    (h.mid_kex hb hs)
  done_app := h.app
  done_err := h.inv_end
  done_bytes hs := h.calm (.setWriter _ rfl) hs
  rekeyed {_ _ newkeys} _ hs := h.idle (h.calm (.newkeys newkeys) hs)
  asked _ hs := h.inv_end (h.calm (.record (by simp [Event.isCalm])) hs)
  rejected _ hs := h.inv_end (h.checked false hs)
  accepted now hnone hs := h.keyed now hnone (h.checked true hs)
  keyless now hnone hs := h.keyed now hnone hs

/-- What holds in the first session holds in every state of every run whose steps meet `Cond`. -/
theorem run (h : ClientCalm P Start I E Mid) (Cond : ClientLoop → ClientEnv × ClientInput → Prop)
    (hcond : ∀ l label, Cond l label → l.running = true → I l.session → Start label.2 l.session)
    {env : ClientEnv} {config : ClientConfig} {remoteSshid : Bytes}
    {labels : List (ClientEnv × ClientInput)} {l : ClientLoop}
    (hnew : I (newSession config remoteSshid))
    (hal : Along (Client.step P) Cond (Client.start P env config remoteSshid) labels)
    (hrun : Run.run (Client.step P) (Client.start P env config remoteSshid) labels = some l) :
    LoopInvariant I E l :=
  h.rules.run Cond hcond
    (h.rules.start (h.inv_end hnew) fun _ _ hb => h.calm (.beginRekey hb) hnew) hal hrun

end ClientCalm

end Client

end Edgessh.Russh
