import Edgessh.Russh.Client.Clock
import Edgessh.Russh.Session.Calm

/-!
# The clock in a turn under wasm32

What `Client.Clock` shows of the programs of the client holds of a whole turn of its loop. The
commands of the key exchange read no clock: they are calm.
-/

namespace Edgessh.Russh
open Edgessh.Command

theorem Event.not_isBehind_of_isCalm {e : Event} (h : e.isCalm = true) : ¬e.isBehind = true := by
  cases e <;> simp_all [isCalm, isBehind]

namespace Client
open AppM

section Calm

variable {α : Type}

theorem logs_of_calm {s t : ClientSession} (h : Calm s t) :
    Logs Session.events (fun e => ¬e.isBehind = true) s t := by
  obtain ⟨new, hev, hcalm⟩ := h.events
  exact ⟨new, hev, fun e he => Event.not_isBehind_of_isCalm (hcalm e he)⟩

/-- A command of calm steps. -/
theorem cutShort_of_calm {m : ClientM α} (h : Steps Calm m) : CutShort m m :=
  .refl (h.mono fun _ _ => logs_of_calm)

theorem cutShort_modify {f : ClientSession → ClientSession} (h : ∀ s, (f s).events = s.events) :
    CutShort (modify f) (modify f) :=
  .of_modify fun s => .of_eq (h s)

theorem cutShort_record {e : Event} (h : ¬e.isBehind = true) :
    CutShort (modify (Session.record e)) (modify (Session.record e)) :=
  .of_modify fun _ => ⟨[e], rfl, by simpa using h⟩

/-- What the exchange does with the packet writer. -/
theorem cutShort_onWriter {m : WriterM α} (h : Steps KexWrites m) :
    CutShort (onWriter m) (onWriter m) := by
  refine cutShort_of_calm fun s => ?_
  rw [onWriter, wp_zoom]
  refine wp_mono (h s.common.packetWriter) (fun _ w hw => ?_) fun _ w hw => ?_
  · exact .kex hw rfl rfl rfl rfl rfl
  · exact .kex hw rfl rfl rfl rfl rfl

variable {P : Primitives}

/-- A packet that is sealed at once. -/
theorem cutShort_outputPacket (m : Message) :
    CutShort (onWriter (outputPacket P m)) (onWriter (outputPacket P m)) := by
  refine .refl fun s => ?_
  rw [onWriter, wp_zoom]
  unfold wp
  split
  · rename_i w hw
    obtain ⟨-, -, ⟨-, rfl⟩ | ⟨-, -, hev⟩⟩ := packetRaw_eq_ok (outputPacket_eq_ok hw)
    · exact .of_eq rfl
    · exact ⟨_, hev, by simp [Event.isBehind]⟩
  · rename_i e w hw
    rw [outputPacket_error hw]
    exact .of_eq rfl

theorem cutShort_beginRekey (env : ClientEnv) : CutShort (beginRekey P env) (beginRekey P env) := by
  refine cutShort_of_calm fun s => wp_beginRekeyWith (fun t ht => .beginRekey ht) fun _ => ?_
  exact .of_frame (.refl s)

theorem cutShort_maybeDecompress (seqn : UInt32) (payload : Bytes) :
    CutShort (maybeDecompress P seqn payload) (maybeDecompress P seqn payload) := by
  refine cutShort_of_calm fun s => ?_
  refine wp_mono (wp_maybeDecompress seqn payload s) (fun _ t ht => .opened ht.1) ?_
  rintro _ t rfl
  exact .of_frame (.refl t)

theorem cutShort_checkStrict (pkt : IncomingSshPacket) :
    CutShort (checkStrict pkt) (checkStrict pkt) :=
  cutShort_of_calm fun s => wp_checkStrictWith (.of_frame (.refl s)) fun _ => .of_frame (.refl s)

theorem cutShort_takeKexFor (buffer : Bytes) :
    CutShort (takeKexFor buffer : ClientM (Option ClientKex)) (takeKexFor buffer) := by
  refine .ite _ (.of_read fun s => ?_) (.of_pure none)
  cases s.kex with
  | idle => exact ⟨pure none, pure none, .of_pure none, rfl, rfl⟩
  | taken => exact ⟨pure none, pure none, .of_pure none, rfl, rfl⟩
  | inProgress kex =>
    exact ⟨_, _, .bind (cutShort_modify (f := fun s => { s with kex := .taken }) fun _ => rfl)
      fun _ => .of_pure (some kex), rfl, rfl⟩

theorem cutShort_enter : CutShort (modify Session.enter) (modify Session.enter) :=
  .of_modify fun _ => logs_of_calm .enter

end Calm

section Messages

variable {P : Primitives} (env : ClientEnv)

theorem cut_requestService (enc : Encrypted) (accepted : Bool) :
    CutShort (requestService (P.on .native) enc accepted)
      (requestService (P.on .wasm32) enc accepted) :=
  .bind (cutShort_outputPacket _) fun _ => cutShort_modify fun _ => rfl

theorem cut_isWaiting : CutShort (isWaiting (P.on .native)) (isWaiting (P.on .wasm32)) := by
  refine .bind .of_get fun s => ?_
  cases s.common.encrypted with
  | none => exact .of_pure false
  | some enc =>
    dsimp only
    cases enc.state with
    | waitingAuthRequest request => exact .of_pure true
    | waitingAuthServiceRequest sent accepted =>
      cases sent with
      | true => exact .of_pure accepted
      | false => exact .bind (cut_requestService enc accepted) fun _ => .of_pure accepted
    | initCompression => exact .of_pure false
    | authenticated => exact .of_pure false

theorem cut_sendAuthRequest (waiting : Bool) (user : Bytes) (method : AuthMethod) :
    CutShort (sendAuthRequest (P.on .native) waiting user method)
      (sendAuthRequest (P.on .wasm32) waiting user method) := by
  refine .ite _ (.bind (.of_eq rfl : Cut P none _ _) fun _ => ?_) (.of_pure ())
  refine cutShort_modify fun s => ?_
  unfold setAuthRequest
  split
  · rfl
  · rfl

theorem cut_handleAppMsg (m : ClientMsg) :
    Cut P none (handleAppMsg (P.on .native) env m) (handleAppMsg (P.on .wasm32) env m) := by
  cases m with
  | tcpIpForward dest address port => exact cut_forward _ _ dest _
  | cancelTcpIpForward dest address port => exact cut_forward _ _ dest _
  | streamLocalForward dest socketPath => exact cut_forward _ _ dest _
  | cancelStreamLocalForward dest socketPath => exact cut_forward _ _ dest _
  | disconnect reason description languageTag => exact cut_disconnect reason description languageTag
  | channel id msg => exact cut_handleChannelMsg id msg
  | rekey => exact cut_initiateRekey env
  | awaitExtensionInfo extensionName dest =>
    refine .bind (.of_eq rfl) fun enc => ?_
    cases enc with
    | none => exact .of_eq rfl
    | some enc => exact .ite _ (.of_eq rfl) (.of_eq rfl)
  | _ => exact .of_eq rfl

theorem cut_handleMsg (m : ClientMsg) :
    CutShort (handleMsg (P.on .native) env m) (handleMsg (P.on .wasm32) env m) := by
  cases m with
  | authenticate user method =>
    refine .bind ?_ fun _ => .of_pure ()
    refine .bind cut_isWaiting fun waiting => ?_
    refine .bind (cut_sendAuthRequest waiting user method) fun _ => ?_
    exact .bind (cutShort_modify fun _ => rfl) fun _ => .of_pure waiting
  | _ => exact cut_handleAppMsg env _

end Messages

section Exchange

variable {P : Primitives} (env : ClientEnv)

theorem cutShort_checkHostKey (key : Option PublicKey) :
    CutShort (checkHostKey env key) (checkHostKey env key) := by
  cases key with
  | none => exact .of_pure ()
  | some key =>
    refine .bind (cutShort_record (by simp [Event.isBehind])) fun _ => .bind .of_get fun s => ?_
    refine .bind (.of_ofExcept _) fun check => ?_
    refine .bind (cutShort_record (by simp [Event.isBehind])) fun _ => ?_
    exact .ite _ (.of_pure ()) (.of_throw _)

theorem cut_resumeAfterRekey :
    Cut P none (resumeAfterRekey (P.on .native) env) (resumeAfterRekey (P.on .wasm32) env) :=
  .of_eq rfl

theorem cut_processPending (ps : List Bytes) :
    CutShort (processPending (P.on .native) env ps) (processPending (P.on .wasm32) env ps) := by
  induction ps with
  | nil => exact .of_pure ()
  | cons p ps ih => exact .bind cutShort_enter fun _ => .bind (cut_processPacket env p) fun _ => ih

theorem cut_installKeys (serverHostKey : Option PublicKey) (newkeys : NewKeys) :
    CutShort (installKeys (P.on .native) env serverHostKey newkeys)
      (installKeys (P.on .wasm32) env serverHostKey newkeys) := by
  refine .bind .of_get fun s => ?_
  cases s.common.encrypted with
  | some enc =>
    refine .bind (cutShort_modify fun _ => rfl) fun _ => ?_
    refine .bind (cut_resumeAfterRekey env) fun _ => ?_
    refine .bind .of_get fun s => .bind (cut_processPending env s.pendingReads) fun _ => ?_
    exact .of_modify fun s => (logs_of_calm (.newkeys newkeys)).trans (.of_eq rfl)
  | none =>
    refine .bind (cutShort_checkHostKey env serverHostKey) fun _ => .of_modify fun s => ?_
    exact ⟨[.setCipher newkeys.cipher.localToRemote], rfl, by simp [Event.isBehind]⟩

theorem cut_kexDone (serverHostKey : Option PublicKey) (newkeys : NewKeys) :
    CutShort (kexDone (P.on .native) env serverHostKey newkeys)
      (kexDone (P.on .wasm32) env serverHostKey newkeys) := by
  refine .bind (cutShort_modify fun _ => rfl) fun _ => ?_
  refine .bind (cut_callback env _ _ : Cut P none _ _) fun _ => ?_
  refine .bind (cut_installKeys env serverHostKey newkeys) fun _ => ?_
  exact cutShort_modify fun _ => rfl

theorem cut_kexReply (kex : ClientKex) (pkt : IncomingSshPacket) :
    CutShort (kexReply (P.on .native) env kex pkt) (kexReply (P.on .wasm32) env kex pkt) := by
  refine .bind .of_get fun s => ?_
  refine .bind (cutShort_onWriter (ClientKex.step_writes kex (some pkt))) fun progress => ?_
  cases progress with
  | needsReply kex resetSeqn =>
    refine .bind (cutShort_modify fun s => ?_) fun _ => ?_
    · cases resetSeqn with
      | true => rfl
      | false => rfl
    · exact .bind (cut_flush env) fun _ => .of_pure _
  | done serverHostKey newkeys =>
    refine .bind (cut_kexDone env serverHostKey newkeys) fun _ => .bind .of_get fun s => ?_
    exact .bind (cut_flush env) fun _ => .of_pure _

theorem cut_beginIfAsked (buffer : Bytes) :
    CutShort (beginIfAsked (P.on .native) env buffer) (beginIfAsked (P.on .wasm32) env buffer) :=
  .bind .of_get fun _ => .ite _ (cutShort_beginRekey env) (.of_pure ())

theorem cut_dispatch (pkt : IncomingSshPacket) :
    CutShort (dispatch (P.on .native) env pkt) (dispatch (P.on .wasm32) env pkt) := by
  refine .bind (cut_beginIfAsked env pkt.buffer) fun _ => ?_
  refine .bind (cutShort_takeKexFor pkt.buffer) fun kex => ?_
  cases kex with
  | some kex => exact cut_kexReply env kex pkt
  | none =>
    exact .bind cutShort_enter fun _ => .bind (cut_processPacket env pkt.buffer) fun _ => .of_pure _

theorem cut_reply (pkt : IncomingSshPacket) :
    CutShort (reply (P.on .native) env pkt) (reply (P.on .wasm32) env pkt) :=
  .bind (cutShort_checkStrict pkt) fun _ => .ite _ (.of_pure _) (cut_dispatch env pkt)

end Exchange

section Turn

variable {P : Primitives} (env : ClientEnv)

theorem cut_readPacket (seqn : UInt32) (payload : Bytes) :
    CutShort (readPacket (P.on .native) env seqn payload)
      (readPacket (P.on .wasm32) env seqn payload) := by
  refine .bind (cutShort_maybeDecompress seqn payload) fun pkt => ?_
  dsimp only
  cases pkt.buffer with
  | nil => exact .of_pure _
  | cons msg r =>
    refine .bind (cutShort_record (by simp [Event.isBehind])) fun _ => .ite _ ?_ ?_
    · exact .bind (cutShort_modify fun _ => rfl) fun _ => .of_pure _
    · refine .bind (cutShort_modify fun _ => rfl) fun _ => ?_
      exact .bind (cut_reply env pkt) fun _ => .of_pure _

theorem cut_keepaliveTimer :
    CutShort (keepaliveTimer (P.on .native)) (keepaliveTimer (P.on .wasm32)) := by
  refine .bind (cutShort_modify fun _ => rfl) fun _ => .bind .of_get fun s => ?_
  have hsend : Cut P none (sendKeepalive true) (sendKeepalive true) := .of_eq rfl
  exact .ite _ (.bind (.of_throw _) fun _ => hsend) hsend

theorem cut_takeMessages (n : Nat) :
    CutShort (takeMessages (P.on .native) env n) (takeMessages (P.on .wasm32) env n) := by
  induction n with
  | zero => exact .of_pure ()
  | succ n ih =>
    refine .of_read fun s => ?_
    cases s.own.receiver with
    | nil => exact ⟨pure (), pure (), .of_pure (), rfl, rfl⟩
    | cons m ms =>
      dsimp only
      cases s.kex.active with
      | true => exact ⟨pure (), pure (), .of_pure (), rfl, rfl⟩
      | false =>
        refine ⟨_, _, .bind (cutShort_modify (f := fun s =>
          { s with own := { s.own with receiver := ms } }) fun _ => rfl) fun _ =>
            .bind (cut_handleMsg env m) fun _ => ih, rfl, rfl⟩

theorem cut_takeInboundMessages (n : Nat) :
    CutShort (takeInboundMessages (P.on .native) env n)
      (takeInboundMessages (P.on .wasm32) env n) := by
  induction n with
  | zero => exact .of_pure ()
  | succ n ih =>
    refine .of_read fun s => ?_
    cases s.own.inboundChannelReceiver with
    | nil => exact ⟨pure (), pure (), .of_pure (), rfl, rfl⟩
    | cons m ms =>
      dsimp only
      cases s.kex.active with
      | true => exact ⟨pure (), pure (), .of_pure (), rfl, rfl⟩
      | false =>
        refine ⟨_, _, .bind (cutShort_modify (f := fun s =>
          { s with own := { s.own with inboundChannelReceiver := ms } }) fun _ => rfl) fun _ =>
            .bind (cut_handleMsg env m) fun _ => ih, rfl, rfl⟩

theorem cut_select (seqn : UInt32) (input : ClientInput) :
    CutShort (select (P.on .native) env seqn input) (select (P.on .wasm32) env seqn input) := by
  cases input with
  | packet payload => exact cut_readPacket env (seqn + 1) payload
  | shortPacket => exact .of_pure _
  | readError e => exact .of_throw _
  | keepaliveTimer => exact .bind cut_keepaliveTimer fun _ => .of_pure _
  | inactivityTimer => exact .of_throw _
  | receive =>
    refine .bind .of_get fun s => .ite _ ?_ ?_
    · exact .bind (cutShort_modify fun _ => rfl) fun _ => .of_pure _
    · exact .bind (cut_takeMessages env _) fun _ => .of_pure _
  | receiveInbound =>
    exact .bind .of_get fun s => .bind (cut_takeInboundMessages env _) fun _ => .of_pure _
  | send m => exact .of_pure _
  | sendInbound m => exact .of_pure _
  | dropHandles => exact .of_pure _

theorem events_initCompression (s : ClientSession) : (initCompression s).events = s.events := by
  unfold initCompression
  split
  · split
    · rfl
    · rfl
  · rfl

theorem cut_endTurn : CutShort (endTurn (P.on .native) env) (endTurn (P.on .wasm32) env) := by
  refine .bind (cut_flush env) fun _ => .bind (cutShort_modify events_initCompression) fun _ => ?_
  refine cutShort_modify fun s => ?_
  split
  · rfl
  · rfl

/-- A turn under wasm32 is one without it, up to the first time that the clock is behind. -/
theorem cut_turn (seqn : UInt32) (input : ClientInput) :
    CutShort (turn (P.on .native) env seqn input) (turn (P.on .wasm32) env seqn input) := by
  refine .bind (cutShort_modify fun _ => rfl) fun _ => .bind (cut_select env seqn input) fun r => ?_
  cases r with
  | stop => exact .bind (.of_pure ()) fun _ => .of_pure _
  | disconnected result => exact .bind (cut_endTurn env) fun _ => .of_pure _
  | next seqn => exact .bind (cut_endTurn env) fun _ => .of_pure _

end Turn

end Client

end Edgessh.Russh
