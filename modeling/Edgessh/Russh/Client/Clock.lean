import Edgessh.Lib.Truncation
import Edgessh.Russh.Client.Run

/-!
# The clock under wasm32

The only thing that the code of a turn takes from the target is `duration_since`, which
`Encrypted::flush` calls. Under wasm32 a program is the one without wasm32, cut short before it
reads the clock when that is behind the last rekey. This goes through every program of the client
that may come to `flush`: a handler may begin a rekey whenever it is called.
-/

namespace Edgessh.Russh
open Edgessh.Command

/-- The crate as it is compiled for the target. -/
def Primitives.on (target : Target) (P : Primitives) : Primitives := { P with target }

/-- The clock is behind the time from which it is measured. -/
def Event.isBehind : Event → Bool
  | clock now earlier => now < earlier
  | _ => false

namespace Client
open AppM

/-- `n` is `m`, cut short by the panic of `duration_since`. -/
abbrev CutShort {α : Type} (m n : ClientM α) : Prop :=
  Truncates Session.events (fun e => e.isBehind = true) Exn.panic m n

/-- The same for a program, as it is compiled for the two targets. -/
abbrev Cut {α : Type} (P : Primitives) (pkt : Option Bytes)
    (p : ClientPacketM (P.on .native) pkt α) (q : ClientPacketM (P.on .wasm32) pkt α) : Prop :=
  CutShort p.run q.run

variable {α β : Type} {P : Primitives} {pkt : Option Bytes}

/-- A step that works on no exchange adds to the events, and under wasm32 no clock is behind. -/
theorem logs_of_appStep {s t : ClientSession} (h : AppStep clientStart P pkt s t) :
    Logs Session.events (fun e => P.target = .wasm32 → ¬e.isBehind = true) s t := by
  obtain ⟨new, hev, hnew⟩ := h.events
  refine ⟨new, hev, fun e he htarget => ?_⟩
  have happ := hnew e he
  cases e with
  | clock now earlier =>
    simp only [Event.isApp, htarget, Target.durationSince] at happ
    simp only [Event.isBehind, decide_eq_true_eq]
    split at happ
    · omega
    · cases happ
  | _ => simp [Event.isBehind]

theorem steps_logs (p : ClientPacketM P pkt α) :
    Steps (Logs Session.events fun e => P.target = .wasm32 → ¬e.isBehind = true) p.run := fun s =>
  Confined.wp_invariant (I := Logs Session.events _ s)
    (fun _ _ hstep h => h.trans (logs_of_appStep hstep)) p (.refl s)

namespace Cut

variable {p : ClientPacketM (P.on .native) pkt α} {q : ClientPacketM (P.on .wasm32) pkt α}

theorem of_steps (h : ∀ s, q.run s = p.run s ∨
    StopsBefore Session.events (fun e => e.isBehind = true) Exn.panic (p.run s) (q.run s)) :
    Cut P pkt p q where
  grows := (steps_logs p).mono fun _ _ hst => hst.mono fun _ _ => trivial
  good := (steps_logs q).mono fun _ _ hst => hst.mono fun _ he => he rfl
  same_or_stops := h

/-- A program that does not come to the clock. -/
theorem of_eq (h : q.run = p.run) : Cut P pkt p q := of_steps fun s => .inl (by rw [h])

theorem bind {f : α → ClientPacketM (P.on .native) pkt β}
    {g : α → ClientPacketM (P.on .wasm32) pkt β} (h : Cut P pkt p q)
    (hf : ∀ a, Cut P pkt (f a) (g a)) : Cut P pkt (p >>= f) (q >>= g) :=
  Truncates.bind h hf

theorem ite (c : Prop) [Decidable c] {p' : ClientPacketM (P.on .native) pkt α}
    {q' : ClientPacketM (P.on .wasm32) pkt α} (h : Cut P pkt p q) (h' : Cut P pkt p' q') :
    Cut P pkt (if c then p else p') (if c then q else q') := by
  split
  · exact h
  · exact h'

theorem dite (c : Prop) [Decidable c] {p : c → ClientPacketM (P.on .native) pkt α}
    {q : c → ClientPacketM (P.on .wasm32) pkt α} {p' : ¬c → ClientPacketM (P.on .native) pkt α}
    {q' : ¬c → ClientPacketM (P.on .wasm32) pkt α} (h : ∀ hc, Cut P pkt (p hc) (q hc))
    (h' : ∀ hc, Cut P pkt (p' hc) (q' hc)) :
    Cut P pkt (if hc : c then p hc else p' hc) (if hc : c then q hc else q' hc) := by
  split
  · exact h _
  · exact h' _

/-- A loop over a list. -/
theorem forIn {γ : Type} (l : List γ) (b : β)
    {f : γ → β → ClientPacketM (P.on .native) pkt (ForInStep β)}
    {g : γ → β → ClientPacketM (P.on .wasm32) pkt (ForInStep β)}
    (h : ∀ a b, Cut P pkt (f a b) (g a b)) : Cut P pkt (ForIn.forIn l b f) (ForIn.forIn l b g) := by
  induction l generalizing b with
  | nil => exact .of_eq rfl
  | cons a l ih =>
    rw [List.forIn_cons, List.forIn_cons]
    refine .bind (h a b) fun step => ?_
    cases step with
    | done b => exact .of_eq rfl
    | yield b => exact ih b

theorem quiet {p : ClientAppM (P.on .native) α} {q : ClientAppM (P.on .wasm32) α}
    (h : Cut P none p q) : Cut P pkt (AppM.quiet p) (AppM.quiet q) :=
  h

end Cut

section Operations

/-- Under wasm32 the clock is not read if it is behind. -/
theorem cut_durationSince (now earlier : Nat) :
    Cut P pkt (durationSince now earlier) (durationSince now earlier) := by
  refine .of_steps fun s => ?_
  simp only [durationSince, Confined.tryMove, Confined.tryMoves, Primitives.on,
    Target.durationSince]
  by_cases h : earlier ≤ now
  · rw [if_pos h]
    exact .inl rfl
  · rw [if_neg h]
    exact .inr ⟨s, .clock now earlier, [], rfl, rfl, by simpa [Event.isBehind] using h⟩

theorem sealPackets_on (target : Target) (ms : List Message) (w : PacketWriter) :
    sealPackets (P.on target) ms w = sealPackets P ms w := by
  induction ms generalizing w with
  | nil => rfl
  | cons m ms ih =>
    have hraw : w.packetRaw (P.on target) m = w.packetRaw P m := rfl
    unfold sealPackets
    rw [hraw]
    cases w.packetRaw P m with
    | ok w => exact ih w
    | error e => rfl

theorem cut_sealWrite : Cut P pkt sealWrite sealWrite := by
  refine .of_eq (funext fun s => ?_)
  simp only [sealWrite, Session.sealWrite, sealPackets_on]

theorem cut_toChannel (id : ChannelId) (m : ChannelMsg) (h : m.payload = none) :
    Cut P pkt (toChannel id m h) (toChannel id m h) := by
  refine .bind (.of_eq rfl) fun s => ?_
  cases s.channels id with
  | none => exact .of_eq rfl
  | some chan => exact .of_eq rfl

theorem cut_deliverToChannel (hmsg : IsData pkt) (id : ChannelId) (m : ChannelMsg)
    (h : m.payload.isSome = true) :
    Cut P _ (deliverToChannel hmsg id m h) (deliverToChannel hmsg id m h) := by
  refine .bind (.of_eq rfl) fun s => ?_
  cases s.channels id with
  | none => exact .of_eq rfl
  | some chan => exact .of_eq rfl

theorem cut_eof (id : ChannelId) : Cut P pkt (eof id) (eof id) := by
  refine .bind (.of_eq rfl) fun enc => ?_
  cases enc with
  | none => exact .of_eq rfl
  | some enc => exact .of_eq rfl

theorem cut_close (id : ChannelId) : Cut P pkt (close id) (close id) := by
  refine .bind (.of_eq rfl) fun enc => ?_
  cases enc with
  | none => exact .of_eq rfl
  | some enc => exact .of_eq rfl

theorem cut_dataWith (ext : Option Nat) (id : ChannelId) (buf : Bytes) :
    Cut P pkt (dataWith ext id buf) (dataWith ext id buf) := by
  refine .bind (.of_eq rfl) fun s => ?_
  cases s.common.encrypted with
  | none => exact .of_eq rfl
  | some enc => exact .of_eq rfl

theorem cut_disconnect (reason : Nat) (description languageTag : Bytes) :
    Cut P pkt (disconnect reason description languageTag)
      (disconnect reason description languageTag) := by
  refine .bind (.of_eq rfl) fun s => ?_
  exact .ite _ (.of_eq rfl) (.bind (.of_eq rfl) fun _ => .of_eq rfl)

theorem cut_flushWrite (limits : Limits) (now : ClientSession → Nat) :
    Cut P pkt (flushWrite limits now) (flushWrite limits now) := by
  refine .bind cut_sealWrite fun _ => .bind (.of_eq rfl) fun s => ?_
  cases s.common.encrypted with
  | none => exact .of_eq rfl
  | some enc =>
    refine .ite _ (.of_eq rfl) ?_
    exact .bind (cut_durationSince (now s) enc.lastRekey) fun _ => .of_eq rfl

end Operations

section Handler

variable (env : ClientEnv)

theorem cut_flush : Cut P _ (flush env) (flush env) := by
  refine .bind (.of_eq rfl) fun s => .bind (cut_flushWrite _ _) fun due => ?_
  exact .ite _ (.of_eq rfl) (.of_eq rfl)

theorem cut_initiateRekey : Cut P _ (initiateRekey env) (initiateRekey env) :=
  .bind (.of_eq rfl) fun _ => cut_flush env

theorem cut_forward (name : Bytes) (response : ReplyChannel → GlobalRequestResponse)
    (dest : Option ReplyChannel) (data : Bytes) :
    Cut P _ (forward name response dest data) (forward name response dest data) := by
  refine .bind (.of_eq rfl) fun enc => ?_
  cases enc with
  | none => exact .of_eq rfl
  | some enc => exact .of_eq rfl

theorem cut_handleChannelMsg (id : ChannelId) (m : ChannelMsg) :
    Cut P _ (handleChannelMsg id m) (handleChannelMsg id m) := by
  cases m with
  | data buf => exact cut_dataWith none id buf
  | extendedData buf ext => exact cut_dataWith (some ext) id buf
  | eof => exact cut_eof id
  | close => exact cut_close id
  | _ => exact .of_eq rfl

theorem cut_call (c : ClientCall) : Cut P _ (call env c) (call env c) := by
  cases c with
  | channel id msg => exact cut_handleChannelMsg id msg
  | tcpipForward dest address port => exact cut_forward _ _ dest _
  | cancelTcpipForward dest address port => exact cut_forward _ _ dest _
  | streamlocalForward dest socketPath => exact cut_forward _ _ dest _
  | cancelStreamlocalForward dest socketPath => exact cut_forward _ _ dest _
  | disconnect reason description languageTag => exact cut_disconnect reason description languageTag
  | initiateRekey => exact cut_initiateRekey env
  | _ => exact .of_eq rfl

theorem cut_calls (cs : List ClientCall) : Cut P _ (calls env cs) (calls env cs) := by
  induction cs with
  | nil => exact .of_eq rfl
  | cons c cs ih =>
    refine .bind (Truncates.of_tryCatch (cut_call env c) (fun e => ?_) rfl) fun _ => ih
    cases e with
    | error e => exact .of_pure ()
    | _ => exact .of_throw _

theorem cut_respond (cb : ClientCallback) : Cut P _ (respond env cb) (respond env cb) := by
  refine .bind (.of_eq rfl) fun s => ?_
  exact .bind (cut_calls env _) fun _ => .of_eq rfl

theorem cut_callback (cb : ClientCallback) (h : (Event.clientCallback cb).isObservation = true) :
    Cut P pkt (callback env cb h) (callback env cb h) :=
  .bind (.of_eq rfl) fun _ => .quiet (cut_respond env cb)

end Handler

section Packet

variable (env : ClientEnv)

theorem cut_sendReply (reply : Reply) (h : (Event.reply reply).isObservation = true) :
    Cut P pkt (sendReply env reply h) (sendReply env reply h) :=
  .bind (.of_eq rfl) fun _ => .ite _ (.of_eq rfl) (.of_eq rfl)

theorem cut_waitFor {α : Type} (want : ClientMsg → Option α) :
    Cut P pkt (waitFor want) (waitFor want) := by
  refine .bind (.of_eq rfl) fun s => ?_
  cases dropUntil want s.own.receiver with
  | none => exact .bind (.of_eq rfl) fun _ => .ite _ (.of_eq rfl) (.of_eq rfl)
  | some found => exact .of_eq rfl

theorem cut_readPrompts (n : Nat) (r : Bytes) :
    Cut P pkt (readPrompts n r) (readPrompts n r) := by
  induction n generalizing r with
  | zero => exact .of_eq rfl
  | succ n ih =>
    refine .bind (.of_eq rfl) fun prompt => .bind (.of_eq rfl) fun echo => ?_
    exact .bind (ih echo.2) fun _ => .of_eq rfl

theorem cut_readInfoRequest (r : Bytes) :
    Cut P pkt (readInfoRequest env r) (readInfoRequest env r) := by
  refine .bind (.of_eq rfl) fun name => .bind (.of_eq rfl) fun instructions => ?_
  refine .bind (.of_eq rfl) fun tag => .bind (.of_eq rfl) fun count => ?_
  refine .bind (cut_readPrompts _ _) fun prompts => .bind (cut_sendReply env _ _) fun _ => ?_
  exact .bind (cut_waitFor _) fun _ => .of_eq rfl

theorem cut_signByHandle (enc : Encrypted) (user : Bytes) (key : PublicKey) (algorithm : Algorithm)
    (hashAlg : Option HashAlg) :
    Cut P pkt (signByHandle env enc user key algorithm hashAlg)
      (signByHandle env enc user key algorithm hashAlg) := by
  refine .bind (.of_eq rfl) fun _ => .bind (cut_sendReply env _ _) fun _ => ?_
  refine .bind (cut_waitFor _) fun signed => .bind (.of_eq rfl) fun _ => ?_
  refine .ite _ ?_ (.of_eq rfl)
  exact .ite _ (.of_eq rfl) (.of_eq rfl)

theorem cut_continueWithSignature (enc : Encrypted) :
    Cut P pkt (continueWithSignature env enc) (continueWithSignature env enc) := by
  refine .bind (.of_eq rfl) fun s => .bind (.of_eq rfl) fun _ => ?_
  cases s.common.authMethod with
  | none => exact .of_eq rfl
  | some method =>
    cases method with
    | futurePublicKey key algorithm hashAlg =>
      exact cut_signByHandle env enc s.common.authUser key algorithm hashAlg
    | _ => exact .of_eq rfl

/-- Those who wait for an extension are told of it. -/
theorem cut_receiveExtension (name : Bytes) :
    Cut P pkt (receiveExtension name) (receiveExtension name) := by
  refine .bind (.of_eq rfl) fun enc => ?_
  cases enc with
  | none => exact .of_eq rfl
  | some enc =>
    refine .bind (.of_eq rfl) fun _ => ?_
    exact .bind (.forIn _ _ fun _ _ => .of_eq rfl) fun _ => .of_eq rfl

theorem cut_readExtensions (n : Nat) (r : Bytes) :
    Cut P pkt (readExtensions n r) (readExtensions n r) := by
  induction n generalizing r with
  | zero => exact .of_eq rfl
  | succ n ih =>
    refine .bind (.of_eq rfl) fun name => .ite _ ?_ ?_
    · refine .bind (.of_eq rfl) fun algs => .bind (.of_eq rfl) fun _ => ?_
      exact .bind (cut_receiveExtension _) fun _ => ih _
    · refine .bind (.of_eq rfl) fun value => ?_
      exact .bind (cut_receiveExtension _) fun _ => ih _

theorem cut_handleExtInfo (r : Bytes) :
    Cut P pkt (handleExtInfo r) (handleExtInfo r) :=
  .bind (.of_eq rfl) fun count => cut_readExtensions count.1 count.2

variable {msg : UInt8} {r : Bytes}

theorem cut_readChannelOpenConfirmation (hmsg : msg = Msg.channelOpenConfirmation) :
    Cut P _ (readChannelOpenConfirmation hmsg env r)
      (readChannelOpenConfirmation hmsg env r) := by
  refine .bind (.of_eq rfl) fun c => .bind (.of_eq rfl) fun _ => ?_
  exact .bind (cut_toChannel _ _ _) fun _ => cut_callback env _ _

theorem cut_readChannelClose (hmsg : msg = Msg.channelClose) :
    Cut P _ (readChannelClose hmsg env r) (readChannelClose hmsg env r) :=
  .bind (.of_eq rfl) fun _ => .bind (.of_eq rfl) fun _ => cut_callback env _ _

theorem cut_readChannelEof :
    Cut P pkt (readChannelEof env r) (readChannelEof env r) :=
  .bind (.of_eq rfl) fun _ => .bind (cut_toChannel _ _ _) fun _ => cut_callback env _ _

theorem cut_readChannelOpenFailure (hmsg : msg = Msg.channelOpenFailure) :
    Cut P _ (readChannelOpenFailure hmsg env r) (readChannelOpenFailure hmsg env r) := by
  refine .bind (.of_eq rfl) fun id => .bind (.of_eq rfl) fun code => ?_
  refine .bind (.of_eq rfl) fun descr => .bind (.of_eq rfl) fun language => ?_
  refine .bind (.of_eq rfl) fun _ => .bind (.of_eq rfl) fun s => .bind (.of_eq rfl) fun _ => ?_
  cases s.channels id.1.1 with
  | none => exact .ite _ (.bind (.of_eq rfl) fun _ => cut_callback env _ _) (cut_callback env _ _)
  | some chan =>
    refine .bind (.of_eq rfl) fun _ => ?_
    exact .ite _ (.bind (.of_eq rfl) fun _ => cut_callback env _ _) (cut_callback env _ _)

theorem cut_takeData {id : ChannelId} (hmsg : IsData pkt)
    (hid : pkt.bind recipientNumber? = some id) (buf : Bytes) :
    Cut P _ (takeData hmsg hid env buf) (takeData hmsg hid env buf) := by
  refine .bind (.of_eq rfl) fun s => .bind (.of_eq rfl) fun grown => .ite _ ?_ (.of_eq rfl)
  refine .bind (.of_eq rfl) fun _ => .bind (.of_eq rfl) fun t => ?_
  exact .ite _ (.of_eq rfl) (.of_eq rfl)

theorem cut_readChannelData (hmsg : IsData (some (msg :: r))) :
    Cut P _ (readChannelData hmsg env) (readChannelData hmsg env) := by
  refine .bind (.of_eq rfl) fun id => .bind (.of_eq rfl) fun buf => ?_
  refine .bind (cut_takeData env hmsg _ _) fun _ => ?_
  refine .bind (cut_deliverToChannel hmsg _ _ _) fun _ => .bind (.of_eq rfl) fun _ => ?_
  exact .quiet (cut_respond env _)

theorem cut_readChannelExtendedData (hmsg : IsData (some (msg :: r))) :
    Cut P _ (readChannelExtendedData hmsg env) (readChannelExtendedData hmsg env) := by
  refine .bind (.of_eq rfl) fun id => .bind (.of_eq rfl) fun ext => .bind (.of_eq rfl) fun buf => ?_
  refine .bind (cut_takeData env hmsg _ _) fun _ => ?_
  refine .bind (cut_deliverToChannel hmsg _ _ _) fun _ => .bind (.of_eq rfl) fun _ => ?_
  exact .quiet (cut_respond env _)

theorem cut_answerRequest {id : ChannelId} (hreq : pkt.bind answeredRequest? = some id)
    (m : ChannelMessage) (h : m.isAnswer = true) :
    Cut P _ (answerRequest hreq m h) (answerRequest hreq m h) := by
  refine .bind (.of_eq rfl) fun enc => ?_
  cases enc with
  | none => exact .of_eq rfl
  | some enc => exact .of_eq rfl

theorem cut_readChannelRequest (hmsg : msg = Msg.channelRequest) :
    Cut P _ (readChannelRequest hmsg env r) (readChannelRequest hmsg env r) := by
  refine .bind (.of_eq rfl) fun id => .bind (.of_eq rfl) fun req => ?_
  refine .dite _ (fun _ => ?_) fun _ => .dite _ (fun _ => ?_) fun _ =>
    .dite _ (fun _ => ?_) fun _ => ?_
  · refine .bind (.of_eq rfl) fun _ => .bind (.of_eq rfl) fun _ => ?_
    exact .bind (cut_toChannel _ _ _) fun _ => cut_callback env _ _
  · refine .bind (.of_eq rfl) fun _ => .bind (.of_eq rfl) fun _ => ?_
    exact .bind (cut_toChannel _ _ _) fun _ => cut_callback env _ _
  · refine .bind (.of_eq rfl) fun _ => .bind (.of_eq rfl) fun _ => .bind (.of_eq rfl) fun _ => ?_
    refine .bind (.of_eq rfl) fun _ => .bind (.of_eq rfl) fun _ => ?_
    exact .bind (cut_toChannel _ _ _) fun _ => cut_callback env _ _
  · refine .ite _ (.bind (.of_eq rfl) fun _ => ?_) (.bind (.of_eq rfl) fun _ => ?_)
    · exact .dite _ (fun _ => cut_answerRequest _ _ _) fun _ => .of_eq rfl
    · exact .dite _ (fun _ => cut_answerRequest _ _ _) fun _ => .of_eq rfl

theorem cut_readChannelWindowAdjust :
    Cut P pkt (readChannelWindowAdjust env r) (readChannelWindowAdjust env r) := by
  refine .bind (.of_eq rfl) fun id => .bind (.of_eq rfl) fun amount => ?_
  refine .bind (.of_eq rfl) fun adjusted => ?_
  cases adjusted with
  | none => exact .of_eq rfl
  | some adjusted =>
    refine .bind (.of_eq rfl) fun s => ?_
    cases s.channels id.1 with
    | none => exact cut_callback env _ _
    | some chan =>
      exact .bind (.of_eq rfl) fun _ => .bind (.of_eq rfl) fun _ => cut_callback env _ _

theorem cut_readHostKeys (n : Nat) (r : Bytes) :
    Cut P pkt (readHostKeys n r) (readHostKeys n r) := by
  induction n generalizing r with
  | zero => exact .of_eq rfl
  | succ n ih =>
    unfold readHostKeys
    cases decodeBytes r with
    | error e =>
      cases e with
      | length => exact .of_eq rfl
      | _ => exact .of_eq rfl
    | ok key => exact .bind (ih key.2) fun _ => .of_eq rfl

theorem cut_readGlobalRequest (hmsg : firstByte? pkt = some Msg.globalRequest) :
    Cut P _ (readGlobalRequest hmsg env r) (readGlobalRequest hmsg env r) := by
  refine .bind (.of_eq rfl) fun req => .bind (.of_eq rfl) fun wantsReply => .ite _ ?_ (.ite _ ?_ ?_)
  · exact .ite _ (.of_eq rfl) (.of_eq rfl)
  · exact .bind (cut_readHostKeys _ _) fun keys => cut_callback env _ _
  · exact .of_eq rfl

theorem cut_readChannelSuccess :
    Cut P pkt (readChannelSuccess env r) (readChannelSuccess env r) :=
  .bind (.of_eq rfl) fun _ => .bind (cut_toChannel _ _ _) fun _ => cut_callback env _ _

theorem cut_readChannelFailure :
    Cut P pkt (readChannelFailure env r) (readChannelFailure env r) :=
  .bind (.of_eq rfl) fun _ => .bind (cut_toChannel _ _ _) fun _ => cut_callback env _ _

theorem cut_readChannelOpen (hmsg : msg = Msg.channelOpen) :
    Cut P _ (readChannelOpen hmsg env r) (readChannelOpen hmsg env r) := by
  refine .bind (.of_eq rfl) fun m => .bind (.of_eq rfl) fun id => ?_
  cases id with
  | none => exact .of_eq rfl
  | some id =>
    dsimp only
    cases m.1.1.typ with
    | unknown typ =>
      refine .bind (.of_eq rfl) fun _ => .bind (.of_eq rfl) fun s => .ite _ ?_ (.of_eq rfl)
      exact .bind (.of_eq rfl) fun _ => cut_callback env _ _
    | _ => exact .bind (.of_eq rfl) fun _ => cut_callback env _ _

theorem cut_readAuthenticated (buf : Bytes) :
    Cut P _ (readAuthenticated env buf) (readAuthenticated env buf) := by
  cases buf with
  | nil => exact .of_eq rfl
  | cons msg r =>
    refine .dite _ (fun h => cut_readChannelOpenConfirmation env h) fun _ => ?_
    refine .dite _ (fun h => cut_readChannelClose env h) fun _ => .ite _ (cut_readChannelEof env) ?_
    refine .dite _ (fun h => cut_readChannelOpenFailure env h) fun _ => ?_
    refine .dite _ (fun h => cut_readChannelData env _) fun _ => ?_
    refine .dite _ (fun h => cut_readChannelExtendedData env _) fun _ => ?_
    refine .dite _ (fun h => cut_readChannelRequest env h) fun _ => ?_
    refine .ite _ (cut_readChannelWindowAdjust env) ?_
    refine .dite _ (fun h => cut_readGlobalRequest env _) fun _ => ?_
    refine .ite _ (cut_readChannelSuccess env) (.ite _ (cut_readChannelFailure env) ?_)
    refine .dite _ (fun h => cut_readChannelOpen env h) fun _ => ?_
    exact .dite _ (fun h => .of_eq rfl) fun _ => .dite _ (fun h => .of_eq rfl) fun _ => .of_eq rfl

theorem cut_readWaitingAuthServiceRequest (buf : Bytes) :
    Cut P _ (readWaitingAuthServiceRequest buf) (readWaitingAuthServiceRequest buf) := by
  cases buf with
  | nil => exact .of_eq rfl
  | cons msg r =>
    refine .dite _ (fun h => ?_) fun _ => .ite _ (cut_handleExtInfo r) (.of_eq rfl)
    refine .bind (.of_eq rfl) fun service => .ite _ ?_ (.of_eq rfl)
    refine .bind (.of_eq rfl) fun _ => .bind (.of_eq rfl) fun s => ?_
    cases s.common.authMethod with
    | none => exact .of_eq rfl
    | some method => exact .of_eq rfl

theorem cut_readUserauthFailure (hmsg : firstByte? pkt = some Msg.userauthFailure) :
    Cut P _ (readUserauthFailure hmsg env r) (readUserauthFailure hmsg env r) := by
  refine .bind (.of_eq rfl) fun names => .bind (.of_eq rfl) fun partialSuccess => ?_
  refine .bind (.of_eq rfl) fun _ => .bind (.of_eq rfl) fun _ => ?_
  exact .bind (cut_sendReply env _ _) fun _ => .ite _ (.of_eq rfl) (.of_eq rfl)

theorem cut_readInfoRequestOrPkOk
    (hmsg : firstByte? pkt = some Msg.userauthInfoRequestOrUserauthPkOk) (enc : Encrypted)
    (request : AuthRequest) :
    Cut P _ (readInfoRequestOrPkOk hmsg env enc request r)
      (readInfoRequestOrPkOk hmsg env enc request r) := by
  unfold readInfoRequestOrPkOk
  cases request.current with
  | none => exact cut_continueWithSignature env enc
  | some current =>
    cases current with
    | publicKey key algo sent => exact .bind (.of_eq rfl) fun _ => cut_continueWithSignature env enc
    | keyboardInteractive submethods => exact cut_readInfoRequest env r

theorem cut_readWaitingAuthRequest (enc : Encrypted) (request : AuthRequest) (buf : Bytes) :
    Cut P _ (readWaitingAuthRequest env enc request buf)
      (readWaitingAuthRequest env enc request buf) := by
  cases buf with
  | nil => exact .of_eq rfl
  | cons msg r =>
    refine .dite _ (fun h => ?_) fun _ => ?_
    · exact .bind (.of_eq rfl) fun s => .ite _ (.of_eq rfl) (.of_eq rfl)
    refine .ite _ (.bind (.of_eq rfl) fun banner => cut_callback env _ _) ?_
    refine .dite _ (fun h => cut_readUserauthFailure env _) fun _ => ?_
    refine .dite _ (fun h => cut_readInfoRequestOrPkOk env _ enc request) fun _ => ?_
    exact .ite _ (cut_handleExtInfo r) (.of_eq rfl)

theorem cut_processPacket (buf : Bytes) :
    Cut P _ (processPacket env buf) (processPacket env buf) := by
  refine .bind (.of_eq rfl) fun enc => ?_
  cases enc with
  | none => exact .of_eq rfl
  | some enc =>
    dsimp only
    cases enc.state with
    | waitingAuthServiceRequest sent accepted => exact cut_readWaitingAuthServiceRequest buf
    | waitingAuthRequest request => exact cut_readWaitingAuthRequest env enc request buf
    | initCompression => exact .of_eq rfl
    | authenticated => exact cut_readAuthenticated env buf

end Packet

end Client

end Edgessh.Russh
