import Edgessh.Russh.Client.Rules
import Edgessh.Russh.Server.Rules
import Edgessh.Russh.Session.TableStep

/-!
# The first step for a packet

What a packet says of a channel is done once, before anything else. Where an invariant needs to
know how the channel stands when the packet is read, the type of the programs is not enough: it
allows the step for the packet any number of times. `FirstRules` has one rule for this step, in the
state in which the packet is read, and rules for what comes after it.
-/

namespace Edgessh.Russh
open Edgessh.Command

/-- The packets whose own step is the first one. -/
def isDirected (buf : Bytes) : Bool :=
  match buf.head? with
  | some msg => [Msg.channelOpenConfirmation, Msg.channelOpenFailure, Msg.channelClose,
      Msg.channelData, Msg.channelExtendedData, Msg.channelRequest].contains msg
  | none => false

/-- What an invariant `I` has to meet for the packet `buf`, which is read in a state that
meets `C`. -/
structure FirstRules {K C X : Type} (start : KexStart K C) (P : Primitives) (buf : Bytes)
    (Cond I : Session K C X → Prop) : Prop where
  frame {s t} : s.Frame t → Cond s → Cond t
  own {s t} : AppStep start P (some buf) s t → Cond s → I s → I t
  rest {s t} : AppStep start P (some []) s t → I s → I t
  delivered {s e} : e.delivered.isSome = true → I s → I (s.record e)
  replied {s enc m} : m.isReply = true → s.common.encrypted = some enc → I s →
    I (s.wrote (enc.push m) [m])
  other {s t} : isDirected buf = false → AppStep start P (some buf) s t → Cond s → I s →
    Cond t ∧ I t

namespace FirstRules

variable {K C X α : Type} {start : KexStart K C} {P : Primitives} {buf : Bytes}
  {Cond I : Session K C X → Prop} {s : Session K C X}

theorem run_quiet (h : FirstRules start P buf Cond I) (m : AppM start P none X α) (hs : I s) :
    wp m.run (fun _ t => I t) (fun _ t => I t) s :=
  Confined.wp_invariant (I := I) (fun _ _ hstep => h.rest hstep.of_none) m hs

theorem observe (h : FirstRules start P buf Cond I) {e : Event} (he : e.isObservation = true)
    (hs : I s) :
    wp (AppM.observe e he : AppM start P (some buf) X Unit).run (fun _ t => I t)
      (fun _ t => I t) s :=
  h.rest (.observe he) hs

theorem run_frame (h : FirstRules start P buf Cond I) {f : Session K C X → Session K C X}
    {hf : ∀ s, Session.Frame s (f s)} (hs : I s) :
    wp (AppM.frame f hf : AppM start P (some buf) X Unit).run (fun _ t => I t)
      (fun _ t => I t) s :=
  h.rest (.frame (hf s)) hs

theorem toChannel (h : FirstRules start P buf Cond I) {id : ChannelId} {m : ChannelMsg}
    {hm : m.payload = none} (hs : I s) :
    wp (AppM.toChannel id m hm : AppM start P (some buf) X Unit).run (fun _ t => I t)
      (fun _ t => I t) s := by
  rw [AppM.toChannel, Confined.wp_run_bind, Confined.run_read, wp_get]
  split
  · exact h.observe _ hs
  · exact hs

theorem run_frame_cond (h : FirstRules start P buf Cond I) {f : Session K C X → Session K C X}
    {hf : ∀ s, Session.Frame s (f s)} (hc : Cond s) (hs : I s) :
    wp (AppM.frame f hf : AppM start P (some buf) X Unit).run (fun _ t => Cond t ∧ I t)
      (fun _ t => I t) s :=
  ⟨h.frame (hf s) hc, h.rest (.frame (hf s)) hs⟩

theorem run_other (h : FirstRules start P buf Cond I) (hbuf : isDirected buf = false)
    (m : AppM start P (some buf) X α) (hc : Cond s) (hs : I s) :
    wp m.run (fun _ t => I t) (fun _ t => I t) s :=
  wp_mono (Confined.wp_invariant (I := fun t => Cond t ∧ I t)
    (fun _ _ hstep ht => h.other hbuf hstep ht.1 ht.2) m ⟨hc, hs⟩) (fun _ _ ht => ht.2)
    fun _ _ ht => ht.2

/-- Data is sent to the channel. -/
theorem deliverToChannel (h : FirstRules start P buf Cond I) (hmsg : AppM.IsData (some buf))
    {id : ChannelId} {m : ChannelMsg} {hm : m.payload.isSome = true} (hs : I s) :
    wp (AppM.deliverToChannel hmsg id m hm : AppM start P (some buf) X Unit).run
      (fun _ t => I t) (fun _ t => I t) s := by
  rw [AppM.deliverToChannel, Confined.wp_run_bind, Confined.run_read, wp_get]
  split
  · exact h.delivered hm hs
  · exact hs

/-- A reply to a request. -/
theorem answer (h : FirstRules start P buf Cond I) (hmsg : firstByte? (some buf) =
      some Msg.globalRequest ∨ firstByte? (some buf) = some Msg.channelRequest) {m : Message}
    (hm : m.isReply = true) (hs : I s) :
    wp (AppM.answer hmsg m hm : AppM start P (some buf) X Unit).run (fun _ t => I t)
      (fun _ t => I t) s := by
  rw [AppM.answer, Confined.run_move, wp_modify]
  cases hc : s.common.encrypted with
  | none => exact hs
  | some enc => exact h.replied hm hc hs

theorem deliver (h : FirstRules start P buf Cond I) (hmsg : AppM.IsData (some buf))
    {e : Event} (he : e.delivered.isSome = true) (hs : I s) :
    wp (AppM.deliver hmsg e he : AppM start P (some buf) X Unit).run (fun _ t => I t)
      (fun _ t => I t) s :=
  h.delivered he hs

end FirstRules

namespace Client
open AppM

variable {P : Primitives} {env : ClientEnv} {msg : UInt8} {r : Bytes}
  {Cond I : ClientSession → Prop} {s : ClientSession}

section

variable (h : FirstRules clientStart P (msg :: r) Cond I) (hc : Cond s) (hs : I s)

include h hs

theorem first_callback {cb : ClientCallback} {hcb : (Event.clientCallback cb).isObservation = true} :
    wp (callback (P := P) env cb hcb : ClientPacketM P (some (msg :: r)) Unit).run
      (fun _ t => I t) (fun _ t => I t) s := by
  rw [callback, Confined.wp_run_bind]
  exact wp_mono (h.observe hcb hs) (fun _ t ht => h.run_quiet (respond env cb) ht) fun _ _ ht => ht

include hc

theorem first_channelOpenConfirmation (hmsg : msg = Msg.channelOpenConfirmation) :
    wp (readChannelOpenConfirmation (P := P) hmsg env r).run (fun _ t => I t) (fun _ t => I t)
      s := by
  rw [readChannelOpenConfirmation, Confined.wp_run_bind]
  refine wp_decoded (fun c r' hd => ?_) fun _ => hs
  dsimp only
  refine Confined.wp_seq (Confined.wp_tryMove hs fun t hstep => h.own hstep hc hs) fun _ t ht => ?_
  refine Confined.wp_seq (h.toChannel ht) fun _ u hu => ?_
  exact first_callback h hu

theorem first_channelOpenFailure (hmsg : msg = Msg.channelOpenFailure) :
    wp (readChannelOpenFailure (P := P) hmsg env r).run (fun _ t => I t) (fun _ t => I t) s := by
  rw [readChannelOpenFailure, Confined.wp_run_bind]
  refine wp_decoded (fun id r₁ hid => ?_) fun _ => hs
  dsimp only
  rw [Confined.wp_run_bind]
  refine wp_decode (fun code r₂ _ => ?_) fun _ => hs
  rw [Confined.wp_run_bind]
  refine wp_decode (fun descr r₃ _ => ?_) fun _ => hs
  rw [Confined.wp_run_bind]
  refine wp_decode (fun language r₄ _ => ?_) fun _ => hs
  refine Confined.wp_seq (Confined.wp_move fun t hstep => h.own hstep hc hs) fun _ t ht => ?_
  rw [Confined.wp_run_bind, Confined.run_read, wp_get, Confined.wp_run_bind]
  refine wp_mono (h.run_frame ht) (fun _ u hu => ?_) fun _ _ hu => hu
  have hrest : ∀ v, I v → wp (do
      if env.handleAlive t then observe (.reply .channelOpenFailure) rfl
      callback env (.channelOpenFailure id (ChannelOpenFailure.fromU32 code) descr language) rfl :
      ClientPacketM P (some (msg :: r)) Unit).run (fun _ t => I t) (fun _ t => I t) v := by
    intro v hv
    dsimp only
    split
    · exact Confined.wp_seq (h.observe _ hv) fun _ w hw => first_callback h hw
    · exact first_callback h hv
  dsimp only
  split
  · exact Confined.wp_seq (h.observe _ hu) fun _ v hv => hrest v hv
  · exact hrest u hu

theorem first_channelClose (hmsg : msg = Msg.channelClose) :
    wp (readChannelClose (P := P) hmsg env r).run (fun _ t => I t) (fun _ t => I t) s := by
  rw [readChannelClose, Confined.wp_run_bind]
  refine wp_decoded (fun id r' hid => ?_) fun _ => hs
  dsimp only
  unfold closeByPeer
  rw [Confined.wp_run_bind, Confined.wp_run_bind]
  refine wp_mono (Confined.wp_move fun t hstep => h.own hstep hc hs) (fun _ t ht => ?_)
    fun _ _ ht => ht
  refine wp_mono (h.run_frame ht) (fun _ u hu => ?_) fun _ _ hu => hu
  exact first_callback h hu

/-- The window of the channel is touched first. -/
theorem first_takeData {id : ChannelId} (hmsg : IsData (some (msg :: r)))
    (hid : (some (msg :: r)).bind recipientNumber? = some id) (buf : Bytes) :
    wp (takeData (P := P) hmsg hid env buf).run (fun _ t => I t) (fun _ t => I t) s := by
  rw [takeData, Confined.wp_run_bind, Confined.run_read, wp_get, Confined.wp_run_bind]
  refine wp_mono (Confined.wp_tryMove hs fun t hstep => h.own hstep hc hs) (fun grown t ht => ?_)
    fun _ _ ht => ht
  dsimp only
  split
  · refine Confined.wp_seq (h.observe _ ht) fun _ u hu => ?_
    rw [Confined.wp_run_bind, Confined.run_read, wp_get]
    split
    · exact h.run_frame hu
    · exact hu
  · exact ht

theorem first_channelData (hmsg : IsData (some (msg :: r))) :
    wp (readChannelData (P := P) hmsg env).run (fun _ t => I t) (fun _ t => I t) s := by
  rw [readChannelData, Confined.wp_run_bind]
  refine wp_decoded (fun id r₁ hid => ?_) fun _ => hs
  dsimp only
  rw [Confined.wp_run_bind]
  refine wp_decode (fun buf r₂ _ => ?_) fun _ => hs
  refine Confined.wp_seq (first_takeData h hc hs hmsg _ buf) fun _ t ht => ?_
  refine Confined.wp_seq (h.deliverToChannel hmsg ht) fun _ u hu => ?_
  refine Confined.wp_seq (h.deliver hmsg rfl hu) fun _ v hv => ?_
  exact h.run_quiet (respond env (.data id buf)) hv

theorem first_channelExtendedData (hmsg : IsData (some (msg :: r))) :
    wp (readChannelExtendedData (P := P) hmsg env).run (fun _ t => I t) (fun _ t => I t) s := by
  rw [readChannelExtendedData, Confined.wp_run_bind]
  refine wp_decoded (fun id r₁ hid => ?_) fun _ => hs
  dsimp only
  rw [Confined.wp_run_bind]
  refine wp_decode (fun ext r₂ _ => ?_) fun _ => hs
  rw [Confined.wp_run_bind]
  refine wp_decode (fun buf r₃ _ => ?_) fun _ => hs
  refine Confined.wp_seq (first_takeData h hc hs hmsg _ buf) fun _ t ht => ?_
  refine Confined.wp_seq (h.deliverToChannel hmsg ht) fun _ u hu => ?_
  refine Confined.wp_seq (h.deliver hmsg rfl hu) fun _ v hv => ?_
  exact h.run_quiet (respond env (.extendedData id ext buf)) hv

theorem first_answerRequest {id : ChannelId}
    (hreq : (some (msg :: r)).bind answeredRequest? = some id) {m : ChannelMessage}
    (hm : m.isAnswer = true) :
    wp (answerRequest (P := P) hreq m hm).run (fun _ t => I t) (fun _ t => I t) s := by
  rw [answerRequest, Confined.wp_run_bind, encrypted?, Confined.wp_run_bind, Confined.run_read,
    wp_get, Confined.run_pure, wp_pure]
  cases s.common.encrypted with
  | none => exact hs
  | some enc =>
    dsimp only
    refine Confined.wp_seq (h.run_frame_cond hc hs) fun _ t ht => ?_
    exact Confined.wp_move fun u hstep => h.own hstep ht.1 ht.2

theorem first_channelRequest (hmsg : msg = Msg.channelRequest) :
    wp (readChannelRequest (P := P) hmsg env r).run (fun _ t => I t) (fun _ t => I t) s := by
  have htell : ∀ (id : ChannelId) (m : ChannelMsg) (hm : m.payload = none) (cb : ClientCallback)
      (hcb : (Event.clientCallback cb).isObservation = true), wp (do
        toChannel id m hm
        callback env cb hcb : ClientPacketM P (some (msg :: r)) Unit).run (fun _ t => I t)
        (fun _ t => I t) s := by
    intro id m hm cb hcb
    exact Confined.wp_seq (h.toChannel hs) fun _ t ht => first_callback h ht
  rw [readChannelRequest, Confined.wp_run_bind]
  refine wp_decoded (fun id r₁ hid => ?_) fun _ => hs
  dsimp only
  rw [Confined.wp_run_bind]
  refine wp_decoded (fun req r₂ hreq => ?_) fun _ => hs
  dsimp only
  split
  · rw [Confined.wp_run_bind]
    refine wp_decode (fun _ r₃ _ => ?_) fun _ => hs
    rw [Confined.wp_run_bind]
    exact wp_decode (fun clientCanDo _ _ => htell id _ rfl _ rfl) fun _ => hs
  split
  · rw [Confined.wp_run_bind]
    refine wp_decode (fun _ r₃ _ => ?_) fun _ => hs
    rw [Confined.wp_run_bind]
    exact wp_decode (fun exitStatus _ _ => htell id _ rfl _ rfl) fun _ => hs
  split
  · rw [Confined.wp_run_bind]
    refine wp_decode (fun _ r₃ _ => ?_) fun _ => hs
    rw [Confined.wp_run_bind]
    refine wp_decode (fun signalName r₄ _ => ?_) fun _ => hs
    rw [Confined.wp_run_bind]
    refine wp_decode (fun coreDumped r₅ _ => ?_) fun _ => hs
    rw [Confined.wp_run_bind]
    refine wp_decode (fun errorMessage r₆ _ => ?_) fun _ => hs
    rw [Confined.wp_run_bind]
    exact wp_decode (fun langTag _ _ => htell id _ rfl _ rfl) fun _ => hs
  split
  · rw [Confined.wp_run_bind]
    refine wp_decoded (fun wantsReply _ hwants => ?_) fun _ => hs
    dsimp only
    split
    · exact first_answerRequest h hc hs _ rfl
    · exact hs
  · rw [Confined.wp_run_bind]
    refine wp_decoded (fun wantsReply _ hwants => ?_) fun _ => hs
    dsimp only
    split
    · exact first_answerRequest h hc hs _ rfl
    · exact hs

end

theorem first_readAuthenticated {buf : Bytes} (h : FirstRules clientStart P buf Cond I)
    (hc : Cond s) (hs : I s) :
    wp (readAuthenticated (P := P) env buf).run (fun _ t => I t) (fun _ t => I t) s := by
  by_cases hbuf : isDirected buf = true
  · cases buf with
    | nil => exact hs
    | cons msg r =>
      have hmem : msg ∈ [Msg.channelOpenConfirmation, Msg.channelOpenFailure, Msg.channelClose,
          Msg.channelData, Msg.channelExtendedData, Msg.channelRequest] := by
        simpa [isDirected] using hbuf
      simp only [List.mem_cons, List.not_mem_nil, or_false] at hmem
      rcases hmem with hm | hm | hm | hm | hm | hm <;> subst hm
      · exact first_channelOpenConfirmation h hc hs rfl
      · exact first_channelOpenFailure h hc hs rfl
      · exact first_channelClose h hc hs rfl
      · exact first_channelData h hc hs (.inl rfl)
      · exact first_channelExtendedData h hc hs (.inr rfl)
      · exact first_channelRequest h hc hs rfl
  · exact h.run_other (by simpa using hbuf) _ hc hs

/-- Before the authentication a packet about a channel is an error. -/
theorem first_waiting {buf : Bytes} {m : ClientPacketM P (some buf) Unit}
    (h : FirstRules clientStart P buf Cond I)
    (hm : isDirected buf = true → m.run = throw (Exn.error .inconsistent)) (hc : Cond s)
    (hs : I s) :
    wp m.run (fun _ t => I t) (fun _ t => I t) s := by
  by_cases hbuf : isDirected buf = true
  · rw [hm hbuf]
    exact hs
  · exact h.run_other (by simpa using hbuf) _ hc hs

theorem first_processPacket {buf : Bytes} (h : FirstRules clientStart P buf Cond I) (hc : Cond s)
    (hs : I s) :
    wp (processPacket (P := P) env buf).run (fun _ t => I t) (fun _ t => I t) s := by
  rw [processPacket, Confined.wp_run_bind, encrypted?, Confined.wp_run_bind, Confined.run_read,
    wp_get, Confined.run_pure, wp_pure]
  have hmem : isDirected buf = true → ∃ msg r, buf = msg :: r ∧
      msg ∈ [Msg.channelOpenConfirmation, Msg.channelOpenFailure, Msg.channelClose,
        Msg.channelData, Msg.channelExtendedData, Msg.channelRequest] := by
    intro hbuf
    cases buf with
    | nil => cases hbuf
    | cons msg r => exact ⟨msg, r, rfl, by simpa [isDirected] using hbuf⟩
  cases s.common.encrypted with
  | none => exact hs
  | some enc =>
    dsimp only
    split
    · refine first_waiting h (fun hbuf => ?_) hc hs
      obtain ⟨msg, r, rfl, hm⟩ := hmem hbuf
      simp only [List.mem_cons, List.not_mem_nil, or_false] at hm
      rcases hm with rfl | rfl | rfl | rfl | rfl | rfl <;> rfl
    · refine first_waiting h (fun hbuf => ?_) hc hs
      obtain ⟨msg, r, rfl, hm⟩ := hmem hbuf
      simp only [List.mem_cons, List.not_mem_nil, or_false] at hm
      rcases hm with rfl | rfl | rfl | rfl | rfl | rfl <;> rfl
    · exact hs
    · exact first_readAuthenticated h hc hs

end Client

namespace Server
open AppM

variable {P : Primitives} {env : ServerEnv} {msg : UInt8} {r : Bytes}
  {Cond I : ServerSession → Prop} {s : ServerSession}

theorem first_discard {pkt : Option Bytes} {m : ServerPacketM P pkt Bool}
    (hm : wp m.run (fun _ t => I t) (fun _ t => I t) s) :
    wp (discard m).run (fun _ t => I t) (fun _ t => I t) s := by
  rw [Confined.wp_run_discard]
  exact hm

section

variable (h : FirstRules serverStart P (msg :: r) Cond I) (hc : Cond s) (hs : I s)

include h hs

theorem first_callback {cb : ServerCallback} {hpkt : (some (msg :: r)).isSome = true}
    {hcall : cb.isConnection = true} {hdata : (Event.serverCallback cb).delivered = none} :
    wp (callback (P := P) env cb hpkt hcall hdata).run (fun _ t => I t) (fun _ t => I t) s := by
  have hserve : wp (serve cb hpkt hcall hdata : ServerPacketM P (some (msg :: r)) Unit).run
      (fun _ t => I t) (fun _ t => I t) s := h.rest (.serve rfl hcall hdata) hs
  rw [callback, Confined.wp_run_bind]
  exact wp_mono hserve (fun _ t ht => h.run_quiet (respond env cb) ht) fun _ _ ht => ht

theorem first_channelFailure {id : ChannelId} :
    wp (channelFailure id : ServerPacketM P (some (msg :: r)) Unit).run (fun _ t => I t)
      (fun _ t => I t) s :=
  h.run_quiet (channelFailure id) hs

/-- A request is handed to the channel and to the application. -/
theorem first_passRequest {id : ChannelId} {m : ChannelMsg} {hm : m.payload = none} :
    wp (passRequest (P := P) env id m hm : ServerPacketM P (some (msg :: r)) Unit).run
      (fun _ t => I t) (fun _ t => I t) s := by
  rw [passRequest, Confined.wp_run_bind]
  exact wp_mono (h.toChannel hs) (fun _ t ht => first_discard (first_callback h ht))
    fun _ _ ht => ht

theorem first_ptyRequest {id : ChannelId} {body : Bytes} :
    wp (readPtyRequest (P := P) env id body : ServerPacketM P (some (msg :: r)) Unit).run
      (fun _ t => I t) (fun _ t => I t) s := by
  rw [readPtyRequest, Confined.wp_run_bind]
  refine wp_decode (fun term r₁ _ => ?_) fun _ => hs
  rw [Confined.wp_run_bind]
  refine wp_decode (fun colWidth r₂ _ => ?_) fun _ => hs
  rw [Confined.wp_run_bind]
  refine wp_decode (fun rowHeight r₃ _ => ?_) fun _ => hs
  rw [Confined.wp_run_bind]
  refine wp_decode (fun pixWidth r₄ _ => ?_) fun _ => hs
  rw [Confined.wp_run_bind]
  refine wp_decode (fun pixHeight r₅ _ => ?_) fun _ => hs
  rw [Confined.wp_run_bind]
  refine wp_decode (fun modeString r₆ _ => ?_) fun _ => hs
  rw [Confined.wp_run_bind, Confined.run_lift, wp_ofExcept]
  refine wpExcept_iff.mpr ⟨fun modes _ => ?_, fun _ _ => hs⟩
  refine Confined.wp_seq (h.toChannel hs) fun _ t ht => ?_
  rw [Confined.wp_run_bind, Confined.run_lift, wp_ofExcept]
  exact wpExcept_iff.mpr ⟨fun slice _ => first_discard (first_callback h ht), fun _ _ => ht⟩

theorem first_x11Request {id : ChannelId} {body : Bytes} :
    wp (readX11Request (P := P) env id body : ServerPacketM P (some (msg :: r)) Unit).run
      (fun _ t => I t) (fun _ t => I t) s := by
  rw [readX11Request, Confined.wp_run_bind]
  refine wp_decode (fun singleConnection r₁ _ => ?_) fun _ => hs
  rw [Confined.wp_run_bind]
  refine wp_decode (fun x11AuthProtocol r₂ _ => ?_) fun _ => hs
  rw [Confined.wp_run_bind]
  refine wp_decode (fun x11AuthCookie r₃ _ => ?_) fun _ => hs
  rw [Confined.wp_run_bind]
  exact wp_decode (fun x11ScreenNumber _ _ => first_passRequest h hs) fun _ => hs

theorem first_envRequest {id : ChannelId} {body : Bytes} :
    wp (readEnvRequest (P := P) env id body : ServerPacketM P (some (msg :: r)) Unit).run
      (fun _ t => I t) (fun _ t => I t) s := by
  rw [readEnvRequest, Confined.wp_run_bind]
  refine wp_decode (fun envVariable r₁ _ => ?_) fun _ => hs
  rw [Confined.wp_run_bind]
  exact wp_decode (fun envValue _ _ => first_passRequest h hs) fun _ => hs

theorem first_windowChange {id : ChannelId} {body : Bytes} :
    wp (readWindowChange (P := P) env id body : ServerPacketM P (some (msg :: r)) Unit).run
      (fun _ t => I t) (fun _ t => I t) s := by
  rw [readWindowChange, Confined.wp_run_bind]
  refine wp_decode (fun colWidth r₁ _ => ?_) fun _ => hs
  rw [Confined.wp_run_bind]
  refine wp_decode (fun rowHeight r₂ _ => ?_) fun _ => hs
  rw [Confined.wp_run_bind]
  refine wp_decode (fun pixWidth r₃ _ => ?_) fun _ => hs
  rw [Confined.wp_run_bind]
  exact wp_decode (fun pixHeight _ _ => first_passRequest h hs) fun _ => hs

theorem first_answerAgentRequest (hmsg : firstByte? (some (msg :: r)) = some Msg.channelRequest)
    (response : Bool) :
    wp (answerAgentRequest (P := P) hmsg response).run (fun _ t => I t) (fun _ t => I t) s := by
  have hanswer : ∀ {m : Message} (hm : m.isReply = true), wp (do
      setWantsReply false
      answer (.inr hmsg) m hm : ServerPacketM P (some (msg :: r)) Unit).run (fun _ t => I t)
      (fun _ t => I t) s := by
    intro m hm
    refine Confined.wp_seq (h.run_frame hs) fun _ t ht => ?_
    exact h.answer _ hm ht
  rw [answerAgentRequest, Confined.wp_run_bind, Confined.run_read, wp_get]
  split
  · split
    · exact hanswer rfl
    · exact hs
  · exact hanswer rfl

theorem first_agentRequest (hmsg : firstByte? (some (msg :: r)) = some Msg.channelRequest)
    {id : ChannelId} :
    wp (readAgentRequest (P := P) hmsg env id).run (fun _ t => I t) (fun _ t => I t) s := by
  rw [readAgentRequest, Confined.wp_run_bind]
  refine wp_mono (h.toChannel hs) (fun _ t ht => ?_) fun _ _ ht => ht
  exact Confined.wp_seq (first_callback h ht) fun response u hu =>
    first_answerAgentRequest h hu hmsg _

/-- After the channel has noted whether an answer is wanted. -/
theorem first_request (hmsg : firstByte? (some (msg :: r)) = some Msg.channelRequest)
    {id : ChannelId} {req body : Bytes} :
    wp (readRequest (P := P) hmsg env id req body).run (fun _ t => I t) (fun _ t => I t) s := by
  unfold readRequest
  split
  · exact first_ptyRequest h hs
  split
  · exact first_x11Request h hs
  split
  · exact first_envRequest h hs
  split
  · exact first_passRequest h hs
  split
  · exact first_agentRequest h hs hmsg
  split
  · rw [Confined.wp_run_bind]
    exact wp_decode (fun command _ _ => first_passRequest h hs) fun _ => hs
  split
  · rw [Confined.wp_run_bind]
    exact wp_decode (fun name _ _ => first_passRequest h hs) fun _ => hs
  split
  · exact first_windowChange h hs
  split
  · rw [Confined.wp_run_bind]
    exact wp_decode (fun signal _ _ => first_passRequest h hs) fun _ => hs
  · exact first_channelFailure h hs

include hc

theorem first_channelClose (hmsg : msg = Msg.channelClose) :
    wp (readChannelClose (P := P) hmsg env r).run (fun _ t => I t) (fun _ t => I t) s := by
  rw [readChannelClose, Confined.wp_run_bind]
  refine wp_decoded (fun id r' hid => ?_) fun _ => hs
  dsimp only
  refine Confined.wp_seq (Confined.wp_move fun t hstep => h.own hstep hc hs) fun _ t ht => ?_
  exact Confined.wp_seq (h.run_frame ht) fun _ u hu => first_discard (first_callback h hu)

theorem first_channelRequest (hmsg : msg = Msg.channelRequest) :
    wp (readChannelRequest (P := P) hmsg env r).run (fun _ t => I t) (fun _ t => I t) s := by
  rw [readChannelRequest, Confined.wp_run_bind]
  refine wp_decoded (fun id r₁ hid => ?_) fun _ => hs
  dsimp only
  rw [Confined.wp_run_bind]
  refine wp_decoded (fun req r₂ hreq => ?_) fun _ => hs
  dsimp only
  rw [Confined.wp_run_bind]
  refine wp_decoded (fun wantsReply r₃ hwants => ?_) fun _ => hs
  dsimp only
  exact Confined.wp_seq (Confined.wp_move fun t hstep => h.own hstep hc hs) fun _ t ht =>
    first_request h ht _

theorem first_channelOpenConfirmation (hmsg : msg = Msg.channelOpenConfirmation) :
    wp (readChannelOpenConfirmation (P := P) hmsg env r).run (fun _ t => I t) (fun _ t => I t)
      s := by
  rw [readChannelOpenConfirmation, Confined.wp_run_bind]
  refine wp_decoded (fun c r' hd => ?_) fun _ => hs
  dsimp only
  refine Confined.wp_seq (Confined.wp_tryMove hs fun t hstep => h.own hstep hc hs) fun _ t ht => ?_
  exact Confined.wp_seq (h.toChannel ht) fun _ u hu => first_discard (first_callback h hu)

theorem first_channelOpenFailure (hmsg : msg = Msg.channelOpenFailure) :
    wp (readChannelOpenFailure (P := P) hmsg r).run (fun _ t => I t) (fun _ t => I t) s := by
  rw [readChannelOpenFailure, Confined.wp_run_bind]
  refine wp_decoded (fun id r₁ hid => ?_) fun _ => hs
  dsimp only
  rw [Confined.wp_run_bind]
  refine wp_decode (fun code r₂ _ => ?_) fun _ => hs
  rw [Confined.wp_run_bind]
  refine wp_decode (fun descr r₃ _ => ?_) fun _ => hs
  rw [Confined.wp_run_bind]
  refine wp_decode (fun language r₄ _ => ?_) fun _ => hs
  refine Confined.wp_seq (Confined.wp_move fun t hstep => h.own hstep hc hs) fun _ t ht => ?_
  rw [Confined.wp_run_bind, Confined.run_read, wp_get, Confined.wp_run_bind]
  refine wp_mono (h.run_frame ht) (fun _ u hu => ?_) fun _ _ hu => hu
  split
  · exact h.observe _ hu
  · exact hu

/-- The window of the channel is touched first. -/
theorem first_takeData {id : ChannelId} (hmsg : IsData (some (msg :: r)))
    (hid : (some (msg :: r)).bind recipientNumber? = some id) (buf : Bytes) :
    wp (takeData (P := P) hmsg hid env buf).run (fun _ t => I t) (fun _ t => I t) s := by
  rw [takeData, Confined.wp_run_bind, Confined.run_read, wp_get, Confined.wp_run_bind]
  refine wp_mono (Confined.wp_tryMove hs fun t hstep => h.own hstep hc hs) (fun grown t ht => ?_)
    fun _ _ ht => ht
  have hserve : wp (serve (.adjustWindow id s.targetWindowSize) rfl rfl rfl :
      ServerPacketM P (some (msg :: r)) Unit).run (fun _ t => I t) (fun _ t => I t) t :=
    h.rest (.serve rfl rfl rfl) ht
  dsimp only
  split
  · refine Confined.wp_seq hserve fun _ u hu => ?_
    rw [Confined.wp_run_bind, Confined.run_read, wp_get]
    split
    · exact h.run_frame hu
    · exact hu
  · exact ht

theorem first_channelData (hmsg : IsData (some (msg :: r))) :
    wp (readChannelData (P := P) hmsg env).run (fun _ t => I t) (fun _ t => I t) s := by
  rw [readChannelData, Confined.wp_run_bind]
  refine wp_decoded (fun id r₁ hid => ?_) fun _ => hs
  dsimp only
  rw [Confined.wp_run_bind]
  refine wp_decode (fun buf r₂ _ => ?_) fun _ => hs
  refine Confined.wp_seq (first_takeData h hc hs hmsg _ buf) fun _ t ht => ?_
  refine Confined.wp_seq (h.run_quiet (flush env) ht) fun _ u hu => ?_
  refine Confined.wp_seq (h.deliverToChannel hmsg hu) fun _ v hv => ?_
  refine Confined.wp_seq (h.deliver hmsg rfl hv) fun _ w hw => ?_
  exact first_discard (h.run_quiet (respond env (.data id buf)) hw)

theorem first_channelExtendedData (hmsg : IsData (some (msg :: r))) :
    wp (readChannelExtendedData (P := P) hmsg env).run (fun _ t => I t) (fun _ t => I t) s := by
  rw [readChannelExtendedData, Confined.wp_run_bind]
  refine wp_decoded (fun id r₁ hid => ?_) fun _ => hs
  dsimp only
  rw [Confined.wp_run_bind]
  refine wp_decode (fun ext r₂ _ => ?_) fun _ => hs
  rw [Confined.wp_run_bind]
  refine wp_decode (fun buf r₃ _ => ?_) fun _ => hs
  refine Confined.wp_seq (first_takeData h hc hs hmsg _ buf) fun _ t ht => ?_
  refine Confined.wp_seq (h.run_quiet (flush env) ht) fun _ u hu => ?_
  refine Confined.wp_seq (h.deliverToChannel hmsg hu) fun _ v hv => ?_
  refine Confined.wp_seq (h.deliver hmsg rfl hv) fun _ w hw => ?_
  exact first_discard (h.run_quiet (respond env (.extendedData id ext buf)) hw)

end

theorem first_readAuthenticated (h : FirstRules serverStart P (msg :: r) Cond I) (hc : Cond s)
    (hs : I s) :
    wp (readAuthenticated (P := P) env msg r).run (fun _ t => I t) (fun _ t => I t) s := by
  by_cases hbuf : isDirected (msg :: r) = true
  · have hmem : msg ∈ [Msg.channelOpenConfirmation, Msg.channelOpenFailure, Msg.channelClose,
        Msg.channelData, Msg.channelExtendedData, Msg.channelRequest] := by
      simpa [isDirected] using hbuf
    simp only [List.mem_cons, List.not_mem_nil, or_false] at hmem
    rcases hmem with hm | hm | hm | hm | hm | hm <;> subst hm
    · exact first_channelOpenConfirmation h hc hs rfl
    · exact first_channelOpenFailure h hc hs rfl
    · exact first_channelClose h hc hs rfl
    · exact first_channelData h hc hs (.inl rfl)
    · exact first_channelExtendedData h hc hs (.inr rfl)
    · exact first_channelRequest h hc hs rfl
  · exact h.run_other (by simpa using hbuf) _ hc hs

theorem first_processPacket {buf : Bytes} (h : FirstRules serverStart P buf Cond I)
    (hauth : ∀ s t, AuthStep s t → I s → I t) (hc : Cond s) (hcomp : Cond (initCompression s))
    (hcompI : I s → I (initCompression s)) (hs : I s) :
    wp (processPacket P env buf) (fun _ t => I t) (fun _ t => I t) s := by
  refine process_of_read hauth (fun s t hstep ht => h.rest hstep.of_none ht) (fun _ => id) ?_ ?_ hs
  · rintro msg r rfl
    exact first_readAuthenticated h hc hs
  · rintro msg r rfl
    exact first_readAuthenticated h hcomp (hcompI hs)

/-- The steps of the authentication have nothing to do with channels. -/
theorem aside_of_authStep {s t : ServerSession} (hstep : AuthStep s t) : Aside s t := by
  cases hstep with
  | common authUser authAttempts => exact ⟨⟨[], by simp [Session.events], by simp⟩, fun _ => rfl⟩
  | @record e he =>
    refine .record ?_
    cases e <;> simp_all [Event.isAuth, Event.isAside]
  | @write enc m hc hm =>
    exact .push hc (by cases m <;> simp_all [Message.isAuth, Message.isAboutChannel])
  | state state decompress hc => exact .of_calm (.setEncrypted hc rfl)

end Server

/-- An invariant that the steps which have nothing to do with channels keep. Before the packet
`buf` is read the session has to meet `Ready buf`, and afterwards it meets `Cond buf`. -/
structure TableInvariant {K C X : Type} (role : Role) (Ready Cond : Bytes → Session K C X → Prop)
    (I : Session K C X → Prop) : Prop where
  aside {s t} : Aside s t → I s → I t
  ready {s t buf} : Aside s t → Ready buf s → Ready buf t
  cond {s t buf} : Aside s t → Cond buf s → Cond buf t
  received {s buf} : Ready buf s → I s →
    Cond buf (s.record (.received buf)) ∧ I (s.record (.received buf))
  own {s t buf} : TableStep role (some buf) s t → Cond buf s → I s → I t
  rest {s t} : TableStep role (some []) s t → I s → I t
  other {s t buf} : isDirected buf = false → TableStep role (some buf) s t → Unread s t →
    Cond buf s → I s →
    Cond buf t ∧ I t

namespace TableInvariant

variable {K C X : Type} {role : Role} {Ready Cond : Bytes → Session K C X → Prop}
  {I : Session K C X → Prop}

theorem firstRules {start : KexStart K C} (h : TableInvariant start.role Ready Cond I)
    (P : Primitives) (buf : Bytes) : FirstRules start P buf (Cond buf) I where
  frame hf := h.cond (.of_calm (.of_frame hf))
  own hstep := h.own hstep.table
  rest hstep := h.rest hstep.table
  delivered {s e} he := h.aside (.record (by
    cases e <;> simp_all [Event.delivered, Event.isAside]))
  replied {s enc m} hm hc := h.aside (.push hc (by
    cases m <;> simp_all [Message.isReply, Message.isAboutChannel]))
  other hbuf hstep := h.other hbuf hstep.table hstep.unread

/-- The packet that the payload holds is one that the session is ready for. -/
def ReadyFor (P : Primitives) (Ready : Bytes → Session K C X → Prop) (payload : Bytes)
    (s : Session K C X) : Prop :=
  ∀ buf, openedPacket P payload s = some buf → Ready buf s

theorem readyFor_of_frame {P : Primitives} {payload : Bytes} {s t : Session K C X}
    (h : TableInvariant role Ready Cond I) (hf : s.Frame t) (hr : ReadyFor P Ready payload s) :
    ReadyFor P Ready payload t := by
  intro buf hb
  have hopen : openedPacket P payload t = openedPacket P payload s := by
    rw [openedPacket, openedPacket, hf.encrypted]
  exact h.ready (.of_calm (.of_frame hf)) (hr buf (hopen ▸ hb))

theorem received_of_opened {P : Primitives} {payload buf : Bytes} {s t : Session K C X}
    (h : TableInvariant role Ready Cond I) (ho : Opened P payload buf s t)
    (hr : ReadyFor P Ready payload s) (hs : I s) :
    Cond buf (t.record (.received buf)) ∧ I (t.record (.received buf)) :=
  h.received (h.ready (.of_calm (.opened ho)) (hr buf ho.openedPacket))
    (h.aside (.of_calm (.opened ho)) hs)

end TableInvariant

namespace Client

variable {P : Primitives} {Ready Cond : Bytes → ClientSession → Prop} {I : ClientSession → Prop}

theorem tableCalm (h : TableInvariant .client Ready Cond I) :
    ClientCalm P (fun input s => I s ∧ ∀ payload, input = .packet payload →
      TableInvariant.ReadyFor P Ready payload s) I I (fun buf s => I s ∧ Cond buf s) where
  start_frame hf hs := ⟨h.aside (.of_calm (.of_frame hf)) hs.1, fun payload hp =>
    h.readyFor_of_frame hf (hs.2 payload hp)⟩
  start_inv hs := hs.1
  inv_end hs := hs
  calm hcalm := h.aside (.of_calm hcalm)
  app hstep := h.rest hstep.of_none.table
  received ho hs := (h.received_of_opened ho (hs.2 _ rfl) hs.1).symm
  mid_calm hcalm _ hs := ⟨h.aside (.of_calm hcalm) hs.1, h.cond (.of_calm hcalm) hs.2⟩
  mid_end hs := hs.1
  mid_skip _ hs := hs.1
  process _ hs := first_processPacket (h.firstRules _ _) hs.2 hs.1

/-- What holds in the first session holds in every state of every run whose packets the session is
ready for. -/
theorem table_run (h : TableInvariant .client Ready Cond I)
    (Meets : ClientLoop → ClientEnv × ClientInput → Prop)
    (hmeets : ∀ l env payload, Meets l (env, .packet payload) →
      TableInvariant.ReadyFor P Ready payload l.session)
    {env : ClientEnv} {config : ClientConfig} {remoteSshid : Bytes}
    {labels : List (ClientEnv × ClientInput)} {l : ClientLoop}
    (hnew : I (newSession config remoteSshid))
    (hal : Run.Along (Client.step P) Meets (Client.start P env config remoteSshid) labels)
    (hrun : Run.run (Client.step P) (Client.start P env config remoteSshid) labels = some l) :
    I l.session := by
  refine ((tableCalm h).run Meets (fun l label hc _ hi => ⟨hi, fun payload hp => ?_⟩) hnew hal
    hrun).ended
  obtain ⟨env, input⟩ := label
  cases hp
  exact hmeets l env payload hc

end Client

namespace Server

variable {P : Primitives} {Ready Cond : Bytes → ServerSession → Prop} {I : ServerSession → Prop}

theorem tableCalm (h : TableInvariant .server Ready Cond I) :
    ServerCalm P (fun input s => I s ∧ ∀ payload, input = .packet payload →
      TableInvariant.ReadyFor P Ready payload s) I I (fun buf s => I s ∧ Cond buf s) where
  start_frame hf hs := ⟨h.aside (.of_calm (.of_frame hf)) hs.1, fun payload hp =>
    h.readyFor_of_frame hf (hs.2 payload hp)⟩
  start_inv hs := hs.1
  inv_end hs := hs
  calm hcalm := h.aside (.of_calm hcalm)
  app hstep := h.rest hstep.of_none.table
  received ho hs := (h.received_of_opened ho (hs.2 _ rfl) hs.1).symm
  mid_calm hcalm _ hs := ⟨h.aside (.of_calm hcalm) hs.1, h.cond (.of_calm hcalm) hs.2⟩
  mid_end hs := hs.1
  mid_skip _ hs := hs.1
  process {s _} _ hs := first_processPacket (h.firstRules _ _)
    (fun _ _ hstep => h.aside (aside_of_authStep hstep)) hs.2
    (h.cond (.of_calm (calm_initCompression s)) hs.2)
    (h.aside (.of_calm (calm_initCompression s))) hs.1

/-- What holds in the first session holds in every state of every run whose packets the session is
ready for. -/
theorem table_run (h : TableInvariant .server Ready Cond I)
    (Meets : ServerLoop → ServerEnv × ServerInput → Prop)
    (hmeets : ∀ l env payload, Meets l (env, .packet payload) →
      TableInvariant.ReadyFor P Ready payload l.session)
    {env : ServerEnv} {config : ServerConfig} {remoteSshid : Bytes}
    {labels : List (ServerEnv × ServerInput)} {l : ServerLoop}
    (hnew : I (newSession config remoteSshid))
    (hal : Run.Along (Server.step P) Meets (Server.start P env config remoteSshid) labels)
    (hrun : Run.run (Server.step P) (Server.start P env config remoteSshid) labels = some l) :
    I l.session := by
  refine ((tableCalm h).run Meets (fun l label hc _ hi => ⟨hi, fun payload hp => ?_⟩) hnew hal
    hrun).ended
  obtain ⟨env, input⟩ := label
  cases hp
  exact hmeets l env payload hc

end Server

end Edgessh.Russh
