import Edgessh.Russh.Client.GlobalRequests
import Edgessh.Russh.Server.Binding
import Edgessh.Russh.Session.Flow

/-!
# The peer's credit, in every run

Neither a client nor a server delivers more data than it has granted, as long as the data that it
reads fits into the window. The code does not check this: data that does not fit is delivered too,
and nobody accounts for it.
-/

namespace Edgessh.Russh
open Edgessh.Command Edgessh.Run Relation

section Packets

variable {K C X : Type} {s t : Session K C X} {buf : Bytes}

theorem fitsWindow_eq (h : t.common.encrypted = s.common.encrypted) :
    fitsWindow buf t = fitsWindow buf s := by
  rw [fitsWindow, fitsWindow, h]

/-- The decompression of a packet changes no window. -/
theorem fitsWindow_opened {P : Primitives} {payload : Bytes} (h : Opened P payload buf s t) :
    fitsWindow buf t = fitsWindow buf s := by
  cases h with
  | clear => rfl
  | decompressed hc _ =>
    rw [fitsWindow, fitsWindow, hc]
    rfl

end Packets

namespace Client

variable {P : Primitives} {s : ClientSession} {env : ClientEnv} {id : ChannelId}
  {data pkt : Bytes}

/-- The accounting for some data. -/
theorem flow_takeData {enc : Encrypted} {hmsg : AppM.IsData (some pkt)}
    {hid : (some pkt).bind recipientNumber? = some id} (hc : s.common.encrypted = some enc)
    (hfits : data.length ≤ enc.senderWindowSize id) (h : Settled s) :
    wp (takeData hmsg hid env data : ClientPacketM P (some pkt) Unit).run
      (fun _ t => Flow (debt id data.length) (debt id data.length) t)
      (fun _ t => Traced FlowLaw t.events) s := by
  rw [takeData, Confined.wp_run_bind, Confined.run_read, wp_get, Confined.wp_run_bind]
  refine wp_mono (h.wp_adjustWindowSize hc hfits) (fun grown t ht => ?_) fun _ _ ht => ht
  split
  · have hasked : Flow (debt id data.length) (debt id data.length)
        (t.record (.clientCallback (.adjustWindow id s.targetWindowSize))) := ht.record rfl
    simp only [Confined.wp_run_bind, AppM.observe, Confined.run_move, wp_modify,
      Confined.run_read, wp_get]
    split
    · exact wp_mono (wp_frame_of_quiet (fun _ _ _ hq hu => hu.quiet hq) _ _ hasked)
        (fun _ _ hu => hu) fun _ _ hu => hu.lawful
    · exact hasked
  · exact ht

/-- The data is handed on. -/
theorem flow_handOn {hmsg : AppM.IsData (some pkt)} {m : ChannelMsg} {call : ClientCallback}
    {hm : m.payload.isSome = true} {hcall : (Event.clientCallback call).delivered.isSome = true}
    (hdata : m.payload = some data)
    (hcredit : (Event.clientCallback call).credit = some (id, .toHandler data.length))
    (h : Flow (debt id data.length) (debt id data.length) s) :
    wp (do
        AppM.deliverToChannel hmsg id m hm
        AppM.deliver hmsg (.clientCallback call) hcall
        AppM.quiet (respond env call) : ClientPacketM P (some pkt) Unit).run
      (fun _ t => Settled t) (fun _ t => Traced FlowLaw t.events) s := by
  refine Confined.wp_seq (h.wp_deliverToChannel hdata) fun _ t ht => ?_
  rw [Confined.wp_run_bind, AppM.deliver, Confined.run_move, wp_modify]
  exact wp_mono (Confined.wp_invariant (fun _ _ hstep hu => hu.app hstep (by simp [AppM.IsData]))
    (respond env call) (ht.deliver hcredit)) (fun _ _ hu => hu) fun _ _ hu => hu.lawful

theorem flow_readChannelData {enc : Encrypted} {r : Bytes}
    {hmsg : AppM.IsData (some (Msg.channelData :: r))} (hc : s.common.encrypted = some enc)
    (hst : enc.state.isAuthenticated = true) (hfits : fitsWindow (Msg.channelData :: r) s = true)
    (h : Settled s) :
    wp (readChannelData hmsg env : ClientPacketM P (some (Msg.channelData :: r)) Unit).run
      (fun _ t => Settled t) (fun _ t => Traced FlowLaw t.events) s := by
  rw [readChannelData, Confined.wp_run_bind]
  refine AppM.wp_decoded (fun id r₁ hid => ?_) fun _ => h.lawful
  dsimp only
  rw [Confined.wp_run_bind]
  refine AppM.wp_decode (fun buf r₂ hbuf => ?_) fun _ => h.lawful
  have hdata := dataPacket?_of_channelData hid hbuf
  dsimp only
  exact Confined.wp_seq (flow_takeData hc (length_le_of_fitsWindow hfits hc hst hdata) h)
    fun _ t ht => flow_handOn rfl rfl ht

theorem flow_readChannelExtendedData {enc : Encrypted} {r : Bytes}
    {hmsg : AppM.IsData (some (Msg.channelExtendedData :: r))}
    (hc : s.common.encrypted = some enc) (hst : enc.state.isAuthenticated = true)
    (hfits : fitsWindow (Msg.channelExtendedData :: r) s = true) (h : Settled s) :
    wp (readChannelExtendedData hmsg env :
        ClientPacketM P (some (Msg.channelExtendedData :: r)) Unit).run
      (fun _ t => Settled t) (fun _ t => Traced FlowLaw t.events) s := by
  rw [readChannelExtendedData, Confined.wp_run_bind]
  refine AppM.wp_decoded (fun id r₁ hid => ?_) fun _ => h.lawful
  dsimp only
  rw [Confined.wp_run_bind]
  refine AppM.wp_decode (fun ext r₂ hext => ?_) fun _ => h.lawful
  dsimp only
  rw [Confined.wp_run_bind]
  refine AppM.wp_decode (fun buf r₃ hbuf => ?_) fun _ => h.lawful
  have hdata := dataPacket?_of_channelExtendedData hid hext hbuf
  dsimp only
  exact Confined.wp_seq (flow_takeData hc (length_le_of_fitsWindow hfits hc hst hdata) h)
    fun _ t ht => flow_handOn rfl rfl ht

theorem flow_processPacket {buf : Bytes} (hfits : fitsWindow buf s = true) (h : Settled s) :
    wp (processPacket (P := P) env buf).run (fun _ t => Settled t)
      (fun _ t => Traced FlowLaw t.events) s := by
  by_cases hdata : AppM.IsData (some buf)
  · rw [processPacket, Confined.wp_run_bind, AppM.encrypted?, Confined.wp_run_bind,
      Confined.run_read, wp_get, Confined.run_pure, wp_pure]
    cases hc : s.common.encrypted with
    | none => exact h
    | some enc =>
      dsimp only
      cases buf with
      | nil => simp [AppM.IsData] at hdata
      | cons msg r =>
        have hmsg : msg = Msg.channelData ∨ msg = Msg.channelExtendedData := by
          simpa [AppM.IsData] using hdata
        cases hst : enc.state with
        | waitingAuthServiceRequest sent accepted =>
          rcases hmsg with rfl | rfl <;> exact h.lawful
        | waitingAuthRequest request =>
          rcases hmsg with rfl | rfl <;> exact h.lawful
        | initCompression => exact h.lawful
        | authenticated =>
          have hauth : enc.state.isAuthenticated = true := by rw [hst]; rfl
          rcases hmsg with rfl | rfl
          · exact flow_readChannelData hc hauth hfits h
          · exact flow_readChannelExtendedData hc hauth hfits h
  · exact wp_mono (Confined.wp_invariant (fun _ _ hstep ht => ht.app hstep hdata) _ h)
      (fun _ _ ht => ht) fun _ _ ht => ht.lawful

end Client

namespace Server

variable {P : Primitives} {s t : ServerSession} {env : ServerEnv} {id : ChannelId}
  {data pkt : Bytes}

theorem wp_flush_of_quiet {I : ServerSession → Prop} (hI : ∀ s t new, Quiet s t new → I s → I t)
    (hs : I s) :
    wp (flush env : ServerAppM P Unit).run (fun _ t => I t) (fun _ t => I t) s := by
  rw [flush, Confined.wp_run_bind, Confined.run_read, wp_get, Confined.wp_run_bind]
  refine wp_mono (wp_flushWrite_of_quiet hI _ _ hs) (fun due t ht => ?_) fun _ _ ht => ht
  split
  · rw [rekeyIfIdle, Confined.wp_run_bind, Confined.run_read, wp_get]
    split
    · rw [Confined.wp_run_bind, takeExchange, Confined.wp_run_bind]
      refine wp_mono (wp_update_of_quiet hI _ _ ht) (fun taken u hu => ?_) fun _ _ hu => hu
      rw [Confined.run_pure, wp_pure]
      split
      · exact wp_beginRekeyIfIdle_of_quiet hI _ hu
      · exact hu
    · exact ht
  · exact ht

/-- The accounting for some data. -/
theorem flow_takeData {enc : Encrypted} {hmsg : AppM.IsData (some pkt)}
    {hid : (some pkt).bind recipientNumber? = some id} (hc : s.common.encrypted = some enc)
    (hfits : data.length ≤ enc.senderWindowSize id) (h : Settled s) :
    wp (takeData hmsg hid env data : ServerPacketM P (some pkt) Unit).run
      (fun _ t => Flow (debt id data.length) (debt id data.length) t)
      (fun _ t => Traced FlowLaw t.events) s := by
  rw [takeData, Confined.wp_run_bind, Confined.run_read, wp_get, Confined.wp_run_bind]
  refine wp_mono (h.wp_adjustWindowSize hc hfits) (fun grown t ht => ?_) fun _ _ ht => ht
  split
  · have hasked : Flow (debt id data.length) (debt id data.length)
        (t.record (.serverCallback (.adjustWindow id s.targetWindowSize))) := ht.record rfl
    simp only [Confined.wp_run_bind, AppM.serve, Confined.run_move, wp_modify,
      Confined.run_read, wp_get]
    split
    · exact wp_mono (wp_frame_of_quiet (fun _ _ _ hq hu => hu.quiet hq) _ _ hasked)
        (fun _ _ hu => hu) fun _ _ hu => hu.lawful
    · exact hasked
  · exact ht

/-- The data is handed on. -/
theorem flow_handOn {hmsg : AppM.IsData (some pkt)} {m : ChannelMsg} {call : ServerCallback}
    {hm : m.payload.isSome = true} {hcall : (Event.serverCallback call).delivered.isSome = true}
    (hdata : m.payload = some data)
    (hcredit : (Event.serverCallback call).credit = some (id, .toHandler data.length))
    (h : Flow (debt id data.length) (debt id data.length) s) :
    wp (do
        AppM.quiet (flush env)
        AppM.deliverToChannel hmsg id m hm
        AppM.deliver hmsg (.serverCallback call) hcall
        discard (AppM.quiet (respond env call)) : ServerPacketM P (some pkt) Unit).run
      (fun _ t => Settled t) (fun _ t => Traced FlowLaw t.events) s := by
  rw [Confined.wp_run_bind]
  refine wp_mono (wp_flush_of_quiet (P := P) (fun _ _ _ hq hu => hu.quiet hq) h)
    (fun _ t h => ?_) fun _ _ ht => ht.lawful
  refine Confined.wp_seq (h.wp_deliverToChannel hdata) fun _ t ht => ?_
  rw [Confined.wp_run_bind, AppM.deliver, Confined.run_move, wp_modify]
  exact wp_mono (Confined.wp_invariant (fun _ _ hstep hu => hu.app hstep (by simp [AppM.IsData]))
    (discard (respond env call)) (ht.deliver hcredit)) (fun _ _ hu => hu) fun _ _ hu => hu.lawful

theorem flow_readChannelData {enc : Encrypted} {r : Bytes}
    {hmsg : AppM.IsData (some (Msg.channelData :: r))} (hc : s.common.encrypted = some enc)
    (hst : enc.state.isAuthenticated = true) (hfits : fitsWindow (Msg.channelData :: r) s = true)
    (h : Settled s) :
    wp (readChannelData hmsg env : ServerPacketM P (some (Msg.channelData :: r)) Unit).run
      (fun _ t => Settled t) (fun _ t => Traced FlowLaw t.events) s := by
  rw [readChannelData, Confined.wp_run_bind]
  refine AppM.wp_decoded (fun id r₁ hid => ?_) fun _ => h.lawful
  dsimp only
  rw [Confined.wp_run_bind]
  refine AppM.wp_decode (fun buf r₂ hbuf => ?_) fun _ => h.lawful
  have hdata := dataPacket?_of_channelData hid hbuf
  dsimp only
  exact Confined.wp_seq (flow_takeData hc (length_le_of_fitsWindow hfits hc hst hdata) h)
    fun _ t ht => flow_handOn rfl rfl ht

theorem flow_readChannelExtendedData {enc : Encrypted} {r : Bytes}
    {hmsg : AppM.IsData (some (Msg.channelExtendedData :: r))}
    (hc : s.common.encrypted = some enc) (hst : enc.state.isAuthenticated = true)
    (hfits : fitsWindow (Msg.channelExtendedData :: r) s = true) (h : Settled s) :
    wp (readChannelExtendedData hmsg env :
        ServerPacketM P (some (Msg.channelExtendedData :: r)) Unit).run
      (fun _ t => Settled t) (fun _ t => Traced FlowLaw t.events) s := by
  rw [readChannelExtendedData, Confined.wp_run_bind]
  refine AppM.wp_decoded (fun id r₁ hid => ?_) fun _ => h.lawful
  dsimp only
  rw [Confined.wp_run_bind]
  refine AppM.wp_decode (fun ext r₂ hext => ?_) fun _ => h.lawful
  dsimp only
  rw [Confined.wp_run_bind]
  refine AppM.wp_decode (fun buf r₃ hbuf => ?_) fun _ => h.lawful
  have hdata := dataPacket?_of_channelExtendedData hid hext hbuf
  dsimp only
  exact Confined.wp_seq (flow_takeData hc (length_le_of_fitsWindow hfits hc hst hdata) h)
    fun _ t ht => flow_handOn rfl rfl ht

/-- The steps of the authentication say nothing about credit. -/
theorem settled_of_authStep (hstep : AuthStep s t) (h : Settled s) : Settled t := by
  cases hstep with
  | common authUser authAttempts =>
    exact h.calm (.of_same (s := s) rfl rfl rfl (fun _ => rfl) (fun _ => .inl rfl) id)
  | @record e he =>
    refine h.record ?_
    cases e with
    | serverCallback call =>
      cases call <;> simp_all [Event.isAuth, ServerCallback.isConnection, Event.credit]
    | _ => simp_all [Event.isAuth, Event.credit]
  | @write enc m hc hm =>
    refine h.extend (Session.events_wrote ..) ?_ fun id channel' hc' => ⟨channel', ?_, rfl⟩
    · cases m <;> simp_all [Message.isAuth, Event.credit, Message.credit]
    · rw [Session.entries_eq hc]
      exact hc'
  | state state decompress hc => exact h.calm (.setEncrypted hc rfl)

theorem flow_processPacket {buf : Bytes} (hfits : fitsWindow buf s = true) (h : Settled s) :
    wp (processPacket P env buf) (fun _ t => Settled t) (fun _ t => Traced FlowLaw t.events) s := by
  by_cases hdata : AppM.IsData (some buf)
  · unfold processPacket
    rw [wp_bind, wp_get]
    cases hc : s.common.encrypted with
    | none => exact h.lawful
    | some enc =>
      cases buf with
      | nil => simp [AppM.IsData] at hdata
      | cons msg r =>
        have hmsg : msg = Msg.channelData ∨ msg = Msg.channelExtendedData := by
          simpa [AppM.IsData] using hdata
        dsimp only [processEncrypted]
        cases hst : enc.state with
        | waitingAuthServiceRequest sent accepted =>
          rcases hmsg with rfl | rfl <;> exact h
        | waitingAuthRequest request =>
          rcases hmsg with rfl | rfl <;> exact h
        | initCompression =>
          dsimp only
          rw [wp_bind, wp_modify]
          have hcalm := h.calm (calm_initCompression s)
          have henc : (initCompression s).common.encrypted =
              some { enc with state := .authenticated } := by
            unfold initCompression
            rw [hc]
            rfl
          have hfits' : fitsWindow (msg :: r) (initCompression s) = true := by
            have hsame : ∀ id, Encrypted.senderWindowSize id { enc with state := .authenticated } =
                enc.senderWindowSize id := fun _ => rfl
            rw [fitsWindow, hc] at hfits
            rw [fitsWindow, henc]
            simpa [hst, EncryptedState.isAuthenticated, hsame] using hfits
          rcases hmsg with rfl | rfl
          · exact flow_readChannelData henc rfl hfits' hcalm
          · exact flow_readChannelExtendedData henc rfl hfits' hcalm
        | authenticated =>
          have hauth : enc.state.isAuthenticated = true := by rw [hst]; rfl
          rcases hmsg with rfl | rfl
          · exact flow_readChannelData hc hauth hfits h
          · exact flow_readChannelExtendedData hc hauth hfits h
  · exact wp_mono (process_of_steps (fun _ _ => settled_of_authStep)
      (fun _ _ hstep ht => ht.app hstep hdata) (fun s ht => ht.calm (calm_initCompression s))
      (fun _ ht => ht) h) (fun _ _ ht => ht) fun _ _ ht => ht.lawful

end Server

section Runs

variable {K C X : Type} {s t : Session K C X} {P : Primitives} {payload buf : Bytes}

/-- The packet that the payload holds fits, if it is one with data. -/
def readFits (P : Primitives) (payload : Bytes) (s : Session K C X) : Bool :=
  (openedPacket P payload s).all fun buf => fitsWindow buf s

theorem readFits_of_frame (hf : s.Frame t) (h : readFits P payload s = true) :
    readFits P payload t = true := by
  have hopen : openedPacket P payload t = openedPacket P payload s := by
    rw [openedPacket, openedPacket, hf.encrypted]
  simpa [readFits, hopen, fitsWindow_eq hf.encrypted] using h

theorem settled_received (ho : Opened P payload buf s t) (h : Settled s)
    (hfits : readFits P payload s = true) :
    Settled (t.record (.received buf)) ∧ fitsWindow buf (t.record (.received buf)) = true := by
  refine ⟨(h.calm (.opened ho)).record rfl, ?_⟩
  have hbuf : fitsWindow buf s = true := by simpa [readFits, ho.openedPacket] using hfits
  rw [fitsWindow_eq (Session.encrypted_record _), fitsWindow_opened ho]
  exact hbuf

theorem settled_of_fresh (hev : s.events = []) (hc : s.common.encrypted = none) : Settled s := by
  refine ⟨hev ▸ traced_nil, fun id channel h => ?_, fun id => ?_, fun id => ?_⟩
  · simp [Session.entries, hc] at h
  · simp [hev, ledger]
  · simp [hev, ledger]

/-- The condition on a step of a client. -/
def Client.readsFit (P : Primitives) (l : ClientLoop) : ClientEnv × ClientInput → Bool
  | (_, .packet payload) => readFits P payload l.session
  | _ => true

/-- The condition on a step of a server. -/
def Server.readsFit (P : Primitives) (l : ServerLoop) : ServerEnv × ServerInput → Bool
  | (_, .packet payload) => readFits P payload l.session
  | _ => true

theorem Client.flowCalm (P : Primitives) :
    ClientCalm P (fun input s => Settled s ∧ ∀ payload, input = .packet payload →
      readFits P payload s = true) Settled (fun s => Traced FlowLaw s.events)
      (fun buf s => Settled s ∧ fitsWindow buf s = true) where
  start_frame hf h :=
    ⟨h.1.quiet (.frame hf), fun payload hi => readFits_of_frame hf (h.2 payload hi)⟩
  start_inv h := h.1
  inv_end h := h.lawful
  calm hc h := h.calm hc
  app hstep h := h.app hstep (by simp [AppM.IsData])
  received ho h := settled_received ho h.1 (h.2 _ rfl)
  mid_calm hc henc h := ⟨h.1.calm hc, (fitsWindow_eq henc).trans h.2⟩
  mid_end h := h.1.lawful
  mid_skip _ h := h.1
  process _ h := flow_processPacket h.2 h.1

theorem Server.flowCalm (P : Primitives) :
    ServerCalm P (fun input s => Settled s ∧ ∀ payload, input = .packet payload →
      readFits P payload s = true) Settled (fun s => Traced FlowLaw s.events)
      (fun buf s => Settled s ∧ fitsWindow buf s = true) where
  start_frame hf h :=
    ⟨h.1.quiet (.frame hf), fun payload hi => readFits_of_frame hf (h.2 payload hi)⟩
  start_inv h := h.1
  inv_end h := h.lawful
  calm hc h := h.calm hc
  app hstep h := h.app hstep (by simp [AppM.IsData])
  received ho h := settled_received ho h.1 (h.2 _ rfl)
  mid_calm hc henc h := ⟨h.1.calm hc, (fitsWindow_eq henc).trans h.2⟩
  mid_end h := h.1.lawful
  mid_skip _ h := h.1
  process _ h := flow_processPacket h.2 h.1

/-- In a run in which all data that is read fits into its window, no channel is delivered more
than has been granted for it, and every window is what is left of the grants. -/
theorem receive_flow (P : Primitives) :
    (∀ env config remoteSshid labels l,
      Along (Client.step P) (fun l label => Client.readsFit P l label = true)
        (Client.start P env config remoteSshid) labels →
      run (Client.step P) (Client.start P env config remoteSshid) labels = some l →
      Traced FlowLaw l.session.events ∧ (l.running = true → WindowsBalanced l.session)) ∧
    ∀ env config remoteSshid labels l,
      Along (Server.step P) (fun l label => Server.readsFit P l label = true)
        (Server.start P env config remoteSshid) labels →
      run (Server.step P) (Server.start P env config remoteSshid) labels = some l →
      Traced FlowLaw l.session.events ∧ (l.running = true → WindowsBalanced l.session) := by
  constructor
  · intro env config remoteSshid labels l hal hrun
    have h := (Client.flowCalm P).run (fun l label => Client.readsFit P l label = true)
      (fun l label hc _ hi => ⟨hi, fun payload hp => by
        obtain ⟨env, input⟩ := label
        cases hp
        exact hc⟩) (settled_of_fresh rfl rfl) hal hrun
    exact ⟨h.ended, fun hr => (h.running hr).1.windowsBalanced⟩
  · intro env config remoteSshid labels l hal hrun
    have h := (Server.flowCalm P).run (fun l label => Server.readsFit P l label = true)
      (fun l label hc _ hi => ⟨hi, fun payload hp => by
        obtain ⟨env, input⟩ := label
        cases hp
        exact hc⟩) (settled_of_fresh rfl rfl) hal hrun
    exact ⟨h.ended, fun hr => (h.running hr).1.windowsBalanced⟩

end Runs

section Examples

/-- A CHANNEL_DATA for the channel `2`. -/
def dataPacket (data : Bytes) : Bytes := Msg.channelData :: encodeU32 2 ++ encodeBytes data

/-- A client with windows of four bytes. -/
def smallClient : ClientConfig := { Client.anonymousClient with windowSize := 4 }

/-- A server with windows of four bytes. -/
def smallServer : ServerConfig := { Server.onlyCurve25519 with windowSize := 4 }

/-- A client opens a channel, and reads these packets. -/
def openingClient (packets : List Bytes) : List (ClientEnv × Client.ClientInput) :=
  Client.packetRun (Client.exchangePackets [7] 215) ++
    [(Client.trustingSeven, .send (.channelOpenSession ⟨1⟩)), (Client.trustingSeven, .receive)] ++
    Client.packetRun packets

/-- A client of a server opens a channel, and sends these packets. -/
def openingServer (packets : List Bytes) : List (ServerEnv × Server.ServerInput) :=
  Server.loginRun ([Server.rootRequest (ascii "none") [],
    Msg.channelOpen :: encodeBytes (ascii "session") ++ encodeU32 0 ++ encodeU32 100 ++
      encodeU32 100] ++ packets)

/-- Two bytes, and three more after the window has been enlarged. -/
theorem receive_flow_five :
    (∃ l, run (Client.step .toy) (Client.start .toy Client.trustingSeven smallClient [])
        (openingClient [dataPacket [1, 2, 3], dataPacket [4, 5]]) = some l ∧
      ledger 2 l.session.events = ⟨7, 5, 5⟩ ∧ Traced FlowLaw l.session.events ∧
      (l.running = true → WindowsBalanced l.session)) ∧
    ∃ l, run (Server.step .toy) (Server.start .toy Server.knowingFive smallServer [])
        (openingServer [dataPacket [1, 2, 3], dataPacket [4, 5]]) = some l ∧
      ledger 2 l.session.events = ⟨7, 5, 5⟩ ∧ Traced FlowLaw l.session.events ∧
      (l.running = true → WindowsBalanced l.session) := by
  have hclient : ((run (Client.step .toy) (Client.start .toy Client.trustingSeven smallClient [])
      (openingClient [dataPacket [1, 2, 3], dataPacket [4, 5]])).map fun l =>
      ledger 2 l.session.events) = some ⟨7, 5, 5⟩ := by
    decide +kernel
  have hserver : ((run (Server.step .toy) (Server.start .toy Server.knowingFive smallServer [])
      (openingServer [dataPacket [1, 2, 3], dataPacket [4, 5]])).map fun l =>
      ledger 2 l.session.events) = some ⟨7, 5, 5⟩ := by
    decide +kernel
  obtain ⟨l, hl, hledger⟩ := Option.map_eq_some_iff.mp hclient
  obtain ⟨l', hl', hledger'⟩ := Option.map_eq_some_iff.mp hserver
  exact ⟨⟨l, hl, hledger, (receive_flow .toy).1 _ _ _ _ _ (by decide +kernel) hl⟩,
    l', hl', hledger', (receive_flow .toy).2 _ _ _ _ _ (by decide +kernel) hl'⟩

/-- The law holds of the last event, too. -/
theorem not_traced_of_ledger {events : List Event} {id : ChannelId}
    (h : (ledger id events).granted < (ledger id events).toHandler) : ¬Traced FlowLaw events := by
  intro ht
  rcases List.eq_nil_or_concat events with rfl | ⟨pre, e, rfl⟩
  · simp [ledger] at h
  · rw [List.concat_eq_append] at h ht
    exact absurd ((traced_concat.mp ht).2 id).1 (Nat.not_le.mpr h)

/-- Five bytes are delivered where four have been granted. -/
theorem not_receive_flow_five :
    (∃ l, run (Client.step .toy) (Client.start .toy Client.trustingSeven smallClient [])
        (openingClient [dataPacket [1, 2, 3, 4, 5]]) = some l ∧
      ¬Traced FlowLaw l.session.events) ∧
    ∃ l, run (Server.step .toy) (Server.start .toy Server.knowingFive smallServer [])
        (openingServer [dataPacket [1, 2, 3, 4, 5]]) = some l ∧
      ¬Traced FlowLaw l.session.events := by
  have hclient : ((run (Client.step .toy) (Client.start .toy Client.trustingSeven smallClient [])
      (openingClient [dataPacket [1, 2, 3, 4, 5]])).map fun l =>
      ledger 2 l.session.events) = some ⟨4, 5, 5⟩ := by
    decide +kernel
  have hserver : ((run (Server.step .toy) (Server.start .toy Server.knowingFive smallServer [])
      (openingServer [dataPacket [1, 2, 3, 4, 5]])).map fun l =>
      ledger 2 l.session.events) = some ⟨4, 5, 5⟩ := by
    decide +kernel
  obtain ⟨l, hl, hledger⟩ := Option.map_eq_some_iff.mp hclient
  obtain ⟨l', hl', hledger'⟩ := Option.map_eq_some_iff.mp hserver
  exact ⟨⟨l, hl, not_traced_of_ledger (by rw [hledger]; decide)⟩,
    l', hl', not_traced_of_ledger (by rw [hledger']; decide)⟩

end Examples

end Edgessh.Russh
