import Edgessh.Lib.Trace
import Edgessh.Russh.Client.HostKey

/-!
# The authentication of a client

The state of the authentication goes from the service over the requests to `InitCompression`, and
from there to `Authenticated` at the end of the turn. `AuthLaw` says of every event what this
allows: the handle is told of a success once, after a request; no packet is worked on in
`InitCompression`; a CHANNEL_OPEN is written in `Authenticated`.
-/

namespace Edgessh.Russh
open Edgessh.Command Edgessh.Run

/-- A CHANNEL_OPEN. -/
def Message.isChannelOpen : Message → Bool
  | .channelOpen .. => true
  | _ => false

theorem Message.isChannelOpen_of_isPlain {m : Message} (h : m.isPlain = true) :
    m.isChannelOpen = false := by
  cases m <;> simp_all [isPlain, isChannelOpen]

/-- An event that says nothing of the authentication of a client, and opens no channel. -/
def Event.isAuthNeutral : Event → Bool
  | .reply r => r != .authSuccess
  | .entered _ => false
  | .wrote m => !m.isChannelOpen
  | _ => true

namespace Client

/-- A USERAUTH_REQUEST has been written. -/
def WroteAuthRequest (events : List Event) : Prop := ∃ m, .wrote m ∈ events ∧ m.isAuthRequest = true

/-- What an event says of those before it. -/
def AuthLaw (pre : List Event) : Event → Prop
  | .reply .authSuccess => WroteAuthRequest pre ∧ .reply .authSuccess ∉ pre
  | .entered state => state ≠ .initCompression
  | .wrote m => m.isChannelOpen = true → pre.getLast? = some (.opening .authenticated)
  | _ => True

theorem AuthLaw.of_isAuthNeutral {pre : List Event} {e : Event} (h : e.isAuthNeutral = true) :
    AuthLaw pre e := by
  cases e with
  | reply r => cases r <;> simp_all [Event.isAuthNeutral, AuthLaw]
  | wrote m => simp_all [Event.isAuthNeutral, AuthLaw]
  | entered state => cases h
  | _ => trivial

/-- The state of the authentication. -/
def authState (s : ClientSession) : Option EncryptedState := s.common.encrypted.map (·.state)

/-- What the state of the authentication says of the events. -/
structure AuthInv (s : ClientSession) : Prop where
  anonymous : s.common.config.anonymous = false
  lawful : Traced AuthLaw s.events
  unanswered : (∀ state, authState s = some state → state.isAuthenticated = false) →
    .reply .authSuccess ∉ s.events
  requested : ∀ request, authState s = some (.waitingAuthRequest request) →
    WroteAuthRequest s.events

/-- No turn begins while the compression is to be begun. -/
def Compressed (s : ClientSession) : Prop := authState s ≠ some .initCompression

namespace AuthInv

variable {P : Primitives} {s t : ClientSession} {new : List Event} {pkt : Option Bytes}

/-- Events that say nothing of the authentication. -/
theorem move (h : AuthInv s) (hev : t.events = s.events ++ new)
    (hnew : ∀ e ∈ new, e.isAuthNeutral = true) (hconfig : t.common.config = s.common.config)
    (hstate : (∀ state, authState t = some state → state.isAuthenticated = false) →
      ∀ state, authState s = some state → state.isAuthenticated = false)
    (hrequest : ∀ request, authState t = some (.waitingAuthRequest request) →
      WroteAuthRequest t.events) : AuthInv t where
  anonymous := hconfig ▸ h.anonymous
  lawful := by
    rw [hev]
    exact h.lawful.append_of_forall fun _ e he => .of_isAuthNeutral (hnew e he)
  unanswered hst hmem := by
    rw [hev] at hmem
    rcases List.mem_append.mp hmem with hmem | hmem
    · exact h.unanswered (hstate hst) hmem
    · cases hnew _ hmem
  requested := hrequest

/-- The state is the same. -/
theorem extend (h : AuthInv s) (hev : t.events = s.events ++ new)
    (hnew : ∀ e ∈ new, e.isAuthNeutral = true) (hconfig : t.common.config = s.common.config)
    (hstate : authState t = authState s) : AuthInv t := by
  refine h.move hev hnew hconfig (fun hst => hstate ▸ hst) fun request hst => ?_
  obtain ⟨m, hm, hreq⟩ := h.requested request (hstate ▸ hst)
  rw [hev]
  exact ⟨m, List.mem_append_left _ hm, hreq⟩

theorem of_same (h : AuthInv s) (hev : t.events = s.events)
    (hconfig : t.common.config = s.common.config) (hstate : authState t = authState s) :
    AuthInv t :=
  h.extend (hev.trans (List.append_nil _).symm) (by simp) hconfig hstate

/-- A channel is opened; this side opens one in `Authenticated` only. -/
theorem openChannel {enc : Encrypted} {m : Message} {id : ChannelId} {channel : ChannelParams}
    {chan : Option ChannelRef} (h : AuthInv s) (hc : s.common.encrypted = some enc)
    (hm : m.isChannelOpen = true → enc.state = .authenticated) :
    AuthInv (s.openChannel m id channel chan enc) where
  anonymous := h.anonymous
  lawful := by
    have hev : (s.openChannel m id channel chan enc).events =
        s.events ++ [.opening enc.state] ++ [.wrote m] := by simp [Session.events_openChannel]
    rw [hev]
    refine traced_concat.mpr ⟨traced_concat.mpr ⟨h.lawful, trivial⟩, fun hopen => ?_⟩
    simp [hm hopen]
  unanswered hst hmem := by
    have hmem : .reply .authSuccess ∈ s.events := by simpa [Session.events_openChannel] using hmem
    refine h.unanswered (fun state hs => hst state ?_) hmem
    rw [← hs, authState, authState, hc]
    rfl
  requested request hst := by
    have hs : authState s = some (.waitingAuthRequest request) := by
      rw [← hst, authState, authState, hc]
      rfl
    obtain ⟨m', hm', hreq'⟩ := h.requested request hs
    rw [Session.events_openChannel]
    exact ⟨m', List.mem_append_left _ hm', hreq'⟩

/-- A packet of the authentication moves it. -/
theorem auth {enc enc' : Encrypted} (h : AuthInv s) (hc : s.common.encrypted = some enc)
    (hmove : AuthMove pkt enc enc' new) : AuthInv ((s.recordAll new).setEncrypted enc') := by
  have hstate : authState s = some enc.state := by simp [authState, hc]
  have hstate' : authState ((s.recordAll new).setEncrypted enc') = some enc'.state := rfl
  have hev : ((s.recordAll new).setEncrypted enc').events = s.events ++ new := by simp
  have hopen : enc.state.isAuthenticated = false → .reply .authSuccess ∉ s.events := fun hst =>
    h.unanswered fun state hs => by
      obtain rfl := Option.some.inj (hstate.symm.trans hs)
      exact hst
  cases hmove with
  | accepted _ hst =>
    refine ⟨h.anonymous, ?_, fun _ => ?_, fun request hr => ?_⟩
    · rw [hev, List.append_nil]
      exact h.lawful
    · rw [hev, List.append_nil]
      exact hopen (by rw [hst]; rfl)
    · cases hstate'.symm.trans hr
  | @requested _ _ m request _ hm hst =>
    refine ⟨h.anonymous, ?_, fun _ => ?_, fun request hr => ?_⟩
    · rw [hev]
      refine traced_concat.mpr ⟨h.lawful, fun hopen => ?_⟩
      cases m <;> simp_all [Message.isAuthRequest, Message.isChannelOpen]
    · rw [hev]
      simpa using hopen (by rw [hst]; rfl)
    · rw [hev]
      exact ⟨m, by simp, hm⟩
  | @answered request _ _ hst =>
    refine ⟨h.anonymous, ?_, fun _ => ?_, fun request' hr => ?_⟩
    · rw [hev, List.append_nil]
      exact h.lawful
    · rw [hev, List.append_nil]
      exact hopen (by rw [hst]; rfl)
    · rw [hev, List.append_nil]
      exact h.requested request (hstate.trans (congrArg some hst))
  | @succeeded request _ _ hst =>
    refine ⟨h.anonymous, ?_, fun hno => ?_, fun request' hr => ?_⟩
    · rw [hev]
      exact traced_concat.mpr ⟨h.lawful, h.requested request (hstate.trans (congrArg some hst)),
        hopen (by rw [hst]; rfl)⟩
    · cases hno _ hstate'
    · cases hstate'.symm.trans hr

theorem beginRekey {rng : Entropy} (hb : s.beginRekey clientStart P rng = .ok t) (h : AuthInv s) :
    AuthInv t := by
  obtain ⟨kex, w, hk, rfl⟩ := Session.beginRekey_eq_ok hb
  obtain ⟨payload, hp⟩ := clientStart.kexinit_writes hk
  obtain ⟨-, -, ⟨-, rfl⟩ | ⟨-, -, hev⟩⟩ := packetRaw_eq_ok hp
  · exact h.of_same rfl rfl rfl
  · exact h.extend hev (by simp [Event.isAuthNeutral]) rfl rfl

/-- Packets are written, after events that are neutral. -/
theorem wrote {enc enc' : Encrypted} {ms : List Message} (h : AuthInv s) (before : List Event)
    (hbefore : ∀ e ∈ before, e.isAuthNeutral = true) (hc : s.common.encrypted = some enc)
    (hstate : enc'.state = enc.state) (hms : ∀ m ∈ ms, m.isChannelOpen = false) :
    AuthInv ((s.recordAll before).wrote enc' ms) := by
  have hev : ((s.recordAll before).wrote enc' ms).events =
      s.events ++ (before ++ ms.map .wrote) := by simp
  refine h.extend hev (fun e he => ?_) rfl ?_
  · rcases List.mem_append.mp he with he | he
    · exact hbefore e he
    · obtain ⟨m, hm, rfl⟩ := List.mem_map.mp he
      simp [Event.isAuthNeutral, hms m hm]
  · simp [authState, hc, hstate]

theorem push {enc enc' : Encrypted} {m : Message} (h : AuthInv s)
    (hc : s.common.encrypted = some enc) (hstate : enc'.state = enc.state)
    (hm : m.isChannelOpen = false) : AuthInv (s.wrote enc' [m]) := by
  refine h.extend (Session.events_wrote ..) ?_ rfl ?_
  · simpa [Event.isAuthNeutral] using hm
  · simp [authState, hc, hstate]

theorem write {on : Option ChannelId} {enc enc' : Encrypted} {ms : List Message} (h : AuthInv s)
    (hc : s.common.encrypted = some enc) (hw : EncStep on enc enc' ms) :
    AuthInv (s.wrote enc' ms) := by
  refine h.extend (Session.events_wrote ..) (fun e he => ?_) rfl ?_
  · obtain ⟨m, hm, rfl⟩ := List.mem_map.mp he
    simp [Event.isAuthNeutral, Message.isChannelOpen_of_isPlain (hw.plain m hm)]
  · simp [authState, hc, hw.state]

theorem record {e : Event} (h : AuthInv s) (he : e.isAuthNeutral = true) : AuthInv (s.record e) :=
  h.extend (Session.events_record e) (by simpa using he) rfl rfl

theorem called {enc : Encrypted} {id : ChannelId} {m : ChannelMsg} {c : Option Bool}
    {asserts : List Event} (ha : asserts.Sublist (enc.assertion id)) :
    ∀ e ∈ .called id m c :: asserts, e.isAuthNeutral = true := by
  intro e he
  rcases Event.mem_called ha he with rfl | ⟨channel, -, rfl⟩ <;> rfl

theorem app (hstep : AppStep clientStart P pkt s t) (h : AuthInv s) : AuthInv t := by
  cases hstep with
  | frame hf =>
    refine h.of_same ?_ hf.config ?_
    · rw [Session.events, hf.packetWriter, Session.events]
    · rw [authState, hf.encrypted, authState]
  | @observe e he =>
    refine h.record ?_
    cases e <;> simp_all [Event.isObservation, Event.isAuthNeutral]
  | readClock _ => exact h.record rfl
  | write hc hw => exact h.write hc hw
  | called _ ha =>
    exact h.extend (Session.events_recordAll _) (called ha) rfl rfl
  | call hc ha hw => exact h.wrote _ (called ha) hc hw.state fun m hm =>
      Message.isChannelOpen_of_isPlain (hw.plain m hm)
  | answerChannel _ hc _ _ _ _ =>
    exact h.wrote [_, _] (by simp [Event.isAuthNeutral]) hc rfl
      (by simp [Message.isChannelOpen])
  | refuse _ _ _ _ hc =>
    exact h.wrote [_] (by simp [Event.isAuthNeutral]) hc rfl
      (by simp [Message.isChannelOpen])
  | openChannel _ _ _ _ _ hc hmay _ =>
    exact h.openChannel hc fun _ => by simpa [clientStart] using hmay
  | acceptChannel _ _ _ _ _ hc _ _ _ => exact h.openChannel hc fun hm => by cases hm
  | reject _ _ _ hc => exact h.push hc rfl rfl
  | insertChannel _ _ _ => exact h.of_same rfl rfl rfl
  | @confirm _ _ c _ hc _ =>
    have hrecord : AuthInv (s.record (.confirmed c)) := h.record rfl
    exact hrecord.of_same rfl rfl (by simp [authState, hc, Encrypted.setChannel])
  | @fail _ id _ _ _ hc _ =>
    have hrecord : AuthInv (s.record (.failed id)) := h.record rfl
    exact hrecord.of_same rfl rfl (by simp [authState, hc, Encrypted.removeChannel])
  | @number _ _ id _ _ hc hw _ =>
    have hrecord : AuthInv (s.record (.numbered id)) := h.record rfl
    exact hrecord.of_same rfl rfl (by simp [authState, hc, hw.state])
  | @drop _ id _ _ hc =>
    have hrecord : AuthInv (s.record (.dropped id)) := h.record rfl
    exact hrecord.of_same rfl rfl (by simp [authState, hc, Encrypted.removeChannel])
  | closeByPeer _ _ _ hc hw => exact h.write hc hw
  | @noteRequest _ id wantsReply _ _ hc _ =>
    have hrecord : AuthInv (s.record (.noted id wantsReply)) := h.record rfl
    exact hrecord.of_same rfl rfl (by simp [authState, hc, Encrypted.setChannel])
  | answerRequest _ _ _ hc => exact h.push hc rfl rfl
  | @account enc id data target _ _ hc =>
    obtain ⟨ms, hms, hadj⟩ := enc.adjustWindowSize_write id data target
    have hev : (s.adjustWindowSize id data target enc).1.events = s.events ++ ms.map .wrote := by
      simp [Session.adjustWindowSize, hms]
    refine h.extend hev (fun e he => ?_) rfl ?_
    · obtain ⟨m, hm, rfl⟩ := List.mem_map.mp he
      obtain ⟨recipient, amount, rfl⟩ := hadj m hm
      rfl
    · simp [authState, Session.adjustWindowSize, hc, Encrypted.adjustWindowSize_state]
  | @deliver e _ he =>
    refine h.record ?_
    cases e <;> simp_all [Event.delivered, Event.isAuthNeutral]
  | serve _ _ _ => exact h.record rfl
  | auth hc hmove => exact h.auth hc hmove
  | globalRequest name data _ =>
    refine h.extend (Session.events_globalRequest ..) ?_ ?_ ?_
    · split <;> simp [Event.isAuthNeutral, Message.isChannelOpen]
    · unfold Session.globalRequest
      dsimp only
      split <;> rfl
    · unfold Session.globalRequest authState
      dsimp only
      split
      · rfl
      · rename_i enc hc
        simp_all [Encrypted.push]
  | takeReply tell _ =>
    refine h.extend (Session.events_takeReply tell) (fun e he => ?_) rfl rfl
    rcases Session.mem_takeReply he with rfl | ⟨p, rfl⟩ <;> rfl
  | @answer _ m _ hm hc =>
    refine h.push hc rfl ?_
    cases m <;> simp_all [Message.isReply, Message.isChannelOpen]
  | @replyCalled _ m hm hc =>
    refine h.wrote [.replyCalled] (by simp [Event.isAuthNeutral]) hc rfl ?_
    cases m <;> simp_all [Message.isReply, Message.isChannelOpen]
  | unsealed _ _ _ => exact h.record rfl
  | flush hc =>
    obtain ⟨done, rest, -, hev, henc, -⟩ := Session.sealWrite_spec (s := s) (P := P)
    refine h.extend hev (fun e he => ?_) rfl (by simp [authState, hc, henc])
    rcases List.mem_cons.mp he with rfl | he
    · rfl
    · obtain ⟨m, -, n, rfl⟩ := mem_sealedPackets he
      rfl
  | beginRekey _ _ _ hb => exact h.beginRekey hb

theorem enter (h : AuthInv s) (hs : Compressed s) : AuthInv s.enter := by
  unfold Session.enter
  cases hc : s.common.encrypted with
  | none => exact h
  | some enc =>
    have hst : enc.state ≠ .initCompression := by
      simpa [Compressed, authState, hc] using hs
    refine ⟨h.anonymous, traced_concat.mpr ⟨h.lawful, hst⟩, fun hno hmem => ?_, fun r hr => ?_⟩
    · exact h.unanswered hno (by simpa using hmem)
    · obtain ⟨m, hm, hreq⟩ := h.requested r hr
      exact ⟨m, List.mem_append_left _ hm, hreq⟩

theorem opened {payload buf : Bytes} (ho : Opened P payload buf s t) (h : AuthInv s) :
    AuthInv t := by
  cases ho with
  | clear => exact h
  | decompressed hc _ => exact h.of_same rfl rfl (by simp [authState, hc])

/-- A step of the key exchange. -/
theorem kex {w : PacketWriter} (h : AuthInv s) (hw : KexWrites s.common.packetWriter w)
    (hev : t.events = w.events) (hconfig : t.common.config = s.common.config)
    (hstate : authState t = authState s) : AuthInv t := by
  obtain ⟨new, hnew, hkex⟩ := hw.events
  refine h.extend (hev.trans hnew) (fun e he => ?_) hconfig hstate
  have hk := hkex e he
  cases e <;> simp_all [Event.isKex, Event.isAuthNeutral]

/-- The SERVICE_REQUEST is sealed. -/
theorem service {w : PacketWriter} {enc : Encrypted} {accepted : Bool} (h : AuthInv s)
    (hc : s.common.encrypted = some enc)
    (hst : enc.state = .waitingAuthServiceRequest false accepted)
    (hout : outputPacket P (.serviceRequest (ascii "ssh-userauth")) s.common.packetWriter =
      .ok () w) :
    AuthInv ((s.setWriter w).setEncrypted
      { enc with state := .waitingAuthServiceRequest true accepted }) := by
  have hsealed : AuthInv (s.setWriter w) := by
    obtain ⟨-, -, ⟨-, rfl⟩ | ⟨-, -, hev⟩⟩ := packetRaw_eq_ok (outputPacket_eq_ok hout)
    · exact h.of_same rfl rfl rfl
    · exact h.extend hev (by simp [Event.isAuthNeutral]) rfl rfl
  refine hsealed.move (List.append_nil _).symm (by simp) rfl (fun _ state hs => ?_) nofun
  have hstate : some enc.state = some state := by simpa [authState, hc] using hs
  cases hstate
  rw [hst]
  rfl

/-- The request that has just been written is the current one. -/
theorem request {enc : Encrypted} {before : List Event} {m : Message} (request : AuthRequest)
    (h : AuthInv s) (hc : s.common.encrypted = some enc) (hst : enc.state.isAuthenticated = false)
    (hm : m.isAuthRequest = true) (hev : s.events = before ++ [.wrote m]) :
    AuthInv (s.setEncrypted { enc with state := .waitingAuthRequest request }) := by
  refine h.move (List.append_nil _).symm (by simp) rfl (fun _ state hs => ?_) fun _ _ => ?_
  · have hstate : some enc.state = some state := by simpa [authState, hc] using hs
    cases hstate
    exact hst
  · rw [Session.events_setEncrypted, hev]
    exact ⟨m, by simp, hm⟩

theorem compress (h : AuthInv s) : AuthInv (initCompression s) := by
  unfold initCompression
  cases hc : s.common.encrypted with
  | none => exact h
  | some enc =>
    dsimp only
    split
    · refine h.move (List.append_nil _).symm (by simp) rfl (fun hno => ?_) fun request hst => ?_
      · cases hno .authenticated rfl
      · cases hst
    · exact h

/-- The keys of the initial exchange are taken into use. -/
theorem initKeys {newkeys : NewKeys} (now : Nat) (hnone : s.common.encrypted = none)
    (h : AuthInv s) : AuthInv { initKeys newkeys now s with kex := .idle } := by
  have hstate : authState { Client.initKeys newkeys now s with kex := .idle } =
      some (.waitingAuthServiceRequest false false) := by
    simp [Client.initKeys, authState, CommonSession.initEncrypted, initialEncryptedState,
      h.anonymous, Encrypted.new]
  have hev : ({ Client.initKeys newkeys now s with kex := .idle } : ClientSession).events =
      s.events ++ [.setCipher newkeys.cipher.localToRemote] := rfl
  refine h.move hev (by simp [Event.isAuthNeutral]) rfl (fun _ state hs => ?_) fun r hr => ?_
  · simp [authState, hnone] at hs
  · cases hstate.symm.trans hr

/-- The keys of a rekey are taken into use. -/
theorem rekeyed {newkeys : NewKeys} (h : AuthInv s) :
    AuthInv { s with common := s.common.newkeys newkeys, kex := .idle } := by
  cases hc : s.common.encrypted with
  | none =>
    have hsame : s.common.newkeys newkeys = s.common := by simp [CommonSession.newkeys, hc]
    rw [hsame]
    exact h.of_same rfl rfl rfl
  | some enc =>
    have hev : ({ s with common := s.common.newkeys newkeys, kex := .idle } : ClientSession).events =
        s.events ++ [.setCipher newkeys.cipher.localToRemote] := by
      simp [Session.events, CommonSession.newkeys, hc, PacketWriter.setCipher]
    refine h.extend hev (by simp [Event.isAuthNeutral]) ?_ ?_
    · simp [CommonSession.newkeys, hc]
    · simp [authState, CommonSession.newkeys, hc]

/-- The host key of the initial exchange is shown to the application. -/
theorem checked {key : PublicKey} (ok : Bool) (h : AuthInv s) :
    AuthInv ((s.record (.clientCallback (.checkServerKey key))).record
      (.serverKeyChecked key ok)) :=
  (h.record (e := .clientCallback (.checkServerKey key)) rfl).record rfl

end AuthInv

/-- What holds when a turn begins. -/
structure AuthStart (s : ClientSession) : Prop where
  inv : AuthInv s
  compressed : Compressed s

theorem AuthStart.of_frame {s t : ClientSession} (hf : s.Frame t) (h : AuthStart s) :
    AuthStart t where
  inv := by
    refine h.inv.of_same ?_ hf.config ?_
    · rw [Session.events, hf.packetWriter, Session.events]
    · rw [authState, hf.encrypted, authState]
  compressed := by
    rw [Compressed, authState, hf.encrypted]
    exact h.compressed

theorem authRules (P : Primitives) :
    ClientRules P (fun _ => AuthStart) AuthInv (fun s => Traced AuthLaw s.events)
      (fun _ => AuthStart) (fun _ _ => AuthInv) where
  start_frame hf h := h.of_frame hf
  start_inv h := h.inv
  inv_err h := h.lawful
  app := AuthInv.app
  service _ hc hst hout h := h.service hc hst hout
  authenticate _ _ h := h.of_same rfl rfl rfl
  request request hc hst hm hev h := h.request request hc hst hm hev
  compress h := h.compress
  opened ho h := h.inv.opened ho
  received ho h := ⟨(h.inv.opened ho).record rfl, by
    cases ho with
    | clear => exact h.compressed
    | decompressed hc _ => simpa [Compressed, authState, hc] using h.compressed⟩
  mid_frame hf h := h.of_frame hf
  mid_err h := h.inv.lawful
  ignored _ h := h.inv
  begin _ _ _ hb h := ⟨h.inv.beginRekey hb, by
    rw [Compressed, authState, Session.beginRekey_encrypted hb]
    exact h.compressed⟩
  process _ _ _ h :=
    wp_mono (Confined.wp_invariant (fun _ _ hstep ht => AuthInv.app hstep ht) _
      (h.inv.enter h.compressed)) (fun _ _ ht => ht) fun _ _ ht => ht.lawful
  kex_error {s _ _ _ _ _ w} _ _ hk h := by
    have hinv : AuthInv ({ s with kex := .taken }.setWriter w) :=
      h.inv.kex ((ClientKex.step_writes _ _).of_error hk) rfl rfl rfl
    exact hinv.lawful
  kex_next {_ _ _ _ _ _ reset _} _ _ hk h := by
    refine h.inv.kex ((ClientKex.step_writes _ _).of_ok hk) ?_ ?_ ?_ <;> cases reset <;> rfl
  kex_done _ _ hk h := h.inv.kex ((ClientKex.step_writes _ _).of_ok hk) rfl rfl rfl
  done_app := AuthInv.app
  done_err h := h.lawful
  done_bytes h := h.of_same rfl rfl rfl
  rekeyed _ h := h.rekeyed
  asked _ h := (h.record rfl).lawful
  rejected _ h := (h.checked false).lawful
  accepted now hnone h := (h.checked true).initKeys now hnone
  keyless now hnone h := h.initKeys now hnone

/-- A turn that does not end the loop begins the compression, if it is to be begun. -/
theorem compressed_endTurn (P : Primitives) (env : ClientEnv) (s : ClientSession) :
    wp (endTurn P env) (fun _ t => Compressed t) (fun _ _ => True) s := by
  unfold endTurn
  rw [wp_bind]
  refine wp_mono wp_trivial (fun _ t _ => ?_) fun _ _ _ => trivial
  rw [wp_bind, wp_modify, wp_modify]
  have hc : Compressed (initCompression t) := by
    unfold initCompression
    cases hc : t.common.encrypted with
    | none => simp [Compressed, authState, hc]
    | some enc =>
      dsimp only
      split
      · simp [Compressed, authState]
      · rename_i hst
        simpa [Compressed, authState, hc] using hst
  split <;> exact hc

theorem compressed_afterTurn {P : Primitives} {env : ClientEnv} {l : ClientLoop}
    {input : ClientInput}
    (hrun : (afterTurn l (turn P env l.seqn input l.session)).running = true) :
    Compressed (afterTurn l (turn P env l.seqn input l.session)).session := by
  have hturn : wp (turn P env l.seqn input)
      (fun result t => ∀ seqn, result = .next seqn → Compressed t) (fun _ _ => True) l.session := by
    unfold turn
    rw [wp_bind, wp_modify, wp_bind]
    refine wp_mono wp_trivial (fun result t _ => ?_) fun _ _ _ => trivial
    cases result with
    | stop => exact fun _ => nofun
    | next n =>
      simp only [wp_bind]
      exact wp_mono (compressed_endTurn P env t) (fun _ _ hu _ _ => hu) fun _ _ hu => hu
    | disconnected r =>
      simp only [wp_bind]
      exact wp_mono (compressed_endTurn P env t) (fun _ _ hu _ _ => hu) fun _ _ hu => hu
  unfold wp at hturn
  cases hr : turn P env l.seqn input l.session with
  | error e t => simp [afterTurn, hr] at hrun
  | ok result t =>
    rw [hr] at hturn
    cases result with
    | stop => simp [afterTurn, hr] at hrun
    | next n => exact hturn n rfl
    | disconnected r => simp [afterTurn, hr] at hrun

theorem compressed_step {P : Primitives} {l l' : ClientLoop} {label : ClientEnv × ClientInput}
    (hl : l.running = true → Compressed l.session) (hstep : step P l label = some l') :
    l'.running = true → Compressed l'.session := by
  obtain ⟨env, input⟩ := label
  unfold step at hstep
  by_cases hen : (l.running && enabled l.session input) = true
  · simp only [hen, if_true] at hstep
    have hc : Compressed l.session := hl (by simp_all)
    cases input <;> cases hstep <;>
      first | exact fun _ => hc | exact compressed_afterTurn
  · simp [hen] at hstep

/-- A client that has no key yet. -/
theorem compressed_start {P : Primitives} {env : ClientEnv} {config : ClientConfig}
    {remoteSshid : Bytes} : Compressed (start P env config remoteSshid).session := by
  have hkeyless : wp (do beginRekey P env; (flush (P := P) env).run)
      (fun _ t => t.common.encrypted = none) (fun _ t => t.common.encrypted = none)
      (newSession config remoteSshid) := by
    rw [wp_bind]
    refine wp_beginRekeyWith (fun t hb => ?_) fun _ => rfl
    have hnone : t.common.encrypted = none := Session.beginRekey_encrypted hb
    refine Confined.wp_invariant (I := fun t : ClientSession => t.common.encrypted = none)
      (fun t u hstep ht => ?_) _ hnone
    have hsome := hstep.kept.encrypted_isSome
    rw [ht] at hsome
    simpa using hsome
  unfold wp at hkeyless
  unfold start
  split
  · rename_i t ht
    rw [ht] at hkeyless
    simp_all [Compressed, authState]
  · rename_i e t ht
    rw [ht] at hkeyless
    simp_all [Compressed, authState]

/-- In every run of a client that has to be authenticated, the handle is told of a success at most
once and after a USERAUTH_REQUEST, no packet is worked on in `InitCompression`, and a CHANNEL_OPEN
is written in `Authenticated` only. -/
theorem authLaw_of_run {P : Primitives} {env : ClientEnv} {config : ClientConfig}
    {remoteSshid : Bytes} {labels : List (ClientEnv × ClientInput)} {l : ClientLoop}
    (hanonymous : config.anonymous = false)
    (hrun : run (step P) (start P env config remoteSshid) labels = some l) :
    Traced AuthLaw l.session.events := by
  have hnew : AuthInv (newSession config remoteSshid) :=
    ⟨hanonymous, traced_nil, fun _ => List.not_mem_nil, nofun⟩
  have hstart : LoopInvariant AuthInv (fun s => Traced AuthLaw s.events)
      (start P env config remoteSshid) :=
    (authRules P).start hnew.lawful fun _ _ hb => hnew.beginRekey hb
  have hcompressed : (start P env config remoteSshid).running = true →
      Compressed (start P env config remoteSshid).session := fun _ => compressed_start
  refine (run_invariant (P := fun _ _ => True) (I := fun l =>
    LoopInvariant AuthInv (fun s => Traced AuthLaw s.events) l ∧
      (l.running = true → Compressed l.session)) (fun s label t hs _ ht => ⟨?_, ?_⟩) labels _ l
    ⟨hstart, hcompressed⟩ (along_true _ _) hrun).1.ended
  · exact (authRules P).step hs.1 (fun hr hi => ⟨hi, hs.2 hr⟩) ht
  · exact compressed_step hs.2 ht

/-- A client asks for `none` and is let in, and opens a channel. -/
def authenticatedRun : List (ClientEnv × ClientInput) :=
  packetRun (exchangePackets [7] 215) ++
    [(trustingSeven, .send (.authenticate (ascii "root") .none)), (trustingSeven, .receive),
      (trustingSeven, .packet (Msg.serviceAccept :: encodeBytes (ascii "ssh-userauth"))),
      (trustingSeven, .packet [Msg.userauthSuccess]),
      (trustingSeven, .send (.channelOpenSession ⟨0⟩)), (trustingSeven, .receive)]

theorem authLaw_of_run_authenticated : ∃ l,
    run (step .toy) (start .toy trustingSeven onlyCurve25519 []) authenticatedRun = some l ∧
    l.running = true ∧ .reply .authSuccess ∈ l.session.events ∧
    .opening .authenticated ∈ l.session.events ∧ Traced AuthLaw l.session.events := by
  have hevents : ((run (step .toy) (start .toy trustingSeven onlyCurve25519 [])
      authenticatedRun).map fun l => (l.running, l.session.events.contains (.reply .authSuccess),
        l.session.events.contains (.opening .authenticated))) = some (true, true, true) := by
    decide +kernel
  obtain ⟨l, hl, hp⟩ := Option.map_eq_some_iff.mp hevents
  obtain ⟨hr, hsuccess, hopening⟩ := by simpa only [Prod.mk.injEq] using hp
  exact ⟨l, hl, hr, by simpa using hsuccess, by simpa using hopening, authLaw_of_run rfl hl⟩

end Client

end Edgessh.Russh
