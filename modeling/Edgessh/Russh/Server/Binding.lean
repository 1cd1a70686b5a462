import Edgessh.Russh.Server.Grant

/-!
# The laws of the authentication, for every run

`AuthLaw` holds in every state of every run of a server: that no access is granted without an
accepted authentication, and that a keyboard-interactive response is one to the last request. That
`auth_publickey` is only called for a key that has been offered holds in the runs in which no
client goes on with another key than the one it has asked about.
-/

namespace Edgessh.Russh
open Edgessh.Command Edgessh.Run Relation

namespace Server

variable {P : Primitives} {offers stale : Prop} {s t : ServerSession} {buf payload : Bytes}

section Steps

/-- A step for a packet of the connection, once the client has been authenticated. -/
theorem Access.serve {msg : UInt8} {r : Bytes}
    (hstep : AppStep serverStart P (some (msg :: r)) s t) (hmsg : ¬msg < Msg.globalRequest)
    (hg : Granted s.events) (h : Access P offers stale s) : Access P offers stale t := by
  obtain ⟨new, hev, happ⟩ := hstep.events
  have hlaw : ∀ pre, ∀ e ∈ new, AuthLaw P offers (sessionId s) (s.events ++ pre) e := by
    intro pre e he
    have happ := happ e he
    cases e with
    | serverCallback call =>
      rcases (Bool.or_eq_true _ _).mp happ with hc | hc
      · exact .of_connection ((Bool.and_eq_true _ _).mp hc).1 hg.append
      · exact .of_neutral hc
    | authAnswered call accepted => cases happ
    | _ => exact ⟨trivial, trivial, trivial⟩
  have hsup : ∀ e ∈ new, supersedes e = false := by
    intro e he
    have happ := happ e he
    cases e <;> simp_all [Event.isApp, supersedes]
  have hgt : Granted t.events := by
    rw [hev]
    exact hg.append
  have hstate := hstep.state fun b hb => by
    cases hb
    exact hmsg
  refine ⟨⟨?_, ?_, fun hn => absurd hgt hn⟩, fun enc request hc hst => ?_⟩
  · rw [hev, show sessionId t = sessionId s from hstep.kept.sessionId]
    exact h.lawful.append_of_forall hlaw
  · rw [isAuthenticated_eq hstate, h.granted]
    exact iff_of_true hg hgt
  · rw [hc] at hstate
    obtain ⟨enc', hc', hst'⟩ := Option.map_eq_some_iff.mp hstate.symm
    rw [hev, hstep.authUser]
    exact (h.current enc' request hc' (hst'.trans hst)).append hsup

/-- The packets before the connection protocol are not looked at any more. -/
theorem readAuthenticated_of_lt {env : ServerEnv} {msg : UInt8} {r : Bytes}
    (h : msg < Msg.globalRequest) : readAuthenticated (P := P) env msg r = pure () := by
  have hne : ∀ m : UInt8, ¬m < Msg.globalRequest → msg ≠ m := by
    rintro m hm rfl
    exact hm h
  unfold readAuthenticated
  simp [hne Msg.channelOpen (by decide), hne Msg.channelClose (by decide),
    hne Msg.channelEof (by decide), hne Msg.channelExtendedData (by decide),
    hne Msg.channelData (by decide), hne Msg.channelWindowAdjust (by decide),
    hne Msg.channelOpenConfirmation (by decide), hne Msg.channelRequest (by decide),
    hne Msg.globalRequest (by decide), hne Msg.channelOpenFailure (by decide),
    hne Msg.requestSuccess (by decide), hne Msg.requestFailure (by decide)]

theorem wp_readAuthenticated {env : ServerEnv} {msg : UInt8} {r : Bytes}
    (hg : Granted s.events) (h : Access P offers stale s) :
    wp (readAuthenticated (P := P) env msg r).run (fun _ t => Access P offers stale t)
      (fun _ t => Guarded P offers t) s := by
  by_cases hmsg : msg < Msg.globalRequest
  · rw [readAuthenticated_of_lt hmsg]
    exact h
  · refine wp_mono (Confined.wp_invariant
      (I := fun t => Access P offers stale t ∧ Granted t.events) (fun u v hstep hu => ?_) _ ⟨h, hg⟩)
      (fun _ t ht => ht.1) fun _ t ht => ht.1.toGuarded
    refine ⟨hu.1.serve hstep hmsg hu.2, ?_⟩
    obtain ⟨new, hev, -⟩ := hstep.events
    rw [hev]
    exact hu.2.append

/-- Nothing that the invariant is about changes but what a state of the same kind may have. -/
theorem Access.of_same (h : Access P offers stale s) (hev : t.events = s.events)
    (hid : sessionId t = sessionId s)
    (hstate : t.common.encrypted.map (·.state) = s.common.encrypted.map (·.state))
    (huser : t.common.authUser = s.common.authUser) (hentries : ∀ id, t.entries id = s.entries id)
    (hchannels : ∀ id, t.channels id = s.channels id) : Access P offers stale t := by
  refine h.extend (hev.trans (List.append_nil _).symm) (by simp) hid hstate huser fun _ hempty => ?_
  exact ⟨fun id => (hentries id).trans (hempty.1 id), fun id => (hchannels id).trans (hempty.2 id)⟩

theorem Access.countAttempt (h : Access P offers stale s) :
    wp AuthM.countAttempt.run (fun _ t => Access P offers stale t) (fun _ t => Guarded P offers t)
      s :=
  h.of_same rfl rfl rfl rfl (fun _ => rfl) fun _ => rfl

theorem Access.succeedIfAccepted {env : ServerEnv} (h : Access P offers stale s) :
    wp (succeedIfAccepted P env) (fun _ t => Access P offers stale t)
      (fun _ t => Guarded P offers t) s := by
  unfold Server.succeedIfAccepted
  rw [wp_bind, wp_get]
  cases hc : s.common.encrypted with
  | none => exact h
  | some enc =>
    dsimp only
    split
    · rw [wp_bind]
      refine wp_setState hc (wp_app (fun _ _ hstep ht => Access.app hstep ht)
        (fun _ ht => ht.toGuarded) _ ?_)
      refine h.of_same rfl ?_ ?_ rfl (fun id => ?_) fun _ => rfl
      · simp [sessionId, hc]
      · simp [hc]
      · rw [Session.entries_eq hc]
        rfl
    · exact h

theorem Access.initCompression (h : Access P offers stale s) (hg : Granted s.events) :
    Access P offers stale (initCompression s) := by
  unfold Server.initCompression
  cases hc : s.common.encrypted with
  | none => exact h
  | some enc =>
    refine ⟨⟨?_, ⟨fun _ => hg, fun _ => rfl⟩, fun hn => absurd hg hn⟩, fun enc' request hc' hst => ?_⟩
    · have hlaw := h.lawful
      rw [sessionId, hc] at hlaw
      exact hlaw
    · cases hc'
      cases hst

end Steps

section Process

/-- What holds from the moment at which the packet `buf` has been read. -/
structure AccessMid (P : Primitives) (offers : Prop) (buf : Bytes) (s : ServerSession) : Prop where
  access : Access P offers (buf.head? = some Msg.userauthRequest) s
  current : Since (· = .received buf) (fun e => Event.isReceived e = false ∧ supersedes e = false)
    s.events
  sameKey : offers → SameKey P buf s

theorem AccessMid.working {enc : Encrypted} (h : AccessMid P offers buf s)
    (hc : s.common.encrypted = some enc) (hst : enc.state.isAuthenticated = false) :
    Working P offers enc.sessionId buf s := by
  have hid : sessionId s = some enc.sessionId := by simp [sessionId, hc]
  have hauth : isAuthenticated s = false := by simp [isAuthenticated, hc, hst]
  have hn : ¬Granted s.events := by simp [← h.access.granted, hauth]
  exact ⟨⟨hid ▸ h.access.lawful, hn, h.access.closed hn, hid, hauth⟩, h.current⟩

theorem Access.weaken {stale' : Prop} (h : Access P offers stale s) (hstale : stale → stale') :
    Access P offers stale' s :=
  ⟨h.toGuarded, fun enc request hc hst => (h.current enc request hc hst).mono hstale⟩

theorem wp_processAuth {env : ServerEnv} {enc : Encrypted} {request : AuthRequest} {msg : UInt8}
    {r : Bytes} (hm : AccessMid P offers (msg :: r) s) (hc : s.common.encrypted = some enc)
    (hst : enc.state = .waitingAuthRequest request) :
    wp (processAuth P env enc request (msg :: r) msg r) (fun _ t => Access P offers False t)
      (fun _ t => Guarded P offers t) s := by
  have hw := hm.working hc (by rw [hst]; rfl)
  have hcur := hm.access.current enc request hc hst
  unfold processAuth
  split
  · rename_i hmsg
    subst hmsg
    have hrem : Remembers P offers enc.sessionId (Msg.userauthRequest :: r) request s :=
      ⟨hcur.mono fun _ => trivial, fun ho blob algo k signature toSign hrc hreq hverify =>
        hm.sameKey ho enc request blob algo k signature toSign hc hst hrc hreq hverify⟩
    refine wp_seq (wp_readAuthRequest hw rfl hrem) fun _ t ht => ?_
    exact wp_seq ht.countAttempt fun _ u hu => hu.succeedIfAccepted
  · rename_i hne
    have hfresh : Access P offers False s := hm.access.weaken fun h => hne (by simpa using h)
    split
    · rename_i hmsg
      subst hmsg
      exact wp_seq (wp_readUserauthInfoResponse hw (hfresh.current enc request hc hst))
        fun _ t ht => ht.succeedIfAccepted
    · exact hfresh

theorem wp_processPacket {env : ServerEnv} (hm : AccessMid P offers buf s) :
    wp (processPacket P env buf) (fun _ t => Access P offers False t)
      (fun _ t => Guarded P offers t) s := by
  unfold processPacket
  rw [wp_bind, wp_get]
  cases hc : s.common.encrypted with
  | none => exact hm.access.toGuarded
  | some enc =>
    have hgranted : enc.state.isAuthenticated = true → Granted s.events := fun hst =>
      hm.access.granted.mp (by simp [isAuthenticated, hc, hst])
    have hfresh : (∀ request, enc.state ≠ .waitingAuthRequest request) → Access P offers False s := by
      refine fun hne => ⟨hm.access.toGuarded, fun enc' request hc' hst => ?_⟩
      obtain rfl := Option.some.inj (hc.symm.trans hc')
      exact absurd hst (hne request)
    cases buf with
    | nil => exact hm.access.weaken (by simp)
    | cons msg r =>
      dsimp only [processEncrypted]
      split
      · rename_i hst
        have ha := hfresh (by simp [hst])
        split
        · exact wp_readServiceRequest (hm.working hc (by rw [hst]; rfl)) ha
        · exact ha
      · rename_i request hst
        exact wp_processAuth hm hc hst
      · rename_i hst
        have hg := hgranted (by rw [hst]; rfl)
        rw [wp_bind, wp_modify]
        refine wp_readAuthenticated ?_ ((hfresh (by simp [hst])).initCompression hg)
        have hev : (initCompression s).events = s.events := by
          unfold initCompression
          rw [hc]
          rfl
        rw [hev]
        exact hg
      · rename_i hst
        exact wp_readAuthenticated (hgranted (by rw [hst]; rfl)) (hfresh (by simp [hst]))

end Process

section Turn

/-- What holds before a turn. -/
def AccessStart (P : Primitives) (offers : Prop) (input : ServerInput) (s : ServerSession) : Prop :=
  Access P offers False s ∧ (offers → ∀ payload buf, input = .packet payload →
    openedPacket P payload s = some buf → SameKey P buf s)

theorem SameKey.of_eq (h : SameKey P buf s)
    (hstate : t.common.encrypted.map (fun enc => (enc.state, enc.sessionId)) =
      s.common.encrypted.map (fun enc => (enc.state, enc.sessionId)))
    (huser : t.common.authUser = s.common.authUser) : SameKey P buf t := by
  intro enc request blob algo k signature toSign hc hst hcur hreq hverify
  rw [hc] at hstate
  obtain ⟨enc', hc', heq⟩ := Option.map_eq_some_iff.mp hstate.symm
  obtain ⟨hst', hid⟩ := Prod.mk.inj heq
  rw [huser] at hreq
  rw [← hid] at hverify
  exact h enc' request blob algo k signature toSign hc' (hst'.trans hst) hcur hreq hverify

theorem AccessStart.of_frame {input : ServerInput} (hf : s.Frame t)
    (h : AccessStart P offers input s) : AccessStart P offers input t := by
  refine ⟨h.1.app (.frame hf), fun ho payload buf hi hopen => ?_⟩
  have hopen' : openedPacket P payload s = some buf := by
    rw [← hopen, openedPacket, openedPacket, hf.encrypted]
  exact (h.2 ho payload buf hi hopen').of_eq (by rw [hf.encrypted]) hf.authUser

theorem Access.opened (ho : Opened P payload buf s t) (h : Access P offers stale s) :
    Access P offers stale t := by
  cases ho with
  | clear => exact h
  | @decompressed enc decompress hc hd =>
    refine h.of_same rfl ?_ ?_ rfl (fun id => ?_) fun _ => rfl
    · simp [sessionId, hc]
    · simp [hc]
    · rw [Session.entries_eq hc]
      rfl

theorem AccessStart.received (ho : Opened P payload buf s t)
    (h : AccessStart P offers (.packet payload) s) :
    AccessMid P offers buf (t.record (.received buf)) := by
  have ha := h.1.opened ho
  refine ⟨⟨⟨?_, ?_, fun hn => ?_⟩, fun enc request hc hst => ?_⟩, ?_, fun hoffers => ?_⟩
  · exact traced_concat.mpr ⟨ha.lawful, trivial, trivial, trivial⟩
  · rw [Session.events_record, granted_append (by simp [isGrant])]
    exact ha.granted
  · rw [Session.events_record, granted_append (by simp [isGrant])] at hn
    exact ha.closed hn
  · have hcur := ha.current enc request hc hst
    rw [Session.events_record]
    cases hr : request.current with
    | none => trivial
    | some current =>
      rw [hr] at hcur
      cases current with
      | publicKey key algo sentPkOk =>
        intro hsent
        obtain ⟨k, hk, hoffered⟩ := hcur hsent
        exact ⟨k, hk, hoffered.append⟩
      | keyboardInteractive submethods =>
        exact fun hne => (hcur not_false).append (by simpa [supersedes] using hne)
  · rw [Session.events_record]
    exact since_concat rfl
  · have hsame := h.2 hoffers payload buf rfl ho.openedPacket
    refine hsame.of_eq ?_ ?_
    · cases ho with
      | clear => rfl
      | decompressed hc _ => simp [hc]
    · cases ho <;> rfl

/-- Neutral events, with all that the invariant is about as it was. -/
theorem AccessMid.extend {new : List Event} (h : AccessMid P offers buf s)
    (ha : Access P offers (buf.head? = some Msg.userauthRequest) t)
    (hev : t.events = s.events ++ new) (hnew : ∀ e ∈ new, isNeutral e = true)
    (hstate : t.common.encrypted.map (fun enc => (enc.state, enc.sessionId)) =
      s.common.encrypted.map (fun enc => (enc.state, enc.sessionId)))
    (huser : t.common.authUser = s.common.authUser) : AccessMid P offers buf t := by
  refine ⟨ha, ?_, fun ho => (h.sameKey ho).of_eq hstate huser⟩
  rw [hev]
  refine h.current.append fun e he => ⟨?_, supersedes_of_isNeutral (hnew e he)⟩
  have hneutral := hnew e he
  cases e <;> simp_all [isNeutral, Event.isReceived]

theorem AccessMid.of_frame (hf : s.Frame t) (h : AccessMid P offers buf s) :
    AccessMid P offers buf t := by
  have hev : t.events = s.events ++ [] := by
    rw [List.append_nil, Session.events, hf.packetWriter, Session.events]
  exact h.extend (h.access.app (.frame hf)) hev (by simp) (by rw [hf.encrypted]) hf.authUser

/-- The KEXINIT of the server. -/
theorem Access.begin {rng : Entropy} (hb : s.beginRekey serverStart P rng = .ok t)
    (h : Access P offers stale s) :
    Access P offers stale t ∧ ∃ new, t.events = s.events ++ new ∧ ∀ e ∈ new, isNeutral e = true := by
  obtain ⟨kex, w, hk, rfl⟩ := Session.beginRekey_eq_ok hb
  obtain ⟨payload, hp⟩ := serverStart.kexinit_writes hk
  obtain ⟨new, hev, hkex⟩ := (KexWrites.packetRaw rfl hp).events
  have hneutral : ∀ e ∈ new, isNeutral e = true := fun e he => isNeutral_of_isKex (hkex e he)
  exact ⟨h.extend hev hneutral rfl rfl rfl fun _ hempty => hempty, new, hev, hneutral⟩

theorem AccessMid.begin {rng : Entropy} (hb : s.beginRekey serverStart P rng = .ok t)
    (h : AccessMid P offers buf s) : AccessMid P offers buf t := by
  obtain ⟨ha, new, hev, hneutral⟩ := h.access.begin hb
  obtain ⟨kex, w, -, rfl⟩ := Session.beginRekey_eq_ok hb
  exact h.extend ha hev hneutral rfl rfl

/-- A packet that is not a request leaves what the server remembers fresh. -/
theorem AccessMid.fresh (h : AccessMid P offers buf s)
    (hb : buf.head? ≠ some Msg.userauthRequest) : Access P offers False s :=
  h.access.weaken hb

theorem not_request_of_isKexMsg (h : isKexMsg buf = true) :
    buf.head? ≠ some Msg.userauthRequest := by
  intro hb
  rw [isKexMsg, hb] at h
  revert h
  decide

theorem not_request_of_isIgnored (h : isIgnored buf = true) :
    buf.head? ≠ some Msg.userauthRequest := by
  intro hb
  rw [isIgnored, isSkipped, hb] at h
  revert h
  decide

/-- A step of the key exchange, whichever way it ends. -/
theorem Access.kex {w : PacketWriter} (hw : KexWrites s.common.packetWriter w)
    (hev : t.events = w.events) (henc : t.common.encrypted = s.common.encrypted)
    (huser : t.common.authUser = s.common.authUser) (hchannels : t.channels = s.channels)
    (h : Access P offers stale s) : Access P offers stale t := by
  obtain ⟨new, hnew, hkex⟩ := hw.events
  refine h.extend (hev.trans hnew) (fun e he => isNeutral_of_isKex (hkex e he)) ?_ ?_ huser ?_
  · rw [sessionId, henc, sessionId]
  · rw [henc]
  · intro _ hempty
    refine ⟨fun id => ?_, fun id => ?_⟩
    · rw [Session.entries, henc]
      exact hempty.1 id
    · rw [hchannels]
      exact hempty.2 id

theorem Access.rekeyed {newkeys : NewKeys} (h : Access P offers stale s) :
    Access P offers stale { s with common := s.common.newkeys newkeys } := by
  cases hc : s.common.encrypted with
  | none =>
    have hsame : s.common.newkeys newkeys = s.common := by simp [CommonSession.newkeys, hc]
    rw [hsame]
    exact h
  | some enc =>
    have hev : Session.events { s with common := s.common.newkeys newkeys } =
        s.events ++ [.setCipher newkeys.cipher.localToRemote] := by
      simp [Session.events, CommonSession.newkeys, hc, PacketWriter.setCipher]
    refine h.extend hev ?_ ?_ ?_ ?_ ?_
    · simp [isNeutral, Event.isReceived, supersedes]
    · simp [sessionId, CommonSession.newkeys, hc]
    · simp [CommonSession.newkeys, hc]
    · simp [CommonSession.newkeys, hc]
    · intro _ hempty
      refine ⟨fun id => ?_, hempty.2⟩
      rw [← hempty.1 id, Session.entries_eq hc]
      simp [Session.entries, CommonSession.newkeys, hc]

/-- The first keys: the client has not been authenticated before, and no channel is there. -/
theorem Access.keyed {newkeys : NewKeys} (now : Nat) (hnone : s.common.encrypted = none)
    (h : Access P offers stale s) : Access P offers stale (initKeys newkeys now s) := by
  have hn : ¬Granted s.events := by simp [← h.granted, isAuthenticated, hnone]
  have hev : (initKeys newkeys now s).events =
      s.events ++ [.setCipher newkeys.cipher.localToRemote] := rfl
  have hn' : ¬Granted (initKeys newkeys now s).events := by
    rw [hev, granted_append (by simp [isGrant])]
    exact hn
  refine ⟨⟨?_, ?_, fun _ => ?_⟩, fun enc request hc hst => ?_⟩
  · rw [hev]
    have hlaw := h.lawful
    rw [sessionId, hnone] at hlaw
    exact traced_concat.mpr ⟨hlaw.mono fun _ _ hl => hl.of_none, trivial, trivial, trivial⟩
  · exact iff_of_false (by simp [isAuthenticated, initKeys, CommonSession.initEncrypted,
      Encrypted.new, EncryptedState.isAuthenticated]) hn'
  · exact ⟨fun _ => rfl, (h.closed hn).2⟩
  · cases hc
    cases hst

end Turn

/-- The rules of the invariant. -/
theorem accessRules (P : Primitives) (offers : Prop) :
    ServerRules P (AccessStart P offers) (Access P offers False) (Guarded P offers)
      (AccessMid P offers) (fun _ => Access P offers False) (Access P offers False) where
  start_frame := AccessStart.of_frame
  start_inv h := h.1
  inv_err h := h.toGuarded
  app hstep h := h.app hstep
  opened ho h := h.1.opened ho
  received ho h := h.received ho
  mid_frame := AccessMid.of_frame
  mid_err h := h.access.toGuarded
  ignored hi h := h.fresh (not_request_of_isIgnored hi)
  begin _ _ _ hb h := h.begin hb
  process _ _ _ h := wp_processPacket h
  kex_error {s _ _ _ _ _ _ w} hb _ hs h := by
    have ha : Access P offers False ({ s with kex := .taken }.setWriter w) :=
      (h.fresh (not_request_of_isKexMsg hb)).kex ((ServerKex.step_writes _ _).of_error hs) rfl rfl
        rfl rfl
    exact ha.toGuarded
  kex_next {s _ _ _ _ _ kex' reset w} hb _ hs h := by
    refine (h.fresh (not_request_of_isKexMsg hb)).kex ((ServerKex.step_writes _ _).of_ok hs)
      ?_ ?_ ?_ rfl <;> cases reset <;> rfl
  kex_done hb _ hs h := (h.fresh (not_request_of_isKexMsg hb)).kex
    ((ServerKex.step_writes _ _).of_ok hs) rfl rfl rfl rfl
  done_app hstep h := h.app hstep
  done_err h := h.toGuarded
  done_bytes h := h.of_same rfl rfl rfl rfl (fun _ => rfl) fun _ => rfl
  rekeyed _ h := h.rekeyed
  keyed now hnone h := h.keyed now hnone
  fresh_app hstep h := h.app hstep
  fresh_err h := h.toGuarded
  settled h := h.of_same rfl rfl rfl rfl (fun _ => rfl) fun _ => rfl

/-- Nothing has been granted before the first packet. -/
theorem access_start (P : Primitives) (offers : Prop) (env : ServerEnv) (config : ServerConfig)
    (remoteSshid : Bytes) :
    LoopInvariant (Access P offers False) (Guarded P offers) (start P env config remoteSshid) := by
  have hnew : Access P offers False (newSession config remoteSshid) := by
    refine ⟨⟨traced_nil, ?_, fun _ => ⟨fun _ => rfl, fun _ => rfl⟩⟩, fun enc request hc _ => ?_⟩
    · exact iff_of_false (by simp [isAuthenticated, newSession]) not_granted_nil
    · cases hc
  exact (accessRules P offers).start hnew.toGuarded fun rng t hb => (hnew.begin hb).1

section Runs

variable {env : ServerEnv} {config : ServerConfig} {remoteSshid : Bytes}
  {labels : List (ServerEnv × ServerInput)} {l : ServerLoop}

/-- The laws that do not need a condition. -/
theorem guarded_of_run (hrun : run (step P) (start P env config remoteSshid) labels = some l) :
    Guarded P False l.session :=
  ((accessRules P False).run (fun _ _ => True) (fun _ _ _ _ hi => ⟨hi, False.elim⟩)
    (access_start P False env config remoteSshid) (along_true _ _) hrun).ended

/-- `auth_keyboard_interactive` is only called with a response when the last USERAUTH_REQUEST is
the keyboard-interactive one with the same user and submethods, and nothing has been rejected
since. -/
theorem keyboard_bound (hrun : run (step P) (start P env config remoteSshid) labels = some l) :
    Traced KeyboardLaw l.session.events :=
  (guarded_of_run hrun).lawful.mono fun _ _ h => h.keyboard

/-- A session is authenticated when the application has accepted a request, with a signature
where the request has one, and before that nothing reaches the application or the tables. -/
theorem access_granted (hrun : run (step P) (start P env config remoteSshid) labels = some l) :
    Traced (AccessLaw P) l.session.events ∧
      (isAuthenticated l.session = true ↔ Granted l.session.events) ∧
      (¬Granted l.session.events → HasNoChannel l.session) :=
  have h := guarded_of_run hrun
  ⟨h.lawful.mono fun _ _ hl => hl.access, h.granted, h.closed⟩

/-- The condition on a step: a signature that verifies is one of the key that has been asked
about, if the server remembers one for the user. -/
def KeepsKey (P : Primitives) (l : ServerLoop) (label : ServerEnv × ServerInput) : Prop :=
  ∀ payload buf, label.2 = .packet payload → openedPacket P payload l.session = some buf →
    SameKey P buf l.session

/-- `auth_publickey` is only called for a key that has been offered for the user and accepted, and
for a signature of that key over the request. -/
theorem publickey_bound
    (hkeeps : Along (step P) (KeepsKey P) (start P env config remoteSshid) labels)
    (hrun : run (step P) (start P env config remoteSshid) labels = some l) :
    Traced (PublickeyLaw P True (sessionId l.session)) l.session.events := by
  have h := (accessRules P True).run (KeepsKey P) (fun _ _ hc _ hi => ⟨hi, fun _ => hc⟩)
    (access_start P True env config remoteSshid) hkeeps hrun
  exact h.ended.lawful.mono fun _ _ hl => hl.publickey

end Runs

section Examples

/-- The key that a USERAUTH_REQUEST of the method `publickey` is about. -/
def requestKey? (P : Primitives) (buf : Bytes) : Option PublicKeyOrCertificate := do
  let (_, r) ← (decodeString buf.tail).toOption
  let (_, r) ← (decodeString r).toOption
  let (_, r) ← (decodeString r).toOption
  let (_, r) ← (decodeU8 r).toOption
  let (pubkeyAlgo, r) ← (decodeString r).toOption
  let (pubkeyKey, _) ← (decodeBytes r).toOption
  (PublicKeyOrCertificate.decode P pubkeyAlgo pubkeyKey).toOption

theorem requestKey?_of_signedRequest {user signature toSign : Bytes} {key : PublicKeyOrCertificate}
    (h : SignedRequest P buf user key signature toSign) : requestKey? P buf = some key := by
  obtain ⟨⟨rfl, huser, hservice, hmethod⟩, hreal, -, halgo, hblob, hdec, -⟩ := h
  simp [requestKey?, huser, hservice, hmethod, hreal, halgo, hblob, hdec, Except.toOption]

/-- The key that a client has been told to be acceptable. -/
def rememberedKey? (P : Primitives) (s : ServerSession) : Option (Option PublicKeyOrCertificate) :=
  match s.common.encrypted.map (fun enc : Encrypted => enc.state) with
  | some (.waitingAuthRequest request) =>
    match request.current with
    | some (.publicKey blob algo true) =>
      some (PublicKeyOrCertificate.decode P algo blob).toOption
    | _ => none
  | _ => none

/-- A check of `KeepsKey` that does not look at signatures. -/
def showsSameKey (P : Primitives) (l : ServerLoop) : ServerEnv × ServerInput → Bool
  | (_, .packet payload) =>
    (rememberedKey? P l.session).all fun remembered =>
      ((openedPacket P payload l.session).bind (requestKey? P)).all fun key =>
        remembered = some key
  | _ => true

theorem keepsKey_of_showsSameKey {l : ServerLoop} {label : ServerEnv × ServerInput}
    (h : showsSameKey P l label = true) : KeepsKey P l label := by
  obtain ⟨env, input⟩ := label
  rintro payload buf rfl ho enc request blob algo k signature toSign hc hst hcur hreq -
  have hrem : rememberedKey? P l.session =
      some (PublicKeyOrCertificate.decode P algo blob).toOption := by
    simp [rememberedKey?, hc, hst, hcur]
  have hkey : (PublicKeyOrCertificate.decode P algo blob).toOption = some (.publicKey k) := by
    simpa [showsSameKey, hrem, ho, requestKey?_of_signedRequest hreq] using h
  cases hdec : PublicKeyOrCertificate.decode P algo blob with
  | error e =>
    rw [hdec] at hkey
    cases hkey
  | ok key =>
    rw [hdec] at hkey
    cases hkey
    exact ⟨_, rfl, rfl⟩

/-- An application that knows the key `5` and asks what its users type. -/
def knowingFive : ServerEnv where
  entropy _ := .toy
  now _ := 0
  tableOrder _ := []
  channelRef _ := ⟨0⟩
  lookupDhGexGroup _ _ := .ok none
  authenticationBanner _ := .ok none
  auth call _ :=
    match call with
    | .authPublickeyOffered _ key => .ok (if key = ⟨[5]⟩ then .accept else .reject none false)
    | .authKeyboardInteractive _ _ none => .ok (.moreInformation [] [] [])
    | _ => .ok .accept
  handler _ _ := ([], .ok true)
  returnedPort _ _ _ := 0
  adjustWindow _ size _ := size

/-- One algorithm of each kind, and the host key `7`. -/
def onlyCurve25519 : ServerConfig where
  keys := [⟨.ed25519, ⟨[7]⟩⟩]
  preferred :=
    { kex := [.curve25519], key := [.ed25519], cipher := [.chacha20Poly1305], mac := []
      compression := [.none] }

/-- The packets of a client until the authentication begins. -/
def loginPackets : List Bytes :=
  [kexInitPayload onlyCurve25519.preferred none default,
    Msg.kexEcdhInit :: encodeBytes (List.replicate 32 1), [Msg.newKeys],
    Msg.serviceRequest :: encodeBytes (ascii "ssh-userauth")]

/-- A USERAUTH_REQUEST of `root`. -/
def rootRequest (method fields : Bytes) : Bytes :=
  Msg.userauthRequest :: encodeBytes (ascii "root") ++ encodeBytes (ascii "ssh-connection") ++
    encodeBytes method ++ fields

/-- A question whether a key would be accepted, or all of a request but the signature. -/
def rootKey (isReal : UInt8) (key : Bytes) : Bytes :=
  rootRequest (ascii "publickey")
    (isReal :: encodeBytes (ascii "ssh-ed25519") ++ encodeBytes key)

/-- A request with a signature. -/
def rootSigned (key : Bytes) : Bytes :=
  rootKey 1 key ++ encodeBytes (key ++ encodeBytes (List.replicate 32 215) ++ rootKey 1 key)

/-- The client logs in and sends these packets. -/
def loginRun (packets : List Bytes) : List (ServerEnv × ServerInput) :=
  (loginPackets ++ packets).map fun packet => (knowingFive, .packet packet)

/-- The key that has been asked about is the one that signs. -/
theorem publickey_bound_five : ∃ l,
    run (step .toy) (start .toy knowingFive onlyCurve25519 [])
      (loginRun [rootKey 0 [5], rootSigned [5]]) = some l ∧
    .serverCallback (.authPublickey (ascii "root") ⟨[5]⟩) ∈ l.session.events ∧
    Traced (PublickeyLaw .toy True (sessionId l.session)) l.session.events := by
  have hkeeps : Along (step .toy) (fun l label => showsSameKey .toy l label = true)
      (start .toy knowingFive onlyCurve25519 []) (loginRun [rootKey 0 [5], rootSigned [5]]) := by
    decide +kernel
  have hcalls : ((run (step .toy) (start .toy knowingFive onlyCurve25519 [])
      (loginRun [rootKey 0 [5], rootSigned [5]])).map fun l =>
      l.session.events.contains (.serverCallback (.authPublickey (ascii "root") ⟨[5]⟩))) =
      some true := by
    decide +kernel
  obtain ⟨l, hl, hcall⟩ := Option.map_eq_some_iff.mp hcalls
  exact ⟨l, hl, by simpa using hcall,
    publickey_bound (hkeeps.mono fun _ _ => keepsKey_of_showsSameKey) hl⟩

/-- The client asks about the key `5`, and signs with the key `6`. -/
theorem not_publickey_bound_six : ∃ l,
    run (step .toy) (start .toy knowingFive onlyCurve25519 [])
      (loginRun [rootKey 0 [5], rootSigned [6]]) = some l ∧
    ¬Traced (PublickeyLaw .toy True (sessionId l.session)) l.session.events := by
  have hcalls : ((run (step .toy) (start .toy knowingFive onlyCurve25519 [])
      (loginRun [rootKey 0 [5], rootSigned [6]])).map fun l =>
      (l.session.events.contains (.serverCallback (.authPublickey (ascii "root") ⟨[6]⟩)),
        l.session.events.contains
          (.authAnswered (.authPublickeyOffered (ascii "root") ⟨[6]⟩) true))) =
      some (true, false) := by
    decide +kernel
  obtain ⟨l, hl, hp⟩ := Option.map_eq_some_iff.mp hcalls
  obtain ⟨hcall, hoffered⟩ := by simpa only [Prod.mk.injEq] using hp
  refine ⟨l, hl, fun h => ?_⟩
  obtain ⟨pre, post, hev⟩ := List.append_of_mem (by simpa using hcall)
  have hmem := (h pre _ post hev).1 trivial
  simp_all [Offered]

/-- A response is asked for, and given. -/
theorem keyboard_bound_response : ∃ l,
    run (step .toy) (start .toy knowingFive onlyCurve25519 [])
      (loginRun [rootRequest (ascii "keyboard-interactive") (encodeBytes [] ++ encodeBytes []),
        Msg.userauthInfoResponse :: encodeU32 1 ++ encodeBytes [42]]) = some l ∧
    .serverCallback (.authKeyboardInteractive (ascii "root") [] (some [some [42]])) ∈
      l.session.events ∧ Traced KeyboardLaw l.session.events := by
  have hcalls : ((run (step .toy) (start .toy knowingFive onlyCurve25519 [])
      (loginRun [rootRequest (ascii "keyboard-interactive") (encodeBytes [] ++ encodeBytes []),
        Msg.userauthInfoResponse :: encodeU32 1 ++ encodeBytes [42]])).map fun l =>
      l.session.events.contains (.serverCallback
        (.authKeyboardInteractive (ascii "root") [] (some [some [42]])))) = some true := by
    decide +kernel
  obtain ⟨l, hl, hcall⟩ := Option.map_eq_some_iff.mp hcalls
  exact ⟨l, hl, by simpa using hcall, keyboard_bound hl⟩

/-- A client is authenticated, and opens a channel. -/
theorem access_granted_channelOpen : ∃ l,
    run (step .toy) (start .toy knowingFive onlyCurve25519 [])
      (loginRun [rootRequest (ascii "none") [],
        Msg.channelOpen :: encodeBytes (ascii "session") ++ encodeU32 0 ++ encodeU32 100 ++
          encodeU32 100]) = some l ∧
    isAuthenticated l.session = true ∧ (l.session.entries 2).isSome = true ∧
    Traced (AccessLaw .toy) l.session.events ∧
      (isAuthenticated l.session = true ↔ Granted l.session.events) ∧
      (¬Granted l.session.events → HasNoChannel l.session) := by
  have hopens : ((run (step .toy) (start .toy knowingFive onlyCurve25519 [])
      (loginRun [rootRequest (ascii "none") [],
        Msg.channelOpen :: encodeBytes (ascii "session") ++ encodeU32 0 ++ encodeU32 100 ++
          encodeU32 100])).map fun l =>
      (isAuthenticated l.session, (l.session.entries 2).isSome)) = some (true, true) := by
    decide +kernel
  obtain ⟨l, hl, hp⟩ := Option.map_eq_some_iff.mp hopens
  obtain ⟨hauth, hopen⟩ := by simpa only [Prod.mk.injEq] using hp
  exact ⟨l, hl, hauth, hopen, access_granted hl⟩

end Examples

end Server

end Edgessh.Russh
