import Edgessh.Russh.Server.Access

/-!
# The authentication keeps its laws

What each function of the authentication makes of the invariant of `Server.Access`, and the three
laws for every run of a server.
-/

namespace Edgessh.Russh
open Edgessh.Command Edgessh.Run Relation

namespace Server

variable {P : Primitives} {offers : Prop} {sid buf : Bytes} {s t : ServerSession}
  {env : ServerEnv}

/-- The client has not been authenticated, and the session waits for it. -/
structure Pending (P : Primitives) (offers : Prop) (sid : Bytes) (s : ServerSession) : Prop where
  lawful : Traced (AuthLaw P offers (some sid)) s.events
  pending : ¬Granted s.events
  closed : HasNoChannel s
  id : sessionId s = some sid
  waiting : isAuthenticated s = false

/-- The packet `buf` of such a client is worked on, and nothing has been rejected yet. -/
structure Working (P : Primitives) (offers : Prop) (sid buf : Bytes) (s : ServerSession) : Prop
    extends Pending P offers sid s where
  current : Since (· = .received buf) (fun e => Event.isReceived e = false ∧ supersedes e = false)
    s.events

/-- The application has accepted, and the state does not say so yet. -/
structure Approved (P : Primitives) (offers : Prop) (sid : Bytes) (s : ServerSession) : Prop where
  lawful : Traced (AuthLaw P offers (some sid)) s.events
  granted : Granted s.events
  id : sessionId s = some sid

/-- What an answer of the application leads to. -/
def Decided (P : Primitives) (offers : Prop) (sid buf : Bytes) (auth : Auth) (s : ServerSession) :
    Prop :=
  if auth = .accept then Approved P offers sid s else Working P offers sid buf s

namespace Pending

theorem guarded (h : Pending P offers sid s) : Guarded P offers s where
  lawful := h.id ▸ h.lawful
  granted := by simp [h.waiting, h.pending]
  closed _ := h.closed

theorem encrypted (h : Pending P offers sid s) :
    ∃ enc, s.common.encrypted = some enc ∧ enc.sessionId = sid :=
  Option.map_eq_some_iff.mp h.id

theorem record {e : Event} (h : Pending P offers sid s)
    (hlaw : AuthLaw P offers (some sid) s.events e) (hg : isGrant e = false) :
    Pending P offers sid (s.record e) where
  lawful := by
    rw [Session.events_record]
    exact traced_concat.mpr ⟨h.lawful, hlaw⟩
  pending := by
    rw [Session.events_record, granted_append (by simpa using hg)]
    exact h.pending
  closed := h.closed
  id := h.id
  waiting := h.waiting

theorem wrote {enc : Encrypted} {m : Message} (h : Pending P offers sid s)
    (hc : s.common.encrypted = some enc) :
    Pending P offers sid (s.wrote (enc.push m) [m]) where
  lawful := by
    rw [Session.events_wrote]
    exact traced_concat.mpr ⟨h.lawful, trivial, trivial, trivial⟩
  pending := by
    rw [Session.events_wrote, granted_append (by simp [isGrant])]
    exact h.pending
  closed := by
    refine ⟨fun id => ?_, h.closed.2⟩
    rw [← h.closed.1 id, Session.entries_eq hc]
    rfl
  id := by
    rw [← h.id, sessionId, sessionId, hc]
    rfl
  waiting := by
    rw [← h.waiting, isAuthenticated, isAuthenticated, hc]
    rfl

/-- The next request is waited for. -/
theorem waits {enc : Encrypted} {request : AuthRequest} {decompress : Decompress}
    (h : Pending P offers sid s) (hc : s.common.encrypted = some enc)
    (hcur : CurrentLaw P False s.common.authUser s.events request.current) :
    Access P offers False
      (s.setEncrypted { enc with state := .waitingAuthRequest request, decompress }) where
  lawful := by
    have hid : sessionId (s.setEncrypted
        { enc with state := .waitingAuthRequest request, decompress }) = some sid := by
      rw [← h.id, sessionId, sessionId, hc]
      rfl
    rw [hid]
    exact h.lawful
  granted := by
    refine ⟨fun hauth => ?_, fun hg => absurd hg h.pending⟩
    simp [isAuthenticated, EncryptedState.isAuthenticated] at hauth
  closed _ := by
    refine ⟨fun id => ?_, h.closed.2⟩
    rw [← h.closed.1 id, Session.entries_eq hc]
    rfl
  current enc' request' hc' hst := by
    cases hc'
    cases hst
    exact hcur

end Pending

namespace Working

theorem processing (h : Working P offers sid buf s) : Processing buf s.events :=
  h.current.mono (fun _ hx => hx) fun _ hx => hx.1

theorem record {e : Event} (h : Working P offers sid buf s)
    (hlaw : AuthLaw P offers (some sid) s.events e) (hg : isGrant e = false)
    (hr : Event.isReceived e = false ∧ supersedes e = false) :
    Working P offers sid buf (s.record e) where
  toPending := h.toPending.record hlaw hg
  current := by
    rw [Session.events_record]
    exact h.current.append (by simpa using hr)

theorem setUser (h : Working P offers sid buf s) (authUser : Bytes) (authAttempts : Nat) :
    Working P offers sid buf { s with common := { s.common with authUser, authAttempts } } :=
  ⟨⟨h.lawful, h.pending, h.closed, h.id, h.waiting⟩, h.current⟩

end Working

section Operations

variable {Q : Unit → ServerSession → Prop} {E : Exn → ServerSession → Prop}

theorem wp_decode {β : Type} {d : Decoder β} {r : Bytes} {Q : β × Bytes → ServerSession → Prop}
    (hok : ∀ a r', d r = .ok (a, r') → Q (a, r') s) (herr : ∀ e, E e s) :
    wp (AuthM.decode d r).run Q E s := by
  rw [AuthM.decode, Confined.run_lift, wp_ofExcept, wpExcept_mapError]
  exact wpExcept_iff.mpr ⟨fun p hp => hok p.1 p.2 hp, fun e _ => herr _⟩

theorem wp_write {enc : Encrypted} {m : Message} {h : m.isAuth = true}
    (hc : s.common.encrypted = some enc) (hQ : Q () (s.wrote (enc.push m) [m])) :
    wp (AuthM.write m h).run Q E s := by
  rw [AuthM.write, Confined.run_move, wp_modify]
  simpa only [hc] using hQ

theorem wp_setState {enc : Encrypted} {f : Encrypted → EncryptedState × Decompress}
    (hc : s.common.encrypted = some enc)
    (hQ : Q () (s.setEncrypted { enc with state := (f enc).1, decompress := (f enc).2 })) :
    wp (AuthM.setState f).run Q E s := by
  rw [AuthM.setState, Confined.run_move, wp_modify]
  simpa only [hc] using hQ

theorem wp_setAuthUser {user : Bytes}
    (hQ : Q () { s with common := { s.common with
      authUser := user, authAttempts := s.common.authAttempts } }) :
    wp (AuthM.setAuthUser user).run Q E s := hQ

theorem wp_note {e : Event} {h : e.isAuth = true} (hQ : Q () (s.record e)) :
    wp (AuthM.note e h).run Q E s := hQ

/-- The session after an answer of the application. -/
def asked (call : ServerCallback) (auth : Auth) (s : ServerSession) : ServerSession :=
  (s.record (.serverCallback call)).record (.authAnswered call (auth = .accept))

theorem events_asked (call : ServerCallback) (auth : Auth) (s : ServerSession) :
    (asked call auth s).events =
      s.events ++ [.serverCallback call, .authAnswered call (auth = .accept)] := by
  simp [asked]

theorem wp_ask {call : ServerCallback} {h : call.isConnection = false}
    {Q : Auth → ServerSession → Prop} (hw : Working P offers sid buf s)
    (hcall : AuthLaw P offers (some sid) s.events (.serverCallback call))
    (hQ : ∀ auth, Q auth (asked call auth s)) :
    wp (AuthM.ask env call h).run Q (fun _ t => Guarded P offers t) s := by
  have hrec := hw.record hcall (by simp [isGrant]) ⟨rfl, rfl⟩
  simp only [AuthM.ask, AuthM.note, Confined.run_bind, Confined.run_move, Confined.run_read,
    Confined.run_lift, Confined.run_pure, wp_bind, wp_modify, wp_get, wp_ofExcept, wpExcept_mapError,
    wp_pure]
  exact wpExcept_iff.mpr ⟨fun auth _ => hQ auth, fun _ _ => hrec.guarded⟩

/-- An answer that authenticates nobody. -/
theorem Working.asked {call : ServerCallback} {auth : Auth} (hw : Working P offers sid buf s)
    (hcall : AuthLaw P offers (some sid) s.events (.serverCallback call))
    (h : auth ≠ .accept ∨ grants call = false) :
    Working P offers sid buf (asked call auth s) := by
  refine (hw.record hcall (by simp [isGrant]) ⟨rfl, rfl⟩).record
    ⟨trivial, trivial, accessLaw_authAnswered.mpr fun ha hg => ?_⟩ ?_ ⟨rfl, rfl⟩
  · rcases h with h | h
    · exact absurd (of_decide_eq_true ha) h
    · rw [h] at hg
      cases hg
  · rcases h with h | h <;> simp [isGrant, h]

/-- An answer to a request that may be granted. -/
theorem Working.decided {call : ServerCallback} {auth : Auth} (hw : Working P offers sid buf s)
    (hcall : AuthLaw P offers (some sid) s.events (.serverCallback call))
    (hgrants : grants call = true) (hmay : MayGrant P call (s.events ++ [.serverCallback call])) :
    Decided P offers sid buf auth (Server.asked call auth s) := by
  unfold Decided
  split
  · rename_i ha
    subst ha
    refine ⟨?_, ?_, hw.id⟩
    · rw [events_asked]
      refine traced_append.mpr ⟨hw.lawful, fun pre e post h => ?_⟩
      match pre, h with
      | [], h =>
        cases h
        simpa using hcall
      | [x], h =>
        cases h
        exact ⟨trivial, trivial, fun _ => hmay⟩
      | x :: y :: pre, h => simp at h
    · rw [events_asked]
      exact ⟨.authAnswered call true, by simp, by simp [isGrant, hgrants]⟩
  · rename_i ha
    exact hw.asked hcall (.inl ha)

end Operations

section Replies

theorem wp_rejectAuthRequest {request : AuthRequest} (hw : Pending P offers sid s) :
    wp (rejectAuthRequest request).run (fun _ t => Access P offers False t)
      (fun _ t => Guarded P offers t) s := by
  obtain ⟨enc, hc, -⟩ := hw.encrypted
  rw [rejectAuthRequest, Confined.wp_run_bind]
  refine wp_write hc (wp_setState (Session.encrypted_wrote ..) ?_)
  exact (hw.wrote hc).waits (Session.encrypted_wrote ..) trivial

theorem wp_acceptAuthRequest (ha : Approved P offers sid s) :
    wp acceptAuthRequest.run (fun _ t => Access P offers False t)
      (fun _ t => Guarded P offers t) s := by
  obtain ⟨enc, hc, hid⟩ := Option.map_eq_some_iff.mp ha.id
  rw [acceptAuthRequest, Confined.wp_run_bind]
  refine wp_write hc (wp_setState (Session.encrypted_wrote ..) ?_)
  have hg : Granted (s.events ++ [.wrote .userauthSuccess]) := ha.granted.append
  refine ⟨⟨?_, ⟨fun _ => hg, fun _ => rfl⟩, fun hn => absurd hg hn⟩, fun _ _ hc' hst => ?_⟩
  · show Traced (AuthLaw P offers (some enc.sessionId)) (s.events ++ [.wrote .userauthSuccess])
    rw [hid]
    exact traced_concat.mpr ⟨ha.lawful, trivial, trivial, trivial⟩
  · cases hc'
    cases hst

theorem wp_settle {remove : Option MethodKind} {request : AuthRequest} {auth : Auth}
    (h : Decided P offers sid buf auth s) :
    wp (settle remove request auth).run (fun _ t => Access P offers False t)
      (fun _ t => Guarded P offers t) s := by
  have hreject : ∀ auth, Working P offers sid buf s →
      wp (do
        AuthM.setAuthUser []
        rejectAuthRequest (request.afterRejection remove auth)).run
        (fun _ t => Access P offers False t) (fun _ t => Guarded P offers t) s := by
    intro auth hw
    rw [Confined.wp_run_bind]
    exact wp_setAuthUser (wp_rejectAuthRequest (hw.setUser ..).toPending)
  cases auth with
  | accept => exact wp_acceptAuthRequest (by simpa [Decided] using h)
  | reject methods partialSuccess => exact hreject _ (by simpa [Decided] using h)
  | unsupportedMethod => exact hreject _ (by simpa [Decided] using h)
  | moreInformation name instructions prompts => exact hreject _ (by simpa [Decided] using h)

/-- The request stays the current one while the application wants more. -/
theorem wp_replyUserauthInfoResponse {request : AuthRequest} {auth : Auth}
    (h : Decided P offers sid buf auth s)
    (hcur : CurrentLaw P False s.common.authUser s.events request.current) :
    wp (replyUserauthInfoResponse request auth).run (fun _ t => Access P offers False t)
      (fun _ t => Guarded P offers t) s := by
  cases auth with
  | accept => exact wp_acceptAuthRequest (by simpa [Decided] using h)
  | reject methods partialSuccess =>
    have hw : Working P offers sid buf s := by simpa [Decided] using h
    exact wp_rejectAuthRequest hw.toPending
  | unsupportedMethod =>
    have hw : Working P offers sid buf s := by simpa [Decided] using h
    exact hw.guarded
  | moreInformation name instructions prompts =>
    have hw : Working P offers sid buf s := by simpa [Decided] using h
    obtain ⟨enc, hc, -⟩ := hw.encrypted
    rw [replyUserauthInfoResponse, Confined.wp_run_bind]
    refine wp_write hc (wp_setState (Session.encrypted_wrote ..) ?_)
    refine (hw.wrote hc).waits (Session.encrypted_wrote ..) ?_
    rw [Session.events_wrote]
    exact hcur.append (by simp [supersedes, Message.isRejection])

end Replies

section Publickey

/-- What the server remembers of a probe makes the key of the request one that has been offered. -/
theorem wp_isOffered {request : AuthRequest} {user : Bytes} {pubkey : PublicKey} (needed : Prop)
    (hw : Working P offers sid buf s)
    (hsent : ∀ key algo, request.current = some (.publicKey key algo true) →
      user = s.common.authUser → needed → Offered user pubkey s.events) :
    wp (isOffered env request user pubkey).run
      (fun ok t => Working P offers sid buf t ∧ (ok = true → needed → Offered user pubkey t.events))
      (fun _ t => Guarded P offers t) s := by
  unfold isOffered
  simp only [Confined.wp_run_bind, Confined.run_read, wp_get]
  split
  · rename_i h
    obtain ⟨hsentPkOk, huser⟩ := (Bool.and_eq_true _ _).mp h
    obtain ⟨key, algo, hcur⟩ := AuthRequest.current_of_sentPkOk hsentPkOk
    exact ⟨hw, fun _ => hsent key algo hcur (of_decide_eq_true huser)⟩
  · split
    · rw [Confined.wp_run_bind]
      refine wp_setAuthUser ?_
      rw [Confined.wp_run_bind]
      refine wp_ask (hw.setUser ..) (.of_isUnbound rfl) fun auth => ?_
      refine ⟨(hw.setUser ..).asked (.of_isUnbound rfl) (.inr rfl), ?_⟩
      intro hok _
      have hauth : auth = .accept := by simpa using hok
      rw [events_asked, hauth]
      simp [Offered]
    · exact ⟨hw, nofun⟩

/-- The call after a signature of the key has been verified. -/
theorem Working.call {user sigInit signature data : Bytes} {key : PublicKeyOrCertificate}
    (hw : Working P offers sid buf s)
    (hoffered : ∀ k, key = .publicKey k → offers → Offered user k s.events)
    (hreq : SignedRequest P buf user key signature sigInit)
    (hverify : P.verify (key.pubkey P) (encodeBytes sid ++ sigInit) signature = true)
    (hlast : s.events.getLast? = some (.authVerified (key.pubkey P) data)) :
    AuthLaw P offers (some sid) s.events (.serverCallback (key.call user)) ∧
      MayGrant P (key.call user) (s.events ++ [.serverCallback (key.call user)]) := by
  obtain ⟨pre, hpre⟩ := List.getLast?_eq_some_iff.mp hlast
  have hver : HasVerified (key.pubkey P) (s.events ++ [.serverCallback (key.call user)]) := by
    rw [hpre]
    exact (since_concat ⟨data, rfl⟩).append (by simp [Event.isReceived])
  have hproc : Processing buf (s.events ++ [.serverCallback (key.call user)]) :=
    hw.processing.append (by simp [Event.isReceived])
  have hhead : buf.head? = some Msg.userauthRequest := by
    obtain ⟨⟨rfl, -, -, -⟩, -⟩ := hreq
    rfl
  cases key with
  | publicKey k =>
    refine ⟨⟨⟨hoffered k rfl, sid, buf, signature, sigInit, rfl, hw.processing, hreq, hverify⟩,
      trivial, by simp [AccessLaw, PublicKeyOrCertificate.call, ServerCallback.isConnection]⟩, ?_⟩
    exact ⟨⟨buf, hproc, .inl hhead⟩, hver⟩
  | certificate cert =>
    exact ⟨⟨trivial, trivial, by
        simp [AccessLaw, PublicKeyOrCertificate.call, ServerCallback.isConnection]⟩,
      ⟨buf, hproc, .inl hhead⟩, hver⟩

theorem wp_readSignature {request : AuthRequest} {user sigInit signature : Bytes}
    {key : PublicKeyOrCertificate} (hw : Working P offers sid buf s)
    (hoffered : ∀ k, key = .publicKey k → offers →
      P.verify k (encodeBytes sid ++ sigInit) signature = true → Offered user k s.events)
    (hreq : SignedRequest P buf user key signature sigInit) :
    wp (readSignature P env request user key sid sigInit signature).run
      (fun _ t => Access P offers False t) (fun _ t => Guarded P offers t) s := by
  unfold readSignature
  split
  · rename_i hverify
    rw [Confined.wp_run_bind]
    refine wp_note ?_
    rw [Confined.wp_run_bind]
    have hoffered : ∀ k, key = .publicKey k → offers → Offered user k s.events := by
      rintro k rfl ho
      exact hoffered k rfl ho hverify
    generalize hdata : encodeBytes sid ++ sigInit = data at hverify
    have hw' : Working P offers sid buf (s.record (.authVerified (key.pubkey P) data)) :=
      hw.record ⟨trivial, trivial, trivial⟩ rfl ⟨rfl, rfl⟩
    have hlast : (s.record (.authVerified (key.pubkey P) data)).events.getLast? =
        some (.authVerified (key.pubkey P) data) := by simp
    obtain ⟨hlaw, hmay⟩ := hw'.call (fun k hk ho => (hoffered k hk ho).append) hreq
      (by rw [hdata]; exact hverify) hlast
    refine wp_ask hw' hlaw fun auth => wp_settle (hw'.decided hlaw ?_ hmay)
    cases key <;> rfl
  · exact wp_rejectAuthRequest hw.toPending

theorem wp_readSigned {request : AuthRequest} {enc : Encrypted} {user r : Bytes}
    {key : PublicKeyOrCertificate} (hw : Working P offers sid buf s) (hid : enc.sessionId = sid)
    (hreq : ∀ signature r', decodeBytes r = .ok (signature, r') →
      SignedRequest P buf user key signature (buf.take (buf.length - r.length)))
    (hsent : ∀ k blob algo signature toSign, key = .publicKey k →
      SignedRequest P buf user key signature toSign →
      P.verify k (encodeBytes sid ++ toSign) signature = true →
      request.current = some (.publicKey blob algo true) → user = s.common.authUser → offers →
      Offered user k s.events) :
    wp (readSigned P env buf enc request user key r).run (fun _ t => Access P offers False t)
      (fun _ t => Guarded P offers t) s := by
  unfold readSigned
  rw [Confined.wp_run_bind]
  refine wp_decode (fun signature r' hsig => ?_) fun _ => hw.guarded
  have hreq := hreq signature r' hsig
  dsimp only
  split
  · rename_i hdec
    rw [Confined.wp_run_bind]
    generalize htoSign : buf.take (buf.length - r.length) = toSign at hreq
    refine wp_mono (wp_isOffered (∃ k, key = .publicKey k ∧ offers ∧
      P.verify k (encodeBytes sid ++ toSign) signature = true) hw ?_)
      (fun ok t ht => ?_) fun _ _ ht => ht
    · rintro blob algo hcur huser ⟨k, rfl, ho, hverify⟩
      exact hsent k blob algo signature toSign rfl hreq hverify hcur huser ho
    · cases ok with
      | true =>
        subst hid
        refine wp_readSignature ht.1 (fun k hk ho hverify => ?_) hreq
        subst hk
        exact ht.2 rfl ⟨k, rfl, ho, hverify⟩
      | false => exact wp_rejectAuthRequest ht.1.toPending
  · exact hw.guarded

/-- A probe: the key that has been accepted is remembered. -/
theorem wp_readProbe {request : AuthRequest} {user pubkeyAlgo pubkeyKey : Bytes}
    {key : PublicKeyOrCertificate} (hw : Working P offers sid buf s)
    (hdec : PublicKeyOrCertificate.decode P pubkeyAlgo pubkeyKey = .ok key) :
    wp (readProbe P env request user key pubkeyAlgo pubkeyKey).run
      (fun _ t => Access P offers False t) (fun _ t => Guarded P offers t) s := by
  unfold readProbe
  rw [Confined.wp_run_bind]
  refine wp_setAuthUser ?_
  rw [Confined.wp_run_bind]
  have hset := hw.setUser user s.common.authAttempts
  refine wp_ask hset (.of_isUnbound rfl) fun auth => ?_
  have hasked : Working P offers sid buf (asked (.authPublickeyOffered user (key.pubkey P)) auth
      { s with common := { s.common with
        authUser := user, authAttempts := s.common.authAttempts } }) :=
    hset.asked (.of_isUnbound rfl) (.inr rfl)
  have hreject : ∀ auth', wp (do
      AuthM.setAuthUser []
      rejectAuthRequest (request.afterRejection none auth')).run
      (fun _ t => Access P offers False t) (fun _ t => Guarded P offers t)
      (asked (.authPublickeyOffered user (key.pubkey P)) auth
        { s with common := { s.common with
          authUser := user, authAttempts := s.common.authAttempts } }) := by
    intro auth'
    rw [Confined.wp_run_bind]
    exact wp_setAuthUser (wp_rejectAuthRequest (hasked.setUser ..).toPending)
  cases auth with
  | accept =>
    obtain ⟨enc, hc, -⟩ := hasked.encrypted
    dsimp only
    rw [Confined.wp_run_bind]
    refine wp_write hc (wp_setState (Session.encrypted_wrote ..) ?_)
    refine (hasked.wrote hc).waits (Session.encrypted_wrote ..) fun _ => ⟨key, hdec, ?_⟩
    rw [Session.events_wrote, events_asked]
    show Offered user _ _
    simp [Offered]
  | reject methods partialSuccess => exact hreject _
  | unsupportedMethod => exact hreject _
  | moreInformation name instructions prompts => exact hreject _

/-- A signature that verifies for the user of the remembered probe is one of the key of that
probe: what the server does not check. -/
def SameKey (P : Primitives) (buf : Bytes) (s : ServerSession) : Prop :=
  ∀ enc request blob algo k signature toSign, s.common.encrypted = some enc →
    enc.state = .waitingAuthRequest request →
    request.current = some (.publicKey blob algo true) →
    SignedRequest P buf s.common.authUser (.publicKey k) signature toSign →
    P.verify k (encodeBytes enc.sessionId ++ toSign) signature = true →
    ∃ key, PublicKeyOrCertificate.decode P algo blob = .ok key ∧ key.pubkey P = k

/-- What the server remembers when it begins with a USERAUTH_REQUEST. -/
structure Remembers (P : Primitives) (offers : Prop) (sid buf : Bytes) (request : AuthRequest)
    (s : ServerSession) : Prop where
  current : CurrentLaw P True s.common.authUser s.events request.current
  sameKey : offers → ∀ blob algo k signature toSign,
    request.current = some (.publicKey blob algo true) →
    SignedRequest P buf s.common.authUser (.publicKey k) signature toSign →
    P.verify k (encodeBytes sid ++ toSign) signature = true →
    ∃ key, PublicKeyOrCertificate.decode P algo blob = .ok key ∧ key.pubkey P = k

/-- The key of the request is the one that has been offered. -/
theorem Remembers.offered {request : AuthRequest} {k : PublicKey}
    {blob algo signature toSign : Bytes}
    (h : Remembers P offers sid buf request s) (ho : offers)
    (hcur : request.current = some (.publicKey blob algo true))
    (hreq : SignedRequest P buf s.common.authUser (.publicKey k) signature toSign)
    (hverify : P.verify k (encodeBytes sid ++ toSign) signature = true) :
    Offered s.common.authUser k s.events := by
  obtain ⟨key, hkey, rfl⟩ := h.sameKey ho blob algo k signature toSign hcur hreq hverify
  have hlaw := h.current
  rw [hcur] at hlaw
  obtain ⟨key', hkey', hoffered⟩ := hlaw rfl
  rw [hkey] at hkey'
  cases hkey'
  exact hoffered

theorem wp_readAuthRequestPk {request : AuthRequest} {enc : Encrypted} {user r : Bytes}
    (hw : Working P offers sid buf s) (hid : enc.sessionId = sid)
    (hhead : RequestHead buf user (ascii "ssh-connection") (ascii "publickey") r)
    (hrem : Remembers P offers sid buf request s) :
    wp (readAuthRequestPk P env buf enc request user r).run (fun _ t => Access P offers False t)
      (fun _ t => Guarded P offers t) s := by
  unfold readAuthRequestPk
  rw [Confined.wp_run_bind]
  refine wp_decode (fun isReal r₁ hreal => ?_) fun _ => hw.guarded
  dsimp only
  rw [Confined.wp_run_bind]
  refine wp_decode (fun pubkeyAlgo r₂ halgo => ?_) fun _ => hw.guarded
  dsimp only
  rw [Confined.wp_run_bind]
  refine wp_decode (fun pubkeyKey r₃ hkey => ?_) fun _ => hw.guarded
  dsimp only
  split
  · exact wp_rejectAuthRequest hw.toPending
  · exact hw.guarded
  · rename_i key hdec
    rw [Confined.wp_run_bind, Confined.run_read, wp_get]
    split
    · split
      · rename_i hisReal
        refine wp_readSigned hw hid (fun signature r' hsig => ?_) ?_
        · exact .intro hhead hreal hisReal halgo hkey hdec hsig
        · rintro k blob algo signature toSign rfl hreq hverify hcur rfl ho
          exact hrem.offered ho hcur hreq hverify
      · exact wp_readProbe hw hdec
    · exact wp_rejectAuthRequest hw.toPending

end Publickey

section Methods

theorem wp_readPassword {request : AuthRequest} {user r : Bytes}
    (hw : Working P offers sid buf s) (hhead : buf.head? = some Msg.userauthRequest) :
    wp (readPassword env request user r).run (fun _ t => Access P offers False t)
      (fun _ t => Guarded P offers t) s := by
  unfold readPassword
  rw [Confined.wp_run_bind]
  have hset := hw.setUser user s.common.authAttempts
  refine wp_setAuthUser ?_
  rw [Confined.wp_run_bind]
  refine wp_decode (fun _ r₁ _ => ?_) fun _ => hset.guarded
  dsimp only
  rw [Confined.wp_run_bind]
  refine wp_decode (fun password r₂ _ => ?_) fun _ => hset.guarded
  dsimp only
  rw [Confined.wp_run_bind]
  refine wp_ask hset (.of_isUnbound rfl) fun auth => wp_settle (hset.decided (.of_isUnbound rfl) rfl ?_)
  exact ⟨⟨buf, hset.processing.append (by simp [Event.isReceived]), .inl hhead⟩, trivial⟩

theorem wp_readNone {request : AuthRequest} {user : Bytes}
    (hw : Working P offers sid buf s) (hhead : buf.head? = some Msg.userauthRequest) :
    wp (readNone env request user).run (fun _ t => Access P offers False t)
      (fun _ t => Guarded P offers t) s := by
  unfold readNone
  rw [Confined.wp_run_bind]
  refine wp_ask hw (.of_isUnbound rfl) fun auth => wp_settle (hw.decided (.of_isUnbound rfl) rfl ?_)
  exact ⟨⟨buf, hw.processing.append (by simp [Event.isReceived]), .inl hhead⟩, trivial⟩

/-- The request that has just been read is the latest one. -/
theorem Working.latestKeyboard {user submethods : Bytes} (hw : Working P offers sid buf s)
    (h : KeyboardRequest buf user submethods) : LatestKeyboard user submethods s.events :=
  hw.current.mono (fun _ hx => ⟨buf, hx, h⟩) fun _ hx => hx.2

theorem wp_readKeyboardInteractive {request : AuthRequest} {user r : Bytes}
    (hw : Working P offers sid buf s)
    (hhead : RequestHead buf user (ascii "ssh-connection") (ascii "keyboard-interactive") r) :
    wp (readKeyboardInteractive env request user r).run (fun _ t => Access P offers False t)
      (fun _ t => Guarded P offers t) s := by
  unfold readKeyboardInteractive
  rw [Confined.wp_run_bind]
  have hset := hw.setUser user s.common.authAttempts
  refine wp_setAuthUser ?_
  rw [Confined.wp_run_bind]
  refine wp_decode (fun _ r₁ htag => ?_) fun _ => hset.guarded
  dsimp only
  rw [Confined.wp_run_bind]
  refine wp_decode (fun submethods r₂ hsub => ?_) fun _ => hset.guarded
  dsimp only
  rw [Confined.wp_run_bind]
  refine wp_ask hset (.of_isUnbound rfl) fun auth => ?_
  have hmay : MayGrant P (.authKeyboardInteractive user submethods none)
      (s.events ++ [.serverCallback (.authKeyboardInteractive user submethods none)]) :=
    ⟨⟨buf, hset.processing.append (by simp [Event.isReceived]), .inl hhead.head⟩, trivial⟩
  refine wp_replyUserauthInfoResponse (hset.decided (.of_isUnbound rfl) rfl hmay) fun _ => ?_
  rw [events_asked]
  exact (hset.latestKeyboard (.intro hhead htag hsub)).append (by simp [supersedes])

theorem wp_readAuthRequest {request : AuthRequest} {enc : Encrypted} {r : Bytes}
    (hw : Working P offers sid (Msg.userauthRequest :: r) s) (hid : enc.sessionId = sid)
    (hrem : Remembers P offers sid (Msg.userauthRequest :: r) request s) :
    wp (readAuthRequest P env (Msg.userauthRequest :: r) enc request r).run
      (fun _ t => Access P offers False t) (fun _ t => Guarded P offers t) s := by
  unfold readAuthRequest
  rw [Confined.wp_run_bind]
  refine wp_decode (fun user r₁ huser => ?_) fun _ => hw.guarded
  dsimp only
  rw [Confined.wp_run_bind]
  refine wp_decode (fun serviceName r₂ hservice => ?_) fun _ => hw.guarded
  dsimp only
  rw [Confined.wp_run_bind]
  refine wp_decode (fun method r₃ hmethod => ?_) fun _ => hw.guarded
  have hhead := RequestHead.intro rfl huser hservice hmethod
  dsimp only
  split
  · rename_i hconnection
    subst hconnection
    split
    · exact wp_readPassword hw rfl
    · split
      · rename_i hpk
        subst hpk
        exact wp_readAuthRequestPk hw hid hhead hrem
      · split
        · exact wp_readNone hw rfl
        · split
          · rename_i hki
            subst hki
            exact wp_readKeyboardInteractive hw hhead
          · exact wp_rejectAuthRequest hw.toPending
  · exact hw.guarded

/-- A response is one to the request that the server remembers, which is the latest one. -/
theorem wp_readUserauthInfoResponse {request : AuthRequest} {r : Bytes}
    (hw : Working P offers sid (Msg.userauthInfoResponse :: r) s)
    (hcur : CurrentLaw P False s.common.authUser s.events request.current) :
    wp (readUserauthInfoResponse env request r).run (fun _ t => Access P offers False t)
      (fun _ t => Guarded P offers t) s := by
  unfold readUserauthInfoResponse
  split
  · rename_i submethods hreq
    rw [hreq] at hcur
    have hlatest : LatestKeyboard s.common.authUser submethods s.events := hcur not_false
    rw [Confined.wp_run_bind]
    refine wp_decode (fun n r₁ _ => ?_) fun _ => hw.guarded
    dsimp only
    rw [Confined.wp_run_bind, Confined.run_read, wp_get, Confined.wp_run_bind]
    have hlaw : AuthLaw P offers (some sid) s.events (.serverCallback
        (.authKeyboardInteractive s.common.authUser submethods (some (decodeResponses n r₁)))) :=
      ⟨trivial, hlatest, by simp [AccessLaw, ServerCallback.isConnection]⟩
    refine wp_ask hw hlaw fun auth => ?_
    refine wp_replyUserauthInfoResponse (hw.decided hlaw rfl ?_) ?_
    · exact ⟨⟨_, hw.processing.append (by simp [Event.isReceived]), .inr rfl⟩, trivial⟩
    · rw [hreq, events_asked]
      exact fun _ => hlatest.append (by simp [supersedes])
  · exact wp_rejectAuthRequest hw.toPending

/-- The banner, and the service that is accepted. -/
theorem wp_readServiceRequest {r : Bytes} (hw : Working P offers sid buf s)
    (ha : Access P offers False s) :
    wp (readServiceRequest env r).run (fun _ t => Access P offers False t)
      (fun _ t => Guarded P offers t) s := by
  unfold readServiceRequest
  rw [Confined.wp_run_bind]
  refine wp_decode (fun request r₁ _ => ?_) fun _ => hw.guarded
  dsimp only
  split
  · have hcalled := hw.record (e := .serverCallback .authenticationBanner) (.of_isUnbound rfl)
      (by simp [isGrant]) ⟨rfl, rfl⟩
    rw [Confined.wp_run_bind, askBanner, Confined.wp_run_bind]
    refine wp_note ?_
    rw [Confined.wp_run_bind, Confined.run_read, wp_get, Confined.run_lift, wp_ofExcept,
      wpExcept_mapError]
    refine wpExcept_iff.mpr ⟨fun banner _ => ?_, fun _ _ => hcalled.guarded⟩
    rw [Confined.wp_run_bind, Confined.run_read, wp_get]
    obtain ⟨enc, hc, -⟩ := hcalled.encrypted
    have hwrote := hcalled.toPending.wrote (m := .serviceAccept (ascii "ssh-userauth")) hc
    rw [acceptService, Confined.wp_run_bind]
    refine wp_write hc ?_
    cases banner with
    | none =>
      exact wp_setState (Session.encrypted_wrote ..)
        (hwrote.waits (Session.encrypted_wrote ..) trivial)
    | some banner =>
      dsimp only
      rw [Confined.wp_run_bind]
      refine wp_write (Session.encrypted_wrote ..) (wp_setState (Session.encrypted_wrote ..) ?_)
      exact (hwrote.wrote (Session.encrypted_wrote ..)).waits (Session.encrypted_wrote ..) trivial
  · exact ha

end Methods

end Server

end Edgessh.Russh
