import Edgessh.Lib.Trace
import Edgessh.Russh.Kex.Advance
import Edgessh.Russh.Server.Rules

/-!
# What the server grants to whom

Three laws of the authentication: the calls of `auth_publickey` are bound to an offer and a
signature, those of `auth_keyboard_interactive` to the request that they answer, and nothing of the
connection is served before an authentication has been accepted. One invariant of the loop carries
all of them.
-/

namespace Edgessh.Russh
open Edgessh.Command Edgessh.Run Relation

namespace Server

variable {P : Primitives}

section Packets

/-- The first three fields of a USERAUTH_REQUEST, and what follows them. -/
inductive RequestHead (buf user service method : Bytes) : Bytes → Prop
  | intro {r r₁ r₂ r₃} : buf = Msg.userauthRequest :: r → decodeString r = .ok (user, r₁) →
      decodeString r₁ = .ok (service, r₂) → decodeString r₂ = .ok (method, r₃) →
      RequestHead buf user service method r₃

theorem RequestHead.head {buf user service method r : Bytes}
    (h : RequestHead buf user service method r) : buf.head? = some Msg.userauthRequest := by
  obtain ⟨rfl, -, -, -⟩ := h
  rfl

/-- A USERAUTH_REQUEST of the method `keyboard-interactive`. -/
inductive KeyboardRequest (buf user submethods : Bytes) : Prop
  | intro {r r₁ r₂ languageTag} :
      RequestHead buf user (ascii "ssh-connection") (ascii "keyboard-interactive") r →
      decodeString r = .ok (languageTag, r₁) → decodeString r₁ = .ok (submethods, r₂) →
      KeyboardRequest buf user submethods

/-- A USERAUTH_REQUEST of the method `publickey` with a signature; `toSign` is all that stands
before the signature. -/
inductive SignedRequest (P : Primitives) (buf user : Bytes) (key : PublicKeyOrCertificate)
    (signature : Bytes) : Bytes → Prop
  | intro {r r₁ r₂ r₃ r₄ isReal pubkeyAlgo pubkeyKey} :
      RequestHead buf user (ascii "ssh-connection") (ascii "publickey") r →
      decodeU8 r = .ok (isReal, r₁) → isReal ≠ 0 → decodeString r₁ = .ok (pubkeyAlgo, r₂) →
      decodeBytes r₂ = .ok (pubkeyKey, r₃) →
      PublicKeyOrCertificate.decode P pubkeyAlgo pubkeyKey = .ok key →
      decodeBytes r₃ = .ok (signature, r₄) →
      SignedRequest P buf user key signature (buf.take (buf.length - r₃.length))

end Packets

section Laws

/-- The calls whose `Auth::Accept` authenticates the client. -/
def grants : ServerCallback → Bool
  | .authNone _ | .authPassword _ _ | .authPublickey _ _ | .authOpensshCertificate _ _ => true
  | .authKeyboardInteractive _ _ _ => true
  | _ => false

/-- An answer that authenticates the client. -/
def isGrant : Event → Bool
  | .authAnswered call accepted => accepted && grants call
  | _ => false

/-- The client has been authenticated. -/
def Granted (events : List Event) : Prop := ∃ e ∈ events, isGrant e = true

/-- The packet that is worked on. -/
def Processing (buf : Bytes) : List Event → Prop :=
  Since (· = .received buf) fun e => Event.isReceived e = false

/-- What ends the validity of a keyboard-interactive request. -/
def supersedes : Event → Bool
  | .received buf => buf.head? = some Msg.userauthRequest
  | .wrote m => m.isRejection
  | _ => false

/-- The last USERAUTH_REQUEST is this keyboard-interactive one, and no USERAUTH_FAILURE has been
sent since. -/
def LatestKeyboard (user submethods : Bytes) : List Event → Prop :=
  Since (fun e => ∃ buf, e = .received buf ∧ KeyboardRequest buf user submethods)
    fun e => supersedes e = false

/-- The key has been offered for the user, and accepted. -/
def Offered (user : Bytes) (key : PublicKey) (events : List Event) : Prop :=
  .authAnswered (.authPublickeyOffered user key) true ∈ events

/-- The request that is worked on carries a signature of the key over the session id and all of
the request that stands before the signature. -/
def CarriesSignature (P : Primitives) (sessionId : Option Bytes) (user : Bytes) (key : PublicKey)
    (events : List Event) : Prop :=
  ∃ id buf signature toSign, sessionId = some id ∧ Processing buf events ∧
    SignedRequest P buf user (.publicKey key) signature toSign ∧
    P.verify key (encodeBytes id ++ toSign) signature = true

/-- A signature of the key has been verified for the packet that is worked on. -/
def HasVerified (key : PublicKey) : List Event → Prop :=
  Since (fun e => ∃ data, e = .authVerified key data) fun e => Event.isReceived e = false

/-- `auth_publickey` is only called for a key that has been offered (if `offers` is to be shown)
and with a signature. -/
def PublickeyLaw (P : Primitives) (offers : Prop) (sessionId : Option Bytes)
    (events : List Event) : Event → Prop
  | .serverCallback (.authPublickey user key) =>
    (offers → Offered user key events) ∧ CarriesSignature P sessionId user key events
  | _ => True

/-- `auth_keyboard_interactive` is only called with a response to the last request. -/
def KeyboardLaw (events : List Event) : Event → Prop
  | .serverCallback (.authKeyboardInteractive user submethods (some _)) =>
    LatestKeyboard user submethods events
  | _ => True

/-- What an accepting answer needs: a signature of the key, where there is one. -/
def MayGrant (P : Primitives) (call : ServerCallback) (events : List Event) : Prop :=
  (∃ buf, Processing buf events ∧ (buf.head? = some Msg.userauthRequest ∨
    buf.head? = some Msg.userauthInfoResponse)) ∧
  match call with
  | .authPublickey _ key => HasVerified key events
  | .authOpensshCertificate _ cert => HasVerified (P.certificateKey cert) events
  | _ => True

/-- The application is only called for a packet of the connection when the client has been
authenticated, and it is only authenticated while a request is worked on. -/
def AccessLaw (P : Primitives) (events : List Event) : Event → Prop
  | .serverCallback call => call.isConnection = true → Granted events
  | .authAnswered call true => grants call = true → MayGrant P call events
  | _ => True

/-- The three laws. -/
structure AuthLaw (P : Primitives) (offers : Prop) (sessionId : Option Bytes)
    (events : List Event) (e : Event) : Prop where
  publickey : PublickeyLaw P offers sessionId events e
  keyboard : KeyboardLaw events e
  access : AccessLaw P events e

end Laws

section Histories

variable {events new : List Event} {e : Event} {buf user submethods : Bytes} {key : PublicKey}

theorem Granted.append (h : Granted events) : Granted (events ++ new) := by
  obtain ⟨e, he, hg⟩ := h
  exact ⟨e, List.mem_append_left _ he, hg⟩

theorem granted_append (hnew : ∀ e ∈ new, isGrant e = false) :
    Granted (events ++ new) ↔ Granted events := by
  refine ⟨fun h => ?_, Granted.append⟩
  obtain ⟨e, he, hg⟩ := h
  rcases List.mem_append.mp he with he | he
  · exact ⟨e, he, hg⟩
  · rw [hnew e he] at hg
    cases hg

theorem not_granted_nil : ¬Granted [] := by simp [Granted]

theorem Offered.append (h : Offered user key events) : Offered user key (events ++ new) :=
  List.mem_append_left _ h

/-- An event that none of the laws is about. -/
def isNeutral : Event → Bool
  | .serverCallback call => call = .authSucceeded
  | .authAnswered .. | .authVerified .. => false
  | e => !Event.isReceived e && !supersedes e

theorem AuthLaw.of_neutral {offers : Prop} {sessionId : Option Bytes} (h : isNeutral e = true) :
    AuthLaw P offers sessionId events e := by
  cases e with
  | serverCallback call =>
    obtain rfl : call = .authSucceeded := by simpa [isNeutral] using h
    exact ⟨trivial, trivial, by simp [AccessLaw, ServerCallback.isConnection]⟩
  | authAnswered call accepted => simp [isNeutral] at h
  | _ => exact ⟨trivial, trivial, trivial⟩

theorem accessLaw_authAnswered {call : ServerCallback} {accepted : Bool} :
    AccessLaw P events (.authAnswered call accepted) ↔
      (accepted = true → grants call = true → MayGrant P call events) := by
  cases accepted <;> simp [AccessLaw]

/-- A law that holds without a session id holds with every one. -/
theorem AuthLaw.of_none {offers : Prop} {sessionId : Option Bytes}
    (h : AuthLaw P offers none events e) : AuthLaw P offers sessionId events e := by
  refine ⟨?_, h.keyboard, h.access⟩
  have hp := h.publickey
  unfold PublickeyLaw at hp ⊢
  split
  · obtain ⟨-, id, _, _, _, hid, -⟩ := hp
    cases hid
  · trivial

theorem isGrant_of_isNeutral (h : isNeutral e = true) : isGrant e = false := by
  cases e <;> simp_all [isNeutral, isGrant]

theorem supersedes_of_isNeutral (h : isNeutral e = true) : supersedes e = false := by
  cases e <;> simp_all [isNeutral, supersedes]

theorem isNeutral_of_isApp {target : Target} {b : Bool} (h : e.isApp target b none = true) :
    isNeutral e = true := by
  cases e with
  | serverCallback call => simpa [Event.isApp, isNeutral] using h
  | wrote m => simp_all [Event.isApp, isNeutral, Event.isReceived, supersedes]
  | _ => simp_all [Event.isApp, isNeutral, Event.isReceived, supersedes]

theorem isNeutral_of_isKex (h : e.isKex = true) : isNeutral e = true := by
  cases e <;> simp_all [Event.isKex, isNeutral, Event.isReceived, supersedes]

/-- A call for a packet of the connection, once the client has been authenticated. -/
theorem AuthLaw.of_connection {offers : Prop} {sessionId : Option Bytes} {call : ServerCallback}
    (h : call.isConnection = true) (hg : Granted events) :
    AuthLaw P offers sessionId events (.serverCallback call) := by
  cases call with
  | authenticationBanner => cases h
  | authNone user => cases h
  | authPassword user password => cases h
  | authPublickeyOffered user key => cases h
  | authPublickey user key => cases h
  | authOpensshCertificate user cert => cases h
  | authKeyboardInteractive user submethods responses => cases h
  | authSucceeded => cases h
  | _ => exact ⟨trivial, trivial, fun _ => hg⟩

/-- A call during the authentication that the laws ask nothing of. -/
def isUnbound : ServerCallback → Bool
  | .authenticationBanner | .authNone _ | .authPassword _ _ | .authPublickeyOffered _ _ => true
  | .authOpensshCertificate _ _ | .authKeyboardInteractive _ _ none => true
  | _ => false

theorem AuthLaw.of_isUnbound {offers : Prop} {sessionId : Option Bytes} {call : ServerCallback}
    (h : isUnbound call = true) : AuthLaw P offers sessionId events (.serverCallback call) := by
  cases call with
  | authKeyboardInteractive user submethods responses =>
    cases responses with
    | none => exact ⟨trivial, trivial, by simp [AccessLaw, ServerCallback.isConnection]⟩
    | some responses => cases h
  | authenticationBanner =>
    exact ⟨trivial, trivial, by simp [AccessLaw, ServerCallback.isConnection]⟩
  | authNone user => exact ⟨trivial, trivial, by simp [AccessLaw, ServerCallback.isConnection]⟩
  | authPassword user password =>
    exact ⟨trivial, trivial, by simp [AccessLaw, ServerCallback.isConnection]⟩
  | authPublickeyOffered user key =>
    exact ⟨trivial, trivial, by simp [AccessLaw, ServerCallback.isConnection]⟩
  | authOpensshCertificate user cert =>
    exact ⟨trivial, trivial, by simp [AccessLaw, ServerCallback.isConnection]⟩
  | _ => cases h

end Histories

/-- The session id, once there is one. -/
def sessionId (s : ServerSession) : Option Bytes := s.common.encrypted.map (·.sessionId)

/-- The state of the authentication lets the packets of the connection through. -/
def isAuthenticated (s : ServerSession) : Bool :=
  s.common.encrypted.any (·.state.isAuthenticated)

/-- No channel is in the tables. -/
def HasNoChannel (s : ServerSession) : Prop :=
  (∀ id, s.entries id = none) ∧ ∀ id, s.channels id = none

/-- What the server remembers of the request that it is about to go on with. `stale` holds when a
USERAUTH_REQUEST has been read since. -/
def CurrentLaw (P : Primitives) (stale : Prop) (user : Bytes) (events : List Event) :
    Option CurrentRequest → Prop
  | none => True
  | some (.keyboardInteractive submethods) => ¬stale → LatestKeyboard user submethods events
  | some (.publicKey key algo sentPkOk) => sentPkOk = true →
    ∃ k, PublicKeyOrCertificate.decode P algo key = .ok k ∧ Offered user (k.pubkey P) events

/-- What holds in every state, also of a session that has ended. -/
structure Guarded (P : Primitives) (offers : Prop) (s : ServerSession) : Prop where
  lawful : Traced (AuthLaw P offers (sessionId s)) s.events
  granted : isAuthenticated s = true ↔ Granted s.events
  closed : ¬Granted s.events → HasNoChannel s

/-- The invariant of the loop. -/
structure Access (P : Primitives) (offers stale : Prop) (s : ServerSession) : Prop
    extends Guarded P offers s where
  current : ∀ enc request, s.common.encrypted = some enc →
    enc.state = .waitingAuthRequest request →
    CurrentLaw P stale s.common.authUser s.events request.current

section Invariant

variable {offers stale : Prop} {s t : ServerSession} {new : List Event}

theorem CurrentLaw.append {user : Bytes} {events : List Event} {current : Option CurrentRequest}
    (h : CurrentLaw P stale user events current) (hnew : ∀ e ∈ new, supersedes e = false) :
    CurrentLaw P stale user (events ++ new) current := by
  cases current with
  | none => trivial
  | some request =>
    cases request with
    | publicKey key algo sentPkOk =>
      intro hsent
      obtain ⟨k, hk, hoffered⟩ := h hsent
      exact ⟨k, hk, hoffered.append⟩
    | keyboardInteractive submethods => exact fun hstale => (h hstale).append hnew

theorem CurrentLaw.mono {stale' : Prop} {user : Bytes} {events : List Event}
    {current : Option CurrentRequest} (hstale : stale → stale')
    (h : CurrentLaw P stale user events current) : CurrentLaw P stale' user events current := by
  cases current with
  | none => trivial
  | some request =>
    cases request with
    | publicKey key algo sentPkOk => exact h
    | keyboardInteractive submethods => exact fun hn => h fun hs => hn (hstale hs)

theorem isAuthenticated_eq (h : t.common.encrypted.map (·.state) = s.common.encrypted.map (·.state)) :
    isAuthenticated t = isAuthenticated s := by
  have hany : ∀ u : ServerSession, isAuthenticated u =
      (u.common.encrypted.map (·.state)).any EncryptedState.isAuthenticated := by
    intro u
    rw [isAuthenticated, Option.any_map]
  rw [hany t, hany s, h]

/-- Neutral events, with all that the invariant is about as it was. -/
theorem Access.extend (h : Access P offers stale s) (hev : t.events = s.events ++ new)
    (hneutral : ∀ e ∈ new, isNeutral e = true) (hid : sessionId t = sessionId s)
    (hstate : t.common.encrypted.map (·.state) = s.common.encrypted.map (·.state))
    (huser : t.common.authUser = s.common.authUser)
    (hempty : ¬Granted s.events → HasNoChannel s → HasNoChannel t) :
    Access P offers stale t := by
  have hgrant : Granted t.events ↔ Granted s.events := by
    rw [hev]
    exact granted_append fun e he => isGrant_of_isNeutral (hneutral e he)
  refine ⟨⟨?_, ?_, fun hn => ?_⟩, fun enc request hc hst => ?_⟩
  · rw [hev, hid]
    exact h.lawful.append_of_forall fun _ e he => .of_neutral (hneutral e he)
  · rw [hgrant, isAuthenticated_eq hstate]
    exact h.granted
  · exact hempty (hgrant.not.mp hn) (h.closed (hgrant.not.mp hn))
  · rw [hc] at hstate
    obtain ⟨enc', hc', hst'⟩ := Option.map_eq_some_iff.mp hstate.symm
    rw [hev, huser]
    exact (h.current enc' request hc' (hst'.trans hst)).append fun e he =>
      supersedes_of_isNeutral (hneutral e he)

/-- A step without a packet opens no channel before the authentication. -/
theorem HasNoChannel.app (hstep : AppStep serverStart P none s t)
    (hauth : isAuthenticated s = false)
    (h : HasNoChannel s) : HasNoChannel t := by
  obtain ⟨he, hch⟩ := h
  have hsame : ∀ {enc}, s.common.encrypted = some enc → ∀ id, enc.channels id = none :=
    fun hc id => (Session.entries_eq hc id).symm.trans (he id)
  have hpush : ∀ {enc} (m : Message), s.common.encrypted = some enc →
      ∀ id, (enc.push m).channels id = none := by
    intro enc m hc id
    have hnone : enc.channels id = none := hsame hc id
    exact hnone
  have hstays : ∀ {on enc enc' new}, s.common.encrypted = some enc →
      EncStep on enc enc' new → ∀ id, enc'.channels id = none := by
    intro on enc enc' new hc hw id
    rw [Option.eq_none_iff_forall_ne_some]
    intro channel' hc'
    obtain ⟨channel, hchan, -⟩ := hw.entry id channel' hc'
    rw [hsame hc id] at hchan
    cases hchan
  cases hstep with
  | frame hf =>
    refine ⟨fun id => ?_, fun id => ?_⟩
    · rw [Session.entries, hf.encrypted]
      exact he id
    · rcases hf.channels id with hid | hid
      · exact hid.trans (hch id)
      · exact hid
  | write hc hw => exact ⟨hstays hc hw, hch⟩
  | call hc _ hw => exact ⟨hstays hc hw, hch⟩
  | answerChannel _ hc hchan _ _ _ =>
    rw [← Session.entries_eq hc, he] at hchan
    cases hchan
  | refuse _ _ _ _ hc => exact ⟨hpush _ hc, hch⟩
  | reject _ _ hmsg _ => cases hmsg
  | confirm hmsg _ _ => cases hmsg
  | fail hmsg _ _ _ => cases hmsg
  | number hmsg _ _ _ => cases hmsg
  | drop hmsg _ _ => cases hmsg
  | closeByPeer _ hmsg _ _ _ => cases hmsg
  | noteRequest hmsg _ _ => cases hmsg
  | answerRequest _ hmsg _ _ => cases hmsg
  | openChannel _ _ _ _ _ hc hmay _ =>
    have hst := serverStart.isAuthenticated_of_mayOpen hmay
    simp [isAuthenticated, hc, hst] at hauth
  | acceptChannel _ _ _ _ hmsg _ _ _ _ => cases hmsg
  | insertChannel _ _ hmsg => cases hmsg
  | account _ _ hmsg _ _ => simp at hmsg
  | auth _ hmove =>
    obtain ⟨b, hmsg, -⟩ := hmove.msg_lt
    cases hmsg
  | globalRequest name data _ =>
    unfold Session.globalRequest
    dsimp only
    split
    · exact ⟨he, hch⟩
    · rename_i enc hc
      refine ⟨fun id => ?_, hch⟩
      show enc.channels id = none
      rw [← Session.entries_eq (s := s) hc]
      exact he id
  | answer hmsg _ _ => simp at hmsg
  | replyCalled _ hc =>
    exact ⟨hpush _ hc, hch⟩
  | flush hc =>
    obtain ⟨done, rest, -, -, henc, -⟩ := Session.sealWrite_spec (s := s) (P := P)
    refine ⟨fun id => ?_, hch⟩
    rw [Session.entries_eq henc, ← he id, Session.entries_eq hc]
  | beginRekey _ _ _ hb =>
    obtain ⟨kex, w, -, rfl⟩ := Session.beginRekey_eq_ok hb
    exact ⟨he, hch⟩
  | _ => exact ⟨he, hch⟩

theorem Guarded.not_authenticated (h : Guarded P offers s) (hn : ¬Granted s.events) :
    isAuthenticated s = false := by
  simpa [← h.granted] using hn

theorem Access.app (hstep : AppStep serverStart P none s t) (h : Access P offers stale s) :
    Access P offers stale t := by
  obtain ⟨new, hev, happ⟩ := hstep.events
  exact h.extend hev (fun e he => isNeutral_of_isApp (happ e he)) hstep.kept.sessionId
    (hstep.state (by simp)) hstep.authUser fun hn hempty =>
      hempty.app hstep (h.not_authenticated hn)

end Invariant

end Server

end Edgessh.Russh
