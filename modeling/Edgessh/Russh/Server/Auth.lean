import Edgessh.Russh.Server.Session

/-!
# The authentication of a client

The part of `server/encrypted.rs` before a client is authenticated. Its functions are programs
that can only take the steps of `AuthStep`: no channel is touched, and nothing of the connection
reaches the application.
-/

namespace Edgessh.Russh
open Edgessh.Command Relation

/-- A packet that the server writes during the authentication. -/
def Message.isAuth : Message → Bool
  | .serviceAccept _ | .userauthBanner _ | .userauthPkOk .. | .userauthInfoRequest .. => true
  | .userauthFailure .. | .userauthSuccess => true
  | _ => false

/-- What the authentication leaves in the list of events, besides packets. -/
def Event.isAuth : Event → Bool
  | .serverCallback call => !call.isConnection
  | .authAnswered .. | .authVerified .. => true
  | _ => false

/-- One step of the authentication. -/
inductive AuthStep : ServerSession → ServerSession → Prop
  | common {s} (authUser authAttempts) :
      AuthStep s { s with common := { s.common with authUser, authAttempts } }
  | record {s e} : e.isAuth = true → AuthStep s (s.record e)
  | write {s enc m} : s.common.encrypted = some enc → m.isAuth = true →
      AuthStep s (s.wrote (enc.push m) [m])
  | state {s enc} (state decompress) : s.common.encrypted = some enc →
      AuthStep s (s.setEncrypted { enc with state, decompress })

/-- The programs of the authentication. -/
abbrev AuthM := Confined AuthStep Exn

/-- The methods that may go on after an answer that is not `Auth::Accept`. -/
def AuthRequest.afterRejection (remove : Option MethodKind) (auth : Auth)
    (request : AuthRequest) : AuthRequest :=
  { request with
    methods :=
      match auth, remove with
      | .reject (some methods) _, _ => methods
      | _, some method => request.methods.remove method
      | _, none => request.methods
    partialSuccess := false }

/-- A USERAUTH_PK_OK has been sent for the request that is worked on. -/
def AuthRequest.sentPkOk (request : AuthRequest) : Bool :=
  match request.current with
  | some (.publicKey _ _ sentPkOk) => sentPkOk
  | _ => false

theorem AuthRequest.current_of_sentPkOk {request : AuthRequest} (h : request.sentPkOk = true) :
    ∃ key algo, request.current = some (.publicKey key algo true) := by
  unfold sentPkOk at h
  split at h
  · rename_i key algo sentPkOk hcur
    subst h
    exact ⟨key, algo, hcur⟩
  · cases h

namespace AuthM

/-- A field is read from a packet (`map_err!`). -/
def decode {β : Type} (d : Decoder β) (r : Bytes) : AuthM (β × Bytes) :=
  Confined.lift ((d r).mapError fun e => Exn.error (.sshEncoding e))

/-- `auth_user`. -/
def setAuthUser (user : Bytes) : AuthM Unit :=
  Confined.move
    (fun s => { s with common := { s.common with
      authUser := user, authAttempts := s.common.authAttempts } })
    fun s => .common user s.common.authAttempts

/-- `auth_attempts += 1`. -/
def countAttempt : AuthM Unit :=
  Confined.move
    (fun s => { s with common := { s.common with
      authUser := s.common.authUser, authAttempts := s.common.authAttempts + 1 } })
    fun s => .common s.common.authUser (s.common.authAttempts + 1)

def note (e : Event) (h : e.isAuth = true) : AuthM Unit :=
  Confined.move (·.record e) fun _ => .record h

/-- `push_packet!`. -/
def write (m : Message) (h : m.isAuth = true) : AuthM Unit :=
  Confined.move
    (fun s =>
      match s.common.encrypted with
      | some enc => s.wrote (enc.push m) [m]
      | none => s)
    fun s => by
      cases hc : s.common.encrypted with
      | some enc => exact .write hc h
      | none => exact .common s.common.authUser s.common.authAttempts

/-- `enc.state`, and the decompression that begins with it. -/
def setState (f : Encrypted → EncryptedState × Decompress) : AuthM Unit :=
  Confined.move
    (fun s =>
      match s.common.encrypted with
      | some enc => s.setEncrypted { enc with state := (f enc).1, decompress := (f enc).2 }
      | none => s)
    fun s => by
      cases hc : s.common.encrypted with
      | some enc => exact .state _ _ hc
      | none => exact .common s.common.authUser s.common.authAttempts

/-- The request that is worked on. -/
def setRequest (request : AuthRequest) : AuthM Unit :=
  setState fun enc => (.waitingAuthRequest request, enc.decompress)

/-- An `auth_*` call, and its answer. -/
def ask (env : ServerEnv) (call : ServerCallback) (h : call.isConnection = false) : AuthM Auth := do
  note (.serverCallback call) (by simp [Event.isAuth, h])
  let s ← Confined.read
  let auth ← Confined.lift ((env.auth call s).mapError Exn.error)
  note (.authAnswered call (auth = .accept)) rfl
  pure auth

end AuthM

namespace Server
open AuthM

variable {P : Primitives}

/-- `PublicKeyOrCertificate`. -/
inductive PublicKeyOrCertificate where
  | publicKey (key : PublicKey)
  | certificate (cert : Certificate)
  deriving DecidableEq, Repr

namespace PublicKeyOrCertificate

/-- `PublicKeyOrCertificate::decode`. -/
def decode (P : Primitives) (pubkeyAlgo buf : Bytes) :
    Except SshKeyError PublicKeyOrCertificate :=
  if P.isCertificateAlgorithm pubkeyAlgo then
    (P.decodeCertificate buf).map certificate
  else
    match P.decodePublicKey buf with
    | none => .error (P.keyError buf)
    | some key =>
      if (P.parseAlgorithm pubkeyAlgo).isSome then .ok (.publicKey key)
      else .error (P.keyError pubkeyAlgo)

/-- The key that a signature is verified with. -/
def pubkey (P : Primitives) : PublicKeyOrCertificate → PublicKey
  | publicKey key => key
  | certificate cert => P.certificateKey cert

/-- A certificate is in its time and has a signature that verifies. -/
def isAcceptable (P : Primitives) (now : Nat) : PublicKeyOrCertificate → Bool
  | publicKey _ => true
  | certificate cert =>
    (P.certificateValidity cert).1 ≤ now && now ≤ (P.certificateValidity cert).2 &&
      P.certificateVerifies cert

/-- The call that asks the application, once the signature is verified. -/
def call (user : Bytes) : PublicKeyOrCertificate → ServerCallback
  | publicKey key => .authPublickey user key
  | certificate cert => .authOpensshCertificate user cert

end PublicKeyOrCertificate

section Replies

/-- `reject_auth_request`. -/
def rejectAuthRequest (request : AuthRequest) : AuthM Unit := do
  write (.userauthFailure request.methods.names request.partialSuccess) rfl
  setRequest { request with current := none, rejectionCount := request.rejectionCount + 1 }

/-- `server_auth_request_success`, and the state that its callers set. -/
def acceptAuthRequest : AuthM Unit := do
  write .userauthSuccess rfl
  setState fun enc => (.initCompression, enc.decompress)

/-- The end of a request of the methods `none`, `password` and `publickey`. -/
def settle (remove : Option MethodKind) (request : AuthRequest) : Auth → AuthM Unit
  | .accept => acceptAuthRequest
  | auth => do
    setAuthUser []
    rejectAuthRequest (request.afterRejection remove auth)

/-- `reply_userauth_info_response`, and the state that its callers set. -/
def replyUserauthInfoResponse (request : AuthRequest) : Auth → AuthM Unit
  | .accept => acceptAuthRequest
  | .reject methods partialSuccess =>
    rejectAuthRequest { request with methods := methods.getD request.methods, partialSuccess }
  | .moreInformation name instructions prompts => do
    write (.userauthInfoRequest name instructions prompts) rfl
    setRequest request
  | .unsupportedMethod => throw (Exn.error .unsupportedAuthMethod)

end Replies

section Publickey

/-- Whether the key has been offered: before, by a USERAUTH_PK_OK that has been sent, or now. -/
def isOffered (env : ServerEnv) (request : AuthRequest) (user : Bytes) (pubkey : PublicKey) :
    AuthM Bool := do
  let s ← Confined.read
  if request.sentPkOk && user = s.common.authUser then pure true
  else if s.common.authUser = [] then
    setAuthUser user
    let auth ← ask env (.authPublickeyOffered user pubkey) rfl
    pure (auth = .accept)
  else pure false

/-- A request whose signature has to verify. -/
def readSignature (P : Primitives) (env : ServerEnv) (request : AuthRequest) (user : Bytes)
    (key : PublicKeyOrCertificate) (sessionId sigInit signature : Bytes) : AuthM Unit := do
  if P.verify (key.pubkey P) (encodeBytes sessionId ++ sigInit) signature then
    note (.authVerified (key.pubkey P) (encodeBytes sessionId ++ sigInit)) rfl
    let auth ← ask env (key.call user) (by cases key <;> rfl)
    settle none request auth
  else rejectAuthRequest request

/-- A publickey request with a signature; `r` begins with it. -/
def readSigned (P : Primitives) (env : ServerEnv) (originalPacket : Bytes) (enc : Encrypted)
    (request : AuthRequest) (user : Bytes) (key : PublicKeyOrCertificate) (r : Bytes) :
    AuthM Unit := do
  let (signature, _) ← decode decodeBytes r
  unless P.signatureDecodes signature do throw (Exn.error .sshKey)
  if ← isOffered env request user (key.pubkey P) then
    readSignature P env request user key enc.sessionId
      (originalPacket.take (originalPacket.length - r.length)) signature
  else rejectAuthRequest request

/-- A publickey request without a signature. -/
def readProbe (P : Primitives) (env : ServerEnv) (request : AuthRequest) (user : Bytes)
    (key : PublicKeyOrCertificate) (pubkeyAlgo pubkeyKey : Bytes) : AuthM Unit := do
  setAuthUser user
  match ← ask env (.authPublickeyOffered user (key.pubkey P)) rfl with
  | .accept => do
    write (.userauthPkOk pubkeyAlgo pubkeyKey) rfl
    setRequest { request with current := some (.publicKey pubkeyKey pubkeyAlgo true) }
  | auth => do
    setAuthUser []
    rejectAuthRequest (request.afterRejection none auth)

/-- `server_read_auth_request_pk`. -/
def readAuthRequestPk (P : Primitives) (env : ServerEnv) (originalPacket : Bytes) (enc : Encrypted)
    (request : AuthRequest) (user r : Bytes) : AuthM Unit := do
  let (isReal, r) ← decode decodeU8 r
  let (pubkeyAlgo, r) ← decode decodeString r
  let (pubkeyKey, r) ← decode decodeBytes r
  match PublicKeyOrCertificate.decode P pubkeyAlgo pubkeyKey with
  | .error .unsupported => rejectAuthRequest request
  | .error .other => throw (Exn.error .sshKey)
  | .ok key => do
    let s ← Confined.read
    if key.isAcceptable P (env.now s) then
      if isReal ≠ 0 then readSigned P env originalPacket enc request user key r
      else readProbe P env request user key pubkeyAlgo pubkeyKey
    else rejectAuthRequest request

end Publickey

section Methods

/-- A request of the method `password`. -/
def readPassword (env : ServerEnv) (request : AuthRequest) (user r : Bytes) : AuthM Unit := do
  setAuthUser user
  let (_, r) ← decode decodeU8 r
  let (password, _) ← decode decodeString r
  let auth ← ask env (.authPassword user password) rfl
  settle (some .password) request auth

/-- A request of the method `none`. -/
def readNone (env : ServerEnv) (request : AuthRequest) (user : Bytes) : AuthM Unit := do
  let auth ← ask env (.authNone user) rfl
  settle (some .none) request auth

/-- A request of the method `keyboard-interactive`. -/
def readKeyboardInteractive (env : ServerEnv) (request : AuthRequest) (user r : Bytes) :
    AuthM Unit := do
  setAuthUser user
  let (_, r) ← decode decodeString r
  let (submethods, _) ← decode decodeString r
  let auth ← ask env (.authKeyboardInteractive user submethods none) rfl
  replyUserauthInfoResponse { request with current := some (.keyboardInteractive submethods) } auth

/-- `server_read_auth_request`. -/
def readAuthRequest (P : Primitives) (env : ServerEnv) (originalPacket : Bytes) (enc : Encrypted)
    (request : AuthRequest) (r : Bytes) : AuthM Unit := do
  let (user, r) ← decode decodeString r
  let (serviceName, r) ← decode decodeString r
  let (method, r) ← decode decodeString r
  if serviceName = ascii "ssh-connection" then
    if method = ascii "password" then readPassword env request user r
    else if method = ascii "publickey" then
      readAuthRequestPk P env originalPacket enc request user r
    else if method = ascii "none" then readNone env request user
    else if method = ascii "keyboard-interactive" then readKeyboardInteractive env request user r
    else rejectAuthRequest request
  else throw (Exn.error .inconsistent)

/-- The responses of a USERAUTH_INFO_RESPONSE. A string that cannot be read is none, and the next
one is looked for behind its length. -/
def decodeResponses : Nat → Bytes → List (Option Bytes)
  | 0, _ => []
  | n + 1, r =>
    match decodeBytes r with
    | .ok (response, r) => some response :: decodeResponses n r
    | .error _ => none :: decodeResponses n (if 4 ≤ r.length then r.drop 4 else r)

/-- `read_userauth_info_response`. -/
def readUserauthInfoResponse (env : ServerEnv) (request : AuthRequest) (r : Bytes) :
    AuthM Unit :=
  match request.current with
  | some (.keyboardInteractive submethods) => do
    let (n, r) ← decode decodeU32 r
    let s ← Confined.read
    let auth ← ask env
      (.authKeyboardInteractive s.common.authUser submethods (some (decodeResponses n r))) rfl
    replyUserauthInfoResponse request auth
  | _ => rejectAuthRequest request

end Methods

/-- `authentication_banner`. -/
def askBanner (env : ServerEnv) : AuthM (Option Bytes) := do
  note (.serverCallback .authenticationBanner) rfl
  let s ← Confined.read
  Confined.lift ((env.authenticationBanner s).mapError Exn.error)

/-- `server_accept_service`. -/
def acceptService (banner : Option Bytes) (methods : MethodSet) : AuthM Unit := do
  write (.serviceAccept (ascii "ssh-userauth")) rfl
  match banner with
  | some banner => write (.userauthBanner banner) rfl
  | none => pure ()
  setRequest { methods, partialSuccess := false, current := none, rejectionCount := 0 }

/-- A SERVICE_REQUEST. -/
def readServiceRequest (env : ServerEnv) (r : Bytes) : AuthM Unit := do
  let (request, _) ← decode decodeString r
  if request = ascii "ssh-userauth" then
    let banner ← askBanner env
    let s ← Confined.read
    acceptService banner s.common.config.methods

end Server

end Edgessh.Russh
