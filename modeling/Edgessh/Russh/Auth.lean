import Edgessh.Russh.Primitives

/-!
# Authentication data

`auth.rs` and `cert.rs`.
-/

namespace Edgessh.Russh

/-- `auth::MethodKind`. -/
inductive MethodKind where
  | none
  | password
  | publicKey
  | hostBased
  | keyboardInteractive
  deriving DecidableEq, Repr

namespace MethodKind

/-- `<&'static str>::from`. -/
def name : MethodKind → Bytes
  | none => ascii "none"
  | password => ascii "password"
  | publicKey => ascii "publickey"
  | hostBased => ascii "hostbased"
  | keyboardInteractive => ascii "keyboard-interactive"

def all : List MethodKind := [none, password, publicKey, hostBased, keyboardInteractive]

/-- `MethodKind::from_str`. -/
def ofName (b : Bytes) : Option MethodKind := all.find? (·.name == b)

end MethodKind

/-- `auth::MethodSet`, an ordered set of methods. -/
structure MethodSet where
  methods : List MethodKind
  deriving DecidableEq, Repr

namespace MethodSet

/-- `MethodSet::all`. -/
def all : MethodSet := ⟨MethodKind.all⟩

/-- `MethodSet::from(&NameList)`. -/
def ofNames (names : List Bytes) : MethodSet := ⟨names.filterMap MethodKind.ofName⟩

/-- `NameList::from(&MethodSet)`. -/
def names (s : MethodSet) : List Bytes := s.methods.map MethodKind.name

/-- `MethodSet::remove`. -/
def remove (method : MethodKind) (s : MethodSet) : MethodSet :=
  ⟨s.methods.filter (· != method)⟩

end MethodSet

/-- `PrivateKeyWithHashAlg`. -/
structure PrivateKeyWithHashAlg where
  key : PrivateKey
  hashAlg : Option HashAlg
  deriving DecidableEq, Repr

/-- `auth::Method`. -/
inductive AuthMethod where
  | none
  | password (password : Bytes)
  | publicKey (key : PrivateKeyWithHashAlg)
  | openSshCertificate (key : PrivateKey) (cert : Certificate)
  | futurePublicKey (key : PublicKey) (algorithm : Algorithm) (hashAlg : Option HashAlg)
  | keyboardInteractive (submethods : Bytes)
  deriving DecidableEq, Repr

/-- `auth::CurrentRequest`. -/
inductive CurrentRequest where
  | publicKey (key algo : Bytes) (sentPkOk : Bool)
  | keyboardInteractive (submethods : Bytes)
  deriving DecidableEq, Repr

/-- `auth::AuthRequest`. -/
structure AuthRequest where
  methods : MethodSet
  partialSuccess : Bool
  current : Option CurrentRequest
  rejectionCount : Nat
  deriving DecidableEq, Repr

/-- `AuthRequest::new`. -/
def AuthRequest.new (method : AuthMethod) : AuthRequest where
  methods := MethodSet.all
  partialSuccess := false
  current :=
    match method with
    | .keyboardInteractive submethods => some (.keyboardInteractive submethods)
    | _ => Option.none
  rejectionCount := 0

/-- `session::EncryptedState`. -/
inductive EncryptedState where
  | waitingAuthServiceRequest (sent accepted : Bool)
  | waitingAuthRequest (request : AuthRequest)
  | initCompression
  | authenticated
  deriving DecidableEq, Repr

/-- The states after the authentication has been accepted. -/
def EncryptedState.isAuthenticated : EncryptedState → Bool
  | .initCompression | .authenticated => true
  | _ => false

end Edgessh.Russh
