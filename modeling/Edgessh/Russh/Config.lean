import Edgessh.Russh.Negotiation

/-!
# Configurations

`client::Config`, `server::Config` and `Limits`. Times are numbers of milliseconds.
-/

namespace Edgessh.Russh

/-- `Limits`: `Limits::new` asserts the bounds on the sizes. -/
structure Limits where
  rekeyWriteLimit : Nat
  rekeyReadLimit : Nat
  rekeyTimeLimit : Nat
  deriving DecidableEq, Repr

/-- `Limits::default`. -/
def Limits.default : Limits := ⟨2 ^ 30, 2 ^ 30, 3600000⟩

structure ClientConfig where
  /-- `client_id.as_kex_hash_bytes()` -/
  clientId : Bytes := ascii "SSH-2.0-russh_0.57.0"
  limits : Limits := Limits.default
  windowSize : Nat := 2097152
  maximumPacketSize : Nat := 32768
  preferred : Preferred := Preferred.default
  inactivityTimeout : Option Nat := none
  keepaliveInterval : Option Nat := none
  keepaliveMax : Nat := 3
  anonymous : Bool := false
  gex : GexParams := GexParams.default
  deriving DecidableEq

structure ServerConfig where
  /-- `server_id.as_kex_hash_bytes()` -/
  serverId : Bytes := ascii "SSH-2.0-russh_0.57.0"
  methods : MethodSet := MethodSet.all
  keys : List PrivateKey := []
  windowSize : Nat := 2097152
  maximumPacketSize : Nat := 32768
  limits : Limits := Limits.default
  preferred : Preferred := Preferred.default
  maxAuthAttempts : Nat := 10
  inactivityTimeout : Option Nat := some 600000
  keepaliveInterval : Option Nat := none
  keepaliveMax : Nat := 3
  deriving DecidableEq

end Edgessh.Russh
