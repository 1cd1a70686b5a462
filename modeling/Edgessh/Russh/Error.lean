/-!
# Errors

The errors of `russh` that the modelled functions return, and the other ways in which a call
may fail to return.
-/

namespace Edgessh.Russh

abbrev Bytes := List UInt8

/-- The errors of `ssh_encoding` that decoding returns. -/
inductive EncodingError where
  | characterEncoding
  | length
  | mpintEncoding
  | overflow
  deriving DecidableEq, Repr

inductive AlgorithmKind where
  | kex
  | key
  | cipher
  | compression
  | mac
  deriving DecidableEq, Repr

/-- `lib_inner.rs`, `Error`. -/
inductive Error where
  | kexInit
  | unknownAlgo
  | noCommonAlgo (kind : AlgorithmKind) (ours theirs : List Bytes)
  | kex
  | inconsistent
  | notAuthenticated
  | indexOutOfBounds
  | unknownKey
  | wrongServerSig
  | wrongChannel
  | disconnect
  | keepaliveTimeout
  | inactivityTimeout
  | noAuthMethod
  | sendError
  | recvError
  | packetAuth
  | requestDenied
  | compress
  | decompress
  | strictKeyExchangeViolation (messageType : UInt8) (sequenceNumber : Nat)
  | invalidConfig
  | unsupportedAuthMethod
  | keys
  | signature
  | sshKey
  | sshEncoding (e : EncodingError)
  /-- An error of the application's handler. -/
  | handler
  deriving DecidableEq, Repr

/-- Why a call does not return a value. Only `error` is an `Err` of the source. -/
inductive Exn where
  | error (e : Error)
  /-- A failed assertion, an index out of range, an `unreachable!`. -/
  | panic
  /-- A loop that does not end. -/
  | diverge
  /-- A wait for a message that has not been sent. -/
  | blocked
  deriving DecidableEq, Repr

instance : Coe Error Exn := ⟨Exn.error⟩
instance : Coe EncodingError Error := ⟨Error.sshEncoding⟩

end Edgessh.Russh
