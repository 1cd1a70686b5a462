import Edgessh.Russh.Session.App

/-!
# A turn of the event loop

What `client/mod.rs` and `server/session.rs` do in the same way with a packet that has been read,
before they look at what it says.
-/

namespace Edgessh.Russh
open Edgessh.Command

variable {K C X : Type} {P : Primitives}

/-- The commands of a session, in a monad that may change all of it. -/
abbrev SessionM (K C X : Type) := EStateM Exn (Session K C X)

/-- What is done with the packet writer. -/
def onWriter {α : Type} (m : WriterM α) : SessionM K C X α :=
  zoom (fun s => s.common.packetWriter) Session.setWriter m

/-- `begin_rekey`. -/
def beginRekeyWith (start : KexStart K C) (P : Primitives) (rng : Session K C X → Entropy) :
    SessionM K C X Unit := fun s =>
  match s.beginRekey start P (rng s) with
  | .ok t => .ok () t
  | .error e => .error e s

theorem wp_beginRekeyWith {start : KexStart K C} {rng : Session K C X → Entropy}
    {s : Session K C X} {Q : Unit → Session K C X → Prop} {E : Exn → Session K C X → Prop}
    (hok : ∀ t, s.beginRekey start P (rng s) = .ok t → Q () t) (herr : ∀ e, E e s) :
    wp (beginRekeyWith start P rng) Q E s := by
  unfold wp beginRekeyWith
  cases hb : s.beginRekey start P (rng s) with
  | error e => exact herr e
  | ok t => exact hok t hb

section Packets

/-- IGNORE, UNIMPLEMENTED and DEBUG. -/
def isSkipped (buffer : Bytes) : Bool :=
  match buffer.head? with
  | some messageType => [Msg.ignore, Msg.unimplemented, Msg.debug].contains messageType
  | none => false

def isKexMsg (buffer : Bytes) : Bool :=
  match buffer.head? with
  | some messageType => Msg.isKexMsg messageType
  | none => false

/-- The packet before which the session stands does not go to the key exchange, and is not
looked at. -/
def isIgnored (buffer : Bytes) : Bool := isSkipped buffer || buffer.head? = some Msg.disconnect

/-- The order of the messages is checked while there are no keys, if strict kex is known. -/
def checkStrictWith (validate : UInt8 → Nat → Except Error Unit) (pkt : IncomingSshPacket) :
    SessionM K C X Unit := do
  let s ← get
  match pkt.buffer.head? with
  | some messageType =>
    if s.common.strictKex ∧ s.common.encrypted = none then
      ofExcept ((validate messageType (pkt.seqn - 1).toNat).mapError Exn.error)
  | none => pure ()

theorem wp_checkStrictWith {validate : UInt8 → Nat → Except Error Unit} {pkt : IncomingSshPacket}
    {s : Session K C X} {Q : Unit → Session K C X → Prop} {E : Exn → Session K C X → Prop}
    (hok : Q () s) (herr : ∀ e, E e s) : wp (checkStrictWith validate pkt) Q E s := by
  unfold checkStrictWith
  rw [wp_bind, wp_get]
  split
  · split
    · rw [wp_ofExcept]
      exact wpExcept_iff.mpr ⟨fun _ _ => hok, fun _ _ => herr _⟩
    · exact hok
  · exact hok

/-- `session.kex.take()`: the exchange that is under way, if there is one. -/
def takeKex : SessionM K C X (Option K) := do
  let s ← get
  match s.kex with
  | .inProgress kex =>
    set ({ s with kex := .taken } : Session K C X)
    pure (some kex)
  | .idle | .taken => pure none

/-- The exchange that the packet is for. -/
def takeKexFor (buffer : Bytes) : SessionM K C X (Option K) :=
  if isKexMsg buffer then takeKex else pure none

/-- The exchange goes on; a strict one begins to count its packets anew. -/
def continueKex (kex : K) (resetSeqn : Bool) (s : Session K C X) : Session K C X :=
  { s with
    kex := .inProgress kex
    common := if resetSeqn then s.common.resetSeqn else s.common }

end Packets

section Decompression

/-- `maybe_decompress`. -/
def maybeDecompress (P : Primitives) (seqn : UInt32) (payload : Bytes) :
    SessionM K C X IncomingSshPacket := do
  let s ← get
  match s.common.encrypted with
  | some enc =>
    let (buffer, decompress) ← ofExcept (enc.decompress.decompress P payload)
    set (s.setEncrypted { enc with decompress })
    pure ⟨buffer, seqn⟩
  | none => pure ⟨payload, seqn⟩

/-- `s` becomes `t` when the payload of a packet is decompressed to `buf`. -/
inductive Opened (P : Primitives) (payload buf : Bytes) (s : Session K C X) :
    Session K C X → Prop
  | clear : s.common.encrypted = none → buf = payload → Opened P payload buf s s
  | decompressed {enc decompress} : s.common.encrypted = some enc →
      enc.decompress.decompress P payload = .ok (buf, decompress) →
      Opened P payload buf s (s.setEncrypted { enc with decompress })

theorem wp_maybeDecompress (seqn : UInt32) (payload : Bytes) (s : Session K C X) :
    wp (maybeDecompress P seqn payload)
      (fun pkt t => Opened P payload pkt.buffer s t ∧ t.pendingReads = s.pendingReads)
      (fun _ t => t = s) s := by
  unfold maybeDecompress
  rw [wp_bind, wp_get]
  cases hc : s.common.encrypted with
  | none => exact ⟨.clear hc rfl, rfl⟩
  | some enc =>
    dsimp only
    rw [wp_bind, wp_ofExcept]
    exact wpExcept_iff.mpr ⟨fun r hr => ⟨.decompressed hc hr, rfl⟩, fun _ _ => rfl⟩

theorem Opened.of_frame {payload buf : Bytes} {s t u : Session K C X} (hf : s.Frame t)
    (h : Opened P payload buf t u) : ∃ u', Opened P payload buf s u' := by
  cases h with
  | clear hc hb => exact ⟨s, .clear (hf.encrypted ▸ hc) hb⟩
  | decompressed hc hd => exact ⟨_, .decompressed (hf.encrypted ▸ hc) hd⟩

/-- The packet that a payload holds. -/
def openedPacket (P : Primitives) (payload : Bytes) (s : Session K C X) : Option Bytes :=
  match s.common.encrypted with
  | none => some payload
  | some enc =>
    match enc.decompress.decompress P payload with
    | .ok (buf, _) => some buf
    | .error _ => none

theorem Opened.openedPacket {payload buf : Bytes} {s t : Session K C X}
    (h : Opened P payload buf s t) :
    Russh.openedPacket P payload s = some buf := by
  cases h with
  | clear hc hb => simp [Russh.openedPacket, hc, hb]
  | decompressed hc hd => simp [Russh.openedPacket, hc, hd]

end Decompression

/-- How the first part of a turn ends. -/
inductive TurnResult where
  /-- The number of the next packet. -/
  | next (seqn : UInt32)
  /-- A DISCONNECT has been read. -/
  | disconnected (result : Except Exn Unit)
  /-- `break` -/
  | stop

/-- The packets that are held back are none: nothing puts any there. -/
def NoPending (s : Session K C X) : Prop := s.pendingReads = []

theorem NoPending.enter {s : Session K C X} (h : NoPending s) : NoPending s.enter := by
  unfold Session.enter
  split <;> exact h

theorem NoPending.app {start : KexStart K C} {pkt : Option Bytes} {s t : Session K C X}
    (h : AppStep start P pkt s t) (hs : NoPending s) : NoPending t := by
  cases h with
  | frame h => exact h.pendingReads.trans hs
  | globalRequest name data _ =>
    unfold NoPending Session.globalRequest
    dsimp only
    split <;> exact hs
  | account data target _ _ => exact hs
  | beginRekey rng _ _ hb =>
    obtain ⟨kex, w, -, rfl⟩ := Session.beginRekey_eq_ok hb
    exact hs
  | _ => exact hs

/-- After the `select!` of a turn: `break` ends the loop without more ado. -/
def Ended (I E : Session K C X → Prop) : TurnResult → Session K C X → Prop
  | .stop, t => E t
  | _, t => I t ∧ NoPending t

end Edgessh.Russh
