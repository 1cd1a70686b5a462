import Edgessh.Russh.Kex.Advance
import Edgessh.Russh.Session.Effect
import Edgessh.Russh.Session.Turn

/-!
# Calm steps

What a session does beside the packets that it has been written to work on: the key exchange, the
choice of a cipher, the authentication. None of it says anything about channels, global requests or
their answers, so an invariant about these has to look at it once.
-/

namespace Edgessh.Russh
open Edgessh.Command

variable {K C X : Type}

/-- What a calm step may leave in the list of events. -/
def Event.isCalm : Event → Bool
  | packet _ | setCipher _ | verified .. | serverKeyChecked .. | entered _ => true
  | clientCallback (.checkServerKey _) => true
  | _ => false

theorem Event.isCalm_of_isKex {e : Event} (h : e.isKex = true) : e.isCalm = true := by
  cases e <;> simp_all [isKex, isCalm]

/-- A calm step. -/
structure Calm (s t : Session K C X) : Prop where
  config : t.common.config = s.common.config
  events : ∃ new, t.events = s.events ++ new ∧ ∀ e ∈ new, e.isCalm = true
  openGlobalRequests : t.openGlobalRequests = s.openGlobalRequests
  entries : ∀ id, t.entries id = s.entries id
  channels : ∀ id, t.channels id = s.channels id ∨ t.channels id = none
  encrypted : t.common.encrypted = none → s.common.encrypted = none

namespace Calm

variable {s t : Session K C X}

/-- No event, and the same channels. -/
theorem of_same (hev : t.events = s.events) (hconfig : t.common.config = s.common.config)
    (hq : t.openGlobalRequests = s.openGlobalRequests) (hc : ∀ id, t.entries id = s.entries id)
    (hch : ∀ id, t.channels id = s.channels id ∨ t.channels id = none)
    (henc : t.common.encrypted = none → s.common.encrypted = none) : Calm s t :=
  ⟨hconfig, ⟨[], hev.trans (List.append_nil _).symm, by simp⟩, hq, hc, hch, henc⟩

theorem of_frame (h : s.Frame t) : Calm s t :=
  of_same (by rw [Session.events, h.packetWriter, Session.events]) h.config h.openGlobalRequests
    (fun id => by rw [Session.entries, h.encrypted, Session.entries]) h.channels
    fun hn => h.encrypted ▸ hn

theorem record {e : Event} (h : e.isCalm = true) : Calm s (s.record e) :=
  ⟨rfl, ⟨[e], rfl, by simpa using h⟩, rfl, fun _ => rfl, fun _ => .inl rfl, id⟩

theorem enter : Calm s s.enter := by
  unfold Session.enter
  split
  · exact record rfl
  · exact of_same rfl rfl rfl (fun _ => rfl) (fun _ => .inl rfl) id

/-- The packet writer is touched, and the entry for the table stays. -/
theorem setWriter (w : PacketWriter) (hev : w.events = s.events) : Calm s (s.setWriter w) :=
  of_same hev rfl rfl (fun _ => rfl) (fun _ => .inl rfl) id

/-- The session stays encrypted, with the same channels. -/
theorem setEncrypted {enc enc' : Encrypted} (hc : s.common.encrypted = some enc)
    (hchannels : enc'.channels = enc.channels) : Calm s (s.setEncrypted enc') := by
  refine of_same rfl rfl rfl (fun id => ?_) (fun _ => .inl rfl) (by simp)
  rw [Session.entries_eq hc, ← hchannels]
  rfl

/-- The same after a packet has been sealed. -/
theorem setSealed {w : PacketWriter} {enc enc' : Encrypted} (hw : Calm s (s.setWriter w))
    (hc : s.common.encrypted = some enc) (hchannels : enc'.channels = enc.channels) :
    Calm s ((s.setWriter w).setEncrypted enc') where
  config := rfl
  events := hw.events
  openGlobalRequests := rfl
  entries := (setEncrypted hc hchannels).entries
  channels _ := .inl rfl
  encrypted := by simp

theorem opened {P : Primitives} {payload buf : Bytes} (h : Opened P payload buf s t) :
    Calm s t := by
  cases h with
  | clear => exact of_same rfl rfl rfl (fun _ => rfl) (fun _ => .inl rfl) id
  | decompressed hc => exact setEncrypted hc rfl

/-- A step of the key exchange, whichever way it ends. -/
theorem kex {w : PacketWriter} (hw : KexWrites s.common.packetWriter w) (hev : t.events = w.events)
    (hconfig : t.common.config = s.common.config)
    (henc : t.common.encrypted = s.common.encrypted)
    (hq : t.openGlobalRequests = s.openGlobalRequests) (hch : t.channels = s.channels) :
    Calm s t := by
  obtain ⟨new, hnew, hkex⟩ := hw.events
  refine ⟨hconfig, ⟨new, hev.trans hnew, fun e he => Event.isCalm_of_isKex (hkex e he)⟩, hq,
    fun id => ?_, fun id => .inl (hch ▸ rfl), fun hn => henc ▸ hn⟩
  rw [Session.entries, henc, Session.entries]

theorem beginRekey {start : KexStart K C} {P : Primitives} {rng : Entropy}
    (h : s.beginRekey start P rng = .ok t) : Calm s t := by
  obtain ⟨kex, w, hk, rfl⟩ := Session.beginRekey_eq_ok h
  obtain ⟨payload, hp⟩ := start.kexinit_writes hk
  exact .kex (.packetRaw rfl hp) rfl rfl rfl rfl rfl

/-- The keys of a rekey are taken into use. -/
theorem newkeys (newkeys : NewKeys) :
    Calm s { s with common := s.common.newkeys newkeys } := by
  cases hc : s.common.encrypted with
  | none =>
    have hsame : s.common.newkeys newkeys = s.common := by simp [CommonSession.newkeys, hc]
    rw [hsame]
    exact of_same rfl rfl rfl (fun _ => rfl) (fun _ => .inl rfl) id
  | some enc =>
    refine ⟨?_, ⟨[.setCipher newkeys.cipher.localToRemote], ?_, by simp [Event.isCalm]⟩, rfl,
      fun id => ?_, fun _ => .inl rfl, ?_⟩
    · simp [CommonSession.newkeys, hc]
    · simp [Session.events, CommonSession.newkeys, hc, PacketWriter.setCipher]
    · rw [Session.entries_eq hc]
      simp [Session.entries, CommonSession.newkeys, hc]
    · simp [CommonSession.newkeys, hc]

/-- The keys of the initial exchange are taken into use: the table is empty. -/
theorem initEncrypted (state : EncryptedState) (newkeys : NewKeys) (now : Nat)
    (hnone : s.common.encrypted = none) :
    Calm s { s with common := s.common.initEncrypted state newkeys now } := by
  refine ⟨rfl, ⟨[.setCipher newkeys.cipher.localToRemote], rfl, by simp [Event.isCalm]⟩, rfl,
    fun id => ?_, fun _ => .inl rfl, fun _ => hnone⟩
  rw [Session.entries, Session.entries, hnone]
  rfl

end Calm

end Edgessh.Russh
