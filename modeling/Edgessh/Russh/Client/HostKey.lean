import Edgessh.Lib.Trace
import Edgessh.Russh.Client.Rules
import Edgessh.Russh.Kex.Advance

/-!
# The host key of a client's connection

No part of an authentication is written before the application has accepted a host key that has
signed the exchange hash of the connection. A rekey verifies a signature too, but does not ask the
application about the key that made it.
-/

namespace Edgessh.Russh
open Edgessh.Command Edgessh.Run

/-- A packet of the authentication of a client. -/
def Message.isCredential : Message → Bool
  | .serviceRequest _ | .userauthRequest .. | .userauthInfoResponse _ | .raw _ => true
  | _ => false

namespace Event

/-- A packet of the authentication is written: into the queue, to the stream, or as it is. -/
def writesCredential : Event → Bool
  | packet s => s.message.isCredential
  | wrote m | unsealed m => m.isCredential
  | _ => false

def verified? : Event → Option (PublicKey × Bytes)
  | verified key hash => some (key, hash)
  | _ => none

def isSetCipher : Event → Bool
  | setCipher _ => true
  | _ => false

end Event

namespace Client

/-- The last signature that has been verified. -/
def lastVerified (events : List Event) : Option (PublicKey × Bytes) :=
  (events.filterMap Event.verified?).getLast?

theorem lastVerified_append {events new : List Event} (h : ∀ e ∈ new, e.verified? = none) :
    lastVerified (events ++ new) = lastVerified events := by
  rw [lastVerified, List.filterMap_append, List.filterMap_eq_nil_iff.mpr h, List.append_nil,
    lastVerified]

theorem lastVerified_verified (events : List Event) (key : PublicKey) (hash : Bytes) :
    lastVerified (events ++ [.verified key hash]) = some (key, hash) := by
  rw [lastVerified, List.filterMap_append]
  exact List.getLast?_concat ..

theorem mem_of_lastVerified {events : List Event} {key : PublicKey} {hash : Bytes}
    (h : lastVerified events = some (key, hash)) : .verified key hash ∈ events := by
  obtain ⟨e, he, hv⟩ := List.mem_filterMap.mp (List.mem_of_getLast? h)
  cases e <;> simp_all [Event.verified?]

/-- The key has signed this exchange hash, and the application has accepted it. -/
def Pinned (key : PublicKey) (hash : Bytes) (events : List Event) : Prop :=
  .verified key hash ∈ events ∧ .serverKeyChecked key true ∈ events

theorem Pinned.append {key : PublicKey} {hash : Bytes} {events new : List Event}
    (h : Pinned key hash events) : Pinned key hash (events ++ new) :=
  ⟨List.mem_append_left _ h.1, List.mem_append_left _ h.2⟩

/-- No KEXINIT that has been read chooses the key exchange `none`. -/
def NeverNone (config : ClientConfig) (events : List Event) : Prop :=
  ∀ buf, .received buf ∈ events → ∀ cause names,
    readKex .client buf config.preferred none cause = .ok names → names.kex ≠ .none

theorem NeverNone.of_append {config : ClientConfig} {events new : List Event}
    (h : NeverNone config (events ++ new)) : NeverNone config events :=
  fun buf hbuf => h buf (List.mem_append_left _ hbuf)

/-- A packet of the authentication is written after a host key of this connection is pinned. -/
def CredentialsPinned : List Event → Prop :=
  Traced fun pre e => e.writesCredential = true → ∃ key hash, Pinned key hash pre

/-- Keys are taken into use after the host key that signed their exchange is accepted. -/
def ExchangesPinned : List Event → Prop :=
  Traced fun pre e => e.isSetCipher = true → ∃ key hash,
    lastVerified pre = some (key, hash) ∧ .serverKeyChecked key true ∈ pre

/-- What has been verified for the exchange that is under way. `known` stands for the condition
under which no rekey shows another host key. -/
structure Signed (known : Prop) (config : ClientConfig) (s : ClientSession) : Prop where
  config_eq : s.common.config = config
  kex_config : ∀ kex, s.kex = .inProgress kex → kex.config = config
  cause : ∀ kex, s.kex = .inProgress kex → s.common.encrypted = none →
    kex.cause.sessionId = none
  signed : ∀ kex key newkeys, s.kex = .inProgress kex →
    kex.state = .waitingForNewKeys key newkeys →
    ∃ hash, lastVerified s.events = some (key, hash) ∧
      (s.common.encrypted = none → newkeys.sessionId = hash) ∧
      (known → s.common.encrypted.isSome = true → .serverKeyChecked key true ∈ s.events)

/-- What holds of the host keys in every state. -/
structure HostKeys (known : Prop) (config : ClientConfig) (s : ClientSession) : Prop where
  credentials : CredentialsPinned s.events
  encrypted : ∀ enc, s.common.encrypted = some enc → ∃ key, Pinned key enc.sessionId s.events
  exchanges : known → ExchangesPinned s.events

variable {P : Primitives} {known : Prop} {config : ClientConfig} {s t : ClientSession}

/-- New events of which none sets a cipher or writes a credential without a key. -/
theorem HostKeys.extend (h : HostKeys known config s) {new : List Event}
    (hev : t.events = s.events ++ new)
    (hsession : t.common.encrypted.map (·.sessionId) = s.common.encrypted.map (·.sessionId))
    (hcred : ∀ e ∈ new, e.writesCredential = true → s.common.encrypted.isSome = true)
    (hcipher : ∀ e ∈ new, e.isSetCipher = false) : HostKeys known config t where
  credentials := by
    rw [hev]
    refine h.credentials.append_of_forall fun pre e he hw => ?_
    obtain ⟨enc, henc⟩ := Option.isSome_iff_exists.mp (hcred e he hw)
    obtain ⟨key, hpin⟩ := h.encrypted enc henc
    exact ⟨key, _, hpin.append⟩
  encrypted enc' henc' := by
    rw [henc'] at hsession
    obtain ⟨enc, henc, hs⟩ := Option.map_eq_some_iff.mp hsession.symm
    obtain ⟨key, hpin⟩ := h.encrypted enc henc
    have hs : enc.sessionId = enc'.sessionId := hs
    rw [hev, ← hs]
    exact ⟨key, hpin.append⟩
  exchanges hk := by
    rw [hev]
    refine (h.exchanges hk).append_of_forall fun pre e he hc => ?_
    rw [hcipher e he] at hc
    cases hc

/-- New events of which none is about a signature. -/
theorem Signed.extend (h : Signed known config s) {new : List Event}
    (hev : t.events = s.events ++ new)
    (hconfig : t.common.config = s.common.config)
    (hsession : t.common.encrypted.map (·.sessionId) = s.common.encrypted.map (·.sessionId))
    (hkex : t.kex = s.kex) (hv : ∀ e ∈ new, e.verified? = none) : Signed known config t := by
  have hnone : t.common.encrypted = none → s.common.encrypted = none := by
    intro ht
    rw [ht] at hsession
    exact Option.map_eq_none_iff.mp hsession.symm
  have hsome : t.common.encrypted.isSome = s.common.encrypted.isSome := by
    simpa using congrArg Option.isSome hsession
  refine ⟨hconfig.trans h.config_eq, fun kex hk => h.kex_config kex (hkex ▸ hk),
    fun kex hk ht => h.cause kex (hkex ▸ hk) (hnone ht), fun kex key newkeys hk hst => ?_⟩
  obtain ⟨hash, hlast, hinit, hknown⟩ := h.signed kex key newkeys (hkex ▸ hk) hst
  refine ⟨hash, ?_, fun ht => hinit (hnone ht), fun hk he => ?_⟩
  · rw [hev, lastVerified_append hv]
    exact hlast
  · rw [hev]
    exact List.mem_append_left _ (hknown hk (hsome ▸ he))

theorem not_credential_of_isKex {e : Event} (h : e.isKex = true) : e.writesCredential = false := by
  cases e with
  | packet p =>
    rcases p with ⟨m, key, epoch, seqn⟩
    cases m <;> simp_all [Event.isKex, Message.isKex, Event.writesCredential, Message.isCredential]
  | _ => simp_all [Event.isKex, Event.writesCredential]

theorem isSetCipher_of_isKex {e : Event} (h : e.isKex = true) : e.isSetCipher = false := by
  cases e <;> simp_all [Event.isKex, Event.isSetCipher]

/-- A step of the machine, whichever way it ends. -/
theorem HostKeys.kex (h : HostKeys known config s) {w : PacketWriter}
    (hw : KexWrites s.common.packetWriter w) (hev : t.events = w.events)
    (henc : t.common.encrypted = s.common.encrypted) : HostKeys known config t := by
  obtain ⟨new, hnew, hkex⟩ := hw.events
  refine h.extend (hev.trans hnew) (by rw [henc]) (fun e he hc => ?_) fun e he =>
    isSetCipher_of_isKex (hkex e he)
  rw [not_credential_of_isKex (hkex e he)] at hc
  cases hc

theorem verified?_of_isApp {target : Target} {e : Event} {b : Bool} {pkt : Option Bytes}
    (h : e.isApp target b pkt = true) : e.verified? = none := by
  cases e <;> simp_all [Event.isApp, Event.verified?]

theorem isSetCipher_of_isApp {target : Target} {e : Event} {b : Bool} {pkt : Option Bytes}
    (h : e.isApp target b pkt = true) : e.isSetCipher = false := by
  cases e <;> simp_all [Event.isApp, Event.isSetCipher]

theorem encrypted_of_writesCredential {target : Target} {e : Event} {b : Bool} {pkt : Option Bytes}
    (h : e.isApp target b pkt = true) (hw : e.writesCredential = true) : b = true := by
  cases e with
  | unsealed m => cases m <;> simp_all [Event.isApp, Event.writesCredential, Message.isTransport,
      Message.isCredential]
  | _ => simp_all [Event.isApp, Event.writesCredential]

theorem HostKeys.app {pkt : Option Bytes} (hstep : AppStep clientStart P pkt s t)
    (h : HostKeys known config s) : HostKeys known config t := by
  obtain ⟨new, hev, happ⟩ := hstep.events
  exact h.extend hev hstep.kept.sessionId
    (fun e he hw => encrypted_of_writesCredential (happ e he) hw)
    fun e he => isSetCipher_of_isApp (happ e he)

/-- No exchange is under way. -/
theorem Signed.of_idle (hconfig : s.common.config = config) (hk : s.kex = .idle) :
    Signed known config s := by
  have hne : ∀ kex, s.kex ≠ .inProgress kex := fun kex h => by rw [hk] at h; cases h
  exact ⟨hconfig, fun kex h => absurd h (hne kex), fun kex h => absurd h (hne kex),
    fun kex _ _ h => absurd h (hne kex)⟩

/-- An exchange that has just begun. -/
theorem Signed.begin {rng : Entropy} (hb : s.beginRekey clientStart P rng = .ok t)
    (hconfig : s.common.config = config) : Signed known config t := by
  obtain ⟨kex, w, hk, rfl⟩ := Session.beginRekey_eq_ok hb
  obtain ⟨⟨hst, hcause, hc⟩, -⟩ := ClientKex.kexinit_eq_ok hk
  refine ⟨hconfig, ?_, ?_, ?_⟩
  · rintro kex' ⟨⟩
    exact hc.trans hconfig
  · rintro kex' ⟨⟩ hnone
    rw [hcause]
    have hnone : s.common.encrypted = none := hnone
    simp [clientStart, ClientKex.new, Session.kexCause, hnone, KexCause.sessionId]
  · rintro kex' key newkeys ⟨⟩ hw
    rw [hst] at hw
    cases hw

theorem Signed.app {pkt : Option Bytes} (hstep : AppStep clientStart P pkt s t)
    (h : Signed known config s) : Signed known config t := by
  obtain ⟨new, hev, happ⟩ := hstep.events
  rcases hstep.kex with hkex | ⟨-, -, rng, hb⟩
  · exact h.extend hev hstep.kept.config hstep.kept.sessionId hkex
      fun e he => verified?_of_isApp (happ e he)
  · exact .begin hb h.config_eq

/-- Both, in a run in which no exchange is without keys. -/
def HostKeyInv (known : Prop) (config : ClientConfig) (s : ClientSession) : Prop :=
  NeverNone config s.events → Signed known config s ∧ HostKeys known config s

/-- What is left of it when a turn fails. -/
def HostKeyEnd (known : Prop) (config : ClientConfig) (s : ClientSession) : Prop :=
  NeverNone config s.events → CredentialsPinned s.events ∧ (known → ExchangesPinned s.events)

/-- If this packet is the reply of a rekey, the application has accepted its host key before. -/
def KnownHostKey (P : Primitives) (buf : Bytes) (s : ClientSession) : Prop :=
  ∀ kex names algorithm key, s.kex = .inProgress kex →
    kex.state = .waitingForDhReply names algorithm → names.ignoreGuessed = false →
    s.common.encrypted.isSome = true → buf.head? = some (ClientKex.expectedReply algorithm) →
    replyHostKey P buf = some key → .serverKeyChecked key true ∈ s.events

/-- A packet has been read. -/
def HostKeyMid (P : Primitives) (known : Prop) (config : ClientConfig) (buf : Bytes)
    (s : ClientSession) : Prop :=
  HostKeyInv known config s ∧ .received buf ∈ s.events ∧ (known → KnownHostKey P buf s)

/-- An exchange is over, and its keys are not in use yet. -/
def HostKeyDone (known : Prop) (config : ClientConfig) (key : Option PublicKey) (newkeys : NewKeys)
    (s : ClientSession) : Prop :=
  s.kex = .taken ∧ (NeverNone config s.events → s.common.config = config ∧
    HostKeys known config s ∧ ∃ k hash, key = some k ∧ lastVerified s.events = some (k, hash) ∧
      (s.common.encrypted = none → newkeys.sessionId = hash) ∧
      (known → s.common.encrypted.isSome = true → .serverKeyChecked k true ∈ s.events))

/-- What a turn begins with: the condition is about the packet that it reads. -/
def HostKeyStart (P : Primitives) (known : Prop) (config : ClientConfig) (input : ClientInput)
    (s : ClientSession) : Prop :=
  HostKeyInv known config s ∧ ∀ payload buf t, input = .packet payload → Opened P payload buf s t →
    known → KnownHostKey P buf s

theorem HostKeyInv.end (h : HostKeyInv known config s) : HostKeyEnd known config s :=
  fun hn => ⟨(h hn).2.credentials, (h hn).2.exchanges⟩

theorem HostKeyInv.app {pkt : Option Bytes} (hstep : AppStep clientStart P pkt s t)
    (h : HostKeyInv known config s) : HostKeyInv known config t := by
  intro hn
  obtain ⟨new, hev, -⟩ := hstep.events
  obtain ⟨hsigned, hkeys⟩ := h (hev ▸ hn).of_append
  exact ⟨hsigned.app hstep, hkeys.app hstep⟩

theorem HostKeyInv.processPacket {buf : Bytes} {env : ClientEnv} (h : HostKeyInv known config s) :
    wp (processPacket (P := P) env buf).run (fun _ t => HostKeyInv known config t)
      (fun _ t => HostKeyEnd known config t) s :=
  wp_mono (Confined.wp_invariant (fun _ _ hstep ht => HostKeyInv.app hstep ht) _ h)
    (fun _ _ ht => ht) fun _ _ ht => ht.end

/-- New events, with everything else that the invariant is about as it was. -/
theorem HostKeyInv.extend (h : HostKeyInv known config s) {new : List Event}
    (hev : t.events = s.events ++ new) (hconfig : t.common.config = s.common.config)
    (hsession : t.common.encrypted.map (·.sessionId) = s.common.encrypted.map (·.sessionId))
    (hkex : t.kex = s.kex) (hv : ∀ e ∈ new, e.verified? = none)
    (hcred : ∀ e ∈ new, e.writesCredential = true → s.common.encrypted.isSome = true)
    (hcipher : ∀ e ∈ new, e.isSetCipher = false) : HostKeyInv known config t := by
  intro hn
  obtain ⟨hsigned, hkeys⟩ := h (hev ▸ hn).of_append
  exact ⟨hsigned.extend hev hconfig hsession hkex hv, hkeys.extend hev hsession hcred hcipher⟩

/-- Nothing that the invariant is about changes. -/
theorem HostKeyInv.of_same (h : HostKeyInv known config s) (hev : t.events = s.events)
    (hconfig : t.common.config = s.common.config)
    (hsession : t.common.encrypted.map (·.sessionId) = s.common.encrypted.map (·.sessionId))
    (hkex : t.kex = s.kex) : HostKeyInv known config t :=
  h.extend (hev.trans (List.append_nil _).symm) hconfig hsession hkex (by simp) (by simp)
    (by simp)

theorem HostKeyInv.enter (h : HostKeyInv known config s) : HostKeyInv known config s.enter := by
  unfold Session.enter
  split
  · exact h.extend (Session.events_record _) rfl rfl rfl (by simp [Event.verified?])
      (by simp [Event.writesCredential]) (by simp [Event.isSetCipher])
  · exact h

theorem KnownHostKey.of_frame {buf : Bytes} (hf : s.Frame t) (h : KnownHostKey P buf s) :
    KnownHostKey P buf t := by
  intro kex names algorithm key hk hst hg he hb hkey
  have hmem := h kex names algorithm key (hf.kex ▸ hk) hst hg (hf.encrypted ▸ he) hb hkey
  rw [Session.events, hf.packetWriter]
  exact hmem

theorem HostKeyStart.of_frame {input : ClientInput} (hf : s.Frame t)
    (h : HostKeyStart P known config input s) : HostKeyStart P known config input t := by
  refine ⟨h.1.app (show AppStep clientStart P none _ _ from .frame hf),
    fun payload buf u hi ho hk => ?_⟩
  obtain ⟨u', ho'⟩ := ho.of_frame hf
  exact (h.2 payload buf u' hi ho' hk).of_frame hf

theorem HostKeyInv.opened {payload buf : Bytes} (ho : Opened P payload buf s t)
    (h : HostKeyInv known config s) : HostKeyInv known config t := by
  cases ho with
  | clear => exact h
  | decompressed hc _ =>
    exact h.of_same rfl rfl (by simp [hc]) rfl

theorem HostKeyStart.received {payload buf : Bytes} (ho : Opened P payload buf s t)
    (h : HostKeyStart P known config (.packet payload) s) :
    HostKeyMid P known config buf (t.record (.received buf)) := by
  refine ⟨(h.1.opened ho).extend (Session.events_record _) rfl rfl rfl ?_ ?_ ?_, ?_, fun hk => ?_⟩
  · simp [Event.verified?]
  · simp [Event.writesCredential]
  · simp [Event.isSetCipher]
  · simp
  · intro kex names algorithm key hkex hst hg he hb hkey
    have hknown := h.2 payload buf t rfl ho hk
    have hmem : Event.serverKeyChecked key true ∈ s.events := by
      cases ho with
      | clear => exact hknown kex names algorithm key hkex hst hg he hb hkey
      | decompressed hc _ =>
        exact hknown kex names algorithm key hkex hst hg (by simp [hc]) hb hkey
    have hev : t.events = s.events := by
      cases ho <;> rfl
    rw [Session.events_record, hev]
    exact List.mem_append_left _ hmem

theorem HostKeyMid.begin {buf : Bytes} {rng : Entropy}
    (ht : s.beginRekey clientStart P rng = .ok t) (h : HostKeyMid P known config buf s) :
    HostKeyMid P known config buf t := by
  obtain ⟨hinv, hrec, -⟩ := h
  obtain ⟨kex, w, hk, ht'⟩ := Session.beginRekey_eq_ok ht
  obtain ⟨payload, hp⟩ := clientStart.kexinit_writes hk
  have hev : ∃ new, t.events = s.events ++ new ∧ ∀ e ∈ new, e.isKex = true := by
    rw [ht']
    exact (KexWrites.packetRaw rfl hp).events
  obtain ⟨new, hev, hkex⟩ := hev
  refine ⟨fun hn => ?_, ?_, ?_⟩
  · obtain ⟨hsigned, hkeys⟩ := hinv (hev ▸ hn).of_append
    exact ⟨.begin ht hsigned.config_eq, hkeys.kex (.packetRaw rfl hp) (by rw [ht']; rfl)
      (by rw [ht']; rfl)⟩
  · rw [hev]
    exact List.mem_append_left _ hrec
  · intro _ kex' names algorithm key hkex' hst
    obtain rfl : kex = kex' := by
      rw [ht'] at hkex'
      exact SessionKexState.inProgress.inj hkex'
    rw [(ClientKex.kexinit_eq_ok hk).1.1] at hst
    cases hst

theorem HostKeyInv.service {w : PacketWriter} {enc enc' : Encrypted}
    (hc : s.common.encrypted = some enc) (hs : enc'.sessionId = enc.sessionId)
    (hout : outputPacket P (.serviceRequest (ascii "ssh-userauth")) s.common.packetWriter =
      .ok () w)
    (h : HostKeyInv known config s) :
    HostKeyInv known config ((s.setWriter w).setEncrypted enc') := by
  have hsession : some enc'.sessionId = s.common.encrypted.map (·.sessionId) := by simp [hc, hs]
  obtain ⟨-, -, ⟨-, rfl⟩ | ⟨-, -, hev⟩⟩ := packetRaw_eq_ok (outputPacket_eq_ok hout)
  · exact h.of_same rfl rfl hsession rfl
  · exact h.extend hev rfl hsession rfl (by simp [Event.verified?]) (by simp [hc])
      (by simp [Event.isSetCipher])

/-- What a step of the machine leaves for the packets to come. -/
theorem Signed.next {kex kex' : ClientKex} {rng : Entropy} {input : IncomingSshPacket}
    {reset : Bool} {w : PacketWriter} (hk : s.kex = .inProgress kex)
    (hstep : kex.step P rng (some input) s.common.packetWriter = .ok (.needsReply kex' reset) w)
    (hknown : known → KnownHostKey P input.buffer s) (h : Signed known config s) :
    Signed known config (continueKex kex' reset (s.setWriter w)) := by
  have hev : (continueKex kex' reset (s.setWriter w)).events = w.events := by
    cases reset <;> rfl
  have henc : (continueKex kex' reset (s.setWriter w)).common.encrypted = s.common.encrypted := by
    cases reset <;> rfl
  have hcommon : kex'.cause = kex.cause ∧ kex'.config = kex.config := by
    cases ClientKex.step_advance hstep with
    | ask _ _ _ _ _ hcause hconfig _ => exact ⟨hcause, hconfig⟩
    | group _ _ _ hcause hconfig _ => exact ⟨hcause, hconfig⟩
    | guessed _ _ hkex => rw [hkex]; exact ⟨rfl, rfl⟩
    | reply _ _ _ _ _ _ hcause hconfig _ _ _ => exact ⟨hcause, hconfig⟩
  refine ⟨?_, ?_, ?_, ?_⟩
  · cases reset <;> exact h.config_eq
  · rintro k ⟨⟩
    exact hcommon.2.trans (h.kex_config kex hk)
  · rintro k ⟨⟩ hnone
    rw [hcommon.1]
    exact h.cause kex hk (henc ▸ hnone)
  · rintro k key newkeys ⟨⟩ hst
    cases ClientKex.step_advance hstep with
    | ask _ _ _ _ hawait _ _ _ => simp [hst, ClientKexState.Awaits] at hawait
    | group _ _ hst' _ _ _ => simp [hst] at hst'
    | guessed _ _ hkex => simp [hkex] at hst
    | @reply names algorithm key' hash newkeys' kex'' w' hwait hg hb hreply _ hst' _ _ _ hsession hraw =>
      rw [hst] at hst'
      cases hst'
      obtain ⟨-, -, ⟨hempty, -⟩ | ⟨-, -, hnew⟩⟩ := packetRaw_eq_ok hraw
      · cases hempty
      · refine ⟨hash, ?_, fun hnone => ?_, fun hkn he => ?_⟩
        · rw [hev, hnew, lastVerified_append (by simp [Event.verified?])]
          exact lastVerified_verified ..
        · rw [hsession, h.cause kex hk (henc ▸ hnone)]
          rfl
        · have hmem := hknown hkn kex names algorithm key hk hwait hg (henc ▸ he) hb hreply
          rw [hev, hnew]
          exact List.mem_append_left _ (List.mem_append_left _ hmem)

theorem HostKeyMid.done {buf : Bytes} {kex : ClientKex} {rng : Entropy} {seqn : UInt32}
    {key : Option PublicKey} {newkeys : NewKeys} {w : PacketWriter}
    (hk : s.kex = .inProgress kex)
    (hstep : kex.step P rng (some ⟨buf, seqn⟩) s.common.packetWriter = .ok (.done key newkeys) w)
    (hw : KexWrites s.common.packetWriter w) (hev : t.events = w.events)
    (henc : t.common.encrypted = s.common.encrypted)
    (hconfig : t.common.config = s.common.config) (hkex : t.kex = .taken)
    (h : HostKeyMid P known config buf s) : HostKeyDone known config key newkeys t := by
  obtain ⟨hinv, hrec, -⟩ := h
  refine ⟨hkex, fun hn => ?_⟩
  obtain ⟨new, hnew, -⟩ := hw.events
  have hn' : NeverNone config s.events := by
    rw [hev, hnew] at hn
    exact hn.of_append
  obtain ⟨hsigned, hkeys⟩ := hinv hn'
  refine ⟨hconfig.trans hsigned.config_eq, hkeys.kex hw hev henc, ?_⟩
  cases ClientKex.step_advance hstep with
  | skip _ _ hread hnone _ _ =>
    rw [hsigned.kex_config kex hk] at hread
    exact absurd hnone (hn' _ hrec _ _ hread)
  | @finish key newkeys hst _ =>
    obtain ⟨hash, hlast, hinit, hknown⟩ := hsigned.signed kex key newkeys hk hst
    refine ⟨key, hash, rfl, ?_, fun hnone => hinit (henc ▸ hnone), fun hkn he => ?_⟩
    · rw [hev]
      exact hlast
    · rw [hev]
      exact hknown hkn (henc ▸ he)

theorem HostKeyDone.app {key : Option PublicKey} {newkeys : NewKeys} {pkt : Option Bytes}
    (hstep : AppStep clientStart P pkt s t) (h : HostKeyDone known config key newkeys s) :
    HostKeyDone known config key newkeys t := by
  obtain ⟨new, hev, happ⟩ := hstep.events
  refine ⟨?_, fun hn => ?_⟩
  · rcases hstep.kex with hk | ⟨hk, -⟩
    · exact hk.trans h.1
    · rw [h.1] at hk
      cases hk
  obtain ⟨hconfig, hkeys, k, hash, hkey, hlast, hinit, hknown⟩ := h.2 (hev ▸ hn).of_append
  have hsome := hstep.kept.encrypted_isSome
  refine ⟨hstep.kept.config.trans hconfig, hkeys.app hstep, k, hash, hkey, ?_, ?_, ?_⟩
  · rw [hev, lastVerified_append fun e he => verified?_of_isApp (happ e he)]
    exact hlast
  · intro hnone
    rw [hnone] at hsome
    exact hinit (by simpa using hsome.symm)
  · intro hkn he
    rw [hev]
    exact List.mem_append_left _ (hknown hkn (hsome ▸ he))

/-- The machine has failed. -/
theorem HostKeyMid.error {buf : Bytes} {w : PacketWriter} (hw : KexWrites s.common.packetWriter w)
    (h : HostKeyMid P known config buf s) :
    HostKeyEnd known config ({ s with kex := .taken }.setWriter w) := by
  intro hn
  obtain ⟨new, hnew, -⟩ := hw.events
  have hn' : NeverNone config w.events := hn
  obtain ⟨-, hkeys⟩ := h.1 (hnew ▸ hn').of_append
  have hkeys' : HostKeys known config ({ s with kex := .taken }.setWriter w) :=
    hkeys.kex hw rfl rfl
  exact ⟨hkeys'.credentials, hkeys'.exchanges⟩

/-- The machine waits for the next packet. -/
theorem HostKeyMid.next {buf : Bytes} {kex kex' : ClientKex} {rng : Entropy}
    {seqn : UInt32} {reset : Bool} {w : PacketWriter} (hk : s.kex = .inProgress kex)
    (hstep : kex.step P rng (some ⟨buf, seqn⟩) s.common.packetWriter =
      .ok (.needsReply kex' reset) w)
    (h : HostKeyMid P known config buf s) :
    HostKeyInv known config (continueKex kex' reset (s.setWriter w)) := by
  have hw : KexWrites s.common.packetWriter w := (ClientKex.step_writes kex _).of_ok hstep
  have hev : (continueKex kex' reset (s.setWriter w)).events = w.events := by
    cases reset <;> rfl
  obtain ⟨new, hnew, -⟩ := hw.events
  intro hn
  rw [hev, hnew] at hn
  obtain ⟨hsigned, hkeys⟩ := h.1 hn.of_append
  exact ⟨hsigned.next hk hstep h.2.2, hkeys.kex hw hev (by cases reset <;> rfl)⟩

theorem HostKeyDone.end {key : Option PublicKey} {newkeys : NewKeys}
    (h : HostKeyDone known config key newkeys s) : HostKeyEnd known config s :=
  fun hn => ⟨(h.2 hn).2.1.credentials, (h.2 hn).2.1.exchanges⟩

/-- The keys of a rekey are taken into use. -/
theorem HostKeyDone.rekeyed {key : Option PublicKey} {newkeys : NewKeys}
    (he : s.common.encrypted.isSome = true) (h : HostKeyDone known config key newkeys s) :
    HostKeyInv known config { s with common := s.common.newkeys newkeys, kex := .idle } := by
  obtain ⟨enc, hc⟩ := Option.isSome_iff_exists.mp he
  intro hn
  simp only [Session.events, CommonSession.newkeys, hc] at hn
  obtain ⟨hconfig, hkeys, k, hash, -, hlast, -, hknown⟩ := h.2 hn.of_append
  refine ⟨.of_idle ?_ rfl, ⟨?_, ?_, ?_⟩⟩
  · simpa [CommonSession.newkeys, hc] using hconfig
  · simp only [Session.events, CommonSession.newkeys, hc]
    exact traced_concat.mpr ⟨hkeys.credentials, by simp [Event.writesCredential]⟩
  · simp only [Session.events, CommonSession.newkeys, hc]
    rintro enc' ⟨⟩
    obtain ⟨key', hpin⟩ := hkeys.encrypted enc hc
    exact ⟨key', hpin.append⟩
  · intro hk
    simp only [Session.events, CommonSession.newkeys, hc]
    exact traced_concat.mpr ⟨hkeys.exchanges hk, fun _ => ⟨k, hash, hlast, hknown hk he⟩⟩

/-- The application is asked about the host key. -/
theorem HostKeyDone.checked {key : Option PublicKey} {newkeys : NewKeys} {new : List Event}
    (hev : t.events = s.events ++ new) (henc : t.common.encrypted = s.common.encrypted)
    (hcred : ∀ e ∈ new, e.writesCredential = false) (hcipher : ∀ e ∈ new, e.isSetCipher = false)
    (h : HostKeyDone known config key newkeys s) : HostKeyEnd known config t := by
  intro hn
  rw [hev] at hn
  obtain ⟨-, hkeys, -⟩ := h.2 hn.of_append
  have hkeys' : HostKeys known config t :=
    hkeys.extend hev (by rw [henc]) (fun e he hw => by simp [hcred e he] at hw) hcipher
  exact ⟨hkeys'.credentials, hkeys'.exchanges⟩

theorem HostKeyDone.rejected {key : PublicKey} {newkeys : NewKeys}
    (h : HostKeyDone known config (some key) newkeys s) :
    HostKeyEnd known config ((s.record (.clientCallback (.checkServerKey key))).record
      (.serverKeyChecked key false)) := by
  have hev : ((s.record (.clientCallback (.checkServerKey key))).record
      (.serverKeyChecked key false)).events =
      s.events ++ [.clientCallback (.checkServerKey key), .serverKeyChecked key false] := by simp
  refine h.checked hev rfl ?_ ?_
  · simp [Event.writesCredential]
  · simp [Event.isSetCipher]

/-- The application has accepted the host key, and the keys of the initial exchange are taken
into use. -/
theorem HostKeyDone.accepted {key : PublicKey} {newkeys : NewKeys} (now : Nat)
    (hnone : s.common.encrypted = none) (h : HostKeyDone known config (some key) newkeys s) :
    HostKeyInv known config { initKeys newkeys now
      ((s.record (.clientCallback (.checkServerKey key))).record (.serverKeyChecked key true)) with
      kex := .idle } := by
  intro hn
  have hev : (({ initKeys newkeys now
      ((s.record (.clientCallback (.checkServerKey key))).record (.serverKeyChecked key true)) with
      kex := .idle } : ClientSession)).events =
      (s.events ++ [.clientCallback (.checkServerKey key), .serverKeyChecked key true]) ++
        [.setCipher newkeys.cipher.localToRemote] := by
    simp [initKeys, CommonSession.initEncrypted, Session.record, Session.setWriter,
      Session.events, PacketWriter.record, PacketWriter.setCipher]
  rw [hev] at hn
  obtain ⟨hconfig, hkeys, k, hash, hkey, hlast, hinit, -⟩ := h.2 hn.of_append.of_append
  obtain rfl : key = k := Option.some.inj hkey
  have hpre : lastVerified (s.events ++
      [.clientCallback (.checkServerKey key), .serverKeyChecked key true]) = some (key, hash) := by
    rw [lastVerified_append (by simp [Event.verified?])]
    exact hlast
  have hpin : Pinned key hash (s.events ++
      [.clientCallback (.checkServerKey key), .serverKeyChecked key true]) :=
    ⟨mem_of_lastVerified hpre, by simp⟩
  refine ⟨.of_idle hconfig rfl, ⟨?_, ?_, fun hk => ?_⟩⟩
  · rw [hev]
    refine traced_concat.mpr ⟨hkeys.credentials.append_of_forall ?_, ?_⟩ <;>
      simp [Event.writesCredential]
  · rintro enc ⟨⟩
    rw [hev]
    have hs : newkeys.sessionId = hash := hinit hnone
    exact ⟨key, (hs ▸ hpin).append⟩
  · rw [hev]
    refine traced_concat.mpr ⟨(hkeys.exchanges hk).append_of_forall ?_, fun _ =>
      ⟨key, hash, hpre, hpin.2⟩⟩
    simp [Event.isSetCipher]

/-- An exchange without a host key is one that the run excludes. -/
theorem HostKeyDone.keyless {newkeys : NewKeys} (now : Nat)
    (h : HostKeyDone known config none newkeys s) :
    HostKeyInv known config { initKeys newkeys now s with kex := .idle } := by
  intro hn
  have hn' : NeverNone config (s.events ++ [.setCipher newkeys.cipher.localToRemote]) := hn
  obtain ⟨-, -, k, hash, hkey, -⟩ := h.2 hn'.of_append
  cases hkey

theorem hostKeyRules (P : Primitives) (known : Prop) (config : ClientConfig) :
    ClientRules P (HostKeyStart P known config) (HostKeyInv known config)
      (HostKeyEnd known config) (HostKeyMid P known config) (HostKeyDone known config) where
  start_frame := HostKeyStart.of_frame
  start_inv h := h.1
  inv_err := HostKeyInv.end
  app := HostKeyInv.app
  service _ hc _ hout h := h.service hc rfl hout
  authenticate user method h := h.of_same rfl rfl rfl rfl
  request request hc _ _ _ h := h.of_same rfl rfl (by simp [hc]) rfl
  compress h := by
    unfold initCompression
    split
    · rename_i enc hc
      split
      · exact h.of_same rfl rfl (by simp [hc]) rfl
      · exact h
    · exact h
  opened ho h := h.1.opened ho
  received := HostKeyStart.received
  mid_frame hf h := by
    refine ⟨h.1.app (show AppStep clientStart P none _ _ from .frame hf), ?_,
      fun hk => (h.2.2 hk).of_frame hf⟩
    rw [Session.events, hf.packetWriter]
    exact h.2.1
  mid_err h := h.1.end
  ignored _ h := h.1
  begin _ _ _ ht h := h.begin ht
  process _ _ _ h := h.1.enter.processPacket
  kex_error _ _ hs h := h.error ((ClientKex.step_writes _ _).of_error hs)
  kex_next _ hk hs h := h.next hk hs
  kex_done _ hk hs h := h.done hk hs ((ClientKex.step_writes _ _).of_ok hs) rfl rfl rfl rfl
  done_app := HostKeyDone.app
  done_err := HostKeyDone.end
  done_bytes h := ⟨h.1, fun hn => by
    obtain ⟨hconfig, hkeys, hrest⟩ := h.2 hn
    exact ⟨hconfig, ⟨hkeys.credentials, hkeys.encrypted, hkeys.exchanges⟩, hrest⟩⟩
  rekeyed he h := h.rekeyed he
  asked _ h := h.checked (Session.events_record _) rfl (by simp [Event.writesCredential])
    (by simp [Event.isSetCipher])
  rejected _ h := h.rejected
  accepted now he h := h.accepted now he
  keyless now _ h := h.keyless now

theorem hostKey_start (P : Primitives) (known : Prop) (env : ClientEnv) (config : ClientConfig)
    (remoteSshid : Bytes) :
    LoopInvariant (HostKeyInv known config) (HostKeyEnd known config)
      (start P env config remoteSshid) := by
  have hkeys : HostKeys known config (newSession config remoteSshid) :=
    ⟨traced_nil, fun enc h => by simp [newSession] at h, fun _ => traced_nil⟩
  refine (hostKeyRules P known config).start (fun _ => ⟨hkeys.credentials, hkeys.exchanges⟩)
    fun rng t hb _ => ?_
  obtain ⟨kex, w, hk, ht⟩ := Session.beginRekey_eq_ok hb
  obtain ⟨payload, hp⟩ := clientStart.kexinit_writes hk
  refine ⟨.begin hb rfl, hkeys.kex (.packetRaw rfl hp) ?_ ?_⟩
  · rw [ht]
    rfl
  · rw [ht]
    rfl

/-- A client that does not offer `none` never gets it. -/
theorem neverNone_of_preferred (h : KexName.none ∉ config.preferred.kex) (events : List Event) :
    NeverNone config events := by
  intro buf _ cause names hread hnone
  exact h (hnone ▸ readKex_kex_mem hread)

/-- In a run of a client that is not set to `none` by a KEXINIT, no packet of the authentication
is written before a host key of the connection is pinned. -/
theorem credentials_pinned {P : Primitives} {env : ClientEnv} {config : ClientConfig}
    {remoteSshid : Bytes} {labels : List (ClientEnv × ClientInput)} {l : ClientLoop}
    (hrun : run (step P) (start P env config remoteSshid) labels = some l)
    (hn : NeverNone config l.session.events) : CredentialsPinned l.session.events := by
  have h := (hostKeyRules P False config).run (fun _ _ => True)
    (fun _ _ _ _ hi => ⟨hi, fun _ _ _ _ _ hk => hk.elim⟩)
    (hostKey_start P False env config remoteSshid)
    (along_true _ _) hrun
  exact (h.ended hn).1

/-- An application that accepts the host key `7`. -/
def trustingSeven : ClientEnv where
  handleAlive _ := true
  entropy _ := .toy
  now _ := 0
  tableOrder _ := []
  channelRef _ := ⟨0⟩
  handler _ _ := ([], .ok ())
  checkServerKey key _ := .ok (key = ⟨[7]⟩)
  adjustWindow _ size _ := size
  shouldAcceptUnknownServerChannel _ _ _ := false

/-- One algorithm of each kind. -/
def onlyCurve25519 : ClientConfig where
  preferred :=
    { kex := [.curve25519], key := [.ed25519], cipher := [.chacha20Poly1305], mac := []
      compression := [.none] }

/-- The packets of a server in an exchange: its host key, and the byte of the exchange hash. -/
def exchangePackets (key : Bytes) (hash : UInt8) : List Bytes :=
  [kexInitPayload onlyCurve25519.preferred (some [⟨.ed25519, ⟨key⟩⟩]) default,
    Msg.kexEcdhReply :: encodeBytes key ++ encodeBytes (List.replicate 32 1) ++
      encodeBytes (key ++ List.replicate 32 hash),
    [Msg.newKeys]]

/-- A run of that application that reads these packets. -/
def packetRun (packets : List Bytes) : List (ClientEnv × ClientInput) :=
  packets.map fun packet => (trustingSeven, .packet packet)

theorem credentials_pinned_authenticate : ∃ l,
    run (step .toy) (start .toy trustingSeven onlyCurve25519 [])
      (packetRun (exchangePackets [7] 215) ++
        [(trustingSeven, .send (.authenticate (ascii "root") .none)), (trustingSeven, .receive)]) =
      some l ∧
    l.session.events.any Event.writesCredential = true ∧ CredentialsPinned l.session.events := by
  have hwrites : ((run (step .toy) (start .toy trustingSeven onlyCurve25519 [])
      (packetRun (exchangePackets [7] 215) ++
        [(trustingSeven, .send (.authenticate (ascii "root") .none)),
          (trustingSeven, .receive)])).map
      fun l => l.session.events.any Event.writesCredential) = some true := by
    decide +kernel
  obtain ⟨l, hl, hw⟩ := Option.map_eq_some_iff.mp hwrites
  exact ⟨l, hl, hw, credentials_pinned hl (neverNone_of_preferred (by decide) _)⟩

/-- The condition on a step: the packet that is read is not the reply of a rekey with a host key
that the application has not accepted. -/
def RekeyKnown (P : Primitives) (l : ClientLoop) (label : ClientEnv × ClientInput) : Prop :=
  ∀ payload buf t, label.2 = .packet payload → Opened P payload buf l.session t →
    KnownHostKey P buf l.session

/-- A check of `RekeyKnown` that does not look at the state of the exchange. -/
def showsKnownKey (P : Primitives) (l : ClientLoop) : ClientEnv × ClientInput → Bool
  | (_, .packet payload) =>
    l.session.common.encrypted.isNone ||
      ((openedPacket P payload l.session).bind (replyHostKey P)).all fun key =>
        l.session.events.contains (.serverKeyChecked key true)
  | _ => true

theorem rekeyKnown_of_showsKnownKey {l : ClientLoop} {label : ClientEnv × ClientInput}
    (h : showsKnownKey P l label = true) : RekeyKnown P l label := by
  obtain ⟨env, input⟩ := label
  rintro payload buf t rfl ho kex names algorithm key - - - he - hkey
  simpa [showsKnownKey, ho.openedPacket, hkey, Option.isSome_iff_ne_none.mp he] using h

/-- In a run in which every rekey shows a host key that is known, every exchange is signed by a
host key that the application has accepted. -/
theorem exchanges_pinned {P : Primitives} {env : ClientEnv} {config : ClientConfig}
    {remoteSshid : Bytes} {labels : List (ClientEnv × ClientInput)} {l : ClientLoop}
    (hknown : Along (step P) (RekeyKnown P) (start P env config remoteSshid) labels)
    (hrun : run (step P) (start P env config remoteSshid) labels = some l)
    (hn : NeverNone config l.session.events) : ExchangesPinned l.session.events := by
  have h := (hostKeyRules P True config).run (RekeyKnown P)
    (fun _ _ hc _ hi => ⟨hi, fun payload buf t hp ho _ => hc payload buf t hp ho⟩)
    (hostKey_start P True env config remoteSshid) hknown hrun
  exact (h.ended hn).2 trivial

theorem exchanges_pinned_sameKey : ∃ l,
    run (step .toy) (start .toy trustingSeven onlyCurve25519 [])
      (packetRun (exchangePackets [7] 215 ++ exchangePackets [7] 215)) = some l ∧
    l.running = true ∧ ExchangesPinned l.session.events := by
  have hrunning : ((run (step .toy) (start .toy trustingSeven onlyCurve25519 [])
      (packetRun (exchangePackets [7] 215 ++ exchangePackets [7] 215))).map
      fun l => l.running) = some true := by
    decide +kernel
  obtain ⟨l, hl, hr⟩ := Option.map_eq_some_iff.mp hrunning
  have hknown : Along (step .toy) (fun l label => showsKnownKey .toy l label = true)
      (start .toy trustingSeven onlyCurve25519 [])
      (packetRun (exchangePackets [7] 215 ++ exchangePackets [7] 215)) := by
    decide +kernel
  exact ⟨l, hl, hr, exchanges_pinned (hknown.mono fun _ _ => rekeyKnown_of_showsKnownKey) hl
    (neverNone_of_preferred (by decide) _)⟩

/-- The host key `8` signs a rekey, its keys are taken into use, and the application has accepted
the key `7` only. -/
theorem not_exchanges_pinned_otherKey : ∃ l,
    run (step .toy) (start .toy trustingSeven onlyCurve25519 [])
      (packetRun (exchangePackets [7] 215 ++ exchangePackets [8] 88)) = some l ∧
    NeverNone onlyCurve25519 l.session.events ∧ ¬ ExchangesPinned l.session.events := by
  have hevents : ((run (step .toy) (start .toy trustingSeven onlyCurve25519 [])
      (packetRun (exchangePackets [7] 215 ++ exchangePackets [8] 88))).map fun l =>
      (l.session.events[31]?.map Event.isSetCipher,
        (lastVerified (l.session.events.take 31)).map Prod.fst,
        l.session.events.contains (.serverKeyChecked ⟨[8]⟩ true))) =
      some (some true, some ⟨[8]⟩, false) := by
    decide +kernel
  obtain ⟨l, hl, hev⟩ := Option.map_eq_some_iff.mp hevents
  obtain ⟨hset, hlast, hnot⟩ := by simpa only [Prod.mk.injEq] using hev
  refine ⟨l, hl, neverNone_of_preferred (by decide) _, fun h => ?_⟩
  obtain ⟨e, he, hcipher⟩ := Option.map_eq_some_iff.mp hset
  obtain ⟨key, hash, hverified, hmem⟩ := h.getElem? he hcipher
  rw [hverified] at hlast
  obtain rfl : key = ⟨[8]⟩ := by simpa using hlast
  simp [List.mem_of_mem_take hmem] at hnot

end Client

end Edgessh.Russh
