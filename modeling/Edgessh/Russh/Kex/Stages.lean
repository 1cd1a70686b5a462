import Edgessh.Lib.Dialogue
import Edgessh.Russh.Kex.Shared

/-!
# The stages of a handshake

What a `ClientKex` and a `ServerKex` have read and sent when they are in a state, as parties of a
dialogue, and what their steps have computed on the way there.
-/

namespace Edgessh.Russh
open Edgessh.Command Edgessh.Dialogue

/-- Where a machine is. -/
inductive KexPhase (K : Type) where
  | running (kex : K)
  | done (serverHostKey : Option PublicKey) (newkeys : NewKeys)

/-- `KexProgress`, after which `reset_seqn` changes only the numbers of later packets. -/
def KexProgress.phase {K : Type} : KexProgress K → KexPhase K
  | .needsReply kex _ => .running kex
  | .done serverHostKey newkeys => .done serverHostKey newkeys

/-- What a packet carries. -/
def Event.payload? : Event → Option Bytes
  | .packet s => some s.message.encode
  | _ => none

/-- What has been sent. -/
def PacketWriter.payloads (w : PacketWriter) : List Bytes := w.events.filterMap Event.payload?

/-- A machine takes a packet, whatever the number of the packet, whatever numbers the machine
draws, and whatever the session has written meanwhile. -/
def takes {K : Type} (step : Entropy → K → Option IncomingSshPacket → WriterM (KexProgress K)) :
    Behaviour (KexPhase K) Bytes := fun s m s' out =>
  ∃ kex rng seqn w progress w', s = .running kex ∧
    step rng kex (some ⟨m, seqn⟩) w = .ok progress w' ∧ s' = progress.phase ∧
    w'.payloads = w.payloads ++ out

abbrev clientTakes (P : Primitives) : Behaviour (KexPhase ClientKex) Bytes :=
  takes (ClientKex.step P)

abbrev serverTakes (P : Primitives) (lookup : LookupDhGexGroup) :
    Behaviour (KexPhase ServerKex) Bytes :=
  takes (ServerKex.step P lookup)

section Writing

variable {P : Primitives} {w w' : PacketWriter} {m : Message}

theorem payloads_packetRaw (h : w.packetRaw P m = .ok w') (hm : m.encode ≠ []) :
    w'.payloads = w.payloads ++ [m.encode] := by
  obtain ⟨-, -, ⟨hnil, -⟩ | ⟨-, -, hevents⟩⟩ := packetRaw_eq_ok h
  · exact absurd hnil hm
  · unfold PacketWriter.payloads
    rw [hevents, List.filterMap_append]
    rfl

theorem payloads_outputPacket {u : Unit} (h : outputPacket P m w = .ok u w')
    (hm : m.encode ≠ []) : w'.payloads = w.payloads ++ [m.encode] :=
  payloads_packetRaw (outputPacket_eq_ok h) hm

theorem payloads_record {e : Event} (he : e.payload? = none) :
    (w.record e).payloads = w.payloads := by
  show (w.events ++ [e]).filterMap Event.payload? = w.payloads
  rw [List.filterMap_append, List.filterMap_cons_none he, List.filterMap_nil, List.append_nil]
  rfl

end Writing

theorem KexAlgorithm.skipExchange_of_isDhGex {kex : KexAlgorithm} (h : kex.isDhGex = true) :
    kex.skipExchange = false := by
  cases kex with
  | none => cases h
  | dhGroupKex kex => rfl
  | curve25519Kex kex => rfl
  | ecdhNistPKex kex => rfl
  | mlKem768X25519Kex kex => rfl

namespace ClientKex

variable {P : Primitives} {rng : Entropy} {self : ClientKex} {input : IncomingSshPacket}
  {w w' : PacketWriter} {progress : KexProgress ClientKex} {names : Names} {kex : KexAlgorithm}

/-- What the client chooses from the KEXINIT of the server. -/
structure Chooses (client : ClientKex) (m : Bytes) (names : Names) (kex : KexAlgorithm) :
    Prop where
  read : readKex .client m client.config.preferred none client.cause = .ok names
  make : KexAlgorithm.make names.kex = some kex

/-- The exchange after the KEXINIT of the server. -/
abbrev withKexInit (self : ClientKex) (m : Bytes) : Exchange :=
  { self.exchange with serverKexInit := self.exchange.serverKexInit ++ m }

/-- What a step from `Created` has done. -/
theorem stepCreated_eq_ok (h : self.stepCreated P rng input w = .ok progress w') :
    ∃ names kex, self.Chooses input.buffer names kex ∧
      ((kex.skipExchange = true ∧ ∃ newkeys,
          newKeys P .client [] kex names (self.withKexInit input.buffer) self.cause.sessionId =
            .ok newkeys ∧ progress = .done none newkeys ∧
          w'.payloads = w.payloads ++ [[Msg.newKeys]]) ∨
        (kex.skipExchange = false ∧ kex.isDhGex = true ∧
          progress = .needsReply { self with
            exchange := self.withKexInit input.buffer
            state := .waitingForGexReply names kex } false ∧
          w'.payloads = w.payloads ++ [Msg.kexDhGexRequest :: self.config.gex.encode]) ∨
        (kex.skipExchange = false ∧ kex.isDhGex = false ∧ ∃ kex' e payload,
          kex.clientDh P rng self.exchange.clientEphemeral = .ok (kex', e, payload) ∧
          progress = .needsReply { self with
            exchange := { self.withKexInit input.buffer with clientEphemeral := e }
            state := .waitingForDhReply names kex' } false ∧
          w'.payloads = w.payloads ++ [payload])) := by
  unfold stepCreated at h
  split at h
  · exact absurd h throw_ne_ok
  obtain ⟨names, w₁, hnames, h₁⟩ := bind_eq_ok'.mp h
  obtain ⟨hread, rfl⟩ := ofExcept_eq_ok.mp hnames
  rw [mapError_eq_ok] at hread
  dsimp only at h₁
  split at h₁
  · exact absurd h₁ throw_bind_ne_ok
  cases hmake : KexAlgorithm.make names.kex with
  | none =>
    simp only [hmake] at h₁
    exact absurd h₁ throw_ne_ok
  | some kex =>
    simp only [hmake] at h₁
    refine ⟨names, kex, ⟨hread, hmake⟩, ?_⟩
    cases hskip : kex.skipExchange with
    | true =>
      rw [if_pos hskip] at h₁
      obtain ⟨newkeys, w₂, hkeys, h₂⟩ := bind_eq_ok'.mp h₁
      obtain ⟨hnew, rfl⟩ := ofExcept_eq_ok.mp hkeys
      obtain ⟨_, w₃, hpacket, hdone⟩ := bind_eq_ok'.mp h₂
      obtain ⟨rfl, rfl⟩ := pure_eq_ok'.mp hdone
      exact .inl ⟨rfl, newkeys, hnew, rfl, payloads_outputPacket hpacket (by simp [Message.encode])⟩
    | false =>
      rw [if_neg (by simp [hskip])] at h₁
      cases hgex : kex.isDhGex with
      | true =>
        rw [if_pos hgex] at h₁
        obtain ⟨payload, w₂, hpay, h₂⟩ := bind_eq_ok'.mp h₁
        obtain ⟨hpayload, rfl⟩ := ofExcept_eq_ok.mp hpay
        obtain ⟨_, w₃, hpacket, hdone⟩ := bind_eq_ok'.mp h₂
        obtain ⟨rfl, rfl⟩ := pure_eq_ok'.mp hdone
        have hrequest : payload = Msg.kexDhGexRequest :: self.config.gex.encode := by
          cases kex with
          | dhGroupKex kex =>
            cases hpayload
            rfl
          | curve25519Kex kex => cases hpayload
          | ecdhNistPKex kex => cases hpayload
          | mlKem768X25519Kex kex => cases hpayload
          | none => cases hpayload
        subst hrequest
        exact .inr (.inl ⟨rfl, rfl, rfl,
          payloads_outputPacket hpacket (by simp [Message.encode])⟩)
      | false =>
        rw [if_neg (by simp [hgex])] at h₁
        obtain ⟨⟨kex', e, payload⟩, w₂, hrun, h₂⟩ := bind_eq_ok'.mp h₁
        obtain ⟨hdh, rfl⟩ := ofExcept_eq_ok.mp hrun
        obtain ⟨_, w₃, hpacket, hdone⟩ := bind_eq_ok'.mp h₂
        obtain ⟨rfl, rfl⟩ := pure_eq_ok'.mp hdone
        exact .inr (.inr ⟨rfl, rfl, kex', e, payload, hdh, rfl,
          payloads_outputPacket hpacket (KexAlgorithm.clientDh_ne_nil hskip hdh)⟩)

/-- What a step from `WaitingForGexReply` has done. -/
theorem stepGexReply_eq_ok' (h : self.stepGexReply P rng names kex input w = .ok progress w') :
    ∃ group hp kex₁ kex' e payload, readGexGroup input = some group ∧
      kex.dhGexSetGroup group hp = .ok kex₁ ∧
      kex₁.clientDh P rng self.exchange.clientEphemeral = .ok (kex', e, payload) ∧
      progress = .needsReply { self with
        exchange :=
          { self.exchange with gex := some (self.config.gex, group), clientEphemeral := e }
        state := .waitingForDhReply names kex' } false ∧
      w'.payloads = w.payloads ++ [payload] := by
  obtain ⟨group, hgroup⟩ := stepGexReply_reads h
  obtain ⟨hhead, prime, r, generator, r', hprime, hgenerator, rfl⟩ := readGexGroup_eq_some hgroup
  unfold stepGexReply at h
  rw [if_neg (not_not.mpr hhead)] at h
  simp only [hprime] at h
  obtain ⟨⟨prime', r₁⟩, w₁, hrun₁, h₁⟩ := bind_eq_ok'.mp h
  obtain ⟨hp, rfl⟩ := ofExcept_eq_ok.mp hrun₁
  cases hp
  obtain ⟨⟨generator', r₂⟩, w₂, hrun₂, h₂⟩ := bind_eq_ok'.mp h₁
  obtain ⟨hg, rfl⟩ := ofExcept_eq_ok.mp hrun₂
  rw [mapError_eq_ok, hgenerator] at hg
  cases hg
  dsimp only at h₂
  split at h₂
  · exact absurd h₂ throw_ne_ok
  · rename_i hbounds
    obtain ⟨kex₁, w₃, hrun₃, h₃⟩ := bind_eq_ok'.mp h₂
    obtain ⟨hset, rfl⟩ := ofExcept_eq_ok.mp hrun₃
    obtain ⟨⟨kex', e, payload⟩, w₄, hrun₄, h₄⟩ := bind_eq_ok'.mp h₃
    obtain ⟨hdh, rfl⟩ := ofExcept_eq_ok.mp hrun₄
    obtain ⟨_, w₅, hpacket, hdone⟩ := bind_eq_ok'.mp h₄
    obtain ⟨rfl, rfl⟩ := pure_eq_ok'.mp hdone
    have hskip := (KexAlgorithm.dhGexSetGroup_eq_ok hset).1
    exact ⟨_, _, kex₁, kex', e, payload, hgroup, hset, hdh, rfl,
      payloads_outputPacket hpacket (KexAlgorithm.clientDh_ne_nil hskip hdh)⟩

/-- What the client makes of the reply of the server. -/
structure Accepts (P : Primitives) (exchange : Exchange) (names : Names) (kex : KexAlgorithm)
    (sessionId : Option Bytes) (reply : Bytes) (serverHostKey : PublicKey) (newkeys : NewKeys) :
    Prop where
  accepted : ∃ hostKey r s r' kex' hash,
    decodeBytes (reply.drop 1) = .ok (hostKey, r) ∧ P.decodePublicKey hostKey = some serverHostKey ∧
    decodeBytes r = .ok (s, r') ∧
    kex.computeSharedSecret P (exchange.serverEphemeral ++ s) = .ok kex' ∧
    kex'.computeExchangeHash P (encodeBytes serverHostKey.blob)
      { exchange with serverEphemeral := exchange.serverEphemeral ++ s } = .ok hash ∧
    newKeys P .client hash kex' names
      { exchange with serverEphemeral := exchange.serverEphemeral ++ s } sessionId = .ok newkeys

/-- What a step from `WaitingForDhReply` has done, where no guess is to be ignored. -/
theorem stepDhReply_eq_ok (hguess : names.ignoreGuessed = false)
    (h : self.stepDhReply P names kex input w = .ok progress w') :
    ∃ serverHostKey newkeys reset exchange,
      Accepts P self.exchange names kex self.cause.sessionId input.buffer serverHostKey newkeys ∧
      progress = .needsReply { self with
        exchange, state := .waitingForNewKeys serverHostKey newkeys } reset ∧
      w'.payloads = w.payloads ++ [[Msg.newKeys]] := by
  unfold stepDhReply at h
  rw [if_neg (by simp [hguess])] at h
  split at h
  · exact absurd h throw_ne_ok
  obtain ⟨⟨hostKey, r⟩, w₁, hrun₁, h₁⟩ := bind_eq_ok'.mp h
  obtain ⟨hk, rfl⟩ := ofExcept_eq_ok.mp hrun₁
  rw [mapError_eq_ok] at hk
  dsimp only at h₁
  cases hkey : P.decodePublicKey hostKey with
  | none =>
    simp only [hkey] at h₁
    exact absurd h₁ throw_ne_ok
  | some key =>
    simp only [hkey] at h₁
    obtain ⟨⟨s, r'⟩, w₂, hrun₂, h₂⟩ := bind_eq_ok'.mp h₁
    obtain ⟨hs, rfl⟩ := ofExcept_eq_ok.mp hrun₂
    rw [mapError_eq_ok] at hs
    obtain ⟨kex', w₃, hrun₃, h₃⟩ := bind_eq_ok'.mp h₂
    obtain ⟨hsecret, rfl⟩ := ofExcept_eq_ok.mp hrun₃
    obtain ⟨hash, w₄, hrun₄, h₄⟩ := bind_eq_ok'.mp h₃
    obtain ⟨hhash, rfl⟩ := ofExcept_eq_ok.mp hrun₄
    obtain ⟨⟨signature, r''⟩, w₅, hrun₅, h₅⟩ := bind_eq_ok'.mp h₄
    obtain ⟨hsig, rfl⟩ := ofExcept_eq_ok.mp hrun₅
    dsimp only at h₅
    split at h₅
    · split at h₅
      · obtain ⟨_, w₆, hmodify, h₆⟩ := bind_eq_ok'.mp h₅
        cases hmodify
        obtain ⟨newkeys, w₇, hrun₇, h₇⟩ := bind_eq_ok'.mp h₆
        obtain ⟨hkeys, rfl⟩ := ofExcept_eq_ok.mp hrun₇
        obtain ⟨_, w₈, hpacket, hdone⟩ := bind_eq_ok'.mp h₇
        obtain ⟨rfl, rfl⟩ := pure_eq_ok'.mp hdone
        refine ⟨key, newkeys, _, _, ⟨hostKey, r, s, r', kex', hash, hk, hkey, hs, hsecret, hhash,
          hkeys⟩, rfl, ?_⟩
        rw [payloads_outputPacket hpacket (by simp [Message.encode]), payloads_record rfl]
        rfl
      · exact absurd h₅ throw_bind_ne_ok
    · exact absurd h₅ throw_bind_ne_ok

/-- What is enough for a reply to be accepted. -/
theorem stepDhReply_returns_ok {hostKey r s r' hash signature r'' : Bytes} {key : PublicKey}
    {kex' : KexAlgorithm} {newkeys : NewKeys} (hguess : names.ignoreGuessed = false)
    (hhead : input.buffer.head? = some (expectedReply kex))
    (hhost : decodeBytes (input.buffer.drop 1) = .ok (hostKey, r))
    (hkey : P.decodePublicKey hostKey = some key) (hs : decodeBytes r = .ok (s, r'))
    (hsecret : kex.computeSharedSecret P (self.exchange.serverEphemeral ++ s) = .ok kex')
    (hhash : kex'.computeExchangeHash P (encodeBytes key.blob)
      { self.exchange with serverEphemeral := self.exchange.serverEphemeral ++ s } = .ok hash)
    (hsignature : decodeBytes r' = .ok (signature, r''))
    (hdecodes : P.signatureDecodes signature = true) (hverify : P.verify key hash signature = true)
    (hnew : newKeys P .client hash kex' names
      { self.exchange with serverEphemeral := self.exchange.serverEphemeral ++ s }
        self.cause.sessionId = .ok newkeys) (hw : w.compress = .none) :
    ∃ progress w', self.stepDhReply P names kex input w = .ok progress w' := by
  obtain ⟨w', hpacket⟩ := outputPacket_ok (P := P) .newKeys
    (w := w.record (.verified key hash)) hw
  rw [exists_ok_iff]
  simp only [stepDhReply, hguess, hhead, hhost, hkey, hs, hsecret, hhash, hsignature, hdecodes,
    hverify, hnew, Bool.false_eq_true, if_false, if_true, ne_eq, not_true_eq_false,
    Except.mapError, wp_bind, wp_ofExcept, wpExcept_ok, wp_modify]
  exact exists_ok_iff.mp ⟨_, w', hpacket⟩

/-- What the client has read and sent, after its KEXINIT, before it sends its value, and what it
knows then. -/
inductive Ready (self : ClientKex) :
    List Bytes → List Bytes → Exchange → Names → KexAlgorithm → Prop
  | direct {m names kex} : self.Chooses m names kex → kex.skipExchange = false →
      kex.isDhGex = false → Ready self [m] [] (self.withKexInit m) names kex
  | group {m g names kex group hp kex'} : self.Chooses m names kex → kex.isDhGex = true →
      (∃ seqn, readGexGroup ⟨g, seqn⟩ = some group) → kex.dhGexSetGroup group hp = .ok kex' →
      Ready self [m, g] [Msg.kexDhGexRequest :: self.config.gex.encode]
        { self.withKexInit m with gex := some (self.config.gex, group) } names kex'

/-- What the client has read and sent, and where it is. -/
inductive Stage (P : Primitives) (self : ClientKex) :
    List Bytes → KexPhase ClientKex → List Bytes → Prop
  | created : Stage P self [] (.running self) []
  | skipped {m names kex newkeys} : self.Chooses m names kex → kex.skipExchange = true →
      newKeys P .client [] kex names (self.withKexInit m) self.cause.sessionId = .ok newkeys →
      Stage P self [m] (.done none newkeys) [[Msg.newKeys]]
  | requested {m names kex} : self.Chooses m names kex → kex.isDhGex = true →
      Stage P self [m]
        (.running { self with
          exchange := self.withKexInit m, state := .waitingForGexReply names kex })
        [Msg.kexDhGexRequest :: self.config.gex.encode]
  | waiting {ins sent exchange names kex rng kex' e payload} :
      Ready self ins sent exchange names kex →
      kex.clientDh P rng self.exchange.clientEphemeral = .ok (kex', e, payload) →
      Stage P self ins
        (.running { self with
          exchange := { exchange with clientEphemeral := e }
          state := .waitingForDhReply names kex' })
        (sent ++ [payload])
  | accepted {ins sent exchange names kex rng kex' e payload reply key newkeys exchange'} :
      Ready self ins sent exchange names kex →
      kex.clientDh P rng self.exchange.clientEphemeral = .ok (kex', e, payload) →
      Accepts P { exchange with clientEphemeral := e } names kex' self.cause.sessionId reply key
        newkeys →
      Stage P self (ins ++ [reply])
        (.running { self with exchange := exchange', state := .waitingForNewKeys key newkeys })
        (sent ++ [payload] ++ [[Msg.newKeys]])
  | done {ins sent exchange names kex rng kex' e payload reply key newkeys m} :
      Ready self ins sent exchange names kex →
      kex.clientDh P rng self.exchange.clientEphemeral = .ok (kex', e, payload) →
      Accepts P { exchange with clientEphemeral := e } names kex' self.cause.sessionId reply key
        newkeys →
      Stage P self (ins ++ [reply] ++ [m]) (.done (some key) newkeys)
        (sent ++ [payload] ++ [[Msg.newKeys]])

/-- The names come from the first packet. -/
theorem Ready.head {ins sent : List Bytes} {exchange : Exchange}
    (h : Ready self ins sent exchange names kex) :
    ∃ m rest kex₀, ins = m :: rest ∧ self.Chooses m names kex₀ ∧ kex₀.skipExchange = false := by
  cases h with
  | direct hchooses hskip => exact ⟨_, _, _, rfl, hchooses, hskip⟩
  | group hchooses hgex =>
    exact ⟨_, _, _, rfl, hchooses, KexAlgorithm.skipExchange_of_isDhGex hgex⟩

/-- The client's next packet leads from one stage to the next. -/
theorem Stage.take {ins sent out : List Bytes} {s s' : KexPhase ClientKex} {m : Bytes}
    (hcreated : self.state = .created)
    (hguess : ∀ m rest names kex, ins = m :: rest → self.Chooses m names kex →
      names.ignoreGuessed = false)
    (h : Stage P self ins s sent) (htakes : clientTakes P s m s' out) :
    Stage P self (ins ++ [m]) s' (sent ++ out) := by
  obtain ⟨kex, rng, seqn, w, progress, w', hrun, hstep, rfl, hout⟩ := htakes
  have hsent {x : Bytes} (hw : w'.payloads = w.payloads ++ [x]) : out = [x] := by
    rw [hw] at hout
    exact (List.append_cancel_left hout).symm
  cases h with
  | created =>
    cases hrun
    simp only [step, hcreated] at hstep
    obtain ⟨names, kex, hchooses, hrest⟩ := stepCreated_eq_ok hstep
    rcases hrest with ⟨hskip, newkeys, hkeys, rfl, hw⟩ | ⟨-, hgex, rfl, hw⟩ |
      ⟨hskip, hgex, kex', e, payload, hdh, rfl, hw⟩
    · rw [hsent hw]
      exact .skipped hchooses hskip hkeys
    · rw [hsent hw]
      exact .requested hchooses hgex
    · rw [hsent hw]
      exact .waiting (.direct hchooses hskip hgex) hdh
  | skipped => cases hrun
  | requested hchooses hgex =>
    cases hrun
    obtain ⟨group, hp, kex₁, kex', e, payload, hgroup, hset, hdh, rfl, hw⟩ :=
      stepGexReply_eq_ok' hstep
    rw [hsent hw]
    exact .waiting (.group hchooses hgex ⟨_, hgroup⟩ hset) hdh
  | waiting hready hdh =>
    cases hrun
    obtain ⟨m₀, rest, kex₀, hins, hchooses, -⟩ := hready.head
    obtain ⟨key, newkeys, reset, exchange', haccepts, rfl, hw⟩ :=
      stepDhReply_eq_ok (hguess _ _ _ _ hins hchooses) hstep
    rw [hsent hw]
    exact .accepted hready hdh haccepts
  | accepted hready hdh haccepts =>
    cases hrun
    have hstep : stepNewKeys _ _ ⟨m, seqn⟩ w = .ok progress w' := hstep
    unfold stepNewKeys at hstep
    split at hstep
    · exact absurd hstep throw_ne_ok
    · obtain ⟨rfl, rfl⟩ := pure_eq_ok'.mp hstep
      have hnil : out = [] := List.append_right_eq_self.mp hout.symm
      rw [hnil, List.append_nil]
      exact .done hready hdh haccepts
  | done => cases hrun

/-- What the client has done alone, where the first packet that it takes is no guess's. -/
theorem stage_of_run {sent₀ ins sent : List Bytes} {s : KexPhase ClientKex} {offer : Bytes}
    {taken : Nat}
    (hcreated : self.state = .created)
    (hguess : ∀ names kex, self.Chooses offer names kex → names.ignoreGuessed = false)
    (h : LocalRun (clientTakes P) ⟨.running self, sent₀, taken⟩ ins s sent)
    (hins : ∀ m ∈ ins.head?, m = offer) : ∃ out, sent = sent₀ ++ out ∧ Stage P self ins s out := by
  refine h.invariant .created ?_ hins
  intro ins s out m s' out' hhead hstage htakes
  apply hstage.take hcreated ?_ htakes
  rintro m' rest names kex rfl hchooses
  obtain rfl := hhead m' rfl
  exact hguess names kex hchooses

end ClientKex

namespace ServerKex

variable {P : Primitives} {lookup : LookupDhGexGroup} {rng : Entropy} {self : ServerKex}
  {input : IncomingSshPacket} {w w' : PacketWriter} {progress : KexProgress ServerKex}
  {names : Names} {kex : KexAlgorithm}

/-- What the server chooses from the KEXINIT of the client. -/
structure Chooses (server : ServerKex) (m : Bytes) (names : Names) (kex : KexAlgorithm) :
    Prop where
  read : readKex .server m server.config.preferred (some server.config.keys) server.cause =
    .ok names
  make : KexAlgorithm.make names.kex = some kex

/-- The exchange after the KEXINIT of the client. -/
abbrev withKexInit (self : ServerKex) (m : Bytes) : Exchange :=
  { self.exchange with clientKexInit := self.exchange.clientKexInit ++ m }

/-- What a step from `Created` has done. -/
theorem stepCreated_eq_ok (h : self.stepCreated P input w = .ok progress w') :
    ∃ names kex, self.Chooses input.buffer names kex ∧
      ((kex.skipExchange = true ∧ ∃ newkeys,
          newKeys P .server [] kex names (self.withKexInit input.buffer) self.cause.sessionId =
            .ok newkeys ∧ progress = .done none newkeys ∧
          w'.payloads = w.payloads ++ [[Msg.newKeys]]) ∨
        (kex.skipExchange = false ∧ kex.isDhGex = true ∧
          progress = .needsReply { self with
            exchange := self.withKexInit input.buffer
            state := .waitingForGexRequest names kex } false ∧ w' = w) ∨
        (kex.skipExchange = false ∧ kex.isDhGex = false ∧
          progress = .needsReply { self with
            exchange := self.withKexInit input.buffer
            state := .waitingForDhInit names kex } false ∧ w' = w)) := by
  unfold stepCreated at h
  split at h
  · exact absurd h throw_ne_ok
  obtain ⟨names, w₁, hnames, h₁⟩ := bind_eq_ok'.mp h
  obtain ⟨hread, rfl⟩ := ofExcept_eq_ok.mp hnames
  rw [mapError_eq_ok] at hread
  dsimp only at h₁
  split at h₁
  · exact absurd h₁ throw_bind_ne_ok
  cases hmake : KexAlgorithm.make names.kex with
  | none =>
    simp only [hmake] at h₁
    exact absurd h₁ throw_ne_ok
  | some kex =>
    simp only [hmake] at h₁
    refine ⟨names, kex, ⟨hread, hmake⟩, ?_⟩
    cases hskip : kex.skipExchange with
    | true =>
      rw [if_pos hskip] at h₁
      obtain ⟨newkeys, w₂, hkeys, h₂⟩ := bind_eq_ok'.mp h₁
      obtain ⟨hnew, rfl⟩ := ofExcept_eq_ok.mp hkeys
      obtain ⟨_, w₃, hpacket, hdone⟩ := bind_eq_ok'.mp h₂
      obtain ⟨rfl, rfl⟩ := pure_eq_ok'.mp hdone
      exact .inl ⟨rfl, newkeys, hnew, rfl, payloads_outputPacket hpacket (by simp [Message.encode])⟩
    | false =>
      rw [if_neg (by simp [hskip])] at h₁
      cases hgex : kex.isDhGex with
      | true =>
        rw [if_pos hgex] at h₁
        obtain ⟨rfl, rfl⟩ := pure_eq_ok'.mp h₁
        exact .inr (.inl ⟨rfl, rfl, rfl, rfl⟩)
      | false =>
        rw [if_neg (by simp [hgex])] at h₁
        obtain ⟨rfl, rfl⟩ := pure_eq_ok'.mp h₁
        exact .inr (.inr ⟨rfl, rfl, rfl, rfl⟩)

/-- The packet with the group. -/
def groupPacket (group : DhGroup) : Bytes :=
  Msg.kexDhGexGroup :: encodeBytes (biguintToMpint group.prime) ++
    encodeBytes (biguintToMpint group.generator)

/-- What a step from `WaitingForGexRequest` has done. -/
theorem stepGexRequest_eq_ok
    (h : self.stepGexRequest P lookup names kex input w = .ok progress w') :
    ∃ gexParams, ∃ group : NamedGroup, ∃ kex',
      GexParams.decode (input.buffer.drop 1) = .ok gexParams ∧
      kex.dhGexSetGroup group.group group.le_prime = .ok kex' ∧
      progress = .needsReply { self with
        exchange := { self.exchange with gex := some (gexParams, group.group) }
        state := .waitingForDhInit names kex' } false ∧
      w'.payloads = w.payloads ++ [groupPacket group.group] := by
  unfold stepGexRequest at h
  split at h
  · exact absurd h throw_ne_ok
  obtain ⟨gexParams, w₁, hrun₁, h₁⟩ := bind_eq_ok'.mp h
  obtain ⟨hparams, rfl⟩ := ofExcept_eq_ok.mp hrun₁
  rw [mapError_eq_ok] at hparams
  obtain ⟨group?, w₂, hrun₂, h₂⟩ := bind_eq_ok'.mp h₁
  obtain ⟨hgroup, rfl⟩ := ofExcept_eq_ok.mp hrun₂
  cases group? with
  | none => exact absurd h₂ throw_ne_ok
  | some group =>
    obtain ⟨kex', w₃, hrun₃, h₃⟩ := bind_eq_ok'.mp h₂
    obtain ⟨hset, rfl⟩ := ofExcept_eq_ok.mp hrun₃
    obtain ⟨_, w₄, hpacket, hdone⟩ := bind_eq_ok'.mp h₃
    obtain ⟨rfl, rfl⟩ := pure_eq_ok'.mp hdone
    exact ⟨gexParams, group, kex', hparams, hset, rfl,
      payloads_outputPacket hpacket (by simp [Message.encode])⟩

/-- The reply to the value of a client. -/
def replyPacket (kex : KexAlgorithm) (key : PrivateKey) (serverEphemeral signature : Bytes) :
    Bytes :=
  ClientKex.expectedReply kex :: encodeBytes key.publicKey.blob ++ encodeBytes serverEphemeral ++
    encodeBytes signature

/-- What the server makes of the value of the client, and the reply that it sends. -/
structure Answers (P : Primitives) (server : ServerKex) (exchange : Exchange) (names : Names)
    (kex : KexAlgorithm) (init reply : Bytes) (newkeys : NewKeys) (key : PrivateKey)
    (rng : Entropy) : Prop where
  answered : ∃ e r kex' exchange' hash hashAlg signature,
    decodeBytes (init.drop 1) = .ok (e, r) ∧
    kex.serverDh P rng { exchange with clientEphemeral := exchange.clientEphemeral ++ e } init =
      .ok (kex', exchange') ∧
    kex'.computeExchangeHash P (encodeBytes key.publicKey.blob) exchange' = .ok hash ∧
    P.sign key hashAlg hash = .ok signature ∧
    reply = replyPacket kex' key exchange'.serverEphemeral signature ∧
    newKeys P .server hash kex' names exchange' server.cause.sessionId = .ok newkeys
  find : server.config.keys.find? (isKeyCompatibleWithAlgo · names.key) = some key

/-- What a step from `WaitingForDhInit` has done, where no guess is to be ignored. -/
theorem stepDhInit_eq_ok (hguess : names.ignoreGuessed = false)
    (h : self.stepDhInit P rng names kex input w = .ok progress w') :
    ∃ reply newkeys key reset exchange,
      Answers P self self.exchange names kex input.buffer reply newkeys key rng ∧
      progress = .needsReply { self with exchange, state := .waitingForNewKeys newkeys } reset ∧
      w'.payloads = w.payloads ++ [reply, [Msg.newKeys]] := by
  unfold stepDhInit at h
  rw [if_neg (by simp [hguess])] at h
  split at h
  · exact absurd h throw_ne_ok
  obtain ⟨⟨e, r⟩, w₁, hrun₁, h₁⟩ := bind_eq_ok'.mp h
  obtain ⟨he, rfl⟩ := ofExcept_eq_ok.mp hrun₁
  rw [mapError_eq_ok] at he
  obtain ⟨⟨kex', exchange'⟩, w₂, hrun₂, h₂⟩ := bind_eq_ok'.mp h₁
  obtain ⟨hdh, rfl⟩ := ofExcept_eq_ok.mp hrun₂
  dsimp only at h₂
  cases hfind : self.config.keys.find? (isKeyCompatibleWithAlgo · names.key) with
  | none =>
    simp only [hfind] at h₂
    exact absurd h₂ throw_ne_ok
  | some key =>
    simp only [hfind] at h₂
    obtain ⟨hash, w₃, hrun₃, h₃⟩ := bind_eq_ok'.mp h₂
    obtain ⟨hhash, rfl⟩ := ofExcept_eq_ok.mp hrun₃
    obtain ⟨signature, w₄, hrun₄, h₄⟩ := bind_eq_ok'.mp h₃
    obtain ⟨hsign, rfl⟩ := ofExcept_eq_ok.mp hrun₄
    rw [mapError_eq_ok] at hsign
    obtain ⟨_, w₅, hreply, h₅⟩ := bind_eq_ok'.mp h₄
    obtain ⟨_, w₆, hpacket, h₆⟩ := bind_eq_ok'.mp h₅
    obtain ⟨newkeys, w₇, hrun₇, hdone⟩ := bind_eq_ok'.mp h₆
    obtain ⟨hkeys, rfl⟩ := ofExcept_eq_ok.mp hrun₇
    obtain ⟨rfl, rfl⟩ := pure_eq_ok'.mp hdone
    refine ⟨_, newkeys, key, _, _, ⟨⟨e, r, kex', exchange', hash, _, signature, he, hdh, hhash,
      hsign, rfl, hkeys⟩, hfind⟩, rfl, ?_⟩
    rw [payloads_outputPacket hpacket (by simp [Message.encode]),
      payloads_outputPacket hreply (by simp [Message.encode]), List.append_assoc]
    rfl

/-- What the server has read and sent, after its KEXINIT, before it waits for the value of the
client, and what it knows then. -/
inductive Ready (self : ServerKex) :
    List Bytes → List Bytes → Exchange → Names → KexAlgorithm → Prop
  | direct {m names kex} : self.Chooses m names kex → kex.skipExchange = false →
      kex.isDhGex = false → Ready self [m] [] (self.withKexInit m) names kex
  | group {m q names kex gexParams kex'} {group : NamedGroup} : self.Chooses m names kex →
      kex.isDhGex = true → GexParams.decode (q.drop 1) = .ok gexParams →
      kex.dhGexSetGroup group.group group.le_prime = .ok kex' →
      Ready self [m, q] [groupPacket group.group]
        { self.withKexInit m with gex := some (gexParams, group.group) } names kex'

/-- What the server has read and sent, and where it is. -/
inductive Stage (P : Primitives) (self : ServerKex) :
    List Bytes → KexPhase ServerKex → List Bytes → Prop
  | created : Stage P self [] (.running self) []
  | skipped {m names kex newkeys} : self.Chooses m names kex → kex.skipExchange = true →
      newKeys P .server [] kex names (self.withKexInit m) self.cause.sessionId = .ok newkeys →
      Stage P self [m] (.done none newkeys) [[Msg.newKeys]]
  | requested {m names kex} : self.Chooses m names kex → kex.isDhGex = true →
      Stage P self [m]
        (.running { self with
          exchange := self.withKexInit m, state := .waitingForGexRequest names kex }) []
  | waiting {ins sent exchange names kex} : Ready self ins sent exchange names kex →
      Stage P self ins
        (.running { self with exchange, state := .waitingForDhInit names kex }) sent
  | answered {ins sent exchange names kex rng init reply newkeys key exchange'} :
      Ready self ins sent exchange names kex →
      Answers P self exchange names kex init reply newkeys key rng →
      Stage P self (ins ++ [init])
        (.running { self with exchange := exchange', state := .waitingForNewKeys newkeys })
        (sent ++ [reply, [Msg.newKeys]])
  | done {ins sent exchange names kex rng init reply newkeys key m} :
      Ready self ins sent exchange names kex →
      Answers P self exchange names kex init reply newkeys key rng →
      Stage P self (ins ++ [init] ++ [m]) (.done none newkeys) (sent ++ [reply, [Msg.newKeys]])

theorem Ready.head {ins sent : List Bytes} {exchange : Exchange}
    (h : Ready self ins sent exchange names kex) :
    ∃ m rest kex₀, ins = m :: rest ∧ self.Chooses m names kex₀ ∧ kex₀.skipExchange = false := by
  cases h with
  | direct hchooses hskip => exact ⟨_, _, _, rfl, hchooses, hskip⟩
  | group hchooses hgex =>
    exact ⟨_, _, _, rfl, hchooses, KexAlgorithm.skipExchange_of_isDhGex hgex⟩

/-- The server's next packet leads from one stage to the next. -/
theorem Stage.take {ins sent out : List Bytes} {s s' : KexPhase ServerKex} {m : Bytes}
    (hcreated : self.state = .created)
    (hguess : ∀ m rest names kex, ins = m :: rest → self.Chooses m names kex →
      names.ignoreGuessed = false)
    (h : Stage P self ins s sent) (htakes : serverTakes P lookup s m s' out) :
    Stage P self (ins ++ [m]) s' (sent ++ out) := by
  obtain ⟨kex, rng, seqn, w, progress, w', hrun, hstep, rfl, hout⟩ := htakes
  have hsent {x : List Bytes} (hw : w'.payloads = w.payloads ++ x) : out = x := by
    rw [hw] at hout
    exact (List.append_cancel_left hout).symm
  have hnone (hw : w' = w) : out = [] := by
    apply hsent
    rw [hw, List.append_nil]
  cases h with
  | created =>
    cases hrun
    simp only [step, hcreated] at hstep
    obtain ⟨names, kex, hchooses, hrest⟩ := stepCreated_eq_ok hstep
    rcases hrest with ⟨hskip, newkeys, hkeys, rfl, hw⟩ | ⟨-, hgex, rfl, hw⟩ | ⟨hskip, hgex, rfl, hw⟩
    · rw [hsent hw]
      exact .skipped hchooses hskip hkeys
    · rw [hnone hw]
      exact .requested hchooses hgex
    · rw [hnone hw]
      exact .waiting (.direct hchooses hskip hgex)
  | skipped => cases hrun
  | requested hchooses hgex =>
    cases hrun
    obtain ⟨gexParams, group, kex', hparams, hset, rfl, hw⟩ := stepGexRequest_eq_ok hstep
    rw [hsent hw]
    exact .waiting (.group hchooses hgex hparams hset)
  | waiting hready =>
    cases hrun
    obtain ⟨m₀, rest, kex₀, hins, hchooses, -⟩ := hready.head
    obtain ⟨reply, newkeys, key, reset, exchange', hanswers, rfl, hw⟩ :=
      stepDhInit_eq_ok (hguess _ _ _ _ hins hchooses) hstep
    rw [hsent hw]
    exact .answered hready ⟨hanswers.answered, hanswers.find⟩
  | answered hready hanswers =>
    cases hrun
    have hstep : stepNewKeys _ ⟨m, seqn⟩ w = .ok progress w' := hstep
    unfold stepNewKeys at hstep
    split at hstep
    · exact absurd hstep throw_ne_ok
    · obtain ⟨rfl, rfl⟩ := pure_eq_ok'.mp hstep
      rw [hnone rfl, List.append_nil]
      exact .done hready hanswers
  | done => cases hrun

theorem stage_of_run {sent₀ ins sent : List Bytes} {s : KexPhase ServerKex} {offer : Bytes}
    {taken : Nat}
    (hcreated : self.state = .created)
    (hguess : ∀ names kex, self.Chooses offer names kex → names.ignoreGuessed = false)
    (h : LocalRun (serverTakes P lookup) ⟨.running self, sent₀, taken⟩ ins s sent)
    (hins : ∀ m ∈ ins.head?, m = offer) : ∃ out, sent = sent₀ ++ out ∧ Stage P self ins s out := by
  refine h.invariant .created ?_ hins
  intro ins s out m s' out' hhead hstage htakes
  apply hstage.take hcreated ?_ htakes
  rintro m' rest names kex rfl hchooses
  obtain rfl := hhead m' rfl
  exact hguess names kex hchooses

end ServerKex

end Edgessh.Russh
