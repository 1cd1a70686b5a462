import Edgessh.Russh.Kex.Client
import Edgessh.Russh.Kex.Server

/-!
# The steps of the two key exchanges

What a step of `ClientKex` or `ServerKex` may do, by the state in which it is.
-/

namespace Edgessh.Russh
open Edgessh.Command

/-- The machine waits for the server's part of an exchange with these names. -/
def ClientKexState.Awaits (names : Names) : ClientKexState → Prop
  | .waitingForGexReply n _ => n = names
  | .waitingForDhReply n _ => n = names
  | _ => False

/-- The host key in a reply of the server. -/
def replyHostKey (P : Primitives) (buffer : Bytes) : Option PublicKey :=
  match decodeBytes (buffer.drop 1) with
  | .ok (hostKey, _) => P.decodePublicKey hostKey
  | .error _ => none

namespace ClientKex

/-- What a step does that returns: the packet that it takes, and what it leaves behind. -/
inductive Advance (P : Primitives) (kex : ClientKex) (input : IncomingSshPacket)
    (w : PacketWriter) : KexProgress ClientKex → PacketWriter → Prop
  /-- An exchange without keys is over at once. -/
  | skip {names newkeys w'} : kex.state = .created → input.buffer.head? = some Msg.kexInit →
      readKex .client input.buffer kex.config.preferred none kex.cause = .ok names →
      names.kex = .none → newkeys.names = names →
      w.packetRaw P .newKeys = .ok w' → Advance P kex input w (.done none newkeys) w'
  | ask {names kex' payload w'} : kex.state = .created →
      input.buffer.head? = some Msg.kexInit →
      readKex .client input.buffer kex.config.preferred none kex.cause = .ok names →
      (names.strictKex = true → kex.cause.isRekey = false → input.seqn = 1) →
      kex'.state.Awaits names → kex'.cause = kex.cause → kex'.config = kex.config →
      w.packetRaw P (.kex payload) = .ok w' →
      Advance P kex input w (.needsReply kex' false) w'
  | group {names algorithm kex' algorithm' payload w'} :
      kex.state = .waitingForGexReply names algorithm →
      input.buffer.head? = some Msg.kexDhGexGroup →
      kex'.state = .waitingForDhReply names algorithm' → kex'.cause = kex.cause →
      kex'.config = kex.config → w.packetRaw P (.kex payload) = .ok w' →
      Advance P kex input w (.needsReply kex' false) w'
  /-- A packet that the server has guessed wrongly. -/
  | guessed {names algorithm kex'} : kex.state = .waitingForDhReply names algorithm →
      names.ignoreGuessed = true →
      kex' = { kex with
        state := .waitingForDhReply { names with ignoreGuessed := false } algorithm } →
      Advance P kex input w (.needsReply kex' false) w
  | reply {names algorithm key hash newkeys kex' w'} :
      kex.state = .waitingForDhReply names algorithm → names.ignoreGuessed = false →
      input.buffer.head? = some (expectedReply algorithm) →
      replyHostKey P input.buffer = some key → (∃ signature, P.verify key hash signature = true) →
      kex'.state = .waitingForNewKeys key newkeys → kex'.cause = kex.cause →
      kex'.config = kex.config → newkeys.names = names →
      newkeys.sessionId = kex.cause.sessionId.getD hash →
      (w.record (.verified key hash)).packetRaw P .newKeys = .ok w' →
      Advance P kex input w
        (.needsReply kex' (names.strictKex || kex.cause.isStrictRekey)) w'
  | finish {key newkeys} : kex.state = .waitingForNewKeys key newkeys →
      input.buffer.head? = some Msg.newKeys →
      Advance P kex input w (.done (some key) newkeys) w

variable {P : Primitives} {rng : Entropy} {kex : ClientKex} {input : IncomingSshPacket}
  {w w' : PacketWriter} {progress : KexProgress ClientKex}

theorem stepCreated_advance (hst : kex.state = .created)
    (h : kex.stepCreated P rng input w = .ok progress w') :
    kex.Advance P input w progress w' := by
  unfold stepCreated at h
  split at h
  · exact absurd h throw_ne_ok
  rename_i hb
  have hb : input.buffer.head? = some Msg.kexInit := by simpa using hb
  obtain ⟨names, w₁, hnames, h₁⟩ := bind_eq_ok'.mp h
  obtain ⟨hread, rfl⟩ := ofExcept_eq_ok.mp hnames
  rw [mapError_eq_ok] at hread
  dsimp only at h₁
  split at h₁
  · exact absurd h₁ throw_bind_ne_ok
  rename_i hstrict
  have hseqn : names.strictKex = true → kex.cause.isRekey = false → input.seqn = 1 := by
    intro hs hr
    simpa [hs, hr] using hstrict
  cases hmake : KexAlgorithm.make names.kex with
  | none =>
    simp only [hmake] at h₁
    exact absurd h₁ throw_ne_ok
  | some algorithm =>
    simp only [hmake] at h₁
    split at h₁
    · rename_i hskip
      obtain ⟨newkeys, w₂, hkeys, h₂⟩ := bind_eq_ok'.mp h₁
      obtain ⟨hnew, rfl⟩ := ofExcept_eq_ok.mp hkeys
      obtain ⟨_, w₃, hpacket, hdone⟩ := bind_eq_ok'.mp h₂
      obtain ⟨rfl, rfl⟩ := pure_eq_ok'.mp hdone
      exact .skip hst hb hread (KexAlgorithm.make_skipExchange hmake hskip)
        (newKeys_eq_ok hnew).1 (outputPacket_eq_ok hpacket)
    · split at h₁
      · obtain ⟨payload, w₂, hpay, h₂⟩ := bind_eq_ok'.mp h₁
        obtain ⟨-, rfl⟩ := ofExcept_eq_ok.mp hpay
        obtain ⟨_, w₃, hpacket, hdone⟩ := bind_eq_ok'.mp h₂
        obtain ⟨rfl, rfl⟩ := pure_eq_ok'.mp hdone
        exact .ask hst hb hread hseqn rfl rfl rfl (outputPacket_eq_ok hpacket)
      · obtain ⟨⟨algorithm', ephemeral, payload⟩, w₂, hdh, h₂⟩ := bind_eq_ok'.mp h₁
        obtain ⟨-, rfl⟩ := ofExcept_eq_ok.mp hdh
        obtain ⟨_, w₃, hpacket, hdone⟩ := bind_eq_ok'.mp h₂
        obtain ⟨rfl, rfl⟩ := pure_eq_ok'.mp hdone
        exact .ask hst hb hread hseqn rfl rfl rfl (outputPacket_eq_ok hpacket)

theorem stepGexReply_advance {names : Names} {algorithm : KexAlgorithm}
    (hst : kex.state = .waitingForGexReply names algorithm)
    (h : kex.stepGexReply P rng names algorithm input w = .ok progress w') :
    kex.Advance P input w progress w' := by
  unfold stepGexReply at h
  split at h
  · exact absurd h throw_ne_ok
  rename_i hb
  have hb : input.buffer.head? = some Msg.kexDhGexGroup := by simpa using hb
  obtain ⟨⟨prime, r⟩, w₁, hprime, h₁⟩ := bind_eq_ok'.mp h
  obtain ⟨-, rfl⟩ := ofExcept_eq_ok.mp hprime
  obtain ⟨⟨generator, r'⟩, w₂, hgen, h₂⟩ := bind_eq_ok'.mp h₁
  obtain ⟨-, rfl⟩ := ofExcept_eq_ok.mp hgen
  dsimp only at h₂
  split at h₂
  · exact absurd h₂ throw_ne_ok
  · obtain ⟨algorithm', w₃, hset, h₃⟩ := bind_eq_ok'.mp h₂
    obtain ⟨-, rfl⟩ := ofExcept_eq_ok.mp hset
    obtain ⟨⟨algorithm'', ephemeral, payload⟩, w₄, hdh, h₄⟩ := bind_eq_ok'.mp h₃
    obtain ⟨-, rfl⟩ := ofExcept_eq_ok.mp hdh
    obtain ⟨_, w₅, hpacket, hdone⟩ := bind_eq_ok'.mp h₄
    obtain ⟨rfl, rfl⟩ := pure_eq_ok'.mp hdone
    exact .group hst hb rfl rfl rfl (outputPacket_eq_ok hpacket)

theorem stepDhReply_advance {names : Names} {algorithm : KexAlgorithm}
    (hst : kex.state = .waitingForDhReply names algorithm)
    (h : kex.stepDhReply P names algorithm input w = .ok progress w') :
    kex.Advance P input w progress w' := by
  unfold stepDhReply at h
  split at h
  · rename_i hguess
    obtain ⟨rfl, rfl⟩ := pure_eq_ok'.mp h
    exact .guessed hst hguess rfl
  rename_i hguess
  split at h
  · exact absurd h throw_ne_ok
  rename_i hb
  have hb : input.buffer.head? = some (expectedReply algorithm) := by simpa using hb
  obtain ⟨⟨hostKey, r⟩, w₁, hkey, h₁⟩ := bind_eq_ok'.mp h
  obtain ⟨hbytes, rfl⟩ := ofExcept_eq_ok.mp hkey
  rw [mapError_eq_ok] at hbytes
  dsimp only at h₁
  cases hdec : P.decodePublicKey hostKey with
  | none =>
    simp only [hdec] at h₁
    exact absurd h₁ throw_ne_ok
  | some serverHostKey =>
    simp only [hdec] at h₁
    obtain ⟨⟨ephemeral, r'⟩, w₂, heph, h₂⟩ := bind_eq_ok'.mp h₁
    obtain ⟨-, rfl⟩ := ofExcept_eq_ok.mp heph
    obtain ⟨algorithm', w₃, hsec, h₃⟩ := bind_eq_ok'.mp h₂
    obtain ⟨-, rfl⟩ := ofExcept_eq_ok.mp hsec
    obtain ⟨hash, w₄, hhash, h₄⟩ := bind_eq_ok'.mp h₃
    obtain ⟨-, rfl⟩ := ofExcept_eq_ok.mp hhash
    obtain ⟨⟨signature, r''⟩, w₅, hsig, h₅⟩ := bind_eq_ok'.mp h₄
    obtain ⟨-, rfl⟩ := ofExcept_eq_ok.mp hsig
    dsimp only at h₅
    split at h₅
    · split at h₅
      · rename_i hverify
        obtain ⟨_, w₆, hrecord, h₆⟩ := bind_eq_ok'.mp h₅
        cases hrecord
        obtain ⟨newkeys, w₇, hkeys, h₇⟩ := bind_eq_ok'.mp h₆
        obtain ⟨hnew, rfl⟩ := ofExcept_eq_ok.mp hkeys
        obtain ⟨_, w₈, hpacket, hdone⟩ := bind_eq_ok'.mp h₇
        obtain ⟨rfl, rfl⟩ := pure_eq_ok'.mp hdone
        obtain ⟨hnames, hsession, -⟩ := newKeys_eq_ok hnew
        have hreply : replyHostKey P input.buffer = some serverHostKey := by
          simp only [replyHostKey, hbytes, hdec]
        rw [hnames]
        exact .reply hst (by simpa using hguess) hb hreply ⟨signature, hverify⟩ rfl rfl rfl hnames hsession
          (outputPacket_eq_ok hpacket)
      · exact absurd h₅ throw_bind_ne_ok
    · exact absurd h₅ throw_bind_ne_ok

theorem stepNewKeys_advance {key : PublicKey} {newkeys : NewKeys}
    (hst : kex.state = .waitingForNewKeys key newkeys)
    (h : stepNewKeys key newkeys input w = .ok progress w') :
    kex.Advance P input w progress w' := by
  unfold stepNewKeys at h
  split at h
  · exact absurd h throw_ne_ok
  · rename_i hb
    obtain ⟨rfl, rfl⟩ := pure_eq_ok'.mp h
    exact .finish hst (by simpa using hb)

theorem step_advance (h : kex.step P rng (some input) w = .ok progress w') :
    kex.Advance P input w progress w' := by
  cases hst : kex.state <;> simp only [step, hst] at h
  case created => exact stepCreated_advance hst h
  case waitingForGexReply => exact stepGexReply_advance hst h
  case waitingForDhReply => exact stepDhReply_advance hst h
  case waitingForNewKeys => exact stepNewKeys_advance hst h

end ClientKex

/-- What a step of a machine leaves in the list of events. -/
def Event.isKex : Event → Bool
  | .packet s => s.message.isKex
  | .verified _ _ => true
  | _ => false

/-- The machines only write packets of the exchange, under the key that is in use. -/
structure KexWrites (w w' : PacketWriter) : Prop where
  events : ∃ new, w'.events = w.events ++ new ∧ ∀ e ∈ new, e.isKex = true
  cipher : w'.cipher = w.cipher
  epoch : w'.epoch = w.epoch

namespace KexWrites

variable {P : Primitives} {w w' w'' : PacketWriter}

theorem refl (w : PacketWriter) : KexWrites w w := ⟨⟨[], by simp, by simp⟩, rfl, rfl⟩

theorem trans (h : KexWrites w w') (h' : KexWrites w' w'') : KexWrites w w'' := by
  obtain ⟨new, hev, hk⟩ := h.events
  obtain ⟨new', hev', hk'⟩ := h'.events
  refine ⟨⟨new ++ new', by rw [hev', hev, List.append_assoc], fun e he => ?_⟩,
    h'.cipher.trans h.cipher, h'.epoch.trans h.epoch⟩
  exact (List.mem_append.mp he).elim (hk e) (hk' e)

theorem packetRaw {m : Message} (hm : m.isKex = true) (h : w.packetRaw P m = .ok w') :
    KexWrites w w' := by
  obtain ⟨hc, hep, ⟨-, rfl⟩ | ⟨-, -, hev⟩⟩ := packetRaw_eq_ok h
  · exact refl _
  · exact ⟨⟨_, hev, by simp [Event.isKex, hm]⟩, hc, hep⟩

end KexWrites

section Writes

variable {P : Primitives} {rng : Entropy} {α β : Type}

theorem kexWrites_output {m : Message} (hm : m.isKex = true) :
    Steps KexWrites (outputPacket P m) := by
  intro w
  unfold wp
  split
  · rename_i hok
    exact .packetRaw hm (outputPacket_eq_ok hok)
  · rename_i herr
    rw [outputPacket_error herr]
    exact .refl w

theorem kexWrites_ofExcept (x : Except Exn α) : Steps KexWrites (ofExcept x : WriterM α) := by
  intro w
  rw [wp_ofExcept]
  exact wpExcept_iff.mpr ⟨fun _ _ => .refl w, fun _ _ => .refl w⟩

theorem kexWrites_bind {m : WriterM α} {f : α → WriterM β} (hm : Steps KexWrites m)
    (hf : ∀ a, Steps KexWrites (f a)) : Steps KexWrites (m >>= f) :=
  steps_bind (R := KexWrites) (fun _ _ _ => KexWrites.trans) hm hf

theorem kexWrites_pure (a : α) : Steps KexWrites (pure a : WriterM α) := steps_pure .refl a

theorem kexWrites_throw (e : Exn) : Steps KexWrites (throw e : WriterM α) := steps_throw .refl e

theorem kexWrites_throw_bind (e : Exn) (f : α → WriterM β) :
    Steps KexWrites (throw e >>= f : WriterM β) := by
  intro w
  rw [wp_bind, wp_throw]
  exact .refl w

end Writes

namespace ClientKex

variable {P : Primitives} {rng : Entropy}

theorem stepCreated_writes (kex : ClientKex) (input : IncomingSshPacket) :
    Steps KexWrites (kex.stepCreated P rng input) := by
  unfold stepCreated
  split
  · exact kexWrites_throw _
  · refine kexWrites_bind (kexWrites_ofExcept _) fun names => ?_
    dsimp only
    split
    · exact kexWrites_throw _
    · split
      · split
        · refine kexWrites_bind (kexWrites_ofExcept _) fun newkeys => ?_
          exact kexWrites_bind (kexWrites_output rfl) fun _ => kexWrites_pure _
        · split
          · refine kexWrites_bind (kexWrites_ofExcept _) fun payload => ?_
            exact kexWrites_bind (kexWrites_output rfl) fun _ => kexWrites_pure _
          · refine kexWrites_bind (kexWrites_ofExcept _) fun payload => ?_
            exact kexWrites_bind (kexWrites_output rfl) fun _ => kexWrites_pure _
      · exact kexWrites_throw _

theorem stepGexReply_writes (kex : ClientKex) (names : Names) (algorithm : KexAlgorithm)
    (input : IncomingSshPacket) :
    Steps KexWrites (kex.stepGexReply P rng names algorithm input) := by
  unfold stepGexReply
  split
  · exact kexWrites_throw _
  · refine kexWrites_bind (kexWrites_ofExcept _) fun prime => ?_
    refine kexWrites_bind (kexWrites_ofExcept _) fun generator => ?_
    dsimp only
    split
    · exact kexWrites_throw _
    · refine kexWrites_bind (kexWrites_ofExcept _) fun algorithm' => ?_
      refine kexWrites_bind (kexWrites_ofExcept _) fun ephemeral => ?_
      exact kexWrites_bind (kexWrites_output rfl) fun _ => kexWrites_pure _

theorem stepDhReply_writes (kex : ClientKex) (names : Names) (algorithm : KexAlgorithm)
    (input : IncomingSshPacket) : Steps KexWrites (kex.stepDhReply P names algorithm input) := by
  unfold stepDhReply
  split
  · exact kexWrites_pure _
  split
  · exact kexWrites_throw _
  refine kexWrites_bind (kexWrites_ofExcept _) fun hostKey => ?_
  dsimp only
  split
  · refine kexWrites_bind (kexWrites_ofExcept _) fun ephemeral => ?_
    refine kexWrites_bind (kexWrites_ofExcept _) fun algorithm' => ?_
    refine kexWrites_bind (kexWrites_ofExcept _) fun hash => ?_
    refine kexWrites_bind (kexWrites_ofExcept _) fun signature => ?_
    split
    · split
      · refine kexWrites_bind (fun w => ?_) fun _ => ?_
        · exact ⟨⟨_, rfl, by simp [Event.isKex]⟩, rfl, rfl⟩
        · refine kexWrites_bind (kexWrites_ofExcept _) fun newkeys => ?_
          exact kexWrites_bind (kexWrites_output rfl) fun _ => kexWrites_pure _
      · exact kexWrites_throw _
    · exact kexWrites_throw _
  · exact kexWrites_throw _

/-- Whichever way a step ends. -/
theorem step_writes (kex : ClientKex) (input : Option IncomingSshPacket) :
    Steps KexWrites (kex.step P rng input) := by
  cases input with
  | none => exact kexWrites_throw _
  | some input =>
    cases hst : kex.state <;> simp only [step, hst]
    case created => exact stepCreated_writes kex input
    case waitingForGexReply names algorithm => exact stepGexReply_writes kex names algorithm input
    case waitingForDhReply names algorithm => exact stepDhReply_writes kex names algorithm input
    case waitingForNewKeys key newkeys =>
      unfold stepNewKeys
      split
      · exact kexWrites_throw _
      · exact kexWrites_pure _

end ClientKex

/-- The machine waits for the client's part of an exchange with these names. -/
def ServerKexState.Awaits (names : Names) : ServerKexState → Prop
  | .waitingForGexRequest n _ => n = names
  | .waitingForDhInit n _ => n = names
  | _ => False

namespace ServerKex

/-- What a step does that returns: the packet that it takes, and what it leaves behind. -/
inductive Advance (P : Primitives) (kex : ServerKex) (input : IncomingSshPacket)
    (w : PacketWriter) : KexProgress ServerKex → PacketWriter → Prop
  /-- An exchange without keys is over at once. -/
  | skip {names newkeys w'} : kex.state = .created → input.buffer.head? = some Msg.kexInit →
      readKex .server input.buffer kex.config.preferred (some kex.config.keys) kex.cause =
        .ok names → names.kex = .none → newkeys.names = names →
      w.packetRaw P .newKeys = .ok w' → Advance P kex input w (.done none newkeys) w'
  | ask {names kex'} : kex.state = .created → input.buffer.head? = some Msg.kexInit →
      readKex .server input.buffer kex.config.preferred (some kex.config.keys) kex.cause =
        .ok names →
      (names.strictKex = true → kex.cause.isRekey = false → input.seqn = 1) →
      kex'.state.Awaits names → kex'.cause = kex.cause → kex'.config = kex.config →
      Advance P kex input w (.needsReply kex' false) w
  | group {names algorithm kex' algorithm' payload w'} :
      kex.state = .waitingForGexRequest names algorithm →
      input.buffer.head? = some Msg.kexDhGexRequest →
      kex'.state = .waitingForDhInit names algorithm' → kex'.cause = kex.cause →
      kex'.config = kex.config → w.packetRaw P (.kex payload) = .ok w' →
      Advance P kex input w (.needsReply kex' false) w'
  /-- A packet that the client has guessed wrongly. -/
  | guessed {names algorithm kex'} : kex.state = .waitingForDhInit names algorithm →
      names.ignoreGuessed = true →
      kex' = { kex with
        state := .waitingForDhInit { names with ignoreGuessed := false } algorithm } →
      Advance P kex input w (.needsReply kex' false) w
  | reply {names algorithm hash newkeys kex' payload w₁ w'} :
      kex.state = .waitingForDhInit names algorithm → names.ignoreGuessed = false →
      input.buffer.head? = some (expectedInit algorithm) →
      kex'.state = .waitingForNewKeys newkeys → kex'.cause = kex.cause →
      kex'.config = kex.config → newkeys.names = names →
      newkeys.sessionId = kex.cause.sessionId.getD hash →
      w.packetRaw P (.kex payload) = .ok w₁ → w₁.packetRaw P .newKeys = .ok w' →
      Advance P kex input w
        (.needsReply kex' (names.strictKex || kex.cause.isStrictRekey)) w'
  | finish {newkeys} : kex.state = .waitingForNewKeys newkeys →
      input.buffer.head? = some Msg.newKeys → Advance P kex input w (.done none newkeys) w

variable {P : Primitives} {lookup : LookupDhGexGroup} {rng : Entropy} {kex : ServerKex}
  {input : IncomingSshPacket} {w w' : PacketWriter} {progress : KexProgress ServerKex}

theorem stepCreated_advance (hst : kex.state = .created)
    (h : kex.stepCreated P input w = .ok progress w') : kex.Advance P input w progress w' := by
  unfold stepCreated at h
  split at h
  · exact absurd h throw_ne_ok
  rename_i hb
  have hb : input.buffer.head? = some Msg.kexInit := by simpa using hb
  obtain ⟨names, w₁, hnames, h₁⟩ := bind_eq_ok'.mp h
  obtain ⟨hread, rfl⟩ := ofExcept_eq_ok.mp hnames
  rw [mapError_eq_ok] at hread
  dsimp only at h₁
  split at h₁
  · exact absurd h₁ throw_bind_ne_ok
  rename_i hstrict
  have hseqn : names.strictKex = true → kex.cause.isRekey = false → input.seqn = 1 := by
    intro hs hr
    simpa [hs, hr] using hstrict
  cases hmake : KexAlgorithm.make names.kex with
  | none =>
    simp only [hmake] at h₁
    exact absurd h₁ throw_ne_ok
  | some algorithm =>
    simp only [hmake] at h₁
    split at h₁
    · rename_i hskip
      obtain ⟨newkeys, w₂, hkeys, h₂⟩ := bind_eq_ok'.mp h₁
      obtain ⟨hnew, rfl⟩ := ofExcept_eq_ok.mp hkeys
      obtain ⟨_, w₃, hpacket, hdone⟩ := bind_eq_ok'.mp h₂
      obtain ⟨rfl, rfl⟩ := pure_eq_ok'.mp hdone
      exact .skip hst hb hread (KexAlgorithm.make_skipExchange hmake hskip)
        (newKeys_eq_ok hnew).1 (outputPacket_eq_ok hpacket)
    · split at h₁
      · obtain ⟨rfl, rfl⟩ := pure_eq_ok'.mp h₁
        exact .ask hst hb hread hseqn rfl rfl rfl
      · obtain ⟨rfl, rfl⟩ := pure_eq_ok'.mp h₁
        exact .ask hst hb hread hseqn rfl rfl rfl

theorem stepGexRequest_advance {names : Names} {algorithm : KexAlgorithm}
    (hst : kex.state = .waitingForGexRequest names algorithm)
    (h : kex.stepGexRequest P lookup names algorithm input w = .ok progress w') :
    kex.Advance P input w progress w' := by
  unfold stepGexRequest at h
  split at h
  · exact absurd h throw_ne_ok
  rename_i hb
  have hb : input.buffer.head? = some Msg.kexDhGexRequest := by simpa using hb
  obtain ⟨gexParams, w₁, hgex, h₁⟩ := bind_eq_ok'.mp h
  obtain ⟨-, rfl⟩ := ofExcept_eq_ok.mp hgex
  obtain ⟨dhGroup, w₂, hlookup, h₂⟩ := bind_eq_ok'.mp h₁
  obtain ⟨-, rfl⟩ := ofExcept_eq_ok.mp hlookup
  cases dhGroup with
  | none => exact absurd h₂ throw_ne_ok
  | some dhGroup =>
    obtain ⟨algorithm', w₃, hset, h₃⟩ := bind_eq_ok'.mp h₂
    obtain ⟨-, rfl⟩ := ofExcept_eq_ok.mp hset
    obtain ⟨_, w₄, hpacket, hdone⟩ := bind_eq_ok'.mp h₃
    obtain ⟨rfl, rfl⟩ := pure_eq_ok'.mp hdone
    exact .group hst hb rfl rfl rfl (outputPacket_eq_ok hpacket)

theorem stepDhInit_advance {names : Names} {algorithm : KexAlgorithm}
    (hst : kex.state = .waitingForDhInit names algorithm)
    (h : kex.stepDhInit P rng names algorithm input w = .ok progress w') :
    kex.Advance P input w progress w' := by
  unfold stepDhInit at h
  by_cases hguess : names.ignoreGuessed = true
  · rw [if_pos hguess] at h
    obtain ⟨rfl, rfl⟩ := pure_eq_ok'.mp h
    exact .guessed hst hguess rfl
  rw [if_neg hguess] at h
  dsimp only at h
  by_cases hb : input.buffer.head? = some (expectedInit algorithm)
  swap
  · rw [if_pos hb] at h
    exact absurd h throw_bind_ne_ok
  rw [if_neg (not_not_intro hb)] at h
  obtain ⟨⟨ephemeral, r⟩, w₁, heph, h₁⟩ := bind_eq_ok'.mp h
  obtain ⟨-, rfl⟩ := ofExcept_eq_ok.mp heph
  obtain ⟨⟨algorithm', exchange⟩, w₂, hdh, h₂⟩ := bind_eq_ok'.mp h₁
  obtain ⟨-, rfl⟩ := ofExcept_eq_ok.mp hdh
  dsimp only at h₂
  cases hkey : kex.config.keys.find? fun key => isKeyCompatibleWithAlgo key names.key with
  | none =>
    simp only [hkey] at h₂
    exact absurd h₂ throw_ne_ok
  | some key =>
    simp only [hkey] at h₂
    obtain ⟨hash, w₃, hhash, h₃⟩ := bind_eq_ok'.mp h₂
    obtain ⟨-, rfl⟩ := ofExcept_eq_ok.mp hhash
    obtain ⟨signature, w₄, hsign, h₄⟩ := bind_eq_ok'.mp h₃
    obtain ⟨-, rfl⟩ := ofExcept_eq_ok.mp hsign
    obtain ⟨_, w₅, hreply, h₅⟩ := bind_eq_ok'.mp h₄
    obtain ⟨_, w₆, hpacket, h₆⟩ := bind_eq_ok'.mp h₅
    obtain ⟨newkeys, w₇, hkeys, hdone⟩ := bind_eq_ok'.mp h₆
    obtain ⟨hnew, rfl⟩ := ofExcept_eq_ok.mp hkeys
    obtain ⟨rfl, rfl⟩ := pure_eq_ok'.mp hdone
    obtain ⟨hnames, hsession, -⟩ := newKeys_eq_ok hnew
    rw [hnames]
    exact .reply hst (by simpa using hguess) hb rfl rfl rfl hnames hsession
      (outputPacket_eq_ok hreply) (outputPacket_eq_ok hpacket)

theorem stepNewKeys_advance {newkeys : NewKeys} (hst : kex.state = .waitingForNewKeys newkeys)
    (h : stepNewKeys newkeys input w = .ok progress w') : kex.Advance P input w progress w' := by
  unfold stepNewKeys at h
  split at h
  · exact absurd h throw_ne_ok
  · rename_i hb
    obtain ⟨rfl, rfl⟩ := pure_eq_ok'.mp h
    exact .finish hst (by simpa using hb)

theorem step_advance (h : kex.step P lookup rng (some input) w = .ok progress w') :
    kex.Advance P input w progress w' := by
  cases hst : kex.state <;> simp only [step, hst] at h
  case created => exact stepCreated_advance hst h
  case waitingForGexRequest => exact stepGexRequest_advance hst h
  case waitingForDhInit => exact stepDhInit_advance hst h
  case waitingForNewKeys => exact stepNewKeys_advance hst h

theorem stepCreated_writes (kex : ServerKex) (input : IncomingSshPacket) :
    Steps KexWrites (kex.stepCreated P input) := by
  unfold stepCreated
  split
  · exact kexWrites_throw _
  · refine kexWrites_bind (kexWrites_ofExcept _) fun names => ?_
    dsimp only
    split
    · exact kexWrites_throw _
    · split
      · split
        · refine kexWrites_bind (kexWrites_ofExcept _) fun newkeys => ?_
          exact kexWrites_bind (kexWrites_output rfl) fun _ => kexWrites_pure _
        · split <;> exact kexWrites_pure _
      · exact kexWrites_throw _

theorem stepGexRequest_writes (kex : ServerKex) (names : Names) (algorithm : KexAlgorithm)
    (input : IncomingSshPacket) :
    Steps KexWrites (kex.stepGexRequest P lookup names algorithm input) := by
  unfold stepGexRequest
  split
  · exact kexWrites_throw _
  · refine kexWrites_bind (kexWrites_ofExcept _) fun gexParams => ?_
    refine kexWrites_bind (kexWrites_ofExcept _) fun dhGroup => ?_
    cases dhGroup with
    | none => exact kexWrites_throw _
    | some dhGroup =>
      refine kexWrites_bind (kexWrites_ofExcept _) fun algorithm' => ?_
      exact kexWrites_bind (kexWrites_output rfl) fun _ => kexWrites_pure _

theorem stepDhInit_writes (kex : ServerKex) (names : Names) (algorithm : KexAlgorithm)
    (input : IncomingSshPacket) : Steps KexWrites (kex.stepDhInit P rng names algorithm input) := by
  unfold stepDhInit
  by_cases hguess : names.ignoreGuessed = true
  · rw [if_pos hguess]
    exact kexWrites_pure _
  rw [if_neg hguess]
  dsimp only
  by_cases hb : input.buffer.head? = some (expectedInit algorithm)
  swap
  · rw [if_pos hb]
    exact kexWrites_throw_bind _ _
  rw [if_neg (not_not_intro hb)]
  refine kexWrites_bind (kexWrites_ofExcept _) fun clientEphemeral => ?_
  refine kexWrites_bind (kexWrites_ofExcept _) fun answer => ?_
  split
  · refine kexWrites_bind (kexWrites_ofExcept _) fun hash => ?_
    refine kexWrites_bind (kexWrites_ofExcept _) fun signature => ?_
    refine kexWrites_bind (kexWrites_output rfl) fun _ => ?_
    refine kexWrites_bind (kexWrites_output rfl) fun _ => ?_
    exact kexWrites_bind (kexWrites_ofExcept _) fun newkeys => kexWrites_pure _
  · exact kexWrites_throw _

/-- Whichever way a step ends. -/
theorem step_writes (kex : ServerKex) (input : Option IncomingSshPacket) :
    Steps KexWrites (kex.step P lookup rng input) := by
  cases input with
  | none => exact kexWrites_throw _
  | some input =>
    cases hst : kex.state <;> simp only [step, hst]
    case created => exact stepCreated_writes kex input
    case waitingForGexRequest names algorithm =>
      exact stepGexRequest_writes kex names algorithm input
    case waitingForDhInit names algorithm => exact stepDhInit_writes kex names algorithm input
    case waitingForNewKeys newkeys =>
      unfold stepNewKeys
      split
      · exact kexWrites_throw _
      · exact kexWrites_pure _

end ServerKex

end Edgessh.Russh
