import Edgessh.Russh.Cipher.Traffic
import Edgessh.Russh.Kex.Handshake

/-!
# After the handshake

The keys that an exchange ends in are those that the packets are sealed and opened with: what
either end writes with its keys, the other one reads with its own.
-/

namespace Edgessh.Russh
open Edgessh.Dialogue

variable {C : CipherCrates} {K : SealingCrates C} {D : Flate2.Engine}

/-- `make_sealing_key`, of what `compute_keys` has derived. -/
def CipherKey.sealingKey (K : SealingCrates C) : CipherKey → SealingKey C K
  | .clear => .clear
  | .keyed cipher key nonce macKey mac => makeSealingKey K cipher key nonce macKey mac

/-- `make_opening_key`. -/
def CipherKey.openingKey (C : CipherCrates) : CipherKey → OpeningKey C
  | .clear => .clear
  | .keyed cipher key nonce macKey mac => makeOpeningKey C cipher key nonce macKey mac

/-- What is written with the one key, from any sequence number on, is read with the other. -/
def Conveys (P : Pairing C K) (D : Flate2.Engine) (sending receiving : CipherKey) : Prop :=
  ∀ (random : Nat → UInt8) (seqn : UInt32) (ms : List Traffic) (fuel : Nat),
    (∀ m ∈ ms, m.Fits) →
    ∃ w' : Sealer C K, ms.forM Sealer.exchange
        { key := sending.sealingKey K, random, seqn } = .ok ⟨⟩ w' ∧
      ∀ (r : Reader C D) (tail : Bytes), r.key = receiving.openingKey C →
        r.buffer.seqn = seqn → r.buffer.len = 0 → r.Plain →
        ∃ r', (ms.map Traffic.turn).mapM (Reader.exchange fuel)
            { r with stream := w'.buffer ++ tail } = .ok (ms.map Traffic.payload) r' ∧
          r'.stream = tail ∧ Follows P w' r'

variable {P : Pairing C K}

theorem paired_keys (h : P.Documented) (key : CipherKey) :
    Paired P (key.sealingKey K) (key.openingKey C) := by
  cases key with
  | clear => exact .clear
  | keyed cipher key nonce macKey mac => exact paired_make h cipher key nonce macKey mac

/-- Both directions of a connection have one key. -/
theorem conveys_key (h : P.Documented) (key : CipherKey) : Conveys P D key key := by
  intro random seqn ms fuel hfits
  obtain ⟨w', frames, hwrite, hbuffer, -, hread⟩ := (connection P D).carries_all
    (w := ({ key := key.sealingKey K, random, seqn } : Sealer C K))
    (fun m w => carries_exchange h fuel m w) ms hfits ⟨_, paired_keys h key⟩
  refine ⟨w', hwrite, ?_⟩
  intro r tail hkey hseqn hlen hplain
  have hframes : w'.buffer = frames := hbuffer
  rw [hframes]
  exact hread _ tail ⟨hkey ▸ paired_keys h key, hseqn, hlen, hplain⟩ rfl

/-- After a handshake that both ends have finished, in whatever order they took their steps, all
that the one writes with its keys, over any later changes of keys, the other reads, in both
directions. -/
theorem handshake_conveys {Q : Primitives} {lookup : LookupDhGexGroup} {clientConfig : ClientConfig}
    {serverConfig : ServerConfig} {cause : KexCause}
    {d₀ d : Talk (KexPhase ClientKex) (KexPhase ServerKex) Bytes}
    {serverHostKey hostKey : Option PublicKey} {client server : NewKeys} (hdoc : P.Documented)
    (hQ : Q.Agree) (hclient : clientConfig.preferred.Sendable none)
    (hserver : serverConfig.preferred.Sendable (some serverConfig.keys))
    (hgex : clientConfig.gex.maxGroupSize < 2 ^ 32)
    (hkeys : ∀ key ∈ serverConfig.keys, Readable Q key)
    (h₀ : KexOffered Q clientConfig serverConfig cause d₀)
    (h : Reaches (clientTakes Q) (serverTakes Q lookup) d₀ d)
    (hleft : d.left.state = .done serverHostKey client)
    (hright : d.right.state = .done hostKey server) :
    Conveys P D client.cipher.localToRemote server.cipher.remoteToLocal ∧
      Conveys P D server.cipher.localToRemote client.cipher.remoteToLocal := by
  obtain ⟨hagreed, -, -⟩ :=
    handshake_agreement hQ hclient hserver hgex hkeys h₀ h hleft hright
  constructor
  · rw [hagreed.toServer]
    exact conveys_key hdoc _
  · rw [hagreed.toClient]
    exact conveys_key hdoc _

theorem handshake_conveys_curve25519 : ∃ serverHostKey hostKey client server,
    (agreeingTalk 4).left.state = .done serverHostKey client ∧
    (agreeingTalk 4).right.state = .done hostKey server ∧
    Conveys Pairing.masking Flate2.doubling client.cipher.localToRemote
      server.cipher.remoteToLocal ∧
    Conveys Pairing.masking Flate2.doubling server.cipher.localToRemote
      client.cipher.remoteToLocal := by
  obtain ⟨⟨serverHostKey, client, hleft⟩, hostKey, server, hright⟩ := agreeingTalk_done
  exact ⟨serverHostKey, hostKey, client, server, hleft, hright,
    handshake_conveys masking_documented agree_agreeing (sendable_twoCiphers none (.inl rfl))
      (sendable_twoCiphers _ (.inr rfl)) (by decide) (fun _ hkey => (agreeingServer_keys hkey).1)
      offered_agreeingStart (reaches_agreeingTalk 4) hleft hright⟩

end Edgessh.Russh
