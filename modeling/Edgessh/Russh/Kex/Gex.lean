import Edgessh.Russh.Kex.Client
import Edgessh.Russh.Kex.Server
import Mathlib.Data.Nat.Size
import Mathlib.Order.Basic

/-!
# The bounds of a group exchange

The sizes that `GexParams` names are bit lengths. `DhGroup::bit_size` counts the bytes of the
prime, so it is the bit length rounded up to whole bytes, and the two ends of the exchange go by
it: the default `Handler::lookup_dh_gex_group` when it searches the built-in groups, the client
when it checks the group that a server has sent.
-/

namespace Edgessh.Russh
open Edgessh.Command

/-- The number of bits of the prime. -/
def DhGroup.bitLength (g : DhGroup) : Nat := Nat.size g.prime

/-- A size within the bounds, both included. -/
def GexParams.Allows (gex : GexParams) (n : Nat) : Prop :=
  gex.minGroupSize ≤ n ∧ n ≤ gex.maxGroupSize

/-- The next multiple of eight. -/
def wholeBytes (n : Nat) : Nat := (n + 7) / 8 * 8

theorem le_wholeBytes (n : Nat) : n ≤ wholeBytes n := by
  unfold wholeBytes
  omega

/-- `DhGroup::bit_size` is the bit length rounded up. -/
theorem DhGroup.bitSize_eq (g : DhGroup) : g.bitSize = wholeBytes g.bitLength := by
  have hlen : (Nat.digits 256 g.prime).length = (g.bitLength + 7) / 8 := by
    apply eq_of_forall_ge_iff
    intro k
    have hpow : 256 ^ k = 2 ^ (8 * k) := by
      rw [Nat.pow_mul]
    rw [Nat.digits_length_le_iff (by decide), hpow, ← Nat.size_le]
    unfold bitLength
    omega
  unfold bitSize wholeBytes
  rw [hlen]

section Lookup

/-- `BUILTIN_SAFE_DH_GROUPS`. -/
def builtinSafeDhGroups : List NamedGroup := [.group14, .group16]

/-- The default `Handler::lookup_dh_gex_group`: the first group within the bounds, unless a group
is larger than the preferred size; the second search does not look at the bounds. -/
def lookupDhGexGroup : LookupDhGexGroup := fun gexParams =>
  let bestGroup := NamedGroup.group14
  let bestGroup := (builtinSafeDhGroups.find? fun g =>
    gexParams.minGroupSize ≤ g.group.bitSize && g.group.bitSize ≤ gexParams.maxGroupSize).getD
      bestGroup
  let bestGroup := (builtinSafeDhGroups.find? fun g =>
    gexParams.preferredGroupSize < g.group.bitSize).getD bestGroup
  .ok (some bestGroup)

/-- A number between two consecutive powers of two. -/
theorem natSize_eq {n k : Nat} (hlow : 2 ^ k ≤ n) (hhigh : n < 2 ^ (k + 1)) :
    Nat.size n = k + 1 := by
  have hle := Nat.size_le.mpr hhigh
  have hlt := Nat.lt_size.mpr hlow
  omega

@[simp] theorem bitLength_group14 : NamedGroup.group14.group.bitLength = 2048 :=
  natSize_eq (k := 2047) (by decide +kernel) (by decide +kernel)

@[simp] theorem bitLength_group16 : NamedGroup.group16.group.bitLength = 4096 :=
  natSize_eq (k := 4095) (by decide +kernel) (by decide +kernel)

/-- Which of the two groups the default handler returns. -/
theorem lookupDhGexGroup_eq (gex : GexParams) :
    lookupDhGexGroup gex = .ok (some
      (if gex.preferredGroupSize < 4096 ∨ 2048 < gex.minGroupSize ∧ gex.minGroupSize ≤ 4096
        then .group16 else .group14)) := by
  have hmin := gex.min_ge
  have hpref := gex.min_le
  have hmax := gex.preferred_le
  have h14 : NamedGroup.group14.group.bitSize = 2048 := by
    rw [DhGroup.bitSize_eq, bitLength_group14]
    rfl
  have h16 : NamedGroup.group16.group.bitSize = 4096 := by
    rw [DhGroup.bitSize_eq, bitLength_group16]
    rfl
  -- the smaller group is never above the preferred size
  have hsmall : ¬ gex.preferredGroupSize < 2048 := by
    omega
  simp only [lookupDhGexGroup, builtinSafeDhGroups, List.find?, h14, h16, hsmall, decide_false]
  by_cases hbig : gex.preferredGroupSize < 4096
  · simp [hbig]
  · have hfits : 4096 ≤ gex.maxGroupSize := by
      omega
    have hsmallFits : 2048 ≤ gex.maxGroupSize := by
      omega
    by_cases hlow : gex.minGroupSize ≤ 2048
    · have hnot : ¬ 2048 < gex.minGroupSize := by
        omega
      simp [hbig, hlow, hnot, hsmallFits]
    · have hgt : 2048 < gex.minGroupSize := by
        omega
      by_cases hle : gex.minGroupSize ≤ 4096
      · simp [hbig, hlow, hgt, hle, hfits]
      · simp [hbig, hlow, hle]

/-- The default handler keeps to the bounds exactly when they include the larger group. -/
theorem lookup_allows_iff (gex : GexParams) :
    (∀ g, lookupDhGexGroup gex = .ok (some g) →
      gex.Allows g.group.bitLength ∧ gex.Allows g.group.bitSize) ↔ gex.Allows 4096 := by
  have hmin := gex.min_ge
  have hpref := gex.min_le
  have hmax := gex.preferred_le
  rw [lookupDhGexGroup_eq]
  constructor
  · intro h
    obtain ⟨hallows, -⟩ := h _ rfl
    split at hallows
    · simpa using hallows
    · rename_i hcase
      obtain ⟨hlow, hhigh⟩ := hallows
      rw [bitLength_group14] at hlow hhigh
      refine ⟨?_, ?_⟩ <;> omega
  · rintro ⟨hlow, hhigh⟩ g hg
    cases hg
    rw [DhGroup.bitSize_eq]
    unfold GexParams.Allows wholeBytes
    split
    · rw [bitLength_group16]
      omega
    · rename_i hcase
      rw [bitLength_group14]
      omega

end Lookup

section Client

variable {P : Primitives} {rng : Entropy}

/-- The group that a packet of the server carries. -/
def readGexGroup (input : IncomingSshPacket) : Option DhGroup :=
  if input.buffer.head? ≠ some Msg.kexDhGexGroup then none
  else
    match decodeMpint (input.buffer.drop 1) with
    | .error _ => none
    | .ok (prime, r) =>
      match decodeMpint r with
      | .error _ => none
      | .ok (generator, _) => some ⟨natOfBytes prime, natOfBytes generator⟩

/-- `gen_biguint_range` draws from the range. -/
def Entropy.InRange (rng : Entropy) : Prop :=
  ∀ low high, low < high → low ≤ rng.biguint low high ∧ rng.biguint low high < high

/-- What `DH::validate_public_key` asks of the public key of the private key `x`. -/
def DhGroup.ValidKey (g : DhGroup) (x : Nat) : Prop :=
  1 < g.generator ^ x % g.prime ∧ g.generator ^ x % g.prime < g.prime - 1

/-- A client may draw a private key with a valid public key. -/
def DhGroup.Usable (g : DhGroup) : Prop :=
  ∃ x, 2 ≤ x ∧ x < (g.prime - 1) / 2 ∧ g.ValidKey x

/-- `m`, run in `s`, returns a value. -/
theorem exists_ok_iff {ε σ α : Type} {m : EStateM ε σ α} {s : σ} :
    (∃ a t, m s = .ok a t) ↔ wp m (fun _ _ => True) (fun _ _ => False) s := by
  unfold wp
  cases m s with
  | ok a t => exact ⟨fun _ => trivial, fun _ => ⟨a, t, rfl⟩⟩
  | error e t =>
    constructor
    · rintro ⟨a, u, h⟩
      cases h
    · exact False.elim

theorem validatePublicKey_iff (dh : DH) (y : Nat) :
    dh.validatePublicKey y = true ↔ 1 < y ∧ y < dh.primeNum - 1 := by
  unfold DH.validatePublicKey
  rw [Bool.and_eq_true, decide_eq_true_iff, decide_eq_true_iff]

/-- When `client_dh` sends a public key. -/
theorem clientDh_ok_iff (kex : DhGroupKex) (group : DhGroup) (hp : 7 ≤ group.prime)
    (clientEphemeral : Bytes) {Q : KexAlgorithm × Bytes × Bytes → Prop} (hQ : ∀ a, Q a) :
    wpExcept (KexAlgorithm.clientDh P rng clientEphemeral
      (.dhGroupKex { kex with dh := some (DH.new group hp) })) Q (fun _ => False) ↔
      group.ValidKey (rng.biguint 2 ((group.prime - 1) / 2)) := by
  have hlow : 2 < (group.prime - 1) / 2 := by
    omega
  simp only [KexAlgorithm.clientDh, DhGroupKex.clientDh, DH.generatePrivateKey, DH.new,
    Bool.false_eq_true, if_false, hlow, if_true, wpExcept_bind, wpExcept_pure]
  rw [wpExcept_ite, validatePublicKey_iff]
  constructor
  · intro h
    by_contra hinvalid
    exact h.2 hinvalid
  · intro h
    exact ⟨fun _ => hQ _, fun hinvalid => hinvalid h⟩

theorem readGexGroup_eq_some {input : IncomingSshPacket} {group : DhGroup}
    (h : readGexGroup input = some group) :
    input.buffer.head? = some Msg.kexDhGexGroup ∧
      ∃ prime r generator r', decodeMpint (input.buffer.drop 1) = .ok (prime, r) ∧
        decodeMpint r = .ok (generator, r') ∧
        group = ⟨natOfBytes prime, natOfBytes generator⟩ := by
  unfold readGexGroup at h
  split at h
  · cases h
  · rename_i hhead
    split at h
    · cases h
    · rename_i prime r hprime
      split at h
      · cases h
      · rename_i generator r' hgenerator
        cases h
        exact ⟨by simpa using hhead, prime, r, generator, r', hprime, hgenerator, rfl⟩

/-- A packet that is not compressed can always be sent. -/
theorem outputPacket_ok (message : Message) {w : PacketWriter} (hw : w.compress = .none) :
    ∃ w', outputPacket P message w = .ok () w' := by
  have hraw : ∃ w', w.packetRaw P message = .ok w' := by
    unfold PacketWriter.packetRaw
    split
    · exact ⟨w, rfl⟩
    · rw [hw]
      exact ⟨_, rfl⟩
  obtain ⟨w', hraw⟩ := hraw
  refine ⟨w', ?_⟩
  show (ofExcept (w.packetRaw P message) >>= fun w => set w : WriterM Unit) w = .ok () w'
  rw [hraw]
  rfl

/-- A client that goes on has read a group. -/
theorem ClientKex.stepGexReply_reads {self : ClientKex} {names : Names} {kex : KexAlgorithm}
    {input : IncomingSshPacket} {w w' : PacketWriter} {progress : KexProgress ClientKex}
    (h : self.stepGexReply P rng names kex input w = .ok progress w') :
    ∃ group, readGexGroup input = some group := by
  unfold ClientKex.stepGexReply at h
  unfold readGexGroup
  split at h
  · exact absurd h throw_bind_ne_ok
  · rename_i hhead
    obtain ⟨⟨prime, r⟩, w₁, hprime, h₁⟩ := bind_eq_ok'.mp h
    obtain ⟨⟨generator, r'⟩, w₂, hgenerator, -⟩ := bind_eq_ok'.mp h₁
    have hp : decodeMpint (input.buffer.drop 1) = .ok (prime, r) :=
      mapError_eq_ok.mp (ofExcept_eq_ok.mp hprime).1
    have hg : decodeMpint r = .ok (generator, r') :=
      mapError_eq_ok.mp (ofExcept_eq_ok.mp hgenerator).1
    rw [if_neg hhead]
    simp only [hp, hg]
    exact ⟨_, rfl⟩

/-- A client that goes on has found the group within the bounds, as `DhGroup::bit_size` measures
it, and has a public key. -/
theorem ClientKex.stepGexReply_eq_ok {self : ClientKex} {names : Names} {kex : KexAlgorithm}
    {input : IncomingSshPacket} {group : DhGroup} {w w' : PacketWriter}
    {progress : KexProgress ClientKex}
    (h : self.stepGexReply P rng names kex input w = .ok progress w')
    (hgroup : readGexGroup input = some group) :
    self.config.gex.Allows group.bitSize ∧
      group.ValidKey (rng.biguint 2 ((group.prime - 1) / 2)) := by
  obtain ⟨hhead, prime, r, generator, r', hprime, hgenerator, rfl⟩ := readGexGroup_eq_some hgroup
  have hwp := exists_ok_iff.mp ⟨progress, w', h⟩
  unfold ClientKex.stepGexReply at hwp
  simp only [hhead, hprime, hgenerator, wp_bind, wp_ofExcept, ne_eq, not_true_eq_false, if_false,
    Except.mapError, wpExcept_ok] at hwp
  split at hwp
  · exact hwp.elim
  · rename_i hbounds
    simp only [wp_bind, wp_ofExcept] at hwp
    cases kex with
    | dhGroupKex kex =>
      simp only [KexAlgorithm.dhGexSetGroup, wpExcept_pure] at hwp
      refine ⟨?_, ?_⟩
      · unfold GexParams.Allows
        omega
      · apply (clientDh_ok_iff kex _ _ _ (Q := fun _ => True) fun _ => trivial).mp
        exact wpExcept_mono hwp (fun _ _ => trivial) fun _ he => he
    | curve25519Kex _ => exact hwp.elim
    | ecdhNistPKex _ => exact hwp.elim
    | mlKem768X25519Kex _ => exact hwp.elim
    | none => exact hwp.elim

/-- Such a client goes on, when nothing is compressed yet. -/
theorem ClientKex.stepGexReply_ok {self : ClientKex} {names : Names} {kex : DhGroupKex}
    {input : IncomingSshPacket} {group : DhGroup} {w : PacketWriter}
    (hgroup : readGexGroup input = some group) (hw : w.compress = .none)
    (hsize : self.config.gex.Allows group.bitSize)
    (hkey : group.ValidKey (rng.biguint 2 ((group.prime - 1) / 2))) :
    ∃ progress w',
      self.stepGexReply P rng names (.dhGroupKex kex) input w = .ok progress w' := by
  obtain ⟨hhead, prime, r, generator, r', hprime, hgenerator, rfl⟩ := readGexGroup_eq_some hgroup
  have hbounds : ¬ (DhGroup.bitSize ⟨natOfBytes prime, natOfBytes generator⟩ <
      self.config.gex.minGroupSize ∨ self.config.gex.maxGroupSize <
      DhGroup.bitSize ⟨natOfBytes prime, natOfBytes generator⟩) := by
    unfold GexParams.Allows at hsize
    omega
  rw [exists_ok_iff]
  unfold ClientKex.stepGexReply
  simp only [hhead, hprime, hgenerator, wp_bind, wp_ofExcept, ne_eq, not_true_eq_false, if_false,
    Except.mapError, wpExcept_ok, hbounds, dite_false, KexAlgorithm.dhGexSetGroup, wpExcept_pure]
  apply (clientDh_ok_iff kex _ _ _ ?_).mpr hkey
  rintro ⟨kex', clientEphemeral, payload⟩
  obtain ⟨w', hout⟩ := outputPacket_ok (P := P) (.kex payload) hw
  exact exists_ok_iff.mp ⟨(), w', hout⟩

end Client

section Bounds

/-- Algorithms with a group exchange. -/
def gexNames : Names where
  kex := .dhGexSha256
  key := .ed25519
  cipher := .chacha20Poly1305
  clientMac := .none
  serverMac := .none
  serverCompression := .none
  clientCompression := .none
  ignoreGuessed := false
  strictKex := true

/-- A client that waits for the group. -/
def waitingGexClient (gex : GexParams) : ClientKex where
  exchange := { clientId := [], serverId := [] }
  cause := .initial
  config := { gex }
  state := .waitingForGexReply gexNames (.dhGroupKex (.gex .sha256))

/-- A source of random numbers that draws `x` wherever it is in the range. -/
def drawing (x : Nat) : Entropy :=
  { Entropy.toy with biguint := fun low high => if low ≤ x ∧ x < high then x else low }

theorem drawing_inRange (x : Nat) : (drawing x).InRange := by
  intro low high hlt
  show low ≤ (if low ≤ x ∧ x < high then x else low) ∧ (if low ≤ x ∧ x < high then x else low) < high
  split
  · rename_i h
    exact h
  · exact ⟨Nat.le_refl low, hlt⟩

/-- The default handler keeps to the bounds exactly when they include 4096 bits; a client keeps
to its bounds with every packet but one whose prime is too short by less than a byte. -/
theorem gex_bounds_iff (gex : GexParams) :
    ((∀ g, lookupDhGexGroup gex = .ok (some g) →
        gex.Allows g.group.bitLength ∧ gex.Allows g.group.bitSize) ↔ gex.Allows 4096) ∧
      ∀ input : IncomingSshPacket,
        ((∀ (P : Primitives) (rng : Entropy) (self : ClientKex) (names : Names)
            (kex : KexAlgorithm) (w w' : PacketWriter) (progress : KexProgress ClientKex),
            rng.InRange → self.config.gex = gex → self.state = .waitingForGexReply names kex →
            self.step P rng (some input) w = .ok progress w' →
            ∃ group, readGexGroup input = some group ∧ gex.Allows group.bitLength) ↔
          ¬ ∃ group, readGexGroup input = some group ∧ group.bitLength < gex.minGroupSize ∧
            gex.Allows (wholeBytes group.bitLength) ∧ group.Usable) := by
  refine ⟨lookup_allows_iff gex, ?_⟩
  intro input
  constructor
  · rintro h ⟨group, hgroup, hshort, hallows, x, hlow, hhigh, hvalid⟩
    have hdraw : (drawing x).biguint 2 ((group.prime - 1) / 2) = x := by
      show (if 2 ≤ x ∧ x < (group.prime - 1) / 2 then x else 2) = x
      rw [if_pos ⟨hlow, hhigh⟩]
    rw [← group.bitSize_eq] at hallows
    have hvalid' : group.ValidKey ((drawing x).biguint 2 ((group.prime - 1) / 2)) := by
      rwa [hdraw]
    obtain ⟨progress, w', hstep⟩ : ∃ progress w', (waitingGexClient gex).stepGexReply .toy
        (drawing x) gexNames (.dhGroupKex (.gex .sha256)) input {} = .ok progress w' :=
      ClientKex.stepGexReply_ok hgroup rfl hallows hvalid'
    obtain ⟨group', hgroup', hbits, -⟩ := h .toy (drawing x) (waitingGexClient gex) _ _ {} w'
      progress (drawing_inRange x) rfl rfl hstep
    rw [hgroup] at hgroup'
    cases hgroup'
    omega
  · intro h P rng self names kex w w' progress hrng hgex hstate hstep
    have hreply : self.stepGexReply P rng names kex input w = .ok progress w' := by
      simpa [ClientKex.step, hstate] using hstep
    obtain ⟨group, hgroup⟩ := ClientKex.stepGexReply_reads hreply
    obtain ⟨hsize, hvalid⟩ := ClientKex.stepGexReply_eq_ok hreply hgroup
    rw [hgex, group.bitSize_eq] at hsize
    refine ⟨group, hgroup, ?_, (le_wholeBytes _).trans hsize.2⟩
    by_contra hshort
    apply h
    refine ⟨group, hgroup, by omega, hsize, _, ?_, ?_, hvalid⟩
    all_goals
      have hprime : 7 ≤ group.prime := by
        apply DhGroup.le_prime
        rw [group.bitSize_eq]
        exact gex.min_ge.trans hsize.1
      have hrange : 2 < (group.prime - 1) / 2 := by
        omega
    · exact (hrng _ _ hrange).1
    · exact (hrng _ _ hrange).2

/-- Parameters that ask for 2048 bits and nothing else. -/
def gex2048 : GexParams where
  minGroupSize := 2048
  preferredGroupSize := 2048
  maxGroupSize := 2048
  min_ge := Nat.le_refl _
  min_le := Nat.le_refl _
  preferred_le := Nat.le_refl _

/-- A number of 2047 bits, with the generator 2. -/
def shortGroup : DhGroup where
  prime := 2 ^ 2047 - 1
  generator := 2

/-- The packet of that group. -/
def shortGexGroup : IncomingSshPacket where
  buffer := Msg.kexDhGexGroup :: encodeBytes (0x7f :: List.replicate 255 0xff) ++ encodeBytes [2]
  seqn := 4

theorem readGexGroup_shortGexGroup : readGexGroup shortGexGroup = some shortGroup := by
  decide +kernel

/-- Asked for 2048 bits and no more, the default handler returns a group of 4096; and a client
that asks for 2048 bits goes on with a prime of 2047. -/
theorem not_gex_bounds :
    (¬ ∀ (gex : GexParams) (g : NamedGroup), lookupDhGexGroup gex = .ok (some g) →
        gex.Allows g.group.bitLength) ∧
      ¬ ∀ (gex : GexParams) (input : IncomingSshPacket) (P : Primitives) (rng : Entropy)
          (self : ClientKex) (names : Names) (kex : KexAlgorithm) (w w' : PacketWriter)
          (progress : KexProgress ClientKex), rng.InRange → self.config.gex = gex →
          self.state = .waitingForGexReply names kex →
          self.step P rng (some input) w = .ok progress w' →
          ∃ group, readGexGroup input = some group ∧ gex.Allows group.bitLength := by
  constructor
  · intro h
    have hallows := h gex2048 .group16 (lookupDhGexGroup_eq gex2048)
    rw [GexParams.Allows, bitLength_group16] at hallows
    exact absurd hallows.2 (by decide)
  · intro h
    have hlen : shortGroup.bitLength = 2047 :=
      natSize_eq (k := 2046) (by decide +kernel) (by decide +kernel)
    have hsize : gex2048.Allows shortGroup.bitSize := by
      rw [DhGroup.bitSize_eq, hlen]
      exact ⟨by decide, by decide⟩
    have hvalid : shortGroup.ValidKey ((drawing 2).biguint 2 ((shortGroup.prime - 1) / 2)) := by
      unfold DhGroup.ValidKey
      decide +kernel
    obtain ⟨progress, w', hstep⟩ : ∃ progress w', (waitingGexClient gex2048).stepGexReply .toy
        (drawing 2) gexNames (.dhGroupKex (.gex .sha256)) shortGexGroup {} = .ok progress w' :=
      ClientKex.stepGexReply_ok readGexGroup_shortGexGroup rfl hsize hvalid
    obtain ⟨group, hgroup, hallows⟩ := h gex2048 shortGexGroup .toy (drawing 2)
      (waitingGexClient gex2048) _ _ {} w' progress (drawing_inRange 2) rfl rfl hstep
    rw [readGexGroup_shortGexGroup] at hgroup
    have heq : shortGroup = group := Option.some.inj hgroup
    rw [← heq, hlen] at hallows
    exact absurd hallows.1 (by decide)

end Bounds

end Edgessh.Russh
