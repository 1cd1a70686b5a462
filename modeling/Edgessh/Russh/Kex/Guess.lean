import Edgessh.Russh.Kex.Advance
import Edgessh.Russh.Kex.Agreement

/-!
# Guessed packets

RFC 4253, section 7: a side may send the first packet of an exchange along with its KEXINIT, and
the other side skips that packet if the guess was wrong. What `readKex` and the two machines make
of it.
-/

namespace Edgessh.Russh
open Edgessh.Command

section Flag

variable {S : Type} {name : S → Bytes}

theorem firstMatch_not_first {isMatch : S × Bytes → Bool} {first : Bool} {s : S}
    {pairs : List (S × Bytes)} (h : firstMatch isMatch false pairs = some (first, s)) :
    first = false := by
  induction pairs with
  | nil => cases h
  | cons p pairs ih =>
    rw [firstMatch] at h
    by_cases hp : isMatch p = true
    · rw [if_pos hp] at h
      cases h
      rfl
    · rw [if_neg hp] at h
      exact ih h

theorem firstMatch_first {isMatch : S × Bytes → Bool} {first : Bool} {s : S} {p : S × Bytes}
    {pairs : List (S × Bytes)} (h : firstMatch isMatch true (p :: pairs) = some (first, s)) :
    first = true ↔ isMatch p = true := by
  rw [firstMatch] at h
  by_cases hp : isMatch p = true
  · rw [if_pos hp] at h
    cases h
    simp [hp]
  · rw [if_neg hp] at h
    simp [firstMatch_not_first h, hp]

/-- The flag of `select` compares the heads of the two lists that it is given. -/
theorem select_first {role : Role} {ours : List S} {theirs : List Bytes} {kind : AlgorithmKind}
    {first : Bool} {s : S} (h : select role name ours theirs kind = .ok (first, s)) :
    first = true ↔ (ours.map name).head? = theirs.head? := by
  unfold select at h
  dsimp only at h
  split at h
  · rename_i r hm
    cases h
    cases ours with
    | nil =>
      have hnil : theirs.flatMap (fun _ => ([] : List (S × Bytes))) = [] :=
        List.flatMap_eq_nil_iff.mpr fun _ _ => rfl
      cases role <;> simp [firstMatch, hnil] at hm
    | cons c ours =>
      cases theirs with
      | nil =>
        have hnil : (c :: ours).flatMap (fun _ => ([] : List (S × Bytes))) = [] :=
          List.flatMap_eq_nil_iff.mpr fun _ _ => rfl
        cases role
        · simp only [List.map_nil, hnil] at hm
          cases hm
        · cases hm
      | cons t theirs =>
        cases role with
        | client => simpa using firstMatch_first hm
        | server => simpa using firstMatch_first hm
  · cases h

end Flag

/-- RFC 4253, section 7: a packet follows the peer's KEXINIT, and the first names of the lists of
the two KEXINITs differ. -/
def GuessedWrongly (pref : Preferred) (serverKeys : Option (List PrivateKey))
    (lists : KexInitLists) : Prop :=
  lists.firstKexPacketFollows = true ∧
    (((pref.sentKex serverKeys).map KexName.name).head? ≠ lists.kex.head? ∨
      ((pref.hostKeyAlgos serverKeys).map Algorithm.name).head? ≠ lists.key.head?)

section Skip

variable {σ ε : Type} (step : ε → σ → IncomingSshPacket → WriterM (KexProgress σ)) (clear : σ → σ)

/-- The machine drops the packet: it writes nothing and stays where it is, but for the note that
a packet is to be skipped. -/
def Skips (env : ε) (kex : σ) (packet : IncomingSshPacket) (w : PacketWriter) : Prop :=
  step env kex packet w = .ok (.needsReply (clear kex) false) w

/-- The machine that `n` packets lead to; the session may write in between. -/
inductive KexSteps : Nat → σ → σ → Prop
  | refl {kex} : KexSteps 0 kex kex
  | next {n kex kex' kex'' env packet w reset w'} : KexSteps n kex kex' →
      step env kex' packet w = .ok (.needsReply kex'' reset) w' → KexSteps (n + 1) kex kex''

/-- Of the packets after the KEXINIT the first is skipped if it is to be ignored, and no other:
an exchange that is over at once skips nothing. -/
def SkipsGuess (progress : KexProgress σ) (ignoreGuessed : Bool) : Prop :=
  match progress with
  | .done _ _ => ignoreGuessed = false
  | .needsReply kex _ => ∀ n kex', KexSteps step n kex kex' → ∀ env packet w,
      Skips step clear env kex' packet w ↔ n = 0 ∧ ignoreGuessed = true

variable {step clear} {settled : σ → Prop}

/-- A machine that has nothing to skip. -/
theorem KexSteps.settled_of (hstep : ∀ {env kex packet w kex' reset w'}, settled kex →
      step env kex packet w = .ok (.needsReply kex' reset) w' → settled kex')
    {n : Nat} {kex kex' : σ} (h : KexSteps step n kex kex') (hkex : settled kex) :
    settled kex' := by
  induction h with
  | refl => exact hkex
  | next _ hlast ih => exact hstep (ih hkex) hlast

/-- After a skipped packet the machine has nothing to skip. -/
theorem KexSteps.after_skip (hstep : ∀ {env kex packet w kex' reset w'}, settled kex →
      step env kex packet w = .ok (.needsReply kex' reset) w' → settled kex')
    {n : Nat} {kex kex' : σ} (h : KexSteps step n kex kex') (hn : 0 < n)
    (hskip : ∀ env packet w, Skips step clear env kex packet w) (hclear : settled (clear kex)) :
    settled kex' := by
  induction h with
  | refl => exact absurd hn (Nat.lt_irrefl 0)
  | @next m kex kex' kex'' env packet w reset w' hrest hlast ih =>
    rcases Nat.eq_zero_or_pos m with rfl | hm
    · cases hrest
      have hsame := (hskip env packet w).symm.trans hlast
      cases hsame
      exact hclear
    · exact hstep (ih hm hskip hclear) hlast

/-- A machine that has nothing to skip keeps the law, one that must skip and is ready to do so
keeps it, and one that must skip and refuses some packet does not. -/
theorem skipsGuess_iff (settled : σ → Prop) {kex : σ} {reset ignoreGuessed : Bool} {ready : Prop}
    (hstep : ∀ {env kex packet w kex' reset w'}, settled kex →
      step env kex packet w = .ok (.needsReply kex' reset) w' → settled kex')
    (hoff : ∀ {env kex packet w}, settled kex → ¬Skips step clear env kex packet w)
    (hfalse : ignoreGuessed = false → settled kex)
    (hready : ignoreGuessed = true → ready →
      (∀ env packet w, Skips step clear env kex packet w) ∧ settled (clear kex))
    (hrefuse : ¬ready → ∃ env packet w, ¬Skips step clear env kex packet w) :
    SkipsGuess step clear (.needsReply kex reset) ignoreGuessed ↔
      (ignoreGuessed = true → ready) := by
  constructor
  · intro h hig
    by_contra hnot
    obtain ⟨env, packet, w, hno⟩ := hrefuse hnot
    exact hno ((h 0 kex .refl env packet w).mpr ⟨rfl, hig⟩)
  · intro h n kex' hsteps env packet w
    cases hig : ignoreGuessed with
    | false =>
      have hkex' := hsteps.settled_of hstep (hfalse hig)
      simp [hoff hkex']
    | true =>
      obtain ⟨hskip, hclear⟩ := hready hig (h hig)
      rcases Nat.eq_zero_or_pos n with rfl | hn
      · cases hsteps
        simp [hskip env packet w]
      · have hkex' := hsteps.after_skip hstep hn hskip hclear
        simp [hoff hkex', Nat.ne_of_gt hn]

end Skip

/-- The methods that negotiate a group first. -/
def KexName.isGex : KexName → Bool
  | dhGexSha1 | dhGexSha256 => true
  | _ => false

theorem KexAlgorithm.make_isDhGex {name : KexName} {kex : KexAlgorithm}
    (h : make name = some kex) : kex.isDhGex = name.isGex := by
  cases name <;> simp [make] at h <;> subst h <;> rfl

theorem KexAlgorithm.make_none {name : KexName} {kex : KexAlgorithm} (h : make name = some kex) :
    kex.skipExchange = true ↔ name = .none := by
  cases name <;> simp [make] at h <;> subst h <;> simp [skipExchange]

namespace ClientKex

/-- The note that a packet is to be skipped. -/
def ignoreGuessed (kex : ClientKex) : Bool :=
  match kex.state with
  | .waitingForGexReply names _ => names.ignoreGuessed
  | .waitingForDhReply names _ => names.ignoreGuessed
  | _ => false

/-- The machine without that note. -/
def clearGuess (kex : ClientKex) : ClientKex :=
  match kex.state with
  | .waitingForGexReply names algorithm =>
    { kex with state := .waitingForGexReply { names with ignoreGuessed := false } algorithm }
  | .waitingForDhReply names algorithm =>
    { kex with state := .waitingForDhReply { names with ignoreGuessed := false } algorithm }
  | _ => kex

/-- Nothing is left to skip, and no KEXINIT is expected. -/
def Settled (kex : ClientKex) : Prop := kex.state ≠ .created ∧ kex.ignoreGuessed = false

/-- Where the machine stands once the KEXINITs are exchanged. -/
def Asked (kex : ClientKex) (names : Names) : Prop :=
  ∃ algorithm, kex.state =
    if names.kex.isGex then .waitingForGexReply names algorithm
    else .waitingForDhReply names algorithm

variable {P : Primitives} {rng : Entropy} {kex kex' : ClientKex} {packet : IncomingSshPacket}
  {w w' : PacketWriter} {progress : KexProgress ClientKex} {reset : Bool} {names : Names}

theorem settled_step (hkex : kex.Settled)
    (h : kex.step P rng (some packet) w = .ok (.needsReply kex' reset) w') : kex'.Settled := by
  obtain ⟨hcreated, hflag⟩ := hkex
  have hadvance := step_advance h
  cases hadvance with
  | ask hst => exact absurd hst hcreated
  | group hst _ hst' =>
    refine ⟨by simp [hst'], ?_⟩
    simpa [ignoreGuessed, hst, hst'] using hflag
  | guessed hst hguess => simp [ignoreGuessed, hst, hguess] at hflag
  | reply _ _ _ _ _ hst' => exact ⟨by simp [hst'], by simp [ignoreGuessed, hst']⟩

/-- A machine that has nothing to skip acts upon every packet that it takes. -/
theorem settled_not_skips (hkex : kex.Settled) :
    ¬Skips (fun rng kex packet => kex.step P rng (some packet)) clearGuess rng kex packet w := by
  intro h
  obtain ⟨hcreated, hflag⟩ := hkex
  unfold Skips at h
  generalize hprogress : KexProgress.needsReply kex.clearGuess false = progress at h
  have hadvance := step_advance h
  cases hadvance with
  | skip | finish => cases hprogress
  | ask hst => exact absurd hst hcreated
  | group hst _ hst' =>
    obtain ⟨rfl, -⟩ := KexProgress.needsReply.inj hprogress
    simp [clearGuess, hst] at hst'
  | guessed hst hguess => simp [ignoreGuessed, hst, hguess] at hflag
  | reply hst _ _ _ _ hst' =>
    obtain ⟨rfl, -⟩ := KexProgress.needsReply.inj hprogress
    simp [clearGuess, hst] at hst'

/-- The machine that the KEXINIT of the server leads to. -/
theorem stepCreated_asked (hst : kex.state = .created)
    (hread : readKex .client packet.buffer kex.config.preferred none kex.cause = .ok names)
    (h : kex.step P rng (some packet) w = .ok progress w') :
    match progress with
    | .done _ _ => names.kex = .none
    | .needsReply kex' _ => names.kex ≠ .none ∧ kex'.Asked names := by
  simp only [step, hst] at h
  unfold stepCreated at h
  split at h
  · exact absurd h throw_ne_ok
  obtain ⟨names', w₁, hnames, h₁⟩ := bind_eq_ok'.mp h
  obtain ⟨hread', rfl⟩ := ofExcept_eq_ok.mp hnames
  rw [mapError_eq_ok] at hread'
  obtain rfl : names = names' := Except.ok.inj (hread.symm.trans hread')
  dsimp only at h₁
  split at h₁
  · exact absurd h₁ throw_bind_ne_ok
  cases hmake : KexAlgorithm.make names.kex with
  | none =>
    simp only [hmake] at h₁
    exact absurd h₁ throw_ne_ok
  | some algorithm =>
    have hnone := KexAlgorithm.make_none hmake
    have hgex := KexAlgorithm.make_isDhGex hmake
    simp only [hmake] at h₁
    split at h₁
    · rename_i hskip
      obtain ⟨newkeys, w₂, -, h₂⟩ := bind_eq_ok'.mp h₁
      obtain ⟨_, w₃, -, hdone⟩ := bind_eq_ok'.mp h₂
      obtain ⟨rfl, -⟩ := pure_eq_ok'.mp hdone
      exact hnone.mp hskip
    · rename_i hskip
      have hsome : names.kex ≠ .none := fun hn => hskip (hnone.mpr hn)
      split at h₁
      · rename_i hdh
        obtain ⟨payload, w₂, -, h₂⟩ := bind_eq_ok'.mp h₁
        obtain ⟨_, w₃, -, hdone⟩ := bind_eq_ok'.mp h₂
        obtain ⟨rfl, -⟩ := pure_eq_ok'.mp hdone
        exact ⟨hsome, algorithm, by rw [if_pos (hgex ▸ hdh)]⟩
      · rename_i hdh
        obtain ⟨⟨algorithm', ephemeral, payload⟩, w₂, -, h₂⟩ := bind_eq_ok'.mp h₁
        obtain ⟨_, w₃, -, hdone⟩ := bind_eq_ok'.mp h₂
        obtain ⟨rfl, -⟩ := pure_eq_ok'.mp hdone
        exact ⟨hsome, algorithm', by rw [if_neg (hgex ▸ hdh)]⟩

/-- The packets that are skipped after the KEXINITs. -/
theorem skipsGuess_iff_direct (hst : kex.state = .created)
    (hread : readKex .client packet.buffer kex.config.preferred none kex.cause = .ok names)
    (h : kex.step P rng (some packet) w = .ok progress w') :
    SkipsGuess (fun rng kex packet => kex.step P rng (some packet)) clearGuess progress
        names.ignoreGuessed ↔
      (names.ignoreGuessed = true → names.kex.isGex = false ∧ names.kex ≠ .none) := by
  have hasked := stepCreated_asked hst hread h
  cases progress with
  | done key newkeys => simp [SkipsGuess, (hasked : names.kex = .none)]
  | needsReply kex' reset =>
    obtain ⟨hsome, algorithm, hst'⟩ := hasked
    have hflag : kex'.ignoreGuessed = names.ignoreGuessed := by
      cases hgex : names.kex.isGex <;> simp [ignoreGuessed, hst', hgex]
    refine skipsGuess_iff Settled settled_step settled_not_skips ?_ ?_ ?_
    · intro hig
      exact ⟨by cases hgex : names.kex.isGex <;> simp [hst', hgex], hflag.trans hig⟩
    · rintro hig ⟨hgex, -⟩
      rw [hgex] at hst'
      have hst' : kex'.state = .waitingForDhReply names algorithm := hst'
      refine ⟨fun env packet w => ?_, by simp [clearGuess, hst'], by
        simp [ignoreGuessed, clearGuess, hst']⟩
      simp only [Skips, step, hst', stepDhReply, if_pos hig, clearGuess]
      rfl
    · intro hnot
      have hgex : names.kex.isGex = true := by
        by_contra hgex
        exact hnot ⟨by simpa using hgex, hsome⟩
      rw [if_pos hgex] at hst'
      refine ⟨rng, { buffer := [], seqn := 0 }, w, ?_⟩
      simp only [Skips, step, hst', stepGexReply]
      intro hok
      cases hok

end ClientKex

namespace ServerKex

/-- The note that a packet is to be skipped. -/
def ignoreGuessed (kex : ServerKex) : Bool :=
  match kex.state with
  | .waitingForGexRequest names _ => names.ignoreGuessed
  | .waitingForDhInit names _ => names.ignoreGuessed
  | _ => false

/-- The machine without that note. -/
def clearGuess (kex : ServerKex) : ServerKex :=
  match kex.state with
  | .waitingForGexRequest names algorithm =>
    { kex with state := .waitingForGexRequest { names with ignoreGuessed := false } algorithm }
  | .waitingForDhInit names algorithm =>
    { kex with state := .waitingForDhInit { names with ignoreGuessed := false } algorithm }
  | _ => kex

/-- Nothing is left to skip, and no KEXINIT is expected. -/
def Settled (kex : ServerKex) : Prop := kex.state ≠ .created ∧ kex.ignoreGuessed = false

/-- Where the machine stands once the KEXINITs are exchanged. -/
def Asked (kex : ServerKex) (names : Names) : Prop :=
  ∃ algorithm, kex.state =
    if names.kex.isGex then .waitingForGexRequest names algorithm
    else .waitingForDhInit names algorithm

variable {P : Primitives} {lookup : LookupDhGexGroup} {rng : Entropy} {kex kex' : ServerKex}
  {packet : IncomingSshPacket} {w w' : PacketWriter} {progress : KexProgress ServerKex}
  {reset : Bool} {names : Names}

theorem settled_step (hkex : kex.Settled)
    (h : kex.step P lookup rng (some packet) w = .ok (.needsReply kex' reset) w') :
    kex'.Settled := by
  obtain ⟨hcreated, hflag⟩ := hkex
  have hadvance := step_advance h
  cases hadvance with
  | ask hst => exact absurd hst hcreated
  | group hst _ hst' =>
    refine ⟨by simp [hst'], ?_⟩
    simpa [ignoreGuessed, hst, hst'] using hflag
  | guessed hst hguess => simp [ignoreGuessed, hst, hguess] at hflag
  | reply _ _ _ hst' => exact ⟨by simp [hst'], by simp [ignoreGuessed, hst']⟩

/-- A machine that has nothing to skip acts upon every packet that it takes. -/
theorem settled_not_skips {env : LookupDhGexGroup × Entropy} (hkex : kex.Settled) :
    ¬Skips (fun env kex packet => kex.step P env.1 env.2 (some packet)) clearGuess env kex packet
      w := by
  intro h
  obtain ⟨hcreated, hflag⟩ := hkex
  unfold Skips at h
  generalize hprogress : KexProgress.needsReply kex.clearGuess false = progress at h
  have hadvance := step_advance h
  cases hadvance with
  | skip | finish => cases hprogress
  | ask hst => exact absurd hst hcreated
  | group hst _ hst' =>
    obtain ⟨rfl, -⟩ := KexProgress.needsReply.inj hprogress
    simp [clearGuess, hst] at hst'
  | guessed hst hguess => simp [ignoreGuessed, hst, hguess] at hflag
  | reply hst _ _ hst' =>
    obtain ⟨rfl, -⟩ := KexProgress.needsReply.inj hprogress
    simp [clearGuess, hst] at hst'

/-- The machine that the KEXINIT of the client leads to. -/
theorem stepCreated_asked (hst : kex.state = .created)
    (hread : readKex .server packet.buffer kex.config.preferred (some kex.config.keys) kex.cause =
      .ok names)
    (h : kex.step P lookup rng (some packet) w = .ok progress w') :
    match progress with
    | .done _ _ => names.kex = .none
    | .needsReply kex' _ => names.kex ≠ .none ∧ kex'.Asked names := by
  simp only [step, hst] at h
  unfold stepCreated at h
  split at h
  · exact absurd h throw_ne_ok
  obtain ⟨names', w₁, hnames, h₁⟩ := bind_eq_ok'.mp h
  obtain ⟨hread', rfl⟩ := ofExcept_eq_ok.mp hnames
  rw [mapError_eq_ok] at hread'
  obtain rfl : names = names' := Except.ok.inj (hread.symm.trans hread')
  dsimp only at h₁
  split at h₁
  · exact absurd h₁ throw_bind_ne_ok
  cases hmake : KexAlgorithm.make names.kex with
  | none =>
    simp only [hmake] at h₁
    exact absurd h₁ throw_ne_ok
  | some algorithm =>
    have hnone := KexAlgorithm.make_none hmake
    have hgex := KexAlgorithm.make_isDhGex hmake
    simp only [hmake] at h₁
    split at h₁
    · rename_i hskip
      obtain ⟨newkeys, w₂, -, h₂⟩ := bind_eq_ok'.mp h₁
      obtain ⟨_, w₃, -, hdone⟩ := bind_eq_ok'.mp h₂
      obtain ⟨rfl, -⟩ := pure_eq_ok'.mp hdone
      exact hnone.mp hskip
    · rename_i hskip
      have hsome : names.kex ≠ .none := fun hn => hskip (hnone.mpr hn)
      split at h₁
      · rename_i hdh
        obtain ⟨rfl, -⟩ := pure_eq_ok'.mp h₁
        exact ⟨hsome, algorithm, by rw [if_pos (hgex ▸ hdh)]⟩
      · rename_i hdh
        obtain ⟨rfl, -⟩ := pure_eq_ok'.mp h₁
        exact ⟨hsome, algorithm, by rw [if_neg (hgex ▸ hdh)]⟩

/-- The packets that are skipped after the KEXINITs. -/
theorem skipsGuess_iff_direct (hst : kex.state = .created)
    (hread : readKex .server packet.buffer kex.config.preferred (some kex.config.keys) kex.cause =
      .ok names)
    (h : kex.step P lookup rng (some packet) w = .ok progress w') :
    SkipsGuess (fun (env : LookupDhGexGroup × Entropy) kex packet =>
        kex.step P env.1 env.2 (some packet)) clearGuess progress names.ignoreGuessed ↔
      (names.ignoreGuessed = true → names.kex.isGex = false ∧ names.kex ≠ .none) := by
  have hasked := stepCreated_asked hst hread h
  cases progress with
  | done key newkeys => simp [SkipsGuess, (hasked : names.kex = .none)]
  | needsReply kex' reset =>
    obtain ⟨hsome, algorithm, hst'⟩ := hasked
    have hflag : kex'.ignoreGuessed = names.ignoreGuessed := by
      cases hgex : names.kex.isGex <;> simp [ignoreGuessed, hst', hgex]
    refine skipsGuess_iff Settled settled_step settled_not_skips ?_ ?_ ?_
    · intro hig
      exact ⟨by cases hgex : names.kex.isGex <;> simp [hst', hgex], hflag.trans hig⟩
    · rintro hig ⟨hgex, -⟩
      rw [hgex] at hst'
      have hst' : kex'.state = .waitingForDhInit names algorithm := hst'
      refine ⟨fun env packet w => ?_, by simp [clearGuess, hst'], by
        simp [ignoreGuessed, clearGuess, hst']⟩
      simp only [Skips, step, hst', stepDhInit, if_pos hig, clearGuess]
      rfl
    · intro hnot
      have hgex : names.kex.isGex = true := by
        by_contra hgex
        exact hnot ⟨by simpa using hgex, hsome⟩
      rw [if_pos hgex] at hst'
      refine ⟨(lookup, rng), { buffer := [], seqn := 0 }, w, ?_⟩
      simp only [Skips, step, hst', stepGexRequest]
      intro hok
      cases hok

end ServerKex

section Law

/-- The name of the method that the two sides agree upon. -/
def agreedKex (role : Role) (pref : Preferred) (lists : KexInitLists) : Option Bytes :=
  agreed (role.clientList (pref.kexNoExt.map KexName.name) (knownKexNames lists.kex))
    (role.serverList (pref.kexNoExt.map KexName.name) (knownKexNames lists.kex))

/-- The methods whose first packet is not the one of a Diffie-Hellman exchange. -/
def indirectKexNames : List Bytes :=
  [KexName.dhGexSha1, .dhGexSha256, .none].map KexName.name

theorem mem_indirectKexNames (k : KexName) :
    k.name ∉ indirectKexNames ↔ k.isGex = false ∧ k ≠ .none := by
  cases k <;> decide +kernel

/-- The flag of the names is the one of RFC 4253, and the machine skips what it says. -/
structure GuessLaw {σ ε : Type} (step : ε → σ → IncomingSshPacket → WriterM (KexProgress σ))
    (clear : σ → σ) (pref : Preferred) (serverKeys : Option (List PrivateKey))
    (lists : KexInitLists) (names : Names) (progress : KexProgress σ) : Prop where
  flag : names.ignoreGuessed = true ↔ GuessedWrongly pref serverKeys lists
  skips : SkipsGuess step clear progress names.ignoreGuessed

/-- If a packet follows: where the first host key names are the same, extensions and unknown
names do not stand in front of what decides about the methods, and after a wrong guess the agreed
method is a plain Diffie-Hellman exchange. -/
def GuessHandled (role : Role) (pref : Preferred) (serverKeys : Option (List PrivateKey))
    (lists : KexInitLists) : Prop :=
  lists.firstKexPacketFollows = true →
    (((pref.hostKeyAlgos serverKeys).map Algorithm.name).head? = lists.key.head? →
      ((pref.kexNoExt.map KexName.name).head? = (knownKexNames lists.kex).head? ↔
        ((pref.sentKex serverKeys).map KexName.name).head? = lists.kex.head?)) ∧
    (GuessedWrongly pref serverKeys lists →
      ∀ n, agreedKex role pref lists = some n → n ∉ indirectKexNames)

/-- The flag that `readKex` returns, in terms of the lists. -/
theorem Chosen.ignoreGuessed_iff {role : Role} {pref : Preferred}
    {serverKeys : Option (List PrivateKey)} {lists : KexInitLists} {names : Names}
    (h : Chosen role pref serverKeys lists names) :
    names.ignoreGuessed = true ↔ lists.firstKexPacketFollows = true ∧
      ((pref.kexNoExt.map KexName.name).head? ≠ (knownKexNames lists.kex).head? ∨
        ((pref.hostKeyAlgos serverKeys).map Algorithm.name).head? ≠ lists.key.head?) := by
  obtain ⟨kexBothFirst, keyBothFirst, hkex, hkey, hflag⟩ := h.kex
  rw [hflag, ne_eq, ne_eq, ← select_first hkex, ← select_first hkey]
  cases kexBothFirst <;> cases keyBothFirst <;> simp

theorem Chosen.agreedKex {role : Role} {pref : Preferred}
    {serverKeys : Option (List PrivateKey)} {lists : KexInitLists} {names : Names}
    (h : Chosen role pref serverKeys lists names) :
    agreedKex role pref lists = some names.kex.name := by
  obtain ⟨_, _, hkex, -⟩ := h.kex
  exact select_agreed hkex

/-- The law of one side, from what its machine skips. -/
theorem guessLaw_iff {σ ε : Type} {step : ε → σ → IncomingSshPacket → WriterM (KexProgress σ)}
    {clear : σ → σ} {role : Role} {pref : Preferred} {serverKeys : Option (List PrivateKey)}
    {lists : KexInitLists} {names : Names} {progress : KexProgress σ}
    (hchosen : Chosen role pref serverKeys lists names)
    (hskips : SkipsGuess step clear progress names.ignoreGuessed ↔
      (names.ignoreGuessed = true → names.kex.isGex = false ∧ names.kex ≠ .none)) :
    GuessLaw step clear pref serverKeys lists names progress ↔
      GuessHandled role pref serverKeys lists := by
  have hflag := hchosen.ignoreGuessed_iff
  have hagreed := hchosen.agreedKex
  have hdirect := mem_indirectKexNames names.kex
  constructor
  · rintro ⟨hrfc, hlaw⟩ hfollows
    refine ⟨fun hkey => ?_, fun hwrong n hn => ?_⟩
    · have hiff := hflag.symm.trans hrfc
      simp only [GuessedWrongly, hfollows, hkey, true_and, ne_eq, not_true, or_false] at hiff
      exact not_iff_not.mp hiff
    · rw [hagreed] at hn
      obtain rfl := Option.some.inj hn
      exact hdirect.mpr (hskips.mp hlaw (hrfc.mpr hwrong))
  · intro h
    have hrfc : names.ignoreGuessed = true ↔ GuessedWrongly pref serverKeys lists := by
      rw [hflag, GuessedWrongly]
      refine and_congr_right fun hfollows => ?_
      by_cases hkey : ((pref.hostKeyAlgos serverKeys).map Algorithm.name).head? = lists.key.head?
      · exact or_congr_left (not_congr ((h hfollows).1 hkey))
      · exact iff_of_true (Or.inr hkey) (Or.inr hkey)
    refine ⟨hrfc, hskips.mpr fun hig => ?_⟩
    have hwrong := hrfc.mp hig
    exact hdirect.mp ((h hwrong.1).2 hwrong _ hagreed)

/-- The client's law. -/
theorem ClientKex.guessLaw_iff {P : Primitives} {rng : Entropy} {kex : ClientKex}
    {packet : IncomingSshPacket} {w w' : PacketWriter} {progress : KexProgress ClientKex}
    {names : Names} {lists : KexInitLists} (hst : kex.state = .created)
    (hread : readKex .client packet.buffer kex.config.preferred none kex.cause = .ok names)
    (hlists : KexInitLists.parse packet.buffer = .ok lists)
    (h : kex.step P rng (some packet) w = .ok progress w') :
    GuessLaw (fun rng kex packet => kex.step P rng (some packet)) ClientKex.clearGuess
        kex.config.preferred none lists names progress ↔
      GuessHandled .client kex.config.preferred none lists := by
  obtain ⟨lists', hlists', hchosen⟩ := readKex_eq_ok hread
  obtain rfl : lists = lists' := Except.ok.inj (hlists.symm.trans hlists')
  exact Russh.guessLaw_iff hchosen (ClientKex.skipsGuess_iff_direct hst hread h)

/-- The server's law. -/
theorem ServerKex.guessLaw_iff {P : Primitives} {lookup : LookupDhGexGroup} {rng : Entropy}
    {kex : ServerKex} {packet : IncomingSshPacket} {w w' : PacketWriter}
    {progress : KexProgress ServerKex} {names : Names} {lists : KexInitLists}
    (hst : kex.state = .created)
    (hread : readKex .server packet.buffer kex.config.preferred (some kex.config.keys) kex.cause =
      .ok names)
    (hlists : KexInitLists.parse packet.buffer = .ok lists)
    (h : kex.step P lookup rng (some packet) w = .ok progress w') :
    GuessLaw (fun (env : LookupDhGexGroup × Entropy) kex packet =>
          kex.step P env.1 env.2 (some packet)) ServerKex.clearGuess
        kex.config.preferred (some kex.config.keys) lists names progress ↔
      GuessHandled .server kex.config.preferred (some kex.config.keys) lists := by
  obtain ⟨lists', hlists', hchosen⟩ := readKex_eq_ok hread
  obtain rfl : lists = lists' := Except.ok.inj (hlists.symm.trans hlists')
  exact Russh.guessLaw_iff hchosen (ServerKex.skipsGuess_iff_direct hst hread h)

/-- Guessed packets are handled as RFC 4253 has it exactly where the lists allow it. -/
theorem guesses_handled_iff (P : Primitives) :
    (∀ (rng : Entropy) (kex : ClientKex) (packet : IncomingSshPacket) (w w' : PacketWriter)
        (progress : KexProgress ClientKex) (names : Names) (lists : KexInitLists),
      kex.state = .created →
      readKex .client packet.buffer kex.config.preferred none kex.cause = .ok names →
      KexInitLists.parse packet.buffer = .ok lists →
      kex.step P rng (some packet) w = .ok progress w' →
      (GuessLaw (fun rng kex packet => kex.step P rng (some packet)) ClientKex.clearGuess
          kex.config.preferred none lists names progress ↔
        GuessHandled .client kex.config.preferred none lists)) ∧
    ∀ (lookup : LookupDhGexGroup) (rng : Entropy) (kex : ServerKex) (packet : IncomingSshPacket)
        (w w' : PacketWriter) (progress : KexProgress ServerKex) (names : Names)
        (lists : KexInitLists),
      kex.state = .created →
      readKex .server packet.buffer kex.config.preferred (some kex.config.keys) kex.cause =
        .ok names →
      KexInitLists.parse packet.buffer = .ok lists →
      kex.step P lookup rng (some packet) w = .ok progress w' →
      (GuessLaw (fun (env : LookupDhGexGroup × Entropy) kex packet =>
            kex.step P env.1 env.2 (some packet)) ServerKex.clearGuess
          kex.config.preferred (some kex.config.keys) lists names progress ↔
        GuessHandled .server kex.config.preferred (some kex.config.keys) lists) := by
  constructor
  · intro rng kex packet w w' progress names lists hst hread hlists h
    exact ClientKex.guessLaw_iff hst hread hlists h
  · intro lookup rng kex packet w w' progress names lists hst hread hlists h
    exact ServerKex.guessLaw_iff hst hread hlists h

/-- An offer of these methods, with a packet that follows. -/
def guessOffer (kex : List Bytes) : KexInitLists where
  kex := kex
  key := [ascii "ssh-ed25519"]
  cipherToServer := [ascii "aes256-ctr"]
  cipherToClient := [ascii "aes256-ctr"]
  firstKexPacketFollows := true

/-- A guess of a method that is known here, and not the one to be used. -/
def wrongGuess : KexInitLists :=
  guessOffer [ascii "curve25519-sha256@libssh.org", ascii "curve25519-sha256"]

/-- A client with `twoCiphers` and its one method of key exchange. -/
def guessedClient : ClientKex :=
  ClientKex.new { preferred := twoCiphers } (ascii "SSH-2.0-peer") .initial

/-- A server with the host key `7` and the same preferences. -/
def guessedServer : ServerKex :=
  ServerKex.new { preferred := twoCiphers, keys := [⟨.ed25519, ⟨[7]⟩⟩] } (ascii "SSH-2.0-peer")
    .initial

theorem exists_of_isOk {ε σ α : Type} {r : EStateM.Result ε σ α}
    (h : (match r with | .ok _ _ => true | .error _ _ => false) = true) :
    ∃ a s, r = .ok a s := by
  cases r with
  | ok a s => exact ⟨a, s, rfl⟩
  | error e s => cases h

theorem guesses_handled_curve25519 :
    (∃ progress w', guessedClient.step Primitives.toy Entropy.toy
        (some { buffer := wrongGuess.packet, seqn := 1 }) {} = .ok progress w' ∧
      (GuessLaw (fun rng kex packet => kex.step Primitives.toy rng (some packet))
          ClientKex.clearGuess twoCiphers none wrongGuess
          { namesOfOffer with ignoreGuessed := true } progress ↔
        GuessHandled .client twoCiphers none wrongGuess)) ∧
    ∃ progress w', guessedServer.step Primitives.toy (fun _ => .ok none) Entropy.toy
        (some { buffer := wrongGuess.packet, seqn := 1 }) {} = .ok progress w' ∧
      (GuessLaw (fun (env : LookupDhGexGroup × Entropy) kex packet =>
            ServerKex.step Primitives.toy env.1 env.2 kex (some packet)) ServerKex.clearGuess
          twoCiphers (some [⟨.ed25519, ⟨[7]⟩⟩]) wrongGuess
          { namesOfOffer with ignoreGuessed := true } progress ↔
        GuessHandled .server twoCiphers (some [⟨.ed25519, ⟨[7]⟩⟩]) wrongGuess) := by
  have hlists : KexInitLists.parse wrongGuess.packet = .ok wrongGuess := by decide +kernel
  constructor
  · obtain ⟨progress, w', h⟩ := exists_of_isOk (r := guessedClient.step Primitives.toy Entropy.toy
        (some { buffer := wrongGuess.packet, seqn := 1 }) {}) (by decide +kernel)
    exact ⟨progress, w', h, (guesses_handled_iff Primitives.toy).1 Entropy.toy guessedClient
      { buffer := wrongGuess.packet, seqn := 1 } {} w' progress _ _ rfl (by decide +kernel) hlists
      h⟩
  · obtain ⟨progress, w', h⟩ := exists_of_isOk (r := guessedServer.step Primitives.toy
        (fun _ => .ok none) Entropy.toy (some { buffer := wrongGuess.packet, seqn := 1 }) {})
        (by decide +kernel)
    exact ⟨progress, w', h, (guesses_handled_iff Primitives.toy).2 (fun _ => .ok none) Entropy.toy
      guessedServer { buffer := wrongGuess.packet, seqn := 1 } {} w' progress _ _ rfl
      (by decide +kernel) hlists h⟩

/-- The first method of the server is unknown to the client, and its guess is taken. -/
theorem guesses_handled_fails : ¬∀ (P : Primitives) (rng : Entropy) (kex : ClientKex)
    (packet : IncomingSshPacket) (w w' : PacketWriter) (progress : KexProgress ClientKex)
    (names : Names) (lists : KexInitLists),
    kex.state = .created →
    readKex .client packet.buffer kex.config.preferred none kex.cause = .ok names →
    KexInitLists.parse packet.buffer = .ok lists →
    kex.step P rng (some packet) w = .ok progress w' →
    GuessLaw (fun rng kex packet => kex.step P rng (some packet)) ClientKex.clearGuess
      kex.config.preferred none lists names progress := by
  intro h
  have hlists : KexInitLists.parse (guessOffer [ascii "dh", ascii "curve25519-sha256"]).packet =
      .ok (guessOffer [ascii "dh", ascii "curve25519-sha256"]) := by decide +kernel
  obtain ⟨progress, w', hok⟩ := exists_of_isOk (r := guessedClient.step Primitives.toy Entropy.toy
      (some { buffer := (guessOffer [ascii "dh", ascii "curve25519-sha256"]).packet, seqn := 1 })
      {}) (by decide +kernel)
  have hlaw := h Primitives.toy Entropy.toy guessedClient
    { buffer := (guessOffer [ascii "dh", ascii "curve25519-sha256"]).packet, seqn := 1 }
    {} w' progress namesOfOffer _ rfl (by decide +kernel) hlists hok
  have hwrong : GuessedWrongly twoCiphers none
      (guessOffer [ascii "dh", ascii "curve25519-sha256"]) := ⟨rfl, Or.inl (by decide +kernel)⟩
  cases hlaw.flag.mpr hwrong

end Law

end Edgessh.Russh
