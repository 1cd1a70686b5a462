import Edgessh.Russh.Kex.Agreement

/-!
# What a client and a server agree upon

The client chooses from the server's KEXINIT and the server from the client's. Both come to the
same: of each kind the first of the client's algorithms that the server has too.
-/

namespace Edgessh.Russh
open Edgessh.Command

section FirstCommon

variable {S : Type} {name : S → Bytes} {ours theirs client server : List S}

/-- Algorithms of the two lists are the same if they have the same name. -/
def NamesDecide (name : S → Bytes) (l m : List S) : Prop :=
  ∀ a ∈ l, ∀ b ∈ m, name a = name b → a = b

theorem NamesDecide.symm (h : NamesDecide name ours theirs) : NamesDecide name theirs ours :=
  fun a ha b hb heq => (h b hb a ha heq.symm).symm

theorem firstMatch_isSome {isMatch : S × Bytes → Bool} {b : Bool} {p : S × Bytes}
    {pairs : List (S × Bytes)} (hp : p ∈ pairs) (hmatch : isMatch p = true) :
    ∃ r, firstMatch isMatch b pairs = some r := by
  induction pairs generalizing b with
  | nil => cases hp
  | cons q pairs ih =>
    rw [firstMatch]
    by_cases hq : isMatch q = true
    · exact ⟨_, if_pos hq⟩
    · rw [if_neg hq]
      apply ih
      rcases List.mem_cons.mp hp with rfl | hp
      · exact absurd hmatch hq
      · exact hp

/-- A name on both lists is enough. -/
theorem select_isOk {role : Role} {names : List Bytes} {kind : AlgorithmKind} {a : S}
    (ha : a ∈ ours) (hname : name a ∈ names) : ∃ r, select role name ours names kind = .ok r := by
  have hmatch : ∀ pairs : List (S × Bytes), (a, name a) ∈ pairs →
      ∃ r, firstMatch (fun p => name p.1 == p.2) true pairs = some r :=
    fun _ hp => firstMatch_isSome hp (beq_self_eq_true _)
  unfold select
  cases role with
  | client =>
    obtain ⟨r, hr⟩ := hmatch (ours.flatMap fun c => names.map fun s => (c, s))
      (List.mem_flatMap.mpr ⟨a, ha, List.mem_map.mpr ⟨_, hname, rfl⟩⟩)
    refine ⟨r, ?_⟩
    dsimp only
    rw [hr]
  | server =>
    obtain ⟨r, hr⟩ := hmatch (names.flatMap fun c => ours.map fun s => (s, c))
      (List.mem_flatMap.mpr ⟨_, hname, List.mem_map.mpr ⟨a, ha, rfl⟩⟩)
    refine ⟨r, ?_⟩
    dsimp only
    rw [hr]

variable [DecidableEq S]

/-- The first of the client's algorithms that the server has too. -/
def firstCommon (client server : List S) : Option S := client.find? (server.contains ·)

/-- The same for the algorithms of this side and of the other. -/
def Role.firstCommon (role : Role) (ours theirs : List S) : Option S :=
  match role with
  | .client => Russh.firstCommon ours theirs
  | .server => Russh.firstCommon theirs ours

theorem firstCommon_mem {s : S} (h : firstCommon client server = some s) :
    s ∈ client ∧ s ∈ server := by
  refine ⟨List.mem_of_find?_eq_some h, ?_⟩
  have hs := List.find?_some h
  simpa using hs

/-- The names agree upon the name of the algorithm. -/
theorem agreed_map (h : NamesDecide name client server) :
    agreed (client.map name) (server.map name) = (firstCommon client server).map name := by
  induction client with
  | nil => rfl
  | cons c client ih =>
    have hrest := ih fun a ha => h a (List.mem_cons_of_mem _ ha)
    have hc : (server.map name).contains (name c) = server.contains c := by
      rw [Bool.eq_iff_iff, List.contains_iff_mem, List.contains_iff_mem, List.mem_map]
      constructor
      · rintro ⟨b, hb, hname⟩
        rw [h c List.mem_cons_self b hb hname.symm]
        exact hb
      · exact fun hmem => ⟨c, hmem, rfl⟩
    unfold agreed firstCommon at hrest ⊢
    rw [List.map_cons, List.find?_cons, List.find?_cons, hc]
    cases server.contains c with
    | true => rfl
    | false => exact hrest

/-- What `select` does with the names of the other side. -/
inductive Selects (role : Role) (name : S → Bytes) (ours theirs : List S) (names : List Bytes)
    (kind : AlgorithmKind) : Prop
  | chosen (first : Bool) (s : S) : select role name ours names kind = .ok (first, s) →
    role.firstCommon ours theirs = some s → Selects role name ours theirs names kind
  | failed (e : Error) : select role name ours names kind = .error e →
    role.firstCommon ours theirs = none → Selects role name ours theirs names kind

theorem selects_map (role : Role) (kind : AlgorithmKind) (h : NamesDecide name ours theirs) :
    Selects role name ours theirs (theirs.map name) kind := by
  cases hselect : select role name ours (theirs.map name) kind with
  | ok r =>
    obtain ⟨first, s⟩ := r
    obtain ⟨hs, -⟩ := select_mem hselect
    have hagreed := select_agreed hselect
    refine .chosen first s hselect ?_
    cases role with
    | client =>
      rw [Role.clientList, Role.serverList, agreed_map h, Option.map_eq_some_iff] at hagreed
      obtain ⟨s', hs', hname⟩ := hagreed
      rw [Role.firstCommon, hs', h s hs s' (firstCommon_mem hs').2 hname.symm]
    | server =>
      rw [Role.clientList, Role.serverList, agreed_map h.symm, Option.map_eq_some_iff] at hagreed
      obtain ⟨s', hs', hname⟩ := hagreed
      rw [Role.firstCommon, hs', h s hs s' (firstCommon_mem hs').1 hname.symm]
  | error e =>
    refine .failed e hselect ?_
    cases hcommon : role.firstCommon ours theirs with
    | none => rfl
    | some s =>
      have hs : s ∈ ours ∧ s ∈ theirs := by
        cases role with
        | client => exact firstCommon_mem hcommon
        | server => exact (firstCommon_mem hcommon).symm
      obtain ⟨r, hr⟩ : ∃ r, select role name ours (theirs.map name) kind = .ok r :=
        select_isOk hs.1 (List.mem_map.mpr ⟨s, hs.2, rfl⟩)
      rw [hr] at hselect
      cases hselect

end FirstCommon

section Names

/-- A name as RFC 4250 has it: not empty, in ASCII, without a comma. -/
structure WellNamed (n : Bytes) : Prop where
  nonempty : n ≠ []
  ascii : (n.all fun b => b < 0x80) = true
  comma : (44 : UInt8) ∉ n

theorem splitNames_eq (b : Bytes) : splitNames b = b.splitOn 44 := by
  induction b with
  | nil => rfl
  | cons a b ih =>
    rw [splitNames, ih, List.splitOn_cons_eq_if_modifyHead]
    by_cases ha : a = 44
    · rw [if_pos ha, if_pos (beq_iff_eq.mpr ha)]
    · rw [if_neg ha, if_neg (by simpa using ha)]
      cases hs : b.splitOn 44 with
      | nil => exact absurd hs (List.splitOn_ne_nil _ _)
      | cons n ns => rfl

theorem splitNames_joinNames {names : List Bytes} (h : ∀ n ∈ names, WellNamed n)
    (hne : names ≠ []) : splitNames (joinNames names) = names := by
  rw [splitNames_eq, joinNames]
  exact List.splitOn_intercalate 44 (fun n hn => (h n hn).comma) hne

theorem ascii_joinNames {names : List Bytes} (h : ∀ n ∈ names, WellNamed n) :
    ((joinNames names).all fun b => b < 0x80) = true := by
  unfold joinNames
  induction names with
  | nil => rfl
  | cons n names ih =>
    have hn := (h n List.mem_cons_self).ascii
    have hnames := ih fun m hm => h m (List.mem_cons_of_mem _ hm)
    cases names with
    | nil =>
      rw [List.intercalate_singleton]
      exact hn
    | cons m names =>
      rw [List.intercalate_cons_cons, List.all_append, List.all_append, hn, hnames]
      rfl

theorem decodeString_encodeNameList {names : List Bytes} (h : ∀ n ∈ names, WellNamed n)
    (hlen : (joinNames names).length ≤ maxSize) (r : Bytes) :
    decodeWith decodeString (encodeNameList names ++ r) = .ok (joinNames names, r) := by
  have hs := decodeString_encodeBytes hlen (validUtf8_of_ascii (ascii_joinNames h)) r
  unfold decodeWith
  rw [encodeNameList, hs]
  rfl

variable {S : Type} [DecidableEq S] {name : S → Bytes} {ours theirs : List S}

/-- The same for the names as they are sent: an empty list is read as one empty name. -/
theorem selects_names (role : Role) (kind : AlgorithmKind) (h : NamesDecide name ours theirs)
    (hours : ∀ a ∈ ours, WellNamed (name a)) (htheirs : ∀ a ∈ theirs, WellNamed (name a)) :
    Selects role name ours theirs (splitNames (joinNames (theirs.map name))) kind := by
  cases theirs with
  | nil =>
    cases hselect : select role name ours (splitNames (joinNames ([].map name))) kind with
    | ok r =>
      obtain ⟨hs, hname⟩ := select_mem hselect
      exact absurd (List.mem_singleton.mp hname) (hours _ hs).nonempty
    | error e =>
      refine .failed e hselect ?_
      cases role with
      | client => exact List.find?_eq_none.mpr fun a _ => by simp
      | server => rfl
  | cons a theirs =>
    have hnames : ∀ n ∈ (a :: theirs).map name, WellNamed n := by
      intro n hn
      obtain ⟨b, hb, rfl⟩ := List.mem_map.mp hn
      exact htheirs b hb
    rw [splitNames_joinNames hnames (by simp)]
    exact selects_map role kind h

instance (n : Bytes) : Decidable (WellNamed n) :=
  decidable_of_iff (n ≠ [] ∧ (n.all fun b => b < 0x80) = true ∧ (44 : UInt8) ∉ n)
    ⟨fun h => ⟨h.1, h.2.1, h.2.2⟩, fun h => ⟨h.nonempty, h.ascii, h.comma⟩⟩

theorem KexName.wellNamed (k : KexName) : WellNamed k.name := by
  cases k <;> decide +kernel

theorem CipherName.wellNamed (c : CipherName) : WellNamed c.name := by
  cases c <;> decide +kernel

theorem MacName.wellNamed (m : MacName) : WellNamed m.name := by
  cases m <;> decide +kernel

theorem CompressionName.wellNamed (c : CompressionName) : WellNamed c.name := by
  cases c <;> decide +kernel

theorem kexName_injective {k k' : KexName} (h : k.name = k'.name) : k = k' := by
  have hnodup : ((allKexAlgorithms ++ kexExtensionNames).map KexName.name).Nodup := by
    decide +kernel
  have hmem : ∀ k : KexName, k ∈ allKexAlgorithms ++ kexExtensionNames := by
    intro k
    cases k <;> decide
  exact List.inj_on_of_nodup_map hnodup (hmem k) (hmem k') h

theorem cipherName_injective {c c' : CipherName} (h : c.name = c'.name) : c = c' := by
  have hnodup : (allCiphers.map CipherName.name).Nodup := by decide +kernel
  have hmem : ∀ c : CipherName, c ∈ allCiphers := by
    intro c
    cases c <;> decide
  exact List.inj_on_of_nodup_map hnodup (hmem c) (hmem c') h

theorem macName_injective {m m' : MacName} (h : m.name = m'.name) : m = m' := by
  revert h
  cases m <;> cases m' <;> decide +kernel

theorem compressionName_injective {c c' : CompressionName} (h : c.name = c'.name) : c = c' := by
  revert h
  cases c <;> cases c' <;> decide +kernel

/-- The algorithms that have a name of their own. -/
def Algorithm.builtin : List Algorithm :=
  [.dsa, .ecdsa .nistP256, .ecdsa .nistP384, .ecdsa .nistP521, .ed25519, .rsa none,
    .rsa (some .sha256), .rsa (some .sha512), .skEcdsaSha2NistP256, .skEd25519]

/-- The name of an algorithm that is not one of these. -/
structure ForeignName (n : Bytes) : Prop extends WellNamed n where
  foreign : ∀ a ∈ Algorithm.builtin, a.name ≠ n

/-- An algorithm with a name of its own, or with a foreign one. -/
def Algorithm.WellNamed : Algorithm → Prop
  | .other n => ForeignName n
  | _ => True

theorem Algorithm.mem_builtin (a : Algorithm) : a ∈ builtin ∨ ∃ n, a = .other n := by
  cases a with
  | other n => exact .inr ⟨n, rfl⟩
  | ecdsa curve => cases curve <;> exact .inl (by decide)
  | rsa hash =>
    cases hash with
    | none => exact .inl (by decide)
    | some hash => cases hash <;> exact .inl (by decide)
  | dsa => exact .inl (by decide)
  | ed25519 => exact .inl (by decide)
  | skEcdsaSha2NistP256 => exact .inl (by decide)
  | skEd25519 => exact .inl (by decide)

theorem Algorithm.wellNamed_name {a : Algorithm} (h : a.WellNamed) : Russh.WellNamed a.name := by
  rcases a.mem_builtin with ha | ⟨n, rfl⟩
  · have hall : ∀ a ∈ Algorithm.builtin, Russh.WellNamed a.name := by decide +kernel
    exact hall a ha
  · exact ForeignName.toWellNamed h

theorem algorithmName_injective {a b : Algorithm} (ha : a.WellNamed) (hb : b.WellNamed)
    (h : a.name = b.name) : a = b := by
  rcases a.mem_builtin with ha' | ⟨n, rfl⟩
  · rcases b.mem_builtin with hb' | ⟨m, rfl⟩
    · have hnodup : (Algorithm.builtin.map Algorithm.name).Nodup := by decide +kernel
      exact List.inj_on_of_nodup_map hnodup ha' hb' h
    · exact absurd h (ForeignName.foreign hb a ha')
  · rcases b.mem_builtin with hb' | ⟨m, rfl⟩
    · exact absurd h.symm (ForeignName.foreign ha b hb')
    · have h : n = m := h
      rw [h]

end Names

section Negotiated

/-- The other side can decode the name-lists of a KEXINIT. -/
structure Preferred.Sendable (pref : Preferred) (serverKeys : Option (List PrivateKey)) :
    Prop where
  foreign : ∀ a ∈ pref.hostKeyAlgos serverKeys, a.WellNamed
  kex : (joinNames ((pref.sentKex serverKeys).map KexName.name)).length ≤ maxSize
  key : (joinNames ((pref.hostKeyAlgos serverKeys).map Algorithm.name)).length ≤ maxSize
  cipher : (joinNames (pref.cipher.map CipherName.name)).length ≤ maxSize
  mac : (joinNames (pref.mac.map MacName.name)).length ≤ maxSize
  compression : (joinNames (pref.compression.map CompressionName.name)).length ≤ maxSize

variable {pref other : Preferred} {serverKeys ourKeys : Option (List PrivateKey)} {role : Role}

theorem tryFrom_name (k : KexName) : KexName.tryFrom k.name = allKexAlgorithms.find? (· == k) := by
  unfold KexName.tryFrom
  refine congrArg (fun p => allKexAlgorithms.find? p) (funext fun k' => ?_)
  rw [Bool.eq_iff_iff, beq_iff_eq, beq_iff_eq]
  exact ⟨kexName_injective, congrArg _⟩

/-- Of the names that are sent, the ones that are not extensions are known. -/
theorem knownKexNames_sentKex (pref : Preferred) (serverKeys : Option (List PrivateKey)) :
    knownKexNames ((pref.sentKex serverKeys).map KexName.name) =
      pref.kexNoExt.map KexName.name := by
  unfold knownKexNames Preferred.sentKex Preferred.kexNoExt
  rw [List.filter_map, List.filter_filter]
  refine congrArg _ (List.filter_congr fun k _ => ?_)
  rw [Function.comp_apply, tryFrom_name]
  cases serverKeys <;> cases k <;> rfl

/-- The marker of the other side's strict key exchange. -/
def Role.strictMarker : Role → KexName
  | .client => .extensionOpensshStrictKexAsClient
  | .server => .extensionOpensshStrictKexAsServer

def Role.peer : Role → Role
  | .client => .server
  | .server => .client

/-- A side that has host keys is a server. -/
def Role.keys (role : Role) (keys : List PrivateKey) : Option (List PrivateKey) :=
  match role with
  | .client => none
  | .server => some keys

/-- An extension is found if the other side has sent it. -/
theorem select_marker (role : Role) (k : KexName) (theirs : List KexName) (kind : AlgorithmKind) :
    (select role KexName.name [k] (splitNames (joinNames (theirs.map KexName.name))) kind).isOk =
      theirs.contains k := by
  have hselects : Selects role KexName.name [k] theirs
      (splitNames (joinNames (theirs.map KexName.name))) kind :=
    selects_names role kind (fun _ _ _ _ h => kexName_injective h) (fun a _ => a.wellNamed)
      fun a _ => a.wellNamed
  have hcommon : (role.firstCommon [k] theirs).isSome = theirs.contains k := by
    cases role with
    | client =>
      show ([k].find? (theirs.contains ·)).isSome = _
      rw [List.find?_singleton]
      split <;> simp_all
    | server =>
      show (theirs.find? ([k].contains ·)).isSome = _
      rw [Bool.eq_iff_iff, List.find?_isSome, List.contains_iff_mem]
      simp
  rw [← hcommon]
  rcases hselects with ⟨first, s, hselect, hsome⟩ | ⟨e, hselect, hnone⟩
  · rw [hselect, hsome]
    rfl
  · rw [hselect, hnone]
    rfl

/-- A side sends its own marker if it prefers it. -/
theorem sentKex_strictMarker (role : Role) (pref : Preferred) (keys : List PrivateKey) :
    (pref.sentKex (role.keys keys)).contains role.strictMarker =
      pref.kex.contains role.strictMarker := by
  unfold Preferred.sentKex
  rw [Bool.eq_iff_iff, List.contains_iff_mem, List.contains_iff_mem, List.mem_filter,
    and_iff_left_iff_imp]
  intro _
  cases role <;> rfl

/-- The MAC of both directions. -/
def Role.negotiatedMac (role : Role) (ours theirs : Preferred) (cipher : CipherName) :
    Option MacName :=
  match role.firstCommon ours.mac theirs.mac with
  | some mac => some mac
  | none => if cipher.needsMac then none else some .none

/-- What one side is to choose, of our preferences and the other side's. -/
def Role.negotiated (role : Role) (ours theirs : Preferred) (keys : List PrivateKey)
    (strictRekey : Bool) : Option Names := do
  let kex ← role.firstCommon ours.kexNoExt theirs.kexNoExt
  let key ← role.firstCommon (ours.hostKeyAlgos (role.keys keys))
    (theirs.hostKeyAlgos (role.peer.keys keys))
  let cipher ← role.firstCommon ours.cipher theirs.cipher
  let mac ← role.negotiatedMac ours theirs cipher
  let compression ← role.firstCommon ours.compression theirs.compression
  pure
    { kex, key, cipher
      clientMac := mac
      serverMac := mac
      clientCompression := Compression.new compression
      serverCompression := Compression.new compression
      ignoreGuessed := false
      strictKex := (ours.kex.contains role.strictMarker &&
        theirs.kex.contains role.peer.strictMarker) || strictRekey }

theorem drop_kexInitPayload (pref : Preferred) (serverKeys : Option (List PrivateKey))
    (cookie : ByteArrayN 16) :
    (kexInitPayload pref serverKeys cookie).drop 17 =
      encodeNameList ((pref.sentKex serverKeys).map KexName.name) ++
        (encodeNameList ((pref.hostKeyAlgos serverKeys).map Algorithm.name) ++
          (encodeNameList (pref.cipher.map CipherName.name) ++
            (encodeNameList (pref.cipher.map CipherName.name) ++
              (encodeNameList (pref.mac.map MacName.name) ++
                (encodeNameList (pref.mac.map MacName.name) ++
                  (encodeNameList (pref.compression.map CompressionName.name) ++
                    (encodeNameList (pref.compression.map CompressionName.name) ++
                      (encodeNameList [] ++ (encodeNameList [] ++ ([0] ++ encodeU32 0)))))))))) := by
  have hhead : (Msg.kexInit :: cookie.val).length = 17 := by
    rw [List.length_cons, cookie.property]
  unfold kexInitPayload
  simp only [List.append_assoc]
  refine (List.drop_left' hhead).trans ?_
  cases serverKeys <;> rfl

/-- The choice of `readKex` from the name-lists that it has decoded, where no guess follows. -/
def chooseNames (role : Role) (pref : Preferred) (availableHostKeys : Option (List PrivateKey))
    (cause : KexCause) (kex key cipher mac compression : List Bytes) : Except Error Names := do
  let (_, kexAlgorithm) ← select role KexName.name pref.kexNoExt (knownKexNames kex) .kex
  let strictKexProvided := (select role KexName.name [role.peer.strictMarker] kex .kex).isOk
  let (_, keyAlgorithm) ←
    select role Algorithm.name (pref.hostKeyAlgos availableHostKeys) key .key
  let (_, cipher) ← select role CipherName.name pref.cipher cipher .cipher
  let clientMac ← selectMac role pref cipher.needsMac mac
  let serverMac ← selectMac role pref cipher.needsMac mac
  let (_, clientCompression) ←
    select role CompressionName.name pref.compression compression .compression
  let (_, serverCompression) ←
    select role CompressionName.name pref.compression compression .compression
  pure
    { kex := kexAlgorithm
      key := keyAlgorithm
      cipher, clientMac, serverMac
      clientCompression := Compression.new clientCompression
      serverCompression := Compression.new serverCompression
      ignoreGuessed := false
      strictKex :=
        (pref.kex.contains role.strictMarker && strictKexProvided) || cause.isStrictRekey }

theorem readKex_decoded {buffer r₁ r₂ r₃ r₄ r₅ r₆ r₇ r₈ r₉ r₁₀ r₁₁ : Bytes}
    {kex key cipher mac compression : Bytes} {cause : KexCause} (hlen : ¬buffer.length < 17)
    (h₁ : decodeWith decodeString (buffer.drop 17) = .ok (kex, r₁))
    (h₂ : decodeWith decodeString r₁ = .ok (key, r₂))
    (h₃ : decodeWith decodeString r₂ = .ok (cipher, r₃))
    (h₄ : decodeWith decodeString r₃ = .ok (cipher, r₄))
    (h₅ : decodeWith decodeString r₄ = .ok (mac, r₅))
    (h₆ : decodeWith decodeString r₅ = .ok (mac, r₆))
    (h₇ : decodeWith decodeString r₆ = .ok (compression, r₇))
    (h₈ : decodeWith decodeString r₇ = .ok (compression, r₈))
    (h₉ : decodeWith decodeString r₈ = .ok ([], r₉))
    (h₁₀ : decodeWith decodeString r₉ = .ok ([], r₁₀))
    (h₁₁ : decodeWith decodeU8 r₁₀ = .ok (0, r₁₁)) :
    readKex role buffer pref ourKeys cause =
      chooseNames role pref ourKeys cause (splitNames kex) (splitNames key) (splitNames cipher)
        (splitNames mac) (splitNames compression) := by
  unfold readKex
  rw [if_neg hlen]
  simp only [h₁, h₂, h₃, h₄, h₅, h₆, h₇, h₈, h₉, h₁₀, h₁₁, bind, Except.bind]
  cases role <;> rfl

/-- The name-lists of a KEXINIT are decoded as they have been sent. -/
theorem readKex_kexInitPayload (role : Role) (cookie : ByteArrayN 16) (cause : KexCause)
    (h : other.Sendable serverKeys) :
    readKex role (kexInitPayload other serverKeys cookie) pref ourKeys cause =
      chooseNames role pref ourKeys cause
        (splitNames (joinNames ((other.sentKex serverKeys).map KexName.name)))
        (splitNames (joinNames ((other.hostKeyAlgos serverKeys).map Algorithm.name)))
        (splitNames (joinNames (other.cipher.map CipherName.name)))
        (splitNames (joinNames (other.mac.map MacName.name)))
        (splitNames (joinNames (other.compression.map CompressionName.name))) := by
  have hdecode : ∀ {S : Type} {name : S → Bytes} (l : List S), (∀ a ∈ l, WellNamed (name a)) →
      (joinNames (l.map name)).length ≤ maxSize → ∀ r,
        decodeWith decodeString (encodeNameList (l.map name) ++ r) =
          .ok (joinNames (l.map name), r) := by
    intro S name l hl hlen r
    apply decodeString_encodeNameList _ hlen
    intro n hn
    obtain ⟨a, ha, rfl⟩ := List.mem_map.mp hn
    exact hl a ha
  have hcipher := hdecode _ (fun c _ => CipherName.wellNamed c) h.cipher
  have hmac := hdecode _ (fun m _ => MacName.wellNamed m) h.mac
  have hcompression := hdecode _ (fun c _ => CompressionName.wellNamed c) h.compression
  have hlang : ∀ r, decodeWith decodeString (encodeNameList [] ++ r) = .ok ([], r) := by
    intro r
    exact decodeString_encodeNameList (fun _ hn => absurd hn List.not_mem_nil) (Nat.zero_le _) r
  have hdrop := drop_kexInitPayload other serverKeys cookie
  have hlen : ¬(kexInitPayload other serverKeys cookie).length < 17 := by
    intro hlt
    have hlength := congrArg List.length hdrop
    rw [List.length_drop, List.length_append, encodeNameList, encodeBytes, List.length_append,
      encodeU32_length] at hlength
    omega
  exact readKex_decoded hlen (hdrop ▸ hdecode _ (fun k _ => KexName.wellNamed k) h.kex _)
    (hdecode _ (fun a ha => Algorithm.wellNamed_name (h.foreign a ha)) h.key _)
    (hcipher _) (hcipher _) (hmac _) (hmac _) (hcompression _) (hcompression _)
    (hlang _) (hlang _) rfl

theorem knownKexNames_sent (pref : Preferred) (serverKeys : Option (List PrivateKey)) :
    knownKexNames (splitNames (joinNames ((pref.sentKex serverKeys).map KexName.name))) =
      pref.kexNoExt.map KexName.name := by
  have hknown := knownKexNames_sentKex pref serverKeys
  cases hsent : pref.sentKex serverKeys with
  | nil =>
    rw [hsent] at hknown
    rw [← hknown]
    decide +kernel
  | cons k ks =>
    rw [← hknown, hsent, splitNames_joinNames _ (by simp)]
    intro n hn
    obtain ⟨k, -, rfl⟩ := List.mem_map.mp hn
    exact k.wellNamed

theorem selectMac_names (role : Role) (ours theirs : Preferred) (cipher : CipherName) :
    (∃ mac, selectMac role ours cipher.needsMac
        (splitNames (joinNames (theirs.mac.map MacName.name))) = .ok mac ∧
          role.negotiatedMac ours theirs cipher = some mac) ∨
      ∃ e, selectMac role ours cipher.needsMac
        (splitNames (joinNames (theirs.mac.map MacName.name))) = .error e ∧
          role.negotiatedMac ours theirs cipher = none := by
  have hselects : Selects role MacName.name ours.mac theirs.mac
      (splitNames (joinNames (theirs.mac.map MacName.name))) .mac :=
    selects_names role .mac (fun _ _ _ _ h => macName_injective h) (fun m _ => m.wellNamed)
      fun m _ => m.wellNamed
  unfold selectMac Role.negotiatedMac
  rcases hselects with ⟨first, mac, hselect, hcommon⟩ | ⟨e, hselect, hcommon⟩
  · rw [hselect, hcommon]
    exact .inl ⟨mac, rfl, rfl⟩
  · rw [hselect, hcommon]
    cases cipher.needsMac with
    | true => exact .inr ⟨e, rfl, rfl⟩
    | false => exact .inl ⟨.none, rfl, rfl⟩

/-- What one side makes of the KEXINIT of the other. -/
theorem readKex_toOption (role : Role) (keys : List PrivateKey) (cookie : ByteArrayN 16)
    (cause : KexCause) (hours : ∀ a ∈ pref.hostKeyAlgos (role.keys keys), a.WellNamed)
    (hother : other.Sendable (role.peer.keys keys)) :
    (readKex role (kexInitPayload other (role.peer.keys keys) cookie) pref (role.keys keys)
      cause).toOption = role.negotiated pref other keys cause.isStrictRekey := by
  rw [readKex_kexInitPayload role cookie cause hother]
  have hmarker := (select_marker role role.peer.strictMarker (other.sentKex (role.peer.keys keys))
    .kex).trans (sentKex_strictMarker role.peer other keys)
  unfold chooseNames Role.negotiated
  rw [knownKexNames_sent, hmarker]
  have hkex : Selects role KexName.name pref.kexNoExt other.kexNoExt _ .kex :=
    selects_map role .kex fun _ _ _ _ h => kexName_injective h
  have hkey : Selects role Algorithm.name (pref.hostKeyAlgos (role.keys keys))
      (other.hostKeyAlgos (role.peer.keys keys)) _ .key :=
    selects_names role .key
      (fun a ha b hb h => algorithmName_injective (hours a ha) (hother.foreign b hb) h)
      (fun a ha => Algorithm.wellNamed_name (hours a ha))
      fun a ha => Algorithm.wellNamed_name (hother.foreign a ha)
  have hcipher : Selects role CipherName.name pref.cipher other.cipher _ .cipher :=
    selects_names role .cipher (fun _ _ _ _ h => cipherName_injective h)
      (fun c _ => c.wellNamed) fun c _ => c.wellNamed
  have hcompression : Selects role CompressionName.name pref.compression other.compression _
      .compression :=
    selects_names role .compression (fun _ _ _ _ h => compressionName_injective h)
      (fun c _ => c.wellNamed) fun c _ => c.wellNamed
  rcases hkex with ⟨_, kex, hkex, hkex'⟩ | ⟨e, hkex, hkex'⟩
  · rcases hkey with ⟨_, key, hkey, hkey'⟩ | ⟨e, hkey, hkey'⟩
    · rcases hcipher with ⟨_, cipher, hcipher, hcipher'⟩ | ⟨e, hcipher, hcipher'⟩
      · rw [hkex, hkex', hkey, hkey', hcipher, hcipher']
        simp only [bind, Except.bind, Option.bind]
        rcases selectMac_names role pref other cipher with ⟨mac, hmac, hmac'⟩ | ⟨e, hmac, hmac'⟩
        · rw [hmac, hmac']
          rcases hcompression with ⟨_, c, hselect, hcommon⟩ | ⟨e, hselect, hcommon⟩
          · rw [hselect, hcommon]
            rfl
          · rw [hselect, hcommon]
            rfl
        · rw [hmac, hmac']
          rfl
      · rw [hkex, hkex', hkey, hkey', hcipher, hcipher']
        rfl
    · rw [hkex, hkex', hkey, hkey']
      rfl
  · rw [hkex, hkex']
    rfl

/-- RFC 4253, section 7.1: of each kind the first of the client's algorithms that the server has
too. The MAC is that of both directions; a cipher with a MAC of its own does without one. -/
def negotiated (client server : Preferred) (keys : List PrivateKey) (strictRekey : Bool) :
    Option Names := do
  let kex ← firstCommon client.kexNoExt server.kexNoExt
  let key ← firstCommon client.key (server.possibleHostKeyAlgosForKeys keys)
  let cipher ← firstCommon client.cipher server.cipher
  let mac ← (firstCommon client.mac server.mac).orElse fun _ =>
    if cipher.needsMac then none else some .none
  let compression ← firstCommon client.compression server.compression
  pure
    { kex, key, cipher
      clientMac := mac
      serverMac := mac
      clientCompression := Compression.new compression
      serverCompression := Compression.new compression
      ignoreGuessed := false
      strictKex := (client.kex.contains .extensionOpensshStrictKexAsClient &&
        server.kex.contains .extensionOpensshStrictKexAsServer) || strictRekey }

theorem negotiatedMac_eq (role : Role) (ours theirs : Preferred) (cipher : CipherName) :
    role.negotiatedMac ours theirs cipher = (role.firstCommon ours.mac theirs.mac).orElse fun _ =>
      if cipher.needsMac then none else some .none := by
  unfold Role.negotiatedMac
  cases role.firstCommon ours.mac theirs.mac <;> rfl

/-- A client and a server that read each other's KEXINIT come to the same names, or both to
none. -/
theorem negotiation_agreement {client server : Preferred} {keys : List PrivateKey}
    {clientCookie serverCookie : ByteArrayN 16} {clientCause serverCause : KexCause}
    {strictRekey : Bool} (hclient : client.Sendable none) (hserver : server.Sendable (some keys))
    (hclientCause : clientCause.isStrictRekey = strictRekey)
    (hserverCause : serverCause.isStrictRekey = strictRekey) :
    (readKex .client (kexInitPayload server (some keys) serverCookie) client none
        clientCause).toOption = negotiated client server keys strictRekey ∧
      (readKex .server (kexInitPayload client none clientCookie) server (some keys)
        serverCause).toOption = negotiated client server keys strictRekey := by
  constructor
  · refine (readKex_toOption .client keys serverCookie clientCause hclient.foreign hserver).trans ?_
    unfold Role.negotiated negotiated
    simp only [negotiatedMac_eq, hclientCause]
    rfl
  · refine (readKex_toOption .server keys clientCookie serverCause hserver.foreign hclient).trans ?_
    unfold Role.negotiated negotiated
    simp only [negotiatedMac_eq, hserverCause]
    rw [Bool.and_comm (server.kex.contains Role.server.strictMarker)]
    rfl

/-- An Ed25519 host key. -/
def someHostKey : PrivateKey := ⟨.ed25519, ⟨[]⟩⟩

theorem default_sendable (serverKeys : Option (List PrivateKey)) (h : serverKeys = none ∨
    serverKeys = some [someHostKey]) : Preferred.default.Sendable serverKeys := by
  have hbuiltin : ∀ a ∈ Preferred.default.key, a.WellNamed := by
    simp [Preferred.default, Algorithm.WellNamed]
  rcases h with rfl | rfl
  · refine ⟨hbuiltin, ?_, ?_, ?_, ?_, ?_⟩ <;> decide +kernel
  · refine ⟨fun a ha => hbuiltin a (List.mem_filter.mp ha).1, ?_, ?_, ?_, ?_, ?_⟩ <;>
      decide +kernel

theorem negotiation_agreement_default :
    (readKex .client (kexInitPayload Preferred.default (some [someHostKey]) default)
        Preferred.default none .initial).toOption =
      negotiated Preferred.default Preferred.default [someHostKey] false ∧
    (readKex .server (kexInitPayload Preferred.default none default) Preferred.default
        (some [someHostKey]) .initial).toOption =
      negotiated Preferred.default Preferred.default [someHostKey] false :=
  negotiation_agreement (default_sendable none (.inl rfl)) (default_sendable _ (.inr rfl)) rfl rfl

end Negotiated

end Edgessh.Russh
