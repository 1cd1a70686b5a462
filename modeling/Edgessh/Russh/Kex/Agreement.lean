import Edgessh.Russh.Kex.Progress

/-!
# What two KEXINITs agree upon

The name-lists of a KEXINIT as the packet has them, and what `readKex` makes of them: the cipher
of each direction as RFC 4253, section 7.1, has it, and the one that both directions get.
-/

namespace Edgessh.Russh
open Edgessh.Command

/-- The fields of a KEXINIT that the choice of the exchange and of the ciphers is about. -/
structure KexInitLists where
  kex : List Bytes
  key : List Bytes
  cipherToServer : List Bytes
  cipherToClient : List Bytes
  firstKexPacketFollows : Bool
  deriving DecidableEq, Repr

/-- The ten name-lists of a KEXINIT stand after its type and its cookie. -/
def KexInitLists.parse (buffer : Bytes) : Except EncodingError KexInitLists := do
  let (kex, r) ← decodeNameList (buffer.drop 17)
  let (key, r) ← decodeNameList r
  let (cipherToServer, r) ← decodeNameList r
  let (cipherToClient, r) ← decodeNameList r
  let (_, r) ← decodeNameList r
  let (_, r) ← decodeNameList r
  let (_, r) ← decodeNameList r
  let (_, r) ← decodeNameList r
  let (_, r) ← decodeNameList r
  let (_, r) ← decodeNameList r
  let (follows, _) ← decodeU8 r
  pure { kex, key, cipherToServer, cipherToClient, firstKexPacketFollows := follows != 0 }

theorem decodeNameList_of_decodeWith {r r' s : Bytes}
    (h : decodeWith decodeString r = .ok (s, r')) :
    decodeNameList r = .ok (splitNames s, r') := by
  have hs : decodeString r = .ok (s, r') := mapError_eq_ok.mp h
  simp [decodeNameList, hs, bind, Except.bind, pure, Except.pure]

/-- The names of a KEXINIT that are not extensions, as far as this side knows them. -/
def knownKexNames (theirs : List Bytes) : List Bytes :=
  theirs.filter fun k =>
    match KexName.tryFrom k with
    | some k => !kexExtensionNames.contains k
    | none => false

/-- Our methods of key exchange without the extensions. -/
def Preferred.kexNoExt (pref : Preferred) : List KexName :=
  pref.kex.filter fun k => !kexExtensionNames.contains k

/-- The host key algorithms that we offer. -/
def Preferred.hostKeyAlgos (pref : Preferred) (availableHostKeys : Option (List PrivateKey)) :
    List Algorithm :=
  match availableHostKeys with
  | some keys => pref.possibleHostKeyAlgosForKeys keys
  | none => pref.key

/-- What `readKex` has chosen, in terms of the lists of the packet. -/
structure Chosen (role : Role) (pref : Preferred)
    (availableHostKeys : Option (List PrivateKey)) (lists : KexInitLists) (names : Names) :
    Prop where
  kex : ∃ kexBothFirst keyBothFirst,
    select role KexName.name pref.kexNoExt (knownKexNames lists.kex) .kex =
        .ok (kexBothFirst, names.kex) ∧
      select role Algorithm.name (pref.hostKeyAlgos availableHostKeys) lists.key .key =
        .ok (keyBothFirst, names.key) ∧
      names.ignoreGuessed =
        (lists.firstKexPacketFollows && !(kexBothFirst && keyBothFirst))
  cipher : ∃ bothFirst, select role CipherName.name pref.cipher lists.cipherToServer .cipher =
    .ok (bothFirst, names.cipher)

/-- `readKex` reads the lists of the packet and chooses from them. -/
theorem readKex_eq_ok {role : Role} {buffer : Bytes} {pref : Preferred}
    {availableHostKeys : Option (List PrivateKey)} {cause : KexCause} {names : Names}
    (h : readKex role buffer pref availableHostKeys cause = .ok names) :
    ∃ lists, KexInitLists.parse buffer = .ok lists ∧
      Chosen role pref availableHostKeys lists names := by
  unfold readKex at h
  by_cases hlen : buffer.length < 17
  · rw [if_pos hlen] at h
    cases h
  rw [if_neg hlen] at h
  obtain ⟨⟨kexString, r₁⟩, hs₁, h₁⟩ := bind_eq_ok.mp h
  obtain ⟨⟨kexBothFirst, kexAlgorithm⟩, hkex, h₂⟩ := bind_eq_ok.mp h₁
  obtain ⟨⟨keyString, r₂⟩, hs₂, h₃⟩ := bind_eq_ok.mp h₂
  obtain ⟨⟨keyBothFirst, keyAlgorithm⟩, hkey, h₄⟩ := bind_eq_ok.mp h₃
  obtain ⟨⟨cipherString, r₃⟩, hs₃, h₅⟩ := bind_eq_ok.mp h₄
  obtain ⟨⟨cipherFirst, cipher⟩, hcipher, h₆⟩ := bind_eq_ok.mp h₅
  obtain ⟨⟨backString, r₄⟩, hs₄, h₇⟩ := bind_eq_ok.mp h₆
  obtain ⟨⟨_, r₅⟩, hs₅, h₈⟩ := bind_eq_ok.mp h₇
  obtain ⟨clientMac, -, h₉⟩ := bind_eq_ok.mp h₈
  obtain ⟨⟨_, r₆⟩, hs₆, h₁₀⟩ := bind_eq_ok.mp h₉
  obtain ⟨serverMac, -, h₁₁⟩ := bind_eq_ok.mp h₁₀
  obtain ⟨⟨_, r₇⟩, hs₇, h₁₂⟩ := bind_eq_ok.mp h₁₁
  obtain ⟨_, -, h₁₃⟩ := bind_eq_ok.mp h₁₂
  obtain ⟨⟨_, r₈⟩, hs₈, h₁₄⟩ := bind_eq_ok.mp h₁₃
  obtain ⟨_, -, h₁₅⟩ := bind_eq_ok.mp h₁₄
  obtain ⟨⟨_, r₉⟩, hs₉, h₁₆⟩ := bind_eq_ok.mp h₁₅
  obtain ⟨⟨_, r₁₀⟩, hs₁₀, h₁₇⟩ := bind_eq_ok.mp h₁₆
  obtain ⟨⟨follows, _⟩, hfollows, h⟩ := bind_eq_ok.mp h₁₇
  have hfollows := mapError_eq_ok.mp hfollows
  obtain rfl := pure_eq_ok.mp h
  refine ⟨{ kex := splitNames kexString, key := splitNames keyString,
            cipherToServer := splitNames cipherString, cipherToClient := splitNames backString,
            firstKexPacketFollows := follows != 0 }, ?_,
    ⟨⟨kexBothFirst, keyBothFirst, hkex, hkey, rfl⟩, ⟨cipherFirst, hcipher⟩⟩⟩
  simp only [KexInitLists.parse, decodeNameList_of_decodeWith hs₁,
    decodeNameList_of_decodeWith hs₂, decodeNameList_of_decodeWith hs₃,
    decodeNameList_of_decodeWith hs₄, decodeNameList_of_decodeWith hs₅,
    decodeNameList_of_decodeWith hs₆, decodeNameList_of_decodeWith hs₇,
    decodeNameList_of_decodeWith hs₈, decodeNameList_of_decodeWith hs₉,
    decodeNameList_of_decodeWith hs₁₀, hfollows, bind, Except.bind, pure, Except.pure]

section Agreed

/-- RFC 4253, section 7.1: the first name of the client's list that is also on the server's. -/
def agreed (client server : List Bytes) : Option Bytes := client.find? (server.contains ·)

/-- The client's list, of ours and of the peer's. -/
def Role.clientList (role : Role) (ours theirs : List Bytes) : List Bytes :=
  match role with
  | .client => ours
  | .server => theirs

/-- The server's list, of ours and of the peer's. -/
def Role.serverList (role : Role) (ours theirs : List Bytes) : List Bytes :=
  match role with
  | .client => theirs
  | .server => ours

variable {S : Type} {name : S → Bytes}

theorem firstMatch_find {isMatch : S × Bytes → Bool} {b first : Bool} {s : S}
    {pairs : List (S × Bytes)} (h : firstMatch isMatch b pairs = some (first, s)) :
    ∃ n, pairs.find? isMatch = some (s, n) := by
  induction pairs generalizing b with
  | nil => cases h
  | cons p pairs ih =>
    rw [firstMatch] at h
    by_cases hp : isMatch p = true
    · rw [if_pos hp] at h
      cases h
      exact ⟨p.2, by rw [List.find?_cons_of_pos hp]⟩
    · rw [if_neg hp] at h
      obtain ⟨n, hn⟩ := ih h
      exact ⟨n, by rw [List.find?_cons_of_neg hp, hn]⟩

/-- The pairs of a client's loop: the first of ours that the peer has too. -/
theorem find_client_pairs {ours : List S} {theirs : List Bytes} {s : S} {n : Bytes}
    (h : (ours.flatMap fun c => theirs.map fun t => (c, t)).find? (fun p => name p.1 == p.2) =
      some (s, n)) : agreed (ours.map name) theirs = some (name s) := by
  induction ours with
  | nil => cases h
  | cons c ours ih =>
    rw [List.flatMap_cons, List.find?_append, List.find?_map] at h
    by_cases hc : name c ∈ theirs
    · have hfind : theirs.find? (fun t => name c == t) = some (name c) := by
        cases hf : theirs.find? fun t => name c == t with
        | none => exact absurd (beq_self_eq_true _) (List.find?_eq_none.mp hf _ hc)
        | some t => rw [eq_of_beq (List.find?_some hf)]
      have hcomp : ((fun p : S × Bytes => name p.1 == p.2) ∘ fun t => (c, t)) =
        fun t => name c == t := rfl
      rw [hcomp, hfind] at h
      cases h
      simp [agreed, hc]
    · have hfind : theirs.find? ((fun p : S × Bytes => name p.1 == p.2) ∘ fun t => (c, t)) =
          none := by
        rw [List.find?_eq_none]
        intro t ht heq
        exact hc (eq_of_beq heq ▸ ht)
      rw [hfind] at h
      have hrest := ih (by simpa using h)
      simpa [agreed, hc] using hrest

/-- The pairs of a server's loop: the first of the peer's that we have too. -/
theorem find_server_pairs {ours : List S} {theirs : List Bytes} {s : S} {n : Bytes}
    (h : (theirs.flatMap fun c => ours.map fun t => (t, c)).find? (fun p => name p.1 == p.2) =
      some (s, n)) : agreed theirs (ours.map name) = some (name s) := by
  induction theirs with
  | nil => cases h
  | cons c theirs ih =>
    rw [List.flatMap_cons, List.find?_append, List.find?_map] at h
    cases hf : ours.find? ((fun p : S × Bytes => name p.1 == p.2) ∘ fun t => (t, c)) with
    | some t =>
      rw [hf] at h
      obtain ⟨hts, -⟩ := Prod.mk.inj (Option.some.inj h)
      subst hts
      have hname := List.find?_some hf
      simp only [Function.comp, beq_iff_eq] at hname
      have hmem : c ∈ ours.map name :=
        List.mem_map.mpr ⟨t, List.mem_of_find?_eq_some hf, hname⟩
      rw [hname, agreed, List.find?_cons_of_pos (by simpa using hmem)]
    | none =>
      rw [hf] at h
      have hmem : c ∉ ours.map name := by
        intro hmem
        obtain ⟨t, ht, hname⟩ := List.mem_map.mp hmem
        exact List.find?_eq_none.mp hf t ht (beq_iff_eq.mpr hname)
      rw [agreed, List.find?_cons_of_neg (by simpa using hmem)]
      exact ih (by simpa using h)

/-- `select` chooses the name that the two lists agree upon. -/
theorem select_agreed {role : Role} {ours : List S} {theirs : List Bytes} {kind : AlgorithmKind}
    {first : Bool} {s : S} (h : select role name ours theirs kind = .ok (first, s)) :
    agreed (role.clientList (ours.map name) theirs) (role.serverList (ours.map name) theirs) =
      some (name s) := by
  unfold select at h
  dsimp only at h
  split at h
  · rename_i r hm
    cases h
    obtain ⟨n, hn⟩ := firstMatch_find hm
    cases role with
    | client => exact find_client_pairs hn
    | server => exact find_server_pairs hn
  · cases h

end Agreed

section Cipher

inductive Direction where
  | toServer
  | toClient
  deriving DecidableEq, Repr

/-- The list of the ciphers of one direction. -/
def KexInitLists.cipher (lists : KexInitLists) : Direction → List Bytes
  | .toServer => lists.cipherToServer
  | .toClient => lists.cipherToClient

/-- The name of the cipher that the two sides agree upon for one direction: both of our lists
are `pref.cipher`. -/
def agreedCipher (role : Role) (pref : Preferred) (lists : KexInitLists) (d : Direction) :
    Option Bytes :=
  agreed (role.clientList (pref.cipher.map CipherName.name) (lists.cipher d))
    (role.serverList (pref.cipher.map CipherName.name) (lists.cipher d))

/-- The key of one direction. -/
def CipherPair.key (pair : CipherPair) : Role → Direction → CipherKey
  | .client, .toServer => pair.localToRemote
  | .client, .toClient => pair.remoteToLocal
  | .server, .toServer => pair.remoteToLocal
  | .server, .toClient => pair.localToRemote

/-- The entry of `CIPHERS` that a key belongs to. -/
def CipherKey.entry : CipherKey → CipherName
  | .clear => .clear
  | .keyed cipher _ _ _ _ => cipher

/-- `CIPHERS`: the names `clear` and `none` have one entry. -/
def CipherName.entry : CipherName → CipherName
  | .none => .clear
  | cipher => cipher

/-- The keys of `CIPHERS`. -/
def allCiphers : List CipherName :=
  [.clear, .none, .aes128Ctr, .aes192Ctr, .aes256Ctr, .aes128Gcm, .aes256Gcm, .aes128Cbc,
    .aes192Cbc, .aes256Cbc, .chacha20Poly1305]

/-- `CIPHERS.get`. -/
def cipherEntry (name : Bytes) : Option CipherName :=
  (allCiphers.find? (·.name == name)).map CipherName.entry

theorem cipherEntry_name (cipher : CipherName) : cipherEntry cipher.name = some cipher.entry := by
  cases cipher <;> decide +kernel

theorem makeKey_entry (cipher : CipherName) (key nonce macKey : Bytes) (mac : MacName) :
    (makeKey cipher key nonce macKey mac).entry = cipher.entry := by
  cases cipher <;> rfl

/-- Both keys are of the one cipher that was chosen. -/
theorem newKeys_entry {P : Primitives} {role : Role} {hash : Bytes} {kex : KexAlgorithm}
    {names : Names} {exchange : Exchange} {sessionId : Option Bytes} {newkeys : NewKeys}
    (h : newKeys P role hash kex names exchange sessionId = .ok newkeys) (d : Direction) :
    (newkeys.cipher.key role d).entry = names.cipher.entry := by
  unfold newKeys at h
  obtain ⟨pair, hpair, h⟩ := bind_eq_ok.mp h
  cases h
  have hkeys : ∃ digest shared sessionId hash theirMac ourMac isServer, pair =
      computeKeys P digest shared sessionId hash names.cipher theirMac ourMac isServer := by
    cases kex
    case mlKem768X25519Kex kex =>
      obtain ⟨k, -, hk⟩ := bind_eq_ok.mp hpair
      exact ⟨_, _, _, _, _, _, _, (Except.ok.inj hk).symm⟩
    case none => exact ⟨_, _, _, _, _, _, _, (Except.ok.inj hpair).symm⟩
    all_goals
      obtain ⟨shared, -, hshared⟩ := bind_eq_ok.mp hpair
      exact ⟨_, _, _, _, _, _, _, (Except.ok.inj hshared).symm⟩
  obtain ⟨_, _, _, _, _, _, isServer, rfl⟩ := hkeys
  cases role <;> cases d <;> cases isServer <;> exact makeKey_entry _ _ _ _ _

/-- Each direction has the cipher that the lists of that direction agree upon. -/
def CiphersAgree (role : Role) (pref : Preferred) (lists : KexInitLists) (pair : CipherPair) :
    Prop :=
  ∀ d, (agreedCipher role pref lists d).bind cipherEntry = some (pair.key role d).entry

/-- Only the lists to the server decide: the ciphers agree exactly if the lists to the client
come to the same one. -/
theorem ciphersAgree_iff {P : Primitives} {role : Role} {buffer : Bytes} {pref : Preferred}
    {availableHostKeys : Option (List PrivateKey)} {cause : KexCause} {names : Names}
    {lists : KexInitLists} {hash : Bytes} {kex : KexAlgorithm} {exchange : Exchange}
    {sessionId : Option Bytes} {newkeys : NewKeys}
    (hread : readKex role buffer pref availableHostKeys cause = .ok names)
    (hlists : KexInitLists.parse buffer = .ok lists)
    (hkeys : newKeys P role hash kex names exchange sessionId = .ok newkeys) :
    CiphersAgree role pref lists newkeys.cipher ↔
      (agreedCipher role pref lists .toClient).bind cipherEntry =
        (agreedCipher role pref lists .toServer).bind cipherEntry := by
  obtain ⟨lists', hlists', hchosen⟩ := readKex_eq_ok hread
  obtain rfl : lists = lists' := Except.ok.inj (hlists.symm.trans hlists')
  obtain ⟨bothFirst, hcipher⟩ := hchosen.cipher
  have hserver : (agreedCipher role pref lists .toServer).bind cipherEntry =
      some names.cipher.entry := by
    rw [agreedCipher, KexInitLists.cipher, select_agreed hcipher]
    exact cipherEntry_name _
  have hkey := newKeys_entry hkeys
  constructor
  · intro h
    rw [h .toClient, h .toServer, hkey, hkey]
  · intro h d
    rw [hkey d]
    cases d with
    | toServer => exact hserver
    | toClient => exact h.trans hserver

/-- A KEXINIT with these lists, and one algorithm of each other kind. -/
def KexInitLists.packet (lists : KexInitLists) : Bytes :=
  Msg.kexInit :: List.replicate 16 0 ++ encodeNameList lists.kex ++ encodeNameList lists.key ++
    encodeNameList lists.cipherToServer ++ encodeNameList lists.cipherToClient ++
    encodeNameList [ascii "hmac-sha2-256"] ++ encodeNameList [ascii "hmac-sha2-256"] ++
    encodeNameList [ascii "none"] ++ encodeNameList [ascii "none"] ++ encodeU32 0 ++
    encodeU32 0 ++ encodeBool lists.firstKexPacketFollows ++ encodeU32 0

/-- Both AES ciphers in counter mode, the longer key first. -/
def twoCiphers : Preferred where
  kex := [.curve25519]
  key := [.ed25519]
  cipher := [.aes256Ctr, .aes128Ctr]
  mac := [.hmacSha256]
  compression := [.none]

/-- What a client with `twoCiphers` chooses from an offer of one cipher for each direction. -/
def namesOfOffer : Names where
  kex := .curve25519
  key := .ed25519
  cipher := .aes256Ctr
  clientMac := .hmacSha256
  serverMac := .hmacSha256
  serverCompression := .none
  clientCompression := .none
  ignoreGuessed := false
  strictKex := false

/-- An offer of these ciphers. -/
def cipherOffer (cipherToServer cipherToClient : List Bytes) : KexInitLists where
  kex := [ascii "curve25519-sha256"]
  key := [ascii "ssh-ed25519"]
  cipherToServer := cipherToServer
  cipherToClient := cipherToClient
  firstKexPacketFollows := false

theorem ciphersAgree_offer : ∃ newkeys,
    newKeys Primitives.toy .client [] .none namesOfOffer { clientId := [], serverId := [] } none =
      .ok newkeys ∧
    (CiphersAgree .client twoCiphers
        (cipherOffer [ascii "aes256-ctr"] [ascii "aes128-ctr", ascii "aes256-ctr"])
        newkeys.cipher ↔
      (agreedCipher .client twoCiphers
        (cipherOffer [ascii "aes256-ctr"] [ascii "aes128-ctr", ascii "aes256-ctr"])
        .toClient).bind cipherEntry =
      (agreedCipher .client twoCiphers
        (cipherOffer [ascii "aes256-ctr"] [ascii "aes128-ctr", ascii "aes256-ctr"])
        .toServer).bind cipherEntry) := by
  have hread : readKex .client
      (cipherOffer [ascii "aes256-ctr"] [ascii "aes128-ctr", ascii "aes256-ctr"]).packet
      twoCiphers none .initial = .ok namesOfOffer := by decide +kernel
  have hlists : KexInitLists.parse
      (cipherOffer [ascii "aes256-ctr"] [ascii "aes128-ctr", ascii "aes256-ctr"]).packet =
      .ok (cipherOffer [ascii "aes256-ctr"] [ascii "aes128-ctr", ascii "aes256-ctr"]) := by
    decide +kernel
  obtain ⟨newkeys, hkeys⟩ : ∃ newkeys, newKeys Primitives.toy .client [] .none namesOfOffer
      { clientId := [], serverId := [] } none = .ok newkeys := ⟨_, rfl⟩
  exact ⟨newkeys, hkeys, ciphersAgree_iff hread hlists hkeys⟩

/-- The server offers only `aes128-ctr` for what it sends, and gets `aes256-ctr`. -/
theorem ciphersAgree_fails : ¬∀ (P : Primitives) (role : Role) (buffer : Bytes)
    (pref : Preferred) (availableHostKeys : Option (List PrivateKey)) (cause : KexCause)
    (names : Names) (lists : KexInitLists) (hash : Bytes) (kex : KexAlgorithm)
    (exchange : Exchange) (sessionId : Option Bytes) (newkeys : NewKeys),
    readKex role buffer pref availableHostKeys cause = .ok names →
    KexInitLists.parse buffer = .ok lists →
    newKeys P role hash kex names exchange sessionId = .ok newkeys →
    CiphersAgree role pref lists newkeys.cipher := by
  intro h
  have hread : readKex .client (cipherOffer [ascii "aes256-ctr"] [ascii "aes128-ctr"]).packet
      twoCiphers none .initial = .ok namesOfOffer := by decide +kernel
  have hlists : KexInitLists.parse (cipherOffer [ascii "aes256-ctr"] [ascii "aes128-ctr"]).packet =
      .ok (cipherOffer [ascii "aes256-ctr"] [ascii "aes128-ctr"]) := by decide +kernel
  have hagree := h Primitives.toy .client _ twoCiphers none .initial _ _ [] .none
    { clientId := [], serverId := [] } none _ hread hlists rfl .toClient
  exact absurd hagree (by decide +kernel)

end Cipher

end Edgessh.Russh
