import Edgessh.Russh.Kex.Negotiated
import Edgessh.Russh.Kex.Stages

/-!
# The handshake of two ends

A `ClientKex` and a `ServerKex` that take each other's packets, in any order of their steps: they
come to the same algorithms, the same session id and the same keys, and the client does not refuse
what such a server answers.
-/

namespace Edgessh.Russh
open Edgessh.Command Edgessh.Dialogue

/-- What the two ends of an exchange have come to. -/
structure Agreed (client server : NewKeys) : Prop where
  names : client.names = server.names
  exchange : client.exchange = server.exchange
  sessionId : client.sessionId = server.sessionId
  sharedSecret : client.kex.sharedSecretBytes = server.kex.sharedSecretBytes
  toServer : client.cipher.localToRemote = server.cipher.remoteToLocal
  toClient : client.cipher.remoteToLocal = server.cipher.localToRemote

/-- An exchange with a value, before either end has sent its own. -/
structure Fresh (kex : KexAlgorithm) (exchange : Exchange) : Prop where
  exchanges : kex.skipExchange = false
  bounded : kex.Bounded
  clientEphemeral : exchange.clientEphemeral = []
  serverEphemeral : exchange.serverEphemeral = []

section Agreement

variable {P : Primitives} {lookup : LookupDhGexGroup} {clientConfig : ClientConfig}
  {serverConfig : ServerConfig} {cause : KexCause} {names : Names} {kex : KexAlgorithm}
  {exchange : Exchange}

/-- Ends with one secret and one hash have the same keys. -/
theorem agreed_of_newKeys {a b : KexAlgorithm} {hash : Bytes} {sessionId : Option Bytes}
    {client server : NewKeys} (h : a.forget = b.forget)
    (hclient : newKeys P .client hash a names exchange sessionId = .ok client)
    (hserver : newKeys P .server hash b names exchange sessionId = .ok server) :
    Agreed client server := by
  rw [newKeys_dual h, hserver] at hclient
  obtain rfl := Except.ok.inj hclient
  refine ⟨rfl, rfl, rfl, ?_, rfl, rfl⟩
  have hb := (newKeys_eq_ok hserver).2.2
  show a.sharedSecretBytes = server.kex.sharedSecretBytes
  rw [hb, ← KexAlgorithm.sharedSecretBytes_forget, h, KexAlgorithm.sharedSecretBytes_forget]

/-- A key of the server that its clients can read. -/
structure Readable (P : Primitives) (key : PrivateKey) : Prop where
  length : key.publicKey.blob.length ≤ maxSize
  decode : P.decodePublicKey key.publicKey.blob = some key.publicKey

/-- What the server has answered to the value of a client, with the secret that the client comes
to. -/
theorem answers_shared (hP : P.Agree) (hfresh : Fresh kex exchange)
    {rng rng' : Entropy} {kex' : KexAlgorithm} {e payload reply : Bytes} {server : ServerKex}
    {server' : NewKeys} {key : PrivateKey}
    (hdh : kex.clientDh P rng [] = .ok (kex', e, payload))
    (hanswers : ServerKex.Answers P server exchange names kex payload reply server' key rng') :
    ∃ s kexS kexC hash hashAlg signature, s.length ≤ maxSize ∧
      reply = ServerKex.replyPacket kexS key s signature ∧
      kex'.computeSharedSecret P s = .ok kexC ∧ kexC.forget = kexS.forget ∧
      kexC.computeExchangeHash P (encodeBytes key.publicKey.blob)
        { exchange with clientEphemeral := e, serverEphemeral := s } = .ok hash ∧
      P.sign key hashAlg hash = .ok signature ∧
      newKeys P .server hash kexS names
        { exchange with clientEphemeral := e, serverEphemeral := s } server.cause.sessionId =
          .ok server' := by
  obtain ⟨-, hlen, hpayload⟩ :=
    KexAlgorithm.clientDh_carries hP hfresh.exchanges hfresh.bounded hdh
  obtain ⟨⟨e', r, kexS, exchange', hash, hashAlg, signature, hdecode, hserver, hhash, hsign, rfl,
    hnew⟩, -⟩ := hanswers
  have hpubkey := decodeBytes_encodeBytes hlen []
  rw [List.append_nil] at hpubkey
  rw [hpayload, List.drop_one, List.tail_cons, hpubkey] at hdecode
  obtain ⟨rfl, rfl⟩ := Prod.mk.inj (Except.ok.inj hdecode)
  rw [hfresh.clientEphemeral, List.nil_append] at hserver
  obtain ⟨s, rfl, hslen, kexC, hsecret, hforget⟩ :=
    KexAlgorithm.computeSharedSecret_agrees hP hfresh.exchanges hfresh.bounded hdh hserver
  rw [← KexAlgorithm.computeExchangeHash_congr hforget] at hhash
  exact ⟨s, kexS, kexC, hash, hashAlg, signature, hslen, rfl, hsecret, hforget, hhash, hsign, hnew⟩

/-- The client reads the host key and the value as the server has written them. -/
theorem decode_replyPacket {key : PrivateKey} {s : Bytes} (hkey : Readable P key)
    (hs : s.length ≤ maxSize) (kex : KexAlgorithm) (signature : Bytes) :
    ∃ r, decodeBytes ((ServerKex.replyPacket kex key s signature).drop 1) =
        .ok (key.publicKey.blob, r) ∧ decodeBytes r = .ok (s, encodeBytes signature) := by
  refine ⟨encodeBytes s ++ encodeBytes signature, ?_, decodeBytes_encodeBytes hs _⟩
  rw [ServerKex.replyPacket, List.cons_append, List.cons_append, List.drop_one, List.tail_cons,
    List.append_assoc, decodeBytes_encodeBytes hkey.length]

/-- Where the client accepts what the server has answered to its value, they agree. -/
theorem agreed_of_answers (hP : P.Agree) (hfresh : Fresh kex exchange)
    {rng rng' : Entropy} {kex' : KexAlgorithm} {e payload reply : Bytes} {server : ServerKex}
    {client' server' : NewKeys} {key : PrivateKey} {serverHostKey : PublicKey}
    (hkey : Readable P key)
    (hdh : kex.clientDh P rng [] = .ok (kex', e, payload))
    (hanswers : ServerKex.Answers P server exchange names kex payload reply server' key rng')
    (haccepts : ClientKex.Accepts P { exchange with clientEphemeral := e } names kex'
      server.cause.sessionId reply serverHostKey client') :
    Agreed client' server' ∧ serverHostKey = key.publicKey := by
  obtain ⟨s, kexS, kexC, hash, hashAlg, signature, hslen, rfl, hsecret, hforget, hhash, -, hnew⟩ :=
    answers_shared hP hfresh hdh hanswers
  obtain ⟨r, hkeyBytes, hvalue⟩ := decode_replyPacket hkey hslen kexS signature
  obtain ⟨hostKey, r', s', r'', kexC', hash', hhost, hhostKey, hs', hsecret', hhash', hnew'⟩ :=
    haccepts.accepted
  obtain ⟨rfl, rfl⟩ := Prod.mk.inj (Except.ok.inj (hkeyBytes.symm.trans hhost))
  obtain ⟨rfl, rfl⟩ := Prod.mk.inj (Except.ok.inj (hvalue.symm.trans hs'))
  obtain rfl := Option.some.inj (hkey.decode.symm.trans hhostKey)
  rw [show ({ exchange with clientEphemeral := e } : Exchange).serverEphemeral = [] from
    hfresh.serverEphemeral,
    List.nil_append] at hsecret' hhash' hnew'
  obtain rfl : kexC = kexC' := Except.ok.inj (hsecret.symm.trans hsecret')
  obtain rfl : hash = hash' := Except.ok.inj (hhash.symm.trans hhash')
  exact ⟨agreed_of_newKeys hforget hnew' hnew, rfl⟩

theorem GexParams.decode_eq {b r₁ r₂ r₃ : Bytes}
    {minGroupSize preferredGroupSize maxGroupSize : Nat}
    (hmin : decodeU32 b = .ok (minGroupSize, r₁))
    (hpreferred : decodeU32 r₁ = .ok (preferredGroupSize, r₂))
    (hmax : decodeU32 r₂ = .ok (maxGroupSize, r₃)) :
    GexParams.decode b = GexParams.new minGroupSize preferredGroupSize maxGroupSize := by
  simp only [GexParams.decode, hmin, hpreferred, hmax, Except.mapError, bind, Except.bind]

/-- The parameters of a group are read as they have been asked for. -/
theorem GexParams.decode_encode {gex : GexParams} (h : gex.maxGroupSize < 2 ^ 32) :
    GexParams.decode gex.encode = .ok gex := by
  have hmin := gex.min_ge
  have hle := gex.min_le
  have hpreferred := gex.preferred_le
  have hbytes : gex.encode = encodeU32 gex.minGroupSize ++ (encodeU32 gex.preferredGroupSize ++
      (encodeU32 gex.maxGroupSize ++ [])) := by
    rw [GexParams.encode, List.append_nil, List.append_assoc]
  rw [hbytes, GexParams.decode_eq (decodeU32_encodeU32 _ _) (decodeU32_encodeU32 _ _)
    (decodeU32_encodeU32 _ _), Nat.mod_eq_of_lt (by omega), Nat.mod_eq_of_lt (by omega),
    Nat.mod_eq_of_lt h, GexParams.new, dif_neg (by omega), dif_neg (by omega), dif_neg (by omega)]

theorem readGexGroup_of_decode {input : IncomingSshPacket} {prime generator r r' : Bytes}
    (hhead : input.buffer.head? = some Msg.kexDhGexGroup)
    (hprime : decodeMpint (input.buffer.drop 1) = .ok (prime, r))
    (hgenerator : decodeMpint r = .ok (generator, r')) :
    readGexGroup input = some ⟨natOfBytes prime, natOfBytes generator⟩ := by
  simp only [readGexGroup, hhead, hprime, hgenerator, ne_eq, not_true_eq_false, if_false]

/-- The group is read as it has been sent. -/
theorem readGexGroup_groupPacket (g : NamedGroup) (seqn : UInt32) :
    readGexGroup ⟨ServerKex.groupPacket g.group, seqn⟩ = some g.group := by
  have hprime : g.group.prime ≠ 0 := by
    have := g.le_prime
    omega
  have hgenerator : g.group.generator = 2 := by
    cases g <;> rfl
  have hp := decodeMpint_encodeBytes hprime
    ((biguintToMpint_length_le hprime (KexAlgorithm.prime_le g)).trans (by decide))
    (encodeBytes (biguintToMpint g.group.generator))
  have hg := decodeMpint_encodeBytes (n := 2) (by decide) (by decide +kernel) []
  rw [List.append_nil, ← hgenerator] at hg
  have hread : readGexGroup ⟨ServerKex.groupPacket g.group, seqn⟩ = some ⟨natOfBytes
      (biguintToMpint g.group.prime), natOfBytes (biguintToMpint g.group.generator)⟩ :=
    readGexGroup_of_decode rfl hp hg
  rwa [natOfBytes_biguintToMpint, natOfBytes_biguintToMpint] at hread

/-- The machine when its KEXINIT has been sent. -/
def ClientKex.offering (self : ClientKex) (cookie : ByteArrayN 16) : ClientKex :=
  { self with exchange := { self.exchange with
      clientKexInit := kexInitPayload self.config.preferred none cookie } }

def ServerKex.offering (self : ServerKex) (cookie : ByteArrayN 16) : ServerKex :=
  { self with exchange := { self.exchange with
      serverKexInit := kexInitPayload self.config.preferred (some self.config.keys) cookie } }

theorem kexInitPayload_ne_nil (pref : Preferred) (keys : Option (List PrivateKey))
    (cookie : ByteArrayN 16) : kexInitPayload pref keys cookie ≠ [] := by
  unfold kexInitPayload
  simp only [List.cons_append]
  exact List.cons_ne_nil _ _

/-- What `write_kex` sends. -/
theorem payloads_writeKex {rng : Entropy} {pref : Preferred} {keys : Option (List PrivateKey)}
    {w w' : PacketWriter} {payload : Bytes} (h : writeKex P rng pref keys w = .ok (w', payload)) :
    payload = kexInitPayload pref keys rng.cookie ∧ w'.payloads = w.payloads ++ [payload] := by
  obtain ⟨w₁, hraw, hdone⟩ := bind_eq_ok.mp h
  obtain ⟨rfl, rfl⟩ := Prod.mk.inj (Except.ok.inj hdone)
  exact ⟨rfl, payloads_packetRaw hraw (kexInitPayload_ne_nil pref keys rng.cookie)⟩

theorem ClientKex.kexinit_offering {rng : Entropy} {self kex : ClientKex} {w w' : PacketWriter}
    (h : self.kexinit P rng w = .ok kex w') :
    kex = self.offering rng.cookie ∧
      w'.payloads = w.payloads ++ [kexInitPayload self.config.preferred none rng.cookie] := by
  obtain ⟨w₁, w₂, hget, h₁⟩ := bind_eq_ok'.mp h
  cases hget
  obtain ⟨⟨w₃, payload⟩, w₄, hrun, h₂⟩ := bind_eq_ok'.mp h₁
  obtain ⟨hwrite, rfl⟩ := ofExcept_eq_ok.mp hrun
  obtain ⟨rfl, hpayloads⟩ := payloads_writeKex hwrite
  obtain ⟨_, w₅, hset, h₃⟩ := bind_eq_ok'.mp h₂
  cases hset
  obtain ⟨rfl, rfl⟩ := pure_eq_ok'.mp h₃
  exact ⟨rfl, hpayloads⟩

theorem ServerKex.kexinit_offering {rng : Entropy} {self kex : ServerKex} {w w' : PacketWriter}
    (h : self.kexinit P rng w = .ok kex w') :
    kex = self.offering rng.cookie ∧ w'.payloads = w.payloads ++
      [kexInitPayload self.config.preferred (some self.config.keys) rng.cookie] := by
  obtain ⟨w₁, w₂, hget, h₁⟩ := bind_eq_ok'.mp h
  cases hget
  obtain ⟨⟨w₃, payload⟩, w₄, hrun, h₂⟩ := bind_eq_ok'.mp h₁
  obtain ⟨hwrite, rfl⟩ := ofExcept_eq_ok.mp hrun
  obtain ⟨rfl, hpayloads⟩ := payloads_writeKex hwrite
  obtain ⟨_, w₅, hset, h₃⟩ := bind_eq_ok'.mp h₂
  cases hset
  obtain ⟨rfl, rfl⟩ := pure_eq_ok'.mp h₃
  exact ⟨rfl, hpayloads⟩

/-- Both ends of one exchange, made for one cause and with each other's identification, have sent
their KEXINITs and taken nothing yet. -/
structure KexOffered (P : Primitives) (clientConfig : ClientConfig) (serverConfig : ServerConfig)
    (cause : KexCause) (d : Talk (KexPhase ClientKex) (KexPhase ServerKex) Bytes) : Prop where
  client : ∃ rng w kex w',
    (ClientKex.new clientConfig serverConfig.serverId cause).kexinit P rng w = .ok kex w' ∧
    d.left.state = .running kex ∧ w'.payloads = w.payloads ++ d.left.sent ∧ d.left.taken = 0
  server : ∃ rng w kex w',
    (ServerKex.new serverConfig clientConfig.clientId cause).kexinit P rng w = .ok kex w' ∧
    d.right.state = .running kex ∧ w'.payloads = w.payloads ++ d.right.sent ∧ d.right.taken = 0

theorem negotiated_ignoreGuessed {client server : Preferred} {keys : List PrivateKey}
    {strictRekey : Bool} {names : Names}
    (h : negotiated client server keys strictRekey = some names) : names.ignoreGuessed = false := by
  obtain ⟨_, -, h₁⟩ := Option.bind_eq_some_iff.mp h
  obtain ⟨_, -, h₂⟩ := Option.bind_eq_some_iff.mp h₁
  obtain ⟨_, -, h₃⟩ := Option.bind_eq_some_iff.mp h₂
  obtain ⟨_, -, h₄⟩ := Option.bind_eq_some_iff.mp h₃
  obtain ⟨_, -, h₅⟩ := Option.bind_eq_some_iff.mp h₄
  obtain rfl := Option.some.inj h₅
  rfl

/-- The ends of an exchange before they have taken anything. -/
def clientOf (clientConfig : ClientConfig) (serverConfig : ServerConfig) (cause : KexCause)
    (cookie : ByteArrayN 16) : ClientKex :=
  (ClientKex.new clientConfig serverConfig.serverId cause).offering cookie

def serverOf (clientConfig : ClientConfig) (serverConfig : ServerConfig) (cause : KexCause)
    (cookie : ByteArrayN 16) : ServerKex :=
  (ServerKex.new serverConfig clientConfig.clientId cause).offering cookie

section Names

variable {cookie cookie' : ByteArrayN 16}

theorem readKex_negotiated (hclient : clientConfig.preferred.Sendable none)
    (hserver : serverConfig.preferred.Sendable (some serverConfig.keys))
    (cookie cookie' : ByteArrayN 16) :
    (readKex .client (kexInitPayload serverConfig.preferred (some serverConfig.keys) cookie')
        clientConfig.preferred none cause).toOption =
      negotiated clientConfig.preferred serverConfig.preferred serverConfig.keys
        cause.isStrictRekey ∧
    (readKex .server (kexInitPayload clientConfig.preferred none cookie) serverConfig.preferred
        (some serverConfig.keys) cause).toOption =
      negotiated clientConfig.preferred serverConfig.preferred serverConfig.keys
        cause.isStrictRekey :=
  negotiation_agreement hclient hserver rfl rfl

/-- What the client chooses from the KEXINIT of the server is what they negotiate. -/
theorem client_chooses (hclient : clientConfig.preferred.Sendable none)
    (hserver : serverConfig.preferred.Sendable (some serverConfig.keys))
    (h : (clientOf clientConfig serverConfig cause cookie).Chooses
      (kexInitPayload serverConfig.preferred (some serverConfig.keys) cookie') names kex) :
    negotiated clientConfig.preferred serverConfig.preferred serverConfig.keys
      cause.isStrictRekey = some names := by
  rw [← (readKex_negotiated hclient hserver cookie cookie').1]
  exact congrArg Except.toOption h.read

theorem server_chooses (hclient : clientConfig.preferred.Sendable none)
    (hserver : serverConfig.preferred.Sendable (some serverConfig.keys))
    (h : (serverOf clientConfig serverConfig cause cookie').Chooses
      (kexInitPayload clientConfig.preferred none cookie) names kex) :
    negotiated clientConfig.preferred serverConfig.preferred serverConfig.keys
      cause.isStrictRekey = some names := by
  rw [← (readKex_negotiated hclient hserver cookie cookie').2]
  exact congrArg Except.toOption h.read

/-- Both ends make the same of their KEXINITs. -/
theorem chooses_agree (hclient : clientConfig.preferred.Sendable none)
    (hserver : serverConfig.preferred.Sendable (some serverConfig.keys)) {names' : Names}
    {kex' : KexAlgorithm}
    (h : (clientOf clientConfig serverConfig cause cookie).Chooses
      (kexInitPayload serverConfig.preferred (some serverConfig.keys) cookie') names kex)
    (h' : (serverOf clientConfig serverConfig cause cookie').Chooses
      (kexInitPayload clientConfig.preferred none cookie) names' kex') :
    names = names' ∧ kex = kex' := by
  have hnames := (client_chooses hclient hserver h).symm.trans (server_chooses hclient hserver h')
  obtain rfl := Option.some.inj hnames
  exact ⟨rfl, Option.some.inj (h.make.symm.trans h'.make)⟩

end Names

/-- The KEXINITs that both ends have sent, and what each of them then does alone. -/
theorem offered_stages {d₀ d : Talk (KexPhase ClientKex) (KexPhase ServerKex) Bytes}
    (hclient : clientConfig.preferred.Sendable none)
    (hserver : serverConfig.preferred.Sendable (some serverConfig.keys))
    (h₀ : KexOffered P clientConfig serverConfig cause d₀)
    (h : Reaches (clientTakes P) (serverTakes P lookup) d₀ d) :
    ∃ cookie cookie' ins ins' out out',
      d.left.sent = kexInitPayload clientConfig.preferred none cookie :: out ∧
      d.right.sent =
        kexInitPayload serverConfig.preferred (some serverConfig.keys) cookie' :: out' ∧
      (List.IsPrefix ins d.right.sent ∧ ins.length = d.left.taken) ∧
      (List.IsPrefix ins' d.left.sent ∧ ins'.length = d.right.taken) ∧
      ClientKex.Stage P (clientOf clientConfig serverConfig cause cookie) ins d.left.state out ∧
      ServerKex.Stage P (serverOf clientConfig serverConfig cause cookie') ins' d.right.state
        out' := by
  obtain ⟨left, right⟩ := d₀
  obtain ⟨state, sent, taken⟩ := left
  obtain ⟨state', sent', taken'⟩ := right
  obtain ⟨⟨rng, w, kex, w', hkexinit, rfl, hsent, htaken⟩,
    rng', v, kex', v', hkexinit', rfl, hsent', htaken'⟩ := h₀
  obtain ⟨rfl, hpayloads⟩ := ClientKex.kexinit_offering hkexinit
  obtain ⟨rfl, hpayloads'⟩ := ServerKex.kexinit_offering hkexinit'
  rw [hpayloads] at hsent
  rw [hpayloads'] at hsent'
  obtain rfl := List.append_cancel_left hsent
  obtain rfl := List.append_cancel_left hsent'
  obtain ⟨halone, halone'⟩ := alone_of_reaches htaken htaken' h
  obtain ⟨ins, hins, hlen, hrun⟩ := halone.localRun
  obtain ⟨ins', hins', hlen', hrun'⟩ := halone'.localRun
  have hfirst {x : Bytes} {xs ys : List Bytes} (hfront : List.IsPrefix ys (x :: xs)) :
      ∀ m ∈ ys.head?, m = x := by
    intro m hm
    cases ys with
    | nil => cases hm
    | cons y ys =>
      obtain rfl := Option.some.inj hm
      exact (List.cons_prefix_cons.mp hfront).1
  obtain ⟨out, hout⟩ := hrun.sent_eq
  obtain ⟨out', hout'⟩ := hrun'.sent_eq
  obtain ⟨out₁, hout₁, hstage⟩ := ClientKex.stage_of_run rfl
    (fun _ _ hchooses => negotiated_ignoreGuessed (client_chooses hclient hserver hchooses))
    hrun (hfirst (hout' ▸ hins))
  obtain ⟨out₂, hout₂, hstage'⟩ := ServerKex.stage_of_run rfl
    (fun _ _ hchooses => negotiated_ignoreGuessed (server_chooses hclient hserver hchooses))
    hrun' (hfirst (hout ▸ hins'))
  rw [hout] at hout₁
  rw [hout'] at hout₂
  obtain rfl := List.append_cancel_left hout₁
  obtain rfl := List.append_cancel_left hout₂
  exact ⟨rng.cookie, rng'.cookie, ins, ins', out, out', hout, hout', ⟨hins, hlen⟩, ⟨hins', hlen'⟩,
    hstage, hstage'⟩

/-- With both KEXINITs the two ends have one exchange. -/
theorem withKexInit_eq (cookie cookie' : ByteArrayN 16) :
    (clientOf clientConfig serverConfig cause cookie).withKexInit
        (kexInitPayload serverConfig.preferred (some serverConfig.keys) cookie') =
      (serverOf clientConfig serverConfig cause cookie').withKexInit
        (kexInitPayload clientConfig.preferred none cookie) := by
  simp only [clientOf, serverOf, ClientKex.offering, ServerKex.offering, ClientKex.new,
    ServerKex.new, ClientKex.withKexInit, ServerKex.withKexInit, List.nil_append]

/-- Where each has taken what the other has sent, they are ready for the same exchange. -/
theorem ready_agree {cookie cookie' : ByteArrayN 16} {ins ins' sent sent' rest rest' tail tail' :
      List Bytes} {names' : Names} {kex' : KexAlgorithm} {exchange' : Exchange}
    (hclient : clientConfig.preferred.Sendable none)
    (hserver : serverConfig.preferred.Sendable (some serverConfig.keys))
    (hgex : clientConfig.gex.maxGroupSize < 2 ^ 32)
    (hready : (clientOf clientConfig serverConfig cause cookie).Ready ins sent exchange names kex)
    (hready' : (serverOf clientConfig serverConfig cause cookie').Ready ins' sent' exchange' names'
      kex')
    (hins : List.IsPrefix (ins ++ rest)
      (kexInitPayload serverConfig.preferred (some serverConfig.keys) cookie' :: (sent' ++ tail')))
    (hins' : List.IsPrefix (ins' ++ rest')
      (kexInitPayload clientConfig.preferred none cookie :: (sent ++ tail))) :
    (names = names' ∧ kex = kex' ∧ exchange = exchange') ∧ Fresh kex exchange ∧
      List.IsPrefix rest tail' ∧ List.IsPrefix rest' tail := by
  cases hready with
  | direct hchooses hskip hdirect =>
    obtain ⟨rfl, hrest⟩ := List.cons_prefix_cons.mp hins
    cases hready' with
    | direct hchooses' _ hdirect' =>
      obtain ⟨rfl, hrest'⟩ := List.cons_prefix_cons.mp hins'
      obtain ⟨rfl, rfl⟩ := chooses_agree hclient hserver hchooses hchooses'
      exact ⟨⟨rfl, rfl, withKexInit_eq cookie cookie'⟩,
        ⟨hskip, KexAlgorithm.make_bounded hchooses.make, rfl, rfl⟩, hrest, hrest'⟩
    | group hchooses' hgex' =>
      obtain ⟨rfl, -⟩ := List.cons_prefix_cons.mp hins'
      obtain ⟨rfl, rfl⟩ := chooses_agree hclient hserver hchooses hchooses'
      rw [hdirect] at hgex'
      cases hgex'
  | group hchooses hisGex hgroup hset =>
    obtain ⟨rfl, hrest⟩ := List.cons_prefix_cons.mp hins
    cases hready' with
    | direct hchooses' _ hdirect' =>
      obtain ⟨rfl, -⟩ := List.cons_prefix_cons.mp hins'
      obtain ⟨rfl, rfl⟩ := chooses_agree hclient hserver hchooses hchooses'
      rw [hdirect'] at hisGex
      cases hisGex
    | @group _ _ _ _ gexParams _ g hchooses' _ hparams hset' =>
      obtain ⟨rfl, hrest'⟩ := List.cons_prefix_cons.mp hins'
      obtain ⟨rfl, rfl⟩ := chooses_agree hclient hserver hchooses hchooses'
      -- The group is the one that the server has sent, the parameters those that the client has.
      obtain ⟨rfl, htail⟩ := List.cons_prefix_cons.mp hrest
      obtain ⟨rfl, htail'⟩ := List.cons_prefix_cons.mp hrest'
      obtain ⟨seqn, hgroup⟩ := hgroup
      rw [readGexGroup_groupPacket] at hgroup
      obtain rfl := Option.some.inj hgroup
      have hdecode : GexParams.decode clientConfig.gex.encode = .ok gexParams := hparams
      rw [GexParams.decode_encode hgex] at hdecode
      obtain rfl := Except.ok.inj hdecode
      obtain rfl := Except.ok.inj (hset.symm.trans hset')
      obtain ⟨hskip, -, hbounded⟩ := KexAlgorithm.dhGexSetGroup_eq_ok hset
      refine ⟨⟨rfl, rfl, ?_⟩, ⟨hskip, hbounded (KexAlgorithm.prime_le g), rfl, rfl⟩, htail, htail'⟩
      rw [withKexInit_eq cookie cookie']
      rfl

/-- In whatever order a client and a server take each other's packets: when both are done, they
have negotiated the same algorithms, have one session id and one secret, and hold the same keys,
and the host key of the client is that of the server. -/
theorem handshake_agreement {d₀ d : Talk (KexPhase ClientKex) (KexPhase ServerKex) Bytes}
    {serverHostKey hostKey : Option PublicKey} {client server : NewKeys} (hP : P.Agree)
    (hclient : clientConfig.preferred.Sendable none)
    (hserver : serverConfig.preferred.Sendable (some serverConfig.keys))
    (hgex : clientConfig.gex.maxGroupSize < 2 ^ 32)
    (hkeys : ∀ key ∈ serverConfig.keys, Readable P key)
    (h₀ : KexOffered P clientConfig serverConfig cause d₀)
    (h : Reaches (clientTakes P) (serverTakes P lookup) d₀ d)
    (hleft : d.left.state = .done serverHostKey client)
    (hright : d.right.state = .done hostKey server) :
    Agreed client server ∧
      negotiated clientConfig.preferred serverConfig.preferred serverConfig.keys
        cause.isStrictRekey = some client.names ∧
      ∀ key, serverHostKey = some key → ∃ k ∈ serverConfig.keys,
        k.publicKey = key ∧ isKeyCompatibleWithAlgo k client.names.key = true := by
  obtain ⟨cookie, cookie', ins, ins', out, out', hout, hout', ⟨hins, -⟩, ⟨hins', -⟩, hstage,
    hstage'⟩ := offered_stages hclient hserver h₀ h
  rw [hout'] at hins
  rw [hout] at hins'
  rw [hleft] at hstage
  rw [hright] at hstage'
  cases hstage with
  | skipped hchooses hskip hnew =>
    obtain ⟨rfl, -⟩ := List.cons_prefix_cons.mp hins
    cases hstage' with
    | skipped hchooses' _ hnew' =>
      obtain ⟨rfl, -⟩ := List.cons_prefix_cons.mp hins'
      obtain ⟨rfl, rfl⟩ := chooses_agree hclient hserver hchooses hchooses'
      rw [withKexInit_eq cookie cookie'] at hnew
      refine ⟨agreed_of_newKeys rfl hnew hnew', ?_, ?_⟩
      · rw [(newKeys_eq_ok hnew).1]
        exact client_chooses hclient hserver hchooses
      · rintro key ⟨⟩
    | done hready' hanswers =>
      obtain ⟨m, rest, kex₀, rfl, hchooses', hskip'⟩ := hready'.head
      obtain ⟨rfl, -⟩ := List.cons_prefix_cons.mp hins'
      obtain ⟨-, rfl⟩ := chooses_agree hclient hserver hchooses hchooses'
      rw [hskip] at hskip'
      cases hskip'
  | done hready hdh haccepts =>
    cases hstage' with
    | skipped hchooses' hskip' =>
      obtain ⟨m, rest, kex₀, rfl, hchooses, hskip⟩ := hready.head
      obtain ⟨rfl, -⟩ := List.cons_prefix_cons.mp hins
      obtain ⟨rfl, -⟩ := List.cons_prefix_cons.mp hins'
      obtain ⟨-, rfl⟩ := chooses_agree hclient hserver hchooses hchooses'
      rw [hskip] at hskip'
      cases hskip'
    | done hready' hanswers =>
      rw [List.append_assoc] at hins hins'
      rw [List.append_assoc] at hins'
      obtain ⟨⟨rfl, rfl, rfl⟩, hfresh, hreply, hinit⟩ :=
        ready_agree hclient hserver hgex hready hready' hins hins'
      obtain ⟨rfl, -⟩ := List.cons_prefix_cons.mp hreply
      obtain ⟨rfl, -⟩ := List.cons_prefix_cons.mp hinit
      have hmem := List.mem_of_find?_eq_some hanswers.find
      obtain ⟨hagreed, rfl⟩ := agreed_of_answers hP hfresh (hkeys _ hmem) hdh hanswers haccepts
      obtain ⟨m, rest, kex₀, rfl, hchooses, -⟩ := hready.head
      obtain ⟨rfl, -⟩ := List.cons_prefix_cons.mp hins
      obtain ⟨_, _, _, _, _, hash, _, _, _, _, _, hnew⟩ := haccepts.accepted
      have hnames := (newKeys_eq_ok hnew).1
      refine ⟨hagreed, ?_, ?_⟩
      · rw [hnames]
        exact client_chooses hclient hserver hchooses
      · rintro key ⟨⟩
        have hcompatible := List.find?_some hanswers.find
        rw [← hnames] at hcompatible
        exact ⟨_, hmem, rfl, hcompatible⟩

/-- What the server signs with the key, its clients accept. -/
structure Signs (P : Primitives) (key : PrivateKey) : Prop where
  length {alg : Option HashAlg} {hash signature : Bytes} :
    P.sign key alg hash = .ok signature → signature.length ≤ maxSize
  decodes {alg : Option HashAlg} {hash signature : Bytes} :
    P.sign key alg hash = .ok signature → P.signatureDecodes signature = true
  verify {alg : Option HashAlg} {hash signature : Bytes} :
    P.sign key alg hash = .ok signature → P.verify key.publicKey hash signature = true

/-- A client takes the answer of an honest server to its value. -/
theorem stepDhReply_ok (hP : P.Agree) (hfresh : Fresh kex exchange)
    {rng rng' : Entropy} {kex' : KexAlgorithm} {e payload reply : Bytes} {server : ServerKex}
    {self : ClientKex} {server' : NewKeys} {key : PrivateKey} {w : PacketWriter} {seqn : UInt32}
    (hkey : Readable P key) (hsigns : Signs P key) (hguess : names.ignoreGuessed = false)
    (hdh : kex.clientDh P rng [] = .ok (kex', e, payload))
    (hanswers : ServerKex.Answers P server exchange names kex payload reply server' key rng')
    (hexchange : self.exchange = { exchange with clientEphemeral := e })
    (hsession : self.cause.sessionId = server.cause.sessionId) (hw : w.compress = .none) :
    ∃ progress w', self.stepDhReply P names kex' ⟨reply, seqn⟩ w = .ok progress w' := by
  obtain ⟨s, kexS, kexC, hash, hashAlg, signature, hslen, rfl, hsecret, hforget, hhash, hsign,
    hnew⟩ := answers_shared hP hfresh hdh hanswers
  obtain ⟨r, hkeyBytes, hvalue⟩ := decode_replyPacket hkey hslen kexS signature
  have hisGex : kexS.isDhGex = kex'.isDhGex := by
    rw [← KexAlgorithm.isDhGex_forget, ← hforget, KexAlgorithm.isDhGex_forget,
      KexAlgorithm.computeSharedSecret_isDhGex hsecret]
  have hclient := newKeys_dual (P := P) hforget hash names
    { exchange with clientEphemeral := e, serverEphemeral := s } server.cause.sessionId
  rw [hnew] at hclient
  have hempty : self.exchange.serverEphemeral ++ s = s := by
    rw [hexchange]
    show exchange.serverEphemeral ++ s = s
    rw [hfresh.serverEphemeral, List.nil_append]
  have hfilled : { self.exchange with serverEphemeral := self.exchange.serverEphemeral ++ s } =
      { exchange with clientEphemeral := e, serverEphemeral := s } := by
    rw [hempty, hexchange]
  have hsignature := decodeBytes_encodeBytes (hsigns.length hsign) []
  rw [List.append_nil] at hsignature
  have hhead : (ServerKex.replyPacket kexS key s signature).head? =
      some (ClientKex.expectedReply kex') := by
    show some (ClientKex.expectedReply kexS) = some (ClientKex.expectedReply kex')
    rw [ClientKex.expectedReply, hisGex, ClientKex.expectedReply]
  rw [← hsession, ← hfilled] at hclient
  rw [← hfilled] at hhash
  exact ClientKex.stepDhReply_returns_ok hguess hhead hkeyBytes hkey.decode hvalue
    (hempty.symm ▸ hsecret) hhash hsignature (hsigns.decodes hsign) (hsigns.verify hsign) hclient hw

/-- What the server sends after its KEXINIT, and a group, is the answer to the client's value. -/
theorem server_answered {cookie cookie' : ByteArrayN 16} {ins ins' sent out' rest tail : List Bytes}
    {m payload : Bytes} {s : KexPhase ServerKex}
    (hclient : clientConfig.preferred.Sendable none)
    (hserver : serverConfig.preferred.Sendable (some serverConfig.keys))
    (hgex : clientConfig.gex.maxGroupSize < 2 ^ 32)
    (hready : (clientOf clientConfig serverConfig cause cookie).Ready ins sent exchange names kex)
    (hstage' : (ServerKex.Stage P (serverOf clientConfig serverConfig cause cookie')) ins' s out')
    (hins : List.IsPrefix (ins ++ m :: rest)
      (kexInitPayload serverConfig.preferred (some serverConfig.keys) cookie' :: out'))
    (hins' : List.IsPrefix ins'
      (kexInitPayload clientConfig.preferred none cookie :: (sent ++ payload :: tail))) :
    ∃ reply server' key rng', Fresh kex exchange ∧
      List.IsPrefix (m :: rest) [reply, [Msg.newKeys]] ∧
      ServerKex.Answers P (serverOf clientConfig serverConfig cause cookie') exchange names kex
        payload reply server' key rng' := by
  obtain ⟨m₀, rest₀, kex₀, rfl, hchooses, hskip⟩ := hready.head
  have hstart : List.IsPrefix (rest₀ ++ m :: rest) out' := (List.cons_prefix_cons.mp hins).2
  have hnil (hout : out' = []) : False := by
    rw [hout] at hstart
    cases rest₀ <;> cases List.prefix_nil.mp hstart
  cases hstage' with
  | created => exact (hnil rfl).elim
  | requested => exact (hnil rfl).elim
  | skipped hchooses' hskip' =>
    obtain ⟨rfl, -⟩ := List.cons_prefix_cons.mp hins
    obtain ⟨rfl, -⟩ := List.cons_prefix_cons.mp hins'
    obtain ⟨-, rfl⟩ := chooses_agree hclient hserver hchooses hchooses'
    rw [hskip] at hskip'
    cases hskip'
  | waiting hready' =>
    rw [← List.append_nil out'] at hins
    rw [← List.append_nil ins'] at hins'
    obtain ⟨-, -, hm, -⟩ := ready_agree hclient hserver hgex hready hready' hins hins'
    cases List.prefix_nil.mp hm
  | answered hready' hanswers =>
    obtain ⟨⟨rfl, rfl, rfl⟩, hfresh, hm, hinit⟩ :=
      ready_agree hclient hserver hgex hready hready' hins hins'
    obtain ⟨rfl, -⟩ := List.cons_prefix_cons.mp hinit
    exact ⟨_, _, _, _, hfresh, hm, hanswers⟩
  | done hready' hanswers =>
    rw [List.append_assoc] at hins'
    obtain ⟨⟨rfl, rfl, rfl⟩, hfresh, hm, hinit⟩ :=
      ready_agree hclient hserver hgex hready hready' hins hins'
    obtain ⟨rfl, -⟩ := List.cons_prefix_cons.mp hinit
    exact ⟨_, _, _, _, hfresh, hm, hanswers⟩

/-- The client has sent its value. -/
def ClientKexState.valueSent : ClientKexState → Bool
  | .created | .waitingForGexReply _ _ => false
  | .waitingForDhReply _ _ | .waitingForNewKeys _ _ => true

/-- Once a client has sent its value, nothing that an honest server sends is refused: the client
takes the reply and the NEWKEYS, in whatever order the two ends go on. -/
theorem reply_accepted {d₀ d : Talk (KexPhase ClientKex) (KexPhase ServerKex) Bytes}
    {self : ClientKex} {m : Bytes} (hP : P.Agree)
    (hclient : clientConfig.preferred.Sendable none)
    (hserver : serverConfig.preferred.Sendable (some serverConfig.keys))
    (hgex : clientConfig.gex.maxGroupSize < 2 ^ 32)
    (hkeys : ∀ key ∈ serverConfig.keys, Readable P key ∧ Signs P key)
    (h₀ : KexOffered P clientConfig serverConfig cause d₀)
    (h : Reaches (clientTakes P) (serverTakes P lookup) d₀ d)
    (hleft : d.left.state = .running self) (hsent : self.state.valueSent = true)
    (hm : d.right.sent[d.left.taken]? = some m) (rng : Entropy) (seqn : UInt32) {w : PacketWriter}
    (hw : w.compress = .none) :
    ∃ progress w', self.step P rng (some ⟨m, seqn⟩) w = .ok progress w' := by
  obtain ⟨cookie, cookie', ins, ins', out, out', hout, hout', ⟨hins, hlen⟩, ⟨hins', -⟩, hstage,
    hstage'⟩ := offered_stages hclient hserver h₀ h
  have hnext := Party.Alone.concat_prefix hins hlen hm
  rw [hleft] at hstage
  rw [hout'] at hnext
  rw [hout] at hins'
  cases hstage with
  | created => cases hsent
  | requested => cases hsent
  | waiting hready hdh =>
    obtain ⟨reply, server', key, rng', hfresh, hfront, hanswers⟩ :=
      server_answered hclient hserver hgex hready hstage' hnext hins'
    obtain ⟨rfl, -⟩ := List.cons_prefix_cons.mp hfront
    obtain ⟨m₀, rest, kex₀, rfl, hchooses, -⟩ := hready.head
    obtain ⟨rfl, -⟩ := List.cons_prefix_cons.mp hnext
    obtain ⟨hreadable, hsigns⟩ := hkeys key (List.mem_of_find?_eq_some hanswers.find)
    exact stepDhReply_ok hP hfresh hreadable hsigns
      (negotiated_ignoreGuessed (client_chooses hclient hserver hchooses)) hdh hanswers rfl rfl hw
  | accepted hready hdh haccepts =>
    rw [List.append_assoc] at hnext
    rw [List.append_assoc] at hins'
    obtain ⟨reply, server', key, rng', -, hfront, -⟩ :=
      server_answered hclient hserver hgex hready hstage' hnext hins'
    obtain ⟨-, hfront⟩ := List.cons_prefix_cons.mp hfront
    obtain ⟨rfl, -⟩ := List.cons_prefix_cons.mp hfront
    exact ⟨_, w, rfl⟩

end Agreement

section Example

/-- Primitives that keep all promises: both ends of an exchange come to one secret, the client
reads the key of the server and accepts its signatures. -/
def Primitives.agreeing : Primitives :=
  { Primitives.toy with
    ecdhPublicKey := fun _ s => 1 :: s.take 132
    diffieHellman := fun _ s k => [1, checksum (s.take 132) + checksum k]
    sign := fun key _ hash => .ok (key.publicKey.blob ++ [checksum hash])
    verify := fun key hash signature => signature = key.blob ++ [checksum hash] }

theorem agree_agreeing : Primitives.agreeing.Agree where
  x25519 a b := by
    apply Subtype.ext
    show List.zipWith (· + ·) a.val b.val = List.zipWith (· + ·) b.val a.val
    exact List.zipWith_comm_of_comm fun x y => UInt8.add_comm x y
  fromSec1Bytes c a b := by
    refine ⟨a.take 132, b.take 132, rfl, rfl, ?_⟩
    show [1, checksum (a.take 132) + checksum (b.take 132)] =
      [1, checksum (b.take 132) + checksum (a.take 132)]
    rw [UInt8.add_comm]
  ecdhPublicKey_length c a := by
    show (1 :: a.take 132).length ≤ 133
    rw [List.length_cons, List.length_take]
    omega
  mlKemDecapsulate seed r := by
    apply Subtype.ext
    show (r.val ++ List.replicate 1056 0).take 32 = r.val
    exact List.take_left' r.property

/-- A host key that can be read. -/
def agreeingKey : PrivateKey := ⟨.ed25519, ⟨[7]⟩⟩

def agreeingClient : ClientConfig := { preferred := twoCiphers }

def agreeingServer : ServerConfig := { preferred := twoCiphers, keys := [agreeingKey] }

/-- One end takes a packet, with fixed random numbers, if it can. -/
def takeWith {K : Type} (step : Entropy → K → Option IncomingSshPacket → WriterM (KexProgress K))
    (m : Bytes) : KexPhase K → Option (KexPhase K × List Bytes)
  | .running kex =>
    match step .toy kex (some ⟨m, 1⟩) {} with
    | .ok progress w => some (progress.phase, w.payloads)
    | .error _ _ => none
  | .done _ _ => none

theorem takes_takeWith {K : Type}
    {step : Entropy → K → Option IncomingSshPacket → WriterM (KexProgress K)} {m : Bytes}
    {s s' : KexPhase K} {out : List Bytes} (h : takeWith step m s = some (s', out)) :
    takes step s m s' out := by
  cases s with
  | done key newkeys => cases h
  | running kex =>
    unfold takeWith at h
    cases hstep : step .toy kex (some ⟨m, 1⟩) {} with
    | error e w =>
      simp only [hstep] at h
      cases h
    | ok progress w =>
      simp only [hstep] at h
      obtain ⟨rfl, rfl⟩ := Prod.mk.inj (Option.some.inj h)
      exact ⟨kex, .toy, 1, {}, progress, w, rfl, hstep, rfl, rfl⟩

/-- The two ends, their KEXINITs sent. -/
def agreeingStart : Talk (KexPhase ClientKex) (KexPhase ServerKex) Bytes where
  left :=
    { state := .running (clientOf agreeingClient agreeingServer .initial default)
      sent := [kexInitPayload twoCiphers none default] }
  right :=
    { state := .running (serverOf agreeingClient agreeingServer .initial default)
      sent := [kexInitPayload twoCiphers (some [agreeingKey]) default] }

theorem offered_agreeingStart :
    KexOffered .agreeing agreeingClient agreeingServer .initial agreeingStart where
  client := ⟨.toy, {}, _, _, rfl, rfl, rfl, rfl⟩
  server := ⟨.toy, {}, _, _, rfl, rfl, rfl, rfl⟩

/-- The two ends after `n` turns. -/
def agreeingTalk (n : Nat) : Talk (KexPhase ClientKex) (KexPhase ServerKex) Bytes :=
  agreeingStart.play (takeWith (ClientKex.step .agreeing))
    (takeWith (ServerKex.step .agreeing lookupDhGexGroup)) n

def KexPhase.isDone {K : Type} : KexPhase K → Bool
  | .running _ => false
  | .done _ _ => true

theorem KexPhase.exists_of_isDone {K : Type} {s : KexPhase K} (h : s.isDone = true) :
    ∃ serverHostKey newkeys, s = .done serverHostKey newkeys := by
  cases s with
  | running kex => cases h
  | done serverHostKey newkeys => exact ⟨_, _, rfl⟩

def KexPhase.waitsForReply : KexPhase ClientKex → Bool
  | .running kex => kex.state.valueSent
  | .done _ _ => false

theorem KexPhase.exists_of_waitsForReply {s : KexPhase ClientKex} (h : s.waitsForReply = true) :
    ∃ self, s = .running self ∧ self.state.valueSent = true := by
  cases s with
  | running kex => exact ⟨kex, rfl, h⟩
  | done serverHostKey newkeys => cases h

theorem sendable_twoCiphers (serverKeys : Option (List PrivateKey))
    (h : serverKeys = none ∨ serverKeys = some [agreeingKey]) : twoCiphers.Sendable serverKeys := by
  have hbuiltin : ∀ a ∈ twoCiphers.key, a.WellNamed := by
    simp [twoCiphers, Algorithm.WellNamed]
  rcases h with rfl | rfl
  · refine ⟨hbuiltin, ?_, ?_, ?_, ?_, ?_⟩ <;> decide +kernel
  · refine ⟨fun a ha => hbuiltin a (List.mem_filter.mp ha).1, ?_, ?_, ?_, ?_, ?_⟩ <;>
      decide +kernel

theorem readable_agreeingKey : Readable .agreeing agreeingKey := ⟨by decide, rfl⟩

theorem signs_agreeingKey : Signs .agreeing agreeingKey := by
  constructor
  all_goals
    intro alg hash signature h
    obtain rfl := Except.ok.inj h
  · show 2 ≤ maxSize
    decide
  · rfl
  · exact decide_eq_true rfl

theorem reaches_agreeingTalk (n : Nat) :
    Reaches (clientTakes .agreeing) (serverTakes .agreeing lookupDhGexGroup) agreeingStart
      (agreeingTalk n) :=
  reaches_play takes_takeWith takes_takeWith n agreeingStart

theorem agreeingServer_keys {key : PrivateKey} (h : key ∈ agreeingServer.keys) :
    Readable .agreeing key ∧ Signs .agreeing key := by
  obtain rfl := List.mem_singleton.mp h
  exact ⟨readable_agreeingKey, signs_agreeingKey⟩

/-- After four turns both ends are done. -/
theorem agreeingTalk_done :
    (∃ serverHostKey newkeys, (agreeingTalk 4).left.state = .done serverHostKey newkeys) ∧
      ∃ hostKey newkeys, (agreeingTalk 4).right.state = .done hostKey newkeys := by
  have hdone : (agreeingTalk 4).left.state.isDone = true ∧
      (agreeingTalk 4).right.state.isDone = true := by
    decide +kernel
  exact ⟨KexPhase.exists_of_isDone hdone.1, KexPhase.exists_of_isDone hdone.2⟩

theorem handshake_agreement_curve25519 : ∃ serverHostKey hostKey client server,
    (agreeingTalk 4).left.state = .done serverHostKey client ∧
    (agreeingTalk 4).right.state = .done hostKey server ∧ Agreed client server := by
  obtain ⟨⟨serverHostKey, client, hleft⟩, hostKey, server, hright⟩ := agreeingTalk_done
  exact ⟨serverHostKey, hostKey, client, server, hleft, hright,
    (handshake_agreement agree_agreeing (sendable_twoCiphers none (.inl rfl))
      (sendable_twoCiphers _ (.inr rfl)) (by decide) (fun _ hkey => (agreeingServer_keys hkey).1)
      offered_agreeingStart (reaches_agreeingTalk 4) hleft hright).1⟩

/-- After two turns the reply is under way, and the client takes it. -/
theorem reply_accepted_curve25519 : ∃ self m progress w',
    (agreeingTalk 2).left.state = .running self ∧
    (agreeingTalk 2).right.sent[(agreeingTalk 2).left.taken]? = some m ∧
    self.step .agreeing .toy (some ⟨m, 3⟩) {} = .ok progress w' := by
  have hwaits : (agreeingTalk 2).left.state.waitsForReply = true ∧
      ((agreeingTalk 2).right.sent[(agreeingTalk 2).left.taken]?).isSome = true := by
    decide +kernel
  obtain ⟨self, hleft, hsent⟩ := KexPhase.exists_of_waitsForReply hwaits.1
  obtain ⟨m, hm⟩ := Option.isSome_iff_exists.mp hwaits.2
  obtain ⟨progress, w', hstep⟩ := reply_accepted agree_agreeing
    (sendable_twoCiphers none (.inl rfl)) (sendable_twoCiphers _ (.inr rfl)) (by decide)
    (fun _ => agreeingServer_keys) offered_agreeingStart (reaches_agreeingTalk 2) hleft hsent hm
    .toy 3 (w := {}) rfl
  exact ⟨self, m, progress, w', hleft, hm, hstep⟩

end Example

end Edgessh.Russh
