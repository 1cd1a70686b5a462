import Edgessh.Lib.Lines
import Edgessh.Russh.Primitives
import Mathlib.Data.List.Basic

/-!
# Known hosts files

`keys/known_hosts.rs`: the lines of a known hosts file that name a host, whether they record a
given key for it, and how a key is added to the file. File operations are taken to succeed, but
for the one failure the code handles: a file that cannot be opened for reading has no entries.
-/

namespace Edgessh.Russh.Keys
open Edgessh.Lines

abbrev Text := List Char

/-- The errors of `keys::Error` that the functions of this file return. -/
inductive Error where
  | keyChanged (line : Nat)
  /-- of `data_encoding` -/
  | decode
  /-- of `ssh_key` -/
  | sshKey
  deriving DecidableEq, Repr

/-- `ssh_key::PublicKey`; the key data by its encoding. -/
structure PublicKey where
  keyData : Bytes
  comment : Text
  deriving DecidableEq, Repr

/-- What the file takes from `ssh_key`, `data_encoding` and `hmac`. -/
structure Crates where
  /-- `PublicKey::algorithm` -/
  algorithm : Bytes → Algorithm
  /-- `PublicKey::to_openssh` -/
  toOpenssh : PublicKey → Option Text
  /-- `KeyData::decode` -/
  decodeKeyData : Bytes → Option Bytes
  /-- `BASE64_MIME.decode` -/
  decodeMime : Text → Option Bytes
  /-- `Hmac::<Sha1>::new_from_slice(salt)`, `chain_update(host)` and `verify_slice(hash)` -/
  hmacSha1Verifies : (salt : Bytes) → (host : Text) → (hash : Bytes) → Bool

/-- What the crates document of these functions. -/
structure Crates.Documented (K : Crates) : Prop where
  /-- Line ends are ignored. -/
  decodeMime_newline : ∀ text, K.decodeMime (text ++ ['\n']) = K.decodeMime text
  /-- A key is written as its algorithm's name, its data in base64 and, unless it is empty, its
  comment, with a space between them. -/
  toOpenssh_eq : ∀ key text, K.toOpenssh key = some text →
    ∃ name blob bytes,
      text = name ++ ' ' :: blob ++ (if key.comment = [] then [] else ' ' :: key.comment) ∧
      (∀ c ∈ name, c ≠ ' ' ∧ c ≠ '\n') ∧ (∀ c ∈ blob, c ≠ ' ' ∧ c ≠ '\n') ∧
      K.decodeMime blob = some bytes ∧ K.decodeKeyData bytes = some key.keyData

/-- `keys/mod.rs`, `parse_public_key_base64` -/
def Crates.parsePublicKeyBase64 (K : Crates) (key : Text) : Except Error PublicKey :=
  match K.decodeMime key with
  | none => .error .decode
  | some base =>
    match K.decodeKeyData base with
    | none => .error .sshKey
    | some keyData => .ok ⟨keyData, []⟩

/-- The body of the loop of `match_hostname`. -/
def Crates.matchEntry (K : Crates) (host entry : Text) : Bool :=
  if ['|', '1', '|'].isPrefixOf entry then
    match (entry.splitOn '|').drop 2 with
    | saltPart :: hashPart :: _ =>
      match K.decodeMime saltPart, K.decodeMime hashPart with
      | some salt, some hash => K.hmacSha1Verifies salt host hash
      | _, _ => false
    | _ => false
  else host = entry

/-- `match_hostname` -/
def Crates.matchHostname (K : Crates) (host pattern : Text) : Bool :=
  (pattern.splitOn ',').any (K.matchEntry host)

/-- `host_port`, as it is looked up and as it is written. -/
def hostPort (host : Text) (port : UInt16) : Text :=
  if port = 22 then host
  else '[' :: (host ++ ']' :: ':' :: Nat.toDigits 10 port.toNat)

/-- `buffer.as_bytes().first() == Some(&b'#')` -/
def isComment (buffer : Text) : Bool := buffer.head? = some '#'

/-- `hosts` and `key` of a line, if it has both. -/
def hostsAndKey (buffer : Text) : Option (Text × Text) :=
  match buffer.splitOn ' ' with
  | hosts :: _ :: key :: _ => some (hosts, key)
  | _ => none

/-- The key that a line, not a comment, records for the host. -/
def Crates.recordedKey (K : Crates) (name buffer : Text) : Except Error (Option PublicKey) :=
  match hostsAndKey buffer with
  | some (hosts, key) =>
    if K.matchHostname name hosts then (K.parsePublicKeyBase64 key).map some else .ok none
  | none => .ok none

/-- The loop of `known_host_keys_path` over the lines left to read; a comment is not counted. -/
def Crates.readKeys (K : Crates) (name : Text) :
    List Text → (line : Nat) → Except Error (List (Nat × PublicKey))
  | [], _ => .ok []
  | buffer :: rest, line =>
    if isComment buffer then K.readKeys name rest line
    else do
      let found ← K.recordedKey name buffer
      let later ← K.readKeys name rest (line + 1)
      pure (found.toList.map (line, ·) ++ later)

/-- `known_host_keys_path`; the file is `none` if it cannot be opened. -/
def Crates.knownHostKeysPath (K : Crates) (host : Text) (port : UInt16) (file : Option Text) :
    Except Error (List (Nat × PublicKey)) :=
  match file with
  | none => .ok []
  | some content => K.readKeys (hostPort host port) (lines '\n' content) 1

/-- The recorded key has the algorithm of the presented one and is another key. -/
def Crates.conflicts (K : Crates) (pubkey recorded : PublicKey) : Bool :=
  K.algorithm pubkey.keyData = K.algorithm recorded.keyData ∧ pubkey ≠ recorded

/-- The closure of `check_known_hosts_path`. -/
def Crates.judge (K : Crates) (pubkey : PublicKey) : Nat × PublicKey → Except Error Bool
  | (line, recorded) =>
    match decide (K.algorithm pubkey.keyData = K.algorithm recorded.keyData),
      decide (pubkey = recorded) with
    | true, true => .ok true
    | true, false => .error (.keyChanged line)
    | _, _ => .ok false

/-- `check_known_hosts_path` -/
def Crates.checkKnownHostsPath (K : Crates) (host : Text) (port : UInt16) (pubkey : PublicKey)
    (file : Option Text) : Except Error Bool := do
  let known ← K.knownHostKeysPath host port file
  let check ← known.mapM (K.judge pubkey)
  pure (check.any id)

/-- The content up to the end of its last line: `learn_known_hosts_path` first closes a line that
does not end in a newline, and takes an empty file for one. -/
def closed (content : Text) : Text :=
  if content.getLast? = some '\n' then content else content ++ ['\n']

/-- `learn_known_hosts_path`: the content it leaves, and its result. What was written before an
error stays. -/
def Crates.learnKnownHostsPath (K : Crates) (host : Text) (port : UInt16) (pubkey : PublicKey)
    (file : Option Text) : Text × Except Error Unit :=
  let opened := closed (file.getD []) ++ hostPort host port ++ [' ']
  match K.toOpenssh pubkey with
  | none => (opened, .error .sshKey)
  | some text => (opened ++ text ++ ['\n'], .ok ())

section Lines

variable {K : Crates} {name buffer : Text} {xs ys : List Text} {n : Nat}

/-- The line, not a comment, records the key for the host. -/
def Crates.Records (K : Crates) (name buffer : Text) (key : PublicKey) : Prop :=
  isComment buffer = false ∧ K.recordedKey name buffer = .ok (some key)

theorem readKeys_comment (h : isComment buffer = true) :
    K.readKeys name (buffer :: xs) n = K.readKeys name xs n := by
  simp [Crates.readKeys, h]

theorem readKeys_line (h : isComment buffer = false) :
    K.readKeys name (buffer :: xs) n = (do
      let found ← K.recordedKey name buffer
      let later ← K.readKeys name xs (n + 1)
      pure (found.toList.map (n, ·) ++ later)) := by
  simp [Crates.readKeys, h]

/-- How far the counter of `known_host_keys_path` moves over some lines. -/
def counted (xs : List Text) : Nat := xs.countP (fun buffer => !isComment buffer)

theorem readKeys_append :
    K.readKeys name (xs ++ ys) n = (do
      let found ← K.readKeys name xs n
      let later ← K.readKeys name ys (n + counted xs)
      pure (found ++ later)) := by
  induction xs generalizing n with
  | nil =>
    show K.readKeys name ys n = (do let later ← K.readKeys name ys (n + 0); pure ([] ++ later))
    cases K.readKeys name ys n <;> rfl
  | cons buffer rest ih =>
    cases hc : isComment buffer with
    | true =>
      have hcount : counted (buffer :: rest) = counted rest := by simp [counted, hc]
      rw [List.cons_append, readKeys_comment hc, readKeys_comment hc, ih, hcount]
    | false =>
      have hcount : n + counted (buffer :: rest) = n + 1 + counted rest := by
        simp only [counted, hc, Bool.not_false, List.countP_cons_of_pos]
        omega
      rw [List.cons_append, readKeys_line hc, readKeys_line hc, ih, hcount]
      cases K.recordedKey name buffer with
      | error e => rfl
      | ok found =>
        cases K.readKeys name rest (n + 1) with
        | error e => rfl
        | ok later =>
          cases K.readKeys name ys (n + 1 + counted rest) with
          | error e => simp [bind, Except.bind, pure, Except.pure]
          | ok last => simp [bind, Except.bind, pure, Except.pure]

/-- Where an entry comes from: a line that records its key, and the count of the lines before it
that are no comments. The keys that those lines record are in the entries before it. -/
theorem readKeys_split {pre post : List (Nat × PublicKey)} {m : Nat × PublicKey}
    (h : K.readKeys name xs n = .ok (pre ++ m :: post)) :
    ∃ i buffer, xs[i]? = some buffer ∧ K.Records name buffer m.2 ∧
      (∀ b ∈ xs.take i, ∀ key, K.Records name b key → ∃ m' ∈ pre, m'.2 = key) ∧
      m.1 = n + counted (xs.take i) := by
  induction xs generalizing n pre with
  | nil => simp [Crates.readKeys] at h
  | cons buffer rest ih =>
    cases hc : isComment buffer with
    | true =>
      rw [readKeys_comment hc] at h
      obtain ⟨i, b, hi, hb, hbefore, hline⟩ := ih h
      refine ⟨i + 1, b, hi, hb, ?_, by simpa [counted, hc] using hline⟩
      intro b' hb' key hrec
      rcases List.mem_cons.mp (List.take_succ_cons ▸ hb') with rfl | hb'
      · rw [hrec.1] at hc
        cases hc
      · exact hbefore b' hb' key hrec
    | false =>
      have hnext : ∀ i, n + counted ((buffer :: rest).take (i + 1)) =
          n + 1 + counted (rest.take i) := by
        intro i
        simp only [List.take_succ_cons, counted, hc, Bool.not_false, List.countP_cons_of_pos]
        omega
      rw [readKeys_line hc] at h
      cases hf : K.recordedKey name buffer with
      | error e => simp [hf, bind, Except.bind] at h
      | ok found =>
        cases hl : K.readKeys name rest (n + 1) with
        | error e => simp [hf, hl, bind, Except.bind] at h
        | ok later =>
          simp only [hf, hl, bind, Except.bind, pure, Except.pure, Except.ok.injEq] at h
          cases found with
          | none =>
            obtain ⟨i, b, hi, hb, hbefore, hline⟩ := ih (hl.trans (congrArg Except.ok h))
            refine ⟨i + 1, b, hi, hb, ?_, by rw [hnext, hline]⟩
            intro b' hb' key hrec
            rcases List.mem_cons.mp (List.take_succ_cons ▸ hb') with rfl | hb'
            · rw [hrec.2] at hf
              cases hf
            · exact hbefore b' hb' key hrec
          | some key =>
            cases pre with
            | nil =>
              obtain ⟨rfl, -⟩ := List.cons.inj h
              exact ⟨0, buffer, rfl, ⟨hc, hf⟩, by simp, by simp [counted]⟩
            | cons x pre =>
              obtain ⟨rfl, hlater⟩ := List.cons.inj h
              obtain ⟨i, b, hi, hb, hbefore, hline⟩ := ih (hl.trans (congrArg Except.ok hlater))
              refine ⟨i + 1, b, hi, hb, ?_, by rw [hnext, hline]⟩
              intro b' hb' key' hrec
              rcases List.mem_cons.mp (List.take_succ_cons ▸ hb') with rfl | hb'
              · have hkey : key = key' := by simpa using hf.symm.trans hrec.2
                exact ⟨(n, key), List.mem_cons_self, hkey⟩
              · obtain ⟨m', hm', hkey⟩ := hbefore b' hb' key' hrec
                exact ⟨m', List.mem_cons_of_mem _ hm', hkey⟩

/-- Every entry comes from a line that records its key. -/
theorem mem_readKeys {ms : List (Nat × PublicKey)} {m : Nat × PublicKey}
    (h : K.readKeys name xs n = .ok ms) (hm : m ∈ ms) :
    ∃ buffer ∈ xs, K.Records name buffer m.2 := by
  obtain ⟨pre, post, rfl⟩ := List.append_of_mem hm
  obtain ⟨i, buffer, hi, hrec, -⟩ := readKeys_split h
  exact ⟨buffer, List.mem_of_getElem? hi, hrec⟩

/-- A file whose entries for the host have keys that can be parsed is read to its end. -/
theorem readKeys_ok
    (h : ∀ buffer ∈ xs, isComment buffer = false → ∃ found, K.recordedKey name buffer = .ok found) :
    ∃ ms, K.readKeys name xs n = .ok ms := by
  induction xs generalizing n with
  | nil => exact ⟨[], rfl⟩
  | cons buffer rest ih =>
    have hrest := fun b hb => h b (List.mem_cons_of_mem _ hb)
    cases hc : isComment buffer with
    | true =>
      rw [readKeys_comment hc]
      exact ih hrest
    | false =>
      obtain ⟨found, hf⟩ := h buffer List.mem_cons_self hc
      obtain ⟨ms, hms⟩ := ih (n := n + 1) hrest
      exact ⟨_, by rw [readKeys_line hc, hf, hms]; rfl⟩

theorem recordedKey_ne_keyChanged {e : Error} (h : K.recordedKey name buffer = .error e)
    (line : Nat) : e ≠ .keyChanged line := by
  rintro rfl
  unfold Crates.recordedKey at h
  split at h
  · split at h
    · unfold Crates.parsePublicKeyBase64 at h
      split at h
      · cases h
      · split at h <;> cases h
    · cases h
  · cases h

theorem readKeys_ne_keyChanged {e : Error} (h : K.readKeys name xs n = .error e) (line : Nat) :
    e ≠ .keyChanged line := by
  induction xs generalizing n with
  | nil => cases h
  | cons buffer rest ih =>
    cases hc : isComment buffer with
    | true =>
      rw [readKeys_comment hc] at h
      exact ih h
    | false =>
      rw [readKeys_line hc] at h
      cases hf : K.recordedKey name buffer with
      | error e' =>
        rw [hf] at h
        cases h
        exact recordedKey_ne_keyChanged hf line
      | ok found =>
        cases hl : K.readKeys name rest (n + 1) with
        | error e' =>
          rw [hf, hl] at h
          cases h
          exact ih hl
        | ok later =>
          rw [hf, hl] at h
          cases h

end Lines

section Check

variable {K : Crates} {pubkey : PublicKey} {ms : List (Nat × PublicKey)}

theorem conflicts_iff {recorded : PublicKey} : K.conflicts pubkey recorded = true ↔
    K.algorithm pubkey.keyData = K.algorithm recorded.keyData ∧ pubkey ≠ recorded := by
  simp [Crates.conflicts]

theorem judge_of_conflicts {m : Nat × PublicKey} (h : K.conflicts pubkey m.2 = true) :
    K.judge pubkey m = .error (.keyChanged m.1) := by
  obtain ⟨ha, hk⟩ := conflicts_iff.mp h
  simp [Crates.judge, ha, hk]

theorem judge_of_not_conflicts {m : Nat × PublicKey} (h : K.conflicts pubkey m.2 = false) :
    K.judge pubkey m = .ok (decide (pubkey = m.2)) := by
  by_cases hk : pubkey = m.2
  · simp [Crates.judge, hk]
  · have ha : K.algorithm pubkey.keyData ≠ K.algorithm m.2.keyData := by
      intro ha
      rw [conflicts_iff.mpr ⟨ha, hk⟩] at h
      cases h
    simp [Crates.judge, ha, hk]

theorem mapM_judge_ok (h : ∀ m ∈ ms, K.conflicts pubkey m.2 = false) :
    ms.mapM (K.judge pubkey) = .ok (ms.map fun m => decide (pubkey = m.2)) := by
  induction ms with
  | nil => rfl
  | cons m ms ih =>
    rw [List.mapM_cons, judge_of_not_conflicts (h m List.mem_cons_self),
      ih fun m' hm => h m' (List.mem_cons_of_mem _ hm)]
    rfl

/-- The error is about the first entry that conflicts. -/
theorem mapM_judge_error {e : Error} (h : ms.mapM (K.judge pubkey) = .error e) :
    ∃ pre m post, ms = pre ++ m :: post ∧ (∀ m' ∈ pre, K.conflicts pubkey m'.2 = false) ∧
      K.conflicts pubkey m.2 = true ∧ e = .keyChanged m.1 := by
  induction ms with
  | nil => cases h
  | cons m ms ih =>
    cases hm : K.conflicts pubkey m.2 with
    | true =>
      rw [List.mapM_cons, judge_of_conflicts hm] at h
      cases h
      exact ⟨[], m, ms, rfl, by simp, hm, rfl⟩
    | false =>
      rw [List.mapM_cons, judge_of_not_conflicts hm] at h
      have hms : ms.mapM (K.judge pubkey) = .error e := by
        cases hr : ms.mapM (K.judge pubkey) with
        | error e' => simpa [hr, bind, Except.bind] using h
        | ok bs => simp [hr, bind, Except.bind, pure, Except.pure] at h
      obtain ⟨pre, m', post, rfl, hpre, hc, he⟩ := ih hms
      refine ⟨m :: pre, m', post, rfl, ?_, hc, he⟩
      intro x hx
      rcases List.mem_cons.mp hx with rfl | hx
      · exact hm
      · exact hpre x hx

end Check

section Learn

variable {K : Crates} {content host text : Text} {port : UInt16} {key : PublicKey}

/-- A host name that can be written to the file. -/
def PlainHost (host : Text) : Prop :=
  ∀ c ∈ host, c.isWhitespace = false ∧ c ≠ ',' ∧ c ≠ '#' ∧ c ≠ '|'

theorem mem_hostPort {c : Char} (h : c ∈ hostPort host port) :
    c ∈ host ∨ c = '[' ∨ c = ']' ∨ c = ':' ∨ c.isDigit = true := by
  unfold hostPort at h
  split at h
  · exact .inl h
  · simp only [List.mem_cons, List.mem_append] at h
    rcases h with h | h | h | h | h
    · exact .inr (.inl h)
    · exact .inl h
    · exact .inr (.inr (.inl h))
    · exact .inr (.inr (.inr (.inl h)))
    · exact .inr (.inr (.inr (.inr (Nat.isDigit_of_mem_toDigits (by decide) (by decide) h))))

/-- No character that ends the name in the file, or gives the line another meaning, is in it. -/
theorem notMem_hostPort (hhost : PlainHost host) (port : UInt16) :
    ' ' ∉ hostPort host port ∧ '\n' ∉ hostPort host port ∧ ',' ∉ hostPort host port ∧
      '#' ∉ hostPort host port ∧ '|' ∉ hostPort host port := by
  have hsep : ∀ c ∈ hostPort host port, c ≠ ' ' ∧ c ≠ '\n' ∧ c ≠ ',' ∧ c ≠ '#' ∧ c ≠ '|' := by
    intro c hc
    rcases mem_hostPort hc with h | rfl | rfl | rfl | h
    · obtain ⟨hws, hcomma, hhash, hbar⟩ := hhost c h
      refine ⟨?_, ?_, hcomma, hhash, hbar⟩
      · rintro rfl
        simp at hws
      · rintro rfl
        simp at hws
    · decide
    · decide
    · decide
    · refine ⟨?_, ?_, ?_, ?_, ?_⟩ <;> (rintro rfl; exact absurd h (by decide))
  exact ⟨fun h => (hsep _ h).1 rfl, fun h => (hsep _ h).2.1 rfl, fun h => (hsep _ h).2.2.1 rfl,
    fun h => (hsep _ h).2.2.2.1 rfl, fun h => (hsep _ h).2.2.2.2 rfl⟩

/-- A plain name in the file stands for itself only. -/
theorem matchHostname_plain {name : Text} (hcomma : ',' ∉ name) (hbar : '|' ∉ name)
    (name' : Text) : K.matchHostname name' name = decide (name' = name) := by
  have hpre : ['|', '1', '|'].isPrefixOf name = false := by
    cases name with
    | nil => rfl
    | cons c cs =>
      have hc : '|' ≠ c := fun h => hbar (h ▸ List.mem_cons_self)
      simp [List.isPrefixOf, hc]
  simp [Crates.matchHostname, List.splitOn_eq_singleton hcomma, Crates.matchEntry, hpre]

theorem parsePublicKeyBase64_newline (hK : K.Documented) (t : Text) :
    K.parsePublicKeyBase64 (t ++ ['\n']) = K.parsePublicKeyBase64 t := by
  simp only [Crates.parsePublicKeyBase64, hK.decodeMime_newline]

/-- The newline that ends a line is not read as part of its key. -/
theorem recordedKey_newline (hK : K.Documented) (name buffer : Text) :
    K.recordedKey name (buffer ++ ['\n']) = K.recordedKey name buffer := by
  obtain ⟨init, last, hsplit, hsplit'⟩ :=
    splitOn_concat buffer (show '\n' ≠ ' ' by decide)
  unfold Crates.recordedKey hostsAndKey
  rw [hsplit, hsplit']
  -- the last field is the key only if there are three
  rcases init with _ | ⟨hosts, _ | ⟨algorithm, _ | ⟨blob, rest⟩⟩⟩
  · rfl
  · rfl
  · simp only [List.cons_append, List.nil_append, parsePublicKeyBase64_newline hK]
  · rfl

/-- Closing the last line does not change what is read. -/
theorem readKeys_closed (hK : K.Documented) (name content : Text) (n : Nat) :
    K.readKeys name (lines '\n' (closed content)) n = K.readKeys name (lines '\n' content) n := by
  by_cases hnl : content.getLast? = some '\n'
  · simp [closed, hnl]
  · rcases eq_or_ne content [] with rfl | hne
    · rfl
    · obtain ⟨init, last, hl, hl'⟩ := lines_close hne hnl
      have hlast : last ≠ [] := by
        have hmem : last ∈ lines '\n' content := by simp [hl]
        exact ne_nil_of_mem_lines hmem
      have hcomment : isComment (last ++ ['\n']) = isComment last := by
        simp [isComment, List.head?_append_of_ne_nil _ hlast]
      rw [closed, if_neg hnl, hl, hl', readKeys_append, readKeys_append]
      cases hc : isComment last with
      | true => rw [readKeys_comment hc, readKeys_comment (hcomment.trans hc)]
      | false =>
        rw [readKeys_line hc, readKeys_line (hcomment.trans hc), recordedKey_newline hK]

/-- The line that is written for a key. -/
def entry (host : Text) (port : UInt16) (text : Text) : Text :=
  hostPort host port ++ ' ' :: (text ++ ['\n'])

/-- What is written for a key is read back as the key without its comment, for this name only. -/
theorem recordedKey_entry (hK : K.Documented) (hhost : PlainHost host)
    (htext : K.toOpenssh key = some text) (name : Text) :
    K.recordedKey name (entry host port text) =
      .ok (if name = hostPort host port then some ⟨key.keyData, []⟩ else none) := by
  obtain ⟨hspace, -, hcomma, -, hbar⟩ := notMem_hostPort hhost port
  obtain ⟨alg, blob, bytes, rfl, halg, hblob, hdecode, hdata⟩ := hK.toOpenssh_eq key text htext
  have halg' : ' ' ∉ alg := fun h => (halg _ h).1 rfl
  have hblob' : ' ' ∉ blob := fun h => (hblob _ h).1 rfl
  have hparse : K.parsePublicKeyBase64 blob = .ok ⟨key.keyData, []⟩ := by
    simp [Crates.parsePublicKeyBase64, hdecode, hdata]
  have hfields : ∃ k, hostsAndKey (entry host port (alg ++ ' ' :: blob ++
      (if key.comment = [] then [] else ' ' :: key.comment))) = some (hostPort host port, k) ∧
      K.parsePublicKeyBase64 k = .ok ⟨key.keyData, []⟩ := by
    unfold hostsAndKey entry
    rw [List.splitOn_append_cons_self_of_not_mem hspace]
    simp only [List.append_assoc, List.cons_append]
    rw [List.splitOn_append_cons_self_of_not_mem halg']
    by_cases hcom : key.comment = []
    · have hlast : ' ' ∉ blob ++ ['\n'] := by simp [hblob']
      refine ⟨blob ++ ['\n'], ?_, (parsePublicKeyBase64_newline hK blob).trans hparse⟩
      rw [if_pos hcom, List.nil_append, List.splitOn_eq_singleton hlast]
    · refine ⟨blob, ?_, hparse⟩
      rw [if_neg hcom, List.cons_append, List.splitOn_append_cons_self_of_not_mem hblob']
  obtain ⟨k, hk, hkey⟩ := hfields
  unfold Crates.recordedKey
  rw [hk]
  simp only [matchHostname_plain hcomma hbar, hkey]
  by_cases hname : name = hostPort host port
  · simp [hname, Except.map]
  · simp [hname]

theorem isComment_entry (hhost : PlainHost host) : isComment (entry host port text) = false := by
  obtain ⟨-, -, -, hhash, -⟩ := notMem_hostPort hhost port
  unfold isComment entry
  cases hn : hostPort host port with
  | nil => simp
  | cons c cs =>
    have hc : c ≠ '#' := fun h => hhash (hn ▸ h ▸ List.mem_cons_self)
    simp [hc]

/-- The text of a key is one line unless its comment is not. -/
theorem newline_notMem_text (hK : K.Documented) (htext : K.toOpenssh key = some text)
    (hcom : '\n' ∉ key.comment) : '\n' ∉ text := by
  obtain ⟨alg, blob, bytes, rfl, halg, hblob, -, -⟩ := hK.toOpenssh_eq key text htext
  intro h
  simp only [List.append_assoc, List.cons_append, List.mem_append, List.mem_cons] at h
  rcases h with h | h | h | h
  · exact (halg _ h).2 rfl
  · exact absurd h (by decide)
  · exact (hblob _ h).2 rfl
  · split at h
    · cases h
    · rcases List.mem_cons.mp h with h | h
      · exact absurd h (by decide)
      · exact hcom h

/-- The file that is learned into ends with the entry as a line of its own. -/
theorem lines_learned (hhost : PlainHost host) (htext : '\n' ∉ text) :
    lines '\n' (closed content ++ hostPort host port ++ [' '] ++ text ++ ['\n']) =
      lines '\n' (closed content) ++ [entry host port text] := by
  obtain ⟨-, hnl, -, -, -⟩ := notMem_hostPort hhost port
  have hentry : lines '\n' (entry host port text) = [entry host port text] := by
    have hmem : '\n' ∉ hostPort host port ++ ' ' :: text := by simp [hnl, htext]
    simpa [entry] using lines_concat_of_notMem hmem
  obtain ⟨init, hinit⟩ : ∃ init, closed content = init ++ ['\n'] := by
    unfold closed
    split
    · rename_i h
      exact List.getLast?_eq_some_iff.mp h
    · exact ⟨content, rfl⟩
  calc lines '\n' (closed content ++ hostPort host port ++ [' '] ++ text ++ ['\n'])
      = lines '\n' (init ++ '\n' :: entry host port text) := by simp [hinit, entry]
    _ = lines '\n' (init ++ ['\n']) ++ lines '\n' (entry host port text) :=
      lines_append_cons _ _
    _ = lines '\n' (closed content) ++ [entry host port text] := by rw [hinit, hentry]

/-- What learning a key leaves in the file. -/
theorem learned_eq {file : Option Text} {after : Text}
    (h : K.learnKnownHostsPath host port key file = (after, .ok ())) :
    ∃ text, K.toOpenssh key = some text ∧
      after = closed (file.getD []) ++ hostPort host port ++ [' '] ++ text ++ ['\n'] := by
  unfold Crates.learnKnownHostsPath at h
  cases htext : K.toOpenssh key with
  | none => simp [htext] at h
  | some text =>
    simp only [htext, Prod.mk.injEq, and_true] at h
    exact ⟨text, rfl, h.symm⟩

/-- After a key is learned, a host has the keys it had, and the learned one if it has its name. -/
theorem knownHostKeys_learned (hK : K.Documented) (hhost : PlainHost host) {after : Text}
    (hlearn : K.learnKnownHostsPath host port key (some content) = (after, .ok ()))
    (hcom : '\n' ∉ key.comment) (host' : Text) (port' : UInt16) :
    ∃ line, K.knownHostKeysPath host' port' (some after) = (do
      let known ← K.knownHostKeysPath host' port' (some content)
      pure (known ++
        if hostPort host' port' = hostPort host port then [(line, ⟨key.keyData, []⟩)] else [])) := by
  obtain ⟨text, htext, rfl⟩ := learned_eq hlearn
  refine ⟨1 + counted (lines '\n' (closed content)), ?_⟩
  show K.readKeys _ (lines '\n' _) 1 = _
  rw [Option.getD_some, lines_learned hhost (newline_notMem_text hK htext hcom), readKeys_append,
    readKeys_closed hK, readKeys_line (isComment_entry hhost), recordedKey_entry hK hhost htext]
  show _ = (do
    let known ← K.readKeys (hostPort host' port') (lines '\n' content) 1
    pure (known ++ _))
  cases K.readKeys (hostPort host' port') (lines '\n' content) 1 with
  | error e => rfl
  | ok known =>
    by_cases hname : hostPort host' port' = hostPort host port
    · simp [hname, bind, Except.bind, Crates.readKeys, pure, Except.pure]
    · simp [hname, bind, Except.bind, Crates.readKeys, pure, Except.pure]

/-- One of the hosts is on port 22 and spelled as the other one with its port: the two have one
name in the file. -/
def Aliases (host : Text) (port : UInt16) (host' : Text) (port' : UInt16) : Prop :=
  (port = 22 ∧ port' ≠ 22 ∧ host = hostPort host' port') ∨
    (port' = 22 ∧ port ≠ 22 ∧ host' = hostPort host port)

theorem colon_notMem_digits (n : Nat) : ':' ∉ Nat.toDigits 10 n := by
  intro h
  exact absurd (Nat.isDigit_of_mem_toDigits (by decide) (by decide) h) (by decide)

/-- Two hosts with one name in the file. -/
theorem hostPort_eq {host' : Text} {port' : UInt16} (h : hostPort host port = hostPort host' port') :
    (host, port) = (host', port') ∨ Aliases host port host' port' := by
  by_cases hp : port = 22
  · by_cases hp' : port' = 22
    · left
      simpa [hostPort, hp, hp'] using h
    · right
      left
      exact ⟨hp, hp', by simpa [hostPort, hp] using h⟩
  · by_cases hp' : port' = 22
    · right
      right
      exact ⟨hp', hp, by simpa [hostPort, hp'] using h.symm⟩
    · left
      -- the port is what follows the last colon
      have heq : host ++ [']'] ++ ':' :: Nat.toDigits 10 port.toNat =
          host' ++ [']'] ++ ':' :: Nat.toDigits 10 port'.toNat := by
        simpa [hostPort, hp, hp'] using h
      have hlast := congrArg (fun t : Text => (t.splitOn ':').getLast?) heq
      simp only [List.splitOn_append_cons_self, List.splitOn_eq_singleton (colon_notMem_digits _),
        List.getLast?_concat, Option.some.injEq] at hlast
      have hport : port.toNat = port'.toNat := by
        rw [← Nat.ofDigitChars_ten_toDigits (n := port.toNat), hlast,
          Nat.ofDigitChars_ten_toDigits]
      rw [hlast] at heq
      have hhost : host = host' := by simpa using heq
      rw [hhost, UInt16.toNat_inj.mp hport]

/-- The entries of a file have keys that can be parsed. -/
def Crates.EntriesParse (K : Crates) (content : Text) : Prop :=
  ∀ buffer ∈ lines '\n' content, isComment buffer = false → ∀ hosts k,
    hostsAndKey buffer = some (hosts, k) → ∃ recorded, K.parsePublicKeyBase64 k = .ok recorded

theorem recordedKey_ok (hparse : K.EntriesParse content) {name buffer : Text}
    (hb : buffer ∈ lines '\n' content) (hc : isComment buffer = false) :
    ∃ found, K.recordedKey name buffer = .ok found := by
  unfold Crates.recordedKey
  cases hk : hostsAndKey buffer with
  | none => exact ⟨none, rfl⟩
  | some p =>
    obtain ⟨hosts, k⟩ := p
    obtain ⟨recorded, hrec⟩ := hparse buffer hb hc hosts k hk
    by_cases hm : K.matchHostname name hosts = true
    · exact ⟨some recorded, by simp [hm, hrec, Except.map]⟩
    · exact ⟨none, by simp [hm]⟩

/-- A key that is learned without a comment is known, unless the file records another one. -/
theorem check_learned (hK : K.Documented) (hhost : PlainHost host)
    (hparse : K.EntriesParse content) {after : Text}
    (hlearn : K.learnKnownHostsPath host port key (some content) = (after, .ok ()))
    (hcom : key.comment = [])
    (hother : ∀ buffer ∈ lines '\n' content, ∀ recorded,
      K.Records (hostPort host port) buffer recorded → K.conflicts key recorded = false) :
    K.checkKnownHostsPath host port key (some after) = .ok true := by
  obtain ⟨line, hknown⟩ := knownHostKeys_learned hK hhost hlearn (by simp [hcom]) host port
  obtain ⟨ms, hms⟩ : ∃ ms, K.knownHostKeysPath host port (some content) = .ok ms :=
    readKeys_ok fun buffer hb hc => recordedKey_ok hparse hb hc
  have hkey : (⟨key.keyData, []⟩ : PublicKey) = key := by rw [← hcom]
  rw [hms, if_pos rfl, hkey] at hknown
  have hnone : ∀ m ∈ ms ++ [(line, key)], K.conflicts key m.2 = false := by
    intro m hm
    rcases List.mem_append.mp hm with hm | hm
    · obtain ⟨buffer, hmem, hrec⟩ := mem_readKeys hms hm
      exact hother buffer hmem m.2 hrec
    · rw [List.mem_singleton.mp hm]
      simp [Crates.conflicts]
  unfold Crates.checkKnownHostsPath
  rw [hknown]
  show (do let check ← (ms ++ [(line, key)]).mapM (K.judge key); pure (check.any id)) = _
  rw [mapM_judge_ok hnone]
  simp [bind, Except.bind, pure, Except.pure]

/-- What is learned for one name is not seen under another. -/
theorem check_other (hK : K.Documented) (hhost : PlainHost host) {after : Text}
    (hlearn : K.learnKnownHostsPath host port key (some content) = (after, .ok ()))
    (hcom : '\n' ∉ key.comment) {host' : Text} {port' : UInt16}
    (hname : hostPort host' port' ≠ hostPort host port) (key' : PublicKey) :
    K.checkKnownHostsPath host' port' key' (some after) =
      K.checkKnownHostsPath host' port' key' (some content) := by
  obtain ⟨line, hknown⟩ := knownHostKeys_learned hK hhost hlearn hcom host' port'
  unfold Crates.checkKnownHostsPath
  rw [hknown, if_neg hname]
  cases K.knownHostKeysPath host' port' (some content) with
  | error e => rfl
  | ok ms => simp [bind, Except.bind, pure, Except.pure]

/-- A changed key is reported for the first line that records a conflicting one. -/
theorem keyChanged_line {line : Nat}
    (h : K.checkKnownHostsPath host port key (some content) = .error (.keyChanged line)) :
    ∃ i buffer recorded, (lines '\n' content)[i]? = some buffer ∧
      K.Records (hostPort host port) buffer recorded ∧ K.conflicts key recorded = true ∧
      (∀ b ∈ (lines '\n' content).take i, ∀ recorded',
        K.Records (hostPort host port) b recorded' → K.conflicts key recorded' = false) ∧
      line = 1 + counted ((lines '\n' content).take i) := by
  unfold Crates.checkKnownHostsPath at h
  cases hms : K.knownHostKeysPath host port (some content) with
  | error e =>
    rw [hms] at h
    cases h
    exact absurd rfl (readKeys_ne_keyChanged hms line)
  | ok ms =>
    cases hj : ms.mapM (K.judge key) with
    | ok bs => simp [hms, hj, bind, Except.bind, pure, Except.pure] at h
    | error e =>
      simp only [hms, hj, bind, Except.bind, Except.error.injEq] at h
      obtain ⟨pre, m, post, rfl, hpre, hc, he⟩ := mapM_judge_error hj
      obtain ⟨i, buffer, hi, hrec, hbefore, hline⟩ := readKeys_split hms
      rw [he, Error.keyChanged.injEq] at h
      refine ⟨i, buffer, m.2, hi, hrec, hc, ?_, h ▸ hline⟩
      intro b hb recorded' hrec'
      obtain ⟨m', hm', rfl⟩ := hbefore b hb recorded' hrec'
      exact hpre m' hm'

theorem counted_of_no_comment {xs : List Text} (h : ∀ buffer ∈ xs, isComment buffer = false) :
    counted xs = xs.length :=
  List.countP_eq_length.mpr fun buffer hb => by simp [h buffer hb]

/-- A learned key is known and nothing changes for other hosts; a changed key is reported for the
first entry that conflicts, with its line in the file if no comment stands before it. -/
theorem learned_key_known (K : Crates) (hK : K.Documented) (content host : Text) (port : UInt16)
    (key : PublicKey) :
    (∀ after, PlainHost host →
      K.learnKnownHostsPath host port key (some content) = (after, .ok ()) →
      (K.EntriesParse content → key.comment = [] →
        (∀ buffer ∈ lines '\n' content, ∀ recorded,
          K.Records (hostPort host port) buffer recorded → K.conflicts key recorded = false) →
        K.checkKnownHostsPath host port key (some after) = .ok true) ∧
      ('\n' ∉ key.comment → ∀ host' port' key', (host', port') ≠ (host, port) →
        ¬ Aliases host' port' host port →
        K.checkKnownHostsPath host' port' key' (some after) =
          K.checkKnownHostsPath host' port' key' (some content))) ∧
    (∀ line, K.checkKnownHostsPath host port key (some content) = .error (.keyChanged line) →
      ∃ i buffer recorded, (lines '\n' content)[i]? = some buffer ∧
        K.Records (hostPort host port) buffer recorded ∧ K.conflicts key recorded = true ∧
        (∀ b ∈ (lines '\n' content).take i, ∀ recorded',
          K.Records (hostPort host port) b recorded' → K.conflicts key recorded' = false) ∧
        ((∀ b ∈ (lines '\n' content).take i, isComment b = false) → line = i + 1)) := by
  refine ⟨?_, ?_⟩
  · intro after hhost hlearn
    refine ⟨fun hparse hcom hother => check_learned hK hhost hparse hlearn hcom hother, ?_⟩
    intro hcom host' port' key' hne halias
    apply check_other hK hhost hlearn hcom
    intro hname
    rcases hostPort_eq hname with h | h
    · exact hne h
    · exact halias h
  · intro line h
    obtain ⟨i, buffer, recorded, hi, hrec, hc, hbefore, hline⟩ := keyChanged_line h
    refine ⟨i, buffer, recorded, hi, hrec, hc, hbefore, ?_⟩
    intro hno
    have hlt : i < (lines '\n' content).length := (List.getElem?_eq_some_iff.mp hi).1
    rw [hline, counted_of_no_comment hno, List.length_take_of_le (Nat.le_of_lt hlt)]
    omega

end Learn

section Examples

/-- A property of every character of a text, by looking at each. -/
theorem forall_mem_of_all {p : Char → Prop} [DecidablePred p] {t : Text}
    (h : t.all (fun c => p c) = true) : ∀ c ∈ t, p c := by
  simpa using h

/-! The keys of the tests of `known_hosts.rs`, in base64 and decoded. -/

def blob₁ : Text := "AAAAC3NzaC1lZDI1NTE5AAAAIJdD7y3aLq454yWBdwLWbieU1ebz9/cu7/QEXn9OIeZJ".toList

def data₁ : Bytes :=
  [0, 0, 0, 11, 115, 115, 104, 45, 101, 100, 50, 53, 53, 49, 57, 0, 0, 0, 32, 151, 67, 239, 45,
    218, 46, 174, 57, 227, 37, 129, 119, 2, 214, 110, 39, 148, 213, 230, 243, 247, 247, 46, 239,
    244, 4, 94, 127, 78, 33, 230, 73]

def blob₂ : Text := "AAAAC3NzaC1lZDI1NTE5AAAAIA6rWI3G1sz07DnfFlrouTcysQlj2P+jpNSOEWD9OJ3X".toList

def data₂ : Bytes :=
  [0, 0, 0, 11, 115, 115, 104, 45, 101, 100, 50, 53, 53, 49, 57, 0, 0, 0, 32, 14, 171, 88, 141,
    198, 214, 204, 244, 236, 57, 223, 22, 90, 232, 185, 55, 50, 177, 9, 99, 216, 255, 163, 164,
    212, 142, 17, 96, 253, 56, 157, 215]

def blobs : List (Text × Bytes) := [(blob₁, data₁), (blob₂, data₂)]

/-- The crates on these two keys. -/
def twoKeys : Crates where
  algorithm _ := .ed25519
  toOpenssh key := (blobs.find? (·.2 = key.keyData)).map fun blob =>
    "ssh-ed25519".toList ++ ' ' :: blob.1 ++
      (if key.comment = [] then [] else ' ' :: key.comment)
  decodeKeyData base := (blobs.find? (·.2 = base)).map (·.2)
  decodeMime text :=
    (blobs.find? (·.1 = text.filter fun c => c ≠ '\r' ∧ c ≠ '\n')).map (·.2)
  hmacSha1Verifies _ _ _ := false

theorem twoKeys_documented : twoKeys.Documented where
  decodeMime_newline text := by simp [twoKeys]
  toOpenssh_eq key text h := by
    have hblobs : ∀ blob ∈ blobs, (blob.1.all fun c => c ≠ ' ' ∧ c ≠ '\n') = true ∧
        twoKeys.decodeMime blob.1 = some blob.2 ∧
        twoKeys.decodeKeyData blob.2 = some blob.2 := by
      decide
    obtain ⟨⟨blob, bytes⟩, hfind, rfl⟩ := Option.map_eq_some_iff.mp h
    obtain ⟨hchars, hmime, hkey⟩ := hblobs _ (List.mem_of_find?_eq_some hfind)
    have hdata : bytes = key.keyData := by simpa using List.find?_some hfind
    subst hdata
    exact ⟨"ssh-ed25519".toList, blob, key.keyData, rfl, forall_mem_of_all (by decide),
      forall_mem_of_all hchars, hmime, hkey⟩

/-- A line that records a key, without its end. -/
def lineOf (host : String) (blob : Text) : Text :=
  host.toList ++ " ssh-ed25519 ".toList ++ blob

/-- A key is learned into a file with a comment and an entry for another host in a line that is not
closed. -/
theorem learned_key_known_unclosed :
    (∃ after,
      twoKeys.learnKnownHostsPath "h".toList 2222 ⟨data₁, []⟩
        (some ("#\n".toList ++ lineOf "g" blob₂)) = (after, .ok ()) ∧
      twoKeys.checkKnownHostsPath "h".toList 2222 ⟨data₁, []⟩ (some after) = .ok true ∧
      twoKeys.checkKnownHostsPath "g".toList 22 ⟨data₂, []⟩ (some after) =
        twoKeys.checkKnownHostsPath "g".toList 22 ⟨data₂, []⟩
          (some ("#\n".toList ++ lineOf "g" blob₂))) ∧
    ∃ i buffer recorded, (lines '\n' (lineOf "g" blob₂))[i]? = some buffer ∧
      twoKeys.Records (hostPort "g".toList 22) buffer recorded ∧
      twoKeys.conflicts ⟨data₁, []⟩ recorded = true ∧
      (∀ b ∈ (lines '\n' (lineOf "g" blob₂)).take i, ∀ recorded',
        twoKeys.Records (hostPort "g".toList 22) b recorded' →
          twoKeys.conflicts ⟨data₁, []⟩ recorded' = false) ∧
      ((∀ b ∈ (lines '\n' (lineOf "g" blob₂)).take i, isComment b = false) → 1 = i + 1) := by
  have hlines : lines '\n' ("#\n".toList ++ lineOf "g" blob₂) =
      ["#\n".toList, lineOf "g" blob₂] := by decide
  have hfields : hostsAndKey (lineOf "g" blob₂) = some ("g".toList, blob₂) := by decide
  have hkey : twoKeys.parsePublicKeyBase64 blob₂ = .ok ⟨data₂, []⟩ := by decide
  have hmain := learned_key_known twoKeys twoKeys_documented
    ("#\n".toList ++ lineOf "g" blob₂) "h".toList 2222 ⟨data₁, []⟩
  obtain ⟨hknown, hothers⟩ := hmain.1 _ (forall_mem_of_all (by decide)) rfl
  refine ⟨⟨_, rfl, hknown ?_ rfl ?_, ?_⟩, ?_⟩
  · intro buffer hb hc hosts k hk
    rw [hlines] at hb
    rcases List.mem_cons.mp hb with rfl | hb
    · exact absurd hc (by decide)
    · rw [List.mem_singleton.mp hb, hfields] at hk
      cases hk
      exact ⟨_, hkey⟩
  · intro buffer hb recorded hrec
    rw [hlines] at hb
    rcases List.mem_cons.mp hb with rfl | hb
    · exact absurd hrec.1 (by decide)
    · -- the entry is for another host
      have hnone : twoKeys.recordedKey (hostPort "h".toList 2222) (lineOf "g" blob₂) = .ok none := by
        decide
      rw [List.mem_singleton.mp hb] at hrec
      exact absurd (hnone.symm.trans hrec.2) (by simp)
  · exact hothers (by decide) "g".toList 22 ⟨data₂, []⟩ (by decide) (by unfold Aliases; decide)
  · exact (learned_key_known twoKeys twoKeys_documented (lineOf "g" blob₂) "g".toList 22
      ⟨data₁, []⟩).2 1 (by decide)

/-- A key is not known once it is learned if another one is recorded or if it has a comment, learning
it shows for the host of another pair that has the same name, or that its comment names, and the
line of a changed key is not the one in the file after a comment. -/
theorem not_learned_key_known :
    (∃ after,
      twoKeys.learnKnownHostsPath "h".toList 22 ⟨data₂, []⟩ (some (lineOf "h" blob₁ ++ ['\n'])) =
        (after, .ok ()) ∧
      twoKeys.checkKnownHostsPath "h".toList 22 ⟨data₂, []⟩ (some after) =
        .error (.keyChanged 1)) ∧
    (∃ after,
      twoKeys.learnKnownHostsPath "h".toList 22 ⟨data₁, ['c']⟩ (some []) = (after, .ok ()) ∧
      twoKeys.checkKnownHostsPath "h".toList 22 ⟨data₁, ['c']⟩ (some after) =
        .error (.keyChanged 2)) ∧
    (∃ after,
      twoKeys.learnKnownHostsPath "[h]:2222".toList 22 ⟨data₁, []⟩ (some []) = (after, .ok ()) ∧
      twoKeys.checkKnownHostsPath "h".toList 2222 ⟨data₁, []⟩ (some []) = .ok false ∧
      twoKeys.checkKnownHostsPath "h".toList 2222 ⟨data₁, []⟩ (some after) = .ok true) ∧
    (∃ after,
      twoKeys.learnKnownHostsPath "h".toList 22 ⟨data₁, '\n' :: lineOf "g" blob₁⟩ (some []) =
        (after, .ok ()) ∧
      twoKeys.checkKnownHostsPath "g".toList 22 ⟨data₁, []⟩ (some []) = .ok false ∧
      twoKeys.checkKnownHostsPath "g".toList 22 ⟨data₁, []⟩ (some after) = .ok true) ∧
    (lines '\n' ("#\n".toList ++ lineOf "h" blob₁) = ["#\n".toList, lineOf "h" blob₁] ∧
      isComment "#\n".toList = true ∧
      twoKeys.checkKnownHostsPath "h".toList 22 ⟨data₂, []⟩
        (some ("#\n".toList ++ lineOf "h" blob₁)) = .error (.keyChanged 1)) := by
  refine ⟨⟨_, rfl, ?_⟩, ⟨_, rfl, ?_⟩, ⟨_, rfl, ?_, ?_⟩, ⟨_, rfl, ?_, ?_⟩, ?_, ?_, ?_⟩ <;> decide

end Examples

end Edgessh.Russh.Keys
