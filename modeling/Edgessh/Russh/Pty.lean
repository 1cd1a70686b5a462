import Mathlib.Data.Nat.ModEq
import Edgessh.Russh.Client.Encrypted
import Edgessh.Russh.Server.Encrypted

/-!
# The request of a terminal

`request_pty` of the client, and what the server makes of a `pty-req`: the length of the mode
string, the modes that come back, and the mode strings that the server's loop can walk through.
-/

namespace Edgessh.Russh
open Edgessh.Command Server

/-- A terminal mode: a code of `Pty` with its argument. -/
structure TerminalMode where
  code : UInt8
  value : UInt32
  isPty : code = 0 ∨ isPtyCode code = true

namespace TerminalMode

def pair (mode : TerminalMode) : UInt8 × Nat := (mode.code, mode.value.toNat)

/-- The mode is not `TTY_OP_END`. -/
def isKept (mode : TerminalMode) : Bool := mode.code != 0

def encode (mode : TerminalMode) : Bytes := mode.code :: encodeU32 mode.value.toNat

end TerminalMode

/-- The arguments of `request_pty`. -/
structure PtyArgs where
  term : Bytes
  term_valid : validUtf8 term = true
  colWidth : UInt32
  rowHeight : UInt32
  pixWidth : UInt32
  pixHeight : UInt32
  terminalModes : List TerminalMode

namespace PtyArgs

/-- The modes without `TTY_OP_END`. -/
def kept (args : PtyArgs) : List TerminalMode := args.terminalModes.filter TerminalMode.isKept

/-- What is written before the mode string. -/
def fields (args : PtyArgs) : Bytes :=
  encodeBytes args.term ++ encodeU32 args.colWidth.toNat ++ encodeU32 args.rowHeight.toNat ++
    encodeU32 args.pixWidth.toNat ++ encodeU32 args.pixHeight.toNat

/-- The bytes that are written for the modes. -/
def modeString (args : PtyArgs) : Bytes := args.kept.flatMap TerminalMode.encode ++ [0]

/-- What `request_pty` writes after `want_reply`. -/
def body (args : PtyArgs) : Bytes :=
  args.fields ++ encodeU32 (1 + 5 * args.terminalModes.length) ++ args.modeString

/-- The CHANNEL_REQUEST. -/
def payload (args : PtyArgs) (recipient : UInt32) (wantReply : Bool) : Bytes :=
  (ChannelMessage.request (ascii "pty-req") wantReply args.body).encode recipient.toNat

theorem flatMap_pairs (modes : List TerminalMode) :
    ((modes.map TerminalMode.pair).flatMap fun m => if m.1 = 0 then [] else m.1 :: encodeU32 m.2) =
      (modes.filter TerminalMode.isKept).flatMap TerminalMode.encode := by
  induction modes with
  | nil => rfl
  | cons mode modes ih =>
    rw [List.map_cons, List.flatMap_cons, ih]
    by_cases hcode : mode.code = 0
    · simp [TerminalMode.pair, TerminalMode.isKept, hcode]
    · rw [List.filter_cons_of_pos (by simpa [TerminalMode.isKept] using hcode), List.flatMap_cons]
      simp [TerminalMode.pair, TerminalMode.encode, hcode]

/-- `request_pty` writes this packet. -/
theorem requestPty_eq {P : Primitives} (args : PtyArgs) (id : ChannelId) (wantReply : Bool) :
    (Client.requestPty id wantReply args.term args.colWidth.toNat args.rowHeight.toNat
        args.pixWidth.toNat args.pixHeight.toNat (args.terminalModes.map TerminalMode.pair) :
        Client.ClientAppM P Unit) =
      AppM.channelRequest (.requestPty wantReply args.term args.colWidth.toNat
        args.rowHeight.toNat args.pixWidth.toNat args.pixHeight.toNat
        (args.terminalModes.map TerminalMode.pair)) rfl id (ascii "pty-req") wantReply
        args.body := by
  simp only [Client.requestPty, body, fields, modeString, kept, flatMap_pairs, List.length_map,
    List.append_assoc]

end PtyArgs

/-- What stands before the modes of a `pty-req`, and the mode string. -/
structure PtyHeader where
  term : Bytes
  colWidth : Nat
  rowHeight : Nat
  pixWidth : Nat
  pixHeight : Nat
  modeString : Bytes
  deriving DecidableEq, Repr

/-- A `pty-req` as the handler of a server gets it. -/
structure PtyRequest where
  term : Bytes
  colWidth : Nat
  rowHeight : Nat
  pixWidth : Nat
  pixHeight : Nat
  terminalModes : List (UInt8 × Nat)
  deriving DecidableEq, Repr

/-- A decoder whose error is one of the session. -/
def decodeField {α : Type} (d : Decoder α) (r : Bytes) : Except Exn (α × Bytes) :=
  (d r).mapError fun e => Exn.error (.sshEncoding e)

/-- The fields that the server reads before it looks at the modes. -/
def readPtyHeader (r : Bytes) : Except Exn PtyHeader := do
  let (term, r) ← decodeField decodeString r
  let (colWidth, r) ← decodeField decodeU32 r
  let (rowHeight, r) ← decodeField decodeU32 r
  let (pixWidth, r) ← decodeField decodeU32 r
  let (pixHeight, r) ← decodeField decodeU32 r
  let (modeString, _) ← decodeField decodeBytes r
  pure { term, colWidth, rowHeight, pixWidth, pixHeight, modeString }

/-- The server's parsing of a `pty-req`. -/
def parsePtyRequest (r : Bytes) : Except Exn PtyRequest := do
  let h ← readPtyHeader r
  let modes ← readPtyModes h.modeString
  let terminalModes ← ptySlice modes
  pure
    { term := h.term
      colWidth := h.colWidth
      rowHeight := h.rowHeight
      pixWidth := h.pixWidth
      pixHeight := h.pixHeight
      terminalModes }

theorem parsePtyRequest_of_error {r : Bytes} {e : Exn} (hh : readPtyHeader r = .error e) :
    parsePtyRequest r = .error e := by
  rw [parsePtyRequest, hh]
  rfl

theorem parsePtyRequest_of_header {r : Bytes} {h : PtyHeader} (hh : readPtyHeader r = .ok h) :
    parsePtyRequest r = (readPtyModes h.modeString).bind fun modes =>
      (ptySlice modes).bind fun terminalModes =>
        .ok ⟨h.term, h.colWidth, h.rowHeight, h.pixWidth, h.pixHeight, terminalModes⟩ := by
  rw [parsePtyRequest, hh]
  rfl

section Program
open AppM

variable {P : Primitives} {pkt r : Bytes} {s : ServerSession}

theorem run_bind_lift {α β : Type} {x : Except Exn α} {f : α → ServerPacketM P (some pkt) β} :
    (Confined.lift x >>= f : ServerPacketM P (some pkt) β).run s =
      match x with
      | .ok a => (f a).run s
      | .error e => .error e s := by
  cases x <;> rfl

variable (pkt) in
/-- The fields are read first. -/
theorem run_readPtyRequest_header (env : ServerEnv) (id : ChannelId) :
    (readPtyRequest env id r : ServerPacketM P (some pkt) Unit).run s =
      match readPtyHeader r with
      | .error e => .error e s
      | .ok h => (do
          let modes ← Confined.lift (readPtyModes h.modeString)
          toChannel id (.requestPty true h.term h.colWidth h.rowHeight h.pixWidth h.pixHeight
            (ptyTable modes)) rfl
          let slice ← Confined.lift (ptySlice modes)
          discard (callback env (.channelRequest id (.requestPty true h.term h.colWidth
            h.rowHeight h.pixWidth h.pixHeight slice)) rfl rfl rfl) :
          ServerPacketM P (some pkt) Unit).run s := by
  simp only [readPtyRequest, AppM.decode, readPtyHeader, decodeField, run_bind_lift]
  cases (decodeString r).mapError fun e => Exn.error (.sshEncoding e) with
  | error e => rfl
  | ok p =>
    obtain ⟨term, r⟩ := p
    simp only [bind, Except.bind]
    cases (decodeU32 r).mapError fun e => Exn.error (.sshEncoding e) with
    | error e => rfl
    | ok p =>
      obtain ⟨colWidth, r⟩ := p
      dsimp only
      cases (decodeU32 r).mapError fun e => Exn.error (.sshEncoding e) with
      | error e => rfl
      | ok p =>
        obtain ⟨rowHeight, r⟩ := p
        dsimp only
        cases (decodeU32 r).mapError fun e => Exn.error (.sshEncoding e) with
        | error e => rfl
        | ok p =>
          obtain ⟨pixWidth, r⟩ := p
          dsimp only
          cases (decodeU32 r).mapError fun e => Exn.error (.sshEncoding e) with
          | error e => rfl
          | ok p =>
            obtain ⟨pixHeight, r⟩ := p
            dsimp only
            cases (decodeBytes r).mapError fun e => Exn.error (.sshEncoding e) with
            | error e => rfl
            | ok p => rfl

variable (pkt) in
/-- What is sent to a channel never fails. -/
theorem run_toChannel (id : ChannelId) (m : ChannelMsg) (h : m.payload = none) :
    ∃ t, (toChannel id m h : ServerPacketM P (some pkt) Unit).run s = .ok () t := by
  unfold toChannel
  rw [Confined.run_bind_of_ok (t := s) (a := s) rfl]
  cases s.channels id with
  | none => exact ⟨s, rfl⟩
  | some chan => exact ⟨s.record (.toChannel id chan m), rfl⟩

/-- The program of the server: where the parsing fails it fails so, and where it succeeds the
handler is called with the result, after the channel has been told. -/
theorem run_readPtyRequest (env : ServerEnv) (id : ChannelId) :
    match parsePtyRequest r with
    | .error e => ∃ t, (readPtyRequest env id r : ServerPacketM P (some pkt) Unit).run s =
        .error e t
    | .ok q => ∃ table t, (toChannel id (.requestPty true q.term q.colWidth q.rowHeight q.pixWidth
          q.pixHeight table) rfl : ServerPacketM P (some pkt) Unit).run s = .ok () t ∧
        (readPtyRequest env id r : ServerPacketM P (some pkt) Unit).run s =
          (discard (callback env (.channelRequest id (.requestPty true q.term q.colWidth
            q.rowHeight q.pixWidth q.pixHeight q.terminalModes)) rfl rfl rfl) :
          ServerPacketM P (some pkt) Unit).run t := by
  have hrun := run_readPtyRequest_header (P := P) (r := r) (s := s) pkt env id
  cases hh : readPtyHeader r with
  | error e =>
    rw [parsePtyRequest_of_error hh]
    exact ⟨s, by rw [hrun, hh]⟩
  | ok h =>
    rw [parsePtyRequest_of_header hh]
    rw [hh] at hrun
    dsimp only at hrun
    rw [run_bind_lift] at hrun
    cases hmodes : readPtyModes h.modeString with
    | error e => exact ⟨s, by rw [hrun, hmodes]⟩
    | ok modes =>
      rw [hmodes] at hrun
      obtain ⟨t, ht⟩ := run_toChannel (P := P) (s := s) pkt id (.requestPty true h.term
        h.colWidth h.rowHeight h.pixWidth h.pixHeight (ptyTable modes)) rfl
      dsimp only at hrun
      rw [Confined.run_bind_of_ok ht, run_bind_lift] at hrun
      dsimp only [Except.bind]
      cases hslice : ptySlice modes with
      | error e => exact ⟨t, by rw [hrun, hslice]⟩
      | ok terminalModes => exact ⟨ptyTable modes, t, ht, by rw [hrun, hslice]⟩

end Program

section Modes

/-- A mode string that the loop walks through: `n` modes, then the end or a `TTY_OP_END`. -/
inductive Terminated : Nat → Bytes → Prop where
  | nil : Terminated 0 []
  | stop (rest : Bytes) : Terminated 0 (0 :: rest)
  | mode {n : Nat} {code a b c d : UInt8} {rest : Bytes} (hcode : code ≠ 0)
      (h : Terminated n rest) : Terminated (n + 1) (code :: a :: b :: c :: d :: rest)

theorem readPtyModes_mode {code a b c d : UInt8} {rest : Bytes} (hcode : code ≠ 0) :
    readPtyModes (code :: a :: b :: c :: d :: rest) = (readPtyModes rest).bind fun modes =>
      .ok ((if isPtyCode code then some (code, u32OfBytes a b c d) else none) :: modes) := by
  rw [readPtyModes]
  · rfl
  · exact hcode

/-- The loop fails by a panic only. -/
theorem readPtyModes_error {bytes : Bytes} {e : Exn} (h : readPtyModes bytes = .error e) :
    e = .panic := by
  induction bytes using readPtyModes.induct with
  | case1 => cases h
  | case2 rest => cases h
  | case3 code a b c d rest hcode ih =>
    rw [readPtyModes_mode hcode] at h
    cases hrest : readPtyModes rest with
    | error e' =>
      rw [hrest] at h
      cases h
      exact ih hrest
    | ok modes =>
      rw [hrest] at h
      cases h
  | case4 bytes h₁ h₂ h₃ =>
    rw [readPtyModes] at h
    · cases h
      rfl
    · exact h₁
    · exact h₂
    · exact h₃

/-- The loop gets to its end on the strings that it can walk through, and on no others. -/
theorem readPtyModes_length_iff {n : Nat} {bytes : Bytes} :
    (∃ modes, readPtyModes bytes = .ok modes ∧ modes.length = n) ↔ Terminated n bytes := by
  constructor
  · rintro ⟨modes, hmodes, rfl⟩
    induction bytes using readPtyModes.induct generalizing modes with
    | case1 =>
      cases hmodes
      exact .nil
    | case2 rest =>
      cases hmodes
      exact .stop rest
    | case3 code a b c d rest hcode ih =>
      rw [readPtyModes_mode hcode] at hmodes
      cases hrest : readPtyModes rest with
      | error e =>
        rw [hrest] at hmodes
        cases hmodes
      | ok tail =>
        rw [hrest] at hmodes
        cases hmodes
        exact .mode hcode (ih tail hrest)
    | case4 bytes h₁ h₂ h₃ =>
      rw [readPtyModes] at hmodes
      · cases hmodes
      · exact h₁
      · exact h₂
      · exact h₃
  · intro h
    induction h with
    | nil => exact ⟨[], rfl, rfl⟩
    | stop rest => exact ⟨[], rfl, rfl⟩
    | mode hcode h ih =>
      obtain ⟨modes, hmodes, rfl⟩ := ih
      rw [readPtyModes_mode hcode, hmodes]
      exact ⟨_, rfl, rfl⟩

theorem ptySlice_error {modes : List (Option (UInt8 × Nat))} :
    ptySlice modes = .error .panic ↔ 130 < modes.length := by
  unfold ptySlice
  by_cases hle : modes.length ≤ 130
  · rw [if_pos hle]
    exact ⟨nofun, fun h => absurd hle (by omega)⟩
  · rw [if_neg hle]
    exact ⟨fun _ => by omega, fun _ => rfl⟩

/-- Modes that all are known come out of the array as they went in. -/
theorem ptySlice_some {modes : List (UInt8 × Nat)} (hle : modes.length ≤ 130) :
    ptySlice (modes.map some) = .ok modes := by
  rw [ptySlice, if_pos (by simpa using hle)]
  have hmap : (modes.map some).map (Option.getD · (0, 0)) = modes := by simp
  rw [ptyTable, hmap, List.length_map, List.take_take, Nat.min_eq_left hle]
  exact congrArg _ (List.take_left' rfl)

theorem u32OfBytes_encodeU32 (n : Nat) : u32OfBytes (UInt8.ofNat (n / 2 ^ 24))
    (UInt8.ofNat (n / 2 ^ 16)) (UInt8.ofNat (n / 2 ^ 8)) (UInt8.ofNat n) = n % 2 ^ 32 := by
  have h := decodeU32_encodeU32 n []
  simp only [encodeU32, List.cons_append, List.nil_append, decodeU32] at h
  exact (Prod.mk.inj (Except.ok.inj h)).1

/-- The modes that `request_pty` writes are the modes that the loop reads. -/
theorem readPtyModes_encode {modes : List TerminalMode}
    (hkept : ∀ mode ∈ modes, mode.isKept = true) :
    readPtyModes (modes.flatMap TerminalMode.encode ++ [0]) =
      .ok ((modes.map TerminalMode.pair).map some) := by
  induction modes with
  | nil => rfl
  | cons mode modes ih =>
    have hcode : mode.code ≠ 0 := by
      simpa [TerminalMode.isKept] using hkept mode List.mem_cons_self
    have hpty : isPtyCode mode.code = true := mode.isPty.resolve_left hcode
    have hvalue : mode.value.toNat % 2 ^ 32 = mode.value.toNat :=
      Nat.mod_eq_of_lt mode.value.toNat_lt
    have htail := ih fun m hm => hkept m (List.mem_cons_of_mem _ hm)
    simp only [List.flatMap_cons, TerminalMode.encode, encodeU32, List.cons_append,
      List.nil_append] at htail ⊢
    rw [readPtyModes_mode hcode, htail, if_pos hpty, u32OfBytes_encodeU32, hvalue]
    rfl

end Modes

section Parsing

/-- A payload whose mode string the loop walks through, in no more than 130 modes. -/
def Walkable (r : Bytes) : Prop :=
  ∀ h, readPtyHeader r = .ok h → ∃ n ≤ 130, Terminated n h.modeString

theorem decodeField_eq_ok {α : Type} {d : Decoder α} {r r' : Bytes} {a : α} :
    decodeField d r = .ok (a, r') ↔ d r = .ok (a, r') :=
  mapError_eq_ok

theorem decodeField_ne_panic {α : Type} (d : Decoder α) (r : Bytes) :
    decodeField d r ≠ .error .panic := by
  unfold decodeField
  cases d r with
  | error e => exact nofun
  | ok p => exact nofun

theorem except_map_eq_ok {α β : Type} {f : α → β} {x : Except Exn α} {b : β}
    (h : x.map f = .ok b) : ∃ a, x = .ok a ∧ f a = b := by
  cases x with
  | error e => cases h
  | ok a => exact ⟨a, rfl, Except.ok.inj h⟩

theorem ok_bind {α β : Type} (a : α) (f : α → Except Exn β) : (.ok a >>= f) = f a := rfl

theorem bind_ne_panic {α β : Type} {x : Except Exn α} {f : α → Except Exn β}
    (hx : x ≠ .error .panic) (hf : ∀ a, f a ≠ .error .panic) : (x >>= f) ≠ .error .panic := by
  cases x with
  | error e =>
    intro h
    apply hx
    cases h
    rfl
  | ok a => exact hf a

/-- The fields before the mode string are read without a panic. -/
theorem readPtyHeader_ne_panic (r : Bytes) : readPtyHeader r ≠ .error .panic := by
  unfold readPtyHeader
  apply bind_ne_panic (decodeField_ne_panic _ _)
  intro ⟨term, r⟩
  apply bind_ne_panic (decodeField_ne_panic _ _)
  intro ⟨colWidth, r⟩
  apply bind_ne_panic (decodeField_ne_panic _ _)
  intro ⟨rowHeight, r⟩
  apply bind_ne_panic (decodeField_ne_panic _ _)
  intro ⟨pixWidth, r⟩
  apply bind_ne_panic (decodeField_ne_panic _ _)
  intro ⟨pixHeight, r⟩
  apply bind_ne_panic (decodeField_ne_panic _ _)
  intro ⟨modeString, r⟩ h
  cases h

theorem readPtyHeader_eq_ok {r : Bytes} {h : PtyHeader} :
    readPtyHeader r = .ok h ↔ ∃ r₁ r₂ r₃ r₄ r₅ r₆,
      decodeString r = .ok (h.term, r₁) ∧ decodeU32 r₁ = .ok (h.colWidth, r₂) ∧
      decodeU32 r₂ = .ok (h.rowHeight, r₃) ∧ decodeU32 r₃ = .ok (h.pixWidth, r₄) ∧
      decodeU32 r₄ = .ok (h.pixHeight, r₅) ∧ decodeBytes r₅ = .ok (h.modeString, r₆) := by
  constructor
  · intro hr
    unfold readPtyHeader at hr
    obtain ⟨⟨term, r₁⟩, h₁, hr⟩ := bind_eq_ok.mp hr
    obtain ⟨⟨colWidth, r₂⟩, h₂, hr⟩ := bind_eq_ok.mp hr
    obtain ⟨⟨rowHeight, r₃⟩, h₃, hr⟩ := bind_eq_ok.mp hr
    obtain ⟨⟨pixWidth, r₄⟩, h₄, hr⟩ := bind_eq_ok.mp hr
    obtain ⟨⟨pixHeight, r₅⟩, h₅, hr⟩ := bind_eq_ok.mp hr
    obtain ⟨⟨modeString, r₆⟩, h₆, hr⟩ := bind_eq_ok.mp hr
    cases hr
    exact ⟨r₁, r₂, r₃, r₄, r₅, r₆, decodeField_eq_ok.mp h₁, decodeField_eq_ok.mp h₂,
      decodeField_eq_ok.mp h₃, decodeField_eq_ok.mp h₄, decodeField_eq_ok.mp h₅,
      decodeField_eq_ok.mp h₆⟩
  · rintro ⟨r₁, r₂, r₃, r₄, r₅, r₆, h₁, h₂, h₃, h₄, h₅, h₆⟩
    unfold readPtyHeader
    apply bind_eq_ok.mpr ⟨_, decodeField_eq_ok.mpr h₁, _⟩
    apply bind_eq_ok.mpr ⟨_, decodeField_eq_ok.mpr h₂, _⟩
    apply bind_eq_ok.mpr ⟨_, decodeField_eq_ok.mpr h₃, _⟩
    apply bind_eq_ok.mpr ⟨_, decodeField_eq_ok.mpr h₄, _⟩
    apply bind_eq_ok.mpr ⟨_, decodeField_eq_ok.mpr h₅, _⟩
    exact bind_eq_ok.mpr ⟨_, decodeField_eq_ok.mpr h₆, rfl⟩

/-- Once the fields before it have been decoded, the mode string decides. -/
theorem readPtyHeader_of {r r₁ r₂ r₃ r₄ r₅ term : Bytes}
    {colWidth rowHeight pixWidth pixHeight : Nat} (h₁ : decodeString r = .ok (term, r₁))
    (h₂ : decodeU32 r₁ = .ok (colWidth, r₂)) (h₃ : decodeU32 r₂ = .ok (rowHeight, r₃))
    (h₄ : decodeU32 r₃ = .ok (pixWidth, r₄)) (h₅ : decodeU32 r₄ = .ok (pixHeight, r₅)) :
    readPtyHeader r = (decodeField decodeBytes r₅).map fun p =>
      ⟨term, colWidth, rowHeight, pixWidth, pixHeight, p.1⟩ := by
  simp only [readPtyHeader, decodeField_eq_ok.mpr h₁, decodeField_eq_ok.mpr h₂,
    decodeField_eq_ok.mpr h₃, decodeField_eq_ok.mpr h₄, decodeField_eq_ok.mpr h₅, ok_bind]
  cases decodeField decodeBytes r₅ with
  | error e => rfl
  | ok p => rfl

theorem parsePtyRequest_eq_ok {r : Bytes} {q : PtyRequest} :
    parsePtyRequest r = .ok q ↔ ∃ h modes, readPtyHeader r = .ok h ∧
      readPtyModes h.modeString = .ok modes ∧ ptySlice modes = .ok q.terminalModes ∧
      q = ⟨h.term, h.colWidth, h.rowHeight, h.pixWidth, h.pixHeight, q.terminalModes⟩ := by
  constructor
  · intro hq
    unfold parsePtyRequest at hq
    obtain ⟨h, hh, hq⟩ := bind_eq_ok.mp hq
    obtain ⟨modes, hmodes, hq⟩ := bind_eq_ok.mp hq
    obtain ⟨terminalModes, hslice, hq⟩ := bind_eq_ok.mp hq
    cases hq
    exact ⟨h, modes, hh, hmodes, hslice, rfl⟩
  · rintro ⟨h, modes, hh, hmodes, hslice, hq⟩
    unfold parsePtyRequest
    apply bind_eq_ok.mpr ⟨h, hh, _⟩
    apply bind_eq_ok.mpr ⟨modes, hmodes, _⟩
    apply bind_eq_ok.mpr ⟨q.terminalModes, hslice, _⟩
    rw [hq]
    rfl

/-- The parsing does not panic exactly where the mode string can be walked through. -/
theorem parsePtyRequest_ne_panic_iff {r : Bytes} :
    parsePtyRequest r ≠ .error .panic ↔ Walkable r := by
  cases hh : readPtyHeader r with
  | error e =>
    rw [parsePtyRequest_of_error hh]
    constructor
    · intro _ h hr
      rw [hh] at hr
      cases hr
    · intro _ he
      cases he
      exact readPtyHeader_ne_panic r hh
  | ok h =>
    rw [parsePtyRequest_of_header hh]
    cases hmodes : readPtyModes h.modeString with
    | error e =>
      cases readPtyModes_error hmodes
      constructor
      · intro hne
        exact absurd rfl hne
      · intro hwalk
        obtain ⟨n, -, hn⟩ := hwalk h hh
        obtain ⟨modes, hok, -⟩ := readPtyModes_length_iff.mpr hn
        rw [hmodes] at hok
        cases hok
    | ok modes =>
      have hterm : Terminated modes.length h.modeString :=
        readPtyModes_length_iff.mp ⟨modes, hmodes, rfl⟩
      show (ptySlice modes).bind _ ≠ _ ↔ _
      by_cases hle : modes.length ≤ 130
      · constructor
        · intro _ h' hh'
          rw [hh] at hh'
          cases hh'
          exact ⟨modes.length, hle, hterm⟩
        · intro _
          rw [ptySlice, if_pos hle]
          exact nofun
      · constructor
        · intro hne
          rw [ptySlice_error.mpr (by omega)] at hne
          exact absurd rfl hne
        · intro hwalk
          obtain ⟨n, hn, hn'⟩ := hwalk h hh
          obtain ⟨modes', hok, rfl⟩ := readPtyModes_length_iff.mpr hn'
          rw [hmodes] at hok
          cases hok
          exact absurd hn hle

end Parsing

section RoundTrip

namespace PtyArgs

/-- The length before the mode string is the number of bytes that follow it. -/
def WellFormed (args : PtyArgs) : Prop :=
  decodeU32 (args.body.drop args.fields.length) = .ok (args.modeString.length, args.modeString)

/-- What the server should make of the request. -/
def expected (args : PtyArgs) : PtyRequest :=
  ⟨args.term, args.colWidth.toNat, args.rowHeight.toNat, args.pixWidth.toNat,
    args.pixHeight.toNat, args.kept.map TerminalMode.pair⟩

/-- The server reads the packet back. -/
def ReadBack (args : PtyArgs) (recipient : UInt32) (wantReply : Bool) : Prop :=
  ∃ r₁ r₂ r₃, decodeU32 (args.payload recipient wantReply).tail = .ok (recipient.toNat, r₁) ∧
    decodeString r₁ = .ok (ascii "pty-req", r₂) ∧
    decodeU8 r₂ = .ok (if wantReply then 1 else 0, r₃) ∧
    parsePtyRequest r₃ = .ok args.expected

/-- No `TTY_OP_END` is counted, up to the width of the length, and no more modes are kept than the
server's array holds; the name of the terminal is not too long to be decoded. -/
structure Sendable (args : PtyArgs) : Prop where
  term : args.term.length ≤ maxSize
  counted : (args.terminalModes.length - args.kept.length) % 2 ^ 32 = 0
  kept : args.kept.length ≤ 130

variable {args : PtyArgs}

theorem modeString_length (args : PtyArgs) :
    args.modeString.length = 1 + 5 * args.kept.length := by
  have hflat (modes : List TerminalMode) :
      (modes.flatMap TerminalMode.encode).length = 5 * modes.length := by
    induction modes with
    | nil => rfl
    | cons mode modes ih =>
      rw [List.flatMap_cons, List.length_append, ih, List.length_cons]
      show 5 + 5 * modes.length = _
      omega
  rw [modeString, List.length_append, hflat, List.length_singleton]
  omega

theorem kept_length_le (args : PtyArgs) : args.kept.length ≤ args.terminalModes.length :=
  List.length_filter_le _ _

theorem wellFormed_iff :
    args.WellFormed ↔ (1 + 5 * args.terminalModes.length) % 2 ^ 32 = 1 + 5 * args.kept.length := by
  rw [WellFormed, body, List.append_assoc, List.drop_left, decodeU32_encodeU32,
    modeString_length]
  constructor
  · intro h
    exact (Prod.mk.inj (Except.ok.inj h)).1
  · intro h
    rw [h]

/-- The length field is right where the modes that are left out are counted as none. -/
theorem counted_of_wellFormed (hwell : args.WellFormed) :
    (args.terminalModes.length - args.kept.length) % 2 ^ 32 = 0 := by
  have h := wellFormed_iff.mp hwell
  have hdvd : 2 ^ 32 ∣ 5 * (args.terminalModes.length - args.kept.length) := by
    have hsub : 5 * (args.terminalModes.length - args.kept.length) =
        1 + 5 * args.terminalModes.length - (1 + 5 * args.terminalModes.length) % 2 ^ 32 := by
      rw [h, Nat.mul_sub, Nat.add_sub_add_left]
    rw [hsub]
    exact Nat.dvd_sub_mod _
  exact Nat.mod_eq_zero_of_dvd (Nat.Coprime.dvd_of_dvd_mul_left (by decide) hdvd)

theorem wellFormed_of_counted (hle : args.kept.length ≤ 130)
    (h : (args.terminalModes.length - args.kept.length) % 2 ^ 32 = 0) : args.WellFormed := by
  have hkept := kept_length_le args
  obtain ⟨m, hm⟩ := Nat.dvd_of_mod_eq_zero h
  have hn : 1 + 5 * args.terminalModes.length = 1 + 5 * args.kept.length + 2 ^ 32 * (5 * m) := by
    omega
  rw [wellFormed_iff, hn, Nat.add_mul_mod_self_left]
  exact Nat.mod_eq_of_lt (by omega)

/-- What comes after `want_reply` is decoded up to the mode string. -/
theorem readPtyHeader_body (hterm : args.term.length ≤ maxSize) :
    readPtyHeader args.body =
      (decodeField decodeBytes (encodeU32 (1 + 5 * args.terminalModes.length) ++
        args.modeString)).map fun p =>
          ⟨args.term, args.colWidth.toNat, args.rowHeight.toNat, args.pixWidth.toNat,
            args.pixHeight.toNat, p.1⟩ := by
  have hu32 (n : UInt32) (r : Bytes) :
      decodeU32 (encodeU32 n.toNat ++ r) = .ok (n.toNat, r) := by
    rw [decodeU32_encodeU32, Nat.mod_eq_of_lt n.toNat_lt]
  rw [body, fields]
  simp only [List.append_assoc]
  exact readPtyHeader_of (decodeString_encodeBytes hterm args.term_valid _) (hu32 _ _) (hu32 _ _)
    (hu32 _ _) (hu32 _ _)

theorem readPtyModes_modeString (args : PtyArgs) :
    readPtyModes args.modeString = .ok ((args.kept.map TerminalMode.pair).map some) :=
  readPtyModes_encode fun _ hmode => (List.mem_filter.mp hmode).2

/-- The name of the request and what stands before it are read back in any case. -/
theorem readBack_iff (recipient : UInt32) (wantReply : Bool) :
    args.ReadBack recipient wantReply ↔ parsePtyRequest args.body = .ok args.expected := by
  have h₁ : decodeU32 (args.payload recipient wantReply).tail = .ok (recipient.toNat,
      encodeBytes (ascii "pty-req") ++ encodeBool wantReply ++ args.body) := by
    show decodeU32 (encodeU32 recipient.toNat ++ encodeBytes (ascii "pty-req") ++
      encodeBool wantReply ++ args.body) = _
    rw [List.append_assoc, List.append_assoc, decodeU32_encodeU32,
      Nat.mod_eq_of_lt recipient.toNat_lt, List.append_assoc]
  have h₂ : decodeString (encodeBytes (ascii "pty-req") ++ encodeBool wantReply ++ args.body) =
      .ok (ascii "pty-req", encodeBool wantReply ++ args.body) := by
    rw [List.append_assoc, decodeString_encodeBytes (by decide) (validUtf8_of_ascii (by decide))]
  have h₃ : decodeU8 (encodeBool wantReply ++ args.body) =
      .ok (if wantReply then 1 else 0, args.body) := rfl
  constructor
  · rintro ⟨r₁, r₂, r₃, hr₁, hr₂, hr₃, hparse⟩
    obtain ⟨-, rfl⟩ := Prod.mk.inj (Except.ok.inj (h₁.symm.trans hr₁))
    obtain ⟨-, rfl⟩ := Prod.mk.inj (Except.ok.inj (h₂.symm.trans hr₂))
    obtain ⟨-, rfl⟩ := Prod.mk.inj (Except.ok.inj (h₃.symm.trans hr₃))
    exact hparse
  · exact fun h => ⟨_, _, _, h₁, h₂, h₃, h⟩

/-- The mode string that is decoded is the one that was written, and it is not too long. -/
theorem modeString_of_header {h : PtyHeader} (hterm : args.term.length ≤ maxSize)
    (hwell : args.WellFormed) (hh : readPtyHeader args.body = .ok h) :
    h.modeString = args.modeString := by
  rw [readPtyHeader_body hterm] at hh
  obtain ⟨⟨modeString, r⟩, hlast, rfl⟩ := except_map_eq_ok hh
  obtain ⟨rest, hcounted, -, hrest⟩ := decodeBytes_eq_ok.mp (decodeField_eq_ok.mp hlast)
  rw [decodeU32_encodeU32, wellFormed_iff.mp hwell, ← modeString_length] at hcounted
  obtain ⟨hsame, rfl⟩ := Prod.mk.inj (Except.ok.inj hcounted)
  have htake := congrArg (List.take args.modeString.length) hrest
  rw [List.take_length, hsame, List.take_left] at htake
  exact htake.symm

theorem header_of_wellFormed (hterm : args.term.length ≤ maxSize) (hwell : args.WellFormed)
    (hle : args.kept.length ≤ 130) :
    readPtyHeader args.body = .ok ⟨args.term, args.colWidth.toNat, args.rowHeight.toNat,
      args.pixWidth.toNat, args.pixHeight.toNat, args.modeString⟩ := by
  have hbytes : args.modeString.length ≤ maxSize := by
    rw [modeString_length, maxSize]
    omega
  have hlast : decodeBytes (encodeU32 (1 + 5 * args.terminalModes.length) ++ args.modeString) =
      .ok (args.modeString, []) := by
    refine decodeBytes_eq_ok.mpr ⟨args.modeString, ?_, hbytes, (List.append_nil _).symm⟩
    rw [decodeU32_encodeU32, wellFormed_iff.mp hwell, modeString_length]
  rw [readPtyHeader_body hterm, decodeField_eq_ok.mpr hlast]
  rfl

/-- The request is well formed and is read back. -/
theorem readBack_wellFormed_iff (recipient : UInt32) (wantReply : Bool) :
    args.WellFormed ∧ args.ReadBack recipient wantReply ↔ args.Sendable := by
  constructor
  · rintro ⟨hwell, hread⟩
    obtain ⟨h, modes, hh, hmodes, hslice, hq⟩ :=
      parsePtyRequest_eq_ok.mp ((readBack_iff recipient wantReply).mp hread)
    have hname : args.term = h.term := congrArg PtyRequest.term hq
    obtain ⟨r₁, -, -, -, -, -, hterm, -⟩ := readPtyHeader_eq_ok.mp hh
    obtain ⟨q, -, hlength, -⟩ := decodeBytes_eq_ok.mp (decodeString_eq_ok.mp hterm).1
    rw [← hname] at hlength
    rw [modeString_of_header hlength hwell hh, readPtyModes_modeString] at hmodes
    refine ⟨hlength, counted_of_wellFormed hwell, ?_⟩
    by_contra hmany
    rw [← Except.ok.inj hmodes, ptySlice_error.mpr (by simpa using hmany)] at hslice
    exact nomatch hslice
  · rintro ⟨hterm, hcounted, hle⟩
    have hwell : args.WellFormed := wellFormed_of_counted hle hcounted
    refine ⟨hwell, (readBack_iff recipient wantReply).mpr ?_⟩
    exact parsePtyRequest_eq_ok.mpr ⟨_, _, header_of_wellFormed hterm hwell hle,
      readPtyModes_modeString args, ptySlice_some (by simpa using hle), rfl⟩

end PtyArgs

/-- The client's request is well formed and is read back where no `TTY_OP_END` is counted and the
modes fit; the server's parsing does not panic where the mode string can be walked through. -/
theorem ptyRequest_round_trip_iff (args : PtyArgs) (recipient : UInt32) (wantReply : Bool)
    (r : Bytes) :
    (args.WellFormed ∧ args.ReadBack recipient wantReply ↔ args.Sendable) ∧
    (parsePtyRequest r ≠ .error .panic ↔ Walkable r) := by
  constructor
  · exact PtyArgs.readBack_wellFormed_iff recipient wantReply
  · exact parsePtyRequest_ne_panic_iff

/-- One `TTY_OP_END` and nothing else. -/
def endOnly : PtyArgs where
  term := []
  term_valid := validUtf8_of_ascii rfl
  colWidth := 80
  rowHeight := 24
  pixWidth := 0
  pixHeight := 0
  terminalModes := [⟨0, 0, Or.inl rfl⟩]

/-- A `pty-req` whose mode string is a single byte. -/
def cutModes : Bytes :=
  encodeBytes [] ++ (encodeU32 80 ++ (encodeU32 24 ++ (encodeU32 0 ++ (encodeU32 0 ++
    encodeBytes [1]))))

/-- A list with a `TTY_OP_END` is sent with a wrong length, and a cut mode string makes the server
panic. -/
theorem ptyRequest_round_trip_fails :
    ¬ endOnly.WellFormed ∧ parsePtyRequest cutModes = .error .panic := by
  constructor
  · intro hwell
    have h := PtyArgs.wellFormed_iff.mp hwell
    revert h
    decide
  · have hlast : decodeField decodeBytes (encodeBytes [1]) = .ok ([1], []) :=
      decodeField_eq_ok.mpr (decodeBytes_eq_ok.mpr ⟨[1], by decide +kernel, by decide, rfl⟩)
    have hheader : readPtyHeader cutModes = .ok ⟨[], 80, 24, 0, 0, [1]⟩ := by
      rw [cutModes, readPtyHeader_of
        (decodeString_encodeBytes (by decide) (validUtf8_of_ascii (by decide)) _)
        (decodeU32_encodeU32 80 _) (decodeU32_encodeU32 24 _) (decodeU32_encodeU32 0 _)
        (decodeU32_encodeU32 0 _), hlast]
      decide +kernel
    rw [parsePtyRequest_of_header hheader]
    rfl

end RoundTrip

end Edgessh.Russh
