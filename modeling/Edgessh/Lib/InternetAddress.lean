import Mathlib.Data.List.Basic

/-!
# Textual forms of Internet addresses

An IPv4 address is written as four decimal numbers. An IPv6 address is written as eight groups of
one to four hexadecimal digits, of which the last two may be an IPv4 address, and one run of zero
groups may be left out; brackets may stand around it. So an address has many texts. What is shown
here of a text is what can be told from its first characters, and which characters it holds.
-/

namespace Edgessh.InternetAddress

abbrev Text := List Char

section Numbers

/-- The number that decimal digits stand for. -/
def decimal (t : Text) : Nat := t.foldl (fun n c => 10 * n + (c.toNat - 48)) 0

/-- A decimal number, with any number of zeros before it. -/
structure Number (t : Text) (n : Nat) : Prop where
  nonempty : t ≠ []
  digits : ∀ c ∈ t, c.isDigit = true
  value : decimal t = n

/-- The value of a hexadecimal digit, of either case. -/
def hexDigit? (c : Char) : Option Nat :=
  if 48 ≤ c.toNat ∧ c.toNat ≤ 57 then some (c.toNat - 48)
  else if 97 ≤ c.toNat ∧ c.toNat ≤ 102 then some (c.toNat - 87)
  else if 65 ≤ c.toNat ∧ c.toNat ≤ 70 then some (c.toNat - 55)
  else none

/-- The number that hexadecimal digits stand for. -/
def hexadecimal? : Text → Nat → Option Nat
  | [], n => some n
  | c :: t, n => (hexDigit? c).bind fun d => hexadecimal? t (16 * n + d)

/-- One to four hexadecimal digits. -/
structure Group (t : Text) (v : UInt16) : Prop where
  nonempty : t ≠ []
  short : t.length ≤ 4
  value : hexadecimal? t 0 = some v.toNat

end Numbers

/-- An IPv4 address. -/
structure V4 where
  a : UInt8
  b : UInt8
  c : UInt8
  d : UInt8
  deriving DecidableEq, Repr

/-- An IPv6 address. -/
structure V6 where
  groups : List UInt16
  eight : groups.length = 8
  deriving DecidableEq, Repr

namespace V4

/-- The two groups of an IPv6 address that an IPv4 address stands for. -/
def groups (x : V4) : List UInt16 :=
  [x.a.toUInt16 * 256 + x.b.toUInt16, x.c.toUInt16 * 256 + x.d.toUInt16]

/-- The address that two groups stand for. -/
def ofGroups (g h : UInt16) : V4 :=
  ⟨(g / 256).toUInt8, (g % 256).toUInt8, (h / 256).toUInt8, (h % 256).toUInt8⟩

/-- Loopback, unspecified, of a private network, or link-local. -/
def isPrivate (x : V4) : Bool :=
  x.a = 127 || x = ⟨0, 0, 0, 0⟩ || x.a = 10 || (x.a = 172 && 16 ≤ x.b && x.b ≤ 31) ||
    (x.a = 192 && x.b = 168) || (x.a = 169 && x.b = 254)

end V4

namespace V6

def first (x : V6) : UInt16 := x.groups.headD 0

def isLoopback (x : V6) : Bool := x.groups = [0, 0, 0, 0, 0, 0, 0, 1]

def isUnspecified (x : V6) : Bool := x.groups = [0, 0, 0, 0, 0, 0, 0, 0]

/-- In `fe80::/10`. -/
def isLinkLocal (x : V6) : Bool := 0xfe80 ≤ x.first && x.first ≤ 0xfebf

/-- In `fc00::/7`. -/
def isUniqueLocal (x : V6) : Bool := 0xfc00 ≤ x.first && x.first ≤ 0xfdff

/-- The IPv4 address of an IPv4-mapped address. -/
def mapped? (x : V6) : Option V4 :=
  match x.groups with
  | [0, 0, 0, 0, 0, 0xffff, g, h] => some (.ofGroups g h)
  | _ => none

/-- Loopback, unspecified, link-local, unique local, or mapped from such an IPv4 address. -/
def isPrivate (x : V6) : Bool :=
  x.isLoopback || x.isUnspecified || x.isLinkLocal || x.isUniqueLocal ||
    x.mapped?.any V4.isPrivate

end V6

inductive Address where
  | v4 (x : V4)
  | v6 (x : V6)
  deriving DecidableEq, Repr

def Address.isPrivate : Address → Bool
  | v4 x => x.isPrivate
  | v6 x => x.isPrivate

section Spellings

/-- Four numbers. -/
inductive Quad : Text → V4 → Prop
  | mk {p q r s : Text} {x : V4} : Number p x.a.toNat → Number q x.b.toNat → Number r x.c.toNat →
      Number s x.d.toNat → Quad (p ++ '.' :: (q ++ '.' :: (r ++ '.' :: s))) x

/-- Groups with colons between them; the last two may be four numbers if `tail` is set. -/
inductive Groups (tail : Bool) : Text → List UInt16 → Prop
  | one {t : Text} {v : UInt16} : Group t v → Groups tail t [v]
  | quad {t : Text} {x : V4} : tail = true → Quad t x → Groups tail t x.groups
  | more {t rest : Text} {v : UInt16} {vs : List UInt16} : Group t v → Groups tail rest vs →
      Groups tail (t ++ ':' :: rest) (v :: vs)

/-- Groups, or nothing. -/
inductive Part (tail : Bool) : Text → List UInt16 → Prop
  | empty : Part tail [] []
  | groups {t : Text} {vs : List UInt16} : Groups tail t vs → Part tail t vs

/-- The texts of an IPv6 address. -/
inductive Spells6 : Text → V6 → Prop
  | full {t : Text} {x : V6} : Groups true t x.groups → Spells6 t x
  | compressed {l r : Text} {vs ws : List UInt16} {x : V6} : Part false l vs → Part true r ws →
      vs.length + ws.length < 8 →
      x.groups = vs ++ List.replicate (8 - (vs.length + ws.length)) 0 ++ ws →
      Spells6 (l ++ ':' :: ':' :: r) x

/-- The texts of an address. -/
inductive Spells : Text → Address → Prop
  | quad {t : Text} {x : V4} : Quad t x → Spells t (.v4 x)
  | plain {t : Text} {x : V6} : Spells6 t x → Spells t (.v6 x)
  | bracketed {t : Text} {x : V6} : Spells6 t x → Spells ('[' :: (t ++ [']'])) (.v6 x)

end Spellings

/-- A label of a host name. -/
structure Label (l : Text) : Prop where
  nonempty : l ≠ []
  short : l.length ≤ 63
  chars : ∀ c ∈ l, c.isAlphanum = true ∨ c = '-'
  head : l.head? ≠ some '-'
  last : l.getLast? ≠ some '-'

/-- A host name: labels with dots between them and perhaps one behind them. The last label is not
a number, so that no host name looks like an address. -/
structure HostName (t : Text) : Prop where
  short : t.length ≤ 253
  labels : ∃ labels, (∀ l ∈ labels, Label l) ∧
    (∃ l ∈ labels.getLast?, ∃ c ∈ l, c.isDigit = false) ∧
    (t = ['.'].intercalate labels ∨ t = ['.'].intercalate labels ++ ['.'])

section Digits

variable {c : Char} {d : Nat} {t : Text} {v : UInt16}

theorem Number.dot_notMem {n : Nat} (h : Number t n) : '.' ∉ t := by
  intro hdot
  exact absurd (h.digits '.' hdot) (by decide)

theorem hexDigit?_lt (h : hexDigit? c = some d) : d < 16 := by
  unfold hexDigit? at h
  split_ifs at h <;> simp at h <;> omega

/-- A letter that is a hexadecimal digit, of either case. -/
theorem hexDigit?_eq_letter (hd : 10 ≤ d) :
    hexDigit? c = some d ↔ d < 16 ∧ (c.toNat = d + 87 ∨ c.toNat = d + 55) := by
  unfold hexDigit?
  split_ifs <;> simp <;> omega

theorem hexadecimal?_cons {n v : Nat} :
    hexadecimal? (c :: t) n = some v ↔
      ∃ d, hexDigit? c = some d ∧ hexadecimal? t (16 * n + d) = some v := by
  rw [hexadecimal?, Option.bind_eq_some_iff]

/-- The digits of a group, by their number. -/
theorem Group.digits (h : Group t v) :
    (∃ c₀ d₀, t = [c₀] ∧ hexDigit? c₀ = some d₀ ∧ v.toNat = d₀) ∨
    (∃ c₀ c₁ d₀ d₁, t = [c₀, c₁] ∧ hexDigit? c₀ = some d₀ ∧ hexDigit? c₁ = some d₁ ∧
      v.toNat = 16 * d₀ + d₁) ∨
    (∃ c₀ c₁ c₂ d₀ d₁ d₂, t = [c₀, c₁, c₂] ∧ hexDigit? c₀ = some d₀ ∧ hexDigit? c₁ = some d₁ ∧
      hexDigit? c₂ = some d₂ ∧ v.toNat = 256 * d₀ + 16 * d₁ + d₂) ∨
    ∃ c₀ c₁ c₂ c₃ d₀ d₁ d₂ d₃, t = [c₀, c₁, c₂, c₃] ∧ hexDigit? c₀ = some d₀ ∧
      hexDigit? c₁ = some d₁ ∧ hexDigit? c₂ = some d₂ ∧ hexDigit? c₃ = some d₃ ∧
      v.toNat = 4096 * d₀ + 256 * d₁ + 16 * d₂ + d₃ := by
  obtain ⟨hne, hshort, hval⟩ := h
  match t, hne, hshort, hval with
  | [c₀], _, _, hval =>
    obtain ⟨d₀, h₀, hv⟩ := hexadecimal?_cons.mp hval
    simp only [hexadecimal?, Option.some.injEq] at hv
    exact .inl ⟨c₀, d₀, rfl, h₀, by omega⟩
  | [c₀, c₁], _, _, hval =>
    obtain ⟨d₀, h₀, hval⟩ := hexadecimal?_cons.mp hval
    obtain ⟨d₁, h₁, hv⟩ := hexadecimal?_cons.mp hval
    simp only [hexadecimal?, Option.some.injEq] at hv
    exact .inr (.inl ⟨c₀, c₁, d₀, d₁, rfl, h₀, h₁, by omega⟩)
  | [c₀, c₁, c₂], _, _, hval =>
    obtain ⟨d₀, h₀, hval⟩ := hexadecimal?_cons.mp hval
    obtain ⟨d₁, h₁, hval⟩ := hexadecimal?_cons.mp hval
    obtain ⟨d₂, h₂, hv⟩ := hexadecimal?_cons.mp hval
    simp only [hexadecimal?, Option.some.injEq] at hv
    exact .inr (.inr (.inl ⟨c₀, c₁, c₂, d₀, d₁, d₂, rfl, h₀, h₁, h₂, by omega⟩))
  | [c₀, c₁, c₂, c₃], _, _, hval =>
    obtain ⟨d₀, h₀, hval⟩ := hexadecimal?_cons.mp hval
    obtain ⟨d₁, h₁, hval⟩ := hexadecimal?_cons.mp hval
    obtain ⟨d₂, h₂, hval⟩ := hexadecimal?_cons.mp hval
    obtain ⟨d₃, h₃, hv⟩ := hexadecimal?_cons.mp hval
    simp only [hexadecimal?, Option.some.injEq] at hv
    exact .inr (.inr (.inr
      ⟨c₀, c₁, c₂, c₃, d₀, d₁, d₂, d₃, rfl, h₀, h₁, h₂, h₃, by omega⟩))
  | _ :: _ :: _ :: _ :: _ :: _, _, hshort, _ =>
    simp only [List.length_cons] at hshort
    omega

/-- The text begins with an `f` and a `c` or `d`, of either case. -/
def StartsUniqueLocal (t : Text) : Prop :=
  ∃ c₀ c₁ rest, t = c₀ :: c₁ :: rest ∧ hexDigit? c₀ = some 15 ∧
    (hexDigit? c₁ = some 12 ∨ hexDigit? c₁ = some 13)

/-- A group of `fc00::/7` has four digits and begins with these. -/
theorem Group.startsUniqueLocal (h : Group t v) (hlo : 0xfc00 ≤ v.toNat) (hhi : v.toNat ≤ 0xfdff)
    (rest : Text) : StartsUniqueLocal (t ++ rest) := by
  rcases h.digits with ⟨c₀, d₀, rfl, h₀, hv⟩ | ⟨c₀, c₁, d₀, d₁, rfl, h₀, h₁, hv⟩ |
      ⟨c₀, c₁, c₂, d₀, d₁, d₂, rfl, h₀, h₁, h₂, hv⟩ |
      ⟨c₀, c₁, c₂, c₃, d₀, d₁, d₂, d₃, rfl, h₀, h₁, h₂, h₃, hv⟩
  · have hlt₀ := hexDigit?_lt h₀
    omega
  · have hlt₀ := hexDigit?_lt h₀
    have hlt₁ := hexDigit?_lt h₁
    omega
  · have hlt₀ := hexDigit?_lt h₀
    have hlt₁ := hexDigit?_lt h₁
    have hlt₂ := hexDigit?_lt h₂
    omega
  · have hlt₀ := hexDigit?_lt h₀
    have hlt₁ := hexDigit?_lt h₁
    have hlt₂ := hexDigit?_lt h₂
    have hlt₃ := hexDigit?_lt h₃
    obtain rfl : d₀ = 15 := by omega
    have hd₁ : d₁ = 12 ∨ d₁ = 13 := by omega
    refine ⟨c₀, c₁, [c₂, c₃] ++ rest, rfl, h₀, ?_⟩
    rcases hd₁ with rfl | rfl
    · exact .inl h₁
    · exact .inr h₁

/-- A group that begins with these is not zero, and not one of `fe80::/10`. -/
theorem Group.of_startsUniqueLocal {rest : Text} (h : Group t v)
    (hstart : StartsUniqueLocal (t ++ ':' :: rest)) :
    v.toNat ≠ 0 ∧ ¬(0xfe80 ≤ v.toNat ∧ v.toNat ≤ 0xfebf) := by
  obtain ⟨e₀, e₁, rest', heq, he₀, he₁⟩ := hstart
  have hcolon : hexDigit? ':' = none := by decide
  rcases h.digits with ⟨c₀, d₀, rfl, h₀, hv⟩ | ⟨c₀, c₁, d₀, d₁, rfl, h₀, h₁, hv⟩ |
      ⟨c₀, c₁, c₂, d₀, d₁, d₂, rfl, h₀, h₁, h₂, hv⟩ |
      ⟨c₀, c₁, c₂, c₃, d₀, d₁, d₂, d₃, rfl, h₀, h₁, h₂, h₃, hv⟩
  · obtain ⟨rfl, rfl, -⟩ : c₀ = e₀ ∧ ':' = e₁ ∧ rest = rest' := by simpa using heq
    simp [hcolon] at he₁
  · obtain ⟨rfl, rfl, -⟩ : c₀ = e₀ ∧ c₁ = e₁ ∧ ':' :: rest = rest' := by simpa using heq
    have hd₀ : d₀ = 15 := by simpa [h₀] using he₀
    have hd₁ : d₁ = 12 ∨ d₁ = 13 := by simpa [h₁] using he₁
    omega
  · obtain ⟨rfl, rfl, -⟩ : c₀ = e₀ ∧ c₁ = e₁ ∧ c₂ :: ':' :: rest = rest' := by simpa using heq
    have hd₀ : d₀ = 15 := by simpa [h₀] using he₀
    have hd₁ : d₁ = 12 ∨ d₁ = 13 := by simpa [h₁] using he₁
    have hlt₂ := hexDigit?_lt h₂
    omega
  · obtain ⟨rfl, rfl, -⟩ : c₀ = e₀ ∧ c₁ = e₁ ∧ c₂ :: c₃ :: ':' :: rest = rest' := by
      simpa using heq
    have hd₀ : d₀ = 15 := by simpa [h₀] using he₀
    have hd₁ : d₁ = 12 ∨ d₁ = 13 := by simpa [h₁] using he₁
    have hlt₂ := hexDigit?_lt h₂
    have hlt₃ := hexDigit?_lt h₃
    omega

end Digits

section Starts

variable {t : Text} {x : V6} {vs : List UInt16}

/-- How a list of groups begins. -/
theorem Groups.start {tail : Bool} (h : Groups tail t vs) (hlong : tail = true → 2 < vs.length) :
    ∃ g v rest vs', Group g v ∧ vs = v :: vs' ∧
      ((t = g ∧ rest = []) ∨ t = g ++ ':' :: rest) ∧ (2 < vs.length → t = g ++ ':' :: rest) := by
  cases h with
  | @one t v hg => exact ⟨t, v, [], [], hg, rfl, .inl ⟨rfl, rfl⟩, by simp⟩
  | quad ht hq =>
    have hlt := hlong ht
    simp [V4.groups] at hlt
  | @more g rest v vs hg _ => exact ⟨g, v, rest, vs, hg, rfl, .inr rfl, fun _ => rfl⟩

/-- The text of an IPv6 address begins with a colon or with its first group and a colon. -/
theorem Spells6.start (h : Spells6 t x) :
    (∃ rest, t = ':' :: rest ∧ x.first = 0) ∨
      ∃ g rest, t = g ++ ':' :: rest ∧ Group g x.first := by
  cases h with
  | full hg =>
    have hlong : 2 < x.groups.length := by
      rw [x.eight]
      omega
    obtain ⟨g, v, rest, vs', hv, hvs, -, heq⟩ := hg.start fun _ => hlong
    have hfirst : x.first = v := by rw [V6.first, hvs, List.headD_cons]
    exact .inr ⟨g, rest, heq hlong, hfirst ▸ hv⟩
  | @compressed l r vs ws _ hl hr hlen hx =>
    cases hl with
    | empty =>
      left
      refine ⟨':' :: r, rfl, ?_⟩
      obtain ⟨k, hk⟩ : ∃ k, 8 - ([].length + ws.length) = k + 1 :=
        ⟨7 - ws.length, by simp only [List.length_nil] at hlen ⊢; omega⟩
      rw [V6.first, hx, hk]
      rfl
    | groups hg =>
      right
      obtain ⟨g, v, rest, vs', hv, rfl, htext, -⟩ := hg.start nofun
      have hfirst : x.first = v := by
        rw [V6.first, hx]
        rfl
      rw [← hfirst] at hv
      rcases htext with ⟨rfl, -⟩ | rfl
      · exact ⟨l, ':' :: r, rfl, hv⟩
      · exact ⟨g, rest ++ ':' :: ':' :: r, by simp, hv⟩

theorem Spells6.colon_mem (h : Spells6 t x) : ':' ∈ t := by
  rcases h.start with ⟨rest, rfl, -⟩ | ⟨g, rest, rfl, -⟩
  · exact List.mem_cons_self
  · simp

/-- What a private address begins with. -/
theorem V6.first_of_isPrivate (hx : x.isPrivate = true) :
    x.first = 0 ∨ x.isLinkLocal = true ∨ x.isUniqueLocal = true := by
  simp only [isPrivate, Bool.or_eq_true] at hx
  rcases hx with (((hx | hx) | hx) | hx) | hx
  · left
    rw [first, of_decide_eq_true hx]
    rfl
  · left
    rw [first, of_decide_eq_true hx]
    rfl
  · exact .inr (.inl hx)
  · exact .inr (.inr hx)
  · left
    unfold mapped? at hx
    split at hx
    · rename_i g h hgroups
      rw [first, hgroups]
      rfl
    · cases hx

/-- The texts of a private address begin with these letters if it is unique local. -/
theorem Spells6.startsUniqueLocal_iff (h : Spells6 t x) (hx : x.isPrivate = true) :
    StartsUniqueLocal t ↔ x.isUniqueLocal = true := by
  have hlocal : x.isUniqueLocal = true ↔ 0xfc00 ≤ x.first.toNat ∧ x.first.toNat ≤ 0xfdff := by
    simp [V6.isUniqueLocal, UInt16.le_iff_toNat_le]
  have hlink : x.isLinkLocal = true ↔ 0xfe80 ≤ x.first.toNat ∧ x.first.toNat ≤ 0xfebf := by
    simp [V6.isLinkLocal, UInt16.le_iff_toNat_le]
  rcases h.start with ⟨rest, rfl, hzero⟩ | ⟨g, rest, rfl, hg⟩
  · constructor
    · rintro ⟨c₀, c₁, rest', heq, h₀, -⟩
      obtain ⟨rfl, -⟩ : ':' = c₀ ∧ rest = c₁ :: rest' := by simpa using heq
      exact absurd h₀ (by decide)
    · intro hfirst
      rw [hlocal, hzero] at hfirst
      exact absurd hfirst.1 (by decide)
  · constructor
    · intro hstart
      obtain ⟨hne, hnot⟩ := hg.of_startsUniqueLocal hstart
      rcases V6.first_of_isPrivate hx with hzero | hl | hu
      · rw [hzero] at hne
        exact absurd rfl hne
      · exact absurd (hlink.mp hl) hnot
      · exact hu
    · intro hfirst
      obtain ⟨hlo, hhi⟩ := hlocal.mp hfirst
      exact hg.startsUniqueLocal hlo hhi (':' :: rest)

/-- The characters of parts with a dot between them are those of the parts. -/
theorem mem_intercalate_of_mem {l : Text} {labels : List Text} {c : Char} (hl : l ∈ labels)
    (hc : c ∈ l) : c ∈ ['.'].intercalate labels := by
  induction labels with
  | nil => cases hl
  | cons l' labels ih =>
    cases labels with
    | nil =>
      obtain rfl : l = l' := by simpa using hl
      simpa using hc
    | cons l'' labels =>
      rw [List.intercalate_cons_cons]
      rcases List.mem_cons.mp hl with rfl | hrest
      · simp [hc]
      · simp [ih hrest]

theorem of_mem_intercalate {labels : List Text} {c : Char} (h : c ∈ ['.'].intercalate labels) :
    c = '.' ∨ ∃ l ∈ labels, c ∈ l := by
  induction labels with
  | nil => cases h
  | cons l labels ih =>
    cases labels with
    | nil =>
      right
      exact ⟨l, List.mem_cons_self, by simpa using h⟩
    | cons l' labels =>
      rw [List.intercalate_cons_cons] at h
      rcases List.mem_append.mp h with h | h
      · rcases List.mem_append.mp h with h | h
        · exact .inr ⟨l, List.mem_cons_self, h⟩
        · exact .inl (List.mem_singleton.mp h)
      · rcases ih h with hdot | ⟨k, hk, hc⟩
        · exact .inl hdot
        · exact .inr ⟨k, List.mem_cons_of_mem l hk, hc⟩

/-- A host name has a character that is in no number and between no two of them. -/
theorem HostName.exists_letter (h : HostName t) : ∃ c ∈ t, c.isDigit = false ∧ c ≠ '.' := by
  obtain ⟨labels, hlabels, ⟨l, hlast, c, hc, hdigit⟩, ht⟩ := h.labels
  have hl : l ∈ labels := List.mem_of_getLast? hlast
  have hjoined : c ∈ ['.'].intercalate labels := mem_intercalate_of_mem hl hc
  refine ⟨c, ?_, hdigit, ?_⟩
  · rcases ht with rfl | rfl
    · exact hjoined
    · exact List.mem_append_left _ hjoined
  · rintro rfl
    have hchar := (hlabels l hl).chars '.' hc
    exact absurd hchar (by decide)

/-- It has no colon. -/
theorem HostName.colon_notMem (h : HostName t) : ':' ∉ t := by
  obtain ⟨labels, hlabels, -, ht⟩ := h.labels
  have hjoined : ':' ∉ ['.'].intercalate labels := by
    intro hcolon
    rcases of_mem_intercalate hcolon with hdot | ⟨l, hl, hc⟩
    · exact absurd hdot (by decide)
    · have hchar := (hlabels l hl).chars ':' hc
      exact absurd hchar (by decide)
  rcases ht with rfl | rfl
  · exact hjoined
  · simp [hjoined]

end Starts

end Edgessh.InternetAddress
