import Edgessh.Lib.InternetAddress

/-!
# Hosts that are not connected to

`isPrivateIP` is all that `/proxy` and `handleConnect` look at before they open a TCP connection. It
looks at the text of the host, and an address has many texts: it knows every dotted-decimal text of
an IPv4 address, the texts of a unique local address without brackets, and one of the loopback
address.
-/

namespace Edgessh.Worker.Proxy
open Edgessh.InternetAddress

/-- `toLowerCase`. No letter outside ASCII becomes an `f`, `c` or `d`. -/
def toLowerCase (s : Text) : Text := s.map Char.toLower

/-- `/^\d+$/.test`. -/
def isDigits (p : Text) : Bool := !p.isEmpty && p.all Char.isDigit

/-- `parseInt`, of digits. -/
def parseInt (p : Text) : Nat := decimal p

/-- The part about IPv4. -/
def isPrivateIPv4 (parts : List Text) : Bool :=
  match parts with
  | [p, q, r, s] =>
    if [p, q, r, s].all isDigits then
      let a := parseInt p
      let b := parseInt q
      a = 127 || a = 10 || (a = 172 && b ≥ 16 && b ≤ 31) || (a = 192 && b = 168) || a = 0 ||
        (a = 169 && b = 254)
    else false
  | _ => false

def isPrivateIP (hostname : Text) : Bool :=
  if hostname = "::1".toList || "fc".toList.isPrefixOf (toLowerCase hostname) ||
      "fd".toList.isPrefixOf (toLowerCase hostname) then true
  else if isPrivateIPv4 (hostname.splitOn '.') then true
  else hostname = "localhost".toList

section Texts

variable {host : Text} {c : Char}

theorem toNat_toLower (c : Char) :
    c.toLower.toNat = if 65 ≤ c.toNat ∧ c.toNat ≤ 90 then c.toNat + 32 else c.toNat := by
  have hupper : c.val ≥ 'A'.val ∧ c.val ≤ 'Z'.val ↔ 65 ≤ c.toNat ∧ c.toNat ≤ 90 := by
    simp [UInt32.le_iff_toNat_le]
  unfold Char.toLower
  by_cases h : 65 ≤ c.toNat ∧ c.toNat ≤ 90
  · rw [dif_pos (hupper.mpr h), if_pos h]
    show (c.val + ('a'.val - 'A'.val)).toNat = c.toNat + 32
    have hval : c.val.toNat = c.toNat := rfl
    have hdiff : ('a'.val - 'A'.val).toNat = 32 := by decide
    rw [UInt32.toNat_add, hval, hdiff]
    omega
  · rw [dif_neg (mt hupper.mp h), if_neg h]

/-- A letter in lower case is that of a hexadecimal digit if the letter is. -/
theorem toLower_eq_iff {x : Char} {d : Nat} (hd : 10 ≤ d) (hlt : d < 16) (hx : x.toNat = d + 87) :
    c.toLower = x ↔ hexDigit? c = some d := by
  rw [hexDigit?_eq_letter hd, ← Char.toNat_inj, toNat_toLower, hx]
  split_ifs <;> omega

theorem startsWith_iff :
    ("fc".toList.isPrefixOf (toLowerCase host) || "fd".toList.isPrefixOf (toLowerCase host)) =
      true ↔ StartsUniqueLocal host := by
  have hf : ∀ c : Char, c.toLower = 'f' ↔ hexDigit? c = some 15 := fun _ =>
    toLower_eq_iff (by omega) (by omega) rfl
  have hc : ∀ c : Char, c.toLower = 'c' ↔ hexDigit? c = some 12 := fun _ =>
    toLower_eq_iff (by omega) (by omega) rfl
  have hd : ∀ c : Char, c.toLower = 'd' ↔ hexDigit? c = some 13 := fun _ =>
    toLower_eq_iff (by omega) (by omega) rfl
  have hchars : "fc".toList = ['f', 'c'] ∧ "fd".toList = ['f', 'd'] := ⟨rfl, rfl⟩
  rw [hchars.1, hchars.2]
  constructor
  · intro h
    match host, h with
    | [c₀], h => simp [toLowerCase, List.isPrefixOf] at h
    | c₀ :: c₁ :: rest, h =>
      simp only [toLowerCase, List.map_cons, List.isPrefixOf_cons_cons, List.isPrefixOf_nil_left,
        Bool.and_true, Bool.or_eq_true, Bool.and_eq_true, beq_iff_eq] at h
      refine ⟨c₀, c₁, rest, rfl, ?_, ?_⟩
      · rcases h with h | h
        · exact (hf c₀).mp h.1.symm
        · exact (hf c₀).mp h.1.symm
      · rcases h with h | h
        · exact .inl ((hc c₁).mp h.2.symm)
        · exact .inr ((hd c₁).mp h.2.symm)
  · rintro ⟨c₀, c₁, rest, rfl, h₀, h₁⟩
    simp only [toLowerCase, List.map_cons, List.isPrefixOf_cons_cons, List.isPrefixOf_nil_left,
      Bool.and_true, Bool.or_eq_true, Bool.and_eq_true, beq_iff_eq]
    rcases h₁ with h₁ | h₁
    · exact .inl ⟨((hf c₀).mpr h₀).symm, ((hc c₁).mpr h₁).symm⟩
    · exact .inr ⟨((hf c₀).mpr h₀).symm, ((hd c₁).mpr h₁).symm⟩

/-- What `isPrivateIP` tells of a host. -/
theorem isPrivateIP_eq_true_iff :
    isPrivateIP host = true ↔ host = "::1".toList ∨ StartsUniqueLocal host ∨
      isPrivateIPv4 (host.splitOn '.') = true ∨ host = "localhost".toList := by
  rw [← startsWith_iff]
  unfold isPrivateIP
  split_ifs with hfirst hv4
  · rw [Bool.or_assoc, Bool.or_eq_true, decide_eq_true_eq] at hfirst
    exact iff_of_true rfl (hfirst.imp_right .inl)
  · exact iff_of_true rfl (.inr (.inr (.inl hv4)))
  · rw [Bool.or_assoc, Bool.or_eq_true, decide_eq_true_eq, not_or] at hfirst
    rw [decide_eq_true_eq, or_iff_right hfirst.1, or_iff_right hfirst.2, or_iff_right hv4]

/-- Text with some other character is not that of four numbers. -/
theorem isPrivateIPv4_splitOn (hmem : c ∈ host) (hdot : c ≠ '.') (hdigit : c.isDigit = false) :
    isPrivateIPv4 (host.splitOn '.') = false := by
  unfold isPrivateIPv4
  split
  · rename_i p q r s hsplit
    have hjoin : ['.'].intercalate (host.splitOn '.') = host := List.intercalate_splitOn '.'
    rw [hsplit] at hjoin
    rw [← hjoin] at hmem
    have hpart : ∃ l ∈ [p, q, r, s], c ∈ l := (of_mem_intercalate hmem).resolve_left hdot
    obtain ⟨l, hl, hcl⟩ := hpart
    rw [if_neg]
    intro hall
    have hdigits : isDigits l = true := List.all_eq_true.mp hall l hl
    simp only [isDigits, Bool.and_eq_true, List.all_eq_true] at hdigits
    rw [hdigits.2 c hcl] at hdigit
    exact absurd hdigit (by decide)
  · rfl

/-- The text of an IPv4 address is taken apart into its numbers. -/
theorem splitOn_quad {p q r s : Text} (hp : '.' ∉ p) (hq : '.' ∉ q) (hr : '.' ∉ r)
    (hs : '.' ∉ s) :
    (p ++ '.' :: (q ++ '.' :: (r ++ '.' :: s))).splitOn '.' = [p, q, r, s] := by
  rw [List.splitOn_append_cons_self_of_not_mem hp, List.splitOn_append_cons_self_of_not_mem hq,
    List.splitOn_append_cons_self_of_not_mem hr, List.splitOn_eq_singleton hs]

theorem isDigits_of_number {p : Text} {n : Nat} (h : Number p n) : isDigits p = true := by
  simp only [isDigits, Bool.and_eq_true, List.all_eq_true]
  refine ⟨?_, h.digits⟩
  simp [h.nonempty]

/-- Every text of a private IPv4 address is known. -/
theorem isPrivateIP_quad {x : V4} (h : Quad host x) (hx : x.isPrivate = true) :
    isPrivateIP host = true := by
  obtain ⟨hp, hq, hr, hs⟩ := h
  rename_i p q r s
  have hparts := splitOn_quad hp.dot_notMem hq.dot_notMem hr.dot_notMem hs.dot_notMem
  have hall : [p, q, r, s].all isDigits = true := by
    simp [isDigits_of_number hp, isDigits_of_number hq, isDigits_of_number hr,
      isDigits_of_number hs]
  have ha : parseInt p = x.a.toNat := hp.value
  have hb : parseInt q = x.b.toNat := hq.value
  have hquad : isPrivateIPv4 [p, q, r, s] = true := by
    simp only [isPrivateIPv4, hall, if_true, ha, hb]
    simp only [V4.isPrivate, Bool.or_eq_true, Bool.and_eq_true, decide_eq_true_eq,
      UInt8.le_iff_toNat_le, ← UInt8.toNat_inj] at hx
    rcases hx with ((((h127 | h0) | h10) | h172) | h192) | h169
    · simp [h127]
    · simp [h0]
    · simp [h10]
    · have hlo : 16 ≤ x.b.toNat := h172.1.2
      have hhi : x.b.toNat ≤ 31 := h172.2
      simp [h172.1.1, hlo, hhi]
    · simp [h192.1, h192.2]
    · simp [h169.1, h169.2]
  rw [isPrivateIP_eq_true_iff, hparts]
  exact .inr (.inr (.inl hquad))

/-- Of a text with a character that is in no IPv4 address, only the first letters are looked at. -/
theorem isPrivateIP_iff_of_mem (hmem : c ∈ host) (hdot : c ≠ '.') (hdigit : c.isDigit = false)
    (hlocal : host ≠ "localhost".toList) :
    isPrivateIP host = true ↔ host = "::1".toList ∨ StartsUniqueLocal host := by
  rw [isPrivateIP_eq_true_iff, isPrivateIPv4_splitOn hmem hdot hdigit, or_iff_left hlocal,
    or_iff_left Bool.false_ne_true]

/-- No text in brackets is known. -/
theorem isPrivateIP_bracketed (t : Text) : isPrivateIP ('[' :: t) = false := by
  rw [Bool.eq_false_iff]
  intro h
  have hlocal : '[' :: t ≠ "localhost".toList := by
    intro heq
    exact absurd (List.cons.inj heq).1 (by decide)
  rcases (isPrivateIP_iff_of_mem List.mem_cons_self (by decide) (by decide) hlocal).mp h with
    hone | ⟨c₀, c₁, rest, heq, h₀, -⟩
  · exact absurd (List.cons.inj hone).1 (by decide)
  · obtain ⟨rfl, -⟩ := List.cons.inj heq
    exact absurd h₀ (by decide)

theorem isPrivateIP_v6 {x : V6} (h : Spells6 host x) (hx : x.isPrivate = true) :
    isPrivateIP host = true ↔ host = "::1".toList ∨ x.isUniqueLocal = true := by
  have hlocal : host ≠ "localhost".toList := by
    intro heq
    exact absurd (heq ▸ h.colon_mem) (by decide)
  rw [isPrivateIP_iff_of_mem h.colon_mem (by decide) (by decide) hlocal,
    h.startsUniqueLocal_iff hx]

theorem isPrivateIP_hostName (h : HostName host) (hlocal : host ≠ "localhost".toList) :
    isPrivateIP host = true ↔ StartsUniqueLocal host := by
  obtain ⟨c, hc, hdigit, hdot⟩ := h.exists_letter
  rw [isPrivateIP_iff_of_mem hc hdot hdigit hlocal]
  have hone : host ≠ "::1".toList := by
    intro heq
    exact h.colon_notMem (heq ▸ by decide)
  exact or_iff_right hone

end Texts

section Reads

/-- What `isPrivateIP` is there for, where `reads` gives the address that the platform's `connect`
reads from a text: no private address is connected to, by any of its texts, and every host name is
but `localhost`. -/
structure HostLaw (reads : Text → Option Address) (host : Text) : Prop where
  blocks : ∀ addr, reads host = some addr → addr.isPrivate = true → isPrivateIP host = true
  passes : HostName host → host ≠ "localhost".toList → isPrivateIP host = false

/-- The texts of a private address that are known, of those that spell it out. -/
def Recognised (host : Text) : Address → Prop
  | .v4 _ => True
  | .v6 x => host = "::1".toList ∨ (x.isUniqueLocal = true ∧ host.head? ≠ some '[')

/-- A form of the platform's own, such as `127.1`, `0177.0.0.1` and `2130706433`, is known where it
happens to look like four decimal numbers of a private network or like a unique local address. -/
def Mistaken (host : Text) : Prop :=
  isPrivateIPv4 (host.splitOn '.') = true ∨ StartsUniqueLocal host ∨ host = "::1".toList ∨
    host = "localhost".toList

theorem isPrivateIP_of_spells {host : Text} {addr : Address} (h : Spells host addr)
    (hx : addr.isPrivate = true) : isPrivateIP host = true ↔ Recognised host addr := by
  cases h with
  | quad hq => exact iff_of_true (isPrivateIP_quad hq hx) trivial
  | @plain _ x h6 =>
    have hhead : host.head? ≠ some '[' := by
      rcases h6.start with ⟨rest, rfl, -⟩ | ⟨g, rest, rfl, hg⟩
      · rw [List.head?_cons]
        decide
      · intro hhead
        cases g with
        | nil => exact hg.nonempty rfl
        | cons c g =>
          obtain rfl : c = '[' := by simpa using hhead
          obtain ⟨d, hd, -⟩ := hexadecimal?_cons.mp hg.value
          have hnone : hexDigit? '[' = none := by decide
          rw [hnone] at hd
          cases hd
    rw [isPrivateIP_v6 h6 hx, Recognised, and_iff_left hhead]
  | @bracketed t x h6 =>
    rw [isPrivateIP_bracketed, Recognised]
    refine iff_of_false Bool.false_ne_true ?_
    rintro (hone | ⟨-, hhead⟩)
    · exact absurd (List.cons.inj hone).1 (by decide)
    · exact hhead rfl

theorem isPrivateIP_iff_mistaken {host : Text} : isPrivateIP host = true ↔ Mistaken host := by
  rw [isPrivateIP_eq_true_iff, Mistaken]
  tauto

theorem not_startsUniqueLocal_localhost : ¬StartsUniqueLocal "localhost".toList := by
  rintro ⟨c₀, c₁, rest, heq, h₀, -⟩
  obtain ⟨rfl, -⟩ := List.cons.inj heq
  exact absurd h₀ (by decide)

variable (reads : Text → Option Address) (host : Text)

/-- On any platform, the check does this for a host exactly when it knows its address by its text,
and when a host name does not begin like a unique local address. -/
theorem isPrivateIP_exact_iff :
    HostLaw reads host ↔
      (∀ addr, reads host = some addr → addr.isPrivate = true →
        (Spells host addr → Recognised host addr) ∧ (¬Spells host addr → Mistaken host)) ∧
      (HostName host → ¬StartsUniqueLocal host) := by
  constructor
  · intro h
    constructor
    · intro addr hreads hx
      have hblocked := h.blocks addr hreads hx
      exact ⟨fun hspells => (isPrivateIP_of_spells hspells hx).mp hblocked,
        fun _ => isPrivateIP_iff_mistaken.mp hblocked⟩
    · intro hname hstart
      have hlocal : host ≠ "localhost".toList := by
        rintro rfl
        exact not_startsUniqueLocal_localhost hstart
      have hpass := h.passes hname hlocal
      rw [(isPrivateIP_hostName hname hlocal).mpr hstart] at hpass
      exact absurd hpass (by decide)
  · rintro ⟨hknown, hnames⟩
    constructor
    · intro addr hreads hx
      obtain ⟨hspelled, hother⟩ := hknown addr hreads hx
      by_cases hspells : Spells host addr
      · exact (isPrivateIP_of_spells hspells hx).mpr (hspelled hspells)
      · exact isPrivateIP_iff_mistaken.mpr (hother hspells)
    · intro hname hlocal
      rw [Bool.eq_false_iff]
      exact mt (isPrivateIP_hostName hname hlocal).mp (hnames hname)

/-- `127.0.0.1` as an IPv6 address. -/
def mappedLoopback : V6 := ⟨[0, 0, 0, 0, 0, 0xffff, 0x7f00, 1], rfl⟩

theorem spells_mappedLoopback : Spells "::ffff:127.0.0.1".toList (.v6 mappedLoopback) := by
  have hfirst : Number ['1', '2', '7'] 127 := ⟨by decide, List.all_eq_true.mp rfl, rfl⟩
  have hzero : Number ['0'] 0 := ⟨by decide, List.all_eq_true.mp rfl, rfl⟩
  have hone : Number ['1'] 1 := ⟨by decide, List.all_eq_true.mp rfl, rfl⟩
  have hnumbers : Quad (['1', '2', '7'] ++ '.' :: (['0'] ++ '.' :: (['0'] ++ '.' :: ['1'])))
      ⟨127, 0, 0, 1⟩ := Quad.mk hfirst hzero hzero hone
  have hquad : Quad "127.0.0.1".toList ⟨127, 0, 0, 1⟩ := hnumbers
  have hgroup : Group ['f', 'f', 'f', 'f'] 0xffff := ⟨by decide, by decide, rfl⟩
  have htail : Groups true "ffff:127.0.0.1".toList [0xffff, 0x7f00, 1] :=
    .more hgroup (.quad rfl hquad)
  exact .plain (.compressed .empty (.groups htail) (by decide) rfl)

theorem hostName_fdroid : HostName "fdroid.org".toList := by
  refine ⟨by decide, ["fdroid".toList, "org".toList], ?_, ?_, .inl rfl⟩
  · intro l hl
    rcases List.mem_pair.mp hl with rfl | rfl
    · exact ⟨by decide, by decide, fun c hc => .inl (List.all_eq_true.mp rfl c hc), by decide,
        by decide⟩
    · exact ⟨by decide, by decide, fun c hc => .inl (List.all_eq_true.mp rfl c hc), by decide,
        by decide⟩
  · exact ⟨"org".toList, rfl, 'o', by decide, by decide⟩

/-- The loopback address is connected to by a text of it, on every platform that reads this text,
and a public host is refused on all. -/
theorem not_isPrivateIP_exact :
    Spells "::ffff:127.0.0.1".toList (.v6 mappedLoopback) ∧
      (∀ reads, reads "::ffff:127.0.0.1".toList = some (.v6 mappedLoopback) →
        ¬HostLaw reads "::ffff:127.0.0.1".toList) ∧
      ∀ reads, ¬HostLaw reads "fdroid.org".toList := by
  refine ⟨spells_mappedLoopback, ?_, ?_⟩
  · intro reads hreads h
    have hblocked := h.blocks (.v6 mappedLoopback) hreads (by decide)
    exact absurd hblocked (by decide)
  · intro reads h
    have hpass := h.passes hostName_fdroid (by decide)
    exact absurd hpass (by decide)

end Reads

end Edgessh.Worker.Proxy
