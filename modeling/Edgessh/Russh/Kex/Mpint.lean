import Edgessh.Russh.Kex.Panic
import Mathlib.Data.Nat.Size

/-!
# Multiple-precision integers

`encode_mpint`, `biguint_to_mpint` and `SharedSecret::from_mpint` write the numbers of the exchange
hash and of the key derivation. They agree on every number but zero, as long as its encoding fits
the length field.
-/

namespace Edgessh.Russh

/-- `SharedSecret` -/
inductive SharedSecret where
  | mpint (bytes : Bytes)
  | string (bytes : Bytes)

/-- `SharedSecret::from_mpint` -/
def SharedSecret.fromMpint (bytes : Bytes) : Except Exn SharedSecret :=
  (encodeMpint bytes).map .mpint

/-- `SharedSecret::as_bytes` -/
def SharedSecret.asBytes : SharedSecret → Bytes
  | mpint bytes => bytes
  | string bytes => bytes

/-- `Vec<u8>::encode`: the length must fit its field. -/
def encodeVec (b : Bytes) : Except EncodingError Bytes :=
  if b.length < 2 ^ 32 then .ok (encodeBytes b) else .error .overflow

/-- The bytes are the number in two's complement, the most significant byte first, and as short as
they can be: a zero byte comes first exactly where the next one has its top bit set. -/
structure IsMpint (n : Nat) (b : Bytes) : Prop where
  value : natOfBytes b = n
  nonneg : ∀ c ∈ b.head?, c < 0x80
  minimal : b.head? = some 0 → ∃ c ∈ b[1]?, 0x80 ≤ c

/-- The encoders do not panic on this number, and write the same canonical mpint. -/
def EncodersAgree (s : Bytes) : Prop :=
  ∃ out b, IsMpint (natOfBytes s) b ∧ b.length < 2 ^ 32 ∧ out = encodeBytes b ∧
    encodeMpint s = .ok out ∧ encodeVec (biguintToMpint (natOfBytes s)) = .ok out ∧
    (SharedSecret.fromMpint s).map SharedSecret.asBytes = .ok out

section Numbers

theorem natOfBytes_concat (b : Bytes) (x : UInt8) :
    natOfBytes (b ++ [x]) = natOfBytes b * 256 + x.toNat := by
  rw [natOfBytes, List.foldl_concat]
  rfl

theorem natOfBytes_eq_ofDigits (b : Bytes) :
    natOfBytes b = Nat.ofDigits 256 (b.reverse.map UInt8.toNat) := by
  induction b using List.reverseRecOn with
  | nil => rfl
  | append_singleton b x ih =>
    rw [natOfBytes_concat, ih, List.reverse_concat, List.map_cons, Nat.ofDigits_cons]
    omega

theorem natOfBytes_cons (a : UInt8) (r : Bytes) :
    natOfBytes (a :: r) = a.toNat * 256 ^ r.length + natOfBytes r := by
  rw [natOfBytes_eq_ofDigits, natOfBytes_eq_ofDigits r, List.reverse_cons, List.map_append,
    Nat.ofDigits_append, List.length_map, List.length_reverse, List.map_singleton,
    Nat.ofDigits_singleton]
  ring

theorem natOfBytes_lt (b : Bytes) : natOfBytes b < 256 ^ b.length := by
  rw [natOfBytes_eq_ofDigits]
  have hlt := Nat.ofDigits_lt_base_pow_length (b := 256) (l := b.reverse.map UInt8.toNat)
    (by decide) (by
      intro x hx
      obtain ⟨y, -, rfl⟩ := List.mem_map.mp hx
      exact y.toNat_lt)
  rwa [List.length_map, List.length_reverse] at hlt

theorem natOfBytes_dropWhile (s : Bytes) :
    natOfBytes (s.dropWhile (· == 0)) = natOfBytes s := by
  induction s with
  | nil => rfl
  | cons a s ih =>
    by_cases ha : a = 0
    · subst ha
      rw [List.dropWhile_cons_of_pos rfl, ih, natOfBytes_cons]
      simp
    · rw [List.dropWhile_cons_of_neg (by simpa using ha)]

theorem natOfBytes_ne_zero {a : UInt8} (ha : a ≠ 0) (r : Bytes) : natOfBytes (a :: r) ≠ 0 := by
  have hpos : 0 < a.toNat := by
    rcases Nat.eq_zero_or_pos a.toNat with hzero | hpos
    · exact absurd (UInt8.toNat_inj.mp hzero) ha
    · exact hpos
  have hmul : 0 < a.toNat * 256 ^ r.length := Nat.mul_pos hpos (Nat.pow_pos (by decide))
  rw [natOfBytes_cons]
  omega

/-- A number is written as it was read, but for zeros at its start. -/
theorem bytesOfNat_natOfBytes {a : UInt8} (ha : a ≠ 0) (r : Bytes) :
    bytesOfNat (natOfBytes (a :: r)) = a :: r := by
  have hne := natOfBytes_ne_zero ha r
  have hdigits : Nat.digits 256 (natOfBytes (a :: r)) = (a :: r).reverse.map UInt8.toNat := by
    rw [natOfBytes_eq_ofDigits]
    apply Nat.digits_ofDigits 256 (by decide)
    · intro x hx
      obtain ⟨y, -, rfl⟩ := List.mem_map.mp hx
      exact y.toNat_lt
    · intro hnil
      simp only [List.reverse_cons, List.map_append, List.map_cons, List.map_nil,
        List.getLast_append_of_ne_nil _ (List.cons_ne_nil _ _), List.getLast_singleton]
      intro hzero
      exact ha (UInt8.toNat_inj.mp hzero)
  rw [bytesOfNat, if_neg hne, hdigits, ← List.map_reverse, List.reverse_reverse, List.map_map]
  have hid : (UInt8.ofNat ∘ UInt8.toNat) = id := by
    funext x
    exact UInt8.ofNat_toNat
  rw [hid, List.map_id]

end Numbers

section Canonical

theorem and_top_ne_zero_iff (b : UInt8) : b &&& 0x80 ≠ 0 ↔ 0x7f < b := by
  have hall : ∀ n : Fin 256, (UInt8.ofNat n &&& 0x80 ≠ 0) ↔ 0x7f < UInt8.ofNat n := by
    decide +kernel
  have hb := hall ⟨b.toNat, b.toNat_lt⟩
  rwa [UInt8.ofNat_toNat] at hb

theorem top_iff (a : UInt8) : 0x7f < a ↔ 0x80 ≤ a := by
  rw [UInt8.lt_iff_toNat_lt, UInt8.le_iff_toNat_le]
  exact Iff.rfl

/-- A number that is not zero has a first byte that is not. -/
theorem exists_dropWhile_eq {s : Bytes} (hs : natOfBytes s ≠ 0) :
    ∃ a r, a ≠ 0 ∧ s.dropWhile (· == 0) = a :: r ∧ natOfBytes (a :: r) = natOfBytes s := by
  have hvalue := natOfBytes_dropWhile s
  cases hdrop : s.dropWhile (· == 0) with
  | nil =>
    rw [hdrop] at hvalue
    exact absurd hvalue.symm hs
  | cons a r =>
    rw [hdrop] at hvalue
    refine ⟨a, r, ?_, rfl, hvalue⟩
    rintro rfl
    have hhead := List.head?_dropWhile_not (· == 0) s
    rw [hdrop] at hhead
    cases hhead

theorem biguintToMpint_natOfBytes {a : UInt8} (ha : a ≠ 0) (r : Bytes) :
    biguintToMpint (natOfBytes (a :: r)) = if 0x7f < a then 0 :: a :: r else a :: r := by
  rw [biguintToMpint, bytesOfNat_natOfBytes ha]

/-- `encode_mpint` writes what `biguint_to_mpint` does, behind its length. -/
theorem encodeMpint_eq {s : Bytes} (hs : natOfBytes s ≠ 0) :
    encodeMpint s = .ok (encodeBytes (biguintToMpint (natOfBytes s))) := by
  obtain ⟨a, r, ha, hdrop, hvalue⟩ := exists_dropWhile_eq hs
  rw [← hvalue, biguintToMpint_natOfBytes ha, encodeMpint, hdrop]
  show (if a &&& 0x80 ≠ 0 then _ else _) = _
  by_cases htop : 0x7f < a
  · rw [if_pos htop, if_pos ((and_top_ne_zero_iff a).mpr htop)]
    rfl
  · rw [if_neg htop, if_neg (fun h => htop ((and_top_ne_zero_iff a).mp h))]
    rfl

/-- What `biguint_to_mpint` writes is canonical. -/
theorem isMpint_biguintToMpint {s : Bytes} (hs : natOfBytes s ≠ 0) :
    IsMpint (natOfBytes s) (biguintToMpint (natOfBytes s)) := by
  obtain ⟨a, r, ha, -, hvalue⟩ := exists_dropWhile_eq hs
  rw [← hvalue, biguintToMpint_natOfBytes ha]
  by_cases htop : 0x7f < a
  · rw [if_pos htop]
    constructor
    · rw [natOfBytes_cons 0]
      simp
    · rintro c ⟨⟩
      decide
    · intro _
      exact ⟨a, rfl, (top_iff a).mp htop⟩
  · rw [if_neg htop]
    constructor
    · rfl
    · rintro c ⟨⟩
      rwa [top_iff, UInt8.not_le] at htop
    · intro hzero
      exact absurd (Option.some.inj hzero) ha

/-- The canonical form of a number that is not zero is what `biguint_to_mpint` writes. -/
theorem IsMpint.eq_biguintToMpint {n : Nat} {b : Bytes} (h : IsMpint n b) (hn : n ≠ 0) :
    b = biguintToMpint n := by
  obtain ⟨hvalue, hnonneg, hminimal⟩ := h
  cases b with
  | nil => exact absurd hvalue.symm hn
  | cons a r =>
    by_cases ha : a = 0
    · subst ha
      obtain ⟨c, hc, htop⟩ := hminimal rfl
      cases r with
      | nil => cases hc
      | cons d r =>
        obtain rfl : d = c := Option.some.inj hc
        have hd : d ≠ 0 := by
          rintro rfl
          exact absurd htop (by decide)
        have hrest : natOfBytes (0 :: d :: r) = natOfBytes (d :: r) := by
          rw [natOfBytes_cons 0]
          simp
        rw [← hvalue, hrest, biguintToMpint_natOfBytes hd, if_pos ((top_iff d).mpr htop)]
    · have hlow : ¬ 0x7f < a := by
        rw [top_iff, UInt8.not_le]
        exact hnonneg a rfl
      rw [← hvalue, biguintToMpint_natOfBytes ha, if_neg hlow]

/-- Zero has the empty form. -/
theorem IsMpint.eq_nil {b : Bytes} (h : IsMpint 0 b) : b = [] := by
  obtain ⟨hvalue, hnonneg, hminimal⟩ := h
  cases b with
  | nil => rfl
  | cons a r =>
    have ha : a = 0 := by
      by_contra ha
      exact natOfBytes_ne_zero ha r hvalue
    subst ha
    obtain ⟨c, hc, htop⟩ := hminimal rfl
    cases r with
    | nil => cases hc
    | cons d r =>
      obtain rfl : d = c := Option.some.inj hc
      have hd : d ≠ 0 := by
        rintro rfl
        exact absurd htop (by decide)
      rw [natOfBytes_cons 0] at hvalue
      have hne := natOfBytes_ne_zero hd r
      omega

/-- A number has one canonical form. -/
theorem IsMpint.unique {n : Nat} {b b' : Bytes} (h : IsMpint n b) (h' : IsMpint n b') : b = b' := by
  by_cases hn : n = 0
  · subst hn
    rw [h.eq_nil, h'.eq_nil]
  · rw [h.eq_biguintToMpint hn, h'.eq_biguintToMpint hn]

end Canonical

section Agreement

/-- Zero makes `encode_mpint` panic. -/
theorem encodeMpint_of_zero {s : Bytes} (hs : natOfBytes s = 0) :
    encodeMpint s = .error .panic := by
  apply encodeMpint_isZero
  induction s with
  | nil => exact List.forall_mem_nil _
  | cons a s ih =>
    rw [natOfBytes_cons] at hs
    by_cases ha : a = 0
    · subst ha
      have hrest : natOfBytes s = 0 := by omega
      intro x hx
      rcases List.mem_cons.mp hx with rfl | hx
      · rfl
      · exact ih hrest x hx
    · have hne := natOfBytes_ne_zero ha s
      rw [natOfBytes_cons] at hne
      exact absurd hs hne

/-- The number of bytes that a number takes, by its bits. -/
theorem biguintToMpint_length {s : Bytes} (hs : natOfBytes s ≠ 0) :
    (biguintToMpint (natOfBytes s)).length = Nat.size (natOfBytes s) / 8 + 1 := by
  obtain ⟨a, r, ha, -, hvalue⟩ := exists_dropWhile_eq hs
  rw [← hvalue, biguintToMpint_natOfBytes ha]
  have hpow (k : Nat) : 2 ^ (8 * r.length + k) = 2 ^ k * 256 ^ r.length := by
    rw [pow_add, pow_mul, mul_comm]
    rfl
  have hrest := natOfBytes_lt r
  have hcons := natOfBytes_cons a r
  have hbyte := a.toNat_lt
  by_cases htop : 0x7f < a
  · have hlow : 128 ≤ a.toNat := UInt8.le_iff_toNat_le.mp ((top_iff a).mp htop)
    have hfrom : 8 * r.length + 7 < Nat.size (natOfBytes (a :: r)) := by
      rw [Nat.lt_size, hpow, hcons]
      have := Nat.mul_le_mul_right (256 ^ r.length) hlow
      omega
    have hto : Nat.size (natOfBytes (a :: r)) ≤ 8 * r.length + 8 := by
      rw [Nat.size_le, hpow, hcons]
      have := Nat.mul_le_mul_right (256 ^ r.length) (show a.toNat + 1 ≤ 256 by omega)
      rw [Nat.add_one_mul] at this
      omega
    rw [if_pos htop, List.length_cons, List.length_cons]
    omega
  · have hhigh : a.toNat + 1 ≤ 128 := by
      rw [top_iff, UInt8.not_le] at htop
      exact UInt8.lt_iff_toNat_lt.mp htop
    have hone : 1 ≤ a.toNat := by
      by_contra hzero
      exact ha (UInt8.toNat_inj.mp (by show a.toNat = 0; omega))
    have hfrom : 8 * r.length + 0 < Nat.size (natOfBytes (a :: r)) := by
      rw [Nat.lt_size, hpow, hcons]
      have := Nat.mul_le_mul_right (256 ^ r.length) hone
      omega
    have hto : Nat.size (natOfBytes (a :: r)) ≤ 8 * r.length + 7 := by
      rw [Nat.size_le, hpow, hcons]
      have := Nat.mul_le_mul_right (256 ^ r.length) hhigh
      rw [Nat.add_one_mul] at this
      omega
    rw [if_neg htop, List.length_cons]
    omega

/-- The encoders agree on every number but zero whose encoding fits its length field. -/
theorem encodersAgree_iff (s : Bytes) :
    EncodersAgree s ↔
      natOfBytes s ≠ 0 ∧ Nat.size (natOfBytes s) < 8 * (2 ^ 32 - 1) := by
  constructor
  · rintro ⟨out, b, hmpint, hlength, -, hencode, -, -⟩
    have hs : natOfBytes s ≠ 0 := by
      intro hzero
      rw [encodeMpint_of_zero hzero] at hencode
      cases hencode
    refine ⟨hs, ?_⟩
    rw [hmpint.eq_biguintToMpint hs, biguintToMpint_length hs] at hlength
    omega
  · rintro ⟨hs, hsize⟩
    have hlength : (biguintToMpint (natOfBytes s)).length < 2 ^ 32 := by
      rw [biguintToMpint_length hs]
      omega
    refine ⟨_, _, isMpint_biguintToMpint hs, hlength, rfl, encodeMpint_eq hs, ?_, ?_⟩
    · rw [encodeVec, if_pos hlength]
    · rw [SharedSecret.fromMpint, encodeMpint_eq hs]
      rfl

/-- The empty string is no number to `encode_mpint`. -/
theorem not_encodersAgree : ¬ ∀ s : Bytes, EncodersAgree s := by
  intro h
  obtain ⟨out, b, -, -, -, hencode, -, -⟩ := h []
  cases hencode

end Agreement

end Edgessh.Russh
