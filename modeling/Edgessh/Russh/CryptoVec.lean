import Mathlib.Algebra.Group.Nat.Defs
import Mathlib.Data.Nat.Log
import Mathlib.Logic.Function.Basic
import Edgessh.Lib.Block
import Edgessh.Lib.Simulation
import Edgessh.Russh.Error

/-!
# `CryptoVec`

`russh-cryptovec/src/cryptovec.rs`: a byte vector whose memory is zero behind its contents, so that
growing in place needs no writing. As long as no size above half the range of `usize` is asked for
and the allocator has the memory, its contents are those of a list of bytes.
-/

namespace Edgessh.Russh
open Edgessh.Block Edgessh.Simulation

/-- `CryptoVec`; the memory behind the pointer `p` is a block, with no bytes where the pointer is
null or dangling. -/
structure CryptoVec where
  p : Bytes
  size : Nat
  capacity : Nat

namespace CryptoVec

/-- How a call fails: a panic, or an access outside the memory. -/
inductive Fault where
  | panic
  | outside
  deriving DecidableEq

/-- `std::io::Read`: it fills the slice that it is given, and says with how many bytes. -/
structure Reader where
  run : Bytes → Except Unit Nat × Bytes
  length_eq : ∀ s, (run s).2.length = s.length

section Code

/-- An access to memory. -/
def access {α : Type} : Option α → Except Fault α
  | some a => .ok a
  | none => .error .outside

-- `usize` has `w + 1` bits; the allocator has the memory asked for if it is `granted`
variable (w : Nat) (granted : Bool)

/-- The value of an operation on `usize`, which wraps. -/
def usize (n : Nat) : Nat := n % 2 ^ (w + 1)

/-- `next_power_of_two` -/
def nextPowerOfTwo (n : Nat) : Nat := usize w (2 ^ Nat.clog 2 n)

/-- `alloc_zeroed`: null if there is no memory. -/
def allocZeroed (capacity : Nat) : Bytes := if granted then List.replicate capacity 0 else []

/-- `CryptoVec::new` -/
def new : CryptoVec := ⟨[], 0, 0⟩

/-- `new_zeroed` -/
def newZeroed (size : Nat) : CryptoVec :=
  ⟨allocZeroed granted (nextPowerOfTwo w size), size, nextPowerOfTwo w size⟩

/-- `with_capacity` -/
def withCapacity (capacity : Nat) : CryptoVec :=
  ⟨allocZeroed granted (nextPowerOfTwo w capacity), 0, nextPowerOfTwo w capacity⟩

/-- The contents, copied to the new memory. -/
def moveTo (p : Bytes) (v : CryptoVec) : Except Fault Bytes :=
  if 0 < v.capacity then do
    let old ← access (slice v.p 0 v.size)
    access (copyTo p 0 old)
  else .ok p

/-- `resize` -/
def resize (size : Nat) (v : CryptoVec) : Except Fault CryptoVec :=
  if size ≤ v.capacity ∧ v.size < size then .ok { v with size }
  else if size ≤ v.size then do
    -- `memset`
    let p ← access (copyTo v.p size (List.replicate (v.size - size) 0))
    pure { v with p, size }
  else do
    let p ← moveTo (allocZeroed granted (nextPowerOfTwo w size)) v
    if granted then pure ⟨p, size, nextPowerOfTwo w size⟩ else throw .panic

/-- `clear` -/
def clear (v : CryptoVec) : Except Fault CryptoVec := resize w granted 0 v

/-- `push` -/
def push (s : UInt8) (v : CryptoVec) : Except Fault CryptoVec := do
  let r ← resize w granted (usize w (v.size + 1)) v
  let p ← access (copyTo r.p v.size [s])
  pure { r with p }

/-- `extend`, which `write` of `std::io::Write` calls too. -/
def extend (s : Bytes) (v : CryptoVec) : Except Fault CryptoVec := do
  let r ← resize w granted (usize w (v.size + s.length)) v
  let p ← access (copyTo r.p v.size s)
  pure { r with p }

/-- `from_slice` -/
def fromSlice (s : Bytes) : Except Fault CryptoVec := do
  let r ← resize w granted s.length new
  let p ← access (copyTo r.p 0 s)
  pure { r with p }

/-- `clone`: the contents are appended to a new vector. -/
def clone (v : CryptoVec) : Except Fault CryptoVec := do
  let s ← access (slice v.p 0 v.size)
  extend w granted s new

/-- Bytes are set at an index of the slice. -/
def set (start : Nat) (bytes : Bytes) (v : CryptoVec) : Except Fault CryptoVec :=
  if start + bytes.length ≤ v.size then do
    let p ← access (copyTo v.p start bytes)
    pure { v with p }
  else throw .panic

/-- The size after a read: what the reader says, or what it was if the reader fails. -/
def resizeRead (curSize : Nat) (v : CryptoVec) :
    Except Unit Nat → Except Fault (Except Unit Nat × CryptoVec)
  | .ok n => (resize w granted (usize w (curSize + n)) v).map (Prod.mk (.ok n))
  | .error e => (resize w granted curSize v).map (Prod.mk (.error e))

/-- `read` -/
def read (nBytes : Nat) (r : Reader) (v : CryptoVec) :
    Except Fault (Except Unit Nat × CryptoVec) := do
  let grown ← resize w granted (usize w (v.size + nBytes)) v
  let s ← access (slice grown.p v.size nBytes)
  let p ← access (copyTo grown.p v.size (r.run s).2)
  resizeRead w granted v.size { grown with p } (r.run s).1

/-- `write_all_from`: what is given to the writer. -/
def writeAllFrom (offset : Nat) (v : CryptoVec) : Except Fault Bytes :=
  if offset < v.size then access (slice v.p offset (v.size - offset)) else throw .panic

end Code

section Operations

/-- The operations on one vector. -/
inductive Op where
  | new
  | newZeroed (size : Nat)
  | withCapacity (capacity : Nat)
  | fromSlice (s : Bytes)
  | push (s : UInt8)
  | extend (s : Bytes)
  | resize (size : Nat)
  | clear
  | set (start : Nat) (bytes : Bytes)
  | read (nBytes : Nat) (r : Reader)
  | writeAllFrom (offset : Nat)

/-- What an operation says to its caller, or gives to a stream. -/
inductive Output where
  | none
  | count (result : Except Unit Nat)
  | written (bytes : Bytes)

/-- The operations on the vectors of a program, which has them by numbers. -/
inductive StoreOp where
  | on (i : Nat) (op : Op)
  | clone (i j : Nat)

variable (w : Nat)

def Op.apply (granted : Bool) (v : CryptoVec) : Op → Except Fault (Output × CryptoVec)
  | .new => .ok (.none, CryptoVec.new)
  | .newZeroed size => .ok (.none, CryptoVec.newZeroed w granted size)
  | .withCapacity capacity => .ok (.none, CryptoVec.withCapacity w granted capacity)
  | .fromSlice s => (CryptoVec.fromSlice w granted s).map (Prod.mk .none)
  | .push s => (CryptoVec.push w granted s v).map (Prod.mk .none)
  | .extend s => (CryptoVec.extend w granted s v).map (Prod.mk .none)
  | .resize size => (CryptoVec.resize w granted size v).map (Prod.mk .none)
  | .clear => (CryptoVec.clear w granted v).map (Prod.mk .none)
  | .set start bytes => (CryptoVec.set start bytes v).map (Prod.mk .none)
  | .read nBytes r =>
    (CryptoVec.read w granted nBytes r v).map fun (result, v) => (.count result, v)
  | .writeAllFrom offset =>
    (CryptoVec.writeAllFrom offset v).map fun bytes => (.written bytes, v)

/-- One operation of a program, with the answer of the allocator. -/
def step (store : Nat → CryptoVec) : Bool × StoreOp → Except Fault (Output × (Nat → CryptoVec))
  | (granted, .on i op) =>
    (op.apply w granted (store i)).map fun (o, v) => (o, Function.update store i v)
  | (granted, .clone i j) =>
    (CryptoVec.clone w granted (store i)).map fun v => (.none, Function.update store j v)

end Operations

section Lists

/-- A list of another length, zeros at its end where it grows. -/
def listResize (n : Nat) (l : Bytes) : Bytes := l.take n ++ List.replicate (n - l.length) 0

/-- The operations on a plain list of bytes. -/
def Op.onList (l : Bytes) : Op → Except Fault (Output × Bytes)
  | .new => .ok (.none, [])
  | .newZeroed size => .ok (.none, List.replicate size 0)
  | .withCapacity _ => .ok (.none, [])
  | .fromSlice s => .ok (.none, s)
  | .push s => .ok (.none, l ++ [s])
  | .extend s => .ok (.none, l ++ s)
  | .resize size => .ok (.none, listResize size l)
  | .clear => .ok (.none, [])
  | .set start bytes =>
    if start + bytes.length ≤ l.length then
      .ok (.none, l.take start ++ (bytes ++ l.drop (start + bytes.length)))
    else .error .panic
  | .read nBytes r =>
    let slice := List.replicate nBytes 0
    match (r.run slice).1 with
    | .ok n => .ok (.count (.ok n), listResize (l.length + n) (l ++ (r.run slice).2))
    | .error e => .ok (.count (.error e), l)
  | .writeAllFrom offset =>
    if offset < l.length then .ok (.written (l.drop offset), l) else .error .panic

def stepLists (lists : Nat → Bytes) : Bool × StoreOp → Except Fault (Output × (Nat → Bytes))
  | (_, .on i op) => (op.onList (lists i)).map fun (o, l) => (o, Function.update lists i l)
  | (_, .clone i j) => .ok (.none, Function.update lists j (lists i))

/-- The largest size that an operation asks for. -/
def Op.request (l : Bytes) : Op → Nat
  | .newZeroed size => size
  | .withCapacity capacity => capacity
  | .fromSlice s => s.length
  | .push _ => l.length + 1
  | .extend s => l.length + s.length
  | .resize size => size
  | .read nBytes r =>
    match (r.run (List.replicate nBytes 0)).1 with
    | .ok n => l.length + max nBytes n
    | .error _ => l.length + nBytes
  | _ => 0

/-- The allocator has the memory, and no size above half the range of `usize` is asked for. -/
def Modest (w : Nat) (lists : Nat → Bytes) : Bool × StoreOp → Prop
  | (granted, .on i op) => granted = true ∧ op.request (lists i) ≤ 2 ^ w
  | (granted, .clone _ _) => granted = true

end Lists

/-- The vector has the bytes of the list, and zeros behind them in all of its memory. -/
structure Refines (v : CryptoVec) (l : Bytes) : Prop where
  contents : v.p.take v.size = l
  size_le_capacity : v.size ≤ v.capacity
  capacity_eq : v.p.length = v.capacity
  tail_zero : ∀ b ∈ v.p.drop v.size, b = 0

section Memory

variable {v : CryptoVec} {l mid rest s : Bytes}

theorem Refines.size_eq (h : Refines v l) : v.size = l.length := by
  rw [← h.contents, List.length_take, h.capacity_eq]
  have := h.size_le_capacity
  omega

/-- All of the memory, by the contents. -/
theorem Refines.block_eq (h : Refines v l) :
    v.p = l ++ List.replicate (v.capacity - l.length) 0 := by
  have htail : v.p.drop v.size = List.replicate (v.capacity - l.length) 0 := by
    rw [List.eq_replicate_iff]
    refine ⟨?_, h.tail_zero⟩
    rw [List.length_drop, h.capacity_eq, h.size_eq]
  calc
    v.p = v.p.take v.size ++ v.p.drop v.size := (List.take_append_drop _ _).symm
    _ = l ++ List.replicate (v.capacity - l.length) 0 := by rw [h.contents, htail]

theorem refines_of_block (hblock : v.p = l ++ List.replicate (v.capacity - l.length) 0)
    (hsize : v.size = l.length) (hle : l.length ≤ v.capacity) : Refines v l := by
  constructor
  · rw [hblock, hsize, List.take_left]
  · rw [hsize]
    exact hle
  · rw [hblock, List.length_append, List.length_replicate]
    omega
  · intro b hb
    rw [hblock, hsize, List.drop_left] at hb
    exact List.eq_of_mem_replicate hb

theorem refines_new : Refines new [] := by
  refine refines_of_block rfl rfl (Nat.le_refl _)

/-- A part of the contents is read. -/
theorem slice_refines (h : Refines v (l ++ (mid ++ rest))) :
    access (slice v.p l.length mid.length) = .ok mid := by
  rw [h.block_eq, List.append_assoc, List.append_assoc, slice_append]
  rfl

/-- A part of the contents is replaced. -/
theorem copyTo_refines (h : Refines v (l ++ (mid ++ rest))) (hs : mid.length = s.length) :
    ∃ p, access (copyTo v.p l.length s) = .ok p ∧ Refines { v with p } (l ++ (s ++ rest)) := by
  have hlength : (l ++ (s ++ rest)).length = (l ++ (mid ++ rest)).length := by
    simp only [List.length_append, hs]
  refine ⟨l ++ (s ++ (rest ++
    List.replicate (v.capacity - (l ++ (mid ++ rest)).length) 0)), ?_, ?_⟩
  · rw [h.block_eq, List.append_assoc, List.append_assoc, copyTo_append l _ hs]
    rfl
  · apply refines_of_block
    · rw [hlength, List.append_assoc, List.append_assoc]
    · rw [hlength]
      exact h.size_eq
    · have hle := h.size_le_capacity
      rw [h.size_eq] at hle
      rw [hlength]
      exact hle

end Memory

section Growth

variable {w : Nat}

theorem usize_of_le {n : Nat} (h : n ≤ 2 ^ w) : usize w n = n := by
  have : 2 ^ w < 2 ^ (w + 1) := Nat.pow_lt_pow_right (by decide) (Nat.lt_succ_self w)
  exact Nat.mod_eq_of_lt (by omega)

/-- Up to half the range the capacity is not less than the size. -/
theorem le_nextPowerOfTwo {n : Nat} (h : n ≤ 2 ^ w) : n ≤ nextPowerOfTwo w n := by
  have hclog : Nat.clog 2 n ≤ w := Nat.clog_le_of_le_pow h
  have hpow : 2 ^ Nat.clog 2 n ≤ 2 ^ w := Nat.pow_le_pow_right (by decide) hclog
  rw [nextPowerOfTwo, usize_of_le hpow]
  exact Nat.le_pow_clog (by decide) n

theorem listResize_length (n : Nat) (l : Bytes) : (listResize n l).length = n := by
  rw [listResize, List.length_append, List.length_take, List.length_replicate]
  omega

theorem listResize_of_le {n : Nat} {l : Bytes} (h : l.length ≤ n) :
    listResize n l = l ++ List.replicate (n - l.length) 0 := by
  rw [listResize, List.take_of_length_le h]

theorem listResize_of_ge {n : Nat} {l : Bytes} (h : n ≤ l.length) :
    listResize n l = l.take n := by
  rw [listResize, Nat.sub_eq_zero_of_le h, List.replicate_zero, List.append_nil]

/-- A longer list with less behind it takes the same memory. -/
theorem listResize_append {n c : Nat} {l : Bytes} (h : l.length ≤ n) (hc : n ≤ c) :
    l ++ List.replicate (c - l.length) 0 =
      listResize n l ++ List.replicate (c - (listResize n l).length) 0 := by
  rw [listResize_length, listResize_of_le h, List.append_assoc, List.replicate_append_replicate]
  congr 2
  omega

theorem allocZeroed_granted (n : Nat) : allocZeroed true n = List.replicate n 0 := rfl

/-- The contents are moved to new memory that has room for them. -/
theorem moveTo_refines {v : CryptoVec} {l : Bytes} (h : Refines v l) {n : Nat}
    (hn : l.length ≤ n) :
    moveTo (List.replicate n 0) v = .ok (l ++ List.replicate (n - l.length) 0) := by
  rw [moveTo]
  by_cases hcapacity : 0 < v.capacity
  · have hold : access (slice v.p 0 v.size) = .ok l := by
      have hall : Refines v ([] ++ (l ++ [])) := by
        rw [List.nil_append, List.append_nil]
        exact h
      have hslice := slice_refines hall
      rwa [← h.size_eq] at hslice
    have hnew : copyTo (List.replicate n 0) 0 l = some (l ++ List.replicate (n - l.length) 0) := by
      have hsplit : List.replicate n (0 : UInt8) =
          [] ++ (List.replicate l.length 0 ++ List.replicate (n - l.length) 0) := by
        rw [List.nil_append, List.replicate_append_replicate]
        congr 1
        omega
      rw [hsplit]
      exact copyTo_append [] _ List.length_replicate
    rw [if_pos hcapacity, hold]
    show access (copyTo (List.replicate n 0) 0 l) = _
    rw [hnew]
    rfl
  · have hnil : l = [] := by
      apply List.eq_nil_of_length_eq_zero
      have hle := h.size_le_capacity
      rw [h.size_eq] at hle
      omega
    rw [if_neg hcapacity, hnil]
    rfl

/-- A vector is resized as a list is. -/
theorem resize_refines {v : CryptoVec} {l : Bytes} (h : Refines v l) {n : Nat} (hn : n ≤ 2 ^ w) :
    ∃ v', resize w true n v = .ok v' ∧ Refines v' (listResize n l) := by
  have hsize := h.size_eq
  have hle := h.size_le_capacity
  have hblock := h.block_eq
  unfold resize
  by_cases hinplace : n ≤ v.capacity ∧ v.size < n
  · -- the memory behind the contents is zero already
    have hlonger : l.length ≤ n := by omega
    rw [if_pos hinplace]
    refine ⟨_, rfl, refines_of_block ?_ (listResize_length n l).symm ?_⟩
    · show v.p = _
      rw [hblock, listResize_append hlonger hinplace.1]
    · rw [listResize_length]
      exact hinplace.1
  rw [if_neg hinplace]
  by_cases hshrink : n ≤ v.size
  · -- what is cut off is overwritten
    have hshorter : n ≤ l.length := by omega
    have hsplit : Refines v (l.take n ++ (l.drop n ++ [])) := by
      rwa [List.append_nil, List.take_append_drop]
    have hzeros : (l.drop n).length = (List.replicate (v.size - n) (0 : UInt8)).length := by
      rw [List.length_drop, List.length_replicate, hsize]
    obtain ⟨p, hcopy, hp⟩ := copyTo_refines hsplit hzeros
    have hplace : (l.take n).length = n := by
      rw [List.length_take]
      omega
    rw [hplace] at hcopy
    have hpblock := hp.block_eq
    have hplen : (l.take n ++ (List.replicate (v.size - n) (0 : UInt8) ++ [])).length =
        l.length := by
      simp only [List.length_append, List.length_take, List.length_replicate, List.length_nil]
      omega
    rw [if_pos hshrink, hcopy]
    refine ⟨_, rfl, refines_of_block ?_ (listResize_length n l).symm ?_⟩
    · show p = _
      rw [hplen] at hpblock
      rw [listResize_of_ge hshorter, hplace]
      refine Eq.trans hpblock ?_
      have hzeros : v.size - n + (v.capacity - l.length) = v.capacity - n := by omega
      show l.take n ++ (List.replicate (v.size - n) 0 ++ []) ++
        List.replicate (v.capacity - l.length) 0 = l.take n ++ List.replicate (v.capacity - n) 0
      rw [List.append_nil, List.append_assoc, List.replicate_append_replicate, hzeros]
    · rw [listResize_length]
      show n ≤ v.capacity
      omega
  · have hroom := le_nextPowerOfTwo hn
    have hlonger : l.length ≤ n := by omega
    rw [if_neg hshrink, allocZeroed_granted, moveTo_refines h (by omega)]
    refine ⟨_, rfl, refines_of_block ?_ (listResize_length n l).symm ?_⟩
    · exact listResize_append hlonger hroom
    · rw [listResize_length]
      exact hroom

end Growth

section Steps

variable {w : Nat} {v : CryptoVec} {l : Bytes}

/-- Bytes are written where the vector has grown. -/
theorem grow_refines (h : Refines v l) {s : Bytes} (hs : l.length + s.length ≤ 2 ^ w) :
    ∃ v', (do
      let r ← resize w true (l.length + s.length) v
      let p ← access (copyTo r.p l.length s)
      pure { r with p } : Except Fault CryptoVec) = .ok v' ∧ Refines v' (l ++ s) := by
  obtain ⟨r, hr, hrefines⟩ := resize_refines h hs
  rw [listResize_of_le (Nat.le_add_right _ _), Nat.add_sub_cancel_left] at hrefines
  have hgrown : Refines r (l ++ (List.replicate s.length 0 ++ [])) := by
    rwa [List.append_nil]
  obtain ⟨p, hp, hwritten⟩ := copyTo_refines hgrown List.length_replicate
  rw [List.append_nil] at hwritten
  refine ⟨{ r with p }, ?_, hwritten⟩
  rw [hr]
  show (do let p ← access (copyTo r.p l.length s); pure { r with p }) = Except.ok { r with p }
  rw [hp]
  rfl

theorem extend_refines (h : Refines v l) {s : Bytes} (hs : l.length + s.length ≤ 2 ^ w) :
    ∃ v', extend w true s v = .ok v' ∧ Refines v' (l ++ s) := by
  rw [extend, h.size_eq, usize_of_le hs]
  exact grow_refines h hs

theorem fromSlice_refines {s : Bytes} (hs : s.length ≤ 2 ^ w) :
    ∃ v', fromSlice w true s = .ok v' ∧ Refines v' s := by
  have hgrow := grow_refines refines_new (w := w) (s := s) (by rwa [List.length_nil, Nat.zero_add])
  rw [List.length_nil, Nat.zero_add, List.nil_append] at hgrow
  exact hgrow

theorem newZeroed_refines {n : Nat} (hn : n ≤ 2 ^ w) :
    Refines (newZeroed w true n) (List.replicate n 0) := by
  have hroom := le_nextPowerOfTwo hn
  refine refines_of_block ?_ List.length_replicate.symm ?_
  · show List.replicate (nextPowerOfTwo w n) 0 = List.replicate n 0 ++
      List.replicate (nextPowerOfTwo w n - (List.replicate n (0 : UInt8)).length) 0
    rw [List.length_replicate, List.replicate_append_replicate]
    congr 1
    omega
  · rw [List.length_replicate]
    exact hroom

theorem withCapacity_refines (n : Nat) : Refines (withCapacity w true n) [] :=
  refines_of_block rfl rfl (Nat.zero_le _)

theorem clear_refines (h : Refines v l) : ∃ v', clear w true v = .ok v' ∧ Refines v' [] := by
  obtain ⟨v', hv', hrefines⟩ := resize_refines h (Nat.zero_le (2 ^ w))
  rw [listResize_of_ge (Nat.zero_le _), List.take_zero] at hrefines
  exact ⟨v', hv', hrefines⟩

theorem clone_refines (h : Refines v l) (hl : l.length ≤ 2 ^ w) :
    ∃ v', clone w true v = .ok v' ∧ Refines v' l := by
  have hall : Refines v ([] ++ (l ++ [])) := by
    rwa [List.append_nil, List.nil_append]
  have hslice := slice_refines hall
  rw [List.length_nil, ← h.size_eq] at hslice
  obtain ⟨v', hv', hrefines⟩ :=
    extend_refines refines_new (s := l) (w := w) (by rwa [List.length_nil, Nat.zero_add])
  rw [List.nil_append] at hrefines
  refine ⟨v', ?_, hrefines⟩
  rw [clone, hslice]
  exact hv'

/-- A place within the contents. -/
theorem split_at {start n : Nat} (h : start + n ≤ l.length) :
    l = l.take start ++ ((l.drop start).take n ++ l.drop (start + n)) ∧
      (l.take start).length = start ∧ ((l.drop start).take n).length = n := by
  refine ⟨?_, ?_, ?_⟩
  · rw [← List.drop_drop, List.take_append_drop, List.take_append_drop]
  · rw [List.length_take]
    omega
  · rw [List.length_take, List.length_drop]
    omega

theorem set_refines (h : Refines v l) {start : Nat} {bytes : Bytes}
    (hin : start + bytes.length ≤ l.length) :
    ∃ v', set start bytes v = .ok v' ∧
      Refines v' (l.take start ++ (bytes ++ l.drop (start + bytes.length))) := by
  obtain ⟨hsplit, hstart, hmid⟩ := split_at hin
  rw [hsplit] at h
  obtain ⟨p, hp, hrefines⟩ := copyTo_refines h hmid
  rw [hstart] at hp
  refine ⟨{ v with p }, ?_, hrefines⟩
  rw [set, h.size_eq, ← hsplit, if_pos hin, hp]
  rfl

theorem writeAllFrom_refines (h : Refines v l) {offset : Nat} (hin : offset < l.length) :
    writeAllFrom offset v = .ok (l.drop offset) := by
  obtain ⟨hsplit, hstart, hmid⟩ :=
    split_at (show offset + (l.length - offset) ≤ l.length by omega)
  have hrest : (l.drop offset).take (l.length - offset) = l.drop offset := by
    rw [List.take_of_length_le (by rw [List.length_drop])]
  have hslice := h
  rw [hsplit] at hslice
  have hread := slice_refines hslice
  rw [hstart, hmid, hrest] at hread
  rw [writeAllFrom, h.size_eq, if_pos hin, hread]

/-- What the reader has put into the slice, and the zeros that it has not, are cut off. -/
theorem read_refines (h : Refines v l) {nBytes : Nat} {r : Reader}
    (hreq : (Op.read nBytes r).request l ≤ 2 ^ w) :
    Matches Refines ((CryptoVec.read w true nBytes r v).map fun (result, v) =>
      (Output.count result, v)) ((Op.read nBytes r).onList l) := by
  have hgrow : l.length + nBytes ≤ 2 ^ w := by
    simp only [Op.request] at hreq
    cases hresult : (r.run (List.replicate nBytes 0)).1 with
    | ok n =>
      rw [hresult] at hreq
      have hmax : l.length + max nBytes n ≤ 2 ^ w := hreq
      omega
    | error e =>
      rw [hresult] at hreq
      exact hreq
  obtain ⟨grown, hgrown, hrefines⟩ := resize_refines h hgrow
  rw [listResize_of_le (Nat.le_add_right _ _), Nat.add_sub_cancel_left] at hrefines
  have hzeros : Refines grown (l ++ (List.replicate nBytes 0 ++ [])) := by
    rwa [List.append_nil]
  have hslice := slice_refines hzeros
  rw [List.length_replicate] at hslice
  have hfilled : (List.replicate nBytes (0 : UInt8)).length =
      (r.run (List.replicate nBytes 0)).2.length := (r.length_eq _).symm
  obtain ⟨p, hp, hread⟩ := copyTo_refines hzeros hfilled
  rw [List.append_nil] at hread
  have hcode : CryptoVec.read w true nBytes r v =
      resizeRead w true l.length { grown with p } (r.run (List.replicate nBytes 0)).1 := by
    simp only [CryptoVec.read, h.size_eq, usize_of_le hgrow, hgrown, bind, Except.bind, hslice, hp]
  rw [hcode]
  simp only [Op.onList]
  simp only [Op.request] at hreq
  cases hresult : (r.run (List.replicate nBytes 0)).1 with
  | ok n =>
    rw [hresult] at hreq
    have hmax : l.length + max nBytes n ≤ 2 ^ w := hreq
    have hn : l.length + n ≤ 2 ^ w := by omega
    obtain ⟨v', hv', hrefines'⟩ := resize_refines hread hn
    rw [resizeRead, usize_of_le hn, hv']
    exact ⟨rfl, hrefines'⟩
  | error e =>
    have hback : l.length ≤ 2 ^ w := by omega
    obtain ⟨v', hv', hrefines'⟩ := resize_refines hread hback
    rw [listResize_of_ge (by rw [List.length_append]; omega), List.take_left] at hrefines'
    rw [resizeRead, hv']
    exact ⟨rfl, hrefines'⟩

/-- An operation does to the vector what it does to the list. -/
theorem apply_matches (h : Refines v l) {op : Op} (hreq : op.request l ≤ 2 ^ w) :
    Matches Refines (op.apply w true v) (op.onList l) := by
  have hmap {x : Except Fault CryptoVec} {l' : Bytes}
      (hx : ∃ v', x = .ok v' ∧ Refines v' l') :
      Matches Refines (x.map (Prod.mk Output.none)) (.ok (Output.none, l')) := by
    obtain ⟨v', rfl, hv'⟩ := hx
    exact ⟨rfl, hv'⟩
  cases op with
  | new => exact ⟨rfl, refines_new⟩
  | newZeroed size => exact ⟨rfl, newZeroed_refines hreq⟩
  | withCapacity capacity => exact ⟨rfl, withCapacity_refines capacity⟩
  | fromSlice s => exact hmap (fromSlice_refines hreq)
  | push s => exact hmap (extend_refines h (s := [s]) hreq)
  | extend s => exact hmap (extend_refines h hreq)
  | resize size => exact hmap (resize_refines h hreq)
  | clear => exact hmap (clear_refines h)
  | set start bytes =>
    by_cases hin : start + bytes.length ≤ l.length
    · simp only [Op.onList, if_pos hin]
      exact hmap (set_refines h hin)
    · simp only [Op.onList, if_neg hin, Op.apply, CryptoVec.set, h.size_eq]
      exact rfl
  | read nBytes r => exact read_refines h hreq
  | writeAllFrom offset =>
    by_cases hin : offset < l.length
    · simp only [Op.onList, if_pos hin, Op.apply, writeAllFrom_refines h hin]
      exact ⟨rfl, h⟩
    · simp only [Op.onList, if_neg hin, Op.apply, writeAllFrom, h.size_eq]
      exact rfl

/-- No list becomes longer than what was asked for. -/
theorem onList_length (hl : l.length ≤ 2 ^ w) {op : Op} (hreq : op.request l ≤ 2 ^ w)
    {o : Output} {l' : Bytes} (h : op.onList l = .ok (o, l')) : l'.length ≤ 2 ^ w := by
  cases op with
  | new =>
    cases h
    exact Nat.zero_le _
  | newZeroed size =>
    cases h
    rw [List.length_replicate]
    exact hreq
  | withCapacity capacity =>
    cases h
    exact Nat.zero_le _
  | fromSlice s =>
    cases h
    exact hreq
  | push s =>
    cases h
    rw [List.length_append]
    exact hreq
  | extend s =>
    cases h
    rw [List.length_append]
    exact hreq
  | resize size =>
    cases h
    rw [listResize_length]
    exact hreq
  | clear =>
    cases h
    exact Nat.zero_le _
  | set start bytes =>
    rw [Op.onList] at h
    by_cases hin : start + bytes.length ≤ l.length
    · rw [if_pos hin] at h
      cases h
      simp only [List.length_append, List.length_take, List.length_drop]
      omega
    · rw [if_neg hin] at h
      cases h
  | read nBytes r =>
    simp only [Op.onList] at h
    simp only [Op.request] at hreq
    cases hresult : (r.run (List.replicate nBytes 0)).1 with
    | ok n =>
      rw [hresult] at h hreq
      have hmax : l.length + max nBytes n ≤ 2 ^ w := hreq
      cases h
      rw [listResize_length]
      omega
    | error e =>
      rw [hresult] at h
      cases h
      exact hl
  | writeAllFrom offset =>
    rw [Op.onList] at h
    by_cases hin : offset < l.length
    · rw [if_pos hin] at h
      cases h
      exact hl
    · rw [if_neg hin] at h
      cases h

end Steps

section Runs

variable {w : Nat}

/-- The vectors of a program have the bytes of its lists. -/
def StoreRefines (w : Nat) (store : Nat → CryptoVec) (lists : Nat → Bytes) : Prop :=
  ∀ i, Refines (store i) (lists i) ∧ (lists i).length ≤ 2 ^ w

theorem StoreRefines.update {store : Nat → CryptoVec} {lists : Nat → Bytes}
    (h : StoreRefines w store lists) {i : Nat} {v : CryptoVec} {l : Bytes} (hv : Refines v l)
    (hl : l.length ≤ 2 ^ w) :
    StoreRefines w (Function.update store i v) (Function.update lists i l) := by
  intro j
  by_cases hij : j = i
  · subst hij
    rw [Function.update_self, Function.update_self]
    exact ⟨hv, hl⟩
  · rw [Function.update_of_ne hij, Function.update_of_ne hij]
    exact h j

/-- One operation of a program. -/
theorem step_matches (store : Nat → CryptoVec) (lists : Nat → Bytes) (label : Bool × StoreOp)
    (h : StoreRefines w store lists) (hmodest : Modest w lists label) :
    Matches (StoreRefines w) (step w store label) (stepLists lists label) := by
  obtain ⟨granted, op⟩ := label
  cases op with
  | on i op =>
    obtain ⟨rfl, hreq⟩ := hmodest
    obtain ⟨hv, hl⟩ := h i
    have hop := apply_matches hv hreq
    show Matches _ ((op.apply w true (store i)).map _) ((op.onList (lists i)).map _)
    cases hlist : op.onList (lists i) with
    | error e =>
      rw [hlist] at hop
      rw [hop.error]
      exact rfl
    | ok p =>
      obtain ⟨o, l'⟩ := p
      rw [hlist] at hop
      obtain ⟨v', hv', hrefines⟩ := hop.ok
      rw [hv']
      exact ⟨rfl, h.update hrefines (onList_length hl hreq hlist)⟩
  | clone i j =>
    obtain rfl : granted = true := hmodest
    obtain ⟨hv, hl⟩ := h i
    obtain ⟨v', hv', hrefines⟩ := clone_refines hv hl
    show Matches _ ((clone w true (store i)).map _) _
    rw [hv']
    exact ⟨rfl, h.update hrefines hl⟩

/-- Whatever a program does with its vectors, as long as it asks for no size above half the range
of `usize` and gets its memory, the vectors have the contents of plain lists, the same is read and
written, and the memory behind the contents is zero. -/
theorem run_refines (labels : List (Bool × StoreOp))
    (hmodest : Along stepLists (Modest w) (fun _ => []) labels) :
    Matches (fun store lists => ∀ i, Refines (store i) (lists i))
      (runOutputs (step w) (fun _ => new) labels) (runOutputs stepLists (fun _ => []) labels) := by
  have hstart : StoreRefines w (fun _ => new) fun _ => [] :=
    fun _ => ⟨refines_new, Nat.zero_le _⟩
  exact (run_matches step_matches hstart hmodest).mono fun _ _ h i => (h i).1

/-- Bytes are read into a vector, and written from it. -/
theorem run_refines_small :
    Matches (fun store lists => ∀ i, Refines (store i) (lists i))
      (runOutputs (step 63) (fun _ => new)
        [(true, .on 0 (.extend [1, 2, 3])), (true, .on 0 (.resize 2)), (true, .clone 0 1),
          (true, .on 1 (.writeAllFrom 1))])
      (runOutputs stepLists (fun _ => [])
        [(true, .on 0 (.extend [1, 2, 3])), (true, .on 0 (.resize 2)), (true, .clone 0 1),
          (true, .on 1 (.writeAllFrom 1))]) := by
  apply run_refines
  refine ⟨⟨rfl, by decide⟩, fun _ _ _ => ⟨⟨rfl, ?_⟩, fun _ _ _ => ⟨rfl, fun _ _ _ => ?_⟩⟩⟩
  · show 2 ≤ 2 ^ 63
    decide
  · exact ⟨⟨rfl, Nat.zero_le _⟩, fun _ _ _ => trivial⟩

theorem nextPowerOfTwo_overflow : nextPowerOfTwo 63 (2 ^ 63 + 1) = 0 := by
  have hclog : Nat.clog 2 (2 ^ 63 + 1) = 64 := by
    apply Nat.le_antisymm
    · exact Nat.clog_le_of_le_pow (by decide)
    · exact (Nat.lt_clog_iff_pow_lt (by decide)).mpr (by decide)
  rw [nextPowerOfTwo, hclog]
  rfl

/-- The power of two above a size can wrap to zero, and the capacity with it. -/
theorem not_size_le_capacity :
    ¬ ∀ (labels : List (Bool × StoreOp)) (outputs : List Output) (store : Nat → CryptoVec),
      (∀ label ∈ labels, label.1 = true) →
      runOutputs (step 63) (fun _ => new) labels = .ok (outputs, store) →
      ∀ i, (store i).size ≤ (store i).capacity := by
  intro h
  have hresize : resize 63 true (2 ^ 63 + 1) new = .ok ⟨[], 2 ^ 63 + 1, 0⟩ := by
    have hnew : moveTo (allocZeroed true 0) new = .ok [] := rfl
    rw [resize, if_neg (by decide), if_neg (by decide), nextPowerOfTwo_overflow, hnew]
    rfl
  have hrun : runOutputs (step 63) (fun _ => new) [(true, .on 0 (.resize (2 ^ 63 + 1)))] =
      .ok ([.none], Function.update (fun _ => new) 0 ⟨[], 2 ^ 63 + 1, 0⟩) := by
    rw [runOutputs, step, Op.apply, hresize]
    rfl
  have hcapacity := h _ _ _ (by simp) hrun 0
  rw [Function.update_self] at hcapacity
  exact absurd hcapacity (by decide)

end Runs

end CryptoVec

end Edgessh.Russh
