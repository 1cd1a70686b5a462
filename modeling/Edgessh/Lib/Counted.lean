import Mathlib.Data.List.Basic

/-!
# Items behind a count

A sender says how many items follow, and the items follow, each in a form of its own length. `items`
are those that are there, whatever the count says; `readAll` is the loop that believes the count and
ends at the first item that cannot be read. It succeeds where there are enough, and it never goes
further than one item behind the last.
-/

namespace Edgessh.Counted

variable {α β ε : Type} {read : List β → Except ε (α × List β)}

/-- Every item takes something from the input. -/
def Consumes (read : List β → Except ε (α × List β)) : Prop :=
  ∀ r a rest, read r = .ok (a, rest) → rest.length < r.length

/-- The items that can be read one behind the other, at most `fuel` of them. -/
def itemsWithin (read : List β → Except ε (α × List β)) : Nat → List β → List α
  | 0, _ => []
  | fuel + 1, r =>
    match read r with
    | .ok (a, rest) => a :: itemsWithin read fuel rest
    | .error _ => []

/-- The items that are there. -/
def items (read : List β → Except ε (α × List β)) (r : List β) : List α :=
  itemsWithin read r.length r

/-- A loop over `n` items that ends at the first error: how many it begins to read, and what it
returns. -/
def readAll (read : List β → Except ε (α × List β)) : Nat → List β → Nat × Except ε (List α)
  | 0, _ => (0, .ok [])
  | n + 1, r =>
    match read r with
    | .ok (a, rest) =>
      let (begun, result) := readAll read n rest
      (begun + 1, result.map (a :: ·))
    | .error e => (1, .error e)

section Items

variable {r rest : List β} {a : α}

/-- More fuel than there is input changes nothing. -/
theorem itemsWithin_eq (hread : Consumes read) {fuel fuel' : Nat} (h : r.length ≤ fuel)
    (h' : r.length ≤ fuel') : itemsWithin read fuel r = itemsWithin read fuel' r := by
  induction fuel generalizing fuel' r with
  | zero =>
    obtain rfl : r = [] := List.length_eq_zero_iff.mp (by omega)
    cases fuel' with
    | zero => rfl
    | succ fuel' =>
      rw [itemsWithin, itemsWithin]
      split
      · rename_i a rest hr
        have hlt := hread _ _ _ hr
        simp at hlt
      · rfl
  | succ fuel ih =>
    cases hr : read r with
    | error e =>
      cases fuel' with
      | zero => rw [itemsWithin, itemsWithin, hr]
      | succ fuel' => rw [itemsWithin, itemsWithin, hr]
    | ok p =>
      have hlt := hread r p.1 p.2 hr
      cases fuel' with
      | zero => omega
      | succ fuel' =>
        rw [itemsWithin, itemsWithin, hr]
        dsimp only
        have hrest : itemsWithin read fuel p.2 = itemsWithin read fuel' p.2 :=
          ih (by omega) (by omega)
        rw [hrest]

theorem items_of_ok (hread : Consumes read) (h : read r = .ok (a, rest)) :
    items read r = a :: items read rest := by
  have hlt := hread r a rest h
  have hmore : itemsWithin read r.length r = itemsWithin read (rest.length + 1 + r.length) r :=
    itemsWithin_eq hread (by omega) (by omega)
  have hrest : itemsWithin read (rest.length + r.length) rest = itemsWithin read rest.length rest :=
    itemsWithin_eq hread (by omega) (by omega)
  rw [items, items, hmore, Nat.add_right_comm, itemsWithin, h]
  dsimp only
  rw [hrest]

theorem items_of_error {e : ε} (h : read r = .error e) : items read r = [] := by
  rw [items]
  cases hlen : r.length with
  | zero => rfl
  | succ n => rw [itemsWithin, h]

theorem length_items_le (hread : Consumes read) (r : List β) :
    (items read r).length ≤ r.length := by
  induction hn : r.length using Nat.strongRecOn generalizing r with
  | ind n ih =>
    cases hr : read r with
    | error e =>
      rw [items_of_error hr]
      exact Nat.zero_le _
    | ok p =>
      have hlt := hread r p.1 p.2 hr
      have hrest := ih p.2.length (by omega) p.2 rfl
      rw [items_of_ok hread hr, List.length_cons]
      omega

end Items

section ReadAll

variable {n : Nat} {r : List β}

/-- The loop returns where there are enough items, and then the first of them. -/
theorem readAll_eq_ok (hread : Consumes read) {as : List α} :
    (readAll read n r).2 = .ok as ↔ n ≤ (items read r).length ∧ as = (items read r).take n := by
  induction n generalizing r as with
  | zero => simp [readAll, eq_comm]
  | succ n ih =>
    rw [readAll]
    cases hr : read r with
    | error e => simp [items_of_error hr]
    | ok p =>
      obtain ⟨a, rest⟩ := p
      rw [items_of_ok hread hr, List.length_cons, List.take_succ_cons]
      dsimp only
      constructor
      · intro h
        cases hrest : (readAll read n rest).2 with
        | error e =>
          rw [hrest] at h
          cases h
        | ok as' =>
          rw [hrest] at h
          cases h
          obtain ⟨hle, rfl⟩ := ih.mp hrest
          exact ⟨by omega, rfl⟩
      · rintro ⟨hle, rfl⟩
        rw [ih.mpr ⟨by omega, rfl⟩]
        rfl

/-- It does not go on behind the first item that cannot be read. -/
theorem readAll_begun_le (hread : Consumes read) :
    (readAll read n r).1 ≤ (items read r).length + 1 := by
  induction n generalizing r with
  | zero => exact Nat.zero_le _
  | succ n ih =>
    rw [readAll]
    cases hr : read r with
    | error e => exact Nat.le_add_left ..
    | ok p =>
      rw [items_of_ok hread hr, List.length_cons]
      have hrest := ih (r := p.2)
      dsimp only
      omega

end ReadAll

end Edgessh.Counted
