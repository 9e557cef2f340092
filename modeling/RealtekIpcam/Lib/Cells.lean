import Mathlib

/-!
# Numbers in cells

A number that may be wider than a word is stored as a list of 32-bit cells, the highest first.
`value` reads such a list, and `cells n v` is the list of `n` cells for `v`; a number that fits is
read back, `value_cells`.

A reader that accumulates in 64 bits loses what is shifted out at the top.  `accumulate_eq` says
that it has the value modulo `2 ^ 64`.
-/

namespace Cells

/-- The number in a list of cells. -/
def value : List UInt32 → Nat
  | [] => 0
  | c :: cs => c.toNat * 2 ^ (32 * cs.length) + value cs

/-- The lowest `n` cells of a number. -/
def cells : Nat → Nat → List UInt32
  | 0, _ => []
  | n + 1, v => UInt32.ofNat (v / 2 ^ (32 * n)) :: cells n v

/-- One cell more, in 64 bits. -/
def shiftIn (number : Nat) (c : UInt32) : Nat := number <<< 32 % 2 ^ 64 ||| c.toNat

@[simp] theorem length_cells (n v : Nat) : (cells n v).length = n := by
  induction n with
  | zero => rfl
  | succ n ih => rw [cells, List.length_cons, ih]

theorem value_cells_mod (n v : Nat) : value (cells n v) = v % 2 ^ (32 * n) := by
  induction n with
  | zero => exact (Nat.mod_one v).symm
  | succ n ih =>
    rw [cells, value, ih, length_cells, UInt32.toNat_ofNat', Nat.mul_succ, Nat.pow_add,
      Nat.mod_mul, Nat.mul_comm, Nat.add_comm]

/-- **A number that fits is read back.** -/
theorem value_cells {n v : Nat} (h : v < 2 ^ (32 * n)) : value (cells n v) = v := by
  rw [value_cells_mod, Nat.mod_eq_of_lt h]

theorem shiftIn_eq (number : Nat) (c : UInt32) :
    shiftIn number c = (number * 2 ^ 32 + c.toNat) % 2 ^ 64 := by
  have hc := c.toNat_lt
  have hshift : number <<< 32 % 2 ^ 64 = (number % 2 ^ 32) <<< 32 := by
    rw [Nat.shiftLeft_eq, Nat.shiftLeft_eq]
    omega
  rw [shiftIn, hshift, ← Nat.shiftLeft_add_eq_or_of_lt hc, Nat.shiftLeft_eq]
  omega

/-- A 64-bit accumulator has the value modulo its width. -/
theorem accumulate_eq (cs : List UInt32) (number : Nat) (hnumber : number < 2 ^ 64) :
    cs.foldl shiftIn number = (number * 2 ^ (32 * cs.length) + value cs) % 2 ^ 64 := by
  induction cs generalizing number with
  | nil =>
    rw [List.foldl_nil, List.length_nil, Nat.mul_zero, Nat.pow_zero, Nat.mul_one, value,
      Nat.add_zero, Nat.mod_eq_of_lt hnumber]
  | cons c cs ih =>
    rw [List.foldl_cons, shiftIn_eq, ih _ (Nat.mod_lt _ (by decide)), Nat.add_mod, Nat.mod_mul_mod,
      ← Nat.add_mod, Nat.add_mul, Nat.mul_assoc, ← Nat.pow_add, value, List.length_cons,
      Nat.mul_succ, Nat.add_comm 32, Nat.add_assoc]

end Cells
