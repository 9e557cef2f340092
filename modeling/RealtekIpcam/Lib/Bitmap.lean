import Mathlib

/-!
# Bitmaps

A bitmap is a function from positions to bits.  The operations look at its first `n` bits, except
that `xor` goes by whole words.

`doWhile` is a loop that goes on to the next clear bit of a mask after each round, or to the next
position when there is no mask.  `doWhile_spec` is its rule: an invariant of the positions that were
passed, which each round keeps at a clear position, and which holds at the others by itself.
-/

abbrev Bitmap := Nat → Bool

namespace Bitmap

open Function

/-- The first `n` bits are clear. -/
def isEmpty (b : Bitmap) (n : Nat) : Bool := (List.range n).all fun k => !b k

/-- The first `n` bits are set. -/
def isFull (b : Bitmap) (n : Nat) : Bool := (List.range n).all b

/-- The first clear bit from `i` on among the first `n`, or `n`. -/
def findNextZeroBit (b : Bitmap) (n i : Nat) : Nat :=
  ((List.range n).find? fun k => i ≤ k && !b k).getD n

/-- The bits of the words that hold `n` bits, with `w` bits a word. -/
def wordBits (w n : Nat) : Nat := w * ((n + (w - 1)) / w)

/-- The sum of two bitmaps of `n` bits.  It is done for whole words. -/
def xor (w : Nat) (dst a b : Bitmap) (n : Nat) : Bitmap := fun k =>
  if k < wordBits w n then a k ^^ b k else dst k

/-- A bitmap with one other bit. -/
def assign (b : Bitmap) (k : Nat) (value : Bool) : Bitmap := update b k value

variable {b : Bitmap} {n i k j : Nat} {value : Bool}

theorem isEmpty_iff : b.isEmpty n = true ↔ ∀ k < n, b k = false := by
  simp [isEmpty]

theorem isFull_iff : b.isFull n = true ↔ ∀ k < n, b k = true := by
  simp [isFull]

theorem le_wordBits {w : Nat} (hw : 0 < w) (n : Nat) : n ≤ wordBits w n := by
  have hlt := Nat.lt_mul_div_succ (n + (w - 1)) hw
  rw [Nat.mul_succ] at hlt
  unfold wordBits
  omega

@[simp] theorem assign_self : b.assign k value k = value := update_self ..

theorem assign_of_ne (h : j ≠ k) : b.assign k value j = b j := update_of_ne h ..

theorem assign_apply : b.assign k value j = if j = k then value else b j :=
  update_apply ..

/-- **The search.**  All bits before the one it finds are set. -/
theorem findNextZeroBit_spec (hi : i ≤ n) : i ≤ b.findNextZeroBit n i ∧ b.findNextZeroBit n i ≤ n ∧
    (∀ k, i ≤ k → k < b.findNextZeroBit n i → b k = true) ∧
      (b.findNextZeroBit n i < n → b (b.findNextZeroBit n i) = false) := by
  unfold findNextZeroBit
  cases hfind : (List.range n).find? fun k => i ≤ k && !b k with
  | none =>
    refine ⟨hi, Nat.le_refl n, fun k hik hk => ?_, fun habs => absurd habs (Nat.lt_irrefl n)⟩
    have hnone := List.find?_eq_none.mp hfind k (List.mem_range.mpr hk)
    simpa [hik] using hnone
  | some r =>
    obtain ⟨hr, before, after, hsplit, hbefore⟩ := List.find?_eq_some_iff_append.mp hfind
    simp only [Bool.and_eq_true, decide_eq_true_eq, Bool.not_eq_true'] at hr
    have hlt : r < n := List.mem_range.mp (by rw [hsplit]; simp)
    refine ⟨hr.1, Nat.le_of_lt hlt, fun k hik hk => ?_, fun _ => hr.2⟩
    have hk : k < r := hk
    have hsorted : (before ++ r :: after).Pairwise (· < ·) := hsplit ▸ List.pairwise_lt_range
    have hmem : k ∈ before := by
      have hk' : k ∈ before ++ r :: after :=
        hsplit ▸ List.mem_range.mpr (Nat.lt_trans hk hlt)
      rcases List.mem_append.mp hk' with hk' | hk'
      · exact hk'
      · rcases List.mem_cons.mp hk' with rfl | hk'
        · exact absurd hk (Nat.lt_irrefl k)
        · have hgt := (List.pairwise_cons.mp (List.pairwise_append.mp hsorted).2.1).1 k hk'
          exact absurd hk (Nat.lt_asymm hgt)
    simpa [hik] using hbefore k hmem

/-! ## Loops over the clear positions -/

/-- The position is clear, or there is no mask. -/
def Clear (mask : Option Bitmap) (j : Nat) : Prop := ∀ m ∈ mask, m j = false

/-- The next clear position from `i` on among the first `n`. -/
def nextClear (mask : Option Bitmap) (n i : Nat) : Nat :=
  match mask with
  | none => i
  | some m => m.findNextZeroBit n i

/-- `do { body } while (more)`, with a bound on its rounds: where it has got to, and what it has
done. -/
def doWhile {β : Type*} (body : Nat → β → β) (next : Nat → Nat) (more : Nat → Bool) :
    Nat → Nat → β → Nat × β
  | 0, i, b => (i, b)
  | rounds + 1, i, b =>
    let b := body i b
    let i := next (i + 1)
    if more i then doWhile body next more rounds i b else (i, b)

variable (mask : Option Bitmap)

theorem nextClear_spec (hi : i ≤ n) : i ≤ nextClear mask n i ∧ nextClear mask n i ≤ n ∧
    (∀ k, i ≤ k → k < nextClear mask n i → ¬ Clear mask k) ∧
      (nextClear mask n i < n → Clear mask (nextClear mask n i)) := by
  cases mask with
  | none =>
    exact ⟨Nat.le_refl i, hi, fun k hik hk => absurd hik (Nat.not_le.mpr hk), nofun⟩
  | some m =>
    obtain ⟨hle, hlen, hset, hclear⟩ := findNextZeroBit_spec (b := m) hi
    refine ⟨hle, hlen, fun k hik hk h => ?_, ?_⟩
    · exact Bool.noConfusion ((hset k hik hk).symm.trans (h m rfl))
    · rintro hlt _ ⟨⟩
      exact hclear hlt

variable {mask}
variable {β : Type*} {P : Nat → β → Prop}

/-- An invariant that holds at the set positions by itself. -/
theorem skip_to (hskip : ∀ j b, ¬ Clear mask j → P j b → P (j + 1) b) {b : β} (hle : i ≤ k)
    (hset : ∀ j, i ≤ j → j < k → ¬ Clear mask j) (hP : P i b) : P k b := by
  obtain ⟨d, rfl⟩ := Nat.exists_eq_add_of_le hle
  induction d with
  | zero => exact hP
  | succ d ih =>
    have hprev := ih (Nat.le_add_right i d) fun j hij hj => hset j hij (by omega)
    exact hskip (i + d) b (hset _ (Nat.le_add_right i d) (by omega)) hprev

/-- **The loop.**  It passes at least one position, stops at the end or at a clear position that it
has not to go on at, and keeps the invariant. -/
theorem doWhile_spec (mask : Option Bitmap) (body : Nat → β → β) (more : Nat → Bool)
    (P : Nat → β → Prop) (hmore : ∀ j, more j = true → j < n)
    (hbody : ∀ j b, j < n → Clear mask j → (j = i ∨ more j = true) → P j b → P (j + 1) (body j b))
    (hskip : ∀ j b, ¬ Clear mask j → P j b → P (j + 1) b) (hi : i < n) (hclear : Clear mask i)
    {rounds : Nat} (hrounds : n - i ≤ rounds) {b : β} (hP : P i b) :
    let r := doWhile body (nextClear mask n) more rounds i b
    P r.1 r.2 ∧ i < r.1 ∧ r.1 ≤ n ∧ more r.1 = false ∧ (r.1 < n → Clear mask r.1) := by
  have key : ∀ rounds k b, k < n → Clear mask k → (k = i ∨ more k = true) → n - k ≤ rounds →
      P k b →
      let r := doWhile body (nextClear mask n) more rounds k b
      P r.1 r.2 ∧ k < r.1 ∧ r.1 ≤ n ∧ more r.1 = false ∧ (r.1 < n → Clear mask r.1) := by
    intro rounds
    induction rounds with
    | zero => exact fun k b hk _ _ hbound => absurd hbound (by omega)
    | succ rounds ih =>
      intro k b hk hclear hok hbound hP
      obtain ⟨hle, hlen, hset, hnext⟩ := nextClear_spec mask (i := k + 1) (n := n) hk
      have hpassed : P (nextClear mask n (k + 1)) (body k b) :=
        skip_to hskip hle hset (hbody k b hk hclear hok hP)
      rw [doWhile]
      by_cases hgo : more (nextClear mask n (k + 1)) = true
      · rw [if_pos hgo]
        have hlt := hmore _ hgo
        obtain ⟨hP', hgt, hrest⟩ := ih _ (body k b) hlt (hnext hlt) (Or.inr hgo) (by omega) hpassed
        exact ⟨hP', by omega, hrest⟩
      · rw [if_neg hgo]
        exact ⟨hpassed, hle, hlen, Bool.eq_false_iff.mpr hgo, hnext⟩
  exact key rounds i b hi hclear (Or.inl rfl) hrounds hP

end Bitmap
