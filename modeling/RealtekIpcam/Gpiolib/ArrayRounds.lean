import RealtekIpcam.Gpiolib.Arrays

/-!
# The rounds of an array operation

An array operation takes the positions that its mask leaves in rounds: a round goes on while the
next position that is left is on the same chip.  So a round starts at a position that is left
whose predecessor among those, if there is one, is on another chip, and a round that starts there
does not pass over another start.
-/

namespace RealtekIpcam.Gpiolib.Arrays

/-- A position at which a round starts: it is one of those that are left, and the one before it, if
there is one, is on another chip. -/
def Starts (desc : Nat → Desc) (n : Nat) (left : Nat → Prop) (i : Nat) : Prop :=
  i < n ∧ left i ∧ ∀ k < i, left k → (∀ j, k < j → j < i → ¬ left j) →
    (desc k).chip ≠ (desc i).chip

/-- The positions that rounds from `i` to `j` pass. -/
def Passed (left : Nat → Prop) (i j k : Nat) : Prop := i ≤ k ∧ k < j ∧ left k

section Positions

variable {desc : Nat → Desc} {n i j k m : Nat} {left : Nat → Prop}

theorem passed_succ_of_left (hij : i ≤ j) (hleft : left j) :
    Passed left i (j + 1) k ↔ Passed left i j k ∨ k = j := by
  constructor
  · rintro ⟨hik, hk, hl⟩
    rcases Nat.lt_succ_iff_lt_or_eq.mp hk with hlt | rfl
    · exact Or.inl ⟨hik, hlt, hl⟩
    · exact Or.inr rfl
  · rintro (⟨hik, hk, hl⟩ | rfl)
    · exact ⟨hik, Nat.lt_succ_of_lt hk, hl⟩
    · exact ⟨hij, Nat.lt_succ_self k, hleft⟩

theorem passed_succ_of_not_left (hleft : ¬ left j) :
    Passed left i (j + 1) k ↔ Passed left i j k := by
  constructor
  · rintro ⟨hik, hk, hl⟩
    rcases Nat.lt_succ_iff_lt_or_eq.mp hk with hlt | rfl
    · exact ⟨hik, hlt, hl⟩
    · exact absurd hl hleft
  · rintro ⟨hik, hk, hl⟩
    exact ⟨hik, Nat.lt_succ_of_lt hk, hl⟩

theorem exists_last_left (him : i < m) (hleft : left i) :
    ∃ p, i ≤ p ∧ p < m ∧ left p ∧ ∀ j, p < j → j < m → ¬ left j := by
  induction m with
  | zero => exact absurd him (Nat.not_lt_zero i)
  | succ m ih =>
    by_cases hm : left m
    · exact ⟨m, Nat.le_of_lt_succ him, Nat.lt_succ_self m, hm,
        fun j hmj hj => absurd hmj (by omega)⟩
    · have hne : i ≠ m := fun heq => hm (heq ▸ hleft)
      obtain ⟨p, hip, hp, hl, hnone⟩ := ih (by omega)
      refine ⟨p, hip, by omega, hl, fun j hpj hj => ?_⟩
      rcases Nat.lt_succ_iff_lt_or_eq.mp hj with hlt | rfl
      · exact hnone j hpj hlt
      · exact hm

/-- What a round of one chip leads to. -/
structure OneChip (desc : Nat → Desc) (n : Nat) (left : Nat → Prop) (i i' : Nat) : Prop where
  lt : i < i'
  le : i' ≤ n
  chip : ∀ k, Passed left i i' k → (desc k).chip = (desc i).chip
  next : i' < n → left i' ∧ (desc i').chip ≠ (desc i).chip

theorem OneChip.starts (h : OneChip desc n left i j) (hi : left i) (hlt : j < n) :
    Starts desc n left j := by
  obtain ⟨hleft, hchip⟩ := h.next hlt
  refine ⟨hlt, hleft, fun k hk hl hnone heq => ?_⟩
  by_cases hik : i ≤ k
  · exact hchip (heq.symm.trans (h.chip k ⟨hik, hk, hl⟩))
  · exact hnone i (Nat.lt_of_not_le hik) h.lt hi

theorem OneChip.le_of_starts (h : OneChip desc n left i j) (hi : left i) (hm : Starts desc n left m)
    (him : i < m) : j ≤ m := by
  by_contra hlt
  obtain ⟨p, hip, hp, hl, hnone⟩ := exists_last_left him hi
  refine hm.2.2 p hp hl hnone ?_
  rw [h.chip p ⟨hip, by omega, hl⟩, h.chip m ⟨him.le, by omega, hm.2.1⟩]

theorem passed_split (hij : i ≤ j) (hjn : j ≤ n) :
    Passed left i n k ↔ Passed left i j k ∨ Passed left j n k := by
  constructor
  · rintro ⟨hik, hk, hl⟩
    rcases Nat.lt_or_ge k j with hlt | hge
    · exact Or.inl ⟨hik, hlt, hl⟩
    · exact Or.inr ⟨hge, hk, hl⟩
  · rintro (⟨hik, hk, hl⟩ | ⟨hjk, hk, hl⟩)
    · exact ⟨hik, hk.trans_le hjn, hl⟩
    · exact ⟨hij.trans hjk, hk, hl⟩

end Positions

end RealtekIpcam.Gpiolib.Arrays
