import Mathlib.Data.List.Basic

/-!
# Ledgers of submissions and completions

A component that accepts work items and later hands each of them back is judged by the order in
which the two kinds of events occur.  A *ledger* is that order, newest entry first: `submit k a`
puts item `a` into container `k`, `complete k a` hands `a` back from `k`.

`holder` reads off a ledger which container an item is in.  `Sound` says that nothing is ever
handed back from a container that does not hold it.  From it follows what a client relies on:
between two submissions of an item there is at most one completion of it
(`Sound.count_complete_le_one`).
-/

namespace Ledger

/-- One event of a ledger. -/
inductive Entry (κ α : Type*) where
  | submit (k : κ) (a : α)
  | complete (k : κ) (a : α)
  deriving DecidableEq

variable {κ α : Type*} [DecidableEq α]

/-- The container that holds an item after the events of a ledger (newest first). -/
def holder (a : α) : List (Entry κ α) → Option κ
  | [] => none
  | .submit k b :: l => if b = a then some k else holder a l
  | .complete _ b :: l => if b = a then none else holder a l

/-- Every completion of the ledger hands an item back from the container that holds it. -/
def Sound : List (Entry κ α) → Prop
  | [] => True
  | .submit _ _ :: l => Sound l
  | .complete k a :: l => holder a l = some k ∧ Sound l

/-- The entry submits `a`. -/
def Entry.submits (a : α) : Entry κ α → Bool
  | .submit _ b => decide (b = a)
  | .complete _ _ => false

/-- The entry completes `a`. -/
def Entry.completes (a : α) : Entry κ α → Bool
  | .submit _ _ => false
  | .complete _ b => decide (b = a)

theorem Sound.tail {x : Entry κ α} {l : List (Entry κ α)} (h : Sound (x :: l)) : Sound l := by
  cases x with
  | submit k a => exact h
  | complete k a => exact h.2

theorem Sound.of_append {l m : List (Entry κ α)} (h : Sound (l ++ m)) : Sound m := by
  induction l with
  | nil => exact h
  | cons x l ih => exact ih (Sound.tail h)

/-- **At most one completion per submission.**  In a sound ledger, a stretch without a submission
of `a` has at most one completion of `a`, and after it nothing holds `a`. -/
theorem Sound.count_complete_le_one {a : α} :
    ∀ {l m : List (Entry κ α)}, Sound (l ++ m) → (∀ x ∈ l, Entry.submits a x = false) →
      l.countP (Entry.completes a) ≤ 1 ∧
        (0 < l.countP (Entry.completes a) → holder a (l ++ m) = none)
  | [], m, _, _ => by simp
  | .submit k b :: l, m, hs, hno => by
    obtain ⟨h1, h2⟩ := count_complete_le_one (l := l) (m := m) hs
      fun x hx => hno x (List.mem_cons_of_mem _ hx)
    have hb : b ≠ a := by
      have h := hno (.submit k b) List.mem_cons_self
      simpa [Entry.submits] using h
    rw [List.countP_cons_of_neg (by simp [Entry.completes])]
    refine ⟨h1, fun hpos => ?_⟩
    rw [List.cons_append, holder, if_neg hb]
    exact h2 hpos
  | .complete k b :: l, m, hs, hno => by
    obtain ⟨h1, h2⟩ := count_complete_le_one (l := l) (m := m) hs.2
      fun x hx => hno x (List.mem_cons_of_mem _ hx)
    by_cases hb : b = a
    · -- the newest completion needs a holder, so no earlier one lies in the stretch
      have hheld : holder a (l ++ m) = some k := hb ▸ hs.1
      have hzero : l.countP (Entry.completes a) = 0 := by
        by_contra hne
        rw [h2 (Nat.pos_of_ne_zero hne)] at hheld
        exact absurd hheld (by simp)
      rw [List.countP_cons_of_pos (by simp [Entry.completes, hb]), hzero]
      refine ⟨Nat.le_refl 1, fun _ => ?_⟩
      rw [List.cons_append, holder, if_pos hb]
    · rw [List.countP_cons_of_neg (by simp [Entry.completes, hb])]
      refine ⟨h1, fun hpos => ?_⟩
      rw [List.cons_append, holder, if_neg hb]
      exact h2 hpos

end Ledger
