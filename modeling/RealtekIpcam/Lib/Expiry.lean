import Mathlib

/-!
# Expiries of a timer

A timer with period `p` expires at `e`, `e + p`, `e + 2 * p` and so on; one with period 0 expires at
`e` only.  Up to a time `now` that is `count e p now` times.  Times are integers here, so that
nothing ever overflows.
-/

namespace Expiry

variable {e p now now' : Int} {n i : Nat}

/-- The number of expiries up to `now`. -/
def count (e p now : Int) : Nat :=
  if now < e then 0 else if p = 0 then 1 else ((now - e) / p + 1).toNat

/-- The first `n` expiries. -/
def expiries (e p : Int) (n : Nat) : List Int := (List.range n).map fun i : Nat => e + i * p

/-- The first expiry after `now`, if there is one. -/
def next (e p now : Int) : Option Int :=
  if p = 0 ∧ e ≤ now then none else some (e + count e p now * p)

theorem expiries_succ : expiries e p (n + 1) = expiries e p n ++ [e + n * p] := by
  rw [expiries, List.range_succ, List.map_append]
  rfl

/-! ## Counting -/

theorem count_of_lt (h : now < e) : count e p now = 0 := if_pos h

theorem count_oneShot (h : e ≤ now) : count e 0 now = 1 := by
  rw [count, if_neg (Int.not_lt.mpr h), if_pos rfl]

theorem count_periodic (hp : p ≠ 0) (h : e ≤ now) : count e p now = ((now - e) / p + 1).toNat := by
  rw [count, if_neg (Int.not_lt.mpr h), if_neg hp]

/-- **The expiries up to `now`** are the first `count e p now`. -/
theorem lt_count_iff (hp : 0 < p) : i < count e p now ↔ e + i * p ≤ now := by
  rcases Int.lt_or_le now e with hlt | hle
  · have hmul : 0 ≤ (i : Int) * p := Int.mul_nonneg (Int.natCast_nonneg i) (Int.le_of_lt hp)
    rw [count_of_lt hlt]
    omega
  · have hdiv : (i : Int) ≤ (now - e) / p ↔ (i : Int) * p ≤ now - e := Int.le_ediv_iff_mul_le hp
    have hnonneg : 0 ≤ (now - e) / p := Int.ediv_nonneg (by omega) (Int.le_of_lt hp)
    rw [count_periodic hp.ne' hle]
    omega

/-- Behind them, the next is after `now`. -/
theorem lt_next (hp : 0 < p) : now < e + count e p now * p :=
  Int.not_le.mp fun h => Nat.lt_irrefl _ ((lt_count_iff hp).mpr h)

/-- The count is known by the next expiry. -/
theorem count_unique (hp : 0 < p) (hbefore : ∀ i < n, e + i * p ≤ now) (hafter : now < e + n * p) :
    n = count e p now := by
  refine Nat.le_antisymm (Nat.not_lt.mp fun hlt => ?_) (Nat.not_lt.mp fun hlt => ?_)
  · have := (lt_count_iff hp).mpr (hbefore _ hlt)
    exact Nat.lt_irrefl _ this
  · have := (lt_count_iff hp).mp hlt
    omega

theorem count_mono (hp : 0 ≤ p) (h : now ≤ now') : count e p now ≤ count e p now' := by
  rcases Int.lt_or_le now e with hlt | hle
  · rw [count_of_lt hlt]
    exact Nat.zero_le _
  rcases eq_or_lt_of_le hp with rfl | hp
  · rw [count_oneShot hle, count_oneShot (Int.le_trans hle h)]
  · exact Nat.not_lt.mp fun hlt => Nat.lt_irrefl _ ((lt_count_iff hp).mpr
      (Int.le_trans ((lt_count_iff hp).mp hlt) h))

theorem count_succ (hp : 0 < p) (h : e ≤ now) : count e p now = count (e + p) p now + 1 := by
  symm
  refine count_unique hp (fun i hi => ?_) ?_
  · rcases i with _ | i
    · simpa using h
    · have := (lt_count_iff (i := i) hp).mp (Nat.lt_of_succ_lt_succ hi)
      push_cast
      rw [Int.add_mul]
      omega
  · have : now < e + p + count (e + p) p now * p := lt_next hp
    push_cast
    rw [Int.add_mul]
    omega

theorem next_oneShot (h : now < e) : next e 0 now = some e := by
  rw [next, if_neg (by omega), Int.mul_zero, Int.add_zero]

theorem next_periodic (hp : p ≠ 0) : next e p now = some (e + count e p now * p) :=
  if_neg fun h => hp h.1

theorem next_eq_none : next e p now = none ↔ p = 0 ∧ e ≤ now := by
  unfold next
  split
  next h => exact iff_of_true rfl h
  next h => exact iff_of_false (Option.some_ne_none _) h

theorem next_mono (hp : 0 ≤ p) (h : now ≤ now') {x : Int} (hx : next e p now = some x)
    (hperiodic : p ≠ 0) : ∃ y, next e p now' = some y ∧ x ≤ y := by
  rw [next_periodic hperiodic] at hx ⊢
  obtain rfl := Option.some_inj.mp hx
  have := Int.mul_le_mul_of_nonneg_right (Int.ofNat_le.mpr (count_mono (e := e) hp h)) hp
  exact ⟨_, rfl, by omega⟩

end Expiry
