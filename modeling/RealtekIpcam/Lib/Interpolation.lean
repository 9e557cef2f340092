import Mathlib.Tactic.Linarith

/-!
# Piecewise linear interpolation in integers

A table of rising nodes `src` and values `dst` is interpolated by the line through the ends of a
segment, with a quotient that is truncated towards zero; outside the table the first and the last
segment are extended.

Truncation loses less than one, always towards the lower node, so that the interpolation is monotone
over all segments, and going to the table `dst` and back again never ends above the start
(`line_line_le`).  How fast it can fall and how slowly it can rise follows from the
slopes of the segments.
-/

namespace Interpolation

variable {src dst : ℕ → ℤ} {n i j : ℕ} {x y c g : ℤ}

/-- The nodes rise from each of the `n` segments to the next. -/
def Rising (src : ℕ → ℤ) (n : ℕ) : Prop := ∀ i < n, src i < src (i + 1)

/-- The line of the segment `i` at `x`. -/
def line (src dst : ℕ → ℤ) (i : ℕ) (x : ℤ) : ℤ :=
  ((x - src i) * (dst (i + 1) - dst i)).tdiv (src (i + 1) - src i) + dst i

/-- The segment `i` of `n` is the one that `x` is interpolated in. -/
structure Segment (src : ℕ → ℤ) (n i : ℕ) (x : ℤ) : Prop where
  lt : i < n
  lower : 0 < i → src i < x
  upper : i + 1 < n → x ≤ src (i + 1)

/-- The last of the segments up to the given one that begins below `x`. -/
def locate (src : ℕ → ℤ) (x : ℤ) : ℕ → ℕ
  | 0 => 0
  | n + 1 => if src (n + 1) < x then n + 1 else locate src x n

/-- The interpolation at `x`, in `n + 1` segments. -/
def interp (src dst : ℕ → ℤ) (n : ℕ) (x : ℤ) : ℤ := line src dst (locate src x n) x

/-! ## Nodes -/

theorem Rising.le (h : Rising src n) (hij : i ≤ j) (hj : j ≤ n) : src i ≤ src j := by
  induction j, hij using Nat.le_induction with
  | base => exact le_refl _
  | succ j _ ih => exact le_trans (ih (by omega)) (le_of_lt (h j (by omega)))

theorem Rising.lt (h : Rising src n) (hij : i < j) (hj : j ≤ n) : src i < src j :=
  lt_of_lt_of_le (h i (by omega)) (h.le hij hj)

/-- If no step of `dst` is more than `c` times the step of `src`, no distance is. -/
theorem Rising.dist_le (hslope : ∀ k < n, dst (k + 1) - dst k ≤ c * (src (k + 1) - src k))
    (hij : i ≤ j) (hj : j ≤ n) : dst j - dst i ≤ c * (src j - src i) := by
  induction j, hij using Nat.le_induction with
  | base => simp
  | succ j _ ih =>
    have hrest := ih (by omega)
    have hstep := hslope j (by omega)
    linarith

theorem locate_segment (src : ℕ → ℤ) (x : ℤ) (n : ℕ) : Segment src (n + 1) (locate src x n) x := by
  induction n with
  | zero =>
    exact ⟨by simp [locate], fun h => absurd h (by simp [locate]),
      fun h => by simp [locate] at h⟩
  | succ n ih =>
    rw [locate]
    by_cases h : src (n + 1) < x
    · rw [if_pos h]
      exact ⟨by omega, fun _ => h, fun hlt => absurd hlt (by omega)⟩
    · rw [if_neg h]
      refine ⟨by have hlt := ih.lt; omega, ih.lower, fun _ => ?_⟩
      by_cases hlt : locate src x n + 1 < n + 1
      · exact ih.upper hlt
      · have heq : locate src x n = n := by
          have hle := ih.lt
          omega
        rw [heq]
        exact not_lt.mp h

theorem Segment.unique (h : Rising src n) (hi : Segment src n i x) (hj : Segment src n j x) :
    i = j := by
  have key : ∀ {i j : ℕ}, Segment src n i x → Segment src n j x → ¬ i < j := by
    intro i j hi hj hlt
    have hjn := hj.lt
    have hup := hi.upper (by omega)
    have hlow := hj.lower (by omega)
    have hle := h.le (show i + 1 ≤ j from hlt) (by omega)
    omega
  rcases Nat.lt_trichotomy i j with hlt | heq | hgt
  · exact absurd hlt (key hi hj)
  · exact heq
  · exact absurd hgt (key hj hi)

/-- The segments of two values are in the order of the values. -/
theorem Segment.le (h : Rising src n) (hi : Segment src n i x) (hj : Segment src n j y)
    (hxy : x ≤ y) : i ≤ j := by
  by_contra hgt
  have hin := hi.lt
  have hup := hj.upper (by omega)
  have hlow := hi.lower (by omega)
  have hle := h.le (show j + 1 ≤ i by omega) (by omega)
  omega

/-! ## The line of a segment -/

section Line

variable (hsrc : src i < src (i + 1)) (hdst : dst i ≤ dst (i + 1))

include hsrc

/-- The line loses less than one to the truncation. -/
theorem line_bounds (dst : ℕ → ℤ) (x : ℤ) :
    (x - src i) * (dst (i + 1) - dst i) - (src (i + 1) - src i) <
        (line src dst i x - dst i) * (src (i + 1) - src i) ∧
      (line src dst i x - dst i) * (src (i + 1) - src i) <
        (x - src i) * (dst (i + 1) - dst i) + (src (i + 1) - src i) := by
  have hpos : 0 < src (i + 1) - src i := by omega
  rw [line, add_sub_cancel_right]
  generalize (x - src i) * (dst (i + 1) - dst i) = a
  generalize src (i + 1) - src i = d at hpos
  have hsplit := Int.tdiv_mul_add_tmod a d
  have hlt := Int.tmod_lt_of_pos a hpos
  have hgt : -d < a.tmod d := by
    have hneg := Int.tmod_lt_of_pos (-a) hpos
    rw [Int.neg_tmod] at hneg
    omega
  omega

/-- From the lower node on, the truncation is downwards. -/
theorem line_mul_le (hx : src i ≤ x) (hdst : dst i ≤ dst (i + 1)) :
    (line src dst i x - dst i) * (src (i + 1) - src i) ≤ (x - src i) * (dst (i + 1) - dst i) := by
  have hnonneg : 0 ≤ (x - src i) * (dst (i + 1) - dst i) :=
    mul_nonneg (by omega) (by omega)
  rw [line, add_sub_cancel_right, Int.tdiv_eq_ediv_of_nonneg hnonneg]
  exact Int.ediv_mul_le _ (by omega)

include hdst

theorem line_mono (hxy : x ≤ y) : line src dst i x ≤ line src dst i y := by
  have hmul : (x - src i) * (dst (i + 1) - dst i) ≤ (y - src i) * (dst (i + 1) - dst i) :=
    mul_le_mul_of_nonneg_right (by omega) (by omega)
  have hdiv := Int.tdiv_le_tdiv (show 0 < src (i + 1) - src i by omega) hmul
  simp only [line]
  omega

omit hsrc hdst in
@[simp] theorem line_lower : line src dst i (src i) = dst i := by simp [line]

omit hdst in
@[simp] theorem line_upper (dst : ℕ → ℤ) : line src dst i (src (i + 1)) = dst (i + 1) := by
  rw [line, Int.mul_tdiv_cancel_left _ (by omega)]
  omega

theorem le_line (hx : src i ≤ x) : dst i ≤ line src dst i x := by
  have hmono := line_mono hsrc hdst hx
  rwa [line_lower] at hmono

theorem line_le (hx : x ≤ src (i + 1)) : line src dst i x ≤ dst (i + 1) := by
  have hmono := line_mono hsrc hdst hx
  rwa [line_upper hsrc] at hmono

end Line

section Segments

variable (hsrc : Rising src n) (hdst : Rising dst n)

include hsrc hdst

/-- **The interpolation is monotone**, over all segments and outside the table. -/
theorem line_le_line (hi : Segment src n i x) (hj : Segment src n j y) (hxy : x ≤ y) :
    line src dst i x ≤ line src dst j y := by
  have hin := hi.lt
  have hjn := hj.lt
  have hdi := le_of_lt (hdst i hin)
  rcases Nat.eq_or_lt_of_le (hi.le hsrc hj hxy) with rfl | hlt
  · exact line_mono (hsrc i hin) hdi hxy
  · calc line src dst i x ≤ dst (i + 1) := line_le (hsrc i hin) hdi (hi.upper (by omega))
      _ ≤ dst j := hdst.le hlt (by omega)
      _ ≤ line src dst j y :=
        le_line (hsrc j hjn) (le_of_lt (hdst j hjn)) (le_of_lt (hj.lower (by omega)))

/-- **There and back again does not end above the start**, within the table. -/
theorem line_line_le (h0 : src 0 ≤ x) (hi : Segment src n i x)
    (hj : Segment dst n j (line src dst i x)) : line dst src j (line src dst i x) ≤ x := by
  have hin := hi.lt
  have hsi := hsrc i hin
  have hdi := hdst i hin
  have hx : src i ≤ x := by
    rcases Nat.eq_zero_or_pos i with rfl | hpos
    · exact h0
    · exact le_of_lt (hi.lower hpos)
  have hy := le_line hsi (le_of_lt hdi) hx
  by_cases hnode : 0 < i ∧ line src dst i x = dst i
  · -- the value is a node, and the way back is in the segment before
    obtain ⟨hpos, heq⟩ := hnode
    have hprev : i - 1 + 1 = i := by omega
    have hseg : Segment dst n (i - 1) (line src dst i x) := by
      refine ⟨by omega, fun hp => ?_, fun _ => ?_⟩
      · rw [heq]
        exact hdst.lt (by omega) (by omega)
      · rw [heq, hprev]
    have hup := line_upper (hdst (i - 1) (by omega)) src
    rw [hprev] at hup
    rw [hj.unique hdst hseg, heq, hup]
    exact hx
  · have hseg : Segment dst n i (line src dst i x) := by
      refine ⟨hin, fun hpos => ?_, fun hlt => line_le hsi (le_of_lt hdi) (hi.upper hlt)⟩
      exact lt_of_le_of_ne hy fun heq => hnode ⟨hpos, heq.symm⟩
    rw [hj.unique hdst hseg]
    have hthere := line_mul_le hsi hx (le_of_lt hdi)
    have hback := line_mul_le hdi hy (le_of_lt hsi)
    have hdpos : 0 < dst (i + 1) - dst i := by omega
    have hmul := le_trans hback hthere
    have hle := le_of_mul_le_mul_right hmul hdpos
    omega

/-- **How far the interpolation can fall below a node**: `c` for each unit, if no segment is
steeper. -/
theorem node_sub_line_le (hslope : ∀ k < n, dst (k + 1) - dst k ≤ c * (src (k + 1) - src k))
    (hi : Segment src n i x) (hj : j ≤ n) (hx : x ≤ src j) :
    dst j - line src dst i x ≤ c * (src j - x) := by
  have hin := hi.lt
  have hsi := hsrc i hin
  have hdi := hdst i hin
  have hpos : 0 < src (i + 1) - src i := by omega
  have hlow := (line_bounds hsi dst x).1
  have hc := hslope i hin
  by_cases hle : i + 1 ≤ j
  · have hxi : x ≤ src (i + 1) := by
      by_cases hlt : i + 1 < n
      · exact hi.upper hlt
      · have heq : j = i + 1 := by omega
        exact heq ▸ hx
    have hrest := Rising.dist_le hslope hle hj
    have hu : (src (i + 1) - x) * (dst (i + 1) - dst i) ≤
        (src (i + 1) - x) * (c * (src (i + 1) - src i)) :=
      mul_le_mul_of_nonneg_left hc (by omega)
    have hone : dst (i + 1) - line src dst i x < c * (src (i + 1) - x) + 1 := by
      refine lt_of_mul_lt_mul_right ?_ (le_of_lt hpos)
      linarith
    linarith
  · -- only the first segment is extended below its node
    have hzero : i = 0 := by
      by_contra hne
      have hlt := hi.lower (by omega)
      have hji := hsrc.le (show j ≤ i by omega) (by omega)
      omega
    subst hzero
    obtain rfl : j = 0 := by omega
    have hu : (src 0 - x) * (dst (0 + 1) - dst 0) ≤ (src 0 - x) * (c * (src (0 + 1) - src 0)) :=
      mul_le_mul_of_nonneg_left hc (by omega)
    have hone : dst 0 - line src dst 0 x < c * (src 0 - x) + 1 := by
      refine lt_of_mul_lt_mul_right ?_ (le_of_lt hpos)
      linarith
    omega

/-- **The interpolation rises** over a distance in which each segment rises. -/
theorem line_lt_line (hslope : ∀ k < n, src (k + 1) - src k ≤ g * (dst (k + 1) - dst k))
    (hi : Segment src n i x) (hj : Segment src n j y) (hxy : x + 2 * g ≤ y) :
    line src dst i x < line src dst j y := by
  have hin := hi.lt
  have hjn := hj.lt
  have hsi := hsrc i hin
  have hdi := hdst i hin
  have hgi := hslope i hin
  have hgpos : 0 < g := by
    by_contra hneg
    have hmul : g * (dst (i + 1) - dst i) ≤ 0 :=
      mul_nonpos_of_nonpos_of_nonneg (by omega) (by omega)
    omega
  have hup := (line_bounds hsi dst x).2
  rcases Nat.eq_or_lt_of_le (hi.le hsrc hj (by omega)) with rfl | hlt
  · have hlow := (line_bounds hsi dst y).1
    have hstep : 2 * g * (dst (i + 1) - dst i) ≤ (y - x) * (dst (i + 1) - dst i) :=
      mul_le_mul_of_nonneg_right (by omega) (by omega)
    refine lt_of_mul_lt_mul_right (a := src (i + 1) - src i) ?_ (by omega)
    linarith
  · by_contra hge
    have hsj := hsrc j hjn
    have hdj := hdst j hjn
    have hle : line src dst i x ≤ dst (i + 1) := line_le hsi (le_of_lt hdi) (hi.upper (by omega))
    have hle' : dst j ≤ line src dst j y :=
      le_line hsj (le_of_lt hdj) (le_of_lt (hj.lower (by omega)))
    have hnode := hdst.le hlt (by omega)
    -- both values are the node between the two segments
    have hnext : i + 1 = j := by
      by_contra hne
      have hstrict := hdst.lt (show i + 1 < j by omega) (by omega)
      omega
    subst hnext
    have hx : line src dst i x = dst (i + 1) := by omega
    have hy : line src dst (i + 1) y = dst (i + 1) := by omega
    have hgj := hslope (i + 1) hjn
    have hlow := (line_bounds hsj dst y).1
    rw [hx] at hup
    rw [hy, sub_self, zero_mul] at hlow
    have hleft : src (i + 1) - x < g := by
      refine lt_of_mul_lt_mul_right (a := dst (i + 1) - dst i) ?_ (by omega)
      linarith
    have hright : y - src (i + 1) < g := by
      refine lt_of_mul_lt_mul_right (a := dst (i + 1 + 1) - dst (i + 1)) ?_ (by omega)
      linarith
    omega

end Segments

end Interpolation
