import Mathlib

/-!
# Rounded quotients

Two ways in which integer code replaces a ratio by a whole number.

A quotient can be rounded to the nearest number, by adding half of the divisor.  It is off by at
most a half.

A time can be counted in periods of a clock that are themselves truncated: with `unit` for a second,
`unit / hz` for a period, and `d / (unit / hz)` for the count.  The error of the period adds up over
the count, so it is not a fixed number of periods; `abs_ticks_sub_le_iff` says when it is one at
most.
-/

namespace Rounding

variable {a b n unit hz d : ℕ}

/-! ## The nearest number -/

/-- A quotient rounded to the nearest number, halves upwards. -/
def roundDiv (a b : ℕ) : ℕ := (a + b / 2) / b

theorem roundDiv_lt_iff (hb : 0 < b) : roundDiv a b < n ↔ a + b / 2 < n * b :=
  Nat.div_lt_iff_lt_mul hb

theorem roundDiv_pos_iff (hb : 0 < b) : 0 < roundDiv a b ↔ b ≤ a + b / 2 :=
  Nat.div_pos_iff.trans (and_iff_right hb)

/-- **The rounded quotient** is off by at most a half. -/
theorem abs_roundDiv_sub_le (hb : 0 < b) : |(roundDiv a b : ℚ) * b - a| ≤ b / 2 := by
  have hdiv : b * roundDiv a b + (a + b / 2) % b = a + b / 2 := Nat.div_add_mod _ _
  have hmod : (a + b / 2) % b < b := Nat.mod_lt _ hb
  generalize roundDiv a b = q at hdiv
  generalize hp : b * q = p at hdiv
  have hlow : 2 * a ≤ 2 * p + b := by omega
  have hhigh : 2 * p ≤ 2 * a + b := by omega
  have hprod : (q : ℚ) * b = p := by
    rw [← hp]
    push_cast
    ring
  have hlow' : (2 * a : ℚ) ≤ 2 * p + b := by exact_mod_cast hlow
  have hhigh' : (2 * p : ℚ) ≤ 2 * a + b := by exact_mod_cast hhigh
  rw [hprod, abs_le]
  constructor <;> linarith

/-! ## Truncated periods -/

/-- A time in truncated periods of a clock. -/
def ticks (unit hz d : ℕ) : ℕ := d / (unit / hz)

/-- What was cut off the period, over all periods of the count, is at most a second over the clock
and what was cut off the count. -/
def TicksClose (unit hz d : ℕ) : Prop :=
  ticks unit hz d * (unit % hz) ≤ unit + d % (unit / hz) * hz
  deriving Decidable

/-- The error of a count, in units of the product of both rates. -/
theorem ticks_error (unit hz d : ℕ) :
    (ticks unit hz d : ℚ) * unit - d * hz =
      ticks unit hz d * (unit % hz : ℕ) - (d % (unit / hz) : ℕ) * hz := by
  have hunit : ((hz * (unit / hz) + unit % hz : ℕ) : ℚ) = unit := by rw [Nat.div_add_mod]
  have hd : ((unit / hz * ticks unit hz d + d % (unit / hz) : ℕ) : ℚ) = d := by
    rw [ticks, Nat.div_add_mod]
  push_cast at hunit hd
  generalize hc : ((ticks unit hz d : ℕ) : ℚ) = c at hd ⊢
  rw [← hunit, ← hd]
  ring

/-- **The count** is within a period of the time exactly if the cuts of the period do not add up to
more. -/
theorem abs_ticks_sub_le_iff (hhz : 0 < hz) (hle : hz ≤ unit) :
    |(ticks unit hz d : ℚ) / hz - d / unit| ≤ 1 / hz ↔ TicksClose unit hz d := by
  have hq : 0 < unit / hz := Nat.div_pos hle hhz
  have hcut : d % (unit / hz) * hz ≤ unit :=
    (Nat.mul_le_mul_right hz (Nat.mod_lt d hq).le).trans (Nat.div_mul_le_self unit hz)
  have hhz' : (0 : ℚ) < hz := by exact_mod_cast hhz
  have hunit' : (0 : ℚ) < unit := by exact_mod_cast hhz.trans_le hle
  have hform : (ticks unit hz d : ℚ) / hz - d / unit =
      ((ticks unit hz d : ℚ) * unit - d * hz) / (hz * unit) := by
    field_simp
  have hone : (1 : ℚ) / hz = unit / (hz * unit) := by
    field_simp
  rw [hform, hone, abs_div, abs_of_pos (mul_pos hhz' hunit'),
    div_le_div_iff_of_pos_right (mul_pos hhz' hunit'), ticks_error, abs_le]
  have hcut' : ((d % (unit / hz) : ℕ) : ℚ) * hz ≤ unit := by exact_mod_cast hcut
  have hpos : (0 : ℚ) ≤ (ticks unit hz d : ℚ) * (unit % hz : ℕ) := by positivity
  have hiff : TicksClose unit hz d ↔
      (ticks unit hz d : ℚ) * (unit % hz : ℕ) ≤ unit + (d % (unit / hz) : ℕ) * hz := by
    rw [TicksClose]
    exact_mod_cast Iff.rfl
  rw [hiff]
  constructor
  · rintro ⟨-, hhigh⟩
    linarith
  · intro hhigh
    constructor <;> linarith

end Rounding
