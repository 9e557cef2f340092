import Mathlib

/-!
# The Gregorian calendar

A month is counted from January of the year 0: the month `k` is month `k % 12`, from 0 on, of
the year `k / 12`.  Days are counted in the same way, so that a month has a first day and a
length, and the first days are a running sum of the lengths.  All that is to be known about the
order of dates follows from that.
-/

namespace Calendar

def IsLeap (y : Int) : Prop := y % 4 = 0 ∧ y % 100 ≠ 0 ∨ y % 400 = 0
  deriving Decidable

/-- The number of days of a month. -/
def monthLen (k : Int) : Int :=
  if k % 12 = 1 then if IsLeap (k / 12) then 29 else 28
  else if k % 12 = 3 ∨ k % 12 = 5 ∨ k % 12 = 8 ∨ k % 12 = 10 then 30
  else 31

/-- The days before the year `y`. -/
def yearStart (y : Int) : Int := 365 * y + (y + 3) / 4 - (y + 99) / 100 + (y + 399) / 400

/-- The days before the month `k`. -/
def monthStart (k : Int) : Int :=
  yearStart (k / 12) + (367 * (k % 12) + 5) / 12 -
    (if k % 12 ≤ 1 then 0 else if IsLeap (k / 12) then 1 else 2)

/-- A date: a month and a day of it. -/
def IsDate (k d : Int) : Prop := 1 ≤ d ∧ d ≤ monthLen k
  deriving Decidable

def dayNumber (k d : Int) : Int := monthStart k + d

theorem monthLen_bounds (k : Int) : 28 ≤ monthLen k ∧ monthLen k ≤ 31 := by
  unfold monthLen
  repeat' split
  all_goals decide

theorem monthLen_february {k : Int} (hk : k % 12 = 1) :
    IsLeap (k / 12) ∧ monthLen k = 29 ∨ ¬IsLeap (k / 12) ∧ monthLen k = 28 := by
  unfold monthLen
  rw [if_pos hk]
  split
  next h => exact Or.inl ⟨h, rfl⟩
  next h => exact Or.inr ⟨h, rfl⟩

theorem yearStart_succ (y : Int) :
    yearStart (y + 1) = yearStart y + if IsLeap y then 366 else 365 := by
  by_cases hleap : IsLeap y
  · rw [if_pos hleap]
    unfold yearStart IsLeap at *
    omega
  · rw [if_neg hleap]
    unfold yearStart IsLeap at *
    omega

/-- **A month starts where the one before ends.** -/
theorem monthStart_succ (k : Int) : monthStart (k + 1) = monthStart k + monthLen k := by
  have hyear := yearStart_succ (k / 12)
  have hlo := Int.emod_nonneg k (by decide : (12 : Int) ≠ 0)
  have hhi := Int.emod_lt_of_pos k (by decide : (0 : Int) < 12)
  rcases Int.lt_or_le (k % 12) 11 with hlt | hge
  · have hdiv : (k + 1) / 12 = k / 12 := by omega
    have hmod : (k + 1) % 12 = k % 12 + 1 := by omega
    unfold monthStart monthLen
    rw [hdiv, hmod]
    generalize k % 12 = m at *
    by_cases hleap : IsLeap (k / 12)
    · interval_cases m <;> simp [hleap] <;> omega
    · interval_cases m <;> simp [hleap] <;> omega
  · have hdiv : (k + 1) / 12 = k / 12 + 1 := by omega
    have hmod : (k + 1) % 12 = 0 := by omega
    have hlast : k % 12 = 11 := by omega
    unfold monthStart monthLen
    rw [hdiv, hmod, hlast, hyear]
    by_cases hleap : IsLeap (k / 12)
    · simp [hleap]
      omega
    · simp [hleap]
      omega

theorem monthStart_strictMono : StrictMono monthStart := by
  refine strictMono_int_of_lt_succ fun k => ?_
  have hlen := monthLen_bounds k
  have hsucc := monthStart_succ k
  omega

variable {k k' d d' : Int}

/-- A date of an earlier month is earlier. -/
theorem dayNumber_lt_of_lt (hd : d ≤ monthLen k) (hd' : 1 ≤ d') (h : k < k') :
    dayNumber k d < dayNumber k' d' := by
  have hstart := monthStart_strictMono.monotone (Int.add_one_le_iff.mpr h)
  have hsucc := monthStart_succ k
  unfold dayNumber
  omega

/-- **The order of dates** is that of their months, and in a month that of the days. -/
theorem dayNumber_lt_iff (h : IsDate k d) (h' : IsDate k' d') :
    dayNumber k d < dayNumber k' d' ↔ k < k' ∨ k = k' ∧ d < d' := by
  rcases Int.lt_trichotomy k k' with hlt | rfl | hgt
  · exact iff_of_true (dayNumber_lt_of_lt h.2 h'.1 hlt) (Or.inl hlt)
  · unfold dayNumber
    omega
  · have hback := dayNumber_lt_of_lt h'.2 h.1 hgt
    omega

theorem dayNumber_inj (h : IsDate k d) (h' : IsDate k' d') :
    dayNumber k d = dayNumber k' d' ↔ k = k' ∧ d = d' := by
  have hlt := dayNumber_lt_iff h h'
  have hgt := dayNumber_lt_iff h' h
  omega

def nextDay (k d : Int) : Int × Int := if d < monthLen k then (k, d + 1) else (k + 1, 1)

theorem nextDay_isDate (h : IsDate k d) : IsDate (nextDay k d).1 (nextDay k d).2 := by
  unfold nextDay IsDate at *
  have hlen := monthLen_bounds (k + 1)
  split <;> simp only <;> omega

theorem dayNumber_nextDay (h : IsDate k d) :
    dayNumber (nextDay k d).1 (nextDay k d).2 = dayNumber k d + 1 := by
  unfold nextDay dayNumber IsDate at *
  have hsucc := monthStart_succ k
  split <;> simp only <;> omega

/-- The date a number of days after one. -/
def dateAfter (k d : Int) : Nat → Int × Int
  | 0 => (k, d)
  | n + 1 => nextDay (dateAfter k d n).1 (dateAfter k d n).2

theorem dateAfter_spec (h : IsDate k d) (n : Nat) :
    IsDate (dateAfter k d n).1 (dateAfter k d n).2 ∧
      dayNumber (dateAfter k d n).1 (dateAfter k d n).2 = dayNumber k d + n := by
  induction n with
  | zero => exact ⟨h, (Int.add_zero _).symm⟩
  | succ n ih =>
    obtain ⟨hdate, hday⟩ := ih
    refine ⟨nextDay_isDate hdate, ?_⟩
    rw [dateAfter, dayNumber_nextDay hdate, hday]
    omega

/-- A leap year comes within eight years. -/
theorem exists_isLeap (y : Int) : ∃ n : Nat, 1 ≤ n ∧ n ≤ 8 ∧ IsLeap (y + n) := by
  unfold IsLeap
  rcases (by omega : (y % 4 = 0 ∨ y % 4 = 1 ∨ y % 4 = 2 ∨ y % 4 = 3)) with h | h | h | h
  · by_cases hc : (y + 4) % 100 = 0
    · exact ⟨8, by decide, by decide, by omega⟩
    · exact ⟨4, by decide, by decide, by omega⟩
  · by_cases hc : (y + 3) % 100 = 0
    · exact ⟨7, by decide, by decide, by omega⟩
    · exact ⟨3, by decide, by decide, by omega⟩
  · by_cases hc : (y + 2) % 100 = 0
    · exact ⟨6, by decide, by decide, by omega⟩
    · exact ⟨2, by decide, by decide, by omega⟩
  · by_cases hc : (y + 1) % 100 = 0
    · exact ⟨5, by decide, by decide, by omega⟩
    · exact ⟨1, by decide, by decide, by omega⟩

theorem monthLen_le_of_isLeap (h : IsLeap (k' / 12)) (hmod : k % 12 = k' % 12) :
    monthLen k ≤ monthLen k' := by
  unfold monthLen
  rw [hmod, if_pos h]
  split
  · split <;> decide
  · exact Int.le_refl _

/-- Only February has a length that depends on the year. -/
theorem monthLen_eq_of_ne (hmod : k % 12 = k' % 12) (hne : k % 12 ≠ 1) :
    monthLen k = monthLen k' := by
  unfold monthLen
  rw [← hmod, if_neg hne, if_neg hne]

/-- The month after one that is too short for a day is long enough for it. -/
theorem le_monthLen_succ (hd : d ≤ 31) (hshort : monthLen k < d) : d ≤ monthLen (k + 1) := by
  have hlong : monthLen (k + 1) = 31 := by
    unfold monthLen at *
    split at hshort
    · rw [if_neg (by omega), if_neg (by omega)]
    · split at hshort
      · rw [if_neg (by omega), if_neg (by omega)]
      · omega
  rw [hlong]
  exact hd

end Calendar
