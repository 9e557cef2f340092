import RealtekIpcam.Lib.Rounding
import RealtekIpcam.Pwm.Attributes

/-!
# The accuracy of the PWM's times

`rtsx_pwm_config` turns nanoseconds into counts of the bus clock.  It takes the period of the clock
in whole nanoseconds first, and divides by that.  What is cut off the period is lost for every
count, so the error grows with the time, and for a clock faster than a gigahertz the period is
nothing at all.

The core keeps unsigned numbers and passes them as signed ones.
-/

namespace RealtekIpcam.Pwm

open Rounding

/-! ## The function, for any clock -/

/-- An `unsigned int` passed as an `int`. -/
def passedInt (x : Nat) : Int := (x : Int).bmod (2 ^ 32)

/-- The counts of `rtsx_pwm_config`: `high` and `total`, if `tin_ns` can be divided by. -/
def counts (hz : Nat) (dutyNs periodNs : Int) : Option (Nat × Nat) :=
  let tinNs := nsInHz / hz
  if tinNs = 0 then none else some (Words.u32 dutyNs / tinNs, Words.u32 periodNs / tinNs)

/-- `rtsx_pwm_config` under a bus clock of any rate, called by the core. -/
def configAt (hz : Nat) (mmio : Mmio) (hwpwm duty period : Nat) : Option (Int × Mmio) :=
  (counts hz (passedInt duty) (passedInt period)).map fun (high, total) =>
    let low := Words.u32 ((total : Int) - high)
    (0, pwmWritel (pwmWritel mmio hwpwm xb2PwmHigh high) hwpwm xb2PwmLow low)

theorem u32_passedInt (x : Nat) : Words.u32 (passedInt x) = Words.u32 x := by
  have hmod : (x : Int).bmod (2 ^ 32) % (2 ^ 32 : Nat) = x % (2 ^ 32 : Nat) := Int.bmod_emod
  unfold Words.u32 passedInt
  omega

theorem configAt_busclk (busclk : Busclk) (mmio : Mmio) (hwpwm duty period : Nat) :
    configAt busclk.hz mmio hwpwm duty period =
      some (rtsxPwmConfig busclk mmio hwpwm duty period) := by
  have htin : nsInHz / busclk.hz ≠ 0 := (Nat.div_pos busclk.le busclk.pos).ne'
  simp only [configAt, counts, if_neg htin, Option.map_some, u32_passedInt]
  rfl

/-! ## What is asked of it -/

def highReg (mmio : Mmio) (hwpwm : Nat) : Nat := mmio (pwmReg hwpwm xb2PwmHigh)
def lowReg (mmio : Mmio) (hwpwm : Nat) : Nat := mmio (pwmReg hwpwm xb2PwmLow)

/-- **The programmed times are accurate**: there is no division by zero, no number changes its value
when it is passed or subtracted, and the high time and the period differ from those that were
requested by at most a period of the clock. -/
structure Accurate (hz : Nat) (mmio : Mmio) (hwpwm duty period : Nat) : Prop where
  passed : passedInt duty = duty ∧ passedInt period = period
  runs : ∃ high total mmio', counts hz (passedInt duty) (passedInt period) = some (high, total) ∧
    high ≤ total ∧ configAt hz mmio hwpwm duty period = some (0, mmio') ∧
    |(highReg mmio' hwpwm : ℚ) / hz - duty / nsInHz| ≤ 1 / hz ∧
    |((highReg mmio' hwpwm + lowReg mmio' hwpwm : Nat) : ℚ) / hz - period / nsInHz| ≤ 1 / hz

/-- The clock has a period in nanoseconds, the period of the signal fits in 31 bits, and for neither
time do the fractions of a nanosecond that the clock's period loses add up to more than a second
over the clock. -/
structure AccurateFor (hz duty period : Nat) : Prop where
  slow : hz ≤ nsInHz
  signed : period < 2 ^ 31
  duty : TicksClose nsInHz hz duty
  period : TicksClose nsInHz hz period

variable {hz hwpwm duty period : Nat} {mmio : Mmio}

theorem passedInt_eq_iff {x : Nat} (hx : x < 2 ^ 32) : passedInt x = x ↔ x < 2 ^ 31 := by
  have hlt : (x : Int).bmod (2 ^ 32) < ((2 ^ 32 : Nat) + 1) / 2 :=
    Int.bmod_lt (Nat.two_pow_pos 32)
  unfold passedInt
  constructor
  · intro h
    omega
  · intro h
    exact Int.bmod_eq_of_le_mul_two (by omega) (by omega)

theorem highReg_pwmWritel (m : Mmio) (high low : Nat) :
    highReg (pwmWritel (pwmWritel m hwpwm xb2PwmHigh high) hwpwm xb2PwmLow low) hwpwm = high := by
  simp [highReg, pwmWritel, pwmReg, xb2PwmHigh, xb2PwmLow]

theorem lowReg_pwmWritel (m : Mmio) (low : Nat) :
    lowReg (pwmWritel m hwpwm xb2PwmLow low) hwpwm = low :=
  Function.update_self ..

theorem counts_eq (hz : Nat) (hduty : duty < 2 ^ 32) (hperiod : period < 2 ^ 32) :
    counts hz (passedInt duty) (passedInt period) =
      if nsInHz / hz = 0 then none else some (ticks nsInHz hz duty, ticks nsInHz hz period) := by
  have hd : Words.u32 duty = duty := Words.u32_eq (by omega) (by omega)
  have hp : Words.u32 period = period := Words.u32_eq (by omega) (by omega)
  simp only [counts, u32_passedInt, hd, hp]
  rfl

theorem regs_of_counts (mmio : Mmio) (hwpwm : Nat) (hduty : duty ≤ period)
    (hperiod : period < 2 ^ 32) (htin : nsInHz / hz ≠ 0) :
    ∃ mmio', configAt hz mmio hwpwm duty period = some (0, mmio') ∧
      highReg mmio' hwpwm = ticks nsInHz hz duty ∧
      highReg mmio' hwpwm + lowReg mmio' hwpwm = ticks nsInHz hz period := by
  have hle : ticks nsInHz hz duty ≤ ticks nsInHz hz period := Nat.div_le_div_right hduty
  have hlt : ticks nsInHz hz period < 2 ^ 32 := (Nat.div_le_self _ _).trans_lt hperiod
  let low := Words.u32 ((ticks nsInHz hz period : Int) - ticks nsInHz hz duty)
  refine ⟨pwmWritel (pwmWritel mmio hwpwm xb2PwmHigh (ticks nsInHz hz duty)) hwpwm xb2PwmLow low,
    ?_, highReg_pwmWritel .., ?_⟩
  · rw [configAt, counts_eq hz (hduty.trans_lt hperiod) hperiod, if_neg htin]
    rfl
  · have hlow : low = ((ticks nsInHz hz period : Int) - ticks nsInHz hz duty).toNat :=
      Words.u32_eq (by omega) (by omega)
    rw [highReg_pwmWritel, lowReg_pwmWritel, hlow]
    omega

/-- **The accuracy of `rtsx_pwm_config`**, for every clock and every duty and period that the core
passes on. -/
theorem accurate_iff (hz : Nat) (mmio : Mmio) (hwpwm : Nat) {duty period : Nat} (hhz : 0 < hz)
    (hduty : duty ≤ period) (hperiod : period < 2 ^ 32) :
    Accurate hz mmio hwpwm duty period ↔ AccurateFor hz duty period := by
  have hcounts := counts_eq hz (hduty.trans_lt hperiod) hperiod
  constructor
  · rintro ⟨⟨-, hpassed⟩, high, total, mmio', hsome, -, hconfig, hhigh, htotal⟩
    have htin : nsInHz / hz ≠ 0 := by
      intro hzero
      rw [hcounts, if_pos hzero] at hsome
      cases hsome
    have hslow : hz ≤ nsInHz := Nat.le_of_not_lt fun hlt => htin (Nat.div_eq_of_lt hlt)
    obtain ⟨mmio'', hcall, hregHigh, hregTotal⟩ :=
      regs_of_counts mmio hwpwm hduty hperiod htin
    obtain rfl : mmio'' = mmio' := by
      rw [hcall] at hconfig
      exact (Prod.mk.inj (Option.some.inj hconfig)).2
    rw [hregHigh] at hhigh
    rw [hregTotal] at htotal
    exact ⟨hslow, (passedInt_eq_iff hperiod).mp hpassed, (abs_ticks_sub_le_iff hhz hslow).mp hhigh,
      (abs_ticks_sub_le_iff hhz hslow).mp htotal⟩
  · rintro ⟨hslow, hsigned, hcloseDuty, hclosePeriod⟩
    have htin : nsInHz / hz ≠ 0 := (Nat.div_pos hslow hhz).ne'
    obtain ⟨mmio', hcall, hregHigh, hregTotal⟩ :=
      regs_of_counts mmio hwpwm hduty hperiod htin
    refine ⟨⟨(passedInt_eq_iff (hduty.trans_lt hperiod)).mpr (hduty.trans_lt hsigned),
      (passedInt_eq_iff hperiod).mpr hsigned⟩, _, _, mmio', hcounts.trans (if_neg htin),
      Nat.div_le_div_right hduty, hcall, ?_, ?_⟩
    · rw [hregHigh]
      exact (abs_ticks_sub_le_iff hhz hslow).mpr hcloseDuty
    · rw [hregTotal]
      exact (abs_ticks_sub_le_iff hhz hslow).mpr hclosePeriod

/-- At 100 MHz nothing is cut off. -/
theorem accurate_exactClock : Accurate 100000000 (fun _ => 0) 0 500000 1000000 :=
  (accurate_iff 100000000 (fun _ => 0) 0 (by decide) (by decide) (by decide)).mpr
    ⟨by decide, by decide, by decide, by decide⟩

/-- At 60 MHz a period of the clock is taken for 16 ns instead of 16 and two thirds, and the half
of a millisecond is 1250 periods too long. -/
theorem not_accurate_sixtyMegahertz : ¬ Accurate 60000000 (fun _ => 0) 0 500000 1000000 := by
  rintro ⟨-, high, total, mmio', -, -, hconfig, hhigh, -⟩
  obtain rfl : pwmWritel (pwmWritel (fun _ => 0) 0 xb2PwmHigh 31250) 0 xb2PwmLow 31250 = mmio' := by
    rw [show configAt 60000000 (fun _ => 0) 0 500000 1000000 = _ from rfl] at hconfig
    exact (Prod.mk.inj (Option.some.inj hconfig)).2
  rw [highReg_pwmWritel] at hhigh
  norm_num [nsInHz, abs_le] at hhigh

end RealtekIpcam.Pwm
