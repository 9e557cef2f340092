import Mathlib.Algebra.Order.Ring.Nat
import RealtekIpcam.I2c.Hardware

/-!
# The counts of the SCL clock

`i2c_dw_set_timings_master` computes how many cycles of the input clock SCL stays high and low.
The comments of `i2c_dw_scl_hcnt` and `i2c_dw_scl_lcnt` say what a count has to satisfy: with
the offset of the controller, 3 or 1, it covers the time that the bus asks for and the time that
the line takes to fall.  A clock in kHz times a time in nanoseconds is in millionths of a cycle.

The product is formed in 32 bits and rounded to the nearest number of cycles, so it can come out
below.  The offset is taken off without a look at what is left, and the result is kept in 16
bits.
-/

namespace RealtekIpcam.I2c

/-! ## The source -/

/-- `u16`. -/
abbrev Half := BitVec 16

/-- `HCNT` and `LCNT` of one speed. -/
structure SclCounts where
  hcnt : Half
  lcnt : Half
  deriving DecidableEq

/-- Neither of the two is zero, which stands for one that is not used. -/
def SclCounts.isSet (c : SclCounts) : Bool := c.hcnt ≠ 0 && c.lcnt ≠ 0

theorem SclCounts.isSet_eq_false_iff (c : SclCounts) :
    c.isSet = false ↔ c.hcnt.toNat = 0 ∨ c.lcnt.toNat = 0 := by
  simp [SclCounts.isSet, ← BitVec.toNat_inj, or_iff_not_imp_left]

/-- `struct dw_i2c_dev`, as far as the timings are concerned.  `setSdaHoldTime` is whether there
is such a callback; it writes registers of its own and none of these fields. -/
structure TimingDev where
  busFreqHz : Word
  sdaFallNs : Word
  sclFallNs : Word
  sdaHoldTime : Word
  ss : SclCounts
  fs : SclCounts
  fp : SclCounts
  hs : SclCounts
  masterCfg : Word
  getClkRateKhz : Option Word
  setSdaHoldTime : Bool
  deriving DecidableEq

/-- What the bus lock and the registers answer: `i2c_dw_acquire_lock` the first and the second
time, and reads of `DW_IC_COMP_PARAM_1`, `DW_IC_COMP_VERSION` and `DW_IC_SDA_HOLD`. -/
structure TimingRegs where
  acquireLock : Int
  compParam1 : Except Int Word
  acquireLockHold : Int
  compVersion : Except Int Word
  sdaHold : Except Int Word

/-- `DW_IC_CON_SPEED_FAST`, `_HIGH` and `_MASK`; the last two are the same. -/
def speedFast : Word := 0x4
def speedMask : Word := 0x6

/-- `DW_IC_COMP_PARAM_1_SPEED_MODE_MASK`, which is also the value for high speed. -/
def compParam1SpeedModeMask : Word := 0xc

/-- `DW_IC_SDA_HOLD_MIN_VERS`. -/
def sdaHoldMinVers : Word := 0x3131312a

/-- `DW_IC_SDA_HOLD_RX_MASK`. -/
def sdaHoldRxMask : Word := 0xff0000

/-- `I2C_MAX_FAST_MODE_FREQ` and `I2C_MAX_FAST_MODE_PLUS_FREQ`. -/
def maxFastModeFreq : Word := 400000
def maxFastModePlusFreq : Word := 1000000

def i2cDwSclHcnt (icClk tSymbol tf : Word) (cond : Bool) (offset : Int) : Word :=
  if cond then (icClk * tSymbol + 500000) / 1000000 - 8 + BitVec.ofInt 32 offset
  else (icClk * (tSymbol + tf) + 500000) / 1000000 - 3 + BitVec.ofInt 32 offset

def i2cDwSclLcnt (icClk tLow tf : Word) (offset : Int) : Word :=
  (icClk * (tLow + tf) + 500000) / 1000000 - 1 + BitVec.ofInt 32 offset

namespace TimingDev

variable (dev : TimingDev)

def i2cDwClkRate : Word := dev.getClkRateKhz.getD 0

/-- The fall times, 300 ns where nothing is said. -/
def sdaFallingTime : Word := if dev.sdaFallNs = 0 then 300 else dev.sdaFallNs
def sclFallingTime : Word := if dev.sclFallNs = 0 then 300 else dev.sclFallNs

/-- The two counts from the times of a speed, as they are assigned to `u16` fields. -/
def sclCounts (tHigh tLow : Word) : SclCounts where
  hcnt := (i2cDwSclHcnt dev.i2cDwClkRate tHigh dev.sdaFallingTime false 0).setWidth 16
  lcnt := (i2cDwSclLcnt dev.i2cDwClkRate tLow dev.sclFallingTime 0).setWidth 16

/-- The standard mode in `i2c_dw_set_timings_master`: 4.0 and 4.7 us. -/
def setStandard : TimingDev :=
  if !dev.ss.isSet then { dev with ss := dev.sclCounts 4000 4700 } else dev

/-- Fast mode plus: 260 and 500 ns, unless the counts are given. -/
def setFastPlus : TimingDev :=
  if dev.busFreqHz = maxFastModePlusFreq then
    { dev with fs := if dev.fp.isSet then dev.fp else dev.sclCounts 260 500 }
  else dev

/-- Fast mode: 0.6 and 1.3 us. -/
def setFast : TimingDev :=
  if !dev.fs.isSet then { dev with fs := dev.sclCounts 600 1300 } else dev

/-- High speed: 160 and 320 ns, or back to fast mode. -/
def setHigh (compParam1 : Word) : TimingDev :=
  if dev.masterCfg &&& speedMask = speedMask then
    if compParam1 &&& compParam1SpeedModeMask ≠ compParam1SpeedModeMask then
      { dev with
        busFreqHz := maxFastModeFreq
        masterCfg := (dev.masterCfg &&& ~~~speedMask) ||| speedFast
        hs := ⟨0, 0⟩ }
    else if !dev.hs.isSet then { dev with hs := dev.sclCounts 160 320 }
    else dev
  else dev

/-- `i2c_dw_set_sda_hold`, once the lock is held. -/
def setSdaHoldLocked (regs : TimingRegs) : Int × TimingDev :=
  match regs.compVersion with
  | .error ret => (ret, dev)
  | .ok reg =>
    if sdaHoldMinVers ≤ reg then
      match if dev.sdaHoldTime = 0 then regs.sdaHold else .ok dev.sdaHoldTime with
      | .error ret => (ret, dev)
      | .ok hold =>
        (0, { dev with
          sdaHoldTime := if hold &&& sdaHoldRxMask = 0 then hold ||| 1 <<< 16 else hold })
    else if dev.setSdaHoldTime then (0, dev)
    else if dev.sdaHoldTime ≠ 0 then (0, { dev with sdaHoldTime := 0 })
    else (0, dev)

def i2cDwSetSdaHold (regs : TimingRegs) : Int × TimingDev :=
  if regs.acquireLockHold ≠ 0 then (regs.acquireLockHold, dev) else dev.setSdaHoldLocked regs

def i2cDwSetTimingsMaster (regs : TimingRegs) : Int × TimingDev :=
  if regs.acquireLock ≠ 0 then (regs.acquireLock, dev)
  else
    match regs.compParam1 with
    | .error ret => (ret, dev)
    | .ok compParam1 =>
      (dev.setStandard.setFastPlus.setFast.setHigh compParam1).i2cDwSetSdaHold regs

end TimingDev

/-! ## What a count has to be -/

section Count

variable (icClk t tf k : Nat)

/-- The product of a clock and the time it has to cover, in millionths of a cycle. -/
def sclProduct : Nat := icClk * (t + tf)

/-- What is asked of a count with the offset `k` of the controller: with it, it covers the time,
and it is the rounded product less the offset, as in unbounded arithmetic. -/
structure CountMet (count : Half) : Prop where
  exact : count.toNat + k = (sclProduct icClk t tf + 500000) / 1000000
  bound : sclProduct icClk t tf ≤ (count.toNat + k) * 1000000

/-- The product fits in 32 bits with the half cycle that is added to it, rounds to no less than
the offset, and is not rounded down. -/
@[mk_iff]
structure CountFits : Prop where
  fits : sclProduct icClk t tf + 500000 < 2 ^ 32
  covers : k * 1000000 ≤ sclProduct icClk t tf + 500000
  notBelow : 1000000 ∣ sclProduct icClk t tf ∨ 500000 ≤ sclProduct icClk t tf % 1000000

instance : Decidable (CountFits icClk t tf k) :=
  decidable_of_iff _ (countFits_iff icClk t tf k).symm

end Count

theorem le_rounded_iff (x : Nat) :
    x ≤ (x + 500000) / 1000000 * 1000000 ↔ 1000000 ∣ x ∨ 500000 ≤ x % 1000000 := by
  omega

theorem exact_iff {x k : Nat} (hx : x < 2 ^ 33 - 500000) (hk : k ≤ 3) :
    ((x + 500000) % 2 ^ 32 / 1000000 + (2 ^ 32 - k)) % 2 ^ 32 % 2 ^ 16 + k
        = (x + 500000) / 1000000 ↔
      x + 500000 < 2 ^ 32 ∧ k * 1000000 ≤ x + 500000 := by
  omega

theorem countMet_iff {icClk t tf k : Nat} {count : Half} (hk : k ≤ 3)
    (hx : sclProduct icClk t tf < 2 ^ 33 - 500000)
    (hcount : count.toNat =
      ((sclProduct icClk t tf + 500000) % 2 ^ 32 / 1000000 + (2 ^ 32 - k)) % 2 ^ 32 % 2 ^ 16) :
    CountMet icClk t tf k count ↔ CountFits icClk t tf k := by
  have hexact := exact_iff hx hk
  rw [← hcount] at hexact
  have hround := le_rounded_iff (sclProduct icClk t tf)
  constructor
  · intro h
    obtain ⟨hfits, hcovers⟩ := hexact.mp h.exact
    exact ⟨hfits, hcovers, hround.mp (h.exact ▸ h.bound)⟩
  · intro h
    have hval := hexact.mpr ⟨h.fits, h.covers⟩
    exact ⟨hval, hval ▸ hround.mpr h.notBelow⟩

theorem toNat_rounded (icClk time tf : Word) (htime : time.toNat + tf.toNat < 2 ^ 32) :
    ((icClk * (time + tf) + 500000) / 1000000).toNat =
      (sclProduct icClk.toNat time.toNat tf.toNat + 500000) % 2 ^ 32 / 1000000 := by
  rw [BitVec.toNat_udiv, BitVec.toNat_add, BitVec.toNat_mul, BitVec.toNat_add,
    Nat.mod_eq_of_lt htime, Nat.mod_add_mod]
  rfl

theorem toNat_count (x : Word) {k : Nat} (hk : k < 2 ^ 32) :
    ((x - BitVec.ofNat 32 k + BitVec.ofInt 32 0).setWidth 16).toNat =
      (x.toNat + (2 ^ 32 - k)) % 2 ^ 32 % 2 ^ 16 := by
  rw [show BitVec.ofInt 32 0 = 0#32 from rfl, BitVec.add_zero, BitVec.toNat_setWidth,
    BitVec.toNat_sub, BitVec.toNat_ofNat, Nat.mod_eq_of_lt hk, Nat.add_comm]

theorem toNat_hcnt (icClk tSymbol tf : Word) (htime : tSymbol.toNat + tf.toNat < 2 ^ 32) :
    ((i2cDwSclHcnt icClk tSymbol tf false 0).setWidth 16).toNat =
      ((sclProduct icClk.toNat tSymbol.toNat tf.toNat + 500000) % 2 ^ 32 / 1000000
        + (2 ^ 32 - 3)) % 2 ^ 32 % 2 ^ 16 := by
  rw [← toNat_rounded icClk tSymbol tf htime]
  exact toNat_count _ (by decide)

theorem toNat_lcnt (icClk tLow tf : Word) (htime : tLow.toNat + tf.toNat < 2 ^ 32) :
    ((i2cDwSclLcnt icClk tLow tf 0).setWidth 16).toNat =
      ((sclProduct icClk.toNat tLow.toNat tf.toNat + 500000) % 2 ^ 32 / 1000000
        + (2 ^ 32 - 1)) % 2 ^ 32 % 2 ^ 16 := by
  rw [← toNat_rounded icClk tLow tf htime]
  exact toNat_count _ (by decide)

/-! ## The two speeds -/

namespace TimingDev

variable (dev : TimingDev)

/-- Both counts of a speed are met. -/
structure CountsMet (tHigh tLow : Word) (c : SclCounts) : Prop where
  hcnt : CountMet dev.i2cDwClkRate.toNat tHigh.toNat dev.sdaFallingTime.toNat 3 c.hcnt
  lcnt : CountMet dev.i2cDwClkRate.toNat tLow.toNat dev.sclFallingTime.toNat 1 c.lcnt

/-- Both products of a speed fit. -/
@[mk_iff]
structure CountsFit (tHigh tLow : Word) : Prop where
  hcnt : CountFits dev.i2cDwClkRate.toNat tHigh.toNat dev.sdaFallingTime.toNat 3
  lcnt : CountFits dev.i2cDwClkRate.toNat tLow.toNat dev.sclFallingTime.toNat 1

instance (tHigh tLow : Word) : Decidable (dev.CountsFit tHigh tLow) :=
  decidable_of_iff _ (dev.countsFit_iff tHigh tLow).symm

/-- The clock is at most 800 MHz, and the fall times at most 1000 ns. -/
structure InRange : Prop where
  clk : dev.i2cDwClkRate.toNat ≤ 800000
  sda : dev.sdaFallNs.toNat ≤ 1000
  scl : dev.sclFallNs.toNat ≤ 1000

variable {dev}

theorem InRange.sdaFallingTime_le (h : dev.InRange) : dev.sdaFallingTime.toNat ≤ 1000 := by
  have hsda := h.sda
  unfold sdaFallingTime
  split
  · decide
  · exact hsda

theorem InRange.sclFallingTime_le (h : dev.InRange) : dev.sclFallingTime.toNat ≤ 1000 := by
  have hscl := h.scl
  unfold sclFallingTime
  split
  · decide
  · exact hscl

theorem InRange.product_le (h : dev.InRange) {t tf : Nat} (ht : t ≤ 5000) (htf : tf ≤ 1000) :
    sclProduct dev.i2cDwClkRate.toNat t tf < 2 ^ 33 - 500000 := by
  have hle : sclProduct dev.i2cDwClkRate.toNat t tf ≤ 800000 * (5000 + 1000) :=
    Nat.mul_le_mul h.clk (Nat.add_le_add ht htf)
  omega

/-- **The counts of a speed.**  They are met exactly if the two products fit. -/
theorem countsMet_sclCounts_iff (h : dev.InRange) (tHigh tLow : Word)
    (hHigh : tHigh.toNat ≤ 5000) (hLow : tLow.toNat ≤ 5000) :
    dev.CountsMet tHigh tLow (dev.sclCounts tHigh tLow) ↔ dev.CountsFit tHigh tLow := by
  have hsda := h.sdaFallingTime_le
  have hscl := h.sclFallingTime_le
  have hhcnt := countMet_iff (k := 3) (by decide) (h.product_le hHigh hsda)
    (toNat_hcnt dev.i2cDwClkRate tHigh dev.sdaFallingTime (by omega))
  have hlcnt := countMet_iff (k := 1) (by decide) (h.product_le hLow hscl)
    (toNat_lcnt dev.i2cDwClkRate tLow dev.sclFallingTime (by omega))
  constructor
  · intro hmet
    exact ⟨hhcnt.mp hmet.hcnt, hlcnt.mp hmet.lcnt⟩
  · intro hfit
    exact ⟨hhcnt.mpr hfit.hcnt, hlcnt.mpr hfit.lcnt⟩

/-- The counts of fast mode plus come out as one that stands for unset if a product rounds to
just the offset. -/
theorem isSet_plus_iff (h : dev.InRange) :
    (dev.sclCounts 260 500).isSet = false ↔
      (sclProduct dev.i2cDwClkRate.toNat 260 dev.sdaFallingTime.toNat + 500000) / 1000000 = 3 ∨
        (sclProduct dev.i2cDwClkRate.toNat 500 dev.sclFallingTime.toNat + 500000) / 1000000
          = 1 := by
  have hsda := h.sdaFallingTime_le
  have hscl := h.sclFallingTime_le
  have hhigh : sclProduct dev.i2cDwClkRate.toNat 260 dev.sdaFallingTime.toNat
      ≤ 800000 * (260 + 1000) := Nat.mul_le_mul h.clk (by omega)
  have hlow : sclProduct dev.i2cDwClkRate.toNat 500 dev.sclFallingTime.toNat
      ≤ 800000 * (500 + 1000) := Nat.mul_le_mul h.clk (by omega)
  have hhcnt := toNat_hcnt dev.i2cDwClkRate 260 dev.sdaFallingTime (by
    change 260 + _ < _
    omega)
  have hlcnt := toNat_lcnt dev.i2cDwClkRate 500 dev.sclFallingTime (by
    change 500 + _ < _
    omega)
  rw [show (260 : Word).toNat = 260 from rfl] at hhcnt
  rw [show (500 : Word).toNat = 500 from rfl] at hlcnt
  rw [SclCounts.isSet_eq_false_iff]
  unfold sclCounts
  rw [hhcnt, hlcnt]
  omega

/-! ## What is computed -/

section Blocks

variable (dev)

@[simp] theorem ss_setFastPlus : dev.setFastPlus.ss = dev.ss := by
  unfold setFastPlus; split <;> rfl

@[simp] theorem ss_setFast : dev.setFast.ss = dev.ss := by
  unfold setFast; split <;> rfl

theorem counts_setHigh (param : Word) :
    (dev.setHigh param).ss = dev.ss ∧ (dev.setHigh param).fs = dev.fs := by
  unfold setHigh
  repeat' split
  all_goals exact ⟨rfl, rfl⟩

theorem counts_setSdaHold (regs : TimingRegs) :
    (dev.i2cDwSetSdaHold regs).2.ss = dev.ss ∧ (dev.i2cDwSetSdaHold regs).2.fs = dev.fs := by
  unfold i2cDwSetSdaHold setSdaHoldLocked
  repeat' split
  all_goals exact ⟨rfl, rfl⟩

theorem sclCounts_congr {dev dev' : TimingDev} (hclk : dev'.i2cDwClkRate = dev.i2cDwClkRate)
    (hsda : dev'.sdaFallingTime = dev.sdaFallingTime)
    (hscl : dev'.sclFallingTime = dev.sclFallingTime) (tHigh tLow : Word) :
    dev'.sclCounts tHigh tLow = dev.sclCounts tHigh tLow := by
  rw [sclCounts, sclCounts, hclk, hsda, hscl]

@[simp] theorem sclCounts_setStandard (tHigh tLow : Word) :
    dev.setStandard.sclCounts tHigh tLow = dev.sclCounts tHigh tLow := by
  unfold setStandard
  split
  · refine sclCounts_congr ?_ ?_ ?_ tHigh tLow
    · simp only [i2cDwClkRate]
    · simp only [sdaFallingTime]
    · simp only [sclFallingTime]
  · rfl

@[simp] theorem sclCounts_setFastPlus (tHigh tLow : Word) :
    dev.setFastPlus.sclCounts tHigh tLow = dev.sclCounts tHigh tLow := by
  unfold setFastPlus
  split
  · refine sclCounts_congr ?_ ?_ ?_ tHigh tLow
    · simp only [i2cDwClkRate]
    · simp only [sdaFallingTime]
    · simp only [sclFallingTime]
  · rfl

end Blocks

variable (dev)

/-- Fast mode is computed: its counts are not set, or, with fast mode plus, there are no counts
for that and a product of it rounds to just the offset. -/
def FastComputed : Prop :=
  if dev.busFreqHz = maxFastModePlusFreq then
    dev.fp.isSet = false ∧
      ((sclProduct dev.i2cDwClkRate.toNat 260 dev.sdaFallingTime.toNat + 500000) / 1000000 = 3 ∨
        (sclProduct dev.i2cDwClkRate.toNat 500 dev.sclFallingTime.toNat + 500000) / 1000000 = 1)
  else dev.fs.isSet = false

variable {dev}

theorem fastComputed_iff (h : dev.InRange) :
    dev.setStandard.setFastPlus.fs.isSet = false ↔ dev.FastComputed := by
  have hplus := isSet_plus_iff h
  have hkept : dev.setStandard.fs = dev.fs ∧ dev.setStandard.fp = dev.fp ∧
      dev.setStandard.busFreqHz = dev.busFreqHz := by
    unfold setStandard
    split <;> exact ⟨rfl, rfl, rfl⟩
  obtain ⟨hfs, hfp, hfreq⟩ := hkept
  unfold setFastPlus FastComputed
  rw [hfreq]
  split
  · rw [← hplus, hfp]
    cases hset : dev.fp.isSet <;> simp [hset]
  · rw [hfs]

/-- What the code documents, for every count that it computes for standard and fast mode. -/
structure TimingsMet (dev dev' : TimingDev) : Prop where
  ss : dev.ss.isSet = false → dev.CountsMet 4000 4700 dev'.ss
  fs : dev.setStandard.setFastPlus.fs.isSet = false → dev.CountsMet 600 1300 dev'.fs

/-- The products fit that the counts are computed from. -/
structure TimingsFit (dev : TimingDev) : Prop where
  ss : dev.ss.isSet = false → dev.CountsFit 4000 4700
  fs : dev.FastComputed → dev.CountsFit 600 1300

theorem counts_setTimings (dev : TimingDev) (regs : TimingRegs) (hlock : regs.acquireLock = 0)
    {param : Word} (hparam : regs.compParam1 = .ok param) :
    (dev.ss.isSet = false →
        (dev.i2cDwSetTimingsMaster regs).2.ss = dev.sclCounts 4000 4700) ∧
      (dev.setStandard.setFastPlus.fs.isSet = false →
        (dev.i2cDwSetTimingsMaster regs).2.fs = dev.sclCounts 600 1300) := by
  simp only [i2cDwSetTimingsMaster, hlock, hparam, ne_eq, not_true_eq_false, if_false,
    counts_setSdaHold, counts_setHigh, ss_setFast, ss_setFastPlus]
  constructor
  · intro hss
    simp [setStandard, hss]
  · intro hfs
    simp [setFast, hfs]

/-- **The counts of SCL.**  They are what the code documents exactly if the products fit. -/
theorem timings_met_iff (dev : TimingDev) (regs : TimingRegs) (h : dev.InRange)
    (hlock : regs.acquireLock = 0) (param : Word) (hparam : regs.compParam1 = .ok param) :
    TimingsMet dev (dev.i2cDwSetTimingsMaster regs).2 ↔ TimingsFit dev := by
  obtain ⟨hss, hfs⟩ := counts_setTimings dev regs hlock hparam
  have hstandard := countsMet_sclCounts_iff h 4000 4700 (by decide) (by decide)
  have hfast := countsMet_sclCounts_iff h 600 1300 (by decide) (by decide)
  have hused := fastComputed_iff h
  constructor
  · intro hmet
    exact ⟨fun hset => hstandard.mp (hss hset ▸ hmet.ss hset),
      fun hset => hfast.mp (hfs (hused.mpr hset) ▸ hmet.fs (hused.mpr hset))⟩
  · intro hfit
    exact ⟨fun hset => (hss hset).symm ▸ hstandard.mpr (hfit.ss hset),
      fun hset => (hfs hset).symm ▸ hfast.mpr (hfit.fs (hused.mp hset))⟩

/-- A controller with nothing set, at a clock in kHz. -/
def fresh (clk : Word) : TimingDev where
  busFreqHz := maxFastModeFreq
  sdaFallNs := 0
  sclFallNs := 0
  sdaHoldTime := 0
  ss := ⟨0, 0⟩
  fs := ⟨0, 0⟩
  fp := ⟨0, 0⟩
  hs := ⟨0, 0⟩
  masterCfg := 0x65
  getClkRateKhz := some clk
  setSdaHoldTime := false

/-- A controller that answers every read, without a lock. -/
def freshRegs : TimingRegs := ⟨0, .ok 0, 0, .ok sdaHoldMinVers, .ok 1⟩

/-- At 40 MHz all products are whole numbers of cycles. -/
theorem timings_met_fortyMhz :
    TimingsMet (fresh 40000) ((fresh 40000).i2cDwSetTimingsMaster freshRegs).2 :=
  (timings_met_iff (fresh 40000) freshRegs ⟨by decide, by decide, by decide⟩ rfl 0 rfl).mpr
    ⟨fun _ => by decide, fun _ => by decide⟩

/-- At 33.333 MHz a time of 4.3 us takes 143.33 cycles, and the count for SCL high in standard
mode stands for 143. -/
theorem timings_not_met_roundedDown :
    (fresh 33333).InRange ∧ 1000 ≤ (fresh 33333).i2cDwClkRate.toNat ∧
      freshRegs.acquireLock = 0 ∧ freshRegs.compParam1 = .ok 0 ∧
      ¬TimingsMet (fresh 33333) ((fresh 33333).i2cDwSetTimingsMaster freshRegs).2 := by
  refine ⟨⟨by decide, by decide, by decide⟩, by decide, rfl, rfl, fun hmet => ?_⟩
  have hbound := (hmet.ss rfl).hcnt.bound
  revert hbound
  decide

end TimingDev

end RealtekIpcam.I2c
