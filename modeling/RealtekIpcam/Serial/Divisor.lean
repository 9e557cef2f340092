import RealtekIpcam.Lib.Rounding

/-!
# The divisor of the DesignWare UART

The divisor of the clock by sixteen times the baud rate has a fraction of a few bits, which goes
into a register of its own, and an integer part, which goes into the 16-bit divisor latch.
`dw8250_get_divisor` rounds the fraction to the nearest value it can have, which may be a whole one
that is not carried into the integer part.

`serial8250_get_baud_rate` limits the baud rate: the lower limit is truncated, so the integer part
may exceed the latch, and the upper one is a percent above what the clock allows.
-/

namespace RealtekIpcam.Serial

open Rounding

/-! ## The model -/

/-- `struct uart_port` with its `struct dw8250_port_data`, as far as they concern the divisor. -/
structure DwPort where
  uartclk : BitVec 32
  dlfSize : Nat
  magicMultiplier : Bool
  natsemi : Bool
  lcr : BitVec 8
  deriving DecidableEq

/-- The registers that take the divisor. -/
structure DivisorRegs where
  dlf : BitVec 32
  lcr : BitVec 8
  dll : BitVec 8
  dlm : BitVec 8
  deriving DecidableEq

def uartDivMax : BitVec 32 := 0xffff#32

/-- The limits that `serial8250_get_baud_rate` gives to `uart_get_baud_rate`. -/
def serial8250GetBaudRate (p : DwPort) : BitVec 32 × BitVec 32 :=
  let tolerance := p.uartclk / 100#32
  if p.magicMultiplier then
    ((p.uartclk / 16#32 / uartDivMax) >>> 1, (p.uartclk + tolerance) / 4#32)
  else (p.uartclk / 16#32 / uartDivMax, (p.uartclk + tolerance) / 16#32)

/-- `DIV_ROUND_CLOSEST` of unsigned numbers. -/
def divRoundClosest (x divisor : BitVec 32) : BitVec 32 := (x + divisor / 2#32) / divisor

/-- `dw8250_get_divisor`: the integer part, and the fraction. -/
def dw8250GetDivisor (p : DwPort) (baud : BitVec 32) : BitVec 32 × BitVec 32 :=
  let baseBaud := baud * 16#32
  let quot := p.uartclk / baseBaud
  let rem := p.uartclk % baseBaud
  (quot, divRoundClosest (rem <<< p.dlfSize) baseBaud)

def defaultSerialDlWrite (regs : DivisorRegs) (value : BitVec 32) : DivisorRegs :=
  { regs with
    dll := (value &&& 0xff#32).setWidth 8
    dlm := (value >>> 8 &&& 0xff#32).setWidth 8 }

/-- `serial8250_do_set_divisor`, on a port that is not the OMAP1510's. -/
def serial8250DoSetDivisor (p : DwPort) (regs : DivisorRegs) (quot : BitVec 32) : DivisorRegs :=
  let lcr := if p.natsemi then 0xe0#8 else p.lcr ||| 0x80#8
  defaultSerialDlWrite { regs with lcr := lcr } quot

def dw8250SetDivisor (p : DwPort) (regs : DivisorRegs) (quot quotFrac : BitVec 32) :
    DivisorRegs :=
  serial8250DoSetDivisor p { regs with dlf := quotFrac } quot

/-- One function after the other. -/
def setBaud (p : DwPort) (regs : DivisorRegs) (baud : BitVec 32) : DivisorRegs :=
  let (quot, frac) := dw8250GetDivisor p baud
  dw8250SetDivisor p regs quot frac

def DivisorRegs.latch (regs : DivisorRegs) : Nat := regs.dlm.toNat * 256 + regs.dll.toNat

/-- What remains of the clock, in the units of the fraction, as numbers without a limit. -/
def fracProduct (p : DwPort) (baud : BitVec 32) : Nat :=
  p.uartclk.toNat % (16 * baud.toNat) * 2 ^ p.dlfSize

/-- **The divisor is right**: no step overflows 32 bits, the parts fit where they are written and
are not both zero, and the divisor times the baud rate is as close to the clock as the fraction
allows. -/
structure Divides (p : DwPort) (regs : DivisorRegs) (baud : BitVec 32) : Prop where
  baseFits : 16 * baud.toNat < 2 ^ 32
  productFits : fracProduct p baud + 8 * baud.toNat < 2 ^ 32
  latch : (setBaud p regs baud).latch = (dw8250GetDivisor p baud).1.toNat
  frac : (setBaud p regs baud).dlf.toNat < 2 ^ p.dlfSize
  nonzero : ¬ ((setBaud p regs baud).latch = 0 ∧ (setBaud p regs baud).dlf = 0)
  accurate : |16 * (baud.toNat : ℚ) *
      ((setBaud p regs baud).latch + (setBaud p regs baud).dlf.toNat / 2 ^ p.dlfSize) -
        p.uartclk.toNat| ≤ 16 * baud.toNat / 2 ^ (p.dlfSize + 1)

/-- What remains fits in 32 bits when it is shifted up and rounded, the clock is less than `2 ^ 16`
times the base rate, and what remains is further from it than half a unit of the fraction. -/
structure Divisible (p : DwPort) (baud : BitVec 32) : Prop where
  fits : fracProduct p baud + 8 * baud.toNat < 2 ^ 32
  latch : p.uartclk.toNat < 2 ^ 16 * (16 * baud.toNat)
  noCarry : fracProduct p baud + 8 * baud.toNat < 2 ^ p.dlfSize * (16 * baud.toNat)

/-! ## The registers -/

variable {p : DwPort} {regs : DivisorRegs} {baud : BitVec 32}

theorem latch_setBaud (p : DwPort) (regs : DivisorRegs) (baud : BitVec 32) :
    (setBaud p regs baud).latch = (dw8250GetDivisor p baud).1.toNat % 2 ^ 16 := by
  have hlatch : (setBaud p regs baud).latch =
      ((dw8250GetDivisor p baud).1 >>> 8 &&& 0xff#32).toNat % 2 ^ 8 * 256 +
        ((dw8250GetDivisor p baud).1 &&& 0xff#32).toNat % 2 ^ 8 := rfl
  have hmask : ∀ x : Nat, x &&& 255 = x % 256 := fun x => Nat.and_two_pow_sub_one_eq_mod x 8
  rw [hlatch]
  simp only [BitVec.toNat_and, BitVec.toNat_ushiftRight, BitVec.toNat_ofNat,
    Nat.shiftRight_eq_div_pow]
  norm_num only [hmask]
  omega

theorem dlf_setBaud (p : DwPort) (regs : DivisorRegs) (baud : BitVec 32) :
    (setBaud p regs baud).dlf = (dw8250GetDivisor p baud).2 := rfl

theorem base_le (hclk : p.uartclk.toNat < 2 ^ 31) (hmagic : p.magicMultiplier = false)
    (hmax : baud ≤ (serial8250GetBaudRate p).2) :
    16 * baud.toNat ≤ p.uartclk.toNat + p.uartclk.toNat / 100 := by
  have hle : baud.toNat ≤ (serial8250GetBaudRate p).2.toNat := hmax
  simp only [serial8250GetBaudRate, hmagic, Bool.false_eq_true, if_false, BitVec.toNat_udiv,
    BitVec.toNat_add, BitVec.toNat_ofNat] at hle
  norm_num at hle
  omega

theorem toNat_base (hbase : 16 * baud.toNat < 2 ^ 32) : (baud * 16#32).toNat = 16 * baud.toNat := by
  rw [BitVec.toNat_mul, Nat.mul_comm]
  exact Nat.mod_eq_of_lt hbase

theorem toNat_quot (hbase : 16 * baud.toNat < 2 ^ 32) :
    (dw8250GetDivisor p baud).1.toNat = p.uartclk.toNat / (16 * baud.toNat) := by
  simp only [dw8250GetDivisor, BitVec.toNat_udiv, toNat_base hbase]

theorem toNat_frac (hbase : 16 * baud.toNat < 2 ^ 32)
    (hfits : fracProduct p baud + 8 * baud.toNat < 2 ^ 32) :
    (dw8250GetDivisor p baud).2.toNat = roundDiv (fracProduct p baud) (16 * baud.toNat) := by
  have hhalf : 16 * baud.toNat / 2 = 8 * baud.toNat := by omega
  have hshift :
      (p.uartclk % (baud * 16#32)) <<< p.dlfSize = BitVec.ofNat 32 (fracProduct p baud) := by
    refine BitVec.eq_of_toNat_eq ?_
    rw [BitVec.toNat_shiftLeft, BitVec.toNat_umod, toNat_base hbase, Nat.shiftLeft_eq,
      BitVec.toNat_ofNat]
    rfl
  have hprod : fracProduct p baud < 2 ^ 32 := (Nat.le_add_right _ _).trans_lt hfits
  simp only [dw8250GetDivisor, divRoundClosest, hshift, BitVec.toNat_udiv, BitVec.toNat_add,
    toNat_base hbase, BitVec.toNat_ofNat, Nat.mod_eq_of_lt hprod]
  rw [Nat.mod_eq_of_lt (show 2 < 2 ^ 32 by norm_num), hhalf, Nat.mod_eq_of_lt hfits, roundDiv,
    hhalf]

theorem clock_close (hbaud : 0 < baud.toNat) :
    |16 * (baud.toNat : ℚ) * ((p.uartclk.toNat / (16 * baud.toNat) : ℕ) +
      (roundDiv (fracProduct p baud) (16 * baud.toNat) : ℕ) / 2 ^ p.dlfSize) - p.uartclk.toNat| ≤
        16 * baud.toNat / 2 ^ (p.dlfSize + 1) := by
  have hclose := abs_roundDiv_sub_le (a := fracProduct p baud) (b := 16 * baud.toNat) (by omega)
  have hclk : ((16 * baud.toNat * (p.uartclk.toNat / (16 * baud.toNat)) +
      p.uartclk.toNat % (16 * baud.toNat) : ℕ) : ℚ) = p.uartclk.toNat := by rw [Nat.div_add_mod]
  have hprod : (fracProduct p baud : ℚ) =
      (p.uartclk.toNat % (16 * baud.toNat) : ℕ) * 2 ^ p.dlfSize := by
    rw [fracProduct]
    push_cast
    rfl
  rw [hprod] at hclose
  generalize (roundDiv (fracProduct p baud) (16 * baud.toNat) : ℚ) = f at hclose ⊢
  generalize p.uartclk.toNat / (16 * baud.toNat) = q at hclk ⊢
  generalize p.uartclk.toNat % (16 * baud.toNat) = r at hclk hclose
  have hpow : (0 : ℚ) < 2 ^ p.dlfSize := by positivity
  push_cast at hclk hclose
  have hform : 16 * (baud.toNat : ℚ) * (q + f / 2 ^ p.dlfSize) - p.uartclk.toNat =
      (f * (16 * baud.toNat) - r * 2 ^ p.dlfSize) / 2 ^ p.dlfSize := by
    rw [← hclk]
    field_simp
    ring
  rw [hform, abs_div, abs_of_pos hpow, pow_succ, div_le_div_iff₀ hpow (by positivity)]
  nlinarith [mul_le_mul_of_nonneg_right hclose hpow.le]

/-- **The divisor is right** exactly if the clock can be divided, for every clock below `2 ^ 31`,
every fraction and every baud rate up to the limit. -/
theorem divides_iff (p : DwPort) (regs : DivisorRegs) (baud : BitVec 32)
    (hclk : p.uartclk.toNat < 2 ^ 31) (hdlf : 1 ≤ p.dlfSize) (hmagic : p.magicMultiplier = false)
    (hbaud : 0 < baud.toNat) (hmax : baud ≤ (serial8250GetBaudRate p).2) :
    Divides p regs baud ↔ Divisible p baud := by
  have hle := base_le hclk hmagic hmax
  have hbase : 16 * baud.toNat < 2 ^ 32 := by omega
  have hquot : (dw8250GetDivisor p baud).1.toNat < 2 ^ 16 ↔
      p.uartclk.toNat < 2 ^ 16 * (16 * baud.toNat) := by
    rw [toNat_quot hbase]
    exact Nat.div_lt_iff_lt_mul (by omega)
  have hhalf : 16 * baud.toNat / 2 = 8 * baud.toNat := by omega
  have hfrac : roundDiv (fracProduct p baud) (16 * baud.toNat) < 2 ^ p.dlfSize ↔
      fracProduct p baud + 8 * baud.toNat < 2 ^ p.dlfSize * (16 * baud.toNat) := by
    rw [roundDiv_lt_iff (by omega), hhalf]
  constructor
  · intro h
    refine ⟨h.productFits, hquot.mp ?_, hfrac.mp ?_⟩
    · rw [← h.latch, latch_setBaud]
      exact Nat.mod_lt _ (by norm_num)
    · rw [← toNat_frac hbase h.productFits, ← dlf_setBaud p regs]
      exact h.frac
  · intro h
    have hlatch : (setBaud p regs baud).latch = (dw8250GetDivisor p baud).1.toNat :=
      (latch_setBaud p regs baud).trans (Nat.mod_eq_of_lt (hquot.mpr h.latch))
    have hdlf' : (setBaud p regs baud).dlf.toNat =
        roundDiv (fracProduct p baud) (16 * baud.toNat) :=
      (congrArg _ (dlf_setBaud p regs baud)).trans (toNat_frac hbase h.fits)
    refine ⟨hbase, h.fits, hlatch, hdlf' ▸ hfrac.mpr h.noCarry, ?_, ?_⟩
    · rintro ⟨hzero, hnofrac⟩
      -- Without an integer part all of the clock remains, which is more than half the base rate.
      rw [hlatch, toNat_quot hbase, Nat.div_eq_zero_iff] at hzero
      have hlt : p.uartclk.toNat < 16 * baud.toNat := by omega
      have hpos : 0 < roundDiv (fracProduct p baud) (16 * baud.toNat) := by
        rw [roundDiv_pos_iff (by omega), hhalf, fracProduct, Nat.mod_eq_of_lt hlt]
        have htwo : p.uartclk.toNat * 2 ^ 1 ≤ p.uartclk.toNat * 2 ^ p.dlfSize :=
          Nat.mul_le_mul_left _ (Nat.pow_le_pow_right (by norm_num) hdlf)
        omega
      rw [← hdlf', hnofrac] at hpos
      exact absurd hpos (by decide)
    · rw [hlatch, toNat_quot hbase, hdlf']
      exact clock_close hbaud

/-- A port with a clock of 24 MHz and a fraction of four bits. -/
def dwPort : DwPort := ⟨24000000, 4, false, false, 0x13⟩

def resetRegs : DivisorRegs := ⟨0, 0, 0, 0⟩

theorem divides_115200 : Divides dwPort resetRegs 115200 :=
  (divides_iff dwPort resetRegs 115200 (by decide) (by decide) rfl (by decide) (by decide)).mpr
    ⟨by decide, by decide, by decide⟩

/-- At 1.51 megabaud, within the limits, the divisor is just below one: the integer part is zero,
and the fraction is sixteen sixteenths. -/
theorem not_divides_carry :
    (serial8250GetBaudRate dwPort).1 ≤ 1510000 ∧ 1510000 ≤ (serial8250GetBaudRate dwPort).2 ∧
      dw8250GetDivisor dwPort 1510000 = (0, 16) ∧ ¬ Divides dwPort resetRegs 1510000 :=
  ⟨by decide, by decide, by decide, fun h => absurd h.frac (by decide)⟩

end RealtekIpcam.Serial
