import RealtekIpcam.Lib.Runs

/-!
# The clock divider

`dw_spi_transfer_one` keeps two copies of what it knows about the clock: every device
has the divider of its last speed, and the controller the speed that `BAUDR` was last
set for.  The first is always right.  The second is not, for `dw_spi_suspend_host`
clears `BAUDR` and leaves `current_freq` as it is.

The divider itself is what fits into 16 bits of the one that is needed.
-/

namespace RealtekIpcam.Spi

open Function Runs

/-- `struct chip_data`, the clock of a device. -/
structure ChipData where
  clkDiv : UInt16
  speedHz : UInt32
  deriving DecidableEq

/-- `struct dw_spi`, the clock of the controller, with the devices that were set up, and
the registers `DW_SPI_BAUDR` and `DW_SPI_SSIENR`. -/
structure SpiHost where
  maxFreq : UInt32
  currentFreq : UInt32
  chips : Nat → Option ChipData
  baudr : UInt32
  ssienr : Bool

/-- `DIV_ROUND_UP`, on `u32`. -/
def divRoundUp (n d : UInt32) : UInt32 := (n + d - 1) / d

/-- The divider for a speed, as it is assigned to a `u16`. -/
def clkDivOf (maxFreq speedHz : UInt32) : UInt16 :=
  ((divRoundUp maxFreq speedHz + 1) &&& 0xfffe).toUInt16

namespace SpiHost

variable (h : SpiHost)

/-- `spi_enable_chip`. -/
def enableChip (enable : Bool) : SpiHost := { h with ssienr := enable }

/-- `spi_set_clk`. -/
def setClk (div : UInt16) : SpiHost := { h with baudr := div.toUInt32 }

/-- `spi_shutdown_chip`. -/
def shutdownChip : SpiHost := (h.enableChip false).setClk 0

/-- `spi_reset_chip`, and `spi_hw_init`. -/
def resetChip : SpiHost := (h.enableChip false).enableChip true

/-- `dw_spi_setup`: the device's data is allocated the first time. -/
def setup (dev : Nat) : SpiHost :=
  match h.chips dev with
  | some _ => h
  | none => { h with chips := update h.chips dev (some ⟨0, 0⟩) }

/-- `dw_spi_cleanup`. -/
def cleanup (dev : Nat) : SpiHost := { h with chips := update h.chips dev none }

/-- The options for the speed in `dw_spi_transfer_one`. -/
def setSpeed (dev : Nat) (chip : ChipData) (speedHz : UInt32) : SpiHost :=
  if speedHz ≠ h.currentFreq then
    let chip :=
      if speedHz ≠ chip.speedHz then ⟨clkDivOf h.maxFreq speedHz, speedHz⟩ else chip
    { h with
      chips := update h.chips dev (some chip)
      currentFreq := speedHz }.setClk chip.clkDiv
  else h

/-- `dw_spi_transfer_one`, up to the start of the transfer.  The device was set up, and
there is no division by zero. -/
def transferOne (dev : Nat) (speedHz : UInt32) : Option SpiHost :=
  if speedHz = 0 then none
  else (h.chips dev).map fun chip =>
    ((h.enableChip false).setSpeed dev chip speedHz).enableChip true

end SpiHost

/-- What happens to the controller.  `ret` is the answer of `spi_controller_suspend`. -/
inductive SpiHostEvent where
  | setup (dev : Nat)
  | cleanup (dev : Nat)
  | transferOne (dev : Nat) (speedHz : UInt32)
  | handleErr
  | suspend (ret : Int)
  | resume
  deriving DecidableEq

def spiHostStep (h : SpiHost) : SpiHostEvent → Option SpiHost
  | .setup dev => some (h.setup dev)
  | .cleanup dev => some (h.cleanup dev)
  | .transferOne dev speedHz => h.transferOne dev speedHz
  | .handleErr => some h.resetChip
  | .suspend ret => if ret ≠ 0 then some h else some h.shutdownChip
  | .resume => some h.resetChip

/-- `dw_spi_add_host`, whatever `BAUDR` is after reset. -/
def dwSpiAddHost (maxFreq baudr : UInt32) : SpiHost where
  maxFreq := maxFreq
  currentFreq := 0
  chips := fun _ => none
  baudr := baudr
  ssienr := true

/-- The divider is even, and the clock is no faster than the transfer allows. -/
def DividerOk (h : SpiHost) (speedHz : UInt32) : Prop :=
  h.baudr ≠ 0 ∧ 2 ∣ h.baudr.toNat ∧ h.maxFreq.toNat ≤ h.baudr.toNat * speedHz.toNat

/-- There is a divider for the speed, and the sum in `DIV_ROUND_UP` does not overflow. -/
def SpeedOk (maxFreq speedHz : UInt32) : Prop :=
  0 < maxFreq.toNat ∧ maxFreq.toNat + speedHz.toNat ≤ 4294967296 ∧
    maxFreq.toNat ≤ 65534 * speedHz.toNat

/-- The speed is possible, and `BAUDR` was not cleared since it was set for it. -/
def ClockOk (h : SpiHost) (speedHz : UInt32) : Prop :=
  SpeedOk h.maxFreq speedHz ∧ (speedHz = h.currentFreq → h.baudr ≠ 0)

/-! ## The divider -/

theorem and_fffe (n : Nat) : n &&& 0xfffe = n % 65536 / 2 * 2 := by
  refine Nat.eq_of_testBit_eq fun i => ?_
  rw [Nat.testBit_and, show 0xfffe = 2 * (2 ^ 15 - 1) from rfl,
    show n % 65536 = n % 2 ^ 16 from rfl, Nat.mul_comm (n % 2 ^ 16 / 2) 2]
  cases i with
  | zero => simp [Nat.testBit_zero]
  | succ i =>
    rw [Nat.testBit_succ, Nat.testBit_succ (2 * (2 ^ 15 - 1)), Nat.testBit_succ (2 * _),
      Nat.mul_div_cancel_left _ (by decide), Nat.mul_div_cancel_left _ (by decide),
      Nat.testBit_two_pow_sub_one, Nat.testBit_div_two, Nat.testBit_div_two,
      Nat.testBit_mod_two_pow]
    have hi : decide (i + 1 < 16) = decide (i < 15) := decide_eq_decide.mpr (by omega)
    rw [hi, Bool.and_comm]

/-- The divider is the sum and the quotient of the source, in 32 bits, less what does not
fit into the upper 15 of 16 bits. -/
theorem clkDivOf_toNat (maxFreq speedHz : UInt32) :
    (clkDivOf maxFreq speedHz).toNat =
      ((maxFreq.toNat + speedHz.toNat + 4294967295) % 4294967296 / speedHz.toNat + 1) %
        65536 / 2 * 2 := by
  have hsub : (maxFreq + speedHz - 1).toNat =
      (maxFreq.toNat + speedHz.toNat + 4294967295) % 4294967296 := by
    rw [UInt32.toNat_sub, UInt32.toNat_add, UInt32.toNat_one]
    omega
  have hfit : ∀ n : Nat, n % 4294967296 % 65536 = n % 65536 := fun n =>
    Nat.mod_mod_of_dvd n (by decide)
  rw [clkDivOf, divRoundUp, UInt32.toNat_toUInt16, UInt32.toNat_and, UInt32.toNat_add,
    UInt32.toNat_div, hsub, UInt32.toNat_one, show (0xfffe : UInt32).toNat = 0xfffe from rfl,
    and_fffe, hfit]
  omega

theorem clkDivOf_ok_iff (maxFreq : UInt32) {speedHz : UInt32} (hpos : 0 < speedHz.toNat) :
    ((clkDivOf maxFreq speedHz).toNat ≠ 0 ∧ 2 ∣ (clkDivOf maxFreq speedHz).toNat ∧
      maxFreq.toNat ≤ (clkDivOf maxFreq speedHz).toNat * speedHz.toNat) ↔
        SpeedOk maxFreq speedHz := by
  have hm := maxFreq.toNat_lt
  have hv := speedHz.toNat_lt
  rw [clkDivOf_toNat, SpeedOk]
  generalize maxFreq.toNat = m at *
  generalize speedHz.toNat = v at *
  constructor
  · rintro ⟨hne, -, hle⟩
    -- A quotient of 0 gives the divider 0.
    have hquot : ¬ (m + v + 4294967295) % 4294967296 < v := by
      intro hlt
      rw [Nat.div_eq_of_lt hlt] at hne
      exact hne rfl
    refine ⟨by omega, by omega, Nat.le_trans hle (Nat.mul_le_mul_right v ?_)⟩
    omega
  · rintro ⟨hpos', hsum, hle⟩
    have hnum : (m + v + 4294967295) % 4294967296 = m + v - 1 := by omega
    rw [hnum]
    have hceil : m ≤ (m + v - 1) / v * v := by
      have := Nat.lt_div_mul_add (a := m + v - 1) hpos
      omega
    have hquot : (m + v - 1) / v ≤ 65534 := by
      rw [← Nat.lt_succ_iff, Nat.div_lt_iff_lt_mul hpos]
      omega
    have hone : 1 ≤ (m + v - 1) / v := (Nat.one_le_div_iff hpos).mpr (by omega)
    generalize (m + v - 1) / v = q at *
    refine ⟨by omega, Nat.dvd_mul_left _ _, Nat.le_trans hceil (Nat.mul_le_mul_right v ?_)⟩
    omega

/-! ## The caches -/

/-- What the caches know.  `BAUDR` may have been cleared. -/
structure ClockInv (f : UInt32) (h : SpiHost) : Prop where
  maxFreq : h.maxFreq = f
  chips : ∀ dev chip, h.chips dev = some chip → chip.speedHz ≠ 0 →
    chip.clkDiv = clkDivOf f chip.speedHz
  baudr : h.currentFreq ≠ 0 → h.baudr ≠ 0 → h.baudr = (clkDivOf f h.currentFreq).toUInt32

variable {maxFreq : UInt32} {h h' : SpiHost}

theorem ClockInv.update_chip (hinv : ClockInv maxFreq h) (dev : Nat) (c : Option ChipData)
    (hc : ∀ chip, c = some chip → chip.speedHz ≠ 0 →
      chip.clkDiv = clkDivOf maxFreq chip.speedHz) :
    ∀ d chip, update h.chips dev c d = some chip → chip.speedHz ≠ 0 →
      chip.clkDiv = clkDivOf maxFreq chip.speedHz := by
  intro d chip hchip hne
  by_cases hd : d = dev
  · rw [hd, update_self] at hchip
    exact hc chip hchip hne
  · rw [update_of_ne hd] at hchip
    exact hinv.chips d chip hchip hne

/-- **The start of a transfer** leaves `BAUDR` as it is when the speed is the current one, and
sets it to the divider otherwise. -/
theorem transferOne_spec (hinv : ClockInv maxFreq h) {dev : Nat} {speedHz : UInt32}
    (hstart : h.transferOne dev speedHz = some h') :
    ClockInv maxFreq h' ∧ speedHz ≠ 0 ∧ h'.maxFreq = maxFreq ∧
      (speedHz = h.currentFreq → h'.baudr = h.baudr) ∧
      (speedHz ≠ h.currentFreq → h'.baudr = (clkDivOf maxFreq speedHz).toUInt32) := by
  rw [SpiHost.transferOne] at hstart
  split at hstart
  · cases hstart
  next hne =>
    obtain ⟨chip, hchip, rfl⟩ := Option.map_eq_some_iff.mp hstart
    by_cases hcur : speedHz = h.currentFreq
    · have hkeep : (h.enableChip false).setSpeed dev chip speedHz = h.enableChip false :=
        if_neg (not_not_intro hcur)
      rw [hkeep]
      exact ⟨⟨hinv.maxFreq, hinv.chips, hinv.baudr⟩, hne, hinv.maxFreq, fun _ => rfl,
        fun hcur' => absurd hcur hcur'⟩
    · -- The device's divider is the one for this speed, from before or from now.
      obtain ⟨c, hc, hdiv, hset⟩ : ∃ c : ChipData, c.speedHz = speedHz ∧
          c.clkDiv = clkDivOf maxFreq speedHz ∧
          (h.enableChip false).setSpeed dev chip speedHz =
            ({ h.enableChip false with
              chips := update h.chips dev (some c)
              currentFreq := speedHz } : SpiHost).setClk c.clkDiv := by
        by_cases hsame : speedHz = chip.speedHz
        · refine ⟨chip, hsame.symm, ?_, ?_⟩
          · rw [hsame]
            exact hinv.chips dev chip hchip (hsame ▸ hne)
          · rw [SpiHost.setSpeed, if_neg (not_not_intro hsame)]
            exact if_pos hcur
        · refine ⟨⟨clkDivOf h.maxFreq speedHz, speedHz⟩, rfl, by rw [hinv.maxFreq], ?_⟩
          rw [SpiHost.setSpeed, if_pos hsame]
          exact if_pos hcur
      rw [hset]
      refine ⟨⟨hinv.maxFreq, ?_, fun _ _ => ?_⟩, hne, hinv.maxFreq,
        fun hcur' => absurd hcur' hcur, fun _ => ?_⟩
      · refine hinv.update_chip dev (some c) fun c' hc' _ => ?_
        obtain rfl := Option.some_inj.mp hc'
        rw [hdiv, hc]
      · exact congrArg UInt16.toUInt32 hdiv
      · exact congrArg UInt16.toUInt32 hdiv

/-- Every event keeps the caches right. -/
theorem spiHostStep_inv {e : SpiHostEvent} (hinv : ClockInv maxFreq h)
    (hstep : spiHostStep h e = some h') : ClockInv maxFreq h' := by
  cases e with
  | setup dev =>
    obtain rfl := Option.some_inj.mp hstep
    rw [SpiHost.setup]
    split
    · exact hinv
    · refine ⟨hinv.maxFreq, hinv.update_chip dev (some ⟨0, 0⟩) fun chip hchip hne => ?_,
        hinv.baudr⟩
      obtain rfl := Option.some_inj.mp hchip
      exact absurd rfl hne
  | cleanup dev =>
    obtain rfl := Option.some_inj.mp hstep
    exact ⟨hinv.maxFreq, hinv.update_chip dev none fun chip hchip => (by cases hchip), hinv.baudr⟩
  | transferOne dev speedHz => exact (transferOne_spec hinv hstep).1
  | handleErr =>
    obtain rfl := Option.some_inj.mp hstep
    exact ⟨hinv.maxFreq, hinv.chips, hinv.baudr⟩
  | suspend ret =>
    rw [spiHostStep] at hstep
    split at hstep
    · obtain rfl := Option.some_inj.mp hstep
      exact hinv
    · obtain rfl := Option.some_inj.mp hstep
      exact ⟨hinv.maxFreq, hinv.chips, fun _ hzero => absurd rfl hzero⟩
  | resume =>
    obtain rfl := Option.some_inj.mp hstep
    exact ⟨hinv.maxFreq, hinv.chips, hinv.baudr⟩

theorem dwSpiAddHost_inv (maxFreq baudr : UInt32) :
    ClockInv maxFreq (dwSpiAddHost maxFreq baudr) :=
  ⟨rfl, fun _ _ hchip => (by cases hchip), fun hcur => absurd rfl hcur⟩

/-- **The clock of a transfer.**  In every state that is reached, a transfer is started with a
divider that is right if and only if there is one for its speed, and `BAUDR` was not
cleared since it was set for this speed. -/
theorem dividerOk_iff (maxFreq baudr : UInt32) {es : List SpiHostEvent} {h h' : SpiHost}
    (hrun : exec spiHostStep (dwSpiAddHost maxFreq baudr) es = some h) {dev : Nat}
    {speedHz : UInt32} (hstart : h.transferOne dev speedHz = some h') :
    DividerOk h' speedHz ↔ ClockOk h speedHz := by
  have hinv : ClockInv maxFreq h := exec_invariant (P := ClockInv maxFreq)
    (C := fun _ _ => True) (fun _ _ _ hs _ hstep => spiHostStep_inv hs hstep)
    (dwSpiAddHost_inv maxFreq baudr) (Along.of_forall fun _ _ => trivial) hrun
  obtain ⟨-, hne, hmax, hsame, hset⟩ := transferOne_spec hinv hstart
  have hpos : 0 < speedHz.toNat := Nat.pos_of_ne_zero fun h0 => hne (UInt32.toNat_inj.mp h0)
  have hok : ∀ {b : UInt32}, b = (clkDivOf maxFreq speedHz).toUInt32 → h'.baudr = b →
      (DividerOk h' speedHz ↔ SpeedOk maxFreq speedHz) := by
    intro b hb hb'
    rw [DividerOk, hmax, hb', hb, ← clkDivOf_ok_iff maxFreq hpos, UInt16.toNat_toUInt32, ne_eq,
      ← UInt32.toNat_inj, UInt16.toNat_toUInt32]
    rfl
  rw [ClockOk, hinv.maxFreq]
  by_cases hcur : speedHz = h.currentFreq
  · by_cases hzero : h.baudr = 0
    · refine iff_of_false (fun hdiv => hdiv.1 ?_) fun hclock => hclock.2 hcur hzero
      rw [hsame hcur, hzero]
    · have hbaudr := hinv.baudr (hcur ▸ hne) hzero
      rw [hok (hcur ▸ hbaudr) (hsame hcur)]
      exact ⟨fun hspeed => ⟨hspeed, fun _ => hzero⟩, fun hclock => hclock.1⟩
  · rw [hok rfl (hset hcur)]
    exact ⟨fun hspeed => ⟨hspeed, fun hcur' => absurd hcur' hcur⟩, fun hclock => hclock.1⟩

/-- A device is used at 10 MHz, and the controller is suspended and resumed. -/
def sameSpeed : List SpiHostEvent :=
  [.setup 0, .transferOne 0 10000000, .suspend 0, .resume]

theorem dividerOk_newSpeed : ∃ h h',
    exec spiHostStep (dwSpiAddHost 100000000 0) sameSpeed = some h ∧
      h.transferOne 0 30000000 = some h' ∧ h'.baudr = 4 ∧ DividerOk h' 30000000 := by
  have hobs : ((exec spiHostStep (dwSpiAddHost 100000000 0) sameSpeed).bind fun h =>
      (h.transferOne 0 30000000).map fun h' => (h.maxFreq, h.currentFreq, h'.baudr)) =
        some (100000000, 10000000, 4) := by decide +kernel
  obtain ⟨h, hrun, hobs⟩ := Option.bind_eq_some_iff.mp hobs
  obtain ⟨h', hstart, hobs⟩ := Option.map_eq_some_iff.mp hobs
  simp only [Prod.mk.injEq] at hobs
  obtain ⟨hmax, hcur, hbaudr⟩ := hobs
  refine ⟨h, h', hrun, hstart, hbaudr, (dividerOk_iff 100000000 0 hrun hstart).mpr ⟨?_, ?_⟩⟩
  · rw [hmax]
    exact ⟨by decide, by decide, by decide⟩
  · intro heq
    rw [hcur] at heq
    exact absurd heq (by decide)

/-- **The divider is 0** when the device is then used at 10 MHz again; and it is too small
at 1 kHz, for a clock of 100 MHz. -/
theorem not_dividerOk :
    (∃ h h', exec spiHostStep (dwSpiAddHost 100000000 0) sameSpeed = some h ∧
      h.transferOne 0 10000000 = some h' ∧ h'.baudr = 0 ∧ ¬ DividerOk h' 10000000) ∧
    ∃ h h', exec spiHostStep (dwSpiAddHost 100000000 0) [.setup 0] = some h ∧
      h.transferOne 0 1000 = some h' ∧ h'.baudr = 34464 ∧ ¬ DividerOk h' 1000 := by
  refine ⟨?_, ?_⟩
  · have hobs : ((exec spiHostStep (dwSpiAddHost 100000000 0) sameSpeed).bind fun h =>
        (h.transferOne 0 10000000).map fun h' => h'.baudr) = some 0 := by decide +kernel
    obtain ⟨h, hrun, hobs⟩ := Option.bind_eq_some_iff.mp hobs
    obtain ⟨h', hstart, hbaudr⟩ := Option.map_eq_some_iff.mp hobs
    exact ⟨h, h', hrun, hstart, hbaudr, fun hok => hok.1 hbaudr⟩
  · have hobs : ((exec spiHostStep (dwSpiAddHost 100000000 0) [.setup 0]).bind fun h =>
        (h.transferOne 0 1000).map fun h' => (h'.maxFreq, h'.baudr)) =
          some (100000000, 34464) := by decide +kernel
    obtain ⟨h, hrun, hobs⟩ := Option.bind_eq_some_iff.mp hobs
    obtain ⟨h', hstart, hobs⟩ := Option.map_eq_some_iff.mp hobs
    simp only [Prod.mk.injEq] at hobs
    refine ⟨h, h', hrun, hstart, hobs.2, fun hok => ?_⟩
    have hle := hok.2.2
    rw [hobs.1, hobs.2] at hle
    exact absurd hle (by decide)

end RealtekIpcam.Spi
