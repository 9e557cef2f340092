import RealtekIpcam.Lib.BitField

/-!
# The RTS3917 pin controller: registers and pins

The pins are divided into eighteen groups of neighbours, and every group has its own eight
registers in a row (`pinregs`).  `pincfgaddr` is the table of the groups, and `rtsGetPinaddr`
looks a pin up in it.  A pin without an entry has no registers; the functions that are handed
such a pin follow a null pointer, which is undefined and `none` here.  So is a shift of `1` by
32 or more.

`RtsPinctrl` is the driver's data together with the registers.  The registers read back what was
written to them, but for the value registers of the ADDA and the two USB groups, which read 0.
-/

namespace RealtekIpcam.Pinctrl

open BitField Function

/-- `unsigned int` and `u32`. -/
abbrev Word := BitVec 32

/-! ## Registers -/

/-- `GPIO_OE` and the other addresses `pincfgaddr` names. -/
def gpioOe : Nat := 0x0000
def uart0GpioOe : Nat := 0x0020
def uart1GpioOe : Nat := 0x0040
def uart2GpioOe : Nat := 0x0060
def pwmGpioOe : Nat := 0x0080
def xb2I2cGpioOe : Nat := 0x00a0
def sd0GpioOe : Nat := 0x00c0
def sd1GpioOe : Nat := 0x00e0
def videoGpioOe : Nat := 0x0100
def dmicGpioOe : Nat := 0x0130
def audioAddaGpioOe : Nat := 0x0150
def i2sGpioOe : Nat := 0x0170
def saradcGpioOe : Nat := 0x0190
def usb0GpioOe : Nat := 0x01f0
def usb1GpioOe : Nat := 0x0210
def usb2GpioOe : Nat := 0x0230
def spiGpioOe : Nat := 0x0250
def ssorI2cGpioOe : Nat := 0x0270
def padV18En : Nat := 0x0298

/-- `GPIO_0_15_PAD_CFG` and the other pad registers that `rts_pmx_enable` names. -/
def gpio015PadCfg : Nat := 0x001c
def uart0PadCfg : Nat := 0x003c
def uart1PadCfg : Nat := 0x005c
def uart2PadCfg : Nat := 0x007c
def pwmPadCfg : Nat := 0x009c
def xb2I2cPadCfg : Nat := 0x00bc
def sd0PadCfg : Nat := 0x00dc
def sd1PadCfg : Nat := 0x00fc
def videoPadCfg : Nat := 0x011c
def dmicPadCfg : Nat := 0x014c
def audioAddaPadCfg : Nat := 0x016c
def i2sPadCfg : Nat := 0x018c
def saradcPadCfg : Nat := 0x01ac
def usb0PadCfg : Nat := 0x020c
def usb1PadCfg : Nat := 0x022c
def usb2PadCfg : Nat := 0x024c
def spiPadCfg : Nat := 0x026c
def ssorI2cPadCfg : Nat := 0x028c

/-- The offsets in `struct pinregs`. -/
def pinregsGpioOe : Nat := 0x00
def pinregsGpioValue : Nat := 0x04
def pinregsPullctrl : Nat := 0x08
def pinregsGpioIntEn : Nat := 0x0c
def pinregsDrvSel : Nat := 0x14
def pinregsSrCtrl : Nat := 0x18
def pinregsPadCfg : Nat := 0x1c

/-! ## Pins -/

def rtsMaxNgpio : Nat := 89

/-- The groups of pins: `GPIO_TYPE_GENERIC` and so on. -/
inductive GpioType where
  | generic | uart0 | uart1 | uart2 | pwm | i2c | sdio0 | sdio1 | ssor | dmic | adda | i2s | saradc
  | usbh | usbd | usb3 | ssori2c | spi
  deriving DecidableEq

structure SharepinCfgAddr where
  pinl : Nat
  pinh : Nat
  pint : GpioType
  pinaddr : Nat
  deriving DecidableEq

def pincfgaddr : List SharepinCfgAddr :=
  [⟨0, 15, .generic, gpioOe⟩, ⟨16, 19, .uart0, uart0GpioOe⟩, ⟨20, 21, .uart1, uart1GpioOe⟩,
    ⟨22, 25, .uart2, uart2GpioOe⟩, ⟨26, 29, .pwm, pwmGpioOe⟩, ⟨30, 31, .i2c, xb2I2cGpioOe⟩,
    ⟨32, 39, .sdio0, sd0GpioOe⟩, ⟨40, 47, .sdio1, sd1GpioOe⟩, ⟨48, 60, .ssor, videoGpioOe⟩,
    ⟨61, 64, .dmic, dmicGpioOe⟩, ⟨65, 68, .adda, audioAddaGpioOe⟩, ⟨69, 73, .i2s, i2sGpioOe⟩,
    ⟨74, 77, .saradc, saradcGpioOe⟩, ⟨78, 79, .usbh, usb0GpioOe⟩, ⟨80, 81, .usbd, usb1GpioOe⟩,
    ⟨82, 84, .usb3, usb2GpioOe⟩, ⟨85, 86, .ssori2c, ssorI2cGpioOe⟩, ⟨87, 88, .spi, spiGpioOe⟩]

def rtsGetPinaddr (pin : Nat) : Option SharepinCfgAddr :=
  pincfgaddr.find? fun sc => decide (sc.pinl ≤ pin ∧ sc.pinh ≥ pin)

/-! ## The driver's data -/

/-- `struct rts_pinctrl`, with the registers at `addr`. -/
structure RtsPinctrl where
  regs : Regs
  irqType : Nat → Nat
  pinsmask : BitVec 64 × BitVec 64
  audioAddaGpioValue : BitVec 8
  usb0GpioValue : BitVec 8
  usb1GpioValue : BitVec 8

/-- The value registers that read 0 whatever was written. -/
def readsZero : List Nat :=
  [audioAddaGpioOe + pinregsGpioValue, usb0GpioOe + pinregsGpioValue, usb1GpioOe + pinregsGpioValue]

namespace RtsPinctrl

variable (rtspc : RtsPinctrl)

/-- `readl` and `ioread32`. -/
def readl (reg : Nat) : Word := if reg ∈ readsZero then 0 else rtspc.regs reg

/-- `writel` and `iowrite32`. -/
def writel (val : Word) (reg : Nat) : RtsPinctrl :=
  { rtspc with regs := update rtspc.regs reg val }

@[simp] theorem regs_writel_self (val : Word) (reg : Nat) :
    (rtspc.writel val reg).regs reg = val := by
  show update rtspc.regs reg val reg = val
  rw [update_self]

@[simp] theorem regs_writel_of_ne {r reg : Nat} (h : r ≠ reg) (val : Word) :
    (rtspc.writel val reg).regs r = rtspc.regs r := by
  show update rtspc.regs reg val r = rtspc.regs r
  rw [update_of_ne h]

def rtsClrRegBit (bit reg : Nat) : Option RtsPinctrl :=
  if bit < 32 then some (rtspc.writel (clearBit (rtspc.readl reg) bit) reg) else none

def rtsSetRegBit (bit reg : Nat) : Option RtsPinctrl :=
  if bit < 32 then some (rtspc.writel (setBit (rtspc.readl reg) bit) reg) else none

/-- `rts_gpio_set_field`.  `setField` is `RTS_SETFIELD`. -/
def rtsGpioSetField (reg : Nat) (field : Word) (width offset : Nat) : RtsPinctrl :=
  rtspc.writel (setField (rtspc.readl reg) field width offset) reg

/-- `rts_gpio_get_field`.  `getField` is `RTS_GETFIELD`. -/
def rtsGpioGetField (reg width offset : Nat) : Word := getField (rtspc.readl reg) width offset

end RtsPinctrl

/-! ## Looking pins up -/

variable {pin : Nat} {sc : SharepinCfgAddr}

theorem pincfgaddr_cover : ∀ pin < rtsMaxNgpio, ∃ sc ∈ pincfgaddr, rtsGetPinaddr pin = some sc := by
  decide +kernel

theorem rtsGetPinaddr_mem (h : rtsGetPinaddr pin = some sc) :
    sc ∈ pincfgaddr ∧ sc.pinl ≤ pin ∧ pin ≤ sc.pinh := by
  have hpin := List.find?_some h
  exact ⟨List.mem_of_find?_eq_some h, of_decide_eq_true hpin⟩

theorem pincfgaddr_width : ∀ sc ∈ pincfgaddr, sc.pinh < sc.pinl + 16 ∧ sc.pinh < rtsMaxNgpio := by
  decide

theorem pincfgaddr_apart : ∀ sc ∈ pincfgaddr, ∀ sc' ∈ pincfgaddr,
    sc = sc' ∨ sc.pinaddr + 0x20 ≤ sc'.pinaddr ∨ sc'.pinaddr + 0x20 ≤ sc.pinaddr := by
  decide

theorem pinaddr_inj {sc' : SharepinCfgAddr} {off off' : Nat} (h : sc ∈ pincfgaddr)
    (h' : sc' ∈ pincfgaddr) (hoff : off < 0x20) (hoff' : off' < 0x20)
    (heq : sc.pinaddr + off = sc'.pinaddr + off') : sc = sc' ∧ off = off' := by
  rcases pincfgaddr_apart sc h sc' h' with hsc | hlt | hlt
  · subst hsc
    exact ⟨rfl, by omega⟩
  · omega
  · omega

end RealtekIpcam.Pinctrl
