import RealtekIpcam.Pinctrl.Model

/-!
# The functions of the RTS3917 pin controller driver

The GPIO, pin mux, pin configuration and interrupt callbacks of the driver, each as the source has
it.  What `rts_gpio_enable` and `rts_pmx_enable` do is a row of calls of `rts_gpio_set_field` that
depends on their arguments only, so it is given as a row of `FieldWrite`s.

The chip's `base` is 0 and its one pin range maps GPIO `n` to pin `n`.
-/

namespace RealtekIpcam.Pinctrl

open BitField

def ENOMEM : Int := 12
def EBUSY : Int := 16
def EINVAL : Int := 22
def EPROBE_DEFER : Int := 517

/-! ## Multiplexing -/

/-- The call of `rts_gpio_set_field` that `rts_gpio_enable` makes for a pin, if any. -/
def gpioEnableWrite (sc : SharepinCfgAddr) (gpio : Nat) : List FieldWrite :=
  let bf := gpio - sc.pinl
  let padCfg := sc.pinaddr + pinregsPadCfg
  match sc.pint with
  | .generic =>
    if gpio = 0 then [⟨gpio015PadCfg, 0, 4, 0⟩]
    else if gpio = 1 then [⟨gpio015PadCfg, 0, 4, 4⟩]
    else if gpio = 8 then [⟨gpio015PadCfg, 0, 4, 8⟩]
    else []
  | .uart0 | .uart1 | .uart2 => [⟨padCfg, 1, 4, (3 - bf) * 4⟩]
  | .pwm | .i2c | .i2s | .usb3 => [⟨padCfg, 1, 4, bf * 4⟩]
  | .sdio0 | .sdio1 =>
    if gpio = 38 ∨ gpio = 46 then [⟨padCfg, 1, 2, 4⟩]
    else if gpio = 39 ∨ gpio = 47 then [⟨padCfg, 1, 2, 2⟩]
    else [⟨padCfg, 1, 2, 0⟩]
  | .saradc | .usbd | .usbh => [⟨padCfg, 2, 4, bf * 4⟩]
  | .ssor =>
    let bf := (if bf ≥ 11 then 11 else bf) / 2
    let bf := if bf ≥ 3 then bf + 1 else bf
    [⟨padCfg, 1, 4, bf * 4⟩]
  | .dmic => [⟨padCfg, 1, 4, bf / 2 * 4⟩]
  | .adda => [⟨padCfg, 2, 4, bf / 2 * 4⟩]
  | .ssori2c => [⟨padCfg, 1, 2, 0⟩]
  | .spi => [⟨padCfg, 1, 2, 0⟩]

/-- `GPIO_FUNC_SELECT` and the other functions, indices into `rts_functions`. -/
def gpioFuncSelect : Nat := 0
def sdio0FuncSelect : Nat := 1
def sdio1FuncSelect : Nat := 2
def uartFuncSelect : Nat := 3
def pwmFuncSelect : Nat := 4
def audioFuncSelect : Nat := 5
def usbdFuncSelect : Nat := 6
def etnledFuncSelect : Nat := 7
def usbhstFuncSelect : Nat := 8
def saradcFuncSelect : Nat := 9
def ssorFuncSelect : Nat := 10
def ssiFuncSelect : Nat := 11
def i2cFuncSelect : Nat := 12
def spiFuncSelect : Nat := 13
def h265UartFuncSelect : Nat := 14

/-- `GPIO_GROUP_SELECT` and the other groups, indices into `rts_pin_groups`. -/
def gpioGroupSelect : Nat := 0
def uart0GroupSelect : Nat := 1
def uart1GroupSelect : Nat := 2
def uart2GroupSelect : Nat := 3
def pwm0GroupSelect : Nat := 4
def pwm1GroupSelect : Nat := 5
def pwm2GroupSelect : Nat := 6
def pwm3GroupSelect : Nat := 7
def dmic1GroupSelect : Nat := 8
def dmic2GroupSelect : Nat := 9
def i2sGroupSelect : Nat := 10
def i2sxb2GroupSelect : Nat := 11
def i2sdvpGroupSelect : Nat := 12
def amicGroupSelect : Nat := 13
def lineoutGroupSelect : Nat := 14
def usbdGroupSelect : Nat := 15
def etnled0GroupSelect : Nat := 16
def etnled1GroupSelect : Nat := 17
def etnled2GroupSelect : Nat := 18
def usbhGroupSelect : Nat := 19
def saradc0GroupSelect : Nat := 20
def saradc1GroupSelect : Nat := 21
def saradc2GroupSelect : Nat := 22
def saradc3GroupSelect : Nat := 23
def mipiGroupSelect : Nat := 24
def dvpGroupSelect : Nat := 25
def ssiGroupSelect : Nat := 26
def sdio0GroupSelect : Nat := 27
def sdio0wpGroupSelect : Nat := 28
def sdio0cdGroupSelect : Nat := 29
def sdio1GroupSelect : Nat := 30
def sdio1videoGroupSelect : Nat := 31
def sdio1wpGroupSelect : Nat := 32
def sdio1cdGroupSelect : Nat := 33
def i2c0GroupSelect : Nat := 34
def i2cpwmGroupSelect : Nat := 35
def uart2UsbGroupSelect : Nat := 36
def dmicGroupSelect : Nat := 37
def i2c1GroupSelect : Nat := 38
def spiGroupSelect : Nat := 39
def h265UartGroupSelect : Nat := 40
def pdmGroupSelect : Nat := 41
def spdifOutGroupSelect : Nat := 42
def pwmsdGroupSelect : Nat := 43

/-- `rts_pin_groups`: the pins of each group.  The last entry is the group `default`. -/
def rtsPinGroups : List (List Nat) :=
  [List.range 89, [16, 17, 18, 19], [20, 21], [22, 23, 24, 25], [26], [27], [28], [29], [61, 62],
    [63, 64], [69, 70, 71, 72, 73], [16, 17, 18, 19, 29], [8, 48, 49, 58, 59], [65, 66], [65, 66],
    [80, 81, 84], [26], [27], [28], [78, 79, 82, 83], [74], [75], [76], [77],
    [50, 51, 52, 53, 54, 55, 56, 57], [48, 49, 50, 51, 52, 53, 54, 55, 56, 57, 58, 59, 60],
    [16, 17, 18, 19], [32, 33, 34, 35, 36, 37], [38], [39], [40, 41, 42, 43, 44, 45],
    [8, 48, 49, 58, 59, 60], [46], [47], [30, 31], [26, 27], [80, 81], [67, 68], [85, 86],
    [87, 88, 89, 90, 91, 92], [0, 1], [70, 73], [69], [41, 42, 42, 44], []]

/-- `rts_functions`: the groups of each function.  Group 44 is `default`. -/
def rtsFunctions : List (List Nat) :=
  [[gpioGroupSelect], [sdio0GroupSelect, sdio0wpGroupSelect, sdio0cdGroupSelect],
    [sdio1GroupSelect, sdio1wpGroupSelect, sdio1cdGroupSelect, sdio1videoGroupSelect],
    [uart0GroupSelect, uart1GroupSelect, uart2GroupSelect, uart2UsbGroupSelect],
    [pwm0GroupSelect, pwm1GroupSelect, pwm2GroupSelect, pwm3GroupSelect, pwmsdGroupSelect],
    [dmic1GroupSelect, dmic2GroupSelect, dmicGroupSelect, amicGroupSelect, lineoutGroupSelect,
      i2sGroupSelect, i2sxb2GroupSelect, i2sdvpGroupSelect, pdmGroupSelect,
      spdifOutGroupSelect, 44],
    [usbdGroupSelect, 44], [etnled0GroupSelect, etnled1GroupSelect, etnled2GroupSelect],
    [usbhGroupSelect],
    [saradc0GroupSelect, saradc1GroupSelect, saradc2GroupSelect, saradc3GroupSelect],
    [mipiGroupSelect, dvpGroupSelect, 44], [ssiGroupSelect],
    [i2c0GroupSelect, i2cpwmGroupSelect, i2c1GroupSelect], [spiGroupSelect], [h265UartGroupSelect]]

/-- The calls of `rts_gpio_set_field` that `rts_pmx_enable` makes, in order. -/
def pmxEnableWrites (func group : Nat) : List FieldWrite :=
  if func = h265UartFuncSelect then
    if group = h265UartGroupSelect then [⟨gpio015PadCfg, 2, 4, 0⟩, ⟨gpio015PadCfg, 2, 4, 4⟩] else []
  else if func = i2cFuncSelect then
    if group = i2c0GroupSelect then [⟨xb2I2cPadCfg, 2, 2, 0⟩, ⟨xb2I2cPadCfg, 2, 2, 4⟩]
    else if group = i2cpwmGroupSelect then [⟨pwmPadCfg, 8, 4, 0⟩, ⟨pwmPadCfg, 8, 4, 4⟩]
    else if group = i2c1GroupSelect then [⟨ssorI2cPadCfg, 2, 2, 0⟩]
    else []
  else if func = pwmFuncSelect then
    if group = pwm0GroupSelect then [⟨pwmPadCfg, 2, 4, 0⟩]
    else if group = pwm1GroupSelect then [⟨pwmPadCfg, 2, 4, 4⟩]
    else if group = pwm2GroupSelect then [⟨pwmPadCfg, 2, 4, 8⟩]
    else if group = pwm3GroupSelect then [⟨pwmPadCfg, 2, 4, 12⟩]
    else if group = pwmsdGroupSelect then [⟨sd1PadCfg, 4, 4, 0⟩]
    else []
  else if func = uartFuncSelect then
    if group = uart0GroupSelect then
      [⟨uart0PadCfg, 2, 4, 0⟩, ⟨uart0PadCfg, 2, 4, 4⟩, ⟨uart0PadCfg, 2, 4, 8⟩,
        ⟨uart0PadCfg, 2, 4, 12⟩]
    else if group = uart1GroupSelect then [⟨uart1PadCfg, 2, 4, 8⟩, ⟨uart1PadCfg, 2, 4, 12⟩]
    else if group = uart2GroupSelect then
      [⟨uart2PadCfg, 2, 4, 0⟩, ⟨uart2PadCfg, 2, 4, 4⟩, ⟨uart2PadCfg, 2, 4, 8⟩,
        ⟨uart2PadCfg, 2, 4, 12⟩]
    else if group = uart2UsbGroupSelect then [⟨usb1PadCfg, 4, 4, 0⟩, ⟨usb1PadCfg, 4, 4, 4⟩]
    else []
  else if func = audioFuncSelect then
    -- The test for `amicgrp` is not part of the chain of `else if`s.
    (if group = amicGroupSelect then [⟨audioAddaPadCfg, 1, 3, 4⟩] else []) ++
    (if group = dmicGroupSelect then [⟨audioAddaPadCfg, 4, 3, 4⟩]
    else if group = lineoutGroupSelect then [⟨audioAddaPadCfg, 1, 2, 0⟩]
    else if group = dmic1GroupSelect then [⟨dmicPadCfg, 2, 2, 0⟩]
    else if group = dmic2GroupSelect then [⟨dmicPadCfg, 2, 2, 4⟩]
    else if group = i2sGroupSelect then
      [⟨i2sPadCfg, 2, 4, 0⟩, ⟨i2sPadCfg, 2, 4, 4⟩, ⟨i2sPadCfg, 2, 4, 8⟩, ⟨i2sPadCfg, 2, 4, 12⟩,
        ⟨i2sPadCfg, 2, 4, 16⟩]
    else if group = pdmGroupSelect then [⟨i2sPadCfg, 4, 4, 4⟩, ⟨i2sPadCfg, 4, 4, 16⟩]
    else if group = spdifOutGroupSelect then [⟨i2sPadCfg, 4, 4, 0⟩]
    else if group = i2sxb2GroupSelect then
      [⟨pwmPadCfg, 8, 4, 12⟩, ⟨uart0PadCfg, 8, 4, 0⟩, ⟨uart0PadCfg, 8, 4, 4⟩,
        ⟨uart0PadCfg, 8, 4, 8⟩, ⟨uart0PadCfg, 8, 4, 12⟩]
    else if group = i2sdvpGroupSelect then
      [⟨videoPadCfg, 8, 4, 0⟩, ⟨videoPadCfg, 8, 4, 24⟩, ⟨gpio015PadCfg, 2, 4, 8⟩]
    else [])
  else if func = usbdFuncSelect then
    [⟨usb1PadCfg, 1, 3, 4⟩, ⟨usb1PadCfg, 1, 3, 0⟩, ⟨usb2PadCfg, 2, 2, 8⟩]
  else if func = etnledFuncSelect then
    if group = etnled0GroupSelect then [⟨pwmPadCfg, 4, 4, 0⟩]
    else if group = etnled1GroupSelect then [⟨pwmPadCfg, 4, 4, 4⟩]
    else if group = etnled2GroupSelect then [⟨pwmPadCfg, 4, 3, 8⟩]
    else []
  else if func = usbhstFuncSelect then
    [⟨usb0PadCfg, 1, 2, 4⟩, ⟨usb0PadCfg, 1, 2, 0⟩, ⟨usb2PadCfg, 2, 2, 4⟩, ⟨usb2PadCfg, 2, 2, 0⟩]
  else if func = saradcFuncSelect then
    if group = saradc0GroupSelect then [⟨saradcPadCfg, 1, 2, 0⟩]
    else if group = saradc1GroupSelect then [⟨saradcPadCfg, 1, 2, 4⟩]
    else if group = saradc2GroupSelect then [⟨saradcPadCfg, 1, 2, 8⟩]
    else [⟨saradcPadCfg, 1, 2, 12⟩]
  else if func = ssorFuncSelect then
    if group = mipiGroupSelect then
      [⟨videoPadCfg, 4, 4, 4⟩, ⟨videoPadCfg, 4, 4, 8⟩, ⟨videoPadCfg, 4, 4, 12⟩,
        ⟨videoPadCfg, 4, 4, 16⟩, ⟨videoPadCfg, 4, 4, 20⟩]
    else if group = dvpGroupSelect then
      [⟨videoPadCfg, 2, 4, 0⟩, ⟨videoPadCfg, 2, 4, 4⟩, ⟨videoPadCfg, 2, 4, 8⟩,
        ⟨videoPadCfg, 2, 4, 12⟩, ⟨videoPadCfg, 2, 4, 16⟩, ⟨videoPadCfg, 2, 4, 20⟩,
        ⟨videoPadCfg, 2, 4, 24⟩, ⟨videoPadCfg, 2, 4, 28⟩, ⟨padV18En, 0, 2, 0⟩]
    else []
  else if func = ssiFuncSelect then
    [⟨uart0PadCfg, 4, 3, 0⟩, ⟨uart0PadCfg, 4, 3, 4⟩, ⟨uart0PadCfg, 4, 3, 8⟩,
      ⟨uart0PadCfg, 4, 3, 12⟩]
  else if func = sdio0FuncSelect then
    [⟨sd0PadCfg, 2, 2, 0⟩] ++
    (if group = sdio0wpGroupSelect then [⟨sd0PadCfg, 2, 2, 4⟩]
    else if group = sdio0cdGroupSelect then [⟨sd0PadCfg, 2, 2, 2⟩]
    else [])
  else if func = sdio1FuncSelect then
    if group = sdio1GroupSelect then [⟨sd1PadCfg, 2, 4, 0⟩, ⟨sd1PadCfg, 0, 1, 12⟩]
    else if group = sdio1wpGroupSelect then [⟨sd1PadCfg, 2, 4, 8⟩]
    else if group = sdio1cdGroupSelect then [⟨sd1PadCfg, 2, 4, 4⟩]
    else if group = sdio1videoGroupSelect then
      [⟨gpio015PadCfg, 4, 4, 8⟩, ⟨sd1PadCfg, 1, 1, 12⟩, ⟨videoPadCfg, 4, 4, 0⟩,
        ⟨videoPadCfg, 4, 4, 24⟩, ⟨videoPadCfg, 4, 4, 28⟩, ⟨padV18En, 3, 2, 0⟩]
    else []
  else if func = spiFuncSelect then [⟨spiPadCfg, 2, 4, 0⟩]
  else []

/-! ## Values, directions and interrupts -/

/-- A shadow byte with the bit of a pin set or cleared. -/
def shadowSet (shadow : BitVec 8) (bf : Nat) (value : Int) : BitVec 8 :=
  if value ≠ 0 then shadow ||| 1#8 <<< bf else shadow &&& ~~~(1#8 <<< bf)

/-- The configurations of `rts_gpio_config_set`: `RTS_PINCONFIG_PULL_NONE` and so on. -/
inductive PinConfig where
  | pullNone | pullDown | pullUp | driveStrength | slewRate | input | output | other
  deriving DecidableEq

def IRQ_TYPE_NONE : Nat := 0
def IRQ_TYPE_EDGE_RISING : Nat := 1
def IRQ_TYPE_EDGE_FALLING : Nat := 2
def IRQ_TYPE_EDGE_BOTH : Nat := 3

/-- The distance of a group's rising-edge bits from its falling-edge bits in `GPIO_INT_EN`. -/
def intStride (sc : SharepinCfgAddr) : Nat :=
  let bs := sc.pinh - sc.pinl + 1
  if bs > 8 then 16 else if bs > 4 then 8 else 4

namespace RtsPinctrl

variable (rtspc : RtsPinctrl)

/-- A row of calls of `rts_gpio_set_field`. -/
def setFields (ws : List FieldWrite) : RtsPinctrl :=
  ws.foldl (fun rtspc w => rtspc.rtsGpioSetField w.reg w.field w.width w.offset) rtspc

def rtsGpioEnable (gpio : Nat) : Option RtsPinctrl :=
  (rtsGetPinaddr gpio).map fun sc => rtspc.setFields (gpioEnableWrite sc gpio)

/-- `rts_pmx_enable`, which always returns 0. -/
def rtsPmxEnable (func group : Nat) : Int × RtsPinctrl :=
  (0, rtspc.setFields (pmxEnableWrites func group))

/-! ## Values and directions -/

def rtsGpioGet (offset : Nat) : Option Word :=
  (rtsGetPinaddr offset).map fun sc =>
    let bf := offset - sc.pinl
    let oe := rtspc.rtsGpioGetField (sc.pinaddr + pinregsGpioOe) 1 bf
    if sc.pinl = 65 ∧ oe ≠ 0 then (rtspc.audioAddaGpioValue >>> bf &&& 1).setWidth 32
    else if sc.pinl = 78 ∧ oe ≠ 0 then (rtspc.usb0GpioValue >>> bf &&& 1).setWidth 32
    else if sc.pinl = 80 ∧ oe ≠ 0 then (rtspc.usb1GpioValue >>> bf &&& 1).setWidth 32
    else rtspc.rtsGpioGetField (sc.pinaddr + pinregsGpioValue) 1 bf

def rtsGpioSet (offset : Nat) (value : Int) : Option RtsPinctrl :=
  (rtsGetPinaddr offset).bind fun sc =>
    let bf := offset - sc.pinl
    let reg := sc.pinaddr + pinregsGpioValue
    if sc.pinl = 65 then
      let shadow := shadowSet rtspc.audioAddaGpioValue bf value
      some ({ rtspc with audioAddaGpioValue := shadow }.writel (shadow.setWidth 32) reg)
    else if sc.pinl = 78 then
      let shadow := shadowSet rtspc.usb0GpioValue bf value
      some ({ rtspc with usb0GpioValue := shadow }.writel (shadow.setWidth 32) reg)
    else if sc.pinl = 80 then
      let shadow := shadowSet rtspc.usb1GpioValue bf value
      some ({ rtspc with usb1GpioValue := shadow }.writel (shadow.setWidth 32) reg)
    else if value ≠ 0 then rtspc.rtsSetRegBit bf reg
    else rtspc.rtsClrRegBit bf reg

def rtsGpioConfigSet (pin : Nat) (config : PinConfig) (value : Word) : Option (Int × RtsPinctrl) :=
  (rtsGetPinaddr pin).map fun sc =>
    let bf := pin - sc.pinl
    match config with
    | .pullNone => (0, rtspc.rtsGpioSetField (sc.pinaddr + pinregsPullctrl) 0 2 (bf * 2))
    | .pullDown => (0, rtspc.rtsGpioSetField (sc.pinaddr + pinregsPullctrl) 1 2 (bf * 2))
    | .pullUp => (0, rtspc.rtsGpioSetField (sc.pinaddr + pinregsPullctrl) 2 2 (bf * 2))
    | .driveStrength =>
      (0, rtspc.rtsGpioSetField (sc.pinaddr + pinregsDrvSel) (value >>> 2 - 1) 1 bf)
    | .slewRate => (0, rtspc.rtsGpioSetField (sc.pinaddr + pinregsSrCtrl) value 1 bf)
    | .input =>
      (0, if pin < rtsMaxNgpio then rtspc.rtsGpioSetField (sc.pinaddr + pinregsGpioOe) 0 1 bf
        else rtspc)
    | .output =>
      (0, if pin < rtsMaxNgpio then rtspc.rtsGpioSetField (sc.pinaddr + pinregsGpioOe) 1 1 bf
        else rtspc)
    | .other => (-EINVAL, rtspc)

/-- `rts_pmx_gpio_set_direction`, which returns 0 whatever `rts_gpio_config_set` returned. -/
def rtsPmxGpioSetDirection (offset : Nat) (input : Bool) : Option (Int × RtsPinctrl) :=
  (rtspc.rtsGpioConfigSet offset (if input then .input else .output) 0).map fun r => (0, r.2)

/-- `pinctrl_gpio_direction`, with the driver's one pin range. -/
def pinctrlGpioDirection (gpio : Nat) (input : Bool) : Option (Int × RtsPinctrl) :=
  if gpio < rtsMaxNgpio then rtspc.rtsPmxGpioSetDirection gpio input
  else some (-EPROBE_DEFER, rtspc)

def rtsGpioDirectionInput (offset : Nat) : Option (Int × RtsPinctrl) :=
  rtspc.pinctrlGpioDirection offset true

def rtsGpioDirectionOutput (offset : Nat) (value : Int) : Option (Int × RtsPinctrl) :=
  (rtspc.rtsGpioSet offset value).bind fun rtspc => rtspc.pinctrlGpioDirection offset false

def rtsPmxRequest (offset : Nat) : Int × RtsPinctrl :=
  if offset > 119 then (-EINVAL, rtspc)
  else if offset > 63 then
    let bs := 1#64 <<< (offset - 64)
    if rtspc.pinsmask.2 &&& bs ≠ 0 then (-EBUSY, rtspc)
    else (0, { rtspc with pinsmask := (rtspc.pinsmask.1, rtspc.pinsmask.2 ||| bs) })
  else
    let bs := 1#64 <<< offset
    if rtspc.pinsmask.1 &&& bs ≠ 0 then (-EBUSY, rtspc)
    else (0, { rtspc with pinsmask := (rtspc.pinsmask.1 ||| bs, rtspc.pinsmask.2) })

def rtsPmxFree (offset : Nat) : Int × RtsPinctrl :=
  if offset > 119 then (-EINVAL, rtspc)
  else if offset > 63 then
    let bs := 1#64 <<< (offset - 64)
    if rtspc.pinsmask.2 &&& bs ≠ 0 then
      (0, { rtspc with pinsmask := (rtspc.pinsmask.1, rtspc.pinsmask.2 &&& ~~~bs) })
    else (-EINVAL, rtspc)
  else
    let bs := 1#64 <<< offset
    if rtspc.pinsmask.1 &&& bs ≠ 0 then
      (0, { rtspc with pinsmask := (rtspc.pinsmask.1 &&& ~~~bs, rtspc.pinsmask.2) })
    else (-EINVAL, rtspc)

def rtsGpioIrqEnable (gpio : Nat) : Option RtsPinctrl :=
  (rtsGetPinaddr gpio).bind fun sc =>
    let bf := gpio - sc.pinl
    let bs := intStride sc
    let intEn := sc.pinaddr + pinregsGpioIntEn
    if gpio < rtsMaxNgpio then
      (if rtspc.irqType gpio = IRQ_TYPE_EDGE_RISING ∨ rtspc.irqType gpio = IRQ_TYPE_EDGE_BOTH then
        rtspc.rtsSetRegBit (bf + bs) intEn
      else some rtspc).bind fun rtspc =>
        if rtspc.irqType gpio = IRQ_TYPE_EDGE_FALLING ∨ rtspc.irqType gpio = IRQ_TYPE_EDGE_BOTH then
          rtspc.rtsSetRegBit bf intEn
        else some rtspc
    else some rtspc

/-- `rts_gpio_irq_disable`, which takes `gpio` for the position of the bit. -/
def rtsGpioIrqDisable (gpio : Nat) : Option RtsPinctrl :=
  (rtsGetPinaddr gpio).bind fun sc =>
    let bs := intStride sc
    let intEn := sc.pinaddr + pinregsGpioIntEn
    if gpio < rtsMaxNgpio then
      (rtspc.rtsClrRegBit gpio intEn).bind fun rtspc => rtspc.rtsClrRegBit (gpio + bs) intEn
    else some rtspc

def rtsGpioIrqSetType (gpio type : Nat) : Int × RtsPinctrl :=
  if type = IRQ_TYPE_NONE ∨ type = IRQ_TYPE_EDGE_RISING ∨ type = IRQ_TYPE_EDGE_FALLING ∨
      type = IRQ_TYPE_EDGE_BOTH then
    (0, { rtspc with irqType := Function.update rtspc.irqType gpio type })
  else (-EINVAL, rtspc)

end RtsPinctrl

/-- The driver after its probe, with all registers 0. -/
def cleared : RtsPinctrl := ⟨fun _ => 0, fun _ => IRQ_TYPE_NONE, (0, 0), 0, 0, 0⟩

end RealtekIpcam.Pinctrl
