import RealtekIpcam.Pwm.Core

/-!
# The attributes of the RTS3917 PWM

The driver has its own attributes beside those of the core: for each of its four channels a
directory with `request`, `duty_ns`, `period_ns` and `enable`.  The driver keeps the duty and the
period, and the device it got from `pwm_request`, and asks the core for channel `i` under the
global number `i`.

The chip's registers are a block of 0x40 bytes for each channel, at an offset into `mmio`.
-/

namespace RealtekIpcam.Pwm

open Function

/-! ## The driver -/

def numPwm : Nat := 4

def xb2PwmEn : Nat := 0
def xb2PwmKeep : Nat := 4
def xb2PwmHigh : Nat := 8
def xb2PwmLow : Nat := 0xc

def pwmReg (num offset : Nat) : Nat := offset + num * 0x40

/-- The registers of the chip. -/
abbrev Mmio := Nat → Nat

def pwmWritel (mmio : Mmio) (num offset val : Nat) : Mmio :=
  update mmio (pwmReg num offset) val

def nsInHz : Nat := 1000000000

/-- The rate of the bus clock.  A period of it is at least a nanosecond. -/
structure Busclk where
  hz : Nat
  pos : 0 < hz
  le : hz ≤ nsInHz

def Busclk.tinNs (busclk : Busclk) : Nat := nsInHz / busclk.hz

/-- The counts that `rtsx_pwm_config` computes, as the registers take them. -/
def highCount (busclk : Busclk) (dutyNs : Int) : Nat := Words.u32 dutyNs / busclk.tinNs
def lowCount (busclk : Busclk) (dutyNs periodNs : Int) : Nat :=
  Words.u32 ((Words.u32 periodNs / busclk.tinNs : Nat) - (highCount busclk dutyNs : Int))

def rtsxPwmConfig (busclk : Busclk) (mmio : Mmio) (hwpwm dutyNs periodNs : Nat) : Int × Mmio :=
  let mmio := pwmWritel mmio hwpwm xb2PwmHigh (highCount busclk dutyNs)
  (0, pwmWritel mmio hwpwm xb2PwmLow (lowCount busclk dutyNs periodNs))

def rtsxPwmEnable (mmio : Mmio) (hwpwm : Nat) : Int × Mmio := (0, pwmWritel mmio hwpwm xb2PwmEn 1)

def rtsxPwmDisable (mmio : Mmio) (hwpwm : Nat) : Mmio := pwmWritel mmio hwpwm xb2PwmEn 0

def rtsxPwmOps (busclk : Busclk) : PwmOps Mmio where
  request := none
  free := none
  config := rtsxPwmConfig busclk
  setPolarity := none
  enable := rtsxPwmEnable
  disable := rtsxPwmDisable
  apply := none
  ownerLive := true

/-- `struct pwm_desc`.  `pwm` is the device the core gave, NULL if none was requested. -/
structure PwmDesc where
  pwm : Option (ChipRef × Nat)
  dutyNs : Int
  periodNs : Int
  deriving DecidableEq

structure RtsxPwmChip where
  chip : PwmChip Mmio
  busclk : Busclk
  desc : Nat → PwmDesc

/-! ## All chips -/

/-- The numbers, the chip of the RTS3917 once it is there, and all other chips. -/
structure PwmSystem (η : Type) where
  numbers : PwmNumbers
  rts : Option RtsxPwmChip
  others : Nat → Option (PwmChip η)

variable {η : Type}

/-- A call of the core on the device that a pointer leads to. -/
def PwmSystem.onDevice (s : PwmSystem η) (pwm : ChipRef × Nat)
    (call : {η : Type} → PwmChip η → Nat → Int × PwmChip η) : Int × PwmSystem η :=
  match pwm.1 with
  | .rts =>
    match s.rts with
    | none => (-ENODEV, s)
    | some rts =>
      let (ret, chip) := call rts.chip pwm.2
      (ret, { s with rts := some { rts with chip := chip } })
  | .other id =>
    match s.others id with
    | none => (-ENODEV, s)
    | some chip =>
      let (ret, chip) := call chip pwm.2
      (ret, { s with others := update s.others id (some chip) })

def EPROBE_DEFER : Int := 517

def PwmSystem.pwmRequest (s : PwmSystem η) (pwm : Nat) :
    Except Int (ChipRef × Nat) × PwmSystem η :=
  if pwm ≥ maxPwms then (.error (-EINVAL), s)
  else
    match s.numbers.tree pwm with
    | none => (.error (-EPROBE_DEFER), s)
    | some dev =>
      let (err, s) := s.onDevice dev pwmDeviceRequest
      if err < 0 then (.error err, s) else (.ok dev, s)

/-- The attributes. -/
inductive PwmAttr where
  | request
  | dutyNs
  | periodNs
  | enable
  deriving DecidableEq

/-- A change of what the driver keeps about a channel. -/
def PwmSystem.setDesc (s : PwmSystem η) (i : Nat) (desc : PwmDesc) : PwmSystem η :=
  { s with rts := s.rts.map fun rts => { rts with desc := update rts.desc i desc } }

/-- `request_store`, for a number.  The value is the error, none if the write succeeds. -/
def requestStore (s : PwmSystem η) (rts : RtsxPwmChip) (i : Nat) (val : Int) :
    Option Int × PwmSystem η :=
  let desc := rts.desc i
  if val ≠ 0 then
    if desc.pwm = none then
      match s.pwmRequest i with
      | (.error err, s) => (some err, s)
      | (.ok pdev, s) => (none, s.setDesc i { desc with pwm := some pdev })
    else (some (-EBUSY), s)
  else
    let s := match desc.pwm with
      | none => s
      | some pwm => (s.onDevice pwm fun chip i => (0, pwmPut chip i)).2
    (none, s.setDesc i { desc with pwm := none })

def EIO : Int := 5
def ERANGE : Int := 34

/-- `duty_ns_store` and `period_ns_store`, for a number: what is stored where. -/
def numberStore (s : PwmSystem η) (rts : RtsxPwmChip) (i : Nat) (val : Int)
    (set : PwmDesc → PwmDesc) : Option Int × PwmSystem η :=
  if val ≥ 0x40000000 then (some (-ERANGE), s)
  else if (rts.desc i).pwm = none then (some (- EIO), s)
  else (none, s.setDesc i (set (rts.desc i)))

/-- `enable_store`, for a number.  What the core answers is not looked at. -/
def enableStore (s : PwmSystem η) (rts : RtsxPwmChip) (i : Nat) (val : Int) :
    Option Int × PwmSystem η :=
  let desc := rts.desc i
  match desc.pwm with
  | none => (some (- EIO), s)
  | some pwm =>
    if val ≠ 0 then
      let s := (s.onDevice pwm (pwmConfig desc.dutyNs desc.periodNs)).2
      (none, (s.onDevice pwm pwmEnable).2)
    else (none, (s.onDevice pwm fun chip i => (0, pwmDisable chip i)).2)

/-- A write to an attribute of a channel.  `val` is what `kstrtol` makes of the text. -/
def attrStore (s : PwmSystem η) (rts : RtsxPwmChip) (i : Nat) (attr : PwmAttr)
    (val : Except Int Int) : Option Int × PwmSystem η :=
  match val with
  | .error err => (some err, s)
  | .ok val =>
    match attr with
    | .request => requestStore s rts i val
    | .dutyNs => numberStore s rts i val fun desc => { desc with dutyNs := val }
    | .periodNs => numberStore s rts i val fun desc => { desc with periodNs := val }
    | .enable => enableStore s rts i val

/-- What happens to the system. -/
inductive PwmEvent (η : Type) where
  /-- Another chip is registered. -/
  | add (id : Nat) (ops : PwmOps η) (base : Int) (npwm : Nat) (states : Nat → PwmState) (hw : η)
    (memory : Bool)
  /-- It is removed, if none of its devices is requested. -/
  | remove (id : Nat)
  /-- The RTS3917's PWM is probed. -/
  | probe (busclk : Busclk) (memory : Bool)
  /-- A write to an attribute of one of its channels. -/
  | write (i : Nat) (attr : PwmAttr) (val : Except Int Int)

/-- The part of `rtsx_pwm_probe` that concerns the registers, which are clear after reset, and the
core.  The base is left to the core. -/
def rtsxPwmProbe (s : PwmSystem η) (busclk : Busclk) (memory : Bool) : PwmSystem η :=
  let mmio : Mmio := (List.range numPwm).foldl (fun mmio i => pwmWritel mmio i xb2PwmKeep 1)
    fun _ => 0
  match pwmchipAdd s.numbers .rts (rtsxPwmOps busclk) (-1) numPwm (fun _ => ⟨0, 0, .normal, false⟩)
    mmio memory with
  | none => s
  | some (numbers, chip) =>
    { s with
      numbers := numbers
      rts := some { chip := chip, busclk := busclk, desc := fun _ => ⟨none, 0, 0⟩ } }

def pwmStep (s : PwmSystem η) : PwmEvent η → Option (PwmSystem η)
  | .add id ops base npwm states hw memory =>
    if (s.others id).isSome then none
    else
      match pwmchipAdd s.numbers (.other id) ops base npwm states hw memory with
      | none => some s
      | some (numbers, chip) =>
        some { s with numbers := numbers, others := update s.others id (some chip) }
  | .remove id =>
    match s.others id with
    | none => none
    | some chip =>
      if (List.range chip.npwm).any fun i => (chip.pwms i).requested then some s
      else
        some { s with
          numbers := s.numbers.remove chip.base chip.npwm
          others := update s.others id none }
  | .probe busclk memory => if s.rts.isSome then none else some (rtsxPwmProbe s busclk memory)
  | .write i attr val =>
    match s.rts with
    | none => none
    | some rts => if i < numPwm then some (attrStore s rts i attr val).2 else none

/-- Before any chip is registered. -/
def PwmSystem.start : PwmSystem η := ⟨⟨fun _ => false, fun _ => none⟩, none, fun _ => none⟩

end RealtekIpcam.Pwm
