import RealtekIpcam.Lib.Words

/-!
# The PWM core

Every chip gets a range of the global numbers when it is registered, the first free one if it
does not ask for a certain base.  `pwm_request` goes by the global number, everything else by
the device that it returns.  The core remembers what it has programmed and calls the driver only
for a change.

A chip's driver is any `PwmOps` over any type `η` of hardware states.
-/

namespace RealtekIpcam.Pwm

def EBUSY : Int := 16
def EEXIST : Int := 17
def ENODEV : Int := 19
def EINVAL : Int := 22
def ENOSPC : Int := 28
def ENOTSUPP : Int := 524

/-! ## Devices -/

inductive PwmPolarity where
  | normal
  | inversed
  deriving DecidableEq

structure PwmState where
  period : Nat
  dutyCycle : Nat
  polarity : PwmPolarity
  enabled : Bool
  deriving DecidableEq

/-- `struct pwm_device`: the flag `PWMF_REQUESTED`, and the state that was programmed. -/
structure PwmDevice where
  requested : Bool
  state : PwmState
  deriving DecidableEq

/-- `struct pwm_ops` of a driver over hardware states `η`.  A callback that the core does without is
an option; `ownerLive` says whether `try_module_get` succeeds. -/
structure PwmOps (η : Type) where
  request : Option (η → Nat → Int × η)
  free : Option (η → Nat → η)
  config : η → Nat → Nat → Nat → Int × η
  setPolarity : Option (η → Nat → PwmPolarity → Int × η)
  enable : η → Nat → Int × η
  disable : η → Nat → η
  apply : Option (η → Nat → PwmState → Int × η)
  ownerLive : Bool

/-- `struct pwm_chip`, with its devices and its hardware. -/
structure PwmChip (η : Type) where
  ops : PwmOps η
  base : Nat
  npwm : Nat
  pwms : Nat → PwmDevice
  hw : η

variable {η : Type}

/-- A change of a device's state. -/
def PwmChip.setState (chip : PwmChip η) (i : Nat) (state : PwmState) : PwmChip η :=
  { chip with pwms := Function.update chip.pwms i { chip.pwms i with state := state } }

/-- A change of a device's flag. -/
def PwmChip.setRequested (chip : PwmChip η) (i : Nat) (requested : Bool) : PwmChip η :=
  { chip with pwms := Function.update chip.pwms i { chip.pwms i with requested := requested } }

def pwmDeviceRequest (chip : PwmChip η) (i : Nat) : Int × PwmChip η :=
  if (chip.pwms i).requested then (-EBUSY, chip)
  else if !chip.ops.ownerLive then (-ENODEV, chip)
  else
    let (err, hw) := match chip.ops.request with
      | some request => request chip.hw i
      | none => (0, chip.hw)
    let chip := { chip with hw := hw }
    if err ≠ 0 then (err, chip) else (0, chip.setRequested i true)

def pwmPut (chip : PwmChip η) (i : Nat) : PwmChip η :=
  if !(chip.pwms i).requested then chip
  else
    let chip := chip.setRequested i false
    match chip.ops.free with
    | some free => { chip with hw := free chip.hw i }
    | none => chip

/-- The part of `pwm_apply_state` that sets the polarity: a running channel is stopped first. -/
def applyPolarity (chip : PwmChip η) (i : Nat) (polarity : PwmPolarity) : Int × PwmChip η :=
  let state := (chip.pwms i).state
  if polarity = state.polarity then (0, chip)
  else
    match chip.ops.setPolarity with
    | none => (-ENOTSUPP, chip)
    | some setPolarity =>
      let (state, hw) :=
        if state.enabled then ({ state with enabled := false }, chip.ops.disable chip.hw i)
        else (state, chip.hw)
      let (err, hw) := setPolarity hw i polarity
      let chip := { chip with hw := hw }
      if err ≠ 0 then (err, chip.setState i state)
      else (0, chip.setState i { state with polarity := polarity })

/-- The part of it that sets the period and the duty cycle. -/
def applyConfig (chip : PwmChip η) (i : Nat) (period dutyCycle : Nat) : Int × PwmChip η :=
  let state := (chip.pwms i).state
  if period = state.period ∧ dutyCycle = state.dutyCycle then (0, chip)
  else
    let (err, hw) := chip.ops.config chip.hw i dutyCycle period
    let chip := { chip with hw := hw }
    if err ≠ 0 then (err, chip)
    else (0, chip.setState i { state with period := period, dutyCycle := dutyCycle })

/-- The part of it that switches the channel on or off. -/
def applyEnabled (chip : PwmChip η) (i : Nat) (enabled : Bool) : Int × PwmChip η :=
  let state := (chip.pwms i).state
  if enabled = state.enabled then (0, chip)
  else
    let (err, hw) := if enabled then chip.ops.enable chip.hw i else (0, chip.ops.disable chip.hw i)
    let chip := { chip with hw := hw }
    if err ≠ 0 then (err, chip) else (0, chip.setState i { state with enabled := enabled })

def pwmApplyState (chip : PwmChip η) (i : Nat) (state : PwmState) : Int × PwmChip η :=
  if state.period = 0 ∨ state.dutyCycle > state.period then (-EINVAL, chip)
  else if state = (chip.pwms i).state then (0, chip)
  else
    match chip.ops.apply with
    | some apply =>
      let (err, hw) := apply chip.hw i state
      let chip := { chip with hw := hw }
      if err ≠ 0 then (err, chip) else (0, chip.setState i state)
    | none =>
      let (err, chip) := applyPolarity chip i state.polarity
      if err ≠ 0 then (err, chip)
      else
        let (err, chip) := applyConfig chip i state.period state.dutyCycle
        if err ≠ 0 then (err, chip) else applyEnabled chip i state.enabled

def pwmConfig (dutyNs periodNs : Int) (chip : PwmChip η) (i : Nat) : Int × PwmChip η :=
  if dutyNs < 0 ∨ periodNs < 0 then (-EINVAL, chip)
  else
    let state := (chip.pwms i).state
    if state.dutyCycle = dutyNs ∧ state.period = periodNs then (0, chip)
    else pwmApplyState chip i { state with dutyCycle := dutyNs.toNat, period := periodNs.toNat }

def pwmEnable (chip : PwmChip η) (i : Nat) : Int × PwmChip η :=
  let state := (chip.pwms i).state
  if state.enabled then (0, chip) else pwmApplyState chip i { state with enabled := true }

def pwmDisable (chip : PwmChip η) (i : Nat) : PwmChip η :=
  let state := (chip.pwms i).state
  if !state.enabled then chip else (pwmApplyState chip i { state with enabled := false }).2

/-! ## Numbers -/

def maxPwms : Nat := 1024

/-- Which chip: the one of the RTS3917, or another. -/
inductive ChipRef where
  | rts
  | other (id : Nat)
  deriving DecidableEq

/-- `allocated_pwms` and `pwm_tree`: the numbers that are taken, and the devices they belong to. -/
structure PwmNumbers where
  allocated : Nat → Bool
  tree : Nat → Option (ChipRef × Nat)

/-- `bitmap_find_next_zero_area`: the first free range from a number on. -/
def PwmNumbers.findNextZeroArea (numbers : PwmNumbers) (start count : Nat) : Option Nat :=
  (List.range (maxPwms + 1 - count)).find? fun n =>
    start ≤ n && (List.range count).all fun k => !numbers.allocated (n + k)

def allocPwms (numbers : PwmNumbers) (pwm : Int) (count : Nat) : Except Int Nat :=
  if pwm ≥ maxPwms then .error (-EINVAL)
  else
    match numbers.findNextZeroArea (if pwm ≥ 0 then pwm.toNat else 0) count with
    | none => .error (if pwm ≥ 0 then -EEXIST else -ENOSPC)
    | some start => if pwm ≥ 0 ∧ (start : Int) ≠ pwm then .error (-EEXIST) else .ok start

/-- The numbers from `base` on are given to the devices of a chip. -/
def PwmNumbers.insert (numbers : PwmNumbers) (chip : ChipRef) (base npwm : Nat) : PwmNumbers where
  allocated n := if base ≤ n ∧ n < base + npwm then true else numbers.allocated n
  tree n := if base ≤ n ∧ n < base + npwm then some (chip, n - base) else numbers.tree n

/-- `free_pwms`. -/
def PwmNumbers.remove (numbers : PwmNumbers) (base npwm : Nat) : PwmNumbers where
  allocated n := if base ≤ n ∧ n < base + npwm then false else numbers.allocated n
  tree n := if base ≤ n ∧ n < base + npwm then none else numbers.tree n

/-- `pwmchip_add`.  The devices get the given initial states; there may be no memory for them. -/
def pwmchipAdd (numbers : PwmNumbers) (chip : ChipRef) (ops : PwmOps η) (base : Int) (npwm : Nat)
    (states : Nat → PwmState) (hw : η) (memory : Bool) : Option (PwmNumbers × PwmChip η) :=
  match allocPwms numbers base npwm with
  | .error _ => none
  | .ok start =>
    if npwm = 0 ∨ !memory then none
    else some (numbers.insert chip start npwm,
      ⟨ops, start, npwm, fun i => ⟨false, states i⟩, hw⟩)

end RealtekIpcam.Pwm
