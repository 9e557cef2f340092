import RealtekIpcam.Pinctrl.Driver
import Mathlib.Data.List.Count

/-!
# The pinmux core

The core keeps for every registered pin how many mux settings claim it, the device they belong
to, the setting that was enabled last, and the GPIO that owns it.  The driver has a say
through its callbacks: it may refuse a request, and its module must be there.  All of this is
in `PinmuxOps`, over any type `δ` of driver states, so that a driver whose answers vary is a
`δ` that says how.

`MuxRequest`, `GpioRequest` and `MuxFree` list what a call of `pin_request` and `pin_free` can do.
Everything else about the core is derived from them.
-/

namespace RealtekIpcam.Pinctrl

open Function

/-! ## The model -/

/-- `struct pinctrl_setting` of the type mux.  `addr` is where it lies; `mux_setting` pointers
compare it. -/
structure PinctrlSetting where
  addr : Nat
  devName : String
  func : Nat
  group : Nat
  deriving DecidableEq

structure PinDesc where
  muxUsecount : Word
  muxOwner : Option String
  muxSetting : Option PinctrlSetting
  gpioOwner : Option String
  deriving DecidableEq

/-- The callbacks of `struct pinmux_ops` and `struct pinctrl_ops` that the core calls, and the
count of references to the driver's module.  A callback that may be absent is an option. -/
structure PinmuxOps (δ : Type) where
  strict : Bool
  getGroupPins : Option (Nat → Int × List Nat)
  request : Option (δ → Nat → Int × δ)
  free : Option (δ → Nat → δ)
  gpioRequestEnable : Option (δ → Nat → Int × δ)
  gpioDisableFree : Option (δ → Nat → δ)
  setMux : δ → Nat → Nat → Int × δ
  tryModuleGet : δ → Bool × δ
  modulePut : δ → δ

/-- `struct pinctrl_dev`: the registered pins, and the driver. -/
structure PinctrlDev (δ : Type) where
  desc : Nat → Option PinDesc
  drv : δ

variable {δ : Type}

def PinctrlDev.setDesc (dev : PinctrlDev δ) (pin : Nat) (d : PinDesc) : PinctrlDev δ :=
  { dev with desc := update dev.desc pin (some d) }

namespace PinmuxOps

variable (ops : PinmuxOps δ) (dev : PinctrlDev δ)

/-- The part of `pin_request` that asks the driver: a reference to the module, then the pin.  A
reference for a pin that is refused is given back. -/
def pinAcquire (drv : δ) (pin : Nat) (gpioRange : Bool) : Int × δ :=
  match ops.tryModuleGet drv with
  | (false, drv) => (-EINVAL, drv)
  | (true, drv) =>
    let (status, drv) := match gpioRange, ops.gpioRequestEnable, ops.request with
      | true, some gpioRequestEnable, _ => gpioRequestEnable drv pin
      | _, _, some request => request drv pin
      | _, _, none => (0, drv)
    if status ≠ 0 then (status, ops.modulePut drv) else (0, drv)

def pinRequest (pin : Nat) (owner : String) (gpioRange : Bool) : Int × PinctrlDev δ :=
  match dev.desc pin with
  | none => (-EINVAL, dev)
  | some desc =>
    if (!gpioRange || ops.strict) ∧ desc.muxUsecount ≠ 0 ∧ desc.muxOwner ≠ some owner then
      (-EINVAL, dev)
    else if (gpioRange || ops.strict) ∧ desc.gpioOwner.isSome then (-EINVAL, dev)
    else if gpioRange then
      let (status, drv) := ops.pinAcquire dev.drv pin gpioRange
      let gpioOwner := if status ≠ 0 then none else some owner
      (status, { dev with drv := drv }.setDesc pin { desc with gpioOwner := gpioOwner })
    else
      let muxUsecount := desc.muxUsecount + 1
      if 1 < muxUsecount then (0, dev.setDesc pin { desc with muxUsecount := muxUsecount })
      else
        let (status, drv) := ops.pinAcquire dev.drv pin gpioRange
        if status ≠ 0 then
          let muxUsecount := muxUsecount - 1
          let muxOwner := if muxUsecount = 0 then none else some owner
          (status, { dev with drv := drv }.setDesc pin
            { desc with muxUsecount := muxUsecount, muxOwner := muxOwner })
        else
          (0, { dev with drv := drv }.setDesc pin
            { desc with muxUsecount := muxUsecount, muxOwner := some owner })

/-- The part of `pin_free` that tells the driver, and gives the reference back. -/
def pinRelease (drv : δ) (pin : Nat) (gpioRange : Bool) : δ :=
  ops.modulePut <| match gpioRange, ops.gpioDisableFree, ops.free with
    | true, some gpioDisableFree, _ => gpioDisableFree drv pin
    | _, _, some free => free drv pin
    | _, _, none => drv

def pinFree (pin : Nat) (gpioRange : Bool) : Option String × PinctrlDev δ :=
  match dev.desc pin with
  | none => (none, dev)
  | some desc =>
    if gpioRange then
      (desc.gpioOwner, { dev with drv := ops.pinRelease dev.drv pin gpioRange }.setDesc pin
        { desc with gpioOwner := none })
    else if desc.muxUsecount = 0 then (none, dev)
    else if desc.muxUsecount - 1 ≠ 0 then
      (none, dev.setDesc pin { desc with muxUsecount := desc.muxUsecount - 1 })
    else
      (desc.muxOwner, { dev with drv := ops.pinRelease dev.drv pin gpioRange }.setDesc pin
        { desc with muxUsecount := 0, muxOwner := none, muxSetting := none })

/-- `pinmux_request_gpio`.  The owner's name is `none` when there is no memory for it. -/
def pinmuxRequestGpio (pin : Nat) (owner : Option String) : Int × PinctrlDev δ :=
  match owner with
  | none => (-ENOMEM, dev)
  | some owner => ops.pinRequest dev pin owner true

def pinmuxFreeGpio (pin : Nat) : PinctrlDev δ := (ops.pinFree dev pin true).2

/-- The pins of a setting's group, none when they cannot be told. -/
def groupPins (group : Nat) : List Nat :=
  match ops.getGroupPins with
  | none => []
  | some getGroupPins =>
    let (ret, pins) := getGroupPins group
    if ret ≠ 0 then [] else pins

/-- The loop of `pinmux_enable_setting` over the pins of the group.  It also returns the pins taken,
the last one first. -/
def requestPins (owner : String) :
    PinctrlDev δ → List Nat → List Nat → Int × List Nat × PinctrlDev δ
  | dev, [], taken => (0, taken, dev)
  | dev, pin :: pins, taken =>
    let (ret, dev) := ops.pinRequest dev pin owner false
    if ret ≠ 0 then (ret, taken, dev) else requestPins owner dev pins (pin :: taken)

/-- The loop that frees the pins taken. -/
def freePins : PinctrlDev δ → List Nat → PinctrlDev δ
  | dev, [] => dev
  | dev, pin :: taken => freePins (ops.pinFree dev pin false).2 taken

end PinmuxOps

/-- The loops that write `mux_setting`. -/
def PinctrlDev.markPins (setting : Option PinctrlSetting) : PinctrlDev δ → List Nat → PinctrlDev δ
  | dev, [] => dev
  | dev, pin :: pins =>
    match dev.desc pin with
    | none => markPins setting dev pins
    | some desc => markPins setting (dev.setDesc pin { desc with muxSetting := setting }) pins

namespace PinmuxOps

variable (ops : PinmuxOps δ) (dev : PinctrlDev δ)

def pinmuxEnableSetting (setting : PinctrlSetting) : Int × PinctrlDev δ :=
  let pins := ops.groupPins setting.group
  let (ret, taken, dev) := ops.requestPins setting.devName dev pins []
  if ret ≠ 0 then (ret, ops.freePins dev taken)
  else
    let dev := dev.markPins (some setting) pins
    let (ret, drv) := ops.setMux dev.drv setting.func setting.group
    let dev := { dev with drv := drv }
    if ret ≠ 0 then (ret, ops.freePins (dev.markPins none pins) taken) else (0, dev)

/-- The loop of `pinmux_disable_setting`: a pin that has another setting by now is not freed. -/
def disablePins (setting : PinctrlSetting) : PinctrlDev δ → List Nat → PinctrlDev δ
  | dev, [] => dev
  | dev, pin :: pins =>
    match dev.desc pin with
    | none => disablePins setting dev pins
    | some desc =>
      if desc.muxSetting = some setting then
        disablePins setting (ops.pinFree dev pin false).2 pins
      else disablePins setting dev pins

def pinmuxDisableSetting (setting : PinctrlSetting) : PinctrlDev δ :=
  ops.disablePins setting dev (ops.groupPins setting.group)

end PinmuxOps

/-! ## What one call can do -/

theorem PinctrlDev.setDesc_desc (dev : PinctrlDev δ) (pin : Nat) (d : PinDesc) (p : Nat) :
    (dev.setDesc pin d).desc p = if p = pin then some d else dev.desc p := by
  show update dev.desc pin (some d) p = _
  by_cases hp : p = pin
  · rw [if_pos hp, hp, update_self]
  · rw [if_neg hp, update_of_ne hp]

theorem PinctrlDev.setDesc_self {dev : PinctrlDev δ} {pin : Nat} {d : PinDesc}
    (h : dev.desc pin = some d) : dev.setDesc pin d = dev := by
  unfold PinctrlDev.setDesc
  rw [← h, update_eq_self]

variable (ops : PinmuxOps δ) (dev : PinctrlDev δ) (pin : Nat) (owner : String)

/-- What `pin_request` can do for a mux setting. -/
inductive MuxRequest : Int × PinctrlDev δ → Prop
  /-- The core refuses. -/
  | refused : MuxRequest (-EINVAL, dev)
  /-- The driver refuses. -/
  | failed (h : (ops.pinAcquire dev.drv pin false).1 ≠ 0) :
    MuxRequest ((ops.pinAcquire dev.drv pin false).1,
      { dev with drv := (ops.pinAcquire dev.drv pin false).2 })
  /-- The owner has the pin already. -/
  | again (d : PinDesc) (hd : dev.desc pin = some d) (hclaimed : d.muxUsecount ≠ 0)
    (howner : d.muxOwner = some owner) (hwrap : d.muxUsecount + 1 ≠ 0) :
    MuxRequest (0, dev.setDesc pin { d with muxUsecount := d.muxUsecount + 1 })
  /-- Nobody has the pin. -/
  | first (d : PinDesc) (hd : dev.desc pin = some d) (hfree : d.muxUsecount = 0)
    (hacquire : (ops.pinAcquire dev.drv pin false).1 = 0) :
    MuxRequest (0, { dev with drv := (ops.pinAcquire dev.drv pin false).2 }.setDesc pin
      { d with muxUsecount := 1, muxOwner := some owner })
  /-- The count wraps, so the pin looks as if nobody had it, and the driver grants it. -/
  | wrapped (d : PinDesc) (hd : dev.desc pin = some d) (hwrap : d.muxUsecount + 1 = 0)
    (howner : d.muxOwner = some owner) (hacquire : (ops.pinAcquire dev.drv pin false).1 = 0) :
    MuxRequest (0, { dev with drv := (ops.pinAcquire dev.drv pin false).2 }.setDesc pin
      { d with muxUsecount := 0, muxOwner := some owner })

/-- What `pin_request` can do for a GPIO. -/
inductive GpioRequest : Int × PinctrlDev δ → Prop
  | refused : GpioRequest (-EINVAL, dev)
  | failed (h : (ops.pinAcquire dev.drv pin true).1 ≠ 0) :
    GpioRequest ((ops.pinAcquire dev.drv pin true).1,
      { dev with drv := (ops.pinAcquire dev.drv pin true).2 })
  | granted (d : PinDesc) (hd : dev.desc pin = some d) (hfree : d.gpioOwner = none)
    (hacquire : (ops.pinAcquire dev.drv pin true).1 = 0) :
    GpioRequest (0, { dev with drv := (ops.pinAcquire dev.drv pin true).2 }.setDesc pin
      { d with gpioOwner := some owner })

/-- What `pin_free` can do for a mux setting. -/
inductive MuxFree : PinctrlDev δ → Prop
  /-- The pin is not registered, or nobody claims it. -/
  | idle (h : ∀ d, dev.desc pin = some d → d.muxUsecount = 0) : MuxFree dev
  /-- Other claims remain. -/
  | shared (d : PinDesc) (hd : dev.desc pin = some d) (hclaimed : d.muxUsecount ≠ 0)
    (hmore : d.muxUsecount - 1 ≠ 0) :
    MuxFree (dev.setDesc pin { d with muxUsecount := d.muxUsecount - 1 })
  /-- It was the last claim. -/
  | last (d : PinDesc) (hd : dev.desc pin = some d) (hlast : d.muxUsecount = 1) :
    MuxFree ({ dev with drv := ops.pinRelease dev.drv pin false }.setDesc pin
      { d with muxUsecount := 0, muxOwner := none, muxSetting := none })

variable {ops dev pin owner}

/-- If nobody claims the pin, it has neither an owner nor a setting. -/
def PinctrlDev.FreeUnowned (dev : PinctrlDev δ) (pin : Nat) : Prop :=
  ∀ d, dev.desc pin = some d → d.muxUsecount = 0 → d.muxOwner = none ∧ d.muxSetting = none

variable (ops owner) in
theorem muxRequest (hfree : dev.FreeUnowned pin) :
    MuxRequest ops dev pin owner (ops.pinRequest dev pin owner false) := by
  unfold PinmuxOps.pinRequest
  cases hd : dev.desc pin with
  | none => exact .refused
  | some d =>
    simp only [Bool.not_false, Bool.true_or, true_and, Bool.false_or, Bool.false_eq_true, if_false]
    split
    · exact .refused
    rename_i hown
    split
    · exact .refused
    by_cases hmany : 1 < d.muxUsecount + 1
    · rw [if_pos hmany]
      have hclaimed : d.muxUsecount ≠ 0 := by
        intro h0
        rw [h0] at hmany
        exact absurd hmany (by decide)
      have howner : d.muxOwner = some owner := by
        by_contra hne
        exact hown ⟨hclaimed, hne⟩
      exact .again d hd hclaimed howner fun hw => by
        rw [hw] at hmany
        exact absurd hmany (by decide)
    · rw [if_neg hmany]
      have hcases : d.muxUsecount = 0 ∨ d.muxUsecount + 1 = 0 := by
        bv_omega
      by_cases hacquire : (ops.pinAcquire dev.drv pin false).1 = 0
      · rw [if_neg (not_not_intro hacquire)]
        rcases hcases with h0 | hw
        · rw [h0]
          exact .first d hd h0 hacquire
        · rw [hw]
          refine .wrapped d hd hw ?_ hacquire
          by_contra hne
          refine hown ⟨fun h0 => ?_, hne⟩
          rw [h0] at hw
          exact absurd hw (by decide)
      · rw [if_pos hacquire]
        have hback : d.muxUsecount + 1 - 1 = d.muxUsecount := by
          bv_omega
        have hdesc : { d with
            muxUsecount := d.muxUsecount + 1 - 1
            muxOwner := if d.muxUsecount + 1 - 1 = 0 then none else some owner } = d := by
          rw [hback]
          by_cases h0 : d.muxUsecount = 0
          · rw [if_pos h0, ← (hfree d hd h0).1]
          · rw [if_neg h0]
            have howner : d.muxOwner = some owner := by
              by_contra hne
              exact hown ⟨h0, hne⟩
            rw [← howner]
        have hsame :
            ({ dev with drv := (ops.pinAcquire dev.drv pin false).2 } : PinctrlDev δ).setDesc pin d
            = { dev with drv := (ops.pinAcquire dev.drv pin false).2 } :=
          PinctrlDev.setDesc_self hd
        rw [hdesc, hsame]
        exact .failed hacquire

variable (ops dev pin owner) in
theorem gpioRequest : GpioRequest ops dev pin owner (ops.pinRequest dev pin owner true) := by
  unfold PinmuxOps.pinRequest
  cases hd : dev.desc pin with
  | none => exact .refused
  | some d =>
    simp only [Bool.true_or, true_and, if_true]
    split
    · exact .refused
    split
    · exact .refused
    rename_i hgpio
    have hfree : d.gpioOwner = none := by
      cases hg : d.gpioOwner with
      | none => rfl
      | some g => exact absurd (by rw [hg]; rfl) hgpio
    by_cases hacquire : (ops.pinAcquire dev.drv pin true).1 = 0
    · simp only [hacquire, ne_eq, not_true_eq_false, if_false]
      exact .granted d hd hfree hacquire
    · simp only [hacquire, ne_eq, not_false_eq_true, if_true]
      have hdesc : { d with gpioOwner := none } = d := by rw [← hfree]
      have hsame : ({ dev with drv := (ops.pinAcquire dev.drv pin true).2 } : PinctrlDev δ).setDesc
          pin d = { dev with drv := (ops.pinAcquire dev.drv pin true).2 } :=
        PinctrlDev.setDesc_self hd
      rw [hdesc, hsame]
      exact .failed hacquire

variable (ops dev pin) in
theorem muxFree : MuxFree ops dev pin (ops.pinFree dev pin false).2 := by
  unfold PinmuxOps.pinFree
  cases hd : dev.desc pin with
  | none => exact .idle fun d hd' => by rw [hd] at hd'; cases hd'
  | some d =>
    simp only [Bool.false_eq_true, if_false]
    split
    · rename_i h0
      refine .idle fun d' hd' => ?_
      rw [hd, Option.some_inj] at hd'
      rw [← hd', h0]
    rename_i h0
    split
    · rename_i hmore
      exact .shared d hd h0 hmore
    · rename_i hlast
      refine .last d hd ?_
      bv_omega

end RealtekIpcam.Pinctrl
