import RealtekIpcam.Gpiolib.Descriptors

/-!
# Directions and interrupts of GPIO lines

A line whose interrupt is enabled should not be driven by its chip, unless as open drain.  Some
operations check for it: `gpiod_direction_output` refuses a line with an enabled interrupt, and
`gpiochip_lock_as_irq` refuses an output.  Others do not: the raw output, the emulated open source,
`gpiochip_enable_irq`, which only warns, and those that change what the check goes by, like
`gpiod_free`, which forgets that the line is open drain.

`excluded_iff` says which steps let an enabled interrupt and a driven output meet.
-/

namespace RealtekIpcam.Gpiolib.Directions

open Function Runs Sysfs

/-! ## The operations -/

/-- A line: its descriptor, and whether its driver was last told to make it an output. -/
structure Pin where
  desc : Desc
  out : Bool
  deriving DecidableEq

/-- The bits of `enum gpio_lookup_flags`. -/
structure LookupFlags where
  activeLow : Bool
  openDrain : Bool
  openSource : Bool
  transitory : Bool
  pullUp : Bool
  pullDown : Bool

/-- The bits of `enum gpiod_flags`. -/
structure GpiodFlags where
  dirSet : Bool
  dirOut : Bool
  dirVal : Bool
  openDrain : Bool

namespace Pin

variable (chip : Chip) (c : Calls)

/-- `gpio_set_config` for the drive of the line. -/
def setDrive : Int := if chip.setConfig then c.setDrive else -ENOTSUPP

def gpiodDirectionInput (p : Pin) : Int × Pin :=
  let ret := p.desc.gpiodDirectionInput (some chip) c
  (ret.1, { desc := ret.2
            out :=
              if chip.get && chip.directionInput && c.directionInput = 0 then false else p.out })

def gpiodDirectionOutputRaw (p : Pin) : Int × Pin :=
  let ret := p.desc.gpiodDirectionOutputRaw (some chip) c
  (ret.1, { desc := ret.2
            out := if chip.directionOutput && c.directionOutput = 0 then true else p.out })

/-- The end of `gpiod_direction_output` for a level that is left to the pull. -/
def emulateOutput (p : Pin) : Int × Pin :=
  let ret := p.gpiodDirectionInput chip c
  (ret.1, if ret.1 = 0 then { ret.2 with desc := { ret.2.desc with isOut := true } } else ret.2)

def gpiodDirectionOutput (value : Bool) (p : Pin) : Int × Pin :=
  let value := value != p.desc.activeLow
  if p.desc.usedAsIrq && p.desc.irqIsEnabled then (- Sysfs.EIO, p)
  else if p.desc.openDrain then
    if setDrive chip c = 0 then p.gpiodDirectionOutputRaw chip c
    else if value then p.emulateOutput chip c
    else p.gpiodDirectionOutputRaw chip c
  else if p.desc.openSource then
    if setDrive chip c = 0 then p.gpiodDirectionOutputRaw chip c
    else if !value then p.emulateOutput chip c
    else p.gpiodDirectionOutputRaw chip c
  else p.gpiodDirectionOutputRaw chip c

/-- What `gpio_set_open_drain_value_commit` and `gpio_set_open_source_value_commit` have in common:
the one level is driven and the other left to the pull.  The operation has to be there. -/
def setEmulated (drive : Bool) (p : Pin) : Option Pin :=
  if drive then
    if chip.directionOutput then
      some (if c.directionOutput = 0 then { desc := { p.desc with isOut := true }, out := true }
        else p)
    else none
  else if chip.directionInput then
    some (if c.directionInput = 0 then { p with out := false } else p)
  else none

def gpioSetOpenDrainValueCommit (value : Bool) (p : Pin) : Option Pin :=
  p.setEmulated chip c (!value)

def gpioSetOpenSourceValueCommit (value : Bool) (p : Pin) : Option Pin :=
  p.setEmulated chip c value

def gpiodSetValue (value : Bool) (p : Pin) : Option Pin :=
  let value := value != p.desc.activeLow
  if p.desc.openDrain then p.gpioSetOpenDrainValueCommit chip c value
  else if p.desc.openSource then p.gpioSetOpenSourceValueCommit chip c value
  else if chip.set then some p
  else none

/-- The flags that `gpiod_configure_flags` sets first. -/
def lookup (l : LookupFlags) (f : GpiodFlags) (d : Desc) : Desc :=
  { d with
    activeLow := d.activeLow || l.activeLow
    openDrain := d.openDrain || l.openDrain || f.openDrain
    openSource := d.openSource || l.openSource }

def pull (l : LookupFlags) (d : Desc) : Desc :=
  if l.pullUp then { d with pullUp := true }
  else if l.pullDown then { d with pullDown := true }
  else d

def gpiodConfigureFlags (l : LookupFlags) (f : GpiodFlags) (p : Pin) : Int × Pin :=
  let p := { p with desc := lookup l f p.desc }
  if l.pullUp && l.pullDown then (-EINVAL, p)
  else
    let ret := (pull l p.desc).gpiodSetTransitory (some chip) c l.transitory
    let p := { p with desc := ret.2 }
    if ret.1 < 0 then (ret.1, p)
    else if !f.dirSet then (0, p)
    else if f.dirOut then p.gpiodDirectionOutput chip c f.dirVal
    else p.gpiodDirectionInput chip c

end Pin

/-- `gpiochip_enable_irq`.  The warning about an output does not keep it from anything. -/
def gpiochipEnableIrq (d : Desc) : Desc :=
  if d.usedAsIrq then { d with irqIsEnabled := true } else d

def gpiochipDisableIrq (d : Desc) : Desc :=
  if d.usedAsIrq then { d with irqIsEnabled := false } else d

/-- An operation on a line without a class device, with what the calls of it return. -/
inductive Op where
  | request (label : String) (c : Calls)
  | free
  | configureFlags (l : LookupFlags) (f : GpiodFlags) (c : Calls)
  | directionInput (c : Calls)
  | directionOutput (value : Bool) (c : Calls)
  | directionOutputRaw (c : Calls)
  | setValue (value : Bool) (c : Calls)
  | lockAsIrq (c : Calls)
  | unlockAsIrq
  | enableIrq
  | disableIrq

namespace Op

variable (chip : Chip)

/-- What an operation returns, and the line after it. -/
def run (p : Pin) : Op → Option (Int × Pin)
  | request label c =>
    let ret := p.desc.gpiodRequest (some chip) c label
    some (ret.1, { p with desc := ret.2 })
  | free => some (0, { p with desc := if p.desc.requested then p.desc.release else p.desc })
  | configureFlags l f c => some (p.gpiodConfigureFlags chip c l f)
  | directionInput c => some (p.gpiodDirectionInput chip c)
  | directionOutput value c => some (p.gpiodDirectionOutput chip c value)
  | directionOutputRaw c => some (p.gpiodDirectionOutputRaw chip c)
  | setValue value c => (p.gpiodSetValue chip c value).map fun p => (0, p)
  | lockAsIrq c =>
    let ret := p.desc.gpiochipLockAsIrq chip c
    some (ret.1, { p with desc := ret.2 })
  | unlockAsIrq => some (0, { p with desc := p.desc.gpiochipUnlockAsIrq })
  | enableIrq => some (0, { p with desc := gpiochipEnableIrq p.desc })
  | disableIrq => some (0, { p with desc := gpiochipDisableIrq p.desc })

end Op

/-! ## What is to be kept apart -/

/-- The interrupt of the line is enabled. -/
def Armed (d : Desc) : Prop := d.usedAsIrq = true ∧ d.irqIsEnabled = true

/-- The interrupt is enabled, and the line is not open drain. -/
def Exclusive (d : Desc) : Prop := Armed d ∧ d.openDrain = false

/-- **The state to be excluded**: an enabled interrupt on a push-pull output. -/
def Clash (d : Desc) : Prop := Exclusive d ∧ d.isOut = true

/-- The direction that `gpiochip_lock_as_irq` goes by: it is read again if that is fast. -/
def lockDirection (chip : Chip) (c : Calls) (d : Desc) : Int × Desc :=
  if !chip.canSleep && chip.getDirection then d.gpiodGetDirection chip c else (0, d)

/-- **A refusal**: an output is wanted of a line with an enabled interrupt, or an interrupt of an
output. -/
def Op.Refused (chip : Chip) (p : Pin) : Op → Prop
  | directionOutput _ _ => Armed p.desc
  | configureFlags l f c => Armed p.desc ∧ (l.pullUp && l.pullDown) = false ∧
      0 ≤ (p.desc.gpiodSetTransitory (some chip) c l.transitory).1 ∧ f.dirSet = true ∧
        f.dirOut = true
  | lockAsIrq c => 0 ≤ (lockDirection chip c p.desc).1 ∧
      (lockDirection chip c p.desc).2.isOut = true ∧
      (lockDirection chip c p.desc).2.openDrain = false
  | _ => False

/-- The raw output succeeds: the driver makes the line an output, or it cannot and the line is one.
-/
def RawSucceeds (chip : Chip) (c : Calls) : Prop :=
  if chip.directionOutput then c.directionOutput = 0
  else chip.set = true ∧ (chip.getDirection = true → c.getDirection = 0)

/-- All that the lookup of a line asks for is set already. -/
structure Configured (l : LookupFlags) (f : GpiodFlags) (d : Desc) : Prop where
  activeLow : l.activeLow = true → d.activeLow = true
  openDrain : l.openDrain = true ∨ f.openDrain = true → d.openDrain = true
  openSource : l.openSource = true → d.openSource = true
  transitory : d.transitory = l.transitory
  pullUp : l.pullUp = true → d.pullUp = true
  pullDown : l.pullUp = false → l.pullDown = true → d.pullDown = true

/-- **The steps that let the two meet, or change a line that they refuse to change.** -/
def Op.Breaks (chip : Chip) (p : Pin) : Op → Prop
  -- the driver says on request that the line is an output
  | request _ c => Exclusive p.desc ∧ Desc.RequestGranted chip c p.desc ∧ chip.getDirection = true ∧
      c.getDirection = 0
  -- the line is forgotten to be open drain
  | free => Armed p.desc ∧ p.desc.requested = true ∧ p.desc.isOut = true
  -- the flags are set before the direction is refused
  | configureFlags l f c => Refused chip p (configureFlags l f c) ∧ ¬ Configured l f p.desc
  | directionOutputRaw c => Exclusive p.desc ∧ RawSucceeds chip c
  -- the emulation of open source drives the line
  | setValue value c => Exclusive p.desc ∧ p.desc.openSource = true ∧
      (value != p.desc.activeLow) = true ∧ chip.directionOutput = true ∧ c.directionOutput = 0
  -- the direction is corrected before the lock is refused
  | lockAsIrq c => (!chip.canSleep && chip.getDirection) = true ∧ c.getDirection = 0 ∧
      p.desc.isOut = false ∧ p.desc.openDrain = false
  | enableIrq => p.desc.usedAsIrq = true ∧ p.desc.isOut = true ∧ p.desc.openDrain = false
  | _ => False

/-! ## Single operations -/

/-- The flags of the interrupt and the open drain are the same. -/
structure SameWatch (d d' : Desc) : Prop where
  usedAsIrq : d'.usedAsIrq = d.usedAsIrq
  irqIsEnabled : d'.irqIsEnabled = d.irqIsEnabled
  openDrain : d'.openDrain = d.openDrain

variable {chip : Chip} {c : Calls} {d d' : Desc} {p p' : Pin}

theorem SameWatch.refl (d : Desc) : SameWatch d d := ⟨rfl, rfl, rfl⟩

theorem SameWatch.exclusive_iff (h : SameWatch d d') : Exclusive d' ↔ Exclusive d := by
  rw [Exclusive, Exclusive, Armed, Armed, h.usedAsIrq, h.irqIsEnabled, h.openDrain]

theorem SameWatch.armed_iff (h : SameWatch d d') : Armed d' ↔ Armed d := by
  rw [Armed, Armed, h.usedAsIrq, h.irqIsEnabled]

theorem sameWatch_of_onlyDirection (h : Desc.OnlyDirection d d') : SameWatch d d' := by
  obtain ⟨out, rfl⟩ := h
  exact ⟨rfl, rfl, rfl⟩

theorem not_clash_of_not_armed (h : ¬ Armed d) : ¬ Clash d := fun hclash => h hclash.1.1

theorem SameWatch.clash_iff (h : SameWatch d d') (hclash : ¬ Clash d) :
    Clash d' ↔ Exclusive d ∧ d.isOut = false ∧ d'.isOut = true := by
  rw [Clash, h.exclusive_iff]
  constructor
  · rintro ⟨hex, hout⟩
    exact ⟨hex, Bool.eq_false_iff.mpr fun hd => hclash ⟨hex, hd⟩, hout⟩
  · rintro ⟨hex, -, hout⟩
    exact ⟨hex, hout⟩

theorem Exclusive.isOut (h : Exclusive d) (hclash : ¬ Clash d) : d.isOut = false :=
  Bool.eq_false_iff.mpr fun hout => hclash ⟨h, hout⟩

theorem gpiodGetDirection_isOut (hin : d.isOut = false) :
    (d.gpiodGetDirection chip c).2.isOut = true ↔
      chip.getDirection = true ∧ c.getDirection = 0 := by
  rw [Desc.gpiodGetDirection, hin, Bool.and_false, if_neg Bool.false_ne_true]
  cases chip.getDirection with
  | false => simp [hin]
  | true =>
    rw [Bool.not_true, if_neg Bool.false_ne_true]
    rcases Int.lt_trichotomy c.getDirection 0 with hneg | hzero | hpos
    · rw [if_neg (by omega), if_neg (by omega), hin]
      exact ⟨Bool.noConfusion, fun h => absurd h.2 (by omega)⟩
    · rw [if_neg (by omega), if_pos hzero]
      exact ⟨fun _ => ⟨rfl, hzero⟩, fun _ => rfl⟩
    · rw [if_pos hpos]
      exact ⟨Bool.noConfusion, fun h => absurd h.2 (by omega)⟩

theorem clash_request_iff (hclash : ¬ Clash d) (label : String) :
    Clash (d.gpiodRequest (some chip) c label).2 ↔ Exclusive d ∧ Desc.RequestGranted chip c d ∧
      chip.getDirection = true ∧ c.getDirection = 0 := by
  by_cases hgranted : Desc.RequestGranted chip c d
  · rw [(Desc.gpiodRequest_granted hgranted label).2]
    have hrequested : ¬ Clash { d with requested := true, label := some label } := hclash
    by_cases hget : chip.getDirection = true
    · rw [if_pos hget]
      have hsame := sameWatch_of_onlyDirection (Desc.onlyDirection_gpiodGetDirection chip c
        { d with requested := true, label := some label })
      rw [hsame.clash_iff hrequested]
      constructor
      · rintro ⟨hex, hin, hout⟩
        exact ⟨hex, hgranted, (gpiodGetDirection_isOut hin).mp hout⟩
      · rintro ⟨hex, -, hout⟩
        have hin : d.isOut = false := hex.isOut hclash
        exact ⟨hex, hin, (gpiodGetDirection_isOut
          (d := { d with requested := true, label := some label }) hin).mpr hout⟩
    · rw [if_neg hget]
      exact ⟨fun h => absurd h hrequested, fun h => absurd h.2.2.1 hget⟩
  · obtain ⟨-, label', hdesc⟩ := Desc.gpiodRequest_fails hgranted label
    rw [hdesc]
    exact ⟨fun h => absurd h hclash, fun h => absurd h.2.1 hgranted⟩

theorem clash_free_iff (hclash : ¬ Clash d) :
    Clash (if d.requested then d.release else d) ↔
      Armed d ∧ d.requested = true ∧ d.isOut = true := by
  by_cases hreq : d.requested = true
  · rw [if_pos hreq]
    exact ⟨fun h => ⟨h.1.1, hreq, h.2⟩, fun h => ⟨⟨h.1, rfl⟩, h.2.2⟩⟩
  · rw [if_neg hreq]
    exact ⟨fun h => absurd h hclash, fun h => absurd h.2.1 hreq⟩

theorem gpiodDirectionOutputRaw_isOut (hin : d.isOut = false) :
    (d.gpiodDirectionOutputRaw (some chip) c).2.isOut = true ↔ RawSucceeds chip c := by
  simp only [Desc.gpiodDirectionOutputRaw, RawSucceeds]
  cases chip.directionOutput with
  | true =>
    rw [Bool.not_true, Bool.and_false, if_neg Bool.false_ne_true, if_pos rfl, if_pos rfl]
    by_cases hret : c.directionOutput = 0
    · simp [hret]
    · simp [hret, hin]
  | false =>
    rw [Bool.not_false, Bool.and_true, if_neg Bool.false_ne_true, if_neg Bool.false_ne_true]
    cases chip.set with
    | false => simp [hin]
    | true =>
      rw [Bool.not_true, if_neg Bool.false_ne_true]
      by_cases hread : (chip.getDirection && decide (c.getDirection ≠ 0)) = true
      · rw [if_pos hread]
        simp only [Bool.and_eq_true, decide_eq_true_eq] at hread
        simp [hin, hread.1, hread.2]
      · rw [if_neg hread]
        simp only [Bool.and_eq_true, decide_eq_true_eq, not_and, not_not] at hread
        exact ⟨fun _ => ⟨rfl, hread⟩, fun _ => rfl⟩

theorem clash_directionOutputRaw_iff (hclash : ¬ Clash d) :
    Clash (d.gpiodDirectionOutputRaw (some chip) c).2 ↔ Exclusive d ∧ RawSucceeds chip c := by
  have hsame := sameWatch_of_onlyDirection (d.onlyDirection_gpiodDirectionOutputRaw c (some chip))
  rw [hsame.clash_iff hclash]
  constructor
  · rintro ⟨hex, hin, hout⟩
    exact ⟨hex, (gpiodDirectionOutputRaw_isOut hin).mp hout⟩
  · rintro ⟨hex, hraw⟩
    exact ⟨hex, hex.isOut hclash, (gpiodDirectionOutputRaw_isOut (hex.isOut hclash)).mpr hraw⟩

theorem isOut_of_gpiodDirectionInput
    (h : (d.gpiodDirectionInput (some chip) c).2.isOut = true) : d.isOut = true := by
  simp only [Desc.gpiodDirectionInput] at h
  by_cases hget : (!chip.get && chip.directionInput) = true
  · rwa [if_pos hget] at h
  rw [if_neg hget] at h
  by_cases hop : chip.directionInput = true
  · rw [if_pos hop] at h
    by_cases hret : c.directionInput = 0
    · rw [if_pos hret] at h
      cases h
    · rwa [if_neg hret] at h
  · rw [if_neg hop] at h
    by_cases hread : (chip.getDirection && decide (c.getDirection ≠ 1)) = true
    · rwa [if_pos hread] at h
    · rw [if_neg hread] at h
      cases h

theorem not_clash_directionInput (hclash : ¬ Clash d) :
    ¬ Clash (d.gpiodDirectionInput (some chip) c).2 := by
  have hsame := sameWatch_of_onlyDirection (d.onlyDirection_gpiodDirectionInput c (some chip))
  intro h
  exact hclash ⟨hsame.exclusive_iff.mp h.1, isOut_of_gpiodDirectionInput h.2⟩

/-! ### The output with a check -/

theorem sameWatch_emulateOutput (p : Pin) : SameWatch p.desc (p.emulateOutput chip c).2.desc := by
  have hsame := sameWatch_of_onlyDirection (p.desc.onlyDirection_gpiodDirectionInput c (some chip))
  rw [Pin.emulateOutput]
  by_cases hret : (p.gpiodDirectionInput chip c).1 = 0
  · rw [if_pos hret]
    exact ⟨hsame.usedAsIrq, hsame.irqIsEnabled, hsame.openDrain⟩
  · rw [if_neg hret]
    exact hsame

theorem sameWatch_ite {q : Prop} [Decidable q] {r₁ r₂ : Int × Pin} (h₁ : SameWatch d r₁.2.desc)
    (h₂ : SameWatch d r₂.2.desc) : SameWatch d (if q then r₁ else r₂).2.desc := by
  by_cases hq : q
  · rwa [if_pos hq]
  · rwa [if_neg hq]

theorem sameWatch_directionOutput (p : Pin) (value : Bool) :
    SameWatch p.desc (p.gpiodDirectionOutput chip c value).2.desc := by
  have hraw : SameWatch p.desc (p.gpiodDirectionOutputRaw chip c).2.desc :=
    sameWatch_of_onlyDirection (p.desc.onlyDirection_gpiodDirectionOutputRaw c (some chip))
  have hemu : SameWatch p.desc (p.emulateOutput chip c).2.desc := sameWatch_emulateOutput p
  exact sameWatch_ite (.refl _) (sameWatch_ite (sameWatch_ite hraw (sameWatch_ite hemu hraw))
    (sameWatch_ite (sameWatch_ite hraw (sameWatch_ite hemu hraw)) hraw))

/-- **`gpiod_direction_output`** refuses a line with an enabled interrupt and leaves it alone. -/
theorem directionOutput_of_armed (h : Armed p.desc) (value : Bool) :
    p.gpiodDirectionOutput chip c value = (- Sysfs.EIO, p) := by
  rw [Pin.gpiodDirectionOutput, if_pos]
  rw [h.1, h.2]
  rfl

theorem not_clash_directionOutput (hclash : ¬ Clash p.desc) (value : Bool) :
    ¬ Clash (p.gpiodDirectionOutput chip c value).2.desc := by
  by_cases harmed : Armed p.desc
  · rwa [directionOutput_of_armed harmed]
  · exact not_clash_of_not_armed fun h =>
      harmed ((sameWatch_directionOutput p value).armed_iff.mp h)

/-! ### Configuration -/

theorem gpiodSetTransitory_snd (d : Desc) (transitory : Bool) :
    (d.gpiodSetTransitory (some chip) c transitory).2 = { d with transitory := transitory } := by
  rw [Desc.gpiodSetTransitory]
  exact Desc.snd_ite (P := fun d' => d' = { d with transitory := transitory }) rfl
    (Desc.snd_ite (P := fun d' => d' = { d with transitory := transitory }) rfl rfl)

theorem gpiodSetTransitory_fst (d d' : Desc) (transitory : Bool) :
    (d.gpiodSetTransitory (some chip) c transitory).1 =
      (d'.gpiodSetTransitory (some chip) c transitory).1 := by
  simp only [Desc.gpiodSetTransitory]
  split
  · rfl
  · split
    · rfl
    · rfl

/-- All flags that a configuration sets. -/
def configured (l : LookupFlags) (f : GpiodFlags) (d : Desc) : Desc :=
  { Pin.pull l (Pin.lookup l f d) with transitory := l.transitory }

theorem configured_def (l : LookupFlags) (f : GpiodFlags) (d : Desc) :
    configured l f d = { d with
      activeLow := d.activeLow || l.activeLow
      openDrain := d.openDrain || l.openDrain || f.openDrain
      openSource := d.openSource || l.openSource
      transitory := l.transitory
      pullUp := d.pullUp || l.pullUp
      pullDown := d.pullDown || (!l.pullUp && l.pullDown) } := by
  cases hup : l.pullUp <;> cases hdown : l.pullDown <;>
    simp [configured, Pin.pull, Pin.lookup, hup, hdown]

theorem configured_eq_iff (l : LookupFlags) (f : GpiodFlags) (d : Desc) :
    configured l f d = d ↔ Configured l f d := by
  rw [configured_def]
  constructor
  · intro h
    obtain ⟨⟩ := d
    simp only [Desc.mk.injEq, true_and, and_true, Bool.or_eq_left_iff_imp] at h
    obtain ⟨hlow, hdrain, hsource, htrans, hup, hdown⟩ := h
    refine ⟨hlow, fun hor => ?_, hsource, htrans.symm, hup,
      fun h₁ h₂ => hdown (by rw [h₁, h₂]; rfl)⟩
    rw [← hdrain]
    rcases hor with hor | hor
    · rw [hor, Bool.or_true, Bool.true_or]
    · rw [hor, Bool.or_true]
  · intro h
    have hlow : (d.activeLow || l.activeLow) = d.activeLow :=
      Bool.or_eq_left_iff_imp.mpr h.activeLow
    have hdrain : (d.openDrain || l.openDrain || f.openDrain) = d.openDrain := by
      rw [Bool.or_assoc, Bool.or_eq_left_iff_imp, Bool.or_eq_true]
      exact h.openDrain
    have hsource : (d.openSource || l.openSource) = d.openSource :=
      Bool.or_eq_left_iff_imp.mpr h.openSource
    have hup : (d.pullUp || l.pullUp) = d.pullUp := Bool.or_eq_left_iff_imp.mpr h.pullUp
    have hdown : (d.pullDown || (!l.pullUp && l.pullDown)) = d.pullDown := by
      rw [Bool.or_eq_left_iff_imp, Bool.and_eq_true, Bool.not_eq_true']
      exact fun hboth => h.pullDown hboth.1 hboth.2
    rw [hlow, hdrain, hsource, hup, hdown, ← h.transitory]

theorem armed_configured (l : LookupFlags) (f : GpiodFlags) :
    Armed (configured l f d) ↔ Armed d := by
  rw [configured_def]
  rfl

theorem not_clash_of_flags (hclash : ¬ Clash d) (harmed : Armed d' ↔ Armed d)
    (hdrain : d'.openDrain = false → d.openDrain = false) (hout : d'.isOut = d.isOut) :
    ¬ Clash d' :=
  fun h => hclash ⟨⟨harmed.mp h.1.1, hdrain h.1.2⟩, hout ▸ h.2⟩

theorem openDrain_of_or {a b e : Bool} (h : (a || b || e) = false) : a = false :=
  (Bool.or_eq_false_iff.mp (Bool.or_eq_false_iff.mp h).1).1

theorem not_clash_configured (l : LookupFlags) (f : GpiodFlags) (hclash : ¬ Clash d) :
    ¬ Clash (configured l f d) := by
  rw [configured_def]
  exact not_clash_of_flags hclash Iff.rfl openDrain_of_or rfl

theorem gpiodConfigureFlags_eq (l : LookupFlags) (f : GpiodFlags) (p : Pin) :
    p.gpiodConfigureFlags chip c l f =
      if l.pullUp && l.pullDown then (-EINVAL, { p with desc := Pin.lookup l f p.desc })
      else if (p.desc.gpiodSetTransitory (some chip) c l.transitory).1 < 0 then
        ((p.desc.gpiodSetTransitory (some chip) c l.transitory).1,
          { p with desc := configured l f p.desc })
      else if !f.dirSet then (0, { p with desc := configured l f p.desc })
      else if f.dirOut then
        Pin.gpiodDirectionOutput chip c f.dirVal { p with desc := configured l f p.desc }
      else Pin.gpiodDirectionInput chip c { p with desc := configured l f p.desc } := by
  have hflags : (Pin.pull l (Pin.lookup l f p.desc)).gpiodSetTransitory (some chip) c l.transitory =
      ((p.desc.gpiodSetTransitory (some chip) c l.transitory).1, configured l f p.desc) :=
    Prod.ext (gpiodSetTransitory_fst _ p.desc l.transitory) (gpiodSetTransitory_snd _ _)
  simp only [Pin.gpiodConfigureFlags, hflags]

theorem not_clash_configureFlags (l : LookupFlags) (f : GpiodFlags) (hclash : ¬ Clash p.desc) :
    ¬ Clash (p.gpiodConfigureFlags chip c l f).2.desc := by
  have hall := not_clash_configured l f hclash
  rw [gpiodConfigureFlags_eq]
  by_cases hpulls : (l.pullUp && l.pullDown) = true
  · rw [if_pos hpulls]
    exact not_clash_of_flags hclash Iff.rfl openDrain_of_or rfl
  rw [if_neg hpulls]
  by_cases hneg : (p.desc.gpiodSetTransitory (some chip) c l.transitory).1 < 0
  · rw [if_pos hneg]
    exact hall
  rw [if_neg hneg]
  by_cases hdir : (!f.dirSet) = true
  · rw [if_pos hdir]
    exact hall
  rw [if_neg hdir]
  by_cases hout : f.dirOut = true
  · rw [if_pos hout]
    exact not_clash_directionOutput hall f.dirVal
  · rw [if_neg hout]
    exact not_clash_directionInput hall

/-- **`gpiod_configure_flags`** sets the flags of a line that it then refuses. -/
theorem configureFlags_of_refused {l : LookupFlags} {f : GpiodFlags}
    (h : (Op.configureFlags l f c).Refused chip p) :
    p.gpiodConfigureFlags chip c l f =
      (- Sysfs.EIO, { p with desc := configured l f p.desc }) := by
  obtain ⟨harmed, hpulls, hnonneg, hdir, hout⟩ := h
  rw [gpiodConfigureFlags_eq, hpulls, if_neg Bool.false_ne_true, if_neg (not_lt.mpr hnonneg), hdir,
    Bool.not_true, if_neg Bool.false_ne_true, if_pos hout]
  exact directionOutput_of_armed ((armed_configured l f).mpr harmed) f.dirVal

theorem setEmulated_spec {drive : Bool} (hrun : p.setEmulated chip c drive = some p') :
    SameWatch p.desc p'.desc ∧ (p'.desc.isOut = true ↔ p.desc.isOut = true ∨
      drive = true ∧ chip.directionOutput = true ∧ c.directionOutput = 0) := by
  rw [Pin.setEmulated] at hrun
  cases drive with
  | true =>
    rw [if_pos rfl] at hrun
    by_cases hop : chip.directionOutput = true
    · rw [if_pos hop, Option.some_inj] at hrun
      by_cases hret : c.directionOutput = 0
      · rw [if_pos hret] at hrun
        rw [← hrun]
        exact ⟨⟨rfl, rfl, rfl⟩, fun _ => Or.inr ⟨rfl, hop, hret⟩, fun _ => rfl⟩
      · rw [if_neg hret] at hrun
        rw [← hrun]
        exact ⟨.refl _, Or.inl, fun h => h.resolve_right fun h' => hret h'.2.2⟩
    · rw [if_neg hop] at hrun
      cases hrun
  | false =>
    rw [if_neg Bool.false_ne_true] at hrun
    by_cases hop : chip.directionInput = true
    · rw [if_pos hop, Option.some_inj] at hrun
      have hdesc : p'.desc = p.desc := by
        rw [← hrun]
        split <;> rfl
      rw [hdesc]
      exact ⟨.refl _, Or.inl, fun h => h.resolve_right fun h' => Bool.noConfusion h'.1⟩
    · rw [if_neg hop] at hrun
      cases hrun

/-- **`gpiod_set_value`** drives a watched line if it emulates open source. -/
theorem clash_setValue_iff {value : Bool} (hclash : ¬ Clash p.desc)
    (hrun : p.gpiodSetValue chip c value = some p') :
    Clash p'.desc ↔ (Op.setValue value c).Breaks chip p := by
  rw [Pin.gpiodSetValue] at hrun
  by_cases hdrain : p.desc.openDrain = true
  · rw [if_pos hdrain] at hrun
    obtain ⟨hsame, -⟩ := setEmulated_spec hrun
    have hnot : ¬ Exclusive p.desc := fun h => by rw [h.2] at hdrain; cases hdrain
    exact ⟨fun h => absurd (hsame.exclusive_iff.mp h.1) hnot, fun h => absurd h.1 hnot⟩
  rw [if_neg hdrain] at hrun
  by_cases hsource : p.desc.openSource = true
  · rw [if_pos hsource] at hrun
    obtain ⟨hsame, hout⟩ := setEmulated_spec hrun
    rw [hsame.clash_iff hclash]
    constructor
    · rintro ⟨hex, hin, hnow⟩
      rcases hout.mp hnow with hbefore | hdrive
      · rw [hin] at hbefore
        cases hbefore
      · exact ⟨hex, hsource, hdrive⟩
    · rintro ⟨hex, -, hdrive⟩
      exact ⟨hex, hex.isOut hclash, hout.mpr (Or.inr hdrive)⟩
  · rw [if_neg hsource] at hrun
    have hsame : p' = p := by
      by_cases hset : chip.set = true
      · rw [if_pos hset, Option.some_inj] at hrun
        exact hrun.symm
      · rw [if_neg hset] at hrun
        cases hrun
    rw [hsame]
    exact ⟨fun h => absurd h hclash, fun h => absurd h.2.1 hsource⟩

theorem exists_setValue {value : Bool} (h : (Op.setValue value c).Breaks chip p) :
    ∃ p', p.gpiodSetValue chip c value = some p' := by
  obtain ⟨hex, hsource, hvalue, hop, -⟩ := h
  have hdrain : ¬ p.desc.openDrain = true := by
    rw [hex.2]
    exact nofun
  rw [Pin.gpiodSetValue, if_neg hdrain, if_pos hsource, Pin.gpioSetOpenSourceValueCommit,
    Pin.setEmulated, if_pos hvalue, if_pos hop]
  exact ⟨_, rfl⟩

/-! ### The lock -/

theorem onlyDirection_lockDirection (d : Desc) :
    Desc.OnlyDirection d (lockDirection chip c d).2 :=
  Desc.snd_ite (d.onlyDirection_gpiodGetDirection chip c) (.refl d)

theorem lockDirection_of_neg (h : (lockDirection chip c d).1 < 0) :
    (lockDirection chip c d).2 = d := by
  rw [lockDirection] at h ⊢
  by_cases hflush : (!chip.canSleep && chip.getDirection) = true
  · rw [if_pos hflush] at h ⊢
    rw [Desc.gpiodGetDirection] at h ⊢
    by_cases hdrain : (d.openDrain && d.isOut) = true
    · rw [if_pos hdrain]
    rw [if_neg hdrain] at h ⊢
    by_cases hget : (!chip.getDirection) = true
    · rw [if_pos hget]
    rw [if_neg hget] at h ⊢
    by_cases hpos : 0 < c.getDirection
    · rw [if_pos hpos] at h
      have hone : (1 : Int) < 0 := h
      exact absurd hone (by decide)
    rw [if_neg hpos] at h ⊢
    by_cases hzero : c.getDirection = 0
    · rw [if_pos hzero] at h
      exact absurd h (lt_irrefl 0)
    · rw [if_neg hzero]
  · rw [if_neg hflush]

/-- **`gpiochip_lock_as_irq`** lets nothing clash but where it refuses, and there it has read the
direction before. -/
theorem lockAsIrq_of_not_refused (hclash : ¬ Clash p.desc)
    (h : ¬ (Op.lockAsIrq c).Refused chip p) : ¬ Clash (p.desc.gpiochipLockAsIrq chip c).2 := by
  rw [p.desc.gpiochipLockAsIrq_eq chip c (rfl : _ = lockDirection chip c p.desc)]
  by_cases hneg : (lockDirection chip c p.desc).1 < 0
  · rw [if_pos hneg, lockDirection_of_neg hneg]
    exact hclash
  rw [if_neg hneg]
  by_cases hout : ((lockDirection chip c p.desc).2.isOut &&
      !(lockDirection chip c p.desc).2.openDrain) = true
  · rw [Bool.and_eq_true, Bool.not_eq_true'] at hout
    exact absurd ⟨not_lt.mp hneg, hout⟩ h
  · rw [if_neg hout]
    refine fun hbad => hout ?_
    have hboth : (lockDirection chip c p.desc).2.isOut = true ∧
        (lockDirection chip c p.desc).2.openDrain = false := ⟨hbad.2, hbad.1.2⟩
    rw [hboth.1, hboth.2]
    rfl

theorem lockAsIrq_of_refused (h : (Op.lockAsIrq c).Refused chip p) :
    p.desc.gpiochipLockAsIrq chip c = (- Sysfs.EIO, { p.desc with isOut := true }) := by
  obtain ⟨hnonneg, hout, hdrain⟩ := h
  obtain ⟨out, hdir⟩ : Desc.OnlyDirection p.desc (lockDirection chip c p.desc).2 :=
    onlyDirection_lockDirection p.desc
  rw [p.desc.gpiochipLockAsIrq_eq chip c (rfl : _ = lockDirection chip c p.desc),
    if_neg (not_lt.mpr hnonneg), hout, hdrain]
  have hset : out = true := by
    rw [hdir] at hout
    exact hout
  rw [hdir, hset]
  rfl

/-- The lock changes a line that it refuses if the direction was read as output for the first
time. -/
theorem lockAsIrq_breaks_iff :
    (Op.lockAsIrq c).Breaks chip p ↔
      (Op.lockAsIrq c).Refused chip p ∧ p.desc.isOut = false := by
  obtain ⟨out, hdir⟩ : Desc.OnlyDirection p.desc (lockDirection chip c p.desc).2 :=
    onlyDirection_lockDirection p.desc
  have hdrain : (lockDirection chip c p.desc).2.openDrain = p.desc.openDrain := by rw [hdir]
  constructor
  · rintro ⟨hflush, hzero, hin, hno⟩
    have hget : chip.getDirection = true := (Bool.and_eq_true_iff.mp hflush).2
    have hlock : lockDirection chip c p.desc = p.desc.gpiodGetDirection chip c := if_pos hflush
    refine ⟨⟨?_, ?_, hdrain.trans hno⟩, hin⟩
    · rw [hlock, Desc.gpiodGetDirection, hin, Bool.and_false, if_neg Bool.false_ne_true, hget,
        Bool.not_true, if_neg Bool.false_ne_true, if_neg (by omega), if_pos hzero]
    · rw [hlock]
      exact (gpiodGetDirection_isOut hin).mpr ⟨hget, hzero⟩
  · rintro ⟨⟨-, hout, hno⟩, hin⟩
    by_cases hflush : (!chip.canSleep && chip.getDirection) = true
    · have hlock : lockDirection chip c p.desc = p.desc.gpiodGetDirection chip c := if_pos hflush
      rw [hlock] at hout
      exact ⟨hflush, ((gpiodGetDirection_isOut hin).mp hout).2, hin, hdrain.symm.trans hno⟩
    · have hlock : lockDirection chip c p.desc = (0, p.desc) := if_neg hflush
      rw [hlock] at hout
      exact absurd (hout.symm.trans hin) (by decide)

/-- **`gpiochip_enable_irq`** enables the interrupt of an output as well. -/
theorem clash_enableIrq_iff (hclash : ¬ Clash d) :
    Clash (gpiochipEnableIrq d) ↔
      d.usedAsIrq = true ∧ d.isOut = true ∧ d.openDrain = false := by
  rw [gpiochipEnableIrq]
  by_cases hused : d.usedAsIrq = true
  · rw [if_pos hused]
    exact ⟨fun h => ⟨hused, h.2, h.1.2⟩, fun h => ⟨⟨⟨hused, rfl⟩, h.2.2⟩, h.2.1⟩⟩
  · rw [if_neg hused]
    exact ⟨fun h => absurd h hclash, fun h => absurd h.1 hused⟩

theorem not_clash_disableIrq (hclash : ¬ Clash d) : ¬ Clash (gpiochipDisableIrq d) := by
  rw [gpiochipDisableIrq]
  by_cases hused : d.usedAsIrq = true
  · rw [if_pos hused]
    exact fun h => Bool.noConfusion h.1.1.2
  · rwa [if_neg hused]

/-- **One operation**: nothing clashes after it, and if it refuses it leaves the line alone, exactly
if it is none of those that break. -/
theorem Op.run_iff {e : Op} {ret : Int} (hclash : ¬ Clash p.desc)
    (hrun : e.run chip p = some (ret, p')) :
    (¬ Clash p'.desc ∧ (e.Refused chip p → p' = p)) ↔ ¬ e.Breaks chip p := by
  have hfine : ¬ Clash p'.desc → ¬ e.Refused chip p → ¬ e.Breaks chip p →
      ((¬ Clash p'.desc ∧ (e.Refused chip p → p' = p)) ↔ ¬ e.Breaks chip p) :=
    fun h₁ h₂ h₃ => ⟨fun _ => h₃, fun _ => ⟨h₁, fun h => absurd h h₂⟩⟩
  have hsound : (Clash p'.desc ↔ e.Breaks chip p) → ¬ e.Refused chip p →
      ((¬ Clash p'.desc ∧ (e.Refused chip p → p' = p)) ↔ ¬ e.Breaks chip p) := by
    intro h₁ h₂
    rw [h₁]
    exact ⟨fun h => h.1, fun h => ⟨h, fun h' => absurd h' h₂⟩⟩
  cases e with
  | request label c =>
    obtain ⟨-, rfl⟩ := Prod.mk.inj (Option.some.inj hrun)
    exact hsound (clash_request_iff hclash label) id
  | free =>
    obtain ⟨-, rfl⟩ := Prod.mk.inj (Option.some.inj hrun)
    exact hsound (clash_free_iff hclash) id
  | configureFlags l f c =>
    obtain rfl := congrArg Prod.snd (Option.some.inj hrun)
    have hnot : ¬ Clash (p.gpiodConfigureFlags chip c l f).2.desc :=
      not_clash_configureFlags l f hclash
    by_cases hrefused : (Op.configureFlags l f c).Refused chip p
    · have hsame : (p.gpiodConfigureFlags chip c l f).2 = p ↔ Configured l f p.desc := by
        rw [configureFlags_of_refused hrefused, ← configured_eq_iff]
        exact ⟨fun h => congrArg Pin.desc h, fun h => by rw [h]⟩
      exact ⟨fun h hbad => hbad.2 (hsame.mp (h.2 hrefused)),
        fun h => ⟨hnot, fun _ => hsame.mpr (not_not.mp fun hno => h ⟨hrefused, hno⟩)⟩⟩
    · exact ⟨fun _ h => hrefused h.1, fun _ => ⟨hnot, fun h => absurd h hrefused⟩⟩
  | directionInput c =>
    obtain ⟨-, rfl⟩ := Prod.mk.inj (Option.some.inj hrun)
    exact hfine (not_clash_directionInput hclash) id id
  | directionOutput value c =>
    obtain rfl := congrArg Prod.snd (Option.some.inj hrun)
    refine ⟨fun _ => id, fun _ => ⟨not_clash_directionOutput hclash value, fun h => ?_⟩⟩
    rw [directionOutput_of_armed h]
  | directionOutputRaw c =>
    obtain ⟨-, rfl⟩ := Prod.mk.inj (Option.some.inj hrun)
    exact hsound (clash_directionOutputRaw_iff hclash) id
  | setValue value c =>
    obtain ⟨q, hq, hret⟩ := Option.map_eq_some_iff.mp hrun
    obtain ⟨-, rfl⟩ := Prod.mk.inj hret
    exact hsound (clash_setValue_iff hclash hq) id
  | lockAsIrq c =>
    obtain ⟨-, rfl⟩ := Prod.mk.inj (Option.some.inj hrun)
    rw [lockAsIrq_breaks_iff]
    by_cases hrefused : (Op.lockAsIrq c).Refused chip p
    · rw [lockAsIrq_of_refused hrefused]
      constructor
      · rintro ⟨-, hsame⟩ ⟨-, hin⟩
        have hout : true = p.desc.isOut := congrArg (fun q => q.desc.isOut) (hsame hrefused)
        rw [hin] at hout
        cases hout
      · intro hno
        have hout : p.desc.isOut = true :=
          Bool.not_eq_false _ ▸ fun hin => hno ⟨hrefused, hin⟩
        have hdesc : { p.desc with isOut := true } = p.desc := by rw [← hout]
        rw [hdesc]
        exact ⟨hclash, fun _ => rfl⟩
    · exact ⟨fun _ h => hrefused h.1, fun _ => ⟨lockAsIrq_of_not_refused hclash hrefused,
        fun h => absurd h hrefused⟩⟩
  | unlockAsIrq =>
    obtain ⟨-, rfl⟩ := Prod.mk.inj (Option.some.inj hrun)
    exact hfine (fun h => Bool.noConfusion h.1.1.1) id id
  | enableIrq =>
    obtain ⟨-, rfl⟩ := Prod.mk.inj (Option.some.inj hrun)
    exact hsound (clash_enableIrq_iff hclash) id
  | disableIrq =>
    obtain ⟨-, rfl⟩ := Prod.mk.inj (Option.some.inj hrun)
    exact hfine (not_clash_disableIrq hclash) id id

theorem Op.Breaks.exists_run {e : Op} (h : e.Breaks chip p) :
    ∃ ret p', e.run chip p = some (ret, p') := by
  cases e with
  | setValue value c =>
    obtain ⟨q, hq⟩ := exists_setValue h
    exact ⟨0, q, Option.map_eq_some_iff.mpr ⟨q, hq, rfl⟩⟩
  | request label c => exact ⟨_, _, rfl⟩
  | free => exact ⟨_, _, rfl⟩
  | configureFlags l f c => exact ⟨_, _, rfl⟩
  | directionInput c => exact ⟨_, _, rfl⟩
  | directionOutput value c => exact ⟨_, _, rfl⟩
  | directionOutputRaw c => exact ⟨_, _, rfl⟩
  | lockAsIrq c => exact ⟨_, _, rfl⟩
  | unlockAsIrq => exact ⟨_, _, rfl⟩
  | enableIrq => exact ⟨_, _, rfl⟩
  | disableIrq => exact ⟨_, _, rfl⟩

/-! ## Runs on the lines of a chip -/

section Runs

variable {ι : Type*} [DecidableEq ι] (chip : Chip)

/-- An operation on one of the lines. -/
def step (s : ι → Pin) (e : ι × Op) : Option (ι → Pin) :=
  (e.2.run chip (s e.1)).map fun ret => update s e.1 ret.2

/-- A refused operation leaves the line as it was. -/
def RefusesClean (s : ι → Pin) (e : ι × Op) : Prop :=
  e.2.Refused chip (s e.1) → ∀ t, step chip s e = some t → t e.1 = s e.1

/-- **Enabled interrupts and driven outputs are kept apart** along a run, and what is refused for
that is left alone. -/
structure Excluded (s : ι → Pin) (es : List (ι × Op)) : Prop where
  apart : ∀ es₁ es₂ t, es = es₁ ++ es₂ → exec (step chip) s es₁ = some t →
    ∀ i, ¬ Clash (t i).desc
  refused : Along (step chip) (RefusesClean chip) s es

variable {chip}

theorem step_eq_some {s t : ι → Pin} {e : ι × Op} :
    step chip s e = some t ↔
      ∃ ret p', e.2.run chip (s e.1) = some (ret, p') ∧ t = update s e.1 p' := by
  rw [step, Option.map_eq_some_iff]
  constructor
  · rintro ⟨⟨ret, p'⟩, hrun, rfl⟩
    exact ⟨ret, p', hrun, rfl⟩
  · rintro ⟨ret, p', hrun, rfl⟩
    exact ⟨(ret, p'), hrun, rfl⟩

/-- **One step** keeps the lines clear of a clash, and refuses without a trace, exactly if it does
not break. -/
theorem step_iff {s : ι → Pin} {e : ι × Op} (hs : ∀ i, ¬ Clash (s i).desc) :
    ((∀ t, step chip s e = some t → ∀ i, ¬ Clash (t i).desc) ∧ RefusesClean chip s e) ↔
      ¬ e.2.Breaks chip (s e.1) := by
  constructor
  · rintro ⟨hapart, hclean⟩ hbreaks
    obtain ⟨ret, p', hrun⟩ := hbreaks.exists_run
    have hstep : step chip s e = some (update s e.1 p') :=
      step_eq_some.mpr ⟨ret, p', hrun, rfl⟩
    have hnot := hapart _ hstep e.1
    rw [update_self] at hnot
    refine (Op.run_iff (hs e.1) hrun).mp ⟨hnot, fun hrefused => ?_⟩ hbreaks
    have hsame := hclean hrefused _ hstep
    rwa [update_self] at hsame
  · intro hbreaks
    have hone : ∀ ret p', e.2.run chip (s e.1) = some (ret, p') →
        ¬ Clash p'.desc ∧ (e.2.Refused chip (s e.1) → p' = s e.1) :=
      fun ret p' hrun => (Op.run_iff (hs e.1) hrun).mpr hbreaks
    constructor
    · intro t ht i
      obtain ⟨ret, p', hrun, rfl⟩ := step_eq_some.mp ht
      by_cases hi : i = e.1
      · subst hi
        rw [update_self]
        exact (hone ret p' hrun).1
      · rw [update_of_ne hi]
        exact hs i
    · intro hrefused t ht
      obtain ⟨ret, p', hrun, rfl⟩ := step_eq_some.mp ht
      rw [update_self]
      exact (hone ret p' hrun).2 hrefused

variable (chip) in
/-- **A line with an enabled interrupt is not a push-pull output**, in any state of a run that
starts so, and what is refused is left alone, if and only if no step of the run is one of those that
break. -/
theorem excluded_iff (s : ι → Pin) (h : ∀ i, ¬ Clash (s i).desc) (es : List (ι × Op)) :
    Excluded chip s es ↔
      Along (step chip) (fun s e => ¬ e.2.Breaks chip (s e.1)) s es := by
  have hcongr : Along (step chip) (fun s e => (∀ t, step chip s e = some t →
        ∀ i, ¬ Clash (t i).desc) ∧ RefusesClean chip s e) s es ↔
      Along (step chip) (fun s e => ¬ e.2.Breaks chip (s e.1)) s es :=
    Along.congr (fun _ _ _ _ hC ht => hC.1 _ ht) (fun _ _ hs => step_iff hs) h
  rw [← hcongr, ← along_and]
  constructor
  · rintro ⟨hapart, hrefused⟩
    exact ⟨(forall_reached_iff.mp hapart).2, hrefused⟩
  · rintro ⟨hapart, hrefused⟩
    exact ⟨forall_reached_iff.mpr ⟨h, hapart⟩, hrefused⟩

end Runs

/-- An input that nobody has requested. -/
def input : Unit → Pin := fun _ => ⟨freeDesc, false⟩

/-- The checked output is refused while the interrupt is enabled. -/
theorem excluded_iff_refusedOutput :
    Excluded plainChip input
      [((), .lockAsIrq granted), ((), .directionOutput true granted)] := by
  refine (excluded_iff plainChip input (fun _ h => Bool.noConfusion h.2) _).mpr ⟨?_, fun _ _ => ?_⟩
  · rintro ⟨-, hzero, -⟩
    exact absurd hzero (by decide)
  · exact ⟨id, fun _ _ => trivial⟩

/-- **The raw output is not refused.** -/
theorem not_excluded :
    ¬ Excluded plainChip input
      [((), .lockAsIrq granted), ((), .directionOutputRaw granted)] := by
  intro h
  have hrun : (exec (step plainChip) input
      [((), .lockAsIrq granted), ((), .directionOutputRaw granted)]).map (fun t =>
        ((t ()).desc.usedAsIrq, (t ()).desc.irqIsEnabled, (t ()).desc.openDrain,
          (t ()).desc.isOut)) = some (true, true, false, true) := by
    decide +kernel
  obtain ⟨t, ht, hflags⟩ := Option.map_eq_some_iff.mp hrun
  simp only [Prod.mk.injEq] at hflags
  exact h.apart _ [] t (List.append_nil _).symm ht ()
    ⟨⟨⟨hflags.1, hflags.2.1⟩, hflags.2.2.1⟩, hflags.2.2.2⟩

end RealtekIpcam.Gpiolib.Directions
