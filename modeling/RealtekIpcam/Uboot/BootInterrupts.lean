import RealtekIpcam.Uboot.Bootm

/-!
# The interrupts in `do_bootm_states`

`do_bootm_states` works through the states that are requested and stops at the first that fails.
Loading the kernel disables the interrupts, and the label at the end enables them again.  A
ramdisk or a device tree that cannot be moved, and a subcommand of the operating system that
fails, return without going there.

What each state returns is an input.  None of them touches the interrupts.
-/

namespace RealtekIpcam.Uboot.BootInterrupts

/-! ## The model -/

def bootmStateStart : UInt32 := 0x1
def bootmStateFindos : UInt32 := 0x2
def bootmStateFindother : UInt32 := 0x4
def bootmStateOsCmdline : UInt32 := 0x40
def bootmStateOsBdT : UInt32 := 0x80
def bootmStateOsPrep : UInt32 := 0x100
def bootmStateOsFakeGo : UInt32 := 0x200
def bootmStateOsGo : UInt32 := 0x400

def bootmErrReset : Int := -1
def bootmErrUnimplemented : Int := -3

/-- `CONFIG_SYS_BOOT_RAMDISK_HIGH`, `CONFIG_LMB` with support for device trees, and
`CONFIG_TRACE`. -/
structure Config where
  ramdiskHigh : Bool
  fdtLmb : Bool
  trace : Bool

/-- What the states return.  `fakegocmd` is the return value of the commands in that variable, if it
is set, and `standalone` says that the image is one that may return. -/
structure Results where
  start : Int
  findOs : Int
  findOther : Int
  loadOs : LoadResult
  ramdisk : Int
  fdt : Int
  bootFn : Bool
  osCmdline : Int
  osBdT : Int
  osPrep : Int
  fakegocmd : Option Int
  standalone : Bool

/-- The return value, whether the board is reset, and whether the interrupts are enabled. -/
structure Exit where
  ret : Int
  reset : Bool
  interrupts : Bool
  deriving DecidableEq

/-- `states & state`. -/
def requested (states state : UInt32) : Bool := states &&& state ≠ 0

/-- `if (!ret && (states & state)) ret = ...`. -/
def runState (ret : Int) (requested : Bool) (result : Int) : Int :=
  if ret = 0 ∧ requested then result else ret

/-- `bootm_disable_interrupts`: whether they were enabled. -/
def bootmDisableInterrupts (interrupts : Bool) : Bool × Bool := (interrupts, false)

/-- `boot_selected_os`, if the boot function returns. -/
def bootSelectedOs (res : Results) (state : UInt32) : Int :=
  if res.standalone || state = bootmStateOsFakeGo then 0 else bootmErrReset

/-- The label `err`. -/
def dealWithFallout (iflag : Bool) (ret : Int) (interrupts : Bool) : Exit where
  ret := ret
  reset := ret = bootmErrReset
  interrupts := if iflag then true else interrupts

section States

variable (config : Config) (states : UInt32) (res : Results)

/-- The states of the operating system other than `BOOTM_STATE_OS_GO`. -/
def osStates : Int :=
  let ret := runState 0 (requested states bootmStateOsCmdline) res.osCmdline
  let ret := runState ret (requested states bootmStateOsBdT) res.osBdT
  let ret := runState ret (requested states bootmStateOsPrep) res.osPrep
  let ret' := bootSelectedOs res bootmStateOsFakeGo
  runState ret (config.trace && requested states bootmStateOsFakeGo)
    (if ret' = 0 then res.fakegocmd.getD ret' else ret')

def needBootFn : Bool :=
  requested states (bootmStateOsCmdline ||| bootmStateOsBdT ||| bootmStateOsPrep |||
    bootmStateOsFakeGo ||| bootmStateOsGo)

/-- What follows "Load the OS". -/
def afterLoad (ret : Int) (iflag interrupts : Bool) : Exit :=
  let ret := runState ret (config.ramdiskHigh && requested states bootmStateRamdisk) res.ramdisk
  let ret := runState ret (config.fdtLmb && requested states bootmStateFdt) res.fdt
  if ret ≠ 0 then ⟨ret, false, interrupts⟩
  else if !res.bootFn && needBootFn states then
    ⟨1, false, if iflag then true else interrupts⟩
  else if osStates config states res ≠ 0 then ⟨osStates config states res, false, interrupts⟩
  else
    dealWithFallout iflag
      (if requested states bootmStateOsGo then bootSelectedOs res bootmStateOsGo else 0) interrupts

def doBootmStates (interrupts : Bool) : Exit :=
  let ret := runState 0 (requested states bootmStateStart) res.start
  let ret := runState ret (requested states bootmStateFindos) res.findOs
  let ret := runState ret (requested states bootmStateFindother) res.findOther
  if ret = 0 ∧ requested states bootmStateLoados then
    let (iflag, interrupts) := bootmDisableInterrupts interrupts
    match res.loadOs with
    | .ok | .overlap => afterLoad config states res 0 iflag interrupts
    | .reset => dealWithFallout iflag bootmErrReset interrupts
    | .unimplemented => dealWithFallout iflag bootmErrUnimplemented interrupts
  else afterLoad config states res ret false interrupts

/-! ## What is asked of it -/

/-- The kernel is loaded: what is requested before succeeds, and so does the load. -/
def Loads : Prop :=
  requested states bootmStateLoados = true ∧
    (requested states bootmStateStart = true → res.start = 0) ∧
    (requested states bootmStateFindos = true → res.findOs = 0) ∧
    (requested states bootmStateFindother = true → res.findOther = 0) ∧
    (res.loadOs = .ok ∨ res.loadOs = .overlap)

/-- One of the states after it fails whose failure is returned at once: the ramdisk, the device
tree, or a subcommand of the operating system, for which there has to be a boot function. -/
def FailsAfter : Prop :=
  (config.ramdiskHigh = true ∧ requested states bootmStateRamdisk = true ∧ res.ramdisk ≠ 0) ∨
    (config.fdtLmb = true ∧ requested states bootmStateFdt = true ∧ res.fdt ≠ 0) ∨
    (res.bootFn = true ∧
      ((requested states bootmStateOsCmdline = true ∧ res.osCmdline ≠ 0) ∨
        (requested states bootmStateOsBdT = true ∧ res.osBdT ≠ 0) ∨
        (requested states bootmStateOsPrep = true ∧ res.osPrep ≠ 0) ∨
        (config.trace = true ∧ requested states bootmStateOsFakeGo = true ∧
          ∃ ret ∈ res.fakegocmd, ret ≠ 0)))

end States

variable {config : Config} {states : UInt32} {res : Results}

theorem runState_ne_zero {ret result : Int} {requested : Bool} :
    runState ret requested result ≠ 0 ↔ ret ≠ 0 ∨ (requested = true ∧ result ≠ 0) := by
  rw [runState]
  by_cases hret : ret = 0
  · cases requested <;> simp [hret]
  · simp [hret]

theorem fakego_ne_zero (res : Results) :
    (if bootSelectedOs res bootmStateOsFakeGo = 0 then
      res.fakegocmd.getD (bootSelectedOs res bootmStateOsFakeGo)
        else bootSelectedOs res bootmStateOsFakeGo) ≠ 0 ↔ ∃ ret ∈ res.fakegocmd, ret ≠ 0 := by
  have hzero : bootSelectedOs res bootmStateOsFakeGo = 0 := by
    simp [bootSelectedOs]
  rw [hzero, if_pos rfl]
  cases res.fakegocmd <;> simp

theorem osStates_ne_zero : osStates config states res ≠ 0 ↔
    (requested states bootmStateOsCmdline = true ∧ res.osCmdline ≠ 0) ∨
      (requested states bootmStateOsBdT = true ∧ res.osBdT ≠ 0) ∨
      (requested states bootmStateOsPrep = true ∧ res.osPrep ≠ 0) ∨
      (config.trace = true ∧ requested states bootmStateOsFakeGo = true ∧
        ∃ ret ∈ res.fakegocmd, ret ≠ 0) := by
  simp only [osStates, runState_ne_zero, fakego_ne_zero, Bool.and_eq_true, ne_eq, not_true_eq_false,
    false_or, or_assoc, and_assoc]

theorem requested_of_mem {flag mask : UInt32} (hflag : mask &&& flag = flag)
    (h : requested states flag = true) : requested states mask = true := by
  have hne : states &&& flag ≠ 0 := of_decide_eq_true h
  refine decide_eq_true fun hzero => hne ?_
  rw [← hflag, ← UInt32.and_assoc, hzero]
  exact UInt32.zero_and

theorem needBootFn_of_osStates (h : osStates config states res ≠ 0) : needBootFn states = true := by
  rcases osStates_ne_zero.mp h with ⟨hreq, -⟩ | ⟨hreq, -⟩ | ⟨hreq, -⟩ | ⟨-, hreq, -⟩ <;>
    exact requested_of_mem (by decide) hreq

/-- What follows a load that found the interrupts enabled enables them again unless one of its
states fails. -/
theorem afterLoad_interrupts (config : Config) (states : UInt32) (res : Results) :
    (afterLoad config states res 0 true false).interrupts = true ↔
      ¬ FailsAfter config states res := by
  have hearly : runState (runState 0 (config.ramdiskHigh && requested states bootmStateRamdisk)
      res.ramdisk) (config.fdtLmb && requested states bootmStateFdt) res.fdt ≠ 0 ↔
      (config.ramdiskHigh = true ∧ requested states bootmStateRamdisk = true ∧ res.ramdisk ≠ 0) ∨
        (config.fdtLmb = true ∧ requested states bootmStateFdt = true ∧ res.fdt ≠ 0) := by
    simp only [runState_ne_zero, Bool.and_eq_true, ne_eq, not_true_eq_false, false_or, and_assoc]
  rw [FailsAfter, ← osStates_ne_zero, ← or_assoc, ← hearly]
  simp only [afterLoad]
  split
  next hfail => exact iff_of_false nofun fun h => h (Or.inl hfail)
  next hpass =>
    split
    next hfn =>
      rw [Bool.and_eq_true, Bool.not_eq_true'] at hfn
      refine iff_of_true rfl ?_
      rintro (hfail | ⟨hfn', -⟩)
      · exact hpass hfail
      · rw [hfn.1] at hfn'
        cases hfn'
    next hfn =>
      split
      next hos =>
        have hboot : res.bootFn = true := by
          cases hb : res.bootFn with
          | true => rfl
          | false => exact absurd (by rw [hb, needBootFn_of_osStates hos]; rfl) hfn
        exact iff_of_false nofun fun h => h (Or.inr ⟨hboot, hos⟩)
      next hos =>
        refine iff_of_true rfl ?_
        rintro (hfail | ⟨-, hos'⟩)
        · exact hpass hfail
        · exact hos hos'

theorem afterLoad_false (config : Config) (states : UInt32) (res : Results) (ret : Int)
    (interrupts : Bool) :
    (afterLoad config states res ret false interrupts).interrupts = interrupts := by
  simp only [afterLoad]
  split
  · rfl
  split
  · rfl
  split
  · rfl
  · rfl

theorem before_eq_zero :
    runState (runState (runState 0 (requested states bootmStateStart) res.start)
      (requested states bootmStateFindos) res.findOs) (requested states bootmStateFindother)
        res.findOther = 0 ↔
    (requested states bootmStateStart = true → res.start = 0) ∧
      (requested states bootmStateFindos = true → res.findOs = 0) ∧
      (requested states bootmStateFindother = true → res.findOther = 0) := by
  rw [← not_iff_not, ← ne_eq]
  simp only [runState_ne_zero, ne_eq, not_true_eq_false, false_or, not_and_or, Classical.not_imp,
    or_assoc]

/-- **`do_bootm_states` leaves the interrupts as they were** exactly if it does not find them
enabled and fail in one of the states after the load, for every set of states and whatever they
return. -/
theorem interrupts_eq_iff (config : Config) (states : UInt32) (res : Results) (interrupts : Bool) :
    (doBootmStates config states res interrupts).interrupts = interrupts ↔
      ¬ (interrupts = true ∧ Loads states res ∧ FailsAfter config states res) := by
  simp only [doBootmStates, before_eq_zero, bootmDisableInterrupts]
  split
  next hload =>
    cases interrupts with
    | false =>
      refine iff_of_true ?_ fun h => Bool.false_ne_true h.1
      cases res.loadOs with
      | ok => exact afterLoad_false config states res 0 false
      | overlap => exact afterLoad_false config states res 0 false
      | reset => rfl
      | unimplemented => rfl
    | true =>
      have hloads : (res.loadOs = .ok ∨ res.loadOs = .overlap) → Loads states res := fun h =>
        ⟨hload.2, hload.1.1, hload.1.2.1, hload.1.2.2, h⟩
      cases hos : res.loadOs with
      | ok =>
        dsimp only
        rw [afterLoad_interrupts, and_iff_right rfl, and_iff_right (hloads (Or.inl hos))]
      | overlap =>
        dsimp only
        rw [afterLoad_interrupts, and_iff_right rfl, and_iff_right (hloads (Or.inr hos))]
      | reset =>
        refine iff_of_true rfl ?_
        rintro ⟨-, ⟨-, -, -, -, hres⟩, -⟩
        rw [hos] at hres
        exact absurd hres (by decide)
      | unimplemented =>
        refine iff_of_true rfl ?_
        rintro ⟨-, ⟨-, -, -, -, hres⟩, -⟩
        rw [hos] at hres
        exact absurd hres (by decide)
  next hskip =>
    refine iff_of_true (afterLoad_false ..) ?_
    rintro ⟨-, ⟨hreq, hstart, hfind, hother, -⟩, -⟩
    exact hskip ⟨⟨hstart, hfind, hother⟩, hreq⟩

/-- All succeeds but the move of the ramdisk. -/
def ramdiskFails : Results := ⟨0, 0, 0, .ok, -1, 0, true, 0, 0, 0, none, false⟩

/-- `bootm loados` and `bootm ramdisk` at once: the interrupts stay disabled. -/
theorem interrupts_ramdiskFails :
    doBootmStates ⟨true, true, false⟩ (bootmStateLoados ||| bootmStateRamdisk) ramdiskFails true =
      ⟨-1, false, false⟩ := by
  decide

end RealtekIpcam.Uboot.BootInterrupts
