import RealtekIpcam.Gpiolib.Numbers

/-!
# GPIO lines in sysfs

A line that is written to `export` is requested for user space and gets a class device with the
files `direction`, `edge`, `value` and `active_low`; writing it to `unexport` gives it back.  A line
that a driver holds may have a class device as well.

While an edge is chosen, `poll` on the file `value` is served by an interrupt.  Four things then
belong together: the flags of the edge in `struct gpiod_data`, the interrupt with its trigger, the
lock on the line as an interrupt, and a reference on the dirent of `value`.

What the chip, the interrupt core and the driver core return comes with every write, as `Calls`.
A step without a result is one in which the kernel follows a pointer to a chip that is gone.
-/

namespace RealtekIpcam.Gpiolib.Sysfs

def EPERM : Int := 1
def ENOENT : Int := 2
def EIO : Int := 5
def ENXIO : Int := 6
def ENODEV : Int := 19
def ERANGE : Int := 34
def EPROBE_DEFER : Int := 517
def ENOTSUPP : Int := 524

def GPIO_IRQF_TRIGGER_FALLING : BitVec 8 := 1#8
def GPIO_IRQF_TRIGGER_RISING : BitVec 8 := 2#8
def GPIO_IRQF_TRIGGER_BOTH : BitVec 8 := GPIO_IRQF_TRIGGER_FALLING ||| GPIO_IRQF_TRIGGER_RISING

def IRQF_TRIGGER_RISING : BitVec 64 := 1#64
def IRQF_TRIGGER_FALLING : BitVec 64 := 2#64
def IRQF_SHARED : BitVec 64 := 0x80#64

/-! ## Lines -/

/-- Which operations a `struct gpio_chip` has, and whether they may sleep. -/
structure Chip where
  canSleep : Bool
  request : Bool
  getDirection : Bool
  directionInput : Bool
  directionOutput : Bool
  get : Bool
  set : Bool
  setConfig : Bool
  toIrq : Bool
  deriving DecidableEq

/-- `struct gpio_device`: the chip while it is there, and whether `mockdev` is set. -/
structure Gdev where
  chip : Option Chip
  mockdev : Bool
  deriving DecidableEq

/-- `struct gpio_desc`: the flags and the label. -/
structure Desc where
  requested : Bool
  isOut : Bool
  exported : Bool
  sysfs : Bool
  activeLow : Bool
  openDrain : Bool
  openSource : Bool
  usedAsIrq : Bool
  irqIsEnabled : Bool
  isHogged : Bool
  transitory : Bool
  pullUp : Bool
  pullDown : Bool
  label : Option String
  deriving DecidableEq

/-- A class device with its `struct gpiod_data`.  `valueKn` is whether the pointer to the dirent is
set.  The file `direction` is there if the direction may change; `edge` is whether that file is. -/
structure ClassDevice where
  irq : Int
  valueKn : Bool
  irqFlags : BitVec 8
  directionCanChange : Bool
  edge : Bool
  deriving DecidableEq

/-- A handler that the interrupt core calls, with the flags it was requested with. -/
structure Action where
  irq : Int
  flags : BitVec 64
  deriving DecidableEq

/-- What sysfs holds for a line: the handlers requested with its data, the locks as an interrupt
that it took and has not given back, and the references on the dirent of `value`. -/
structure Held where
  actions : List Action
  locks : Int
  valueRefs : Int
  deriving DecidableEq

def Held.none : Held := ⟨[], 0, 0⟩

structure Line where
  desc : Desc
  device : Option ClassDevice
  held : Held
  deriving DecidableEq

/-- A line with a class device: what the files of the device work on. -/
structure Node where
  desc : Desc
  dev : ClassDevice
  held : Held
  deriving DecidableEq

def Line.node (l : Line) : Option Node := l.device.map fun dev => ⟨l.desc, dev, l.held⟩

def Node.line (n : Node) : Line := ⟨n.desc, some n.dev, n.held⟩

/-- What the calls of one operation return.  `kstrdup`, `kzalloc` and `getDirent` are whether they
give a pointer, and `deviceCreate` is what `PTR_ERR` makes of the device.  The operation
`set_config` is asked for the persistence and for the drive of a line. -/
structure Calls where
  tryModuleGet : Bool
  kstrdup : Bool
  lineIsValid : Bool
  request : Int
  getDirection : Int
  directionInput : Int
  directionOutput : Int
  setConfig : Int
  setDrive : Int
  kzalloc : Bool
  deviceCreate : Int
  toIrq : Int
  getDirent : Bool
  requestAnyContextIrq : Int

/-- What `kstrtol` makes of a text: a number, or one of its two errors. -/
inductive Kstrtol where
  | ok (value : Int)
  | einval
  | erange
  deriving DecidableEq

/-- `sysfs_streq`: equal but for a newline at the end. -/
def sysfsStreq (s t : String) : Bool := s = t || s ++ "\n" = t || s = t ++ "\n"

/-- `status ? : size`. -/
def orSize (status : Int) (buf : String) : Int := if status ≠ 0 then status else buf.utf8ByteSize

/-! ## Requesting and freeing -/

namespace Desc

def gpiodGetDirection (chip : Chip) (c : Calls) (d : Desc) : Int × Desc :=
  if d.openDrain && d.isOut then (0, d)
  else if !chip.getDirection then (-ENOTSUPP, d)
  else if 0 < c.getDirection then (1, { d with isOut := false })
  else if c.getDirection = 0 then (0, { d with isOut := true })
  else (c.getDirection, d)

def gpiodRequestCommit (chip : Chip) (c : Calls) (label : String) (d : Desc) : Int × Desc :=
  if !c.kstrdup then (-ENOMEM, d)
  else if d.requested then (-EBUSY, d)
  else
    let d := { d with requested := true, label := some label }
    let ret := if chip.request then (if c.lineIsValid then c.request else -EINVAL) else 0
    if ret < 0 then (ret, { d with requested := false, label := none })
    else (ret, if chip.getDirection then (d.gpiodGetDirection chip c).2 else d)

/-- `gpiod_request`.  If the chip is gone, `validate_desc` ends it without an error. -/
def gpiodRequest (chip : Option Chip) (c : Calls) (label : String) (d : Desc) : Int × Desc :=
  match chip with
  | none => (0, d)
  | some chip => if c.tryModuleGet then d.gpiodRequestCommit chip c label else (-EPROBE_DEFER, d)

/-- What `gpiod_free_commit` clears. -/
def release (d : Desc) : Desc :=
  { d with
    label := none, activeLow := false, requested := false, openDrain := false
    openSource := false, isHogged := false }

def gpiodSetTransitory (chip : Option Chip) (c : Calls) (transitory : Bool) (d : Desc) :
    Int × Desc :=
  match chip with
  | none => (0, d)
  | some chip =>
    let d := { d with transitory := transitory }
    if !chip.setConfig then (0, d)
    else if c.setConfig = -ENOTSUPP then (0, d)
    else (c.setConfig, d)

/-- `gpiod_direction_input`, but for the bias, whose result it does not look at. -/
def gpiodDirectionInput (chip : Option Chip) (c : Calls) (d : Desc) : Int × Desc :=
  match chip with
  | none => (0, d)
  | some chip =>
    if !chip.get && chip.directionInput then (- EIO, d)
    else if chip.directionInput then
      (c.directionInput, if c.directionInput = 0 then { d with isOut := false } else d)
    else if chip.getDirection && c.getDirection ≠ 1 then (- EIO, d)
    else (0, { d with isOut := false })

def gpiodDirectionOutputRaw (chip : Option Chip) (c : Calls) (d : Desc) : Int × Desc :=
  match chip with
  | none => (0, d)
  | some chip =>
    if !chip.set && !chip.directionOutput then (- EIO, d)
    else if chip.directionOutput then
      (c.directionOutput, if c.directionOutput = 0 then { d with isOut := true } else d)
    else if chip.getDirection && c.getDirection ≠ 0 then (- EIO, d)
    else (0, { d with isOut := true })

def directionStore (chip : Option Chip) (c : Calls) (buf : String) (d : Desc) : Int × Desc :=
  let ret :=
    if sysfsStreq buf "high" then d.gpiodDirectionOutputRaw chip c
    else if sysfsStreq buf "out" || sysfsStreq buf "low" then d.gpiodDirectionOutputRaw chip c
    else if sysfsStreq buf "in" then d.gpiodDirectionInput chip c
    else (-EINVAL, d)
  (orSize ret.1 buf, ret.2)

def gpiochipLockAsIrq (chip : Chip) (c : Calls) (d : Desc) : Int × Desc :=
  let dir := if !chip.canSleep && chip.getDirection then d.gpiodGetDirection chip c else (0, d)
  if dir.1 < 0 then dir
  else if dir.2.isOut && !dir.2.openDrain then (- EIO, dir.2)
  else
    (0, { dir.2 with
      usedAsIrq := true, irqIsEnabled := true, label := some (dir.2.label.getD "interrupt") })

def gpiochipUnlockAsIrq (d : Desc) : Desc :=
  { d with
    usedAsIrq := false, irqIsEnabled := false
    label := if d.label = some "interrupt" then none else d.label }

end Desc

/-! ## The interrupt -/

def gpiodToIrq (chip : Option Chip) (c : Calls) : Int :=
  match chip with
  | none => -EINVAL
  | some chip => if chip.toIrq then (if c.toIrq = 0 then - ENXIO else c.toIrq) else - ENXIO

/-- The flags that `gpio_sysfs_request_irq` requests the interrupt with. -/
def requestFlags (flags : BitVec 8) (activeLow : Bool) : BitVec 64 :=
  let falling := if activeLow then IRQF_TRIGGER_RISING else IRQF_TRIGGER_FALLING
  let rising := if activeLow then IRQF_TRIGGER_FALLING else IRQF_TRIGGER_RISING
  IRQF_SHARED ||| (if flags &&& GPIO_IRQF_TRIGGER_FALLING ≠ 0#8 then falling else 0#64) |||
    (if flags &&& GPIO_IRQF_TRIGGER_RISING ≠ 0#8 then rising else 0#64)

def triggerTypes : List (String × BitVec 8) :=
  [("none", 0#8), ("falling", GPIO_IRQF_TRIGGER_FALLING), ("rising", GPIO_IRQF_TRIGGER_RISING),
    ("both", GPIO_IRQF_TRIGGER_BOTH)]

/-- The flags of the trigger type that a text names. -/
def triggerFlags (buf : String) : Option (BitVec 8) :=
  (triggerTypes.find? fun type => sysfsStreq type.1 buf).map Prod.snd

namespace Node

/-- `gpio_sysfs_request_irq` from the dirent on, with the number of the interrupt. -/
def requestIrqFor (chip : Chip) (c : Calls) (flags : BitVec 8) (n : Node) : Int × Node :=
  let n := { n with dev := { n.dev with valueKn := c.getDirent } }
  if !c.getDirent then (-ENODEV, n)
  else
    let lock := n.desc.gpiochipLockAsIrq chip c
    -- on both error paths the reference on the dirent is put again
    if lock.1 < 0 then (lock.1, { n with desc := lock.2 })
    else if c.requestAnyContextIrq < 0 then
      (c.requestAnyContextIrq, { n with desc := lock.2.gpiochipUnlockAsIrq })
    else
      (0, { desc := lock.2
            dev := { n.dev with irqFlags := flags }
            held := { actions := n.held.actions ++
                        [⟨n.dev.irq, requestFlags flags n.desc.activeLow⟩]
                      locks := n.held.locks + 1
                      valueRefs := n.held.valueRefs + 1 } })

/-- `gpio_sysfs_request_irq`.  If the chip is gone, `gpiod_to_irq` fails. -/
def gpioSysfsRequestIrq (chip : Option Chip) (c : Calls) (flags : BitVec 8) (n : Node) :
    Int × Node :=
  let n := { n with dev := { n.dev with irq := gpiodToIrq chip c } }
  match chip with
  | none => (- EIO, n)
  | some chip => if n.dev.irq < 0 then (- EIO, n) else n.requestIrqFor chip c flags

/-- `gpio_sysfs_free_irq`.  `gpiochip_unlock_as_irq` follows the pointer to the chip. -/
def gpioSysfsFreeIrq (chip : Option Chip) (n : Node) : Option Node :=
  chip.map fun _ =>
    { desc := n.desc.gpiochipUnlockAsIrq
      dev := { n.dev with irqFlags := 0#8 }
      held := { actions := n.held.actions.eraseP fun action => action.irq = n.dev.irq
                locks := n.held.locks - 1
                valueRefs := n.held.valueRefs - if n.dev.valueKn then 1 else 0 } }

/-- The free in front of a request: only if there is something to free. -/
def freeOldIrq (chip : Option Chip) (n : Node) : Option Node :=
  if n.dev.irqFlags ≠ 0#8 then n.gpioSysfsFreeIrq chip else some n

/-- What `edge_store` does with flags that differ from those it finds. -/
def changeEdge (chip : Option Chip) (c : Calls) (flags : BitVec 8) (n : Node) : Int × Node :=
  if flags ≠ 0#8 then n.gpioSysfsRequestIrq chip c flags else (0, n)

def edgeStore (chip : Option Chip) (c : Calls) (buf : String) (n : Node) : Option (Int × Node) :=
  match triggerFlags buf with
  | none => some (-EINVAL, n)
  | some flags =>
    if flags = n.dev.irqFlags then some (buf.utf8ByteSize, n)
    else (n.freeOldIrq chip).map fun n =>
      (orSize (n.changeEdge chip c flags).1 buf, (n.changeEdge chip c flags).2)

def setPolarity (value : Bool) (n : Node) : Node :=
  { n with desc := { n.desc with activeLow := value } }

def gpioSysfsSetActiveLow (chip : Option Chip) (c : Calls) (value : Int) (n : Node) :
    Option (Int × Node) :=
  if n.desc.activeLow = decide (value ≠ 0) then some (0, n)
  else
    let flags := n.dev.irqFlags
    let n := n.setPolarity (decide (value ≠ 0))
    if flags = GPIO_IRQF_TRIGGER_FALLING ∨ flags = GPIO_IRQF_TRIGGER_RISING then
      (n.gpioSysfsFreeIrq chip).map (gpioSysfsRequestIrq chip c flags)
    else some (0, n)

/-- `active_low_store`.  The number is passed on as an `int`. -/
def activeLowStore (kstrtol : String → Kstrtol) (chip : Option Chip) (c : Calls) (buf : String)
    (n : Node) : Option (Int × Node) :=
  match kstrtol buf with
  | .einval => some (-EINVAL, n)
  | .erange => some (-ERANGE, n)
  | .ok value =>
    (n.gpioSysfsSetActiveLow chip c (value.bmod (2 ^ 32))).map fun ret => (orSize ret.1 buf, ret.2)

end Node

/-! ## Export and unexport -/

namespace Line

/-- The class device that `gpiod_export` makes.  `gpio_is_visible` decides on its files. -/
def newDevice (chip : Chip) (c : Calls) (directionMayChange : Bool) (d : Desc) : ClassDevice :=
  let directionCanChange := chip.directionInput && chip.directionOutput && directionMayChange
  { irq := 0
    valueKn := false
    irqFlags := 0#8
    directionCanChange := directionCanChange
    edge := decide (0 ≤ gpiodToIrq (some chip) c) && (directionCanChange || !d.isOut) }

/-- `gpiod_export`, once the class is there. -/
def gpiodExport (gdev : Gdev) (c : Calls) (directionMayChange : Bool) (l : Line) : Int × Line :=
  match gdev.chip with
  | none => (-ENODEV, l)
  | some chip =>
    if !gdev.mockdev then (-ENODEV, l)
    else if !l.desc.requested || l.desc.exported then (-EPERM, l)
    else if !c.kzalloc then (-ENOMEM, l)
    else if -4095 ≤ c.deviceCreate ∧ c.deviceCreate < 0 then (c.deviceCreate, l)
    else
      (0, { l with
        desc := { l.desc with exported := true }
        device := some (newDevice chip c directionMayChange l.desc) })

def gpiodUnexport (chip : Option Chip) (l : Line) : Option Line :=
  if !l.desc.exported then some l
  else
    match l.node with
    | none => some l
    | some n =>
      (Node.freeOldIrq chip { n with desc := { n.desc with exported := false } }).map fun n =>
        ⟨n.desc, none, n.held⟩

/-- The end of `gpiod_free_commit`. -/
def release (l : Line) : Line := { l with desc := l.desc.release }

def gpiodFree (chip : Option Chip) (l : Line) : Option Line :=
  (l.gpiodUnexport chip).map fun l => if chip.isSome && l.desc.requested then l.release else l

def setSysfs (value : Bool) (l : Line) : Line :=
  { l with desc := { l.desc with sysfs := value } }

/-- `test_and_clear_bit(FLAG_SYSFS)`, and the free if the flag was set. -/
def freeSysfs (chip : Option Chip) (l : Line) : Option Line :=
  if l.desc.sysfs then (l.setSysfs false).gpiodFree chip else some l

/-- The body of the loop in `gpiochip_free_hogs`. -/
def freeHog (chip : Option Chip) (l : Line) : Option Line :=
  if l.desc.isHogged then l.gpiodFree chip else some l

/-- `export_store` behind a request that succeeded. -/
def exportRequested (gdev : Gdev) (c : Calls) (buf : String) (l : Line) : Option (Int × Line) :=
  let transitory := l.desc.gpiodSetTransitory gdev.chip c false
  let l := { l with desc := transitory.2 }
  if transitory.1 ≠ 0 then some (transitory.1, l)
  else
    let ret := l.gpiodExport gdev c true
    if ret.1 < 0 then (ret.2.gpiodFree gdev.chip).map fun l => (ret.1, l)
    else some (orSize ret.1 buf, ret.2.setSysfs true)

/-- `export_store`, with the descriptor.  `gpiochip_line_is_valid` follows the pointer to the
chip. -/
def exportStore (gdev : Gdev) (c : Calls) (buf : String) (l : Line) : Option (Int × Line) :=
  match gdev.chip with
  | none => none
  | some _ =>
    if !c.lineIsValid then some (-EINVAL, l)
    else
      let ret := l.desc.gpiodRequest gdev.chip c "sysfs"
      let l := { l with desc := ret.2 }
      if ret.1 < 0 then some (if ret.1 = -EPROBE_DEFER then -ENODEV else ret.1, l)
      else l.exportRequested gdev c buf

/-- `unexport_store`, with the descriptor. -/
def unexportStore (chip : Option Chip) (buf : String) (l : Line) : Option (Int × Line) :=
  if l.desc.sysfs then (l.freeSysfs chip).map fun l => (buf.utf8ByteSize, l)
  else some (-EINVAL, l)

/-- A write to a file of the class device, if the file is there. -/
def onFile (file : ClassDevice → Bool) (store : Node → Option (Int × Node)) (l : Line) :
    Option (Int × Line) :=
  match l.node with
  | none => some (-ENOENT, l)
  | some n =>
    if file n.dev then (store n).map fun ret => (ret.1, ret.2.line) else some (-ENOENT, l)

end Line

/-! ## The system -/

/-- The devices and the lines of each of them, in the order of `descs`. -/
structure Layout (κ ι : Type*) where
  gdev : ι → κ
  descs : κ → List ι
  mem_descs : ∀ k i, i ∈ descs k ↔ gdev i = k

structure State (κ ι : Type*) where
  gdevs : κ → Gdev
  lines : ι → Line

/-- A write to one of the files, or the chip's driver going.  A number is looked up by
`gpio_to_desc`, whose answer comes with the write. -/
inductive Event (ι κ : Type*) where
  | exportStore (buf : String) (gpioToDesc : Nat → Option ι) (c : Calls)
  | unexportStore (buf : String) (gpioToDesc : Nat → Option ι)
  | edgeStore (i : ι) (buf : String) (c : Calls)
  | directionStore (i : ι) (buf : String) (c : Calls)
  | activeLowStore (i : ι) (buf : String) (c : Calls)
  | gpiochipSysfsUnregister (k : κ)
  | gpiochipRemove (k : κ)

namespace State

variable {κ ι : Type*} [DecidableEq κ] [DecidableEq ι] (kstrtol : String → Kstrtol)
  (L : Layout κ ι)

def setLine (s : State κ ι) (i : ι) (l : Line) : State κ ι :=
  { s with lines := Function.update s.lines i l }

def setGdev (s : State κ ι) (k : κ) (gdev : Gdev) : State κ ι :=
  { s with gdevs := Function.update s.gdevs k gdev }

/-- The device of a line. -/
def gdevOf (s : State κ ι) (i : ι) : Gdev := s.gdevs (L.gdev i)

/-- The write of a number, with what is done to its line. -/
def onNumber (s : State κ ι) (buf : String) (gpioToDesc : Nat → Option ι)
    (store : ι → Option (Int × Line)) : Option (Int × State κ ι) :=
  match kstrtol buf with
  | .einval => some (-EINVAL, s)
  | .erange => some (-ERANGE, s)
  | .ok gpio =>
    match gpioToDesc (Words.u32 gpio) with
    | none => some (-EINVAL, s)
    | some i => (store i).map fun ret => (ret.1, s.setLine i ret.2)

/-- A loop over lines that frees some of them. -/
def forLines (free : Option Chip → Line → Option Line) : List ι → State κ ι → Option (State κ ι)
  | [], s => some s
  | i :: is, s =>
    (free (s.gdevOf L i).chip (s.lines i)).bind fun l => forLines free is (s.setLine i l)

def gpiochipSysfsUnregister (k : κ) (s : State κ ι) : Option (State κ ι) :=
  if !(s.gdevs k).mockdev then some s
  else
    match (s.gdevs k).chip with
    | none => none
    | some chip =>
      forLines L Line.freeSysfs (L.descs k) (s.setGdev k { chip := some chip, mockdev := false })

/-- `gpiochip_remove`, up to the point where the chip is gone. -/
def gpiochipRemove (k : κ) (s : State κ ι) : Option (State κ ι) :=
  match (s.gdevs k).chip with
  | none => none
  | some _ =>
    (s.gpiochipSysfsUnregister L k).bind fun s =>
      (forLines L Line.freeHog (L.descs k) s).map fun s =>
        s.setGdev k { chip := none, mockdev := (s.gdevs k).mockdev }

/-- What an event returns, and the state after it. -/
def perform (s : State κ ι) : Event ι κ → Option (Int × State κ ι)
  | .exportStore buf gpioToDesc c =>
    s.onNumber kstrtol buf gpioToDesc fun i => (s.lines i).exportStore (s.gdevOf L i) c buf
  | .unexportStore buf gpioToDesc =>
    s.onNumber kstrtol buf gpioToDesc fun i =>
      (s.lines i).unexportStore (s.gdevOf L i).chip buf
  | .edgeStore i buf c =>
    ((s.lines i).onFile ClassDevice.edge (Node.edgeStore (s.gdevOf L i).chip c buf)).map
      fun ret => (ret.1, s.setLine i ret.2)
  | .directionStore i buf c =>
    ((s.lines i).onFile ClassDevice.directionCanChange fun n =>
      let ret := n.desc.directionStore (s.gdevOf L i).chip c buf
      some (ret.1, { n with desc := ret.2 })).map
      fun ret => (ret.1, s.setLine i ret.2)
  | .activeLowStore i buf c =>
    ((s.lines i).onFile (fun _ => true)
      (Node.activeLowStore kstrtol (s.gdevOf L i).chip c buf)).map
      fun ret => (ret.1, s.setLine i ret.2)
  | .gpiochipSysfsUnregister k => (s.gpiochipSysfsUnregister L k).map fun s => (0, s)
  | .gpiochipRemove k => (s.gpiochipRemove L k).map fun s => (0, s)

def step (s : State κ ι) (e : Event ι κ) : Option (State κ ι) :=
  (s.perform kstrtol L e).map Prod.snd

end State

/-- A chip with all operations, which may not sleep. -/
def plainChip : Chip where
  canSleep := false
  request := true
  getDirection := true
  directionInput := true
  directionOutput := true
  get := true
  set := true
  setConfig := true
  toIrq := true

/-- A line that nobody has requested. -/
def freeDesc : Desc where
  requested := false
  isOut := false
  exported := false
  sysfs := false
  activeLow := false
  openDrain := false
  openSource := false
  usedAsIrq := false
  irqIsEnabled := false
  isHogged := false
  transitory := false
  pullUp := false
  pullDown := false
  label := none

/-- Every call succeeds, on a line that is an input. -/
def granted : Calls where
  tryModuleGet := true
  kstrdup := true
  lineIsValid := true
  request := 0
  getDirection := 1
  directionInput := 0
  directionOutput := 0
  setConfig := -ENOTSUPP
  setDrive := -ENOTSUPP
  kzalloc := true
  deviceCreate := 0
  toIrq := 40
  getDirent := true
  requestAnyContextIrq := 0

end RealtekIpcam.Gpiolib.Sysfs
