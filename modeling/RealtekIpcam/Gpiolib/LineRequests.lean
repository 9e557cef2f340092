import RealtekIpcam.Gpiolib.Directions

/-!
# Requests of GPIO lines from user space

`linehandle_create` requests up to 64 lines for a file handle, and `lineevent_create` one line for
its interrupt.  Both request a line, set its flags, and have calls to make after that which can
fail; then they free the lines that they have requested so far.

What the calls return comes with every request.  Of the interrupt core the lines see only that it
asks a chip for the line, and gives it back.
-/

namespace RealtekIpcam.Gpiolib.LineRequests

open Sysfs Directions

def EFAULT : Int := 14

def GPIOHANDLES_MAX : Nat := 64

def GPIOHANDLE_REQUEST_INPUT : BitVec 32 := 1#32
def GPIOHANDLE_REQUEST_OUTPUT : BitVec 32 := 2#32
def GPIOHANDLE_REQUEST_ACTIVE_LOW : BitVec 32 := 4#32
def GPIOHANDLE_REQUEST_OPEN_DRAIN : BitVec 32 := 8#32
def GPIOHANDLE_REQUEST_OPEN_SOURCE : BitVec 32 := 16#32

def GPIOHANDLE_REQUEST_VALID_FLAGS : BitVec 32 :=
  GPIOHANDLE_REQUEST_INPUT ||| GPIOHANDLE_REQUEST_OUTPUT ||| GPIOHANDLE_REQUEST_ACTIVE_LOW |||
    GPIOHANDLE_REQUEST_OPEN_DRAIN ||| GPIOHANDLE_REQUEST_OPEN_SOURCE

def GPIOEVENT_REQUEST_RISING_EDGE : BitVec 32 := 1#32
def GPIOEVENT_REQUEST_FALLING_EDGE : BitVec 32 := 2#32

def GPIOEVENT_REQUEST_VALID_FLAGS : BitVec 32 :=
  GPIOEVENT_REQUEST_RISING_EDGE ||| GPIOEVENT_REQUEST_FALLING_EDGE

/-- One of the bits is set. -/
def has (flags bits : BitVec 32) : Bool := flags &&& bits != 0#32

/-! ## The device -/

/-- `struct gpio_device` while its chip is there, with the references on the module of the driver
and on the device.  The lines have no class device. -/
structure GpioDevice where
  chip : Chip
  ngpio : Nat
  descs : Nat → Pin
  moduleRefs : Int
  deviceRefs : Int

namespace GpioDevice

def setLine (n : Nat) (p : Pin) (g : GpioDevice) : GpioDevice :=
  { g with descs := Function.update g.descs n p }

/-- Another descriptor of a line. -/
def setDesc (n : Nat) (d : Desc) (g : GpioDevice) : GpioDevice :=
  g.setLine n { g.descs n with desc := d }

def moduleGet (g : GpioDevice) : GpioDevice := { g with moduleRefs := g.moduleRefs + 1 }

def modulePut (g : GpioDevice) : GpioDevice := { g with moduleRefs := g.moduleRefs - 1 }

def getDevice (g : GpioDevice) : GpioDevice := { g with deviceRefs := g.deviceRefs + 1 }

def putDevice (g : GpioDevice) : GpioDevice := { g with deviceRefs := g.deviceRefs - 1 }

/-- `gpiod_request_commit`.  Without a label there is nothing to duplicate. -/
def gpiodRequestCommit (c : Calls) (label : Option String) (n : Nat) (g : GpioDevice) :
    Int × GpioDevice :=
  let ret := match label with
    | some label => (g.descs n).desc.gpiodRequestCommit g.chip c label
    | none => (g.descs n).desc.gpiodRequestCommit g.chip { c with kstrdup := true } "?"
  (ret.1, g.setDesc n ret.2)

def gpiodRequest (c : Calls) (label : Option String) (n : Nat) (g : GpioDevice) :
    Int × GpioDevice :=
  if c.tryModuleGet then
    let ret := g.moduleGet.gpiodRequestCommit c label n
    if ret.1 < 0 then (ret.1, ret.2.modulePut) else (ret.1, ret.2.getDevice)
  else (-EPROBE_DEFER, g)

def gpiodFreeCommit (n : Nat) (g : GpioDevice) : Bool × GpioDevice :=
  if (g.descs n).desc.requested then (true, g.setDesc n (g.descs n).desc.release) else (false, g)

def gpiodFree (n : Nat) (g : GpioDevice) : GpioDevice :=
  let ret := g.gpiodFreeCommit n
  if ret.1 then ret.2.modulePut.putDevice else ret.2

/-- The free of one line after the other. -/
def freeLines (lines : List Nat) (g : GpioDevice) : GpioDevice :=
  lines.foldl (fun g n => g.gpiodFree n) g

end GpioDevice

/-! ## Handles -/

/-- `struct gpiohandle_request`, with the label up to its end. -/
structure HandleRequest where
  lineoffsets : Vector (BitVec 32) 64
  flags : BitVec 32
  defaultValues : Vector (BitVec 8) 64
  consumerLabel : String
  lines : BitVec 32

/-- The lines that are asked for, with their values. -/
def HandleRequest.entries (r : HandleRequest) : List (BitVec 32 × BitVec 8) :=
  (r.lineoffsets.toList.zip r.defaultValues.toList).take r.lines.toNat

def HandleRequest.offsets (r : HandleRequest) : List Nat := r.entries.map fun e => e.1.toNat

/-- What making the file returns: `anonInodeGetfile` is what `PTR_ERR` makes of it. -/
structure FileCalls where
  getUnusedFdFlags : Int
  anonInodeGetfile : Int
  copyToUser : Bool

/-- What the calls of a request return that do not depend on a line. -/
structure OpenCalls where
  copyFromUser : Bool
  kzalloc : Bool
  kstrdup : Bool
  file : FileCalls

/-- An empty label is none. -/
def labelOf (consumerLabel : String) : Option String :=
  if consumerLabel = "" then none else some consumerLabel

/-- The checks of the flags in `linehandle_create`. -/
def handleFlagsValid (lflags : BitVec 32) : Bool :=
  !has lflags (~~~GPIOHANDLE_REQUEST_VALID_FLAGS) &&
  !(has lflags GPIOHANDLE_REQUEST_INPUT && has lflags GPIOHANDLE_REQUEST_OUTPUT) &&
  !(has lflags GPIOHANDLE_REQUEST_OPEN_DRAIN && has lflags GPIOHANDLE_REQUEST_OPEN_SOURCE) &&
  !(!has lflags GPIOHANDLE_REQUEST_OUTPUT &&
    (has lflags GPIOHANDLE_REQUEST_OPEN_DRAIN || has lflags GPIOHANDLE_REQUEST_OPEN_SOURCE))

def setFlags (lflags : BitVec 32) (d : Desc) : Desc :=
  { d with
    activeLow := d.activeLow || has lflags GPIOHANDLE_REQUEST_ACTIVE_LOW
    openDrain := d.openDrain || has lflags GPIOHANDLE_REQUEST_OPEN_DRAIN
    openSource := d.openSource || has lflags GPIOHANDLE_REQUEST_OPEN_SOURCE }

/-- What `linehandle_create` does with a line that it has requested. -/
def configureLine (chip : Chip) (c : Calls) (lflags : BitVec 32) (value : BitVec 8) (p : Pin) :
    Int × Pin :=
  let ret := (setFlags lflags p.desc).gpiodSetTransitory (some chip) c false
  let p := { p with desc := ret.2 }
  if ret.1 < 0 then (ret.1, p)
  else if has lflags GPIOHANDLE_REQUEST_OUTPUT then
    p.gpiodDirectionOutput chip c (value != 0#8)
  else if has lflags GPIOHANDLE_REQUEST_INPUT then p.gpiodDirectionInput chip c
  else (0, p)

/-- The end of a request: a descriptor, a file, and both for the user. -/
def installFile (c : FileCalls) : Int :=
  if c.getUnusedFdFlags < 0 then c.getUnusedFdFlags
  else if c.anonInodeGetfile < 0 then c.anonInodeGetfile
  else if !c.copyToUser then -EFAULT
  else 0

namespace GpioDevice

/-- The loop of `linehandle_create`, with the lines that it adds to the handle. -/
def requestLines (lflags : BitVec 32) (label : Option String) (calls : Nat → Calls) :
    Nat → List (BitVec 32 × BitVec 8) → GpioDevice → Int × List Nat × GpioDevice
  | _, [], g => (0, [], g)
  | i, (offset, value) :: entries, g =>
    if g.ngpio ≤ offset.toNat then (-EINVAL, [], g)
    else
      let ret := g.gpiodRequest (calls i) label offset.toNat
      if ret.1 ≠ 0 then (ret.1, [], ret.2)
      else
        let conf :=
          configureLine g.chip (calls i) lflags value (ret.2.descs offset.toNat)
        let g := ret.2.setLine offset.toNat conf.2
        if conf.1 ≠ 0 then (conf.1, [offset.toNat], g)
        else
          let rest := g.requestLines lflags label calls (i + 1) entries
          (rest.1, offset.toNat :: rest.2.1, rest.2.2)

def linehandleRelease (descs : List Nat) (g : GpioDevice) : GpioDevice :=
  (g.freeLines descs).putDevice

/-- `linehandle_create`.  Where the user cannot have the file, its release frees the lines; where
there is none, the labels at the end of the function do the same. -/
def linehandleCreate (handlereq : HandleRequest) (c : OpenCalls) (calls : Nat → Calls)
    (g : GpioDevice) : Int × GpioDevice :=
  if !c.copyFromUser then (-EFAULT, g)
  else if handlereq.lines.toNat = 0 ∨ GPIOHANDLES_MAX < handlereq.lines.toNat then (-EINVAL, g)
  else if !handleFlagsValid handlereq.flags then (-EINVAL, g)
  else if !c.kzalloc then (-ENOMEM, g)
  else if handlereq.consumerLabel ≠ "" ∧ c.kstrdup = false then (-ENOMEM, g.getDevice.putDevice)
  else
    let ret := g.getDevice.requestLines handlereq.flags (labelOf handlereq.consumerLabel) calls 0
      handlereq.entries
    if ret.1 ≠ 0 then (ret.1, ret.2.2.linehandleRelease ret.2.1)
    else if installFile c.file < 0 then
      (installFile c.file, ret.2.2.linehandleRelease ret.2.1)
    else (0, ret.2.2)

end GpioDevice

/-! ## Events -/

/-- `struct gpioevent_request`, with the label up to its end. -/
structure EventRequest where
  lineoffset : BitVec 32
  handleflags : BitVec 32
  eventflags : BitVec 32
  consumerLabel : String

/-- What a line sees of the interrupt core.  A request can be refused at once.  A chip with the
hooks of the GPIO library, `hooked`, is asked for the line, and given it back if the request comes
to nothing after that. -/
structure IrqCalls where
  refused : Int
  hooked : Bool
  tryModuleGet : Bool
  setup : Int

/-- The checks of the flags in `lineevent_create`. -/
def eventFlagsValid (lflags eflags : BitVec 32) : Bool :=
  !(has lflags (~~~GPIOHANDLE_REQUEST_VALID_FLAGS) ||
    has eflags (~~~GPIOEVENT_REQUEST_VALID_FLAGS)) &&
  !(has lflags GPIOHANDLE_REQUEST_OUTPUT || has lflags GPIOHANDLE_REQUEST_OPEN_DRAIN ||
    has lflags GPIOHANDLE_REQUEST_OPEN_SOURCE)

namespace GpioDevice

def gpiochipReqresIrq (c : Calls) (tryModuleGet : Bool) (n : Nat) (g : GpioDevice) :
    Int × GpioDevice :=
  if !tryModuleGet then (-ENODEV, g)
  else
    let ret := (g.descs n).desc.gpiochipLockAsIrq g.chip c
    let g := g.moduleGet.setDesc n ret.2
    if ret.1 ≠ 0 then (ret.1, g.modulePut) else (0, g)

def gpiochipRelresIrq (n : Nat) (g : GpioDevice) : GpioDevice :=
  (g.setDesc n (g.descs n).desc.gpiochipUnlockAsIrq).modulePut

def requestThreadedIrq (c : Calls) (q : IrqCalls) (n : Nat) (g : GpioDevice) : Int × GpioDevice :=
  if q.refused ≠ 0 then (q.refused, g)
  else if q.hooked then
    let ret := g.gpiochipReqresIrq c q.tryModuleGet n
    if ret.1 ≠ 0 then ret
    else if q.setup ≠ 0 then (q.setup, ret.2.gpiochipRelresIrq n)
    else ret
  else (q.setup, g)

def freeIrq (q : IrqCalls) (n : Nat) (g : GpioDevice) : GpioDevice :=
  if q.hooked then g.gpiochipRelresIrq n else g

/-- `lineevent_create` from the flags of the line to the file. -/
def armLine (lflags : BitVec 32) (c : Calls) (q : IrqCalls) (file : FileCalls) (n : Nat)
    (g : GpioDevice) : Int × GpioDevice :=
  let p := g.descs n
  let ret := Pin.gpiodDirectionInput g.chip c { p with desc := { p.desc with
    activeLow := p.desc.activeLow || has lflags GPIOHANDLE_REQUEST_ACTIVE_LOW } }
  let g := g.setLine n ret.2
  if ret.1 ≠ 0 then (ret.1, g)
  else if gpiodToIrq (some g.chip) c ≤ 0 then (-ENODEV, g)
  else
    let irq := g.requestThreadedIrq c q n
    if irq.1 ≠ 0 then irq
    else if installFile file < 0 then (installFile file, irq.2.freeIrq q n)
    else (0, irq.2)

def lineeventRelease (q : IrqCalls) (n : Nat) (g : GpioDevice) : GpioDevice :=
  ((g.freeIrq q n).gpiodFree n).putDevice

/-- `lineevent_create`.  The release of a file that the user cannot have does what the labels at the
end of the function do. -/
def lineeventCreate (eventreq : EventRequest) (c : OpenCalls) (line : Calls) (q : IrqCalls)
    (g : GpioDevice) : Int × GpioDevice :=
  if !c.copyFromUser then (-EFAULT, g)
  else if !c.kzalloc then (-ENOMEM, g)
  else if eventreq.consumerLabel ≠ "" ∧ c.kstrdup = false then (-ENOMEM, g.getDevice.putDevice)
  else if g.ngpio ≤ eventreq.lineoffset.toNat then (-EINVAL, g.getDevice.putDevice)
  else if !eventFlagsValid eventreq.handleflags eventreq.eventflags then
    (-EINVAL, g.getDevice.putDevice)
  else
    let ret := g.getDevice.gpiodRequest line (labelOf eventreq.consumerLabel)
      eventreq.lineoffset.toNat
    if ret.1 ≠ 0 then (ret.1, ret.2.putDevice)
    else
      let armed := ret.2.armLine eventreq.handleflags line q c.file eventreq.lineoffset.toNat
      if armed.1 ≠ 0 then (armed.1, (armed.2.gpiodFree eventreq.lineoffset.toNat).putDevice)
      else armed

end GpioDevice

end RealtekIpcam.Gpiolib.LineRequests
