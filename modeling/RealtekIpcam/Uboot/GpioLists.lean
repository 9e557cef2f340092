import RealtekIpcam.Uboot.Gpio

/-!
# Requests of GPIO lists in the boot loader

`gpio_request_tail` requests the line of one entry of a device tree list: it looks the entry up,
has the driver translate it, requests the line, and sets its direction.
`gpio_request_list_by_name_nodev` requests the lines of a list until one of them is not there, which
ends the list, or cannot be had, which is an error; `gpio_claim_vector` does so for a vector of
numbers.

What looking up an entry and the calls of its driver return comes with the entry.
-/

namespace RealtekIpcam.Uboot.GpioLists

open Gpio

def ENXIO : Int := 6
def ENOMEM : Int := 12

/-! ## Devices and lines -/

/-- What a call returns: 0, or a negative error. -/
abbrev Ret := { ret : Int // ret ≤ 0 }

/-- A line of a GPIO device. -/
structure Pin where
  dev : Nat
  offset : Nat
  deriving DecidableEq

structure GpioDesc where
  dev : Option Nat
  offset : Nat
  flags : Flags

/-- The line that a descriptor stands for. -/
def GpioDesc.pin (desc : GpioDesc) : Option Pin := desc.dev.map fun dev => ⟨dev, desc.offset⟩

/-- The driver of a device, with the operation `xlate` if it has one.  That may choose another
device. -/
structure Ops where
  interface : Interface
  gpioCount : Nat
  xlate : Option (Nat → List (BitVec 32) → Ret × Pin × Flags)

/-- The devices: their drivers, what the operation `rfree` of these returns, which is 0 if there is
none, and what `gpio_to_device` makes of a number. -/
structure Devices where
  ops : Nat → Ops
  rfree : Pin → Ret
  toDevice : BitVec 32 → Option Pin

/-- What the uclass keeps of the lines, and what they do: a line is requested if it has a name. -/
structure Lines where
  name : Pin → Option String
  line : Pin → Line

/-- What the calls for one line return.  `request` is 0 if the driver has no such operation, and
`setFlags` is for whichever operation sets the direction. -/
structure Calls where
  strdup : Bool
  request : Ret
  setFlags : Ret

/-- An entry of a list: what looking up its phandle and its device returns, with the device and the
arguments that are found there. -/
structure Entry where
  parse : Ret
  args : List (BitVec 32)
  getDevice : Ret
  dev : Nat
  calls : Calls

def gpioFlagsXlate (arg : BitVec 32) : Flags :=
  (if has arg 1#32 then gpiodActiveLow else 0#32) |||
    (if has arg 2#32 then if has arg 4#32 then gpiodOpenDrain else gpiodOpenSource else 0#32) |||
    (if has arg 16#32 then gpiodPullUp else 0#32) |||
    (if has arg 32#32 then gpiodPullDown else 0#32)

def gpioXlateOffsFlags (gpioCount dev : Nat) (args : List (BitVec 32)) : Int × Pin × Flags :=
  match args with
  | [] => (-EINVAL, ⟨dev, 0⟩, 0#32)
  | offset :: rest =>
    if gpioCount ≤ offset.toNat then (-EINVAL, ⟨dev, offset.toNat⟩, 0#32)
    else (0, ⟨dev, offset.toNat⟩, (rest.head?.map gpioFlagsXlate).getD 0#32)

def gpioFindAndXlate (ops : Ops) (dev : Nat) (args : List (BitVec 32)) : Int × Pin × Flags :=
  match ops.xlate with
  | some xlate => ((xlate dev args).1.1, (xlate dev args).2)
  | none => gpioXlateOffsFlags ops.gpioCount dev args

/-- `gpio_request_tail` up to the translation: an error with what it leaves in the descriptor, or a
line with the flags of its entry. -/
def Entry.resolve (d : Devices) (e : Entry) : Except (Int × GpioDesc) (Pin × Flags) :=
  if e.parse.1 ≠ 0 then .error (e.parse.1, ⟨none, 0, 0#32⟩)
  else if e.getDevice.1 ≠ 0 then .error (e.getDevice.1, ⟨none, 0, 0#32⟩)
  else
    let ret := gpioFindAndXlate (d.ops e.dev) e.dev e.args
    if ret.1 ≠ 0 then .error (ret.1, ⟨some ret.2.1.dev, ret.2.1.offset, ret.2.2⟩)
    else .ok ret.2

/-! ## Requests -/

namespace Lines

variable (d : Devices)

def setName (p : Pin) (name : Option String) (s : Lines) : Lines :=
  { s with name := Function.update s.name p name }

def dmGpioRequest (c : Calls) (label : String) (p : Pin) (s : Lines) : Int × Lines :=
  if (s.name p).isSome then (-EBUSY, s)
  else if !c.strdup then (-ENOMEM, s)
  else if c.request.1 ≠ 0 then (c.request.1, s)
  else (0, s.setName p (some label))

def dmGpioFree (p : Pin) (s : Lines) : Int × Lines :=
  if (s.name p).isNone then (- ENXIO, s)
  else if (d.rfree p).1 ≠ 0 then ((d.rfree p).1, s)
  else (0, s.setName p none)

/-- `dm_gpio_set_dir_flags` for a descriptor of the line with flags, and these after it. -/
def dmGpioSetDirFlags (c : Calls) (p : Pin) (flags set : Flags) (s : Lines) : Int × Flags × Lines :=
  let ret := (Desc.mk true (s.name p).isSome flags (s.line p)).dmGpioSetDirFlags
    (d.ops p.dev).interface c.setFlags.1 set
  (ret.1, ret.2.flags, { s with line := Function.update s.line p ret.2.line })

/-- `gpio_request_tail`, with the descriptor it leaves. -/
def gpioRequestTail (e : Entry) (label : String) (flags : Flags) (s : Lines) :
    Int × GpioDesc × Lines :=
  match e.resolve d with
  | .error (ret, desc) => (ret, desc, s)
  | .ok (p, entryFlags) =>
    let req := s.dmGpioRequest e.calls label p
    if req.1 ≠ 0 then (req.1, ⟨some p.dev, p.offset, entryFlags⟩, req.2)
    else
      let dir := req.2.dmGpioSetDirFlags d e.calls p entryFlags
        (flags ||| (entryFlags &&& gpiodMaskDir))
      (dir.1, ⟨some p.dev, p.offset, dir.2.1⟩, dir.2.2)

end Lines

/-- The label of a request: what fits into 40 characters with the end. -/
def requestLabel (nodename listName : String) (index : Nat) (addIndex : Bool) : String :=
  let label := nodename ++ "." ++ listName ++ if addIndex then toString index else ""
  String.ofList (label.toList.take 39)

/-- A list of the device tree: the name of its node, its own, and its entries. -/
structure GpioList where
  nodename : String
  listName : String
  entries : Nat → Entry

namespace Lines

variable (d : Devices) (l : GpioList)

def gpioRequestByNameNodev (index : Nat) (flags : Flags) (addIndex : Bool) (s : Lines) :
    Int × GpioDesc × Lines :=
  s.gpioRequestTail d (l.entries index) (requestLabel l.nodename l.listName index addIndex) flags

def gpioRequestByName (index : Nat) (flags : Flags) (s : Lines) : Int × GpioDesc × Lines :=
  s.gpioRequestByNameNodev d l index flags (decide (0 < index))

/-- The loop of `gpio_request_list_by_name_nodev` for `n` more entries: the error that ends it, if
one does, and the descriptors that it has requested. -/
def requestFrom (flags : Flags) : Nat → Nat → Lines → Option Int × List GpioDesc × Lines
  | 0, _, s => (none, [], s)
  | n + 1, count, s =>
    let ret := s.gpioRequestByNameNodev d l count flags true
    if ret.1 = -ENOENT then (none, [], ret.2.2)
    else if ret.1 ≠ 0 then (some ret.1, [], ret.2.2)
    else
      let rest := ret.2.2.requestFrom flags n (count + 1)
      (rest.1, ret.2.1 :: rest.2.1, rest.2.2)

def gpioFreeList (descs : List GpioDesc) (count : Int) (s : Lines) : Lines :=
  ((descs.take count.toNat).filterMap GpioDesc.pin).foldl (fun s p => (s.dmGpioFree d p).2) s

/-- `gpio_request_list_by_name_nodev`, with the descriptors that it counts. -/
def gpioRequestListByNameNodev (maxCount : Int) (flags : Flags) (s : Lines) :
    Int × List GpioDesc × Lines :=
  let ret := s.requestFrom d l flags maxCount.toNat 0
  match ret.1 with
  | none => (ret.2.1.length, ret.2.1, ret.2.2)
  | some err => (err, ret.2.1, ret.2.2.gpioFreeList d ret.2.1 (ret.2.1.length - 1))

/-! ## Vectors -/

def gpioRequest (c : Calls) (label : String) (gpio : BitVec 32) (s : Lines) : Int × Lines :=
  match d.toDevice gpio with
  | none => (-ENOENT, s)
  | some p => s.dmGpioRequest c label p

def gpioFree (gpio : BitVec 32) (s : Lines) : Int × Lines :=
  match d.toDevice gpio with
  | none => (-ENOENT, s)
  | some p => s.dmGpioFree d p

def gpioDirectionInput (c : Calls) (gpio : BitVec 32) (s : Lines) : Int × Lines :=
  match d.toDevice gpio with
  | none => (-ENOENT, s)
  | some p => ((s.dmGpioSetDirFlags d c p 0#32 gpiodIsIn).1,
      (s.dmGpioSetDirFlags d c p 0#32 gpiodIsIn).2.2)

/-- The end of `gpio_claim_vector`: the numbers in front of one are freed, the last first. -/
def freeBefore (gpioNumArray : Nat → BitVec 32) : Nat → Lines → Lines
  | 0, s => s
  | i + 1, s => freeBefore gpioNumArray i (s.gpioFree d (gpioNumArray i)).2

/-- The loop of `gpio_claim_vector` for `n` more numbers. -/
def claimFrom (gpioNumArray : Nat → BitVec 32) (calls : Nat → Calls) (label : Nat → String) :
    Nat → Nat → Lines → Int × Lines
  | 0, _, s => (0, s)
  | n + 1, i, s =>
    if gpioNumArray i = -1#32 then (0, s)
    else
      let req := s.gpioRequest d (calls i) (label i) (gpioNumArray i)
      if req.1 ≠ 0 then (req.1, req.2.freeBefore d gpioNumArray i)
      else
        let dir := req.2.gpioDirectionInput d (calls i) (gpioNumArray i)
        if dir.1 ≠ 0 then
          (dir.1, (dir.2.gpioFree d (gpioNumArray i)).2.freeBefore d gpioNumArray i)
        else dir.2.claimFrom gpioNumArray calls label n (i + 1)

def gpioClaimVector (gpioNumArray : Nat → BitVec 32) (calls : Nat → Calls) (label : Nat → String)
    (s : Lines) : Int × Lines :=
  s.claimFrom d gpioNumArray calls label 32 0

end Lines

end RealtekIpcam.Uboot.GpioLists
