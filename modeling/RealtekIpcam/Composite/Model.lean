import RealtekIpcam.Udc.Model

/-!
# The composite gadget core

A composite gadget is a list of configurations, each with a table of interfaces and the functions
that own them.  The core answers the control requests that the UDC driver hands on: the standard
ones itself, with the help of `set_alt` and `get_alt` of the functions, and the others through the
`setup` callback of a function or of a configuration.

What the callbacks return, and how many bytes the code that fills descriptors puts into a buffer,
is given with every SETUP packet as its `Answers`.  `compositeSetup` is `composite_setup` up to the
label `check_value`: the new state, the value, the request to respond with, and in `calls`, in
order, the callbacks that were made.  The fields of descriptors that only go to the host are left
out.
-/

namespace RealtekIpcam.Composite

open Udc (SetupPacket EINVAL)

/-! ## Constants -/

def maxConfigInterfaces : Nat := 16

/-- `USB_COMP_EP0_BUFSIZ`, and `USB_COMP_EP0_OS_DESC_BUFSIZ`. -/
def usbCompEp0Bufsiz : Nat := 4096

def usbGadgetDelayedStatus : Int := 0x7fff

def ENODEV : Int := 19
def EOPNOTSUPP : Int := 95

/-! ## Functions, configurations and the device -/

/-- A function is named by the address of its `usb_function`. -/
abbrev FnId := Nat

/-- `struct usb_function`: which callbacks it has, the addresses in the endpoint descriptors of the
speed in use, and the bits that are set in `endpoints`. -/
structure UsbFunction where
  hasSetup : Bool := false
  hasReqMatch : Bool := false
  hasGetAlt : Bool := false
  hasFuncSuspend : Bool := false
  endpointAddresses : List UInt8 := []
  endpoints : List UInt8 := []

/-- `struct usb_configuration`. -/
structure Configuration where
  bConfigurationValue : UInt8
  interface : Nat → Option FnId := fun _ => none
  nextInterfaceId : Nat := 0
  functions : List FnId := []
  hasSetup : Bool := false
  iConfiguration : UInt8 := 0
  bmAttributes : UInt8 := 0
  maxPower : Nat := 0

/-- `struct usb_gadget`, as far as the core looks at it. -/
structure Gadget where
  isOtg : Bool := false
  isDualspeed : Bool := true
  isSuperspeed : Bool := false
  /-- `speed >= USB_SPEED_SUPER`. -/
  speedSuper : Bool := false
  lpmCapable : Bool := false
  hnpPollingSupport : Bool := false
  /-- `otg_caps && otg_caps->otg_rev >= 0x0200`. -/
  otg20 : Bool := false

/-- `struct usb_composite_dev`, with its gadget and the functions. -/
structure CompositeDev where
  gadget : Gadget := {}
  fn : FnId → UsbFunction
  configs : List Configuration
  config : Option Configuration := none
  osDescConfig : Option Configuration := none
  useOsString : Bool := false
  bVendorCode : UInt8 := 0
  delayedStatus : Nat := 0

/-- The two requests of the core: `cdev->req` and `cdev->os_desc_req`. -/
inductive CoreReq where
  | req
  | osDescReq
  deriving DecidableEq

/-- The owner of a `setup` callback: a function, or the current configuration. -/
inductive SetupCallback where
  | function (f : FnId)
  | config
  deriving DecidableEq

/-- What the core calls out to, in order: `disable` of the functions in `reset_config`, a
`set_alt` with what it returned, a `setup`. -/
inductive Call where
  | resetConfig
  | setAlt (f : FnId) (intf alt : Nat) (ret : Int)
  | setup (cb : SetupCallback)
  deriving DecidableEq

/-- What is returned to the core during one SETUP: by the code that fills a buffer, and by the
callbacks. -/
structure Answers where
  configDesc : Int := -EINVAL
  getString : Int := -EINVAL
  bosDesc : Int := 0
  msbosDesc : Int := 0
  getMsosDesc : Int := 0
  fillExtCompat : Int := 0
  fillExtProp : Int := 0
  setAlt : FnId → Nat → Nat → Int := fun _ _ _ => 0
  getAlt : FnId → Int := fun _ => 0
  funcSuspend : FnId → Int := fun _ => 0
  /-- By the function, and whether the device is not configured. -/
  reqMatch : FnId → Bool → Bool := fun _ _ => false
  setup : SetupCallback → Int := fun _ => 0

/-- Where `composite_setup` leaves its `switch`: with `reply` set at `check_value`, else at
`done`. -/
structure Outcome where
  cdev : CompositeDev
  value : Int
  reply : Option CoreReq := none
  calls : List Call := []

/-! ## Changing the configuration -/

/-- The bit of `endpoints` for an endpoint address, or for the `wIndex` of a request. -/
def endpointBit (addr : UInt8) : UInt8 := ((addr &&& 0x80) >>> 3) ||| (addr &&& 0x0f)

namespace CompositeDev

variable (cdev : CompositeDev)

/-- `reset_config`, for a device with a current configuration. -/
def resetConfig : CompositeDev :=
  match cdev.config with
  | none => cdev
  | some c =>
    { cdev with
      fn := fun f => if f ∈ c.functions then { cdev.fn f with endpoints := [] } else cdev.fn f
      config := none
      delayedStatus := 0 }

/-- The loop of `set_config` that records the endpoints of a function. -/
def recordEndpoints (f : FnId) : CompositeDev :=
  { cdev with
    fn := Function.update cdev.fn f { cdev.fn f with
      endpoints := (cdev.fn f).endpoints ++ (cdev.fn f).endpointAddresses.map endpointBit } }

/-- A function has asked for delay. -/
def countDelay (ret : Int) : CompositeDev :=
  if ret = usbGadgetDelayedStatus then { cdev with delayedStatus := cdev.delayedStatus + 1 }
  else cdev

end CompositeDev

/-- The loop of `set_config` over the interfaces, from `tmp` on. -/
def setInterfaces (c : Configuration) (setAlt : FnId → Nat → Nat → Int) (tmp : Nat) :
    Nat → CompositeDev → Int → Int × CompositeDev × List Call
  | 0, cdev, result => (result, cdev, [])
  | n + 1, cdev, result =>
    match c.interface tmp with
    | none => (result, cdev, [])
    | some f =>
      let cdev := cdev.recordEndpoints f
      let ret := setAlt f tmp 0
      if ret < 0 then (ret, cdev.resetConfig, [.setAlt f tmp 0 ret, .resetConfig])
      else
        let (result, cdev, calls) := setInterfaces c setAlt (tmp + 1) n (cdev.countDelay ret) ret
        (result, cdev, .setAlt f tmp 0 ret :: calls)

/-- The end of `set_config`. -/
def setConfigResult (result : Int) (cdev : CompositeDev) : Int :=
  if 0 ≤ result ∧ cdev.delayedStatus ≠ 0 then usbGadgetDelayedStatus else result

namespace CompositeDev

variable (cdev : CompositeDev)

/-- The reset at the start of `set_config`. -/
def leaveConfig : CompositeDev × List Call :=
  if cdev.config.isSome then (cdev.resetConfig, [.resetConfig]) else (cdev, [])

def setConfig (setAlt : FnId → Nat → Nat → Int) (number : Nat) :
    Int × CompositeDev × List Call :=
  if number = 0 then
    (setConfigResult 0 cdev.leaveConfig.1, cdev.leaveConfig.1, cdev.leaveConfig.2)
  else
    match cdev.configs.find? fun c => c.bConfigurationValue.toNat = number with
    | none => (-EINVAL, cdev, [])
    | some c =>
      let (result, v, calls) := setInterfaces c setAlt 0 maxConfigInterfaces
        { cdev.leaveConfig.1 with config := some c } 0
      (setConfigResult result v, v, cdev.leaveConfig.2 ++ calls)

/-- `composite_disconnect`, but for the callback of the driver. -/
def compositeDisconnect : CompositeDev := cdev.leaveConfig.1

end CompositeDev

/-! ## Fields of a SETUP packet -/

section Fields

variable (ctrl : SetupPacket)

/-- `ctrl->bRequestType & USB_DIR_IN`. -/
def dirIn : Bool := ctrl.bRequestType &&& 0x80 != 0

/-- `ctrl->bRequestType & USB_TYPE_MASK`: 0 standard, `0x20` class, `0x40` vendor, `0x60`
reserved. -/
def requestType : UInt8 := ctrl.bRequestType &&& 0x60

/-- `ctrl->bRequestType & USB_RECIP_MASK`: 0 device, 1 interface, 2 endpoint. -/
def recipient : UInt8 := ctrl.bRequestType &&& 0x1f

/-- `w_length`, cut to the buffer. -/
def wLength : Nat := min ctrl.wLength.toNat usbCompEp0Bufsiz

/-- The packet is turned away before it is looked at: data from the host that is longer than the
buffer. -/
def tooLong : Prop := usbCompEp0Bufsiz < ctrl.wLength.toNat ∧ dirIn ctrl = false
  deriving Decidable

def intf : Nat := (ctrl.wIndex &&& 0xff).toNat

/-- `min(w_length, (u16) value)`. -/
def cut (value : Int) : Int := min (wLength ctrl) (value.toNat % 0x10000)

/-- A length that a descriptor function returned, cut to what the host asked for. -/
def cutIfNonneg (value : Int) : Int := if 0 ≤ value then cut ctrl value else value

end Fields

namespace CompositeDev

variable (cdev : CompositeDev) (ctrl : SetupPacket) (ans : Answers)

/-- The owner of the interface `intf` in the current configuration. -/
def interfaceOwner : Option FnId :=
  if intf ctrl < maxConfigInterfaces then cdev.config.bind fun c => c.interface (intf ctrl)
  else none

/-! ## Requests that are not standard -/

/-- The function whose `req_match` accepts the request. -/
def matching : Option FnId :=
  match cdev.config with
  | some c => c.functions.find? fun f => (cdev.fn f).hasReqMatch && ans.reqMatch f false
  | none => (cdev.configs.flatMap Configuration.functions).find? fun f =>
      (cdev.fn f).hasReqMatch && ans.reqMatch f true

/-- The function that owns what the request addresses. -/
def addressed : Option FnId :=
  if recipient ctrl = 1 then cdev.interfaceOwner ctrl
  else if recipient ctrl = 2 then
    cdev.config.bind fun c => c.functions.find? fun f =>
      endpointBit ctrl.wIndex.toUInt8 ∈ (cdev.fn f).endpoints
  else if recipient ctrl = 0 ∧ requestType ctrl = 0x40 then cdev.interfaceOwner ctrl
  else none

/-- A call of `setup`. -/
def callSetup (cb : SetupCallback) : Outcome where
  cdev := cdev
  value := ans.setup cb
  calls := [.setup cb]

/-- `composite_setup` from the label `try_fun_setup`. -/
def tryFunSetup (f : Option FnId) : Outcome :=
  match f.filter fun f => (cdev.fn f).hasSetup with
  | some f => cdev.callSetup ans (.function f)
  | none =>
    match cdev.config with
    | none => { cdev := cdev, value := -EOPNOTSUPP }
    | some c =>
      if c.hasSetup then cdev.callSetup ans .config
      else
        match c.functions with
        | [f] =>
          if (cdev.fn f).hasSetup then cdev.callSetup ans (.function f)
          else { cdev := cdev, value := -EOPNOTSUPP }
        | _ => { cdev := cdev, value := -EOPNOTSUPP }

/-- The answer to a request for an OS feature descriptor. -/
def osDescriptor (c : Configuration) : Int :=
  if recipient ctrl = 0 then
    if ctrl.wIndex ≠ 4 ∨ ctrl.wValue >>> 8 ≠ 0 then -EOPNOTSUPP
    else if 0x10 < wLength ctrl then cut ctrl ans.fillExtCompat
    else wLength ctrl
  else if recipient ctrl = 1 then
    if ctrl.wIndex ≠ 5 ∨ ctrl.wValue >>> 8 ≠ 0 then -EOPNOTSUPP
    else if maxConfigInterfaces ≤ (ctrl.wValue &&& 0xff).toNat ∨
        c.interface (ctrl.wValue &&& 0xff).toNat = none then -EOPNOTSUPP
    else if 0x0a < wLength ctrl then
      if 0 ≤ ans.fillExtProp then cut ctrl ans.fillExtProp else ans.fillExtProp
    else wLength ctrl
  else -EOPNOTSUPP

/-- `(ctrl->bRequestType & USB_TYPE_VENDOR) && ctrl->bRequest == cdev->b_vendor_code`. -/
def vendorCodeMatches : Bool :=
  ctrl.bRequestType &&& 0x40 != 0 && ctrl.bRequest == cdev.bVendorCode

/-- `composite_setup` from the label `unknown`. -/
def unknownRequest : Outcome :=
  match if cdev.useOsString && cdev.vendorCodeMatches ctrl then cdev.osDescConfig else none with
  | some c => { cdev := cdev, value := osDescriptor ctrl ans c, reply := some .osDescReq }
  | none =>
    if cdev.vendorCodeMatches ctrl then
      { cdev := cdev, value := cut ctrl ans.getMsosDesc, reply := some .req }
    else cdev.tryFunSetup ans ((cdev.matching ans).or (cdev.addressed ctrl))

/-! ## Standard requests -/

/-- Leave the `switch` with a value, for `check_value`. -/
def respond (value : Int) : Outcome := { cdev := cdev, value := value, reply := some .req }

/-- The OS string of `get_string`: its `bMS_VendorCode`. -/
def osString (language : UInt16) (id : UInt16) : Option UInt8 :=
  if cdev.useOsString ∧ language = 0 ∧ id = 0xee then some cdev.bVendorCode else none

def getString : Int :=
  if (cdev.osString ctrl.wIndex (ctrl.wValue &&& 0xff)).isSome then 18 else ans.getString

/-- `USB_REQ_GET_DESCRIPTOR`. -/
def getDescriptor : Int :=
  let type := ctrl.wValue >>> 8
  let noQualifier := !cdev.gadget.isDualspeed || cdev.gadget.speedSuper
  if type = 0x01 then min (wLength ctrl) 18
  else if type = 0x06 then if noQualifier then -EOPNOTSUPP else min (wLength ctrl) 10
  else if type = 0x07 then if noQualifier then -EOPNOTSUPP else cutIfNonneg ctrl ans.configDesc
  else if type = 0x02 then cutIfNonneg ctrl ans.configDesc
  else if type = 0x03 then cutIfNonneg ctrl (cdev.getString ctrl ans)
  else if type = 0x0f then
    cut ctrl (if cdev.gadget.isSuperspeed || cdev.gadget.lpmCapable then ans.bosDesc
      else ans.msbosDesc)
  else if type = 0x09 then
    if cdev.gadget.isOtg then min (wLength ctrl) (if cdev.gadget.otg20 then 5 else 3)
    else -EOPNOTSUPP
  else -EOPNOTSUPP

/-- `USB_REQ_SET_CONFIGURATION`. -/
def setConfiguration : Outcome :=
  let (value, v, calls) := cdev.setConfig ans.setAlt ctrl.wValue.toNat
  { cdev := v, value := value, reply := some .req, calls := calls }

/-- The function whose `set_alt` a `USB_REQ_SET_INTERFACE` calls. -/
def setInterfaceTarget : Option FnId :=
  (cdev.interfaceOwner ctrl).filter fun f => ctrl.wValue = 0 || (cdev.fn f).hasGetAlt

/-- `USB_REQ_SET_INTERFACE`. -/
def setInterface : Outcome :=
  match cdev.setInterfaceTarget ctrl with
  | none => cdev.respond (-EOPNOTSUPP)
  | some f =>
    let ret := ans.setAlt f ctrl.wIndex.toNat ctrl.wValue.toNat
    { cdev := cdev.countDelay ret
      value := ret
      reply := some .req
      calls := [.setAlt f ctrl.wIndex.toNat ctrl.wValue.toNat ret] }

/-- `USB_REQ_GET_INTERFACE`. -/
def getInterface : Outcome :=
  match cdev.interfaceOwner ctrl with
  | none => cdev.respond (-EOPNOTSUPP)
  | some f =>
    let value := if (cdev.fn f).hasGetAlt then ans.getAlt f else 0
    cdev.respond (if value < 0 then value else min (wLength ctrl) 1)

/-- `USB_REQ_GET_STATUS`. -/
def getStatus : Outcome :=
  if cdev.gadget.isOtg && cdev.gadget.hnpPollingSupport && ctrl.wIndex == 0xf000 then
    if ctrl.bRequestType ≠ 0x80 then cdev.unknownRequest ctrl ans else cdev.respond 1
  else if !cdev.gadget.isSuperspeed then cdev.unknownRequest ctrl ans
  else if ctrl.bRequestType ≠ 0x81 then cdev.unknownRequest ctrl ans
  else cdev.respond 2

/-- `USB_REQ_CLEAR_FEATURE` and `USB_REQ_SET_FEATURE`. -/
def feature : Outcome :=
  if !cdev.gadget.isSuperspeed then cdev.unknownRequest ctrl ans
  else if ctrl.bRequestType ≠ 0x01 then cdev.unknownRequest ctrl ans
  else if ctrl.wValue ≠ 0 then cdev.respond (-EOPNOTSUPP)
  else
    match cdev.interfaceOwner ctrl with
    | none => cdev.respond (-EOPNOTSUPP)
    | some f =>
      cdev.respond (if (cdev.fn f).hasFuncSuspend then max (ans.funcSuspend f) 0 else 0)

/-- The `switch` of `composite_setup` over the standard requests. -/
def standardRequest : Outcome :=
  if ctrl.bRequest = 0x06 then
    if ctrl.bRequestType ≠ 0x80 then cdev.unknownRequest ctrl ans
    else cdev.respond (cdev.getDescriptor ctrl ans)
  else if ctrl.bRequest = 0x09 then
    if ctrl.bRequestType ≠ 0x00 then cdev.unknownRequest ctrl ans
    else cdev.setConfiguration ctrl ans
  else if ctrl.bRequest = 0x08 then
    if ctrl.bRequestType ≠ 0x80 then cdev.unknownRequest ctrl ans
    else cdev.respond (min (wLength ctrl) 1)
  else if ctrl.bRequest = 0x0b then
    if ctrl.bRequestType ≠ 0x01 then cdev.unknownRequest ctrl ans
    else cdev.setInterface ctrl ans
  else if ctrl.bRequest = 0x0a then
    if ctrl.bRequestType ≠ 0x81 then cdev.unknownRequest ctrl ans
    else cdev.getInterface ctrl ans
  else if ctrl.bRequest = 0x00 then cdev.getStatus ctrl ans
  else if ctrl.bRequest = 0x01 ∨ ctrl.bRequest = 0x03 then cdev.feature ctrl ans
  else cdev.unknownRequest ctrl ans

/-- `composite_setup` up to `check_value`. -/
def compositeSetup : Outcome :=
  if tooLong ctrl then { cdev := cdev, value := -EOPNOTSUPP }
  else if requestType ctrl ≠ 0 then cdev.unknownRequest ctrl ans
  else cdev.standardRequest ctrl ans

end CompositeDev

/-- What `check_value` queues, with its length. -/
def Outcome.response (o : Outcome) : Option (CoreReq × Int) :=
  if 0 ≤ o.value ∧ o.value ≠ usbGadgetDelayedStatus then o.reply.map fun r => (r, o.value)
  else none

/-- `usb_composite_setup_continue`; true if the status stage is queued. -/
def CompositeDev.usbCompositeSetupContinue (cdev : CompositeDev) : Bool × CompositeDev :=
  if cdev.delayedStatus = 0 then (false, cdev)
  else (cdev.delayedStatus = 1, { cdev with delayedStatus := cdev.delayedStatus - 1 })

end RealtekIpcam.Composite
