import RealtekIpcam.Lib.LockLogic
import RealtekIpcam.Udc.Transfer

/-!
# The driver's functions as programs under `rts_udc.lock`

Every function that takes the lock, or runs with it held, statement by statement in the order of the
source, with the lock operations where the source has them.  The gadget driver's code is what the
programs call out to: its completion callbacks, its `setup`, its `reset` and its `filteroutdata`
hook may do anything to the driver's state, including calls of the entry points below.

Indices into the endpoint tables that come from the host can lie past the end of a table; following
such a pointer is the outcome `fault`.
-/

namespace RealtekIpcam.Udc

open LockLogic

/-- The code of the gadget driver that the UDC driver calls. -/
structure Callbacks where
  complete : EpId → ReqId → Udc → Udc
  setup : SetupPacket → Udc → Int × Udc
  reset : Udc → Udc
  filteroutdata : ReqId → Udc → Udc

/-- The code of a gadget driver that does nothing. -/
def noCallbacks : Callbacks where
  complete _ _ u := u
  setup _ u := (0, u)
  reset u := u
  filteroutdata _ u := u

variable (g : Callbacks)

/-! ## Completion -/

def setFilterout (r : ReqId) : Prog Udc Int := do
  let u ← get
  if u.filterHook.isNone then
    pure 0
  else do
    spinUnlock
    let retval ← callback fun u => (u.filterAnswer r, g.filteroutdata r u)
    if retval ≠ 0 then modify rtsSetCxstall else pure ()
    spinLock
    pure retval

def rtsDone (e : EpId) (r : ReqId) (status : Int) : Prog Udc Unit := do
  let before ← get
  modify fun u => u.rtsDoneUnlink e r status
  let u ← get
  if (u.ep e).epnum ≠ 0 then
    modify fun u => u.rtsDoneQuiesce e
  else if (u.ep e).dirIn then
    modify rtsSetCxdone
  else do
    let filtered ← setFilterout g r
    if filtered = 0 then modify rtsSetCxdone else pure ()
  spinUnlock
  callback fun u => ((), g.complete e r (u.emit (.giveback e r (before.doneStatus status))))
  spinLock
  modify fun u => u.rtsDoneLeave e (before.ep e).stopped

/-! ## Gadget entry points of an endpoint -/

def rtsEp0Queue (e : EpId) (r : ReqId) : Prog Udc Unit := do
  let u ← get
  if (u.req r).length = 0 then rtsDone g e r 0 else modify fun u => u.rtsStartEp0Transfer e r

/-- `rts_ep_queue`; `mapped` is what `usb_gadget_map_request` returns. -/
def rtsEpQueue (e : EpId) (r : ReqId) (mapped : Int) : Prog Udc Int := do
  spinLock
  let before ← get
  modify fun u => u.rtsEpQueueLink e r
  if (before.ep e).epnum = 0 then
    rtsEp0Queue g e r
  else
    modify fun u => u.rtsEpQueueIrq e (before.ep e).queue.isEmpty
  let u ← get
  modify fun u => u.rtsEpQueueStart e r (before.ep e).queue.isEmpty
  spinUnlock
  pure (if usesDma (u.ep e) then mapped else 0)

def rtsEpDequeue (e : EpId) (r : ReqId) : Prog Udc Int := do
  spinLock
  let u ← get
  if (u.ep e).queue ≠ [] then rtsDone g e r (-ECONNRESET) else pure ()
  spinUnlock
  pure 0

def rtsSetHaltAndWedge (e : EpId) (value wedge : Bool) : Prog Udc Int := do
  spinLock
  modify fun u => u.setHaltAndWedge e value wedge
  spinUnlock
  pure 0

/-- The loop of `rts_ep_disable` that gives back every queued request. -/
def rtsEpDisableLoop (e : EpId) : Nat → Prog Udc Unit
  | 0 => hang
  | fuel + 1 => do
    let u ← get
    match (u.ep e).queue with
    | [] => pure ()
    | r :: _ => do
      spinLock
      rtsDone g e r (-ECONNRESET)
      spinUnlock
      rtsEpDisableLoop e fuel

def rtsEpDisable (e : EpId) (fuel : Nat) : Prog Udc Int := do
  modify fun u => u.rtsEpDisableBegin e
  let u ← get
  if isUvcNum (u.ep e).epnum then
    pure 0
  else do
    rtsEpDisableLoop g e fuel
    let u ← get
    if (u.ep e).epnum = 0 then pure () else modify fun u => u.clearEp e
    pure 0

/-! ## Standard requests on ep0 -/

/-- The endpoint a SETUP packet addresses in `wIndex`. -/
def targetSlot (ctrl : SetupPacket) : Option EpId :=
  let epnum := (ctrl.wIndex &&& 0x0f).toNat
  if ctrl.wIndex &&& 0x80 ≠ 0 then epInSlot epnum else epOutSlot epnum

/-- The endpoint number in `wIndex` is that of ep0. -/
def targetsEp0 (ctrl : SetupPacket) : Bool := ctrl.wIndex &&& 0x0f == 0

/-- The recipient bits of `bRequestType`. -/
def recipient (ctrl : SetupPacket) : UInt8 := ctrl.bRequestType &&& 0x1f

/-- The part of `rts_usb_req_ep0_get_status` that sets `ep0_data`; false if it stalls instead of
answering. -/
def getStatusData (ctrl : SetupPacket) : Prog Udc Bool :=
  if recipient ctrl = 0 then do
    modify fun u => { u with ep0Data := u.devstatus.toUInt16 }
    pure true
  else if recipient ctrl = 1 then do
    modify fun u => { u with ep0Data := 0 }
    pure true
  else if recipient ctrl = 2 then do
    if targetsEp0 ctrl then
      modify rtsSetCxstall
    else
      match targetSlot ctrl with
      | none => fault
      | some e => modify fun u => { u with ep0Data := if (u.ep e).stall then 1 else 0 }
    pure true
  else do
    modify rtsSetCxstall
    pure false

def rtsUsbReqEp0GetStatus (ctrl : SetupPacket) : Prog Udc Unit := do
  let answers ← getStatusData ctrl
  if answers then do
    modify fun u => u.setReq ep0Req fun q => { q with length := 2, zero := false }
    spinUnlock
    let _ ← rtsEpQueue g ep0 ep0Req 0
    spinLock
  else pure ()

/-- `rts_usb_req_ep0_clear_feature`.  The endpoint is loaded from its table for every recipient. -/
def rtsUsbReqEp0ClearFeature (ctrl : SetupPacket) : Prog Udc Unit :=
  match targetSlot ctrl with
  | none => fault
  | some e =>
    if recipient ctrl = 0 ∨ recipient ctrl = 1 then
      modify rtsSetCxdone
    else if recipient ctrl = 2 then
      if targetsEp0 ctrl then
        modify rtsSetCxdone
      else do
        let u ← get
        if (u.ep e).wedged then
          modify rtsSetCxdone
        else do
          if (u.ep e).stall then do
            let _ ← rtsSetHaltAndWedge e false false
            pure ()
          else pure ()
          modify rtsSetCxdone
    else
      modify rtsSetCxstall

def rtsUsbReqEp0SetFeature (ctrl : SetupPacket) : Prog Udc Unit :=
  if recipient ctrl = 0 then do
    modify rtsSetCxdone
    if ctrl.wValue = 2 then
      modify fun u => { u with testMode := ctrl.wIndex >>> 8, testWork := true }
    else pure ()
  else if recipient ctrl = 1 then
    modify rtsSetCxdone
  else if recipient ctrl = 2 then do
    if targetsEp0 ctrl then
      modify rtsSetCxstall
    else
      match targetSlot ctrl with
      | none => fault
      | some e => modify fun u => u.rtsSetEpnstall e
    modify rtsSetCxdone
  else
    modify rtsSetCxstall

def rtsSetDevAddr (addr : UInt16) (u : Udc) : Udc :=
  let value := u.usbAddr ||| (addr.toUInt32 &&& 0x7f)
  let write (u : Udc) : Udc := { u with usbAddr := value }.emit (.usbAddr value)
  if u.usbAddr &&& 0x7f ≠ 0 then write u.rtsSetCxdone else (write u).rtsSetCxdone

/-- `rts_usb_req_ep0_set_address`; `highSpeed` is the speed bit of the register `USB_CTRL`. -/
def rtsUsbReqEp0SetAddress (highSpeed : Bool) (ctrl : SetupPacket) : Prog Udc Unit := do
  modify fun u => { u with speed := if highSpeed then .high else .full }
  if ctrl.wValue ≥ 0x100 then modify rtsSetCxstall else modify (rtsSetDevAddr ctrl.wValue)

/-- `rts_usb_ep0_standard_request`; 1 hands the request on to the gadget driver. -/
def rtsUsbEp0StandardRequest (highSpeed : Bool) (ctrl : SetupPacket) : Prog Udc Int :=
  if ctrl.bRequest = 0x00 then do
    rtsUsbReqEp0GetStatus g ctrl
    pure 0
  else if ctrl.bRequest = 0x01 then do
    rtsUsbReqEp0ClearFeature ctrl
    pure 0
  else if ctrl.bRequest = 0x03 then do
    rtsUsbReqEp0SetFeature ctrl
    pure 0
  else if ctrl.bRequest = 0x05 then do
    rtsUsbReqEp0SetAddress highSpeed ctrl
    pure 0
  else
    pure 1

def rtsUsbSetupProcess (highSpeed : Bool) (ctrl : SetupPacket) : Prog Udc Int := do
  modify fun u => u.setEp ep0 fun x => { x with dirIn := ctrl.bRequestType &&& 0x80 ≠ 0 }
  if ctrl.bRequestType &&& 0x60 = 0 then rtsUsbEp0StandardRequest g highSpeed ctrl else pure 1

/-! ## The interrupt handler -/

/-- What one run of the interrupt handler reads from the hardware: the bits of `USB_IRQ_STATUS`, the
SETUP packet, and the status of every endpoint's channel. -/
structure IrqStatus where
  se0rst : Bool
  setupf : Bool
  ctrl : SetupPacket
  highSpeed : Bool
  ep0inf : Bool
  ep0outf : Bool
  epDone : EpId → Bool
  dmaout : EpId → UInt32

variable (st : IrqStatus)

def rtsUsbSe0Irq : Prog Udc Unit :=
  if st.se0rst then do
    spinUnlock
    let u ← get
    if u.gadgetDriver.isSome then callback fun u => ((), g.reset u) else pure ()
    spinLock
  else pure ()

def rtsEp0TransferProcess (e : EpId) : Prog Udc Unit := do
  let u ← get
  match (u.ep e).queue with
  | [] => pure ()
  | r :: _ => do
    modify fun u => u.ep0Advance e r
    let u ← get
    if u.packetsDone e r then rtsDone g e r 0 else modify fun u => u.rtsStartEp0Transfer e r

/-- The SETUP part of `rts_usb_ep0_irq`. -/
def rtsUsbEp0Setup (highSpeed : Bool) (ctrl : SetupPacket) : Prog Udc Unit := do
  modify fun u => { u with setupBuf := ctrl }.emit (.setup ctrl)
  let ret ← rtsUsbSetupProcess g highSpeed ctrl
  if ret ≠ 0 then do
    spinUnlock
    let u ← get
    if u.gadgetDriver.isNone then fault
    else do
      let answer ← callback (g.setup ctrl)
      if answer < 0 then modify rtsSetCxstall else pure ()
    spinLock
  else pure ()

def rtsUsbEp0Irq : Prog Udc Unit := do
  if st.setupf then rtsUsbEp0Setup g st.highSpeed st.ctrl else pure ()
  if st.ep0inf then rtsEp0TransferProcess g ep0 else pure ()
  if st.ep0outf then rtsEp0TransferProcess g ep0 else pure ()

/-- Run a handler for an enabled endpoint whose channel has finished. -/
def whenDone (f : EpId → Prog Udc Unit) (e : EpId) : Prog Udc Unit := do
  let u ← get
  if (u.ep e).epEnable && st.epDone e then f e else pure ()

def rtsIntrTransferProcess (e : EpId) (r : ReqId) : Prog Udc Unit := do
  modify fun u => u.intrAdvance e r
  let u ← get
  if u.packetsDone e r then do
    rtsDone g e r 0
    modify fun u => u.rtsStartNextRequest e
  else modify fun u => u.rtsStartIntrTransfer e r

def rtsUsbIntrInProcess (e : EpId) : Prog Udc Unit := do
  let u ← get
  match (u.ep e).queue with
  | [] => pure ()
  | r :: _ => if (u.req r).length ≠ 0 then rtsIntrTransferProcess g e r else pure ()

/-- `rts_usb_bulk_out_process` and `rts_usb_uac_out_process`. -/
def rtsUsbOutProcess (e : EpId) : Prog Udc Unit := do
  let u ← get
  match (u.ep e).queue with
  | [] => pure ()
  | r :: _ => do
    modify fun u => u.rtsTransferComplete e r (st.dmaout e)
    rtsDone g e r 0
    modify fun u => u.rtsStartNextRequest e

def rtsUsbUacInProcess (e : EpId) : Prog Udc Unit := do
  let u ← get
  match (u.ep e).queue with
  | [] => pure ()
  | r :: _ => do
    modify fun u => u.rtsInComplete e r
    rtsDone g e r 0
    modify fun u => u.rtsStartNextRequest e

/-- `queue_work` of the completion work of a bulk IN or video IN endpoint. -/
def queueXferWork (e : EpId) (u : Udc) : Udc :=
  { u with xferWork := Function.update u.xferWork e true }

def rtsUsbEpIrq : Prog Udc Unit := do
  spinLock
  rtsUsbSe0Irq g st
  rtsUsbEp0Irq g st
  forList (whenDone st (rtsUsbIntrInProcess g))
    [.epIn 7, .epIn 8, .epIn 9, .epIn 10, .epIn 11, .epIn 12]
  forList (whenDone st fun e => modify (queueXferWork e)) [.epIn 1, .epIn 2, .epIn 3]
  forList (whenDone st (rtsUsbOutProcess g st)) [.epOut 0, .epOut 1, .epOut 2]
  whenDone st (rtsUsbUacInProcess g) (.epIn 4)
  whenDone st (rtsUsbOutProcess g st) (.epOut 3)
  forList (whenDone st fun e => modify (queueXferWork e)) [.epIn 5, .epIn 6]
  spinUnlock

def rtsGadgetVbusSession (isActive : Bool) : Prog Udc Int := do
  spinLock
  modify fun u => { u with vbuson := isActive }
  let u ← get
  if u.gadgetstart && u.vbuson then modify fun u => u.emit (.connect true)
  else if !u.gadgetstart || !u.vbuson then modify fun u => u.emit (.connect false)
  else pure ()
  spinUnlock
  pure 0

def rtsGadgetPullup (isOn : Bool) : Prog Udc Int := do
  spinLock
  modify fun u => { u with gadgetstart := isOn }
  let u ← get
  if u.gadgetstart && u.vbuson then modify fun u => u.emit (.connect true)
  else if !u.gadgetstart then modify fun u => u.emit (.connect false)
  else pure ()
  spinUnlock
  pure 0

def rtsGadgetUdcStart (driver : GadgetDriver) : Prog Udc Int := do
  spinLock
  modify fun u => u.emit .phyInt
  let u ← get
  if u.gadgetDriver.isSome then
    -- the source returns here without `spin_unlock_irqrestore`
    pure (-EBUSY)
  else do
    modify fun u => { u with gadgetDriver := some driver, gadgetstart := true }
    spinUnlock
    pure 0

def rtsGadgetUdcStop : Prog Udc Int := do
  spinLock
  modify fun u => { u with gadgetDriver := none, gadgetstart := false }
  spinUnlock
  pure 0

end RealtekIpcam.Udc
