import Mathlib

/-!
# The state of the RTS USB device controller driver

The driver keeps one `rts_udc` with a table of `rts_endpoint`s, each with a queue of
`rts_request`s.  This file is that data: the fields the driver reads and writes, under its names.

Three conventions are used throughout.

* Endpoint objects are named by the slot they are allocated for: `epIn n` is `ep_in[n]` and
  `epOut n` is `ep_out[n + 1]`; `ep_out[0]` is the same object as `ep_in[0]`.  A table lookup with
  an index from the host goes through `epInSlot` and `epOutSlot`, which are `none` past the end.
* A `struct list_head` queue is the list of the requests linked on it, head first.  A request is
  linked on at most one queue, so `list_del_init` takes it off whatever queue it is on.
* The register files are not in the source, so writes to them are recorded by what they ask of
  the hardware, as `Action`s in `Udc.log`, newest first.  Of each hardware channel `Udc.started`
  keeps the request whose transfer was started last, and `Udc.busy` the requests whose transfers are
  started and not yet reported finished, oldest first.
-/

namespace RealtekIpcam
namespace Udc

/-! ## Names -/

/-- The endpoint objects: `ep_in[0..12]`, and `ep_out[1..4]` as `epOut 0..3`. -/
inductive EpId where
  | epIn (n : Fin 13)
  | epOut (n : Fin 4)
  deriving DecidableEq, Fintype

/-- The sizes of the two tables, for their numerals. -/
instance epInNeZero : NeZero 13 := Nat.instNeZeroSucc

instance epOutNeZero : NeZero 4 := Nat.instNeZeroSucc

/-- The control endpoint, which is both `ep_in[0]` and `ep_out[0]`. -/
def ep0 : EpId := .epIn 0

/-- `rtsusb->ep_in[i]`, `none` past the end of the table (`RTS_EP_IN_MAX_COUNT`). -/
def epInSlot (i : Nat) : Option EpId :=
  if h : i < 13 then some (.epIn ⟨i, h⟩) else none

/-- `rtsusb->ep_out[i]`, `none` past the end of the table (`RTS_EP_OUT_MAX_COUNT`). -/
def epOutSlot (i : Nat) : Option EpId :=
  if i = 0 then some ep0 else if h : i - 1 < 4 then some (.epOut ⟨i - 1, h⟩) else none

/-- The endpoint number an endpoint object is allocated for. -/
def EpId.num : EpId → Nat
  | .epIn n => n
  | .epOut n => n + 1

/-- The endpoint object is in the IN table. -/
def EpId.isIn : EpId → Bool
  | .epIn _ => true
  | .epOut _ => false

/-- A request is named by the address of its `usb_request`. -/
abbrev ReqId := Nat

/-- `rtsusb->ep0_req`, the request the driver keeps for answers of its own. -/
def ep0Req : ReqId := 0

/-- The hardware channels: a FIFO with its DMA engine, or the buffer of an interrupt endpoint. -/
inductive Chan where
  | dma (mcnum : Nat)
  | intr (epnum : Nat)
  deriving DecidableEq

/-- The eight bytes of a SETUP packet (`struct usb_ctrlrequest`). -/
structure SetupPacket where
  bRequestType : UInt8
  bRequest : UInt8
  wValue : UInt16
  wIndex : UInt16
  wLength : UInt16
  deriving DecidableEq

/-- The fields of an endpoint descriptor that the driver reads. -/
structure EpDesc where
  bEndpointAddress : UInt8
  bmAttributes : UInt8
  wMaxPacketSize : UInt16
  deriving DecidableEq

def usbEndpointNum (desc : EpDesc) : Nat := (desc.bEndpointAddress &&& 0x0f).toNat

def usbEndpointType (desc : EpDesc) : UInt8 := desc.bmAttributes &&& 0x03

def usbEndpointDirIn (desc : EpDesc) : Bool := desc.bEndpointAddress &&& 0x80 == 0x80

def usbEndpointDirOut (desc : EpDesc) : Bool := desc.bEndpointAddress &&& 0x80 == 0

def usbEndpointMaxp (desc : EpDesc) : UInt16 := desc.wMaxPacketSize &&& 0x07ff

/-! ## Error numbers -/

def EBUSY : Int := 16
def EINVAL : Int := 22
def ECONNRESET : Int := 104
def ESHUTDOWN : Int := 108
def EINPROGRESS : Int := 115

/-! ## Records -/

/-- `struct rts_request` with the fields of its `usb_request` that the driver uses. -/
structure Request where
  length : UInt32 := 0
  actual : UInt32 := 0
  status : Int := 0
  zero : Bool := false
  ep0InLastLength : UInt16 := 0
  intrInLastLength : UInt16 := 0

/-- `struct rts_endpoint`, with `maxpacket` of its `usb_ep`. -/
structure Endpoint where
  queue : List ReqId := []
  stall : Bool := false
  wedged : Bool := false
  stopped : Bool := false
  epEnable : Bool := false
  epnum : Nat := 0
  mcnum : Nat := 0
  type : UInt8 := 0
  dirIn : Bool := false
  dirOut : Bool := false
  maxpacket : UInt16 := 0
  desc : Option EpDesc := none
  uacCnt : Nat := 0
  isUacIn : Bool := false
  maxpkt : UInt16 := 0
  pid : UInt16 := 0

/-- `struct rts_mcm`: who has claimed a FIFO channel. -/
structure Mcm where
  epnum : Nat := 0
  dirIn : Bool := false
  dirOut : Bool := false
  claimed : Bool := false
  deriving DecidableEq

/-- `gadget.speed`, as far as the driver distinguishes it. -/
inductive Speed where
  | unknown
  | full
  | high
  deriving DecidableEq

/-- What passes between the driver and the hardware, the host and the gadget driver. -/
inductive Action where
  /-- A SETUP packet is taken from the hardware. -/
  | setup (ctrl : SetupPacket)
  /-- A request is linked on an endpoint queue. -/
  | queued (e : EpId) (r : ReqId)
  /-- `usb_gadget_giveback_request` with the request's status. -/
  | giveback (e : EpId) (r : ReqId) (status : Int)
  /-- `rts_set_cxstall`: ep0 answers with a stall. -/
  | cxstall
  /-- `rts_set_cxdone`: ep0 acknowledges the status stage. -/
  | cxdone
  /-- The stall bit of an endpoint. -/
  | epnstall (e : EpId) (on : Bool)
  /-- The completion interrupt of an endpoint. -/
  | epIrq (e : EpId) (on : Bool)
  /-- A FIFO channel is stopped and reset (`rts_set_mc_disable`). -/
  | mcDisable (mcnum : Nat)
  /-- The enable bit of an endpoint. -/
  | epEn (e : EpId) (on : Bool)
  /-- Bytes `off .. off + len` of a request's buffer are put into the ep0 FIFO and sent. -/
  | ep0In (r : ReqId) (off : UInt32) (len : UInt16)
  /-- The ep0 FIFO is opened for a packet of a request from the host. -/
  | ep0Out (r : ReqId)
  /-- A packet interrupt advances `request.actual` of an ep0 request. -/
  | ep0Advance (r : ReqId)
  /-- A DMA transfer of a whole request. -/
  | startDma (e : EpId) (r : ReqId) (mcnum : Nat)
  /-- A packet of an interrupt endpoint. -/
  | startIntr (e : EpId) (r : ReqId) (off : UInt32) (len : UInt16)
  /-- The hardware reports the transfer of a request, or of one of its packets, finished. -/
  | xferDone (r : ReqId)
  /-- The pull-up that makes the device visible to the host. -/
  | connect (on : Bool)
  /-- The interrupt for changes of VBUS is enabled. -/
  | phyInt
  /-- The device address register is written. -/
  | usbAddr (addr : UInt32)
  deriving DecidableEq

/-- What the driver reads of a bound `usb_gadget_driver`: whether it has the hook `filteroutdata`,
and what that answers to the data of an OUT control request. -/
structure GadgetDriver where
  filteroutdata : Option (SetupPacket → ReqId → Int) := none

end Udc

/-- `struct rts_udc`, with its endpoints and requests, the FIFO channel table `mcm` and the
hardware it drives. -/
structure Udc where
  ep : Udc.EpId → Udc.Endpoint
  req : Udc.ReqId → Udc.Request
  mcm : Nat → Udc.Mcm
  gadgetDriver : Option Udc.GadgetDriver
  speed : Udc.Speed
  setupBuf : Udc.SetupPacket
  ep0Data : UInt16
  devstatus : UInt8
  gadgetstart : Bool
  vbuson : Bool
  requestPending : Nat
  testMode : UInt16
  testWork : Bool
  /-- `bulkin_work[n - 1]` and `uvcin_work[n - 5]` of endpoint `n`, when queued. -/
  xferWork : Udc.EpId → Bool
  /-- `uvcin_done_work[n - 5]` of endpoint `n`, when queued. -/
  doneWork : Udc.EpId → Bool
  /-- The quirk `UDC_QUIRK_DYNAMIC_MAXPKTSIZE` of the device type. -/
  dynamicMaxpktsize : Bool
  usbAddr : UInt32
  started : Udc.Chan → Option Udc.ReqId
  busy : Udc.Chan → List Udc.ReqId
  log : List Udc.Action

namespace Udc

/-! ## The start -/

/-- The packet size that `rts_gadget_init_endpoints` gives an endpoint. -/
def maxpacketLimit : EpId → UInt16
  | .epIn n =>
    if n.val = 0 then 0x40
    else if n.val ≤ 3 then 0x200
    else if n.val ≤ 6 then 0x400
    else 0x40
  | .epOut n => if n.val ≤ 2 then 0x200 else 0x400

/-- The driver after its probe: all fields zero but the packet sizes. -/
def probed (dynamicMaxpktsize : Bool) : Udc where
  ep e := { maxpacket := maxpacketLimit e }
  req _ := {}
  mcm _ := {}
  gadgetDriver := none
  speed := .unknown
  setupBuf := ⟨0, 0, 0, 0, 0⟩
  ep0Data := 0
  devstatus := 0
  gadgetstart := false
  vbuson := false
  requestPending := 0
  testMode := 0
  testWork := false
  xferWork _ := false
  doneWork _ := false
  dynamicMaxpktsize := dynamicMaxpktsize
  usbAddr := 0
  started _ := none
  busy _ := []
  log := []

/-- The driver after SET_ADDRESS, with which the speed becomes known. -/
def addressed : Udc := { probed false with speed := .high }

/-- A descriptor of the bulk endpoint `ep2out`. -/
def bulkOutDesc : EpDesc := ⟨0x02, 0x02, 512⟩

/-- A descriptor of the UVC endpoint `ep5in`. -/
def uvcInDesc : EpDesc := ⟨0x85, 0x01, 1024⟩

variable (u : Udc)

/-! ## Updates -/

/-- Change one endpoint. -/
def setEp (e : EpId) (f : Endpoint → Endpoint) : Udc :=
  { u with ep := Function.update u.ep e (f (u.ep e)) }

def setReq (r : ReqId) (f : Request → Request) : Udc :=
  { u with req := Function.update u.req r (f (u.req r)) }

/-- Record an action. -/
def emit (a : Action) : Udc := { u with log := a :: u.log }

/-- Start a transfer on a channel. -/
def startXfer (c : Chan) (r : ReqId) : Udc :=
  { u with
    started := Function.update u.started c (some r)
    busy := Function.update u.busy c (u.busy c ++ [r]) }

/-- The hardware reports the oldest transfer of a channel finished. -/
def finishXfer (c : Chan) (r : ReqId) : Udc :=
  { u with busy := Function.update u.busy c (u.busy c).tail }.emit (.xferDone r)

/-- `list_add_tail(&priv_req->queue, &priv_ep->queue)`. -/
def listAddTail (e : EpId) (r : ReqId) : Udc :=
  u.setEp e fun x => { x with queue := x.queue ++ [r] }

/-- `list_del_init(&priv_req->queue)`. -/
def listDelInit (r : ReqId) : Udc :=
  { u with ep := fun e => { u.ep e with queue := (u.ep e).queue.erase r } }

/-- The request is linked on some endpoint queue. -/
def Linked (r : ReqId) : Prop := ∃ e, r ∈ (u.ep e).queue
  deriving Decidable

variable {u}

theorem setEp_ep (e e' : EpId) (f : Endpoint → Endpoint) :
    (u.setEp e f).ep e' = if e' = e then f (u.ep e) else u.ep e' :=
  Function.update_apply ..

@[simp] theorem setEp_ep_self (e : EpId) (f : Endpoint → Endpoint) :
    (u.setEp e f).ep e = f (u.ep e) := by
  rw [setEp_ep, if_pos rfl]

@[simp] theorem setEp_ep_of_ne {e e' : EpId} (h : e' ≠ e) (f : Endpoint → Endpoint) :
    (u.setEp e f).ep e' = u.ep e' := by
  rw [setEp_ep, if_neg h]

@[simp] theorem setReq_req_self (r : ReqId) (f : Request → Request) :
    (u.setReq r f).req r = f (u.req r) :=
  Function.update_self r _ u.req

@[simp] theorem startXfer_started_self (c : Chan) (r : ReqId) :
    (u.startXfer c r).started c = some r :=
  Function.update_self c _ u.started

@[simp] theorem startXfer_busy_self (c : Chan) (r : ReqId) :
    (u.startXfer c r).busy c = u.busy c ++ [r] :=
  Function.update_self c _ u.busy

@[simp] theorem finishXfer_busy_self (c : Chan) (r : ReqId) :
    (u.finishXfer c r).busy c = (u.busy c).tail :=
  Function.update_self c _ u.busy

end Udc
end RealtekIpcam
