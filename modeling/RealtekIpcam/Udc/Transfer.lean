import RealtekIpcam.Udc.Endpoint

/-!
# Starting, advancing and completing transfers

The parts of the transfer code that run under one holding of `rts_udc.lock`.  `rts_done` drops the
lock around the completion callback, so it appears here as two parts: `rtsDoneEnter`, everything
before the callback, and `rtsDoneLeave`, everything after it.  `rts_ep_queue` is split in the same
way at the one place where it can call `rts_done`.

`Udc.Program` puts the parts together as the source does, with the lock operations between them;
`Udc.Machine` lets other events happen while a callback runs.
-/

namespace RealtekIpcam.Udc

variable (u : Udc)

/-! ## Starting a transfer -/

/-- The bytes still to be moved, as the 16-bit `length` of the packet code, cut to one packet. -/
def packetLength (q : Request) (maxpacket : UInt16) : UInt16 :=
  let length := (q.length - q.actual).toUInt16
  if length > maxpacket then maxpacket else length

def rtsStartEp0Transfer (e : EpId) (r : ReqId) : Udc :=
  if (u.ep e).dirIn then
    let length := packetLength (u.req r) (u.ep e).maxpacket
    (u.setReq r fun q => { q with ep0InLastLength := length }).emit
      (.ep0In r (u.req r).actual length)
  else u.emit (.ep0Out r)

/-- `rts_uvc_quirks`: choose packet size and packets per microframe for one frame.  The comparisons
mix `int` with the `unsigned` request length, so they are made in 32-bit unsigned arithmetic. -/
def rtsUvcQuirks (e : EpId) (r : ReqId) : Udc :=
  let x := u.ep e
  match x.desc with
  | none => u
  | some desc =>
    if ¬ isUvcNum x.epnum then u
    else
      let length := (u.req r).length
      let maxpid := (desc.wMaxPacketSize >>> 11) &&& 0x3
      let epMaxpkt := (desc.wMaxPacketSize &&& 0x7ff).toUInt32
      let whole := length > (epMaxpkt - 12) * (maxpid.toUInt32 + 1)
      let pid := if whole then maxpid else 0
      let maxpkt :=
        if whole then epMaxpkt
        else if length < x.maxpkt.toUInt32 - 12 then 12 + ((length - 1) - (length - 1) % 4)
        else x.maxpkt.toUInt32
      let v := if maxpkt ≠ x.maxpkt.toUInt32 then u.rtsSetEpMaxpkt e maxpkt.toUInt16 else u
      v.setEp e fun x => { x with pid := pid }

/-- The audio packet counter that `rts_start_dma_transfer` advances. -/
def stepUacCnt (x : Endpoint) : Endpoint :=
  if x.isUacIn then { x with uacCnt := if x.uacCnt + 1 = 20 then 0 else x.uacCnt + 1 } else x

def rtsStartDmaTransfer (e : EpId) (r : ReqId) : Udc :=
  let v := if u.dynamicMaxpktsize then u.rtsUvcQuirks e r else u
  let v := v.setEp e stepUacCnt
  (v.startXfer (.dma (u.ep e).mcnum) r).emit (.startDma e r (u.ep e).mcnum)

def rtsStartIntrTransfer (e : EpId) (r : ReqId) : Udc :=
  if (u.ep e).dirIn then
    let length := packetLength (u.req r) (u.ep e).maxpacket
    let v := u.setReq r fun q => { q with intrInLastLength := length }
    (v.startXfer (.intr (u.ep e).epnum) r).emit (.startIntr e r (u.req r).actual length)
  else u

/-- The hardware channel of an endpoint. -/
def chan (x : Endpoint) : Chan := if usesIntr x then .intr x.epnum else .dma x.mcnum

def rtsStartNextRequest (e : EpId) : Udc :=
  match (u.ep e).queue with
  | [] => u
  | r :: _ => if usesIntr (u.ep e) then u.rtsStartIntrTransfer e r else u.rtsStartDmaTransfer e r

/-! ## Completing a request -/

/-- The status a request is given back with: `-ESHUTDOWN` as long as the speed is unknown. -/
def doneStatus (status : Int) : Int := if u.speed = .unknown then -ESHUTDOWN else status

/-- The first lines of `rts_done` and `rts_done_wq`: unlink the request, mark the endpoint stopped
and set the status. -/
def rtsDoneUnlink (e : EpId) (r : ReqId) (status : Int) : Udc :=
  let v := (u.listDelInit r).setEp e fun x => { x with stopped := true }
  v.setReq r fun q => { q with status := u.doneStatus status }

/-- The interrupt of an endpoint whose queue has become empty is switched off. -/
def rtsDoneQuiesce (e : EpId) : Udc :=
  if (u.ep e).queue = [] then u.rtsSetEpIrqDisable e else u

/-- The hook `filteroutdata` of the bound gadget driver, if there is one. -/
def filterHook : Option (SetupPacket → ReqId → Int) := u.gadgetDriver.bind (·.filteroutdata)

/-- The answer of `__set_filterout`, 0 without a hook. -/
def filterAnswer (r : ReqId) : Int :=
  match u.filterHook with
  | none => 0
  | some f => f u.setupBuf r

/-- `rts_done` up to the callback, which runs with the lock dropped.  The hook of `__set_filterout`
also runs with the lock dropped, just before it. -/
def rtsDoneEnter (e : EpId) (r : ReqId) (status : Int) : Udc :=
  let v := u.rtsDoneUnlink e r status
  let v :=
    if (v.ep e).epnum ≠ 0 then v.rtsDoneQuiesce e
    else if (v.ep e).dirIn then v.rtsSetCxdone
    else if v.filterAnswer r ≠ 0 then v.rtsSetCxstall
    else v.rtsSetCxdone
  v.emit (.giveback e r (u.doneStatus status))

/-- `rts_done_wq` up to the callback. -/
def rtsDoneWqEnter (e : EpId) (r : ReqId) (status : Int) : Udc :=
  ((u.rtsDoneUnlink e r status).rtsDoneQuiesce e).emit (.giveback e r (u.doneStatus status))

/-- `rts_done` and `rts_done_wq` after the callback, with the saved value of `stopped`. -/
def rtsDoneLeave (e : EpId) (stopped : Bool) : Udc :=
  let v :=
    if u.requestPending > 0 then { u with requestPending := u.requestPending - 1 } else u
  v.setEp e fun x => { x with stopped := stopped }

/-- `rts_ep_queue` up to its test for ep0: link the request and reset its progress. -/
def rtsEpQueueLink (e : EpId) (r : ReqId) : Udc :=
  let v := u.listAddTail e r
  let v := { v with requestPending := v.requestPending + 1 }
  (v.setReq r fun q => { q with actual := 0, status := -EINPROGRESS }).emit (.queued e r)

/-- The interrupt enable of `rts_ep_queue` on an endpoint other than ep0. -/
def rtsEpQueueIrq (e : EpId) (wasEmpty : Bool) : Udc :=
  if wasEmpty && !(u.ep e).stall then u.rtsSetEpIrqEnable e else u

/-- The last part of `rts_ep_queue`: start the transfer of a request that was queued on an empty
queue, unless the endpoint is stalled or stopped. -/
def rtsEpQueueStart (e : EpId) (r : ReqId) (wasEmpty : Bool) : Udc :=
  let x := u.ep e
  if wasEmpty && !x.stall && !x.stopped then
    if usesDma x then u.rtsStartDmaTransfer e r
    else if usesIntr x then u.rtsStartIntrTransfer e r
    else u
  else u

/-- `rts_set_halt_and_wedge`, under the lock. -/
def setHaltAndWedge (e : EpId) (value wedge : Bool) : Udc :=
  if value then
    (u.rtsSetEpnstall e).setEp e fun x =>
      { x with stall := true, stopped := true, wedged := x.wedged || wedge }
  else
    let v := (u.rtsClearEpnstall e).setEp e fun x =>
      { x with stall := false, wedged := false, stopped := false }
    if (v.ep e).queue ≠ [] then v.rtsSetEpIrqEnable e else v

/-! ## Packet and transfer interrupts -/

/-- The update of `request.actual` in `rts_ep0_transfer_process`. -/
def ep0Advance (e : EpId) (r : ReqId) : Udc :=
  let q := u.req r
  if q.length ≠ q.actual then
    let n := if (u.ep e).dirIn then q.ep0InLastLength else packetLength q (u.ep e).maxpacket
    (u.setReq r fun q => { q with actual := q.actual + n.toUInt32 }).emit (.ep0Advance r)
  else u

/-- The update of `request.actual` in `rts_intr_transfer_process`. -/
def intrAdvance (e : EpId) (r : ReqId) : Udc :=
  let q := u.req r
  if q.length ≠ q.actual ∧ (u.ep e).dirIn = true then
    u.setReq r fun q => { q with actual := q.actual + q.intrInLastLength.toUInt32 }
  else u

/-- The test that ends a packet transfer: everything moved, or less than a packet so far. -/
def packetsDone (e : EpId) (r : ReqId) : Bool :=
  (u.req r).length == (u.req r).actual || (u.req r).actual < (u.ep e).maxpacket.toUInt32

/-- `rts_transfer_complete`; `dmaout` is the channel's register `MC_FIFO0_DMAOUT_LENGTH`. -/
def rtsTransferComplete (e : EpId) (r : ReqId) (dmaout : UInt32) : Udc :=
  u.setReq r fun q =>
    { q with actual := q.actual + if (u.ep e).dirIn then q.length else dmaout }

/-- The `rts_transfer_complete` call of the bulk IN, audio IN and video IN handlers, which pass over
an empty request. -/
def rtsInComplete (e : EpId) (r : ReqId) : Udc :=
  if (u.req r).length ≠ 0 then u.rtsTransferComplete e r 0 else u

end RealtekIpcam.Udc
