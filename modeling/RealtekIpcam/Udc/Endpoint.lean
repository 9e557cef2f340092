import RealtekIpcam.Udc.Model

/-!
# Enabling and disabling endpoints

`rts_ep_enable` copies number, type and direction from a descriptor into the endpoint and lets
`rts_config_ep` claim a FIFO channel and switch the endpoint on.  `rts_ep_disable` switches it off
and gives the channel back; what it then does with the queue runs callbacks and is in
`Udc.Program` and `Udc.Machine`.

The two UVC endpoints, numbers 5 and 6, are the exceptions: their channels are handed out without
looking at `claimed`, and their flushing and the clearing of their fields are left to a work item.
-/

namespace RealtekIpcam.Udc

variable (u : Udc)

/-! ## Stall bits -/

def rtsSetCxstall : Udc := u.emit .cxstall

def rtsSetCxdone : Udc := u.emit .cxdone

/-- The endpoint numbers of a direction whose stall bit the driver writes. -/
def hasStallBit (x : Endpoint) : Bool :=
  if x.dirIn then x.epnum ≤ 3 || (7 ≤ x.epnum && x.epnum ≤ 12) else x.epnum ≤ 3

def rtsSetEpnstall (e : EpId) : Udc :=
  let v := u.setEp e fun x => { x with stall := true }
  if hasStallBit (u.ep e) then v.emit (.epnstall e true) else v

def rtsClearEpnstall (e : EpId) : Udc :=
  let v := u.setEp e fun x => { x with stall := false }
  if hasStallBit (u.ep e) then v.emit (.epnstall e false) else v

/-- The endpoint has a completion interrupt of its own. -/
def hasEpIrq (x : Endpoint) : Bool :=
  if x.dirIn then 1 ≤ x.epnum && x.epnum ≤ 12 else x.epnum != 0

def rtsSetEpIrqEnable (e : EpId) : Udc :=
  if hasEpIrq (u.ep e) then u.emit (.epIrq e true) else u

def rtsSetEpIrqDisable (e : EpId) : Udc :=
  if hasEpIrq (u.ep e) then u.emit (.epIrq e false) else u

/-! ## Enabling -/

def rtsSetEpMaxpkt (e : EpId) (maxPktSize : UInt16) : Udc :=
  u.setEp e fun x =>
    let maxpkt := x.maxpacket &&& 0x7ff
    { x with
      maxpkt := if maxPktSize ≠ 0 ∧ maxPktSize < maxpkt then maxPktSize &&& 0x7ff else maxpkt }

/-- The endpoints that transfer through a FIFO channel and its DMA engine. -/
def usesDma (x : Endpoint) : Bool :=
  (0 < x.epnum && x.epnum < 7 && x.dirIn) || (x.epnum != 0 && x.dirOut)

/-- The IN endpoints with a packet buffer of their own. -/
def usesIntr (x : Endpoint) : Bool := 6 < x.epnum && x.dirIn

/-- The endpoint numbers of a direction that have a FIFO channel. -/
def hasFifo (x : Endpoint) : Bool :=
  if x.dirIn then 1 ≤ x.epnum && x.epnum ≤ 6 else 1 ≤ x.epnum && x.epnum ≤ 4

/-- The channel that `rts_set_ep_fifo_mapping` assigns, and whether it refuses a claimed one. -/
def fifoOf (x : Endpoint) : Nat × Bool :=
  if x.dirIn then
    if 1 ≤ x.epnum ∧ x.epnum ≤ 3 then (2 + (x.epnum - 1), true)
    else if x.epnum = 4 then (2 + (x.epnum - 2), true)
    else if x.epnum = 5 ∨ x.epnum = 6 then (x.epnum - 5, false)
    else (x.mcnum, false)
  else
    if 1 ≤ x.epnum ∧ x.epnum ≤ 3 then (5 + (x.epnum - 1), true)
    else if x.epnum = 4 then (5 + (x.epnum - 2), true)
    else (x.mcnum, false)

def rtsSetEpFifoMapping (e : EpId) : Int × Udc :=
  let (mcnum, exclusive) := fifoOf (u.ep e)
  let v := u.setEp e fun x => { x with mcnum := mcnum }
  if exclusive && (u.mcm mcnum).claimed then (-EINVAL, v)
  else
    let x := v.ep e
    (0, { v with mcm := Function.update v.mcm mcnum ⟨x.epnum, x.dirIn, x.dirOut, true⟩ })

def rtsSetEpEnable (e : EpId) : Udc :=
  let v := (u.setEp e fun x => { x with epEnable := true }).rtsClearEpnstall e
  let x := v.ep e
  let v := if hasFifo x then v.emit (.mcDisable x.mcnum) else v
  let v := if x.dirIn && x.epnum == 4 then
      v.setEp e fun x => { x with isUacIn := true, uacCnt := 0 }
    else v
  v.emit (.epEn e true)

/-- `rts_config_ep`.  The endpoint is put back into its own slot of the table, which is where it
already is: the gadget core hands an endpoint a descriptor that carries its own number. -/
def rtsConfigEp (e : EpId) (desc : EpDesc) : Int × Udc :=
  let pid := (desc.wMaxPacketSize >>> 11) &&& 0x3
  let v := u.rtsSetEpMaxpkt e 0
  let (ret, v) := if usesDma (v.ep e) then v.rtsSetEpFifoMapping e else (0, v)
  if ret ≠ 0 then (ret, v)
  else
    let v := if (v.ep e).epnum = 5 ∨ (v.ep e).epnum = 6 then
        v.setEp e fun x => { x with pid := pid }
      else v
    (0, v.rtsSetEpEnable e)

def rtsEpEnable (e : EpId) (desc : EpDesc) : Int × Udc :=
  let v := u.setEp e fun x => { x with desc := some desc, epnum := usbEndpointNum desc }
  if usbEndpointNum desc = 0 then (0, v)
  else
    let v := v.setEp e fun x =>
      { x with
        type := usbEndpointType desc
        dirIn := usbEndpointDirIn desc
        dirOut := usbEndpointDirOut desc
        maxpacket := usbEndpointMaxp desc }
    v.rtsConfigEp e desc

/-! ## Disabling -/

def rtsSetEpDisable (e : EpId) : Udc :=
  let x := u.ep e
  let v := u.setEp e fun x => { x with epEnable := false }
  let v := if hasFifo x then v.emit (.mcDisable x.mcnum) else v
  v.emit (.epEn e false)

/-- The loop of `rts_ep_disable` that releases the FIFO channels recorded for the endpoint. -/
def releaseMcm (e : EpId) : Udc :=
  let x := u.ep e
  { u with
    mcm := fun i =>
      if i < 8 ∧ (u.mcm i).epnum = x.epnum ∧ (u.mcm i).dirIn = x.dirIn ∧
          (u.mcm i).dirOut = x.dirOut
      then {} else u.mcm i }

/-- The fields that `rts_ep_disable` and `rts_done_uvc_in_disable` clear at their end. -/
def clearEp (e : EpId) : Udc :=
  u.setEp e fun x =>
    { x with
      epnum := 0, mcnum := 0, stall := false, wedged := false, stopped := false,
      epEnable := false, uacCnt := 0, isUacIn := false }

/-- The endpoint whose `uvcin_done_work` a disable of endpoint number 5 or 6 queues. -/
def uvcSlot (epnum : Nat) : EpId := if epnum = 5 then .epIn 5 else .epIn 6

/-- The number belongs to a UVC endpoint. -/
def isUvcNum (epnum : Nat) : Bool := epnum == 5 || epnum == 6

/-- `rts_ep_disable` up to its decision what to do with the queue: switch the endpoint off and
release its channel; for a UVC endpoint also queue the work that flushes it. -/
def rtsEpDisableBegin (e : EpId) : Udc :=
  let v := (u.rtsSetEpDisable e).releaseMcm e
  if isUvcNum (v.ep e).epnum then
    { v with doneWork := Function.update v.doneWork (uvcSlot (v.ep e).epnum) true }
  else v

end RealtekIpcam.Udc
