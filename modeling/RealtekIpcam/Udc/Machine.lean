import RealtekIpcam.Lib.Runs
import RealtekIpcam.Udc.Program

/-!
# The driver as an event machine

`Udc.Program` follows one call from its entry to its return.  What the driver's data goes through is
more than one call at a time: a completion callback runs with the lock dropped, queues and dequeues
requests itself, and meets interrupts and work items on other processors.  Here the driver is one
state machine, `step`, and every one of these is an event.

A call that is inside a callback is a `Task` of the machine.  It remembers which request is being
given back, the value of `stopped` that `rts_done` saved, and how the call goes on (`Cont`).  The
event `resume` ends a callback; any task may be resumed next, so all nestings and interleavings of
callbacks are runs of the machine.

Between two places where the lock is dropped or a callback is made, a handler is one step.  The
machine does not hold back an event because a task holds the lock, so it has every run of the driver
and more.  What it does respect is that a work item and an interrupt handler are never running
twice: while an endpoint is inside the completion callback of its own completion handler
(`Machine.Completing`), that handler is not entered again.
-/

namespace RealtekIpcam
namespace Udc

open LockLogic

/-! ## States -/

/-- What a call does after the completion callback it is inside of. -/
inductive Cont where
  /-- It returns: `rts_ep_dequeue` and `rts_ep0_transfer_process`. -/
  | ret
  /-- It calls `rts_start_next_request`: the completion handlers of the other endpoints. -/
  | startNext
  /-- It is `rts_ep_queue` of an empty request on ep0, before its last part. -/
  | epQueue (r : ReqId) (wasEmpty : Bool)
  /-- It is in the loop of `rts_ep_disable`. -/
  | disable
  /-- It is in the loop of `rts_done_uvc_in_disable`. -/
  | uvcDone
  deriving DecidableEq

/-- A call that is not finished. -/
inductive Task where
  /-- Inside the completion callback of `r`, with the saved value of `stopped`. -/
  | giveback (e : EpId) (r : ReqId) (stopped : Bool) (k : Cont)
  /-- `rts_done_uvc_in_disable` after its loop, before it clears the fields of the endpoint. -/
  | uvcZero (e : EpId)
  /-- Inside `setup` of the gadget driver. -/
  | setup
  deriving DecidableEq

/-- The task is inside a completion callback. -/
def Task.isGiveback : Task → Bool
  | .giveback .. => true
  | _ => false

end Udc

/-- The driver's data and the calls that are under way, newest first. -/
structure Machine where
  udc : Udc
  tasks : List Udc.Task

namespace Udc

/-- What happens to the driver: calls of the gadget driver, interrupts, work items, and the return
of a callback. -/
inductive Ev where
  /-- `rts_ep_queue` of a request whose `length` the gadget driver has set. -/
  | queue (e : EpId) (r : ReqId) (length : UInt32)
  /-- `rts_ep_dequeue`. -/
  | dequeue (e : EpId) (r : ReqId)
  /-- `rts_set_halt_and_wedge`. -/
  | setHalt (e : EpId) (value wedge : Bool)
  /-- `rts_ep_disable`. -/
  | disable (e : EpId)
  /-- `rts_ep_enable`. -/
  | enable (e : EpId) (desc : EpDesc)
  /-- The interrupt for a finished transfer or packet; `dmaout` is the number of bytes received. -/
  | xferIrq (e : EpId) (dmaout : UInt32)
  /-- The completion work of a bulk IN or video IN endpoint. -/
  | xferWork (e : EpId)
  /-- `rts_done_uvc_in_disable`. -/
  | uvcDoneWork (e : EpId)
  /-- The interrupt for a SETUP packet. -/
  | setup (highSpeed : Bool) (ctrl : SetupPacket)
  /-- The interrupt for a packet on ep0. -/
  | ep0Irq
  /-- A callback returns; `answer` is the value `setup` of the gadget driver returns. -/
  | resume (i : Nat) (answer : Int)
  deriving DecidableEq

/-- The completion work of an endpoint is taken from the work queue. -/
def takeXferWork (u : Udc) (e : EpId) : Udc :=
  { u with xferWork := Function.update u.xferWork e false }

/-- The flush work of an endpoint is taken from the work queue. -/
def takeDoneWork (u : Udc) (e : EpId) : Udc :=
  { u with doneWork := Function.update u.doneWork e false }

/-- A SETUP packet is read from the hardware. -/
def readSetup (u : Udc) (ctrl : SetupPacket) : Udc :=
  { u with setupBuf := ctrl }.emit (.setup ctrl)

end Udc

namespace Machine

open Udc

variable (m : Machine)

/-- The endpoint is inside a completion callback that its completion handler made. -/
def Completing (e : EpId) : Prop := ∃ r s, Task.giveback e r s .startNext ∈ m.tasks

/-- `rts_done_uvc_in_disable` is running for the endpoint. -/
def Flushing (e : EpId) : Prop :=
  ∃ t ∈ m.tasks, t = .uvcZero e ∨ ∃ r s, t = .giveback e r s .uvcDone

/-- The task is a completion callback on `e` that goes on with `k`. -/
def isCallback (e : EpId) (k : Cont) : Task → Bool
  | .giveback e' _ _ k' => e' = e ∧ k' = k
  | _ => false

instance (e : EpId) : Decidable (m.Completing e) :=
  decidable_of_iff (∃ t ∈ m.tasks, isCallback e .startNext t) <| by
    constructor
    · rintro ⟨t, ht, hk⟩
      cases t with
      | giveback e' r s k =>
        obtain ⟨rfl, rfl⟩ : e' = e ∧ k = .startNext := by simpa [isCallback] using hk
        exact ⟨r, s, ht⟩
      | uvcZero e' => simp [isCallback] at hk
      | setup => simp [isCallback] at hk
    · rintro ⟨r, s, ht⟩
      exact ⟨_, ht, by simp [isCallback]⟩

instance (e : EpId) : Decidable (m.Flushing e) :=
  decidable_of_iff (∃ t ∈ m.tasks, t = .uvcZero e ∨ isCallback e .uvcDone t) <| by
    constructor
    · rintro ⟨t, ht, rfl | hk⟩
      · exact ⟨_, ht, .inl rfl⟩
      · cases t with
        | giveback e' r s k =>
          obtain ⟨rfl, rfl⟩ : e' = e ∧ k = .uvcDone := by simpa [isCallback] using hk
          exact ⟨_, ht, .inr ⟨r, s, rfl⟩⟩
        | uvcZero e' => simp [isCallback] at hk
        | setup => simp [isCallback] at hk
    · rintro ⟨t, ht, rfl | ⟨r, s, rfl⟩⟩
      · exact ⟨_, ht, .inl rfl⟩
      · exact ⟨_, ht, .inr (by simp [isCallback])⟩

/-! ## Completion -/

/-- `rts_done`, called by code that goes on with `k`, up to the callback. -/
def enterDone (e : EpId) (r : ReqId) (status : Int) (k : Cont) : Machine :=
  ⟨m.udc.rtsDoneEnter e r status, .giveback e r (m.udc.ep e).stopped k :: m.tasks⟩

/-- `rts_done_wq`, called by code that goes on with `k`, up to the callback. -/
def enterDoneWq (e : EpId) (r : ReqId) (status : Int) (k : Cont) : Machine :=
  ⟨m.udc.rtsDoneWqEnter e r status, .giveback e r (m.udc.ep e).stopped k :: m.tasks⟩

/-- The loop of `rts_ep_disable` up to the next callback, or its end. -/
def disableLoop (e : EpId) : Machine :=
  match (m.udc.ep e).queue with
  | [] => if (m.udc.ep e).epnum = 0 then m else { m with udc := m.udc.clearEp e }
  | r :: _ => m.enterDone e r (-ECONNRESET) .disable

/-- The loop of `rts_done_uvc_in_disable` up to the next callback, or its end. -/
def uvcDoneLoop (e : EpId) : Machine :=
  match (m.udc.ep e).queue with
  | [] => { m with tasks := .uvcZero e :: m.tasks }
  | r :: _ => m.enterDoneWq e r (-ECONNRESET) .uvcDone

/-- What a call does after its completion callback. -/
def goOn (e : EpId) : Cont → Machine
  | .ret => m
  | .startNext => { m with udc := m.udc.rtsStartNextRequest e }
  | .epQueue r wasEmpty => { m with udc := m.udc.rtsEpQueueStart e r wasEmpty }
  | .disable => m.disableLoop e
  | .uvcDone => m.uvcDoneLoop e

/-! ## Handlers -/

/-- `rts_ep_queue` up to its return or the callback of an empty ep0 request. -/
def epQueue (e : EpId) (r : ReqId) : Machine :=
  let wasEmpty := (m.udc.ep e).queue.isEmpty
  let v := m.udc.rtsEpQueueLink e r
  if (m.udc.ep e).epnum = 0 then
    if (v.req r).length = 0 then
      { m with udc := v }.enterDone e r 0 (.epQueue r wasEmpty)
    else { m with udc := (v.rtsStartEp0Transfer e r).rtsEpQueueStart e r wasEmpty }
  else { m with udc := (v.rtsEpQueueIrq e wasEmpty).rtsEpQueueStart e r wasEmpty }

/-- `rts_ep0_transfer_process` on ep0. -/
def ep0Process : Machine :=
  match (m.udc.ep ep0).queue with
  | [] => m
  | r :: _ =>
    let v := m.udc.ep0Advance ep0 r
    if v.packetsDone ep0 r then { m with udc := v }.enterDone ep0 r 0 .ret
    else { m with udc := v.rtsStartEp0Transfer ep0 r }

/-- `rts_usb_intr_in_process`. -/
def intrProcess (e : EpId) : Machine :=
  match (m.udc.ep e).queue with
  | [] => m
  | r :: _ =>
    if (m.udc.req r).length ≠ 0 then
      let v := m.udc.intrAdvance e r
      if v.packetsDone e r then { m with udc := v }.enterDone e r 0 .startNext
      else { m with udc := v.rtsStartIntrTransfer e r }
    else m

/-- `rts_usb_bulk_out_process` and `rts_usb_uac_out_process`. -/
def outProcess (e : EpId) (dmaout : UInt32) : Machine :=
  match (m.udc.ep e).queue with
  | [] => m
  | r :: _ => { m with udc := m.udc.rtsTransferComplete e r dmaout }.enterDone e r 0 .startNext

/-- `rts_usb_uac_in_process`. -/
def uacInProcess (e : EpId) : Machine :=
  match (m.udc.ep e).queue with
  | [] => m
  | r :: _ => { m with udc := m.udc.rtsInComplete e r }.enterDone e r 0 .startNext

/-- `rts_usb_bulk_in_process` and `rts_usb_uvc_in_process`. -/
def wqProcess (e : EpId) : Machine :=
  match (m.udc.ep e).queue with
  | [] => m
  | r :: _ => { m with udc := m.udc.rtsInComplete e r }.enterDoneWq e r 0 .startNext

/-- The part of the interrupt handler for one endpoint other than ep0. -/
def xferProcess (e : EpId) (dmaout : UInt32) : Machine :=
  match e with
  | .epIn n =>
    if 7 ≤ n.val then m.intrProcess e
    else if n.val = 4 then m.uacInProcess e
    else { m with udc := queueXferWork e m.udc }
  | .epOut _ => m.outProcess e dmaout

/-- The SETUP packet makes the driver queue its own request `ep0_req`. -/
def asksStatus (ctrl : SetupPacket) : Bool :=
  ctrl.bRequestType &&& 0x60 = 0 ∧ ctrl.bRequest = 0x00

/-- The SETUP part of `rts_usb_ep0_irq` up to the call of the gadget driver's `setup`, if it makes
one.  The driver's own handlers reach no callback, so any code would do for the gadget driver's;
`none` if a table index of the host is out of bounds or the lock is taken twice. -/
def setupProcess (highSpeed : Bool) (ctrl : SetupPacket) : Option Machine :=
  match rtsUsbSetupProcess noCallbacks highSpeed ctrl (m.udc.readSetup ctrl) true with
  | .ret ret v _ => some ⟨v, if ret ≠ 0 then .setup :: m.tasks else m.tasks⟩
  | _ => none

/-- The return of the callback a task is inside of. -/
def resumeTask (t : Task) (answer : Int) : Machine :=
  match t with
  | .giveback e _ stopped k => { m with udc := m.udc.rtsDoneLeave e stopped }.goOn e k
  | .uvcZero e => { m with udc := m.udc.clearEp e }
  | .setup => if answer < 0 then { m with udc := m.udc.rtsSetCxstall } else m

/-- One step of the driver.  A request is queued only while it is on no queue, an endpoint is
enabled only with a descriptor of its own number and direction, the hardware reports only transfers
that were started, and a work item runs only when it is queued. -/
def step (m : Machine) : Ev → Option Machine
  | .queue e r length =>
    if m.udc.Linked r then none
    else some ({ m with udc := m.udc.setReq r fun q => { q with length := length } }.epQueue e r)
  | .dequeue e r =>
    some (if (m.udc.ep e).queue ≠ [] then m.enterDone e r (-ECONNRESET) .ret else m)
  | .setHalt e value wedge => some { m with udc := m.udc.setHaltAndWedge e value wedge }
  | .disable e =>
    let v := m.udc.rtsEpDisableBegin e
    some <| if isUvcNum (v.ep e).epnum then { m with udc := v }
      else { m with udc := v }.disableLoop e
  | .enable e desc =>
    if usbEndpointNum desc = e.num ∧ usbEndpointDirIn desc = e.isIn then
      some { m with udc := (m.udc.rtsEpEnable e desc).2 }
    else none
  | .xferIrq e dmaout =>
    match m.udc.busy (chan (m.udc.ep e)) with
    | [] => none
    | r :: _ =>
      if e ≠ ep0 ∧ (m.udc.ep e).epEnable = true ∧ ¬ m.Completing e then
        some ({ m with udc := m.udc.finishXfer (chan (m.udc.ep e)) r }.xferProcess e dmaout)
      else none
  | .xferWork e =>
    if m.udc.xferWork e = true ∧ ¬ m.Completing e then
      some ({ m with udc := m.udc.takeXferWork e }.wqProcess e)
    else none
  | .uvcDoneWork e =>
    if m.udc.doneWork e = true ∧ ¬ m.Flushing e then
      some ({ m with udc := m.udc.takeDoneWork e }.uvcDoneLoop e)
    else none
  | .setup highSpeed ctrl =>
    if asksStatus ctrl = true ∧ m.udc.Linked ep0Req then none else m.setupProcess highSpeed ctrl
  | .ep0Irq => some m.ep0Process
  | .resume i answer =>
    match m.tasks[i]? with
    | none => none
    | some t => some ({ m with tasks := m.tasks.eraseIdx i }.resumeTask t answer)

/-! ## What a step is -/

section Inversion

variable {m} {n : Machine} {e : EpId} {r : ReqId}

theorem step_queue {length : UInt32} (h : m.step (.queue e r length) = some n) :
    ¬ m.udc.Linked r ∧
      n = { m with udc := m.udc.setReq r fun q => { q with length := length } }.epQueue e r := by
  obtain ⟨hr, ⟨⟩⟩ := Option.ite_none_left_eq_some.mp h
  exact ⟨hr, rfl⟩

theorem step_enable {desc : EpDesc} (h : m.step (.enable e desc) = some n) :
    (usbEndpointNum desc = e.num ∧ usbEndpointDirIn desc = e.isIn) ∧
      n = { m with udc := (m.udc.rtsEpEnable e desc).2 } := by
  obtain ⟨hdesc, ⟨⟩⟩ := Option.ite_none_right_eq_some.mp h
  exact ⟨hdesc, rfl⟩

/-- What a transfer interrupt does. -/
theorem step_xferIrq {dmaout : UInt32} (h : m.step (.xferIrq e dmaout) = some n) :
    ∃ r l, m.udc.busy (chan (m.udc.ep e)) = r :: l ∧
      (e ≠ ep0 ∧ (m.udc.ep e).epEnable = true ∧ ¬ m.Completing e) ∧
      n = { m with udc := m.udc.finishXfer (chan (m.udc.ep e)) r }.xferProcess e dmaout := by
  rw [step] at h
  cases hb : m.udc.busy (chan (m.udc.ep e)) with
  | nil =>
    rw [hb] at h
    cases h
  | cons r l =>
    rw [hb] at h
    obtain ⟨hfree, ⟨⟩⟩ := Option.ite_none_right_eq_some.mp h
    exact ⟨r, l, rfl, hfree, rfl⟩

theorem step_xferWork (h : m.step (.xferWork e) = some n) :
    (m.udc.xferWork e = true ∧ ¬ m.Completing e) ∧
      n = { m with udc := m.udc.takeXferWork e }.wqProcess e := by
  obtain ⟨hfree, ⟨⟩⟩ := Option.ite_none_right_eq_some.mp h
  exact ⟨hfree, rfl⟩

theorem step_uvcDoneWork (h : m.step (.uvcDoneWork e) = some n) :
    (m.udc.doneWork e = true ∧ ¬ m.Flushing e) ∧
      n = { m with udc := m.udc.takeDoneWork e }.uvcDoneLoop e := by
  obtain ⟨hfree, ⟨⟩⟩ := Option.ite_none_right_eq_some.mp h
  exact ⟨hfree, rfl⟩

theorem step_setup {highSpeed : Bool} {ctrl : SetupPacket}
    (h : m.step (.setup highSpeed ctrl) = some n) :
    ¬ (asksStatus ctrl = true ∧ m.udc.Linked ep0Req) ∧ m.setupProcess highSpeed ctrl = some n :=
  Option.ite_none_left_eq_some.mp h

/-- What the end of a callback does. -/
theorem step_resume {i : Nat} {answer : Int} (h : m.step (.resume i answer) = some n) :
    ∃ t, m.tasks[i]? = some t ∧
      n = { m with tasks := m.tasks.eraseIdx i }.resumeTask t answer := by
  rw [step] at h
  cases ht : m.tasks[i]? with
  | none =>
    rw [ht] at h
    cases h
  | some t =>
    rw [ht] at h
    cases h
    exact ⟨t, rfl, rfl⟩

end Inversion

theorem countP_eraseIdx {ts : List Task} {i : Nat} {t : Task} (h : ts[i]? = some t)
    (p : Task → Bool) : ts.countP p = (ts.eraseIdx i).countP p + if p t then 1 else 0 := by
  obtain ⟨hi, rfl⟩ := List.getElem?_eq_some_iff.mp h
  have hsplit : (ts.take i ++ ts[i] :: ts.drop (i + 1)).countP p = ts.countP p := by
    rw [List.getElem_cons_drop, List.take_append_drop]
  rw [List.countP_append, List.countP_cons] at hsplit
  rw [List.eraseIdx_eq_take_drop_succ, List.countP_append]
  omega

/-- Every run of the driver starts here: no request is queued and no call is under way. -/
structure Fresh : Prop where
  queue : ∀ e, (m.udc.ep e).queue = []
  pending : m.udc.requestPending = 0
  tasks : m.tasks = []
  log : m.udc.log = []

theorem fresh_probed (dynamicMaxpktsize : Bool) : Fresh ⟨probed dynamicMaxpktsize, []⟩ :=
  ⟨fun _ => rfl, rfl, rfl, rfl⟩

end Machine
end RealtekIpcam
