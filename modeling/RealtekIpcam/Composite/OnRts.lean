import RealtekIpcam.Composite.Routing
import RealtekIpcam.Udc.PullUp
import RealtekIpcam.Udc.Setup

/-!
# The composite core on the RTS controller

The core answers every control transfer with one request, `cdev->req`.  When a SETUP packet
arrives it sets the length of this request to zero, and at `check_value` it writes the length of
the response and queues the request again.  It does not look whether the request is still queued
from the transfer before, and nothing on the way through `rts_usb_ep0_irq` takes it off the queue
when the host gives up a transfer and starts the next.

So the request is touched while it is linked in every run in which such a SETUP packet, or the
last of the continues for a delayed one, comes before the last response is complete.  `Spared`
says that none does, and `untouched_iff` that nothing else goes wrong.
-/

namespace RealtekIpcam.Composite

open LockLogic (Prog Outcome returns_bind)
open Runs (Along exec)
open Udc (SetupPacket ReqId Request ep0 ep0Req noCallbacks entry rtsEpQueue rtsUsbSetupProcess
  rtsEp0TransferProcess)

/-! ## The state -/

/-- The two requests, as the UDC driver names them. -/
def CoreReq.id : CoreReq → ReqId
  | .req => 1
  | .osDescReq => 2

/-- What the core does to a request: it writes the length and the buffer, or it queues it. -/
inductive Access where
  | rewrite
  | queue
  deriving DecidableEq

/-- An access of the core, and whether the request was linked on the queue of ep0. -/
structure Touch where
  access : Access
  req : CoreReq
  linked : Bool
  deriving DecidableEq

/-- The core and the UDC driver below it; `pending` is `setup_pending` and `os_desc_pending`, and
`touches` are the accesses so far, newest first. -/
structure OnRts where
  cdev : CompositeDev
  udc : Udc
  pending : CoreReq → Bool
  touches : List Touch

/-- What happens: a SETUP packet, for which a `setup` callback may queue `cdev->req` itself, with a
length; a continue; a packet interrupt of ep0; a function that queues a request of its own on ep0;
the end of the connection. -/
inductive OnRtsEvent where
  | setup (highSpeed : Bool) (ctrl : SetupPacket) (ans : Answers) (own : Option UInt32)
  | setupContinue
  | ep0Irq
  | functionQueue (r : ReqId) (length : UInt32)
  | disconnect

namespace OnRts

variable (s : OnRts)

/-- The request is linked on the queue of ep0. -/
def linked (r : CoreReq) : Bool := r.id ∈ (s.udc.ep ep0).queue

/-- The core writes a request. -/
def rewrite (r : CoreReq) (f : Request → Request) : OnRts :=
  { s with udc := s.udc.setReq r.id f, touches := ⟨.rewrite, r, s.linked r⟩ :: s.touches }

def compositeSetupComplete (r : CoreReq) : OnRts :=
  { s with pending := Function.update s.pending r false }

/-- `composite_ep0_queue`, and the completion that the callers make if it fails. -/
def compositeEp0Queue (r : CoreReq) : Option (Int × OnRts) :=
  (entry (rtsEpQueue noCallbacks ep0 r.id 0) s.udc).map fun (ret, udc) =>
    let v := { s with udc := udc, touches := ⟨.queue, r, s.linked r⟩ :: s.touches }
    if ret = 0 then (ret, { v with pending := Function.update v.pending r true })
    else if ret < 0 then
      (ret, { v with
        udc := v.udc.setReq r.id fun q => { q with status := 0 } }.compositeSetupComplete r)
    else (ret, v)

/-- A function queues a request on ep0. -/
def functionQueue (r : ReqId) (length : UInt32) : Option OnRts :=
  (entry (rtsEpQueue noCallbacks ep0 r 0)
    (s.udc.setReq r fun q => { q with length := length })).map fun (_, udc) =>
      { s with udc := udc }

/-- `composite_setup`.  A request that a `setup` callback was called for has no response of the
core. -/
def compositeSetup (ctrl : SetupPacket) (ans : Answers) (own : Option UInt32) :
    Option (Int × OnRts) :=
  let o := s.cdev.compositeSetup ctrl ans
  let v := { s with cdev := o.cdev }
  if tooLong ctrl then some (o.value, v)
  else
    let v := v.rewrite .req fun q => { q with length := 0, zero := false }
    match o.response, own with
    | some (r, value), _ =>
      (v.rewrite r fun q => { q with
        length := UInt32.ofNat value.toNat
        zero := value < wLength ctrl }).compositeEp0Queue r
    | none, some length =>
      if o.setups = [] then some (o.value, v)
      else (v.functionQueue CoreReq.req.id length).map fun v => (o.value, v)
    | none, none => some (o.value, v)

def usbCompositeSetupContinue : Option OnRts :=
  let (queued, cdev) := s.cdev.usbCompositeSetupContinue
  if queued then
    (({ s with cdev := cdev }.rewrite .req fun q => { q with length := 0 }).compositeEp0Queue
      .req).map Prod.snd
  else some { s with cdev := cdev }

/-- `rts_usb_setup_process`, and `setup` of the gadget driver for what it hands on. -/
def setup (highSpeed : Bool) (ctrl : SetupPacket) (ans : Answers) (own : Option UInt32) :
    Option OnRts :=
  match rtsUsbSetupProcess noCallbacks highSpeed ctrl (s.udc.readSetup ctrl) true with
  | .ret ret udc _ =>
    let v : OnRts := { s with udc := udc }
    if ret = 0 then some v
    else (v.compositeSetup ctrl ans own).map fun (value, v) =>
      if value < 0 then { v with udc := v.udc.rtsSetCxstall } else v
  | _ => none

/-- `rts_ep0_transfer_process`.  For a request of the core that it gives back,
`composite_setup_complete` is called. -/
def ep0Irq : Option OnRts :=
  match rtsEp0TransferProcess noCallbacks ep0 s.udc true with
  | .ret _ udc _ =>
    some
      { s with
        udc := udc
        pending := fun r => s.pending r && !(s.linked r && !decide (r.id ∈ (udc.ep ep0).queue)) }
  | _ => none

/-- The steps.  A function queues only requests of its own, and only while they are not linked. -/
def step (s : OnRts) : OnRtsEvent → Option OnRts
  | .setup highSpeed ctrl ans own => s.setup highSpeed ctrl ans own
  | .setupContinue => s.usbCompositeSetupContinue
  | .ep0Irq => s.ep0Irq
  | .functionQueue r length =>
    if r = ep0Req ∨ r = CoreReq.req.id ∨ r = CoreReq.osDescReq.id ∨ r ∈ (s.udc.ep ep0).queue then
      none
    else s.functionQueue r length
  | .disconnect => some { s with cdev := s.cdev.compositeDisconnect }

/-- The driver after its probe, with the composite core as its gadget driver. -/
def start (cdev : CompositeDev) (dynamicMaxpktsize : Bool) (driver : Udc.GadgetDriver) : OnRts where
  cdev := cdev
  udc := { Udc.probed dynamicMaxpktsize with gadgetDriver := some driver }
  pending _ := false
  touches := []

/-- What should hold: `cdev->req` was never touched while it was linked. -/
def Untouched (s : OnRts) : Prop := ∀ t ∈ s.touches, t.req = .req → t.linked = false

/-- The UDC driver hands the SETUP packet on to the gadget driver. -/
def delegated (ctrl : SetupPacket) : Bool :=
  !(requestType ctrl == 0 && ctrl.bRequest ∈ [0x00, 0x01, 0x03, 0x05])

/-- The steps that spare `cdev->req` while it is linked: no SETUP packet that the core gets, and
does not turn away at once, and no continue that is the last that the core waits for. -/
def Spared (s : OnRts) : OnRtsEvent → Prop
  | .setup _ ctrl _ _ => delegated ctrl = true → ¬ tooLong ctrl → s.linked .req = false
  | .setupContinue => s.cdev.delayedStatus = 1 → s.linked .req = false
  | _ => True

/-! ## The UDC driver below -/

/-- What an operation on `r` leaves on ep0: its number, and the other requests on its queue. -/
structure Ep0Keeps (r : ReqId) (u v : Udc) : Prop where
  epnum : (u.ep ep0).epnum = 0 → (v.ep ep0).epnum = 0
  other : ∀ r', r' ≠ r → (r' ∈ (v.ep ep0).queue ↔ r' ∈ (u.ep ep0).queue)

section Ep0

variable {u v w : Udc} {r : ReqId}

theorem Ep0Keeps.trans (h : Ep0Keeps r u v) (h' : Ep0Keeps r v w) : Ep0Keeps r u w where
  epnum h0 := h'.epnum (h.epnum h0)
  other r' hr := (h'.other r' hr).trans (h.other r' hr)

theorem ep0Keeps_of_eq (r : ReqId) (hnum : (v.ep ep0).epnum = (u.ep ep0).epnum)
    (hqueue : (v.ep ep0).queue = (u.ep ep0).queue) : Ep0Keeps r u v :=
  ⟨hnum.trans, fun _ _ => by rw [hqueue]⟩

theorem ep0Keeps_of_silent (r : ReqId) (h : Udc.Silent u v) : Ep0Keeps r u v :=
  ep0Keeps_of_eq r (h.epnum ep0) (h.queue ep0)

theorem setFilterout_returns (r : ReqId) (u : Udc) :
    (Udc.setFilterout noCallbacks r u true).Returns true fun _ v => Ep0Keeps r u v := by
  have hrefl : Ep0Keeps r u u := ep0Keeps_of_eq r rfl rfl
  unfold Udc.setFilterout
  rw [LockLogic.get_bind]
  split
  · exact ⟨rfl, hrefl⟩
  · show Outcome.Returns true _ ((if u.filterAnswer r ≠ 0 then _ else _ : Prog Udc Int) u false)
    split
    · exact ⟨rfl, ep0Keeps_of_eq r rfl rfl⟩
    · exact ⟨rfl, hrefl⟩

theorem rtsDoneUnlink_ep0 (r : ReqId) (status : Int) :
    ((u.rtsDoneUnlink ep0 r status).ep ep0).epnum = (u.ep ep0).epnum ∧
      Ep0Keeps r u (u.rtsDoneUnlink ep0 r status) := by
  have hep : (u.rtsDoneUnlink ep0 r status).ep ep0 =
      { u.ep ep0 with queue := (u.ep ep0).queue.erase r, stopped := true } := by
    unfold Udc.rtsDoneUnlink
    dsimp only [Udc.setReq]
    rw [Udc.setEp_ep_self]
    rfl
  have hnum : ((u.rtsDoneUnlink ep0 r status).ep ep0).epnum = (u.ep ep0).epnum := by rw [hep]
  exact ⟨hnum, hnum.trans, fun r' hr => by rw [hep]; exact List.mem_erase_of_ne hr⟩

theorem ep0Keeps_rtsDoneLeave (r : ReqId) (v : Udc) (stopped : Bool) :
    Ep0Keeps r v (v.rtsDoneLeave ep0 stopped) := by
  have hsilent := Udc.silent_setEp (f := fun x => { x with stopped := stopped }) fun _ => rfl
  unfold Udc.rtsDoneLeave
  dsimp only
  split
  · exact ep0Keeps_of_eq r ((hsilent _ ep0).epnum ep0) ((hsilent _ ep0).queue ep0)
  · exact ep0Keeps_of_silent r (hsilent v ep0)

theorem rtsDone_returns (r : ReqId) (status : Int) (h0 : (u.ep ep0).epnum = 0) :
    (Udc.rtsDone noCallbacks ep0 r status u true).Returns true fun _ v => Ep0Keeps r u v := by
  obtain ⟨hnum, hunlink⟩ := rtsDoneUnlink_ep0 (u := u) r status
  -- the callback, with the lock dropped, and what follows it
  have htail : ∀ v, Ep0Keeps r u v → Outcome.Returns true (fun _ w => Ep0Keeps r u w) ((do
      LockLogic.spinUnlock
      LockLogic.callback fun v =>
        ((), noCallbacks.complete ep0 r (v.emit (.giveback ep0 r (u.doneStatus status))))
      LockLogic.spinLock
      LockLogic.modify fun v => v.rtsDoneLeave ep0 (u.ep ep0).stopped : Prog Udc Unit) v true) := by
    intro v hv
    have hcallback : Ep0Keeps r v (v.emit (.giveback ep0 r (u.doneStatus status))) :=
      ep0Keeps_of_eq r rfl rfl
    exact ⟨rfl, (hv.trans hcallback).trans (ep0Keeps_rtsDoneLeave r _ (u.ep ep0).stopped)⟩
  have hdone : ∀ v, Ep0Keeps r u v → Ep0Keeps r u v.rtsSetCxdone := fun v hv =>
    hv.trans (ep0Keeps_of_eq r rfl rfl)
  unfold Udc.rtsDone
  rw [LockLogic.get_bind, LockLogic.modify_bind, LockLogic.get_bind]
  dsimp only
  rw [if_neg (not_not.mpr (hnum.trans h0))]
  split
  · exact htail _ (hdone _ hunlink)
  · refine returns_bind (setFilterout_returns r _) fun filtered v hv => ?_
    split
    · exact htail _ (hdone _ (hunlink.trans hv))
    · exact htail _ (hunlink.trans hv)

theorem rtsEpQueue_returns (r : ReqId) (h0 : (u.ep ep0).epnum = 0) :
    (rtsEpQueue noCallbacks ep0 r 0 u false).Returns false fun ret v =>
      ret = 0 ∧ Ep0Keeps r u v := by
  have hlink : Ep0Keeps r u (u.rtsEpQueueLink ep0 r) := by
    have hep : (u.rtsEpQueueLink ep0 r).ep ep0 =
        { u.ep ep0 with queue := (u.ep ep0).queue ++ [r] } := by
      unfold Udc.rtsEpQueueLink
      dsimp only [Udc.emit, Udc.setReq, Udc.listAddTail]
      rw [Udc.setEp_ep_self]
    refine ⟨fun h => by rw [hep]; exact h, fun r' hr => ?_⟩
    rw [hep]
    show r' ∈ (u.ep ep0).queue ++ [r] ↔ _
    rw [List.mem_append, List.mem_singleton, or_iff_left hr]
  have hrest : ∀ (b : Bool) (v : Udc), Ep0Keeps r u v → Outcome.Returns false
      (fun ret w => ret = 0 ∧ Ep0Keeps r u w) ((do
        let w ← LockLogic.get
        LockLogic.modify fun w => w.rtsEpQueueStart ep0 r b
        LockLogic.spinUnlock
        pure (if Udc.usesDma (w.ep ep0) then 0 else 0) : Prog Udc Int) v true) := by
    intro b v hv
    refine ⟨rfl, ite_self _, hv.trans ?_⟩
    exact ep0Keeps_of_silent r (Udc.silent_rtsEpQueueStart v ep0 r b)
  unfold rtsEpQueue
  rw [LockLogic.spinLock_bind, LockLogic.get_bind, LockLogic.modify_bind, if_pos h0]
  refine returns_bind (Q := fun _ v => Ep0Keeps r u v) ?_ fun _ v hv => hrest _ v hv
  unfold Udc.rtsEp0Queue
  rw [LockLogic.get_bind]
  split
  · exact (rtsDone_returns r 0 (hlink.epnum h0)).mono fun _ v hv => hlink.trans hv
  · refine ⟨rfl, hlink.trans (ep0Keeps_of_eq r ?_ ?_)⟩
    · unfold Udc.rtsStartEp0Transfer
      dsimp only
      split <;> rfl
    · exact (Udc.calm_rtsStartEp0Transfer _ ep0 r).queue ep0

theorem rtsEp0TransferProcess_returns (h0 : (u.ep ep0).epnum = 0) :
    (rtsEp0TransferProcess noCallbacks ep0 u true).Returns true fun _ v =>
      (v.ep ep0).epnum = 0 := by
  unfold rtsEp0TransferProcess
  rw [LockLogic.get_bind]
  cases (u.ep ep0).queue with
  | nil => exact ⟨rfl, h0⟩
  | cons r rest =>
    dsimp only
    rw [LockLogic.modify_bind, LockLogic.get_bind]
    have hadvance : ((u.ep0Advance ep0 r).ep ep0).epnum = 0 := by
      unfold Udc.ep0Advance
      dsimp only
      split
      · exact h0
      · exact h0
    split
    · exact (rtsDone_returns r 0 hadvance).mono fun _ v hv => hv.epnum hadvance
    · refine ⟨rfl, ?_⟩
      unfold Udc.rtsStartEp0Transfer
      dsimp only
      split
      · exact hadvance
      · exact hadvance

theorem rtsUsbSetupProcess_delegated {ctrl : SetupPacket} (hs : Bool)
    (h : delegated ctrl = true) :
    ∃ v, rtsUsbSetupProcess noCallbacks hs ctrl u true = .ret 1 v true ∧
      (v.ep ep0).epnum = (u.ep ep0).epnum ∧ (v.ep ep0).queue = (u.ep ep0).queue := by
  have hsilent := Udc.silent_setEp
    (f := fun x => { x with dirIn := ctrl.bRequestType &&& 0x80 ≠ 0 }) (fun _ => rfl) u ep0
  refine ⟨_, ?_, hsilent.epnum ep0, hsilent.queue ep0⟩
  unfold rtsUsbSetupProcess
  rw [LockLogic.modify_bind]
  by_cases htype : ctrl.bRequestType &&& 0x60 = 0
  · have hreq : ctrl.bRequest ∉ [0x00, 0x01, 0x03, 0x05] := by
      intro hmem
      unfold delegated requestType at h
      rw [htype, decide_eq_true hmem] at h
      exact Bool.noConfusion h
    rw [if_pos htype]
    unfold Udc.rtsUsbEp0StandardRequest
    rw [if_neg fun heq => hreq (by simp [heq]), if_neg fun heq => hreq (by simp [heq]),
      if_neg fun heq => hreq (by simp [heq]), if_neg fun heq => hreq (by simp [heq])]
    rfl
  · rw [if_neg htype]
    rfl

theorem rtsUsbSetupProcess_ret {ctrl : SetupPacket} (hs : Bool) (h : delegated ctrl = false) :
    (rtsUsbSetupProcess noCallbacks hs ctrl u true).Post fun ret _ _ => ret = 0 := by
  have hpure : ∀ (p : Prog Udc Unit) (v : Udc),
      ((p >>= fun _ => (pure 0 : Prog Udc Int)) v true).Post fun ret _ _ => ret = 0 := by
    intro p v
    refine LockLogic.post_bind (Q := fun _ _ _ => True) ?_ fun _ _ _ _ => rfl
    cases p v true <;> trivial
  unfold delegated requestType at h
  rw [Bool.not_eq_false', Bool.and_eq_true, beq_iff_eq, decide_eq_true_eq] at h
  obtain ⟨htype, hreq⟩ := h
  unfold rtsUsbSetupProcess
  rw [LockLogic.modify_bind, if_pos htype]
  unfold Udc.rtsUsbEp0StandardRequest
  split
  · exact hpure _ _
  · next h0 =>
    split
    · exact hpure _ _
    · next h1 =>
      split
      · exact hpure _ _
      · next h3 =>
        split
        · exact hpure _ _
        · next h5 => simp [h0, h1, h3, h5] at hreq

theorem rtsUsbSetupProcess_kept {ctrl : SetupPacket} (hs : Bool) (h0 : (u.ep ep0).epnum = 0)
    (h : delegated ctrl = false) :
    (rtsUsbSetupProcess noCallbacks hs ctrl u true).Post fun ret v _ =>
      ret = 0 ∧ (v.ep ep0).epnum = 0 := by
  have heffect := Udc.rtsUsbSetupProcess_post hs ctrl u
  have hzero := rtsUsbSetupProcess_ret (u := u) hs h
  cases hrun : rtsUsbSetupProcess noCallbacks hs ctrl u true with
  | ret ret v held =>
    rw [hrun] at heffect hzero
    refine ⟨hzero, ?_⟩
    rcases heffect.1 with hsilent | ⟨-, w, hsilent, hlen, hqueue⟩
    · exact (hsilent.epnum ep0).trans h0
    · have hw : (w.ep ep0).epnum = 0 := (hsilent.epnum ep0).trans h0
      have hne : (w.req ep0Req).length ≠ 0 := by
        rw [hlen]
        decide
      obtain ⟨a, x, hret, hx⟩ := Udc.rtsEpQueue_eq noCallbacks ep0 ep0Req 0 [] (.inr hne)
      have hreturns := rtsEpQueue_returns ep0Req hw
      rw [hret] at hreturns
      obtain rfl : x = v := congrArg Machine.udc (hx.symm.trans (hqueue []))
      exact hreturns.2.2.epnum hw
  | deadlock => trivial
  | fault => trivial
  | hang => trivial

end Ep0

/-! ## The core above -/

variable {s t : OnRts}

/-- The accesses of a step touch `cdev->req`, and the requests are linked as they were at the
start. -/
def Touches (s t : OnRts) : Prop :=
  ∃ new, t.touches = new ++ s.touches ∧ (∀ a ∈ new, a.linked = s.linked a.req) ∧
    ∃ a ∈ new, a.req = .req

theorem Touches.untouched_after_iff (h : Touches s t) (hs : Untouched s) :
    Untouched t ↔ s.linked .req = false := by
  obtain ⟨new, htouches, hnew, a, ha, hreq⟩ := h
  unfold Untouched
  rw [htouches]
  constructor
  · intro hok
    have hlinked := hnew a ha
    rw [hreq] at hlinked
    exact hlinked.symm.trans (hok a (List.mem_append_left _ ha) hreq)
  · intro hfree b hb hbreq
    rcases List.mem_append.mp hb with hb | hb
    · have hlinked := hnew b hb
      rw [hbreq] at hlinked
      exact hlinked.trans hfree
    · exact hs b hb hbreq

/-- Ep0 is the control endpoint. -/
def Ep0Zero (s : OnRts) : Prop := (s.udc.ep ep0).epnum = 0

theorem entry_rtsEpQueue {u : Udc} (r : ReqId) (h0 : (u.ep ep0).epnum = 0) :
    ∃ v, entry (rtsEpQueue noCallbacks ep0 r 0) u = some (0, v) ∧ (v.ep ep0).epnum = 0 := by
  obtain ⟨ret, v, hrun, rfl, hkeeps⟩ := (rtsEpQueue_returns r h0).exists_eq
  refine ⟨v, ?_, hkeeps.epnum h0⟩
  unfold entry
  rw [hrun]

theorem compositeEp0Queue_eq (r : CoreReq) (h0 : Ep0Zero s) :
    ∃ t, s.compositeEp0Queue r = some (0, t) ∧ Ep0Zero t ∧
      t.touches = ⟨.queue, r, s.linked r⟩ :: s.touches := by
  obtain ⟨v, hentry, hv⟩ := entry_rtsEpQueue r.id h0
  unfold compositeEp0Queue
  rw [hentry]
  exact ⟨_, rfl, hv, rfl⟩

theorem functionQueue_eq (r : ReqId) (length : UInt32) (h0 : Ep0Zero s) :
    ∃ t, s.functionQueue r length = some t ∧ Ep0Zero t ∧ t.touches = s.touches := by
  obtain ⟨v, hentry, hv⟩ := entry_rtsEpQueue
    (u := s.udc.setReq r fun q => { q with length := length }) r h0
  unfold functionQueue
  rw [hentry]
  exact ⟨_, rfl, hv, rfl⟩

/-- **`composite_setup`** touches `cdev->req`, unless it turns the packet away. -/
theorem compositeSetup_eq (ctrl : SetupPacket) (ans : Answers) (own : Option UInt32)
    (h0 : Ep0Zero s) :
    ∃ value t, s.compositeSetup ctrl ans own = some (value, t) ∧ Ep0Zero t ∧
      (tooLong ctrl → t.touches = s.touches) ∧ (¬ tooLong ctrl → Touches s t) := by
  unfold compositeSetup
  dsimp only
  by_cases hlong : tooLong ctrl
  · rw [if_pos hlong]
    exact ⟨_, _, rfl, h0, fun _ => rfl, fun h => absurd hlong h⟩
  rw [if_neg hlong]
  have hfirst : ∀ v : OnRts, v.touches = ⟨.rewrite, .req, s.linked .req⟩ :: s.touches →
      Touches s v := fun v hv =>
    ⟨[_], hv, fun a ha => List.mem_singleton.mp ha ▸ rfl, _, List.mem_singleton_self _, rfl⟩
  split
  · next r value heq =>
    obtain ⟨t, hrun, ht, htouches⟩ := compositeEp0Queue_eq (s := OnRts.rewrite (OnRts.rewrite
      { s with cdev := (s.cdev.compositeSetup ctrl ans).cdev } .req
        fun q => { q with length := 0, zero := false }) r fun q =>
          { q with length := UInt32.ofNat value.toNat, zero := value < wLength ctrl }) r h0
    refine ⟨0, t, hrun, ht, fun h => absurd h hlong, fun _ => ?_⟩
    refine ⟨[⟨.queue, r, s.linked r⟩, ⟨.rewrite, r, s.linked r⟩,
      ⟨.rewrite, .req, s.linked .req⟩], htouches, ?_, ⟨.rewrite, .req, s.linked .req⟩, ?_, rfl⟩
    · simp
    · simp
  · next length heq =>
    by_cases hsetups : (s.cdev.compositeSetup ctrl ans).setups = []
    · rw [if_pos hsetups]
      exact ⟨_, _, rfl, h0, fun h => absurd h hlong, fun _ => hfirst _ rfl⟩
    · rw [if_neg hsetups]
      obtain ⟨t, hrun, ht, htouches⟩ := functionQueue_eq (s := OnRts.rewrite
        { s with cdev := (s.cdev.compositeSetup ctrl ans).cdev } .req
          fun q => { q with length := 0, zero := false }) CoreReq.req.id length h0
      rw [hrun]
      exact ⟨_, t, rfl, ht, fun h => absurd h hlong, fun _ => hfirst t htouches⟩
  · exact ⟨_, _, rfl, h0, fun h => absurd h hlong, fun _ => hfirst _ rfl⟩

theorem usbCompositeSetupContinue_eq (h0 : Ep0Zero s) :
    ∃ t, s.usbCompositeSetupContinue = some t ∧ Ep0Zero t ∧
      (s.cdev.delayedStatus ≠ 1 → t.touches = s.touches) ∧
      (s.cdev.delayedStatus = 1 → Touches s t) := by
  unfold usbCompositeSetupContinue CompositeDev.usbCompositeSetupContinue
  by_cases hzero : s.cdev.delayedStatus = 0
  · rw [if_pos hzero]
    exact ⟨_, rfl, h0, fun _ => rfl, fun h => by omega⟩
  rw [if_neg hzero]
  dsimp only
  by_cases hone : s.cdev.delayedStatus = 1
  · rw [if_pos (decide_eq_true hone)]
    obtain ⟨t, hrun, ht, htouches⟩ := compositeEp0Queue_eq (s := OnRts.rewrite
      { s with cdev := { s.cdev with delayedStatus := s.cdev.delayedStatus - 1 } } .req
        fun q => { q with length := 0 }) .req h0
    rw [hrun]
    refine ⟨t, rfl, ht, fun h => absurd hone h, fun _ => ?_⟩
    refine ⟨[⟨.queue, .req, s.linked .req⟩, ⟨.rewrite, .req, s.linked .req⟩], htouches, ?_,
      ⟨.rewrite, .req, s.linked .req⟩, ?_, rfl⟩
    · simp
    · simp
  · rw [if_neg fun h => hone (of_decide_eq_true h)]
    exact ⟨_, rfl, h0, fun _ => rfl, fun h => absurd h hone⟩

/-- **A SETUP packet** touches `cdev->req` if it is handed on and not turned away. -/
theorem setup_eq (hs : Bool) (ctrl : SetupPacket) (ans : Answers) (own : Option UInt32)
    (h0 : Ep0Zero s) (hdel : delegated ctrl = true) :
    ∃ t, s.setup hs ctrl ans own = some t ∧ Ep0Zero t ∧
      (tooLong ctrl → t.touches = s.touches) ∧ (¬ tooLong ctrl → Touches s t) := by
  obtain ⟨v, hrun, hnum, hqueue⟩ :=
    rtsUsbSetupProcess_delegated (u := s.udc.readSetup ctrl) hs hdel
  have hlinked : ∀ r, OnRts.linked { s with udc := v } r = s.linked r := by
    intro r
    unfold linked
    dsimp only
    rw [hqueue]
    rfl
  obtain ⟨value, t, hsetup, ht, hlong, htouch⟩ :=
    compositeSetup_eq (s := { s with udc := v }) ctrl ans own (hnum.trans h0)
  have htouches : ∀ t' : OnRts, t'.touches = t.touches →
      (tooLong ctrl → t'.touches = s.touches) ∧ (¬ tooLong ctrl → Touches s t') := by
    refine fun t' heq => ⟨fun h => heq.trans (hlong h), fun h => ?_⟩
    obtain ⟨new, hnew, hall, hex⟩ := htouch h
    exact ⟨new, heq.trans hnew, fun a ha => (hall a ha).trans (hlinked a.req), hex⟩
  unfold setup
  rw [hrun]
  dsimp only
  rw [if_neg (by decide), hsetup, Option.map_some]
  dsimp only
  split
  · exact ⟨_, rfl, ht, htouches _ rfl⟩
  · exact ⟨_, rfl, ht, htouches _ rfl⟩

theorem setup_kept {hs : Bool} {ctrl : SetupPacket} {ans : Answers} {own : Option UInt32}
    (h0 : Ep0Zero s) (hdel : delegated ctrl = false) (hstep : s.setup hs ctrl ans own = some t) :
    Ep0Zero t ∧ t.touches = s.touches := by
  have hpost := rtsUsbSetupProcess_kept (u := s.udc.readSetup ctrl) hs h0 hdel
  unfold setup at hstep
  cases hrun : rtsUsbSetupProcess noCallbacks hs ctrl (s.udc.readSetup ctrl) true with
  | ret ret v held =>
    rw [hrun] at hstep hpost
    obtain ⟨rfl, hnum⟩ := hpost
    obtain ⟨⟩ := hstep
    exact ⟨hnum, rfl⟩
  | deadlock =>
    rw [hrun] at hstep
    exact nomatch hstep
  | fault =>
    rw [hrun] at hstep
    exact nomatch hstep
  | hang =>
    rw [hrun] at hstep
    exact nomatch hstep

theorem step_kept {e : OnRtsEvent} (h0 : Ep0Zero s) (hstep : s.step e = some t)
    (he : ∀ hs ctrl ans own, e ≠ .setup hs ctrl ans own) (he' : e ≠ .setupContinue) :
    Ep0Zero t ∧ t.touches = s.touches := by
  cases e with
  | setup hs ctrl ans own => exact absurd rfl (he hs ctrl ans own)
  | setupContinue => exact absurd rfl he'
  | ep0Irq =>
    obtain ⟨a, v, hrun, hnum⟩ := (rtsEp0TransferProcess_returns h0).exists_eq
    unfold step ep0Irq at hstep
    dsimp only at hstep
    rw [hrun] at hstep
    obtain ⟨⟩ := hstep
    exact ⟨hnum, rfl⟩
  | functionQueue r length =>
    obtain ⟨-, hqueue⟩ := Option.ite_none_left_eq_some.mp hstep
    obtain ⟨t', hrun, ht, htouches⟩ := functionQueue_eq r length h0
    obtain rfl : t' = t := Option.some.inj (hrun.symm.trans hqueue)
    exact ⟨ht, htouches⟩
  | disconnect =>
    obtain ⟨⟩ := hstep
    exact ⟨h0, rfl⟩

/-- Every event keeps ep0 the control endpoint. -/
theorem Ep0Zero.step {e : OnRtsEvent} (h0 : Ep0Zero s) (hstep : s.step e = some t) :
    Ep0Zero t := by
  cases e with
  | setup hs ctrl ans own =>
    cases hdel : delegated ctrl with
    | true =>
      obtain ⟨t', hrun, ht, -⟩ := setup_eq hs ctrl ans own h0 hdel
      exact Option.some.inj (hrun.symm.trans hstep) ▸ ht
    | false => exact (setup_kept h0 hdel hstep).1
  | setupContinue =>
    obtain ⟨t', hrun, ht, -⟩ := usbCompositeSetupContinue_eq h0
    exact Option.some.inj (hrun.symm.trans hstep) ▸ ht
  | ep0Irq => exact (step_kept h0 hstep (fun _ _ _ _ => nofun) nofun).1
  | functionQueue r length => exact (step_kept h0 hstep (fun _ _ _ _ => nofun) nofun).1
  | disconnect => exact (step_kept h0 hstep (fun _ _ _ _ => nofun) nofun).1

theorem Untouched.of_touches_eq (hs : Untouched s) (h : t.touches = s.touches) : Untouched t :=
  fun a ha => hs a (h ▸ ha)

/-- **The step lemma.**  A step leaves `cdev->req` untouched while it is linked just when it spares
it. -/
theorem step_untouched_iff (h0 : Ep0Zero s) (hs : Untouched s) (e : OnRtsEvent) :
    (∀ t, s.step e = some t → Untouched t) ↔ Spared s e := by
  have hone : ∀ t, s.step e = some t →
      ((∀ t, s.step e = some t → Untouched t) ↔ Untouched t) := by
    intro t ht
    simp only [ht, Option.some.injEq, forall_eq']
  cases e with
  | setup highSpeed ctrl ans own =>
    cases hdel : delegated ctrl with
    | true =>
      obtain ⟨t, hrun, -, hlong, htouch⟩ := setup_eq highSpeed ctrl ans own h0 hdel
      rw [hone t hrun]
      by_cases h : tooLong ctrl
      · exact iff_of_true (hs.of_touches_eq (hlong h)) fun _ hn => absurd h hn
      · rw [(htouch h).untouched_after_iff hs]
        exact ⟨fun hfree _ _ => hfree, fun hspared => hspared hdel h⟩
    | false =>
      refine iff_of_true (fun t ht => ?_) fun htrue => ?_
      · exact hs.of_touches_eq (setup_kept h0 hdel ht).2
      · exact Bool.noConfusion (hdel.symm.trans htrue)
  | setupContinue =>
    obtain ⟨t, hrun, -, hother, hlast⟩ := usbCompositeSetupContinue_eq h0
    rw [hone t hrun]
    by_cases h : s.cdev.delayedStatus = 1
    · rw [(hlast h).untouched_after_iff hs]
      exact ⟨fun hfree _ => hfree, fun hspared => hspared h⟩
    · exact iff_of_true (hs.of_touches_eq (hother h)) fun hn => absurd hn h
  | ep0Irq =>
    refine iff_of_true (fun t ht => hs.of_touches_eq ?_) trivial
    exact (step_kept h0 ht (fun _ _ _ _ => nofun) nofun).2
  | functionQueue r length =>
    refine iff_of_true (fun t ht => hs.of_touches_eq ?_) trivial
    exact (step_kept h0 ht (fun _ _ _ _ => nofun) nofun).2
  | disconnect =>
    refine iff_of_true (fun t ht => hs.of_touches_eq ?_) trivial
    exact (step_kept h0 ht (fun _ _ _ _ => nofun) nofun).2

/-- **The response request.**  In every state of a run the core has not touched `cdev->req` while it
was linked on ep0, just when every step of the run spares it. -/
theorem untouched_iff (cdev : CompositeDev) (dynamicMaxpktsize : Bool) (driver : Udc.GadgetDriver)
    (es : List OnRtsEvent) :
    (∀ es₁ es₂ s, es = es₁ ++ es₂ →
      exec step (start cdev dynamicMaxpktsize driver) es₁ = some s → Untouched s) ↔
      Along step Spared (start cdev dynamicMaxpktsize driver) es := by
  have hstart : Untouched (start cdev dynamicMaxpktsize driver) := fun _ h =>
    absurd h List.not_mem_nil
  rw [Runs.forall_reached_iff, and_iff_right hstart]
  refine Along.congr (P := fun s => Ep0Zero s ∧ Untouched s) ?_
    (fun s e h => step_untouched_iff h.1 h.2 e) ⟨rfl, hstart⟩
  rintro s e t ⟨h0, -⟩ hstep ht
  exact ⟨h0.step ht, hstep t ht⟩

/-- A device without configurations. -/
def bareDevice : CompositeDev where
  fn _ := {}
  configs := []

/-- The host asks for the device descriptor. -/
def getDeviceDescriptor : OnRtsEvent := .setup true ⟨0x80, 0x06, 0x0100, 0, 18⟩ {} none

/-- The host asks for the device descriptor twice, without taking the first answer: the request is
rewritten and queued a second time while it is linked, and is on the queue twice. -/
theorem not_untouched :
    ∃ s, exec step (start bareDevice false {}) [getDeviceDescriptor, getDeviceDescriptor] =
        some s ∧
      ¬ Untouched s ∧ ⟨.queue, .req, true⟩ ∈ s.touches ∧
      (s.udc.ep ep0).queue = [CoreReq.req.id, CoreReq.req.id] := by
  have hobs : (exec step (start bareDevice false {})
      [getDeviceDescriptor, getDeviceDescriptor]).map
        (fun s => (decide (⟨.queue, .req, true⟩ ∈ s.touches), (s.udc.ep ep0).queue)) =
      some (true, [CoreReq.req.id, CoreReq.req.id]) := by decide +kernel
  obtain ⟨s, hrun, hs⟩ := Option.map_eq_some_iff.mp hobs
  obtain ⟨htouch, hqueue⟩ := Prod.ext_iff.mp hs
  have hmem := of_decide_eq_true htouch
  exact ⟨s, hrun, fun h => Bool.noConfusion (h _ hmem rfl), hmem, hqueue⟩

end OnRts

end RealtekIpcam.Composite
