import RealtekIpcam.Udc.TableIndex

/-!
# The discipline of `rts_udc.lock`

Every entry point must come back with the lock released, and nothing may acquire it while it is
held.  Both are read off the programs of `Udc.Program` with the rules of `LockLogic`: each helper is
`Safe true true`, since it is entered and left with the lock held however often it drops it in
between, and each entry point is `Safe false false`.

Two places do not follow the rules.  `rts_gadget_udc_start` returns `-EBUSY` without releasing the
lock, and CLEAR_FEATURE on a halted endpoint reaches `rts_set_halt_and_wedge`, which takes the lock,
from the interrupt handler, which holds it.  A SETUP packet can also make the handler follow a
pointer that is not there: one past the end of an endpoint table, or that of a gadget driver when
none is bound.  What happens then is undefined and does not count as keeping the discipline.
`disciplined_iff` says that this is all: it is the exact condition under which an entry point keeps
the discipline.
-/

namespace RealtekIpcam.Udc

open LockLogic

/-- The functions of the driver that take the lock.  The fuel of `rts_ep_disable` bounds its loop,
which goes on as long as callbacks queue new requests. -/
inductive EntryPoint where
  | epQueue (e : EpId) (r : ReqId) (mapped : Int)
  | epDequeue (e : EpId) (r : ReqId)
  | epDisable (e : EpId) (fuel : Nat)
  | setHaltAndWedge (e : EpId) (value wedge : Bool)
  | udcStart (driver : GadgetDriver)
  | udcStop
  | pullup (isOn : Bool)
  | vbusSession (isActive : Bool)
  | epIrq (st : IrqStatus)

/-- Called with the lock free, the entry point never acquires the lock while it is held and never
follows an undefined pointer, and if it returns the lock is free again. -/
def EntryPoint.Disciplined (g : Callbacks) (u : Udc) : EntryPoint → Prop
  | .epQueue e r mapped => (rtsEpQueue g e r mapped u false).Ok false fun _ _ => True
  | .epDequeue e r => (rtsEpDequeue g e r u false).Ok false fun _ _ => True
  | .epDisable e fuel => (rtsEpDisable g e fuel u false).Ok false fun _ _ => True
  | .setHaltAndWedge e value wedge =>
    (rtsSetHaltAndWedge e value wedge u false).Ok false fun _ _ => True
  | .udcStart driver => (rtsGadgetUdcStart driver u false).Ok false fun _ _ => True
  | .udcStop => (rtsGadgetUdcStop u false).Ok false fun _ _ => True
  | .pullup isOn => (rtsGadgetPullup isOn u false).Ok false fun _ _ => True
  | .vbusSession isActive => (rtsGadgetVbusSession isActive u false).Ok false fun _ _ => True
  | .epIrq st => (rtsUsbEpIrq g st u false).Ok false fun _ _ => True

/-- CLEAR_FEATURE for an endpoint that is halted and not wedged. -/
def ClearsHalt (ctrl : SetupPacket) (u : Udc) : Prop :=
  ctrl.bRequestType &&& 0x60 = 0 ∧ ctrl.bRequest = 0x01 ∧ recipient ctrl = 2 ∧
    targetsEp0 ctrl = false ∧
    ∃ e, targetSlot ctrl = some e ∧ (u.ep e).stall = true ∧ (u.ep e).wedged = false

/-- The state in which the interrupt handler looks at the SETUP packet: after a bus reset, the
gadget driver's `reset` has run. -/
def afterSe0 (g : Callbacks) (st : IrqStatus) (u : Udc) : Udc :=
  if st.se0rst = true ∧ u.gadgetDriver.isSome = true then g.reset u else u

/-- What the packet makes the handler follow is there: the entry of an endpoint table, or the gadget
driver to which the packet is handed on. -/
def Followable (ctrl : SetupPacket) (u : Udc) : Prop :=
  if ctrl.bRequestType &&& 0x60 = 0 ∧ ctrl.bRequest = 0x01 then InTable ctrl
  else if ctrl.bRequestType &&& 0x60 = 0 ∧ (ctrl.bRequest = 0x00 ∨ ctrl.bRequest = 0x03) then
    recipient ctrl = 2 → InTable ctrl
  else if ctrl.bRequestType &&& 0x60 = 0 ∧ ctrl.bRequest = 0x05 then True
  else u.gadgetDriver.isSome = true

/-- The condition under which an entry point keeps the discipline. -/
def EntryPoint.Disciplinable (g : Callbacks) (u : Udc) : EntryPoint → Prop
  | .udcStart _ => u.gadgetDriver = none
  | .epIrq st => st.setupf = true →
    ¬ ClearsHalt st.ctrl (afterSe0 g st u) ∧ Followable st.ctrl (afterSe0 g st u)
  | _ => True

variable (g : Callbacks)

/-! ## Completion -/

theorem safe_setFilterout (r : ReqId) : Safe true true (setFilterout g r) := by
  unfold setFilterout
  refine .bind (.get true) fun u => ?_
  refine .ite (.pure true 0) ?_
  refine .bind (.spinUnlock true) fun _ => ?_
  refine .bind (.callback _) fun retval => ?_
  dsimp only
  refine .ite ?_ ?_
  · exact .bind (.modify false _) fun _ => .bind .spinLock fun _ => .pure true _
  · exact .bind .spinLock fun _ => .pure true _

theorem safe_rtsDone (e : EpId) (r : ReqId) (status : Int) :
    Safe true true (rtsDone g e r status) := by
  have hcallback (before : Udc) : Safe true true (do
      spinUnlock
      callback fun u => ((), g.complete e r (u.emit (.giveback e r (before.doneStatus status))))
      spinLock
      modify fun u => u.rtsDoneLeave e (before.ep e).stopped : Prog Udc Unit) :=
    .bind (.spinUnlock true) fun _ => .bind (.callback _) fun _ =>
      .bind .spinLock fun _ => .modify true _
  unfold rtsDone
  refine .bind (.get true) fun before => ?_
  refine .bind (.modify true _) fun _ => ?_
  refine .bind (.get true) fun u => ?_
  dsimp only
  refine .ite ?_ (.ite ?_ ?_)
  · exact .bind (.modify true _) fun _ => hcallback before
  · exact .bind (.modify true _) fun _ => hcallback before
  · refine .bind (safe_setFilterout g r) fun filtered => ?_
    refine .ite ?_ (hcallback before)
    exact .bind (.modify true _) fun _ => hcallback before

/-! ## Entry points of an endpoint -/

theorem safe_rtsEp0Queue (e : EpId) (r : ReqId) : Safe true true (rtsEp0Queue g e r) := by
  unfold rtsEp0Queue
  exact .bind (.get true) fun _ =>
    .ite (safe_rtsDone g e r 0) (.modify true _)

theorem safe_rtsEpQueue (e : EpId) (r : ReqId) (mapped : Int) :
    Safe false false (rtsEpQueue g e r mapped) := by
  have hrest (before : Udc) : Safe true false (do
      let u ← get
      modify fun u => u.rtsEpQueueStart e r (before.ep e).queue.isEmpty
      spinUnlock
      pure (if usesDma (u.ep e) then mapped else 0) : Prog Udc Int) :=
    .bind (.get true) fun _ => .bind (.modify true _) fun _ =>
      .bind (.spinUnlock true) fun _ => .pure false _
  unfold rtsEpQueue
  refine .bind .spinLock fun _ => ?_
  refine .bind (.get true) fun before => ?_
  refine .bind (.modify true _) fun _ => ?_
  dsimp only
  refine .ite ?_ ?_
  · exact .bind (safe_rtsEp0Queue g e r) fun _ => hrest before
  · exact .bind (.modify true _) fun _ => hrest before

theorem safe_rtsEpDequeue (e : EpId) (r : ReqId) : Safe false false (rtsEpDequeue g e r) := by
  have hrest : Safe true false (do
      spinUnlock
      pure 0 : Prog Udc Int) :=
    .bind (.spinUnlock true) fun _ => .pure false 0
  unfold rtsEpDequeue
  refine .bind .spinLock fun _ => ?_
  refine .bind (.get true) fun u => ?_
  dsimp only
  refine .ite ?_ hrest
  exact .bind (safe_rtsDone g e r _) fun _ => hrest

theorem safe_rtsEpDisableLoop (e : EpId) (fuel : Nat) :
    Safe false false (rtsEpDisableLoop g e fuel) := by
  induction fuel with
  | zero => exact .hang false false
  | succ fuel ih =>
    unfold rtsEpDisableLoop
    refine .bind (.get false) fun u => ?_
    cases (u.ep e).queue with
    | nil => exact .pure false ()
    | cons r rest =>
      refine .bind .spinLock fun _ => ?_
      refine .bind (safe_rtsDone g e r _) fun _ => ?_
      exact .bind (.spinUnlock true) fun _ => ih

theorem safe_rtsEpDisable (e : EpId) (fuel : Nat) : Safe false false (rtsEpDisable g e fuel) := by
  unfold rtsEpDisable
  refine .bind (.modify false _) fun _ => ?_
  refine .bind (.get false) fun u => ?_
  refine .ite (.pure false 0) ?_
  refine .bind (safe_rtsEpDisableLoop g e fuel) fun _ => ?_
  refine .bind (.get false) fun v => ?_
  dsimp only
  refine .ite (.pure false 0) ?_
  exact .bind (.modify false _) fun _ => .pure false 0

theorem safe_rtsSetHaltAndWedge (e : EpId) (value wedge : Bool) :
    Safe false false (rtsSetHaltAndWedge e value wedge) := by
  unfold rtsSetHaltAndWedge
  exact .bind .spinLock fun _ => .bind (.modify true _) fun _ =>
    .bind (.spinUnlock true) fun _ => .pure false 0

/-! ## Entry points of the controller -/

theorem safe_rtsGadgetUdcStop : Safe false false rtsGadgetUdcStop := by
  unfold rtsGadgetUdcStop
  exact .bind .spinLock fun _ => .bind (.modify true _) fun _ =>
    .bind (.spinUnlock true) fun _ => .pure false 0

theorem safe_unlock_zero : Safe true false (do
    spinUnlock
    pure 0 : Prog Udc Int) :=
  .bind (.spinUnlock true) fun _ => .pure false 0

theorem safe_rtsGadgetVbusSession (isActive : Bool) :
    Safe false false (rtsGadgetVbusSession isActive) := by
  unfold rtsGadgetVbusSession
  refine .bind .spinLock fun _ => ?_
  refine .bind (.modify true _) fun _ => ?_
  refine .bind (.get true) fun u => ?_
  dsimp only
  refine .ite ?_ (.ite ?_ safe_unlock_zero)
  · exact .bind (.modify true _) fun _ => safe_unlock_zero
  · exact .bind (.modify true _) fun _ => safe_unlock_zero

theorem safe_rtsGadgetPullup (isOn : Bool) : Safe false false (rtsGadgetPullup isOn) := by
  unfold rtsGadgetPullup
  refine .bind .spinLock fun _ => ?_
  refine .bind (.modify true _) fun _ => ?_
  refine .bind (.get true) fun u => ?_
  dsimp only
  refine .ite ?_ (.ite ?_ safe_unlock_zero)
  · exact .bind (.modify true _) fun _ => safe_unlock_zero
  · exact .bind (.modify true _) fun _ => safe_unlock_zero

theorem rtsGadgetUdcStart_ok_iff (driver : GadgetDriver) (u : Udc) :
    ((rtsGadgetUdcStart driver u false).Ok false fun _ _ => True) ↔ u.gadgetDriver = none := by
  have hrun : rtsGadgetUdcStart driver u false =
      if u.gadgetDriver.isSome then .ret (-EBUSY) (u.emit .phyInt) true
      else
        .ret 0 { u.emit .phyInt with gadgetDriver := some driver, gadgetstart := true } false := by
    unfold rtsGadgetUdcStart
    rw [spinLock_bind, modify_bind, get_bind]
    show (if u.gadgetDriver.isSome = true then _ else _ : Prog Udc Int) _ true = _
    split
    · rfl
    · rfl
  rw [hrun]
  cases hd : u.gadgetDriver with
  | none => exact ⟨fun _ => rfl, fun _ => ⟨rfl, trivial⟩⟩
  | some d =>
    constructor
    · rintro ⟨hheld, -⟩
      cases hheld
    · intro hnone
      cases hnone

/-! ## Standard requests -/

theorem safe_getStatusData {ctrl : SetupPacket} (h : recipient ctrl = 2 → InTable ctrl) :
    Safe true true (getStatusData ctrl) := by
  unfold getStatusData
  refine .ite ?_ (.ite ?_ ?_)
  · exact .bind (.modify true _) fun _ => .pure true _
  · exact .bind (.modify true _) fun _ => .pure true _
  split
  · next h2 =>
    obtain ⟨e, he⟩ := exists_targetSlot (h h2)
    rw [he]
    dsimp only
    refine .ite ?_ ?_
    · exact .bind (.modify true _) fun _ => .pure true _
    · exact .bind (.modify true _) fun _ => .pure true _
  · exact .bind (.modify true _) fun _ => .pure true _

theorem safe_rtsUsbReqEp0GetStatus {ctrl : SetupPacket} (h : recipient ctrl = 2 → InTable ctrl) :
    Safe true true (rtsUsbReqEp0GetStatus g ctrl) := by
  unfold rtsUsbReqEp0GetStatus
  refine .bind (safe_getStatusData h) fun answers => ?_
  refine .ite ?_ (.pure true ())
  refine .bind (.modify true _) fun _ => ?_
  refine .bind (.spinUnlock true) fun _ => ?_
  exact .bind (safe_rtsEpQueue g ep0 ep0Req 0) fun _ => .spinLock

/-- **CLEAR_FEATURE** takes the lock a second time when there is a halt to clear. -/
theorem rtsUsbReqEp0ClearFeature_deadlock {ctrl : SetupPacket} {u : Udc}
    (h : ClearsHalt ctrl u) : rtsUsbReqEp0ClearFeature ctrl u true = .deadlock := by
  obtain ⟨-, -, h2, h0, e, hslot, hstall, hwedged⟩ := h
  have h01 : ¬ (recipient ctrl = 0 ∨ recipient ctrl = 1) := by
    rw [h2]
    decide
  unfold rtsUsbReqEp0ClearFeature
  rw [hslot]
  dsimp only
  rw [if_neg h01, if_pos h2, h0, if_neg Bool.false_ne_true, get_bind, hwedged,
    if_neg Bool.false_ne_true, hstall, if_pos rfl]
  rfl

theorem rtsUsbReqEp0ClearFeature_ok {ctrl : SetupPacket} {u : Udc}
    (hstd : ctrl.bRequestType &&& 0x60 = 0) (hreq : ctrl.bRequest = 0x01)
    (h : ¬ ClearsHalt ctrl u) (hin : InTable ctrl) :
    (rtsUsbReqEp0ClearFeature ctrl u true).Ok true fun _ _ => True := by
  obtain ⟨e, hslot⟩ := exists_targetSlot hin
  unfold rtsUsbReqEp0ClearFeature
  rw [hslot]
  dsimp only
  by_cases h01 : recipient ctrl = 0 ∨ recipient ctrl = 1
  · rw [if_pos h01]
    exact ⟨rfl, trivial⟩
  rw [if_neg h01]
  by_cases h2 : recipient ctrl = 2
  · rw [if_pos h2]
    cases h0 : targetsEp0 ctrl with
    | true => exact ⟨rfl, trivial⟩
    | false =>
      rw [if_neg Bool.false_ne_true, get_bind]
      cases hwedged : (u.ep e).wedged with
      | true => exact ⟨rfl, trivial⟩
      | false =>
        cases hstall : (u.ep e).stall with
        | true => exact absurd ⟨hstd, hreq, h2, h0, e, hslot, hstall, hwedged⟩ h
        | false => exact ⟨rfl, trivial⟩
  · rw [if_neg h2]
    exact ⟨rfl, trivial⟩

theorem safe_rtsUsbReqEp0SetFeature {ctrl : SetupPacket} (h : recipient ctrl = 2 → InTable ctrl) :
    Safe true true (rtsUsbReqEp0SetFeature ctrl) := by
  unfold rtsUsbReqEp0SetFeature
  refine .ite ?_ (.ite ?_ ?_)
  · exact .bind (.modify true _) fun _ => .ite (.modify true _) (.pure true ())
  · exact .modify true _
  split
  · next h2 =>
    obtain ⟨e, he⟩ := exists_targetSlot (h h2)
    rw [he]
    dsimp only
    refine .ite ?_ ?_
    · exact .bind (.modify true _) fun _ => .modify true _
    · exact .bind (.modify true _) fun _ => .modify true _
  · exact .modify true _

theorem safe_rtsUsbReqEp0SetAddress (highSpeed : Bool) (ctrl : SetupPacket) :
    Safe true true (rtsUsbReqEp0SetAddress highSpeed ctrl) := by
  unfold rtsUsbReqEp0SetAddress
  exact .bind (.modify true _) fun _ => .ite (.modify true _) (.modify true _)

theorem rtsUsbEp0StandardRequest_deadlock {highSpeed : Bool} {ctrl : SetupPacket} {u : Udc}
    (h : ClearsHalt ctrl u) : rtsUsbEp0StandardRequest g highSpeed ctrl u true = .deadlock := by
  unfold rtsUsbEp0StandardRequest
  rw [h.2.1, if_neg (by decide), if_pos rfl]
  exact bind_deadlock (rtsUsbReqEp0ClearFeature_deadlock h)

/-- A request that is handed on finds a gadget driver. -/
theorem rtsUsbEp0StandardRequest_ok {highSpeed : Bool} {ctrl : SetupPacket} {u : Udc}
    (hstd : ctrl.bRequestType &&& 0x60 = 0) (h : ¬ ClearsHalt ctrl u) (hf : Followable ctrl u) :
    (rtsUsbEp0StandardRequest g highSpeed ctrl u true).Ok true fun ret v =>
      ret ≠ 0 → v.gadgetDriver.isSome = true := by
  have handled {p : Prog Udc Unit} (hp : (p u true).Ok true fun _ _ => True) :
      ((p >>= fun _ => (pure 0 : Prog Udc Int)) u true).Ok true fun ret v =>
        ret ≠ 0 → v.gadgetDriver.isSome = true :=
    ok_bind hp fun _ _ _ => ⟨rfl, fun hne => absurd rfl hne⟩
  unfold rtsUsbEp0StandardRequest
  split
  · next hreq =>
    have hin : recipient ctrl = 2 → InTable ctrl := by simpa [Followable, hstd, hreq] using hf
    exact handled (safe_rtsUsbReqEp0GetStatus g hin u)
  · split
    · next hreq =>
      have hin : InTable ctrl := by simpa [Followable, hstd, hreq] using hf
      exact handled (rtsUsbReqEp0ClearFeature_ok hstd hreq h hin)
    · split
      · next hreq =>
        have hin : recipient ctrl = 2 → InTable ctrl := by simpa [Followable, hstd, hreq] using hf
        exact handled (safe_rtsUsbReqEp0SetFeature hin u)
      · split
        · exact handled (safe_rtsUsbReqEp0SetAddress highSpeed ctrl u)
        · next h0 h1 h3 h5 =>
          have hbound : u.gadgetDriver.isSome = true := by
            simpa [Followable, h0, h1, h3, h5] using hf
          exact ⟨rfl, fun _ => hbound⟩

theorem clearsHalt_congr {ctrl : SetupPacket} {u v : Udc}
    (hstall : ∀ e, (v.ep e).stall = (u.ep e).stall)
    (hwedged : ∀ e, (v.ep e).wedged = (u.ep e).wedged) : ClearsHalt ctrl v ↔ ClearsHalt ctrl u := by
  unfold ClearsHalt
  simp only [hstall, hwedged]

/-- The state in which `rts_usb_setup_process` looks at the request. -/
def setupState (ctrl : SetupPacket) (u : Udc) : Udc :=
  ({ u with setupBuf := ctrl }.emit (.setup ctrl)).setEp ep0 fun x =>
    { x with dirIn := ctrl.bRequestType &&& 0x80 ≠ 0 }

/-- A packet that no standard request answers is handed on. -/
theorem rtsUsbSetupProcess_handsOn {highSpeed : Bool} {ctrl : SetupPacket} {u : Udc}
    (h1 : ¬ (ctrl.bRequestType &&& 0x60 = 0 ∧ ctrl.bRequest = 0x01))
    (h03 : ¬ (ctrl.bRequestType &&& 0x60 = 0 ∧ (ctrl.bRequest = 0x00 ∨ ctrl.bRequest = 0x03)))
    (h5 : ¬ (ctrl.bRequestType &&& 0x60 = 0 ∧ ctrl.bRequest = 0x05)) :
    rtsUsbSetupProcess g highSpeed ctrl ({ u with setupBuf := ctrl }.emit (.setup ctrl)) true =
      .ret 1 (setupState ctrl u) true := by
  unfold rtsUsbSetupProcess
  rw [modify_bind]
  split
  · next hstd =>
    unfold rtsUsbEp0StandardRequest
    rw [if_neg fun h => h03 ⟨hstd, .inl h⟩, if_neg fun h => h1 ⟨hstd, h⟩,
      if_neg fun h => h03 ⟨hstd, .inr h⟩, if_neg fun h => h5 ⟨hstd, h⟩]
    rfl
  · rfl

/-- A lookup past the end of its table, as the standard request that makes it. -/
theorem rtsUsbSetupProcess_fault {highSpeed : Bool} {ctrl : SetupPacket} {u : Udc} {h : Lookup}
    (hstd : ctrl.bRequestType &&& 0x60 = 0)
    (hreq : ctrl.bRequest = match h with
      | .getStatus => 0x00
      | .clearFeature => 0x01
      | .setFeature => 0x03) (hcov : ¬ h.Covered ctrl) :
    rtsUsbSetupProcess g highSpeed ctrl u true = .fault := by
  have hfault (v : Udc) : h.handler g ctrl v true = .fault := by
    cases h with
    | clearFeature => exact rtsUsbReqEp0ClearFeature_fault hcov
    | getStatus =>
      obtain ⟨h2, hout⟩ := Classical.not_imp.mp hcov
      exact rtsUsbReqEp0GetStatus_fault h2 hout
    | setFeature =>
      obtain ⟨h2, hout⟩ := Classical.not_imp.mp hcov
      exact rtsUsbReqEp0SetFeature_fault h2 hout
  unfold rtsUsbSetupProcess
  rw [modify_bind, if_pos hstd]
  unfold rtsUsbEp0StandardRequest
  rw [hreq]
  cases h with
  | getStatus => exact bind_fault (hfault _)
  | clearFeature => exact bind_fault (hfault _)
  | setFeature => exact bind_fault (hfault _)

theorem clearsHalt_setupState {ctrl : SetupPacket} {u : Udc} :
    ClearsHalt ctrl (setupState ctrl u) ↔ ClearsHalt ctrl u := by
  refine clearsHalt_congr (fun e => ?_) fun e => ?_
  · unfold setupState
    rw [setEp_ep]
    split
    · next he => rw [he]; rfl
    · rfl
  · unfold setupState
    rw [setEp_ep]
    split
    · next he => rw [he]; rfl
    · rfl

/-! ## The interrupt handler -/

section Irq

variable {st : IrqStatus} {highSpeed : Bool} {ctrl : SetupPacket} {u : Udc}

theorem rtsUsbEp0Setup_deadlock (h : ClearsHalt ctrl u) :
    rtsUsbEp0Setup g highSpeed ctrl u true = .deadlock := by
  have hstate := clearsHalt_setupState.mpr h
  unfold rtsUsbEp0Setup
  rw [modify_bind]
  refine bind_deadlock ?_
  unfold rtsUsbSetupProcess
  rw [modify_bind, if_pos h.1]
  exact rtsUsbEp0StandardRequest_deadlock g hstate

/-- **A SETUP packet leads the handler astray** past the end of a table, or to a driver that is not
there. -/
theorem rtsUsbEp0Setup_fault (h : ¬ Followable ctrl u) :
    rtsUsbEp0Setup g highSpeed ctrl u true = .fault := by
  unfold rtsUsbEp0Setup
  rw [modify_bind]
  unfold Followable at h
  split at h
  · next hreq =>
    exact bind_fault (rtsUsbSetupProcess_fault (h := .clearFeature) g hreq.1 hreq.2 h)
  · next h1 =>
    split at h
    · next hreq =>
      rcases hreq.2 with h0 | h3
      · exact bind_fault (rtsUsbSetupProcess_fault (h := .getStatus) g hreq.1 h0 h)
      · exact bind_fault (rtsUsbSetupProcess_fault (h := .setFeature) g hreq.1 h3 h)
    · next h03 =>
      split at h
      · exact absurd trivial h
      · next h5 =>
        have hnone : (setupState ctrl u).gadgetDriver = none := Option.not_isSome_iff_eq_none.mp h
        rw [bind_ret (rtsUsbSetupProcess_handsOn g h1 h03 h5), if_pos (by decide), spinUnlock_bind,
          get_bind, hnone]
        rfl

theorem rtsUsbEp0Setup_ok (h : ¬ ClearsHalt ctrl u) (hf : Followable ctrl u) :
    (rtsUsbEp0Setup g highSpeed ctrl u true).Ok true fun _ _ => True := by
  have hstate : ¬ ClearsHalt ctrl (setupState ctrl u) := fun hs => h (clearsHalt_setupState.mp hs)
  unfold rtsUsbEp0Setup
  rw [modify_bind]
  refine ok_bind (k := true) (Q := fun ret v => ret ≠ 0 → v.gadgetDriver.isSome = true) ?_
    fun ret v hbound => ?_
  · unfold rtsUsbSetupProcess
    rw [modify_bind]
    split
    · next hstd => exact rtsUsbEp0StandardRequest_ok g hstd hstate hf
    · next hclass =>
      have hbound : u.gadgetDriver.isSome = true := by simpa [Followable, hclass] using hf
      exact ⟨rfl, fun _ => hbound⟩
  · split
    · next hret =>
      have hsome : v.gadgetDriver.isNone = false := by
        rw [← Option.not_isSome, hbound hret]
        rfl
      rw [spinUnlock_bind, get_bind, hsome, if_neg Bool.false_ne_true]
      refine Safe.bind (.callback _) (fun answer => ?_) v
      refine .ite ?_ .spinLock
      exact .bind (.modify false _) fun _ => .spinLock
    · exact ⟨rfl, trivial⟩

theorem safe_rtsEp0TransferProcess (e : EpId) : Safe true true (rtsEp0TransferProcess g e) := by
  unfold rtsEp0TransferProcess
  refine .bind (.get true) fun u => ?_
  cases (u.ep e).queue with
  | nil => exact .pure true ()
  | cons r rest =>
    refine .bind (.modify true _) fun _ => ?_
    refine .bind (.get true) fun v => ?_
    exact .ite (safe_rtsDone g e r 0) (.modify true _)

theorem safe_ep0Packets (st : IrqStatus) : Safe true true (do
    if st.ep0inf then rtsEp0TransferProcess g ep0 else pure ()
    if st.ep0outf then rtsEp0TransferProcess g ep0 else pure () : Prog Udc Unit) := by
  have hproc := safe_rtsEp0TransferProcess g ep0
  have hout := Safe.ite (c := st.ep0outf) hproc (.pure true ())
  dsimp only
  exact .ite (.bind hproc fun _ => hout) hout

theorem safe_whenDone {f : EpId → Prog Udc Unit} (hf : ∀ e, Safe true true (f e)) (e : EpId) :
    Safe true true (whenDone st f e) := by
  unfold whenDone
  exact .bind (.get true) fun _ => .ite (hf e) (.pure true ())

theorem safe_rtsUsbIntrInProcess (e : EpId) : Safe true true (rtsUsbIntrInProcess g e) := by
  unfold rtsUsbIntrInProcess
  refine .bind (.get true) fun u => ?_
  cases (u.ep e).queue with
  | nil => exact .pure true ()
  | cons r rest =>
    refine .ite ?_ (.pure true ())
    unfold rtsIntrTransferProcess
    refine .bind (.modify true _) fun _ => ?_
    refine .bind (.get true) fun v => ?_
    refine .ite ?_ (.modify true _)
    exact .bind (safe_rtsDone g e r 0) fun _ => .modify true _

theorem safe_complete (e : EpId) (advance : ReqId → Udc → Udc) : Safe true true (do
    let u ← get
    match (u.ep e).queue with
    | [] => pure ()
    | r :: _ => do
      modify (advance r)
      rtsDone g e r 0
      modify fun u => u.rtsStartNextRequest e : Prog Udc Unit) := by
  refine .bind (.get true) fun u => ?_
  cases (u.ep e).queue with
  | nil => exact .pure true ()
  | cons r rest =>
    refine .bind (.modify true _) fun _ => ?_
    exact .bind (safe_rtsDone g e r 0) fun _ => .modify true _

theorem safe_rtsUsbOutProcess (e : EpId) : Safe true true (rtsUsbOutProcess g st e) :=
  safe_complete g e fun r u => u.rtsTransferComplete e r (st.dmaout e)

theorem safe_rtsUsbUacInProcess (e : EpId) : Safe true true (rtsUsbUacInProcess g e) :=
  safe_complete g e fun r u => u.rtsInComplete e r

theorem safe_channels (st : IrqStatus) : Safe true false (do
    forList (whenDone st (rtsUsbIntrInProcess g))
      [.epIn 7, .epIn 8, .epIn 9, .epIn 10, .epIn 11, .epIn 12]
    forList (whenDone st fun e => modify (queueXferWork e)) [.epIn 1, .epIn 2, .epIn 3]
    forList (whenDone st (rtsUsbOutProcess g st)) [.epOut 0, .epOut 1, .epOut 2]
    whenDone st (rtsUsbUacInProcess g) (.epIn 4)
    whenDone st (rtsUsbOutProcess g st) (.epOut 3)
    forList (whenDone st fun e => modify (queueXferWork e)) [.epIn 5, .epIn 6]
    spinUnlock : Prog Udc Unit) := by
  have hwork (e : EpId) : Safe true true (whenDone st (fun e => modify (queueXferWork e)) e) :=
    safe_whenDone (fun _ => .modify true _) e
  have hout (e : EpId) : Safe true true (whenDone st (rtsUsbOutProcess g st) e) :=
    safe_whenDone (fun e => safe_rtsUsbOutProcess g e) e
  refine .bind (.forList (safe_whenDone (safe_rtsUsbIntrInProcess g)) _) fun _ => ?_
  refine .bind (.forList hwork _) fun _ => ?_
  refine .bind (.forList hout _) fun _ => ?_
  refine .bind (safe_whenDone (safe_rtsUsbUacInProcess g) _) fun _ => ?_
  refine .bind (hout _) fun _ => ?_
  exact .bind (.forList hwork _) fun _ => .spinUnlock true

theorem rtsUsbSe0Irq_eq (st : IrqStatus) (u : Udc) :
    rtsUsbSe0Irq g st u true = .ret () (afterSe0 g st u) true := by
  unfold rtsUsbSe0Irq afterSe0
  cases st.se0rst with
  | false => rfl
  | true =>
    cases hd : u.gadgetDriver.isSome with
    | false =>
      rw [if_pos rfl, spinUnlock_bind, get_bind, hd]
      rfl
    | true =>
      rw [if_pos rfl, spinUnlock_bind, get_bind, hd]
      rfl

/-- **The interrupt handler** takes the lock twice exactly when a SETUP packet clears a halt, and
leaves defined behaviour exactly when there is nothing where the packet leads it. -/
theorem rtsUsbEpIrq_ok_iff (st : IrqStatus) (u : Udc) :
    ((rtsUsbEpIrq g st u false).Ok false fun _ _ => True) ↔
      (st.setupf = true →
        ¬ ClearsHalt st.ctrl (afterSe0 g st u) ∧ Followable st.ctrl (afterSe0 g st u)) := by
  unfold rtsUsbEpIrq
  rw [spinLock_bind, bind_ret (rtsUsbSe0Irq_eq g st u)]
  unfold rtsUsbEp0Irq
  dsimp only
  cases hsetup : st.setupf with
  | false =>
    refine ⟨nofun, fun _ => ?_⟩
    exact ok_bind (safe_ep0Packets g st _) fun _ t _ => safe_channels g st t
  | true =>
    rw [if_pos rfl]
    constructor
    · refine fun hok _ => ⟨fun hclear => ?_, by_contra fun hastray => ?_⟩
      · rw [bind_deadlock (bind_deadlock (rtsUsbEp0Setup_deadlock g hclear))] at hok
        exact hok
      · rw [bind_fault (bind_fault (rtsUsbEp0Setup_fault g hastray))] at hok
        exact hok
    · intro hgood
      obtain ⟨hclear, hfollow⟩ := hgood rfl
      refine ok_bind (k := true) (Q := fun _ _ => True) ?_ fun _ t _ => safe_channels g st t
      exact ok_bind (rtsUsbEp0Setup_ok g hclear hfollow) fun _ t _ => safe_ep0Packets g st t

end Irq

/-- **The lock discipline.**  An entry point keeps it exactly if it is not `rts_gadget_udc_start`
with a gadget driver bound, and not the interrupt handler with a CLEAR_FEATURE for an endpoint that
is halted and not wedged, or with a packet that leads it to no endpoint or to no driver. -/
theorem disciplined_iff (u : Udc) (entry : EntryPoint) :
    entry.Disciplined g u ↔ entry.Disciplinable g u := by
  cases entry with
  | epQueue e r mapped => exact iff_of_true (safe_rtsEpQueue g e r mapped u) trivial
  | epDequeue e r => exact iff_of_true (safe_rtsEpDequeue g e r u) trivial
  | epDisable e fuel => exact iff_of_true (safe_rtsEpDisable g e fuel u) trivial
  | setHaltAndWedge e value wedge =>
    exact iff_of_true (safe_rtsSetHaltAndWedge e value wedge u) trivial
  | udcStart driver => exact rtsGadgetUdcStart_ok_iff driver u
  | udcStop => exact iff_of_true (safe_rtsGadgetUdcStop u) trivial
  | pullup isOn => exact iff_of_true (safe_rtsGadgetPullup isOn u) trivial
  | vbusSession isActive => exact iff_of_true (safe_rtsGadgetVbusSession isActive u) trivial
  | epIrq st => exact rtsUsbEpIrq_ok_iff g st u

/-- A driver with `ep1out` halted and a gadget driver bound. -/
def halted : Udc :=
  { probed false with
    ep := Function.update (probed false).ep (.epOut 0) { stall := true }
    gadgetDriver := some {} }

/-- An interrupt for the SETUP packet CLEAR_FEATURE(ENDPOINT_HALT) of `ep1out`. -/
def clearHaltIrq : IrqStatus where
  se0rst := false
  setupf := true
  ctrl := ⟨0x02, 0x01, 0, 0x0001, 0⟩
  highSpeed := true
  ep0inf := false
  ep0outf := false
  epDone _ := false
  dmaout _ := 0

/-- **The two holes.**  The host clears the halt of `ep1out`; a second gadget driver is bound. -/
theorem not_disciplined_halted :
    rtsUsbEpIrq noCallbacks clearHaltIrq halted false = .deadlock ∧
      ¬ (EntryPoint.epIrq clearHaltIrq).Disciplined noCallbacks halted ∧
      (rtsGadgetUdcStart {} halted false = .ret (-EBUSY) (halted.emit .phyInt) true) ∧
      ¬ (EntryPoint.udcStart {}).Disciplined noCallbacks halted := by
  have hirq : rtsUsbEpIrq noCallbacks clearHaltIrq halted false = .deadlock := rfl
  have hstart : rtsGadgetUdcStart {} halted false = .ret (-EBUSY) (halted.emit .phyInt) true := rfl
  refine ⟨hirq, fun hok => ?_, hstart, fun hok => ?_⟩
  · change (rtsUsbEpIrq noCallbacks clearHaltIrq halted false).Ok false fun _ _ => True at hok
    rw [hirq] at hok
    exact hok
  · change (rtsGadgetUdcStart {} halted false).Ok false fun _ _ => True at hok
    rw [hstart] at hok
    exact absurd hok.1 (by decide)

end RealtekIpcam.Udc
