import RealtekIpcam.Udc.PullUp

/-!
# Starting and stopping the UDC

The core starts a UDC when it binds a gadget driver and stops it when it removes the driver.  The
attribute `soft_connect` does the same two calls by hand, for a UDC that has a driver, and does not
ask whether the UDC is started.  `rts_gadget_udc_start` turns a second start away, and keeps its
lock; a second stop passes unnoticed.

The model is the core's list of UDCs with the list of gadget drivers that wait for one.  Every UDC
is one of the Realtek driver, and keeps a log of the calls of its `udc_start` and `udc_stop`.
`Paired` is what should hold of the log, and `InTurn` the condition on an operation under which it
does.
-/

namespace RealtekIpcam.Udc

open LockLogic
open Runs (Along exec)

/-! ## The model -/

def ENODEV : Int := 19
def EOPNOTSUPP : Int := 95
def EPROBE_DEFER : Int := 517

/-- A `struct usb_gadget_driver`, as an object. -/
abbrev DriverId := Nat

/-- What the core reads of a `struct usb_gadget_driver`.  The three flags say which of its
functions it has. -/
structure UsbGadgetDriver where
  udcName : Option String
  matchExistingOnly : Bool
  bind : Bool
  setup : Bool
  unbind : Bool
  gadgetDriver : GadgetDriver

/-- What the functions of a gadget driver do when they are called: the calls of the core that its
`bind` and `unbind` make, and what `bind` returns. -/
structure Behaviour where
  bindCalls : List GadgetCall
  bindRet : Int
  unbindCalls : List GadgetCall

/-- A call of a UDC's `udc_start`, with whether it returns 0, or of its `udc_stop`. -/
inductive Callback where
  | start (ok : Bool)
  | stop
  deriving DecidableEq

/-- A `struct usb_udc` with its gadget: the driver that it is bound to, whether the lock of its
`rts_udc` was left held, and the log of the callbacks, the last one first. -/
structure Controller where
  name : String
  bound : Option DriverId
  core : GadgetCore
  held : Bool
  calls : List Callback

/-- Whether a call of the core comes to the UDC's `pullup`. -/
def GadgetCall.pulls (c : GadgetCore) : GadgetCall → Bool
  | .connect | .disconnect => !c.deactivated
  | .deactivate => !c.deactivated && c.connected
  | .activate => c.deactivated && c.connected

namespace Controller

/-! The functions of the core on one UDC.  An `error` is a call that never returns, with the UDC as
it was left.
-/

/-- A call of an entry point of the UDC's driver. -/
def enter (s : Controller) (p : Prog Udc Int) : Except Controller (Int × Controller) :=
  match p s.core.udc s.held with
  | .ret ret u held => .ok (ret, { s with core := { s.core with udc := u }, held := held })
  | _ => .error s

def note (call : Callback) (s : Controller) : Controller := { s with calls := call :: s.calls }

def usbGadgetUdcStart (s : Controller) (driver : GadgetDriver) :
    Except Controller (Int × Controller) :=
  match s.enter (rtsGadgetUdcStart driver) with
  | .ok (ret, s) => .ok (ret, s.note (.start (ret = 0)))
  | .error s => .error (s.note (.start false))

def usbGadgetUdcStop (s : Controller) : Except Controller Controller :=
  match s.enter rtsGadgetUdcStop with
  | .ok (_, s) => .ok (s.note .stop)
  | .error s => .error (s.note .stop)

/-- A call of `usb_gadget_connect` and its like. -/
def gadget (s : Controller) (k : GadgetCall) : Except Controller Controller :=
  if s.held && k.pulls s.core then .error s
  else
    match s.core.call k with
    | some core => .ok { s with core := core }
    | none => .error s

/-- A row of such calls. -/
def gadgets : List GadgetCall → Controller → Except Controller Controller
  | [], s => .ok s
  | k :: ks, s => do
    let s ← s.gadget k
    gadgets ks s

def usbUdcConnectControl (s : Controller) : Except Controller Controller :=
  if s.core.vbus then s.gadget .connect else s.gadget .disconnect

/-- `udc->driver = driver`. -/
def setDriver (s : Controller) (d : DriverId) (driver : GadgetDriver) : Controller :=
  { s with bound := some d, core := { s.core with driver := some driver } }

/-- `udc->driver = NULL`. -/
def clearDriver (s : Controller) : Controller :=
  { s with bound := none, core := { s.core with driver := none } }

def udcBindToDriver (s : Controller) (d : DriverId) (driver : GadgetDriver) (beh : Behaviour) :
    Except Controller (Int × Controller) := do
  let s ← gadgets beh.bindCalls (s.setDriver d driver)
  if beh.bindRet ≠ 0 then
    pure (beh.bindRet, s.clearDriver)
  else
    let (ret, s) ← s.usbGadgetUdcStart driver
    if ret ≠ 0 then
      let s ← gadgets beh.unbindCalls s
      pure (ret, s.clearDriver)
    else
      let s ← s.usbUdcConnectControl
      pure (0, s)

def usbGadgetRemoveDriver (s : Controller) (beh : Behaviour) : Except Controller Controller := do
  let s ← s.gadget .disconnect
  let s ← gadgets beh.unbindCalls s
  let s ← s.usbGadgetUdcStop
  pure s.clearDriver

end Controller

/-- `sysfs_streq`: the strings are equal, but for a newline at the end of one. -/
def sysfsStreq (a b : String) : Bool := a == b || a == b ++ "\n" || a ++ "\n" == b

variable (drv : DriverId → UsbGadgetDriver) (beh : DriverId → Behaviour)

namespace Controller

/-- `soft_connect_store`, which returns the number of bytes in the buffer if it succeeds. -/
def softConnectStore (s : Controller) (buf : String) : Except Controller (Int × Controller) :=
  match s.bound with
  | none => pure (-EOPNOTSUPP, s)
  | some d =>
    if sysfsStreq buf "connect" then do
      let (_, s) ← s.usbGadgetUdcStart (drv d).gadgetDriver
      let s ← s.gadget .connect
      pure (buf.utf8ByteSize, s)
    else if sysfsStreq buf "disconnect" then do
      let s ← s.gadget .disconnect
      let s ← s.usbGadgetUdcStop
      pure (buf.utf8ByteSize, s)
    else pure (-EINVAL, s)

/-- A waiting driver may be bound to the UDC. -/
def suits (s : Controller) (d : DriverId) : Bool :=
  match (drv d).udcName with
  | none => true
  | some name => name == s.name

/-- `check_pending_gadget_drivers`, with the drivers that go on waiting. -/
def checkPendingGadgetDrivers (s : Controller) (pending : List DriverId) :
    Except Controller ((Int × List DriverId) × Controller) :=
  match pending.find? (s.suits drv) with
  | none => pure ((0, pending), s)
  | some d => do
    let (ret, s) ← s.udcBindToDriver d (drv d).gadgetDriver (beh d)
    pure ((ret, if ret ≠ -EPROBE_DEFER then pending.erase d else pending), s)

end Controller

/-- The core: `udc_list`, `gadget_driver_pending_list`, the UDCs that were deleted, and whether an
operation never returned, so that `udc_lock` stays taken. -/
structure UdcCore where
  udcs : List Controller
  pending : List DriverId
  gone : List Controller
  hung : Bool

/-- Before the first UDC and the first driver. -/
def UdcCore.init : UdcCore := ⟨[], [], [], false⟩

namespace UdcCore

/-- What an operation on the UDC at `i` leaves; it ends with the drivers that go on waiting. -/
def settle (k : UdcCore) (i : Nat) :
    Except Controller (List DriverId × Controller) → UdcCore
  | .ok (pending, s) => { k with udcs := k.udcs.set i s, pending := pending }
  | .error s => { k with udcs := k.udcs.set i s, hung := true }

/-- A UDC that is being added. -/
def newUdc (name : String) (dynamicMaxpktsize : Bool) : Controller :=
  ⟨name, none, addGadgetUdc dynamicMaxpktsize, false, []⟩

/-- `usb_add_gadget_udc`, which keeps the UDC unless a waiting driver fails to bind to it. -/
def usbAddGadgetUdc (k : UdcCore) (name : String) (dynamicMaxpktsize : Bool) : UdcCore :=
  match (newUdc name dynamicMaxpktsize).checkPendingGadgetDrivers drv beh k.pending with
  | .ok ((ret, pending), s) =>
    if ret ≠ 0 then { k with pending := pending, gone := s :: k.gone }
    else { k with udcs := k.udcs ++ [s], pending := pending }
  | .error s => { k with udcs := k.udcs ++ [s], hung := true }

/-- `usb_del_gadget_udc`, for the UDC at `i`. -/
def usbDelGadgetUdc (k : UdcCore) (i : Nat) (s : Controller) : UdcCore :=
  match s.bound with
  | none => { k with udcs := k.udcs.eraseIdx i, gone := s :: k.gone }
  | some d =>
    match s.usbGadgetRemoveDriver (beh d) with
    | .ok s => { k with udcs := k.udcs.eraseIdx i, pending := d :: k.pending, gone := s :: k.gone }
    | .error s => { k with udcs := k.udcs.eraseIdx i, gone := s :: k.gone, hung := true }

/-- The UDC that `usb_gadget_probe_driver` finds for a driver, or the error it has if there is
none. -/
def findUdc (k : UdcCore) (d : DriverId) : Except Int Nat :=
  match (drv d).udcName with
  | some name =>
    match k.udcs.findIdx? fun s => s.name == name with
    | none => .error (-ENODEV)
    | some i => if (k.udcs[i]?.bind Controller.bound).isSome then .error (-EBUSY) else .ok i
  | none =>
    match k.udcs.findIdx? fun s => s.bound.isNone with
    | none => .error (-ENODEV)
    | some i => .ok i

def usbGadgetProbeDriver (k : UdcCore) (d : DriverId) : UdcCore :=
  if !(drv d).bind || !(drv d).setup then k
  else
    match k.findUdc drv d with
    | .error _ => if (drv d).matchExistingOnly then k else { k with pending := k.pending ++ [d] }
    | .ok i =>
      match k.udcs[i]? with
      | none => k
      | some s => k.settle i do
        let (_, s) ← s.udcBindToDriver d (drv d).gadgetDriver (beh d)
        pure (k.pending, s)

def usbGadgetUnregisterDriver (k : UdcCore) (d : DriverId) : UdcCore :=
  if !(drv d).unbind then k
  else
    match k.udcs.findIdx? fun s => s.bound == some d with
    | none => { k with pending := k.pending.erase d }
    | some i =>
      match k.udcs[i]? with
      | none => k
      | some s => k.settle i do
        let s ← s.usbGadgetRemoveDriver (beh d)
        let ((_, pending), s) ← s.checkPendingGadgetDrivers drv beh k.pending
        pure (pending, s)

/-- The driver is bound to a UDC or waits for one. -/
def registered (k : UdcCore) (d : DriverId) : Bool :=
  k.pending.contains d || k.udcs.any fun s => s.bound == some d

end UdcCore

/-- An operation of the core.  A UDC is named by its place in the list; a driver's functions do the
same in all calls of one operation. -/
inductive UdcEvent where
  | add (name : String) (dynamicMaxpktsize : Bool) (beh : DriverId → Behaviour)
  | del (i : Nat) (beh : DriverId → Behaviour)
  | probe (d : DriverId) (beh : DriverId → Behaviour)
  | unregister (d : DriverId) (beh : DriverId → Behaviour)
  | softConnect (i : Nat) (buf : String)
  | call (i : Nat) (k : GadgetCall)
  | vbusSession (i : Nat) (isActive : Bool)

/-- The operations.  They all take `udc_lock`, but for the last two: the calls that a bound driver
makes on its own, and a VBUS interrupt.  A driver is registered once. -/
def udcStep (k : UdcCore) : UdcEvent → Option UdcCore
  | .add name dynamicMaxpktsize beh =>
    if k.hung then none else some (k.usbAddGadgetUdc drv beh name dynamicMaxpktsize)
  | .del i beh =>
    if k.hung then none else k.udcs[i]?.map fun s => k.usbDelGadgetUdc beh i s
  | .probe d beh =>
    if k.hung || k.registered d then none else some (k.usbGadgetProbeDriver drv beh d)
  | .unregister d beh =>
    if k.hung then none else some (k.usbGadgetUnregisterDriver drv beh d)
  | .softConnect i buf =>
    if k.hung then none
    else k.udcs[i]?.map fun s => k.settle i do
      let (_, s) ← s.softConnectStore drv buf
      pure (k.pending, s)
  | .call i call =>
    k.udcs[i]?.bind fun s =>
      if s.bound.isNone then none
      else some (k.settle i ((s.gadget call).map fun s => (k.pending, s)))
  | .vbusSession i isActive =>
    k.udcs[i]?.map fun s => k.settle i
      ((s.enter (rtsGadgetVbusSession isActive)).map fun r => (k.pending, r.2))

/-! ## What should hold -/

/-- The UDC is started: the last successful start has not been followed by a stop. -/
def isStarted : List Callback → Bool
  | [] => false
  | .start true :: _ => true
  | .start false :: calls => isStarted calls
  | .stop :: _ => false

/-- Every start finds the UDC stopped, and every stop finds it started. -/
def Orderly : List Callback → Prop
  | [] => True
  | .start _ :: calls => isStarted calls = false ∧ Orderly calls
  | .stop :: calls => isStarted calls = true ∧ Orderly calls

/-- Starts and stops alternate, no start is turned away, and a UDC without a driver is stopped. -/
structure Paired (s : Controller) : Prop where
  orderly : Orderly s.calls
  clean : Callback.start false ∉ s.calls
  stopped : s.bound = none → isStarted s.calls = false ∧ s.core.udc.gadgetDriver = none

/-- Every UDC of the core, and every one that was deleted. -/
def AllPaired (k : UdcCore) : Prop := ∀ s ∈ k.udcs ++ k.gone, Paired s

/-- The operations that keep the pairs, by the state before them.  `connect` is written for a UDC
that is stopped and `disconnect` for one that is started, and a driver is removed from a UDC that is
started. -/
def InTurn (k : UdcCore) : UdcEvent → Prop
  | .softConnect i buf => ∀ s, k.udcs[i]? = some s → s.bound.isSome = true →
      if sysfsStreq buf "connect" then s.core.udc.gadgetDriver = none
      else sysfsStreq buf "disconnect" = true → s.core.udc.gadgetDriver.isSome = true
  | .del i _ => ∀ s, k.udcs[i]? = some s → s.bound.isSome = true →
      s.core.udc.gadgetDriver.isSome = true
  | .unregister d _ => (drv d).unbind = true →
      ∀ i s, k.udcs.findIdx? (fun s => s.bound == some d) = some i → k.udcs[i]? = some s →
        s.core.udc.gadgetDriver.isSome = true
  | .add .. | .probe .. | .call .. | .vbusSession .. => True

/-! ## The callbacks -/

/-- What ties a UDC's log to its state, while the lock is free. -/
structure Sane (s : Controller) : Prop where
  free : s.held = false
  started : isStarted s.calls = s.core.udc.gadgetDriver.isSome
  bound : s.core.driver.isSome = s.bound.isSome
  clean : Callback.start false ∉ s.calls
  stopped : s.bound = none → s.core.udc.gadgetDriver = none

theorem Sane.paired {s : Controller} (h : Sane s) (ho : Orderly s.calls) : Paired s where
  orderly := ho
  clean := h.clean
  stopped hb := ⟨by rw [h.started, h.stopped hb]; rfl, h.stopped hb⟩

variable {s s' : Controller} {driver : GadgetDriver}

/-- The UDC after a first start. -/
def Controller.begun (s : Controller) (driver : GadgetDriver) : Controller :=
  { s with
    core := { s.core with udc := { s.core.udc.emit .phyInt with
      gadgetDriver := some driver, gadgetstart := true } }
    calls := .start true :: s.calls }

/-- The UDC after a stop. -/
def Controller.ended (s : Controller) : Controller :=
  { s with
    core := { s.core with udc := { s.core.udc with gadgetDriver := none, gadgetstart := false } }
    calls := .stop :: s.calls }

theorem enter_of_entry {p : Prog Udc Int} {ret : Int} {u : Udc} (h : s.held = false)
    (hrun : entry p s.core.udc = some (ret, u)) :
    s.enter p = .ok (ret, { s with core := { s.core with udc := u } }) := by
  unfold entry at hrun
  unfold Controller.enter
  rw [h]
  cases hp : p s.core.udc false with
  | ret a v held =>
    rw [hp] at hrun
    cases held with
    | true => exact nomatch hrun
    | false =>
      cases hrun
      rfl
  | deadlock => rw [hp] at hrun; exact nomatch hrun
  | fault => rw [hp] at hrun; exact nomatch hrun
  | hang => rw [hp] at hrun; exact nomatch hrun

theorem usbGadgetUdcStart_eq (h : s.held = false) (hstop : s.core.udc.gadgetDriver = none) :
    s.usbGadgetUdcStart driver = .ok (0, s.begun driver) := by
  unfold Controller.usbGadgetUdcStart
  rw [enter_of_entry h (entry_rtsGadgetUdcStart s.core.udc driver hstop)]
  rfl

theorem usbGadgetUdcStart_of_started (h : s.held = false)
    (hstart : s.core.udc.gadgetDriver.isSome = true) :
    s.usbGadgetUdcStart driver = .ok (-EBUSY, { s with
      core := { s.core with udc := s.core.udc.emit .phyInt }
      held := true
      calls := .start false :: s.calls }) := by
  have hbusy : (s.core.udc.emit .phyInt).gadgetDriver.isSome = true := hstart
  unfold Controller.usbGadgetUdcStart Controller.enter rtsGadgetUdcStart
  rw [h, spinLock_bind, modify_bind, get_bind, hbusy]
  rfl

theorem usbGadgetUdcStop_eq (h : s.held = false) : s.usbGadgetUdcStop = .ok s.ended := by
  unfold Controller.usbGadgetUdcStop
  rw [enter_of_entry h (p := rtsGadgetUdcStop) rfl]
  rfl

theorem Sane.begun (h : Sane s) (hb : s.bound.isSome = true) : Sane (s.begun driver) where
  free := h.free
  started := rfl
  bound := h.bound
  clean := by
    show Callback.start false ∉ Callback.start true :: s.calls
    simpa using h.clean
  stopped hnone := by
    rw [show s.bound = none from hnone] at hb
    exact nomatch hb

theorem Sane.ended (h : Sane s) : Sane s.ended where
  free := h.free
  started := rfl
  bound := h.bound
  clean := by
    show Callback.start false ∉ Callback.stop :: s.calls
    simpa using h.clean
  stopped _ := rfl

theorem Sane.setDriver (h : Sane s) (d : DriverId) : Sane (s.setDriver d driver) where
  free := h.free
  started := h.started
  bound := rfl
  clean := h.clean
  stopped hnone := nomatch hnone

theorem Sane.clearDriver (h : Sane s) (hstop : s.core.udc.gadgetDriver = none) :
    Sane s.clearDriver where
  free := h.free
  started := h.started
  bound := rfl
  clean := h.clean
  stopped _ := hstop

/-! ## The calls of the core -/

/-- Only the flags of the gadget and the pull-up have changed. -/
structure Idle (s s' : Controller) : Prop where
  same : SameDriver s.core s'.core
  eq : s' = { s with core := s'.core }

theorem Idle.refl (s : Controller) : Idle s s := ⟨SameDriver.refl _, rfl⟩

theorem Idle.trans {s s' s'' : Controller} (h : Idle s s') (h' : Idle s' s'') : Idle s s'' where
  same := h.same.trans h'.same
  eq := by rw [h'.eq, h.eq]

theorem Idle.calls (h : Idle s s') : s'.calls = s.calls := by rw [h.eq]

theorem Idle.bound (h : Idle s s') : s'.bound = s.bound := by rw [h.eq]

theorem Sane.of_idle (h : Sane s) (hc : Idle s s') : Sane s' where
  free := by rw [hc.eq]; exact h.free
  started := by rw [hc.calls, hc.same.gadgetDriver]; exact h.started
  bound := by rw [hc.same.driver, hc.bound]; exact h.bound
  clean := by rw [hc.calls]; exact h.clean
  stopped := by rw [hc.bound, hc.same.gadgetDriver]; exact h.stopped

theorem gadget_calls {k : GadgetCall} (h : s.gadget k = .ok s' ∨ s.gadget k = .error s') :
    s'.calls = s.calls := by
  unfold Controller.gadget at h
  split at h
  · rcases h with h | h
    · cases h
    · cases h
      rfl
  · split at h
    · rcases h with h | h
      · cases h
        rfl
      · cases h
    · rcases h with h | h
      · cases h
      · cases h
        rfl

theorem gadget_ok (hf : s.held = false) (hd : s.core.driver.isSome = true) (k : GadgetCall) :
    ∃ s', s.gadget k = .ok s' ∧ Idle s s' := by
  obtain ⟨core, hcall⟩ := call_isSome hd k
  refine ⟨{ s with core := core }, ?_, sameDriver_call hcall, rfl⟩
  unfold Controller.gadget
  rw [hf, hcall]
  rfl

theorem gadgets_ok (hf : s.held = false) (hd : s.core.driver.isSome = true)
    (ks : List GadgetCall) : ∃ s', Controller.gadgets ks s = .ok s' ∧ Idle s s' := by
  induction ks generalizing s with
  | nil => exact ⟨s, rfl, Idle.refl s⟩
  | cons k ks ih =>
    obtain ⟨s₁, h₁, hc₁⟩ := gadget_ok hf hd k
    have hf₁ : s₁.held = false := by rw [hc₁.eq]; exact hf
    obtain ⟨s₂, h₂, hc₂⟩ := ih hf₁ (hc₁.same.driver ▸ hd)
    refine ⟨s₂, ?_, hc₁.trans hc₂⟩
    rw [Controller.gadgets, h₁]
    exact h₂

theorem usbUdcConnectControl_ok (hf : s.held = false) (hd : s.core.driver.isSome = true) :
    ∃ s', s.usbUdcConnectControl = .ok s' ∧ Idle s s' := by
  unfold Controller.usbUdcConnectControl
  split
  · exact gadget_ok hf hd .connect
  · exact gadget_ok hf hd .disconnect

/-! ## The operations on one UDC -/

/-- A UDC after an operation that starts it, if at all, in turn. -/
structure Regular (s s' : Controller) : Prop where
  sane : Sane s'
  orderly : Orderly s'.calls ↔ Orderly s.calls

theorem Regular.of_idle (h : Sane s) (hc : Idle s s') : Regular s s' where
  sane := h.of_idle hc
  orderly := by rw [hc.calls]

/-- **A bind** to a UDC without a driver starts it at most once, and only when it is stopped. -/
theorem udcBindToDriver_ok (h : Sane s) (hb : s.bound = none) (d : DriverId)
    (driver : GadgetDriver) (beh : Behaviour) :
    ∃ ret s', s.udcBindToDriver d driver beh = .ok (ret, s') ∧ Regular s s' := by
  have hstop : isStarted s.calls = false := by
    rw [h.started, h.stopped hb]
    rfl
  obtain ⟨s₁, h₁, hc₁⟩ := gadgets_ok (s := s.setDriver d driver) h.free rfl beh.bindCalls
  have hs₁ : Sane s₁ := (h.setDriver d).of_idle hc₁
  have hcalls₁ : s₁.calls = s.calls := hc₁.calls
  have hstop₁ : s₁.core.udc.gadgetDriver = none := hc₁.same.gadgetDriver.trans (h.stopped hb)
  have hb₁ : s₁.bound.isSome = true := by
    rw [hc₁.bound]
    rfl
  unfold Controller.udcBindToDriver
  rw [h₁]
  by_cases hret : beh.bindRet ≠ 0
  · refine ⟨beh.bindRet, s₁.clearDriver, if_pos hret, hs₁.clearDriver hstop₁, ?_⟩
    show Orderly s₁.calls ↔ _
    rw [hcalls₁]
  · have hbegun : Sane (s₁.begun driver) := hs₁.begun hb₁
    obtain ⟨s₂, h₂, hc₂⟩ := usbUdcConnectControl_ok hbegun.free (hbegun.bound.trans hb₁)
    refine ⟨0, s₂, ?_, hbegun.of_idle hc₂, ?_⟩
    · show (if _ then _ else _) = _
      rw [if_neg hret, usbGadgetUdcStart_eq hs₁.free hstop₁]
      simp only [bind, Except.bind, ne_eq, not_true_eq_false, if_false, h₂]
      rfl
    · rw [hc₂.calls]
      show isStarted s₁.calls = false ∧ Orderly s₁.calls ↔ _
      rw [hcalls₁, and_iff_right hstop]

theorem usbGadgetRemoveDriver_ok (h : Sane s) (hb : s.bound.isSome = true) (beh : Behaviour) :
    ∃ s', s.usbGadgetRemoveDriver beh = .ok s' ∧ Sane s' ∧ s'.bound = none ∧
      s'.calls = .stop :: s.calls := by
  obtain ⟨s₁, h₁, hc₁⟩ := gadget_ok h.free (h.bound.trans hb) .disconnect
  have hs₁ : Sane s₁ := h.of_idle hc₁
  have hb₁ : s₁.core.driver.isSome = true := hs₁.bound.trans (hc₁.bound ▸ hb)
  obtain ⟨s₂, h₂, hc₂⟩ := gadgets_ok hs₁.free hb₁ beh.unbindCalls
  have hs₂ : Sane s₂ := hs₁.of_idle hc₂
  refine ⟨s₂.ended.clearDriver, ?_, hs₂.ended.clearDriver rfl, rfl, ?_⟩
  · unfold Controller.usbGadgetRemoveDriver
    rw [h₁]
    show (do
      let s ← Controller.gadgets beh.unbindCalls s₁
      let s ← s.usbGadgetUdcStop
      pure s.clearDriver) = _
    rw [h₂]
    show (do
      let s ← s₂.usbGadgetUdcStop
      pure s.clearDriver) = _
    rw [usbGadgetUdcStop_eq hs₂.free]
    rfl
  · show Callback.stop :: s₂.calls = _
    rw [hc₂.calls, hc₁.calls]

theorem checkPendingGadgetDrivers_ok (h : Sane s) (hb : s.bound = none)
    (pending : List DriverId) :
    ∃ ret rest s', s.checkPendingGadgetDrivers drv beh pending = .ok ((ret, rest), s') ∧
      Regular s s' := by
  unfold Controller.checkPendingGadgetDrivers
  cases pending.find? (s.suits drv) with
  | none => exact ⟨0, pending, s, rfl, Regular.of_idle h (Idle.refl s)⟩
  | some d =>
    obtain ⟨ret, s', hrun, hreg⟩ := udcBindToDriver_ok h hb d (drv d).gadgetDriver (beh d)
    refine ⟨ret, if ret ≠ -EPROBE_DEFER then pending.erase d else pending, s', ?_, hreg⟩
    dsimp only
    rw [hrun]
    rfl

theorem disconnect_ok (h : Sane s) {d : DriverId} (hb : s.bound = some d) {buf : String}
    (hc : ¬ sysfsStreq buf "connect" = true) (hd : sysfsStreq buf "disconnect" = true) :
    ∃ s', s.softConnectStore drv buf = .ok (buf.utf8ByteSize, s') ∧ Sane s' ∧
      s'.calls = .stop :: s.calls := by
  have hdrv : s.core.driver.isSome = true := h.bound.trans (hb ▸ rfl)
  obtain ⟨s₁, h₁, hc₁⟩ := gadget_ok h.free hdrv .disconnect
  have hs₁ : Sane s₁ := h.of_idle hc₁
  refine ⟨s₁.ended, ?_, hs₁.ended, congrArg (List.cons _) hc₁.calls⟩
  unfold Controller.softConnectStore
  rw [hb]
  dsimp only
  rw [if_neg hc, if_pos hd, h₁]
  show (do
    let s ← s₁.usbGadgetUdcStop
    pure ((buf.utf8ByteSize : Int), s)) = _
  rw [usbGadgetUdcStop_eq hs₁.free]
  rfl

/-- In turn, `soft_connect` keeps the pairing. -/
theorem softConnectStore_ok (h : Sane s) {buf : String}
    (hturn : s.bound.isSome = true →
      if sysfsStreq buf "connect" then s.core.udc.gadgetDriver = none
      else sysfsStreq buf "disconnect" = true → s.core.udc.gadgetDriver.isSome = true) :
    ∃ ret s', s.softConnectStore drv buf = .ok (ret, s') ∧ Regular s s' := by
  cases hb : s.bound with
  | none =>
    refine ⟨-EOPNOTSUPP, s, ?_, Regular.of_idle h (Idle.refl s)⟩
    unfold Controller.softConnectStore
    rw [hb]
    rfl
  | some d =>
    have hsome : s.bound.isSome = true := hb ▸ rfl
    have hcond := hturn hsome
    by_cases hc : sysfsStreq buf "connect" = true
    · rw [if_pos hc] at hcond
      have hbegun : Sane (s.begun (drv d).gadgetDriver) := h.begun hsome
      obtain ⟨s₁, h₁, hc₁⟩ := gadget_ok hbegun.free (hbegun.bound.trans hsome) .connect
      refine ⟨buf.utf8ByteSize, s₁, ?_, hbegun.of_idle hc₁, ?_⟩
      · unfold Controller.softConnectStore
        rw [hb]
        dsimp only
        rw [if_pos hc, usbGadgetUdcStart_eq h.free hcond]
        show (do
          let s ← (s.begun (drv d).gadgetDriver).gadget .connect
          pure ((buf.utf8ByteSize : Int), s)) = _
        rw [h₁]
        rfl
      · have hstop : isStarted s.calls = false := by rw [h.started, hcond]; rfl
        rw [hc₁.calls]
        exact and_iff_right hstop
    · rw [if_neg hc] at hcond
      by_cases hd : sysfsStreq buf "disconnect" = true
      · obtain ⟨s', hrun, hs', hcalls⟩ := disconnect_ok drv h hb hc hd
        refine ⟨_, s', hrun, hs', ?_⟩
        rw [hcalls]
        exact and_iff_right (h.started.trans (hcond hd))
      · refine ⟨-EINVAL, s, ?_, Regular.of_idle h (Idle.refl s)⟩
        unfold Controller.softConnectStore
        rw [hb]
        dsimp only
        rw [if_neg hc, if_neg hd]
        rfl

/-- A UDC as an operation leaves it. -/
def leaves {α : Type} : Except Controller (α × Controller) → Controller
  | .ok (_, s) => s
  | .error s => s

theorem not_paired_of_stop {calls : List Callback} (hstop : isStarted calls = false)
    (hcalls : Orderly s'.calls → Orderly (.stop :: calls)) : ¬ Paired s' := fun h =>
  Bool.noConfusion (hstop.symm.trans (hcalls h.orderly).1)

theorem softConnectStore_bad (h : Sane s) {buf : String}
    (hturn : ¬ (s.bound.isSome = true →
      if sysfsStreq buf "connect" then s.core.udc.gadgetDriver = none
      else sysfsStreq buf "disconnect" = true → s.core.udc.gadgetDriver.isSome = true)) :
    ¬ Paired (leaves (s.softConnectStore drv buf)) := by
  obtain ⟨hsome, hcond⟩ := Classical.not_imp.mp hturn
  obtain ⟨d, hb⟩ := Option.isSome_iff_exists.mp hsome
  by_cases hc : sysfsStreq buf "connect" = true
  · rw [if_pos hc] at hcond
    have hstart : s.core.udc.gadgetDriver.isSome = true := Option.isSome_iff_ne_none.mpr hcond
    suffices hlog : (leaves (s.softConnectStore drv buf)).calls = .start false :: s.calls from
      fun hp => hp.clean (hlog ▸ List.mem_cons_self)
    unfold Controller.softConnectStore
    rw [hb]
    dsimp only
    rw [if_pos hc, usbGadgetUdcStart_of_started h.free hstart]
    simp only [bind, Except.bind]
    split
    · exact gadget_calls (.inr ‹_›)
    · exact gadget_calls (.inl ‹_›)
  · rw [if_neg hc] at hcond
    obtain ⟨hd, hstart⟩ := Classical.not_imp.mp hcond
    obtain ⟨s', hrun, -, hcalls⟩ := disconnect_ok drv h hb hc hd
    rw [hrun]
    refine not_paired_of_stop (h.started.trans (Bool.eq_false_iff.mpr hstart)) fun ho => ?_
    rw [← hcalls]
    exact ho

/-! ## The operations of the core -/

/-- No operation hangs, and every UDC's log is as it should be. -/
structure AllFine (k : UdcCore) : Prop where
  running : k.hung = false
  fine : ∀ s ∈ k.udcs ++ k.gone, Sane s ∧ Orderly s.calls

variable {k k' : UdcCore} {i : Nat}

theorem AllFine.allPaired (h : AllFine k) : AllPaired k := fun s hs =>
  (h.fine s hs).1.paired (h.fine s hs).2

theorem AllFine.of_getElem? (h : AllFine k) (hs : k.udcs[i]? = some s) :
    Sane s ∧ Orderly s.calls :=
  h.fine s (List.mem_append_left _ (List.mem_of_getElem? hs))

theorem AllFine.of_forall (h : AllFine k) {udcs gone : List Controller} {pending : List DriverId}
    (hall : ∀ s ∈ udcs ++ gone, (Sane s ∧ Orderly s.calls) ∨ s ∈ k.udcs ++ k.gone) :
    AllFine ⟨udcs, pending, gone, k.hung⟩ where
  running := h.running
  fine s hs := (hall s hs).elim id (h.fine s)

theorem AllFine.settle (h : AllFine k) {run : Except Controller (List DriverId × Controller)}
    (pending : List DriverId) (s' : Controller) (hrun : run = .ok (pending, s')) (hs' : Sane s')
    (ho : Orderly s'.calls) : AllFine (k.settle i run) := by
  rw [hrun]
  refine h.of_forall fun s hs => ?_
  rcases List.mem_append.mp hs with hs | hs
  · rcases List.mem_or_eq_of_mem_set hs with hs | rfl
    · exact .inr (List.mem_append_left _ hs)
    · exact .inl ⟨hs', ho⟩
  · exact .inr (List.mem_append_right _ hs)

theorem mem_settle (hs : k.udcs[i]? = some s)
    (run : Except Controller (List DriverId × Controller)) :
    leaves run ∈ (k.settle i run).udcs ++ (k.settle i run).gone := by
  have hi : i < k.udcs.length := (List.getElem?_eq_some_iff.mp hs).1
  refine List.mem_append_left _ ?_
  cases run with
  | ok r => exact List.mem_set hi r.2
  | error t => exact List.mem_set hi t

theorem getElem?_of_findIdx? {p : Controller → Bool} {l : List Controller}
    (h : l.findIdx? p = some i) : ∃ s, l[i]? = some s ∧ p s = true := by
  obtain ⟨hi, hp, -⟩ := List.findIdx?_eq_some_iff_getElem.mp h
  exact ⟨l[i], List.getElem?_eq_getElem hi, hp⟩

theorem findUdc_bound {d : DriverId} (h : k.findUdc drv d = .ok i) :
    ∃ s, k.udcs[i]? = some s ∧ s.bound = none := by
  unfold UdcCore.findUdc at h
  cases hname : (drv d).udcName with
  | none =>
    rw [hname] at h
    dsimp only at h
    cases hfind : k.udcs.findIdx? fun s => s.bound.isNone with
    | none => rw [hfind] at h; cases h
    | some j =>
      rw [hfind] at h
      cases h
      obtain ⟨s, hs, hp⟩ := getElem?_of_findIdx? hfind
      exact ⟨s, hs, Option.isNone_iff_eq_none.mp hp⟩
  | some name =>
    rw [hname] at h
    dsimp only at h
    cases hfind : k.udcs.findIdx? fun s => s.name == name with
    | none => rw [hfind] at h; cases h
    | some j =>
      rw [hfind] at h
      obtain ⟨s, hs, -⟩ := getElem?_of_findIdx? hfind
      dsimp only at h
      rw [hs] at h
      split at h
      · cases h
      · cases h
        refine ⟨s, hs, Option.not_isSome_iff_eq_none.mp ?_⟩
        assumption

theorem newUdc_sane (name : String) (dynamicMaxpktsize : Bool) :
    Sane (UdcCore.newUdc name dynamicMaxpktsize) :=
  ⟨rfl, rfl, rfl, List.not_mem_nil, fun _ => rfl⟩

theorem AllFine.add (h : AllFine k) (name : String) (dynamicMaxpktsize : Bool) :
    AllFine (k.usbAddGadgetUdc drv beh name dynamicMaxpktsize) := by
  obtain ⟨ret, rest, s', hrun, hreg⟩ := checkPendingGadgetDrivers_ok drv beh
    (newUdc_sane name dynamicMaxpktsize) rfl k.pending
  have hs' : Sane s' ∧ Orderly s'.calls := ⟨hreg.sane, hreg.orderly.mpr trivial⟩
  unfold UdcCore.usbAddGadgetUdc
  rw [hrun]
  dsimp only
  split
  · refine h.of_forall fun s hs => ?_
    rw [List.mem_append, List.mem_cons] at hs
    rcases hs with hs | rfl | hs
    · exact .inr (List.mem_append_left _ hs)
    · exact .inl hs'
    · exact .inr (List.mem_append_right _ hs)
  · refine h.of_forall fun s hs => ?_
    rw [List.mem_append, List.mem_append, List.mem_singleton] at hs
    rcases hs with (hs | rfl) | hs
    · exact .inr (List.mem_append_left _ hs)
    · exact .inl hs'
    · exact .inr (List.mem_append_right _ hs)

theorem AllFine.probe (h : AllFine k) (d : DriverId) :
    AllFine (k.usbGadgetProbeDriver drv beh d) := by
  unfold UdcCore.usbGadgetProbeDriver
  split
  · exact h
  · cases hfind : k.findUdc drv d with
    | error e =>
      dsimp only
      split
      · exact h
      · exact ⟨h.running, h.fine⟩
    | ok i =>
      obtain ⟨s, hs, hb⟩ := findUdc_bound drv hfind
      obtain ⟨hsane, ho⟩ := h.of_getElem? hs
      obtain ⟨ret, s', hrun, hreg⟩ :=
        udcBindToDriver_ok hsane hb d (drv d).gadgetDriver (beh d)
      dsimp only
      rw [hs]
      refine h.settle k.pending s' ?_ hreg.sane (hreg.orderly.mpr ho)
      rw [hrun]
      rfl

theorem AllFine.of_erase (h : AllFine k) {pending : List DriverId} (hs' : Sane s')
    (ho : Orderly s'.calls) : AllFine ⟨k.udcs.eraseIdx i, pending, s' :: k.gone, k.hung⟩ := by
  refine h.of_forall fun s hs => ?_
  rw [List.mem_append, List.mem_cons] at hs
  rcases hs with hs | rfl | hs
  · exact .inr (List.mem_append_left _ (List.mem_of_mem_eraseIdx hs))
  · exact .inl ⟨hs', ho⟩
  · exact .inr (List.mem_append_right _ hs)

/-- The core after an operation is as it should be just when the operation's condition holds. -/
structure Decides (k : UdcCore) (C : Prop) : Prop where
  cond : AllPaired k → C
  fine : C → AllFine k

theorem AllFine.decides (h : AllFine k) {C : Prop} (hC : C) : Decides k C :=
  ⟨fun _ => hC, fun _ => h⟩

theorem del_decides (h : AllFine k) (hs : k.udcs[i]? = some s) :
    Decides (k.usbDelGadgetUdc beh i s)
      (s.bound.isSome = true → s.core.udc.gadgetDriver.isSome = true) := by
  obtain ⟨hsane, ho⟩ := h.of_getElem? hs
  unfold UdcCore.usbDelGadgetUdc
  cases hb : s.bound with
  | none => exact (h.of_erase hsane ho).decides nofun
  | some d =>
    obtain ⟨s', hrun, hs', -, hcalls⟩ :=
      usbGadgetRemoveDriver_ok hsane (hb ▸ rfl : s.bound.isSome = true) (beh d)
    have hord : Orderly s'.calls ↔ s.core.udc.gadgetDriver.isSome = true := by
      rw [hcalls, Orderly, hsane.started, and_iff_left ho]
    dsimp only
    rw [hrun]
    constructor
    · exact fun hp _ => hord.mp (hp s' (List.mem_append_right _ List.mem_cons_self)).orderly
    · exact fun hstart => h.of_erase hs' (hord.mpr (hstart rfl))

theorem unregister_decides (h : AllFine k) (d : DriverId) :
    Decides (k.usbGadgetUnregisterDriver drv beh d) (InTurn drv k (.unregister d beh)) := by
  unfold UdcCore.usbGadgetUnregisterDriver
  by_cases hun : (!(drv d).unbind) = true
  · rw [if_pos hun]
    refine h.decides fun hu => ?_
    rw [hu] at hun
    exact nomatch hun
  · rw [if_neg hun]
    have hu : (drv d).unbind = true := by simpa using hun
    cases hfind : k.udcs.findIdx? fun s => s.bound == some d with
    | none =>
      have hfine : AllFine { k with pending := k.pending.erase d } := ⟨h.running, h.fine⟩
      exact hfine.decides fun _ i s hi => nomatch hfind.symm.trans hi
    | some i =>
      obtain ⟨s, hs, hp⟩ := getElem?_of_findIdx? hfind
      have hb : s.bound = some d := eq_of_beq hp
      obtain ⟨hsane, ho⟩ := h.of_getElem? hs
      obtain ⟨s₁, h₁, hs₁, hb₁, hcalls⟩ :=
        usbGadgetRemoveDriver_ok hsane (hb ▸ rfl : s.bound.isSome = true) (beh d)
      obtain ⟨ret, rest, s₂, h₂, hreg⟩ :=
        checkPendingGadgetDrivers_ok drv beh hs₁ hb₁ k.pending
      have hord : Orderly s₂.calls ↔ s.core.udc.gadgetDriver.isSome = true := by
        rw [hreg.orderly, hcalls, Orderly, hsane.started, and_iff_left ho]
      have hrun : (do
          let s ← s.usbGadgetRemoveDriver (beh d)
          let ((_, pending), s) ← s.checkPendingGadgetDrivers drv beh k.pending
          pure (pending, s)) = (.ok (rest, s₂) : Except Controller _) := by
        simp only [bind, Except.bind, h₁, h₂]
        rfl
      dsimp only
      rw [hs]
      dsimp only
      rw [hrun]
      constructor
      · intro hpair _ i' s' hi' hs'
        obtain rfl : i = i' := Option.some.inj (hfind.symm.trans hi')
        obtain rfl : s = s' := Option.some.inj (hs.symm.trans hs')
        exact hord.mp (hpair s₂ (mem_settle hs (.ok (rest, s₂)))).orderly
      · exact fun hturn => h.settle _ _ rfl hreg.sane (hord.mpr (hturn hu i s hfind hs))

theorem softConnect_decides (h : AllFine k) (hs : k.udcs[i]? = some s) (buf : String) :
    Decides (k.settle i do
        let (_, s) ← s.softConnectStore drv buf
        pure (k.pending, s))
      (s.bound.isSome = true →
        if sysfsStreq buf "connect" then s.core.udc.gadgetDriver = none
        else sysfsStreq buf "disconnect" = true → s.core.udc.gadgetDriver.isSome = true) := by
  obtain ⟨hsane, ho⟩ := h.of_getElem? hs
  constructor
  · intro hpair
    by_contra hturn
    refine softConnectStore_bad drv hsane hturn ?_
    have hleft : leaves (s.softConnectStore drv buf) = leaves (do
        let (_, s) ← s.softConnectStore drv buf
        pure (k.pending, s)) := by
      cases s.softConnectStore drv buf <;> rfl
    rw [hleft]
    exact hpair _ (mem_settle hs _)
  · intro hturn
    obtain ⟨ret, s', hstore, hreg⟩ := softConnectStore_ok drv hsane hturn
    refine h.settle k.pending s' ?_ hreg.sane (hreg.orderly.mpr ho)
    rw [hstore]
    rfl

theorem AllFine.call (h : AllFine k) (hs : k.udcs[i]? = some s) (hb : s.bound.isSome = true)
    (call : GadgetCall) :
    AllFine (k.settle i ((s.gadget call).map fun s => (k.pending, s))) := by
  obtain ⟨hsane, ho⟩ := h.of_getElem? hs
  obtain ⟨s', hrun, hc⟩ := gadget_ok hsane.free (hsane.bound.trans hb) call
  have hreg : Regular s s' := Regular.of_idle hsane hc
  refine h.settle k.pending s' ?_ hreg.sane (hreg.orderly.mpr ho)
  rw [hrun]
  rfl

theorem AllFine.vbusSession (h : AllFine k) (hs : k.udcs[i]? = some s) (isActive : Bool) :
    AllFine (k.settle i
      ((s.enter (rtsGadgetVbusSession isActive)).map fun r => (k.pending, r.2))) := by
  obtain ⟨hsane, ho⟩ := h.of_getElem? hs
  have hrun := enter_of_entry hsane.free (entry_rtsGadgetVbusSession s.core.udc isActive)
  rw [hrun]
  refine h.settle _ _ rfl ⟨?_, ?_, ?_, ?_, ?_⟩ ho
  · exact hsane.free
  · exact hsane.started
  · exact hsane.bound
  · exact hsane.clean
  · exact hsane.stopped

/-! ## Runs -/

/-- **Every step** keeps the pairing just when it is in turn. -/
theorem udcStep_decides (h : AllFine k) (e : UdcEvent) (hstep : udcStep drv k e = some k') :
    Decides k' (InTurn drv k e) := by
  have hrun : ¬ k.hung = true := by
    rw [h.running]
    exact nofun
  cases e with
  | add name dynamicMaxpktsize beh =>
    obtain rfl := Option.some.inj ((if_neg hrun).symm.trans hstep)
    exact (h.add drv beh name dynamicMaxpktsize).decides trivial
  | del i beh =>
    obtain ⟨s, hs, rfl⟩ := Option.map_eq_some_iff.mp ((if_neg hrun).symm.trans hstep)
    have hdel := del_decides beh h hs
    unfold InTurn
    constructor
    · intro hpair s' hs'
      obtain rfl : s = s' := Option.some.inj (hs.symm.trans hs')
      exact hdel.cond hpair
    · exact fun hturn => hdel.fine (hturn s hs)
  | probe d beh =>
    obtain ⟨-, hstep⟩ := Option.ite_none_left_eq_some.mp hstep
    obtain rfl := Option.some.inj hstep
    exact (h.probe drv beh d).decides trivial
  | unregister d beh =>
    obtain rfl := Option.some.inj ((if_neg hrun).symm.trans hstep)
    exact unregister_decides drv beh h d
  | softConnect i buf =>
    obtain ⟨s, hs, rfl⟩ := Option.map_eq_some_iff.mp ((if_neg hrun).symm.trans hstep)
    have hsoft := softConnect_decides drv h hs buf
    unfold InTurn
    constructor
    · intro hpair s' hs'
      obtain rfl : s = s' := Option.some.inj (hs.symm.trans hs')
      exact hsoft.cond hpair
    · exact fun hturn => hsoft.fine (hturn s hs)
  | call i call =>
    obtain ⟨s, hs, hstep⟩ := Option.bind_eq_some_iff.mp hstep
    obtain ⟨hb, hstep⟩ := Option.ite_none_left_eq_some.mp hstep
    obtain rfl := Option.some.inj hstep
    exact (h.call hs (by simpa [Option.isSome_iff_ne_none] using hb) call).decides trivial
  | vbusSession i isActive =>
    obtain ⟨s, hs, rfl⟩ := Option.map_eq_some_iff.mp hstep
    exact (h.vbusSession hs isActive).decides trivial

theorem udcStep_isSome_of_not (h : AllFine k) {e : UdcEvent} (hturn : ¬ InTurn drv k e) :
    ∃ k', udcStep drv k e = some k' := by
  have hrun : ¬ k.hung = true := by
    rw [h.running]
    exact nofun
  cases e with
  | add | probe | call | vbusSession => exact absurd trivial hturn
  | unregister d beh => exact ⟨_, if_neg hrun⟩
  | del i beh =>
    obtain ⟨s, hnot⟩ := not_forall.mp hturn
    obtain ⟨hs, -⟩ := Classical.not_imp.mp hnot
    exact ⟨_, (if_neg hrun).trans (congrArg (Option.map _) hs)⟩
  | softConnect i buf =>
    obtain ⟨s, hnot⟩ := not_forall.mp hturn
    obtain ⟨hs, -⟩ := Classical.not_imp.mp hnot
    exact ⟨_, (if_neg hrun).trans (congrArg (Option.map _) hs)⟩

/-- **Start and stop pairing.**  In every state of a run the callbacks of every UDC alternate, no
start is turned away and a UDC without a driver is stopped, just when every operation of the run is
in turn. -/
theorem allPaired_iff_inTurn (es : List UdcEvent) :
    (∀ es₁ es₂ k, es = es₁ ++ es₂ → exec (udcStep drv) UdcCore.init es₁ = some k → AllPaired k) ↔
      Along (udcStep drv) (InTurn drv) UdcCore.init es := by
  have hinit : AllFine UdcCore.init := ⟨rfl, fun s hs => nomatch hs⟩
  rw [Runs.forall_reached_iff, and_iff_right hinit.allPaired]
  refine Along.congr (P := AllFine) ?_ ?_ hinit
  · intro k e k' h hpair hstep
    have hdec := udcStep_decides drv h e hstep
    exact hdec.fine (hdec.cond (hpair k' hstep))
  · intro k e h
    constructor
    · intro hpair
      by_contra hturn
      obtain ⟨k', hstep⟩ := udcStep_isSome_of_not drv h hturn
      exact hturn ((udcStep_decides drv h e hstep).cond (hpair k' hstep))
    · exact fun hturn k' hstep => ((udcStep_decides drv h e hstep).fine hturn).allPaired

/-- A gadget driver for any UDC. -/
def plainDriver : UsbGadgetDriver := ⟨none, false, true, true, true, {}⟩

/-- `bind` and `unbind` that do nothing. -/
def plainBehaviour : Behaviour := ⟨[], 0, []⟩

def boundUdc : List UdcEvent :=
  [.add "udc" false fun _ => plainBehaviour, .probe 0 fun _ => plainBehaviour]

/-- `connect` starts a UDC that is started already, and `disconnect` before the driver is removed
makes it stopped twice. -/
theorem soft_connect_out_of_turn :
    (∃ k, exec (udcStep fun _ => plainDriver) UdcCore.init
          (boundUdc ++ [.softConnect 0 "connect"]) =
        some k ∧ ¬ AllPaired k) ∧
      ∃ k, exec (udcStep fun _ => plainDriver) UdcCore.init
          (boundUdc ++ [.softConnect 0 "disconnect\n", .unregister 0 fun _ => plainBehaviour]) =
        some k ∧ ¬ AllPaired k := by
  have hconnect : (exec (udcStep fun _ => plainDriver) UdcCore.init
      (boundUdc ++ [.softConnect 0 "connect"])).map (fun k => k.udcs.map Controller.calls) =
        some [[.start false, .start true]] := by decide +kernel
  have hdisconnect : (exec (udcStep fun _ => plainDriver) UdcCore.init
      (boundUdc ++ [.softConnect 0 "disconnect\n", .unregister 0 fun _ => plainBehaviour])).map
        (fun k => k.udcs.map Controller.calls) = some [[.stop, .stop, .start true]] := by
    decide +kernel
  have hlog : ∀ {k : UdcCore} {calls : List Callback}, k.udcs.map Controller.calls = [calls] →
      AllPaired k → Orderly calls := by
    intro k calls hk hpair
    obtain ⟨s, hs, rfl⟩ := List.map_eq_singleton_iff.mp hk
    exact (hpair s (List.mem_append_left _ (hs ▸ List.mem_singleton_self s))).orderly
  obtain ⟨k, hrun, hk⟩ := Option.map_eq_some_iff.mp hconnect
  obtain ⟨k', hrun', hk'⟩ := Option.map_eq_some_iff.mp hdisconnect
  refine ⟨⟨k, hrun, fun h => ?_⟩, ⟨k', hrun', fun h => ?_⟩⟩
  · exact Bool.noConfusion (hlog hk h).1
  · exact Bool.noConfusion (hlog hk' h).1

end RealtekIpcam.Udc
