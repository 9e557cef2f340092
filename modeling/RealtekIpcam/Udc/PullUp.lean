import RealtekIpcam.Lib.Runs
import RealtekIpcam.Udc.Program

/-!
# The pull-up

Whether the host sees the device is one bit, and three layers keep flags for it: the gadget
has `connected` and `deactivated`, the UDC core `vbus`, and the driver `gadgetstart` and
`vbuson`.  The core switches the pull-up only for a gadget that is not deactivated.  The driver
switches it on whenever VBUS comes on while `gadgetstart` is set, and
`rts_gadget_udc_start` sets that for a deactivated gadget as well.

`VisibleOk` is what should hold of the pull-up between two operations.  It is kept by every
operation but four kinds, and `Gated` says which of these keep it.
-/

namespace RealtekIpcam.Udc

open LockLogic
open Runs (Along exec)

/-- `struct usb_gadget` and `struct usb_udc`, with the UDC that they are about. -/
structure GadgetCore where
  connected : Bool
  deactivated : Bool
  driver : Option GadgetDriver
  vbus : Bool
  udc : Udc

/-- What an action does to the pull-up. -/
def Action.connect? : Action → Option Bool
  | .connect on => some on
  | _ => none

/-- The pull-up: the last of `rts_usb_connect` and `rts_usb_disconnect`. -/
def pulledUp (u : Udc) : Bool := (u.log.findSome? Action.connect?).getD false

/-- A call of an entry point of the driver, `none` when it does not return with the lock
released. -/
def entry (p : Prog Udc Int) (u : Udc) : Option (Int × Udc) :=
  match p u false with
  | .ret ret u false => some (ret, u)
  | _ => none

/-! ## The functions of the core -/

namespace GadgetCore

variable (c : GadgetCore)

def usbGadgetConnect : Option (Int × GadgetCore) :=
  if c.deactivated then some (0, { c with connected := true })
  else (entry (rtsGadgetPullup true) c.udc).map fun (ret, udc) =>
    if ret = 0 then (ret, { c with udc := udc, connected := true })
    else (ret, { c with udc := udc })

/-- `usb_gadget_disconnect`.  It calls the driver, which must be there, and whose `disconnect`
leaves the flags alone. -/
def usbGadgetDisconnect : Option (Int × GadgetCore) :=
  if c.deactivated then some (0, { c with connected := false })
  else (entry (rtsGadgetPullup false) c.udc).bind fun (ret, udc) =>
    if ret = 0 then
      if c.driver.isNone then none
      else some (ret, { c with udc := udc, connected := false })
    else some (ret, { c with udc := udc })

def usbGadgetDeactivate : Option (Int × GadgetCore) :=
  if c.deactivated then some (0, c)
  else if c.connected then
    c.usbGadgetDisconnect.map fun (ret, c) =>
      if ret ≠ 0 then (ret, c) else (ret, { c with connected := true, deactivated := true })
  else some (0, { c with deactivated := true })

def usbGadgetActivate : Option (Int × GadgetCore) :=
  if !c.deactivated then some (0, c)
  else
    let c := { c with deactivated := false }
    if c.connected then c.usbGadgetConnect else some (0, c)

def usbUdcConnectControl : Option GadgetCore :=
  if c.vbus then c.usbGadgetConnect.map Prod.snd else c.usbGadgetDisconnect.map Prod.snd

end GadgetCore

/-- The four functions that a gadget driver may call. -/
inductive GadgetCall where
  | connect
  | disconnect
  | deactivate
  | activate
  deriving DecidableEq

namespace GadgetCore

variable (c : GadgetCore)

def call (c : GadgetCore) : GadgetCall → Option GadgetCore
  | .connect => c.usbGadgetConnect.map Prod.snd
  | .disconnect => c.usbGadgetDisconnect.map Prod.snd
  | .deactivate => c.usbGadgetDeactivate.map Prod.snd
  | .activate => c.usbGadgetActivate.map Prod.snd

/-- `udc_bind_to_driver`, for a driver whose `bind` makes the calls and returns `ret`. -/
def udcBindToDriver (driver : GadgetDriver) (calls : List GadgetCall) (ret : Int) :
    Option (Int × GadgetCore) :=
  (exec call { c with driver := some driver } calls).bind fun c =>
    if ret ≠ 0 then some (ret, { c with driver := none })
    else (entry (rtsGadgetUdcStart driver) c.udc).bind fun (ret, udc) =>
      if ret ≠ 0 then some (ret, { c with udc := udc, driver := none })
      else ({ c with udc := udc }.usbUdcConnectControl).map fun c => (0, c)

/-- `usb_gadget_remove_driver`, for a driver whose `unbind` makes the calls. -/
def usbGadgetRemoveDriver (calls : List GadgetCall) : Option GadgetCore :=
  c.usbGadgetDisconnect.bind fun (_, c) =>
    (exec call c calls).bind fun c =>
      (entry rtsGadgetUdcStop c.udc).map fun (_, udc) => { c with udc := udc, driver := none }

end GadgetCore

/-- An operation on the gadget. -/
inductive GadgetEvent where
  | call (k : GadgetCall)
  | vbusSession (isActive : Bool)
  | bind (driver : GadgetDriver) (calls : List GadgetCall) (ret : Int)
  | removeDriver (calls : List GadgetCall)

/-- The operations.  A driver is bound to a UDC that has none, and removed from one that has
one. -/
def gadgetStep (c : GadgetCore) : GadgetEvent → Option GadgetCore
  | .call k => c.call k
  | .vbusSession isActive =>
    (entry (rtsGadgetVbusSession isActive) c.udc).map fun (_, udc) => { c with udc := udc }
  | .bind driver calls ret =>
    if c.driver.isNone then (c.udcBindToDriver driver calls ret).map Prod.snd else none
  | .removeDriver calls => if c.driver.isSome then c.usbGadgetRemoveDriver calls else none

/-- `usb_add_gadget_udc`, for the driver after its probe. -/
def addGadgetUdc (dynamicMaxpktsize : Bool) : GadgetCore where
  connected := false
  deactivated := false
  driver := none
  vbus := true
  udc := probed dynamicMaxpktsize

/-! ## What should hold -/

/-- The device is visible only as a connected gadget with a driver, and with VBUS. -/
def VisibleOk (c : GadgetCore) : Prop :=
  pulledUp c.udc = true →
    c.udc.gadgetDriver.isSome = true ∧ c.connected = true ∧ c.deactivated = false ∧
      c.udc.vbuson = true

/-- What a call makes of `connected`. -/
def GadgetCall.connected (connected : Bool) : GadgetCall → Bool
  | .connect => true
  | .disconnect => false
  | .deactivate | .activate => connected

/-- What a call makes of `deactivated`. -/
def GadgetCall.deactivated (deactivated : Bool) : GadgetCall → Bool
  | .deactivate => true
  | .activate => false
  | .connect | .disconnect => deactivated

/-- The calls show a device that is not visible: with VBUS, the last connect or disconnect and the
last deactivation or activation leave the gadget connected and not deactivated, and the calls are
not just activations of a gadget that is so before them. -/
def Shows (c : GadgetCore) (calls : List GadgetCall) : Prop :=
  c.udc.vbuson = true ∧ calls.foldl GadgetCall.connected c.connected = true ∧
    calls.foldl GadgetCall.deactivated c.deactivated = false ∧
    ¬ (c.connected = true ∧ c.deactivated = false ∧ ∀ k ∈ calls, k = .activate)

/-- The operations that keep `VisibleOk`.  The gadget is connected with VBUS only when its
driver is started; VBUS comes on with `gadgetstart` only for a gadget that may be visible; the calls
of a bind that fails do not show the device, and neither do those of an unbind, which finds the
gadget disconnected. -/
def Gated (c : GadgetCore) : GadgetEvent → Prop
  | .call .connect => c.deactivated = false → c.udc.vbuson = true →
      c.udc.gadgetDriver.isSome = true
  | .call .activate => c.deactivated = true → c.connected = true → c.udc.vbuson = true →
      c.udc.gadgetDriver.isSome = true
  | .call .disconnect | .call .deactivate => True
  | .vbusSession isActive => isActive = true → c.udc.gadgetstart = true →
      c.udc.gadgetDriver.isSome = true ∧ c.connected = true ∧ c.deactivated = false
  | .bind _ calls ret => c.driver = none → ret ≠ 0 → ¬ Shows c calls
  | .removeDriver calls => c.driver.isSome = true → ¬ Shows { c with connected := false } calls

section Entry

variable (u : Udc)

@[simp] theorem pulledUp_connect (on : Bool) : pulledUp (u.emit (.connect on)) = on := rfl

theorem entry_rtsGadgetVbusSession (isActive : Bool) :
    entry (rtsGadgetVbusSession isActive) u =
      some (0, { u with vbuson := isActive }.emit (.connect (u.gadgetstart && isActive))) := by
  unfold entry rtsGadgetVbusSession
  rw [spinLock_bind, modify_bind, get_bind]
  dsimp only
  cases u.gadgetstart <;> cases isActive <;> rfl

theorem entry_rtsGadgetPullup (isOn : Bool) :
    entry (rtsGadgetPullup isOn) u =
      some (0, if isOn && !u.vbuson then { u with gadgetstart := isOn }
        else { u with gadgetstart := isOn }.emit (.connect isOn)) := by
  unfold entry rtsGadgetPullup
  rw [spinLock_bind, modify_bind, get_bind]
  dsimp only
  cases isOn <;> cases u.vbuson <;> rfl

theorem entry_rtsGadgetUdcStart (driver : GadgetDriver) (h : u.gadgetDriver = none) :
    entry (rtsGadgetUdcStart driver) u =
      some (0, { u.emit .phyInt with gadgetDriver := some driver, gadgetstart := true }) := by
  unfold entry rtsGadgetUdcStart
  rw [spinLock_bind, modify_bind, get_bind]
  have hfree : (u.emit .phyInt).gadgetDriver.isSome = false := by
    rw [show (u.emit .phyInt).gadgetDriver = none from h]
    rfl
  rw [hfree]
  rfl

end Entry

/-! ## What a call does -/

/-- The drivers and VBUS are the same. -/
structure SameDriver (c c' : GadgetCore) : Prop where
  driver : c'.driver = c.driver
  vbus : c'.vbus = c.vbus
  gadgetDriver : c'.udc.gadgetDriver = c.udc.gadgetDriver
  vbuson : c'.udc.vbuson = c.udc.vbuson

theorem SameDriver.refl (c : GadgetCore) : SameDriver c c := ⟨rfl, rfl, rfl, rfl⟩

variable {c c' c'' : GadgetCore}

theorem SameDriver.trans (h : SameDriver c c') (h' : SameDriver c' c'') : SameDriver c c'' where
  driver := h'.driver.trans h.driver
  vbus := h'.vbus.trans h.vbus
  gadgetDriver := h'.gadgetDriver.trans h.gadgetDriver
  vbuson := h'.vbuson.trans h.vbuson

/-- The device is visible only as a connected gadget, and with VBUS. -/
def CoreOk (c : GadgetCore) : Prop :=
  pulledUp c.udc = true →
    c.connected = true ∧ c.deactivated = false ∧ c.udc.vbuson = true

theorem VisibleOk.coreOk (h : VisibleOk c) : CoreOk c := fun hup => (h hup).2

theorem usbGadgetConnect_of_active (hd : c.deactivated = false) :
    c.usbGadgetConnect = some (0, { c with
      connected := true
      udc := if !c.udc.vbuson then { c.udc with gadgetstart := true }
        else { c.udc with gadgetstart := true }.emit (.connect true) }) := by
  unfold GadgetCore.usbGadgetConnect
  rw [hd, if_neg Bool.false_ne_true, entry_rtsGadgetPullup]
  rfl

theorem usbGadgetDisconnect_of_active (hd : c.deactivated = false) :
    c.usbGadgetDisconnect =
      if c.driver.isNone then none
      else some (0, { c with
        connected := false
        udc := { c.udc with gadgetstart := false }.emit (.connect false) }) := by
  unfold GadgetCore.usbGadgetDisconnect
  rw [hd, if_neg Bool.false_ne_true, entry_rtsGadgetPullup]
  rfl

/-- Connecting shows a gadget that is not deactivated. -/
theorem usbGadgetConnect_spec (c : GadgetCore) :
    ∃ c', c.usbGadgetConnect = some (0, c') ∧ SameDriver c c' ∧ c'.connected = true ∧
      c'.deactivated = c.deactivated ∧
      pulledUp c'.udc = (pulledUp c.udc || !c.deactivated && c.udc.vbuson) := by
  cases hd : c.deactivated with
  | true =>
    refine ⟨{ c with connected := true }, if_pos hd, ⟨rfl, rfl, rfl, rfl⟩, rfl, hd, ?_⟩
    exact (Bool.or_false _).symm
  | false =>
    refine ⟨_, usbGadgetConnect_of_active hd, ⟨rfl, rfl, ?_, ?_⟩, rfl, hd, ?_⟩
    · dsimp only
      split <;> rfl
    · dsimp only
      split <;> rfl
    · dsimp only
      cases c.udc.vbuson with
      | true => exact (Bool.or_true _).symm
      | false => exact (Bool.or_false _).symm

theorem usbGadgetDisconnect_spec {r : Int × GadgetCore} (h : c.usbGadgetDisconnect = some r) :
    SameDriver c r.2 ∧ r.1 = 0 ∧ r.2.connected = false ∧ r.2.deactivated = c.deactivated ∧
      pulledUp r.2.udc = (c.deactivated && pulledUp c.udc) := by
  cases hd : c.deactivated with
  | true =>
    obtain rfl := Option.some.inj ((if_pos hd).symm.trans h)
    exact ⟨⟨rfl, rfl, rfl, rfl⟩, rfl, rfl, hd, rfl⟩
  | false =>
    rw [usbGadgetDisconnect_of_active hd] at h
    obtain ⟨-, ⟨⟩⟩ := Option.ite_none_left_eq_some.mp h
    exact ⟨⟨rfl, rfl, rfl, rfl⟩, rfl, rfl, hd, rfl⟩

/-- Deactivating hides a gadget that is connected. -/
theorem usbGadgetDeactivate_spec {r : Int × GadgetCore} (h : c.usbGadgetDeactivate = some r) :
    SameDriver c r.2 ∧ r.2.connected = c.connected ∧ r.2.deactivated = true ∧
      pulledUp r.2.udc = ((c.deactivated || !c.connected) && pulledUp c.udc) := by
  unfold GadgetCore.usbGadgetDeactivate at h
  cases hd : c.deactivated with
  | true =>
    rw [if_pos hd] at h
    obtain ⟨⟩ := h
    exact ⟨SameDriver.refl c, rfl, hd, rfl⟩
  | false =>
    rw [if_neg (Bool.eq_false_iff.mp hd)] at h
    cases hc : c.connected with
    | true =>
      rw [if_pos hc] at h
      obtain ⟨⟨ret, q⟩, hq, ⟨⟩⟩ := Option.map_eq_some_iff.mp h
      obtain ⟨hsame, hret, -, -, hup⟩ := usbGadgetDisconnect_spec hq
      obtain rfl : ret = 0 := hret
      rw [hd] at hup
      exact ⟨⟨hsame.driver, hsame.vbus, hsame.gadgetDriver, hsame.vbuson⟩, rfl, rfl, hup⟩
    | false =>
      rw [if_neg (Bool.eq_false_iff.mp hc)] at h
      obtain ⟨⟩ := h
      exact ⟨⟨rfl, rfl, rfl, rfl⟩, hc, rfl, rfl⟩

/-- Activating shows a deactivated gadget that is connected. -/
theorem usbGadgetActivate_spec (c : GadgetCore) :
    ∃ r, c.usbGadgetActivate = some r ∧ SameDriver c r.2 ∧ r.2.connected = c.connected ∧
      r.2.deactivated = false ∧
      pulledUp r.2.udc =
        (pulledUp c.udc || c.deactivated && c.connected && c.udc.vbuson) := by
  unfold GadgetCore.usbGadgetActivate
  cases hd : c.deactivated with
  | false =>
    exact ⟨(0, c), rfl, SameDriver.refl c, rfl, hd, (Bool.or_false _).symm⟩
  | true =>
    cases hc : c.connected with
    | true =>
      obtain ⟨c', hrun, hsame, hcon, hdea, hup⟩ :=
        usbGadgetConnect_spec { c with deactivated := false }
      refine ⟨(0, c'), ?_, ⟨hsame.driver, hsame.vbus, hsame.gadgetDriver, hsame.vbuson⟩, hcon,
        hdea, hup⟩
      simpa [hc] using hrun
    | false =>
      refine ⟨(0, { c with deactivated := false }), ?_, ⟨rfl, rfl, rfl, rfl⟩, hc, rfl,
        (Bool.or_false _).symm⟩
      simp [hc]

theorem sameDriver_call {k : GadgetCall} (hcall : c.call k = some c') : SameDriver c c' := by
  cases k with
  | connect =>
    obtain ⟨d, hd, hsame, -⟩ := usbGadgetConnect_spec c
    obtain rfl : d = c' := Option.some.inj ((congrArg (Option.map Prod.snd) hd).symm.trans hcall)
    exact hsame
  | disconnect =>
    obtain ⟨r, hr, rfl⟩ := Option.map_eq_some_iff.mp hcall
    exact (usbGadgetDisconnect_spec hr).1
  | deactivate =>
    obtain ⟨r, hr, rfl⟩ := Option.map_eq_some_iff.mp hcall
    exact (usbGadgetDeactivate_spec hr).1
  | activate =>
    obtain ⟨r, hr, hsame, -⟩ := usbGadgetActivate_spec c
    obtain rfl : r.2 = c' := Option.some.inj ((congrArg (Option.map Prod.snd) hr).symm.trans hcall)
    exact hsame

/-- **A call of the core** changes neither driver, and shows the device only as a connected
gadget with VBUS. -/
theorem CoreOk.call (h : CoreOk c) {k : GadgetCall} (hcall : c.call k = some c') :
    CoreOk c' ∧ SameDriver c c' := by
  cases k with
  | connect =>
    obtain ⟨d, hd, hsame, hcon, hdea, hup⟩ := usbGadgetConnect_spec c
    obtain rfl : d = c' := Option.some.inj ((congrArg (Option.map Prod.snd) hd).symm.trans hcall)
    refine ⟨fun hon => ⟨hcon, ?_⟩, hsame⟩
    rw [hup, Bool.or_eq_true, Bool.and_eq_true, Bool.not_eq_true'] at hon
    rw [hdea, hsame.vbuson]
    rcases hon with hon | hon
    · exact (h hon).2
    · exact hon
  | disconnect =>
    obtain ⟨r, hr, rfl⟩ := Option.map_eq_some_iff.mp hcall
    obtain ⟨hsame, -, hcon, hdea, hup⟩ := usbGadgetDisconnect_spec hr
    refine ⟨fun hon => ?_, hsame⟩
    rw [hup, Bool.and_eq_true] at hon
    exact absurd hon.1 (Bool.eq_false_iff.mp (h hon.2).2.1)
  | deactivate =>
    obtain ⟨r, hr, rfl⟩ := Option.map_eq_some_iff.mp hcall
    obtain ⟨hsame, -, -, hup⟩ := usbGadgetDeactivate_spec hr
    refine ⟨fun hon => ?_, hsame⟩
    rw [hup, Bool.and_eq_true] at hon
    obtain ⟨hcon, hdea, -⟩ := h hon.2
    rw [hcon, hdea] at hon
    exact Bool.noConfusion hon.1
  | activate =>
    obtain ⟨r, hr, hsame, hcon, hdea, hup⟩ := usbGadgetActivate_spec c
    obtain rfl : r.2 = c' := Option.some.inj ((congrArg (Option.map Prod.snd) hr).symm.trans hcall)
    refine ⟨fun hon => ?_, hsame⟩
    rw [hup, Bool.or_eq_true, Bool.and_eq_true, Bool.and_eq_true] at hon
    rw [hcon, hsame.vbuson]
    rcases hon with hon | hon
    · exact ⟨(h hon).1, hdea, (h hon).2.2⟩
    · exact ⟨hon.1.2, hdea, hon.2⟩

theorem CoreOk.calls {calls : List GadgetCall} (h : CoreOk c)
    (hrun : exec GadgetCore.call c calls = some c') : CoreOk c' ∧ SameDriver c c' :=
  Runs.exec_invariant (P := fun d => CoreOk d ∧ SameDriver c d) (C := fun _ _ => True)
    (fun _ _ _ hd _ hstep => (hd.1.call hstep).imp_right hd.2.trans) ⟨h, SameDriver.refl c⟩
    (Along.of_forall fun _ _ => trivial) hrun

/-! ## What the calls of a driver show -/

/-- The pull-up is on just when the flags say so. -/
def Settled (c : GadgetCore) : Prop :=
  pulledUp c.udc = (c.connected && !c.deactivated && c.udc.vbuson)

theorem flags_call {k : GadgetCall} (hcall : c.call k = some c') :
    c'.connected = k.connected c.connected ∧ c'.deactivated = k.deactivated c.deactivated := by
  cases k with
  | connect =>
    obtain ⟨d, hd, -, hcon, hdea, -⟩ := usbGadgetConnect_spec c
    obtain rfl : d = c' := Option.some.inj ((congrArg (Option.map Prod.snd) hd).symm.trans hcall)
    exact ⟨hcon, hdea⟩
  | disconnect =>
    obtain ⟨r, hr, rfl⟩ := Option.map_eq_some_iff.mp hcall
    obtain ⟨-, -, hcon, hdea, -⟩ := usbGadgetDisconnect_spec hr
    exact ⟨hcon, hdea⟩
  | deactivate =>
    obtain ⟨r, hr, rfl⟩ := Option.map_eq_some_iff.mp hcall
    obtain ⟨-, hcon, hdea, -⟩ := usbGadgetDeactivate_spec hr
    exact ⟨hcon, hdea⟩
  | activate =>
    obtain ⟨r, hr, -, hcon, hdea, -⟩ := usbGadgetActivate_spec c
    obtain rfl : r.2 = c' := Option.some.inj ((congrArg (Option.map Prod.snd) hr).symm.trans hcall)
    exact ⟨hcon, hdea⟩

theorem flags_calls {calls : List GadgetCall} (hrun : exec GadgetCore.call c calls = some c') :
    c'.connected = calls.foldl GadgetCall.connected c.connected ∧
      c'.deactivated = calls.foldl GadgetCall.deactivated c.deactivated := by
  induction calls generalizing c with
  | nil =>
    obtain rfl := Option.some.inj hrun
    exact ⟨rfl, rfl⟩
  | cons k calls ih =>
    obtain ⟨d, hd, hrest⟩ := Runs.exec_cons.mp hrun
    obtain ⟨hcon, hdea⟩ := flags_call hd
    rw [List.foldl_cons, List.foldl_cons, ← hcon, ← hdea]
    exact ih hrest

theorem CoreOk.settled_call (h : CoreOk c) {k : GadgetCall} (hk : Settled c ∨ k ≠ .activate)
    (hcall : c.call k = some c') : Settled c' := by
  obtain ⟨hcon, hdea⟩ := flags_call hcall
  have hvbus := (h.call hcall).2.vbuson
  unfold Settled
  rw [hcon, hdea, hvbus]
  cases k with
  | connect =>
    obtain ⟨d, hd, -, -, -, hup⟩ := usbGadgetConnect_spec c
    obtain rfl : d = c' := Option.some.inj ((congrArg (Option.map Prod.snd) hd).symm.trans hcall)
    rw [hup]
    cases hp : pulledUp c.udc with
    | true =>
      obtain ⟨-, hoff, hon⟩ := h hp
      simp [GadgetCall.connected, GadgetCall.deactivated, hoff, hon]
    | false => simp [GadgetCall.connected, GadgetCall.deactivated]
  | disconnect =>
    obtain ⟨r, hr, rfl⟩ := Option.map_eq_some_iff.mp hcall
    rw [(usbGadgetDisconnect_spec hr).2.2.2.2]
    cases hp : pulledUp c.udc with
    | true => simp [GadgetCall.connected, (h hp).2.1]
    | false => simp [GadgetCall.connected]
  | deactivate =>
    obtain ⟨r, hr, rfl⟩ := Option.map_eq_some_iff.mp hcall
    rw [(usbGadgetDeactivate_spec hr).2.2.2]
    cases hp : pulledUp c.udc with
    | true => simp [GadgetCall.deactivated, (h hp).1, (h hp).2.1]
    | false => simp [GadgetCall.deactivated]
  | activate =>
    obtain ⟨r, hr, -, -, -, hup⟩ := usbGadgetActivate_spec c
    obtain rfl : r.2 = c' := Option.some.inj ((congrArg (Option.map Prod.snd) hr).symm.trans hcall)
    have hset : pulledUp c.udc = _ := hk.resolve_right (not_not.mpr rfl)
    rw [hup, hset]
    cases c.deactivated <;> cases c.connected <;> cases c.udc.vbuson <;> rfl

theorem CoreOk.settled_calls {calls : List GadgetCall} (h : CoreOk c)
    (hk : Settled c ∨ ∃ k ∈ calls, k ≠ .activate)
    (hrun : exec GadgetCore.call c calls = some c') : Settled c' := by
  induction calls generalizing c with
  | nil =>
    obtain rfl := Option.some.inj hrun
    exact hk.resolve_right (by simp)
  | cons k calls ih =>
    obtain ⟨d, hd, hrest⟩ := Runs.exec_cons.mp hrun
    have hok := (h.call hd).1
    by_cases hfirst : Settled c ∨ k ≠ .activate
    · exact ih hok (.inl (h.settled_call hfirst hd)) hrest
    · obtain ⟨hset, hact⟩ := not_or.mp hfirst
      obtain ⟨k', hmem, hk'⟩ := hk.resolve_left hset
      rcases List.mem_cons.mp hmem with rfl | hmem
      · exact absurd hk' hact
      · exact ih hok (.inr ⟨k', hmem, hk'⟩) hrest

theorem exec_activations {calls : List GadgetCall} (hd : c.deactivated = false)
    (hcalls : ∀ k ∈ calls, k = .activate) : exec GadgetCore.call c calls = some c := by
  induction calls with
  | nil => rfl
  | cons k calls ih =>
    have hcall : c.call k = some c := by
      rw [hcalls k List.mem_cons_self]
      show c.usbGadgetActivate.map Prod.snd = some c
      unfold GadgetCore.usbGadgetActivate
      rw [hd]
      rfl
    exact Runs.exec_cons.mpr ⟨c, hcall, ih fun k' hk' => hcalls k' (List.mem_cons_of_mem _ hk')⟩

theorem usbGadgetDisconnect_isSome (h : c.driver.isSome = true) :
    ∃ r, c.usbGadgetDisconnect = some r := by
  cases hd : c.deactivated with
  | true => exact ⟨_, if_pos hd⟩
  | false =>
    rw [usbGadgetDisconnect_of_active hd, Option.isNone_eq_false_iff.mpr h]
    exact ⟨_, rfl⟩

theorem call_isSome (h : c.driver.isSome = true) (k : GadgetCall) : ∃ c', c.call k = some c' := by
  cases k with
  | connect =>
    obtain ⟨d, hd, -⟩ := usbGadgetConnect_spec c
    exact ⟨d, congrArg (Option.map Prod.snd) hd⟩
  | disconnect =>
    obtain ⟨r, hr⟩ := usbGadgetDisconnect_isSome h
    exact ⟨r.2, congrArg (Option.map Prod.snd) hr⟩
  | deactivate =>
    show ∃ c', c.usbGadgetDeactivate.map Prod.snd = some c'
    obtain ⟨r, hr⟩ := usbGadgetDisconnect_isSome h
    unfold GadgetCore.usbGadgetDeactivate
    rw [hr]
    split
    · exact ⟨_, rfl⟩
    · split
      · exact ⟨_, rfl⟩
      · exact ⟨_, rfl⟩
  | activate =>
    obtain ⟨r, hr, -⟩ := usbGadgetActivate_spec c
    exact ⟨r.2, congrArg (Option.map Prod.snd) hr⟩

theorem calls_isSome (calls : List GadgetCall) (h : CoreOk c) (hdrv : c.driver.isSome = true) :
    ∃ c', exec GadgetCore.call c calls = some c' := by
  induction calls generalizing c with
  | nil => exact ⟨c, rfl⟩
  | cons k calls ih =>
    obtain ⟨d, hd⟩ := call_isSome hdrv k
    obtain ⟨hok, hsame⟩ := h.call hd
    obtain ⟨c', hc'⟩ := ih hok (hsame.driver ▸ hdrv)
    exact ⟨c', Runs.exec_cons.mpr ⟨d, hd, hc'⟩⟩

/-- **The calls of a driver** leave the pull-up off just when they do not show the device. -/
theorem hidden_iff {calls : List GadgetCall} (hdrv : c.driver.isSome = true)
    (hdown : pulledUp c.udc = false) :
    (∀ c', exec GadgetCore.call c calls = some c' → pulledUp c'.udc = false) ↔
      ¬ Shows c calls := by
  have h : CoreOk c := fun hup => Bool.noConfusion (hdown.symm.trans hup)
  obtain ⟨d, hd⟩ := calls_isSome calls h hdrv
  simp only [hd, Option.some.injEq, forall_eq']
  unfold Shows
  by_cases hidle : c.connected = true ∧ c.deactivated = false ∧ ∀ k ∈ calls, k = .activate
  · obtain rfl := Option.some.inj ((exec_activations hidle.2.1 hidle.2.2).symm.trans hd)
    exact iff_of_true hdown fun hshows => hshows.2.2.2 hidle
  · have hset : Settled c ∨ ∃ k ∈ calls, k ≠ .activate := by
      by_contra hnot
      obtain ⟨hset, hall⟩ := not_or.mp hnot
      refine hidle ⟨?_, ?_, fun k hk => by_contra fun hne => hall ⟨k, hk, hne⟩⟩
      · cases hcon : c.connected with
        | true => rfl
        | false => exact absurd (by rw [Settled, hdown, hcon]; rfl) hset
      · cases hdea : c.deactivated with
        | false => rfl
        | true => exact absurd (by rw [Settled, hdown, hdea]; simp) hset
    have hend : pulledUp d.udc = _ := h.settled_calls hset hd
    obtain ⟨hcon, hdea⟩ := flags_calls hd
    rw [hend, (h.calls hd).2.vbuson, hcon, hdea]
    generalize calls.foldl GadgetCall.connected c.connected = con
    generalize calls.foldl GadgetCall.deactivated c.deactivated = dea
    cases con <;> cases dea <;> cases c.udc.vbuson <;> simp [hidle]

/-! ## The operations -/

/-- The UDC has a driver just when the core has bound one. -/
def DriversAgree (c : GadgetCore) : Prop := c.driver.isSome = c.udc.gadgetDriver.isSome

theorem DriversAgree.of_sameDriver (h : DriversAgree c) (hs : SameDriver c c') :
    DriversAgree c' := by
  unfold DriversAgree
  rw [hs.driver, hs.gadgetDriver]
  exact h

theorem CoreOk.visibleOk (h : CoreOk c) (hdrv : c.udc.gadgetDriver.isSome = true) :
    VisibleOk c := fun hup => ⟨hdrv, h hup⟩

theorem visibleOk_iff_of_none (hdrv : c.udc.gadgetDriver.isSome = false) :
    VisibleOk c ↔ pulledUp c.udc = false := by
  constructor
  · intro h
    refine Bool.eq_false_iff.mpr fun hup => ?_
    exact Bool.noConfusion (hdrv.symm.trans (h hup).1)
  · intro h hup
    exact Bool.noConfusion (h.symm.trans hup)

theorem CoreOk.visibleOk_iff (h : CoreOk c) :
    VisibleOk c ↔ (pulledUp c.udc = true → c.udc.gadgetDriver.isSome = true) :=
  ⟨fun hv hup => (hv hup).1, fun hdrv hup => ⟨hdrv hup, h hup⟩⟩

theorem visibleOk_iff_of_or {on : Bool} (h : VisibleOk c) (hc' : CoreOk c')
    (hs : SameDriver c c') (hup : pulledUp c'.udc = (pulledUp c.udc || on)) :
    VisibleOk c' ↔ (on = true → c.udc.gadgetDriver.isSome = true) := by
  rw [hc'.visibleOk_iff, hup, hs.gadgetDriver, Bool.or_eq_true]
  constructor
  · intro hor hon
    exact hor (Or.inr hon)
  · rintro hdrv (hon | hon)
    · exact (h hon).1
    · exact hdrv hon

theorem visibleOk_of_and {on : Bool} (h : VisibleOk c) (hc' : CoreOk c') (hs : SameDriver c c')
    (hup : pulledUp c'.udc = (on && pulledUp c.udc)) : VisibleOk c' := by
  rw [hc'.visibleOk_iff, hup, hs.gadgetDriver, Bool.and_eq_true]
  exact fun hon => (h hon.2).1

theorem visibleOk_call_iff (h : VisibleOk c) (k : GadgetCall) :
    (∀ c', c.call k = some c' → VisibleOk c') ↔ Gated c (.call k) := by
  cases k with
  | connect =>
    obtain ⟨d, hd, hsame, -, -, hup⟩ := usbGadgetConnect_spec c
    have hcall : c.call .connect = some d := congrArg (Option.map Prod.snd) hd
    rw [hcall]
    simp only [Option.some.injEq, forall_eq']
    rw [visibleOk_iff_of_or h (h.coreOk.call hcall).1 hsame hup, Bool.and_eq_true,
      Bool.not_eq_true', and_imp]
    exact Iff.rfl
  | disconnect =>
    refine iff_of_true (fun c' hcall => ?_) trivial
    obtain ⟨r, hr, rfl⟩ := Option.map_eq_some_iff.mp hcall
    obtain ⟨hsame, -, -, -, hup⟩ := usbGadgetDisconnect_spec hr
    exact visibleOk_of_and h (h.coreOk.call hcall).1 hsame hup
  | deactivate =>
    refine iff_of_true (fun c' hcall => ?_) trivial
    obtain ⟨r, hr, rfl⟩ := Option.map_eq_some_iff.mp hcall
    obtain ⟨hsame, -, -, hup⟩ := usbGadgetDeactivate_spec hr
    exact visibleOk_of_and h (h.coreOk.call hcall).1 hsame hup
  | activate =>
    obtain ⟨r, hr, hsame, -, -, hup⟩ := usbGadgetActivate_spec c
    have hcall : c.call .activate = some r.2 := congrArg (Option.map Prod.snd) hr
    rw [hcall]
    simp only [Option.some.injEq, forall_eq']
    rw [visibleOk_iff_of_or h (h.coreOk.call hcall).1 hsame hup, Bool.and_eq_true,
      Bool.and_eq_true, and_imp, and_imp]
    exact Iff.rfl

/-- **A VBUS event** shows the device when `gadgetstart` is set, whatever the gadget's
flags are. -/
theorem visibleOk_vbusSession_iff (isActive : Bool) :
    (∀ c', gadgetStep c (.vbusSession isActive) = some c' → VisibleOk c') ↔
      Gated c (.vbusSession isActive) := by
  have hstep : gadgetStep c (.vbusSession isActive) = some { c with
      udc := { c.udc with vbuson := isActive }.emit
        (.connect (c.udc.gadgetstart && isActive)) } := by
    show (entry (rtsGadgetVbusSession isActive) c.udc).map _ = _
    rw [entry_rtsGadgetVbusSession]
    rfl
  rw [hstep]
  simp only [Option.some.injEq, forall_eq']
  unfold VisibleOk Gated
  dsimp only
  rw [pulledUp_connect, Bool.and_eq_true]
  constructor
  · intro h hact hstart
    obtain ⟨hdrv, hcon, hdea, -⟩ := h ⟨hstart, hact⟩
    exact ⟨hdrv, hcon, hdea⟩
  · rintro h ⟨hstart, hact⟩
    obtain ⟨hdrv, hcon, hdea⟩ := h hact hstart
    exact ⟨hdrv, hcon, hdea, hact⟩

theorem bind_eq (hagree : DriversAgree c) (hfree : c.driver = none) (h : CoreOk c)
    (driver : GadgetDriver) (calls : List GadgetCall) (ret : Int) :
    gadgetStep c (.bind driver calls ret) =
      (exec GadgetCore.call { c with driver := some driver } calls).bind fun c₁ =>
        if ret ≠ 0 then some { c₁ with driver := none }
        else { c₁ with udc := { c₁.udc.emit .phyInt with
          gadgetDriver := some driver, gadgetstart := true } }.usbUdcConnectControl := by
  have hnone : c.driver.isNone = true := by rw [hfree]; rfl
  have hudc : c.udc.gadgetDriver = none := by
    refine Option.not_isSome_iff_eq_none.mp (Bool.eq_false_iff.mp ?_)
    rw [← hagree, hfree]
    rfl
  show (if c.driver.isNone = true then _ else _) = _
  rw [if_pos hnone, GadgetCore.udcBindToDriver]
  cases hrun : exec GadgetCore.call { c with driver := some driver } calls with
  | none => rfl
  | some c₁ =>
    have hsame := (CoreOk.calls (c := { c with driver := some driver }) h hrun).2
    rw [Option.bind_some, Option.bind_some]
    by_cases hret : ret ≠ 0
    · rw [if_pos hret, if_pos hret]
      rfl
    · rw [if_neg hret, if_neg hret,
        entry_rtsGadgetUdcStart c₁.udc driver (hsame.gadgetDriver.trans hudc)]
      show (Option.map _ _).map _ = _
      rw [Option.map_map]
      exact Option.map_id'

theorem usbUdcConnectControl_eq (c : GadgetCore) :
    c.usbUdcConnectControl = c.call (if c.vbus then .connect else .disconnect) := by
  unfold GadgetCore.usbUdcConnectControl
  split <;> rfl

theorem visibleOk_usbUdcConnectControl (h : VisibleOk c) (hagree : DriversAgree c)
    (hdrv : c.udc.gadgetDriver.isSome = true) (hrun : c.usbUdcConnectControl = some c') :
    VisibleOk c' ∧ DriversAgree c' := by
  rw [usbUdcConnectControl_eq] at hrun
  obtain ⟨hok, hsame⟩ := h.coreOk.call hrun
  refine ⟨hok.visibleOk ?_, hagree.of_sameDriver hsame⟩
  rw [hsame.gadgetDriver]
  exact hdrv

/-- **A bind** that succeeds shows the device only if the core says so; one that fails must
leave the pull-up off. -/
theorem visibleOk_bind_iff (h : VisibleOk c) (hagree : DriversAgree c) (driver : GadgetDriver)
    (calls : List GadgetCall) (ret : Int) :
    (∀ c', gadgetStep c (.bind driver calls ret) = some c' → VisibleOk c') ↔
      Gated c (.bind driver calls ret) := by
  unfold Gated
  cases hfree : c.driver with
  | some d =>
    refine iff_of_true (fun c' hstep => ?_) nofun
    have hsome : ¬ c.driver.isNone = true := by rw [hfree]; exact nofun
    exact nomatch (if_neg hsome).symm.trans hstep
  | none =>
    have hudc : c.udc.gadgetDriver.isSome = false := by
      rw [← hagree, hfree]
      rfl
    have hhidden : _ ↔ ¬ Shows c calls := hidden_iff (c := { c with driver := some driver }) rfl
      ((visibleOk_iff_of_none hudc).mp h)
    rw [bind_eq hagree hfree h.coreOk]
    constructor
    · intro hstep _ hret
      refine hhidden.mp fun c₁ hrun => ?_
      have hsame := (CoreOk.calls (c := { c with driver := some driver }) h.coreOk hrun).2
      have hdrv : c₁.udc.gadgetDriver.isSome = false := hsame.gadgetDriver.symm ▸ hudc
      refine (visibleOk_iff_of_none (c := { c₁ with driver := none }) hdrv).mp (hstep _ ?_)
      rw [hrun, Option.bind_some, if_pos hret]
    · intro hgate c' hstep
      obtain ⟨c₁, hrun, hrest⟩ := Option.bind_eq_some_iff.mp hstep
      obtain ⟨hok, hsame⟩ := CoreOk.calls (c := { c with driver := some driver }) h.coreOk hrun
      by_cases hret : ret ≠ 0
      · rw [if_pos hret] at hrest
        obtain ⟨⟩ := hrest
        have hdrv : c₁.udc.gadgetDriver.isSome = false := hsame.gadgetDriver.symm ▸ hudc
        exact (visibleOk_iff_of_none (c := { c₁ with driver := none }) hdrv).mpr
          (hhidden.mpr (hgate rfl hret) c₁ hrun)
      · rw [if_neg hret] at hrest
        have hstart : VisibleOk { c₁ with udc := { c₁.udc.emit .phyInt with
            gadgetDriver := some driver, gadgetstart := true } } := CoreOk.visibleOk hok rfl
        have hboth : DriversAgree { c₁ with udc := { c₁.udc.emit .phyInt with
            gadgetDriver := some driver, gadgetstart := true } } :=
          congrArg Option.isSome hsame.driver
        exact (visibleOk_usbUdcConnectControl hstart hboth rfl hrest).1

theorem visibleOk_removeDriver_iff (h : VisibleOk c) (calls : List GadgetCall) :
    (∀ c', gadgetStep c (.removeDriver calls) = some c' → VisibleOk c') ↔
      Gated c (.removeDriver calls) := by
  have hhidden : ∀ r, c.usbGadgetDisconnect = some r → c.driver.isSome = true →
      ((∀ c', exec GadgetCore.call r.2 calls = some c' → pulledUp c'.udc = false) ↔
        ¬ Shows { c with connected := false } calls) := by
    intro r hr hsome
    obtain ⟨hsame, -, hcon, hdea, hup⟩ := usbGadgetDisconnect_spec hr
    have hdown : pulledUp r.2.udc = false := by
      rw [hup]
      cases hp : pulledUp c.udc with
      | true => rw [(h hp).2.2.1, Bool.false_and]
      | false => exact Bool.and_false _
    rw [hidden_iff (hsame.driver ▸ hsome) hdown, Shows, hsame.vbuson, hcon, hdea]
    exact Iff.rfl
  unfold Gated
  constructor
  · intro hstep hsome
    obtain ⟨r, hr⟩ := usbGadgetDisconnect_isSome hsome
    refine (hhidden r hr hsome).mp fun c₁ hrun => ?_
    refine (visibleOk_iff_of_none (c := { c₁ with
      udc := { c₁.udc with gadgetDriver := none, gadgetstart := false }, driver := none })
      rfl).mp (hstep _ ?_)
    show (if c.driver.isSome = true then _ else _) = _
    rw [if_pos hsome, GadgetCore.usbGadgetRemoveDriver, hr]
    show (exec GadgetCore.call r.2 calls).bind _ = _
    rw [hrun]
    rfl
  · intro hgate c' hstep
    obtain ⟨hsome, hrest⟩ := Option.ite_none_right_eq_some.mp hstep
    obtain ⟨r, hr, hrest⟩ := Option.bind_eq_some_iff.mp hrest
    obtain ⟨c₁, hrun, ⟨⟩⟩ := Option.bind_eq_some_iff.mp hrest
    exact (visibleOk_iff_of_none (c := { c₁ with
      udc := { c₁.udc with gadgetDriver := none, gadgetstart := false }, driver := none })
      rfl).mpr ((hhidden r hr hsome).mpr (hgate hsome) c₁ hrun)

/-- Every event leaves core and UDC agreed on whether there is a driver. -/
theorem DriversAgree.step {e : GadgetEvent} (h : VisibleOk c) (hagree : DriversAgree c)
    (hstep : gadgetStep c e = some c') : DriversAgree c' := by
  cases e with
  | call k => exact hagree.of_sameDriver (h.coreOk.call hstep).2
  | vbusSession isActive =>
    obtain ⟨⟨ret, udc⟩, hrun, ⟨⟩⟩ := Option.map_eq_some_iff.mp hstep
    rw [entry_rtsGadgetVbusSession] at hrun
    obtain ⟨⟩ := hrun
    exact hagree
  | bind driver calls ret =>
    have hfree : c.driver = none :=
      Option.isNone_iff_eq_none.mp (Option.ite_none_right_eq_some.mp hstep).1
    rw [bind_eq hagree hfree h.coreOk] at hstep
    obtain ⟨c₁, hrun, hrest⟩ := Option.bind_eq_some_iff.mp hstep
    obtain ⟨hok, hsame⟩ := CoreOk.calls (c := { c with driver := some driver }) h.coreOk hrun
    by_cases hret : ret ≠ 0
    · rw [if_pos hret] at hrest
      obtain ⟨⟩ := hrest
      unfold DriversAgree at hagree ⊢
      rw [hfree] at hagree
      rw [hsame.gadgetDriver]
      exact hagree
    · rw [if_neg hret, usbUdcConnectControl_eq] at hrest
      have hstart : CoreOk { c₁ with udc := { c₁.udc.emit .phyInt with
          gadgetDriver := some driver, gadgetstart := true } } := hok
      exact DriversAgree.of_sameDriver (congrArg Option.isSome hsame.driver) (hstart.call hrest).2
  | removeDriver calls =>
    obtain ⟨hsome, hrest⟩ := Option.ite_none_right_eq_some.mp hstep
    obtain ⟨r, hr, hrest⟩ := Option.bind_eq_some_iff.mp hrest
    obtain ⟨c₁, hrun, ⟨⟩⟩ := Option.bind_eq_some_iff.mp hrest
    rfl

/-- **The step.**  From a state in which the pull-up is as it should be, it is so after an
operation just when the operation is one of those that keep it. -/
theorem visibleOk_step_iff (h : VisibleOk c) (hagree : DriversAgree c) (e : GadgetEvent) :
    (∀ c', gadgetStep c e = some c' → VisibleOk c') ↔ Gated c e := by
  cases e with
  | call k => exact visibleOk_call_iff h k
  | vbusSession isActive => exact visibleOk_vbusSession_iff isActive
  | bind driver calls ret => exact visibleOk_bind_iff h hagree driver calls ret
  | removeDriver calls => exact visibleOk_removeDriver_iff h calls

/-- **Pull-up gating.**  In every state of a run the device is visible only as a connected
gadget that is not deactivated, with a started driver and VBUS, just when every operation of the
run is gated. -/
theorem visible_iff_gated (dynamicMaxpktsize : Bool) (es : List GadgetEvent) :
    (∀ es₁ es₂ c, es = es₁ ++ es₂ →
      exec gadgetStep (addGadgetUdc dynamicMaxpktsize) es₁ = some c → VisibleOk c) ↔
      Along gadgetStep Gated (addGadgetUdc dynamicMaxpktsize) es := by
  have hstart : VisibleOk (addGadgetUdc dynamicMaxpktsize) := nofun
  rw [Runs.forall_reached_iff, and_iff_right hstart]
  refine Along.congr (P := fun c => VisibleOk c ∧ DriversAgree c) ?_
    (fun c e h => visibleOk_step_iff h.1 h.2 e) ⟨hstart, rfl⟩
  rintro c e c' ⟨h, hagree⟩ hstep hc'
  exact ⟨hstep c' hc', hagree.step h hc'⟩

/-- A gadget that its driver deactivates in `bind` is shown to the host when VBUS comes on, and
is still shown when its driver is removed. -/
theorem deactivated_visible :
    ∃ c c', exec gadgetStep (addGadgetUdc false) [.bind {} [.deactivate] 0, .vbusSession true] =
        some c ∧ ¬ VisibleOk c ∧
      exec gadgetStep (addGadgetUdc false)
        [.bind {} [.deactivate] 0, .vbusSession true, .removeDriver []] = some c' ∧
      ¬ VisibleOk c' := by
  have hobs : (exec gadgetStep (addGadgetUdc false)
      [.bind {} [.deactivate] 0, .vbusSession true]).map
        (fun c => (pulledUp c.udc, c.deactivated)) = some (true, true) := rfl
  have hobs' : (exec gadgetStep (addGadgetUdc false)
      [.bind {} [.deactivate] 0, .vbusSession true, .removeDriver []]).map
        (fun c => (pulledUp c.udc, c.udc.gadgetDriver.isSome)) = some (true, false) := rfl
  obtain ⟨c, hrun, hc⟩ := Option.map_eq_some_iff.mp hobs
  obtain ⟨c', hrun', hc'⟩ := Option.map_eq_some_iff.mp hobs'
  obtain ⟨hup, hdea⟩ := Prod.ext_iff.mp hc
  obtain ⟨hup', hdrv⟩ := Prod.ext_iff.mp hc'
  refine ⟨c, c', hrun, fun h => ?_, hrun', fun h => ?_⟩
  · exact Bool.noConfusion (hdea.symm.trans (h hup).2.2.1)
  · exact Bool.noConfusion (hdrv.symm.trans (h hup').1)

end RealtekIpcam.Udc
