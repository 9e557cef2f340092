import RealtekIpcam.Rtc.RangeOffset

/-!
# Setting the time

`rtc_set_time` sets the time with the update interrupt switched off, and switches it on again
when it is done.  Each of the three steps takes `ops_lock`, and waiting for it can be
interrupted.

There is one variable for the errors.  What switching the interrupt on returns goes over what
`set_time` returned, so that an error of `set_time` is lost when the update interrupt was in
use; and a signal between the steps leaves it switched off.
-/

namespace RealtekIpcam.Rtc

variable {Tm : Type}

/-! ## The source -/

def ENODEV : Int := 19

/-- The driver's `set_time`: there are no operations, or none for this, or it answers and its
clock goes on from there. -/
inductive SetTimeOp (Tm : Type) where
  | noOps
  | missing
  | op (setTime : Tm → Int × (Nat → Tm))

/-- A signal comes while the process waits for `ops_lock` the first, second or third time. -/
structure Signals where
  disable : Bool
  set : Bool
  enable : Bool

/-- What becomes of a call: its return value, the driver's clock and the device, with what
`set_time` and the second `rtc_update_irq_enable` returned if they were called. -/
structure SetTimeResult (Tm : Type) where
  err : Int
  env : RtcEnv Tm
  dev : RtcDevice Tm
  setTimeErr : Option Int
  enableErr : Option Int

/-- The call of `ops->set_time`. -/
def SetTimeOp.call (op : SetTimeOp Tm) (env : RtcEnv Tm) (tm : Tm) : Int × RtcEnv Tm × Option Int :=
  match op with
  | .noOps => (- ENODEV, env, none)
  | .missing => (- EINVAL, env, none)
  | .op setTime =>
    ((setTime tm).1, { env with driverReadTime := (setTime tm).2 }, some (setTime tm).1)

namespace RtcEnv

variable (env : RtcEnv Tm) (op : SetTimeOp Tm) (signals : Signals) (s : RtcDevice Tm) (tm : Tm)

/-- `rtc_set_time` with `ops_lock`, and what follows it. -/
def setTimeLocked (uie : Bool) : SetTimeResult Tm :=
  let (err, env, setTimeErr) := op.call env tm
  let s := s.scheduleIrqwork
  if uie then
    let (err, s) := env.rtcUpdateIrqEnable s signals.enable true
    ⟨err, env, s, setTimeErr, some err⟩
  else ⟨err, env, s, setTimeErr, none⟩

/-- `rtc_set_time`, without emulation of the update interrupt. -/
def rtcSetTime : SetTimeResult Tm :=
  if !env.validTm tm then ⟨- EINVAL, env, s, none, none⟩
  else if env.rtcValidRange tm ≠ 0 then ⟨env.rtcValidRange tm, env, s, none, none⟩
  else
    let tm := env.rtcSubtractOffset tm
    let uie := (s.timers .uie).enabled
    let (err, s) := if uie then env.rtcUpdateIrqEnable s signals.disable false else (0, s)
    if err ≠ 0 then ⟨err, env, s, none, none⟩
    else if signals.set then ⟨- EINTR, env, s, none, none⟩
    else env.setTimeLocked op signals s tm uie

end RtcEnv

section UpdateIrq

variable (env : RtcEnv Tm) (s : RtcDevice Tm)

theorem driverSetAlarm_timers (alarm : RtcWkalrm Tm) :
    (s.setAlarm alarm).2.timers = s.timers := by
  simp only [RtcDevice.setAlarm]
  split <;> rfl

theorem setAlarm_timers (alarm : RtcWkalrm Tm) : (env.setAlarm s alarm).2.timers = s.timers := by
  simp only [RtcEnv.setAlarm]
  split
  · split
    · rfl
    · split
      · rfl
      · exact driverSetAlarm_timers s.tick _
  · rfl

theorem rtcTimerRemove_enabled (t : TimerId) :
    ((env.rtcTimerRemove s t).timers t).enabled = false := by
  have hoff : (((s.timerqueueDel t).setEnabled t false).timers t).enabled = false := by
    simp [RtcDevice.setEnabled, RtcDevice.setTimer]
  simp only [RtcEnv.rtcTimerRemove]
  split
  · split
    · exact hoff
    · split
      · rw [RtcDevice.scheduleIrqwork, setAlarm_timers, hoff]
      · rw [setAlarm_timers, hoff]
  · exact hoff

/-- The update interrupt, when it is on, is switched off unless a signal comes or the device
does not have it; then nothing changes. -/
theorem rtcUpdateIrqEnable_off (signal : Bool) (huie : (s.timers .uie).enabled = true) :
    env.rtcUpdateIrqEnable s signal false =
      if signal then (- EINTR, s)
      else if env.uieUnsupported then (- EINVAL, s)
      else (0, env.rtcTimerRemove s .uie) := by
  simp [RtcEnv.rtcUpdateIrqEnable, huie]

end UpdateIrq

/-! ## Errors -/

/-- A return value of 0 says that `set_time` was called and returned 0; after any other the update
interrupt is on just if it was before, unless switching it on failed. -/
structure SetTimeOk (s : RtcDevice Tm) (r : SetTimeResult Tm) : Prop where
  zero : r.err = 0 → r.setTimeErr = some 0
  uie : r.err ≠ 0 → (∀ err, r.enableErr = some err → err = 0) →
    (r.dev.timers .uie).enabled = (s.timers .uie).enabled

section

variable (env : RtcEnv Tm) (op : SetTimeOp Tm) (signals : Signals) (s : RtcDevice Tm) (tm : Tm)

/-- The update interrupt is switched off for the call: the time is accepted, the interrupt is in
use and the device has it, and no signal comes while the process waits for the lock. -/
def SwitchesOff : Prop :=
  env.validTm tm = true ∧ env.rtcValidRange tm = 0 ∧ (s.timers .uie).enabled = true ∧
    signals.disable = false ∧ env.uieUnsupported = false

/-- `set_time` is missing or returns an error. -/
def SetTimeFails : Prop := (op.call env (env.rtcSubtractOffset tm)).1 ≠ 0

/-- Switching the update interrupt on again returns 0. -/
def EnableSucceeds : Prop :=
  ((op.call env (env.rtcSubtractOffset tm)).2.1.rtcUpdateIrqEnable
    (env.rtcTimerRemove s .uie).scheduleIrqwork signals.enable true).1 = 0

/-- With the update interrupt switched off, no signal comes before `set_time` is called, and it
does not fail with the interrupt switched on again. -/
def SetTimeCondition : Prop :=
  SwitchesOff env signals s tm →
    signals.set = false ∧ ¬(SetTimeFails env op tm ∧ EnableSucceeds env op signals s tm)

theorem setTimeErr_eq_zero_iff : (op.call env tm).2.2 = some 0 ↔ (op.call env tm).1 = 0 := by
  cases op with
  | noOps => exact iff_of_false (by rintro ⟨⟩) (by rintro ⟨⟩)
  | missing => exact iff_of_false (by rintro ⟨⟩) (by rintro ⟨⟩)
  | op setTime => exact Option.some_inj

theorem setTimeLocked_off : SetTimeOk s (env.setTimeLocked op signals s tm false) :=
  ⟨(setTimeErr_eq_zero_iff env op tm).mpr, fun _ _ => rfl⟩

theorem setTimeLocked_on_iff {s₁ : RtcDevice Tm} :
    SetTimeOk s (env.setTimeLocked op signals s₁ tm true) ↔
      ¬((op.call env tm).1 ≠ 0 ∧ ((op.call env tm).2.1.rtcUpdateIrqEnable s₁.scheduleIrqwork
        signals.enable true).1 = 0) := by
  have hset := setTimeErr_eq_zero_iff env op tm
  constructor
  · intro hok hmasked
    exact hmasked.1 (hset.mp (hok.zero hmasked.2))
  · intro hnot
    refine ⟨fun hzero => hset.mpr (by_contra fun hne => hnot ⟨hne, hzero⟩), fun herr hon => ?_⟩
    exact absurd (hon _ rfl) herr

theorem setTimeOk_unchanged {err : Int} (herr : err ≠ 0) :
    SetTimeOk s ⟨err, env, s, none, none⟩ :=
  ⟨fun hzero => absurd hzero herr, fun _ _ => rfl⟩

theorem not_setTimeOk_interrupted (huie : (s.timers .uie).enabled = true) :
    ¬SetTimeOk s ⟨- EINTR, env, env.rtcTimerRemove s .uie, none, none⟩ := by
  intro hok
  have hkept := hok.uie (by decide : - EINTR ≠ 0) nofun
  rw [rtcTimerRemove_enabled, huie] at hkept
  cases hkept

/-- **Errors of `rtc_set_time`.**  They are as they should be exactly if, with the update
interrupt switched off, no signal comes before `set_time` is called and it does not fail with
the interrupt switched on again. -/
theorem rtcSetTime_ok_iff :
    SetTimeOk s (env.rtcSetTime op signals s tm) ↔ SetTimeCondition env op signals s tm := by
  have hinval : - EINVAL ≠ 0 := by decide
  have hintr : - EINTR ≠ 0 := by decide
  unfold RtcEnv.rtcSetTime SetTimeCondition SwitchesOff
  cases hvalid : env.validTm tm with
  | false => simp [setTimeOk_unchanged env s hinval]
  | true =>
    by_cases hrange : env.rtcValidRange tm = 0
    · cases huie : (s.timers .uie).enabled with
      | false =>
        cases hset : signals.set with
        | true => simp [hrange, setTimeOk_unchanged env s hintr]
        | false => simp [hrange, setTimeLocked_off]
      | true =>
        simp only [rtcUpdateIrqEnable_off env s signals.disable huie]
        cases hdisable : signals.disable with
        | true => simp [hrange, hintr, setTimeOk_unchanged env s hintr]
        | false =>
          cases hunsupported : env.uieUnsupported with
          | true => simp [hrange, hinval, setTimeOk_unchanged env s hinval]
          | false =>
            cases hset : signals.set with
            | true => simp [hrange, not_setTimeOk_interrupted env s huie]
            | false =>
              simp [hrange, setTimeLocked_on_iff, SetTimeFails, EnableSucceeds]
    · simp [hrange, setTimeOk_unchanged env s hrange]

end

/-- A device with the update interrupt in use. -/
def updating : RtcDevice Time64 :=
  (centuryEnv.rtcUpdateIrqEnable (rtcDeviceInit Time64) false true).2

/-- A `set_time` that fails to reach the hardware, with `EIO`, and leaves the clock as it is. -/
def failingSetTime : SetTimeOp Time64 := .op fun _ => (-5, centuryEnv.driverReadTime)

/-- With the update interrupt in use, such a call returns 0. -/
theorem not_rtcSetTime_ok_masked :
    (updating.timers .uie).enabled = true ∧
      (centuryEnv.rtcSetTime failingSetTime ⟨false, false, false⟩ updating 1577836800).err = 0 ∧
      (centuryEnv.rtcSetTime failingSetTime ⟨false, false, false⟩ updating 1577836800).setTimeErr
        = some (-5) ∧
      ¬SetTimeOk updating
        (centuryEnv.rtcSetTime failingSetTime ⟨false, false, false⟩ updating 1577836800) := by
  refine ⟨by decide +kernel, by decide +kernel, by decide +kernel, fun hok => ?_⟩
  exact absurd (hok.zero (by decide +kernel)) (by decide +kernel)

end RealtekIpcam.Rtc
